import CloudGateway.Metrics.Exposition
import CloudGateway.Metrics.History

/-!
# What a scraper reads

The text of a registry is read back line by line: a HELP line is the name of a metric and its
description, a TYPE line its name and its kind, and any other line is a value with its name
and labels (`readLine`).  Names are not quoted and labels are not escaped, so this cannot work
for all of them.  Where no name holds a blank, a brace, a '#' or a line end, and no labels and
no description hold a line end, the lines that are read are the ones that were written
(`scrape_renderPrometheus`), and two registries have the same text only if they describe the
same metrics and print the same values for them (`scrape_renderPrometheus`).
-/

universe u

namespace CloudGateway

namespace MetricsRegistry

open Lines

variable {F : Type u}

/-! ## Reading -/

/-- What a line says. -/
inductive Line
  /-- The description of a metric. -/
  | help (name text : List Char)
  /-- The kind of a metric. -/
  | type (name kind : List Char)
  /-- The value of a metric with some labels. -/
  | sample (name labels value : List Char)
deriving DecidableEq

/-- The labels and the value, read from what is behind the name. -/
def readSample (name : List Char) : List Char → Line
  | '\x7b' :: rest => .sample name (beforeLast '\x7d' rest) (afterLast '\x7d' rest).tail
  | rest => .sample name [] rest.tail

/-- What a line says, if it is not a comment of another sort. -/
def readLine (line : List Char) : Option Line :=
  if isComment line then
    let rest := line.drop 7
    if "# HELP ".toList.isPrefixOf line then some (.help (before ' ' rest) (after ' ' rest))
    else if "# TYPE ".toList.isPrefixOf line then some (.type (before ' ' rest) (after ' ' rest))
    else none
  else
    some (readSample (line.takeWhile fun c ↦ c != ' ' && c != '\x7b')
      (line.dropWhile fun c ↦ c != ' ' && c != '\x7b'))

/-- What the lines of a text say.  Nothing is behind the last line end. -/
def scrape (text : String) : List Line := (text.toList.splitOn '\n').dropLast.filterMap readLine

/-! ## Writing -/

/-- The kind of a metric, as it is written. -/
def kindText : MetricType → List Char
  | .counter => "counter".toList
  | .gauge => "gauge".toList

variable [F64 F] [Zero F] [NatCast F] [BEq F] [LT F] [DecidableLT F]

/-- What is written of a metric. -/
def entryWritten (name : String) (entry : MetricEntry F) : List Line :=
  .help name.toList entry.help.toList :: .type name.toList (kindText entry.metric_type) ::
    entry.values.toList.map fun x ↦ .sample name.toList x.1.toList (formatValue x.2).toList

/-- What is written of a registry. -/
def written (self : MetricsRegistry F) : List Line :=
  self.metrics.toList.flatMap fun x ↦ entryWritten x.1 x.2

/-! ## Lines -/

section Lines

omit [F64 F] [Zero F] [NatCast F] [BEq F] [LT F] [DecidableLT F]

variable {name : String} (hblank : ' ' ∉ name.toList) (entry : MetricEntry F)

include hblank

theorem readLine_helpLine :
    readLine (helpLine name entry).toList = some (.help name.toList entry.help.toList) := by
  have hline : (helpLine name entry).toList
      = "# HELP ".toList ++ (name.toList ++ ' ' :: entry.help.toList) := by
    simp [helpLine]
  have hhelp : "# HELP ".toList.isPrefixOf (helpLine name entry).toList = true := by
    rw [hline, List.isPrefixOf_iff_prefix]
    exact List.prefix_append _ _
  have hrest : (helpLine name entry).toList.drop 7 = name.toList ++ ' ' :: entry.help.toList := by
    rw [hline]
    exact List.drop_left' (by decide)
  rw [readLine, if_pos (isComment_helpLine name entry), if_pos hhelp, hrest,
    before_append_cons hblank, after_append_cons hblank]

theorem readLine_typeLine :
    readLine (typeLine name entry).toList
      = some (.type name.toList (kindText entry.metric_type)) := by
  have hline : (typeLine name entry).toList
      = "# TYPE ".toList ++ (name.toList ++ ' ' :: kindText entry.metric_type) := by
    rw [typeLine, String.toList_append, String.toList_append, List.append_assoc]
    cases entry.metric_type <;> rfl
  have hhelp : ¬ "# HELP ".toList.isPrefixOf (typeLine name entry).toList = true := by
    rw [hline, List.isPrefixOf_iff_prefix]
    rintro ⟨rest, hrest⟩
    have hthird := congrArg (·[2]?) hrest
    rw [List.getElem?_append_left (by decide), List.getElem?_append_left (by decide)] at hthird
    exact absurd hthird (by decide)
  have htype : "# TYPE ".toList.isPrefixOf (typeLine name entry).toList = true := by
    rw [hline, List.isPrefixOf_iff_prefix]
    exact List.prefix_append _ _
  have hrest : (typeLine name entry).toList.drop 7
      = name.toList ++ ' ' :: kindText entry.metric_type := by
    rw [hline]
    exact List.drop_left' (by decide)
  rw [readLine, if_pos (isComment_typeLine name entry), if_neg hhelp, if_pos htype, hrest,
    before_append_cons hblank, after_append_cons hblank]

end Lines

theorem readLine_valueLine {name : String} (hblank : ' ' ∉ name.toList)
    (hbrace : '\x7b' ∉ name.toList) (hhash : '#' ∉ name.toList) {labels : String} {value : F}
    (hvalue : '\x7d' ∉ (formatValue value).toList) :
    readLine (valueLine (name, labels, value)).toList
      = some (.sample name.toList labels.toList (formatValue value).toList) := by
  have hname : ∀ c ∈ name.toList, (c != ' ' && c != '\x7b') = true := by
    intro c hc
    rw [Bool.and_eq_true, bne_iff_ne, bne_iff_ne]
    exact ⟨fun h ↦ hblank (h ▸ hc), fun h ↦ hbrace (h ▸ hc)⟩
  rw [readLine, if_neg (by rw [isComment_valueLine hhash]; exact Bool.false_ne_true)]
  by_cases hlabels : labels = ""
  · have hline : (valueLine (name, labels, value)).toList
        = name.toList ++ ' ' :: (formatValue value).toList := by
      simp [valueLine, hlabels]
    rw [hline, List.takeWhile_append_of_pos hname, List.dropWhile_append_of_pos hname,
      List.takeWhile_cons_of_neg (by decide), List.dropWhile_cons_of_neg (by decide),
      List.append_nil, hlabels]
    rfl
  · have hline : (valueLine (name, labels, value)).toList
        = name.toList ++ '\x7b' :: (labels.toList
          ++ '\x7d' :: ' ' :: (formatValue value).toList) := by
      simp [valueLine, hlabels]
    have hlast : '\x7d' ∉ ' ' :: (formatValue value).toList := by
      rw [List.mem_cons, not_or]
      exact ⟨by decide, hvalue⟩
    rw [hline, List.takeWhile_append_of_pos hname, List.dropWhile_append_of_pos hname,
      List.takeWhile_cons_of_neg (by decide), List.dropWhile_cons_of_neg (by decide),
      List.append_nil, readSample, beforeLast_append_cons hlast, afterLast_append_cons hlast]
    rfl

/-! ## Registries -/

/-- A metric of which the text can be read back. -/
structure LegibleEntry (name : String) (entry : MetricEntry F) : Prop
    extends TidyEntry name entry where
  name_blank : ' ' ∉ name.toList
  name_brace : '\x7b' ∉ name.toList
  help_line : '\n' ∉ entry.help.toList

/-- A registry of such metrics. -/
def Legible (self : MetricsRegistry F) : Prop :=
  ∀ (name : String) (entry : MetricEntry F), self.metrics[name]? = some entry →
    LegibleEntry name entry

/-- The operation names metrics without a line end, a '#', a blank or a brace, and describes
and labels them without a line end. -/
def Op.Legible : Op F → Prop
  | .register name help _ =>
      ('\n' ∉ name.toList ∧ '#' ∉ name.toList) ∧ ' ' ∉ name.toList ∧ '\x7b' ∉ name.toList ∧
        '\n' ∉ help.toList
  | .counterIncLabels _ labels _ | .gaugeSetLabels _ labels _ => '\n' ∉ labels.toList
  | .counterInc _ _ | .gaugeSet _ _ => True

omit [F64 F] [Zero F] [NatCast F] [BEq F] [LT F] [DecidableLT F] in
theorem Op.Legible.plain {op : Op F} (h : op.Legible) : op.Plain := by
  cases op with
  | register => exact h.1
  | _ => exact h

section Legible

omit [F64 F] [NatCast F] [BEq F] [LT F] [DecidableLT F]

variable [Add F]

/-- A metric is named and described as by some call. -/
theorem exists_register {ops : List (Op F)} {name : String} {entry : MetricEntry F}
    (h : (new.run ops).metrics[name]? = some entry) :
    .register name entry.help entry.metric_type ∈ ops := by
  have hdescribed := (records_run ops).described name
  rw [h] at hdescribed
  obtain ⟨⟨help, metric_type⟩, hfirst, heq⟩ := Option.map_eq_some_iff.mp hdescribed.symm
  obtain ⟨-, hkind⟩ := Prod.mk.inj heq
  obtain ⟨hhelp, htype⟩ := Prod.mk.inj hkind
  obtain ⟨op, hop, hregisters⟩ := List.exists_of_findSome?_eq_some hfirst
  cases op with
  | register name' help' metric_type' =>
      rw [Op.registers] at hregisters
      split at hregisters
      · rename_i hname
        cases hregisters
        rw [← hname, ← hhelp, ← htype]
        exact hop
      · cases hregisters
  | _ => cases hregisters

theorem legible_run {ops : List (Op F)} (hops : ∀ op ∈ ops, op.Legible) :
    (new.run ops).Legible := by
  intro name entry hentry
  obtain ⟨-, hblank, hbrace, hhelp⟩ := hops _ (exists_register hentry)
  exact ⟨tidy_new.run (fun op hop ↦ (hops op hop).plain) name entry hentry, hblank, hbrace, hhelp⟩

end Legible

/-- The lines of a metric say what is written of it. -/
theorem filterMap_entryLines {name : String} {entry : MetricEntry F}
    (h : LegibleEntry name entry) (hdisplay : ∀ x : F, '\x7d' ∉ (formatValue x).toList) :
    (entryLines name entry).filterMap readLine = entryWritten name entry := by
  have hvalues : (entry.values.toList.map fun x ↦ (valueLine (name, x)).toList).filterMap readLine
      = entry.values.toList.map fun x ↦
          .sample name.toList x.1.toList (formatValue x.2).toList := by
    rw [List.filterMap_map, ← List.filterMap_eq_map]
    refine List.filterMap_congr fun x _ ↦ ?_
    exact readLine_valueLine h.name_blank h.name_brace h.name_hash (hdisplay x.2)
  rw [entryLines, List.filterMap_cons_some (readLine_helpLine h.name_blank entry),
    List.filterMap_cons_some (readLine_typeLine h.name_blank entry), hvalues]
  rfl

/-- What is read is what was written. -/
theorem filterMap_lines {self : MetricsRegistry F} (h : self.Legible)
    (hdisplay : ∀ x : F, '\x7d' ∉ (formatValue x).toList) :
    self.lines.filterMap readLine = self.written := by
  rw [lines, List.filterMap_flatMap, written]
  refine List.flatMap_congr fun x hx ↦ ?_
  exact filterMap_entryLines (h x.1 x.2 (Std.TreeMap.mem_toList_iff_getElem?_eq_some.mp hx))
    hdisplay

/-! ## What the text determines -/

section Written

variable {self : MetricsRegistry F}

theorem mem_written_iff {line : Line} : line ∈ self.written ↔
    ∃ (name : String) (entry : MetricEntry F),
      self.metrics[name]? = some entry ∧ line ∈ entryWritten name entry := by
  rw [written, List.mem_flatMap]
  constructor
  · rintro ⟨⟨name, entry⟩, hentry, hline⟩
    exact ⟨name, entry, Std.TreeMap.mem_toList_iff_getElem?_eq_some.mp hentry, hline⟩
  · rintro ⟨name, entry, hentry, hline⟩
    exact ⟨(name, entry), Std.TreeMap.mem_toList_iff_getElem?_eq_some.mpr hentry, hline⟩

theorem mem_written_help {name help : String} :
    .help name.toList help.toList ∈ self.written ↔
      ∃ entry : MetricEntry F, self.metrics[name]? = some entry ∧ entry.help = help := by
  rw [mem_written_iff]
  constructor
  · rintro ⟨name', entry, hentry, hline⟩
    obtain ⟨hname, hhelp⟩ : name = name' ∧ help = entry.help := by
      simpa [entryWritten, String.toList_inj] using hline
    subst hname
    exact ⟨entry, hentry, hhelp.symm⟩
  · rintro ⟨entry, hentry, rfl⟩
    exact ⟨name, entry, hentry, List.mem_cons_self⟩

theorem kindText_injective : Function.Injective kindText := by
  rintro (_ | _) (_ | _) h
  · rfl
  · exact absurd h (by decide)
  · exact absurd h (by decide)
  · rfl

theorem mem_written_type {name : String} {metric_type : MetricType} :
    .type name.toList (kindText metric_type) ∈ self.written ↔
      self.kind name = some metric_type := by
  rw [mem_written_iff, kind, Option.map_eq_some_iff]
  constructor
  · rintro ⟨name', entry, hentry, hline⟩
    obtain ⟨hname, hkind⟩ : name = name' ∧ kindText metric_type = kindText entry.metric_type := by
      simpa [entryWritten, String.toList_inj] using hline
    subst hname
    exact ⟨entry, hentry, (kindText_injective hkind).symm⟩
  · rintro ⟨entry, hentry, rfl⟩
    exact ⟨name, entry, hentry, List.mem_cons_of_mem _ List.mem_cons_self⟩

theorem mem_written_sample {name labels text : String} :
    .sample name.toList labels.toList text.toList ∈ self.written ↔
      (self.stored name labels).map formatValue = some text := by
  rw [mem_written_iff, Option.map_eq_some_iff]
  constructor
  · rintro ⟨name', entry, hentry, hline⟩
    obtain ⟨labels', value, hvalue, hname, hlabels, htext⟩ : ∃ labels' value,
        (labels', value) ∈ entry.values.toList ∧ name' = name ∧ labels' = labels ∧
          formatValue value = text := by
      simpa [entryWritten, String.toList_inj] using hline
    subst hname hlabels
    refine ⟨value, ?_, htext⟩
    rw [stored, hentry]
    exact Std.TreeMap.mem_toList_iff_getElem?_eq_some.mp hvalue
  · rintro ⟨value, hstored, rfl⟩
    obtain ⟨entry, hentry, hvalue⟩ := Option.bind_eq_some_iff.mp hstored
    refine ⟨name, entry, hentry, List.mem_cons_of_mem _ (List.mem_cons_of_mem _ ?_)⟩
    exact List.mem_map.mpr ⟨(labels, value),
      Std.TreeMap.mem_toList_iff_getElem?_eq_some.mpr hvalue, rfl⟩

end Written

/-- The description and the kind of a metric. -/
def described (self : MetricsRegistry F) (name : String) : Option (String × MetricType) :=
  self.metrics[name]?.map fun entry ↦ (entry.help, entry.metric_type)

/-- What is written of a metric describes it. -/
theorem described_of_written {reg reg' : MetricsRegistry F}
    (h : ∀ line ∈ reg.written, line ∈ reg'.written) {name help : String}
    {metric_type : MetricType} (hreg : reg.described name = some (help, metric_type)) :
    reg'.described name = some (help, metric_type) := by
  obtain ⟨entry, hentry, heq⟩ := Option.map_eq_some_iff.mp hreg
  obtain ⟨rfl, rfl⟩ := Prod.mk.inj heq
  obtain ⟨entry', hentry', hhelp⟩ :=
    mem_written_help.mp (h _ (mem_written_help.mpr ⟨entry, hentry, rfl⟩))
  have hkind : reg.kind name = some entry.metric_type := by
    rw [kind, hentry]
    rfl
  have hkind' := mem_written_type.mp (h _ (mem_written_type.mpr hkind))
  rw [kind, hentry'] at hkind'
  rw [described, hentry', ← hhelp, ← Option.some.inj hkind']
  rfl

/-- Registries of which the same is written hold the same, as far as it is printed. -/
theorem eq_of_written {reg reg' : MetricsRegistry F} (h : reg.written = reg'.written) :
    (∀ name, reg.described name = reg'.described name) ∧
      ∀ name labels, (reg.stored name labels).map formatValue
        = (reg'.stored name labels).map formatValue := by
  constructor
  · intro name
    ext ⟨help, metric_type⟩
    exact ⟨described_of_written fun line hline ↦ h ▸ hline,
      described_of_written fun line hline ↦ h ▸ hline⟩
  · intro name labels
    ext text
    rw [← mem_written_sample, ← mem_written_sample, h]

/-! ## What determines the text -/

/-- A metric with its values as they are printed. -/
def printEntry (entry : MetricEntry F) : MetricEntry String :=
  { name := entry.name
    help := entry.help
    metric_type := entry.metric_type
    values := entry.values.map fun _ value ↦ formatValue value }

/-- A registry with its values as they are printed. -/
def printed (self : MetricsRegistry F) : MetricsRegistry String :=
  ⟨self.metrics.map fun _ entry ↦ printEntry entry⟩

theorem stored_printed (self : MetricsRegistry F) (name labels : String) :
    self.printed.stored name labels = (self.stored name labels).map formatValue := by
  rw [stored, stored, printed, Std.TreeMap.getElem?_map]
  cases self.metrics[name]? with
  | none => rfl
  | some entry => exact Std.TreeMap.getElem?_map

/-- The text of a metric is made of what is printed. -/
theorem renderEntry_congr_printed (out : String) (entry entry' : MetricEntry F)
    (h : shown (printEntry entry) = shown (printEntry entry')) :
    renderEntry out entry = renderEntry out entry' := by
  obtain ⟨hname, h⟩ := Prod.mk.inj h
  obtain ⟨hhelp, h⟩ := Prod.mk.inj h
  obtain ⟨htype, hvalues⟩ := Prod.mk.inj h
  have hname : entry.name = entry'.name := hname
  have hhelp : entry.help = entry'.help := hhelp
  have htype : entry.metric_type = entry'.metric_type := htype
  have hline : ∀ e : MetricEntry F,
      (e.values.toList.map fun x ↦ (valueLine (entry'.name, x)).toList)
        = (printEntry e).values.toList.map fun x ↦ (entry'.name
          ++ (if x.1 ≠ "" then "\x7b" ++ x.1 ++ "\x7d" else "") ++ " " ++ x.2).toList := by
    intro e
    rw [printEntry, Std.TreeMap.toList_map, List.map_map]
    rfl
  have hlines : entryLines entry.name entry = entryLines entry'.name entry' := by
    rw [entryLines, entryLines, helpLine, helpLine, typeLine, typeLine, hname, hhelp, htype,
      hline, hline, hvalues]
  apply String.toList_injective
  rw [toList_renderEntry, toList_renderEntry, hlines]

/-- Registries that hold the same, as far as it is printed, have the same text. -/
theorem renderPrometheus_congr {reg reg' : MetricsRegistry F}
    (hnamed : ∀ (name : String), (reg.metrics[name]?.map MetricEntry.name)
      = reg'.metrics[name]?.map MetricEntry.name)
    (hdescribed : ∀ name, reg.described name = reg'.described name)
    (hstored : ∀ name labels, (reg.stored name labels).map formatValue
      = (reg'.stored name labels).map formatValue) :
    reg.renderPrometheus = reg'.renderPrometheus := by
  have htoList : ∀ self : MetricsRegistry F, (self.printed.metrics.toList.map Prod.snd).map shown
      = (self.metrics.toList.map Prod.snd).map fun entry ↦ shown (printEntry entry) := by
    intro self
    rw [printed, Std.TreeMap.toList_map, List.map_map, List.map_map, List.map_map]
    rfl
  have hprinted : ∀ name labels,
      reg.printed.stored name labels = reg'.printed.stored name labels := by
    intro name labels
    rw [stored_printed, stored_printed, hstored]
  have hshown := map_shown_toList (fun name ↦ ?_) hprinted
  · rw [htoList, htoList] at hshown
    exact foldl_eq_of_map_eq renderEntry_congr_printed hshown ""
  · have hnamed := hnamed name
    have hdescribed := hdescribed name
    rw [described, described] at hdescribed
    rw [printed, printed, Std.TreeMap.getElem?_map, Std.TreeMap.getElem?_map]
    cases hentry : reg.metrics[name]? with
    | none =>
        rw [hentry] at hnamed
        rw [Option.map_eq_none_iff.mp hnamed.symm]
    | some entry =>
        rw [hentry] at hnamed hdescribed
        obtain ⟨entry', hentry', hname⟩ := Option.map_eq_some_iff.mp hnamed.symm
        rw [hentry'] at hdescribed ⊢
        obtain ⟨hhelp, htype⟩ := Prod.mk.inj (Option.some.inj hdescribed)
        simp only [Option.map_some, printEntry, hname, hhelp, htype]

/-! ## The round trip -/

theorem notMem_repr_of_not_isDigit {c : Char} (hc : c.isDigit = false) (n : ℕ) :
    c ∉ n.repr.toList := by
  intro h
  rw [Nat.repr, String.toList_ofList] at h
  have hdigit := Nat.isDigit_of_mem_toDigits (by decide) (by decide) h
  rw [hc] at hdigit
  cases hdigit

/-- A value is printed without a brace. -/
theorem brace_notMem_formatValue (hdisplay : ∀ x : F, '\x7d' ∉ (F64.display x).toList)
    (value : F) : '\x7d' ∉ (formatValue value).toList := by
  rw [formatValue]
  split
  · rw [Int.toString_eq_repr, Int.repr_eq_if]
    split
    · exact notMem_repr_of_not_isDigit (by decide) _
    · rw [String.toList_append, List.mem_append, not_or]
      exact ⟨by decide, notMem_repr_of_not_isDigit (by decide) _⟩
  · exact hdisplay value

/-- The text of a legible registry is read back line by line. -/
theorem Legible.scrape_eq {self : MetricsRegistry F} (h : self.Legible)
    (hline : ∀ x : F, '\n' ∉ (F64.display x).toList)
    (hbrace : ∀ x : F, '\x7d' ∉ (F64.display x).toList) :
    scrape self.renderPrometheus = self.written := by
  have htidy : self.Tidy := fun name entry hentry ↦ (h name entry hentry).toTidyEntry
  have hlines : ∀ line ∈ self.lines, '\n' ∉ line :=
    (notMem_lines_iff htidy hline).mpr fun x hx ↦
      (h x.1 x.2 (Std.TreeMap.mem_toList_iff_getElem?_eq_some.mp hx)).help_line
  rw [scrape, toList_renderPrometheus htidy, splitOn_unlines hlines, List.dropLast_concat,
    filterMap_lines h (brace_notMem_formatValue hbrace)]

variable [Add F]

/-- **The round trip of the text.**  Whatever was registered and written, with legible names,
labels and descriptions, reading the text gives back the metrics, their descriptions and kinds
and their values as they are printed.  So two registries have the same text if and only if
they agree on these. -/
theorem scrape_renderPrometheus (hline : ∀ x : F, '\n' ∉ (F64.display x).toList)
    (hbrace : ∀ x : F, '\x7d' ∉ (F64.display x).toList) {ops : List (Op F)}
    (hops : ∀ op ∈ ops, op.Legible) :
    scrape (new.run ops).renderPrometheus = (new.run ops).written ∧
    ∀ ops' : List (Op F), (∀ op ∈ ops', op.Legible) →
      ((new.run ops).renderPrometheus = (new.run ops').renderPrometheus ↔
        (∀ name, (new.run ops).described name = (new.run ops').described name) ∧
        ∀ name labels, ((new.run ops).stored name labels).map formatValue
          = ((new.run ops').stored name labels).map formatValue) := by
  have hlegible := legible_run hops
  refine ⟨hlegible.scrape_eq hline hbrace, fun ops' hops' ↦ ⟨fun htext ↦ ?_, ?_⟩⟩
  · apply eq_of_written
    rw [← hlegible.scrape_eq hline hbrace, htext, (legible_run hops').scrape_eq hline hbrace]
  · rintro ⟨hdescribed, hstored⟩
    refine renderPrometheus_congr (fun name ↦ ?_) hdescribed hstored
    have hname : ∀ {reg : MetricsRegistry F}, reg.Legible →
        reg.metrics[name]?.map MetricEntry.name = (reg.described name).map fun _ ↦ name := by
      intro reg hreg
      rw [described, Option.map_map]
      exact Option.map_congr fun entry hentry ↦ (hreg name entry hentry).name_eq
    rw [hname hlegible, hname (legible_run hops'), hdescribed]

/-- A counter at 5, and a gauge with a label at one half. -/
theorem scrape_renderPrometheus_rat :
    let ops : List (Op ℚ) :=
      [.register "requests" "Requests" .counter, .counterInc "requests" 5,
        .register "load" "Load" .gauge, .gaugeSetLabels "load" "core=0" (1 / 2)]
    scrape (new.run ops).renderPrometheus = (new.run ops).written ∧
      .sample "load".toList "core=0".toList "0.5".toList ∈ (new.run ops).written := by
  intro ops
  have hbrace : ∀ x : ℚ, '\x7d' ∉ (F64.display x).toList := by
    intro x
    show '\x7d' ∉ "0.5".toList
    decide
  have hops : ∀ op ∈ ops, op.Legible := by
    simp [ops, Op.Legible]
  refine ⟨(scrape_renderPrometheus notMem_display_halves hbrace hops).1, ?_⟩
  decide +kernel

end MetricsRegistry

end CloudGateway
