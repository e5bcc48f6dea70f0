import Mathlib.Algebra.Order.Ring.Rat
import CloudGateway.MetricsExport
import CloudGateway.Library.Lines

/-!
# The text of a registry

The text is written line by line: for each metric a HELP line, a TYPE line, and a line for
each value.  The help text is copied into the HELP line as it is, so it can hold a line end,
and what is behind it looks like a line of its own.  The text is what it should be if and only
if no help text does (`exposes_iff`).
-/

universe u

namespace CloudGateway

namespace MetricsRegistry

open Lines

variable {F : Type u}

/-! ## The stored values -/

theorem lt_of_compare {s t : String} (h : compare s t = .lt) : s < t :=
  compareOfLessAndEq_eq_lt.mp h

/-- The stored values with their names and labels, in the order of the maps. -/
def entries (self : MetricsRegistry F) : List (String × String × F) :=
  self.metrics.toList.flatMap fun (name, entry) ↦
    entry.values.toList.map fun (labels, value) ↦ (name, labels, value)

theorem mem_entries (self : MetricsRegistry F) (name labels : String) (value : F) :
    (name, labels, value) ∈ self.entries ↔ self.stored name labels = some value := by
  rw [stored, Option.bind_eq_some_iff, entries, List.mem_flatMap]
  constructor
  · rintro ⟨⟨name', entry⟩, hentry, hvalue⟩
    obtain ⟨⟨labels', value'⟩, hvalue, heq⟩ := List.mem_map.mp hvalue
    cases heq
    exact ⟨entry, Std.TreeMap.mem_toList_iff_getElem?_eq_some.mp hentry,
      Std.TreeMap.mem_toList_iff_getElem?_eq_some.mp hvalue⟩
  · rintro ⟨entry, hentry, hvalue⟩
    exact ⟨(name, entry), Std.TreeMap.mem_toList_iff_getElem?_eq_some.mpr hentry,
      List.mem_map.mpr ⟨(labels, value), Std.TreeMap.mem_toList_iff_getElem?_eq_some.mpr hvalue,
        rfl⟩⟩

/-- They are in ascending order of name and then labels. -/
theorem entries_sorted (self : MetricsRegistry F) :
    self.entries.Pairwise fun x y ↦ x.1 < y.1 ∨ x.1 = y.1 ∧ x.2.1 < y.2.1 := by
  rw [entries, List.pairwise_flatMap]
  constructor
  · rintro ⟨name, entry⟩ -
    rw [List.pairwise_map]
    exact Std.TreeMap.ordered_keys_toList.imp fun h ↦ .inr ⟨rfl, lt_of_compare h⟩
  · refine Std.TreeMap.ordered_keys_toList.imp fun h x hx y hy ↦ ?_
    obtain ⟨_, -, rfl⟩ := List.mem_map.mp hx
    obtain ⟨_, -, rfl⟩ := List.mem_map.mp hy
    exact .inl (lt_of_compare h)

/-! ## Names and labels -/

/-- A metric under its own name, of which neither the name nor the labels hold a line end, and
the name no '#'. -/
structure TidyEntry (name : String) (entry : MetricEntry F) : Prop where
  name_eq : entry.name = name
  name_line : '\n' ∉ name.toList
  name_hash : '#' ∉ name.toList
  labels : ∀ labels value, entry.get labels = some value → '\n' ∉ labels.toList

/-- A registry of such metrics. -/
def Tidy (self : MetricsRegistry F) : Prop :=
  ∀ (name : String) (entry : MetricEntry F), self.metrics[name]? = some entry →
    TidyEntry name entry

theorem Tidy.mem {self : MetricsRegistry F} (h : self.Tidy) {x : String × MetricEntry F}
    (hx : x ∈ self.metrics.toList) : TidyEntry x.1 x.2 :=
  h x.1 x.2 (Std.TreeMap.mem_toList_iff_getElem?_eq_some.mp hx)

/-- The operation names metrics without a line end or a '#', and labels without a line end. -/
def Op.Plain : Op F → Prop
  | .register name _ _ => '\n' ∉ name.toList ∧ '#' ∉ name.toList
  | .counterIncLabels _ labels _ | .gaugeSetLabels _ labels _ => '\n' ∉ labels.toList
  | .counterInc _ _ | .gaugeSet _ _ => True

instance (op : Op F) : Decidable op.Plain := by
  cases op <;> unfold Op.Plain <;> infer_instance

theorem tidy_new : (new : MetricsRegistry F).Tidy := fun _ _ h ↦ by
  rw [new, Std.TreeMap.getElem?_emptyc] at h
  cases h

section

variable [Zero F] [Add F]

theorem Op.Plain.write {op : Op F} (h : op.Plain) {w : Write F} (hwrite : op.write = some w) :
    '\n' ∉ w.labels.toList := by
  cases op with
  | register => cases hwrite
  | counterInc | gaugeSet => cases hwrite; exact List.not_mem_nil
  | counterIncLabels | gaugeSetLabels => cases hwrite; exact h

theorem Tidy.apply {self : MetricsRegistry F} (h : self.Tidy) {op : Op F} (hop : op.Plain) :
    (self.apply op).Tidy := by
  intro name entry hentry
  cases hwrite : op.write with
  | none =>
      cases op with
      | register name' help metric_type =>
          rw [MetricsRegistry.apply, getElem?_register] at hentry
          split at hentry
          · rename_i hnew
            obtain ⟨rfl, -⟩ := hnew
            obtain rfl := Option.some.inj hentry
            refine ⟨rfl, hop.1, hop.2, fun labels value hvalue ↦ ?_⟩
            rw [MetricEntry.get, MetricEntry.new, Std.TreeMap.getElem?_emptyc] at hvalue
            cases hvalue
          · exact h name entry hentry
      | _ => cases hwrite
  | some w =>
      rw [getElem?_write self hwrite] at hentry
      split at hentry
      · obtain ⟨old, hold, rfl⟩ := Option.map_eq_some_iff.mp hentry
        obtain ⟨hname, hline, hhash, hlabels⟩ := h name old hold
        refine ⟨hname, hline, hhash, fun labels value hvalue ↦ ?_⟩
        rw [get_entry] at hvalue
        split at hvalue
        · rename_i heq
          exact heq ▸ hop.write hwrite
        · exact hlabels labels value hvalue
      · exact h name entry hentry

theorem Tidy.run {self : MetricsRegistry F} (h : self.Tidy) {ops : List (Op F)}
    (hops : ∀ op ∈ ops, op.Plain) : (self.run ops).Tidy := by
  induction ops generalizing self with
  | nil => exact h
  | cons op ops ih =>
      exact ih (h.apply (hops op List.mem_cons_self)) fun op' hop' ↦
        hops op' (List.mem_cons_of_mem op hop')

end

/-! ## Lines -/

/-- The HELP line of a metric. -/
def helpLine (name : String) (entry : MetricEntry F) : String :=
  "# HELP " ++ name ++ " " ++ entry.help

/-- The TYPE line of a metric. -/
def typeLine (name : String) (entry : MetricEntry F) : String :=
  "# TYPE " ++ name ++ match entry.metric_type with
    | .counter => " counter"
    | .gauge => " gauge"

/-- A line that begins with "# ". -/
def isComment (line : List Char) : Bool := ['#', ' '].isPrefixOf line

theorem isComment_helpLine (name : String) (entry : MetricEntry F) :
    isComment (helpLine name entry).toList = true := by
  simp [isComment, helpLine]

theorem isComment_typeLine (name : String) (entry : MetricEntry F) :
    isComment (typeLine name entry).toList = true := by
  simp [isComment, typeLine]

/-- A text that grows by pieces. -/
theorem toList_foldl {α : Type u} {f : String → α → String} {g : α → List Char}
    (h : ∀ out x, (f out x).toList = out.toList ++ g x) (xs : List α) (out : String) :
    (xs.foldl f out).toList = out.toList ++ xs.flatMap g := by
  induction xs generalizing out with
  | nil => exact (List.append_nil _).symm
  | cons x xs ih => rw [List.foldl_cons, ih, h, List.flatMap_cons, List.append_assoc]

variable [F64 F] [Zero F] [NatCast F] [BEq F] [LT F] [DecidableLT F]

/-- The line of a value. -/
def valueLine : String × String × F → String
  | (name, labels, value) =>
      name ++ (if labels ≠ "" then "\x7b" ++ labels ++ "\x7d" else "") ++ " " ++ formatValue value

theorem isComment_valueLine {name : String} (hname : '#' ∉ name.toList) (x : String × F) :
    isComment (valueLine (name, x)).toList = false := by
  obtain ⟨labels, value⟩ := x
  have hother {c : Char} (hc : '#' ≠ c) (cs : List Char) : isComment (c :: cs) = false := by
    simp [isComment, List.isPrefixOf, hc]
  rw [valueLine]
  cases hchars : name.toList with
  | nil =>
      by_cases hlabels : labels = ""
      · simpa [hchars, hlabels] using hother (by decide) _
      · simpa [hchars, hlabels] using hother (by decide) _
  | cons c cs =>
      rw [hchars] at hname
      have hc : '#' ≠ c := fun h ↦ hname (h ▸ List.mem_cons_self)
      simpa [hchars] using hother hc _

/-- The lines of a metric. -/
def entryLines (name : String) (entry : MetricEntry F) : List (List Char) :=
  (helpLine name entry).toList :: (typeLine name entry).toList ::
    entry.values.toList.map fun x ↦ (valueLine (name, x)).toList

/-- The lines that the text is written from. -/
def lines (self : MetricsRegistry F) : List (List Char) :=
  self.metrics.toList.flatMap fun x ↦ entryLines x.1 x.2

theorem toList_renderValue (entry : MetricEntry F) (out : String) (x : String × F) :
    (renderValue entry out x).toList
      = out.toList ++ ((valueLine (entry.name, x)).toList ++ ['\n']) := by
  obtain ⟨labels, value⟩ := x
  by_cases hlabels : labels = ""
  · simp [renderValue, valueLine, hlabels]
  · simp [renderValue, valueLine, hlabels]

theorem toList_renderEntry (out : String) (entry : MetricEntry F) :
    (renderEntry out entry).toList = out.toList ++ unlines '\n' (entryLines entry.name entry) := by
  rw [renderEntry, toList_foldl (toList_renderValue entry), entryLines, unlines_cons, unlines_cons,
    unlines, List.flatMap_map]
  cases htype : entry.metric_type with
  | counter => simp [helpLine, typeLine, typeSuffix, htype]
  | gauge => simp [helpLine, typeLine, typeSuffix, htype]

/-- The text is written from its lines. -/
theorem toList_renderPrometheus {self : MetricsRegistry F} (h : self.Tidy) :
    self.renderPrometheus.toList = unlines '\n' self.lines := by
  rw [renderPrometheus, toList_foldl toList_renderEntry, List.flatMap_map, lines, unlines,
    List.flatMap_assoc]
  refine (List.nil_append _).trans (List.flatMap_congr fun x hx ↦ ?_)
  rw [(h.mem hx).name_eq]
  rfl

/-- The HELP lines and the TYPE lines, one of each for every metric. -/
def comments (self : MetricsRegistry F) : List (List Char) :=
  self.metrics.toList.flatMap fun x ↦ [(helpLine x.1 x.2).toList, (typeLine x.1 x.2).toList]

theorem filter_isComment_lines {self : MetricsRegistry F} (h : self.Tidy) :
    self.lines.filter isComment = self.comments := by
  rw [lines, List.filter_flatMap, comments]
  refine List.flatMap_congr fun x hx ↦ ?_
  have hvalues : (x.2.values.toList.map fun value ↦ (valueLine (x.1, value)).toList).filter
      isComment = [] := by
    rw [List.filter_eq_nil_iff]
    intro line hline
    obtain ⟨value, -, rfl⟩ := List.mem_map.mp hline
    rw [isComment_valueLine (h.mem hx).name_hash value]
    exact Bool.false_ne_true
  rw [entryLines, List.filter_cons_of_pos (isComment_helpLine x.1 x.2),
    List.filter_cons_of_pos (isComment_typeLine x.1 x.2), hvalues]

theorem filter_not_isComment_lines {self : MetricsRegistry F} (h : self.Tidy) :
    self.lines.filter (fun line ↦ !isComment line)
      = self.entries.map fun x ↦ (valueLine x).toList := by
  rw [lines, List.filter_flatMap, entries, List.map_flatMap]
  refine List.flatMap_congr fun x hx ↦ ?_
  have hvalues : (x.2.values.toList.map fun value ↦ (valueLine (x.1, value)).toList).filter
      (fun line ↦ !isComment line)
        = x.2.values.toList.map fun value ↦ (valueLine (x.1, value)).toList := by
    rw [List.filter_eq_self]
    intro line hline
    obtain ⟨value, -, rfl⟩ := List.mem_map.mp hline
    rw [isComment_valueLine (h.mem hx).name_hash value]
    rfl
  rw [entryLines, List.filter_cons_of_neg (by simp [isComment_helpLine]),
    List.filter_cons_of_neg (by simp [isComment_typeLine]), hvalues, List.map_map]
  rfl

/-! ## The exposition -/

/-- What the text of a registry should be, split at its line ends.  Nothing is behind the last
line end. -/
structure Exposes (self : MetricsRegistry F) (text : String) : Prop where
  /-- The values that the lines are about are the stored ones. -/
  stored : ∀ name labels value,
    (name, labels, value) ∈ self.entries ↔ self.stored name labels = some value
  /-- They come in ascending order of name and then labels. -/
  sorted : self.entries.Pairwise fun x y ↦ x.1 < y.1 ∨ x.1 = y.1 ∧ x.2.1 < y.2.1
  /-- Without the comments, there is one line for each of them; the comments are one HELP
  line and one TYPE line for each metric. -/
  lines : ∃ ls, text.toList.splitOn '\n' = ls ++ [[]] ∧
    (ls.filter fun line ↦ !isComment line) = self.entries.map (fun x ↦ (valueLine x).toList) ∧
    ls.filter isComment = self.comments

theorem notMem_repr (n : ℕ) : '\n' ∉ n.repr.toList := by
  intro h
  rw [Nat.repr, String.toList_ofList] at h
  exact absurd (Nat.isDigit_of_mem_toDigits (by decide) (by decide) h) (by decide)

/-- A value is printed without a line end. -/
theorem notMem_formatValue (hdisplay : ∀ x : F, '\n' ∉ (F64.display x).toList) (value : F) :
    '\n' ∉ (formatValue value).toList := by
  rw [formatValue]
  split
  · rw [Int.toString_eq_repr, Int.repr_eq_if]
    split
    · exact notMem_repr _
    · rw [String.toList_append, List.mem_append, not_or]
      exact ⟨by decide, notMem_repr _⟩
  · exact hdisplay value

/-- Only the HELP lines can hold a line end. -/
theorem notMem_entryLines_iff {name : String} {entry : MetricEntry F} (h : TidyEntry name entry)
    (hdisplay : ∀ x : F, '\n' ∉ (F64.display x).toList) :
    (∀ line ∈ entryLines name entry, '\n' ∉ line) ↔ '\n' ∉ entry.help.toList := by
  have hline := h.name_line
  constructor
  · intro hall
    have hhelp := hall _ List.mem_cons_self
    simp only [helpLine, String.toList_append, List.mem_append, not_or] at hhelp
    exact hhelp.2
  · intro hhelp line hmem
    rw [entryLines, List.mem_cons, List.mem_cons, List.mem_map] at hmem
    rcases hmem with rfl | rfl | ⟨⟨labels, value⟩, hvalue, rfl⟩
    · simp [helpLine, hline, hhelp]
    · cases htype : entry.metric_type <;> simp [typeLine, htype, hline]
    · have hlabels := h.labels labels value (Std.TreeMap.mem_toList_iff_getElem?_eq_some.mp hvalue)
      have hformat := notMem_formatValue hdisplay value
      by_cases hempty : labels = ""
      · simp [valueLine, hempty, hline, hformat]
      · simp [valueLine, hempty, hline, hlabels, hformat]

theorem notMem_lines_iff {self : MetricsRegistry F} (h : self.Tidy)
    (hdisplay : ∀ x : F, '\n' ∉ (F64.display x).toList) :
    (∀ line ∈ self.lines, '\n' ∉ line) ↔
      ∀ x ∈ self.metrics.toList, '\n' ∉ x.2.help.toList := by
  simp only [lines, List.forall_mem_flatMap]
  exact forall₂_congr fun x hx ↦ notMem_entryLines_iff (h.mem hx) hdisplay

/-- The text is what it should be, if and only if no line holds a line end. -/
theorem exposes_iff_notMem_lines {self : MetricsRegistry F} (h : self.Tidy) :
    Exposes self self.renderPrometheus ↔ ∀ line ∈ self.lines, '\n' ∉ line := by
  constructor
  · rintro ⟨-, -, ls, hsplit, hvalues, hcomments⟩
    rw [toList_renderPrometheus h] at hsplit
    refine notMem_of_splitOn_unlines hsplit ?_
    rw [List.length_eq_length_filter_add isComment, hcomments, hvalues,
      ← filter_isComment_lines h, ← filter_not_isComment_lines h,
      ← List.length_eq_length_filter_add]
  · intro hlines
    refine ⟨self.mem_entries, self.entries_sorted, self.lines, ?_,
      filter_not_isComment_lines h, filter_isComment_lines h⟩
    rw [toList_renderPrometheus h, splitOn_unlines hlines]

variable [Add F]

/-- **When no line is forged.**  Whatever was registered and written, with names and labels
without line ends and names without a '#', the text of the registry is what it should be, if
and only if no metric was registered with a line end in its help text. -/
theorem exposes_iff (hdisplay : ∀ x : F, '\n' ∉ (F64.display x).toList) {ops : List (Op F)}
    (hops : ∀ op ∈ ops, op.Plain) :
    Exposes (new.run ops) (new.run ops).renderPrometheus ↔
      ∀ (name : String) (entry : MetricEntry F), (new.run ops).metrics[name]? = some entry →
        '\n' ∉ entry.help.toList := by
  have htidy := tidy_new.run hops
  rw [exposes_iff_notMem_lines htidy, notMem_lines_iff htidy hdisplay]
  simp only [Prod.forall, Std.TreeMap.mem_toList_iff_getElem?_eq_some]

/-- Exact values, of which one half is the only one with a fraction that is printed. -/
instance halves : F64 ℚ where
  fract x := x - x.num.tdiv x.den
  abs x := |x|
  toI64 x := Int64.ofInt (x.num.tdiv x.den)
  display _ := "0.5"

theorem notMem_display_halves (x : ℚ) : '\n' ∉ (F64.display x).toList := by
  show '\n' ∉ "0.5".toList
  decide

/-- A counter at 5, and a gauge with a label at one half. -/
theorem exposes_iff_rat :
    let ops : List (Op ℚ) :=
      [.register "requests" "Requests" .counter, .counterInc "requests" 5,
        .register "load" "Load" .gauge, .gaugeSetLabels "load" "core=0" (1 / 2)]
    Exposes (new.run ops) (new.run ops).renderPrometheus ↔
      ∀ (name : String) (entry : MetricEntry ℚ), (new.run ops).metrics[name]? = some entry →
        '\n' ∉ entry.help.toList := by
  intro ops
  exact exposes_iff notMem_display_halves (by decide +kernel)

/-- A help text with a line end forges a line. -/
theorem forged_line :
    ∃ ops : List (Op ℚ), (∀ op ∈ ops, op.Plain) ∧
      "forged 1".toList ∈ (new.run ops).renderPrometheus.toList.splitOn '\n' ∧
      ¬ Exposes (new.run ops) (new.run ops).renderPrometheus := by
  have hplain : ∀ op ∈ [(.register "requests" "Requests\nforged 1" .counter : Op ℚ)],
      op.Plain := by decide +kernel
  refine ⟨_, hplain, by decide +kernel, fun h ↦ ?_⟩
  have htidy := tidy_new.run hplain
  rw [exposes_iff_notMem_lines htidy, notMem_lines_iff htidy notMem_display_halves] at h
  have hhelp := h ("requests", .new "requests" "Requests\nforged 1" .counter) List.mem_cons_self
  exact absurd hhelp (by decide +kernel)

end MetricsRegistry

end CloudGateway
