import CloudGateway.AdvisoryGuard
import CloudGateway.Library.SemVer

/-!
# Version ranges

The guard reads a valid version as its parts (`parseVersion_toString`), and the tuples it
compares are ordered as the versions are by semantic versioning (`keyOf_lt_iff`,
`keyOf_eq_iff`).  A range written as comparators with any blanks around them is therefore
decided as a resolver decides it (`inRange_matches`), unless a number in it has more digits than
the interpreter is willing to read (`inRange_raises`).
-/

namespace CloudGateway

namespace AdvisoryGuard

open SemVer

/-! ## Order -/

/-- The key of an identifier. -/
def identifierKeyOf : Identifier → IdentifierKey
  | .numeric n => toLex (0, toLex ((n : ℤ), ""))
  | .alphanumeric s _ _ => toLex (1, toLex (0, s))

/-- The key of a version. -/
def keyOf (v : Version) : Precedence :=
  toLex ((v.major : ℤ), toLex ((v.minor : ℤ), toLex ((v.patch : ℤ),
    toLex (if v.pre = [] then 1 else 0, v.pre.map identifierKeyOf))))

theorem identifierKeyOf_lt_iff {i j : Identifier} :
    identifierKeyOf i < identifierKeyOf j ↔ i.Precedes j := by
  cases i with
  | numeric m =>
      cases j with
      | numeric n =>
          simp only [identifierKeyOf, Prod.Lex.toLex_lt_toLex]
          constructor
          · intro h
            exact .numeric (by simpa using h)
          · rintro ⟨h⟩
            simpa using h
      | alphanumeric t ht ht' =>
          simp only [identifierKeyOf, Prod.Lex.toLex_lt_toLex]
          exact ⟨fun _ ↦ .mixed, fun _ ↦ Or.inl Nat.zero_lt_one⟩
  | alphanumeric s hs hs' =>
      cases j with
      | numeric n =>
          simp only [identifierKeyOf, Prod.Lex.toLex_lt_toLex]
          constructor
          · intro h
            simp at h
          · intro h
            cases h
      | alphanumeric t ht ht' =>
          simp only [identifierKeyOf, Prod.Lex.toLex_lt_toLex]
          constructor
          · intro h
            exact .alphanumeric (by simpa using h)
          · intro h
            cases h with
            | alphanumeric h => simpa using h

theorem identifierKeyOf_injective : Function.Injective identifierKeyOf := by
  intro i j h
  cases i with
  | numeric m =>
      cases j with
      | numeric n =>
          simp only [identifierKeyOf, EmbeddingLike.apply_eq_iff_eq, Prod.mk.injEq,
            Int.natCast_inj] at h
          rw [h.2.1]
      | alphanumeric t ht ht' => exact absurd (congrArg (fun k ↦ (ofLex k).1) h) Nat.zero_ne_one
  | alphanumeric s hs hs' =>
      cases j with
      | numeric n => exact absurd (congrArg (fun k ↦ (ofLex k).1) h) Nat.one_ne_zero
      | alphanumeric t ht ht' =>
          simp only [identifierKeyOf, EmbeddingLike.apply_eq_iff_eq, Prod.mk.injEq] at h
          simp only [h.2.2]

/-- Lists of keys are ordered as the lists are. -/
theorem lex_map_iff {α β : Type} [LinearOrder β] {r : α → α → Prop} {f : α → β}
    (hf : Function.Injective f) (hr : ∀ x y, f x < f y ↔ r x y) {xs ys : List α} :
    xs.map f < ys.map f ↔ List.Lex r xs ys := by
  show List.Lex (· < ·) (xs.map f) (ys.map f) ↔ List.Lex r xs ys
  induction xs generalizing ys with
  | nil =>
      cases ys with
      | nil => exact iff_of_false List.not_lex_nil List.not_lex_nil
      | cons y ys => exact ⟨fun _ ↦ .nil, fun _ ↦ .nil⟩
  | cons x xs ih =>
      cases ys with
      | nil => exact iff_of_false List.not_lex_nil List.not_lex_nil
      | cons y ys =>
          simp only [List.map_cons, List.cons_lex_cons_iff, ih, hr, hf.eq_iff]

/-- The tuples are ordered as the versions are. -/
theorem keyOf_lt_iff {v w : Version} : keyOf v < keyOf w ↔ v.Precedes w := by
  have hids : v.pre.map identifierKeyOf < w.pre.map identifierKeyOf ↔
      List.Lex Identifier.Precedes v.pre w.pre :=
    lex_map_iff identifierKeyOf_injective fun _ _ ↦ identifierKeyOf_lt_iff
  simp only [keyOf, Prod.Lex.toLex_lt_toLex, Int.ofNat_lt, Int.natCast_inj, hids]
  constructor
  · rintro (h | ⟨h, h' | ⟨h', h'' | ⟨h'', h₃ | ⟨h₃, h₄⟩⟩⟩⟩)
    · exact .major h
    · exact .minor h h'
    · exact .patch h h' h''
    · by_cases hv : v.pre = [] <;> by_cases hw : w.pre = [] <;> simp [hv, hw] at h₃
      exact .release ⟨h, h', h''⟩ hv hw
    · have hw : w.pre ≠ [] := by
        intro hw
        rw [hw] at h₄
        exact List.not_lex_nil h₄
      have hv : v.pre ≠ [] := by
        intro hv
        simp [hv, hw] at h₃
      exact .pre ⟨h, h', h''⟩ hv hw h₄
  · intro h
    cases h with
    | major h => exact Or.inl h
    | minor h h' => exact Or.inr ⟨h, Or.inl h'⟩
    | patch h h' h'' => exact Or.inr ⟨h, Or.inr ⟨h', Or.inl h''⟩⟩
    | release h hv hw =>
        exact Or.inr ⟨h.1, Or.inr ⟨h.2.1, Or.inr ⟨h.2.2, Or.inl (by simp [hv, hw])⟩⟩⟩
    | pre h hv hw hlex =>
        exact Or.inr ⟨h.1, Or.inr ⟨h.2.1, Or.inr ⟨h.2.2, Or.inr ⟨by simp [hv, hw], hlex⟩⟩⟩⟩

/-- The tuples are equal for versions that differ in build metadata at most. -/
theorem keyOf_eq_iff {v w : Version} : keyOf v = keyOf w ↔ v.SamePrecedence w := by
  simp only [keyOf, EmbeddingLike.apply_eq_iff_eq, Prod.mk.injEq, Int.natCast_inj,
    Version.SamePrecedence, (List.map_injective_iff.mpr identifierKeyOf_injective).eq_iff]
  constructor
  · rintro ⟨h, h', h'', -, hpre⟩
    exact ⟨h, h', h'', hpre⟩
  · rintro ⟨h, h', h'', hpre⟩
    exact ⟨h, h', h'', by rw [hpre], hpre⟩

/-! ## Reading versions -/

/-- What a version is read as. -/
def parsed (v : Version) : ParsedVersion :=
  ⟨v.major, v.minor, v.patch, v.pre.map Identifier.toString⟩

/-- The interpreter reads the numbers of a version. -/
structure Readable (py : Python) (v : Version) : Prop where
  major : py.Within v.major
  minor : py.Within v.minor
  patch : py.Within v.patch
  pre : ∀ n, .numeric n ∈ v.pre → py.Within n

theorem notMem_coreText {v : Version} {c : Char} (h : c.isDigit = false) (hdot : c ≠ '.') :
    c ∉ v.coreText.toList := by
  intro hc
  rcases Version.mem_coreText hc with hc | hc
  · rw [hc] at h
    cases h
  · exact hdot hc

theorem notMem_toString {n : ℕ} {c : Char} (h : c.isDigit = false) :
    c ∉ (toString n).toList := by
  intro hc
  rw [isDigit_of_mem_toString hc] at h
  cases h

theorem split_coreText (v : Version) : Python.split '.' v.coreText
    = [toString v.major, toString v.minor, toString v.patch] := by
  have hdot : ∀ n : ℕ, '.' ∉ (toString n).toList := fun n ↦ notMem_toString (by decide)
  rw [Version.coreText, show "." = Char.toString '.' from rfl, Python.split_append (hdot _),
    Python.split_append (hdot _), Python.split_of_notMem (hdot _)]

theorem split_preText {v : Version} (h : v.pre ≠ []) :
    Python.split '.' v.preText = v.pre.map Identifier.toString := by
  refine Python.split_intercalate (mt List.map_eq_nil_iff.mp h) fun s hs hdot ↦ ?_
  obtain ⟨i, -, rfl⟩ := List.mem_map.mp hs
  exact (i.isIdentifier.2 '.' hdot).ne (by decide) (by decide) rfl

theorem preText_ne_empty {v : Version} (h : v.pre ≠ []) : v.preText ≠ "" := by
  intro hempty
  have hsplit := split_preText h
  rw [hempty, Python.split_of_notMem (by simp)] at hsplit
  have hmem : "" ∈ v.pre.map Identifier.toString := hsplit ▸ List.mem_singleton_self ""
  obtain ⟨i, -, hi⟩ := List.mem_map.mp hmem
  exact i.isIdentifier.1 hi

/-- Build metadata is behind the only `+`. -/
theorem headD_split_toString (v : Version) : (Python.split '+' v.toString).headD ""
    = v.coreText ++ if v.pre = [] then "" else "-" ++ v.preText := by
  have hplus : '+' ∉ (v.coreText ++ if v.pre = [] then "" else "-" ++ v.preText).toList := by
    rw [String.toList_append, List.mem_append, not_or]
    refine ⟨notMem_coreText (by decide) (by decide), fun h ↦ ?_⟩
    by_cases hpre : v.pre = []
    · rw [if_pos hpre] at h
      cases h
    · rw [if_neg hpre, String.toList_append] at h
      rcases List.mem_append.mp h with h | h
      · exact absurd (List.mem_singleton.mp h) (by decide)
      · rcases Version.mem_preText h with h | h
        · exact h.ne (by decide) (by decide) rfl
        · exact absurd h (by decide)
  rw [Version.toString, ← String.append_assoc]
  by_cases hbuild : v.build = []
  · rw [if_pos hbuild, String.append_empty, Python.split_of_notMem hplus]
    rfl
  · rw [if_neg hbuild, show "+" = Char.toString '+' from rfl, Python.split_append hplus]
    rfl

/-- The first `-` is the one before the pre-release. -/
theorem partition_core (v : Version) :
    Python.partition '-' (v.coreText ++ if v.pre = [] then "" else "-" ++ v.preText)
      = (v.coreText, if v.pre = [] then "" else v.preText) := by
  have hdash : '-' ∉ v.coreText.toList := notMem_coreText (by decide) (by decide)
  by_cases hpre : v.pre = []
  · rw [if_pos hpre, if_pos hpre, String.append_empty, Python.partition_of_notMem hdash]
  · rw [if_neg hpre, if_neg hpre, show "-" = Char.toString '-' from rfl,
      Python.partition_append hdash]

/-- The guard reads the parts of a version. -/
theorem parseVersion_toString {py : Python} {v : Version} (h : Readable py v) :
    parseVersion py v.toString = some (parsed v) := by
  have hpre : (if (if v.pre = [] then "" else v.preText) ≠ "" then
      Python.split '.' (if v.pre = [] then "" else v.preText) else [])
        = v.pre.map Identifier.toString := by
    by_cases hpre : v.pre = []
    · rw [hpre]
      rfl
    · rw [if_neg hpre, if_pos (preText_ne_empty hpre), split_preText hpre]
  simp only [parseVersion, headD_split_toString, partition_core, split_coreText,
    Python.int_toString_of_within h.major, Python.int_toString_of_within h.minor,
    Python.int_toString_of_within h.patch, hpre]
  rfl

/-- A number that is too long is not read. -/
theorem parseVersion_raises {py : Python} {v : Version} (h : ¬ py.Within v.major) :
    parseVersion py v.toString = none := by
  have hint : py.int (toString v.major) = none := by
    rw [Python.int_toString, if_pos]
    by_contra hany
    refine h fun m hm ↦ not_lt.mp fun hlt ↦ hany ?_
    exact (Option.any_eq_true _ _).mpr ⟨m, hm, decide_eq_true hlt⟩
  simp only [parseVersion, headD_split_toString, partition_core, split_coreText, hint]
  rfl

theorem identifierKey_toString {py : Python} {i : Identifier}
    (h : ∀ n, i = .numeric n → py.Within n) :
    identifierKey py i.toString = some (identifierKeyOf i) := by
  cases i with
  | numeric n =>
      simp only [identifierKey, Identifier.toString, Python.isdigit_toString, if_true,
        Python.int_toString_of_within (h n rfl), Option.map_some, identifierKeyOf]
  | alphanumeric s hs hs' =>
      obtain ⟨c, hc, hdigit⟩ := hs'
      have hnot : py.isdigit s = false :=
        Python.isdigit_of_mem hc (hs.2 c hc).toNat.2 hdigit
      simp only [identifierKey, Identifier.toString, hnot, Bool.false_eq_true, if_false,
        identifierKeyOf]

/-- The tuple of a version. -/
theorem precedence_parsed {py : Python} {v : Version} (h : Readable py v) :
    precedence py (parsed v) = some (keyOf v) := by
  have hids : (v.pre.map Identifier.toString).mapM (identifierKey py)
      = some (v.pre.map identifierKeyOf) := by
    rw [List.mapM_map]
    exact Python.mapM_of_forall fun i hi ↦
      identifierKey_toString fun n hn ↦ h.pre n (hn ▸ hi)
  simp only [precedence, parsed, hids, keyOf, List.map_eq_nil_iff]
  rfl

/-! ## Reading ranges -/

/-- A comparator with the blanks that are written around its operator and its version. -/
structure WrittenComparator where
  comparator : Comparator
  before : String
  between : String
  after : String
  blank : ∀ c ∈ before.toList ++ between.toList ++ after.toList, Python.isSpace c = true

/-- The text of a comparator. -/
def WrittenComparator.text (w : WrittenComparator) : String :=
  w.before ++ (w.comparator.op.toString ++ w.between ++ w.comparator.version.toString) ++ w.after

/-- The text of a range. -/
def rangeText (ws : List WrittenComparator) : String :=
  ",".intercalate (ws.map WrittenComparator.text)

theorem isSpace_of_mem_toString {v : Version} {c : Char} (h : c ∈ v.toString.toList) :
    Python.isSpace c = false := by
  have hascii : 32 < c.toNat ∧ c.toNat < 128 := by
    rcases Version.mem_toString h with h | rfl | rfl
    · have hrange := h.toNat
      omega
    · decide
    · decide
  exact Python.isSpace_of_printable hascii.1 hascii.2

theorem toString_ne_nil (v : Version) : v.toString.toList ≠ [] := by
  obtain ⟨c, hc, -⟩ := v.head?_toString
  intro hnil
  rw [hnil] at hc
  cases hc

/-- The operator is found whatever follows it, as long as that does not begin with `=`. -/
theorem find_operator {op : Op} {s : String} {rest : List Char}
    (hs : s.toList = op.toString.toList ++ rest) (hrest : rest.head? ≠ some '=') :
    operators.find? (Python.startswith s) = some op.toString := by
  cases rest with
  | nil => cases op <;> simp [operators, Python.startswith, hs, Op.toString]
  | cons c cs =>
      have hc : '=' ≠ c := fun h ↦ hrest (by rw [h]; rfl)
      cases op <;> simp [operators, Python.startswith, hs, Op.toString, hc]

/-- Blanks around a comparator are dropped. -/
theorem strip_text (w : WrittenComparator) : Python.strip w.text
    = w.comparator.op.toString ++ w.between ++ w.comparator.version.toString := by
  have hb : ∀ c ∈ w.before.toList, Python.isSpace c = true := fun c hc ↦
    w.blank c (List.mem_append_left _ (List.mem_append_left _ hc))
  have hb' : ∀ c ∈ w.after.toList, Python.isSpace c = true := fun c hc ↦
    w.blank c (List.mem_append_right _ hc)
  have hop : ∃ c cs, w.comparator.op.toString.toList = c :: cs ∧ Python.isSpace c = false := by
    cases w.comparator.op <;> exact ⟨_, _, rfl, by decide⟩
  obtain ⟨o, os, ho, hspace⟩ := hop
  rw [Python.strip, WrittenComparator.text, String.toList_append, String.toList_append,
    Python.stripChars_pad hb hb', String.ofList_toList]
  · intro c hc
    simp only [String.toList_append, ho, List.cons_append, List.head?_cons,
      Option.mem_some_iff] at hc
    rw [← hc]
    exact hspace
  · intro c hc
    rw [String.toList_append, List.getLast?_append_of_ne_nil _ (toString_ne_nil _)] at hc
    exact isSpace_of_mem_toString (List.mem_of_mem_getLast? hc)
  · rw [String.toList_append]
    exact List.append_ne_nil_of_right_ne_nil _ (toString_ne_nil _)

/-- So are those between its operator and its version. -/
theorem strip_dropChars (w : WrittenComparator) :
    Python.strip (Python.dropChars w.comparator.op.toString.length
      (w.comparator.op.toString ++ w.between ++ w.comparator.version.toString))
      = w.comparator.version.toString := by
  have hb : ∀ c ∈ w.between.toList, Python.isSpace c = true := fun c hc ↦
    w.blank c (List.mem_append_left _ (List.mem_append_right _ hc))
  have hdrop : Python.dropChars w.comparator.op.toString.length
      (w.comparator.op.toString ++ w.between ++ w.comparator.version.toString)
        = w.between ++ w.comparator.version.toString := by
    rw [Python.dropChars, ← String.length_toList, String.append_assoc, String.toList_append,
      List.drop_left, String.ofList_toList]
  have hpad := Python.stripChars_pad (d := []) hb (List.forall_mem_nil _)
    (fun c hc ↦ isSpace_of_mem_toString (List.mem_of_mem_head? hc))
    (fun c hc ↦ isSpace_of_mem_toString (List.mem_of_mem_getLast? hc))
    (toString_ne_nil w.comparator.version)
  rw [List.append_nil] at hpad
  rw [hdrop, Python.strip, String.toList_append, hpad, String.ofList_toList]

/-- A comparator is read as its operator and its version. -/
theorem parseComparator_text {py : Python} {w : WrittenComparator}
    (h : Readable py w.comparator.version) : parseComparator py w.text
      = some (w.comparator.op.toString, parsed w.comparator.version) := by
  have hrest : (w.between.toList ++ w.comparator.version.toString.toList).head? ≠ some '=' := by
    cases hb : w.between.toList with
    | nil =>
        obtain ⟨c, hc, hdigit⟩ := w.comparator.version.head?_toString
        rw [List.nil_append, hc]
        intro heq
        obtain rfl := Option.some.inj heq
        cases hdigit
    | cons c cs =>
        have hspace : Python.isSpace c = true := w.blank c (by simp [hb])
        intro heq
        obtain rfl : c = '=' := Option.some.inj heq
        revert hspace
        decide
  have hfind : operators.find? (Python.startswith (w.comparator.op.toString ++ w.between
      ++ w.comparator.version.toString)) = some w.comparator.op.toString := by
    refine find_operator ?_ hrest
    rw [String.toList_append, String.toList_append, List.append_assoc]
  simp only [parseComparator, strip_text, hfind, Option.bind_eq_bind, Option.bind_some,
    strip_dropChars, parseVersion_toString h]
  rfl

/-- A range is read as its comparators. -/
theorem mapM_parseComparator {py : Python} {ws : List WrittenComparator} (hne : ws ≠ [])
    (h : ∀ w ∈ ws, Readable py w.comparator.version) :
    (Python.split ',' (rangeText ws)).mapM (parseComparator py)
      = some (ws.map fun w ↦ (w.comparator.op.toString, parsed w.comparator.version)) := by
  have hcomma : ∀ s ∈ ws.map WrittenComparator.text, ',' ∉ s.toList := by
    intro s hs hmem
    obtain ⟨w, -, rfl⟩ := List.mem_map.mp hs
    have hblank : ¬ ',' ∈ w.before.toList ++ w.between.toList ++ w.after.toList := fun hb ↦ by
      have hspace := w.blank ',' hb
      revert hspace
      decide
    have hop : ',' ∉ w.comparator.op.toString.toList := by
      cases w.comparator.op <;> decide
    have hversion : ',' ∉ w.comparator.version.toString.toList := by
      intro hv
      rcases Version.mem_toString hv with hv | hv | hv
      · exact hv.ne (by decide) (by decide) rfl
      · exact absurd hv (by decide)
      · exact absurd hv (by decide)
    simp only [WrittenComparator.text, String.toList_append, List.mem_append] at hmem hblank
    rcases hmem with (h | (h | h) | h) | h
    · exact hblank (Or.inl (Or.inl h))
    · exact hop h
    · exact hblank (Or.inl (Or.inr h))
    · exact hversion h
    · exact hblank (Or.inr h)
  rw [rangeText, show "," = Char.toString ',' from rfl,
    Python.split_intercalate (mt List.map_eq_nil_iff.mp hne) hcomma, List.mapM_map]
  exact Python.mapM_of_forall fun w hw ↦ parseComparator_text (h w hw)

/-! ## Deciding ranges -/

/-- An operator compares tuples as the comparator compares versions. -/
theorem compare_keyOf {c : Comparator} {v : Version} :
    compare c.op.toString (keyOf v) (keyOf c.version) = true ↔ c.Holds v := by
  obtain ⟨op, w⟩ := c
  cases op with
  | ge =>
      simp only [compare, Op.toString, if_true, Comparator.Holds, decide_eq_true_eq, ge_iff_le,
        le_iff_lt_or_eq, keyOf_lt_iff, eq_comm (a := keyOf w), keyOf_eq_iff]
  | le =>
      simp [compare, Op.toString, Comparator.Holds, le_iff_lt_or_eq, keyOf_lt_iff, keyOf_eq_iff]
  | gt => simp [compare, Op.toString, Comparator.Holds, keyOf_lt_iff]
  | lt => simp [compare, Op.toString, Comparator.Holds, keyOf_lt_iff]
  | eq => simp [compare, Op.toString, Comparator.Holds, keyOf_eq_iff]

theorem parsed_pre_eq_nil {v : Version} : (parsed v).pre = [] ↔ v.pre = [] := List.map_eq_nil_iff

theorem sameRelease_parsed {v w : Version} :
    (parsed v).sameRelease (parsed w) = true ↔ v.SameRelease w := by
  simp only [ParsedVersion.sameRelease, parsed, decide_eq_true_eq, Int.natCast_inj,
    Version.SameRelease]

/-- A check that raises on no element is the check of all of them. -/
theorem allM_map_of_forall {α β : Type} {m : α → β} {f : β → Option Bool} {g : α → Bool}
    {xs : List α} (h : ∀ x ∈ xs, f (m x) = some (g x)) :
    (xs.map m).allM f = some (xs.all g) := by
  induction xs with
  | nil => rfl
  | cons x xs ih =>
      rw [List.map_cons, List.allM, h x List.mem_cons_self, List.all_cons]
      cases g x with
      | false => rfl
      | true => exact ih fun y hy ↦ h y (List.mem_cons_of_mem x hy)

/-- Some comparator names a pre-release of the release. -/
theorem any_sameRelease {v : Version} {ws : List WrittenComparator} :
    ((ws.map fun w ↦ (w.comparator.op.toString, parsed w.comparator.version)).any
      fun c ↦ c.2.pre ≠ [] ∧ c.2.sameRelease (parsed v)) = true ↔
    ∃ c ∈ ws.map WrittenComparator.comparator, c.version.pre ≠ [] ∧
      c.version.SameRelease v := by
  simp only [List.any_map, List.any_eq_true, Function.comp_apply, decide_eq_true_eq,
    sameRelease_parsed, ne_eq, parsed_pre_eq_nil, List.mem_map, exists_exists_and_eq_and]

/-- A range that the interpreter can read is decided as a resolver decides it. -/
theorem inRange_matches {py : Python} {v : Version} {ws : List WrittenComparator} (hne : ws ≠ [])
    (hv : Readable py v) (hws : ∀ w ∈ ws, Readable py w.comparator.version) :
    ∃ b, inRange py v.toString (rangeText ws) = some b ∧
      (b = true ↔ Matches v (ws.map WrittenComparator.comparator)) := by
  have hall : (ws.map fun w ↦ (w.comparator.op.toString, parsed w.comparator.version)).allM
      (fun c ↦ (precedence py c.2).map (compare c.1 (keyOf v) ·))
      = some (ws.all fun w ↦
          compare w.comparator.op.toString (keyOf v) (keyOf w.comparator.version)) :=
    allM_map_of_forall fun w hw ↦ by rw [precedence_parsed (hws w hw), Option.map_some]
  have hholds : (ws.all fun w ↦ compare w.comparator.op.toString (keyOf v)
      (keyOf w.comparator.version)) = true ↔
      ∀ c ∈ ws.map WrittenComparator.comparator, c.Holds v := by
    simp only [List.all_eq_true, compare_keyOf, List.forall_mem_map]
  have hpre : (parsed v).pre ≠ [] ↔ v.pre ≠ [] := not_congr parsed_pre_eq_nil
  rw [inRange, parseVersion_toString hv]
  simp only [Option.bind_eq_bind, Option.bind_some, mapM_parseComparator hne hws]
  by_cases hex : v.pre ≠ [] ∧ ¬ ∃ c ∈ ws.map WrittenComparator.comparator,
      c.version.pre ≠ [] ∧ c.version.SameRelease v
  · rw [if_pos (by rw [hpre, any_sameRelease]; exact hex)]
    exact ⟨false, rfl, fun h ↦ (by cases h), fun h ↦ absurd (h.2 hex.1) hex.2⟩
  · rw [if_neg (by rw [hpre, any_sameRelease]; exact hex), precedence_parsed hv]
    refine ⟨_, hall, hholds.trans ⟨fun h ↦ ⟨h, fun hv ↦ ?_⟩, fun h ↦ h.1⟩⟩
    by_contra hnot
    exact hex ⟨hv, hnot⟩

/-- The tuple of a version string. -/
def key (py : Python) (version : String) : Option Precedence :=
  (parseVersion py version).bind (precedence py)

theorem key_toString {py : Python} {v : Version} (h : Readable py v) :
    key py v.toString = some (keyOf v) := by
  rw [key, parseVersion_toString h, Option.bind_some, precedence_parsed h]

/-- **Version ranges.**  As long as no number has more digits than the interpreter reads, every
version and every range of comparators with full versions, with any blanks around them, are
decided by the precedence of the versions and the rule for pre-releases; and the tuples are
totally ordered, with equal tuples exactly for versions that differ in build metadata at most. -/
theorem inRange_iff (py : Python) :
    (∀ (v : Version) (ws : List WrittenComparator), ws ≠ [] → Readable py v →
      (∀ w ∈ ws, Readable py w.comparator.version) →
      ∃ b, inRange py v.toString (rangeText ws) = some b ∧
        (b = true ↔ Matches v (ws.map WrittenComparator.comparator))) ∧
    ∀ u v w : Version, Readable py u → Readable py v → Readable py w →
      ∃ a b c, key py u.toString = some a ∧ key py v.toString = some b ∧
        key py w.toString = some c ∧ (a ≤ b ∨ b ≤ a) ∧ (a ≤ b → b ≤ c → a ≤ c) ∧
        (a < b ↔ u.Precedes v) ∧ (a ≤ b ∧ b ≤ a ↔ u.SamePrecedence v) := by
  refine ⟨fun v ws hne hv hws ↦ inRange_matches hne hv hws, fun u v w hu hv hw ↦ ?_⟩
  refine ⟨keyOf u, keyOf v, keyOf w, key_toString hu, key_toString hv, key_toString hw,
    le_total _ _, le_trans, keyOf_lt_iff, ?_⟩
  rw [← keyOf_eq_iff]
  exact le_antisymm_iff.symm

/-- A comparator with one blank after its operator. -/
def spaced (c : Comparator) : WrittenComparator where
  comparator := c
  before := ""
  between := " "
  after := ""
  blank := by
    intro c hc
    obtain rfl : c = ' ' := by simpa using hc
    rfl

/-- Under a limit of `m` digits, a release whose major number has one more satisfies `>= 0.0.0`,
and the guard raises an exception when it is asked. -/
theorem exists_inRange_raises {py : Python} {m : ℕ} (hm : py.maxStrDigits = some m)
    (h0 : 0 < m) : ∃ (v : Version) (w : WrittenComparator),
    v.major = 10 ^ m ∧ w.text = ">= 0.0.0" ∧ Matches v [w.comparator] ∧
    inRange py v.toString (rangeText [w]) = none := by
  let v : Version := ⟨10 ^ m, 0, 0, [], []⟩
  let w := spaced ⟨.ge, ⟨0, 0, 0, [], []⟩⟩
  have hlong : ¬ py.Within v.major := Python.not_within hm h0 le_rfl
  refine ⟨v, w, rfl, by decide +kernel, ⟨?_, fun h ↦ absurd rfl h⟩, ?_⟩
  · intro c hc
    obtain rfl := List.mem_singleton.mp hc
    exact Or.inl (.major (Nat.pow_pos (by decide)))
  · rw [inRange, parseVersion_raises hlong]
    rfl

/-- The default limit is 4300 digits. -/
theorem inRange_raises : ∃ (v : Version) (w : WrittenComparator),
    v.major = 10 ^ 4300 ∧ w.text = ">= 0.0.0" ∧ Matches v [w.comparator] ∧
    inRange Python.ascii v.toString (rangeText [w]) = none :=
  @exists_inRange_raises Python.ascii 4300 rfl (by decide)

theorem isIdentifier_alpha : IsIdentifier "alpha" := by
  have hall : "alpha".toList.all Char.isAlphanum = true := by decide
  exact ⟨by decide, fun c hc ↦ Or.inl (List.all_eq_true.mp hall c hc)⟩

/-- The pre-release `0.3.0-alpha.n`. -/
def alpha (n : ℕ) : Version :=
  ⟨0, 3, 0, [.alphanumeric "alpha" isIdentifier_alpha ⟨'a', by decide, by decide⟩, .numeric n], []⟩

/-- The law at a pre-release and a range that names one of the same release. -/
theorem inRange_iff_ascii : ∃ (v : Version) (w : WrittenComparator),
    v.toString = "0.3.0-alpha.10" ∧ w.text = ">= 0.3.0-alpha.8" ∧
    inRange Python.ascii v.toString (rangeText [w]) = some true := by
  let w := spaced ⟨.ge, alpha 8⟩
  have hwithin : ∀ n < 100, Python.ascii.Within n := by
    intro n hn m hm
    obtain rfl : 4300 = m := Option.some.inj hm
    have hlength : (Nat.toDigits 10 n).length ≤ 2 :=
      (Nat.length_toDigits_le_iff (by decide) (by decide)).mpr hn
    omega
  have hread : ∀ n < 100, Readable Python.ascii (alpha n) := by
    intro n hn
    refine ⟨hwithin 0 (by decide), hwithin 3 (by decide), hwithin 0 (by decide), fun m hm ↦ ?_⟩
    have hm' : m = n := by simpa [alpha] using hm
    exact hwithin m (hm' ▸ hn)
  obtain ⟨b, hb, hiff⟩ := (inRange_iff Python.ascii).1 (alpha 10) [w] (List.cons_ne_nil _ _)
    (hread 10 (by decide)) fun c hc ↦ List.mem_singleton.mp hc ▸ hread 8 (by decide)
  refine ⟨alpha 10, w, by decide +kernel, by decide +kernel, ?_⟩
  rw [hb, hiff.mpr ⟨?_, fun _ ↦ ⟨⟨.ge, alpha 8⟩, List.mem_singleton_self _, List.cons_ne_nil _ _,
    rfl, rfl, rfl⟩⟩]
  intro c hc
  obtain rfl := List.mem_singleton.mp hc
  exact Or.inl (.pre ⟨rfl, rfl, rfl⟩ (List.cons_ne_nil _ _) (List.cons_ne_nil _ _)
    (.cons (.rel (.numeric (by decide)))))

end AdvisoryGuard

end CloudGateway
