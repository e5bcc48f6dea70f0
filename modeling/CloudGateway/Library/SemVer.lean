import Mathlib.Data.List.Basic
import Mathlib.Tactic.Common

/-!
# Semantic versions

The versions of SemVer 2.0.0 as abstract syntax: a `Version` is valid by construction, and a
string is a valid version string if it is the text of one (`Version.toString`).

`Version.Precedes` is the precedence of section 11 of the specification: build metadata is
ignored, a pre-release is below its release, and pre-release identifiers are compared one by one
with a shorter list below its extensions.  `Matches` is the rule by which a dependency resolver
selects versions: every comparator of a range holds, and a pre-release is selected only by a
range that names a pre-release of the same release.
-/

namespace SemVer

/-- The characters of an identifier, `[0-9A-Za-z-]`. -/
def IsIdentifierChar (c : Char) : Prop := c.isAlphanum = true ∨ c = '-'

/-- A nonempty string of identifier characters. -/
def IsIdentifier (s : String) : Prop := s ≠ "" ∧ ∀ c ∈ s.toList, IsIdentifierChar c

theorem IsIdentifierChar.ne {c d : Char} (h : IsIdentifierChar c) (hd : d.isAlphanum = false)
    (hd' : d ≠ '-') : c ≠ d := by
  rintro rfl
  rcases h with h | h
  · rw [h] at hd
    cases hd
  · exact hd' h

theorem isIdentifierChar_of_isDigit {c : Char} (h : c.isDigit = true) : IsIdentifierChar c := by
  refine Or.inl ?_
  rw [Char.isAlphanum, h, Bool.or_true]

/-- The code points of identifier characters. -/
theorem IsIdentifierChar.toNat {c : Char} (h : IsIdentifierChar c) :
    44 < c.toNat ∧ c.toNat < 128 := by
  rcases h with h | rfl
  · have hor : ((c.isUpper || c.isLower) || c.isDigit) = true := h
    rw [Bool.or_eq_true, Bool.or_eq_true] at hor
    rcases hor with (h | h) | h
    · have hrange : c.val ≥ 'A'.val ∧ c.val ≤ 'Z'.val := of_decide_eq_true h
      have hlo : 65 ≤ c.toNat := UInt32.le_iff_toNat_le.mp hrange.1
      have hhi : c.toNat ≤ 90 := UInt32.le_iff_toNat_le.mp hrange.2
      omega
    · have hrange := Bool.and_eq_true_iff.mp h
      have hlo : 97 ≤ c.toNat := UInt32.le_iff_toNat_le.mp (of_decide_eq_true hrange.1)
      have hhi : c.toNat ≤ 122 := UInt32.le_iff_toNat_le.mp (of_decide_eq_true hrange.2)
      omega
    · have hrange : 48 ≤ c.toNat ∧ c.toNat ≤ 57 := Char.isDigit_iff_toNat.mp h
      omega
  · decide

/-! ## Numbers -/

/-- The text of a number, without leading zeros. -/
theorem isDigit_of_mem_toString {n : ℕ} {c : Char} (h : c ∈ (toString n).toList) :
    c.isDigit = true := by
  rw [Nat.toString_eq_ofList_toDigits, String.toList_ofList] at h
  exact Nat.isDigit_of_mem_toDigits (by decide) (by decide) h

theorem isIdentifier_toString (n : ℕ) : IsIdentifier (toString n) := by
  constructor
  · intro h
    have hlist := congrArg String.toList h
    rw [Nat.toString_eq_ofList_toDigits, String.toList_ofList] at hlist
    exact Nat.toDigits_ne_nil hlist
  · exact fun c hc ↦ isIdentifierChar_of_isDigit (isDigit_of_mem_toString hc)

/-! ## Versions -/

/-- A pre-release identifier: a number, or a string with a character that is no digit. -/
inductive Identifier where
  | numeric (n : ℕ)
  | alphanumeric (s : String) (h : IsIdentifier s) (hs : ∃ c ∈ s.toList, c.isDigit = false)

/-- The text of a pre-release identifier. -/
def Identifier.toString : Identifier → String
  | numeric n => ToString.toString n
  | alphanumeric s _ _ => s

theorem Identifier.isIdentifier (i : Identifier) : IsIdentifier i.toString := by
  cases i with
  | numeric n => exact isIdentifier_toString n
  | alphanumeric s h hs => exact h

/-- A build identifier. -/
abbrev BuildIdentifier := {s : String // IsIdentifier s}

/-- A version. -/
structure Version where
  major : ℕ
  minor : ℕ
  patch : ℕ
  pre : List Identifier
  build : List BuildIdentifier

namespace Version

/-- `major.minor.patch`. -/
def coreText (v : Version) : String :=
  toString v.major ++ ("." ++ (toString v.minor ++ ("." ++ toString v.patch)))

/-- The identifiers of the pre-release, separated by dots. -/
def preText (v : Version) : String := ".".intercalate (v.pre.map Identifier.toString)

/-- The build metadata, separated by dots. -/
def buildText (v : Version) : String := ".".intercalate (v.build.map Subtype.val)

/-- The text of a version. -/
protected def toString (v : Version) : String :=
  v.coreText ++ ((if v.pre = [] then "" else "-" ++ v.preText) ++
    if v.build = [] then "" else "+" ++ v.buildText)

/-- Same version up to build metadata. -/
def SamePrecedence (v w : Version) : Prop :=
  v.major = w.major ∧ v.minor = w.minor ∧ v.patch = w.patch ∧ v.pre = w.pre

/-- Pre-releases of one release, or that release. -/
def SameRelease (v w : Version) : Prop :=
  v.major = w.major ∧ v.minor = w.minor ∧ v.patch = w.patch

end Version

/-! ## Precedence -/

/-- Precedence of pre-release identifiers. -/
inductive Identifier.Precedes : Identifier → Identifier → Prop
  /-- Numbers are compared numerically. -/
  | numeric {m n : ℕ} (h : m < n) : Precedes (numeric m) (numeric n)
  /-- A number is below any other identifier. -/
  | mixed {n : ℕ} {s : String} {h : IsIdentifier s} {hs : ∃ c ∈ s.toList, c.isDigit = false} :
      Precedes (numeric n) (alphanumeric s h hs)
  /-- Other identifiers are compared in ASCII order. -/
  | alphanumeric {s t : String} {hs : IsIdentifier s} {hs' : ∃ c ∈ s.toList, c.isDigit = false}
      {ht : IsIdentifier t} {ht' : ∃ c ∈ t.toList, c.isDigit = false} (h : s < t) :
      Precedes (alphanumeric s hs hs') (alphanumeric t ht ht')

/-- Precedence of versions. -/
inductive Version.Precedes (v w : Version) : Prop
  | major (h : v.major < w.major)
  | minor (h : v.major = w.major) (h' : v.minor < w.minor)
  | patch (h : v.major = w.major) (h' : v.minor = w.minor) (h'' : v.patch < w.patch)
  /-- A pre-release is below its release. -/
  | release (h : v.SameRelease w) (hv : v.pre ≠ []) (hw : w.pre = [])
  /-- Pre-releases of one release are compared identifier by identifier, and a list is below
  the longer lists it begins. -/
  | pre (h : v.SameRelease w) (hv : v.pre ≠ []) (hw : w.pre ≠ [])
      (hlex : List.Lex Identifier.Precedes v.pre w.pre)

/-! ## Ranges -/

/-- The operators of a comparator. -/
inductive Op where
  | ge
  | le
  | gt
  | lt
  | eq

/-- The text of an operator. -/
def Op.toString : Op → String
  | ge => ">="
  | le => "<="
  | gt => ">"
  | lt => "<"
  | eq => "="

/-- An operator with a version to compare with. -/
structure Comparator where
  op : Op
  version : Version

/-- The version satisfies the comparator. -/
def Comparator.Holds (c : Comparator) (v : Version) : Prop :=
  match c.op with
  | .ge => c.version.Precedes v ∨ v.SamePrecedence c.version
  | .le => v.Precedes c.version ∨ v.SamePrecedence c.version
  | .gt => c.version.Precedes v
  | .lt => v.Precedes c.version
  | .eq => v.SamePrecedence c.version

/-- The version satisfies all comparators, and if it is a pre-release, one of them names a
pre-release of the same release. -/
def Matches (v : Version) (range : List Comparator) : Prop :=
  (∀ c ∈ range, c.Holds v) ∧
    (v.pre ≠ [] → ∃ c ∈ range, c.version.pre ≠ [] ∧ c.version.SameRelease v)

/-! ## Characters of a version -/

theorem mem_intercalate_dot {ss : List String} {c : Char}
    (h : c ∈ (".".intercalate ss).toList) : c = '.' ∨ ∃ s ∈ ss, c ∈ s.toList := by
  rw [String.toList_intercalate] at h
  induction ss with
  | nil => cases h
  | cons s ss ih =>
      cases ss with
      | nil => exact Or.inr ⟨s, List.mem_cons_self, by simpa using h⟩
      | cons t ss =>
          have hsplit : c ∈ s.toList ∨ c = '.' ∨
              c ∈ ['.'].intercalate ((t :: ss).map String.toList) := by
            simpa [List.intercalate_cons_cons] using h
          rcases hsplit with h | h | h
          · exact Or.inr ⟨s, List.mem_cons_self, h⟩
          · exact Or.inl h
          · rcases ih h with h | ⟨u, hu, h⟩
            · exact Or.inl h
            · exact Or.inr ⟨u, List.mem_cons_of_mem s hu, h⟩

namespace Version

theorem mem_coreText {v : Version} {c : Char} (h : c ∈ v.coreText.toList) :
    c.isDigit = true ∨ c = '.' := by
  simp only [coreText, String.toList_append, List.mem_append] at h
  rcases h with h | h | h | h | h
  · exact Or.inl (isDigit_of_mem_toString h)
  · exact Or.inr (List.mem_singleton.mp h)
  · exact Or.inl (isDigit_of_mem_toString h)
  · exact Or.inr (List.mem_singleton.mp h)
  · exact Or.inl (isDigit_of_mem_toString h)

theorem mem_preText {v : Version} {c : Char} (h : c ∈ v.preText.toList) :
    IsIdentifierChar c ∨ c = '.' := by
  rcases mem_intercalate_dot h with h | ⟨s, hs, h⟩
  · exact Or.inr h
  · obtain ⟨i, -, rfl⟩ := List.mem_map.mp hs
    exact Or.inl (i.isIdentifier.2 c h)

theorem mem_buildText {v : Version} {c : Char} (h : c ∈ v.buildText.toList) :
    IsIdentifierChar c ∨ c = '.' := by
  rcases mem_intercalate_dot h with h | ⟨s, hs, h⟩
  · exact Or.inr h
  · obtain ⟨i, -, rfl⟩ := List.mem_map.mp hs
    exact Or.inl (i.2.2 c h)

/-- The characters of a version. -/
theorem mem_toString {v : Version} {c : Char} (h : c ∈ v.toString.toList) :
    IsIdentifierChar c ∨ c = '.' ∨ c = '+' := by
  rw [Version.toString, String.toList_append, String.toList_append] at h
  rcases List.mem_append.mp h with h | h
  · rcases mem_coreText h with h | h
    · exact Or.inl (isIdentifierChar_of_isDigit h)
    · exact Or.inr (Or.inl h)
  rcases List.mem_append.mp h with h | h
  · by_cases hpre : v.pre = []
    · rw [if_pos hpre] at h
      cases h
    · rw [if_neg hpre, String.toList_append] at h
      rcases List.mem_append.mp h with h | h
      · exact Or.inl (Or.inr (List.mem_singleton.mp h))
      · exact (mem_preText h).imp_right Or.inl
  · by_cases hbuild : v.build = []
    · rw [if_pos hbuild] at h
      cases h
    · rw [if_neg hbuild, String.toList_append] at h
      rcases List.mem_append.mp h with h | h
      · exact Or.inr (Or.inr (List.mem_singleton.mp h))
      · exact (mem_buildText h).imp_right Or.inl

/-- A version begins with a digit. -/
theorem head?_toString (v : Version) :
    ∃ c, v.toString.toList.head? = some c ∧ c.isDigit = true := by
  have hmajor : ∃ c cs, (toString v.major).toList = c :: cs := by
    apply List.exists_cons_of_ne_nil
    intro h
    exact (isIdentifier_toString v.major).1 (String.toList_injective h)
  obtain ⟨c, cs, hcs⟩ := hmajor
  refine ⟨c, ?_, isDigit_of_mem_toString (n := v.major) (by rw [hcs]; exact List.mem_cons_self)⟩
  rw [Version.toString, coreText, String.toList_append, String.toList_append, hcs]
  rfl

end Version

end SemVer
