import Mathlib.Data.List.Basic
import Mathlib.Tactic.Common

/-!
# Lines

A text that is written line by line (`unlines`) is split at its line ends into these lines, if
none of them holds a line end itself (`splitOn_unlines`).  Otherwise it has too many lines
(`notMem_of_splitOn_unlines`).

A line that is written from two fields with a separator between them is cut into these at the
first separator (`before`, `after`), if the first field holds none, and at the last one
(`beforeLast`, `afterLast`), if the second field holds none.
-/

universe u

namespace Lines

variable {α : Type u} [BEq α] [LawfulBEq α] {sep : α}

/-- The text of some lines, each with a line end. -/
def unlines (sep : α) (ls : List (List α)) : List α := ls.flatMap (· ++ [sep])

omit [BEq α] [LawfulBEq α] in
theorem unlines_cons (l : List α) (ls : List (List α)) :
    unlines sep (l :: ls) = l ++ sep :: unlines sep ls := by
  rw [unlines, List.flatMap_cons, List.append_assoc]
  rfl

/-- Nothing is behind the last line end. -/
theorem splitOn_unlines {ls : List (List α)} (h : ∀ l ∈ ls, sep ∉ l) :
    (unlines sep ls).splitOn sep = ls ++ [[]] := by
  induction ls with
  | nil => rfl
  | cons l ls ih =>
      rw [unlines_cons, List.splitOn_append_cons_self_of_not_mem (h l List.mem_cons_self),
        ih fun l' hl' ↦ h l' (List.mem_cons_of_mem l hl')]
      rfl

omit [LawfulBEq α] in
/-- A text has one piece more than it has line ends. -/
theorem length_splitOn (xs : List α) : (xs.splitOn sep).length = xs.count sep + 1 := by
  induction xs with
  | nil => rfl
  | cons x xs ih =>
      rw [List.splitOn_cons_eq_if_modifyHead, List.count_cons]
      split
      · rw [List.length_cons, ih]
      · rw [List.length_modifyHead, ih, Nat.add_zero]

theorem count_unlines_cons (l : List α) (ls : List (List α)) :
    (unlines sep (l :: ls)).count sep = l.count sep + ((unlines sep ls).count sep + 1) := by
  rw [unlines_cons, List.count_append, List.count_cons_self]

theorem length_le_count_unlines (sep : α) (ls : List (List α)) :
    ls.length ≤ (unlines sep ls).count sep := by
  induction ls with
  | nil => exact Nat.zero_le _
  | cons l ls ih =>
      rw [count_unlines_cons, List.length_cons]
      omega

/-- If the text is split into as many lines as it was written from, none of them holds a line
end. -/
theorem notMem_of_splitOn_unlines {ls ls' : List (List α)}
    (h : (unlines sep ls).splitOn sep = ls' ++ [[]]) (hlength : ls'.length = ls.length) :
    ∀ l ∈ ls, sep ∉ l := by
  have hcount : (unlines sep ls).count sep = ls.length := by
    have hpieces := congrArg List.length h
    rw [length_splitOn, List.length_append, hlength] at hpieces
    exact Nat.succ.inj hpieces
  clear h hlength
  induction ls with
  | nil => exact List.forall_mem_nil _
  | cons l ls ih =>
      have hle := length_le_count_unlines sep ls
      rw [count_unlines_cons, List.length_cons] at hcount
      rw [List.forall_mem_cons]
      exact ⟨List.count_eq_zero.mp (by omega), ih (by omega)⟩

/-! ## Fields -/

/-- What is before the first separator. -/
def before (sep : α) (l : List α) : List α := l.takeWhile (· != sep)

/-- What is behind the first separator. -/
def after (sep : α) (l : List α) : List α := (l.dropWhile (· != sep)).tail

/-- What is before the last separator. -/
def beforeLast (sep : α) (l : List α) : List α := (after sep l.reverse).reverse

/-- What is behind the last separator. -/
def afterLast (sep : α) (l : List α) : List α := (before sep l.reverse).reverse

section Fields

variable {l r : List α}

theorem forall_ne_of_notMem (h : sep ∉ l) : ∀ x ∈ l, (x != sep) = true := fun _ hx ↦
  bne_iff_ne.mpr fun heq ↦ h (heq ▸ hx)

theorem before_append_cons (h : sep ∉ l) : before sep (l ++ sep :: r) = l := by
  rw [before, List.takeWhile_append_of_pos (forall_ne_of_notMem h),
    List.takeWhile_cons_of_neg (by simp), List.append_nil]

theorem after_append_cons (h : sep ∉ l) : after sep (l ++ sep :: r) = r := by
  rw [after, List.dropWhile_append_of_pos (forall_ne_of_notMem h),
    List.dropWhile_cons_of_neg (by simp)]
  rfl

theorem beforeLast_append_cons (h : sep ∉ r) : beforeLast sep (l ++ sep :: r) = l := by
  have hreverse : (l ++ sep :: r).reverse = r.reverse ++ sep :: l.reverse := by simp
  rw [beforeLast, hreverse, after_append_cons (mt List.mem_reverse.mp h), List.reverse_reverse]

theorem afterLast_append_cons (h : sep ∉ r) : afterLast sep (l ++ sep :: r) = r := by
  have hreverse : (l ++ sep :: r).reverse = r.reverse ++ sep :: l.reverse := by simp
  rw [afterLast, hreverse, before_append_cons (mt List.mem_reverse.mp h), List.reverse_reverse]

end Fields

end Lines
