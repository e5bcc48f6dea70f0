import Mathlib.Algebra.BigOperators.Group.List.Basic
import Mathlib.Algebra.Order.Field.Basic
import Mathlib.Tactic.Linarith

/-!
# Spans of a line

A span is a pair of points `s < t` of an ordered field.  Spans that do not overlap cover
each point at most once (`count_covers_le_one_iff`), and fit, end to end, into any
interval that holds them all (`length_le`).
-/

universe u

namespace Spans

variable {K : Type u} [Field K] [LinearOrder K] [IsStrictOrderedRing K]

/-- Two spans have no time in common. -/
def Apart (m n : K × K) : Prop := m.2 ≤ n.1 ∨ n.2 ≤ m.1

/-- A span has the point `x` inside. -/
def Covers (x : K) (m : K × K) : Prop := m.1 < x ∧ x < m.2

instance (m n : K × K) : Decidable (Apart m n) := inferInstanceAs (Decidable (_ ∨ _))

instance (x : K) (m : K × K) : Decidable (Covers x m) := inferInstanceAs (Decidable (_ ∧ _))

/-- The length of some spans, in total. -/
def length (ms : List (K × K)) : K := (ms.map fun m ↦ m.2 - m.1).sum

theorem length_filter_add (p : K × K → Bool) (ms : List (K × K)) :
    length (ms.filter p) + length (ms.filter fun m ↦ !p m) = length ms := by
  induction ms with
  | nil => simp [length]
  | cons m ms ih =>
      simp only [length] at ih ⊢
      cases hp : p m <;> simp only [List.filter_cons, hp, Bool.not_true, Bool.not_false,
        Bool.false_eq_true, if_true, if_false, List.map_cons, List.sum_cons] <;> linarith

/-- **Spans that do not overlap** are, together, no longer than an interval that holds
them. -/
theorem length_le {a b : K} (hab : a ≤ b) {ms : List (K × K)} (hspan : ∀ m ∈ ms, m.1 < m.2)
    (hin : ∀ m ∈ ms, a ≤ m.1 ∧ m.2 ≤ b) (hapart : ms.Pairwise Apart) : length ms ≤ b - a := by
  induction hn : ms.length using Nat.strong_induction_on generalizing ms a b with
  | h n ih =>
      cases ms with
      | nil => simpa [length] using hab
      | cons m ms =>
          obtain ⟨hm, hms⟩ := List.forall_mem_cons.mp hspan
          obtain ⟨hma, hmb⟩ := hin m List.mem_cons_self
          obtain ⟨hfirst, hrest⟩ := List.pairwise_cons.mp hapart
          -- The other spans lie to the left of the first one, or to its right.
          have hleft : length (ms.filter fun k ↦ decide (k.2 ≤ m.1)) ≤ m.1 - a := by
            refine ih _ ?_ hma ?_ ?_ (hrest.sublist List.filter_sublist) rfl
            · rw [← hn, List.length_cons]
              exact Nat.lt_succ_of_le (List.length_filter_le _ _)
            · exact fun k hk ↦ hms k (List.mem_filter.mp hk).1
            · intro k hk
              obtain ⟨hk, hkm⟩ := List.mem_filter.mp hk
              exact ⟨(hin k (List.mem_cons_of_mem _ hk)).1, of_decide_eq_true hkm⟩
          have hright : length (ms.filter fun k ↦ !decide (k.2 ≤ m.1)) ≤ b - m.2 := by
            refine ih _ ?_ hmb ?_ ?_ (hrest.sublist List.filter_sublist) rfl
            · rw [← hn, List.length_cons]
              exact Nat.lt_succ_of_le (List.length_filter_le _ _)
            · exact fun k hk ↦ hms k (List.mem_filter.mp hk).1
            · intro k hk
              obtain ⟨hk, hkm⟩ := List.mem_filter.mp hk
              have hnot : ¬ k.2 ≤ m.1 := by simpa using hkm
              exact ⟨(hfirst k hk).resolve_right hnot, (hin k (List.mem_cons_of_mem _ hk)).2⟩
          have hsum := length_filter_add (fun k ↦ decide (k.2 ≤ m.1)) ms
          have hcons : length (m :: ms) = (m.2 - m.1) + length ms := by simp [length]
          linarith

/-- Spans that overlap have a point inside both. -/
theorem exists_covers {m n : K × K} (hm : m.1 < m.2) (hn : n.1 < n.2) (h : ¬ Apart m n) :
    ∃ x, Covers x m ∧ Covers x n := by
  rw [Apart, not_or, not_le, not_le] at h
  obtain ⟨x, hlo, hhi⟩ := exists_between (max_lt (lt_min hm h.2) (lt_min h.1 hn))
  obtain ⟨hlom, hlon⟩ := max_lt_iff.mp hlo
  obtain ⟨hhim, hhin⟩ := lt_min_iff.mp hhi
  exact ⟨x, ⟨hlom, hhim⟩, hlon, hhin⟩

omit [Field K] [IsStrictOrderedRing K] in
/-- No point is inside two spans that do not overlap. -/
theorem Apart.not_covers {m n : K × K} (h : Apart m n) {x : K} (hm : Covers x m) :
    ¬ Covers x n := by
  rintro ⟨hn₁, hn₂⟩
  rcases h with h | h
  · exact lt_asymm hm.2 (lt_of_le_of_lt h hn₁)
  · exact lt_asymm hm.1 (lt_of_lt_of_le hn₂ h)

/-- **Spans do not overlap** exactly when each point is inside one of them at most. -/
theorem count_covers_le_one_iff {ms : List (K × K)} (hspan : ∀ m ∈ ms, m.1 < m.2) :
    (∀ x, ms.countP (fun m ↦ decide (Covers x m)) ≤ 1) ↔ ms.Pairwise Apart := by
  induction ms with
  | nil => exact iff_of_true (fun _ ↦ Nat.zero_le _) .nil
  | cons m ms ih =>
      obtain ⟨hm, hms⟩ := List.forall_mem_cons.mp hspan
      rw [List.pairwise_cons, ← ih hms]
      simp only [List.countP_cons, decide_eq_true_eq]
      constructor
      · intro h
        refine ⟨?_, fun x ↦ le_trans (Nat.le_add_right _ _) (h x)⟩
        intro n hn
        by_contra hover
        obtain ⟨x, hxm, hxn⟩ := exists_covers hm (hms n hn) hover
        have hpos : 0 < ms.countP fun m ↦ decide (Covers x m) :=
          List.countP_pos_iff.mpr ⟨n, hn, decide_eq_true hxn⟩
        have htwo := h x
        rw [if_pos hxm] at htwo
        omega
      · rintro ⟨hfirst, hrest⟩ x
        by_cases hx : Covers x m
        · have hzero : (ms.countP fun m ↦ decide (Covers x m)) = 0 :=
            List.countP_eq_zero.mpr fun n hn ↦ by
              simpa using (hfirst n hn).not_covers hx
          rw [hzero, if_pos hx]
        · rw [if_neg hx]
          exact hrest x

end Spans
