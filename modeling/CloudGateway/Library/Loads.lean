import Mathlib.Algebra.BigOperators.Group.Finset.Piecewise
import Mathlib.Algebra.Order.Floor.Div
import Mathlib.Data.Int.CardIntervalMod

/-!
# Loads

Items are placed in bins, and the load of a bin is the number of items in it.  The loads add
up to the number of items, so when no two of them differ by more than one, there is no choice
how many bins have the larger load (`balanced_of_sum`).

Consecutive numbers, each placed in the bin that is its remainder, are balanced, whatever
number is the first (`balanced_range'`).
-/

universe u

namespace Loads

open Finset

/-- The loads of `q` bins that hold `n` items, as even as they can be. -/
structure Balanced (q n : ℕ) (load : ℕ → ℕ) : Prop where
  /-- A bin holds the average, rounded down or up. -/
  floor_or_ceil : ∀ i < q, load i = n / q ∨ load i = n ⌈/⌉ q
  /-- The bins that hold one more than the average rounded down. -/
  card_larger : #{i ∈ range q | load i = n / q + 1} = n % q

/-- Loads of two sizes that differ by one add up to what tells how many are the larger. -/
theorem sum_eq_add_card_larger {ι : Type u} {s : Finset ι} {load : ι → ℕ} {a : ℕ}
    (h : ∀ i ∈ s, load i = a ∨ load i = a + 1) :
    ∑ i ∈ s, load i = #s * a + #{i ∈ s | load i = a + 1} := by
  have hload : ∀ i ∈ s, load i = a + if load i = a + 1 then 1 else 0 := by
    intro i hi
    rcases h i hi with heq | heq
    · rw [if_neg (by rw [heq]; exact Nat.ne_of_lt (Nat.lt_succ_self a))]
      exact heq
    · rw [if_pos heq]
      exact heq
  rw [sum_congr rfl hload, sum_add_distrib, sum_const, smul_eq_mul, card_filter]

/-- Rounded up, a quotient with a remainder is one more than rounded down. -/
theorem ceilDiv_of_mod_pos {q n : ℕ} (h : 0 < n % q) (hq : 0 < q) : n ⌈/⌉ q = n / q + 1 := by
  have hn := Nat.div_add_mod n q
  rw [Nat.ceilDiv_eq_add_pred_div]
  have hsum : n + q - 1 = (n % q - 1) + q * (n / q + 1) := by
    rw [Nat.mul_succ]
    omega
  rw [hsum, Nat.add_mul_div_left _ _ hq, Nat.div_eq_of_lt, Nat.zero_add]
  exact (Nat.sub_le _ 1).trans_lt (Nat.mod_lt n hq)

/-- Loads that add up to `n` and take two values only, the average and one more. -/
theorem balanced_of_sum {q n : ℕ} {load : ℕ → ℕ} (hq : 0 < q)
    (hsum : ∑ i ∈ range q, load i = n)
    (h : ∀ i < q, load i = n / q ∨ load i = n / q + 1) : Balanced q n load := by
  have hcard : #{i ∈ range q | load i = n / q + 1} = n % q := by
    have htotal := sum_eq_add_card_larger fun i hi ↦ h i (mem_range.mp hi)
    rw [hsum, card_range] at htotal
    exact Nat.add_left_cancel (htotal.symm.trans (Nat.div_add_mod n q).symm)
  refine ⟨fun i hi ↦ ?_, hcard⟩
  rcases h i hi with hfloor | hlarger
  · exact .inl hfloor
  · right
    rw [hlarger, ceilDiv_of_mod_pos _ hq]
    rw [← hcard, card_pos]
    exact ⟨i, mem_filter.mpr ⟨mem_range.mpr hi, hlarger⟩⟩

/-- How many of `n` consecutive numbers have the remainder `i`. -/
theorem count_mod_range' {q : ℕ} (hq : 0 < q) (s n : ℕ) {i : ℕ} (hi : i < q) :
    ((List.range' s n).map (· % q)).count i
      = n / q + if (i + (q - s % q)) % q < n % q then 1 else 0 := by
  rw [← Nat.count_modEq_card n hq, List.count_eq_countP, List.countP_map,
    List.range'_eq_map_range, List.countP_map, Nat.count]
  refine List.countP_congr fun k _ ↦ ?_
  have hs := Nat.mod_lt s hq
  -- `s + k` leaves the remainder `i` where `k` leaves that of `i - s`.
  have hshift : s + (i + (q - s % q)) ≡ i [MOD q] := by
    have hsum : s % q + (i + (q - s % q)) = i + q := by omega
    calc s + (i + (q - s % q))
      _ ≡ s % q + (i + (q - s % q)) [MOD q] := (Nat.mod_modEq s q).symm.add_right _
      _ = i + q := hsum
      _ ≡ i [MOD q] := Nat.add_modEq_right
  have hmod : (s + k) % q = i ↔ s + k ≡ i [MOD q] := by
    rw [Nat.ModEq, Nat.mod_eq_of_lt hi]
  simp only [Function.comp_apply, beq_iff_eq, decide_eq_true_eq, hmod]
  constructor
  · intro h
    exact Nat.ModEq.add_left_cancel' s (h.trans hshift.symm)
  · intro h
    exact (h.add_left s).trans hshift

/-- **Consecutive numbers are balanced**, each in the bin that is its remainder. -/
theorem balanced_range' {q : ℕ} (hq : 0 < q) (s n : ℕ) :
    Balanced q n fun i ↦ ((List.range' s n).map (· % q)).count i := by
  refine balanced_of_sum hq ?_ fun i hi ↦ ?_
  · have hmem : ∀ i ∈ (((List.range' s n).map (· % q) : List ℕ) : Multiset ℕ), i ∈ range q := by
      intro i hi
      obtain ⟨k, -, rfl⟩ := List.mem_map.mp (Multiset.mem_coe.mp hi)
      exact mem_range.mpr (Nat.mod_lt k hq)
    have hsum := Multiset.sum_count_eq_card hmem
    simpa using hsum
  · rw [count_mod_range' hq s n hi]
    split
    · exact .inr rfl
    · exact .inl rfl

end Loads
