import Mathlib.Data.List.Induction
import Mathlib.Data.List.Infix
import Mathlib.Data.List.TakeWhile

/-!
# Streaks

Some events are hits, and some break a streak of hits.  `trailing` counts the hits since the
last break, which is what a counter that a break resets knows; `Streak k` says that there have
been `k` hits in a row at some time.  The two meet at the first event that completes a streak
(`streak_append_singleton_iff`).
-/

universe u

namespace Streaks

variable {α : Type u} (hit breaks : α → Bool)

/-- The hits since the last break. -/
def trailing (xs : List α) : ℕ := (xs.reverse.takeWhile fun x ↦ !breaks x).countP hit

/-- Somewhere among the events, there are `k` hits with no break between them. -/
def Streak (k : ℕ) (xs : List α) : Prop :=
  ∃ block, block <:+: xs ∧ (∀ x ∈ block, breaks x = false) ∧ k ≤ block.countP hit

variable {hit breaks} {k : ℕ} {xs ys : List α}

theorem trailing_append_singleton (xs : List α) (x : α) :
    trailing hit breaks (xs ++ [x]) =
      if breaks x then 0 else trailing hit breaks xs + if hit x then 1 else 0 := by
  rw [trailing, List.reverse_append, List.reverse_singleton, List.singleton_append,
    List.takeWhile_cons]
  cases h : breaks x with
  | true => rfl
  | false => exact List.countP_cons

theorem Streak.mono (h : Streak hit breaks k xs) (hxs : xs <:+: ys) : Streak hit breaks k ys := by
  obtain ⟨block, hblock, hrest⟩ := h
  exact ⟨block, hblock.trans hxs, hrest⟩

theorem streak_of_le_trailing (h : k ≤ trailing hit breaks xs) : Streak hit breaks k xs := by
  refine ⟨(xs.reverse.takeWhile fun x ↦ !breaks x).reverse, ?_, fun x hx ↦ ?_, ?_⟩
  · rw [← List.reverse_infix, List.reverse_reverse]
    exact (List.takeWhile_prefix _).isInfix
  · simpa using List.mem_takeWhile_imp (List.mem_reverse.mp hx)
  · rw [List.countP_reverse]
    exact h

/-- A streak that is not over is among the trailing hits. -/
theorem countP_le_trailing {block : List α} (h : block <:+ xs)
    (hbreaks : ∀ x ∈ block, breaks x = false) : block.countP hit ≤ trailing hit breaks xs := by
  obtain ⟨before, rfl⟩ := h
  have hall : ∀ x ∈ block.reverse, (!breaks x) = true := fun x hx ↦ by
    rw [hbreaks x (List.mem_reverse.mp hx)]
    rfl
  rw [trailing, List.reverse_append, List.takeWhile_append_of_pos hall, List.countP_append,
    List.countP_reverse]
  exact Nat.le_add_right _ _

/-- A streak is completed by the event that makes the trailing hits enough. -/
theorem streak_append_singleton_iff (x : α) :
    Streak hit breaks k (xs ++ [x]) ↔
      Streak hit breaks k xs ∨ k ≤ trailing hit breaks (xs ++ [x]) := by
  constructor
  · rintro ⟨block, hblock, hbreaks, hcount⟩
    rcases List.infix_concat_iff.mp hblock with hsuffix | hinfix
    · exact .inr (hcount.trans (countP_le_trailing hsuffix hbreaks))
    · exact .inl ⟨block, hinfix, hbreaks, hcount⟩
  · rintro (h | h)
    · exact h.mono (List.prefix_append xs [x]).isInfix
    · exact streak_of_le_trailing h

/-- There is a streak, if the trailing hits have been enough at some time. -/
theorem streak_iff_exists_prefix :
    Streak hit breaks k xs ↔ ∃ before ∈ xs.inits, k ≤ trailing hit breaks before := by
  simp only [List.mem_inits]
  constructor
  · rintro ⟨block, ⟨before, after, rfl⟩, hbreaks, hcount⟩
    refine ⟨before ++ block, List.prefix_append _ after, hcount.trans ?_⟩
    exact countP_le_trailing (List.suffix_append before block) hbreaks
  · rintro ⟨before, hpre, hle⟩
    exact (streak_of_le_trailing hle).mono hpre.isInfix

instance : Decidable (Streak hit breaks k xs) :=
  decidable_of_iff' _ streak_iff_exists_prefix

theorem not_streak_nil (hk : 0 < k) : ¬ Streak hit breaks k [] := by
  rintro ⟨block, hblock, -, hcount⟩
  rw [List.infix_nil.mp hblock, List.countP_nil] at hcount
  exact absurd hcount hk.not_ge

/-- There is an event that completes the first streak. -/
theorem Streak.exists_first (hk : 0 < k) (h : Streak hit breaks k xs) :
    ∃ before x, before ++ [x] <+: xs ∧ ¬ Streak hit breaks k before ∧
      Streak hit breaks k (before ++ [x]) := by
  induction xs using List.reverseRecOn with
  | nil => exact absurd h (not_streak_nil hk)
  | append_singleton xs x ih =>
      by_cases hxs : Streak hit breaks k xs
      · obtain ⟨before, y, hpre, hfirst⟩ := ih hxs
        exact ⟨before, y, hpre.trans (List.prefix_append xs [x]), hfirst⟩
      · exact ⟨xs, x, List.prefix_rfl, hxs, h⟩

end Streaks
