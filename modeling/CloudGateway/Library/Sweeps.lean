import Mathlib.Data.Finset.Card
import Mathlib.Data.Finset.SDiff
import Mathlib.Logic.Relation

/-!
# Sweeps until nothing changes

A set that grows by sweeps, each of which adds some of what the relation `r` leads to from
the set, until one adds nothing.  If there are only so many things to add, then so many sweeps
are enough, and what has been collected is all that `r` leads to (`untilStable_eq`).
-/

universe u

variable {α : Type u} [DecidableEq α]

/-- Sweep until a sweep adds nothing. -/
def untilStable (sweep : Finset α → Finset α) : ℕ → Finset α → Option (Finset α)
  | 0, _ => none
  | n + 1, s => if sweep s = s then some s else untilStable sweep n (sweep s)

/-- A sweep adds some of what `r` leads to, and nothing only if there is nothing left. -/
structure Sweeps (r : α → α → Prop) (bound : Finset α) (sweep : Finset α → Finset α) : Prop where
  subset : ∀ s, s ⊆ sweep s
  bounded : ∀ s, sweep s ⊆ s ∪ bound
  sound : ∀ s, ∀ b ∈ sweep s, ∃ a ∈ s, Relation.ReflTransGen r a b
  closed : ∀ s, sweep s = s → ∀ a ∈ s, ∀ b, r a b → b ∈ s

namespace Sweeps

variable {r : α → α → Prop} {bound : Finset α} {sweep : Finset α → Finset α}

/-- A sweep that adds something leaves less to add. -/
theorem card_lt (h : Sweeps r bound sweep) {s : Finset α} (hs : sweep s ≠ s) :
    (bound \ sweep s).card < (bound \ s).card := by
  obtain ⟨b, hb, hnew⟩ : ∃ b ∈ sweep s, b ∉ s := by
    by_contra hnone
    refine hs (Finset.Subset.antisymm (fun b hb ↦ ?_) (h.subset s))
    by_contra hnew
    exact hnone ⟨b, hb, hnew⟩
  have hbound : b ∈ bound := (Finset.mem_union.mp (h.bounded s hb)).resolve_left hnew
  refine Finset.card_lt_card (Finset.ssubset_iff_subset_ne.mpr ⟨?_, fun heq ↦ ?_⟩)
  · exact Finset.sdiff_subset_sdiff (Finset.Subset.refl _) (h.subset s)
  · have hmem : b ∈ bound \ sweep s := heq ▸ Finset.mem_sdiff.mpr ⟨hbound, hnew⟩
    exact (Finset.mem_sdiff.mp hmem).2 hb

/-- **Enough sweeps.**  They end, and what they end with is what `r` leads to. -/
theorem untilStable_eq (h : Sweeps r bound sweep) {n : ℕ} {s : Finset α}
    (hn : (bound \ s).card < n) : ∃ t, untilStable sweep n s = some t ∧
      ∀ b, b ∈ t ↔ ∃ a ∈ s, Relation.ReflTransGen r a b := by
  induction n generalizing s with
  | zero => exact absurd hn (Nat.not_lt_zero _)
  | succ n ih =>
      rw [untilStable]
      split
      · rename_i hstable
        refine ⟨s, rfl, fun b ↦ ⟨fun hb ↦ ⟨b, hb, .refl⟩, ?_⟩⟩
        rintro ⟨a, ha, hreach⟩
        induction hreach with
        | refl => exact ha
        | tail _ hstep ihs => exact h.closed s hstable _ ihs _ hstep
      · rename_i hgrows
        have hless := h.card_lt hgrows
        obtain ⟨t, ht, hmem⟩ := ih (s := sweep s) (by omega)
        refine ⟨t, ht, fun b ↦ (hmem b).trans ⟨?_, ?_⟩⟩
        · rintro ⟨a, ha, hreach⟩
          obtain ⟨a', ha', hfirst⟩ := h.sound s a ha
          exact ⟨a', ha', hfirst.trans hreach⟩
        · rintro ⟨a, ha, hreach⟩
          exact ⟨a, h.subset s ha, hreach⟩

end Sweeps
