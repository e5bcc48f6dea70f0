import Mathlib.Data.Finmap

/-!
# Retaining entries of a finite map

`Finmap.retain p s` keeps the entries of `s` that satisfy `p`.  Its lookup is the
lookup of `s`, filtered (`lookup_retain`): whether an entry is kept does not depend on
the others.
-/

universe u v

namespace Finmap

variable {α : Type u} {β : α → Type v}

/-- The entries that satisfy `p`. -/
def retain (p : ∀ a, β a → Bool) (s : Finmap β) : Finmap β where
  entries := s.entries.filter fun e ↦ p e.1 e.2
  nodupKeys := by
    obtain ⟨entries, hnodup⟩ := s
    induction entries using Quot.inductionOn with
    | h l => exact List.NodupKeys.sublist List.filter_sublist hnodup

/-- An entry is kept when it satisfies `p`, whatever the other entries are. -/
@[simp] theorem lookup_retain [DecidableEq α] (p : ∀ a, β a → Bool) (s : Finmap β) (a : α) :
    (s.retain p).lookup a = (s.lookup a).filter (p a) := by
  apply Option.ext
  intro b
  rw [lookup_eq_some_iff, Option.filter_eq_some_iff, lookup_eq_some_iff]
  exact Multiset.mem_filter

end Finmap
