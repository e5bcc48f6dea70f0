import Mathlib.Algebra.Order.Group.Defs
import Mathlib.Data.List.Induction
import Mathlib.Algebra.Order.Ring.Rat
import CloudGateway.MetricsExport

/-!
# Counters

A counter is to grow only.  The registry leaves that to its callers: `counter_inc` adds
whatever it is given, and `gauge_set` sets a counter as it sets a gauge.  So the counters of a
registry grow if and only if no operation of the run takes anything from one
(`counters_grow_iff`).
-/

universe u

namespace CloudGateway

namespace MetricsRegistry

variable {K : Type u} [LinearOrder K]

/-- Every counter of `self` is one of `reg`, with values that are not smaller. -/
def Grows (self reg : MetricsRegistry K) : Prop :=
  ∀ name labels v, self.kind name = some .counter → self.stored name labels = some v →
    reg.kind name = some .counter ∧ ∃ v', reg.stored name labels = some v' ∧ v ≤ v'

theorem Grows.refl (self : MetricsRegistry K) : Grows self self :=
  fun _ _ v hkind hstored ↦ ⟨hkind, v, hstored, le_rfl⟩

theorem Grows.trans {self reg reg' : MetricsRegistry K} (h : Grows self reg)
    (h' : Grows reg reg') : Grows self reg' := by
  intro name labels v hkind hstored
  obtain ⟨hkind, v', hstored, hle⟩ := h name labels v hkind hstored
  obtain ⟨hkind, v'', hstored, hle'⟩ := h' name labels v' hkind hstored
  exact ⟨hkind, v'', hstored, hle.trans hle'⟩

variable [AddCommGroup K]

/-- An operation takes nothing from a counter: what it adds to a stored value is not negative,
and what it sets in its place is not smaller. -/
def KeepsCounters (self : MetricsRegistry K) : Op K → Prop
  | .register _ _ _ => True
  | .counterInc name delta =>
      self.kind name = some .counter → self.stored name "" ≠ none → 0 ≤ delta
  | .gaugeSet name value =>
      self.kind name = some .counter → ∀ v, self.stored name "" = some v → v ≤ value
  | .counterIncLabels name labels delta =>
      self.kind name = some .counter → self.stored name labels ≠ none → 0 ≤ delta
  | .gaugeSetLabels name labels value =>
      self.kind name = some .counter → ∀ v, self.stored name labels = some v → v ≤ value

variable [IsOrderedAddMonoid K]

theorem forall_stored_le_add_iff (stored : Option K) (delta : K) :
    (∀ v, stored = some v → v ≤ v + delta) ↔ (stored ≠ none → 0 ≤ delta) := by
  cases stored with
  | none => simp
  | some v => simp

/-- In other words, the value that a mutator writes is not smaller than the one it replaces. -/
theorem keepsCounters_iff {self : MetricsRegistry K} {op : Op K} {w : Write K}
    (h : op.write = some w) : self.KeepsCounters op ↔
      (self.kind w.name = some .counter →
        ∀ v, self.stored w.name w.labels = some v → v ≤ w.value (some v)) := by
  cases op with
  | register => cases h
  | counterInc | counterIncLabels =>
      cases h
      exact imp_congr_right fun _ ↦ (forall_stored_le_add_iff _ _).symm
  | gaugeSet | gaugeSetLabels => cases h; rfl

/-- The counters grow in a step, if and only if the operation takes nothing from one. -/
theorem grows_apply_iff (self : MetricsRegistry K) (op : Op K) :
    Grows self (self.apply op) ↔ self.KeepsCounters op := by
  cases hwrite : op.write with
  | none =>
      cases op with
      | register name help metric_type =>
          refine iff_of_true (fun name' labels v hkind hstored ↦ ⟨?_, v, ?_, le_rfl⟩) trivial
          · rw [apply, kind_register, if_neg, hkind]
            rintro ⟨rfl, hnone⟩
            cases hnone.symm.trans hkind
          · rw [apply, stored_register, hstored]
      | _ => cases hwrite
  | some w =>
      rw [keepsCounters_iff hwrite]
      constructor
      · intro h hkind v hstored
        obtain ⟨-, v', hstored', hle⟩ := h w.name w.labels v hkind hstored
        rw [stored_write self hwrite, if_pos ⟨rfl, rfl, by rw [hkind]; exact nofun⟩, hstored]
          at hstored'
        obtain rfl := Option.some.inj hstored'
        exact hle
      · intro h name labels v hkind hstored
        refine ⟨(kind_write self hwrite name).trans hkind, ?_⟩
        rw [stored_write self hwrite]
        split
        · rename_i hwritten
          obtain ⟨rfl, rfl, -⟩ := hwritten
          exact ⟨_, congrArg (some ∘ w.value) hstored, h hkind v hstored⟩
        · exact ⟨v, hstored, le_rfl⟩

/-- Over a run, the counters grow if no operation takes anything from one. -/
theorem grows_run {self : MetricsRegistry K} {ops : List (Op K)}
    (h : ∀ before op, before ++ [op] <+: ops → (self.run before).KeepsCounters op) :
    Grows self (self.run ops) := by
  induction ops using List.reverseRecOn with
  | nil => exact Grows.refl self
  | append_singleton ops op ih =>
      have hbefore : Grows self (self.run ops) := ih fun before op' hrun ↦
        h before op' (hrun.trans (List.prefix_append ops [op]))
      rw [run_append]
      exact hbefore.trans ((grows_apply_iff _ op).mpr (h ops op List.prefix_rfl))

/-- **When counters only grow.**  From any moment of a run to any later one, no value of a
counter has decreased, if and only if no operation of the run takes anything from a counter. -/
theorem counters_grow_iff (ops : List (Op K)) :
    (∀ before after, before <+: after → after <+: ops →
      Grows ((new : MetricsRegistry K).run before) (new.run after)) ↔
    ∀ before op, before ++ [op] <+: ops →
      ((new : MetricsRegistry K).run before).KeepsCounters op := by
  constructor
  · intro h before op hrun
    have hgrows := h before (before ++ [op]) (List.prefix_append before [op]) hrun
    rw [run_append] at hgrows
    exact (grows_apply_iff _ op).mp hgrows
  · rintro h before _ ⟨ops', rfl⟩ hrun
    rw [run_append]
    refine grows_run fun before' op hbefore ↦ ?_
    rw [← run_append]
    refine h (before ++ before') op (List.IsPrefix.trans ?_ hrun)
    rw [List.append_assoc]
    exact (List.prefix_append_right_inj before).mpr hbefore

/-- A counter that is counted up. -/
theorem counters_grow_iff_rat :
    let ops : List (Op ℚ) :=
      [.register "requests" "Requests" .counter, .counterInc "requests" 5, .counterInc "requests" 1]
    (∀ before after, before <+: after → after <+: ops →
      Grows ((new : MetricsRegistry ℚ).run before) (new.run after)) ↔
    ∀ before op, before ++ [op] <+: ops →
      ((new : MetricsRegistry ℚ).run before).KeepsCounters op :=
  counters_grow_iff _

/-- A counter that is counted up to 5 and then set to 3, as if it were a gauge. -/
theorem counter_decreases :
    ∃ (ops : List (Op ℚ)) (op : Op ℚ) (name labels : String) (v v' : ℚ),
      (new.run ops).kind name = some .counter ∧ (new.run ops).stored name labels = some v ∧
      (new.run (ops ++ [op])).stored name labels = some v' ∧ v' < v :=
  ⟨[.register "requests" "Requests" .counter, .counterInc "requests" 5], .gaugeSet "requests" 3,
    "requests", "", 5, 3, by decide +kernel, by decide +kernel, by decide +kernel,
    by decide +kernel⟩

end MetricsRegistry

end CloudGateway
