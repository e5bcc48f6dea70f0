import Mathlib.Algebra.Field.Rat
import Mathlib.Algebra.Order.Field.Basic
import Mathlib.Algebra.Order.Ring.Rat
import CloudGateway.Backpressure

/-!
# More load

Of two controllers with the same configuration, the one with more load is not more lenient
(`evaluate_mono`): it rejects if the other one does (`Carries.rejects`), and if neither
rejects, it slows requests down if the other one does (`Carries.throttles`).  This needs
nothing of the watermarks, not even that the low one is below the high one.
-/

universe u

namespace CloudGateway

/-- How much an action refuses. -/
def FlowAction.severity : FlowAction → ℕ
  | .allow => 0
  | .throttle => 1
  | .reject => 2

theorem FlowAction.severity_le (action : FlowAction) : action.severity ≤ 2 := by
  cases action <;> decide

namespace BackpressureController

/-- The controller `c'` carries what `c` does, or more, under the same configuration. -/
structure Carries {F : Type u} (c c' : BackpressureController F) : Prop where
  config_eq : c'.config = c.config
  inflight : c.inflight ≤ c'.inflight
  queue_len : c.queue_len ≤ c'.queue_len
  throttling : c.throttling ≤ c'.throttling

namespace Carries

/-- A longer queue or more requests are rejected as well. -/
theorem rejects {F : Type u} {c c' : BackpressureController F} (h : Carries c c')
    (hrejects : c.Rejects) : c'.Rejects := by
  rw [Rejects, h.config_eq]
  rcases hrejects with hqueue | hinflight
  · exact .inl (UInt64.le_trans hqueue h.queue_len)
  · exact .inr (UInt64.le_trans hinflight h.inflight)

variable {K : Type u} [Field K] [LinearOrder K] [IsStrictOrderedRing K]
  {c c' : BackpressureController K}

theorem ratio (h : Carries c c') : c.ratio ≤ c'.ratio := by
  rw [BackpressureController.ratio, BackpressureController.ratio, h.config_eq]
  split
  · have hle : (c.inflight.toNat : K) ≤ (c'.inflight.toNat : K) :=
      Nat.cast_le.mpr (UInt64.le_iff_toNat_le.mp h.inflight)
    exact div_le_div_of_nonneg_right hle (Nat.cast_nonneg _)
  · exact le_rfl

/-- The watermarks are passed in the same order, whatever theirs is. -/
theorem throttles (h : Carries c c') (hthrottles : c.throttles = true) :
    c'.throttles = true := by
  have hratio := h.ratio
  rw [BackpressureController.throttles] at hthrottles ⊢
  rw [h.config_eq]
  by_cases hhigh' : c'.ratio ≥ c.config.high_watermark
  · rw [if_pos hhigh']
  · have hhigh : ¬ c.ratio ≥ c.config.high_watermark := fun hge ↦ hhigh' (hge.trans hratio)
    rw [if_neg hhigh] at hthrottles
    have hlow : ¬ c.ratio ≤ c.config.low_watermark := fun hle ↦ by
      rw [if_pos hle] at hthrottles
      cases hthrottles
    rw [if_neg hlow] at hthrottles
    rw [if_neg hhigh', if_neg fun hle ↦ hlow (hratio.trans hle)]
    exact h.throttling hthrottles

end Carries

variable {K : Type u} [Field K] [LinearOrder K] [IsStrictOrderedRing K]

/-- **More load is never treated more leniently.** -/
theorem evaluate_mono {c c' : BackpressureController K} (hconfig : c'.config = c.config)
    (hinflight : c.inflight ≤ c'.inflight) (hqueue : c.queue_len ≤ c'.queue_len)
    (hthrottling : c.throttling ≤ c'.throttling) :
    c.evaluate.1.severity ≤ c'.evaluate.1.severity := by
  have h : Carries c c' := ⟨hconfig, hinflight, hqueue, hthrottling⟩
  by_cases hrejects' : c'.Rejects
  · rw [evaluate_of_rejects hrejects']
    exact FlowAction.severity_le _
  · have hrejects : ¬ c.Rejects := fun hrejects ↦ hrejects' (h.rejects hrejects)
    rw [evaluate_of_not_rejects hrejects, evaluate_of_not_rejects hrejects']
    cases hthrottles : c.throttles with
    | false => exact Nat.zero_le _
    | true => rw [h.throttles hthrottles]

/-- Watermarks the wrong way around, with two and with nine requests of ten. -/
theorem evaluate_mono_rat :
    let config : BackpressureConfig ℚ := ⟨10, 1 / 5, 4 / 5, 50⟩
    let c : BackpressureController ℚ := ⟨config, 2, 0, false, 0, 0⟩
    let c' : BackpressureController ℚ := ⟨config, 9, 7, true, 3, 1⟩
    c.evaluate.1.severity ≤ c'.evaluate.1.severity := by
  intro config c c'
  exact evaluate_mono rfl (by decide) (by decide) (by decide)

end BackpressureController

end CloudGateway
