import Mathlib.Data.Rat.Defs
import Mathlib.Algebra.Order.Ring.Rat
import Mathlib.Tactic.NormNum
import CloudGateway.Backpressure
import CloudGateway.Library.Unwinding

/-!
# Hysteresis

Throttling is to begin when an evaluation sees the load at the high watermark or above, and
to last until one sees it at the low watermark or below.  An evaluation that rejects returns
before it looks at the watermarks, so what counts is the last evaluation at a watermark that
did not reject.  The controller is right if and only if the last evaluation at a watermark is
on the same side as that one (`throttles_iff_sawHigh_iff`).
-/

universe u

namespace CloudGateway

namespace BackpressureController

open Unwinding

variable {F : Type u}

/-- An evaluation: the load it saw, and whether it rejected. -/
structure Evaluation (F : Type u) where
  ratio : F
  rejected : Bool
deriving DecidableEq

/-- The load is at the high watermark or above, or at the low watermark or below. -/
def AtWatermark [LE F] (config : BackpressureConfig F) (ratio : F) : Prop :=
  config.high_watermark ≤ ratio ∨ ratio ≤ config.low_watermark

instance [LE F] [DecidableLE F] (config : BackpressureConfig F) (ratio : F) :
    Decidable (AtWatermark config ratio) := by
  unfold AtWatermark
  infer_instance

variable [NatCast F] [Div F] [Zero F]

/-- What an evaluation sees. -/
def sees (self : BackpressureController F) : Evaluation F :=
  ⟨self.ratio, decide self.Rejects⟩

/-- The evaluation of a call, if it is one. -/
def evaluation (self : BackpressureController F) : Op → Option (Evaluation F)
  | .evaluate => some self.sees
  | _ => none

variable [LE F] [DecidableLE F]

/-- The evaluations of a new controller. -/
def evaluations (config : BackpressureConfig F) (ops : List Op) : List (Evaluation F) :=
  outputs apply evaluation (new config) ops

/-- The evaluations at a watermark. -/
def atWatermark (config : BackpressureConfig F) (ops : List Op) : List (Evaluation F) :=
  (evaluations config ops).filter fun e ↦ AtWatermark config e.ratio

/-- The most recent evaluation at a watermark. -/
def lastAtWatermark (config : BackpressureConfig F) (ops : List Op) : Option (Evaluation F) :=
  (atWatermark config ops).getLast?

/-- The most recent evaluation at a watermark that did not reject. -/
def lastServed (config : BackpressureConfig F) (ops : List Op) : Option (Evaluation F) :=
  ((atWatermark config ops).filter fun e ↦ !e.rejected).getLast?

theorem evaluations_append (config : BackpressureConfig F) (ops : List Op) (op : Op) :
    evaluations config (ops ++ [op])
      = evaluations config ops ++ (((new config).run ops).evaluation op).toList := by
  rw [evaluations, outputs_append]
  exact congrArg (_ ++ ·) (List.append_nil _)

theorem atWatermark_evaluate (config : BackpressureConfig F) (ops : List Op) :
    atWatermark config (ops ++ [.evaluate]) = atWatermark config ops ++
      if AtWatermark config ((new config).run ops).ratio then [((new config).run ops).sees]
      else [] := by
  rw [atWatermark, evaluations_append, List.filter_append]
  show _ ++ [((new config).run ops).sees].filter _ = _
  rw [List.filter_cons, List.filter_nil]
  exact congrArg (_ ++ ·) (if_congr decide_eq_true_iff rfl rfl)

theorem atWatermark_of_not_evaluate (config : BackpressureConfig F) (ops : List Op) {op : Op}
    (h : op ≠ .evaluate) : atWatermark config (ops ++ [op]) = atWatermark config ops := by
  have hnone : ((new config).run ops).evaluation op = none := by
    cases op with
    | evaluate => exact absurd rfl h
    | _ => rfl
  rw [atWatermark, evaluations_append, hnone, Option.toList_none, List.append_nil]
  rfl

/-- An evaluation that does not reject is the last of those, if it is at a watermark. -/
theorem lastServed_evaluate (config : BackpressureConfig F) (ops : List Op) :
    lastServed config (ops ++ [.evaluate]) =
      if AtWatermark config ((new config).run ops).ratio ∧ ¬ ((new config).run ops).Rejects then
        some ((new config).run ops).sees
      else lastServed config ops := by
  rw [lastServed, atWatermark_evaluate, List.filter_append]
  by_cases hat : AtWatermark config ((new config).run ops).ratio
  · by_cases hrejects : ((new config).run ops).Rejects
    · rw [if_pos hat, if_neg (fun h ↦ h.2 hrejects)]
      simp [sees, hrejects, lastServed]
    · rw [if_pos hat, if_pos ⟨hat, hrejects⟩]
      simp [sees, hrejects]
  · rw [if_neg hat, if_neg (fun h ↦ hat h.1), List.filter_nil, List.append_nil]
    rfl

/-- The last evaluation at a watermark is the last that did not reject, unless it did. -/
theorem lastServed_of_not_rejected {config : BackpressureConfig F} {ops : List Op}
    {e : Evaluation F} (h : lastAtWatermark config ops = some e) (hserved : e.rejected = false) :
    lastServed config ops = some e := by
  obtain ⟨es, hes⟩ := List.getLast?_eq_some_iff.mp h
  rw [lastServed, hes, List.filter_append, List.filter_cons, List.filter_nil, hserved]
  exact List.getLast?_concat

theorem lastServed_of_none {config : BackpressureConfig F} {ops : List Op}
    (h : lastAtWatermark config ops = none) : lastServed config ops = none := by
  rw [lastServed, List.getLast?_eq_none_iff.mp h]
  rfl

/-! ## The flag -/

/-- Only at a watermark, and without rejecting, does an evaluation touch the flag. -/
theorem throttling_evaluate (self : BackpressureController F) :
    (self.apply .evaluate).throttling =
      if AtWatermark self.config self.ratio ∧ ¬ self.Rejects then
        decide (self.config.high_watermark ≤ self.ratio)
      else self.throttling := by
  by_cases hrejects : self.Rejects
  · rw [apply, evaluate_of_rejects hrejects, if_neg fun h ↦ h.2 hrejects]
  · rw [apply, evaluate_of_not_rejects hrejects]
    show self.throttles = _
    rw [throttles]
    by_cases hhigh : self.config.high_watermark ≤ self.ratio
    · rw [if_pos hhigh, if_pos ⟨.inl hhigh, hrejects⟩, decide_eq_true hhigh]
    · rw [if_neg hhigh, decide_eq_false hhigh]
      refine if_congr ?_ rfl rfl
      exact ⟨fun hlow ↦ ⟨.inr hlow, hrejects⟩, fun h ↦ h.1.resolve_left hhigh⟩

/-- The load was at the high watermark or above at the last evaluation at a watermark. -/
def SawHigh (config : BackpressureConfig F) (ops : List Op) : Prop :=
  ∃ e, lastAtWatermark config ops = some e ∧ config.high_watermark ≤ e.ratio

/-- The load was at the high watermark or above at the last evaluation at a watermark that did
not reject. -/
def ServedHigh (config : BackpressureConfig F) (ops : List Op) : Prop :=
  ∃ e, lastServed config ops = some e ∧ config.high_watermark ≤ e.ratio

/-- The flag is what the last evaluation at a watermark that did not reject has left. -/
theorem throttling_run (config : BackpressureConfig F) (ops : List Op) :
    ((new config).run ops).throttling = true ↔ ServedHigh config ops := by
  induction ops using List.reverseRecOn with
  | nil =>
      constructor
      · intro h
        cases h
      · rintro ⟨e, he, -⟩
        cases he
  | append_singleton ops op ih =>
      have hconfig : ((new config).run ops).config = config := config_run (new config) ops
      rw [run_append]
      by_cases h : op = .evaluate
      · subst h
        rw [throttling_evaluate, ServedHigh, lastServed_evaluate, hconfig]
        split
        · rw [decide_eq_true_iff]
          constructor
          · exact fun hhigh ↦ ⟨_, rfl, hhigh⟩
          · rintro ⟨e, he, hhigh⟩
            obtain rfl := Option.some.inj he
            exact hhigh
        · exact ih
      · rw [ServedHigh, lastServed, atWatermark_of_not_evaluate config ops h]
        refine Iff.trans (Eq.to_iff ?_) ih
        cases op with
        | evaluate => exact absurd rfl h
        | _ => rfl

/-- **When hysteresis holds.**  An evaluation that does not reject throttles as it should, if
and only if the last evaluation at a watermark, this one included, did not reject or is on the
same side as the last of those that did not. -/
theorem throttles_iff_sawHigh_iff (config : BackpressureConfig F) (ops : List Op)
    (hserved : ((new config).run ops).evaluate.1 ≠ .reject) :
    (((new config).run ops).evaluate.1 = .throttle ↔ SawHigh config (ops ++ [.evaluate])) ↔
      ∀ e, lastAtWatermark config (ops ++ [.evaluate]) = some e → e.rejected = true →
        (ServedHigh config (ops ++ [.evaluate]) ↔ config.high_watermark ≤ e.ratio) := by
  have hrejects : ¬ ((new config).run ops).Rejects := mt (evaluate_eq_reject_iff _).mpr hserved
  -- The action is what the flag says, and the flag is what the last served evaluation has left.
  have haction : ((new config).run ops).evaluate.1 = .throttle ↔
      ServedHigh config (ops ++ [.evaluate]) := by
    rw [← throttling_run, run_append, apply, evaluate_of_not_rejects hrejects]
    show (if _ then _ else _) = _ ↔ ((new config).run ops).throttles = true
    cases ((new config).run ops).throttles <;> decide
  rw [haction, SawHigh]
  cases hlast : lastAtWatermark config (ops ++ [.evaluate]) with
  | none =>
      have hnone : ¬ ServedHigh config (ops ++ [.evaluate]) := by
        rintro ⟨e, he, -⟩
        rw [lastServed_of_none hlast] at he
        cases he
      simp [hnone]
  | some e =>
      cases hrejected : e.rejected with
      | true => simp [hrejected]
      | false =>
          have hown : ServedHigh config (ops ++ [.evaluate]) ↔ config.high_watermark ≤ e.ratio := by
            simp [ServedHigh, lastServed_of_not_rejected hlast hrejected]
          simp [hrejected, hown]

/-- Eight requests of ten, a rejection in between for a long queue, then six: throttling begins
and lasts. -/
theorem throttles_iff_sawHigh_iff_rat :
    let config : BackpressureConfig ℚ := ⟨10, 4 / 5, 1 / 2, 50⟩
    let ops : List Op := List.replicate 8 .onRequestStart ++
      [.evaluate, .updateQueueLen 50, .evaluate, .updateQueueLen 0] ++
      List.replicate 2 .onRequestComplete
    lastAtWatermark config (ops ++ [.evaluate]) = some ⟨4 / 5, true⟩ ∧
      (((new config).run ops).evaluate.1 = .throttle ↔ SawHigh config (ops ++ [.evaluate])) := by
  intro config ops
  have hlast : lastAtWatermark config (ops ++ [.evaluate]) = some ⟨4 / 5, true⟩ := by
    decide +kernel
  have hside : lastServed config (ops ++ [.evaluate]) = some ⟨4 / 5, false⟩ := by
    decide +kernel
  refine ⟨hlast, (throttles_iff_sawHigh_iff config ops (by decide +kernel)).mpr ?_⟩
  intro e he _
  obtain rfl := Option.some.inj (hlast.symm.trans he)
  exact ⟨fun _ ↦ le_refl _, fun _ ↦ ⟨_, hside, le_refl _⟩⟩

/-- A full controller rejects, and three requests later nothing is slowed down, although the
load has not been at the low watermark since. -/
theorem allows_after_sawHigh :
    ∃ (config : BackpressureConfig ℚ) (ops : List Op),
      0 ≤ config.low_watermark ∧ config.low_watermark < config.high_watermark ∧
      config.high_watermark ≤ 1 ∧ 0 < config.max_inflight ∧
      ((new config).run ops).evaluate.1 ≠ .reject ∧
      ¬ (((new config).run ops).evaluate.1 = .throttle ↔ SawHigh config (ops ++ [.evaluate])) := by
  refine ⟨⟨10, 4 / 5, 1 / 2, 50⟩,
    List.replicate 10 .onRequestStart ++ [.evaluate] ++ List.replicate 3 .onRequestComplete,
    by norm_num, by norm_num, by norm_num, by decide, by decide +kernel, fun h ↦ ?_⟩
  have hsaw : SawHigh (⟨10, 4 / 5, 1 / 2, 50⟩ : BackpressureConfig ℚ)
      (List.replicate 10 .onRequestStart ++ [.evaluate] ++ List.replicate 3 .onRequestComplete
        ++ [.evaluate]) :=
    ⟨⟨1, true⟩, by decide +kernel, by norm_num⟩
  exact absurd (h.mpr hsaw) (by decide +kernel)

end BackpressureController

end CloudGateway
