import Mathlib.Algebra.Notation.Defs
import Mathlib.Data.Nat.Cast.Defs
import Mathlib.Data.UInt
import Mathlib.Tactic.Common

/-!
# Backpressure

`BackpressureController` counts the requests that are being processed and says what to do
with the next one: let it pass (`allow`), slow it down (`throttle`), or refuse it (`reject`).

The counters are `u64`, so `on_request_start` wraps, as in a release build.  The watermarks
and the ratio compared with them are a parameter `F`, of which the definitions use the
operations only.
-/

universe u

namespace CloudGateway

variable {F : Type u}

/-- What to do with a request. -/
inductive FlowAction
  /-- Process as usual. -/
  | allow
  /-- Process, but slow down. -/
  | throttle
  /-- Do not accept a new request. -/
  | reject
deriving DecidableEq, Repr

/-- Backpressure configuration. -/
structure BackpressureConfig (F : Type u) where
  /-- Requests processed at the same time, at most. -/
  max_inflight : UInt64
  /-- Throttling begins here (in-flight requests over `max_inflight`). -/
  high_watermark : F
  /-- Throttling ends here. -/
  low_watermark : F
  /-- Length of the queue at which requests are rejected. -/
  max_queue_len : UInt64

/-- The backpressure controller. -/
structure BackpressureController (F : Type u) where
  config : BackpressureConfig F
  /-- Requests being processed. -/
  inflight : UInt64
  /-- Length of the queue. -/
  queue_len : UInt64
  /-- Whether requests are slowed down. -/
  throttling : Bool
  /-- Number of requests rejected. -/
  rejected_count : UInt64
  /-- Number of requests slowed down. -/
  throttled_count : UInt64

instance [NatCast F] [Div F] : Inhabited (BackpressureConfig F) where
  default :=
    { max_inflight := 10000
      high_watermark := ((8 : ℕ) : F) / ((10 : ℕ) : F)
      low_watermark := ((5 : ℕ) : F) / ((10 : ℕ) : F)
      max_queue_len := 50000 }

namespace BackpressureController

/-- Create a new controller. -/
def new (config : BackpressureConfig F) : BackpressureController F where
  config := config
  inflight := 0
  queue_len := 0
  throttling := false
  rejected_count := 0
  throttled_count := 0

/-- Create with the default configuration. -/
def withDefaults [NatCast F] [Div F] : BackpressureController F := new default

/-- Record the start of a request. -/
def onRequestStart (self : BackpressureController F) : BackpressureController F :=
  { self with inflight := self.inflight + 1 }

/-- Record the end of a request (`saturating_sub`). -/
def onRequestComplete (self : BackpressureController F) : BackpressureController F :=
  { self with inflight := if self.inflight = 0 then 0 else self.inflight - 1 }

/-- Set the length of the queue. -/
def updateQueueLen (self : BackpressureController F) (len : UInt64) : BackpressureController F :=
  { self with queue_len := len }

variable [NatCast F] [Div F] [Zero F]

/-- The in-flight requests over `max_inflight`. -/
def ratio (self : BackpressureController F) : F :=
  if self.config.max_inflight > 0 then
    (self.inflight.toNat : F) / (self.config.max_inflight.toNat : F)
  else 0

variable [LE F] [DecidableLE F]

/-- Decide what to do with a request. -/
def evaluate (self : BackpressureController F) : FlowAction × BackpressureController F :=
  -- The queue is too long.
  if self.queue_len ≥ self.config.max_queue_len then
    (.reject, { self with rejected_count := self.rejected_count + 1 })
  -- Too many requests are being processed.
  else if self.inflight ≥ self.config.max_inflight then
    (.reject, { self with rejected_count := self.rejected_count + 1 })
  else
    -- Hysteresis: throttling begins at the high watermark and ends at the low one.
    let self :=
      if self.ratio ≥ self.config.high_watermark then { self with throttling := true }
      else if self.ratio ≤ self.config.low_watermark then { self with throttling := false }
      else self
    if self.throttling then
      (.throttle, { self with throttled_count := self.throttled_count + 1 })
    else (.allow, self)

/-! ## What an evaluation does -/

/-- Whether an evaluation rejects. -/
def Rejects (self : BackpressureController F) : Prop :=
  self.config.max_queue_len ≤ self.queue_len ∨ self.config.max_inflight ≤ self.inflight

omit [NatCast F] [Div F] [Zero F] [LE F] [DecidableLE F] in
instance (self : BackpressureController F) : Decidable self.Rejects := by
  unfold Rejects
  infer_instance

/-- Whether requests are slowed down after an evaluation that does not reject. -/
def throttles (self : BackpressureController F) : Bool :=
  if self.ratio ≥ self.config.high_watermark then true
  else if self.ratio ≤ self.config.low_watermark then false
  else self.throttling

theorem evaluate_of_rejects {self : BackpressureController F} (h : self.Rejects) :
    self.evaluate = (.reject, { self with rejected_count := self.rejected_count + 1 }) := by
  rw [evaluate]
  by_cases hqueue : self.queue_len ≥ self.config.max_queue_len
  · rw [if_pos hqueue]
  · rw [if_neg hqueue, if_pos (h.resolve_left hqueue)]

theorem evaluate_of_not_rejects {self : BackpressureController F} (h : ¬ self.Rejects) :
    self.evaluate =
      (if self.throttles then .throttle else .allow,
        { self with
          throttling := self.throttles
          throttled_count := self.throttled_count + if self.throttles then 1 else 0 }) := by
  obtain ⟨hqueue, hinflight⟩ := not_or.mp h
  rw [evaluate, if_neg hqueue, if_neg hinflight, throttles]
  by_cases hhigh : self.ratio ≥ self.config.high_watermark
  · simp only [if_pos hhigh, if_true]
  · by_cases hlow : self.ratio ≤ self.config.low_watermark
    · simp only [if_neg hhigh, if_pos hlow, Bool.false_eq_true, if_false, UInt64.add_zero]
    · simp only [if_neg hhigh, if_neg hlow]
      cases hflag : self.throttling with
      | true => simp only [if_true]
      | false =>
          simp only [Bool.false_eq_true, if_false, UInt64.add_zero]
          rw [← hflag]

/-- An evaluation changes the flag and the statistics only. -/
theorem evaluate_snd (self : BackpressureController F) :
    self.evaluate.2.config = self.config ∧ self.evaluate.2.inflight = self.inflight ∧
      self.evaluate.2.queue_len = self.queue_len := by
  by_cases h : self.Rejects
  · rw [evaluate_of_rejects h]
    exact ⟨rfl, rfl, rfl⟩
  · rw [evaluate_of_not_rejects h]
    exact ⟨rfl, rfl, rfl⟩

theorem evaluate_eq_reject_iff (self : BackpressureController F) :
    self.evaluate.1 = .reject ↔ self.Rejects := by
  constructor
  · intro h
    by_contra hrejects
    rw [evaluate_of_not_rejects hrejects] at h
    cases hthrottles : self.throttles <;> simp [hthrottles] at h
  · exact fun h ↦ congrArg Prod.fst (evaluate_of_rejects h)

/-! ## Calls -/

/-- A call of a controller. -/
inductive Op
  | evaluate
  | onRequestStart
  | onRequestComplete
  | updateQueueLen (len : UInt64)

/-- A call, made. -/
def apply (self : BackpressureController F) : Op → BackpressureController F
  | .evaluate => self.evaluate.2
  | .onRequestStart => self.onRequestStart
  | .onRequestComplete => self.onRequestComplete
  | .updateQueueLen len => self.updateQueueLen len

/-- The controller after some calls. -/
def run (self : BackpressureController F) (ops : List Op) : BackpressureController F :=
  ops.foldl apply self

theorem run_append (self : BackpressureController F) (ops : List Op) (op : Op) :
    self.run (ops ++ [op]) = (self.run ops).apply op := by
  rw [run, List.foldl_append]
  rfl

/-- No call changes the configuration. -/
theorem config_apply (self : BackpressureController F) (op : Op) :
    (self.apply op).config = self.config := by
  cases op with
  | evaluate => exact (evaluate_snd self).1
  | _ => rfl

theorem config_run (self : BackpressureController F) (ops : List Op) :
    (self.run ops).config = self.config := by
  induction ops generalizing self with
  | nil => rfl
  | cons op ops ih => exact (ih (self.apply op)).trans (config_apply self op)

end BackpressureController

end CloudGateway
