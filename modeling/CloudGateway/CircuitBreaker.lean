import Mathlib.Logic.Basic
import Mathlib.Order.Defs.LinearOrder
import Mathlib.Data.Nat.Cast.Defs

/-!
# The circuit breaker

`CircuitBreaker` stops calling a downstream service that keeps failing (`open_`), lets a
few requests through after a while (`halfOpen`), and goes back to normal when they succeed
(`closed`).

What a call can do to a breaker is said once, in `Turns`: one constructor for each branch of
the code.  The `f64` times are a parameter `F`, of which the definitions use the operations
only.
-/

universe u

namespace CloudGateway

variable {F : Type u}

/-- The state of the circuit. -/
inductive CircuitState
  /-- Normal operation. -/
  | closed
  /-- A failure was detected: requests are refused at once. -/
  | open_
  /-- On trial: a few requests pass, to see whether the service has recovered. -/
  | halfOpen
deriving DecidableEq, Repr

/-- Circuit breaker configuration. -/
structure CircuitBreakerConfig (F : Type u) where
  /-- Consecutive failures that open the circuit. -/
  failure_threshold : UInt32
  /-- Seconds to wait before the circuit is half open. -/
  recovery_timeout_s : F
  /-- Requests allowed while the circuit is half open. -/
  half_open_max_requests : UInt32
deriving DecidableEq

/-- The circuit breaker. -/
@[ext]
structure CircuitBreaker (F : Type u) where
  config : CircuitBreakerConfig F
  state : CircuitState
  /-- Consecutive failures so far. -/
  consecutive_failures : UInt32
  /-- The time at which the circuit opened, in seconds. -/
  opened_at : F
  /-- Requests while half open. -/
  half_open_requests : UInt32
  /-- Successes while half open. -/
  half_open_successes : UInt32
  /-- Number of state transitions. -/
  transition_count : UInt64
deriving DecidableEq

instance [NatCast F] : Inhabited (CircuitBreakerConfig F) where
  default := ⟨5, ((30 : ℕ) : F), 3⟩

namespace CircuitBreaker

/-- Create a new breaker. -/
def new [Zero F] (config : CircuitBreakerConfig F) : CircuitBreaker F where
  config := config
  state := .closed
  consecutive_failures := 0
  opened_at := 0
  half_open_requests := 0
  half_open_successes := 0
  transition_count := 0

/-- Create with the default configuration. -/
def withDefaults [Zero F] [NatCast F] : CircuitBreaker F := new default

/-- A state transition. -/
def transitionTo (self : CircuitBreaker F) (new_state : CircuitState) : CircuitBreaker F :=
  if self.state ≠ new_state then
    { self with state := new_state, transition_count := self.transition_count + 1 }
  else self

/-- Record a success. -/
def recordSuccess (self : CircuitBreaker F) : CircuitBreaker F :=
  match self.state with
  | .closed => { self with consecutive_failures := 0 }
  | .halfOpen =>
      let self := { self with half_open_successes := self.half_open_successes + 1 }
      -- All trials have succeeded.
      if self.half_open_successes ≥ self.config.half_open_max_requests then
        { self.transitionTo .closed with consecutive_failures := 0 }
      else self
  | .open_ => self

/-- Record a failure. -/
def recordFailure (self : CircuitBreaker F) (now : F) : CircuitBreaker F :=
  match self.state with
  | .closed =>
      let self := { self with consecutive_failures := self.consecutive_failures + 1 }
      if self.consecutive_failures ≥ self.config.failure_threshold then
        { self.transitionTo .open_ with opened_at := now }
      else self
  | .halfOpen => { self.transitionTo .open_ with opened_at := now }
  | .open_ => self

/-- Reset by hand, to the closed state. -/
def reset (self : CircuitBreaker F) : CircuitBreaker F :=
  { self.transitionTo .closed with
    consecutive_failures := 0
    half_open_requests := 0
    half_open_successes := 0 }

@[simp] theorem config_transitionTo (self : CircuitBreaker F) (new_state : CircuitState) :
    (self.transitionTo new_state).config = self.config := by
  rw [transitionTo]
  split <;> rfl

@[simp] theorem state_transitionTo (self : CircuitBreaker F) (new_state : CircuitState) :
    (self.transitionTo new_state).state = new_state := by
  rw [transitionTo]
  split
  · rfl
  · rename_i h
    exact not_not.mp h

/-- A reset closes the circuit. -/
theorem state_reset (self : CircuitBreaker F) : self.reset.state = .closed :=
  state_transitionTo self .closed

variable [Sub F] [LE F] [DecidableLE F]

/-- Whether a request is allowed at the time `now`. -/
def allowRequest (self : CircuitBreaker F) (now : F) : Bool × CircuitBreaker F :=
  match self.state with
  | .closed => (true, self)
  | .open_ =>
      if now - self.opened_at ≥ self.config.recovery_timeout_s then
        (true, { self.transitionTo .halfOpen with
          half_open_requests := 1
          half_open_successes := 0 })
      else (false, self)
  | .halfOpen =>
      if self.half_open_requests < self.config.half_open_max_requests then
        (true, { self with half_open_requests := self.half_open_requests + 1 })
      else (false, self)

/-! ## Calls -/

/-- A call of a breaker. -/
inductive Call (F : Type u)
  | allowRequest (now : F)
  | recordSuccess
  | recordFailure (now : F)
  | reset

/-- A call, made. -/
def apply (self : CircuitBreaker F) : Call F → CircuitBreaker F
  | .allowRequest now => (self.allowRequest now).2
  | .recordSuccess => self.recordSuccess
  | .recordFailure now => self.recordFailure now
  | .reset => self.reset

/-- The call is an `allow_request` that returns true. -/
def admits (self : CircuitBreaker F) : Call F → Bool
  | .allowRequest now => (self.allowRequest now).1
  | _ => false

/-- What a call can do to a breaker, and whether it admits a request. -/
inductive Turns (cb : CircuitBreaker F) : Call F → Bool → CircuitBreaker F → Prop
  | pass {now : F} (h : cb.state = .closed) : Turns cb (.allowRequest now) true cb
  | recover {now : F} (h : cb.state = .open_)
      (ht : cb.config.recovery_timeout_s ≤ now - cb.opened_at) :
      Turns cb (.allowRequest now) true
        { cb with
          state := .halfOpen
          half_open_requests := 1
          half_open_successes := 0
          transition_count := cb.transition_count + 1 }
  | refuse {now : F} (h : cb.state = .open_)
      (ht : ¬ cb.config.recovery_timeout_s ≤ now - cb.opened_at) :
      Turns cb (.allowRequest now) false cb
  | trial {now : F} (h : cb.state = .halfOpen)
      (hlt : cb.half_open_requests < cb.config.half_open_max_requests) :
      Turns cb (.allowRequest now) true
        { cb with half_open_requests := cb.half_open_requests + 1 }
  | exhausted {now : F} (h : cb.state = .halfOpen)
      (hlt : ¬ cb.half_open_requests < cb.config.half_open_max_requests) :
      Turns cb (.allowRequest now) false cb
  | succeeds (h : cb.state = .closed) :
      Turns cb .recordSuccess false { cb with consecutive_failures := 0 }
  | succeedsLate (h : cb.state = .open_) : Turns cb .recordSuccess false cb
  | counts (h : cb.state = .halfOpen)
      (hlt : ¬ cb.config.half_open_max_requests ≤ cb.half_open_successes + 1) :
      Turns cb .recordSuccess false
        { cb with half_open_successes := cb.half_open_successes + 1 }
  | closes (h : cb.state = .halfOpen)
      (hle : cb.config.half_open_max_requests ≤ cb.half_open_successes + 1) :
      Turns cb .recordSuccess false
        { cb with
          state := .closed
          consecutive_failures := 0
          half_open_successes := cb.half_open_successes + 1
          transition_count := cb.transition_count + 1 }
  | fails {now : F} (h : cb.state = .closed)
      (hlt : ¬ cb.config.failure_threshold ≤ cb.consecutive_failures + 1) :
      Turns cb (.recordFailure now) false
        { cb with consecutive_failures := cb.consecutive_failures + 1 }
  | trips {now : F} (h : cb.state = .closed)
      (hle : cb.config.failure_threshold ≤ cb.consecutive_failures + 1) :
      Turns cb (.recordFailure now) false
        { cb with
          state := .open_
          consecutive_failures := cb.consecutive_failures + 1
          opened_at := now
          transition_count := cb.transition_count + 1 }
  | reopens {now : F} (h : cb.state = .halfOpen) :
      Turns cb (.recordFailure now) false
        { cb with
          state := .open_
          opened_at := now
          transition_count := cb.transition_count + 1 }
  | failsLate {now : F} (h : cb.state = .open_) : Turns cb (.recordFailure now) false cb
  | resets : Turns cb .reset false cb.reset

/-- A call does one of the things listed. -/
theorem turns (cb : CircuitBreaker F) (call : Call F) :
    Turns cb call (cb.admits call) (cb.apply call) := by
  obtain ⟨config, state, failures, opened_at, requests, successes, transitions⟩ := cb
  cases call with
  | allowRequest now =>
      cases state with
      | closed => exact .pass rfl
      | open_ =>
          by_cases ht : config.recovery_timeout_s ≤ now - opened_at
          · simp only [admits, apply, allowRequest, ge_iff_le, if_pos ht]
            exact .recover rfl ht
          · simp only [admits, apply, allowRequest, ge_iff_le, if_neg ht]
            exact .refuse rfl ht
      | halfOpen =>
          by_cases hlt : requests < config.half_open_max_requests
          · simp only [admits, apply, allowRequest, if_pos hlt]
            exact .trial rfl hlt
          · simp only [admits, apply, allowRequest, if_neg hlt]
            exact .exhausted rfl hlt
  | recordSuccess =>
      cases state with
      | closed => exact .succeeds rfl
      | open_ => exact .succeedsLate rfl
      | halfOpen =>
          by_cases hle : config.half_open_max_requests ≤ successes + 1
          · simp only [admits, apply, recordSuccess, ge_iff_le, if_pos hle]
            exact .closes rfl hle
          · simp only [admits, apply, recordSuccess, ge_iff_le, if_neg hle]
            exact .counts rfl hle
  | recordFailure now =>
      cases state with
      | closed =>
          by_cases hle : config.failure_threshold ≤ failures + 1
          · simp only [admits, apply, recordFailure, ge_iff_le, if_pos hle]
            exact .trips rfl hle
          · simp only [admits, apply, recordFailure, ge_iff_le, if_neg hle]
            exact .fails rfl hle
      | open_ => exact .failsLate rfl
      | halfOpen => exact .reopens rfl
  | reset => exact .resets

omit [DecidableLE F] in
/-- No call changes the configuration. -/
theorem Turns.config {cb cb' : CircuitBreaker F} {call : Call F} {admitted : Bool}
    (h : Turns cb call admitted cb') : cb'.config = cb.config := by
  cases h with
  | resets => exact config_transitionTo cb .closed
  | _ => rfl

omit [DecidableLE F] in
/-- Apart from a reset, only a success closes a half-open circuit, and only when there are
enough of them. -/
theorem Turns.closes_of_halfOpen {cb cb' : CircuitBreaker F} {call : Call F} {admitted : Bool}
    (h : Turns cb call admitted cb') (hreset : call ≠ .reset) (hhalf : cb.state = .halfOpen)
    (hclosed : cb'.state = .closed) :
    call = .recordSuccess ∧ cb.config.half_open_max_requests ≤ cb.half_open_successes + 1 := by
  cases h with
  | closes _ hle => exact ⟨rfl, hle⟩
  | recover | trips | reopens => cases hclosed
  | trial h | exhausted h | counts h => cases h.symm.trans hclosed
  | pass h | refuse h | succeeds h | succeedsLate h | fails h | failsLate h =>
      cases h.symm.trans hhalf
  | resets => exact absurd rfl hreset

end CircuitBreaker

end CloudGateway
