import CloudGateway.Breaker.Outage

/-!
# The counters of a circuit breaker

Each of the `u32` counters of a breaker is set back by some of the calls only: a circuit that
opens again keeps its failures, and one that closes keeps its trials.  What holds of them in
each state is the `Invariant`, which every call keeps (`Turns.invariant`).  So none of them
wraps, whatever the limits are and however many reports come without a request
(`invariant_run`).

The state changes in five ways only, and each change is counted (`Turns.changes`).
-/

universe u

namespace CloudGateway

namespace CircuitBreaker

variable {F : Type u}

/-- What holds of the counters.  A limit of zero acts as a limit of one. -/
structure Invariant (cb : CircuitBreaker F) : Prop where
  failures_le :
    cb.consecutive_failures.toNat ≤ max 1 cb.config.failure_threshold.toNat
  failures_lt (h : cb.state = .closed) :
    cb.consecutive_failures.toNat < max 1 cb.config.failure_threshold.toNat
  requests_pos (h : cb.state = .halfOpen) : 1 ≤ cb.half_open_requests.toNat
  requests_le (h : cb.state = .halfOpen) :
    cb.half_open_requests.toNat ≤ max 1 cb.config.half_open_max_requests.toNat
  successes_lt (h : cb.state = .halfOpen) :
    cb.half_open_successes.toNat < max 1 cb.config.half_open_max_requests.toNat

/-- The call adds one to a `u32` counter that has this value. -/
inductive Increments (cb : CircuitBreaker F) : Call F → UInt32 → Prop
  | failure {now : F} (h : cb.state = .closed) :
      Increments cb (.recordFailure now) cb.consecutive_failures
  | success (h : cb.state = .halfOpen) : Increments cb .recordSuccess cb.half_open_successes
  | request {now : F} (h : cb.state = .halfOpen)
      (hlt : cb.half_open_requests < cb.config.half_open_max_requests) :
      Increments cb (.allowRequest now) cb.half_open_requests

/-- The ways a circuit changes its state, each with the call that does it. -/
inductive Changes : CircuitState → Call F → CircuitState → Prop
  | trips {now : F} : Changes .closed (.recordFailure now) .open_
  | recovers {now : F} : Changes .open_ (.allowRequest now) .halfOpen
  | reopens {now : F} : Changes .halfOpen (.recordFailure now) .open_
  | closes : Changes .halfOpen .recordSuccess .closed
  | resets {state : CircuitState} (h : state ≠ .closed) : Changes state .reset .closed

/-! ## The invariant -/

/-- A new circuit is closed, with no failures. -/
theorem invariant_new [Zero F] (config : CircuitBreakerConfig F) : Invariant (new config) where
  failures_le := Nat.zero_le _
  failures_lt _ := lt_max_of_lt_left Nat.one_pos
  requests_pos := nofun
  requests_le := nofun
  successes_lt := nofun

/-- So is one that has been reset. -/
theorem invariant_reset (cb : CircuitBreaker F) : Invariant cb.reset where
  failures_le := Nat.zero_le _
  failures_lt _ := lt_max_of_lt_left Nat.one_pos
  requests_pos h := nomatch cb.state_reset.symm.trans h
  requests_le h := nomatch cb.state_reset.symm.trans h
  successes_lt h := nomatch cb.state_reset.symm.trans h

/-- No counter wraps when it is incremented. -/
theorem Invariant.no_overflow {cb : CircuitBreaker F} (h : Invariant cb) {call : Call F}
    {counter : UInt32} (hinc : Increments cb call counter) : counter.toNat + 1 < 2 ^ 32 := by
  cases hinc with
  | failure hclosed => exact add_one_lt_of_lt_max (h.failures_lt hclosed)
  | success hhalf => exact add_one_lt_of_lt_max (h.successes_lt hhalf)
  | request _ hlt =>
      exact add_one_lt_of_lt_max (lt_max_of_lt_right (UInt32.lt_iff_toNat_lt.mp hlt))

variable [Sub F] [LE F]

/-- **Every call keeps the invariant.** -/
theorem Turns.invariant {cb cb' : CircuitBreaker F} {call : Call F} {admitted : Bool}
    (hturns : Turns cb call admitted cb') (h : Invariant cb) : Invariant cb' := by
  have hone (n : ℕ) : 0 < max 1 n := lt_max_of_lt_left Nat.one_pos
  cases hturns with
  | pass | refuse | exhausted | succeedsLate | failsLate => exact h
  | recover => exact ⟨h.failures_le, nofun, fun _ ↦ le_rfl, fun _ ↦ le_max_left 1 _, fun _ ↦ hone _⟩
  | trial _ hlt =>
      rw [UInt32.lt_iff_toNat_lt] at hlt
      have hadd := toNat_add_one hlt
      refine ⟨h.failures_le, h.failures_lt, fun _ ↦ ?_, fun _ ↦ ?_, h.successes_lt⟩
      · exact hadd ▸ Nat.le_add_left 1 _
      · exact hadd ▸ le_max_of_le_right hlt
  | succeeds =>
      exact ⟨Nat.zero_le _, fun _ ↦ hone _, h.requests_pos, h.requests_le, h.successes_lt⟩
  | counts _ hlt =>
      rw [UInt32.le_iff_toNat_le, not_le] at hlt
      refine ⟨h.failures_le, h.failures_lt, h.requests_pos, h.requests_le, fun _ ↦ ?_⟩
      exact lt_max_of_lt_right hlt
  | closes => exact ⟨Nat.zero_le _, fun _ ↦ hone _, nofun, nofun, nofun⟩
  | fails _ hlt =>
      rw [UInt32.le_iff_toNat_le, not_le] at hlt
      have hless := lt_max_of_lt_right (b := 1) hlt
      exact ⟨hless.le, fun _ ↦ hless, h.requests_pos, h.requests_le, h.successes_lt⟩
  | trips hclosed =>
      have hadd := toNat_add_one_of_lt_max (h.failures_lt hclosed)
      exact ⟨hadd ▸ h.failures_lt hclosed, nofun, nofun, nofun, nofun⟩
  | reopens => exact ⟨h.failures_le, nofun, nofun, nofun, nofun⟩
  | resets => exact invariant_reset cb

/-! ## State changes -/

omit [Sub F] [LE F] in
theorem Changes.ne {state state' : CircuitState} {call : Call F} (h : Changes state call state') :
    state' ≠ state := by
  cases h with
  | resets h => exact h.symm
  | _ => decide

/-- Either a call leaves the state alone, or it is one of the changes and is counted. -/
theorem Turns.changes {cb cb' : CircuitBreaker F} {call : Call F} {admitted : Bool}
    (hturns : Turns cb call admitted cb') :
    (cb'.state = cb.state ∧ cb'.transition_count = cb.transition_count) ∨
      (Changes cb.state call cb'.state ∧ cb'.transition_count = cb.transition_count + 1) := by
  cases hturns with
  | pass | refuse | trial | exhausted | succeeds | succeedsLate | counts | fails | failsLate =>
      exact .inl ⟨rfl, rfl⟩
  | recover hopen => exact .inr ⟨hopen ▸ .recovers, rfl⟩
  | closes hhalf => exact .inr ⟨hhalf ▸ .closes, rfl⟩
  | trips hclosed => exact .inr ⟨hclosed ▸ .trips, rfl⟩
  | reopens hhalf => exact .inr ⟨hhalf ▸ .reopens, rfl⟩
  | resets =>
      rw [state_reset]
      by_cases hclosed : cb.state = .closed
      · left
        refine ⟨hclosed.symm, ?_⟩
        rw [reset, transitionTo, if_neg (not_not.mpr hclosed)]
      · right
        refine ⟨.resets hclosed, ?_⟩
        rw [reset, transitionTo, if_pos hclosed]

variable [DecidableLE F]

/-- How often some calls change the state. -/
def transitions (self : CircuitBreaker F) : List (Call F) → ℕ
  | [] => 0
  | call :: calls =>
      (if (self.apply call).state = self.state then 0 else 1)
        + (self.apply call).transitions calls

theorem transition_count_run (self : CircuitBreaker F) (calls : List (Call F)) :
    (self.run calls).transition_count
      = self.transition_count + UInt64.ofNat (self.transitions calls) := by
  induction calls generalizing self with
  | nil => exact (UInt64.add_zero _).symm
  | cons call calls ih =>
      rw [run, List.foldl_cons, ← run, ih, transitions, UInt64.ofNat_add, ← UInt64.add_assoc]
      rcases (turns self call).changes with ⟨hstate, hcount⟩ | ⟨hchange, hcount⟩
      · rw [if_pos hstate, hcount]
        exact congrArg (· + _) (UInt64.add_zero _).symm
      · rw [if_neg hchange.ne, hcount]
        rfl

/-! ## Runs -/

/-- The invariant holds after any calls, if it holds before them. -/
theorem Invariant.run {cb : CircuitBreaker F} (h : Invariant cb) (calls : List (Call F)) :
    Invariant (cb.run calls) := by
  induction calls generalizing cb with
  | nil => exact h
  | cons call calls ih => exact ih ((turns cb call).invariant h)

/-- **The representation of a circuit breaker.**  For any configuration and any calls:

- the invariant holds of the breaker after them;
- whichever call is next, it does not overflow a `u32` counter;
- it leaves the state and the number of transitions alone, or it changes the state in one of
  five ways and adds one to that number;
- which, as a `u64`, is how often the state has changed. -/
theorem invariant_run [Zero F] (config : CircuitBreakerConfig F) (calls : List (Call F)) :
    let cb := (new config).run calls
    Invariant cb ∧
      (∀ call counter, Increments cb call counter → counter.toNat + 1 < 2 ^ 32) ∧
      (∀ call,
        ((cb.apply call).state = cb.state ∧
          (cb.apply call).transition_count = cb.transition_count) ∨
        (Changes cb.state call (cb.apply call).state ∧
          (cb.apply call).transition_count = cb.transition_count + 1)) ∧
      cb.transition_count = UInt64.ofNat ((new config).transitions calls) := by
  intro cb
  have hcb : Invariant cb := (invariant_new config).run calls
  refine ⟨hcb, fun _ _ ↦ hcb.no_overflow, fun call ↦ (turns cb call).changes, ?_⟩
  have hcount := transition_count_run (new config) calls
  rwa [show (new config).transition_count = 0 from rfl, UInt64.zero_add] at hcount

end CircuitBreaker

end CloudGateway
