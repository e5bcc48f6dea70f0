import CloudGateway.Breaker.Outage
import CloudGateway.Library.Streaks

/-!
# The trip condition

A closed circuit counts the failures since the last success, so it opens at the report that
completes the first streak of failures that is as long as the threshold, and not before
(`trips_iff_streak`).  A threshold of zero is one of one.

However the circuit has become closed, the count begins at zero (`fresh_new`, `fresh_reset`,
`Turns.fresh`).
-/

universe u

namespace CloudGateway

namespace CircuitBreaker

open Streaks Unwinding

variable {F : Type u}

/-- The call reports a failure. -/
def Call.isFailure : Call F → Bool
  | .recordFailure _ => true
  | _ => false

/-- The call reports a success. -/
def Call.isSuccess : Call F → Bool
  | .recordSuccess => true
  | _ => false

/-- The failures since the last success. -/
abbrev failures (calls : List (Call F)) : ℕ := trailing Call.isFailure Call.isSuccess calls

/-- The failures after one more call. -/
theorem failures_append_singleton (calls : List (Call F)) (call : Call F) :
    failures (calls ++ [call]) =
      if call.isSuccess then 0 else failures calls + if call.isFailure then 1 else 0 :=
  trailing_append_singleton calls call

/-- There are `k` failures among the calls with no success between them. -/
abbrev FailureStreak (k : ℕ) (calls : List (Call F)) : Prop :=
  Streak Call.isFailure Call.isSuccess k calls

theorem notMem_and_ne_reset {calls : List (Call F)} {call : Call F}
    (h : .reset ∉ calls ++ [call]) : .reset ∉ calls ∧ call ≠ .reset := by
  rw [List.mem_append, not_or, List.mem_singleton] at h
  exact ⟨h.1, fun heq ↦ h.2 heq.symm⟩

/-- The failures it takes to open the circuit. -/
def threshold (config : CircuitBreakerConfig F) : ℕ := max 1 config.failure_threshold.toNat

/-- A closed circuit with no failures. -/
structure Fresh (cb : CircuitBreaker F) : Prop where
  closed : cb.state = .closed
  no_failures : cb.consecutive_failures = 0

theorem fresh_new [Zero F] (config : CircuitBreakerConfig F) : Fresh (new config) := ⟨rfl, rfl⟩

theorem fresh_reset (cb : CircuitBreaker F) : Fresh cb.reset := ⟨state_reset cb, rfl⟩

variable [Sub F] [LE F]

/-- A circuit that has recovered is fresh. -/
theorem Turns.fresh {cb cb' : CircuitBreaker F} {call : Call F} {admitted : Bool}
    (h : Turns cb call admitted cb') (hhalf : cb.state = .halfOpen)
    (hclosed : cb'.state = .closed) : Fresh cb' := by
  cases h with
  | closes => exact ⟨rfl, rfl⟩
  | resets => exact fresh_reset cb
  | recover | trips | reopens => cases hclosed
  | trial h | exhausted h | counts h => cases h.symm.trans hclosed
  | pass h | refuse h | succeeds h | succeedsLate h | fails h | failsLate h =>
      cases h.symm.trans hhalf

/-- A closed circuit that has counted `n` failures. -/
structure Counts (config : CircuitBreakerConfig F) (n : ℕ) (cb : CircuitBreaker F) : Prop where
  config_eq : cb.config = config
  closed : cb.state = .closed
  failures_eq : cb.consecutive_failures.toNat = n

omit [Sub F] [LE F] in
/-- Below the threshold, the counter does not wrap. -/
theorem Counts.toNat_add_one {config : CircuitBreakerConfig F} {n : ℕ} {cb : CircuitBreaker F}
    (h : Counts config n cb) (hlt : n < threshold config) :
    (cb.consecutive_failures + 1).toNat = n + 1 := by
  obtain ⟨-, -, rfl⟩ := h
  exact toNat_add_one_of_lt_max hlt

/-- A call that is not one failure too many is counted. -/
theorem Counts.counts {config : CircuitBreakerConfig F} {cb cb' : CircuitBreaker F}
    {calls : List (Call F)} (h : Counts config (failures calls) cb) {call : Call F}
    {admitted : Bool} (hturns : Turns cb call admitted cb') (hreset : call ≠ .reset)
    (hlt : failures (calls ++ [call]) < threshold config) :
    Counts config (failures (calls ++ [call])) cb' := by
  have hadd := h.toNat_add_one
  obtain ⟨rfl, hclosed, hcount⟩ := h
  rw [failures_append_singleton] at hlt ⊢
  cases hturns with
  | pass => exact ⟨rfl, hclosed, hcount⟩
  | succeeds => exact ⟨rfl, hclosed, rfl⟩
  | fails => exact ⟨rfl, hclosed, hadd (Nat.lt_of_succ_lt hlt)⟩
  | trips _ hle =>
      rw [UInt32.le_iff_toNat_le, hadd (Nat.lt_of_succ_lt hlt)] at hle
      exact absurd hlt (max_le (Nat.le_add_left 1 _) hle).not_gt
  | resets => exact absurd rfl hreset
  | recover h | refuse h | trial h | exhausted h | succeedsLate h | counts h | closes h
  | reopens h | failsLate h => cases h.symm.trans hclosed

/-- One failure too many opens the circuit. -/
theorem Counts.trips {config : CircuitBreakerConfig F} {cb cb' : CircuitBreaker F}
    {calls : List (Call F)} (h : Counts config (failures calls) cb)
    (hfew : failures calls < threshold config) {call : Call F}
    {admitted : Bool} (hturns : Turns cb call admitted cb') (hreset : call ≠ .reset)
    (hle : threshold config ≤ failures (calls ++ [call])) :
    ∃ t, call = .recordFailure t ∧ cb'.state = .open_ ∧ cb'.opened_at = t := by
  have hadd := h.toNat_add_one hfew
  obtain ⟨rfl, hclosed, hcount⟩ := h
  rw [failures_append_singleton] at hle
  cases hturns with
  | trips => exact ⟨_, rfl, rfl, rfl⟩
  | pass => exact absurd hfew hle.not_gt
  | succeeds => exact absurd ((Nat.le_max_left 1 _).trans hle) (Nat.not_succ_le_zero 0)
  | fails _ hnot =>
      rw [UInt32.le_iff_toNat_le, hadd] at hnot
      exact absurd ((Nat.le_max_right 1 _).trans hle) hnot
  | resets => exact absurd rfl hreset
  | recover h | refuse h | trial h | exhausted h | succeedsLate h | counts h | closes h
  | reopens h | failsLate h => cases h.symm.trans hclosed

variable [DecidableLE F]

/-- Without a streak, the circuit is closed and counts. -/
theorem Fresh.counts {cb : CircuitBreaker F} (h : Fresh cb) {calls : List (Call F)}
    (hreset : .reset ∉ calls) (hstreak : ¬ FailureStreak (threshold cb.config) calls) :
    Counts cb.config (failures calls) (cb.run calls) := by
  induction calls using List.reverseRecOn with
  | nil => exact ⟨rfl, h.closed, congrArg UInt32.toNat h.no_failures⟩
  | append_singleton calls call ih =>
      obtain ⟨hstreak', hlt⟩ := not_or.mp ((streak_append_singleton_iff call).not.mp hstreak)
      obtain ⟨hcalls, hcall⟩ := notMem_and_ne_reset hreset
      rw [run, List.foldl_append]
      exact (ih hcalls hstreak').counts (turns _ call) hcall (not_le.mp hlt)

/-- The report that completes a streak opens the circuit. -/
theorem Fresh.opens {cb : CircuitBreaker F} (h : Fresh cb) {before : List (Call F)} {call : Call F}
    (hreset : .reset ∉ before ++ [call])
    (hfew : ¬ FailureStreak (threshold cb.config) before)
    (hstreak : FailureStreak (threshold cb.config) (before ++ [call])) :
    ∃ t, call = .recordFailure t ∧ (cb.run (before ++ [call])).state = .open_ ∧
      (cb.run (before ++ [call])).opened_at = t := by
  obtain ⟨hbefore, hcall⟩ := notMem_and_ne_reset hreset
  have hcounts := h.counts hbefore hfew
  have hlt : failures before < threshold cb.config :=
    not_le.mp fun hle ↦ hfew (streak_of_le_trailing hle)
  have hle := ((streak_append_singleton_iff call).mp hstreak).resolve_left hfew
  rw [run, List.foldl_append]
  exact hcounts.trips hlt (turns _ call) hcall hle

/-- A closed circuit grants every request. -/
theorem Fresh.granted {cb : CircuitBreaker F} (h : Fresh cb) {calls : List (Call F)}
    (hreset : .reset ∉ calls) (hstreak : ¬ FailureStreak (threshold cb.config) calls) :
    ∀ r ∈ cb.answers calls, r.granted = true := by
  induction calls using List.reverseRecOn with
  | nil => exact List.forall_mem_nil _
  | append_singleton calls call ih =>
      have hreset' := (notMem_and_ne_reset hreset).1
      have hstreak' := (not_or.mp ((streak_append_singleton_iff call).not.mp hstreak)).1
      have hclosed : (cb.run calls).state = .closed := (h.counts hreset' hstreak').closed
      intro r hr
      rw [answers, outputs_append, List.mem_append] at hr
      rcases hr with hr | hr
      · exact ih hreset' hstreak' r hr
      · rw [outputs, outputs, List.append_nil] at hr
        cases call with
        | allowRequest now =>
            obtain rfl := List.mem_singleton.mp hr
            show ((cb.run calls).allowRequest now).1 = true
            rw [allowRequest, hclosed]
        | _ => cases hr

/-- **The trip condition.**  From a closed circuit with no failures, in a run without a reset:

- the circuit leaves the closed state for the first time at the call that completes the first
  streak of failures as long as the threshold;
- this call is the report of a failure, and its time is when the circuit opened; every request
  before it is granted;
- without such a streak, every request is granted, and the circuit is closed in the end, with
  the failures since the last success counted. -/
theorem trips_iff_streak {cb : CircuitBreaker F} (h : Fresh cb) {calls : List (Call F)}
    (hreset : .reset ∉ calls) :
    (∀ before call, before ++ [call] <+: calls →
      ((∀ earlier, earlier <+: before → (cb.run earlier).state = .closed) ∧
        (cb.run (before ++ [call])).state ≠ .closed ↔
      ¬ FailureStreak (threshold cb.config) before ∧
        FailureStreak (threshold cb.config) (before ++ [call]))) ∧
    (∀ before call, before ++ [call] <+: calls →
      ¬ FailureStreak (threshold cb.config) before →
      FailureStreak (threshold cb.config) (before ++ [call]) →
      (∃ t, call = .recordFailure t ∧ (cb.run (before ++ [call])).state = .open_ ∧
        (cb.run (before ++ [call])).opened_at = t) ∧
      ∀ r ∈ cb.answers before, r.granted = true) ∧
    (¬ FailureStreak (threshold cb.config) calls →
      (cb.run calls).state = .closed ∧
      (cb.run calls).consecutive_failures.toNat = failures calls ∧
      ∀ r ∈ cb.answers calls, r.granted = true) := by
  have hthreshold : 0 < threshold cb.config := lt_max_of_lt_left Nat.one_pos
  have hmem {earlier : List (Call F)} (hpre : earlier <+: calls) : .reset ∉ earlier :=
    fun hmem ↦ hreset (hpre.subset hmem)
  refine ⟨fun before call hpre ↦ ⟨?_, ?_⟩, fun before call hpre hfew hstreak ↦ ?_, ?_⟩
  · rintro ⟨hclosed, hopens⟩
    constructor
    · intro hstreak
      obtain ⟨earlier, first, hearlier, hfew, hstreak⟩ := hstreak.exists_first hthreshold
      have hcalls := (hearlier.trans (List.prefix_append before [call])).trans hpre
      obtain ⟨t, -, hopen, -⟩ := h.opens (hmem hcalls) hfew hstreak
      cases hopen.symm.trans (hclosed _ hearlier)
    · by_contra hstreak
      exact hopens (h.counts (hmem hpre) hstreak).closed
  · rintro ⟨hfew, hstreak⟩
    constructor
    · intro earlier hearlier
      have hcalls := (hearlier.trans (List.prefix_append before [call])).trans hpre
      exact (h.counts (hmem hcalls) fun hs ↦ hfew (hs.mono hearlier.isInfix)).closed
    · obtain ⟨t, -, hopen, -⟩ := h.opens (hmem hpre) hfew hstreak
      rw [hopen]
      exact nofun
  · have hbefore := hmem ((List.prefix_append before [call]).trans hpre)
    exact ⟨h.opens (hmem hpre) hfew hstreak, h.granted hbefore hfew⟩
  · intro hstreak
    have hcounts := h.counts hreset hstreak
    exact ⟨hcounts.closed, hcounts.failures_eq, h.granted hreset hstreak⟩

/-- Two failures in a row, after one that does not count any more. -/
theorem trips_iff_streak_rat :
    let cb : CircuitBreaker ℚ := new ⟨2, 30, 3⟩
    let before : List (Call ℚ) :=
      [.recordFailure 0, .recordSuccess, .recordFailure 1, .allowRequest 2]
    (cb.run (before ++ [.recordFailure 3])).state = .open_ ∧
      (cb.run (before ++ [.recordFailure 3])).opened_at = 3 ∧
      ∀ r ∈ cb.answers before, r.granted = true := by
  intro cb before
  have hreset : .reset ∉ before ++ [.recordFailure 3] := by simp [before]
  have hfresh : Fresh cb := fresh_new _
  obtain ⟨⟨t, heq, hopen, htime⟩, hgranted⟩ := (trips_iff_streak hfresh hreset).2.1 before
    (.recordFailure 3) List.prefix_rfl (by decide +kernel) (by decide +kernel)
  cases heq
  exact ⟨hopen, htime, hgranted⟩

end CircuitBreaker

end CloudGateway
