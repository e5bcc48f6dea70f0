import Mathlib.Data.List.Perm.Subperm
import Mathlib.Algebra.Order.Field.Basic
import Mathlib.Data.Rat.Cast.Order
import CloudGateway.CircuitBreaker

/-!
# The requests behind a circuit breaker

A breaker does not know which request a report belongs to.  A `Session` does: it numbers
the requests that the breaker admits, remembers in which half-open period each was admitted,
and lets each report once.

A report may come at any time, so a request of an earlier period may report while the circuit
is half open, and its success counts (`closes_on_trials_iff`).  But every trial that the
breaker waits for is a request that has not reported, so the breaker does not wait in vain
(`no_lockout`).  That is so over numbers; an `f64` need not be one, and after a failure at an
infinite time it waits for ever (`locks_out_at_infinity`).
-/

universe u

namespace CloudGateway

namespace CircuitBreaker

variable {F : Type u}

/-! ## Sessions -/

/-- An admitted request: its number, and its half-open period, if it is a trial. -/
structure Request where
  id : ℕ
  period : Option ℕ
deriving DecidableEq

/-- What happens to a breaker: a request asks, a request reports, or the breaker is reset. -/
inductive Event (F : Type u)
  | request (now : F)
  | success (r : Request)
  | failure (r : Request) (now : F)
  | reset

/-- The call that an event makes. -/
def Event.call : Event F → Call F
  | .request now => .allowRequest now
  | .success _ => .recordSuccess
  | .failure _ now => .recordFailure now
  | .reset => .reset

theorem Event.eq_success {e : Event F} (h : e.call = .recordSuccess) : ∃ r, e = .success r := by
  cases e with
  | success r => exact ⟨r, rfl⟩
  | _ => cases h

theorem Event.eq_reset {e : Event F} (h : e.call = .reset) : e = .reset := by
  cases e with
  | reset => rfl
  | _ => cases h

/-- A breaker and the requests behind it. -/
structure Session (F : Type u) where
  breaker : CircuitBreaker F
  /-- Number of half-open periods so far. -/
  period : ℕ
  /-- Number of requests admitted so far. -/
  admitted : ℕ
  /-- The admitted requests that have not reported. -/
  pending : List Request
  /-- The requests that have reported a success. -/
  succeeded : List Request
  /-- Those whose success was reported in the last half-open period. -/
  credited : List Request
deriving DecidableEq

/-- A report belongs to a request that has not reported yet. -/
def Event.Reports (w : Session F) : Event F → Prop
  | .success r | .failure r _ => r ∈ w.pending
  | _ => True

instance (w : Session F) (e : Event F) : Decidable (e.Reports w) := by
  cases e <;> unfold Event.Reports <;> infer_instance

namespace Session

/-- A new breaker, before any request. -/
def new [Zero F] (config : CircuitBreakerConfig F) : Session F where
  breaker := .new config
  period := 0
  admitted := 0
  pending := []
  succeeded := []
  credited := []

/-- The period after a call that leads to the breaker `cb`. -/
def nextPeriod (w : Session F) (cb : CircuitBreaker F) : ℕ :=
  if w.breaker.state = .open_ ∧ cb.state = .halfOpen then w.period + 1 else w.period

/-- The session after an event whose call leads to the breaker `cb`. -/
def next (w : Session F) (e : Event F) (admits : Bool) (cb : CircuitBreaker F) : Session F :=
  match e with
  | .request _ => { w with
      breaker := cb
      period := w.nextPeriod cb
      admitted := w.admitted + admits.toNat
      pending :=
        if admits then
          ⟨w.admitted, if cb.state = .halfOpen then some (w.nextPeriod cb) else none⟩ :: w.pending
        else w.pending
      credited := if w.nextPeriod cb = w.period then w.credited else [] }
  | .success r => { w with
      breaker := cb
      pending := w.pending.erase r
      succeeded := r :: w.succeeded
      credited := if w.breaker.state = .halfOpen then r :: w.credited else w.credited }
  | .failure r _ => { w with
      breaker := cb
      pending := w.pending.erase r }
  | .reset => { w with breaker := cb }

@[simp] theorem breaker_next (w : Session F) (e : Event F) (admits : Bool)
    (cb : CircuitBreaker F) : (w.next e admits cb).breaker = cb := by
  cases e <;> rfl

variable [Sub F] [LE F] [DecidableLE F]

/-- An event, happened. -/
def apply (w : Session F) (e : Event F) : Session F :=
  w.next e (w.breaker.admits e.call) (w.breaker.apply e.call)

/-- The sessions of a new breaker. -/
inductive Reaches [Zero F] (config : CircuitBreakerConfig F) : Session F → Prop
  /-- Nothing has happened. -/
  | start : Reaches config (new config)
  /-- One more event. -/
  | step {w : Session F} {e : Event F} (h : Reaches config w) (hreports : e.Reports w) :
      Reaches config (w.apply e)

/-- The session after some events, computed. -/
def play (w : Session F) (es : List (Event F)) : Option (Session F) :=
  es.foldlM (fun w e ↦ if e.Reports w then some (w.apply e) else none) w

/-- What is computed is a session of the breaker. -/
theorem reaches_of_play [Zero F] {config : CircuitBreakerConfig F} {w w' : Session F}
    (es : List (Event F)) (hw : Reaches config w) (h : w.play es = some w') :
    Reaches config w' := by
  induction es generalizing w with
  | nil =>
      obtain rfl := Option.some.inj h
      exact hw
  | cons e es ih =>
      rw [play, List.foldlM_cons] at h
      by_cases hreports : e.Reports w
      · rw [if_pos hreports] at h
        exact ih (hw.step hreports) h
      · rw [if_neg hreports] at h
        cases h

/-- A property that every event keeps, whatever it does to the breaker. -/
theorem Reaches.induct [Zero F] {config : CircuitBreakerConfig F} {J : Session F → Prop}
    (hstart : J (new config))
    (hstep : ∀ w e admits cb, e.Reports w → Turns w.breaker e.call admits cb → J w →
      J (w.next e admits cb))
    {w : Session F} (h : Reaches config w) : J w := by
  induction h with
  | start => exact hstart
  | step _ hreports ih => exact hstep _ _ _ _ hreports (turns _ _) ih

end Session

/-- A counter below a limit, which is one at least, is not the last number. -/
theorem add_one_lt_of_lt_max {x n : UInt32} (h : x.toNat < max 1 n.toNat) :
    x.toNat + 1 < 2 ^ 32 := by
  have hn := n.toNat_lt
  rcases lt_max_iff.mp h with hone | hmore
  · rw [Nat.lt_one_iff.mp hone]
    decide
  · exact Nat.lt_of_le_of_lt hmore hn

/-- So it does not wrap. -/
theorem toNat_add_one_of_lt_max {x n : UInt32} (h : x.toNat < max 1 n.toNat) :
    (x + 1).toNat = x.toNat + 1 := by
  rw [UInt32.toNat_add]
  exact Nat.mod_eq_of_lt (add_one_lt_of_lt_max h)

theorem toNat_add_one {x n : UInt32} (h : x.toNat < n.toNat) :
    (x + 1).toNat = x.toNat + 1 := toNat_add_one_of_lt_max (lt_max_of_lt_right h)

/-- A success that does not close the circuit is one more. -/
theorem toNat_successes_add_one {cb : CircuitBreaker F}
    (h : cb.half_open_successes.toNat = 0 ∨
      cb.half_open_successes.toNat < cb.config.half_open_max_requests.toNat) :
    (cb.half_open_successes + 1).toNat = cb.half_open_successes.toNat + 1 :=
  toNat_add_one_of_lt_max (lt_max_iff.mpr (h.imp_left Nat.lt_one_iff.mpr))

namespace Session

/-! ## The breaker does not wait in vain -/

/-- While the circuit is half open, each trial has succeeded or has not reported yet, and
there are fewer successes than it takes to close the circuit. -/
def Awaits (w : Session F) : Prop :=
  w.breaker.state = .halfOpen →
    1 ≤ w.breaker.half_open_requests.toNat ∧
      w.breaker.half_open_requests.toNat
        ≤ w.breaker.half_open_successes.toNat + w.pending.length ∧
      (w.breaker.half_open_successes.toNat = 0 ∨ w.breaker.half_open_successes.toNat
        < w.breaker.config.half_open_max_requests.toNat)

variable [Sub F] [LE F]

theorem Awaits.next {w : Session F} {e : Event F} {admits : Bool} {cb : CircuitBreaker F}
    (hreports : e.Reports w) (hturns : Turns w.breaker e.call admits cb) (h : Awaits w) :
    Awaits (w.next e admits cb) := by
  intro hhalf
  cases e with
  | request now =>
      cases hturns with
      | pass hclosed => cases hclosed.symm.trans hhalf
      | recover => exact ⟨le_rfl, Nat.le_add_left 1 _, .inl rfl⟩
      | refuse hopen => cases hopen.symm.trans hhalf
      | trial hhalf' hlt =>
          obtain ⟨hone, hle, hfew⟩ := h hhalf'
          have hrequests := toNat_add_one (UInt32.lt_iff_toNat_lt.mp hlt)
          refine ⟨?_, ?_, hfew⟩
          · show 1 ≤ (w.breaker.half_open_requests + 1).toNat
            omega
          · show (w.breaker.half_open_requests + 1).toNat
              ≤ w.breaker.half_open_successes.toNat + (w.pending.length + 1)
            omega
      | exhausted hhalf' => exact h hhalf'
  | success r =>
      cases hturns with
      | succeeds hclosed => cases hclosed.symm.trans hhalf
      | succeedsLate hopen => cases hopen.symm.trans hhalf
      | counts hhalf' hlt =>
          obtain ⟨hone, hle, hfew⟩ := h hhalf'
          have hsuccesses := toNat_successes_add_one hfew
          have herase := List.length_erase_of_mem hreports
          have hpos := List.length_pos_of_mem hreports
          rw [UInt32.not_le, UInt32.lt_iff_toNat_lt] at hlt
          refine ⟨hone, ?_, .inr hlt⟩
          show w.breaker.half_open_requests.toNat
            ≤ (w.breaker.half_open_successes + 1).toNat + (w.pending.erase r).length
          omega
      | closes => cases hhalf
  | failure r now =>
      cases hturns with
      | fails hclosed => cases hclosed.symm.trans hhalf
      | trips => cases hhalf
      | reopens => cases hhalf
      | failsLate hopen => cases hopen.symm.trans hhalf
  | reset =>
      cases hturns with
      | resets => cases (state_reset w.breaker).symm.trans hhalf

/-! ## What a report is worth -/

/-- Each request is listed once, and no request is from a later period.  This holds whatever
the breaker answers. -/
structure Ledger (w : Session F) : Prop where
  nodup : (w.pending ++ w.succeeded).Nodup
  id_lt : ∀ r ∈ w.pending ++ w.succeeded, r.id < w.admitted
  period_le : ∀ r ∈ w.pending ++ w.succeeded, ∀ p, r.period = some p → p ≤ w.period
  credited : List.Sublist w.credited w.succeeded

omit [Sub F] [LE F] in
theorem le_nextPeriod (w : Session F) (cb : CircuitBreaker F) : w.period ≤ w.nextPeriod cb := by
  rw [nextPeriod]
  split
  · exact Nat.le_succ w.period
  · exact le_rfl

omit [Sub F] [LE F] in
/-- A report moves a request, or takes it off the list. -/
theorem reported_perm {pending : List Request} (succeeded : List Request) {r : Request}
    (h : r ∈ pending) :
    List.Perm (pending.erase r ++ r :: succeeded) (pending ++ succeeded) :=
  List.perm_middle.trans ((List.perm_cons_erase h).symm.append_right succeeded)

omit [Sub F] [LE F] in
theorem Ledger.next {w : Session F} {e : Event F} (hreports : e.Reports w) (h : Ledger w)
    (admits : Bool) (cb : CircuitBreaker F) : Ledger (w.next e admits cb) := by
  cases e with
  | request now =>
      have hcredited : List.Sublist
          (if w.nextPeriod cb = w.period then w.credited else []) w.succeeded := by
        split
        · exact h.credited
        · exact List.nil_sublist _
      have hperiod := le_nextPeriod w cb
      cases admits with
      | false =>
          exact ⟨h.nodup, h.id_lt, fun r hr p hp ↦ (h.period_le r hr p hp).trans hperiod,
            hcredited⟩
      | true =>
          refine ⟨List.nodup_cons.mpr ⟨fun hmem ↦ ?_, h.nodup⟩, fun r hr ↦ ?_, fun r hr p hp ↦ ?_,
            hcredited⟩
          · exact lt_irrefl _ (h.id_lt _ hmem)
          · rcases List.mem_cons.mp hr with rfl | hr
            · exact Nat.lt_succ_self w.admitted
            · exact (h.id_lt r hr).trans (Nat.lt_succ_self w.admitted)
          · rcases List.mem_cons.mp hr with rfl | hr
            · by_cases hhalf : cb.state = .halfOpen
              · rw [if_pos hhalf] at hp
                exact (Option.some.inj hp).ge
              · rw [if_neg hhalf] at hp
                cases hp
            · exact (h.period_le r hr p hp).trans hperiod
  | success r =>
      have hperm := reported_perm w.succeeded hreports
      refine ⟨hperm.nodup_iff.mpr h.nodup, fun r' hr' ↦ h.id_lt r' (hperm.mem_iff.mp hr'),
        fun r' hr' ↦ h.period_le r' (hperm.mem_iff.mp hr'), ?_⟩
      show List.Sublist (if w.breaker.state = .halfOpen then r :: w.credited else w.credited)
        (r :: w.succeeded)
      split
      · exact h.credited.cons_cons r
      · exact h.credited.cons r
  | failure r now =>
      have hsub : List.Sublist (w.pending.erase r ++ w.succeeded) (w.pending ++ w.succeeded) :=
        (List.erase_sublist ..).append_right w.succeeded
      exact ⟨h.nodup.sublist hsub, fun r' hr' ↦ h.id_lt r' (hsub.subset hr'),
        fun r' hr' ↦ h.period_le r' (hsub.subset hr'), h.credited⟩
  | reset => exact ⟨h.nodup, h.id_lt, h.period_le, h.credited⟩

/-- While the circuit is half open, the breaker has counted the credited successes, its own
trials' among them. -/
def Counted (w : Session F) : Prop :=
  w.breaker.state = .halfOpen →
    (∀ r ∈ w.succeeded, r.period = some w.period → r ∈ w.credited) ∧
      w.breaker.half_open_successes.toNat = w.credited.length ∧
      (w.breaker.half_open_successes.toNat = 0 ∨ w.breaker.half_open_successes.toNat
        < w.breaker.config.half_open_max_requests.toNat)

theorem Counted.next {w : Session F} {e : Event F} {admits : Bool} {cb : CircuitBreaker F}
    (hledger : Ledger w) (hturns : Turns w.breaker e.call admits cb) (h : Counted w) :
    Counted (w.next e admits cb) := by
  intro hhalf
  cases e with
  | request now =>
      have hnew : w.breaker.state = .open_ → w.nextPeriod cb = w.period + 1 :=
        fun hopen ↦ if_pos ⟨hopen, hhalf⟩
      have hsame : w.breaker.state = .halfOpen → w.nextPeriod cb = w.period :=
        fun hhalf' ↦ if_neg fun hopen ↦ by cases hhalf'.symm.trans hopen.1
      cases hturns with
      | pass hclosed => cases hclosed.symm.trans hhalf
      | recover hopen =>
          -- A new period: no request is one of its trials yet.
          simp only [Session.next, hnew hopen, if_neg w.period.succ_ne_self]
          refine ⟨fun r hr hp ↦ ?_, rfl, .inl rfl⟩
          have hle := hledger.period_le r (List.mem_append_right _ hr) _ hp
          exact absurd hle (Nat.not_succ_le_self w.period)
      | refuse hopen => cases hopen.symm.trans hhalf
      | trial hhalf' | exhausted hhalf' =>
          obtain ⟨hown, hcount, hfew⟩ := h hhalf'
          simp only [Session.next, hsame hhalf', if_true]
          exact ⟨hown, hcount, hfew⟩
  | success r =>
      cases hturns with
      | succeeds hclosed => cases hclosed.symm.trans hhalf
      | succeedsLate hopen => cases hopen.symm.trans hhalf
      | counts hhalf' hlt =>
          obtain ⟨hown, hcount, hfew⟩ := h hhalf'
          have hsuccesses := toNat_successes_add_one hfew
          rw [UInt32.not_le, UInt32.lt_iff_toNat_lt] at hlt
          simp only [Session.next, if_pos hhalf']
          refine ⟨fun r' hr' hp ↦ ?_, ?_, .inr hlt⟩
          · rcases List.mem_cons.mp hr' with rfl | hr'
            · exact List.mem_cons_self
            · exact List.mem_cons_of_mem r (hown r' hr' hp)
          · rw [hsuccesses, hcount, List.length_cons]
      | closes => cases hhalf
  | failure r now =>
      cases hturns with
      | fails hclosed => cases hclosed.symm.trans hhalf
      | trips => cases hhalf
      | reopens => cases hhalf
      | failsLate hopen => cases hopen.symm.trans hhalf
  | reset =>
      cases hturns with
      | resets => cases (state_reset w.breaker).symm.trans hhalf

end Session

/-- **No permanent lock-out.**  When every admitted request has reported, the breaker allows
requests from some time on, as long as times are exact numbers. -/
theorem no_lockout {K : Type u} [Field K] [LinearOrder K] [IsStrictOrderedRing K]
    {config : CircuitBreakerConfig K} {w : Session K} (h : Session.Reaches config w)
    (hquiet : w.pending = []) : ∃ t₀, ∀ t, t₀ ≤ t → (w.breaker.allowRequest t).1 = true := by
  have hawaits : w.Awaits :=
    h.induct (fun hhalf ↦ by cases hhalf) fun w e admits cb hreports hturns hw ↦
      hw.next hreports hturns
  cases hstate : w.breaker.state with
  | closed =>
      refine ⟨0, fun t _ ↦ ?_⟩
      rw [allowRequest, hstate]
  | open_ =>
      refine ⟨w.breaker.opened_at + w.breaker.config.recovery_timeout_s, fun t ht ↦ ?_⟩
      have hwaited : t - w.breaker.opened_at ≥ w.breaker.config.recovery_timeout_s :=
        le_sub_iff_add_le'.mpr ht
      simp only [allowRequest, hstate, if_pos hwaited]
  | halfOpen =>
      refine ⟨0, fun t _ ↦ ?_⟩
      obtain ⟨hone, hle, hfew⟩ := hawaits hstate
      rw [hquiet, List.length_nil, Nat.add_zero] at hle
      have hroom : w.breaker.half_open_requests < w.breaker.config.half_open_max_requests := by
        rw [UInt32.lt_iff_toNat_lt]
        omega
      simp only [allowRequest, hstate, if_pos hroom]

/-- A trial has succeeded and no other was started: the circuit is half open with no request
under way. -/
theorem no_lockout_rat :
    let w : Session ℚ :=
      ⟨⟨⟨1, 1, 2⟩, .halfOpen, 1, 0, 1, 1, 2⟩, 1, 2, [], [⟨1, some 1⟩], [⟨1, some 1⟩]⟩
    ∃ t₀, ∀ t, t₀ ≤ t → (w.breaker.allowRequest t).1 = true := by
  intro w
  have hw : Session.Reaches ⟨1, 1, 2⟩ w :=
    Session.reaches_of_play [.request 0, .failure ⟨0, none⟩ 0, .request 1, .success ⟨1, some 1⟩]
      .start (by decide +kernel)
  exact no_lockout hw rfl

/-! ## Times that are no numbers -/

/-- What an `f64` can be.  Between finite numbers it is exact here. -/
inductive Extended
  | finite (x : ℚ)
  | infinite (negative : Bool)
  | nan
deriving DecidableEq

namespace Extended

instance : Zero Extended := ⟨.finite 0⟩

/-- The difference of two infinities is not a number, unless their signs differ. -/
instance : Sub Extended where
  sub
    | .finite x, .finite y => .finite (x - y)
    | .infinite negative, .finite _ => .infinite negative
    | .finite _, .infinite negative => .infinite !negative
    | .infinite negative, .infinite negative' =>
        if negative = negative' then .nan else .infinite negative
    | _, _ => .nan

/-- Nothing is compared with what is not a number. -/
instance : LE Extended where
  le
    | .finite x, .finite y => x ≤ y
    | .infinite true, .finite _ | .infinite true, .infinite _
    | .finite _, .infinite false | .infinite false, .infinite false => True
    | _, _ => False

instance : DecidableLE Extended
  | .finite x, .finite y => inferInstanceAs (Decidable (x ≤ y))
  | .infinite true, .finite _ | .infinite true, .infinite _
  | .finite _, .infinite false | .infinite false, .infinite false => isTrue trivial
  | .finite _, .infinite true | .infinite false, .finite _ | .infinite false, .infinite true
  | .nan, _ | .finite _, .nan | .infinite true, .nan | .infinite false, .nan => isFalse id

/-- After an infinite time no time has passed, and after none that is a number. -/
theorem not_le_sub {now : Extended} (h : now = .infinite false ∨ now = .nan) (t : Extended)
    (x : ℚ) : ¬ .finite x ≤ t - now := by
  rcases h with rfl | rfl
  · rcases t with y | (_ | _) | _ <;> exact id
  · rcases t with y | (_ | _) | _ <;> exact id

end Extended

/-- A failure that is reported at an infinite time, or at one that is not a number, locks
requests out for good. -/
theorem locks_out {now : Extended} (h : now = .infinite false ∨ now = .nan) :
    ∃ w : Session Extended, Session.Reaches ⟨1, .finite 1, 1⟩ w ∧ w.breaker.opened_at = now ∧
      w.pending = [] ∧ ∀ t, (w.breaker.allowRequest t).1 = false := by
  let w : Session Extended :=
    ⟨⟨⟨1, .finite 1, 1⟩, .open_, 1, now, 0, 0, 1⟩, 0, 1, [], [], []⟩
  have hw : Session.Reaches ⟨1, .finite 1, 1⟩ w :=
    Session.reaches_of_play [.request 0, .failure ⟨0, none⟩ now] .start rfl
  refine ⟨w, hw, rfl, rfl, fun t ↦ ?_⟩
  have hwait : ¬ t - now ≥ .finite 1 := Extended.not_le_sub h t 1
  show (if t - now ≥ .finite 1 then _ else _ : Bool × CircuitBreaker Extended).1 = false
  rw [if_neg hwait]

/-- A request fails at an infinite time, and from no time on are requests allowed. -/
theorem locks_out_at_infinity : ∃ w : Session Extended, Session.Reaches ⟨1, .finite 1, 1⟩ w ∧
    w.breaker.opened_at = .infinite false ∧ w.pending = [] ∧
    ¬ ∃ t₀, t₀ ≤ t₀ ∧ ∀ t, t₀ ≤ t → (w.breaker.allowRequest t).1 = true := by
  obtain ⟨w, hw, hopened, hquiet, hrefused⟩ := locks_out (.inl rfl)
  refine ⟨w, hw, hopened, hquiet, ?_⟩
  rintro ⟨t₀, hnumber, hallowed⟩
  have htrue := hallowed t₀ hnumber
  rw [hrefused] at htrue
  cases htrue

/-! ## Closing -/

namespace Session

/-- So many requests of the last half-open period have reported a success. -/
def TrialsSucceeded (w : Session F) (n : ℕ) : Prop :=
  ∃ trials : List Request, trials.Nodup ∧ trials.length = n ∧
    ∀ r ∈ trials, r ∈ w.succeeded ∧ r.period = some w.period

variable [Sub F] [LE F] [DecidableLE F] [Zero F]

theorem Reaches.ledger {config : CircuitBreakerConfig F} {w : Session F}
    (h : Reaches config w) : Ledger w :=
  h.induct ⟨List.nodup_nil, List.forall_mem_nil _, List.forall_mem_nil _, List.Sublist.slnil⟩
    fun _ _ admits cb hreports _ hw ↦ hw.next hreports admits cb

theorem Reaches.counted {config : CircuitBreakerConfig F} {w : Session F}
    (h : Reaches config w) : Counted w :=
  (h.induct (J := fun w ↦ Ledger w ∧ Counted w) ⟨Reaches.start.ledger, fun hhalf ↦ by cases hhalf⟩
    fun _ _ admits cb hreports hturns hw ↦
      ⟨hw.1.next hreports admits cb, hw.2.next hw.1 hturns⟩).2

theorem Reaches.config_eq {config : CircuitBreakerConfig F} {w : Session F}
    (h : Reaches config w) : w.breaker.config = config :=
  h.induct (J := fun w ↦ w.breaker.config = config) rfl fun w e admits cb _ hturns hw ↦ by
    rw [breaker_next, hturns.config, hw]

end Session

variable [Sub F] [LE F] [DecidableLE F] [Zero F]

/-- The circuit closes on as many of its own trials as it allows, if and only if every success
that it counted was one of them.

It does not look: the success of a request of an earlier period counts as well. -/
theorem closes_on_trials_iff {config : CircuitBreakerConfig F}
    (hmax : 1 ≤ config.half_open_max_requests) {w : Session F} (h : Session.Reaches config w)
    {e : Event F} (hreports : e.Reports w) (hreset : e ≠ .reset)
    (hhalf : w.breaker.state = .halfOpen) (hclosed : (w.apply e).breaker.state = .closed) :
    (w.apply e).TrialsSucceeded config.half_open_max_requests.toNat ↔
      (∀ r ∈ w.credited, r.period = some w.period) ∧
        ∀ r, e = .success r → r.period = some w.period := by
  rw [Session.apply, Session.breaker_next] at hclosed
  obtain ⟨hcall, hle⟩ := (turns w.breaker e.call).closes_of_halfOpen
    (fun hcall ↦ hreset (Event.eq_reset hcall)) hhalf hclosed
  obtain ⟨r, rfl⟩ := Event.eq_success hcall
  obtain ⟨hown, hcount, hfew⟩ := h.counted hhalf
  have hledger := h.ledger.next hreports false (w.breaker.apply .recordSuccess)
  have hcredited : (w.apply (.success r)).credited = r :: w.credited := if_pos hhalf
  -- The successes counted are just enough.
  have hlength : (r :: w.credited).length = config.half_open_max_requests.toNat := by
    rw [UInt32.le_iff_toNat_le, toNat_successes_add_one hfew] at hle
    rw [h.config_eq] at hle hfew
    rw [UInt32.le_iff_toNat_le] at hmax
    have hone : (1 : UInt32).toNat = 1 := rfl
    rw [List.length_cons, ← hcount]
    omega
  have hsub : ∀ t ∈ (w.apply (.success r)).succeeded, t.period = some w.period →
      t ∈ r :: w.credited := by
    intro t ht hp
    rcases List.mem_cons.mp ht with rfl | ht
    · exact List.mem_cons_self
    · exact List.mem_cons_of_mem r (hown t ht hp)
  constructor
  · rintro ⟨trials, hnodup, hlen, htrials⟩
    have hperm : List.Perm trials (r :: w.credited) :=
      (hnodup.subperm fun t ht ↦ hsub t (htrials t ht).1 (htrials t ht).2).perm_of_length_le
        (by rw [hlen, hlength])
    have hall : ∀ t ∈ r :: w.credited, t.period = some w.period :=
      fun t ht ↦ (htrials t (hperm.mem_iff.mpr ht)).2
    refine ⟨fun t ht ↦ hall t (List.mem_cons_of_mem r ht), fun r' hr' ↦ ?_⟩
    cases hr'
    exact hall r List.mem_cons_self
  · rintro ⟨hall, hlast⟩
    have hsublist : List.Sublist (r :: w.credited) (w.apply (.success r)).succeeded :=
      hcredited ▸ hledger.credited
    have hnodup : (w.apply (.success r)).succeeded.Nodup :=
      hledger.nodup.sublist (List.sublist_append_right ..)
    refine ⟨r :: w.credited, hnodup.sublist hsublist, hlength,
      fun t ht ↦ ⟨hsublist.subset ht, ?_⟩⟩
    rcases List.mem_cons.mp ht with rfl | ht
    · exact hlast t rfl
    · exact hall t ht

/-- The one trial succeeds, and the circuit closes. -/
theorem closes_on_trials_iff_rat :
    let w : Session ℚ :=
      ⟨⟨⟨1, 1, 1⟩, .halfOpen, 1, 0, 1, 0, 2⟩, 1, 2, [⟨1, some 1⟩], [], []⟩
    (w.apply (.success ⟨1, some 1⟩)).TrialsSucceeded 1 ↔
      (∀ r ∈ w.credited, r.period = some w.period) ∧
        ∀ r, (Event.success ⟨1, some 1⟩ : Event ℚ) = .success r → r.period = some w.period := by
  intro w
  have hw : Session.Reaches ⟨1, 1, 1⟩ w :=
    Session.reaches_of_play [.request 0, .failure ⟨0, none⟩ 0, .request 1] .start
      (by decide +kernel)
  exact closes_on_trials_iff (by decide) hw List.mem_cons_self nofun rfl rfl

/-- A request that was admitted before the circuit opened closes it: no trial has reported. -/
theorem closes_on_late_success :
    ∃ (w : Session ℚ) (e : Event ℚ), Session.Reaches ⟨1, 1, 1⟩ w ∧ e.Reports w ∧ e ≠ .reset ∧
      w.breaker.state = .halfOpen ∧ (w.apply e).breaker.state = .closed ∧
      ¬ (w.apply e).TrialsSucceeded 1 := by
  refine ⟨⟨⟨⟨1, 1, 1⟩, .halfOpen, 1, 0, 1, 0, 2⟩, 1, 3, [⟨2, some 1⟩, ⟨1, none⟩], [], []⟩,
    .success ⟨1, none⟩,
    Session.reaches_of_play [.request 0, .request 0, .failure ⟨0, none⟩ 0, .request 1] .start
      (by decide +kernel),
    by decide, nofun, rfl, rfl, ?_⟩
  rintro ⟨trials, -, hlen, htrials⟩
  obtain ⟨r, rfl⟩ := List.length_eq_one_iff.mp hlen
  obtain ⟨hmem, hperiod⟩ := htrials r List.mem_cons_self
  obtain rfl := List.mem_singleton.mp hmem
  cases hperiod

end CircuitBreaker

end CloudGateway
