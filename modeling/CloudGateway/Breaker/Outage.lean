import Mathlib.Algebra.Order.Floor.Semifield
import Mathlib.Data.Rat.Floor
import CloudGateway.Breaker.Requests
import CloudGateway.Library.Unwinding

/-!
# The load on a failing service

A service that keeps failing is called by the trials of the half-open periods only.  A
half-open period admits no more requests than the configuration allows (one at least), and
two periods begin a recovery timeout apart, so a span of time in which the circuit is never
closed has a bounded number of admissions (`outage_load`), however late the reports come.
-/

universe u

namespace CloudGateway

namespace CircuitBreakerConfig

variable {K : Type u} [Field K] [LinearOrder K] [FloorSemiring K]

/-- What a half-open period admits at most: the trial that begins it is always admitted. -/
def trials (config : CircuitBreakerConfig K) : ℕ :=
  max 1 config.half_open_max_requests.toNat

/-- The recovery timeouts that fit between `a` and `t`. -/
def timeouts (config : CircuitBreakerConfig K) (a t : K) : ℕ :=
  ⌊(t - a) / config.recovery_timeout_s⌋₊

variable [IsStrictOrderedRing K]

theorem timeouts_mono {config : CircuitBreakerConfig K} (hT : 0 < config.recovery_timeout_s)
    (a : K) {t t' : K} (h : t ≤ t') : config.timeouts a t ≤ config.timeouts a t' :=
  Nat.floor_mono (div_le_div_of_nonneg_right (sub_le_sub_right h a) hT.le)

/-- A wait for the recovery timeout is one timeout more. -/
theorem timeouts_add_one_le {config : CircuitBreakerConfig K} (hT : 0 < config.recovery_timeout_s)
    {a t now : K} (ha : a ≤ t) (hwait : config.recovery_timeout_s ≤ now - t) :
    config.timeouts a t + 1 ≤ config.timeouts a now := by
  rw [timeouts, ← Nat.floor_add_one (div_nonneg (sub_nonneg.mpr ha) hT.le)]
  refine Nat.floor_mono ?_
  rw [div_add_one hT.ne', div_le_div_iff_of_pos_right hT]
  linarith

end CircuitBreakerConfig

namespace CircuitBreaker

open Unwinding

variable {F : Type u}

/-! ## Runs -/

/-- The time of a call, if it has one. -/
def Call.time : Call F → Option F
  | .allowRequest now | .recordFailure now => some now
  | .recordSuccess | .reset => none

/-- An answer of `allow_request`: its time, the state it found, and whether it was true. -/
structure Answer (F : Type u) where
  now : F
  found : CircuitState
  granted : Bool

variable [Sub F] [LE F] [DecidableLE F]

/-- The breaker after some calls. -/
def run (self : CircuitBreaker F) (calls : List (Call F)) : CircuitBreaker F :=
  calls.foldl apply self

theorem config_run (self : CircuitBreaker F) (calls : List (Call F)) :
    (self.run calls).config = self.config := by
  induction calls generalizing self with
  | nil => rfl
  | cons call calls ih => exact (ih (self.apply call)).trans (turns self call).config

/-- The answer to a call, if it is one of `allow_request`. -/
def answer (self : CircuitBreaker F) : Call F → Option (Answer F)
  | .allowRequest now => some ⟨now, self.state, (self.allowRequest now).1⟩
  | _ => none

/-- The answers of some calls. -/
def answers (self : CircuitBreaker F) (calls : List (Call F)) : List (Answer F) :=
  outputs apply answer self calls

theorem answers_cons (self : CircuitBreaker F) (call : Call F) (calls : List (Call F)) :
    self.answers (call :: calls) = (self.answer call).toList ++ (self.apply call).answers calls :=
  rfl

/-- The time of an answer is the time of a call. -/
theorem now_mem_of_mem_answers {self : CircuitBreaker F} {calls : List (Call F)} {r : Answer F}
    (h : r ∈ self.answers calls) : r.now ∈ calls.filterMap Call.time := by
  induction calls generalizing self with
  | nil => cases h
  | cons call calls ih =>
      rw [answers_cons, List.mem_append] at h
      rcases h with h | h
      · cases call with
        | allowRequest now =>
            obtain rfl := List.mem_singleton.mp h
            exact List.mem_cons_self
        | _ => cases h
      · exact List.mem_filterMap.mpr <| (List.mem_filterMap.mp (ih h)).imp fun _ hcall ↦
          ⟨List.mem_cons_of_mem call hcall.1, hcall.2⟩

/-! ## An open circuit -/

omit [DecidableLE F] in
/-- A report that opens the circuit sets the time of it. -/
theorem Turns.opened_at_of_opens {cb cb' : CircuitBreaker F} {t : F} {admitted : Bool}
    (h : Turns cb (.recordFailure t) admitted cb') (hstate : cb.state ≠ .open_)
    (hopen : cb'.state = .open_) : cb'.opened_at = t := by
  cases h with
  | trips | reopens => rfl
  | fails hclosed => cases hclosed.symm.trans hopen
  | failsLate hopen' => exact absurd hopen' hstate

/-- An open circuit refuses until the recovery timeout is over, whatever is reported. -/
theorem refused_of_open {self : CircuitBreaker F} (hopen : self.state = .open_)
    {calls : List (Call F)} (hreset : .reset ∉ calls)
    (hearly : ∀ now, .allowRequest now ∈ calls →
      ¬ self.config.recovery_timeout_s ≤ now - self.opened_at) :
    ∀ r ∈ self.answers calls, r.granted = false := by
  induction calls with
  | nil => exact List.forall_mem_nil _
  | cons call calls ih =>
      have hrest : self.apply call = self := by
        have hturns := turns self call
        generalize self.admits call = admitted, self.apply call = cb at hturns
        cases hturns with
        | refuse | succeedsLate | failsLate => rfl
        | recover _ ht => exact absurd ht (hearly _ List.mem_cons_self)
        | resets => exact absurd List.mem_cons_self hreset
        | pass h | trial h | exhausted h | succeeds h | counts h | closes h | fails h | trips h
        | reopens h => cases h.symm.trans hopen
      intro r hr
      rw [answers_cons, hrest, List.mem_append] at hr
      rcases hr with hr | hr
      · cases call with
        | allowRequest now =>
            obtain rfl := List.mem_singleton.mp hr
            simp only [allowRequest, hopen, ge_iff_le, if_neg (hearly now List.mem_cons_self)]
        | _ => cases hr
      · exact ih (fun hmem ↦ hreset (List.mem_cons_of_mem call hmem))
          (fun now hnow ↦ hearly now (List.mem_cons_of_mem call hnow)) r hr

/-! ## Load -/

variable {K : Type u} [Field K] [LinearOrder K] [FloorSemiring K]

/-- The breaker `cb` has admitted `n` requests since `a`, and it is `t` now. -/
structure Load (config : CircuitBreakerConfig K) (a : K) (cb : CircuitBreaker K) (n : ℕ) (t : K) :
    Prop where
  config_eq : cb.config = config
  started : n = 0 ∨ a ≤ t
  closed : cb.state = .closed → n ≤ config.trials * (config.timeouts a t + 1)
  open_ : cb.state = .open_ → (n = 0 ∨ a ≤ cb.opened_at) ∧ cb.opened_at ≤ t ∧
    n ≤ config.trials * (config.timeouts a cb.opened_at + 1)
  halfOpen : cb.state = .halfOpen → cb.half_open_requests.toNat ≤ config.trials ∧
    n ≤ config.trials * config.timeouts a t + cb.half_open_requests.toNat

namespace Load

variable {config : CircuitBreakerConfig K} {a : K} {cb : CircuitBreaker K} {n : ℕ} {t : K}

theorem of_closed (hstate : cb.state = .closed) (hconfig : cb.config = config)
    (hstarted : n = 0 ∨ a ≤ t) (hle : n ≤ config.trials * (config.timeouts a t + 1)) :
    Load config a cb n t where
  config_eq := hconfig
  started := hstarted
  closed _ := hle
  open_ h := by cases hstate.symm.trans h
  halfOpen h := by cases hstate.symm.trans h

theorem of_open (hstate : cb.state = .open_) (hconfig : cb.config = config)
    (hstarted : n = 0 ∨ a ≤ cb.opened_at) (ht : cb.opened_at ≤ t)
    (hle : n ≤ config.trials * (config.timeouts a cb.opened_at + 1)) : Load config a cb n t where
  config_eq := hconfig
  started := hstarted.imp_right fun h ↦ h.trans ht
  closed h := by cases hstate.symm.trans h
  open_ _ := ⟨hstarted, ht, hle⟩
  halfOpen h := by cases hstate.symm.trans h

theorem of_halfOpen (hstate : cb.state = .halfOpen) (hconfig : cb.config = config)
    (hstarted : n = 0 ∨ a ≤ t) (hrequests : cb.half_open_requests.toNat ≤ config.trials)
    (hle : n ≤ config.trials * config.timeouts a t + cb.half_open_requests.toNat) :
    Load config a cb n t where
  config_eq := hconfig
  started := hstarted
  closed h := by cases hstate.symm.trans h
  open_ h := by cases hstate.symm.trans h
  halfOpen _ := ⟨hrequests, hle⟩

variable [IsStrictOrderedRing K]

/-- In every state, the periods so far bound the load. -/
theorem le (hT : 0 < config.recovery_timeout_s) (h : Load config a cb n t) :
    n ≤ config.trials * (config.timeouts a t + 1) := by
  cases hstate : cb.state with
  | closed => exact h.closed hstate
  | open_ =>
      obtain ⟨-, ht, hle⟩ := h.open_ hstate
      refine hle.trans (Nat.mul_le_mul_left _ ?_)
      exact Nat.add_le_add_right (CircuitBreakerConfig.timeouts_mono hT a ht) 1
  | halfOpen =>
      obtain ⟨hrequests, hle⟩ := h.halfOpen hstate
      rw [Nat.mul_succ]
      exact hle.trans (Nat.add_le_add_left hrequests _)

/-- Time passes. -/
theorem later (hT : 0 < config.recovery_timeout_s) (h : Load config a cb n t) {t' : K}
    (ht : t ≤ t') : Load config a cb n t' := by
  have hmono := CircuitBreakerConfig.timeouts_mono hT a ht
  have hstarted := h.started.imp_right fun ha ↦ ha.trans ht
  cases hstate : cb.state with
  | closed =>
      refine .of_closed hstate h.config_eq hstarted ((h.closed hstate).trans ?_)
      exact Nat.mul_le_mul_left _ (Nat.add_le_add_right hmono 1)
  | open_ =>
      obtain ⟨hstarted, hopened, hle⟩ := h.open_ hstate
      exact .of_open hstate h.config_eq hstarted (hopened.trans ht) hle
  | halfOpen =>
      obtain ⟨hrequests, hle⟩ := h.halfOpen hstate
      refine .of_halfOpen hstate h.config_eq hstarted hrequests (hle.trans ?_)
      exact Nat.add_le_add_right (Nat.mul_le_mul_left _ hmono) _

/-- A request that does not find the circuit closed. -/
theorem request (hT : 0 < config.recovery_timeout_s) (h : Load config a cb n t) {admitted : Bool}
    {cb' : CircuitBreaker K} (hturns : Turns cb (.allowRequest t) admitted cb')
    (hclosed : a ≤ t → cb.state ≠ .closed) :
    Load config a cb' (n + if admitted = true ∧ a ≤ t then 1 else 0) t := by
  have hstarted : (n + if admitted = true ∧ a ≤ t then 1 else 0) = 0 ∨ a ≤ t := by
    by_cases ha : a ≤ t
    · exact .inr ha
    · rw [if_neg fun hand ↦ ha hand.2]
      exact .inl (h.started.resolve_right ha)
  have hone : (n + if admitted = true ∧ a ≤ t then 1 else 0) ≤ n + 1 := by
    split <;> omega
  cases hturns with
  | pass hstate =>
      rw [if_neg fun hand ↦ hclosed hand.2 hstate]
      exact h
  | recover hstate hwait =>
      obtain ⟨hstarted', -, hle⟩ := h.open_ hstate
      rw [h.config_eq] at hwait
      refine .of_halfOpen rfl h.config_eq hstarted (le_max_left 1 _) (hone.trans ?_)
      refine Nat.add_le_add_right ?_ 1
      rcases hstarted' with rfl | ha
      · exact Nat.zero_le _
      · exact hle.trans
          (Nat.mul_le_mul_left _ (CircuitBreakerConfig.timeouts_add_one_le hT ha hwait))
  | refuse | exhausted =>
      rw [if_neg fun hand ↦ Bool.false_ne_true hand.1]
      exact h
  | trial hstate hlt =>
      obtain ⟨-, hle⟩ := h.halfOpen hstate
      rw [h.config_eq, UInt32.lt_iff_toNat_lt] at hlt
      have hrequests := toNat_add_one hlt
      refine .of_halfOpen hstate h.config_eq hstarted ?_ (hone.trans ?_)
      · show (cb.half_open_requests + 1).toNat ≤ max 1 config.half_open_max_requests.toNat
        omega
      · show n + 1 ≤ config.trials * config.timeouts a t + (cb.half_open_requests + 1).toNat
        omega

/-- A report. -/
theorem report (hT : 0 < config.recovery_timeout_s) (h : Load config a cb n t) {call : Call K}
    {admitted : Bool} {cb' : CircuitBreaker K} (hturns : Turns cb call admitted cb')
    (hcall : call = .recordSuccess ∨ call = .recordFailure t) : Load config a cb' n t := by
  cases hturns with
  | succeeds hstate => exact .of_closed hstate h.config_eq h.started (h.closed hstate)
  | succeedsLate | failsLate => exact h
  | counts hstate =>
      obtain ⟨hrequests, hle⟩ := h.halfOpen hstate
      exact .of_halfOpen hstate h.config_eq h.started hrequests hle
  | closes => exact .of_closed rfl h.config_eq h.started (h.le hT)
  | fails hstate => exact .of_closed hstate h.config_eq h.started (h.closed hstate)
  | trips | reopens =>
      obtain hcall | hcall := hcall
      · cases hcall
      · cases hcall
        exact .of_open rfl h.config_eq h.started le_rfl (h.le hT)
  | pass | recover | refuse | trial | exhausted | resets =>
      rcases hcall with hcall | hcall <;> cases hcall

end Load

/-- The answer admits a request between the times `a` and `b`. -/
def Answer.AdmitsIn (a b : K) (r : Answer K) : Prop :=
  r.granted = true ∧ a ≤ r.now ∧ r.now ≤ b

instance (a b : K) (r : Answer K) : Decidable (r.AdmitsIn a b) := by
  unfold Answer.AdmitsIn
  infer_instance

omit [FloorSemiring K] in
/-- After the time `b`, no answer counts. -/
theorem countP_late (a : K) {b : K} (cb : CircuitBreaker K) {calls : List (Call K)}
    (hlate : ∀ t ∈ calls.filterMap Call.time, b < t) :
    (cb.answers calls).countP (fun r ↦ r.AdmitsIn a b) = 0 := by
  rw [List.countP_eq_zero]
  intro r hr hadmits
  exact absurd (of_decide_eq_true hadmits).2.2 (hlate _ (now_mem_of_mem_answers hr)).not_ge

omit [FloorSemiring K] in
theorem countP_answer {a b now : K} (cb : CircuitBreaker K) (hb : now ≤ b) :
    (cb.answer (.allowRequest now)).toList.countP (fun r ↦ r.AdmitsIn a b)
      = if cb.admits (.allowRequest now) = true ∧ a ≤ now then 1 else 0 := by
  rw [answer, Option.toList_some, List.countP_singleton]
  refine if_congr ?_ rfl rfl
  rw [decide_eq_true_iff]
  exact ⟨fun h ↦ ⟨h.1, h.2.1⟩, fun h ↦ ⟨h.1, h.2, hb⟩⟩

variable [IsStrictOrderedRing K]

/-- The load of a run, up to the time `b`. -/
theorem Load.run {config : CircuitBreakerConfig K} (hT : 0 < config.recovery_timeout_s) {a b : K}
    {calls : List (Call K)} (hreset : .reset ∉ calls)
    (htimes : (calls.filterMap Call.time).Pairwise (· ≤ ·)) {cb : CircuitBreaker K} {n : ℕ} {t : K}
    (h : Load config a cb n t) (ht : t ≤ b) (hnow : ∀ t' ∈ calls.filterMap Call.time, t ≤ t')
    (hspan : ∀ r ∈ cb.answers calls, a ≤ r.now → r.now ≤ b → r.found ≠ .closed) :
    n + (cb.answers calls).countP (fun r ↦ r.AdmitsIn a b)
      ≤ config.trials * (config.timeouts a b + 1) := by
  induction calls generalizing cb n t with
  | nil => exact (h.later hT ht).le hT
  | cons call calls ih =>
      have hreset' : .reset ∉ calls := fun hmem ↦ hreset (List.mem_cons_of_mem call hmem)
      have hturns := turns cb call
      rw [answers_cons] at hspan ⊢
      have hspan' := fun r hr ↦ hspan r (List.mem_append_right _ hr)
      cases call with
      | allowRequest now =>
          obtain ⟨hfirst, htimes'⟩ := List.pairwise_cons.mp htimes
          rcases lt_or_ge b now with hlate | hb
          · rw [← answers_cons, countP_late a cb]
            · exact (h.later hT ht).le hT
            · rintro t' ht'
              rcases List.mem_cons.mp ht' with rfl | ht'
              · exact hlate
              · exact hlate.trans_le (hfirst t' ht')
          · have hnext := (h.later hT (hnow now List.mem_cons_self)).request hT hturns
              fun ha ↦ hspan _ (List.mem_append_left _ List.mem_cons_self) ha hb
            have hrest := ih hreset' htimes' hnext hb hfirst hspan'
            rw [List.countP_append, countP_answer cb hb, ← Nat.add_assoc]
            exact hrest
      | recordSuccess => exact ih hreset' htimes (h.report hT hturns (.inl rfl)) ht hnow hspan'
      | recordFailure now =>
          obtain ⟨hfirst, htimes'⟩ := List.pairwise_cons.mp htimes
          rcases lt_or_ge b now with hlate | hb
          · have hcount := countP_late a (cb.apply (.recordFailure now))
              fun t' ht' ↦ hlate.trans_le (hfirst t' ht')
            exact (congrArg (n + ·) hcount).trans_le ((h.later hT ht).le hT)
          · have hnext := (h.later hT (hnow now List.mem_cons_self)).report hT hturns (.inr rfl)
            exact ih hreset' htimes' hnext hb hfirst hspan'
      | reset => exact absurd List.mem_cons_self hreset

/-- **The load in an outage.**  In a run without a reset, in which time does not go backwards:

- in a span of time in which no request finds the circuit closed, the requests admitted are
  at most those of one half-open period for each recovery timeout, and one period more;
- after the report that opens the circuit, every request is refused until the recovery timeout
  is over. -/
theorem outage_load {config : CircuitBreakerConfig K} (hT : 0 < config.recovery_timeout_s)
    {calls : List (Call K)} (hreset : .reset ∉ calls)
    (htimes : (calls.filterMap Call.time).Pairwise (· ≤ ·)) :
    (∀ a b, (∀ r ∈ (new config).answers calls, a ≤ r.now → r.now ≤ b → r.found ≠ .closed) →
      ((new config).answers calls).countP (fun r ↦ r.granted = true ∧ a ≤ r.now ∧ r.now ≤ b)
        ≤ max 1 config.half_open_max_requests.toNat
          * (⌊(b - a) / config.recovery_timeout_s⌋₊ + 1)) ∧
    ∀ before t wait, (before ++ .recordFailure t :: wait) <+: calls →
      ((new config).run before).state ≠ .open_ →
      (((new config).run before).recordFailure t).state = .open_ →
      (∀ now, .allowRequest now ∈ wait → ¬ config.recovery_timeout_s ≤ now - t) →
      ∀ r ∈ (((new config).run before).recordFailure t).answers wait, r.granted = false := by
  constructor
  · intro a b hspan
    obtain ⟨t, ht, hnow⟩ : ∃ t ≤ b, ∀ t' ∈ calls.filterMap Call.time, t ≤ t' := by
      cases hcalls : calls.filterMap Call.time with
      | nil => exact ⟨b, le_rfl, List.forall_mem_nil _⟩
      | cons first rest =>
          rw [hcalls] at htimes
          refine ⟨min first b, min_le_right first b, fun t' ht' ↦ ?_⟩
          rcases List.mem_cons.mp ht' with rfl | ht'
          · exact min_le_left _ b
          · exact (min_le_left first b).trans ((List.pairwise_cons.mp htimes).1 t' ht')
    have hstart : Load config a (new config) 0 t := .of_closed rfl rfl (.inl rfl) (Nat.zero_le _)
    have hload := hstart.run hT hreset htimes ht hnow hspan
    rw [Nat.zero_add] at hload
    exact hload
  · rintro before t wait ⟨rest, rfl⟩ hstate hopen hearly
    have hturns := turns ((new config).run before) (.recordFailure t)
    have hconfig : (((new config).run before).recordFailure t).config = config :=
      hturns.config.trans (config_run (new config) before)
    have hopened : (((new config).run before).recordFailure t).opened_at = t :=
      hturns.opened_at_of_opens hstate hopen
    refine refused_of_open hopen (fun hmem ↦ hreset ?_) fun now hnow ↦ ?_
    · exact List.mem_append_left _ (List.mem_append_right _ (List.mem_cons_of_mem _ hmem))
    · rw [hconfig, hopened]
      exact hearly now hnow

/-- Trials 1 second apart, of which the first fails. -/
theorem outage_load_rat :
    let calls : List (Call ℚ) := [.recordFailure 0, .allowRequest 1, .recordFailure 1,
      .allowRequest 2, .allowRequest 2, .allowRequest 2]
    ((new ⟨1, 1, 2⟩).answers calls).countP (fun r ↦ r.granted = true ∧ 1 ≤ r.now ∧ r.now ≤ 2)
      ≤ max 1 2 * (⌊((2 : ℚ) - 1) / 1⌋₊ + 1) := by
  intro calls
  have hT : (0 : ℚ) < (⟨1, 1, 2⟩ : CircuitBreakerConfig ℚ).recovery_timeout_s := one_pos
  have hreset : .reset ∉ calls := by simp [calls]
  exact (outage_load hT hreset (by decide +kernel)).1 1 2 (by decide +kernel)

end CircuitBreaker

end CloudGateway
