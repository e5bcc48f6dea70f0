import Mathlib.Order.Bounds.Basic
import CloudGateway.RateLimit.Purge

/-!
# The limiter grants as much as the limit allows

The limit is that no window of time holds more than `B + r (b - a)` grants.  There are many
ways to keep to it: a limiter could hold a token back now for a call that comes later.  None
of them grants more than the limiter does (`grants_greatest`), and the devices of a
`DeviceRateLimiter` each get that much, whatever the others ask for, with purges under a
threshold that fills a bucket anywhere in between (`answersTo_greatest`).
-/

universe u

namespace CloudGateway

open TokenBucket Unwinding

namespace RateLimiter

variable {K : Type u} [LinearOrder K]

/-! ## Windows -/

theorem grantsIn_reverse (a b : K) (log : List (K × Bool)) :
    grantsIn a b log.reverse = grantsIn a b log := by
  rw [grantsIn, takes, List.filter_reverse, List.map_reverse, List.countP_reverse]
  rfl

/-- The window from one grant to a later one holds the grants between them. -/
theorem length_between_le_grantsIn {t : K} {log : List (K × Bool)} {newer older : List K} {s : K}
    (hforward : (((t, true) :: log).map Prod.fst).Pairwise (· ≥ ·))
    (hlog : takes log = newer ++ s :: older) :
    s ≤ t ∧ newer.length + 2 ≤ grantsIn s t ((t, true) :: log) := by
  have hsub : (t :: takes log).Sublist (((t, true) :: log).map Prod.fst) :=
    (List.filter_sublist.map Prod.fst).cons_cons t
  have hpairwise : (t :: (newer ++ s :: older)).Pairwise (· ≥ ·) := by
    rw [← hlog]
    exact hforward.sublist hsub
  obtain ⟨hlast, hrest⟩ := List.pairwise_cons.mp hpairwise
  have hst : s ≤ t := hlast s (List.mem_append_right _ List.mem_cons_self)
  have hnewer : newer.countP (fun x ↦ decide (s ≤ x ∧ x ≤ t)) = newer.length := by
    refine List.countP_eq_length.mpr fun x hx ↦ decide_eq_true ⟨?_, ?_⟩
    · exact (List.pairwise_append.mp hrest).2.2 x hx s List.mem_cons_self
    · exact hlast x (List.mem_append_left _ hx)
  have htakes : takes ((t, true) :: log) = t :: (newer ++ s :: older) := congrArg (t :: ·) hlog
  refine ⟨hst, ?_⟩
  simp only [grantsIn, htakes, List.countP_cons, List.countP_append, hnewer, hst, le_refl,
    and_self, decide_true, if_true]
  omega

/-! ## The limit -/

variable [Field K]

/-- No window of time holds more grants than the limit. -/
def WithinLimit (config : RateLimiterConfig K) (log : List (K × Bool)) : Prop :=
  ∀ a b, a ≤ b → (grantsIn a b log : K) ≤ config.burst + config.requests_per_second * (b - a)

/-- What calls at the given times can be granted within the limit. -/
def grantable (config : RateLimiterConfig K) (times : List K) : Set ℕ :=
  {n | ∃ choice : List (K × Bool),
    choice.map Prod.fst = times ∧ WithinLimit config choice ∧ grants choice = n}

theorem WithinLimit.tail {config : RateLimiterConfig K} {x : K × Bool} {log : List (K × Bool)}
    (h : WithinLimit config (x :: log)) [IsStrictOrderedRing K] : WithinLimit config log := by
  intro a b hab
  refine le_trans (Nat.cast_le.mpr ?_) (h a b hab)
  rw [grantsIn_cons]
  exact Nat.le_add_right _ _

variable [IsStrictOrderedRing K] {config : RateLimiterConfig K}

/-- What keeps to the limit in each window takes no token that does not fit. -/
theorem WithinLimit.allowed {log : List (K × Bool)} (h : WithinLimit config log)
    (hforward : (log.map Prod.fst).Pairwise (· ≥ ·)) :
    Allowed config.burst config.requests_per_second log := by
  induction log with
  | nil => trivial
  | cons x log ih =>
      obtain ⟨t, take⟩ := x
      refine ⟨?_, ih h.tail (List.pairwise_cons.mp hforward).2⟩
      rintro rfl
      constructor
      · have hnow := h t t le_rfl
        rw [sub_self, mul_zero, add_zero, grantsIn_cons, if_pos ⟨rfl, le_rfl, le_rfl⟩] at hnow
        exact le_trans (Nat.one_le_cast.mpr (Nat.le_add_left 1 _)) hnow
      · refine fits_iff.mpr fun newer s older hlog ↦ ?_
        obtain ⟨hst, hcount⟩ := length_between_le_grantsIn hforward hlog
        refine le_trans ?_ (h s t hst)
        have hcast : (1 : K) + (newer.length + 1 : ℕ) = (newer.length + 2 : ℕ) := by
          push_cast
          ring
        rw [hcast]
        exact Nat.cast_le.mpr hcount

/-! ## The limiter -/

/-- A limiter takes each token that fits. -/
theorem Serves.greedy {created : K} (hr : 0 ≤ config.requests_per_second)
    {log : List (K × Bool)} {l : RateLimiter K} (h : Serves (new config created) log l)
    (hforward : Forward created log) : Greedy config.burst config.requests_per_second log := by
  induction log generalizing l with
  | nil => trivial
  | cons x log ih =>
      obtain ⟨t, granted⟩ := x
      have hsplit : Serves (new config created) ([(t, granted)] ++ log) l := h
      obtain ⟨l', h'⟩ := hsplit.suffix
      exact ⟨h.granted_iff hr hforward, ih h' (forward_cons.mp hforward).2.2⟩

omit [IsStrictOrderedRing K] in
theorem times_serve (l : RateLimiter K) (times : List K) :
    (serve l times).1.map Prod.fst = times.reverse := by
  induction times using List.reverseRecOn with
  | nil => rfl
  | append_singleton times t ih => rw [serve_concat, List.map_cons, ih, List.reverse_concat]

omit [Field K] [IsStrictOrderedRing K] in
/-- A clock that does not go backwards, read off the newest call first. -/
theorem forward_of_times {created : K} {log : List (K × Bool)} {times : List K}
    (htimes : log.map Prod.fst = times.reverse) (hforward : (created :: times).Pairwise (· ≤ ·)) :
    Forward created log := by
  rw [Forward, htimes, ← List.reverse_cons, List.pairwise_reverse]
  exact hforward

omit [Field K] [IsStrictOrderedRing K] in
theorem Forward.times {created : K} {log : List (K × Bool)} (h : Forward created log) :
    (log.map Prod.fst).Pairwise (· ≥ ·) :=
  (List.pairwise_append.mp h).1

/-- **Optimality of the token bucket.**  With a clock that does not go backwards, a limiter
grants the most of what the calls made of it can be granted within the limit. -/
theorem grants_greatest {created : K} (hr : 0 ≤ config.requests_per_second) {times : List K}
    (hforward : (created :: times).Pairwise (· ≤ ·)) :
    IsGreatest (grantable config times) (grants (serve (new config created) times).1) := by
  have htimes := times_serve (new config created) times
  have hserves := serves_serve (new config created) times
  have hclock := forward_of_times htimes hforward
  constructor
  · refine ⟨(serve (new config created) times).1.reverse, ?_, ?_, ?_⟩
    · rw [List.map_reverse, htimes, List.reverse_reverse]
    · intro a b hab
      rw [grantsIn_reverse]
      exact hserves.grantsIn_le hr hclock hab
    · rw [grants, List.countP_reverse]
      rfl
  · rintro n ⟨choice, hchoice, hlimit, rfl⟩
    have hreverse : choice.reverse.map Prod.fst
        = (serve (new config created) times).1.map Prod.fst := by
      rw [htimes, List.map_reverse, hchoice]
    have hwithin : WithinLimit config choice.reverse := by
      intro a b hab
      rw [grantsIn_reverse]
      exact hlimit a b hab
    have hsorted := hclock.times
    have hallowed := hwithin.allowed (by rw [hreverse]; exact hsorted)
    have hle := (hserves.greedy hr hclock).le hr hallowed hreverse hsorted
    rw [List.countP_reverse] at hle
    exact hle

end RateLimiter

namespace DeviceRateLimiter

open RateLimiter

variable {K : Type u}

/-- The time of a request of a device. -/
def Op.requestTime (d : UInt64) : Op K → Option K
  | .tryAcquire device_id now => if device_id = d then some now else none
  | _ => none

/-- The times of the requests of a device. -/
def requestTimes (d : UInt64) (ops : List (Op K)) : List K := ops.filterMap (Op.requestTime d)

theorem requestTimes_tryAcquire_self (d : UInt64) (now : K) (ops : List (Op K)) :
    requestTimes d (.tryAcquire d now :: ops) = now :: requestTimes d ops :=
  List.filterMap_cons_some (if_pos rfl)

theorem requestTimes_tryAcquire_of_ne {device_id d : UInt64} (h : device_id ≠ d) (now : K)
    (ops : List (Op K)) :
    requestTimes d (.tryAcquire device_id now :: ops) = requestTimes d ops :=
  List.filterMap_cons_none (if_neg h)

/-- The requests of a device, among the requests of all. -/
theorem filter_concerns (d : UInt64) (ops : List (Op K)) :
    (ops.filter Op.isAcquire).filter (Op.concerns d)
      = (requestTimes d ops).map (.tryAcquire d) := by
  induction ops with
  | nil => rfl
  | cons op ops ih =>
      cases op with
      | tryAcquire device_id now =>
          rw [List.filter_cons_of_pos rfl]
          by_cases hd : device_id = d
          · subst hd
            have hmine : (Op.tryAcquire device_id now).concerns device_id = true :=
              decide_eq_true rfl
            rw [List.filter_cons_of_pos hmine, ih, requestTimes_tryAcquire_self, List.map_cons]
          · have hother : ¬ (Op.tryAcquire device_id now).concerns d = true :=
              mt of_decide_eq_true hd
            rw [List.filter_cons_of_neg hother, ih, requestTimes_tryAcquire_of_ne hd]
      | removeDevice device_id =>
          rw [List.filter_cons_of_neg Bool.false_ne_true, ih]
          rfl
      | purgeInactive now s =>
          rw [List.filter_cons_of_neg Bool.false_ne_true, ih]
          rfl

theorem requestTimes_sublist (d : UInt64) (ops : List (Op K)) :
    (requestTimes d ops).Sublist (ops.filterMap Op.time) := by
  induction ops with
  | nil => exact .slnil
  | cons op ops ih =>
      cases op with
      | tryAcquire device_id now =>
          change (requestTimes d _).Sublist (now :: ops.filterMap Op.time)
          by_cases hd : device_id = d
          · subst hd
            rw [requestTimes_tryAcquire_self]
            exact ih.cons_cons now
          · rw [requestTimes_tryAcquire_of_ne hd]
            exact ih.cons now
      | removeDevice device_id => exact ih
      | purgeInactive now s => exact ih.cons now

variable [LinearOrder K] [Field K] [IsStrictOrderedRing K] {config : RateLimiterConfig K}

/-- The answers of a run, without the purges in it. -/
theorem answers_filter_isAcquire {s : K} {ops : List (Op K)} (hrun : PurgedRun s ops)
    (hr : 0 ≤ config.requests_per_second)
    (hs : (∃ op ∈ ops, op.isAcquire = false) →
      config.burst ≤ s * config.requests_per_second) :
    (new config).answers ops = (new config).answers (ops.filter Op.isAcquire) := by
  by_cases hpurge : ∃ op ∈ ops, op.isAcquire = false
  · obtain ⟨t, ht⟩ : ∃ t, ∀ t' ∈ ops.filterMap Op.time, t ≤ t' := by
      cases htimes : ops.filterMap Op.time with
      | nil => exact ⟨0, fun _ h ↦ (List.not_mem_nil h).elim⟩
      | cons t times =>
          have hsorted := hrun.times
          rw [htimes] at hsorted
          exact ⟨t, List.forall_mem_cons.mpr ⟨le_rfl, (List.pairwise_cons.mp hsorted).1⟩⟩
    exact Purged.answers hrun (.start config t) hr (hs hpurge) ht
  · have hall : ops.filter Op.isAcquire = ops :=
      List.filter_eq_self.mpr fun op hop ↦ by
        rw [← Bool.not_eq_false]
        exact fun h ↦ hpurge ⟨op, hop, h⟩
    rw [hall]

/-- A device is answered as the limiter of its own would. -/
theorem count_answersTo {s : K} {ops : List (Op K)} (hrun : PurgedRun s ops)
    (hr : 0 ≤ config.requests_per_second)
    (hs : (∃ op ∈ ops, op.isAcquire = false) →
      config.burst ≤ s * config.requests_per_second) (d : UInt64) {created : K}
    (hcreated : ∀ now ∈ (requestTimes d ops).head?, now = created) :
    (answersTo d (new config) ops).count true
      = grants (serve (RateLimiter.new config created) (requestTimes d ops)).1 := by
  have hown : answersTo d (new config) (ops.filter Op.isAcquire)
      = answersTo d (new config) ((requestTimes d ops).map (.tryAcquire d)) := by
    rw [← filter_concerns, answersTo, answersTo, DeviceRateLimiter.answers,
      DeviceRateLimiter.answers, filterMap_outputs, filterMap_outputs]
    exact (bucket_unwinds d).outputs_filter rfl _
  have hfirst : ∀ now ∈ (requestTimes d ops).head?,
      (new config).limiterFor d now = RateLimiter.new config created := by
    intro now hnow
    rw [hcreated now hnow]
    rfl
  rw [answersTo, answers_filter_isAcquire hrun hr hs, ← answersTo, hown]
  exact (serve_of_acquires (new config) d hfirst).1

/-- **Optimality for each device.**  In a run of requests of any devices, with purges under a
threshold that fills a bucket anywhere in between, each device is granted the most of what
its own requests can be granted within the limit. -/
theorem answersTo_greatest {s : K} {ops : List (Op K)} (hrun : PurgedRun s ops)
    (hr : 0 ≤ config.requests_per_second)
    (hs : (∃ op ∈ ops, op.isAcquire = false) →
      config.burst ≤ s * config.requests_per_second) (d : UInt64) :
    IsGreatest (grantable config (requestTimes d ops))
      ((answersTo d (new config) ops).count true) := by
  have hsorted : (requestTimes d ops).Pairwise (· ≤ ·) :=
    hrun.times.sublist (requestTimes_sublist d ops)
  cases htimes : requestTimes d ops with
  | nil =>
      have hcreated : ∀ now ∈ (requestTimes d ops).head?, now = 0 := by
        rw [htimes]
        rintro _ ⟨⟩
      rw [count_answersTo hrun hr hs d hcreated, htimes]
      exact grants_greatest hr (List.pairwise_singleton _ _)
  | cons t times =>
      have hcreated : ∀ now ∈ (requestTimes d ops).head?, now = t := by
        rw [htimes]
        rintro now hnow
        exact (Option.some.inj hnow).symm
      rw [count_answersTo hrun hr hs d hcreated, htimes]
      rw [htimes] at hsorted
      refine grants_greatest hr (List.pairwise_cons.mpr ⟨?_, hsorted⟩)
      exact List.forall_mem_cons.mpr ⟨le_rfl, (List.pairwise_cons.mp hsorted).1⟩

/-- Two devices with a burst of 1, one of which asks three times, and a purge. -/
theorem answersTo_greatest_rat :
    let config : RateLimiterConfig ℚ := ⟨1, 1⟩
    let ops : List (Op ℚ) := [.tryAcquire 7 0, .tryAcquire 7 (1 / 2), .tryAcquire 8 (1 / 2),
      .purgeInactive 1 1, .tryAcquire 7 1]
    IsGreatest (grantable config (requestTimes 7 ops))
      ((answersTo 7 (new config) ops).count true) := by
  intro config ops
  refine answersTo_greatest (s := 1) ⟨?_, ?_⟩ (by decide +kernel) (fun _ ↦ by decide +kernel) 7
  · simp [ops, Op.AcquiresOrPurges]
  · decide +kernel

end DeviceRateLimiter

end CloudGateway
