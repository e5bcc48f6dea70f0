import CloudGateway.RateLimit.Exact
import CloudGateway.RateLimit.Isolation
import CloudGateway.RateLimit.Unordered

/-!
# When a purge is invisible

A purge drops the limiters that have been idle for the threshold, and a device that comes
back gets a full one.  If the threshold is long enough to fill a bucket, a dropped limiter
would have been full by then, so the purge is invisible; if it is not, a device that has
spent its burst gets a second one out of the purge (`purge_invisible_iff`).

The simulation keeps the device limiter that was purged beside the one that was not
(`Purged`): a missing limiter stands for any limiter that is full by now.
-/

universe u

namespace CloudGateway

open Unwinding

namespace RateLimiter

variable {K : Type u} [LinearOrder K]

/-- A clock that stands still has no moves. -/
theorem moves_replicate_append (t : K) (n : ℕ) (times : List K) :
    moves t (List.replicate n t ++ times) = moves t times := by
  induction n with
  | zero => rfl
  | succ n ih => rw [List.replicate_succ, List.cons_append, moves, if_neg (lt_irrefl t), ih]

/-! ## Full limiters -/

variable [Field K]

/-- A limiter whose refill at the time `now`, or later, is a full one. -/
def FullAt (now : K) (l : RateLimiter K) : Prop :=
  l.config.burst ≤ (now - l.last_update) * l.config.requests_per_second

theorem refill_new (config : RateLimiterConfig K) (now : K) :
    (new config now).refill now = new config now := by
  rw [new, refill, sub_self, max_self, zero_mul, add_zero, min_self]

variable [IsStrictOrderedRing K]

/-- A limiter that is full cannot be told from a new one. -/
theorem FullAt.refill {l : RateLimiter K} {now : K} (h : FullAt now l) (htokens : 0 ≤ l.tokens)
    (hnow : l.last_update ≤ now) : l.refill now = new l.config now := by
  have hfull : l.config.burst
      ≤ l.tokens + max (now - l.last_update) 0 * l.config.requests_per_second := by
    rw [max_eq_left (sub_nonneg.mpr hnow)]
    exact le_trans h (le_add_of_nonneg_left htokens)
  rw [RateLimiter.refill, new, min_eq_right hfull]

theorem FullAt.tryAcquire {l : RateLimiter K} {now : K} (h : FullAt now l)
    (htokens : 0 ≤ l.tokens) (hnow : l.last_update ≤ now) :
    l.tryAcquire now = (new l.config now).tryAcquire now := by
  rw [tryAcquire_eq, tryAcquire_eq, h.refill htokens hnow, refill_new]

theorem FullAt.mono {l : RateLimiter K} {now t : K} (h : FullAt now l)
    (hr : 0 ≤ l.config.requests_per_second) (ht : now ≤ t) : FullAt t l :=
  le_trans h (mul_le_mul_of_nonneg_right (sub_le_sub_right ht _) hr)

/-! ## Bursts -/

/-- A limiter grants a burst of calls at once, as long as it has the tokens. -/
theorem serve_burst {l : RateLimiter K} {n : ℕ} (htokens : (n : K) ≤ l.tokens)
    (hburst : l.tokens ≤ l.config.burst) :
    (serve l (List.replicate n l.last_update)).1 = List.replicate n (l.last_update, true) := by
  induction n generalizing l with
  | zero => rfl
  | succ n ih =>
      rw [Nat.cast_succ] at htokens
      have hn : (0 : K) ≤ n := Nat.cast_nonneg n
      have hrefill : (l.refill l.last_update).tokens = l.tokens := by
        rw [tokens_refill le_rfl, sub_self, zero_mul, add_zero, min_eq_left hburst]
      have hgranted : (l.tryAcquire l.last_update).1 = true := by
        rw [tryAcquire_fst_iff, hrefill]
        linarith
      have hleft : (l.tryAcquire l.last_update).2.tokens = l.tokens - 1 := by
        rw [tokens_of_granted l l.last_update hgranted, hrefill]
      have hrest := ih (l := (l.tryAcquire l.last_update).2) (by rw [hleft]; linarith)
        (by rw [hleft, config_tryAcquire]; linarith)
      rw [last_update_tryAcquire] at hrest
      rw [List.replicate_succ, serve_cons, hrest, hgranted, ← List.replicate_succ']

/-- What a new limiter grants to two bursts. -/
theorem grants_two_bursts_le {config : RateLimiterConfig K}
    (hr : 0 ≤ config.requests_per_second) (t : K) (n : ℕ) :
    (grants (serve (new config 0) (List.replicate n 0 ++ List.replicate n t)).1 : K)
      ≤ config.burst + config.requests_per_second * max t 0 := by
  have hlength : Spans.length (moves 0 (List.replicate n 0 ++ List.replicate n t))
      ≤ max t 0 := by
    rw [moves_replicate_append]
    cases n with
    | zero => exact le_max_right t 0
    | succ n =>
        have hstill : moves t (List.replicate n t) = [] := by
          have h := moves_replicate_append t n []
          rwa [List.append_nil] at h
        rw [List.replicate_succ, length_moves_cons, hstill, sub_zero]
        exact (add_zero _).le
  calc (grants (serve (new config 0) (List.replicate n 0 ++ List.replicate n t)).1 : K)
      ≤ config.burst + config.requests_per_second
          * Spans.length (moves 0 (List.replicate n 0 ++ List.replicate n t)) :=
        grants_serve_le (l := new config 0) hr (Nat.cast_nonneg _) _
    _ ≤ config.burst + config.requests_per_second * max t 0 := by gcongr

end RateLimiter

namespace DeviceRateLimiter

open RateLimiter

variable {K : Type u} [LinearOrder K]

/-! ## Runs with purges -/

/-- The call is one of `try_acquire`. -/
def Op.isAcquire : Op K → Bool
  | .tryAcquire _ _ => true
  | _ => false

/-- The time of a call, if it has one. -/
def Op.time : Op K → Option K
  | .tryAcquire _ now => some now
  | .removeDevice _ => none
  | .purgeInactive now _ => some now

/-- The call is one of `try_acquire`, or a purge with the threshold `s`. -/
def Op.AcquiresOrPurges (s : K) : Op K → Prop
  | .tryAcquire _ _ => True
  | .removeDevice _ => False
  | .purgeInactive _ inactive_threshold_s => inactive_threshold_s = s

/-- A run of `try_acquire` calls with purges inserted anywhere, at times that do not go
backwards. -/
structure PurgedRun (s : K) (ops : List (Op K)) : Prop where
  calls : ∀ op ∈ ops, op.AcquiresOrPurges s
  times : (ops.filterMap Op.time).Pairwise (· ≤ ·)

theorem PurgedRun.tail {s : K} {op : Op K} {ops : List (Op K)} (h : PurgedRun s (op :: ops)) :
    PurgedRun s ops where
  calls op' hop' := h.calls op' (List.mem_cons_of_mem _ hop')
  times := h.times.sublist ((List.sublist_cons_self op ops).filterMap Op.time)

/-- The first call of a run is the earliest. -/
theorem PurgedRun.head_le {s t : K} {op : Op K} {ops : List (Op K)}
    (h : PurgedRun s (op :: ops)) (ht : op.time = some t) :
    ∀ t' ∈ ops.filterMap Op.time, t ≤ t' := by
  have htimes := h.times
  rw [List.filterMap_cons_some ht] at htimes
  exact (List.pairwise_cons.mp htimes).1

/-! ## The simulation -/

variable [Field K]

/-- A device limiter that was purged, beside one that was not, at the time `now`: a limiter
that is missing is full by now. -/
structure Purged (now : K) (purged kept : DeviceRateLimiter K) : Prop where
  config : purged.config = kept.config
  bucket : ∀ d, purged.limiters.lookup d = kept.limiters.lookup d ∨
    purged.limiters.lookup d = none ∧
      ∀ l, kept.limiters.lookup d = some l → l.FullAt now
  kept : ∀ d l, kept.limiters.lookup d = some l →
    l.config = kept.config ∧ 0 ≤ l.tokens ∧ l.last_update ≤ now

/-- The limiter that a call of a device uses. -/
def limiterFor (self : DeviceRateLimiter K) (d : UInt64) (now : K) : RateLimiter K :=
  (self.limiters.lookup d).getD (.new self.config now)

theorem fst_tryAcquire (self : DeviceRateLimiter K) (d : UInt64) (now : K) :
    (self.tryAcquire d now).1 = ((self.limiterFor d now).tryAcquire now).1 := rfl

theorem lookup_tryAcquire_self (self : DeviceRateLimiter K) (d : UInt64) (now : K) :
    (self.tryAcquire d now).2.limiters.lookup d
      = some ((self.limiterFor d now).tryAcquire now).2 :=
  congrArg Prod.snd (bucket_tryAcquire_self self d now)

theorem lookup_tryAcquire_of_ne (self : DeviceRateLimiter K) {device_id d : UInt64} (now : K)
    (h : device_id ≠ d) :
    (self.tryAcquire device_id now).2.limiters.lookup d = self.limiters.lookup d :=
  congrArg Prod.snd (bucket_tryAcquire_of_ne self device_id d now h)

theorem lookup_purgeInactive (self : DeviceRateLimiter K) (d : UInt64) (now s : K) :
    (self.purgeInactive now s).2.limiters.lookup d
      = (self.limiters.lookup d).filter fun v ↦ now - v.last_update < s :=
  congrArg Prod.snd (bucket_purgeInactive self d now s)

/-- No call changes the configuration. -/
theorem config_run (self : DeviceRateLimiter K) (ops : List (Op K)) :
    (self.run ops).config = self.config := by
  induction ops generalizing self with
  | nil => rfl
  | cons op ops ih =>
      refine (ih (self.apply op)).trans ?_
      cases op <;> rfl

variable [IsStrictOrderedRing K]

namespace Purged

variable {now t s : K} {purged kept : DeviceRateLimiter K}

omit [IsStrictOrderedRing K] in
theorem start (config : RateLimiterConfig K) (now : K) :
    Purged now (.new config) (.new config) where
  config := rfl
  bucket _ := .inl rfl
  kept _ _ h := by cases h

/-- Time passes. -/
theorem mono (h : Purged now purged kept) (hr : 0 ≤ kept.config.requests_per_second)
    (ht : now ≤ t) : Purged t purged kept where
  config := h.config
  bucket d := by
    rcases h.bucket d with heq | ⟨hnone, hfull⟩
    · exact .inl heq
    · refine .inr ⟨hnone, fun l hl ↦ (hfull l hl).mono ?_ ht⟩
      rw [(h.kept d l hl).1]
      exact hr
  kept d l hl := by
    obtain ⟨hconfig, htokens, hupdate⟩ := h.kept d l hl
    exact ⟨hconfig, htokens, le_trans hupdate ht⟩

/-- A call finds the same limiter, or a new one for one that is full. -/
theorem tryAcquire_limiterFor (h : Purged now purged kept) (d : UInt64) :
    (purged.limiterFor d now).tryAcquire now = (kept.limiterFor d now).tryAcquire now := by
  rw [limiterFor, limiterFor, h.config]
  rcases h.bucket d with heq | ⟨hnone, hfull⟩
  · rw [heq]
  · rw [hnone]
    cases hkept : kept.limiters.lookup d with
    | none => rfl
    | some l =>
        obtain ⟨hconfig, htokens, hupdate⟩ := h.kept d l hkept
        rw [Option.getD_none, Option.getD_some, (hfull l hkept).tryAcquire htokens hupdate,
          hconfig]

theorem limiterFor_nonneg (h : Purged now purged kept) (d : UInt64) :
    (kept.limiterFor d now).config = kept.config ∧ 0 ≤ (kept.limiterFor d now).tokens := by
  rw [limiterFor]
  cases hkept : kept.limiters.lookup d with
  | none => exact ⟨rfl, Nat.cast_nonneg _⟩
  | some l =>
      obtain ⟨hconfig, htokens, -⟩ := h.kept d l hkept
      exact ⟨hconfig, htokens⟩

/-- A call of a device keeps the two in step. -/
theorem acquire (h : Purged now purged kept) (hr : 0 ≤ kept.config.requests_per_second)
    (device_id : UInt64) :
    Purged now (purged.tryAcquire device_id now).2 (kept.tryAcquire device_id now).2 where
  config := h.config
  bucket d := by
    by_cases hd : device_id = d
    · subst hd
      rw [lookup_tryAcquire_self, lookup_tryAcquire_self, h.tryAcquire_limiterFor]
      exact .inl rfl
    · rw [lookup_tryAcquire_of_ne _ _ hd, lookup_tryAcquire_of_ne _ _ hd]
      exact h.bucket d
  kept d l hl := by
    by_cases hd : device_id = d
    · subst hd
      obtain ⟨hconfig, htokens⟩ := h.limiterFor_nonneg device_id
      rw [lookup_tryAcquire_self] at hl
      obtain rfl := Option.some.inj hl
      refine ⟨(config_tryAcquire _ _).trans hconfig, ?_, (last_update_tryAcquire _ _).le⟩
      rw [← hconfig] at hr
      exact tokens_tryAcquire_nonneg hr htokens now
    · rw [lookup_tryAcquire_of_ne _ _ hd] at hl
      exact h.kept d l hl

/-- A purge drops limiters that are full by now. -/
theorem purge (h : Purged now purged kept) (hr : 0 ≤ kept.config.requests_per_second)
    (hs : kept.config.burst ≤ s * kept.config.requests_per_second) :
    Purged now (purged.purgeInactive now s).2 kept where
  config := h.config
  bucket d := by
    rw [lookup_purgeInactive]
    rcases h.bucket d with heq | ⟨hnone, hfull⟩
    · rw [heq]
      cases hkept : kept.limiters.lookup d with
      | none => exact .inl rfl
      | some l =>
          by_cases hactive : now - l.last_update < s
          · exact .inl (Option.filter_some_pos (decide_eq_true hactive))
          · refine .inr ⟨Option.filter_some_neg (by simpa using hactive), ?_⟩
            intro l' hl'
            obtain rfl := Option.some.inj hl'
            rw [FullAt, (h.kept d l hkept).1]
            exact le_trans hs (mul_le_mul_of_nonneg_right (not_lt.mp hactive) hr)
    · rw [hnone]
      exact .inr ⟨rfl, hfull⟩
  kept := h.kept

/-- **The simulation.**  What a purged device limiter answers, one that is not purged
answers too. -/
theorem answers {ops : List (Op K)} (hrun : PurgedRun s ops) (h : Purged now purged kept)
    (hr : 0 ≤ kept.config.requests_per_second)
    (hs : kept.config.burst ≤ s * kept.config.requests_per_second)
    (hfrom : ∀ t ∈ ops.filterMap Op.time, now ≤ t) :
    purged.answers ops = kept.answers (ops.filter Op.isAcquire) := by
  induction ops generalizing now purged kept with
  | nil => rfl
  | cons op ops ih =>
      have hcall := hrun.calls op List.mem_cons_self
      cases op with
      | tryAcquire d t =>
          have hnow := h.mono hr (hfrom t List.mem_cons_self)
          have hsame : (purged.tryAcquire d t).1 = (kept.tryAcquire d t).1 := by
            rw [fst_tryAcquire, fst_tryAcquire, hnow.tryAcquire_limiterFor]
          have hrest := ih hrun.tail (hnow.acquire hr d) hr hs (hrun.head_le rfl)
          rw [List.filter_cons_of_pos rfl]
          show (d, (purged.tryAcquire d t).1) :: _ = (d, (kept.tryAcquire d t).1) :: _
          rw [hsame]
          exact congrArg _ hrest
      | removeDevice d => exact hcall.elim
      | purgeInactive t s' =>
          obtain rfl : s' = s := hcall
          have hnow := h.mono hr (hfrom t List.mem_cons_self)
          rw [List.filter_cons_of_neg Bool.false_ne_true]
          exact ih hrun.tail (hnow.purge hr hs) hr hs (hrun.head_le rfl)

end Purged

/-! ## Two bursts -/

section Bursts

variable (self : DeviceRateLimiter K) (d : UInt64)

omit [IsStrictOrderedRing K] in
theorem answersTo_append (ops ops' : List (Op K)) :
    answersTo d self (ops ++ ops') = answersTo d self ops ++ answersTo d (self.run ops) ops' := by
  rw [answersTo, DeviceRateLimiter.answers, outputs_append, List.filterMap_append]
  rfl

omit [IsStrictOrderedRing K] in
/-- A device limiter that only one device calls is the limiter of that device. -/
theorem serve_of_acquires {l : RateLimiter K} {times : List K}
    (h : ∀ now ∈ times.head?, self.limiterFor d now = l) :
    (answersTo d self (times.map (.tryAcquire d))).count true = grants (serve l times).1 ∧
      (times ≠ [] → (self.run (times.map (.tryAcquire d))).limiters.lookup d
        = some (serve l times).2) := by
  induction times generalizing self l with
  | nil => exact ⟨rfl, fun hne ↦ absurd rfl hne⟩
  | cons now times ih =>
      have hl := h now rfl
      have hlookup := lookup_tryAcquire_self self d now
      rw [hl] at hlookup
      have hnext : ∀ now' ∈ times.head?,
          (self.tryAcquire d now).2.limiterFor d now' = (l.tryAcquire now).2 := by
        intro now' _
        rw [limiterFor, hlookup, Option.getD_some]
      obtain ⟨hcount, hrun⟩ := ih (self.tryAcquire d now).2 hnext
      have hanswer : (self.tryAcquire d now).1 = (l.tryAcquire now).1 := by
        rw [fst_tryAcquire, hl]
      have hcons : answersTo d self ((now :: times).map (.tryAcquire d))
          = (l.tryAcquire now).1
            :: answersTo d (self.tryAcquire d now).2 (times.map (.tryAcquire d)) := by
        rw [← hanswer]
        exact List.filterMap_cons_some (if_pos rfl)
      constructor
      · rw [hcons, List.count_cons, hcount, serve_cons, grants, grants, List.countP_append,
          List.countP_singleton]
        simp only [beq_true]
      · intro _
        rw [serve_cons]
        cases times with
        | nil => exact hlookup
        | cons t times => exact hrun (List.cons_ne_nil t times)

end Bursts

/-- Two bursts of one device, with a purge between them as soon as the threshold allows. -/
def purgedBursts (n : ℕ) (s : K) : List (Op K) :=
  (List.replicate n 0).map (.tryAcquire 0) ++
    .purgeInactive (max s 0) s :: (List.replicate n (max s 0)).map (.tryAcquire 0)

omit [IsStrictOrderedRing K] in
theorem purgedRun_purgedBursts (n : ℕ) (s : K) : PurgedRun s (purgedBursts n s) where
  calls op hop := by
    rcases List.mem_append.mp hop with hop | hop
    · obtain ⟨t, -, rfl⟩ := List.mem_map.mp hop
      trivial
    · rcases List.mem_cons.mp hop with rfl | hop
      · rfl
      · obtain ⟨t, -, rfl⟩ := List.mem_map.mp hop
        trivial
  times := by
    have htime : ∀ l : List K, (l.map (Op.tryAcquire 0)).filterMap Op.time = l := by
      intro l
      rw [List.filterMap_map]
      exact List.filterMap_some
    have hpurge : (Op.purgeInactive (max s 0) s).time = some (max s 0) := rfl
    rw [purgedBursts, List.filterMap_append, List.filterMap_cons_some hpurge, htime, htime,
      List.pairwise_append]
    refine ⟨List.pairwise_replicate.mpr (.inr le_rfl), ?_, ?_⟩
    · rw [← List.replicate_succ]
      exact List.pairwise_replicate.mpr (.inr le_rfl)
    · intro a ha b hb
      rw [List.eq_of_mem_replicate ha]
      rw [← List.replicate_succ] at hb
      rw [List.eq_of_mem_replicate hb]
      exact le_max_right s 0

/-- A burst granted to a device without a limiter. -/
theorem count_burst {config : RateLimiterConfig K} (self : DeviceRateLimiter K)
    (hconfig : self.config = config) (hnone : self.limiters.lookup 0 = none) (t : K) :
    (answersTo 0 self ((List.replicate config.burst_size.toNat t).map (.tryAcquire 0))).count true
      = config.burst_size.toNat := by
  have hl : ∀ now ∈ (List.replicate config.burst_size.toNat t).head?,
      self.limiterFor 0 now = RateLimiter.new config t := by
    intro now hnow
    rw [limiterFor, hnone, hconfig, Option.getD_none]
    rw [List.eq_of_mem_replicate (List.mem_of_mem_head? hnow)]
  rw [(serve_of_acquires self 0 hl).1]
  have hserve := serve_burst (l := RateLimiter.new config t) (n := config.burst_size.toNat)
    le_rfl le_rfl
  change (serve (RateLimiter.new config t) (List.replicate config.burst_size.toNat t)).1 = _
    at hserve
  rw [hserve, grants, List.countP_replicate]
  rfl

/-- With the purge, both bursts are granted. -/
theorem count_purgedBursts {config : RateLimiterConfig K} (hB : 1 ≤ config.burst_size) (s : K) :
    (answersTo 0 (new config) (purgedBursts config.burst_size.toNat s)).count true
      = config.burst_size.toNat + config.burst_size.toNat := by
  have hpos : List.replicate config.burst_size.toNat (0 : K) ≠ [] := by
    rw [Ne, List.replicate_eq_nil_iff]
    exact Nat.one_le_iff_ne_zero.mp hB
  have hfirst : ∀ now ∈ (List.replicate config.burst_size.toNat (0 : K)).head?,
      (new config).limiterFor 0 now = RateLimiter.new config 0 := by
    intro now hnow
    rw [List.eq_of_mem_replicate (List.mem_of_mem_head? hnow)]
    rfl
  have hkept := (serve_of_acquires (new config) 0 hfirst).2 hpos
  have hupdate : (serve (RateLimiter.new config 0)
      (List.replicate config.burst_size.toNat 0)).2.last_update = 0 := by
    rw [(serves_serve _ _).last_update]
    have hserve := serve_burst (l := RateLimiter.new config (0 : K))
      (n := config.burst_size.toNat) le_rfl le_rfl
    change (serve (RateLimiter.new config 0) (List.replicate config.burst_size.toNat 0)).1 = _
      at hserve
    rw [hserve]
    cases config.burst_size.toNat <;> rfl
  have hpurged : ((run (new config)
      ((List.replicate config.burst_size.toNat 0).map (.tryAcquire 0))).purgeInactive
        (max s 0) s).2.limiters.lookup 0 = none := by
    rw [lookup_purgeInactive, hkept]
    refine Option.filter_some_neg (decide_eq_false ?_)
    rw [hupdate, sub_zero]
    exact not_lt.mpr (le_max_left s 0)
  have hconfig := config_run (new config)
    ((List.replicate config.burst_size.toNat (0 : K)).map (.tryAcquire 0))
  rw [purgedBursts, answersTo_append, List.count_append]
  congr 1
  · exact count_burst (new config) rfl rfl 0
  · exact count_burst ((run (new config) _).purgeInactive (max s 0) s).2 hconfig hpurged _

/-- Without the purge, the second burst is cut short. -/
theorem count_purgedBursts_filter {config : RateLimiterConfig K}
    (hB : 1 ≤ config.burst_size) (hr : 0 ≤ config.requests_per_second) {s : K}
    (hs : s * config.requests_per_second < config.burst) :
    (answersTo 0 (new config) ((purgedBursts config.burst_size.toNat s).filter
      Op.isAcquire)).count true < config.burst_size.toNat + config.burst_size.toNat := by
  have hfilter : (purgedBursts config.burst_size.toNat s).filter Op.isAcquire
      = (List.replicate config.burst_size.toNat 0
        ++ List.replicate config.burst_size.toNat (max s 0)).map (.tryAcquire 0) := by
    have hall : ∀ l : List K, (l.map (Op.tryAcquire 0)).filter Op.isAcquire
        = l.map (.tryAcquire 0) := by
      intro l
      refine List.filter_eq_self.mpr fun op hop ↦ ?_
      obtain ⟨t, -, rfl⟩ := List.mem_map.mp hop
      rfl
    rw [purgedBursts, List.filter_append, List.filter_cons_of_neg Bool.false_ne_true, hall,
      hall, List.map_append]
  have hfirst : ∀ now ∈ (List.replicate config.burst_size.toNat (0 : K)
      ++ List.replicate config.burst_size.toNat (max s 0)).head?,
      (new config).limiterFor 0 now = RateLimiter.new config 0 := by
    obtain ⟨n, hn⟩ := Nat.exists_eq_succ_of_ne_zero (Nat.one_le_iff_ne_zero.mp hB)
    intro now hnow
    change config.burst_size.toNat = n + 1 at hn
    rw [hn, List.replicate_succ] at hnow
    obtain rfl : 0 = now := Option.some.inj hnow
    rfl
  have hburst : (0 : K) < config.burst := Nat.cast_pos.mpr hB
  have hgain : config.requests_per_second * max (max s 0) 0 < config.burst := by
    rw [max_eq_left (le_max_right s 0), mul_max_of_nonneg _ _ hr, mul_zero, mul_comm]
    exact max_lt hs hburst
  have hgrants := grants_two_bursts_le hr (max s 0) config.burst_size.toNat
  have hlt := lt_of_le_of_lt hgrants (add_lt_add_right hgain _)
  rw [hfilter, (serve_of_acquires (new config) 0 hfirst).1]
  rw [RateLimiterConfig.burst, ← Nat.cast_add] at hlt
  exact Nat.cast_lt.mp hlt

/-- **When a purge is invisible.**  Purges under the threshold `s` change no answer of any
run if and only if the threshold is long enough to fill a bucket; if it is not, some run
grants a device more with a purge than without. -/
theorem purge_invisible_iff {config : RateLimiterConfig K} (hB : 1 ≤ config.burst_size)
    (hr : 0 ≤ config.requests_per_second) (s : K) :
    ((∀ ops, PurgedRun s ops →
        (new config).answers ops = (new config).answers (ops.filter Op.isAcquire)) ↔
      config.burst ≤ s * config.requests_per_second) ∧
    (s * config.requests_per_second < config.burst → ∃ ops d, PurgedRun s ops ∧
      (answersTo d (new config) (ops.filter Op.isAcquire)).count true
        < (answersTo d (new config) ops).count true) := by
  have hmore : s * config.requests_per_second < config.burst → ∃ ops d, PurgedRun s ops ∧
      (answersTo d (new config) (ops.filter Op.isAcquire)).count true
        < (answersTo d (new config) ops).count true := by
    intro hs
    refine ⟨purgedBursts config.burst_size.toNat s, 0, purgedRun_purgedBursts _ s, ?_⟩
    rw [count_purgedBursts hB]
    exact count_purgedBursts_filter hB hr hs
  refine ⟨⟨fun h ↦ ?_, fun hs ops hrun ↦ ?_⟩, hmore⟩
  · by_contra hs
    obtain ⟨ops, d, hrun, hlt⟩ := hmore (not_le.mp hs)
    rw [answersTo, answersTo, h ops hrun] at hlt
    exact lt_irrefl _ hlt
  · cases ops with
    | nil => rfl
    | cons op ops =>
        have hstart : ∀ t, op.time = some t →
            ∀ t' ∈ (op :: ops).filterMap Op.time, t ≤ t' := by
          intro t ht t' ht'
          rw [List.filterMap_cons_some ht] at ht'
          rcases List.mem_cons.mp ht' with rfl | ht'
          · exact le_rfl
          · exact hrun.head_le ht t' ht'
        cases op with
        | tryAcquire d t =>
            exact Purged.answers hrun (.start config t) hr hs (hstart t rfl)
        | removeDevice d => exact (hrun.calls _ List.mem_cons_self).elim
        | purgeInactive t s' =>
            exact Purged.answers hrun (.start config t) hr hs (hstart t rfl)

/-- A burst of 2 refilled at the rate 1 needs a threshold of 2. -/
theorem purge_invisible_rat :
    let config : RateLimiterConfig ℚ := ⟨1, 2⟩
    ((∀ ops, PurgedRun 2 ops →
        (new config).answers ops = (new config).answers (ops.filter Op.isAcquire)) ∧
      ∃ ops d, PurgedRun 1 ops ∧ (answersTo d (new config) (ops.filter Op.isAcquire)).count true
        < (answersTo d (new config) ops).count true) := by
  intro config
  have hB : 1 ≤ config.burst_size := by decide
  have hr : 0 ≤ config.requests_per_second := by decide +kernel
  exact ⟨(purge_invisible_iff hB hr 2).1.mpr (by decide +kernel),
    (purge_invisible_iff hB hr 1).2 (by decide +kernel)⟩

end DeviceRateLimiter

end CloudGateway
