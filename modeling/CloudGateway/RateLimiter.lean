import Mathlib.Data.Nat.Cast.Defs
import Mathlib.Order.Defs.LinearOrder
import Mathlib.Data.List.Induction
import CloudGateway.Library.Retain

/-!
# Rate limiting per device

`RateLimiter` is a token bucket and `DeviceRateLimiter` a map of them, one per device,
created at the first request of the device.

The `f64` of the code is a parameter `F`, of which the definitions use the operations
only.  What is proved of the numbers a limiter computes reads them as exact, with `F` an
ordered field; what is proved of the map holds for any `F`.
-/

universe u

namespace CloudGateway

variable {F : Type u}

/-- Rate limiter configuration. -/
structure RateLimiterConfig (F : Type u) where
  /-- Requests allowed per second. -/
  requests_per_second : F
  /-- Burst size, the maximum number of tokens. -/
  burst_size : UInt32

/-- A single rate limiter. -/
structure RateLimiter (F : Type u) where
  config : RateLimiterConfig F
  /-- The current number of tokens. -/
  tokens : F
  /-- The time of the last update, in seconds. -/
  last_update : F

/-! ## Logs

A log is a list of calls of a limiter, newest first, each with its time and its answer. -/

namespace RateLimiter

/-- The time of the newest call of a log, or of the creation of the limiter. -/
def newest (created : F) : List (F × Bool) → F
  | [] => created
  | x :: _ => x.1

/-- The times of the granted calls of a log. -/
def takes (log : List (F × Bool)) : List F := (log.filter Prod.snd).map Prod.fst

/-- The number of granted calls of a log. -/
def grants (log : List (F × Bool)) : ℕ := log.countP Prod.snd

/-- A take of a log is a granted call in it. -/
theorem takes_eq_append_cons {log : List (F × Bool)} {newer older : List F} {s : F} :
    takes log = newer ++ s :: older ↔ ∃ between before,
      log = between ++ (s, true) :: before ∧ takes between = newer ∧ takes before = older := by
  constructor
  · intro h
    obtain ⟨l₁, l₂, hfilter, h₁, h₂⟩ := List.map_eq_append_iff.mp h
    obtain ⟨⟨s', g⟩, l₃, rfl, hs, h₃⟩ := List.map_eq_cons_iff.mp h₂
    obtain ⟨m₁, m₂, rfl, hm₁, hm₂⟩ := List.filter_eq_append_iff.mp hfilter
    obtain ⟨m₃, m₄, rfl, hnone, hg, hm₄⟩ := List.filter_eq_cons_iff.mp hm₂
    obtain rfl : s' = s := hs
    obtain rfl : g = true := hg
    have hm₃ : m₃.filter Prod.snd = [] := List.filter_eq_nil_iff.mpr hnone
    refine ⟨m₁ ++ m₃, m₄, by simp, ?_, ?_⟩
    · rw [takes, List.filter_append, hm₃, List.append_nil, hm₁, h₁]
    · rw [takes, hm₄, h₃]
  · rintro ⟨between, before, rfl, rfl, rfl⟩
    simp [takes]

theorem length_takes (log : List (F × Bool)) : (takes log).length = grants log := by
  rw [takes, List.length_map, grants, List.countP_eq_length_filter]

end RateLimiter

/-! ## One limiter -/

variable [Zero F] [One F] [Add F] [Sub F] [Mul F] [Min F] [Max F] [LE F] [DecidableLE F]
  [NatCast F]

namespace RateLimiterConfig

instance : Inhabited (RateLimiterConfig F) where
  default := ⟨((100 : ℕ) : F), 200⟩

/-- `f64::from(config.burst_size)`. -/
def burst (self : RateLimiterConfig F) : F := (self.burst_size.toNat : F)

end RateLimiterConfig

namespace RateLimiter

/-- Create a new limiter. -/
def new (config : RateLimiterConfig F) (now : F) : RateLimiter F where
  config := config
  tokens := config.burst
  last_update := now

/-- Refill the tokens. -/
def refill (self : RateLimiter F) (now : F) : RateLimiter F :=
  let elapsed := max (now - self.last_update) 0
  { self with
    tokens := min (self.tokens + elapsed * self.config.requests_per_second) self.config.burst
    last_update := now }

/-- Whether a request is allowed; if so, it consumes a token. -/
def tryAcquire (self : RateLimiter F) (now : F) : Bool × RateLimiter F :=
  let self := self.refill now
  if self.tokens ≥ 1 then (true, { self with tokens := self.tokens - 1 })
  else (false, self)

/-- The current number of tokens. -/
def availableTokens (self : RateLimiter F) : F := self.tokens

/-! ## One call -/

section Call

variable (l : RateLimiter F) (now : F)

theorem tryAcquire_eq : l.tryAcquire now = if 1 ≤ (l.refill now).tokens then
    (true, { l.refill now with tokens := (l.refill now).tokens - 1 })
    else (false, l.refill now) := rfl

@[simp] theorem config_tryAcquire : (l.tryAcquire now).2.config = l.config := by
  rw [tryAcquire_eq]
  split <;> rfl

@[simp] theorem last_update_tryAcquire : (l.tryAcquire now).2.last_update = now := by
  rw [tryAcquire_eq]
  split <;> rfl

/-- A call is granted when there is a token after the refill. -/
theorem tryAcquire_fst_iff : (l.tryAcquire now).1 = true ↔ 1 ≤ (l.refill now).tokens := by
  rw [tryAcquire_eq]
  split
  · rename_i h
    exact iff_of_true rfl h
  · rename_i h
    exact iff_of_false Bool.false_ne_true h

/-- A granted call consumes a token. -/
theorem tokens_of_granted (h : (l.tryAcquire now).1 = true) :
    (l.tryAcquire now).2.tokens = (l.refill now).tokens - 1 := by
  rw [tryAcquire_eq, if_pos ((tryAcquire_fst_iff l now).mp h)]

/-- A rejected call keeps the refill. -/
theorem tokens_of_rejected (h : (l.tryAcquire now).1 = false) :
    (l.tryAcquire now).2.tokens = (l.refill now).tokens := by
  have hnot : ¬ 1 ≤ (l.refill now).tokens := by
    rw [← tryAcquire_fst_iff, h]
    exact Bool.false_ne_true
  rw [tryAcquire_eq, if_neg hnot]

end Call

/-! ## Many calls -/

/-- The log of the calls made of a limiter, and the limiter they leave. -/
inductive Serves (l₀ : RateLimiter F) : List (F × Bool) → RateLimiter F → Prop
  /-- No call yet. -/
  | start : Serves l₀ [] l₀
  /-- One more call. -/
  | call {log : List (F × Bool)} {l : RateLimiter F} (h : Serves l₀ log l) (now : F) :
      Serves l₀ ((now, (l.tryAcquire now).1) :: log) (l.tryAcquire now).2

/-- The calls at the given times, computed. -/
def serve (l₀ : RateLimiter F) (times : List F) : List (F × Bool) × RateLimiter F :=
  times.foldl (fun w now ↦ ((now, (w.2.tryAcquire now).1) :: w.1, (w.2.tryAcquire now).2))
    ([], l₀)

theorem serve_concat (l₀ : RateLimiter F) (times : List F) (now : F) :
    serve l₀ (times ++ [now])
      = ((now, ((serve l₀ times).2.tryAcquire now).1) :: (serve l₀ times).1,
        ((serve l₀ times).2.tryAcquire now).2) := by
  rw [serve, List.foldl_append]
  rfl

/-- The first call goes to the limiter that the others begin with. -/
theorem serve_cons (l₀ : RateLimiter F) (now : F) (times : List F) :
    serve l₀ (now :: times)
      = ((serve (l₀.tryAcquire now).2 times).1 ++ [(now, (l₀.tryAcquire now).1)],
        (serve (l₀.tryAcquire now).2 times).2) := by
  induction times using List.reverseRecOn with
  | nil => rfl
  | append_singleton times t ih =>
      rw [← List.cons_append, serve_concat, ih, serve_concat]
      rfl

/-- What is computed is a log. -/
theorem serves_serve (l₀ : RateLimiter F) (times : List F) :
    Serves l₀ (serve l₀ times).1 (serve l₀ times).2 := by
  induction times using List.reverseRecOn with
  | nil => exact .start
  | append_singleton times now ih =>
      rw [serve_concat]
      exact ih.call now

/-- The log without its newest calls is a log. -/
theorem Serves.suffix {l₀ l : RateLimiter F} {newer older : List (F × Bool)}
    (h : Serves l₀ (newer ++ older) l) : ∃ l', Serves l₀ older l' := by
  induction newer generalizing l with
  | nil => exact ⟨l, h⟩
  | cons x newer ih =>
      cases h with
      | call h now => exact ih h

theorem Serves.config {l₀ l : RateLimiter F} {log : List (F × Bool)} (h : Serves l₀ log l) :
    l.config = l₀.config := by
  induction h with
  | start => rfl
  | call _ now ih => exact (config_tryAcquire _ now).trans ih

theorem Serves.last_update {l₀ l : RateLimiter F} {log : List (F × Bool)}
    (h : Serves l₀ log l) : l.last_update = newest l₀.last_update log := by
  cases h with
  | start => rfl
  | call _ now => exact last_update_tryAcquire _ now

end RateLimiter

/-! ## A limiter per device -/

/-- The rate limiters of the devices. -/
structure DeviceRateLimiter (F : Type u) where
  config : RateLimiterConfig F
  /-- Device id → limiter. -/
  limiters : Finmap fun _ : UInt64 ↦ RateLimiter F
  /-- Number of rejected requests, over all devices. -/
  total_rejected : UInt64

namespace DeviceRateLimiter

/-- Create a new device limiter. -/
def new (config : RateLimiterConfig F) : DeviceRateLimiter F where
  config := config
  limiters := ∅
  total_rejected := 0

/-- Create with the default configuration. -/
def withDefaults : DeviceRateLimiter F := new default

/-- Whether a request of a device is allowed. -/
def tryAcquire (self : DeviceRateLimiter F) (device_id : UInt64) (now : F) :
    Bool × DeviceRateLimiter F :=
  let limiter := (self.limiters.lookup device_id).getD (.new self.config now)
  let (allowed, limiter) := limiter.tryAcquire now
  (allowed,
    { self with
      limiters := self.limiters.insert device_id limiter
      total_rejected := if allowed then self.total_rejected else self.total_rejected + 1 })

/-- Number of registered devices. -/
def deviceCount (self : DeviceRateLimiter F) : ℕ := self.limiters.keys.card

/-- Remove the limiter of a device. -/
def removeDevice (self : DeviceRateLimiter F) (device_id : UInt64) :
    Bool × DeviceRateLimiter F :=
  ((self.limiters.lookup device_id).isSome,
    { self with limiters := self.limiters.erase device_id })

variable [LT F] [DecidableLT F]

/-- Remove the limiters that have not been updated for `inactive_threshold_s` seconds. -/
def purgeInactive (self : DeviceRateLimiter F) (now inactive_threshold_s : F) :
    ℕ × DeviceRateLimiter F :=
  let before := self.deviceCount
  let self := { self with
    limiters := self.limiters.retain fun _ v ↦ now - v.last_update < inactive_threshold_s }
  (before - self.deviceCount, self)

end DeviceRateLimiter

end CloudGateway
