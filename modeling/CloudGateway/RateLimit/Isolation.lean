import CloudGateway.Library.Unwinding
import CloudGateway.RateLimiter

/-!
# The devices of a rate limiter do not interfere

What a `DeviceRateLimiter` holds for a device is the configuration and the limiter of that
device (`bucket`).  A call for another device leaves it alone, and a purge decides about it
without a look at the others, so the device is answered as if it were alone
(`answers_isolated`).  Nothing here depends on what the numbers are.
-/

universe u

namespace CloudGateway

open Unwinding

namespace DeviceRateLimiter

variable {F : Type u}

/-! ## What a device sees -/

/-- What the device limiter holds for a device. -/
def bucket (device_id : UInt64) (self : DeviceRateLimiter F) :
    RateLimiterConfig F × Option (RateLimiter F) :=
  (self.config, self.limiters.lookup device_id)

section Bucket

variable (self : DeviceRateLimiter F) (device_id d : UInt64) (now : F)

theorem bucket_removeDevice_self :
    (self.removeDevice d).2.bucket d = ((self.bucket d).1, none) := by
  rw [bucket, removeDevice, Finmap.lookup_erase]
  rfl

theorem bucket_removeDevice_of_ne (h : device_id ≠ d) :
    (self.removeDevice device_id).2.bucket d = self.bucket d := by
  rw [bucket, removeDevice, Finmap.lookup_erase_ne h.symm]
  rfl

/-- A purge keeps or drops the limiter of a device by that limiter alone. -/
theorem bucket_purgeInactive [Sub F] [LT F] [DecidableLT F] (inactive_threshold_s : F) :
    (self.purgeInactive now inactive_threshold_s).2.bucket d
      = ((self.bucket d).1, (self.bucket d).2.filter
        fun v ↦ now - v.last_update < inactive_threshold_s) := by
  rw [bucket, purgeInactive, Finmap.lookup_retain]
  rfl

variable [Zero F] [One F] [Add F] [Sub F] [Mul F] [Min F] [Max F] [LE F] [DecidableLE F]
  [NatCast F]

/-- The answer of a call depends on the bucket of the device. -/
theorem tryAcquire_fst : (self.tryAcquire d now).1
    = (((self.bucket d).2.getD (.new (self.bucket d).1 now)).tryAcquire now).1 := rfl

/-- A call does to the bucket of its device what depends on that bucket. -/
theorem bucket_tryAcquire_self : (self.tryAcquire d now).2.bucket d
    = ((self.bucket d).1,
      some (((self.bucket d).2.getD (.new (self.bucket d).1 now)).tryAcquire now).2) := by
  rw [bucket, tryAcquire, Finmap.lookup_insert]
  rfl

/-- A call leaves the buckets of the other devices alone. -/
theorem bucket_tryAcquire_of_ne (h : device_id ≠ d) :
    (self.tryAcquire device_id now).2.bucket d = self.bucket d := by
  rw [bucket, tryAcquire, Finmap.lookup_insert_of_ne _ h.symm]
  rfl

end Bucket

/-! ## Runs -/

/-- A call of a device limiter. -/
inductive Op (F : Type u)
  | tryAcquire (device_id : UInt64) (now : F)
  | removeDevice (device_id : UInt64)
  | purgeInactive (now inactive_threshold_s : F)

/-- The calls that matter to a device: its own, and the purges. -/
def Op.concerns (d : UInt64) : Op F → Bool
  | .tryAcquire device_id _ => device_id = d
  | .removeDevice device_id => device_id = d
  | .purgeInactive _ _ => true

variable [Zero F] [One F] [Add F] [Sub F] [Mul F] [Min F] [Max F] [LE F] [DecidableLE F]
  [NatCast F] [LT F] [DecidableLT F]

/-- A call, made. -/
def apply (self : DeviceRateLimiter F) : Op F → DeviceRateLimiter F
  | .tryAcquire device_id now => (self.tryAcquire device_id now).2
  | .removeDevice device_id => (self.removeDevice device_id).2
  | .purgeInactive now inactive_threshold_s => (self.purgeInactive now inactive_threshold_s).2

/-- The answer of a `try_acquire` call, with the device it goes to. -/
def answer (self : DeviceRateLimiter F) : Op F → Option (UInt64 × Bool)
  | .tryAcquire device_id now => some (device_id, (self.tryAcquire device_id now).1)
  | _ => none

/-- The device limiter after some calls. -/
def run (self : DeviceRateLimiter F) (ops : List (Op F)) : DeviceRateLimiter F :=
  ops.foldl apply self

/-- The answers that some calls get, to all devices. -/
def answers (self : DeviceRateLimiter F) (ops : List (Op F)) : List (UInt64 × Bool) :=
  outputs apply answer self ops

/-- An answer, when it goes to the device. -/
def toDevice (d : UInt64) (x : UInt64 × Bool) : Option Bool :=
  if x.1 = d then some x.2 else none

/-- The answers that some calls get, to one device. -/
def answersTo (d : UInt64) (self : DeviceRateLimiter F) (ops : List (Op F)) : List Bool :=
  (self.answers ops).filterMap (toDevice d)

/-! ## Isolation -/

/-- **The bucket of a device unwinds.** -/
theorem bucket_unwinds (d : UInt64) : Unwinds (apply (F := F))
    (fun self op ↦ (answer self op).bind (toDevice d)) (Op.concerns d) (bucket d) where
  view_hidden self op h := by
    cases op with
    | tryAcquire device_id now =>
        exact bucket_tryAcquire_of_ne self device_id d now (of_decide_eq_false h)
    | removeDevice device_id =>
        exact bucket_removeDevice_of_ne self device_id d (of_decide_eq_false h)
    | purgeInactive now inactive_threshold_s => exact (Bool.noConfusion h)
  out_hidden self op h := by
    cases op with
    | tryAcquire device_id now => exact if_neg (of_decide_eq_false h)
    | removeDevice device_id => rfl
    | purgeInactive now inactive_threshold_s => rfl
  view_congr self other op h hview := by
    cases op with
    | tryAcquire device_id now =>
        obtain rfl : device_id = d := of_decide_eq_true h
        rw [apply, apply, bucket_tryAcquire_self, bucket_tryAcquire_self, hview]
    | removeDevice device_id =>
        obtain rfl : device_id = d := of_decide_eq_true h
        rw [apply, apply, bucket_removeDevice_self, bucket_removeDevice_self, hview]
    | purgeInactive now inactive_threshold_s =>
        rw [apply, apply, bucket_purgeInactive, bucket_purgeInactive, hview]
  out_congr self other op h hview := by
    cases op with
    | tryAcquire device_id now =>
        obtain rfl : device_id = d := of_decide_eq_true h
        rw [answer, answer, tryAcquire_fst, tryAcquire_fst, hview]
    | removeDevice device_id => rfl
    | purgeInactive now inactive_threshold_s => rfl

/-! ## Rejections -/

/-- A call counts its answer when it is a rejection. -/
theorem total_rejected_apply (self : DeviceRateLimiter F) (op : Op F) :
    (self.apply op).total_rejected = self.total_rejected
      + UInt64.ofNat ((self.answer op).toList.countP fun x ↦ !x.2) := by
  cases op with
  | tryAcquire device_id now =>
      have hstep : (self.apply (.tryAcquire device_id now)).total_rejected
          = if (self.tryAcquire device_id now).1 then self.total_rejected
            else self.total_rejected + 1 := rfl
      rw [hstep, answer, Option.toList_some, List.countP_singleton]
      cases (self.tryAcquire device_id now).1 with
      | true => exact (UInt64.add_zero _).symm
      | false => rfl
  | removeDevice device_id => exact (UInt64.add_zero _).symm
  | purgeInactive now inactive_threshold_s => exact (UInt64.add_zero _).symm

/-- The counter has the rejections of the calls so far. -/
theorem total_rejected_run (self : DeviceRateLimiter F) (ops : List (Op F)) :
    (self.run ops).total_rejected = self.total_rejected
      + UInt64.ofNat ((self.answers ops).countP fun x ↦ !x.2) := by
  induction ops generalizing self with
  | nil => exact (UInt64.add_zero _).symm
  | cons op ops ih =>
      have hrun : self.run (op :: ops) = (self.apply op).run ops := rfl
      rw [hrun, ih, total_rejected_apply, answers, answers, outputs, List.countP_append,
        UInt64.ofNat_add, UInt64.add_assoc]

/-- **Isolation of the devices.**  A device gets the answers that it gets in the run of its
own calls and the purges, and the rejections are counted over all devices, whatever is
removed or purged. -/
theorem answers_isolated (config : RateLimiterConfig F) (ops : List (Op F)) :
    (∀ d, answersTo d (new config) ops = answersTo d (new config) (ops.filter (Op.concerns d))) ∧
      ((new config).run ops).total_rejected
        = UInt64.ofNat (((new config).answers ops).countP fun x ↦ !x.2) := by
  constructor
  · intro d
    rw [answersTo, answersTo, answers, answers, filterMap_outputs, filterMap_outputs]
    exact (bucket_unwinds d).outputs_filter rfl ops
  · rw [total_rejected_run]
    exact UInt64.zero_add _

end DeviceRateLimiter

end CloudGateway
