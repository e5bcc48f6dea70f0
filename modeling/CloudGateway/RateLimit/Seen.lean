import Mathlib.Data.Set.Card
import CloudGateway.RateLimit.Isolation

/-!
# Which devices a rate limiter knows

A `DeviceRateLimiter` registers a device at its first request and forgets it when it is
removed, or purged for having been idle.  What it knows of a device is therefore said by the
calls alone, without the tokens (`lastRequest`): the time of its last request, unless it has
been forgotten since.  The counts that the calls return are those of the devices known in
this sense, and no device is registered or forgotten without being counted (`known_of_run`).
Nothing here depends on what the numbers are, or on the clock.
-/

universe u

namespace CloudGateway

namespace DeviceRateLimiter

variable {F : Type u}

/-! ## What is held -/

/-- The time of the last update of the limiter of a device. -/
def lastUpdate (self : DeviceRateLimiter F) (d : UInt64) : Option F :=
  (self.limiters.lookup d).map RateLimiter.last_update

theorem mem_keys_iff (self : DeviceRateLimiter F) (d : UInt64) :
    d ∈ self.limiters.keys ↔ (self.lastUpdate d).isSome = true := by
  rw [Finmap.mem_keys, ← Finmap.lookup_isSome, lastUpdate, Option.isSome_map]

/-- The limiters are those of the devices with a last update. -/
theorem deviceCount_eq (self : DeviceRateLimiter F) :
    self.deviceCount = {d | (self.lastUpdate d).isSome = true}.ncard := by
  rw [deviceCount, ← Set.ncard_coe_finset]
  congr 1
  ext d
  exact mem_keys_iff self d

theorem fst_removeDevice (self : DeviceRateLimiter F) (d : UInt64) :
    (self.removeDevice d).1 = (self.lastUpdate d).isSome := by
  rw [lastUpdate, Option.isSome_map]
  rfl

theorem isSome_lookup_iff (self : DeviceRateLimiter F) (d : UInt64) :
    (self.limiters.lookup d).isSome = true ↔ d ∈ self.limiters.keys := by
  rw [Finmap.lookup_isSome, Finmap.mem_keys]

theorem keys_removeDevice (self : DeviceRateLimiter F) (d : UInt64) :
    (self.removeDevice d).2.limiters.keys = self.limiters.keys.erase d := by
  ext d'
  rw [Finmap.mem_keys, Finset.mem_erase, Finmap.mem_keys, removeDevice]
  exact Finmap.mem_erase

variable [Sub F] [LT F] [DecidableLT F]

/-! ## What the calls say -/

/-- The time of the last request of a device, after one more call. -/
def Op.seen (d : UInt64) (last : Option F) : Op F → Option F
  | .tryAcquire device_id now => if device_id = d then some now else last
  | .removeDevice device_id => if device_id = d then none else last
  | .purgeInactive now inactive_threshold_s => last.filter (now - · < inactive_threshold_s)

/-- The time of the last request of a device, unless it has been forgotten since. -/
def lastRequest (d : UInt64) (ops : List (Op F)) : Option F := ops.foldl (Op.seen d) none

/-- The devices that are known after some calls. -/
def known (ops : List (Op F)) : Set UInt64 := {d | (lastRequest d ops).isSome}

/-- The devices that are known, but have been idle for the threshold. -/
def idle (ops : List (Op F)) (now inactive_threshold_s : F) : Set UInt64 :=
  {d | ∃ last, lastRequest d ops = some last ∧ ¬ now - last < inactive_threshold_s}

variable [Zero F] [One F] [Add F] [Mul F] [Min F] [Max F] [LE F] [DecidableLE F] [NatCast F]

/-- A call moves the last update as it says. -/
theorem lastUpdate_apply (self : DeviceRateLimiter F) (op : Op F) (d : UInt64) :
    (self.apply op).lastUpdate d = op.seen d (self.lastUpdate d) := by
  cases op with
  | tryAcquire device_id now =>
      by_cases hd : device_id = d
      · subst hd
        have hlookup := congrArg Prod.snd (bucket_tryAcquire_self self device_id now)
        rw [Op.seen, if_pos rfl, lastUpdate]
        exact (congrArg (Option.map _) hlookup).trans
          (congrArg some (RateLimiter.last_update_tryAcquire _ _))
      · have hlookup := congrArg Prod.snd (bucket_tryAcquire_of_ne self device_id d now hd)
        rw [Op.seen, if_neg hd]
        exact congrArg (Option.map _) hlookup
  | removeDevice device_id =>
      by_cases hd : device_id = d
      · subst hd
        have hlookup := congrArg Prod.snd (bucket_removeDevice_self self device_id)
        rw [Op.seen, if_pos rfl]
        exact congrArg (Option.map _) hlookup
      · have hlookup := congrArg Prod.snd (bucket_removeDevice_of_ne self device_id d hd)
        rw [Op.seen, if_neg hd]
        exact congrArg (Option.map _) hlookup
  | purgeInactive now inactive_threshold_s =>
      have hlookup := congrArg Prod.snd (bucket_purgeInactive self d now inactive_threshold_s)
      rw [Op.seen, lastUpdate, lastUpdate, Option.filter_map]
      exact congrArg (Option.map _) hlookup

theorem lastUpdate_run (self : DeviceRateLimiter F) (ops : List (Op F)) (d : UInt64) :
    (self.run ops).lastUpdate d = ops.foldl (Op.seen d) (self.lastUpdate d) := by
  induction ops generalizing self with
  | nil => rfl
  | cons op ops ih =>
      rw [List.foldl_cons, ← lastUpdate_apply]
      exact ih (self.apply op)

/-! ## What the calls return -/

section Calls

variable (self : DeviceRateLimiter F)

theorem lastUpdate_purgeInactive (now inactive_threshold_s : F) (d : UInt64) :
    (self.purgeInactive now inactive_threshold_s).2.lastUpdate d
      = (self.lastUpdate d).filter (now - · < inactive_threshold_s) :=
  lastUpdate_apply self (.purgeInactive now inactive_threshold_s) d

omit [LT F] [DecidableLT F] in
theorem keys_tryAcquire (d : UInt64) (now : F) :
    (self.tryAcquire d now).2.limiters.keys = insert d self.limiters.keys := by
  ext d'
  rw [Finmap.mem_keys, Finset.mem_insert, Finmap.mem_keys]
  exact Finmap.mem_insert

/-- A purge drops the limiters it does not keep. -/
theorem keys_purgeInactive_subset (now inactive_threshold_s : F) :
    (self.purgeInactive now inactive_threshold_s).2.limiters.keys ⊆ self.limiters.keys := by
  intro d hd
  have hkept := (mem_keys_iff _ d).mp hd
  rw [lastUpdate_purgeInactive] at hkept
  exact (mem_keys_iff _ d).mpr (Option.isSome_of_isSome_filter _ _ hkept)

/-- The count that a purge returns is that of the idle devices. -/
theorem fst_purgeInactive (now inactive_threshold_s : F) :
    (self.purgeInactive now inactive_threshold_s).1
      = {d | ∃ last, self.lastUpdate d = some last
          ∧ ¬ now - last < inactive_threshold_s}.ncard := by
  have hcard : (self.purgeInactive now inactive_threshold_s).1
      = (self.limiters.keys
          \ (self.purgeInactive now inactive_threshold_s).2.limiters.keys).card :=
    (Finset.card_sdiff_of_subset
      (self.keys_purgeInactive_subset now inactive_threshold_s)).symm
  rw [hcard, ← Set.ncard_coe_finset]
  congr 1
  ext d
  rw [Finset.mem_coe, Finset.mem_sdiff, mem_keys_iff, mem_keys_iff,
    lastUpdate_purgeInactive, Set.mem_ofPred_eq]
  cases self.lastUpdate d with
  | none => simp
  | some last => simp

/-! ## The balance -/

/-- The number of limiters that a call registers. -/
def registers : Op F → ℕ
  | .tryAcquire device_id _ => if (self.limiters.lookup device_id).isSome then 0 else 1
  | .removeDevice _ => 0
  | .purgeInactive _ _ => 0

/-- The number of limiters that a call says it has removed. -/
def removes : Op F → ℕ
  | .tryAcquire _ _ => 0
  | .removeDevice device_id => (self.removeDevice device_id).1.toNat
  | .purgeInactive now inactive_threshold_s => (self.purgeInactive now inactive_threshold_s).1

theorem deviceCount_apply (op : Op F) :
    (self.apply op).deviceCount + self.removes op = self.deviceCount + self.registers op := by
  cases op with
  | tryAcquire device_id now =>
      have hcount : (self.apply (.tryAcquire device_id now)).deviceCount
          = (insert device_id self.limiters.keys).card :=
        congrArg Finset.card (keys_tryAcquire self device_id now)
      rw [hcount, Finset.card_insert_eq_ite, registers, removes]
      simp only [isSome_lookup_iff]
      split <;> rfl
  | removeDevice device_id =>
      have hcount : (self.apply (.removeDevice device_id)).deviceCount
          = (self.limiters.keys.erase device_id).card :=
        congrArg Finset.card (keys_removeDevice self device_id)
      have hanswer : (self.removeDevice device_id).1 = decide (device_id ∈ self.limiters.keys) := by
        rw [Bool.eq_iff_iff, decide_eq_true_iff]
        exact isSome_lookup_iff self device_id
      rw [hcount, registers, removes, hanswer]
      by_cases hkey : device_id ∈ self.limiters.keys
      · rw [decide_eq_true hkey, Bool.toNat_true, Finset.card_erase_add_one hkey]
        rfl
      · rw [decide_eq_false hkey, Finset.erase_eq_of_notMem hkey]
        rfl
  | purgeInactive now inactive_threshold_s =>
      have hle := Finset.card_le_card (self.keys_purgeInactive_subset now inactive_threshold_s)
      exact Nat.add_sub_of_le hle

end Calls

/-- What some calls add up to. -/
def tally (count : DeviceRateLimiter F → Op F → ℕ) : DeviceRateLimiter F → List (Op F) → ℕ
  | _, [] => 0
  | self, op :: ops => count self op + tally count (self.apply op) ops

theorem deviceCount_run (self : DeviceRateLimiter F) (ops : List (Op F)) :
    (self.run ops).deviceCount + tally removes self ops
      = self.deviceCount + tally registers self ops := by
  induction ops generalizing self with
  | nil => rfl
  | cons op ops ih =>
      have hstep := deviceCount_apply self op
      have hrest := ih (self.apply op)
      change ((self.apply op).run ops).deviceCount + (removes self op + _)
        = self.deviceCount + (registers self op + _)
      omega

/-- **What a device limiter knows.**  After any calls, a limiter is held for each device that
has been heard of and not been forgotten since, updated when it was last heard of.  The
counts of the devices, of those that a purge drops and whether there is one to remove follow
from that, and the limiters registered are those held and those that were said to be
removed. -/
theorem known_of_run (config : RateLimiterConfig F) (ops : List (Op F)) :
    (∀ d, ((new config).run ops).lastUpdate d = lastRequest d ops) ∧
    ((new config).run ops).deviceCount = (known ops).ncard ∧
    (∀ d, (((new config).run ops).removeDevice d).1 = true ↔ d ∈ known ops) ∧
    (∀ now inactive_threshold_s,
      (((new config).run ops).purgeInactive now inactive_threshold_s).1
        = (idle ops now inactive_threshold_s).ncard) ∧
    tally registers (new config) ops
      = ((new config).run ops).deviceCount + tally removes (new config) ops := by
  have hlast : ∀ d, ((new config).run ops).lastUpdate d = lastRequest d ops := fun d ↦
    lastUpdate_run (new config) ops d
  refine ⟨hlast, ?_, fun d ↦ ?_, fun now s ↦ ?_, ?_⟩
  · rw [deviceCount_eq]
    simp only [hlast]
    rfl
  · rw [fst_removeDevice, hlast]
    rfl
  · rw [fst_purgeInactive]
    simp only [hlast]
    rfl
  · have hbalance := deviceCount_run (new config) ops
    have hnone : (new config).deviceCount = 0 := rfl
    omega

end DeviceRateLimiter

end CloudGateway
