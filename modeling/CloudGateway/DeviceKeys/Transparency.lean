import Mathlib.Data.Set.Card
import CloudGateway.DeviceKeys
import CloudGateway.Library.Unwinding

/-!
# The key store without its cache

Whatever is derived, revoked and cleared, a key store answers as one without a cache would
(`keys_of_run`): a device has one key, which is that of the context made of its id, and other
devices have other keys if the key derivation keeps their contexts apart.  The cache holds the
devices that were derived and have not been revoked or cleared since.
-/

namespace CloudGateway

variable {C : AliceCrypto}

/-- The context from which the key of a device is derived. -/
def deviceContext (device_id : UInt64) : String := "alice-gw:device:" ++ toString device_id

/-- Different devices have different contexts. -/
theorem deviceContext_injective : Function.Injective deviceContext := by
  intro d e h
  have hnumber := ofDigitChars_context d
  rw [show "alice-gw:device:" ++ toString d = "alice-gw:device:" ++ toString e from h,
    ofDigitChars_context] at hnumber
  exact UInt64.toNat_inj.mp hnumber.symm

namespace DeviceKeyStore

open Unwinding

/-- A call of a key store. -/
inductive Op
  | deriveDeviceKey (device_id : UInt64)
  | revokeDevice (device_id : UInt64)
  | clearCache
deriving DecidableEq

/-- A call, made. -/
def apply (self : DeviceKeyStore C) : Op → DeviceKeyStore C
  | .deriveDeviceKey device_id => (self.deriveDeviceKey device_id).2
  | .revokeDevice device_id => self.revokeDevice device_id
  | .clearCache => self.clearCache

/-- The store after some calls. -/
def run (self : DeviceKeyStore C) (ops : List Op) : DeviceKeyStore C := ops.foldl apply self

theorem run_append_singleton (self : DeviceKeyStore C) (ops : List Op) (op : Op) :
    self.run (ops ++ [op]) = (self.run ops).apply op := List.foldl_append

/-- The key that a call returns, with the device it is for. -/
def key (self : DeviceKeyStore C) : Op → Option (UInt64 × C.Key)
  | .deriveDeviceKey device_id => some (device_id, (self.deriveDeviceKey device_id).1)
  | _ => none

/-- The keys that some calls return. -/
def keys (self : DeviceKeyStore C) (ops : List Op) : List (UInt64 × C.Key) :=
  outputs apply key self ops

/-- The device of a derivation. -/
def Op.derived : Op → Option UInt64
  | .deriveDeviceKey device_id => some device_id
  | _ => none

/-- The devices derived since they were last revoked and the cache was last cleared. -/
def live (ops : List Op) : Set UInt64 :=
  {d | ∃ before after, ops = before ++ .deriveDeviceKey d :: after ∧
    .revokeDevice d ∉ after ∧ .clearCache ∉ after}

theorem master_secret_apply (self : DeviceKeyStore C) (op : Op) :
    (self.apply op).master_secret = self.master_secret := by
  cases op with
  | deriveDeviceKey d => exact master_secret_deriveDeviceKey self d
  | _ => rfl

/-- A store returns what one without a cache does. -/
theorem keys_eq (self : DeviceKeyStore C) (ops : List Op) :
    self.keys ops = (ops.filterMap Op.derived).map fun d ↦
      (d, deviceKey C self.master_secret d) := by
  induction ops generalizing self with
  | nil => rfl
  | cons op ops ih =>
      have hrest := ih (self.apply op)
      rw [master_secret_apply] at hrest
      rw [keys, outputs, ← keys, hrest]
      cases op with
      | deriveDeviceKey d => rw [key, deriveDeviceKey_fst]; rfl
      | _ => rfl

theorem mem_live_append_singleton {ops : List Op} {op : Op} {d : UInt64} :
    d ∈ live (ops ++ [op]) ↔
      op = .deriveDeviceKey d ∨ d ∈ live ops ∧ op ≠ .revokeDevice d ∧ op ≠ .clearCache := by
  constructor
  · rintro ⟨before, after, heq, hrevoke, hclear⟩
    rcases List.eq_nil_or_concat after with rfl | ⟨after', last, rfl⟩
    · exact .inl (List.singleton_inj.mp (List.append_inj_right' heq rfl))
    · rw [List.concat_eq_append] at heq hrevoke hclear
      rw [← List.cons_append, ← List.append_assoc] at heq
      obtain ⟨rfl, hlast⟩ := List.append_inj' heq rfl
      obtain rfl := List.singleton_inj.mp hlast
      rw [List.mem_append, List.mem_singleton, not_or] at hrevoke hclear
      exact .inr ⟨⟨before, after', rfl, hrevoke.1, hclear.1⟩, Ne.symm hrevoke.2, Ne.symm hclear.2⟩
  · rintro (rfl | ⟨⟨before, after, rfl, hrevoke, hclear⟩, hop⟩)
    · exact ⟨ops, [], rfl, List.not_mem_nil, List.not_mem_nil⟩
    · refine ⟨before, after ++ [op], by rw [List.append_assoc, List.cons_append], ?_, ?_⟩
      · simp [hrevoke, Ne.symm hop.1]
      · simp [hclear, Ne.symm hop.2]

/-- The cache holds the live devices. -/
theorem mem_run {secret : Bytes32} {ops : List Op} {d : UInt64} :
    d ∈ ((new C secret).run ops).key_cache ↔ d ∈ live ops := by
  induction ops using List.reverseRecOn with
  | nil =>
      refine iff_of_false Finmap.notMem_empty ?_
      rintro ⟨before, after, heq, -⟩
      exact List.append_ne_nil_of_right_ne_nil before (List.cons_ne_nil _ after) heq.symm
  | append_singleton ops op ih =>
      rw [run_append_singleton, mem_live_append_singleton, ← ih]
      cases op with
      | deriveDeviceKey e =>
          rw [apply, mem_deriveDeviceKey]
          simp [eq_comm]
      | revokeDevice e =>
          rw [apply, revokeDevice, Finmap.mem_erase]
          simp [eq_comm, and_comm]
      | clearCache =>
          exact iff_of_false Finmap.notMem_empty (by simp)

/-- **The key store.**  In every run of a new store:

- each derivation returns the key that the context of the device derives under the master
  secret, as a store without a cache does;
- keys returned for different devices differ, if the derivation keeps the contexts of devices
  apart under this secret, and a key keeps its bytes;
- as many keys are cached as devices were derived since they were last revoked and the cache
  was last cleared. -/
theorem keys_of_run (secret : Bytes32) (ops : List Op) :
    (new C secret).keys ops = ((ops.filterMap Op.derived).map fun d ↦
      (d, C.fromBytes (C.deriveKey (deviceContext d) secret))) ∧
    (Set.InjOn (fun context ↦ C.deriveKey context secret) (Set.range deviceContext) →
      Function.Injective C.fromBytes →
      ∀ x ∈ (new C secret).keys ops, ∀ y ∈ (new C secret).keys ops, x.1 ≠ y.1 → x.2 ≠ y.2) ∧
    ((new C secret).run ops).cachedKeyCount = (live ops).ncard := by
  refine ⟨keys_eq (new C secret) ops, fun hderive hbytes x hx y hy hne heq ↦ ?_, ?_⟩
  · rw [keys_eq, List.mem_map] at hx hy
    obtain ⟨d, -, rfl⟩ := hx
    obtain ⟨e, -, rfl⟩ := hy
    have hcontext := hderive (Set.mem_range_self d) (Set.mem_range_self e) (hbytes heq)
    exact hne (deviceContext_injective hcontext)
  · have hlive : live ops = ↑((new C secret).run ops).key_cache.keys := by
      ext d
      rw [Finset.mem_coe, Finmap.mem_keys, mem_run]
    rw [cachedKeyCount, hlive, Set.ncard_coe_finset]

/-- Two devices, of which one is revoked and derived again. -/
theorem keys_of_run_inMemory :
    let ops : List Op := [.deriveDeviceKey 1, .deriveDeviceKey 21, .revokeDevice 1,
      .deriveDeviceKey 1, .clearCache, .deriveDeviceKey 21]
    let secret : Bytes32 := .replicate 32 42
    ∀ x ∈ (new AliceCrypto.inMemory secret).keys ops,
      ∀ y ∈ (new AliceCrypto.inMemory secret).keys ops, x.1 ≠ y.1 → x.2 ≠ y.2 := by
  intro ops secret
  have hderive : Set.InjOn (fun context ↦ AliceCrypto.inMemory.deriveKey context secret)
      (Set.range deviceContext) := by
    rintro _ ⟨d, rfl⟩ _ ⟨e, rfl⟩ heq
    rw [deviceKey_inMemory_injective secret heq]
  exact (keys_of_run secret ops).2.1 hderive fun _ _ h ↦ h

end DeviceKeyStore

end CloudGateway
