import CloudGateway.Siblings

/-!
# Device key management

`DeviceKeyStore` derives one key per device from a master secret and remembers
it.  The cache is private to the store, so a cached key is always the derived
one; the structure carries this as the field `coherent`, and the store is
therefore transparent: `deriveDeviceKey` returns `deviceKey` whatever was
derived, revoked or cleared before (`deriveDeviceKey_fst`).
-/

namespace CloudGateway

open LittleEndian

variable {C : AliceCrypto}

/-- The key of a device under a master secret, derived from scratch. -/
def deviceKey (C : AliceCrypto) (master_secret : Bytes32) (device_id : UInt64) : C.Key :=
  C.fromBytes (C.deriveKey ("alice-gw:device:" ++ toString device_id) master_secret)

/-- The number in the context of a device key is the id of the device. -/
theorem ofDigitChars_context (d : UInt64) : Nat.ofDigitChars 10
    (("alice-gw:device:" ++ toString d).toList.filter Char.isDigit) 0 = d.toNat := by
  have hrepr : (toString d).toList = Nat.toDigits 10 d.toNat := Nat.toList_repr
  have hdigits : (Nat.toDigits 10 d.toNat).filter Char.isDigit = Nat.toDigits 10 d.toNat :=
    List.filter_eq_self.mpr fun c hc ↦
      Nat.isDigit_of_mem_toDigits (by norm_num) (by norm_num) hc
  have hprefix : "alice-gw:device:".toList.filter Char.isDigit = [] := by decide
  rw [String.toList_append, List.filter_append, hprefix, hrepr, hdigits, List.nil_append,
    Nat.ofDigitChars_ten_toDigits]

/-- The crate in memory derives different keys for different devices. -/
theorem deviceKey_inMemory_injective (secret : Bytes32) :
    Function.Injective (deviceKey AliceCrypto.inMemory secret) := by
  intro d e h
  have hkey : ∀ d : UInt64, deviceKey AliceCrypto.inMemory secret d
      = .ofFn fun i : Fin 32 ↦ secret[i] ^^^ (toLe 32 d.toNat)[i] := by
    intro d
    simp only [deviceKey, AliceCrypto.inMemory, ofDigitChars_context]
  have hbytes : toLe 32 d.toNat = toLe 32 e.toNat := by
    apply List.ext_getElem (by simp)
    intro i hi _
    have hi' : i < 32 := by simpa using hi
    rw [hkey, hkey] at h
    simpa using congrArg (fun k : Bytes32 ↦ k[i]) h
  have hlt : ∀ x : UInt64, x.toNat < 256 ^ 32 := fun x ↦
    lt_trans x.toNat_lt (by norm_num)
  have hnat : d.toNat = e.toNat := by
    rw [← ofLe_toLe (hlt d), ← ofLe_toLe (hlt e), hbytes]
  exact UInt64.toNat_inj.mp hnat

/-- Device key store: a master secret and the keys derived from it so far. -/
structure DeviceKeyStore (C : AliceCrypto) where
  master_secret : Bytes32
  /-- Cached derived keys: `device_id` → key. -/
  key_cache : Finmap fun _ : UInt64 ↦ C.Key
  /-- Every cached key is the key of its device. -/
  coherent : ∀ d k, key_cache.lookup d = some k → k = deviceKey C master_secret d

namespace DeviceKeyStore

/-- Create a new device key store with the given master secret. -/
def new (C : AliceCrypto) (master_secret : Bytes32) : DeviceKeyStore C where
  master_secret := master_secret
  key_cache := ∅
  coherent := by simp

/-- Derive (or retrieve cached) encryption key for a device. -/
def deriveDeviceKey (self : DeviceKeyStore C) (device_id : UInt64) :
    C.Key × DeviceKeyStore C :=
  match self.key_cache.lookup device_id with
  | some key => (key, self)
  | none =>
      let context := "alice-gw:device:" ++ toString device_id
      let derived := C.deriveKey context self.master_secret
      let key := C.fromBytes derived
      (key,
        { self with
          key_cache := self.key_cache.insert device_id key
          coherent := by
            intro d k h
            by_cases hd : d = device_id
            · subst hd
              rw [Finmap.lookup_insert] at h
              exact (Option.some.inj h).symm
            · rw [Finmap.lookup_insert_of_ne _ hd] at h
              exact self.coherent d k h })

/-- Revoke a device's key (removes from cache, forcing re-derivation). -/
def revokeDevice (self : DeviceKeyStore C) (device_id : UInt64) : DeviceKeyStore C where
  master_secret := self.master_secret
  key_cache := self.key_cache.erase device_id
  coherent := by
    intro d k h
    by_cases hd : d = device_id
    · subst hd
      simp at h
    · rw [Finmap.lookup_erase_ne hd] at h
      exact self.coherent d k h

/-- Number of cached keys. -/
def cachedKeyCount (self : DeviceKeyStore C) : ℕ := self.key_cache.keys.card

/-- Clear all cached keys. -/
def clearCache (self : DeviceKeyStore C) : DeviceKeyStore C where
  master_secret := self.master_secret
  key_cache := ∅
  coherent := by simp

/-! ## What a derivation does -/

/-- The cache is transparent: a derivation returns the key of the device. -/
@[simp] theorem deriveDeviceKey_fst (self : DeviceKeyStore C) (d : UInt64) :
    (self.deriveDeviceKey d).1 = deviceKey C self.master_secret d := by
  unfold deriveDeviceKey
  cases h : self.key_cache.lookup d with
  | some key => exact self.coherent d key h
  | none => rfl

@[simp] theorem master_secret_deriveDeviceKey (self : DeviceKeyStore C) (d : UInt64) :
    (self.deriveDeviceKey d).2.master_secret = self.master_secret := by
  unfold deriveDeviceKey
  cases self.key_cache.lookup d <;> rfl

/-- A derivation adds its own device to the cache, and no other. -/
@[simp] theorem mem_deriveDeviceKey {self : DeviceKeyStore C} {d e : UInt64} :
    e ∈ (self.deriveDeviceKey d).2.key_cache ↔ e = d ∨ e ∈ self.key_cache := by
  unfold deriveDeviceKey
  cases h : self.key_cache.lookup d with
  | some key =>
      have hmem : d ∈ self.key_cache := Finmap.mem_of_lookup_eq_some h
      constructor
      · exact Or.inr
      · rintro (rfl | he)
        · exact hmem
        · exact he
  | none => exact Finmap.mem_insert

/-- A derivation for a cached device changes nothing. -/
theorem deriveDeviceKey_of_mem {self : DeviceKeyStore C} {d : UInt64}
    (h : d ∈ self.key_cache) : (self.deriveDeviceKey d).2 = self := by
  obtain ⟨key, hkey⟩ := Finmap.mem_iff.mp h
  unfold deriveDeviceKey
  rw [hkey]

end DeviceKeyStore

end CloudGateway
