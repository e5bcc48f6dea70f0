import Mathlib.Data.Rat.Defs
import CloudGateway.Library.LittleEndian
import CloudGateway.Library.KeyedCache

/-!
# The sibling crates

The gateway is the glue between its sibling crates: `alice_crypto`, `alice_db`,
`alice_cache`, `alice_sync`, `alice_cdn` and `alice_analytics`.  Their code is
not part of the gateway, so the model takes it as a parameter: one structure per
crate, with the types and functions the gateway calls, and `Siblings` to bundle
them.

What the gateway relies on is never built into these structures.  Each law is a
`Prop` of its own (`AliceCrypto.OpenSeal`, `CacheApi.Sound`, ...) and appears as a
hypothesis of the results that use it.

What the gateway asks of a storage or of a hub is seen in a log of the calls
(`AliceDb.logged`, `AliceSync.logged`), which changes nothing else.

`Siblings.inMemory` is an executable implementation that satisfies all of them.
-/

namespace CloudGateway

open LittleEndian KeyedCache

/-! ## Scalars -/

/-- An `f32`, known to the gateway only by its bit pattern: the gateway never
computes with one. -/
structure F32 where
  bits : UInt32
deriving DecidableEq, Repr

namespace F32

/-- `f32::from_le_bytes`, on a byte string of any length. -/
def fromLe (bs : Bytes) : Option F32 := (u32FromLe bs).map F32.mk

/-- The `f32` in the given four bytes. -/
def ofLe (bs : Bytes) : F32 := ⟨UInt32.ofNat (LittleEndian.ofLe bs)⟩

/-- `0.0`. -/
def zero : F32 := ⟨0⟩

/-- `10.0`. -/
def ten : F32 := ⟨0x41200000⟩

/-- `-10.0`. -/
def negTen : F32 := ⟨0xC1200000⟩

@[simp] theorem fromLe_of_length {bs : Bytes} (h : bs.length = 4) :
    fromLe bs = some (ofLe bs) := by simp [fromLe, ofLe, h]

end F32

/-- A point of world space, `[f32; 3]`. -/
structure Vec3 where
  x : F32
  y : F32
  z : F32
deriving DecidableEq, Repr

/-- 32 bytes: a master secret or derived key material. -/
abbrev Bytes32 := Vector UInt8 32

/-- A Z-order spatial index. -/
structure MortonCode where
  code : UInt64
deriving DecidableEq, Repr

/-- An axis-aligned region of world space. -/
structure SpatialRegion where
  lo : Vec3
  hi : Vec3

/-- The hash of a world state. -/
structure WorldHash where
  hash : UInt64

/-! ## The crates -/

/-- What the gateway and its devices call of `alice_crypto`.  `seal` draws fresh
randomness, made explicit here as a nonce. -/
structure AliceCrypto where
  Key : Type
  Nonce : Type
  Error : Type
  deriveKey : String → Bytes32 → Bytes32
  fromBytes : Bytes32 → Key
  seal_ : Nonce → Key → Bytes → Except Error Bytes
  open_ : Key → Bytes → Except Error Bytes
  /-- The `{:?}` rendering of an error. -/
  debug : Error → String

/-- Opening undoes sealing under the same key. -/
def AliceCrypto.OpenSeal (C : AliceCrypto) : Prop :=
  ∀ n k p c, C.seal_ n k p = .ok c → C.open_ k c = .ok p

/-- What the gateway calls of `alice_db`. -/
structure AliceDb where
  SdfStorage : Type
  Error : Type
  open_ : String → Vec3 → Vec3 → Except Error SdfStorage
  /-- `MortonCode::from_world`. -/
  fromWorld : F32 → F32 → F32 → Vec3 → Vec3 → MortonCode
  storeKeyframe : SdfStorage → MortonCode → UInt32 → F32 → Except Error Unit × SdfStorage
  querySpatialRegion : SdfStorage → Vec3 → Vec3 → Except Error (List (MortonCode × F32))
  /-- `to_string` of an error. -/
  toString : Error → String

/-- A keyframe record of the SDF storage. -/
structure SdfRecord where
  morton : MortonCode
  scene_version : UInt32
  sdf_value : F32
deriving DecidableEq, Repr

/-- A call of `store_keyframe`: the record it is given, and whether it succeeds. -/
structure StoreCall where
  record : SdfRecord
  succeeded : Bool
deriving DecidableEq, Repr

/-- The records that some calls of `store_keyframe` have written. -/
def written (calls : List StoreCall) : List SdfRecord :=
  (calls.filter StoreCall.succeeded).map StoreCall.record

@[simp] theorem written_append (calls calls' : List StoreCall) :
    written (calls ++ calls') = written calls ++ written calls' := by
  rw [written, List.filter_append, List.map_append]
  rfl

/-- The storage `s'` is what the calls have made of `s`, one after another, each with its
own outcome. -/
inductive AliceDb.Stores (D : AliceDb) (s : D.SdfStorage) :
    List StoreCall → D.SdfStorage → Prop
  | nil : Stores D s [] s
  | snoc {calls : List StoreCall} {s' s'' : D.SdfStorage} {m : MortonCode} {v : UInt32}
      {x : F32} {outcome : Except D.Error Unit} (h : Stores D s calls s')
      (hstore : D.storeKeyframe s' m v x = (outcome, s'')) :
      Stores D s (calls ++ [⟨⟨m, v, x⟩, outcome.isOk⟩]) s''

theorem AliceDb.Stores.append {D : AliceDb} {s s' s'' : D.SdfStorage}
    {calls calls' : List StoreCall} (h : D.Stores s calls s') (h' : D.Stores s' calls' s'') :
    D.Stores s (calls ++ calls') s'' := by
  induction h' with
  | nil => rwa [List.append_nil]
  | snoc _ hstore ih =>
      rw [← List.append_assoc]
      exact ih.snoc hstore

/-- Of what `records` reads off a storage, a store that succeeds adds at most its own
record, and one that fails adds nothing. -/
def AliceDb.AddsAtMost (D : AliceDb) (records : D.SdfStorage → List SdfRecord) : Prop :=
  ∀ s m v x outcome s', D.storeKeyframe s m v x = (outcome, s') → ∀ r ∈ records s',
    r ∈ records s ∨ outcome.isOk = true ∧ r = ⟨m, v, x⟩

/-- What is read off a storage was there before or has been written. -/
theorem AliceDb.Stores.mem {D : AliceDb} {records : D.SdfStorage → List SdfRecord}
    (hdb : D.AddsAtMost records) {s s' : D.SdfStorage} {calls : List StoreCall}
    (h : D.Stores s calls s') : ∀ r ∈ records s', r ∈ records s ∨ r ∈ written calls := by
  induction h with
  | nil => exact fun r hr ↦ Or.inl hr
  | snoc _ hstore ih =>
      intro r hr
      rw [written_append]
      rcases hdb _ _ _ _ _ _ hstore r hr with hr | ⟨hok, rfl⟩
      · exact (ih r hr).imp_right (List.mem_append_left _)
      · refine Or.inr (List.mem_append_right _ ?_)
        rw [hok]
        exact List.mem_singleton_self _

/-- A storage with a log of the calls of `store_keyframe`. -/
abbrev AliceDb.logged (D : AliceDb) : AliceDb where
  SdfStorage := D.SdfStorage × List StoreCall
  Error := D.Error
  open_ path lo hi := (D.open_ path lo hi).map fun s ↦ (s, [])
  fromWorld := D.fromWorld
  storeKeyframe s m v x :=
    let (outcome, s') := D.storeKeyframe s.1 m v x
    (outcome, (s', s.2 ++ [⟨⟨m, v, x⟩, outcome.isOk⟩]))
  querySpatialRegion s lo hi := D.querySpatialRegion s.1 lo hi
  toString := D.toString

theorem AliceDb.storeKeyframe_logged {D : AliceDb} {s s' : D.SdfStorage} {m : MortonCode}
    {v : UInt32} {x : F32} {outcome : Except D.Error Unit}
    (h : D.storeKeyframe s m v x = (outcome, s')) (calls : List StoreCall) :
    D.logged.storeKeyframe (s, calls) m v x
      = (outcome, (s', calls ++ [⟨⟨m, v, x⟩, outcome.isOk⟩])) := by
  simp only [h]

/-- What the gateway calls of `alice_cache`. -/
abbrev AliceCache := CacheApi UInt64 Bytes

/-- What the gateway calls of `alice_sync`. -/
structure AliceSync where
  CloudSyncHub : Type
  Device : Type
  new : CloudSyncHub
  registerDevice : CloudSyncHub → UInt64 → String → CloudSyncHub
  heartbeat : CloudSyncHub → UInt64 → UInt64 → CloudSyncHub
  processDeviceUpdate : CloudSyncHub → UInt64 → UInt32 → WorldHash → SpatialRegion →
    List Device × CloudSyncHub
  connectedDevices : CloudSyncHub → List Device

/-- A hub with a log of the heartbeats it is given: devices and timestamps. -/
abbrev AliceSync.logged (H : AliceSync) : AliceSync where
  CloudSyncHub := H.CloudSyncHub × List (UInt64 × UInt64)
  Device := H.Device
  new := (H.new, [])
  registerDevice hub d name := (H.registerDevice hub.1 d name, hub.2)
  heartbeat hub d timestamp := (H.heartbeat hub.1 d timestamp, hub.2 ++ [(d, timestamp)])
  processDeviceUpdate hub d v hash region :=
    let (devices, hub') := H.processDeviceUpdate hub.1 d v hash region
    (devices, (hub', hub.2))
  connectedDevices hub := H.connectedDevices hub.1

/-- What the gateway calls of `alice_cdn`. -/
structure AliceCdn where
  SdfCdnRouter : Type
  routeSdfRequest : SdfCdnRouter → UInt64 → Option UInt64

/-- What the gateway calls of `alice_analytics`.  A latency is a number of
milliseconds, read as an exact number. -/
structure AliceAnalytics where
  DDSketch : Type
  HyperLogLog : Type
  CountMinSketch : Type
  newDDSketch : DDSketch
  newHyperLogLog : HyperLogLog
  newCountMinSketch : CountMinSketch
  insert : DDSketch → ℚ → DDSketch
  /-- `FnvHasher::hash_u64`. -/
  hashU64 : UInt64 → UInt64
  insertUnique : HyperLogLog → UInt64 → HyperLogLog
  insertCount : CountMinSketch → UInt64 → UInt64 → CountMinSketch

/-- The sibling crates a gateway is built against. -/
structure Siblings where
  crypto : AliceCrypto
  db : AliceDb
  cache : AliceCache
  sync : AliceSync
  cdn : AliceCdn
  analytics : AliceAnalytics

/-- The crates, with a log of the stores and one of the heartbeats. -/
abbrev Siblings.logged (S : Siblings) : Siblings :=
  { S with db := S.db.logged, sync := S.sync.logged }

/-! ## An implementation in memory -/

/-- Key material is the number in the context, masked with the secret; a sealed
payload is the payload behind its key. -/
abbrev AliceCrypto.inMemory : AliceCrypto where
  Key := Bytes32
  Nonce := Unit
  Error := Unit
  deriveKey context secret :=
    let number := Nat.ofDigitChars 10 (context.toList.filter Char.isDigit) 0
    .ofFn fun i : Fin 32 ↦ secret[i] ^^^ (toLe 32 number)[i]
  fromBytes bs := bs
  seal_ _ k p := .ok (k.toList ++ p)
  open_ k c := if c.take 32 = k.toList then .ok (c.drop 32) else .error ()
  debug _ := "Unauthenticated"

theorem AliceCrypto.inMemory_openSeal : AliceCrypto.inMemory.OpenSeal := by
  intro n k p c h
  obtain rfl : k.toList ++ p = c := Except.ok.inj h
  have hlen : k.toList.length = 32 := by simp
  have htake : (k.toList ++ p).take 32 = k.toList := List.take_left' hlen
  have hdrop : (k.toList ++ p).drop 32 = p := List.drop_left' hlen
  simp only [AliceCrypto.inMemory, htake, hdrop, if_true]

/-- The storage is the list of its records.  It refuses a record at the Morton
code `u64::MAX`. -/
abbrev AliceDb.inMemory : AliceDb where
  SdfStorage := List SdfRecord
  Error := Unit
  open_ _ _ _ := .ok []
  fromWorld x y z _ _ := ⟨x.bits.toUInt64 + 3 * y.bits.toUInt64 + 9 * z.bits.toUInt64⟩
  storeKeyframe s m v x :=
    if m.code = 0xFFFFFFFFFFFFFFFF then (.error (), s) else (.ok (), s ++ [⟨m, v, x⟩])
  querySpatialRegion s _ _ := .ok (s.map fun r ↦ (r.morton, r.sdf_value))
  toString _ := "out of bounds"

/-- A store that fails stores nothing. -/
theorem AliceDb.inMemory_failed (s : List SdfRecord) (m : MortonCode) (v : UInt32) (x : F32)
    (e : Unit) (s' : List SdfRecord)
    (h : AliceDb.inMemory.storeKeyframe s m v x = (.error e, s')) : s' = s := by
  simp only [AliceDb.inMemory] at h
  split at h
  · exact (Prod.mk.inj h).2.symm
  · cases h

theorem AliceDb.inMemory_addsAtMost : AliceDb.inMemory.AddsAtMost fun s ↦ s := by
  intro s m v x outcome s' h r hr
  simp only [AliceDb.inMemory] at h
  split at h
  · obtain ⟨rfl, rfl⟩ := Prod.mk.inj h
    exact Or.inl hr
  · obtain ⟨rfl, rfl⟩ := Prod.mk.inj h
    exact (List.mem_append.mp hr).imp_right fun hr ↦ ⟨rfl, List.mem_singleton.mp hr⟩

theorem AliceDb.inMemory_stored {m : MortonCode} (h : m.code ≠ 0xFFFFFFFFFFFFFFFF)
    (s : List SdfRecord) (v : UInt32) (x : F32) :
    AliceDb.inMemory.storeKeyframe s m v x = (.ok (), s ++ [⟨m, v, x⟩]) := if_neg h

/-- The hub knows the ids of its devices and notifies all others of an update. -/
abbrev AliceSync.inMemory : AliceSync where
  CloudSyncHub := List UInt64
  Device := UInt64
  new := []
  registerDevice hub d _ := hub.insert d
  heartbeat hub _ _ := hub
  processDeviceUpdate hub d _ _ _ := (hub.erase d, hub)
  connectedDevices hub := hub

/-- A single edge node serves every request. -/
abbrev AliceCdn.inMemory : AliceCdn where
  SdfCdnRouter := UInt64
  routeSdfRequest node _ := some node

/-- The sketches are exact. -/
abbrev AliceAnalytics.inMemory : AliceAnalytics where
  DDSketch := List ℚ
  HyperLogLog := List UInt64
  CountMinSketch := List (UInt64 × UInt64)
  newDDSketch := []
  newHyperLogLog := []
  newCountMinSketch := []
  insert s x := x :: s
  hashU64 d := d
  insertUnique s h := s.insert h
  insertCount s h n := (h, n) :: s

/-- The crates, all kept in memory. -/
abbrev Siblings.inMemory : Siblings where
  crypto := .inMemory
  db := .inMemory
  cache := mapCache UInt64 Bytes
  sync := .inMemory
  cdn := .inMemory
  analytics := .inMemory

end CloudGateway
