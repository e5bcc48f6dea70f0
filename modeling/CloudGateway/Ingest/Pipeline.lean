import CloudGateway.Library.Prog
import CloudGateway.DeviceKeys
import CloudGateway.QueueBridge
import CloudGateway.Telemetry

/-!
# The ingest pipeline

`processPacket` takes one encrypted packet through the pipeline: decrypt, parse,
store, cache, sync, route and count.  It is written as the chain of its lock-held
sections, each a function of the pipeline of its own, so that the same sections
can be run by one caller from start to end (here) or interleaved with those of
other callers (`CloudGateway.Ingest.Interleaving`).

An index out of range is a fault of the program (`Prog`), an early return is a
failure that keeps the effects so far.  The clock is an input: `CallClock` holds
the readings of one call.
-/

namespace CloudGateway

open LittleEndian

/-! ## Results -/

/-- Result of processing a single packet. -/
structure IngestResult where
  device_id : UInt64
  is_keyframe : Bool
  scene_version : UInt32
  sync_recipients : ℕ
  cached : Bool
  cdn_node : Option UInt64
  queue_index : UInt32
  latency_ms : ℚ
deriving DecidableEq

/-- Ingest pipeline error. -/
inductive IngestError where
  | unknownDevice (id : UInt64)
  | decryptionFailed (msg : String)
  | malformedPacket (msg : String)
  | storageError (msg : String)
deriving DecidableEq

/-- The counters of `SdfRoutingStats` the pipeline maintains. -/
@[ext]
structure SdfRoutingStats where
  total_requests : UInt64
  cache_hits : UInt64
deriving DecidableEq

/-! ## Time -/

/-- The clock readings of one call, in nanoseconds: at its start, in the sync
section, when the queue message is built, and before telemetry is recorded. -/
structure CallClock where
  start : ℕ
  sync : ℕ
  queue : ℕ
  telemetry : ℕ

namespace CallClock

/-- `start.elapsed().as_millis() as u64`. -/
def elapsedMillis (start now : ℕ) : UInt64 := UInt64.ofNat ((now - start) / 1000000)

/-- `start.elapsed().as_secs_f64() * 1000.0`. -/
def elapsedSecsTimes1000 (start now : ℕ) : ℚ := ((now - start : ℕ) : ℚ) / 1000000000 * 1000

end CallClock

/-! ## The pipeline -/

/-- ASP packet ingest pipeline, over the router of the gateway unless said otherwise. -/
structure IngestPipeline (S : Siblings) (R : RouterApi := GatewayRouter.api) where
  key_store : DeviceKeyStore S.crypto
  sdf_storage : S.db.SdfStorage
  /-- Hot frame cache: (`device_id` << 32 | `scene_version`) → packet bytes. -/
  frame_cache : S.cache.Cache
  cdn_router : Option S.cdn.SdfCdnRouter
  sync_hub : S.sync.CloudSyncHub
  queue_router : R.Router
  telemetry : GatewayTelemetry S.analytics
  routing_stats : SdfRoutingStats
  world_min : Vec3
  world_max : Vec3

variable {S : Siblings} {R : RouterApi}

/-- A method of the pipeline that can return an `IngestError`. -/
abbrev IngestM (S : Siblings) (A : Type) (R : RouterApi := GatewayRouter.api) :=
  Prog (IngestPipeline S R) IngestError A

namespace IngestPipeline

/-- Create a new ingest pipeline. -/
def new (S : Siblings) (db_path : String) (cache_capacity : ℕ) (master_secret : Bytes32)
    (world_min world_max : Vec3) : Except S.db.Error (IngestPipeline S) := do
  let sdf_storage ← S.db.open_ (db_path ++ "/sdf") world_min world_max
  return {
    key_store := .new S.crypto master_secret
    sdf_storage := sdf_storage
    frame_cache := S.cache.new cache_capacity
    cdn_router := none
    sync_hub := S.sync.new
    queue_router := GatewayRouter.new 4
    telemetry := .new S.analytics
    routing_stats := ⟨0, 0⟩
    world_min := world_min
    world_max := world_max }

/-- A new pipeline over the crates in memory. -/
def inMemory : IngestPipeline Siblings.inMemory where
  key_store := .new _ (.replicate 32 42)
  sdf_storage := []
  frame_cache := ∅
  cdn_router := none
  sync_hub := []
  queue_router := GatewayRouter.new 4
  telemetry := .new _
  routing_stats := ⟨0, 0⟩
  world_min := ⟨.negTen, .negTen, .negTen⟩
  world_max := ⟨.ten, .ten, .ten⟩

theorem new_inMemory (db_path : String) (cache_capacity : ℕ) :
    IngestPipeline.new Siblings.inMemory db_path cache_capacity (.replicate 32 42)
      ⟨.negTen, .negTen, .negTen⟩ ⟨.ten, .ten, .ten⟩ = .ok inMemory := rfl

/-- Initialize CDN router with edge node topology. -/
def setCdnRouter (self : IngestPipeline S R) (router : S.cdn.SdfCdnRouter) : IngestPipeline S R :=
  { self with cdn_router := some router }

/-! ## Reading fields -/

/-- A fixed-width field of a byte string: a fault when the range does not fit, a
malformed packet when the range has the wrong width. -/
def field {A : Type} (fromLe : Bytes → Option A) (msg : String) (bs : Bytes) (lo hi : ℕ) :
    IngestM S A R := do
  let range ← Prog.orFault (slice bs lo hi)
  Prog.orFail (.malformedPacket msg) (fromLe range)

/-! ## The sections of `process_packet` -/

/-- The plaintext header of a packet with the key of its device. -/
structure Header (S : Siblings) where
  device_id : UInt64
  scene_version : UInt32
  stream_key : S.crypto.Key

/-- A decrypted packet.  `morton` is where its keyframe was stored, if it was. -/
structure Frame where
  device_id : UInt64
  scene_version : UInt32
  decrypted : Bytes
  is_keyframe : Bool
  morton : Option MortonCode
deriving DecidableEq

/-- Key-cache section: the stream key of a device. -/
def lookupKey (device_id : UInt64) (self : IngestPipeline S R) :
    S.crypto.Key × IngestPipeline S R :=
  let (stream_key, key_store) := self.key_store.deriveDeviceKey device_id
  (stream_key, { self with key_store := key_store })

/-- Steps 1 and 2, up to the key: extract device id and scene version from the
packet header and look up the key of the device. -/
def receive (raw_data : Bytes) : IngestM S (Header S) R := do
  if raw_data.length < 12 then
    Prog.fail (.malformedPacket "Packet too short (< 12 bytes)")
  let device_id ← field u64FromLe "Invalid device_id field" raw_data 0 8
  let scene_version ← field u32FromLe "Invalid scene_version field" raw_data 8 12
  let stream_key ← Prog.locked (lookupKey device_id)
  return ⟨device_id, scene_version, stream_key⟩

/-- Step 3: a packet is a keyframe when its first decrypted byte is `0x01`. -/
def isKeyframe : Bytes → Bool
  | [] => false
  | b :: _ => b == 0x01

/-- Storage section: store one keyframe record. -/
def storeKeyframe (morton : MortonCode) (scene_version : UInt32) (sdf_value : F32)
    (self : IngestPipeline S R) : Except IngestError Unit × IngestPipeline S R :=
  let (stored, sdf_storage) :=
    S.db.storeKeyframe self.sdf_storage morton scene_version sdf_value
  (stored.mapError fun e ↦ .storageError (S.db.toString e),
    { self with sdf_storage := sdf_storage })

/-- Step 4, first half: store SDF data in ALICE-DB. -/
def storeSdf (scene_version : UInt32) (decrypted : Bytes) : IngestM S MortonCode R := do
  -- Extract center coordinates from payload (bytes 1-12)
  let (cx, cy, cz) ←
    if decrypted.length ≥ 13 then do
      let cx ← field F32.fromLe "Invalid cx field" decrypted 1 5
      let cy ← field F32.fromLe "Invalid cy field" decrypted 5 9
      let cz ← field F32.fromLe "Invalid cz field" decrypted 9 13
      pure (cx, cy, cz)
    else
      pure (F32.zero, F32.zero, F32.zero)
  let self ← Prog.get
  let morton := S.db.fromWorld cx cy cz self.world_min self.world_max
  -- Extract SDF value from payload (first f32 after position data)
  let sdf_value ←
    if decrypted.length ≥ 17 then
      field F32.fromLe "Invalid sdf_value field" decrypted 13 17
    else
      pure F32.zero
  Prog.attempt (storeKeyframe morton scene_version sdf_value)
  return morton

/-- Steps 2 to 4, up to the storage section: decrypt the payload, determine the
packet type, and store a keyframe that carries data. -/
def decryptStore (raw_data : Bytes) (header : Header S) : IngestM S Frame R := do
  let payload ← Prog.orFault (slice raw_data 12 raw_data.length)
  let decrypted ← Prog.ofExcept ((S.crypto.open_ header.stream_key payload).mapError
    fun e ↦ .decryptionFailed (S.crypto.debug e))
  let is_keyframe := isKeyframe decrypted
  let morton ←
    if is_keyframe ∧ decrypted.length > 1 then do
      let morton ← storeSdf header.scene_version decrypted
      pure (some morton)
    else
      pure none
  return ⟨header.device_id, header.scene_version, decrypted, is_keyframe, morton⟩

/-- Step 4, second half (lock #1): route a stored keyframe to a CDN edge node. -/
def routeCdn (frame : Frame) (self : IngestPipeline S R) : Option UInt64 × IngestPipeline S R :=
  (frame.morton.bind fun morton ↦ self.cdn_router.bind fun router ↦
    S.cdn.routeSdfRequest router morton.code, self)

/-- The key a frame is cached under. -/
def cacheKey (device_id : UInt64) (scene_version : UInt32) : UInt64 :=
  (device_id <<< 32) ||| scene_version.toUInt64

/-- Step 5, first half: look the frame up in the cache. -/
def lookupFrame (frame : Frame) (self : IngestPipeline S R) : Bool × IngestPipeline S R :=
  let (cached, frame_cache) :=
    S.cache.get self.frame_cache (cacheKey frame.device_id frame.scene_version)
  (cached.isSome, { self with frame_cache := frame_cache })

/-- Step 5, second half: cache the frame. -/
def cacheFrame (frame : Frame) (self : IngestPipeline S R) : Unit × IngestPipeline S R :=
  ((), { self with
    frame_cache := S.cache.put self.frame_cache
      (cacheKey frame.device_id frame.scene_version) frame.decrypted })

/-- Step 6 (lock #2): sync to other devices. -/
def syncDevices (clock : CallClock) (frame : Frame) (self : IngestPipeline S R) :
    ℕ × IngestPipeline S R :=
  let hub := S.sync.registerDevice self.sync_hub frame.device_id
    ("device-" ++ toString frame.device_id)
  let hub := S.sync.heartbeat hub frame.device_id
    (CallClock.elapsedMillis clock.start clock.sync)
  let update_region : SpatialRegion :=
    ⟨⟨.negTen, .negTen, .negTen⟩, ⟨.ten, .ten, .ten⟩⟩
  let (sync_recipients, hub) := S.sync.processDeviceUpdate hub frame.device_id
    frame.scene_version ⟨frame.scene_version.toUInt64⟩ update_region
  (sync_recipients.length, { self with sync_hub := hub })

/-- The message of step 7. -/
def queueMessage (clock : CallClock) (frame : Frame) : GatewayMessage where
  source_device_id := frame.device_id
  timestamp_ms := CallClock.elapsedMillis clock.start clock.queue
  priority := if frame.is_keyframe then .high else .normal
  payload := []
  routing_key := frame.scene_version

/-- Step 7 (lock #3): route to a processing queue. -/
def routeQueue (clock : CallClock) (frame : Frame) (self : IngestPipeline S R) :
    UInt32 × IngestPipeline S R :=
  let (queue_index, queue_router) :=
    R.routeWithPriority self.queue_router (queueMessage clock frame)
  (queue_index, { self with queue_router := queue_router })

/-- Step 8, first half (lock #4): record telemetry. -/
def recordTelemetry (clock : CallClock) (raw_len : ℕ) (frame : Frame)
    (self : IngestPipeline S R) : ℚ × IngestPipeline S R :=
  let latency_ms := CallClock.elapsedSecsTimes1000 clock.start clock.telemetry
  (latency_ms, { self with
    telemetry := self.telemetry.recordPacket frame.device_id raw_len latency_ms
      frame.is_keyframe })

/-- Step 8, second half (lock #5): record routing stats. -/
def recordStats (cache_hit : Bool) (self : IngestPipeline S R) : Unit × IngestPipeline S R :=
  ((), { self with
    routing_stats := {
      total_requests := self.routing_stats.total_requests + 1
      cache_hits :=
        if cache_hit then self.routing_stats.cache_hits + 1
        else self.routing_stats.cache_hits } })

/-- Process an incoming ASP packet.  The source address of the packet is not
used. -/
def processPacket (clock : CallClock) (raw_data : Bytes) : IngestM S IngestResult R := do
  let header ← receive raw_data
  let frame ← decryptStore raw_data header
  let cdn_node ← Prog.locked (routeCdn frame)
  let cache_hit ← Prog.locked (lookupFrame frame)
  Prog.locked (cacheFrame frame)
  let sync_recipients ← Prog.locked (syncDevices clock frame)
  let queue_index ← Prog.locked (routeQueue clock frame)
  let latency_ms ← Prog.locked (recordTelemetry clock raw_data.length frame)
  Prog.locked (recordStats cache_hit)
  return {
    device_id := frame.device_id
    is_keyframe := frame.is_keyframe
    scene_version := frame.scene_version
    sync_recipients := sync_recipients
    cached := true
    cdn_node := cdn_node
    queue_index := queue_index
    latency_ms := latency_ms }

/-! ## The other methods -/

/-- Query SDF data for a spatial region. -/
def querySpatialRegion (self : IngestPipeline S R) (region_min region_max : Vec3) :
    Except IngestError (List (MortonCode × F32)) :=
  (S.db.querySpatialRegion self.sdf_storage region_min region_max).mapError
    fun e ↦ .storageError (S.db.toString e)

/-- Get cached frame for a device + scene version. -/
def getCachedFrame (self : IngestPipeline S R) (device_id : UInt64) (scene_version : UInt32) :
    Option Bytes × IngestPipeline S R :=
  let (cached, frame_cache) := S.cache.get self.frame_cache (cacheKey device_id scene_version)
  (cached, { self with frame_cache := frame_cache })

/-- Get telemetry snapshot. -/
def telemetrySnapshot (self : IngestPipeline S R) : GatewayTelemetry S.analytics := self.telemetry

/-- Get routing stats. -/
def routingStats (self : IngestPipeline S R) : SdfRoutingStats := self.routing_stats

/-- Get connected device count. -/
def connectedDeviceCount (self : IngestPipeline S R) : ℕ :=
  (S.sync.connectedDevices self.sync_hub).length

end IngestPipeline

end CloudGateway
