import CloudGateway.Ingest.Step

/-!
# Runs of the pipeline

`Run p₀ ds p` says that the pipeline `p` was reached from `p₀` by a sequence of
`process_packet` calls with the deliveries `ds`: what was received, what the call
returned and what the payload opened to.  The laws about runs hold for any number
of calls, from any sender.

The law of this file is about the frame cache.  Under each key it holds the
payload of the last accepted packet *with that key* (`Run.represents`).  The key of
`(d, v)` is 64 bits wide and keeps 32 of the device id (`cacheKey_eq_iff`), so this
need not be a packet of `d`; `cachedFrame_of_run` is the exact condition under
which it is.
-/

namespace CloudGateway

open LittleEndian KeyedCache

variable {S : Siblings} {R : RouterApi}

/-! ## Deliveries -/

/-- An accepted packet: what its result reports, and its decrypted payload. -/
structure Accepted where
  device_id : UInt64
  scene_version : UInt32
  is_keyframe : Bool
  payload : Bytes
deriving DecidableEq

/-- One call of `process_packet`: its input, its result, and what the payload
opened to. -/
structure Delivery where
  clock : CallClock
  raw : Bytes
  result : Except IngestError IngestResult
  opened : Option Bytes

/-- The accepted packet of a delivery. -/
def Delivery.accepted (x : Delivery) : Option Accepted :=
  match x.result, x.opened with
  | .ok r, some pl => some ⟨r.device_id, r.scene_version, r.is_keyframe, pl⟩
  | _, _ => none

/-- The accepted packets among some deliveries, in order. -/
def acceptedOf (ds : List Delivery) : List Accepted := ds.filterMap Delivery.accepted

/-- The most recent accepted packet that satisfies `P`. -/
def latest (P : Accepted → Bool) (ds : List Delivery) : Option Accepted :=
  (acceptedOf ds).reverse.find? P

/-- The payload of the most recent accepted packet of device `d` and version `v`. -/
def latestFrame (d : UInt64) (v : UInt32) (ds : List Delivery) : Option Bytes :=
  (latest (fun a ↦ a.device_id = d ∧ a.scene_version = v) ds).map Accepted.payload

theorem acceptedOf_append (ds es : List Delivery) :
    acceptedOf (ds ++ es) = acceptedOf ds ++ acceptedOf es := List.filterMap_append

theorem acceptedOf_snoc_none {ds : List Delivery} {x : Delivery} (h : x.accepted = none) :
    acceptedOf (ds ++ [x]) = acceptedOf ds := by
  simp [acceptedOf, h]

theorem acceptedOf_snoc_some {ds : List Delivery} {x : Delivery} {a : Accepted}
    (h : x.accepted = some a) : acceptedOf (ds ++ [x]) = acceptedOf ds ++ [a] := by
  simp [acceptedOf, h]

theorem latest_snoc_none {P : Accepted → Bool} {ds : List Delivery} {x : Delivery}
    (h : x.accepted = none) : latest P (ds ++ [x]) = latest P ds := by
  rw [latest, latest, acceptedOf_snoc_none h]

theorem latest_snoc_some {P : Accepted → Bool} {ds : List Delivery} {x : Delivery}
    {a : Accepted} (h : x.accepted = some a) :
    latest P (ds ++ [x]) = if P a then some a else latest P ds := by
  rw [latest, latest, acceptedOf_snoc_some h, List.reverse_append]
  cases hP : P a <;> simp [hP]

namespace IngestPipeline

/-! ## Runs -/

/-- A sequence of calls of `process_packet` on one pipeline. -/
inductive Run (p₀ : IngestPipeline S R) : List Delivery → IngestPipeline S R → Prop
  /-- No call yet. -/
  | start : Run p₀ [] p₀
  /-- One more call. -/
  | deliver {ds : List Delivery} {p q : IngestPipeline S R} {clock : CallClock} {raw : Bytes}
      {res : Except IngestError IngestResult} (h : Run p₀ ds p)
      (hstep : (processPacket clock raw).run p = some (res, q)) :
      Run p₀ (ds ++ [⟨clock, raw, res, (p.opened raw).toOption⟩]) q

/-- One more call, computed. -/
def ingest (w : List Delivery × IngestPipeline S R) (call : CallClock × Bytes) :
    Option (List Delivery × IngestPipeline S R) :=
  ((processPacket call.1 call.2).run w.2).map fun r ↦
    (w.1 ++ [⟨call.1, call.2, r.1, (w.2.opened call.2).toOption⟩], r.2)

/-- A sequence of calls, computed. -/
def ingestAll (p₀ : IngestPipeline S R) (calls : List (CallClock × Bytes)) :
    Option (List Delivery × IngestPipeline S R) := calls.foldlM ingest ([], p₀)

/-- What a sequence of calls does, from what it did up to the last one. -/
theorem ingestAll_snoc {p₀ p q : IngestPipeline S R} {calls : List (CallClock × Bytes)}
    {ds : List Delivery} {clock : CallClock} {raw : Bytes}
    {res : Except IngestError IngestResult} (h : ingestAll p₀ calls = some (ds, p))
    (hrun : (processPacket clock raw).run p = some (res, q)) :
    ingestAll p₀ (calls ++ [(clock, raw)])
      = some (ds ++ [⟨clock, raw, res, (p.opened raw).toOption⟩], q) := by
  have hlast : ingest (ds, p) (clock, raw)
      = some (ds ++ [⟨clock, raw, res, (p.opened raw).toOption⟩], q) := by
    simp only [ingest, hrun, Option.map_some]
  rw [ingestAll] at h ⊢
  rw [List.foldlM_append, h]
  simpa using hlast

theorem ingestAll_snoc_inv {p₀ q : IngestPipeline S R} {calls : List (CallClock × Bytes)}
    {call : CallClock × Bytes} {ds : List Delivery}
    (h : ingestAll p₀ (calls ++ [call]) = some (ds, q)) :
    ∃ es p, ingestAll p₀ calls = some (es, p) ∧
      ∃ res, (processPacket call.1 call.2).run p = some (res, q) ∧
        ds = es ++ [⟨call.1, call.2, res, (p.opened call.2).toOption⟩] := by
  rw [ingestAll, List.foldlM_append] at h
  obtain ⟨⟨es, p⟩, hpre, hlast⟩ := Option.bind_eq_some_iff.mp h
  simp only [List.foldlM_cons, List.foldlM_nil, bind_pure] at hlast
  obtain ⟨⟨res, q'⟩, hrun, heq⟩ := Option.map_eq_some_iff.mp hlast
  obtain ⟨rfl, rfl⟩ := Prod.mk.inj heq
  exact ⟨es, p, hpre, res, hrun, rfl⟩

/-- What is computed is a run. -/
theorem run_of_ingestAll {p₀ p : IngestPipeline S R} {calls : List (CallClock × Bytes)}
    {ds : List Delivery} (h : ingestAll p₀ calls = some (ds, p)) : Run p₀ ds p := by
  induction calls using List.reverseRecOn generalizing ds p with
  | nil =>
      obtain ⟨rfl, rfl⟩ := Prod.mk.inj (Option.some.inj h)
      exact .start
  | append_singleton calls call ih =>
      obtain ⟨es, q, hpre, res, hrun, rfl⟩ := ingestAll_snoc_inv h
      exact .deliver (ih hpre) hrun

/-- What one call adds to the accepted packets. -/
theorem Ingests.accepted_of_delivery {clock : CallClock} {raw : Bytes}
    {p q : IngestPipeline S R} {res : Except IngestError IngestResult}
    (hi : Ingests clock raw p res q) :
    (∃ err, res = .error err ∧
      Delivery.accepted ⟨clock, raw, res, (p.opened raw).toOption⟩ = none) ∨
    (∃ r pl, res = .ok r ∧ p.opened raw = .ok pl ∧
      Delivery.accepted ⟨clock, raw, res, (p.opened raw).toOption⟩
        = some ⟨headerDevice raw, headerVersion raw, isKeyframe pl, pl⟩) := by
  cases hi with
  | malformed _ => exact Or.inl ⟨_, rfl, rfl⟩
  | undecryptable _ _ => exact Or.inl ⟨_, rfl, rfl⟩
  | refused _ _ _ => exact Or.inl ⟨_, rfl, rfl⟩
  | accepted _ ho _ => exact Or.inr ⟨_, _, rfl, ho, by rw [ho]; rfl⟩

/-- A run keeps the master secret. -/
theorem Run.master_secret {p₀ p : IngestPipeline S R} {ds : List Delivery} (h : Run p₀ ds p) :
    p.key_store.master_secret = p₀.key_store.master_secret := by
  induction h with
  | start => rfl
  | deliver _ hstep ih =>
      rw [← ih]
      cases ingests_of_processPacket hstep with
      | malformed _ => rfl
      | undecryptable _ _ => exact DeviceKeyStore.master_secret_deriveDeviceKey _ _
      | refused _ _ _ => exact DeviceKeyStore.master_secret_deriveDeviceKey _ _
      | accepted _ _ _ => exact DeviceKeyStore.master_secret_deriveDeviceKey _ _

/-- A run keeps the world bounds. -/
theorem Run.world {p₀ p : IngestPipeline S R} {ds : List Delivery} (h : Run p₀ ds p) :
    p.world_min = p₀.world_min ∧ p.world_max = p₀.world_max := by
  induction h with
  | start => exact ⟨rfl, rfl⟩
  | deliver _ hstep ih => cases ingests_of_processPacket hstep <;> exact ih

/-! ## The frame cache -/

/-- The cache key of a packet keeps its version and the low 32 bits of its device
id. -/
theorem toNat_cacheKey (d : UInt64) (v : UInt32) :
    (cacheKey d v).toNat = d.toNat % 2 ^ 32 * 2 ^ 32 + v.toNat := by
  have hv : v.toNat < 2 ^ 32 := v.toNat_lt
  have hshift : (d <<< 32).toNat = (d.toNat % 2 ^ 32) <<< 32 := by
    rw [UInt64.toNat_shiftLeft, Nat.shiftLeft_eq, Nat.shiftLeft_eq]
    have h32 : (32 : UInt64).toNat % 64 = 32 := rfl
    rw [h32]
    omega
  rw [cacheKey, UInt64.toNat_or, hshift, UInt32.toNat_toUInt64,
    ← Nat.shiftLeft_add_eq_or_of_lt hv, Nat.shiftLeft_eq]

/-- Two packets share a cache key exactly when they agree on the version and on
the low 32 bits of the device id. -/
theorem cacheKey_eq_iff {d d' : UInt64} {v v' : UInt32} :
    cacheKey d v = cacheKey d' v' ↔ d.toNat % 2 ^ 32 = d'.toNat % 2 ^ 32 ∧ v = v' := by
  have hv : v.toNat < 2 ^ 32 := v.toNat_lt
  have hv' : v'.toNat < 2 ^ 32 := v'.toNat_lt
  rw [← UInt64.toNat_inj, toNat_cacheKey, toNat_cacheKey, ← UInt32.toNat_inj]
  omega

/-- The most recent accepted packet under a cache key. -/
def latestUnder (k : UInt64) (ds : List Delivery) : Option Accepted :=
  latest (fun a ↦ cacheKey a.device_id a.scene_version = k) ds

/-- One call puts the payload of an accepted packet under its key, and nothing
else. -/
theorem Ingests.represents {clock : CallClock} {raw : Bytes} {p q : IngestPipeline S R}
    {res : Except IngestError IngestResult} (hi : Ingests clock raw p res q)
    {ds : List Delivery}
    (h : S.cache.Represents p.frame_cache fun k ↦ (latestUnder k ds).map Accepted.payload) :
    S.cache.Represents q.frame_cache fun k ↦
      (latestUnder k (ds ++ [⟨clock, raw, res, (p.opened raw).toOption⟩])).map
        Accepted.payload := by
  rcases hi.accepted_of_delivery with ⟨err, rfl, hnone⟩ | ⟨r, pl, rfl, ho, hsome⟩
  · have hcache : q.frame_cache = p.frame_cache := by cases hi <;> rfl
    simp only [latestUnder, latest_snoc_none hnone, hcache]
    exact h
  · obtain ⟨pl', s, -, ho', -, -, rfl⟩ := hi.accepted_inv rfl
    obtain rfl := Except.ok.inj (ho.symm.trans ho')
    simp only [latestUnder, latest_snoc_some hsome]
    have hput := (h.get (cacheKey (headerDevice raw) (headerVersion raw))).put
      (cacheKey (headerDevice raw) (headerVersion raw)) pl
    refine cast (congrArg (S.cache.Represents _) ?_) hput
    funext k
    by_cases hk : cacheKey (headerDevice raw) (headerVersion raw) = k
    · subst hk
      simp
    · have hk' : k ≠ cacheKey (headerDevice raw) (headerVersion raw) := Ne.symm hk
      simp [hk, Function.update_of_ne hk', latestUnder]

/-- **The frame cache over a run** represents, under each key, the payload of the
last accepted packet with that key. -/
theorem Run.represents {p₀ p : IngestPipeline S R} {ds : List Delivery} (h : Run p₀ ds p)
    {cap : ℕ} (hnew : p₀.frame_cache = S.cache.new cap) :
    S.cache.Represents p.frame_cache fun k ↦ (latestUnder k ds).map Accepted.payload := by
  induction h with
  | start => rw [hnew]; exact CacheApi.Represents.new cap
  | deliver _ hstep ih => exact (ingests_of_processPacket hstep).represents ih

/-- The most recent accepted packet that shares the scene version and the low 32
bits of the device id with `(d, v)`. -/
def latestAlias (d : UInt64) (v : UInt32) (ds : List Delivery) : Option Accepted :=
  latest (fun a ↦ a.device_id.toNat % 2 ^ 32 = d.toNat % 2 ^ 32 ∧ a.scene_version = v) ds

theorem latestUnder_cacheKey (d : UInt64) (v : UInt32) (ds : List Delivery) :
    latestUnder (cacheKey d v) ds = latestAlias d v ds := by
  simp only [latestUnder, latestAlias, cacheKey_eq_iff]

/-- The most recent packet satisfying `P` is the most recent one satisfying a
stronger `Q`, if it does satisfy `Q`. -/
theorem latest_of_imp {P Q : Accepted → Bool} (hQP : ∀ a, Q a = true → P a = true)
    {ds : List Delivery} {a : Accepted} (h : latest P ds = some a) (hQ : Q a = true) :
    latest Q ds = some a := by
  unfold latest at h ⊢
  generalize (acceptedOf ds).reverse = as at h ⊢
  induction as with
  | nil => cases h
  | cons b bs ih =>
      rw [List.find?_cons] at h ⊢
      cases hP : P b with
      | true =>
          rw [hP] at h
          obtain rfl := Option.some.inj h
          rw [hQ]
      | false =>
          rw [hP] at h
          cases hb : Q b with
          | true => rw [hQP b hb] at hP; cases hP
          | false => exact ih h

/-- The frame the cache holds under the key of `(d, v)` is `d`'s own: it is from
`d`, or cannot be told apart from what `d` sent last. -/
def OwnFrame (d : UInt64) (v : UInt32) (ds : List Delivery) : Prop :=
  ∀ a, latestAlias d v ds = some a →
    a.device_id = d ∨ latestFrame d v ds = some a.payload

/-- When the frame under the key of `(d, v)` is `d`'s own, it is `d`'s latest. -/
theorem latestAlias_of_ownFrame {d : UInt64} {v : UInt32} {ds : List Delivery}
    (h : OwnFrame d v ds) {a : Accepted} (ha : latestAlias d v ds = some a) :
    latestFrame d v ds = some a.payload := by
  rcases h a ha with hd | hpl
  · have hv : a.scene_version = v := by
      have := List.find?_some ha
      simp only [decide_eq_true_eq] at this
      exact this.2
    have hown : latest (fun a ↦ a.device_id = d ∧ a.scene_version = v) ds = some a := by
      refine latest_of_imp ?_ ha (by simp [hd, hv])
      intro b hb
      simp only [decide_eq_true_eq] at hb ⊢
      exact ⟨by rw [hb.1], hb.2⟩
    rw [latestFrame, hown, Option.map_some]
  · exact hpl

theorem frame_cache_of_new {path : String} {cap : ℕ} {secret : Bytes32} {lo hi : Vec3}
    {p₀ : IngestPipeline S} (h : IngestPipeline.new S path cap secret lo hi = .ok p₀) :
    p₀.frame_cache = S.cache.new cap ∧ p₀.key_store = .new S.crypto secret := by
  unfold IngestPipeline.new at h
  cases hopen : S.db.open_ (path ++ "/sdf") lo hi with
  | error e => rw [hopen] at h; cases h
  | ok s =>
      rw [hopen] at h
      obtain rfl := Except.ok.inj h
      exact ⟨rfl, rfl⟩

/-- A new pipeline has counted nothing. -/
theorem counters_of_new {path : String} {cap : ℕ} {secret : Bytes32} {lo hi : Vec3}
    {p₀ : IngestPipeline S} (h : IngestPipeline.new S path cap secret lo hi = .ok p₀) :
    p₀.queue_router = .new 4 ∧ p₀.telemetry = .new S.analytics ∧
      p₀.routing_stats = ⟨0, 0⟩ := by
  unfold IngestPipeline.new at h
  cases hopen : S.db.open_ (path ++ "/sdf") lo hi with
  | error e => rw [hopen] at h; cases h
  | ok s =>
      rw [hopen] at h
      obtain rfl := Except.ok.inj h
      exact ⟨rfl, rfl, rfl⟩

/-- **Frame-cache identity.**  After any run of a new pipeline, `get_cached_frame`
answers `(d, v)` with nothing or with the latest frame of device `d` and version
`v`, provided the frame under the key of `(d, v)` is `d`'s own; and over a cache
that keeps everything it does so only then. -/
theorem cachedFrame_of_run (hcache : S.cache.Sound) {path : String} {cap : ℕ}
    {secret : Bytes32} {lo hi : Vec3} {p₀ p : IngestPipeline S} {ds : List Delivery}
    (hnew : IngestPipeline.new S path cap secret lo hi = .ok p₀) (hrun : Run p₀ ds p)
    (d : UInt64) (v : UInt32) :
    (OwnFrame d v ds →
      (p.getCachedFrame d v).1 = none ∨ (p.getCachedFrame d v).1 = latestFrame d v ds) ∧
    (S.cache.Lossless →
      ((p.getCachedFrame d v).1 = none ∨ (p.getCachedFrame d v).1 = latestFrame d v ds) →
      OwnFrame d v ds) := by
  have hrep := hrun.represents (frame_cache_of_new hnew).1
  have hget : (p.getCachedFrame d v).1 = (S.cache.get p.frame_cache (cacheKey d v)).1 := rfl
  rw [hget]
  constructor
  · intro hown
    rcases hcache.get hrep (cacheKey d v) with h | h
    · exact Or.inl h
    · rw [h, latestUnder_cacheKey]
      cases ha : latestAlias d v ds with
      | none => exact Or.inl rfl
      | some a => exact Or.inr (latestAlias_of_ownFrame hown ha).symm
  · intro hloss h a ha
    rw [hloss.get hrep (cacheKey d v), latestUnder_cacheKey, ha, Option.map_some] at h
    rcases h with h | h
    · cases h
    · exact Or.inr h.symm

/-- Device `2³² + 1` shares its cache keys with device `1`: after one frame of each,
the cache answers device `1` with the frame of the other. -/
theorem cachedFrame_aliased : Siblings.inMemory.cache.Sound ∧ ∃ ds p, Run inMemory ds p ∧
    acceptedOf ds = [⟨1, 1, false, [2, 7]⟩, ⟨4294967297, 1, false, [2, 9]⟩] ∧
    latestFrame 1 1 ds = some [2, 7] ∧ (p.getCachedFrame 1 1).1 = some [2, 9] := by
  refine ⟨(mapCache_lossless UInt64 Bytes).sound, ?_⟩
  let clock : CallClock := ⟨0, 0, 0, 0⟩
  let sealed (d : UInt64) (pl : Bytes) : Bytes :=
    (deviceKey AliceCrypto.inMemory (.replicate 32 42) d).toList ++ pl
  let calls := [(clock, packet 1 1 (sealed 1 [2, 7])),
    (clock, packet 4294967297 1 (sealed 4294967297 [2, 9]))]
  have hcalls : (ingestAll inMemory calls).map (fun w ↦ (acceptedOf w.1, latestFrame 1 1 w.1,
      (w.2.getCachedFrame 1 1).1)) = some ([⟨1, 1, false, [2, 7]⟩,
        ⟨4294967297, 1, false, [2, 9]⟩], some [2, 7], some [2, 9]) := by decide +kernel
  obtain ⟨⟨ds, p⟩, hw, heq⟩ := Option.map_eq_some_iff.mp hcalls
  simp only [Prod.mk.injEq] at heq
  exact ⟨ds, p, run_of_ingestAll hw, heq⟩

/-- Two devices with different low bits, and the packet of the first once more with its version
rewritten on the way. -/
theorem cachedFrame_of_run_inMemory : ∃ ds p, Run inMemory ds p ∧
    acceptedOf ds = [⟨1, 1, false, [2, 7]⟩, ⟨2, 1, false, [2, 9]⟩, ⟨1, 2, false, [2, 7]⟩] ∧
    ∀ v ∈ [1, 2], OwnFrame 1 v ds ∧
      ((p.getCachedFrame 1 v).1 = none ∨ (p.getCachedFrame 1 v).1 = latestFrame 1 v ds) := by
  let clock : CallClock := ⟨0, 0, 0, 0⟩
  let sealed (d : UInt64) (pl : Bytes) : Bytes :=
    (deviceKey AliceCrypto.inMemory (.replicate 32 42) d).toList ++ pl
  let calls := [(clock, packet 1 1 (sealed 1 [2, 7])), (clock, packet 2 1 (sealed 2 [2, 9])),
    (clock, packet 1 2 (sealed 1 [2, 7]))]
  have hcalls : (ingestAll inMemory calls).map (fun w ↦
      (acceptedOf w.1, latestAlias 1 1 w.1, latestAlias 1 2 w.1))
        = some ([⟨1, 1, false, [2, 7]⟩, ⟨2, 1, false, [2, 9]⟩, ⟨1, 2, false, [2, 7]⟩],
            some ⟨1, 1, false, [2, 7]⟩, some ⟨1, 2, false, [2, 7]⟩) := by decide +kernel
  obtain ⟨⟨ds, p⟩, hw, heq⟩ := Option.map_eq_some_iff.mp hcalls
  simp only [Prod.mk.injEq] at heq
  obtain ⟨haccepted, hfirst, hrewritten⟩ := heq
  have hown : ∀ v ∈ [1, 2], OwnFrame 1 v ds := by
    intro v hv a ha
    rcases List.mem_pair.mp hv with rfl | rfl
    · obtain rfl := Option.some.inj (hfirst.symm.trans ha)
      exact Or.inl rfl
    · obtain rfl := Option.some.inj (hrewritten.symm.trans ha)
      exact Or.inl rfl
  exact ⟨ds, p, run_of_ingestAll hw, haccepted, fun v hv ↦ ⟨hown v hv,
    (cachedFrame_of_run (mapCache_lossless UInt64 Bytes).sound (new_inMemory "db" 1000)
      (run_of_ingestAll hw) 1 v).1 (hown v hv)⟩⟩

end IngestPipeline

end CloudGateway
