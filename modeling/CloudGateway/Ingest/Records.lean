import CloudGateway.Ingest.Logged

/-!
# What a run leaves behind

The records written to the SDF storage and the messages routed, as the log of a run has
them, the keyframes counted by telemetry and the devices in the key cache: each is a
function of the deliveries of the run.

* A record is written for each accepted keyframe *that carries more than its type
  byte*, in order; fields the payload is too short for are zero
  (`keyframes_of_run`).
* A device is in the key cache as soon as a well-formed packet names it, whether or
  not the packet opens (`keyCache_of_run`).
-/

namespace CloudGateway

open LittleEndian KeyedCache

variable {S : Siblings} {R : RouterApi}

/-- The record of an accepted keyframe between the given world bounds. -/
def Accepted.record (S : Siblings) (lo hi : Vec3) (a : Accepted) : SdfRecord :=
  recordBetween S lo hi a.scene_version a.payload

/-- The records some accepted packets leave: one for each keyframe that carries more than
its type byte. -/
def recordsOf (S : Siblings) (lo hi : Vec3) (as : List Accepted) : List SdfRecord :=
  (as.filter fun a ↦ a.is_keyframe ∧ 1 < a.payload.length).map (Accepted.record S lo hi)

theorem recordsOf_append {lo hi : Vec3} (as bs : List Accepted) :
    recordsOf S lo hi (as ++ bs) = recordsOf S lo hi as ++ recordsOf S lo hi bs := by
  rw [recordsOf, List.filter_append, List.map_append]
  rfl

/-- A payload leaves a record when the storage section stores it. -/
theorem recordsOf_singleton {lo hi : Vec3} {d : UInt64} {v : UInt32} {pl : Bytes} :
    recordsOf S lo hi [⟨d, v, IngestPipeline.isKeyframe pl, pl⟩]
      = if IngestPipeline.StoresRecord pl then [recordBetween S lo hi v pl] else [] := by
  by_cases hst : IngestPipeline.StoresRecord pl
  · have hst' : IngestPipeline.isKeyframe pl = true ∧ 1 < pl.length := hst
    simp [recordsOf, Accepted.record, hst, hst']
  · have hst' : ¬ (IngestPipeline.isKeyframe pl = true ∧ 1 < pl.length) := hst
    simp only [recordsOf, List.filter_cons, hst', decide_false, Bool.false_eq_true, if_false,
      List.filter_nil, List.map_nil, hst]

namespace IngestPipeline

/-! ## Keyframes -/

/-- A call writes the record of its packet, if the packet has one. -/
theorem Ingests.written {clock : CallClock} {raw : Bytes} {p q : IngestPipeline S R}
    {res : Except IngestError IngestResult} (hi : Ingests clock raw p res q) {lo hi' : Vec3} :
    written (Delivery.storeCall S lo hi' ⟨clock, raw, res, (p.opened raw).toOption⟩).toList
      = recordsOf S lo hi' (acceptedOf [⟨clock, raw, res, (p.opened raw).toOption⟩]) := by
  rcases hi.accepted_of_delivery with ⟨err, rfl, hnone⟩ | ⟨r, pl, rfl, ho, hsome⟩
  · have hacc : acceptedOf [⟨clock, raw, .error err, (p.opened raw).toOption⟩] = [] := by
      simp [acceptedOf, hnone]
    rw [hacc]
    unfold Delivery.storeCall
    cases (p.opened raw).toOption with
    | none => rfl
    | some pl =>
        rw [Option.bind_some]
        split <;> rfl
  · obtain ⟨-, -, hlen, -⟩ := hi.accepted_inv rfl
    have hacc : acceptedOf [⟨clock, raw, .ok r, (p.opened raw).toOption⟩]
        = [⟨headerDevice raw, headerVersion raw, isKeyframe pl, pl⟩] := by
      simp [acceptedOf, hsome]
    have hopened : (p.opened raw).toOption = some pl := by rw [ho]; rfl
    rw [hacc, recordsOf_singleton, hopened, Delivery.storeCall_of_opened hlen]
    split <;> rfl

/-- **Records of a run.**  The records written are those of the accepted keyframes with
data, in order, made of the packet's own version and payload. -/
theorem Run.written {p₀ p : IngestPipeline S R} {ds : List Delivery} (h : Run p₀ ds p)
    {lo hi : Vec3} :
    written (logOf S lo hi ds).stores = recordsOf S lo hi (acceptedOf ds) := by
  induction h with
  | start => rfl
  | deliver _ hstep ih =>
      rw [logOf_snoc, Log.append_stores, written_append, ih, acceptedOf_append, recordsOf_append]
      exact congrArg _ (ingests_of_processPacket hstep).written

/-- One call counts one keyframe if its packet is accepted as one, and none otherwise. -/
theorem Ingests.keyframe_count {clock : CallClock} {raw : Bytes} {p q : IngestPipeline S R}
    {res : Except IngestError IngestResult} (hi : Ingests clock raw p res q) :
    q.telemetry.keyframe_count = p.telemetry.keyframe_count + UInt64.ofNat
      ((acceptedOf [⟨clock, raw, res, (p.opened raw).toOption⟩]).countP
        Accepted.is_keyframe) := by
  rcases hi.accepted_of_delivery with ⟨err, rfl, hnone⟩ | ⟨r, pl, rfl, ho, hsome⟩
  · have hq : q.telemetry = p.telemetry := by
      cases hi <;> rfl
    simp [acceptedOf, hnone, hq]
  · obtain ⟨pl', s, -, ho', hs, -, rfl⟩ := hi.accepted_inv rfl
    obtain rfl := Except.ok.inj (ho.symm.trans ho')
    rw [finish_telemetry]
    cases hk : isKeyframe pl <;>
      simp [acceptedOf, hsome, GatewayTelemetry.recordPacket, frameUnder, hk, withStorage,
        Bool.toUInt64]

/-- Telemetry counts the keyframes among the accepted packets. -/
theorem Run.keyframe_count {p₀ p : IngestPipeline S R} {ds : List Delivery}
    (h : Run p₀ ds p) :
    p.telemetry.keyframe_count = p₀.telemetry.keyframe_count +
      UInt64.ofNat ((acceptedOf ds).countP Accepted.is_keyframe) := by
  induction h with
  | start => simp [acceptedOf]
  | deliver _ hstep ih =>
      rw [(ingests_of_processPacket hstep).keyframe_count, ih, acceptedOf_append,
        List.countP_append, UInt64.ofNat_add, UInt64.add_assoc]

/-- An accepted packet is reported as a keyframe when its payload starts with
`0x01`. -/
theorem Run.is_keyframe_iff {p₀ p : IngestPipeline S R} {ds : List Delivery}
    (h : Run p₀ ds p) :
    ∀ a ∈ acceptedOf ds, (a.is_keyframe = true ↔ a.payload.head? = some 1) := by
  induction h with
  | start => intro a ha; cases ha
  | deliver _ hstep ih =>
      intro a ha
      rcases (ingests_of_processPacket hstep).accepted_of_delivery with
        ⟨_, _, hnone⟩ | ⟨_, pl, _, _, hsome⟩
      · rw [acceptedOf_snoc_none hnone] at ha
        exact ih a ha
      · rw [acceptedOf_snoc_some hsome] at ha
        rcases List.mem_append.mp ha with ha | ha
        · exact ih a ha
        · obtain rfl := List.mem_singleton.mp ha
          exact isKeyframe_iff

/-- The messages of some deliveries are those of their accepted packets. -/
theorem map_message {B : Type} {f : GatewayMessage → B} {g : Accepted → B} {ds : List Delivery}
    (h : ∀ x ∈ ds, ∀ a, x.accepted = some a →
      f (queueMessage x.clock ⟨a.device_id, a.scene_version, a.payload, a.is_keyframe, none⟩)
        = g a) :
    (ds.filterMap Delivery.message).map f = (acceptedOf ds).map g := by
  rw [acceptedOf, List.map_filterMap, List.map_filterMap]
  refine List.filterMap_congr fun x hx ↦ ?_
  rw [Delivery.message, Option.map_map]
  cases ha : x.accepted with
  | none => rfl
  | some a => exact congrArg some (h x hx a ha)

/-- **Keyframe conservation.**  Over any run, the records written to storage are, one
to one and in order, those of the packets reported as keyframes that carry more than
the type byte; the packets reported as keyframes are those counted by telemetry and
routed with high priority; and a record holds the centre and SDF value of its own
packet, zero where the payload is too short for one. -/
theorem keyframes_of_run {p₀ : IngestPipeline S}
    {q : IngestPipeline S.logged GatewayRouter.api.logged} {ds : List Delivery}
    (hrun : Run (p₀.logged .empty) ds q) :
    written q.log.stores =
      ((acceptedOf ds).filter fun a ↦ a.is_keyframe ∧ 1 < a.payload.length).map
        (fun a ↦ ⟨S.db.fromWorld (centre a.payload).1 (centre a.payload).2.1
          (centre a.payload).2.2 p₀.world_min p₀.world_max, a.scene_version,
          sdfValue a.payload⟩) ∧
    (∀ a ∈ acceptedOf ds, (a.is_keyframe = true ↔ a.payload.head? = some 1)) ∧
    q.telemetry.keyframe_count = p₀.telemetry.keyframe_count +
      UInt64.ofNat ((acceptedOf ds).countP Accepted.is_keyframe) ∧
    q.log.routed.map (fun m ↦ (m.source_device_id, m.priority))
      = (acceptedOf ds).map fun a ↦ (a.device_id, if a.is_keyframe then .high else .normal) := by
  obtain ⟨p, hplain, rfl⟩ := hrun.of_logged
  refine ⟨hplain.written, hplain.is_keyframe_iff, hplain.keyframe_count, ?_⟩
  exact map_message fun _ _ _ _ ↦ rfl

/-- A keyframe of one byte is reported but not stored, and one of two bytes is stored
with a centre and a value it did not carry. -/
theorem keyframes_not_conserved : ∃ ds q, Run (inMemory.logged .empty) ds q ∧
    acceptedOf ds = [⟨1, 1, true, [1]⟩, ⟨1, 2, true, [1, 9]⟩] ∧
    q.telemetry.keyframe_count = 2 ∧
    q.log.routed.map GatewayMessage.priority = [.high, .high] ∧
    q.log.stores = [⟨⟨AliceDb.inMemory.fromWorld .zero .zero .zero inMemory.world_min
      inMemory.world_max, 2, .zero⟩, true⟩] := by
  let clock : CallClock := ⟨0, 0, 0, 0⟩
  let sealed (pl : Bytes) : Bytes :=
    (deviceKey AliceCrypto.inMemory (.replicate 32 42) 1).toList ++ pl
  let calls := [(clock, packet 1 1 (sealed [1])), (clock, packet 1 2 (sealed [1, 9]))]
  have hcalls : (ingestAll (inMemory.logged .empty) calls).map (fun w ↦ (acceptedOf w.1,
      w.2.telemetry.keyframe_count, w.2.log.routed.map GatewayMessage.priority, w.2.log.stores))
      = some ([⟨1, 1, true, [1]⟩, ⟨1, 2, true, [1, 9]⟩], 2, [.high, .high],
        [⟨⟨AliceDb.inMemory.fromWorld .zero .zero .zero inMemory.world_min
          inMemory.world_max, 2, .zero⟩, true⟩]) := by decide +kernel
  obtain ⟨⟨ds, q⟩, hw, heq⟩ := Option.map_eq_some_iff.mp hcalls
  simp only [Prod.mk.injEq] at heq
  exact ⟨ds, q, run_of_ingestAll hw, heq⟩

/-- The law at a run of one full keyframe. -/
theorem keyframes_of_run_inMemory : ∃ ds q, Run (inMemory.logged .empty) ds q ∧
    (acceptedOf ds).length = 1 ∧ (written q.log.stores).length = 1 ∧
    q.log.routed.map (fun m ↦ (m.source_device_id, m.priority)) = [(1, .high)] := by
  let pl : Bytes := [1, 0, 0, 0, 1, 0, 0, 0, 2, 0, 0, 0, 3, 0, 0, 0, 4]
  let calls : List (CallClock × Bytes) := [(⟨0, 0, 0, 0⟩, packet 1 1
    ((deviceKey AliceCrypto.inMemory (.replicate 32 42) 1).toList ++ pl))]
  have hcalls : (ingestAll (inMemory.logged .empty) calls).map (fun w ↦ acceptedOf w.1)
      = some [⟨1, 1, true, pl⟩] := by decide +kernel
  obtain ⟨⟨ds, q⟩, hw, heq⟩ := Option.map_eq_some_iff.mp hcalls
  have hacc : acceptedOf ds = [⟨1, 1, true, pl⟩] := heq
  obtain ⟨hstores, -, -, hrouted⟩ := keyframes_of_run (run_of_ingestAll hw)
  refine ⟨ds, q, run_of_ingestAll hw, by rw [hacc]; rfl, ?_, ?_⟩
  · rw [hstores, hacc]
    rfl
  · rw [hrouted, hacc]
    rfl

/-! ## The key cache -/

/-- One call caches the device its packet names, if it is long enough to name one. -/
theorem Ingests.mem_key_cache {clock : CallClock} {raw : Bytes} {p q : IngestPipeline S}
    {res : Except IngestError IngestResult} (hi : Ingests clock raw p res q) {d : UInt64} :
    d ∈ q.key_store.key_cache ↔
      d ∈ p.key_store.key_cache ∨ 12 ≤ raw.length ∧ headerDevice raw = d := by
  have hkeyed : ∀ q : IngestPipeline S, 12 ≤ raw.length →
      q.key_store = (p.keyed raw).key_store → (d ∈ q.key_store.key_cache ↔
        d ∈ p.key_store.key_cache ∨ 12 ≤ raw.length ∧ headerDevice raw = d) := by
    intro q h hq
    rw [hq, keyed_key_store, DeviceKeyStore.mem_deriveDeviceKey, eq_comm, or_comm]
    simp [h]
  cases hi with
  | malformed h => simp [not_le.mpr h]
  | undecryptable h _ => exact hkeyed _ h rfl
  | refused h _ _ => exact hkeyed _ h rfl
  | accepted h _ _ => exact hkeyed _ h rfl

/-- Over a run, the key cache gains exactly the devices named by packets of at least
twelve bytes. -/
theorem Run.mem_key_cache {p₀ p : IngestPipeline S} {ds : List Delivery} (h : Run p₀ ds p)
    {d : UInt64} : d ∈ p.key_store.key_cache ↔
      d ∈ p₀.key_store.key_cache ∨ ∃ x ∈ ds, 12 ≤ x.raw.length ∧ headerDevice x.raw = d := by
  induction h with
  | start => simp
  | deliver _ hstep ih =>
      rw [(ingests_of_processPacket hstep).mem_key_cache, ih]
      simp only [List.mem_append, List.mem_singleton, or_and_right, exists_or, exists_eq_left,
        or_assoc]

/-- **Key cache of a run.**  After any run of a new pipeline, the key cache holds
exactly the devices named by packets of at least twelve bytes.  A further malformed
packet changes nothing at all; one that does not open changes nothing but the key
cache, where it leaves the device it names, and nothing at all if that device is
already there. -/
theorem keyCache_of_run {path : String} {cap : ℕ} {secret : Bytes32} {lo hi : Vec3}
    {p₀ p : IngestPipeline S} {ds : List Delivery}
    (hnew : IngestPipeline.new S path cap secret lo hi = .ok p₀) (hrun : Run p₀ ds p) :
    (∀ d, d ∈ p.key_store.key_cache ↔
      ∃ x ∈ ds, 12 ≤ x.raw.length ∧ headerDevice x.raw = d) ∧
    ∀ clock raw res q, (processPacket clock raw).run p = some (res, q) →
      (∀ msg, res = .error (.malformedPacket msg) → q = p) ∧
      (∀ msg, res = .error (.decryptionFailed msg) →
        q = { p with key_store := q.key_store } ∧
        (∀ d, d ∈ q.key_store.key_cache ↔ d ∈ p.key_store.key_cache ∨ headerDevice raw = d) ∧
        (headerDevice raw ∈ p.key_store.key_cache → q = p)) := by
  constructor
  · intro d
    rw [hrun.mem_key_cache, (frame_cache_of_new hnew).2]
    simp [DeviceKeyStore.new, Finmap.notMem_empty]
  · intro clock raw res q hstep
    have hi := ingests_of_processPacket hstep
    have hmem := fun d ↦ hi.mem_key_cache (d := d)
    constructor
    · rintro msg rfl
      cases hi with
      | malformed _ => rfl
    · rintro msg rfl
      cases hi with
      | undecryptable h _ =>
          refine ⟨rfl, fun d ↦ by rw [hmem d]; simp [h], fun hcached ↦ ?_⟩
          have hkeys : (p.keyed raw).key_store = p.key_store :=
            DeviceKeyStore.deriveDeviceKey_of_mem hcached
          calc p.keyed raw = { p with key_store := (p.keyed raw).key_store } := rfl
            _ = p := by rw [hkeys]

/-- A packet that names device 7 and holds nothing is rejected, and device 7 is in the
key cache all the same. -/
theorem keyCache_grows_unauthenticated : ∃ ds p, Run inMemory ds p ∧
    acceptedOf ds = [] ∧ (∀ x ∈ ds, x.opened = none) ∧ (7 : UInt64) ∈ p.key_store.key_cache := by
  let calls : List (CallClock × Bytes) := [(⟨0, 0, 0, 0⟩, packet 7 1 [])]
  have hcalls : (ingestAll inMemory calls).map (fun w ↦ (acceptedOf w.1,
      w.1.map Delivery.opened, (w.2.key_store.key_cache.lookup 7).isSome))
      = some ([], [none], true) := by decide +kernel
  obtain ⟨⟨ds, p⟩, hw, heq⟩ := Option.map_eq_some_iff.mp hcalls
  simp only [Prod.mk.injEq] at heq
  obtain ⟨hacc, hopened, hmem⟩ := heq
  refine ⟨ds, p, run_of_ingestAll hw, hacc, ?_, Finmap.lookup_isSome.mp hmem⟩
  intro x hx
  have hx' : x.opened ∈ [none] := hopened ▸ List.mem_map_of_mem hx
  exact List.mem_singleton.mp hx'

/-- The law at that run. -/
theorem keyCache_of_run_inMemory : ∃ ds p, Run inMemory ds p ∧
    (7 : UInt64) ∈ p.key_store.key_cache ∧ (8 : UInt64) ∉ p.key_store.key_cache ∧
    ∃ msg, (processPacket ⟨0, 0, 0, 0⟩ []).run p = some (.error (.malformedPacket msg), p) := by
  let calls : List (CallClock × Bytes) := [(⟨0, 0, 0, 0⟩, packet 7 1 [])]
  have hcalls : (ingestAll inMemory calls).map (fun w ↦ w.1.map Delivery.raw)
      = some [packet 7 1 []] := by decide +kernel
  obtain ⟨⟨ds, p⟩, hw, heq⟩ := Option.map_eq_some_iff.mp hcalls
  have hraw : ∀ x ∈ ds, x.raw = packet 7 1 [] := by
    intro x hx
    have hx' : x.raw ∈ ds.map Delivery.raw := List.mem_map_of_mem hx
    rw [show ds.map Delivery.raw = [packet 7 1 []] from heq] at hx'
    exact List.mem_singleton.mp hx'
  obtain ⟨hkeys, hstep⟩ := keyCache_of_run (new_inMemory "db" 1000) (run_of_ingestAll hw)
  refine ⟨ds, p, run_of_ingestAll hw, ?_, ?_, ?_⟩
  · rw [hkeys]
    cases ds with
    | nil => cases heq
    | cons x ds => exact ⟨x, by simp, by rw [hraw x (by simp)]; decide⟩
  · rw [hkeys]
    rintro ⟨x, hx, -, hd⟩
    rw [hraw x hx] at hd
    revert hd
    decide
  · obtain ⟨res, q, hrun, hi⟩ := processPacket_ingests ⟨0, 0, 0, 0⟩ [] p
    obtain ⟨msg, rfl⟩ := hi.malformed_iff.mpr (by decide)
    obtain rfl := (hstep _ _ _ _ hrun).1 msg rfl
    exact ⟨msg, hrun⟩

end IngestPipeline

end CloudGateway
