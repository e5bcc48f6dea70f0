import CloudGateway.Ingest.Run

/-!
# What the pipeline asks for

The storage, the hub and the router are told things that they need not keep.  To see what
they are told, a pipeline is run with a log of the records it stores, the heartbeats it
sends and the messages it routes (`IngestPipeline.logged`).  The log changes nothing else:
each call does with it what it does without (`Ingests.logged`), and so does a run
(`Run.logged`, `Run.of_logged`).

With the log, everything a call does can be said at once (`processPacket_complete`).
-/

namespace CloudGateway

open LittleEndian

variable {S : Siblings} {R : RouterApi}

/-! ## The log -/

/-- The calls a pipeline has made of the storage, the hub and the router. -/
@[ext]
structure Log where
  stores : List StoreCall
  heartbeats : List (UInt64 × UInt64)
  routed : List GatewayMessage

namespace Log

/-- Nothing has been asked for yet. -/
def empty : Log := ⟨[], [], []⟩

instance : Append Log where
  append log log' := ⟨log.stores ++ log'.stores, log.heartbeats ++ log'.heartbeats,
    log.routed ++ log'.routed⟩

variable (log log' log'' : Log)

@[simp] theorem append_stores : (log ++ log').stores = log.stores ++ log'.stores := rfl

@[simp] theorem append_heartbeats :
    (log ++ log').heartbeats = log.heartbeats ++ log'.heartbeats := rfl

@[simp] theorem append_routed : (log ++ log').routed = log.routed ++ log'.routed := rfl

@[simp] theorem append_empty : log ++ empty = log := by
  ext : 1 <;> simp [empty]

theorem append_assoc : log ++ log' ++ log'' = log ++ (log' ++ log'') := by
  ext : 1 <;> simp

end Log

/-- The record of a keyframe payload between the given world bounds. -/
def recordBetween (S : Siblings) (lo hi : Vec3) (scene_version : UInt32) (pl : Bytes) :
    SdfRecord where
  morton := S.db.fromWorld (IngestPipeline.centre pl).1 (IngestPipeline.centre pl).2.1
    (IngestPipeline.centre pl).2.2 lo hi
  scene_version := scene_version
  sdf_value := IngestPipeline.sdfValue pl

namespace Delivery

/-- The record a delivery stores, or tries to: that of a keyframe with data. -/
def storeCall (S : Siblings) (lo hi : Vec3) (x : Delivery) : Option StoreCall :=
  x.opened.bind fun pl ↦
    if 12 ≤ x.raw.length ∧ IngestPipeline.StoresRecord pl then
      some ⟨recordBetween S lo hi (IngestPipeline.headerVersion x.raw) pl, x.result.isOk⟩
    else none

/-- The heartbeat of a delivery, if it is accepted. -/
def heartbeat (x : Delivery) : Option (UInt64 × UInt64) :=
  x.accepted.map fun a ↦ (a.device_id, CallClock.elapsedMillis x.clock.start x.clock.sync)

/-- The message of a delivery, if it is accepted. -/
def message (x : Delivery) : Option GatewayMessage :=
  x.accepted.map fun a ↦ IngestPipeline.queueMessage x.clock
    ⟨a.device_id, a.scene_version, a.payload, a.is_keyframe, none⟩

/-- What a delivery has the components do. -/
def log (S : Siblings) (lo hi : Vec3) (x : Delivery) : Log where
  stores := (x.storeCall S lo hi).toList
  heartbeats := x.heartbeat.toList
  routed := x.message.toList

section

variable {lo hi : Vec3} {clock : CallClock} {raw pl : Bytes} {opened : Option Bytes}

/-- A packet without a header asks for nothing, nor does one that does not open. -/
theorem log_of_not_opened {err : IngestError} (h : raw.length < 12 ∨ opened = none) :
    log S lo hi ⟨clock, raw, .error err, opened⟩ = .empty := by
  have hnone : storeCall S lo hi ⟨clock, raw, .error err, opened⟩ = none := by
    rcases h with h | rfl
    · cases opened <;> simp [storeCall, not_le.mpr h]
    · rfl
  rw [log, hnone]
  rfl

theorem storeCall_of_opened {res : Except IngestError IngestResult} (h : 12 ≤ raw.length) :
    (storeCall S lo hi ⟨clock, raw, res, some pl⟩).toList
      = if IngestPipeline.StoresRecord pl then
          [⟨recordBetween S lo hi (IngestPipeline.headerVersion raw) pl, res.isOk⟩]
        else [] := by
  by_cases hst : IngestPipeline.StoresRecord pl <;> simp [storeCall, h, hst]

/-- A packet that opens and is rejected has asked the storage at most. -/
theorem log_of_rejected {err : IngestError} (h : 12 ≤ raw.length) :
    log S lo hi ⟨clock, raw, .error err, some pl⟩
      = ⟨if IngestPipeline.StoresRecord pl then
          [⟨recordBetween S lo hi (IngestPipeline.headerVersion raw) pl, false⟩] else [],
        [], []⟩ := by
  rw [log, storeCall_of_opened h]
  rfl

/-- A packet that is accepted has sent one heartbeat and routed one message. -/
theorem log_of_accepted {r : IngestResult} (h : 12 ≤ raw.length) :
    log S lo hi ⟨clock, raw, .ok r, some pl⟩
      = ⟨if IngestPipeline.StoresRecord pl then
          [⟨recordBetween S lo hi (IngestPipeline.headerVersion raw) pl, true⟩] else [],
        [(r.device_id, CallClock.elapsedMillis clock.start clock.sync)],
        [IngestPipeline.queueMessage clock
          ⟨r.device_id, r.scene_version, pl, r.is_keyframe, none⟩]⟩ := by
  rw [log, storeCall_of_opened h]
  rfl

end

end Delivery

/-- What some deliveries have the components do, in order. -/
def logOf (S : Siblings) (lo hi : Vec3) (ds : List Delivery) : Log where
  stores := ds.filterMap (Delivery.storeCall S lo hi)
  heartbeats := ds.filterMap Delivery.heartbeat
  routed := ds.filterMap Delivery.message

theorem logOf_snoc (lo hi : Vec3) (ds : List Delivery) (x : Delivery) :
    logOf S lo hi (ds ++ [x]) = logOf S lo hi ds ++ x.log S lo hi := by
  have hsnoc : ∀ {α : Type} (f : Delivery → Option α),
      (ds ++ [x]).filterMap f = ds.filterMap f ++ (f x).toList := by
    intro α f
    rw [List.filterMap_append, List.filterMap_eq_flatMap_toList f [x], List.flatMap_singleton]
  ext : 1 <;> exact hsnoc _

namespace IngestPipeline

/-- A pipeline with a log of what it asks for from now on. -/
def logged (self : IngestPipeline S R) (log : Log) : IngestPipeline S.logged R.logged :=
  { self with
    sdf_storage := (self.sdf_storage, log.stores)
    sync_hub := (self.sync_hub, log.heartbeats)
    queue_router := (self.queue_router, log.routed) }

/-- The log of a pipeline. -/
def log (self : IngestPipeline S.logged R.logged) : Log :=
  ⟨self.sdf_storage.2, self.sync_hub.2, self.queue_router.2⟩

/-- A storage with a log takes what it takes without. -/
theorem stored_logged {p : IngestPipeline S R} {log : Log} {v : UInt32} {pl : Bytes}
    {outcome : Except S.db.Error Unit} {s : S.db.SdfStorage}
    (h : p.stored v pl = (outcome, s)) :
    (p.logged log).stored v pl = (outcome, (s, log.stores ++
      if StoresRecord pl then [⟨recordBetween S p.world_min p.world_max v pl, outcome.isOk⟩]
      else [])) := by
  by_cases hst : StoresRecord pl
  · rw [stored, if_pos hst] at h ⊢
    rw [if_pos hst]
    exact AliceDb.storeKeyframe_logged h log.stores
  · rw [stored, if_neg hst] at h ⊢
    obtain ⟨rfl, rfl⟩ := Prod.mk.inj h
    rw [if_neg hst, List.append_nil]
    rfl

theorem logged_withStorage {q : IngestPipeline S R} {log : Log} {s : S.db.SdfStorage}
    {calls : List StoreCall} : (q.withStorage s).logged (log ++ ⟨calls, [], []⟩)
      = (q.logged log).withStorage (s, log.stores ++ calls) := by
  simp only [logged, withStorage, Log.append_stores, Log.append_heartbeats, Log.append_routed,
    List.append_nil]

/-- A call does with a log what it does without, and logs what it asks for. -/
theorem Ingests.logged {clock : CallClock} {raw : Bytes} {p q : IngestPipeline S R}
    {res : Except IngestError IngestResult} (hi : Ingests clock raw p res q) (log : Log) :
    Ingests clock raw (p.logged log) res (q.logged (log ++
      Delivery.log S p.world_min p.world_max ⟨clock, raw, res, (p.opened raw).toOption⟩)) := by
  cases hi with
  | malformed h =>
      rw [Delivery.log_of_not_opened (.inl h), Log.append_empty]
      exact .malformed h
  | undecryptable h ho =>
      have hnone : (p.opened raw).toOption = none := by rw [ho]; rfl
      rw [Delivery.log_of_not_opened (.inr hnone), Log.append_empty]
      exact .undecryptable (S := S.logged) h ho
  | @refused pl e s h ho hs =>
      have hsome : (p.opened raw).toOption = some pl := by rw [ho]; rfl
      rw [hsome, Delivery.log_of_rejected h, logged_withStorage]
      exact .refused (S := S.logged) h ho (stored_logged hs)
  | @accepted pl s h ho hs =>
      have hsome : (p.opened raw).toOption = some pl := by rw [ho]; rfl
      rw [hsome, Delivery.log_of_accepted h]
      exact .accepted (S := S.logged) h ho (stored_logged hs)

/-- A run with a log is the run without it, and its log is that of the deliveries. -/
theorem Run.logged {p₀ p : IngestPipeline S R} {ds : List Delivery} (h : Run p₀ ds p)
    (log : Log) :
    Run (p₀.logged log) ds (p.logged (log ++ logOf S p₀.world_min p₀.world_max ds)) := by
  induction h with
  | start =>
      show Run _ [] (p₀.logged (log ++ .empty))
      rw [Log.append_empty]
      exact .start
  | @deliver ds p q clock raw res hrun hstep ih =>
      have hi := (ingests_of_processPacket hstep).logged
        (log ++ logOf S p₀.world_min p₀.world_max ds)
      have hlast := ih.deliver (processPacket_of_ingests hi)
      rw [hrun.world.1, hrun.world.2, Log.append_assoc, ← logOf_snoc] at hlast
      exact hlast

/-- A run with a log is one without. -/
theorem Run.of_logged {p₀ : IngestPipeline S R} {log : Log}
    {q : IngestPipeline S.logged R.logged} {ds : List Delivery} (h : Run (p₀.logged log) ds q) :
    ∃ p, Run p₀ ds p ∧ q = p.logged (log ++ logOf S p₀.world_min p₀.world_max ds) := by
  induction h with
  | start =>
      refine ⟨p₀, .start, ?_⟩
      show _ = p₀.logged (log ++ .empty)
      rw [Log.append_empty]
  | @deliver ds q q' clock raw res _ hstep ih =>
      obtain ⟨p, hrun, rfl⟩ := ih
      obtain ⟨res', p', hstep', hi⟩ := processPacket_ingests clock raw p
      have hlogged := processPacket_of_ingests
        (hi.logged (log ++ logOf S p₀.world_min p₀.world_max ds))
      obtain ⟨rfl, rfl⟩ := Prod.mk.inj (Option.some.inj (hlogged.symm.trans hstep))
      refine ⟨p', hrun.deliver hstep', ?_⟩
      rw [hrun.world.1, hrun.world.2, Log.append_assoc, ← logOf_snoc]
      rfl

/-! ## The complete specification of a call -/

/-- **Complete step specification.**  No call faults, and its result is decided by
the length of the packet, by what `open` makes of it and by the storage.  When a failing
store stores nothing, an error leaves everything but the key store as it was.  And the
packet of a device comes back with its own header, after exactly one `store_keyframe` call,
with the record its payload carries, if it is a keyframe with data, and none otherwise. -/
theorem processPacket_complete (clock : CallClock) (raw : Bytes) (p : IngestPipeline S) :
    ∃ res q, (processPacket clock raw).run p = some (res, q) ∧
      ((∃ msg, res = .error (.malformedPacket msg)) ↔ raw.length < 12) ∧
      ((∃ msg, res = .error (.decryptionFailed msg)) ↔
        12 ≤ raw.length ∧ ∃ e, p.opened raw = .error e) ∧
      ((∃ msg, res = .error (.storageError msg)) ↔
        12 ≤ raw.length ∧ ∃ pl, p.opened raw = .ok pl ∧ isKeyframe pl = true ∧
          1 < pl.length ∧ ∃ e, (S.db.storeKeyframe p.sdf_storage (p.mortonOf pl)
            (headerVersion raw) (sdfValue pl)).1 = .error e) ∧
      ((∃ r, res = .ok r) ↔
        12 ≤ raw.length ∧ ∃ pl, p.opened raw = .ok pl ∧ (isKeyframe pl = true ∧
          1 < pl.length → (S.db.storeKeyframe p.sdf_storage (p.mortonOf pl)
            (headerVersion raw) (sdfValue pl)).1 = .ok ())) ∧
      (∀ id, res ≠ .error (.unknownDevice id)) ∧
      ((∀ s m v x e s', S.db.storeKeyframe s m v x = (.error e, s') → s' = s) →
        ∀ err, res = .error err →
          q.sdf_storage = p.sdf_storage ∧ q.frame_cache = p.frame_cache ∧
            q.sync_hub = p.sync_hub ∧ q.queue_router = p.queue_router ∧
            q.telemetry = p.telemetry ∧ q.routing_stats = p.routing_stats) ∧
      (S.crypto.OpenSeal → ∀ d v n pl c,
        S.crypto.seal_ n (deviceKey S.crypto p.key_store.master_secret d) pl = .ok c →
        raw = packet d v c → (∀ msg, res ≠ .error (.storageError msg)) →
        (∃ r, res = .ok r ∧ r.device_id = d ∧ r.scene_version = v ∧
          (r.is_keyframe = true ↔ pl.head? = some 1)) ∧
        ∀ log, ∃ log', (processPacket clock raw).run (p.logged log) = some (res, q.logged log') ∧
          log'.stores = log.stores ++
            if pl.head? = some 1 ∧ 1 < pl.length then
              [⟨⟨S.db.fromWorld (centre pl).1 (centre pl).2.1 (centre pl).2.2
                p.world_min p.world_max, v, sdfValue pl⟩, true⟩]
            else []) := by
  obtain ⟨res, q, hrun, hi⟩ := processPacket_ingests clock raw p
  refine ⟨res, q, hrun, hi.malformed_iff, hi.undecryptable_iff, ?_, ?_, ?_, ?_, ?_⟩
  · simp only [hi.refused_iff, stored_fst_error, StoresRecord, exists_and_left, and_assoc]
  · simp only [hi.accepted_iff, stored_fst_ok, StoresRecord]
  · intro id h
    cases hi <;> cases h
  · intro hfail err h
    rcases hi.unchanged_of_error hfail h with rfl | rfl
    · exact ⟨rfl, rfl, rfl, rfl, rfl, rfl⟩
    · exact ⟨rfl, rfl, rfl, rfl, rfl, rfl⟩
  · rintro hseal d v n pl c hc rfl hstorage
    have ho : p.opened (packet d v c) = .ok pl := by
      rw [opened, headerDevice_packet, drop_packet]
      exact hseal n _ pl c hc
    have hok : ∃ r, res = .ok r := by
      cases hi with
      | malformed h => simp at h
      | undecryptable _ ho' => rw [ho] at ho'; cases ho'
      | refused _ _ _ => exact absurd rfl (hstorage _)
      | accepted _ _ _ => exact ⟨_, rfl⟩
    obtain ⟨r, rfl⟩ := hok
    obtain ⟨pl', s, hlen, ho', -, rfl, -⟩ := hi.accepted_inv rfl
    obtain rfl := Except.ok.inj (ho.symm.trans ho')
    refine ⟨⟨_, rfl, headerDevice_packet d v c, headerVersion_packet d v c, isKeyframe_iff⟩,
      fun log ↦ ⟨_, processPacket_of_ingests (hi.logged log), ?_⟩⟩
    have hsome : (p.opened (packet d v c)).toOption = some pl := by rw [ho]; rfl
    have hcond : (pl.head? = some 1 ∧ 1 < pl.length) ↔ StoresRecord pl :=
      and_congr_left' isKeyframe_iff.symm
    rw [hsome, Delivery.log_of_accepted hlen, headerVersion_packet]
    simp only [hcond]
    rfl

/-- The specification at a keyframe of device 1 that carries a centre but no SDF
value. -/
theorem processPacket_complete_inMemory :
    let pl : Bytes := [1, 0, 0, 0, 1, 0, 0, 0, 2, 0, 0, 0, 3]
    let raw := packet 1 5 ((deviceKey AliceCrypto.inMemory (.replicate 32 42) 1).toList ++ pl)
    ∃ r q log, (processPacket ⟨0, 0, 0, 0⟩ raw).run inMemory = some (.ok r, q) ∧
      r.device_id = 1 ∧ r.scene_version = 5 ∧
      (processPacket ⟨0, 0, 0, 0⟩ raw).run (inMemory.logged .empty)
        = some (.ok r, q.logged log) ∧
      log.stores = [⟨⟨inMemory.mortonOf pl, 5, .zero⟩, true⟩] := by
  intro pl raw
  obtain ⟨res, q, hrun, -, -, hst, -, -, -, hc⟩ :=
    processPacket_complete (S := .inMemory) ⟨0, 0, 0, 0⟩ raw inMemory
  have hok : ∀ msg, res ≠ .error (.storageError msg) := by
    intro msg hres
    obtain ⟨-, pl', hpl', -, -, e, he⟩ := hst.mp ⟨msg, hres⟩
    have hopen : inMemory.opened raw = .ok pl := by decide
    obtain rfl : pl = pl' := Except.ok.inj (hopen.symm.trans hpl')
    rw [AliceDb.inMemory_stored (by decide)] at he
    cases he
  obtain ⟨⟨r, rfl, hd, hv, -⟩, hlogged⟩ :=
    hc AliceCrypto.inMemory_openSeal 1 5 () pl _ rfl rfl hok
  obtain ⟨log, hlog, hstores⟩ := hlogged .empty
  exact ⟨r, q, log, hrun, hd, hv, hlog, hstores⟩

end IngestPipeline

end CloudGateway
