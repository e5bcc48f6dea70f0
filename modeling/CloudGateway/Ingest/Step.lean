import CloudGateway.Ingest.Pipeline

/-!
# One packet

What `processPacket` does to one packet, said once.  `Ingests clock raw p res q`
lists its four ways to end, one constructor each, with the conditions on the
input under which it ends so and the pipeline it leaves behind; and
`processPacket_ingests` says that every call ends in one of them — in particular,
that no index is ever out of range.  Everything proved about runs of the
pipeline goes through this relation, never through the code.

The decoding of a packet is given by total functions (`headerDevice`,
`headerVersion`, `centre`, `sdfValue`): for each length threshold of the code
there is a default where the field is absent.
-/

namespace CloudGateway

open LittleEndian

variable {S : Siblings} {R : RouterApi}

namespace IngestPipeline

/-! ## The decoder -/

/-- The device id in the header of a packet. -/
def headerDevice (raw : Bytes) : UInt64 := UInt64.ofNat (ofLe (raw.take 8))

/-- The scene version in the header of a packet. -/
def headerVersion (raw : Bytes) : UInt32 := UInt32.ofNat (ofLe ((raw.drop 8).take 4))

/-- The packet of a device: its header in front of the sealed payload. -/
def packet (device_id : UInt64) (scene_version : UInt32) (body : Bytes) : Bytes :=
  u64ToLe device_id ++ u32ToLe scene_version ++ body

/-- A payload whose keyframe is stored: it starts with `0x01` and goes on. -/
def StoresRecord (pl : Bytes) : Prop := isKeyframe pl = true ∧ 1 < pl.length

instance (pl : Bytes) : Decidable (StoresRecord pl) :=
  inferInstanceAs (Decidable (isKeyframe pl = true ∧ 1 < pl.length))

/-- The centre a keyframe payload carries, the origin when it is too short. -/
def centre (pl : Bytes) : F32 × F32 × F32 :=
  if 13 ≤ pl.length then
    (F32.ofLe ((pl.drop 1).take 4), F32.ofLe ((pl.drop 5).take 4), F32.ofLe ((pl.drop 9).take 4))
  else (F32.zero, F32.zero, F32.zero)

/-- The SDF value a keyframe payload carries, `0.0` when it is too short. -/
def sdfValue (pl : Bytes) : F32 :=
  if 17 ≤ pl.length then F32.ofLe ((pl.drop 13).take 4) else F32.zero

@[simp] theorem headerDevice_packet (d : UInt64) (v : UInt32) (body : Bytes) :
    headerDevice (packet d v body) = d := by
  have h : (packet d v body).take 8 = u64ToLe d := by
    rw [packet, List.append_assoc]
    exact List.take_left' (length_u64ToLe d)
  rw [headerDevice, h, ofLe_u64ToLe, UInt64.ofNat_toNat]

@[simp] theorem headerVersion_packet (d : UInt64) (v : UInt32) (body : Bytes) :
    headerVersion (packet d v body) = v := by
  have h : ((packet d v body).drop 8).take 4 = u32ToLe v := by
    rw [packet, List.append_assoc, List.drop_left' (length_u64ToLe d)]
    exact List.take_left' (length_u32ToLe v)
  rw [headerVersion, h, ofLe_u32ToLe, UInt32.ofNat_toNat]

@[simp] theorem drop_packet (d : UInt64) (v : UInt32) (body : Bytes) :
    (packet d v body).drop 12 = body :=
  List.drop_left' (by simp)

@[simp] theorem length_packet (d : UInt64) (v : UInt32) (body : Bytes) :
    (packet d v body).length = 12 + body.length := by
  simp only [packet, List.length_append, length_u64ToLe, length_u32ToLe]

/-- A payload is a keyframe when it starts with `0x01`. -/
theorem isKeyframe_iff {pl : Bytes} : isKeyframe pl = true ↔ pl.head? = some 1 := by
  cases pl with
  | nil => simp [isKeyframe]
  | cons b bs => simp [isKeyframe]

/-! ## Running the sections -/

/-- What `open` makes of a packet under the key of the device it names. -/
def opened (self : IngestPipeline S R) (raw : Bytes) : Except S.crypto.Error Bytes :=
  S.crypto.open_ (deviceKey S.crypto self.key_store.master_secret (headerDevice raw))
    (raw.drop 12)

/-- The pipeline after the key of a packet's device has been looked up. -/
def keyed (self : IngestPipeline S R) (raw : Bytes) : IngestPipeline S R :=
  (lookupKey (headerDevice raw) self).2

/-- Where the keyframe of a payload is stored. -/
def mortonOf (self : IngestPipeline S R) (pl : Bytes) : MortonCode :=
  S.db.fromWorld (centre pl).1 (centre pl).2.1 (centre pl).2.2 self.world_min self.world_max

/-- The storage after a payload, and whether it was accepted. -/
def stored (self : IngestPipeline S R) (scene_version : UInt32) (pl : Bytes) :
    Except S.db.Error Unit × S.db.SdfStorage :=
  if StoresRecord pl then
    S.db.storeKeyframe self.sdf_storage (self.mortonOf pl) scene_version (sdfValue pl)
  else (.ok (), self.sdf_storage)

/-- The frame of a payload behind a header. -/
def frameUnder (self : IngestPipeline S R) (header : Header S) (pl : Bytes) : Frame where
  device_id := header.device_id
  scene_version := header.scene_version
  decrypted := pl
  is_keyframe := isKeyframe pl
  morton := if StoresRecord pl then some (self.mortonOf pl) else none

/-- The header `receive` reads, with the key it looked up. -/
def headerOf (self : IngestPipeline S R) (raw : Bytes) : Header S :=
  ⟨headerDevice raw, headerVersion raw,
    deviceKey S.crypto self.key_store.master_secret (headerDevice raw)⟩

/-- The frame of a decrypted packet. -/
abbrev frameOf (self : IngestPipeline S R) (raw pl : Bytes) : Frame :=
  self.frameUnder (self.headerOf raw) pl

/-- The pipeline with another storage. -/
def withStorage (self : IngestPipeline S R) (s : S.db.SdfStorage) : IngestPipeline S R :=
  { self with sdf_storage := s }

/-- Steps 5 to 8 on the pipeline alone, in order. -/
def finish (clock : CallClock) (raw_len : ℕ) (frame : Frame) (self : IngestPipeline S R) :
    IngestPipeline S R :=
  let (cache_hit, self) := lookupFrame frame self
  let (_, self) := cacheFrame frame self
  let (_, self) := syncDevices clock frame self
  let (_, self) := routeQueue clock frame self
  let (_, self) := recordTelemetry clock raw_len frame self
  (recordStats cache_hit self).2

/-- The result of a packet whose frame went through steps 5 to 8. -/
def resultOf (clock : CallClock) (frame : Frame) (self : IngestPipeline S R) : IngestResult where
  device_id := frame.device_id
  is_keyframe := frame.is_keyframe
  scene_version := frame.scene_version
  sync_recipients := (syncDevices clock frame self).1
  cached := true
  cdn_node := (routeCdn frame self).1
  queue_index := (routeQueue clock frame self).1
  latency_ms := CallClock.elapsedSecsTimes1000 clock.start clock.telemetry

@[simp] theorem keyed_key_store (p : IngestPipeline S R) (raw : Bytes) :
    (p.keyed raw).key_store = (p.key_store.deriveDeviceKey (headerDevice raw)).2 := rfl

@[simp] theorem keyed_telemetry (p : IngestPipeline S R) (raw : Bytes) :
    (p.keyed raw).telemetry = p.telemetry := rfl

section Finish

variable (clock : CallClock) (len : ℕ) (f : Frame) (q : IngestPipeline S R)

/-- One packet is recorded. -/
theorem finish_telemetry : (finish clock len f q).telemetry =
    q.telemetry.recordPacket f.device_id len
      (CallClock.elapsedSecsTimes1000 clock.start clock.telemetry) f.is_keyframe := rfl

end Finish

theorem field_of_le {A : Type} {fromLe : Bytes → Option A} {msg : String} {bs : Bytes}
    {lo hi : ℕ} {a : A} (hlo : lo ≤ hi) (hhi : hi ≤ bs.length)
    (h : fromLe ((bs.drop lo).take (hi - lo)) = some a) :
    (field fromLe msg bs lo hi : IngestM S A R) = pure a := by
  rw [field, slice_of_le hlo hhi]
  show Prog.orFail _ (fromLe ((bs.drop lo).take (hi - lo))) = pure a
  rw [h, Prog.orFail_some]

/-- Packets shorter than a header are malformed; nothing has been touched yet. -/
theorem receive_short {raw : Bytes} (h : raw.length < 12) (p : IngestPipeline S R) :
    (receive raw : IngestM S (Header S) R).run p
      = some (.error (.malformedPacket "Packet too short (< 12 bytes)"), p) := by
  simp [receive, h]

/-- From twelve bytes on, the header is read and the key looked up. -/
theorem receive_long {raw : Bytes} (h : 12 ≤ raw.length) (p : IngestPipeline S R) :
    (receive raw : IngestM S (Header S) R).run p
      = some (.ok ⟨headerDevice raw, headerVersion raw,
          deviceKey S.crypto p.key_store.master_secret (headerDevice raw)⟩, p.keyed raw) := by
  have h8 : 8 ≤ raw.length := by omega
  have hdev : (field u64FromLe "Invalid device_id field" raw 0 8 : IngestM S UInt64 R)
      = pure (headerDevice raw) := by
    refine field_of_le (by norm_num) h8 ?_
    have hrange : ((raw.drop 0).take (8 - 0)).length = 8 := length_range h8
    rw [u64FromLe_of_length hrange]
    rfl
  have hver : (field u32FromLe "Invalid scene_version field" raw 8 12 : IngestM S UInt32 R)
      = pure (headerVersion raw) := by
    refine field_of_le (by norm_num) h ?_
    rw [u32FromLe_of_length (length_range h)]
    rfl
  have hnot : ¬ raw.length < 12 := by omega
  simp [receive, hnot, hdev, hver, lookupKey, keyed]

/-- The fields of a stored payload are always in bounds, and the storage section
is run on the record they make. -/
theorem storeSdf_eq (v : UInt32) (pl : Bytes) (p : IngestPipeline S R) :
    (storeSdf v pl : IngestM S MortonCode R).run p
      = (Prog.attempt (storeKeyframe (p.mortonOf pl) v (sdfValue pl)) >>= fun _ ↦
          pure (p.mortonOf pl)).run p := by
  have hf32 : ∀ (msg : String) (lo hi : ℕ), lo + 4 = hi → hi ≤ pl.length →
      (field F32.fromLe msg pl lo hi : IngestM S F32 R)
        = pure (F32.ofLe ((pl.drop lo).take 4)) := by
    intro msg lo hi hw hhi
    refine field_of_le (by omega) hhi ?_
    rw [F32.fromLe_of_length (by rw [length_range hhi]; omega)]
    simp [← hw]
  by_cases h13 : 13 ≤ pl.length
  · have hx := hf32 "Invalid cx field" 1 5 rfl (by omega)
    have hy := hf32 "Invalid cy field" 5 9 rfl (by omega)
    have hz := hf32 "Invalid cz field" 9 13 rfl h13
    by_cases h17 : 17 ≤ pl.length
    · have hv := hf32 "Invalid sdf_value field" 13 17 rfl h17
      simp [storeSdf, h13, h17, hx, hy, hz, hv, mortonOf, centre, sdfValue]
    · simp [storeSdf, h13, h17, hx, hy, hz, mortonOf, centre, sdfValue]
  · have h17 : ¬ 17 ≤ pl.length := by omega
    simp [storeSdf, h13, h17, mortonOf, centre, sdfValue]

/-- Without a header in front of it there is no payload. -/
theorem decryptStore_short {raw : Bytes} {header : Header S} {p : IngestPipeline S R}
    (h : raw.length < 12) : (decryptStore raw header).run p = none := by
  have hslice : slice raw 12 raw.length = none := if_neg (by omega)
  refine Prog.run_bind_of_none ?_
  rw [hslice]
  rfl

/-- A payload that does not open leaves the pipeline alone. -/
theorem decryptStore_unopened {raw : Bytes} {header : Header S} {p : IngestPipeline S R}
    {e : S.crypto.Error} (h : 12 ≤ raw.length)
    (ho : S.crypto.open_ header.stream_key (raw.drop 12) = .error e) :
    (decryptStore raw header).run p
      = some (.error (.decryptionFailed (S.crypto.debug e)), p) := by
  simp [decryptStore, slice_to_end h, ho, Except.mapError]

/-- A keyframe with data is handed to the storage under its own record. -/
theorem storeSdf_stored {v : UInt32} {pl : Bytes} {q : IngestPipeline S R} {s : S.db.SdfStorage}
    (hst : StoresRecord pl) (hs : q.stored v pl = (.ok (), s)) :
    (storeSdf v pl : IngestM S MortonCode R).run q
      = some (.ok (q.mortonOf pl), q.withStorage s) := by
  rw [stored, if_pos hst] at hs
  rw [storeSdf_eq]
  refine Prog.run_bind_of_ok (a := ()) ?_
  simp [storeKeyframe, hs, Except.mapError, withStorage]

theorem storeSdf_refused {v : UInt32} {pl : Bytes} {q : IngestPipeline S R} {e : S.db.Error}
    {s : S.db.SdfStorage} (hst : StoresRecord pl) (hs : q.stored v pl = (.error e, s)) :
    (storeSdf v pl : IngestM S MortonCode R).run q
      = some (.error (.storageError (S.db.toString e)), q.withStorage s) := by
  rw [stored, if_pos hst] at hs
  rw [storeSdf_eq]
  refine Prog.run_bind_of_error ?_
  simp [storeKeyframe, hs, Except.mapError, withStorage]

/-- A payload that opens is handed to the storage if it is a keyframe with data,
and makes a frame if the storage accepts it. -/
theorem decryptStore_stored {raw pl : Bytes} {header : Header S} {p : IngestPipeline S R}
    {s : S.db.SdfStorage} (h : 12 ≤ raw.length)
    (ho : S.crypto.open_ header.stream_key (raw.drop 12) = .ok pl)
    (hs : p.stored header.scene_version pl = (.ok (), s)) :
    (decryptStore raw header).run p = some (.ok (p.frameUnder header pl), p.withStorage s) := by
  unfold decryptStore
  rw [slice_to_end h, Prog.run_orFault_some_bind, ho, Except.mapError,
    Prog.run_ofExcept_ok_bind]
  by_cases hst : StoresRecord pl
  · have hst' : isKeyframe pl = true ∧ pl.length > 1 := hst
    simp only [if_pos hst']
    show (storeSdf header.scene_version pl >>= _).run p = _
    rw [Prog.run_bind_of_ok (storeSdf_stored hst hs)]
    simp only [Prog.run_pure_bind, Prog.run_pure, frameUnder, if_pos hst]
  · have hst' : ¬ (isKeyframe pl = true ∧ pl.length > 1) := hst
    rw [stored, if_neg hst] at hs
    obtain rfl : p.sdf_storage = s := (Prod.mk.inj hs).2
    simp only [if_neg hst', Prog.run_pure_bind, Prog.run_pure, frameUnder, if_neg hst,
      withStorage]

/-- A keyframe the storage refuses is reported as a storage error. -/
theorem decryptStore_refused {raw pl : Bytes} {header : Header S} {p : IngestPipeline S R}
    {e : S.db.Error} {s : S.db.SdfStorage} (h : 12 ≤ raw.length)
    (ho : S.crypto.open_ header.stream_key (raw.drop 12) = .ok pl)
    (hs : p.stored header.scene_version pl = (.error e, s)) :
    (decryptStore raw header).run p
      = some (.error (.storageError (S.db.toString e)), p.withStorage s) := by
  unfold decryptStore
  rw [slice_to_end h, Prog.run_orFault_some_bind, ho, Except.mapError,
    Prog.run_ofExcept_ok_bind]
  by_cases hst : StoresRecord pl
  · have hst' : isKeyframe pl = true ∧ pl.length > 1 := hst
    simp only [if_pos hst']
    exact Prog.run_bind_of_error (storeSdf_refused hst hs)
  · rw [stored, if_neg hst] at hs
    cases (Prod.mk.inj hs).1

/-! ## The four ways to end -/

/-- How one call of `process_packet` ends, and with which pipeline. -/
inductive Ingests (clock : CallClock) (raw : Bytes) (p : IngestPipeline S R) :
    Except IngestError IngestResult → IngestPipeline S R → Prop
  /-- The packet is shorter than a header. -/
  | malformed (h : raw.length < 12) :
      Ingests clock raw p (.error (.malformedPacket "Packet too short (< 12 bytes)")) p
  /-- The payload does not open under the key of the device. -/
  | undecryptable {e : S.crypto.Error} (h : 12 ≤ raw.length) (ho : p.opened raw = .error e) :
      Ingests clock raw p (.error (.decryptionFailed (S.crypto.debug e))) (p.keyed raw)
  /-- The storage refuses the keyframe. -/
  | refused {pl : Bytes} {e : S.db.Error} {s : S.db.SdfStorage} (h : 12 ≤ raw.length)
      (ho : p.opened raw = .ok pl)
      (hs : p.stored (headerVersion raw) pl = (.error e, s)) :
      Ingests clock raw p (.error (.storageError (S.db.toString e)))
        ((p.keyed raw).withStorage s)
  /-- The packet is accepted. -/
  | accepted {pl : Bytes} {s : S.db.SdfStorage} (h : 12 ≤ raw.length)
      (ho : p.opened raw = .ok pl) (hs : p.stored (headerVersion raw) pl = (.ok (), s)) :
      Ingests clock raw p
        (.ok (resultOf clock (p.frameOf raw pl) ((p.keyed raw).withStorage s)))
        (finish clock raw.length (p.frameOf raw pl) ((p.keyed raw).withStorage s))

/-- Every packet meets the conditions of one of the four ways. -/
theorem exists_ingests (clock : CallClock) (raw : Bytes) (p : IngestPipeline S R) :
    ∃ res q, Ingests clock raw p res q := by
  by_cases h : raw.length < 12
  · exact ⟨_, _, .malformed h⟩
  · have h : 12 ≤ raw.length := not_lt.mp h
    cases ho : p.opened raw with
    | error e => exact ⟨_, _, .undecryptable h ho⟩
    | ok pl =>
        cases hs : p.stored (headerVersion raw) pl with
        | mk outcome s =>
            cases outcome with
            | error e => exact ⟨_, _, .refused h ho hs⟩
            | ok u => exact ⟨_, _, .accepted h ho hs⟩

/-- A call ends in the way whose conditions it meets. -/
theorem processPacket_of_ingests {clock : CallClock} {raw : Bytes} {p q : IngestPipeline S R}
    {res : Except IngestError IngestResult} (hi : Ingests clock raw p res q) :
    (processPacket clock raw).run p = some (res, q) := by
  have hreceive : 12 ≤ raw.length → (receive raw : IngestM S (Header S) R).run p
      = some (.ok (p.headerOf raw), p.keyed raw) := fun h ↦ receive_long h p
  unfold processPacket
  cases hi with
  | malformed h => exact Prog.run_bind_of_error (receive_short h p)
  | undecryptable h ho =>
      rw [Prog.run_bind_of_ok (hreceive h)]
      exact Prog.run_bind_of_error (decryptStore_unopened h ho)
  | refused h ho hs =>
      rw [Prog.run_bind_of_ok (hreceive h)]
      exact Prog.run_bind_of_error (decryptStore_refused h ho hs)
  | @accepted pl s h ho hs =>
      have hframe : (decryptStore raw (p.headerOf raw)).run (p.keyed raw)
          = some (.ok (p.frameOf raw pl), (p.keyed raw).withStorage s) :=
        decryptStore_stored h ho hs
      rw [Prog.run_bind_of_ok (hreceive h), Prog.run_bind_of_ok hframe]
      rfl

/-- Every call ends in one of the four ways, and none faults. -/
theorem processPacket_ingests (clock : CallClock) (raw : Bytes) (p : IngestPipeline S R) :
    ∃ res q, (processPacket clock raw).run p = some (res, q) ∧ Ingests clock raw p res q := by
  obtain ⟨res, q, hi⟩ := exists_ingests clock raw p
  exact ⟨res, q, processPacket_of_ingests hi, hi⟩

/-- The code determines how a call ends. -/
theorem ingests_of_processPacket {clock : CallClock} {raw : Bytes} {p q : IngestPipeline S R}
    {res : Except IngestError IngestResult}
    (h : (processPacket clock raw).run p = some (res, q)) : Ingests clock raw p res q := by
  obtain ⟨res', q', heq, hi⟩ := processPacket_ingests clock raw p
  rw [h] at heq
  obtain ⟨rfl, rfl⟩ := Prod.mk.inj (Option.some.inj heq)
  exact hi

namespace Ingests

variable {clock : CallClock} {raw : Bytes} {p q : IngestPipeline S R}
  {res : Except IngestError IngestResult}

/-- A call that ends in an error and stores nothing has touched the key store at
most. -/
theorem unchanged_of_error (hi : Ingests clock raw p res q)
    (hfail : ∀ s m v x e s', S.db.storeKeyframe s m v x = (.error e, s') → s' = s)
    {err : IngestError} (h : res = .error err) :
    q = p ∨ q = p.keyed raw := by
  cases hi with
  | malformed _ => exact Or.inl rfl
  | undecryptable _ _ => exact Or.inr rfl
  | @refused pl e s _ _ hs =>
      have hstore : s = p.sdf_storage := by
        by_cases hst : StoresRecord pl
        · rw [stored, if_pos hst] at hs
          exact hfail _ _ _ _ _ _ hs
        · rw [stored, if_neg hst] at hs
          cases (Prod.mk.inj hs).1
      exact Or.inr (by rw [hstore]; rfl)
  | accepted _ _ _ => cases h

/-- An accepted packet opened, and its result names what its header names. -/
theorem accepted_inv (hi : Ingests clock raw p res q) {r : IngestResult} (h : res = .ok r) :
    ∃ pl s, 12 ≤ raw.length ∧ p.opened raw = .ok pl ∧
      p.stored (headerVersion raw) pl = (.ok (), s) ∧
      r = resultOf clock (p.frameOf raw pl) ((p.keyed raw).withStorage s) ∧
      q = finish clock raw.length (p.frameOf raw pl) ((p.keyed raw).withStorage s) := by
  cases hi with
  | malformed _ => cases h
  | undecryptable _ _ => cases h
  | refused _ _ _ => cases h
  | accepted hlen ho hs => exact ⟨_, _, hlen, ho, hs, (Except.ok.inj h).symm, rfl⟩

theorem malformed_iff (hi : Ingests clock raw p res q) :
    (∃ msg, res = .error (.malformedPacket msg)) ↔ raw.length < 12 := by
  constructor
  · rintro ⟨msg, h⟩
    cases hi with
    | malformed hlen => exact hlen
    | undecryptable _ _ => cases h
    | refused _ _ _ => cases h
    | accepted _ _ _ => cases h
  · intro hlen
    cases hi with
    | malformed _ => exact ⟨_, rfl⟩
    | undecryptable h _ => exact absurd hlen (not_lt.mpr h)
    | refused h _ _ => exact absurd hlen (not_lt.mpr h)
    | accepted h _ _ => exact absurd hlen (not_lt.mpr h)

theorem undecryptable_iff (hi : Ingests clock raw p res q) :
    (∃ msg, res = .error (.decryptionFailed msg)) ↔
      12 ≤ raw.length ∧ ∃ e, p.opened raw = .error e := by
  constructor
  · rintro ⟨msg, h⟩
    cases hi with
    | malformed _ => cases h
    | undecryptable hlen ho => exact ⟨hlen, _, ho⟩
    | refused _ _ _ => cases h
    | accepted _ _ _ => cases h
  · rintro ⟨hlen, e, he⟩
    cases hi with
    | malformed h => exact absurd hlen (not_le.mpr h)
    | undecryptable _ _ => exact ⟨_, rfl⟩
    | refused _ ho _ => rw [ho] at he; cases he
    | accepted _ ho _ => rw [ho] at he; cases he

theorem accepted_iff (hi : Ingests clock raw p res q) :
    (∃ r, res = .ok r) ↔ 12 ≤ raw.length ∧ ∃ pl, p.opened raw = .ok pl ∧
      (p.stored (headerVersion raw) pl).1 = .ok () := by
  constructor
  · rintro ⟨r, h⟩
    cases hi with
    | malformed _ => cases h
    | undecryptable _ _ => cases h
    | refused _ _ _ => cases h
    | accepted hlen ho hs => exact ⟨hlen, _, ho, congrArg Prod.fst hs⟩
  · rintro ⟨hlen, pl, hpl, hok⟩
    cases hi with
    | malformed h => exact absurd hlen (not_le.mpr h)
    | undecryptable _ ho => rw [ho] at hpl; cases hpl
    | refused _ ho hs =>
        rw [ho] at hpl
        obtain rfl := Except.ok.inj hpl
        rw [hs] at hok
        cases hok
    | accepted _ _ _ => exact ⟨_, rfl⟩

theorem refused_iff (hi : Ingests clock raw p res q) :
    (∃ msg, res = .error (.storageError msg)) ↔
      12 ≤ raw.length ∧ ∃ pl, p.opened raw = .ok pl ∧
        ∃ e, (p.stored (headerVersion raw) pl).1 = .error e := by
  constructor
  · rintro ⟨msg, h⟩
    cases hi with
    | malformed _ => cases h
    | undecryptable _ _ => cases h
    | refused hlen ho hs => exact ⟨hlen, _, ho, _, congrArg Prod.fst hs⟩
    | accepted _ _ _ => cases h
  · rintro ⟨hlen, pl, hpl, e, he⟩
    cases hi with
    | malformed h => exact absurd hlen (not_le.mpr h)
    | undecryptable _ ho => rw [ho] at hpl; cases hpl
    | refused _ _ _ => exact ⟨_, rfl⟩
    | accepted _ ho hs =>
        rw [ho] at hpl
        obtain rfl := Except.ok.inj hpl
        rw [hs] at he
        cases he

end Ingests

/-- Only a payload that is stored can be refused. -/
theorem stored_fst_error {p : IngestPipeline S R} {v : UInt32} {pl : Bytes} {e : S.db.Error} :
    (p.stored v pl).1 = .error e ↔ StoresRecord pl ∧
      (S.db.storeKeyframe p.sdf_storage (p.mortonOf pl) v (sdfValue pl)).1 = .error e := by
  by_cases hst : StoresRecord pl
  · rw [stored, if_pos hst]
    exact ⟨fun h ↦ ⟨hst, h⟩, fun h ↦ h.2⟩
  · rw [stored, if_neg hst]
    exact ⟨fun h ↦ (by cases h), fun h ↦ absurd h.1 hst⟩

/-- A payload that is not stored is accepted, one that is when the storage takes it. -/
theorem stored_fst_ok {p : IngestPipeline S R} {v : UInt32} {pl : Bytes} :
    (p.stored v pl).1 = .ok () ↔ (StoresRecord pl →
      (S.db.storeKeyframe p.sdf_storage (p.mortonOf pl) v (sdfValue pl)).1 = .ok ()) := by
  by_cases hst : StoresRecord pl
  · rw [stored, if_pos hst]
    exact ⟨fun h _ ↦ h, fun h ↦ h hst⟩
  · rw [stored, if_neg hst]
    exact ⟨fun _ h ↦ absurd h hst, fun _ ↦ rfl⟩

end IngestPipeline

end CloudGateway
