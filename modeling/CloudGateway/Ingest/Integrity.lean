import CloudGateway.Ingest.Run

/-!
# A network under attack

Honest devices emit packets, an attacker delivers byte strings of its choice.
`NetRun p₀ es ds p` is a run of both: the emissions `es` so far, the deliveries
`ds` so far, and the pipeline.  Nothing is assumed of a delivered byte string but
what an ideal AEAD guarantees (`Authentic`): if its body opens under the key of some
device, then a holder of that key sealed it.  Dropping, replaying, reordering,
splicing and rewriting are all deliveries.

An accepted packet carries the body, the payload and the device id of an emission
(`integrity_of_netRun`).  Its scene version is plaintext that no step of the
pipeline binds to the body, and can be the attacker's (`version_rewritten`).
-/

namespace CloudGateway

open LittleEndian

variable {S : Siblings}

/-- A packet emitted by an honest device, with the body it sealed for it. -/
structure Emission (C : AliceCrypto) where
  device_id : UInt64
  scene_version : UInt32
  payload : Bytes
  nonce : C.Nonce
  body : Bytes

/-- The body was sealed by the device under its own key. -/
def Emission.Honest {C : AliceCrypto} (secret : Bytes32) (e : Emission C) : Prop :=
  C.seal_ e.nonce (deviceKey C secret e.device_id) e.payload = .ok e.body

/-- The packet an emission puts on the wire. -/
def Emission.wire {C : AliceCrypto} (e : Emission C) : Bytes :=
  IngestPipeline.packet e.device_id e.scene_version e.body

/-- What an ideal AEAD says about a body: under the key of a device it opens only to
what a holder of that key has sealed into it. -/
def Authentic (C : AliceCrypto) (secret : Bytes32) (es : List (Emission C)) (body : Bytes) :
    Prop :=
  ∀ d pl, C.open_ (deviceKey C secret d) body = .ok pl →
    ∃ e ∈ es, deviceKey C secret e.device_id = deviceKey C secret d ∧
      e.payload = pl ∧ e.body = body

namespace IngestPipeline

/-- A run of honest devices and an attacker on the network, with one gateway. -/
inductive NetRun (p₀ : IngestPipeline S) :
    List (Emission S.crypto) → List Delivery → IngestPipeline S → Prop
  /-- Nothing has been sent. -/
  | start : NetRun p₀ [] [] p₀
  /-- A device emits a packet. -/
  | emit {es : List (Emission S.crypto)} {ds : List Delivery} {p : IngestPipeline S}
      {e : Emission S.crypto} (h : NetRun p₀ es ds p)
      (hhonest : e.Honest p₀.key_store.master_secret) : NetRun p₀ (es ++ [e]) ds p
  /-- The attacker delivers a byte string. -/
  | deliver {es : List (Emission S.crypto)} {ds : List Delivery} {p q : IngestPipeline S}
      {clock : CallClock} {raw : Bytes} {res : Except IngestError IngestResult}
      (h : NetRun p₀ es ds p)
      (hauth : Authentic S.crypto p₀.key_store.master_secret es (raw.drop 12))
      (hstep : (processPacket clock raw).run p = some (res, q)) :
      NetRun p₀ es (ds ++ [⟨clock, raw, res, (p.opened raw).toOption⟩]) q

/-- Forgetting the network, a run under attack is a run of the pipeline. -/
theorem NetRun.run {p₀ p : IngestPipeline S} {es : List (Emission S.crypto)}
    {ds : List Delivery} (h : NetRun p₀ es ds p) : Run p₀ ds p := by
  induction h with
  | start => exact .start
  | emit _ _ ih => exact ih
  | deliver _ _ hstep ih => exact .deliver ih hstep

/-- What an accepted packet owes to an emission. -/
def Vouched (es : List (Emission S.crypto)) (x : Delivery) : Prop :=
  ∀ r, x.result = .ok r → ∃ pl, x.opened = some pl ∧
    ∃ e ∈ es, e.device_id = r.device_id ∧ e.payload = pl ∧ e.body = x.raw.drop 12

theorem Vouched.mono {es es' : List (Emission S.crypto)} {x : Delivery}
    (h : Vouched es x) (hsub : es ⊆ es') : Vouched es' x := by
  intro r hr
  obtain ⟨pl, hpl, e, he, hrest⟩ := h r hr
  exact ⟨pl, hpl, e, hsub he, hrest⟩

/-- A body that opens under the key of a device was sealed by that very device, when
different devices have different keys. -/
theorem emission_of_opened {secret : Bytes32} {es : List (Emission S.crypto)}
    (hkeys : Function.Injective (deviceKey S.crypto secret)) {p : IngestPipeline S}
    (hsecret : p.key_store.master_secret = secret) {raw pl : Bytes}
    (hauth : Authentic S.crypto secret es (raw.drop 12)) (ho : p.opened raw = .ok pl) :
    ∃ e ∈ es, e.device_id = headerDevice raw ∧ e.payload = pl ∧ e.body = raw.drop 12 := by
  rw [opened, hsecret] at ho
  obtain ⟨e, he, hkey, hpl, hbody⟩ := hauth (headerDevice raw) pl ho
  exact ⟨e, he, hkeys hkey, hpl, hbody⟩

/-- **Integrity under attack.**  Whatever is delivered, a packet that is accepted for
device `d` with payload `pl` has the body of a packet that device `d` emitted with that
payload. -/
theorem integrity_of_netRun {p₀ p : IngestPipeline S} {es : List (Emission S.crypto)}
    {ds : List Delivery}
    (hkeys : Function.Injective (deviceKey S.crypto p₀.key_store.master_secret))
    (hrun : NetRun p₀ es ds p) :
    ∀ x ∈ ds, ∀ r, x.result = .ok r → ∃ pl, x.opened = some pl ∧
      ∃ e ∈ es, e.device_id = r.device_id ∧ e.payload = pl ∧ e.body = x.raw.drop 12 := by
  show ∀ x ∈ ds, Vouched es x
  induction hrun with
  | start => intro x hx; cases hx
  | emit _ _ ih => exact fun x hx ↦ (ih x hx).mono (List.subset_append_left _ _)
  | deliver hrun hauth hstep ih =>
      intro x hx
      rcases List.mem_append.mp hx with hx | hx
      · exact ih x hx
      · obtain rfl := List.mem_singleton.mp hx
        intro r hr
        obtain rfl : _ = Except.ok r := hr
        obtain ⟨pl, s, -, ho, -, rfl, -⟩ := (ingests_of_processPacket hstep).accepted_inv rfl
        exact ⟨pl, by rw [ho]; rfl, emission_of_opened hkeys hrun.run.master_secret hauth ho⟩

/-! ## The scene version is not bound -/

/-- A device of the in-memory crates emits one payload under scene version 1. -/
def emission : Emission AliceCrypto.inMemory where
  device_id := 1
  scene_version := 1
  payload := [2, 7]
  nonce := ()
  body := (deviceKey AliceCrypto.inMemory (.replicate 32 42) 1).toList ++ [2, 7]

/-- A body sealed by the crate in memory opens under no other key. -/
theorem authentic_inMemory {secret : Bytes32} {es : List (Emission AliceCrypto.inMemory)}
    {e : Emission AliceCrypto.inMemory} (he : e ∈ es) (hhonest : e.Honest secret) :
    Authentic AliceCrypto.inMemory secret es e.body := by
  intro d pl h
  have hbody : (deviceKey AliceCrypto.inMemory secret e.device_id).toList ++ e.payload = e.body :=
    Except.ok.inj hhonest
  simp only [AliceCrypto.inMemory, ← hbody] at h
  split at h
  · rename_i htake
    refine ⟨e, he, ?_, ?_, rfl⟩
    · apply Vector.toList_inj.mp
      rw [← htake]
      exact (List.take_left' (by simp)).symm
    · rw [← Except.ok.inj h]
      exact (List.drop_left' (by simp)).symm
  · cases h

theorem authentic_emission :
    Authentic AliceCrypto.inMemory (.replicate 32 42) [emission] emission.body :=
  authentic_inMemory (List.mem_singleton_self _) rfl

/-- **The scene version can be rewritten.**  Device 1 emits one packet, under scene
version 1; the attacker delivers its body under scene version 2, and the packet is
accepted as that. -/
theorem version_rewritten : ∃ ds p, NetRun inMemory [emission] ds p ∧
    Function.Injective (deviceKey AliceCrypto.inMemory (.replicate 32 42)) ∧
    acceptedOf ds = [⟨1, 2, false, [2, 7]⟩] ∧
    ∀ e ∈ [emission], ¬ (e.device_id = 1 ∧ e.scene_version = 2) := by
  let raw := packet 1 2 emission.body
  have hcall : ((processPacket ⟨0, 0, 0, 0⟩ raw).run inMemory).map (fun w ↦
      Delivery.accepted ⟨⟨0, 0, 0, 0⟩, raw, w.1, (inMemory.opened raw).toOption⟩)
      = some (some ⟨1, 2, false, [2, 7]⟩) := by decide +kernel
  obtain ⟨⟨res, q⟩, hstep, hacc⟩ := Option.map_eq_some_iff.mp hcall
  have hauth : Authentic AliceCrypto.inMemory (.replicate 32 42) [emission] (raw.drop 12) := by
    rw [drop_packet]
    exact authentic_emission
  have hemit : NetRun inMemory ([] ++ [emission]) [] inMemory := .emit .start rfl
  refine ⟨_, q, .deliver hemit hauth hstep, deviceKey_inMemory_injective _, ?_, by decide⟩
  exact acceptedOf_snoc_some hacc

/-- The law at that attack. -/
theorem integrity_of_netRun_inMemory : ∃ ds p, NetRun inMemory [emission] ds p ∧
    ∃ x ∈ ds, ∃ r, x.result = .ok r ∧ emission.device_id = r.device_id ∧
      x.opened = some emission.payload := by
  let raw := emission.wire
  have hcall : ((processPacket ⟨0, 0, 0, 0⟩ raw).run inMemory).map (fun w ↦
      w.1.toOption.isSome) = some true := by decide +kernel
  obtain ⟨⟨res, q⟩, hstep, hok⟩ := Option.map_eq_some_iff.mp hcall
  have hdrop : raw.drop 12 = emission.body := drop_packet _ _ _
  have hauth : Authentic AliceCrypto.inMemory (.replicate 32 42) [emission] (raw.drop 12) := by
    rw [hdrop]
    exact authentic_emission
  have hemit : NetRun inMemory ([] ++ [emission]) [] inMemory := .emit .start rfl
  have hrun := NetRun.deliver hemit hauth hstep
  cases res with
  | error e => cases hok
  | ok r =>
      obtain ⟨pl, hpl, e, he, hd, hp, -⟩ :=
        integrity_of_netRun (deviceKey_inMemory_injective _) hrun _
          (List.mem_append_right [] (List.mem_singleton_self _)) r rfl
      obtain rfl := List.mem_singleton.mp he
      refine ⟨_, q, hrun, _, List.mem_append_right [] (List.mem_singleton_self _), r, rfl, hd, ?_⟩
      rw [hpl, hp]

end IngestPipeline

end CloudGateway
