import CloudGateway.Ingest.Provenance

/-!
# What the components have undergone

A call passes the sync hub, the queue router and the telemetry one after another, each
behind its own lock, and other calls may overtake it between any two of them.  So the
three components see the accepted packets in three orders, none of which need be the order
of arrival.  But each of them sees every packet it has seen once and as a whole:
its state is that of a sequential history of the packets that have come so far
(`histories_of_reaches`).
-/

namespace CloudGateway

open LittleEndian

variable {S : Siblings}

/-- An accepted packet as the components are told about it: with the clock of its call and
the length of its datagram. -/
structure Served where
  clock : CallClock
  raw_len : ℕ
  packet : Accepted

namespace Served

/-- The sync section of a packet, on the hub alone. -/
def sync (hub : S.sync.CloudSyncHub) (x : Served) : S.sync.CloudSyncHub :=
  let hub := S.sync.registerDevice hub x.packet.device_id
    ("device-" ++ toString x.packet.device_id)
  let hub := S.sync.heartbeat hub x.packet.device_id
    (CallClock.elapsedMillis x.clock.start x.clock.sync)
  (S.sync.processDeviceUpdate hub x.packet.device_id x.packet.scene_version
    ⟨x.packet.scene_version.toUInt64⟩
    ⟨⟨.negTen, .negTen, .negTen⟩, ⟨.ten, .ten, .ten⟩⟩).2

/-- The queue section of a packet, on the router alone. -/
def queue (router : GatewayRouter) (x : Served) : GatewayRouter :=
  (router.routeWithPriority (IngestPipeline.queueMessage x.clock ⟨x.packet.device_id,
    x.packet.scene_version, x.packet.payload, x.packet.is_keyframe, none⟩)).2

/-- The latency of a packet, in milliseconds. -/
def latency_ms (x : Served) : ℚ := CallClock.elapsedSecsTimes1000 x.clock.start x.clock.telemetry

/-- The telemetry section of a packet, on the telemetry alone. -/
def record (tel : GatewayTelemetry S.analytics) (x : Served) : GatewayTelemetry S.analytics :=
  tel.recordPacket x.packet.device_id x.raw_len x.latency_ms x.packet.is_keyframe

end Served

namespace IngestPipeline

/-! ## Stages -/

/-- The sync section of the call has been passed. -/
def Phase.isSynced : Phase S → Bool
  | .synced .. | .queued .. | .recorded .. | .returned (.ok _) => true
  | _ => false

/-- The queue section of the call has been passed. -/
def Phase.isQueued : Phase S → Bool
  | .queued .. | .recorded .. | .returned (.ok _) => true
  | _ => false

/-- The telemetry section of the call has been passed. -/
def Phase.isRecorded : Phase S → Bool
  | .recorded .. | .returned (.ok _) => true
  | _ => false

/-- The packet of a call that is past a stage. -/
def Call.served (p₀ : IngestPipeline S) (past : Phase S → Bool) (self : Call S) : List Served :=
  if past self.phase then (p₀.packetOf self.raw).toList.map (.mk self.clock self.raw.length)
  else []

/-- The packets of the calls of a pool that are past a stage. -/
def servedIn (p₀ : IngestPipeline S) (past : Phase S → Bool)
    (w : Pool (IngestPipeline S) (Call S)) : List Served :=
  w.threads.flatMap (Call.served p₀ past)

section

variable {p₀ : IngestPipeline S} {calls : List (CallClock × Bytes)}
  {w : Pool (IngestPipeline S) (Call S)}

/-- A frame is of the packet that `p₀` takes the call's bytes for. -/
theorem Sourced.packetOf {c : Call S} (h : Sourced p₀ c) {frame : Frame}
    (hf : c.phase.frame = some frame) : p₀.packetOf c.raw = some frame.accepted := by
  obtain ⟨pl, ho, rfl⟩ := h.frame frame hf
  rw [IngestPipeline.packetOf, ho]
  rfl

/-- A component that changes only where calls pass a stage, and there as `app` says, has
the sequential history of the packets that are past it, in some order. -/
theorem history_of_stage {β : Type} (past : Phase S → Bool) (g : IngestPipeline S → β)
    (app : β → Served → β) (harrived : past .arrived = false)
    (hstep : ∀ clock raw ph p ph' q, Advances clock raw ph p ph' q →
      past ph' = past ph ∧ g q = g p ∨
      past ph = false ∧ past ph' = true ∧ ∃ frame, ph.frame = some frame ∧
        g q = app (g p) ⟨clock, raw.length, frame.accepted⟩)
    (h : Pool.Reaches Call.step (arrivals p₀ calls) w) :
    ∃ xs : List Served, xs.Perm (servedIn p₀ past w) ∧ g w.shared = xs.foldl app (g p₀) := by
  have hstart : (arrivals p₀ calls).threads.flatMap (Call.served p₀ past) = [] := by
    apply List.flatMap_eq_nil_iff.mpr
    intro c hc
    obtain ⟨call, -, rfl⟩ := List.mem_map.mp hc
    rw [Call.served, if_neg (by simp [Call.arrive, harrived])]
  have hserved : ∀ (c : Call S) p c' q, Sourced p₀ c → c.step p = some (c', q) →
      ∃ xs, c'.served p₀ past = c.served p₀ past ++ xs ∧ g q = xs.foldl app (g p) := by
    intro c p c' q hc hcall
    obtain ⟨hclock, hraw, hadv⟩ := advances_of_step hcall
    obtain ⟨clock, raw, ph⟩ := c
    obtain ⟨clock', raw', ph'⟩ := c'
    obtain rfl : clock' = clock := hclock
    obtain rfl : raw' = raw := hraw
    rcases hstep _ _ _ _ _ _ hadv with ⟨hpast, hg⟩ | ⟨hbefore, hafter, frame, hframe, hg⟩
    · refine ⟨[], ?_, hg⟩
      simp only [Call.served, hpast, List.append_nil]
    · refine ⟨[⟨clock', raw'.length, frame.accepted⟩], ?_, hg⟩
      have hpacket : p₀.packetOf raw' = some frame.accepted := hc.packetOf hframe
      simp only [Call.served, hbefore, hafter, if_true, hpacket, Bool.false_eq_true, if_false,
        Option.toList_some, List.map_cons, List.map_nil, List.nil_append]
  obtain ⟨xs, hperm, hg⟩ := h.history (J := fun _ ↦ Sourced p₀) g app (Call.served p₀ past)
    hserved fun v hv ↦ sourced_of_reaches hv
  rw [hstart, List.nil_append] at hperm
  exact ⟨xs, hperm, hg⟩

theorem sync_history (h : Pool.Reaches Call.step (arrivals p₀ calls) w) :
    ∃ xs : List Served, xs.Perm (servedIn p₀ Phase.isSynced w) ∧
      w.shared.sync_hub = xs.foldl Served.sync p₀.sync_hub := by
  refine history_of_stage Phase.isSynced (fun p ↦ p.sync_hub) Served.sync rfl ?_ h
  intro clock raw ph p ph' q hadv
  cases hadv with
  | synced => exact Or.inr ⟨rfl, rfl, _, rfl, rfl⟩
  | _ => exact Or.inl ⟨rfl, rfl⟩

theorem queue_history (h : Pool.Reaches Call.step (arrivals p₀ calls) w) :
    ∃ xs : List Served, xs.Perm (servedIn p₀ Phase.isQueued w) ∧
      w.shared.queue_router = xs.foldl Served.queue p₀.queue_router := by
  refine history_of_stage Phase.isQueued (fun p ↦ p.queue_router) Served.queue rfl ?_ h
  intro clock raw ph p ph' q hadv
  cases hadv with
  | queued => exact Or.inr ⟨rfl, rfl, _, rfl, rfl⟩
  | _ => exact Or.inl ⟨rfl, rfl⟩

theorem telemetry_history (h : Pool.Reaches Call.step (arrivals p₀ calls) w) :
    ∃ xs : List Served, xs.Perm (servedIn p₀ Phase.isRecorded w) ∧
      w.shared.telemetry = xs.foldl Served.record p₀.telemetry := by
  refine history_of_stage Phase.isRecorded (fun p ↦ p.telemetry) Served.record rfl ?_ h
  intro clock raw ph p ph' q hadv
  cases hadv with
  | recorded => exact Or.inr ⟨rfl, rfl, _, rfl, rfl⟩
  | _ => exact Or.inl ⟨rfl, rfl⟩

/-- What is past a later stage is past an earlier one. -/
theorem servedIn_sublist {past past' : Phase S → Bool}
    (h : ∀ ph, past ph = true → past' ph = true) :
    (servedIn p₀ past w).Sublist (servedIn p₀ past' w) := by
  unfold servedIn
  induction w.threads with
  | nil => exact .refl _
  | cons c l ih =>
      refine List.Sublist.append ?_ ih
      unfold Call.served
      cases hpast : past c.phase with
      | true => simp [h _ hpast]
      | false => simp

/-- When no call is under way, what is past the first of the stages is past the last. -/
theorem servedIn_of_rest (hrest : inProgress w = 0) :
    servedIn p₀ Phase.isSynced w = servedIn p₀ Phase.isRecorded w := by
  refine List.flatMap_congr fun c hc ↦ ?_
  have hnot := List.countP_eq_zero.mp hrest c hc
  obtain ⟨clock, raw, ph⟩ := c
  cases ph with
  | arrived => rfl
  | returned res => cases res <;> rfl
  | _ => exact absurd rfl hnot

/-- **Sequential histories.**  At any moment of any interleaving, the sync hub, the queue
router and the telemetry are each what a sequential history of accepted packets makes of
it: of exactly the packets that have come so far, each once, in some order of the
component's own.  What the telemetry has seen the router has, and what the router has seen
the hub has; and when no call is under way, all three have seen the same packets. -/
theorem histories_of_reaches (h : Pool.Reaches Call.step (arrivals p₀ calls) w) :
    ∃ us ms rs : List Served,
      w.shared.sync_hub = us.foldl Served.sync p₀.sync_hub ∧
      w.shared.queue_router = ms.foldl Served.queue p₀.queue_router ∧
      w.shared.telemetry = rs.foldl Served.record p₀.telemetry ∧
      us.Perm (servedIn p₀ Phase.isSynced w) ∧ ms.Perm (servedIn p₀ Phase.isQueued w) ∧
      rs.Perm (servedIn p₀ Phase.isRecorded w) ∧
      rs.Subperm ms ∧ ms.Subperm us ∧ (inProgress w = 0 → us.Perm rs) := by
  obtain ⟨us, hus, hhub⟩ := sync_history h
  obtain ⟨ms, hms, hrouter⟩ := queue_history h
  obtain ⟨rs, hrs, htel⟩ := telemetry_history h
  have hqueued : ∀ ph : Phase S, ph.isRecorded = true → ph.isQueued = true := by
    intro ph hph
    cases ph with
    | returned res => cases res <;> first | rfl | cases hph
    | recorded => rfl
    | _ => cases hph
  have hsynced : ∀ ph : Phase S, ph.isQueued = true → ph.isSynced = true := by
    intro ph hph
    cases ph with
    | returned res => cases res <;> first | rfl | cases hph
    | queued | recorded => rfl
    | _ => cases hph
  refine ⟨us, ms, rs, hhub, hrouter, htel, hus, hms, hrs, ?_, ?_, fun hrest ↦ ?_⟩
  · exact (hrs.subperm.trans (servedIn_sublist hqueued).subperm).trans hms.symm.subperm
  · exact (hms.subperm.trans (servedIn_sublist hsynced).subperm).trans hus.symm.subperm
  · rw [servedIn_of_rest hrest] at hus
    exact hus.trans hrs.symm

end

/-- A delta of device 2 overtakes one of device 1: the hub has seen both, router and telemetry
one. -/
theorem histories_of_reaches_inMemory :
    let body (d : UInt64) := (deviceKey AliceCrypto.inMemory (.replicate 32 42) d).toList
      ++ [2, 7]
    let calls := [(⟨0, 0, 0, 0⟩, packet 1 5 (body 1)), (⟨0, 0, 0, 0⟩, packet 2 5 (body 2))]
    ∃ w, Pool.Reaches Call.step (arrivals inMemory calls) w ∧
      ∃ us ms rs : List Served, us.length = 2 ∧ ms.length = 1 ∧ rs.length = 1 ∧
        rs.Subperm ms ∧ ms.Subperm us ∧
        w.shared.sync_hub = us.foldl Served.sync inMemory.sync_hub ∧
        w.shared.queue_router = ms.foldl Served.queue inMemory.queue_router ∧
        w.shared.telemetry = rs.foldl Served.record inMemory.telemetry := by
  intro body calls
  have hrun : (Pool.schedule Call.step (fun _ ↦ True) (arrivals inMemory calls)
      [0, 0, 0, 0, 0, 1, 1, 1, 1, 1, 1, 0, 1, 1]).map (fun w ↦
        ((servedIn inMemory Phase.isSynced w).length, (servedIn inMemory Phase.isQueued w).length,
          (servedIn inMemory Phase.isRecorded w).length)) = some (2, 1, 1) := by decide +kernel
  obtain ⟨w, hw, heq⟩ := Option.map_eq_some_iff.mp hrun
  simp only [Prod.mk.injEq] at heq
  obtain ⟨hsynced, hqueued, hrecorded⟩ := heq
  have hreach := (Pool.reachesWithin_of_schedule hw).reaches
  obtain ⟨us, ms, rs, hhub, hrouter, htel, hus, hms, hrs, hrm, hmu, -⟩ :=
    histories_of_reaches hreach
  exact ⟨w, hreach, us, ms, rs, hus.length_eq.trans hsynced, hms.length_eq.trans hqueued,
    hrs.length_eq.trans hrecorded, hrm, hmu, hhub, hrouter, htel⟩

end IngestPipeline

end CloudGateway
