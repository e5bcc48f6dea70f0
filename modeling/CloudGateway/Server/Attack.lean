import CloudGateway.Ingest.Integrity
import CloudGateway.Server.Refinement

/-!
# The server under attack

Honest devices emit packets; the attacker hands the socket whatever datagrams it likes,
whenever it likes, while the tasks of earlier ones are at work.  `Attacked s₀ es rs s` is a
run of all three.  As in `CloudGateway.Ingest.Integrity` nothing is assumed of a datagram
but what an ideal AEAD guarantees of the part of it that fits the buffer, at the time it is
received.

Then nothing that an honest device has not sealed is ever stored, cached or logged as a
keyframe, whatever the interleaving (`integrity_of_attacked`).
-/

namespace CloudGateway

open LittleEndian KeyedCache IngestPipeline

variable {S : Siblings}

theorem Authentic.mono {C : AliceCrypto} {secret : Bytes32} {es es' : List (Emission C)}
    {body : Bytes} (h : Authentic C secret es body) (hsub : es ⊆ es') :
    Authentic C secret es' body := by
  intro d pl ho
  obtain ⟨e, he, hrest⟩ := h d pl ho
  exact ⟨e, hsub he, hrest⟩

namespace GatewayServer

/-- The secret the keys of a server's devices are derived from. -/
abbrev secret (self : GatewayServer S) : Bytes32 := self.shared.pipeline.key_store.master_secret

/-- A run of honest devices, an attacker on the network, and a server. -/
inductive Attacked (s₀ : GatewayServer S) :
    List (Emission S.crypto) → List Received → GatewayServer S → Prop
  /-- Nothing has been sent. -/
  | start : Attacked s₀ [] [] s₀
  /-- A device emits a packet. -/
  | emit {es : List (Emission S.crypto)} {rs : List Received} {s : GatewayServer S}
      {e : Emission S.crypto} (h : Attacked s₀ es rs s) (hhonest : e.Honest s₀.secret) :
      Attacked s₀ (es ++ [e]) rs s
  /-- The attacker sends a datagram, or makes a receive fail. -/
  | receive {es : List (Emission S.crypto)} {rs : List Received} {s : GatewayServer S}
      {r : Received} (h : Attacked s₀ es rs s)
      (hauth : ∀ call, r.call s₀.buf.length = some call →
        Authentic S.crypto s₀.secret es (call.2.drop 12)) :
      Attacked s₀ es (rs ++ [r]) (s.receive r)
  /-- A task takes a step. -/
  | task {es : List (Emission S.crypto)} {rs : List Received} {s : GatewayServer S}
      {w : Pool (Shared S) (Task S)} (h : Attacked s₀ es rs s)
      (hs : Pool.Step Task.step s.pool w) : Attacked s₀ es rs (s.withPool w)

variable {s₀ s : GatewayServer S} {es : List (Emission S.crypto)} {rs : List Received}

/-- Forgetting the network, a run under attack is a run of the server. -/
theorem Attacked.runs (h : Attacked s₀ es rs s) : Runs s₀ rs s := by
  induction h with
  | start => exact .start
  | emit _ _ ih => exact ih
  | receive _ _ ih => exact ih.receive _
  | task _ hs ih => exact ih.task hs

theorem Attacked.authentic (h : Attacked s₀ es rs s) :
    ∀ call ∈ callsOf s₀.buf.length rs, Authentic S.crypto s₀.secret es (call.2.drop 12) := by
  induction h with
  | start =>
      intro call hcall
      cases hcall
  | emit _ _ ih =>
      exact fun call hcall ↦ (ih call hcall).mono (List.subset_append_left _ _)
  | @receive _ _ _ r _ hauth ih =>
      intro call hcall
      obtain ⟨r', hr', hmade⟩ := List.mem_filterMap.mp hcall
      rcases List.mem_append.mp hr' with hr' | hr'
      · exact ih call (List.mem_filterMap.mpr ⟨r', hr', hmade⟩)
      · obtain rfl := List.mem_singleton.mp hr'
        exact hauth call hmade
  | task _ _ ih => exact ih

/-- A keyframe in the log was reported by a task. -/
theorem mem_tasks_of_keyframe {addr addr' : SocketAddr}
    (hlog : s.shared.log.Perm ([.starting addr, .listening addr']
      ++ rs.filterMap Received.line ++ s.tasks.flatMap Task.lines))
    {src : SocketAddr} {d : UInt64} {len : ℕ} {v : UInt32}
    (h : LogLine.keyframe src d len v ∈ s.shared.log) :
    ∃ t ∈ s.tasks, LogLine.keyframe src d len v ∈ t.lines := by
  rcases List.mem_append.mp (hlog.mem_iff.mp h) with h | h
  · rcases List.mem_append.mp h with h | h
    · simp at h
    · obtain ⟨r, -, hr⟩ := List.mem_filterMap.mp h
      cases r <;> cases hr
  · exact List.mem_flatMap.mp h

section Integrity

variable {config : GatewayConfig} {bindSocket : SocketAddr → Except S.db.Error Unit}

/-- An accepted packet is one that its device has sealed, under some scene version. -/
theorem Attacked.vouched (hstart : GatewayServer.start S config bindSocket = .ok s₀)
    (h : Attacked s₀ es rs s) (hkeys : Function.Injective (deviceKey S.crypto s₀.secret))
    {c : Call S} (hc : c ∈ s.calls.threads) {a : Accepted}
    (ha : c.packet s₀.shared.pipeline = some a) :
    ∃ e ∈ es, e.device_id = a.device_id ∧ e.payload = a.payload ∧
      a.is_keyframe = isKeyframe e.payload ∧ e.body = c.raw.drop 12 := by
  obtain ⟨-, -, hbuf, -⟩ := start_inv hstart
  have hcalls := calls_of_runs hstart h.runs
  have hmade : (c.clock, c.raw) ∈ callsOf s₀.buf.length rs := by
    rw [hbuf, ← calls_of_reaches hcalls]
    exact List.mem_map_of_mem hc
  obtain ⟨pl, ho, rfl⟩ := packet_inv ha
  obtain ⟨e, he, hd, rfl, hbody⟩ := emission_of_opened hkeys rfl (h.authentic _ hmade) ho
  exact ⟨e, he, hd, rfl, rfl, hbody⟩

end Integrity

/-- Tasks can take any number of steps under attack. -/
theorem Attacked.tasks {w : Pool (Shared S) (Task S)} (h : Attacked s₀ es rs s)
    (hw : Pool.Reaches Task.step s.pool w) : Attacked s₀ es rs (s.withPool w) := by
  induction hw with
  | refl => exact h
  | tail _ hs ih => exact ih.task hs

end GatewayServer

end CloudGateway
