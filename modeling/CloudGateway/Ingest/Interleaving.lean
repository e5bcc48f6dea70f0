import CloudGateway.Library.Pool
import CloudGateway.Ingest.Run

/-!
# Concurrent calls

The gateway spawns one task per packet, so calls of `process_packet` run at the
same time on one pipeline and meet only in its locks.  A `Call` is such a task
between two of its sections; `Call.step` runs its next section, which is the very
function `processPacket` is made of; and a pool of calls (`Pool`) runs them in
any order.  A call that has `arrived` has not begun: the calls of a pool need not
begin together.

As for a single packet, what a section can do is said once (`Advances`), and each
fact about pools is a fact about `Advances`, carried to all runs by the rules of
`Pool`.  One call after the other is one of the runs (`reaches_of_ingestAll`).
-/

namespace CloudGateway

open LittleEndian

variable {S : Siblings}

namespace IngestPipeline

/-! ## Calls -/

/-- How far a call has come, with what it holds between two sections. -/
inductive Phase (S : Siblings) where
  | arrived
  | keyed (header : Header S)
  | stored (frame : Frame)
  | routed (frame : Frame) (cdn_node : Option UInt64)
  | looked (frame : Frame) (cdn_node : Option UInt64) (cache_hit : Bool)
  | cached (frame : Frame) (cdn_node : Option UInt64) (cache_hit : Bool)
  | synced (frame : Frame) (cdn_node : Option UInt64) (cache_hit : Bool)
      (sync_recipients : ℕ)
  | queued (frame : Frame) (cdn_node : Option UInt64) (cache_hit : Bool)
      (sync_recipients : ℕ) (queue_index : UInt32)
  | recorded (frame : Frame) (cdn_node : Option UInt64) (cache_hit : Bool)
      (sync_recipients : ℕ) (queue_index : UInt32) (latency_ms : ℚ)
  | returned (res : Except IngestError IngestResult)

/-- A call of `process_packet`. -/
structure Call (S : Siblings) where
  clock : CallClock
  raw : Bytes
  phase : Phase S

/-- The next section of a call, up to the phase after it. -/
def Phase.next (clock : CallClock) (raw_data : Bytes) :
    Phase S → Option (IngestM S (Phase S))
  | .arrived => some do
      let header ← receive raw_data
      return .keyed header
  | .keyed header => some do
      let frame ← decryptStore raw_data header
      return .stored frame
  | .stored frame => some do
      let cdn_node ← Prog.locked (routeCdn frame)
      return .routed frame cdn_node
  | .routed frame cdn_node => some do
      let cache_hit ← Prog.locked (lookupFrame frame)
      return .looked frame cdn_node cache_hit
  | .looked frame cdn_node cache_hit => some do
      Prog.locked (cacheFrame frame)
      return .cached frame cdn_node cache_hit
  | .cached frame cdn_node cache_hit => some do
      let sync_recipients ← Prog.locked (syncDevices clock frame)
      return .synced frame cdn_node cache_hit sync_recipients
  | .synced frame cdn_node cache_hit sync_recipients => some do
      let queue_index ← Prog.locked (routeQueue clock frame)
      return .queued frame cdn_node cache_hit sync_recipients queue_index
  | .queued frame cdn_node cache_hit sync_recipients queue_index => some do
      let latency_ms ← Prog.locked (recordTelemetry clock raw_data.length frame)
      return .recorded frame cdn_node cache_hit sync_recipients queue_index latency_ms
  | .recorded frame cdn_node cache_hit sync_recipients queue_index latency_ms => some do
      Prog.locked (recordStats cache_hit)
      return .returned (.ok {
        device_id := frame.device_id
        is_keyframe := frame.is_keyframe
        scene_version := frame.scene_version
        sync_recipients := sync_recipients
        cached := true
        cdn_node := cdn_node
        queue_index := queue_index
        latency_ms := latency_ms })
  | .returned _ => none

/-- The phase after a section: an error ends the call. -/
def Phase.ofExcept : Except IngestError (Phase S) → Phase S
  | .ok phase => phase
  | .error e => .returned (.error e)

/-- Run the next section of a call. -/
def Call.step (self : Call S) (p : IngestPipeline S) : Option (Call S × IngestPipeline S) :=
  (self.phase.next self.clock self.raw).bind fun section_ ↦ (section_.run p).map fun r ↦
    ({ self with phase := .ofExcept r.1 }, r.2)

/-- A call that has not begun. -/
def Call.arrive (call : CallClock × Bytes) : Call S := ⟨call.1, call.2, .arrived⟩

/-- A pipeline and the calls that will be made of it. -/
def arrivals (p₀ : IngestPipeline S) (calls : List (CallClock × Bytes)) :
    Pool (IngestPipeline S) (Call S) := ⟨p₀, calls.map Call.arrive⟩

/-! ## What a section can do -/

/-- One section of a call, with the pipeline before and after it. -/
inductive Advances (clock : CallClock) (raw : Bytes) :
    Phase S → IngestPipeline S → Phase S → IngestPipeline S → Prop
  | malformed {p : IngestPipeline S} (h : raw.length < 12) :
      Advances clock raw .arrived p
        (.returned (.error (.malformedPacket "Packet too short (< 12 bytes)"))) p
  | keyed {p : IngestPipeline S} (h : 12 ≤ raw.length) :
      Advances clock raw .arrived p (.keyed (p.headerOf raw)) (p.keyed raw)
  | undecryptable {p : IngestPipeline S} {header : Header S} {e : S.crypto.Error}
      (h : 12 ≤ raw.length)
      (ho : S.crypto.open_ header.stream_key (raw.drop 12) = .error e) :
      Advances clock raw (.keyed header) p
        (.returned (.error (.decryptionFailed (S.crypto.debug e)))) p
  | refused {p : IngestPipeline S} {header : Header S} {pl : Bytes} {e : S.db.Error}
      {s : S.db.SdfStorage} (h : 12 ≤ raw.length)
      (ho : S.crypto.open_ header.stream_key (raw.drop 12) = .ok pl)
      (hs : p.stored header.scene_version pl = (.error e, s)) :
      Advances clock raw (.keyed header) p
        (.returned (.error (.storageError (S.db.toString e)))) (p.withStorage s)
  | stored {p : IngestPipeline S} {header : Header S} {pl : Bytes} {s : S.db.SdfStorage}
      (h : 12 ≤ raw.length)
      (ho : S.crypto.open_ header.stream_key (raw.drop 12) = .ok pl)
      (hs : p.stored header.scene_version pl = (.ok (), s)) :
      Advances clock raw (.keyed header) p (.stored (p.frameUnder header pl)) (p.withStorage s)
  | routed {p : IngestPipeline S} {frame : Frame} :
      Advances clock raw (.stored frame) p (.routed frame (routeCdn frame p).1) p
  | looked {p : IngestPipeline S} {frame : Frame} {cdn_node : Option UInt64} :
      Advances clock raw (.routed frame cdn_node) p
        (.looked frame cdn_node (lookupFrame frame p).1) (lookupFrame frame p).2
  | cached {p : IngestPipeline S} {frame : Frame} {cdn_node : Option UInt64}
      {cache_hit : Bool} :
      Advances clock raw (.looked frame cdn_node cache_hit) p
        (.cached frame cdn_node cache_hit) (cacheFrame frame p).2
  | synced {p : IngestPipeline S} {frame : Frame} {cdn_node : Option UInt64}
      {cache_hit : Bool} :
      Advances clock raw (.cached frame cdn_node cache_hit) p
        (.synced frame cdn_node cache_hit (syncDevices clock frame p).1)
        (syncDevices clock frame p).2
  | queued {p : IngestPipeline S} {frame : Frame} {cdn_node : Option UInt64}
      {cache_hit : Bool} {sync_recipients : ℕ} :
      Advances clock raw (.synced frame cdn_node cache_hit sync_recipients) p
        (.queued frame cdn_node cache_hit sync_recipients (routeQueue clock frame p).1)
        (routeQueue clock frame p).2
  | recorded {p : IngestPipeline S} {frame : Frame} {cdn_node : Option UInt64}
      {cache_hit : Bool} {sync_recipients : ℕ} {queue_index : UInt32} :
      Advances clock raw (.queued frame cdn_node cache_hit sync_recipients queue_index) p
        (.recorded frame cdn_node cache_hit sync_recipients queue_index
          (recordTelemetry clock raw.length frame p).1)
        (recordTelemetry clock raw.length frame p).2
  | returned {p : IngestPipeline S} {frame : Frame} {cdn_node : Option UInt64}
      {cache_hit : Bool} {sync_recipients : ℕ} {queue_index : UInt32} {latency_ms : ℚ} :
      Advances clock raw
        (.recorded frame cdn_node cache_hit sync_recipients queue_index latency_ms) p
        (.returned (.ok ⟨frame.device_id, frame.is_keyframe, frame.scene_version,
          sync_recipients, true, cdn_node, queue_index, latency_ms⟩))
        (recordStats cache_hit p).2

/-- A section does one of the things listed. -/
theorem advances_of_step {c c' : Call S} {p q : IngestPipeline S}
    (h : c.step p = some (c', q)) :
    c'.clock = c.clock ∧ c'.raw = c.raw ∧ Advances c.clock c.raw c.phase p c'.phase q := by
  obtain ⟨clock, raw, phase⟩ := c
  obtain ⟨prog, hnext, h⟩ := Option.bind_eq_some_iff.mp h
  obtain ⟨⟨out, q'⟩, hrun, h⟩ := Option.map_eq_some_iff.mp h
  obtain ⟨rfl, rfl⟩ := Prod.mk.inj h
  refine ⟨rfl, rfl, ?_⟩
  cases phase with
  | arrived =>
      obtain rfl := Option.some.inj hnext
      by_cases hlen : raw.length < 12
      · rw [Prog.run_bind_of_error (receive_short hlen p)] at hrun
        obtain ⟨rfl, rfl⟩ := Prod.mk.inj (Option.some.inj hrun)
        exact .malformed hlen
      · rw [Prog.run_bind_of_ok (receive_long (not_lt.mp hlen) p)] at hrun
        obtain ⟨rfl, rfl⟩ := Prod.mk.inj (Option.some.inj hrun)
        exact .keyed (not_lt.mp hlen)
  | keyed header =>
      obtain rfl := Option.some.inj hnext
      by_cases hlen : raw.length < 12
      · rw [Prog.run_bind_of_none (decryptStore_short hlen)] at hrun
        cases hrun
      · have hlen := not_lt.mp hlen
        cases ho : S.crypto.open_ header.stream_key (raw.drop 12) with
        | error e =>
            rw [Prog.run_bind_of_error (decryptStore_unopened hlen ho)] at hrun
            obtain ⟨rfl, rfl⟩ := Prod.mk.inj (Option.some.inj hrun)
            exact .undecryptable hlen ho
        | ok pl =>
            cases hs : p.stored header.scene_version pl with
            | mk outcome s =>
                cases outcome with
                | error e =>
                    rw [Prog.run_bind_of_error (decryptStore_refused hlen ho hs)] at hrun
                    obtain ⟨rfl, rfl⟩ := Prod.mk.inj (Option.some.inj hrun)
                    exact .refused hlen ho hs
                | ok u =>
                    rw [Prog.run_bind_of_ok (decryptStore_stored hlen ho hs)] at hrun
                    obtain ⟨rfl, rfl⟩ := Prod.mk.inj (Option.some.inj hrun)
                    exact .stored hlen ho hs
  | returned res => cases hnext
  | _ =>
      -- The other sections hold one lock and always succeed.
      obtain rfl := Option.some.inj hnext
      obtain ⟨rfl, rfl⟩ := Prod.mk.inj (Option.some.inj hrun)
      constructor

/-- What a section can do, it does. -/
theorem step_of_advances {clock : CallClock} {raw : Bytes} {ph ph' : Phase S}
    {p q : IngestPipeline S} (h : Advances clock raw ph p ph' q) :
    Call.step ⟨clock, raw, ph⟩ p = some (⟨clock, raw, ph'⟩, q) := by
  have hstep : ∀ {section_ : IngestM S (Phase S)} {out : Except IngestError (Phase S)},
      ph.next clock raw = some section_ → section_.run p = some (out, q) →
      Call.step ⟨clock, raw, ph⟩ p = some (⟨clock, raw, .ofExcept out⟩, q) := by
    intro section_ out hnext hrun
    simp only [Call.step, hnext, Option.bind_some, hrun, Option.map_some]
  cases h with
  | malformed h => exact hstep rfl (Prog.run_bind_of_error (receive_short h p))
  | keyed h => exact hstep rfl (Prog.run_bind_of_ok (receive_long h p))
  | undecryptable h ho => exact hstep rfl (Prog.run_bind_of_error (decryptStore_unopened h ho))
  | refused h ho hs => exact hstep rfl (Prog.run_bind_of_error (decryptStore_refused h ho hs))
  | stored h ho hs => exact hstep rfl (Prog.run_bind_of_ok (decryptStore_stored h ho hs))
  | _ => rfl

/-! ## One call after the other -/

/-- A call that is left alone does what `process_packet` does. -/
theorem reaches_of_processPacket {clock : CallClock} {raw : Bytes} {p q : IngestPipeline S}
    {res : Except IngestError IngestResult}
    (h : (processPacket clock raw).run p = some (res, q)) (l₁ l₂ : List (Call S)) :
    Pool.Reaches Call.step ⟨p, l₁ ++ ⟨clock, raw, .arrived⟩ :: l₂⟩
      ⟨q, l₁ ++ ⟨clock, raw, .returned res⟩ :: l₂⟩ := by
  have one : ∀ {ph ph' : Phase S} {p q : IngestPipeline S}, Advances clock raw ph p ph' q →
      Pool.Step Call.step ⟨p, l₁ ++ ⟨clock, raw, ph⟩ :: l₂⟩
        ⟨q, l₁ ++ ⟨clock, raw, ph'⟩ :: l₂⟩ :=
    fun h ↦ .mk (step_of_advances h)
  cases ingests_of_processPacket h with
  | malformed hlen => exact .single (one (.malformed hlen))
  | undecryptable hlen ho =>
      exact .head (one (.keyed hlen)) (.single (one (.undecryptable hlen ho)))
  | refused hlen ho hs =>
      exact .head (one (.keyed hlen)) (.single (one (.refused hlen ho hs)))
  | @accepted pl s hlen ho hs =>
      refine .head (one (.keyed hlen)) (.head (one (.stored hlen ho hs)) ?_)
      refine .head (one .routed) (.head (one .looked) (.head (one .cached) ?_))
      refine .head (one .synced) (.head (one .queued) (.head (one .recorded) ?_))
      exact .single (one .returned)

/-- The call of a delivery, after it has returned. -/
def Call.ofDelivery (x : Delivery) : Call S := ⟨x.clock, x.raw, .returned x.result⟩

/-- One call after the other is a run of the pool. -/
theorem reaches_of_ingestAll {p₀ q : IngestPipeline S} {calls : List (CallClock × Bytes)}
    {ds : List Delivery} (h : ingestAll p₀ calls = some (ds, q)) :
    Pool.Reaches Call.step (arrivals p₀ calls) ⟨q, ds.map Call.ofDelivery⟩ := by
  suffices hrest : ∀ rest, Pool.Reaches Call.step (arrivals p₀ (calls ++ rest))
      ⟨q, ds.map Call.ofDelivery ++ rest.map Call.arrive⟩ by
    simpa using hrest []
  induction calls using List.reverseRecOn generalizing ds q with
  | nil =>
      obtain ⟨rfl, rfl⟩ := Prod.mk.inj (Option.some.inj h)
      exact fun rest ↦ .refl
  | append_singleton calls call ih =>
      intro rest
      obtain ⟨es, q', hpre, res, hrun, rfl⟩ := ingestAll_snoc_inv h
      have hcall := reaches_of_processPacket hrun (es.map Call.ofDelivery)
        (rest.map Call.arrive)
      have hpool : Pool.Reaches Call.step _ _ := (ih hpre (call :: rest)).trans hcall
      simpa [Call.ofDelivery, Call.arrive] using hpool

end IngestPipeline

end CloudGateway
