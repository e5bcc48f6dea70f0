import CloudGateway.Library.Locks
import CloudGateway.Ingest.Step

/-!
# Locks of the pipeline

The methods of the pipeline with their lock guards, each held as long as in the source: to the
end of a block, of a statement or of the function.  Without the guards, a call of
`process_packet` is `processPacket` (`toProg_processPacket`).

The canonical order is the key cache before `cdn_router`, `sync_hub`, `queue_router`,
`telemetry` and `routing_stats`.  Every method takes its locks in that order, one at a time
(`Method.keepsTo`), so no thread ever awaits a lock behind another one, and any number of threads
running any methods can always go on (`locks_of_reachable`).
-/

namespace CloudGateway

open LittleEndian

variable {S : Siblings}

/-- The locks of a pipeline, the one in its key store included. -/
inductive PipelineLock where
  | keyCache
  | cdnRouter
  | syncHub
  | queueRouter
  | telemetry
  | routingStats
deriving DecidableEq

namespace PipelineLock

/-- The number of a lock in the canonical order; the key cache comes before all others. -/
def number : PipelineLock → ℕ
  | keyCache => 0
  | cdnRouter => 1
  | syncHub => 2
  | queueRouter => 3
  | telemetry => 4
  | routingStats => 5

theorem number_le (l : PipelineLock) : l.number ≤ 5 := by cases l <;> decide

/-- A lock may be awaited while one of lower number is held, but none while the key cache is. -/
def MayAwait (h l : PipelineLock) : Prop := h ≠ keyCache ∧ h.number < l.number

/-- The canonical order. -/
def Before (a l : PipelineLock) : Prop := a.number < l.number

/-- No lock may be awaited behind locks without end: the numbers run out. -/
theorem wellFounded_mayAwait : WellFounded fun l h ↦ MayAwait h l := by
  have hsub : Subrelation (fun l h ↦ MayAwait h l) (fun l h : PipelineLock ↦
      5 - l.number < 5 - h.number) := by
    intro l h hlt
    have hnumber := hlt.2
    have hle := l.number_le
    omega
  exact hsub.wf (measure fun l : PipelineLock ↦ 5 - l.number).wf

end PipelineLock

namespace IngestPipeline

/-! ## The methods with their guards -/

/-- A method of the pipeline with its lock guards. -/
abbrev GuardedM (S : Siblings) := LockProg PipelineLock (IngestPipeline S) IngestError

namespace Guarded

/-- Steps 1 and 2, up to the key: `derive_device_key` holds the key cache until it returns. -/
def receive (raw_data : Bytes) : GuardedM S (Header S) := do
  if raw_data.length < 12 then
    LockProg.atomic (Prog.fail (.malformedPacket "Packet too short (< 12 bytes)"))
  let device_id ← LockProg.atomic (field u64FromLe "Invalid device_id field" raw_data 0 8)
  let scene_version ←
    LockProg.atomic (field u32FromLe "Invalid scene_version field" raw_data 8 12)
  let stream_key ← LockProg.guarded .keyCache (Prog.locked (lookupKey device_id))
  return ⟨device_id, scene_version, stream_key⟩

/-- Step 4, second half: the guard on `cdn_router` is a temporary of the statement, which only a
stored keyframe reaches. -/
def routeCdn (frame : Frame) : GuardedM S (Option UInt64) :=
  match frame.morton with
  | some _ => LockProg.guarded .cdnRouter (Prog.locked (IngestPipeline.routeCdn frame))
  | none => pure none

/-- `process_packet` with its guards. -/
def processPacket (clock : CallClock) (raw_data : Bytes) : GuardedM S IngestResult := do
  let header ← receive raw_data
  let frame ← LockProg.atomic (decryptStore raw_data header)
  let cdn_node ← routeCdn frame
  let cache_hit ← LockProg.atomic (Prog.locked (lookupFrame frame))
  LockProg.atomic (Prog.locked (cacheFrame frame))
  -- `hub` lives to the end of its block
  let sync_recipients ← LockProg.guarded .syncHub (Prog.locked (syncDevices clock frame))
  -- the guard is a temporary of the block's last expression, dropped at the end of the `let`
  let queue_index ← LockProg.guarded .queueRouter (Prog.locked (routeQueue clock frame))
  let latency_ms ← LockProg.guarded .telemetry
    (Prog.locked (recordTelemetry clock raw_data.length frame))
  LockProg.guarded .routingStats (Prog.locked (recordStats cache_hit))
  return {
    device_id := frame.device_id
    is_keyframe := frame.is_keyframe
    scene_version := frame.scene_version
    sync_recipients := sync_recipients
    cached := true
    cdn_node := cdn_node
    queue_index := queue_index
    latency_ms := latency_ms }

/-- `set_cdn_router`: the guard is a temporary of the assignment. -/
def setCdnRouter (router : S.cdn.SdfCdnRouter) : GuardedM S Unit :=
  LockProg.guarded .cdnRouter (Prog.locked fun self ↦ ((), self.setCdnRouter router))

/-- `query_spatial_region` takes no lock. -/
def querySpatialRegion (region_min region_max : Vec3) : GuardedM S (List (MortonCode × F32)) :=
  LockProg.atomic (Prog.attempt fun self ↦
    (self.querySpatialRegion region_min region_max, self))

/-- `get_cached_frame` takes no lock. -/
def getCachedFrame (device_id : UInt64) (scene_version : UInt32) : GuardedM S (Option Bytes) :=
  LockProg.atomic (Prog.locked fun self ↦ self.getCachedFrame device_id scene_version)

/-- `telemetry_snapshot`: the guard is a temporary of the last expression, dropped when the
function returns. -/
def telemetrySnapshot : GuardedM S (GatewayTelemetry S.analytics) :=
  LockProg.guarded .telemetry (Prog.locked fun self ↦ (self.telemetrySnapshot, self))

/-- `routing_stats`, likewise. -/
def routingStats : GuardedM S SdfRoutingStats :=
  LockProg.guarded .routingStats (Prog.locked fun self ↦ (self.routingStats, self))

/-- `connected_device_count`, likewise. -/
def connectedDeviceCount : GuardedM S ℕ :=
  LockProg.guarded .syncHub (Prog.locked fun self ↦ (self.connectedDeviceCount, self))

theorem toProg_receive (raw : Bytes) :
    (receive raw : GuardedM S (Header S)).toProg = IngestPipeline.receive raw := by
  by_cases h : raw.length < 12
  · simp only [receive, IngestPipeline.receive, h, if_true]
    simp
  · simp only [receive, IngestPipeline.receive, h, if_false]
    simp

theorem toProg_routeCdn (frame : Frame) :
    (routeCdn frame : GuardedM S (Option UInt64)).toProg
      = Prog.locked (IngestPipeline.routeCdn frame) := by
  rw [routeCdn]
  cases h : frame.morton with
  | some morton => exact LockProg.toProg_guarded _ _
  | none =>
      have hnone : ∀ p : IngestPipeline S, IngestPipeline.routeCdn frame p = (none, p) := by
        intro p
        rw [IngestPipeline.routeCdn, h]
        rfl
      simp only [Prog.locked, hnone]
      rfl

/-- Without its guards, the method is `process_packet`. -/
theorem toProg_processPacket (clock : CallClock) (raw : Bytes) :
    (processPacket clock raw : GuardedM S IngestResult).toProg
      = IngestPipeline.processPacket clock raw := by
  simp only [processPacket, IngestPipeline.processPacket, LockProg.toProg_bind, toProg_receive,
    toProg_routeCdn, LockProg.toProg_atomic, LockProg.toProg_guarded, LockProg.toProg_pure]

end Guarded

/-- A call of a method of the pipeline. -/
inductive Method (S : Siblings) where
  | setCdnRouter (router : S.cdn.SdfCdnRouter)
  | processPacket (clock : CallClock) (raw_data : Bytes)
  | querySpatialRegion (region_min region_max : Vec3)
  | getCachedFrame (device_id : UInt64) (scene_version : UInt32)
  | telemetrySnapshot
  | routingStats
  | connectedDeviceCount

/-- The code of a call whose result is dropped. -/
def GuardedM.discard {A : Type} (c : GuardedM S A) :
    LockCode PipelineLock (IngestPipeline S) PUnit :=
  (LockProg.code c).bind fun _ ↦ .ret ⟨⟩

/-- The code of a call. -/
def Method.code : Method S → LockCode PipelineLock (IngestPipeline S) PUnit
  | setCdnRouter router => (Guarded.setCdnRouter router).discard
  | processPacket clock raw_data => (Guarded.processPacket clock raw_data).discard
  | querySpatialRegion region_min region_max =>
      (Guarded.querySpatialRegion region_min region_max).discard
  | getCachedFrame device_id scene_version =>
      (Guarded.getCachedFrame device_id scene_version).discard
  | telemetrySnapshot => GuardedM.discard (S := S) Guarded.telemetrySnapshot
  | routingStats => GuardedM.discard (S := S) Guarded.routingStats
  | connectedDeviceCount => GuardedM.discard (S := S) Guarded.connectedDeviceCount

/-! ## Discipline -/

/-- No lock is held, and the locks taken so far have numbers below `n`. -/
def Below (n : ℕ) (held taken : List PipelineLock) : Prop :=
  held = [] ∧ ∀ a ∈ taken, a.number < n

/-- From between two sections to between two sections, the code keeps to the canonical order
and takes only locks with numbers from `m` and below `n`. -/
def Ascends {A : Type} (m n : ℕ) (c : GuardedM S A) : Prop :=
  LockProg.Keeps PipelineLock.MayAwait PipelineLock.Before (Below m) (Below n) c

theorem Below.mono {m n : ℕ} (hmn : m ≤ n) (held taken : List PipelineLock)
    (h : Below m held taken) : Below n held taken :=
  ⟨h.1, fun a ha ↦ lt_of_lt_of_le (h.2 a ha) hmn⟩

theorem Ascends.pure {A : Type} {m n : ℕ} (hmn : m ≤ n) (a : A) :
    Ascends m n (Pure.pure a : GuardedM S A) := LockProg.Keeps.pure (Below.mono hmn) a

theorem Ascends.atomic {A : Type} (n : ℕ) (x : IngestM S A) :
    Ascends n n (LockProg.atomic x : GuardedM S A) := LockProg.Keeps.atomic (fun _ _ h ↦ h) x

theorem Ascends.bind {A B : Type} {m k n : ℕ} {c : GuardedM S A} {f : A → GuardedM S B}
    (hc : Ascends m k c) (hkn : k ≤ n) (hf : ∀ a, Ascends k n (f a)) : Ascends m n (c >>= f) :=
  LockProg.Keeps.bind hc hf (Below.mono hkn)

/-- A section under one lock, after locks of lower number. -/
theorem Ascends.guarded {A : Type} {m n : ℕ} {l : PipelineLock} (hm : m ≤ l.number)
    (hn : l.number < n) (x : IngestM S A) :
    Ascends m n (LockProg.guarded l x : GuardedM S A) := by
  refine LockProg.Keeps.guarded (fun held taken h ↦ ?_) x
  obtain ⟨rfl, htaken⟩ := h
  have hbelow : ∀ a ∈ taken, a.number < l.number := fun a ha ↦
    lt_of_lt_of_le (htaken a ha) hm
  refine ⟨fun _ h ↦ absurd h List.not_mem_nil, hbelow, rfl, fun a ha ↦ ?_⟩
  rcases List.mem_append.mp ha with ha | ha
  · exact lt_trans (hbelow a ha) hn
  · rw [List.mem_singleton.mp ha]
    exact hn

namespace Guarded

theorem ascends_receive (raw : Bytes) : Ascends 0 1 (receive raw : GuardedM S (Header S)) := by
  have hrest : ∀ u : PUnit, Ascends (S := S) 0 1 (do
      let device_id ← LockProg.atomic (field u64FromLe "Invalid device_id field" raw 0 8)
      let scene_version ←
        LockProg.atomic (field u32FromLe "Invalid scene_version field" raw 8 12)
      let stream_key ← LockProg.guarded .keyCache (Prog.locked (lookupKey device_id))
      return (⟨device_id, scene_version, stream_key⟩ : Header S)) := by
    intro u
    refine (Ascends.atomic 0 _).bind (by decide) fun device_id ↦ ?_
    refine (Ascends.atomic 0 _).bind (by decide) fun scene_version ↦ ?_
    refine (Ascends.guarded (n := 1) (by decide) (by decide) _).bind le_rfl fun key ↦ ?_
    exact Ascends.pure le_rfl _
  rw [receive]
  by_cases h : raw.length < 12
  · rw [if_pos h]
    exact (Ascends.atomic 0 _).bind (by decide) hrest
  · rw [if_neg h]
    exact hrest ⟨⟩

theorem ascends_routeCdn (frame : Frame) :
    Ascends 1 2 (routeCdn frame : GuardedM S (Option UInt64)) := by
  rw [routeCdn]
  cases frame.morton with
  | some morton => exact Ascends.guarded (by decide) (by decide) _
  | none => exact Ascends.pure (by decide) _

theorem ascends_processPacket (clock : CallClock) (raw : Bytes) :
    Ascends 0 6 (processPacket clock raw : GuardedM S IngestResult) := by
  rw [processPacket]
  refine (ascends_receive raw).bind (by decide) fun header ↦ ?_
  refine (Ascends.atomic 1 _).bind (by decide) fun frame ↦ ?_
  refine (ascends_routeCdn frame).bind (by decide) fun cdn_node ↦ ?_
  refine (Ascends.atomic 2 _).bind (by decide) fun cache_hit ↦ ?_
  refine (Ascends.atomic 2 _).bind (by decide) fun _ ↦ ?_
  refine (Ascends.guarded (n := 3) (by decide) (by decide) _).bind (by decide) fun recipients ↦ ?_
  refine (Ascends.guarded (n := 4) (by decide) (by decide) _).bind (by decide) fun index ↦ ?_
  refine (Ascends.guarded (n := 5) (by decide) (by decide) _).bind (by decide) fun latency ↦ ?_
  refine (Ascends.guarded (n := 6) (by decide) (by decide) _).bind (by decide) fun _ ↦ ?_
  exact Ascends.pure le_rfl _

end Guarded

/-- Code that ascends keeps to the discipline from its start, and ends without a lock. -/
theorem Ascends.keepsTo_discard {A : Type} {n : ℕ} {c : GuardedM S A} (h : Ascends 0 n c) :
    c.discard.KeepsTo PipelineLock.MayAwait PipelineLock.Before :=
  (h [] [] ⟨rfl, fun _ h ↦ absurd h List.not_mem_nil⟩).bind fun _ _ _ hbelow ↦ hbelow.1

/-- Every method takes its locks in the canonical order and awaits none behind another. -/
theorem Method.keepsTo (m : Method S) :
    m.code.KeepsTo PipelineLock.MayAwait PipelineLock.Before := by
  cases m with
  | setCdnRouter router =>
      exact (Ascends.guarded (n := 6) (by decide) (by decide) _).keepsTo_discard
  | processPacket clock raw => exact (Guarded.ascends_processPacket clock raw).keepsTo_discard
  | querySpatialRegion lo hi => exact (Ascends.atomic 0 _).keepsTo_discard
  | getCachedFrame d v => exact (Ascends.atomic 0 _).keepsTo_discard
  | telemetrySnapshot =>
      exact (Ascends.guarded (n := 6) (by decide) (by decide) _).keepsTo_discard
  | routingStats => exact (Ascends.guarded (n := 6) (by decide) (by decide) _).keepsTo_discard
  | connectedDeviceCount =>
      exact (Ascends.guarded (n := 6) (by decide) (by decide) _).keepsTo_discard

/-! ## Threads -/

/-- Threads that will call the given methods of one pipeline. -/
def threads (p₀ : IngestPipeline S) (programs : List (List (Method S))) :
    Pool (Locked PipelineLock (IngestPipeline S)) (LockThread PipelineLock (IngestPipeline S)) :=
  LockThread.pool p₀ (programs.map (List.map Method.code))

/-- **Lock discipline.**  Let any number of threads call any methods of one pipeline, in any
interleaving.  No thread awaits a lock while it holds one of equal or higher number, or the key
cache; each call takes its locks in the canonical order; and as long as a thread is not done,
some thread can go on. -/
theorem locks_of_reachable (p₀ : IngestPipeline S) (programs : List (List (Method S)))
    {w : Pool (Locked PipelineLock (IngestPipeline S))
      (LockThread PipelineLock (IngestPipeline S))}
    (hw : Pool.Reaches LockThread.step (threads p₀ programs) w) :
    (∀ t ∈ w.threads, ∀ l, t.Awaits l →
      ∀ h ∈ t.held, h ≠ .keyCache ∧ h.number < l.number) ∧
    (∀ t ∈ w.threads, t.taken.Pairwise fun a l ↦ a.number < l.number) ∧
    ((∃ t ∈ w.threads, ¬ t.Finished) → ∃ t ∈ w.threads, (t.step w.shared).isSome) := by
  have hcalls : ∀ cs ∈ programs.map (List.map Method.code), ∀ c ∈ cs,
      c.KeepsTo PipelineLock.MayAwait PipelineLock.Before := by
    intro cs hcs c hc
    obtain ⟨ms, -, rfl⟩ := List.mem_map.mp hcs
    obtain ⟨m, -, rfl⟩ := List.mem_map.mp hc
    exact m.keepsTo
  have hd := LockThread.disciplined_of_reaches hcalls hw
  exact ⟨fun t ht l ha ↦ (hd t ht).awaits ha, fun t ht ↦ (hd t ht).ordered,
    LockThread.exists_step PipelineLock.wellFounded_mayAwait hcalls hw⟩

/-- While a packet of device 1 is on the way through the pipeline, another thread asks for the
telemetry, and has to wait for the first one's section. -/
theorem locks_of_reachable_inMemory :
    let calls : List (List (Method Siblings.inMemory)) :=
      [[.processPacket ⟨0, 0, 0, 0⟩ (packet 1 1
        ((deviceKey AliceCrypto.inMemory (.replicate 32 42) 1).toList ++ [2, 7]))],
        [.telemetrySnapshot]]
    ∃ w, Pool.Reaches LockThread.step (threads inMemory calls) w ∧
      w.threads.map LockThread.taken
        = [[.keyCache, .syncHub, .queueRouter, .telemetry], []] ∧
      (∃ t ∈ w.threads, t.Awaits .telemetry ∧ (t.step w.shared).isNone) ∧
      (∀ t ∈ w.threads, t.taken.Pairwise fun a l ↦ a.number < l.number) ∧
      ∃ t ∈ w.threads, (t.step w.shared).isSome := by
  intro calls
  have hw : (Pool.schedule LockThread.step (fun _ ↦ True) (threads inMemory calls)
      [0, 0, 0, 0, 0, 0, 0, 0, 0, 0, 0, 0, 0, 0, 0, 0, 1]).map (fun w ↦
        (w.threads.map LockThread.taken, w.threads.map fun t ↦
          (decide (t.Awaits .telemetry), (t.step w.shared).isNone)))
      = some ([[.keyCache, .syncHub, .queueRouter, .telemetry], []],
          [(false, false), (true, true)]) := by decide +kernel
  obtain ⟨w, hrun, heq⟩ := Option.map_eq_some_iff.mp hw
  obtain ⟨htaken, hthreads⟩ := Prod.mk.inj heq
  obtain ⟨t, ht, hpair⟩ := List.mem_map.mp
    (hthreads ▸ List.mem_cons_of_mem _ List.mem_cons_self)
  obtain ⟨hawaits, hnone⟩ := Prod.mk.inj hpair
  have hawaits : t.Awaits .telemetry := of_decide_eq_true hawaits
  have hreaches := (Pool.reachesWithin_of_schedule hrun).reaches
  have hlocks := locks_of_reachable inMemory calls hreaches
  refine ⟨w, hreaches, htaken, ⟨t, ht, hawaits, hnone⟩, hlocks.2.1, hlocks.2.2 ⟨t, ht, ?_⟩⟩
  rintro ⟨hret, -⟩
  obtain ⟨k, hk⟩ := hawaits
  rw [hret] at hk
  cases hk

end IngestPipeline

end CloudGateway
