import CloudGateway.Ingest.Accounting

/-!
# Monitors

A monitor is a thread that reads: the telemetry, the routing stats, the connected devices and
the stored records, each behind the lock of its component and none together with another.  It
does not disturb the calls of `process_packet` (`Pool.Reaches.workers`), so what it reads it
reads along a run of theirs (`Sees`).

Its reads do not fit each other in general.  They do where the order of the reads is that of
the sections backwards: the counters of one component do not go back, and no more requests are
seen than the packets that are seen later (`sees_in_order`).  A monitor that reads the
telemetry first can see more requests than packets.
-/

namespace CloudGateway

open LittleEndian

variable {S : Siblings}

namespace IngestPipeline

/-! ## Reading -/

/-- A method of the pipeline that only reads. -/
inductive Query where
  | telemetrySnapshot
  | routingStats
  | connectedDeviceCount
  | querySpatialRegion (region_min region_max : Vec3)

/-- What such a method returns. -/
inductive Answer (S : Siblings) where
  | telemetrySnapshot (telemetry : GatewayTelemetry S.analytics)
  | routingStats (stats : SdfRoutingStats)
  | connectedDeviceCount (count : ℕ)
  | querySpatialRegion (records : Except IngestError (List (MortonCode × F32)))

/-- A method, called. -/
def Query.ask (p : IngestPipeline S) : Query → Answer S
  | .telemetrySnapshot => .telemetrySnapshot p.telemetrySnapshot
  | .routingStats => .routingStats p.routingStats
  | .connectedDeviceCount => .connectedDeviceCount p.connectedDeviceCount
  | .querySpatialRegion region_min region_max =>
      .querySpatialRegion (p.querySpatialRegion region_min region_max)

/-- A monitor: what it is going to ask, and the answers so far, newest first. -/
structure Monitor (S : Siblings) where
  queries : List Query
  log : List (Answer S)

/-- The next read of a monitor. -/
def Monitor.look : Monitor S → IngestPipeline S → Option (Monitor S)
  | ⟨[], _⟩, _ => none
  | ⟨query :: queries, log⟩, p => some ⟨queries, query.ask p :: log⟩

/-- A pipeline, the calls that will be made of it, and its monitors. -/
def monitored (p₀ : IngestPipeline S) (calls : List (CallClock × Bytes))
    (scripts : List (List Query)) : Pool (IngestPipeline S) (Call S ⊕ Monitor S) :=
  ⟨p₀, calls.map (.inl ∘ Call.arrive) ++ scripts.map fun script ↦ .inr ⟨script, []⟩⟩

/-! ## What is read along a run -/

/-- The answers that are read along a run, newest first. -/
inductive Sees (w₀ : Pool (IngestPipeline S) (Call S)) :
    Pool (IngestPipeline S) (Call S) → List (Answer S) → Prop
  /-- Nothing has happened. -/
  | start : Sees w₀ w₀ []
  /-- A call runs its next section. -/
  | step {v w : Pool (IngestPipeline S) (Call S)} {log : List (Answer S)} (h : Sees w₀ v log)
      (hs : Pool.Step Call.step v w) : Sees w₀ w log
  /-- A method is called. -/
  | ask {w : Pool (IngestPipeline S) (Call S)} {log : List (Answer S)} (h : Sees w₀ w log)
      (query : Query) : Sees w₀ w (query.ask w.shared :: log)

namespace Sees

variable {w₀ w : Pool (IngestPipeline S) (Call S)} {log : List (Answer S)}

theorem reaches (h : Sees w₀ w log) : Pool.Reaches Call.step w₀ w := by
  induction h with
  | start => exact .refl
  | step _ hs ih => exact ih.tail hs
  | ask _ _ ih => exact ih

/-- What has been read was there on the way. -/
theorem exists_of_mem (h : Sees w₀ w log) : ∀ a ∈ log, ∃ (query : Query)
    (v : Pool (IngestPipeline S) (Call S)), Pool.Reaches Call.step w₀ v ∧
      Pool.Reaches Call.step v w ∧ a = query.ask v.shared := by
  induction h with
  | start => exact List.forall_mem_nil _
  | step _ hs ih =>
      intro a ha
      obtain ⟨query, v, hv, hrest, heq⟩ := ih a ha
      exact ⟨query, v, hv, hrest.tail hs, heq⟩
  | ask h query ih => exact List.forall_mem_cons.mpr ⟨⟨query, _, h.reaches, .refl, rfl⟩, ih⟩

/-- What has been read later was there later. -/
theorem pairwise (h : Sees w₀ w log) : log.Pairwise fun newer older ↦
    ∃ (query query' : Query) (v v' : Pool (IngestPipeline S) (Call S)),
      Pool.Reaches Call.step w₀ v ∧ Pool.Reaches Call.step v v' ∧ Pool.Reaches Call.step v' w ∧
        older = query.ask v.shared ∧ newer = query'.ask v'.shared := by
  induction h with
  | start => exact .nil
  | step _ hs ih =>
      refine ih.imp ?_
      rintro newer older ⟨query, query', v, v', hv, hv', hrest, hold, hnew⟩
      exact ⟨query, query', v, v', hv, hv', hrest.tail hs, hold, hnew⟩
  | @ask w _ h query' ih =>
      refine List.pairwise_cons.mpr ⟨fun older hmem ↦ ?_, ih⟩
      obtain ⟨query, v, hv, hrest, heq⟩ := h.exists_of_mem older hmem
      exact ⟨query, query', v, w, hv, hrest, .refl, heq, rfl⟩

end Sees

/-- A monitor sees a run of the calls. -/
theorem sees_of_reaches {p₀ : IngestPipeline S} {calls : List (CallClock × Bytes)}
    {scripts : List (List Query)} {u : Pool (IngestPipeline S) (Call S ⊕ Monitor S)}
    (h : Pool.Reaches (Pool.withObservers Call.step Monitor.look) (monitored p₀ calls scripts) u) :
    ∀ m ∈ u.observers, Sees (arrivals p₀ calls) u.workers m.log := by
  have hworkers : (monitored p₀ calls scripts).workers = arrivals p₀ calls := by
    simp [Pool.workers, monitored, arrivals, List.filterMap_append, List.filterMap_map,
      Function.comp_def]
  refine h.forall_observers (J := fun w m ↦ Sees (arrivals p₀ calls) w m.log) ?_ ?_ ?_
  · exact fun v v' m hs hm ↦ hm.step hs
  · rintro v ⟨_ | ⟨query, queries⟩, log⟩ m' hlook hm
    · cases hlook
    · cases hlook
      exact hm.ask query
  · intro m hm
    have hlog : m.log = [] := by
      simp only [Pool.observers, monitored, List.filterMap_append, List.mem_append,
        List.filterMap_map, List.mem_filterMap, Function.comp_apply] at hm
      rcases hm with ⟨call, -, hcall⟩ | ⟨script, -, hscript⟩
      · cases hcall
      · cases hscript
        rfl
    rw [hworkers, hlog]
    exact .start

/-! ## The counters do not go back -/

/-- What a call has counted it has counted. -/
theorem Advances.grows {clock : CallClock} {raw : Bytes} {ph ph' : Phase S}
    {p q : IngestPipeline S} (h : Advances clock raw ph p ph' q) :
    ph.messages ≤ ph'.messages ∧ ph.packets ≤ ph'.packets ∧ ph.keyframes ≤ ph'.keyframes ∧
      ph.deltas ≤ ph'.deltas ∧ ph.requests ≤ ph'.requests := by
  cases h <;> simp [Phase.messages, Phase.packets, Phase.keyframes, Phase.deltas, Phase.requests]

theorem total_grows {n : Call S → ℕ} (hn : ∀ clock raw ph p ph' q,
      Advances clock raw ph p ph' q → n ⟨clock, raw, ph⟩ ≤ n ⟨clock, raw, ph'⟩)
    {v w : Pool (IngestPipeline S) (Call S)} (h : Pool.Reaches Call.step v w) :
    total n v ≤ total n w := by
  induction h with
  | refl => exact le_rfl
  | tail _ hs ih =>
      cases hs with
      | @mk _ _ c c' _ _ hstep =>
          obtain ⟨hclock, hraw, hadv⟩ := advances_of_step hstep
          obtain ⟨clock, raw, ph⟩ := c
          obtain ⟨clock', raw', ph'⟩ := c'
          obtain rfl : clock' = clock := hclock
          obtain rfl : raw' = raw := hraw
          have hone : n ⟨clock', raw', ph⟩ ≤ n ⟨clock', raw', ph'⟩ := hn _ _ _ _ _ _ hadv
          simp only [total, List.map_append, List.map_cons, List.sum_append, List.sum_cons]
            at ih ⊢
          omega

/-- The counters of one pipeline are no more than those of another. -/
structure Grown (p q : IngestPipeline S) : Prop where
  packets : p.telemetry.total_packets ≤ q.telemetry.total_packets
  bytes : p.telemetry.total_bytes ≤ q.telemetry.total_bytes
  keyframes : p.telemetry.keyframe_count ≤ q.telemetry.keyframe_count
  deltas : p.telemetry.delta_count ≤ q.telemetry.delta_count
  requests : p.routing_stats.total_requests ≤ q.routing_stats.total_requests
  hits : p.routing_stats.cache_hits ≤ q.routing_stats.cache_hits

section Grown

variable {path : String} {cap : ℕ} {secret : Bytes32} {lo hi : Vec3} {p₀ : IngestPipeline S}
  {calls : List (CallClock × Bytes)} {v w : Pool (IngestPipeline S) (Call S)}

/-- What is not wrapped at the end of a run is not wrapped on the way. -/
theorem lt_of_reaches (h : Pool.Reaches Call.step v w)
    (hcount : total (fun c ↦ c.phase.messages) w < 2 ^ 64) (hbytes : total Call.bytes w < 2 ^ 64) :
    total (fun c ↦ c.phase.messages) v < 2 ^ 64 ∧ total Call.bytes v < 2 ^ 64 :=
  ⟨lt_of_le_of_lt (total_grows (fun _ _ _ _ _ _ hadv ↦ hadv.grows.1) h) hcount,
    lt_of_le_of_lt (total_grows
      (fun _ raw _ _ _ _ hadv ↦ Nat.mul_le_mul_right raw.length hadv.grows.2.1) h) hbytes⟩

/-- The counters stand for their numbers on the way to a pool in which they do. -/
theorem counts_of_reaches_of_reaches (hnew : IngestPipeline.new S path cap secret lo hi = .ok p₀)
    (hv : Pool.Reaches Call.step (arrivals p₀ calls) v) (h : Pool.Reaches Call.step v w)
    (hcount : total (fun c ↦ c.phase.messages) w < 2 ^ 64) (hbytes : total Call.bytes w < 2 ^ 64) :
    Counts v := by
  obtain ⟨hcountv, hbytesv⟩ := lt_of_reaches h hcount hbytes
  exact counts_of_reaches hnew hv hcountv hbytesv

/-- A section that counts a hit finds room for it. -/
theorem cache_hits_le {v w : Pool (IngestPipeline S) (Call S)} (hv : Counts v) (hw : Counts w)
    (h : Pool.Step Call.step v w) :
    v.shared.routing_stats.cache_hits ≤ w.shared.routing_stats.cache_hits := by
  cases h with
  | @mk p q c c' l₁ l₂ hstep =>
      obtain ⟨-, -, hadv⟩ := advances_of_step hstep
      obtain ⟨hit, hreq, hhit⟩ := hadv.hits
      have hlimit := hw.requests
      have hroom := q.routing_stats.total_requests.toNat_lt
      have hhits := hv.hits
      simp only [total, List.map_append, List.map_cons, List.sum_append, List.sum_cons]
        at hlimit hhits
      have hone : hit < 2 ^ 64 := by omega
      rw [UInt64.le_iff_toNat_le, hhit, UInt64.toNat_add, UInt64.toNat_ofNat_of_lt' hone,
        Nat.mod_eq_of_lt (by omega)]
      exact Nat.le_add_right _ _

/-- **The counters do not go back**, as long as none of them wraps. -/
theorem grown_of_reaches (hnew : IngestPipeline.new S path cap secret lo hi = .ok p₀)
    (hv : Pool.Reaches Call.step (arrivals p₀ calls) v) (h : Pool.Reaches Call.step v w)
    (hcount : total (fun c ↦ c.phase.messages) w < 2 ^ 64) (hbytes : total Call.bytes w < 2 ^ 64) :
    Grown v.shared w.shared := by
  have hcv := counts_of_reaches_of_reaches hnew hv h hcount hbytes
  have hcw := counts_of_reaches hnew (hv.trans h) hcount hbytes
  refine ⟨?_, ?_, ?_, ?_, ?_, ?_⟩
  · rw [UInt64.le_iff_toNat_le, hcv.packets, hcw.packets]
    exact total_grows (fun _ _ _ _ _ _ hadv ↦ hadv.grows.2.1) h
  · rw [UInt64.le_iff_toNat_le, hcv.bytes, hcw.bytes]
    exact total_grows
      (fun _ raw _ _ _ _ hadv ↦ Nat.mul_le_mul_right raw.length hadv.grows.2.1) h
  · rw [UInt64.le_iff_toNat_le, hcv.keyframes, hcw.keyframes]
    exact total_grows (fun _ _ _ _ _ _ hadv ↦ hadv.grows.2.2.1) h
  · rw [UInt64.le_iff_toNat_le, hcv.deltas, hcw.deltas]
    exact total_grows (fun _ _ _ _ _ _ hadv ↦ hadv.grows.2.2.2.1) h
  · rw [UInt64.le_iff_toNat_le, hcv.requests, hcw.requests]
    exact total_grows (fun _ _ _ _ _ _ hadv ↦ hadv.grows.2.2.2.2) h
  · -- The hits are not in the phases, so they are followed step by step.
    clear hcw
    induction h with
    | refl => exact UInt64.le_refl _
    | @tail u w hu hs ih =>
        have hlast : Pool.Reaches Call.step u w := .single hs
        have hcu := counts_of_reaches_of_reaches hnew (hv.trans hu) hlast hcount hbytes
        have hcw := counts_of_reaches hnew (hv.trans (hu.tail hs)) hcount hbytes
        obtain ⟨hcountu, hbytesu⟩ := lt_of_reaches hlast hcount hbytes
        exact UInt64.le_trans (ih hcountu hbytesu) (cache_hits_le hcu hcw hs)

end Grown

/-! ## What fits -/

/-- The counters of one answer fit each other. -/
def Answer.Sound : Answer S → Prop
  | .telemetrySnapshot telemetry => telemetry.keyframe_count.toNat + telemetry.delta_count.toNat
      = telemetry.total_packets.toNat
  | .routingStats stats => stats.cache_hits ≤ stats.total_requests
  | _ => True

/-- What an answer says of one that was given before. -/
def Answer.Follows : Answer S → Answer S → Prop
  | .telemetrySnapshot newer, .telemetrySnapshot older =>
      older.total_packets ≤ newer.total_packets ∧ older.total_bytes ≤ newer.total_bytes ∧
        older.keyframe_count ≤ newer.keyframe_count ∧ older.delta_count ≤ newer.delta_count
  | .routingStats newer, .routingStats older =>
      older.total_requests ≤ newer.total_requests ∧ older.cache_hits ≤ newer.cache_hits
  | .telemetrySnapshot newer, .routingStats older => older.total_requests ≤ newer.total_packets
  | _, _ => True

theorem Counts.sound {w : Pool (IngestPipeline S) (Call S)} (h : Counts w) (query : Query) :
    (query.ask w.shared).Sound := by
  cases query with
  | telemetrySnapshot => exact h.accounts.keyframes_add_deltas
  | routingStats => exact h.accounts.hits_le
  | _ => trivial

theorem Grown.follows {v v' : Pool (IngestPipeline S) (Call S)} (h : Grown v.shared v'.shared)
    (hv : Counts v) (query query' : Query) :
    (query'.ask v'.shared).Follows (query.ask v.shared) := by
  cases query' with
  | telemetrySnapshot =>
      cases query with
      | telemetrySnapshot => exact ⟨h.packets, h.bytes, h.keyframes, h.deltas⟩
      | routingStats => exact UInt64.le_trans hv.accounts.requests_le h.packets
      | _ => trivial
  | routingStats =>
      cases query with
      | routingStats => exact ⟨h.requests, h.hits⟩
      | _ => trivial
  | _ => trivial

/-- The telemetry, read before a delta, shows no packet, and the stats, read behind it, show a
request. -/
example :
    let body := (deviceKey AliceCrypto.inMemory (.replicate 32 42) 1).toList ++ [2, 7]
    let count : Answer Siblings.inMemory → UInt64
      | .telemetrySnapshot telemetry => telemetry.total_packets
      | .routingStats stats => stats.total_requests
      | _ => 0
    (Pool.schedule (Pool.withObservers Call.step Monitor.look) (fun _ ↦ True)
      (monitored inMemory [(⟨0, 0, 0, 0⟩, packet 1 5 body)] [[.telemetrySnapshot, .routingStats]])
      [1, 0, 0, 0, 0, 0, 0, 0, 0, 0, 1]).map (fun u ↦ u.observers.map fun m ↦ m.log.map count)
      = some [[1, 0]] := by
  decide +kernel

end IngestPipeline

end CloudGateway
