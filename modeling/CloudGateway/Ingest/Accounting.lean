import Mathlib.Data.UInt
import Mathlib.Algebra.Order.BigOperators.Group.List
import CloudGateway.Ingest.Interleaving

/-!
# The counters under concurrent calls

Messages routed, packets recorded and requests counted are kept in three
components behind three locks, so between the sections of a call they differ.
Each counter is what the calls have added to it so far (`counter_of_reaches`), and
what a call has added is read off its phase; the order of the sections then gives
the order of the counters, and at rest, when no call is under way, they agree.
-/

namespace CloudGateway

open LittleEndian

variable {S : Siblings}

namespace IngestPipeline

/-! ## What a call has added -/

namespace Phase

/-- The messages a call has routed. -/
def messages : Phase S → ℕ
  | .queued .. | .recorded .. | .returned (.ok _) => 1
  | _ => 0

/-- The packets a call has recorded. -/
def packets : Phase S → ℕ
  | .recorded .. | .returned (.ok _) => 1
  | _ => 0

/-- The keyframes a call has recorded. -/
def keyframes : Phase S → ℕ
  | .recorded frame .. => frame.is_keyframe.toNat
  | .returned (.ok r) => r.is_keyframe.toNat
  | _ => 0

/-- The deltas a call has recorded. -/
def deltas : Phase S → ℕ
  | .recorded frame .. => (!frame.is_keyframe).toNat
  | .returned (.ok r) => (!r.is_keyframe).toNat
  | _ => 0

/-- The requests a call has counted. -/
def requests : Phase S → ℕ
  | .returned (.ok _) => 1
  | _ => 0

/-- The call has begun and has not returned. -/
def inProgress : Phase S → Bool
  | .arrived | .returned _ => false
  | _ => true

theorem requests_le_packets (ph : Phase S) : ph.requests ≤ ph.packets := by
  fun_cases requests ph <;> simp [packets]

theorem packets_le_messages (ph : Phase S) : ph.packets ≤ ph.messages := by
  fun_cases packets ph <;> simp [messages]

theorem keyframes_add_deltas (ph : Phase S) : ph.keyframes + ph.deltas = ph.packets := by
  cases ph with
  | recorded frame => cases h : frame.is_keyframe <;> simp [keyframes, deltas, packets, h]
  | returned res =>
      cases res with
      | error e => rfl
      | ok r => cases h : r.is_keyframe <;> simp [keyframes, deltas, packets, h]
  | _ => rfl

theorem messages_le (ph : Phase S) : ph.messages ≤ ph.requests + ph.inProgress.toNat := by
  fun_cases messages ph <;> simp [requests, inProgress]

end Phase

/-- The bytes a call has recorded. -/
def Call.bytes (self : Call S) : ℕ := self.phase.packets * self.raw.length

/-- The result of a call that has returned `Ok`. -/
def Call.okResult (self : Call S) : Option IngestResult :=
  match self.phase with
  | .returned (.ok r) => some r
  | _ => none

/-- A quantity of the calls, in total. -/
def total (n : Call S → ℕ) (w : Pool (IngestPipeline S) (Call S)) : ℕ := (w.threads.map n).sum

/-! ## Counters -/

section Counter

variable {p₀ : IngestPipeline S} {calls : List (CallClock × Bytes)}
  {w : Pool (IngestPipeline S) (Call S)}

/-- A `u64` counter of the pipeline to which each section adds what its call gains
in `n`. -/
theorem counter_of_reaches (g : IngestPipeline S → UInt64) (n : Call S → ℕ)
    (hstep : ∀ clock raw ph p ph' q, Advances clock raw ph p ph' q →
      g q + UInt64.ofNat (n ⟨clock, raw, ph⟩) = g p + UInt64.ofNat (n ⟨clock, raw, ph'⟩))
    (harrive : ∀ call, n (Call.arrive call) = 0)
    (h : Pool.Reaches Call.step (arrivals p₀ calls) w) :
    g w.shared = g p₀ + UInt64.ofNat (total n w) := by
  have hsum : ∀ l : List (Call S),
      (l.map fun c ↦ UInt64.ofNat (n c)).sum = UInt64.ofNat (l.map n).sum := by
    intro l
    induction l with
    | nil => rfl
    | cons c l ih => rw [List.map_cons, List.sum_cons, ih, List.map_cons, List.sum_cons,
        UInt64.ofNat_add]
  have hone : ∀ c p c' q, Call.step c p = some (c', q) →
      g q + UInt64.ofNat (n c) = g p + UInt64.ofNat (n c') := by
    intro c p c' q hc
    obtain ⟨hclock, hraw, hadv⟩ := advances_of_step hc
    obtain ⟨clock, raw, ph⟩ := c
    obtain ⟨clock', raw', ph'⟩ := c'
    obtain rfl : clock' = clock := hclock
    obtain rfl : raw' = raw := hraw
    exact hstep _ _ _ _ _ _ hadv
  have hzero : ((arrivals p₀ calls).threads.map n).sum = 0 := by
    apply List.sum_eq_zero
    intro k hk
    simp only [arrivals, List.map_map, List.mem_map, Function.comp_apply] at hk
    obtain ⟨call, -, rfl⟩ := hk
    exact harrive call
  have hacc := Pool.Reaches.accounting g (fun c ↦ UInt64.ofNat (n c)) hone h
  rw [hsum, hsum, hzero] at hacc
  simpa [total, arrivals] using hacc

/-- The router has routed the messages of the calls. -/
theorem messages_routed_of_reaches (h : Pool.Reaches Call.step (arrivals p₀ calls) w) :
    w.shared.queue_router.messages_routed = p₀.queue_router.messages_routed
      + UInt64.ofNat (total (fun c ↦ c.phase.messages) w) := by
  refine counter_of_reaches (fun p ↦ p.queue_router.messages_routed) _ ?_ (fun _ ↦ rfl) h
  intro clock raw ph p ph' q hadv
  cases hadv with
  | queued => simp [Phase.messages, routeQueue]
  | _ => rfl

/-- No message carries a payload. -/
theorem bytes_routed_of_reaches (h : Pool.Reaches Call.step (arrivals p₀ calls) w) :
    w.shared.queue_router.bytes_routed = p₀.queue_router.bytes_routed := by
  have hcount := counter_of_reaches (fun p ↦ p.queue_router.bytes_routed) (fun _ ↦ 0) ?_
    (fun _ ↦ rfl) h
  · simpa [total] using hcount
  · intro clock raw ph p ph' q hadv
    cases hadv with
    | queued => simp [routeQueue, queueMessage]
    | _ => rfl

/-- Telemetry has recorded the packets of the calls. -/
theorem total_packets_of_reaches (h : Pool.Reaches Call.step (arrivals p₀ calls) w) :
    w.shared.telemetry.total_packets = p₀.telemetry.total_packets
      + UInt64.ofNat (total (fun c ↦ c.phase.packets) w) := by
  refine counter_of_reaches (fun p ↦ p.telemetry.total_packets) _ ?_ (fun _ ↦ rfl) h
  intro clock raw ph p ph' q hadv
  cases hadv with
  | recorded => simp [Phase.packets, recordTelemetry, GatewayTelemetry.recordPacket]
  | _ => rfl

theorem keyframe_count_of_reaches (h : Pool.Reaches Call.step (arrivals p₀ calls) w) :
    w.shared.telemetry.keyframe_count = p₀.telemetry.keyframe_count
      + UInt64.ofNat (total (fun c ↦ c.phase.keyframes) w) := by
  refine counter_of_reaches (fun p ↦ p.telemetry.keyframe_count) _ ?_ (fun _ ↦ rfl) h
  intro clock raw ph p ph' q hadv
  cases hadv with
  | @recorded _ frame =>
      cases hk : frame.is_keyframe <;>
        simp [Phase.keyframes, recordTelemetry, GatewayTelemetry.recordPacket, hk,
          Bool.toUInt64]
  | _ => rfl

theorem delta_count_of_reaches (h : Pool.Reaches Call.step (arrivals p₀ calls) w) :
    w.shared.telemetry.delta_count = p₀.telemetry.delta_count
      + UInt64.ofNat (total (fun c ↦ c.phase.deltas) w) := by
  refine counter_of_reaches (fun p ↦ p.telemetry.delta_count) _ ?_ (fun _ ↦ rfl) h
  intro clock raw ph p ph' q hadv
  cases hadv with
  | @recorded _ frame =>
      cases hk : frame.is_keyframe <;>
        simp [Phase.deltas, recordTelemetry, GatewayTelemetry.recordPacket, hk,
          Bool.toUInt64]
  | _ => rfl

theorem total_bytes_of_reaches (h : Pool.Reaches Call.step (arrivals p₀ calls) w) :
    w.shared.telemetry.total_bytes = p₀.telemetry.total_bytes
      + UInt64.ofNat (total Call.bytes w) := by
  refine counter_of_reaches (fun p ↦ p.telemetry.total_bytes) _ ?_
    (fun _ ↦ by simp [Call.bytes, Call.arrive, Phase.packets]) h
  intro clock raw ph p ph' q hadv
  cases hadv with
  | recorded =>
      simp [Call.bytes, Phase.packets, recordTelemetry, GatewayTelemetry.recordPacket]
  | _ => rfl

/-- The routing stats have counted the requests of the calls. -/
theorem total_requests_of_reaches (h : Pool.Reaches Call.step (arrivals p₀ calls) w) :
    w.shared.routing_stats.total_requests = p₀.routing_stats.total_requests
      + UInt64.ofNat (total (fun c ↦ c.phase.requests) w) := by
  refine counter_of_reaches (fun p ↦ p.routing_stats.total_requests) _ ?_ (fun _ ↦ rfl) h
  intro clock raw ph p ph' q hadv
  cases hadv with
  | returned => simp [Phase.requests, recordStats]
  | _ => rfl

/-- A section counts a hit only together with a request. -/
theorem Advances.hits {clock : CallClock} {raw : Bytes} {ph ph' : Phase S}
    {p q : IngestPipeline S} (h : Advances clock raw ph p ph' q) :
    ∃ hit, ph.requests + hit ≤ ph'.requests ∧
      q.routing_stats.cache_hits = p.routing_stats.cache_hits + UInt64.ofNat hit := by
  cases h with
  | @returned _ _ _ cache_hit =>
      refine ⟨cache_hit.toNat, ?_, ?_⟩
      · simp only [Phase.requests, zero_add]
        exact Bool.toNat_le cache_hit
      · cases cache_hit <;> simp [recordStats]
  | _ => exact ⟨0, le_rfl, (UInt64.add_zero _).symm⟩

/-- No more hits are counted than requests. -/
theorem cache_hits_of_reaches (h : Pool.Reaches Call.step (arrivals p₀ calls) w) :
    ∃ hits ≤ total (fun c ↦ c.phase.requests) w,
      w.shared.routing_stats.cache_hits
        = p₀.routing_stats.cache_hits + UInt64.ofNat hits := by
  induction h with
  | refl => exact ⟨0, Nat.zero_le _, (UInt64.add_zero _).symm⟩
  | tail _ hs ih =>
      obtain ⟨hits, hle, heq⟩ := ih
      cases hs with
      | mk h =>
          obtain ⟨-, -, hadv⟩ := advances_of_step h
          obtain ⟨hit, hreq, hhit⟩ := hadv.hits
          refine ⟨hits + hit, ?_, ?_⟩
          · simp only [total, List.map_append, List.map_cons, List.sum_append,
              List.sum_cons] at hle ⊢
            omega
          · rw [hhit, heq, UInt64.ofNat_add, UInt64.add_assoc]

end Counter

/-! ## The accounts -/

/-- The calls that are under way. -/
def inProgress (w : Pool (IngestPipeline S) (Call S)) : ℕ :=
  w.threads.countP fun c ↦ c.phase.inProgress

/-- The results of the calls that have returned `Ok`. -/
def okResults (w : Pool (IngestPipeline S) (Call S)) : List IngestResult :=
  w.threads.filterMap Call.okResult

/-- The length of the packets whose calls have returned `Ok`, in total. -/
def okBytes (w : Pool (IngestPipeline S) (Call S)) : ℕ :=
  ((w.threads.filter fun c ↦ c.okResult.isSome).map fun c ↦ c.raw.length).sum

/-- How the counters stand to each other at any time. -/
structure Accounts (w : Pool (IngestPipeline S) (Call S)) : Prop where
  packets_le : w.shared.telemetry.total_packets ≤ w.shared.queue_router.messages_routed
  requests_le : w.shared.routing_stats.total_requests ≤ w.shared.telemetry.total_packets
  hits_le : w.shared.routing_stats.cache_hits ≤ w.shared.routing_stats.total_requests
  keyframes_add_deltas : w.shared.telemetry.keyframe_count.toNat
    + w.shared.telemetry.delta_count.toNat = w.shared.telemetry.total_packets.toNat
  under_way : w.shared.queue_router.messages_routed.toNat
    - w.shared.routing_stats.total_requests.toNat ≤ inProgress w

/-- What the counters say at rest. -/
structure Settled (w : Pool (IngestPipeline S) (Call S)) : Prop where
  messages : w.shared.queue_router.messages_routed.toNat = (okResults w).length
  packets : w.shared.telemetry.total_packets.toNat = (okResults w).length
  requests : w.shared.routing_stats.total_requests.toNat = (okResults w).length
  bytes : w.shared.telemetry.total_bytes.toNat = okBytes w
  keyframes : w.shared.telemetry.keyframe_count.toNat
    = (okResults w).countP IngestResult.is_keyframe

section Totals

variable {w : Pool (IngestPipeline S) (Call S)}

theorem total_mono {m n : Call S → ℕ} (h : ∀ c, m c ≤ n c)
    (w : Pool (IngestPipeline S) (Call S)) : total m w ≤ total n w :=
  List.sum_le_sum fun c _ ↦ h c

theorem total_add (m n : Call S → ℕ) (w : Pool (IngestPipeline S) (Call S)) :
    total (fun c ↦ m c + n c) w = total m w + total n w := List.sum_map_add

/-- At rest a quantity in which only a call that has returned `Ok` has a share is
a sum over these calls. -/
theorem total_of_rest {m n : Call S → ℕ} (hrest : inProgress w = 0)
    (h : ∀ c, c.phase.inProgress = false → m c = n c) : total m w = total n w := by
  have hmap : w.threads.map m = w.threads.map n := by
    apply List.map_congr_left
    intro c hc
    have hnot := List.countP_eq_zero.mp hrest c hc
    exact h c (by simpa using hnot)
  rw [total, hmap, total]

theorem total_inProgress : total (fun c ↦ c.phase.inProgress.toNat) w = inProgress w := by
  unfold total inProgress
  induction w.threads with
  | nil => rfl
  | cons c l ih =>
      rw [List.map_cons, List.sum_cons, ih, List.countP_cons, add_comm]
      cases c.phase.inProgress <;> rfl

theorem total_okResult : total (fun c ↦ c.okResult.isSome.toNat) w = (okResults w).length := by
  unfold total okResults
  induction w.threads with
  | nil => rfl
  | cons c l ih =>
      rw [List.map_cons, List.sum_cons, ih, List.filterMap_cons]
      cases c.okResult with
      | none => simp
      | some r => simp [add_comm]

theorem total_keyframes : total (fun c ↦ (c.okResult.any IngestResult.is_keyframe).toNat) w
    = (okResults w).countP IngestResult.is_keyframe := by
  unfold total okResults
  induction w.threads with
  | nil => rfl
  | cons c l ih =>
      rw [List.map_cons, List.sum_cons, ih, List.filterMap_cons]
      cases c.okResult with
      | none => simp
      | some r => cases hk : r.is_keyframe <;> simp [hk, add_comm]

theorem total_bytes : total (fun c ↦ c.okResult.isSome.toNat * c.raw.length) w = okBytes w := by
  unfold total okBytes
  induction w.threads with
  | nil => rfl
  | cons c l ih =>
      rw [List.map_cons, List.sum_cons, ih]
      cases hc : c.okResult.isSome <;> simp [hc]

end Totals

/-- A call that is not under way has counted its request if and only if it has
returned `Ok`, and whatever it has counted it has counted in full. -/
theorem Call.rest (c : Call S) (h : c.phase.inProgress = false) :
    c.phase.messages = c.okResult.isSome.toNat ∧ c.phase.packets = c.okResult.isSome.toNat ∧
    c.phase.requests = c.okResult.isSome.toNat ∧
    c.phase.keyframes = (c.okResult.any IngestResult.is_keyframe).toNat := by
  obtain ⟨clock, raw, ph⟩ := c
  cases ph with
  | arrived => exact ⟨rfl, rfl, rfl, rfl⟩
  | returned res => cases res <;> exact ⟨rfl, rfl, rfl, rfl⟩
  | _ => cases h

/-- A counter that started at zero is the number it stands for, up to `2⁶⁴`. -/
theorem toNat_counter {x : UInt64} {n : ℕ} (h : x = 0 + UInt64.ofNat n) (hn : n < 2 ^ 64) :
    x.toNat = n := by
  rw [h, UInt64.zero_add, UInt64.toNat_ofNat_of_lt' hn]

/-- The counters of a pool are the numbers they stand for. -/
structure Counts (w : Pool (IngestPipeline S) (Call S)) : Prop where
  messages : w.shared.queue_router.messages_routed.toNat = total (fun c ↦ c.phase.messages) w
  packets : w.shared.telemetry.total_packets.toNat = total (fun c ↦ c.phase.packets) w
  keyframes : w.shared.telemetry.keyframe_count.toNat = total (fun c ↦ c.phase.keyframes) w
  deltas : w.shared.telemetry.delta_count.toNat = total (fun c ↦ c.phase.deltas) w
  bytes : w.shared.telemetry.total_bytes.toNat = total Call.bytes w
  requests : w.shared.routing_stats.total_requests.toNat = total (fun c ↦ c.phase.requests) w
  hits : w.shared.routing_stats.cache_hits.toNat ≤ total (fun c ↦ c.phase.requests) w

section Totals

variable {w : Pool (IngestPipeline S) (Call S)}

theorem total_keyframes_add_deltas : total (fun c ↦ c.phase.keyframes) w
    + total (fun c ↦ c.phase.deltas) w = total (fun c ↦ c.phase.packets) w := by
  rw [← total_add]
  simp only [Phase.keyframes_add_deltas]

/-- What the counters of a new pipeline have come to, as long as none of them wraps. -/
theorem counts_of_reaches {path : String} {cap : ℕ} {secret : Bytes32} {lo hi : Vec3}
    {p₀ : IngestPipeline S} (hnew : IngestPipeline.new S path cap secret lo hi = .ok p₀)
    {calls : List (CallClock × Bytes)} (h : Pool.Reaches Call.step (arrivals p₀ calls) w)
    (hcount : total (fun c ↦ c.phase.messages) w < 2 ^ 64)
    (hbytes : total Call.bytes w < 2 ^ 64) : Counts w := by
  obtain ⟨hrouter, htel, hstats⟩ := counters_of_new hnew
  have hpackets := total_mono (fun c ↦ c.phase.packets_le_messages) w
  have hrequests := total_mono (fun c ↦ c.phase.requests_le_packets) w
  have hsplit : total (fun c ↦ c.phase.keyframes) w + total (fun c ↦ c.phase.deltas) w
      = total (fun c ↦ c.phase.packets) w := total_keyframes_add_deltas
  obtain ⟨hits, hhits, hH⟩ := cache_hits_of_reaches h
  refine ⟨?_, ?_, ?_, ?_, ?_, ?_, ?_⟩
  · refine toNat_counter ?_ hcount
    rw [messages_routed_of_reaches h, hrouter]
    rfl
  · refine toNat_counter ?_ (lt_of_le_of_lt hpackets hcount)
    rw [total_packets_of_reaches h, htel]
    rfl
  · refine toNat_counter ?_ (by omega)
    rw [keyframe_count_of_reaches h, htel]
    rfl
  · refine toNat_counter ?_ (by omega)
    rw [delta_count_of_reaches h, htel]
    rfl
  · refine toNat_counter ?_ hbytes
    rw [total_bytes_of_reaches h, htel]
    rfl
  · refine toNat_counter ?_ (by omega)
    rw [total_requests_of_reaches h, hstats]
  · have hcacheHits : w.shared.routing_stats.cache_hits.toNat = hits := by
      refine toNat_counter ?_ (by omega)
      rw [hH, hstats]
    rw [hcacheHits]
    exact hhits

theorem Counts.accounts (h : Counts w) : Accounts w where
  packets_le := by
    rw [UInt64.le_iff_toNat_le, h.packets, h.messages]
    exact total_mono (fun c ↦ c.phase.packets_le_messages) w
  requests_le := by
    rw [UInt64.le_iff_toNat_le, h.requests, h.packets]
    exact total_mono (fun c ↦ c.phase.requests_le_packets) w
  hits_le := by
    rw [UInt64.le_iff_toNat_le, h.requests]
    exact h.hits
  keyframes_add_deltas := by
    rw [h.keyframes, h.deltas, h.packets]
    exact total_keyframes_add_deltas
  under_way := by
    have hunder : total (fun c ↦ c.phase.messages) w
        ≤ total (fun c ↦ c.phase.requests) w + inProgress w := by
      rw [← total_inProgress, ← total_add]
      exact total_mono (fun c ↦ c.phase.messages_le) w
    rw [h.messages, h.requests]
    omega

/-- At rest every counter is one of the calls that have returned `Ok`. -/
theorem Counts.settled (h : Counts w) (hrest : inProgress w = 0) : Settled w where
  messages := by
    rw [h.messages, total_of_rest hrest fun c hc ↦ (c.rest hc).1]
    exact total_okResult
  packets := by
    rw [h.packets, total_of_rest hrest fun c hc ↦ (c.rest hc).2.1]
    exact total_okResult
  requests := by
    rw [h.requests, total_of_rest hrest fun c hc ↦ (c.rest hc).2.2.1]
    exact total_okResult
  bytes := by
    have hown : ∀ c : Call S, c.phase.inProgress = false →
        c.bytes = c.okResult.isSome.toNat * c.raw.length := by
      intro c hc
      rw [Call.bytes, (c.rest hc).2.1]
    rw [h.bytes, total_of_rest hrest hown]
    exact total_bytes
  keyframes := by
    rw [h.keyframes, total_of_rest hrest fun c hc ↦ (c.rest hc).2.2.2]
    exact total_keyframes

end Totals

/-- **Accounting under concurrency.**  Whatever the interleaving of any calls of
`process_packet` on a new pipeline, the counters stand in the order of the
sections, and differ by the calls under way at most; when no call is under way they
agree with what the calls have returned. -/
theorem accounts_of_reaches {path : String} {cap : ℕ} {secret : Bytes32} {lo hi : Vec3}
    {p₀ : IngestPipeline S} (hnew : IngestPipeline.new S path cap secret lo hi = .ok p₀)
    {calls : List (CallClock × Bytes)} {w : Pool (IngestPipeline S) (Call S)}
    (h : Pool.Reaches Call.step (arrivals p₀ calls) w)
    (hcount : total (fun c ↦ c.phase.messages) w < 2 ^ 64)
    (hbytes : total Call.bytes w < 2 ^ 64) :
    Accounts w ∧ (inProgress w = 0 → Settled w) := by
  have hcounts := counts_of_reaches hnew h hcount hbytes
  exact ⟨hcounts.accounts, hcounts.settled⟩

/-- The accounts of a delta and a packet that is too short, both run to their ends. -/
theorem accounts_of_reaches_inMemory :
    let body := (deviceKey AliceCrypto.inMemory (.replicate 32 42) 1).toList ++ [2, 7]
    let calls := [(⟨0, 0, 0, 0⟩, packet 1 5 body), (⟨0, 0, 0, 0⟩, [1, 2])]
    ∃ w, Pool.Reaches Call.step (arrivals inMemory calls) w ∧ (okResults w).length = 1 ∧
      Accounts w ∧ Settled w := by
  intro body calls
  have hrun : (Pool.schedule Call.step (fun _ ↦ True) (arrivals inMemory calls)
      [0, 0, 0, 1, 0, 0, 0, 0, 0, 0]).map (fun w ↦ ((okResults w).length, inProgress w,
        total (fun c ↦ c.phase.messages) w, total Call.bytes w)) = some (1, 0, 1, 46) := by
    decide +kernel
  obtain ⟨w, hw, heq⟩ := Option.map_eq_some_iff.mp hrun
  simp only [Prod.mk.injEq] at heq
  obtain ⟨hok, hrest, hmessages, hbytes⟩ := heq
  have hreach := (Pool.reachesWithin_of_schedule hw).reaches
  obtain ⟨hacc, hset⟩ := accounts_of_reaches (new_inMemory "db" 1000) hreach
    (by rw [hmessages]; norm_num) (by rw [hbytes]; norm_num)
  exact ⟨w, hreach, hok, hacc, hset hrest⟩

end IngestPipeline

end CloudGateway
