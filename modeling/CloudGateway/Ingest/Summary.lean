import Mathlib.Algebra.Order.Field.Rat
import CloudGateway.Ingest.Histories

/-!
# What telemetry reports

The telemetry of a gateway is read while calls are recording, through sketches that
estimate.  It has the sequential history of the packets recorded so far
(`telemetry_history`), so what is read off it is a matter of that history alone: the
estimates and the averages are bounded by it at any moment (`reported_of_reaches`), and of
the history it is the packets and the latencies that count and not their order, so that no
schedule and no order of arrival shows in a summary (`summary_unordered`).
-/

namespace CloudGateway

open LittleEndian

variable {S : Siblings}

/-! ## Histories, read -/

/-- The hash under which a packet's device is counted. -/
def Served.hash (S : Siblings) (x : Served) : UInt64 := S.analytics.hashU64 x.packet.device_id

/-- What telemetry is after some packets. -/
theorem foldl_record (rs : List Served) (tel : GatewayTelemetry S.analytics) :
    rs.foldl Served.record tel = {
      total_packets := tel.total_packets + UInt64.ofNat rs.length
      total_bytes := tel.total_bytes + UInt64.ofNat (rs.map Served.raw_len).sum
      keyframe_count := tel.keyframe_count
        + UInt64.ofNat (rs.countP fun x ↦ x.packet.is_keyframe)
      delta_count := tel.delta_count
        + UInt64.ofNat (rs.countP fun x ↦ !x.packet.is_keyframe)
      latency_sketch := (rs.map Served.latency_ms).foldl S.analytics.insert tel.latency_sketch
      unique_devices :=
        (rs.map (Served.hash S)).foldl S.analytics.insertUnique tel.unique_devices
      device_frequency := (rs.map (Served.hash S)).foldl
        (fun s h ↦ S.analytics.insertCount s h 1) tel.device_frequency } := by
  induction rs using List.reverseRecOn with
  | nil => simp
  | append_singleton rs x ih =>
      rw [List.foldl_append, ih]
      cases hk : x.packet.is_keyframe <;>
        simp [Served.record, GatewayTelemetry.recordPacket, Served.hash, hk, Bool.toUInt64,
          UInt64.add_assoc]

/-- What telemetry counts of a packet, apart from its latency. -/
def Served.content (x : Served) : ℕ × Accepted := (x.raw_len, x.packet)

/-- The same packets make the same estimates, and the same summary if their latencies are the
same, in whatever order; and otherwise the same summary but for the percentiles. -/
theorem summary_perm {R : AnalyticsReaders S.analytics} (hR : R.Unordered)
    {rs rs' : List Served} (h : (rs.map Served.content).Perm (rs'.map Served.content)) :
    let tel := rs.foldl Served.record (.new S.analytics)
    let tel' := rs'.foldl Served.record (.new S.analytics)
    tel.summary R = { tel'.summary R with
      p50_latency_ms := tel.p50LatencyMs R
      p95_latency_ms := tel.p95LatencyMs R
      p99_latency_ms := tel.p99LatencyMs R } ∧
    (∀ d, tel.devicePacketEstimate R d = tel'.devicePacketEstimate R d) ∧
    ((rs.map Served.latency_ms).Perm (rs'.map Served.latency_ms) →
      tel.summary R = tel'.summary R) := by
  intro tel tel'
  have hmap : ∀ {B : Type} (f : ℕ × Accepted → B),
      (rs.map fun x ↦ f x.content).Perm (rs'.map fun x ↦ f x.content) := fun f ↦ by
    simpa only [List.map_map, Function.comp_def] using h.map f
  have hcountP : ∀ P : ℕ × Accepted → Bool,
      (rs.countP fun x ↦ P x.content) = rs'.countP fun x ↦ P x.content := fun P ↦ by
    simpa only [List.countP_map, Function.comp_def] using h.countP_eq P
  have hhash : (rs.map (Served.hash S)).Perm (rs'.map (Served.hash S)) :=
    hmap fun x ↦ S.analytics.hashU64 x.2.device_id
  have hlength : rs.length = rs'.length := by simpa using h.length_eq
  have hbytes : (rs.map Served.raw_len).sum = (rs'.map Served.raw_len).sum :=
    (hmap Prod.fst).sum_eq
  have hkeyframes := hcountP fun x ↦ x.2.is_keyframe
  have hdeltas := hcountP fun x ↦ !x.2.is_keyframe
  simp only [Served.content] at hkeyframes hdeltas
  have hunique := hR.cardinality _ _ fun x ↦ hhash.mem_iff
  have hcount := hR.estimateHash _ _ hhash
  have hbut : tel.summary R = { tel'.summary R with
      p50_latency_ms := tel.p50LatencyMs R
      p95_latency_ms := tel.p95LatencyMs R
      p99_latency_ms := tel.p99LatencyMs R } := by
    simp only [tel, tel', foldl_record, hlength, hbytes, hkeyframes, hdeltas,
      GatewayTelemetry.summary, GatewayTelemetry.avgPacketSize, GatewayTelemetry.keyframeRatio,
      GatewayTelemetry.p50LatencyMs, GatewayTelemetry.p95LatencyMs,
      GatewayTelemetry.p99LatencyMs, GatewayTelemetry.estimatedUniqueDevices,
      GatewayTelemetry.new, hunique]
  refine ⟨hbut, fun d ↦ ?_, fun hlatency ↦ hbut.trans ?_⟩
  · simp only [tel, tel', foldl_record]
    exact hcount _
  · have hquantile : ∀ q, R.quantile tel.latency_sketch q = R.quantile tel'.latency_sketch q := by
      intro q
      simp only [tel, tel', foldl_record]
      exact hR.quantile _ _ hlatency q
    simp only [GatewayTelemetry.p50LatencyMs, GatewayTelemetry.p95LatencyMs,
      GatewayTelemetry.p99LatencyMs, hquantile]
    rfl

namespace IngestPipeline

/-! ## At any moment -/

section

variable {p₀ : IngestPipeline S} {calls : List (CallClock × Bytes)}
  {w : Pool (IngestPipeline S) (Call S)}

/-- A packet that is past a stage only accepted calls pass is at least as long as a
header, and no longer than any packet that has arrived. -/
theorem raw_len_of_served (h : Pool.Reaches Call.step (arrivals p₀ calls) w)
    {past : Phase S → Bool} (hpast : ∀ ph, past ph = true → ph.isAccepted = true) {x : Served}
    (hx : x ∈ servedIn p₀ past w) :
    12 ≤ x.raw_len ∧ ∃ call ∈ calls, x.raw_len = call.2.length := by
  obtain ⟨c, hc, hx⟩ := List.mem_flatMap.mp hx
  unfold Call.served at hx
  split at hx
  · rename_i hph
    obtain ⟨a, -, rfl⟩ := List.mem_map.mp hx
    refine ⟨(sourced_of_reaches h c hc).long (hpast _ hph), (c.clock, c.raw), ?_, rfl⟩
    rw [← calls_of_reaches h]
    exact List.mem_map_of_mem hc
  · cases hx

theorem isAccepted_of_isRecorded (ph : Phase S) (h : ph.isRecorded = true) :
    ph.isAccepted = true := by
  cases ph with
  | returned res => cases res <;> first | rfl | cases h
  | recorded => rfl
  | _ => cases h

/-- **What telemetry reports at any moment.**  As long as fewer than `2⁶⁴` packets and
bytes have been recorded, whatever the interleaving so far: the estimate for a device lies
between the packets recorded of it and the packets recorded at all; the number of unique
devices is read off a sketch that has seen the devices of the recorded packets, each no
matter how often; the keyframe ratio is a ratio; and the average size lies between that of
a header and that of the longest packet that has arrived. -/
theorem reported_of_reaches {R : AnalyticsReaders S.analytics} (hmin : R.CountMin)
    (hR : R.Unordered) {path : String} {cap : ℕ} {secret : Bytes32} {lo hi : Vec3}
    (hnew : IngestPipeline.new S path cap secret lo hi = .ok p₀)
    (h : Pool.Reaches Call.step (arrivals p₀ calls) w)
    (hcount : (servedIn p₀ Phase.isRecorded w).length < 2 ^ 64)
    (hbytes : ((servedIn p₀ Phase.isRecorded w).map Served.raw_len).sum < 2 ^ 64) :
    let tel := w.shared.telemetry
    let served := servedIn p₀ Phase.isRecorded w
    (∀ d, served.countP (fun x ↦ x.packet.device_id = d)
        ≤ (tel.devicePacketEstimate R d).toNat ∧
      (tel.devicePacketEstimate R d).toNat ≤ served.length) ∧
    (∀ ds : List UInt64, (∀ d, d ∈ ds ↔ ∃ x ∈ served, x.packet.device_id = d) →
      tel.estimatedUniqueDevices R = R.cardinality ((ds.map S.analytics.hashU64).foldl
        S.analytics.insertUnique S.analytics.newHyperLogLog)) ∧
    (0 ≤ tel.keyframeRatio ∧ tel.keyframeRatio ≤ 1) ∧
    (served ≠ [] → 12 ≤ tel.avgPacketSize) ∧
    ∀ n : ℕ, (∀ call ∈ calls, call.2.length ≤ n) → tel.avgPacketSize ≤ n := by
  intro tel served
  obtain ⟨rs, hrs, htel⟩ := telemetry_history h
  have hlength : rs.length = served.length := hrs.length_eq
  have hsum : (rs.map Served.raw_len).sum = (served.map Served.raw_len).sum :=
    (hrs.map Served.raw_len).sum_eq
  rw [foldl_record, (counters_of_new hnew).2.1] at htel
  have hestimate : ∀ d, tel.devicePacketEstimate R d = R.estimateHash
      ((rs.map (Served.hash S)).foldl (fun s h ↦ S.analytics.insertCount s h 1)
        S.analytics.newCountMinSketch) (S.analytics.hashU64 d) :=
    fun d ↦ congrArg (GatewayTelemetry.devicePacketEstimate R · d) htel
  have hhashes : (rs.map (Served.hash S)).length = served.length := by
    rw [List.length_map, hlength]
  have hpackets : tel.total_packets.toNat = served.length := by
    rw [← hlength] at hcount ⊢
    exact toNat_counter (congrArg GatewayTelemetry.total_packets htel) hcount
  have htotal : tel.total_bytes.toNat = (served.map Served.raw_len).sum := by
    rw [← hsum] at hbytes ⊢
    exact toNat_counter (congrArg GatewayTelemetry.total_bytes htel) hbytes
  refine ⟨fun d ↦ ⟨?_, ?_⟩, fun ds hds ↦ ?_, ?_, ?_, ?_⟩
  · rw [hestimate]
    refine le_trans ?_ (hmin.count_le _ (by rw [hhashes]; exact hcount) _)
    rw [← hrs.countP_eq, List.count_eq_countP, List.countP_map]
    refine List.countP_mono_left fun x _ hx ↦ ?_
    simp only [decide_eq_true_eq] at hx
    simp [Served.hash, hx]
  · rw [hestimate, ← hhashes]
    exact hmin.le_length _ (by rw [hhashes]; exact hcount) _
  · have hunique : tel.estimatedUniqueDevices R = R.cardinality
        ((rs.map (Served.hash S)).foldl S.analytics.insertUnique S.analytics.newHyperLogLog) :=
      congrArg (GatewayTelemetry.estimatedUniqueDevices R) htel
    rw [hunique]
    refine hR.cardinality _ _ fun x ↦ ?_
    simp only [List.mem_map, hds, hrs.mem_iff, Served.hash]
    exact ⟨fun ⟨y, hy, hx⟩ ↦ ⟨_, ⟨y, hy, rfl⟩, hx⟩, fun ⟨_, ⟨y, hy, rfl⟩, hx⟩ ↦ ⟨y, hy, hx⟩⟩
  · have hkeyframes : tel.keyframe_count.toNat = rs.countP fun x ↦ x.packet.is_keyframe :=
      toNat_counter (congrArg GatewayTelemetry.keyframe_count htel)
        (lt_of_le_of_lt List.countP_le_length (hlength ▸ hcount))
    have hle : (rs.countP fun x ↦ x.packet.is_keyframe) ≤ served.length :=
      hlength ▸ List.countP_le_length
    unfold GatewayTelemetry.keyframeRatio
    split
    · exact ⟨le_rfl, zero_le_one⟩
    · rw [hkeyframes, hpackets]
      exact ⟨div_nonneg (Nat.cast_nonneg _) (Nat.cast_nonneg _),
        div_le_one_of_le₀ (by exact_mod_cast hle) (Nat.cast_nonneg _)⟩
  · intro hne
    have hpos : 0 < served.length := List.length_pos_iff.mpr hne
    have hnot : tel.total_packets ≠ 0 := by
      intro hzero
      rw [hzero] at hpackets
      exact absurd hpackets.symm hpos.ne'
    have hsize : served.length * 12 ≤ (served.map Served.raw_len).sum := by
      rw [← List.length_map (f := Served.raw_len)]
      exact List.card_nsmul_le_sum _ _ fun n hn ↦ by
        obtain ⟨x, hx, rfl⟩ := List.mem_map.mp hn
        exact (raw_len_of_served h isAccepted_of_isRecorded hx).1
    rw [GatewayTelemetry.avgPacketSize, if_neg hnot, htotal, hpackets,
      le_div_iff₀ (by exact_mod_cast hpos)]
    exact_mod_cast (mul_comm 12 served.length).le.trans hsize
  · intro n hn
    have hsize : (served.map Served.raw_len).sum ≤ served.length * n := by
      rw [← List.length_map (f := Served.raw_len)]
      exact List.sum_le_card_nsmul _ _ fun m hm ↦ by
        obtain ⟨x, hx, rfl⟩ := List.mem_map.mp hm
        obtain ⟨-, call, hcall, hlen⟩ := raw_len_of_served h isAccepted_of_isRecorded hx
        exact hlen ▸ hn call hcall
    unfold GatewayTelemetry.avgPacketSize
    split
    · exact Nat.cast_nonneg n
    · rw [htotal, hpackets]
      refine div_le_of_le_mul₀ (Nat.cast_nonneg _) (Nat.cast_nonneg _) ?_
      exact_mod_cast hsize.trans (mul_comm served.length n).le

end

/-- While a delta of device 2 is under way, telemetry reports one of device 1. -/
theorem reported_of_reaches_inMemory :
    let body (d : UInt64) := (deviceKey AliceCrypto.inMemory (.replicate 32 42) d).toList
      ++ [2, 7]
    let calls := [(⟨0, 0, 0, 0⟩, packet 1 5 (body 1)), (⟨0, 0, 0, 0⟩, packet 2 5 (body 2))]
    ∃ w, Pool.Reaches Call.step (arrivals inMemory calls) w ∧
      w.shared.telemetry.devicePacketEstimate .inMemory 1 = 1 ∧
      w.shared.telemetry.keyframeRatio ≤ 1 ∧ w.shared.telemetry.avgPacketSize ≤ 46 := by
  intro body calls
  have hrun : (Pool.schedule Call.step (fun _ ↦ True) (arrivals inMemory calls)
      [0, 0, 0, 0, 0, 1, 1, 0, 0, 0]).map (fun w ↦ decide (
        (servedIn inMemory Phase.isRecorded w).length = 1 ∧
        ((servedIn inMemory Phase.isRecorded w).map Served.raw_len).sum = 46 ∧
        (servedIn inMemory Phase.isRecorded w).countP (fun x ↦ x.packet.device_id = 1) = 1))
      = some true := by decide +kernel
  obtain ⟨w, hw, heq⟩ := Option.map_eq_some_iff.mp hrun
  obtain ⟨hlength, hbytes, hone⟩ := of_decide_eq_true heq
  have hreach := (Pool.reachesWithin_of_schedule hw).reaches
  obtain ⟨hestimate, -, ⟨-, hratio⟩, -, havg⟩ := reported_of_reaches
    AnalyticsReaders.inMemory_countMin AnalyticsReaders.inMemory_unordered
    (new_inMemory "db" 1000) hreach (by rw [hlength]; norm_num) (by rw [hbytes]; norm_num)
  obtain ⟨hge, hle⟩ := hestimate 1
  rw [hone] at hge
  rw [hlength] at hle
  refine ⟨w, hreach, UInt64.toNat_inj.mp (le_antisymm hle hge), hratio, ?_⟩
  exact_mod_cast havg 46 (by decide +kernel)

/-! ## Any schedule -/

/-- The calls of a pool that have returned `Ok`. -/
def okCalls (w : Pool (IngestPipeline S) (Call S)) : List (CallClock × Bytes) :=
  (w.threads.filter fun c ↦ c.okResult.isSome).map fun c ↦ (c.clock, c.raw)

section

variable {p₀ : IngestPipeline S} {calls calls' : List (CallClock × Bytes)}
  {w w' : Pool (IngestPipeline S) (Call S)}

/-- When no call is under way, telemetry has seen the packets of the calls that have
returned `Ok`. -/
theorem servedIn_of_okCalls (hrest : inProgress w = 0) :
    servedIn p₀ Phase.isRecorded w = (okCalls w).flatMap fun call ↦
      (p₀.packetOf call.2).toList.map (.mk call.1 call.2.length) := by
  unfold servedIn okCalls
  unfold inProgress at hrest
  generalize w.threads = cs at hrest ⊢
  induction cs with
  | nil => rfl
  | cons c l ih =>
      rw [List.countP_cons] at hrest
      have hl : l.countP (fun c ↦ c.phase.inProgress) = 0 := by omega
      have hc : c.phase.inProgress = false := by
        by_contra hnot
        simp [hnot] at hrest
      rw [List.flatMap_cons, ih hl, List.filter_cons]
      obtain ⟨clock, raw, ph⟩ := c
      cases ph with
      | arrived => rfl
      | returned res => cases res <;> rfl
      | _ => cases hc

/-- A call that has returned `Ok` was accepted with its packet. -/
theorem packetOf_of_okCalls (h : Pool.Reaches Call.step (arrivals p₀ calls) w)
    {call : CallClock × Bytes} (hcall : call ∈ okCalls w) :
    ∃ a, p₀.packetOf call.2 = some a := by
  obtain ⟨c, hc, rfl⟩ := List.mem_map.mp hcall
  obtain ⟨hmem, hok⟩ := List.mem_filter.mp hc
  obtain ⟨clock, raw, ph⟩ := c
  cases ph with
  | returned res =>
      cases res with
      | error e => cases hok
      | ok r =>
          obtain ⟨pl, ho, -⟩ := (sourced_of_reaches h _ hmem).result r rfl
          have ho : p₀.opened raw = .ok pl := ho
          exact ⟨⟨headerDevice raw, headerVersion raw, isKeyframe pl, pl⟩,
            by rw [packetOf, ho]; rfl⟩
  | _ => cases hok

/-- The latency of a call, in milliseconds. -/
def latencyOf (call : CallClock × Bytes) : ℚ :=
  CallClock.elapsedSecsTimes1000 call.1.start call.1.telemetry

/-- The latencies that telemetry has seen at rest are those of the calls. -/
theorem latencies_of_okCalls (h : Pool.Reaches Call.step (arrivals p₀ calls) w)
    (hrest : inProgress w = 0) :
    (servedIn p₀ Phase.isRecorded w).map Served.latency_ms = (okCalls w).map latencyOf := by
  rw [servedIn_of_okCalls hrest, List.map_flatMap, ← List.flatMap_pure_eq_map]
  refine List.flatMap_congr fun call hcall ↦ ?_
  obtain ⟨a, ha⟩ := packetOf_of_okCalls h hcall
  rw [ha]
  rfl

/-- What telemetry has counted at rest is a matter of the packets of the calls. -/
theorem contents_of_okCalls (hrest : inProgress w = 0) :
    (servedIn p₀ Phase.isRecorded w).map Served.content
      = ((okCalls w).map Prod.snd).flatMap fun raw ↦
        (p₀.packetOf raw).toList.map (Prod.mk raw.length) := by
  rw [servedIn_of_okCalls hrest, List.map_flatMap, List.flatMap_map]
  refine List.flatMap_congr fun call _ ↦ ?_
  rw [List.map_map]
  rfl

/-- **No schedule shows in a summary.**  If the calls of two interleavings, started from
one new pipeline and finished, have returned `Ok` on the same packets, in whatever order
they came and were interleaved, then the two telemetries report the same counters, ratios
and estimates; and if the same latencies were measured, whichever packets they are of, they
report the same percentiles as well, so the same summary. -/
theorem summary_unordered {R : AnalyticsReaders S.analytics} (hR : R.Unordered)
    {path : String} {cap : ℕ} {secret : Bytes32} {lo hi : Vec3}
    (hnew : IngestPipeline.new S path cap secret lo hi = .ok p₀)
    (h : Pool.Reaches Call.step (arrivals p₀ calls) w)
    (h' : Pool.Reaches Call.step (arrivals p₀ calls') w')
    (hrest : inProgress w = 0) (hrest' : inProgress w' = 0)
    (hok : ((okCalls w).map Prod.snd).Perm ((okCalls w').map Prod.snd)) :
    let tel := w.shared.telemetry
    let tel' := w'.shared.telemetry
    tel.summary R = { tel'.summary R with
      p50_latency_ms := tel.p50LatencyMs R
      p95_latency_ms := tel.p95LatencyMs R
      p99_latency_ms := tel.p99LatencyMs R } ∧
    (∀ d, tel.devicePacketEstimate R d = tel'.devicePacketEstimate R d) ∧
    (((okCalls w).map latencyOf).Perm ((okCalls w').map latencyOf) →
      tel.summary R = tel'.summary R) := by
  obtain ⟨rs, hrs, htel⟩ := telemetry_history h
  obtain ⟨rs', hrs', htel'⟩ := telemetry_history h'
  have hcontents : (rs.map Served.content).Perm (rs'.map Served.content) := by
    refine (hrs.map _).trans (List.Perm.trans ?_ (hrs'.map _).symm)
    rw [contents_of_okCalls hrest, contents_of_okCalls hrest']
    exact hok.flatMap_right _
  rw [htel, htel', (counters_of_new hnew).2.1]
  obtain ⟨hbut, hestimates, hsummary⟩ := summary_perm hR hcontents
  refine ⟨hbut, hestimates, fun hlatency ↦ hsummary ?_⟩
  refine (hrs.map _).trans (List.Perm.trans ?_ (hrs'.map _).symm)
  rw [latencies_of_okCalls h hrest, latencies_of_okCalls h' hrest']
  exact hlatency

end

/-- Two deltas in one order, one after the other, and in the other order, interleaved, each
with the latency of the other. -/
theorem summary_unordered_inMemory :
    let body (d : UInt64) := (deviceKey AliceCrypto.inMemory (.replicate 32 42) d).toList
      ++ [2, 7]
    let a := packet 1 5 (body 1)
    let b := packet 2 5 (body 2)
    let calls := [(⟨0, 0, 0, 3⟩, a), (⟨1, 1, 1, 9⟩, b)]
    let calls' := [(⟨0, 0, 0, 3⟩, b), (⟨1, 1, 1, 9⟩, a)]
    ∃ w w', Pool.Reaches Call.step (arrivals inMemory calls) w ∧
      Pool.Reaches Call.step (arrivals inMemory calls') w' ∧
      (okCalls w).length = 2 ∧
      w.shared.telemetry.summary .inMemory = w'.shared.telemetry.summary .inMemory := by
  intro body a b calls calls'
  have hrun : (Pool.schedule Call.step (fun _ ↦ True) (arrivals inMemory calls)
      [0, 0, 0, 0, 0, 0, 0, 0, 0, 1, 1, 1, 1, 1, 1, 1, 1, 1]).map (fun w ↦
        decide (inProgress w = 0 ∧ (okCalls w).map (fun c ↦ (c.2, latencyOf c))
          = [(a, 3 / 1000000), (b, 8 / 1000000)])) = some true := by decide +kernel
  have hrun' : (Pool.schedule Call.step (fun _ ↦ True) (arrivals inMemory calls')
      [0, 1, 0, 1, 0, 1, 0, 1, 0, 1, 1, 0, 1, 0, 1, 0, 1, 0]).map (fun w ↦
        decide (inProgress w = 0 ∧ (okCalls w).map (fun c ↦ (c.2, latencyOf c))
          = [(b, 3 / 1000000), (a, 8 / 1000000)])) = some true := by decide +kernel
  obtain ⟨w, hw, heq⟩ := Option.map_eq_some_iff.mp hrun
  obtain ⟨w', hw', heq'⟩ := Option.map_eq_some_iff.mp hrun'
  obtain ⟨hrest, hok⟩ := of_decide_eq_true heq
  obtain ⟨hrest', hok'⟩ := of_decide_eq_true heq'
  have hreach := (Pool.reachesWithin_of_schedule hw).reaches
  have hreach' := (Pool.reachesWithin_of_schedule hw').reaches
  have hpackets : (okCalls w).map Prod.snd = [a, b] := by
    simpa [Function.comp_def] using congrArg (List.map Prod.fst) hok
  have hpackets' : (okCalls w').map Prod.snd = [b, a] := by
    simpa [Function.comp_def] using congrArg (List.map Prod.fst) hok'
  have hlatencies : (okCalls w).map latencyOf = (okCalls w').map latencyOf := by
    have hl := congrArg (List.map Prod.snd) hok
    have hl' := congrArg (List.map Prod.snd) hok'
    simp only [List.map_map, List.map_cons, List.map_nil] at hl hl'
    exact hl.trans hl'.symm
  obtain ⟨-, -, hsummary⟩ := summary_unordered AnalyticsReaders.inMemory_unordered
    (new_inMemory "db" 1000) hreach hreach' hrest hrest'
    (by rw [hpackets, hpackets']; exact .swap _ _ _)
  refine ⟨w, w', hreach, hreach', ?_, hsummary (by rw [hlatencies])⟩
  simpa using congrArg List.length hpackets

end IngestPipeline

end CloudGateway
