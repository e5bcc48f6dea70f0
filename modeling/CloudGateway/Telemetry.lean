import Mathlib.Algebra.Order.Ring.Rat
import Mathlib.Data.List.Sort
import Mathlib.Data.UInt
import CloudGateway.Siblings

/-!
# Telemetry

`GatewayTelemetry` counts the packets it is told about and feeds the three
sketches of `alice_analytics`.  Counters are `u64` and wrap, as in a release
build.
-/

namespace CloudGateway

/-- Gateway telemetry collector. -/
structure GatewayTelemetry (A : AliceAnalytics) where
  total_packets : UInt64
  keyframe_count : UInt64
  delta_count : UInt64
  total_bytes : UInt64
  latency_sketch : A.DDSketch
  unique_devices : A.HyperLogLog
  device_frequency : A.CountMinSketch

namespace GatewayTelemetry

variable {A : AliceAnalytics}

/-- Create a new telemetry collector. -/
def new (A : AliceAnalytics) : GatewayTelemetry A where
  total_packets := 0
  keyframe_count := 0
  delta_count := 0
  total_bytes := 0
  latency_sketch := A.newDDSketch
  unique_devices := A.newHyperLogLog
  device_frequency := A.newCountMinSketch

/-- Record a processed packet. -/
def recordPacket (self : GatewayTelemetry A) (device_id : UInt64) (packet_size : ℕ)
    (latency_ms : ℚ) (is_keyframe : Bool) : GatewayTelemetry A where
  total_packets := self.total_packets + 1
  total_bytes := self.total_bytes + UInt64.ofNat packet_size
  keyframe_count := self.keyframe_count + is_keyframe.toUInt64
  delta_count := self.delta_count + (!is_keyframe).toUInt64
  latency_sketch := A.insert self.latency_sketch latency_ms
  unique_devices := A.insertUnique self.unique_devices (A.hashU64 device_id)
  device_frequency := A.insertCount self.device_frequency (A.hashU64 device_id) 1

end GatewayTelemetry

/-! ## Reading -/

/-- What the gateway reads off the sketches of `alice_analytics`.  A quantile, a cardinality
and a ratio are read as exact numbers. -/
structure AnalyticsReaders (A : AliceAnalytics) where
  quantile : A.DDSketch → ℚ → ℚ
  cardinality : A.HyperLogLog → ℚ
  estimateHash : A.CountMinSketch → UInt64 → UInt64

namespace AnalyticsReaders

variable {A : AliceAnalytics}

/-- A count-min sketch never underestimates, and attributes to nobody more than it has
been given. -/
structure CountMin (R : AnalyticsReaders A) : Prop where
  count_le : ∀ hs : List UInt64, hs.length < 2 ^ 64 → ∀ h, hs.count h ≤
    (R.estimateHash (hs.foldl (fun s h ↦ A.insertCount s h 1) A.newCountMinSketch) h).toNat
  le_length : ∀ hs : List UInt64, hs.length < 2 ^ 64 → ∀ h,
    (R.estimateHash (hs.foldl (fun s h ↦ A.insertCount s h 1) A.newCountMinSketch) h).toNat
      ≤ hs.length

/-- What is read off a sketch does not depend on the order in which it was fed, and off a
HyperLogLog not on repetitions either. -/
structure Unordered (R : AnalyticsReaders A) : Prop where
  quantile : ∀ xs ys : List ℚ, xs.Perm ys → ∀ q,
    R.quantile (xs.foldl A.insert A.newDDSketch) q
      = R.quantile (ys.foldl A.insert A.newDDSketch) q
  cardinality : ∀ hs hs' : List UInt64, (∀ h, h ∈ hs ↔ h ∈ hs') →
    R.cardinality (hs.foldl A.insertUnique A.newHyperLogLog)
      = R.cardinality (hs'.foldl A.insertUnique A.newHyperLogLog)
  estimateHash : ∀ hs hs' : List UInt64, hs.Perm hs' → ∀ h,
    R.estimateHash (hs.foldl (fun s h ↦ A.insertCount s h 1) A.newCountMinSketch) h
      = R.estimateHash (hs'.foldl (fun s h ↦ A.insertCount s h 1) A.newCountMinSketch) h

end AnalyticsReaders

/-- Telemetry summary snapshot. -/
structure TelemetrySummary where
  total_packets : UInt64
  keyframe_count : UInt64
  delta_count : UInt64
  total_bytes : UInt64
  avg_packet_size : ℚ
  keyframe_ratio : ℚ
  p50_latency_ms : ℚ
  p95_latency_ms : ℚ
  p99_latency_ms : ℚ
  estimated_unique_devices : ℚ
deriving DecidableEq

namespace GatewayTelemetry

variable {A : AliceAnalytics} (R : AnalyticsReaders A)

/-- Estimated P50 latency (ms). -/
def p50LatencyMs (self : GatewayTelemetry A) : ℚ := R.quantile self.latency_sketch (50 / 100)

/-- Estimated P95 latency (ms). -/
def p95LatencyMs (self : GatewayTelemetry A) : ℚ := R.quantile self.latency_sketch (95 / 100)

/-- Estimated P99 latency (ms). -/
def p99LatencyMs (self : GatewayTelemetry A) : ℚ := R.quantile self.latency_sketch (99 / 100)

/-- Estimated unique device count. -/
def estimatedUniqueDevices (self : GatewayTelemetry A) : ℚ := R.cardinality self.unique_devices

/-- Estimated packet count for a specific device. -/
def devicePacketEstimate (self : GatewayTelemetry A) (device_id : UInt64) : UInt64 :=
  R.estimateHash self.device_frequency (A.hashU64 device_id)

/-- Average packet size (bytes). -/
def avgPacketSize (self : GatewayTelemetry A) : ℚ :=
  if self.total_packets = 0 then 0 else self.total_bytes.toNat / self.total_packets.toNat

/-- Keyframe ratio (0.0 - 1.0). -/
def keyframeRatio (self : GatewayTelemetry A) : ℚ :=
  if self.total_packets = 0 then 0 else self.keyframe_count.toNat / self.total_packets.toNat

/-- Generate summary report. -/
def summary (self : GatewayTelemetry A) : TelemetrySummary where
  total_packets := self.total_packets
  keyframe_count := self.keyframe_count
  delta_count := self.delta_count
  total_bytes := self.total_bytes
  avg_packet_size := self.avgPacketSize
  keyframe_ratio := self.keyframeRatio
  p50_latency_ms := self.p50LatencyMs R
  p95_latency_ms := self.p95LatencyMs R
  p99_latency_ms := self.p99LatencyMs R
  estimated_unique_devices := self.estimatedUniqueDevices R

end GatewayTelemetry

/-! ## Readers in memory -/

/-- The readers of the exact sketches: a quantile is the entry at its rank, a cardinality a
length and an estimate a sum. -/
abbrev AnalyticsReaders.inMemory : AnalyticsReaders AliceAnalytics.inMemory where
  quantile s q :=
    let xs := s.insertionSort (· ≤ ·)
    xs.getD (q * (xs.length - 1 : ℕ)).floor.toNat 0
  cardinality s := s.length
  estimateHash s h := ((s.filter fun e ↦ e.1 = h).map Prod.snd).sum

namespace AnalyticsReaders

theorem estimateHash_inMemory (hs : List UInt64) (h : UInt64) :
    AnalyticsReaders.inMemory.estimateHash
      (hs.foldl (fun s h ↦ AliceAnalytics.inMemory.insertCount s h 1)
        AliceAnalytics.inMemory.newCountMinSketch) h
      = UInt64.ofNat (hs.count h) := by
  induction hs using List.reverseRecOn with
  | nil => rfl
  | append_singleton hs x ih =>
      simp only [List.foldl_append, List.foldl_cons, List.foldl_nil, List.count_append] at ih ⊢
      by_cases hx : x = h
      · subst hx
        have hone : [x].count x = 1 := List.count_singleton_self
        rw [List.filter_cons_of_pos (by simp), List.map_cons, List.sum_cons, ih, hone,
          UInt64.ofNat_add, UInt64.add_comm]
        rfl
      · have hzero : [x].count h = 0 := by simp [hx]
        rw [List.filter_cons_of_neg (by simpa using hx), ih, hzero, Nat.add_zero]

theorem inMemory_countMin : AnalyticsReaders.inMemory.CountMin where
  count_le hs hlen h := by
    have hcount : hs.count h < 2 ^ 64 := lt_of_le_of_lt List.count_le_length hlen
    exact le_of_eq (by rw [estimateHash_inMemory, UInt64.toNat_ofNat_of_lt' hcount])
  le_length hs hlen h := by
    have hcount : hs.count h < 2 ^ 64 := lt_of_le_of_lt List.count_le_length hlen
    rw [estimateHash_inMemory, UInt64.toNat_ofNat_of_lt' hcount]
    exact List.count_le_length

/-- A list of the hashes that have been inserted. -/
theorem unique_inMemory (hs : List UInt64) :
    (hs.foldl AliceAnalytics.inMemory.insertUnique []).Nodup ∧
    ∀ h, h ∈ hs.foldl AliceAnalytics.inMemory.insertUnique [] ↔ h ∈ hs := by
  induction hs using List.reverseRecOn with
  | nil => exact ⟨List.nodup_nil, fun h ↦ Iff.rfl⟩
  | append_singleton hs x ih =>
      simp only [List.foldl_append, List.foldl_cons, List.foldl_nil] at ih ⊢
      refine ⟨ih.1.insert, fun h ↦ ?_⟩
      rw [List.mem_insert_iff, ih.2, List.mem_append, List.mem_singleton, or_comm]

theorem inMemory_unordered : AnalyticsReaders.inMemory.Unordered where
  quantile xs ys hperm q := by
    have hrev : ∀ xs : List ℚ, xs.foldl AliceAnalytics.inMemory.insert [] = xs.reverse :=
      fun xs ↦ List.foldl_flip_cons_eq_append'.trans (List.append_nil _)
    have hsort : xs.reverse.insertionSort (· ≤ ·) = ys.reverse.insertionSort (· ≤ ·) := by
      have hsorted : (xs.reverse.insertionSort (· ≤ ·)).Perm
          (ys.reverse.insertionSort (· ≤ ·)) := calc
        List.Perm _ xs.reverse := List.perm_insertionSort _ _
        List.Perm _ xs := xs.reverse_perm
        List.Perm _ ys := hperm
        List.Perm _ ys.reverse := ys.reverse_perm.symm
        List.Perm _ _ := (List.perm_insertionSort _ _).symm
      exact hsorted.eq_of_pairwise' (List.pairwise_insertionSort _ _)
        (List.pairwise_insertionSort _ _)
    simp only [hrev, hsort]
  cardinality hs hs' h := by
    obtain ⟨hnodup, hmem⟩ := unique_inMemory hs
    obtain ⟨hnodup', hmem'⟩ := unique_inMemory hs'
    have hperm := (List.perm_ext_iff_of_nodup hnodup hnodup').mpr
      fun x ↦ (hmem x).trans ((h x).trans (hmem' x).symm)
    exact congrArg Nat.cast hperm.length_eq
  estimateHash hs hs' hperm h := by
    rw [estimateHash_inMemory, estimateHash_inMemory, hperm.count_eq]

end AnalyticsReaders

end CloudGateway
