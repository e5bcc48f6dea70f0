import Mathlib.Data.List.Pairwise
import CloudGateway.Ingest.Logged

/-!
# Time sent downstream

A call stamps its heartbeat and its queue message with the time that has passed *since the
call began*, not with the time of the clock.  So a stamp says how long the call has taken so
far, and the stamps of a device move forward if and only if its packets take longer and longer
(`stamps_forward_iff`).

The stamps are those in the log of a run (`IngestPipeline.logged`): the heartbeats the hub
was sent and the messages the router was given.
-/

namespace CloudGateway

open LittleEndian KeyedCache

variable {S : Siblings}

namespace IngestPipeline

/-! ## Stamps -/

/-- The stamps of a device move forward. -/
def Forward (stamps : List (UInt64 × UInt64)) : Prop :=
  stamps.Pairwise fun x y ↦ x.1 = y.1 → x.2 ≤ y.2

/-- Whole milliseconds from the start of a call to one of its readings, in a `u64`. -/
def delay (reading : CallClock → ℕ) (clock : CallClock) : ℕ :=
  (reading clock - clock.start) / 1000000 % 2 ^ 64

/-- From an accepted packet of a device to each later one, the time to the reading grows. -/
def Slower (reading : CallClock → ℕ) (ds : List Delivery) : Prop :=
  ds.Pairwise fun x y ↦ ∀ a b, x.accepted = some a → y.accepted = some b →
    a.device_id = b.device_id → delay reading x.clock ≤ delay reading y.clock

/-- Calls one after the other under a clock that never goes back: each reading is at least
the one before it, within a call and from a call to the next. -/
def Sequential (ds : List Delivery) : Prop :=
  (ds.flatMap fun x ↦ [x.clock.start, x.clock.sync, x.clock.queue, x.clock.telemetry]).Pairwise
    (· ≤ ·)

/-- The stamp a delivery takes at a reading, if it is accepted. -/
def stamp (reading : CallClock → ℕ) (x : Delivery) : Option (UInt64 × UInt64) :=
  x.accepted.map fun a ↦ (a.device_id, CallClock.elapsedMillis x.clock.start (reading x.clock))

theorem elapsedMillis_le_iff {reading : CallClock → ℕ} {c c' : CallClock} :
    CallClock.elapsedMillis c.start (reading c) ≤ CallClock.elapsedMillis c'.start (reading c')
      ↔ delay reading c ≤ delay reading c' := by
  rw [UInt64.le_iff_toNat_le, CallClock.elapsedMillis, CallClock.elapsedMillis,
    UInt64.toNat_ofNat', UInt64.toNat_ofNat', delay, delay]

/-- Stamps taken at one reading move forward when that reading is reached later and later. -/
theorem forward_stamp_iff {reading : CallClock → ℕ} {ds : List Delivery} :
    Forward (ds.filterMap (stamp reading)) ↔ Slower reading ds := by
  rw [Forward, Slower, List.pairwise_filterMap]
  refine List.Pairwise.iff fun x y ↦ ?_
  constructor
  · intro h a b ha hb hab
    exact elapsedMillis_le_iff.mp
      (h _ (by rw [stamp, ha]; rfl) _ (by rw [stamp, hb]; rfl) hab)
  · intro h s hs t ht hst
    obtain ⟨a, ha, rfl⟩ := Option.map_eq_some_iff.mp hs
    obtain ⟨b, hb, rfl⟩ := Option.map_eq_some_iff.mp ht
    exact elapsedMillis_le_iff.mpr (h a b ha hb hst)

/-- **Time sent downstream.**  In every run, the timestamps of the heartbeats sent for a
device and those of the messages routed for it move forward if and only if its accepted
packets take longer and longer to reach the hub and the router. -/
theorem stamps_forward_iff {p₀ : IngestPipeline S}
    {q : IngestPipeline S.logged GatewayRouter.api.logged} {ds : List Delivery}
    (hrun : Run (p₀.logged .empty) ds q) :
    Forward q.log.heartbeats ∧
      Forward (q.log.routed.map fun m ↦ (m.source_device_id, m.timestamp_ms)) ↔
    Slower CallClock.sync ds ∧ Slower CallClock.queue ds := by
  obtain ⟨p, -, rfl⟩ := hrun.of_logged
  have hbeats : (p.logged (.empty ++ logOf S p₀.world_min p₀.world_max ds)).log.heartbeats
      = ds.filterMap (stamp CallClock.sync) := rfl
  have hrouted : (p.logged (.empty ++ logOf S p₀.world_min p₀.world_max ds)).log.routed.map
      (fun m ↦ (m.source_device_id, m.timestamp_ms)) = ds.filterMap (stamp CallClock.queue) := by
    show (ds.filterMap Delivery.message).map _ = _
    rw [List.map_filterMap]
    refine congrArg (ds.filterMap ·) (funext fun x ↦ ?_)
    rw [Delivery.message, Option.map_map]
    rfl
  rw [hbeats, hrouted, forward_stamp_iff, forward_stamp_iff]

/-- Two packets of device 1, received at the given times. -/
def twoPackets (c c' : CallClock) : List (CallClock × Bytes) :=
  let sealed : Bytes := (deviceKey AliceCrypto.inMemory (.replicate 32 42) 1).toList ++ [2]
  [(c, packet 1 1 sealed), (c', packet 1 2 sealed)]

/-- The first packet takes five milliseconds to the hub, the second, received later, takes one:
its heartbeat and its message are stamped with earlier times. -/
theorem stamps_backwards : ∃ ds q, Run (inMemory.logged .empty) ds q ∧ Sequential ds ∧
    acceptedOf ds = [⟨1, 1, false, [2]⟩, ⟨1, 2, false, [2]⟩] ∧
    q.log.heartbeats = [(1, 5), (1, 1)] ∧ ¬ Forward q.log.heartbeats ∧
    q.log.routed.map (fun m ↦ (m.source_device_id, m.timestamp_ms)) = [(1, 6), (1, 2)] ∧
    ¬ Forward (q.log.routed.map fun m ↦ (m.source_device_id, m.timestamp_ms)) := by
  let calls := twoPackets ⟨0, 5000000, 6000000, 7000000⟩ ⟨8000000, 9000000, 10000000, 11000000⟩
  have hcalls : (ingestAll (inMemory.logged .empty) calls).map (fun w ↦ (acceptedOf w.1,
      w.2.log.heartbeats, w.2.log.routed.map fun m ↦ (m.source_device_id, m.timestamp_ms),
      w.1.flatMap fun x ↦ [x.clock.start, x.clock.sync, x.clock.queue, x.clock.telemetry]))
      = some ([⟨1, 1, false, [2]⟩, ⟨1, 2, false, [2]⟩], [(1, 5), (1, 1)], [(1, 6), (1, 2)],
        [0, 5000000, 6000000, 7000000, 8000000, 9000000, 10000000, 11000000]) := by
    decide +kernel
  obtain ⟨⟨ds, q⟩, hw, heq⟩ := Option.map_eq_some_iff.mp hcalls
  simp only [Prod.mk.injEq] at heq
  obtain ⟨hacc, hbeats, hmsgs, hclock⟩ := heq
  refine ⟨ds, q, run_of_ingestAll hw, ?_, hacc, hbeats, ?_, hmsgs, ?_⟩
  · rw [Sequential, hclock]
    decide
  · rw [hbeats, Forward]
    decide
  · rw [hmsgs, Forward]
    decide

/-- The law at a run whose second packet takes longer. -/
theorem stamps_forward_iff_inMemory : ∃ ds q, Run (inMemory.logged .empty) ds q ∧
    (acceptedOf ds).length = 2 ∧ Forward q.log.heartbeats ∧
    Forward (q.log.routed.map fun m ↦ (m.source_device_id, m.timestamp_ms)) := by
  let calls := twoPackets ⟨0, 1000000, 2000000, 3000000⟩ ⟨4000000, 9000000, 10000000, 11000000⟩
  have hcalls : (ingestAll (inMemory.logged .empty) calls).map (fun w ↦ ((acceptedOf w.1).length,
      w.1.map fun x ↦ delay CallClock.sync x.clock,
      w.1.map fun x ↦ delay CallClock.queue x.clock)) = some (2, [1, 5], [2, 6]) := by
    decide +kernel
  obtain ⟨⟨ds, q⟩, hw, heq⟩ := Option.map_eq_some_iff.mp hcalls
  simp only [Prod.mk.injEq] at heq
  obtain ⟨hacc, hsync, hqueue⟩ := heq
  have hgrows : ∀ {reading : CallClock → ℕ} {ns : List ℕ}, ns.Pairwise (· ≤ ·) →
      ds.map (fun x ↦ delay reading x.clock) = ns → Slower reading ds := by
    rintro reading ns hns rfl
    exact (List.pairwise_map.mp hns).imp fun h _ _ _ _ _ ↦ h
  exact ⟨ds, q, run_of_ingestAll hw, hacc, (stamps_forward_iff (run_of_ingestAll hw)).mpr
    ⟨hgrows (by decide) hsync, hgrows (by decide) hqueue⟩⟩

end IngestPipeline

end CloudGateway
