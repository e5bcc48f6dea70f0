import CloudGateway.Ingest.Accounting

/-!
# Serial orders

Which serial order do concurrent calls of `process_packet` look like?  A call is
*decided* once it is known whether its packet is accepted: when it returns an error,
or when its storage section has been passed.  Up to the parts behind that section,
an interleaving is the serial run of its calls in the order in which they are decided
(`Linearized`), and every counter but `cache_hits` is a sum, which no order changes.

The frame cache is read and written behind the storage section, in two sections.  It
is the cache of that serial run if no two calls with the same cache key are between
their storage section and their cache write at the same time (`Apart`); otherwise the
cache may end with the frame of another call than the storage, and both calls may miss
(`not_serializable`).
-/

namespace CloudGateway

open LittleEndian KeyedCache

variable {S : Siblings}

namespace IngestPipeline

/-- The accepted packet of a frame. -/
def Frame.accepted (self : Frame) : Accepted :=
  ⟨self.device_id, self.scene_version, self.is_keyframe, self.decrypted⟩

/-! ## Decided calls -/

/-- Once a call is decided: whether its packet is rejected, or accepted as a keyframe
or as a delta. -/
def Phase.outcome : Phase S → Option (Option Bool)
  | .arrived | .keyed _ => none
  | .stored frame | .routed frame _ | .looked frame _ _ | .cached frame _ _
  | .synced frame .. | .queued frame .. | .recorded frame .. => some (some frame.is_keyframe)
  | .returned res => some (res.toOption.map IngestResult.is_keyframe)

/-- What is decided of a call. -/
def Call.decided (self : Call S) : Option ((CallClock × Bytes) × Option Bool) :=
  self.phase.outcome.map fun outcome ↦ ((self.clock, self.raw), outcome)

end IngestPipeline

/-- The key an accepted packet is cached under. -/
def Accepted.key (self : Accepted) : UInt64 :=
  IngestPipeline.cacheKey self.device_id self.scene_version

/-- The call of a delivery. -/
def Delivery.call (self : Delivery) : CallClock × Bytes := (self.clock, self.raw)

/-- What is decided of a call that was made. -/
def Delivery.decided (self : Delivery) : (CallClock × Bytes) × Option Bool :=
  (self.call, self.result.toOption.map IngestResult.is_keyframe)

namespace IngestPipeline

/-- The calls of a pool that are decided are those of a serial run to `q`, and left
the storage as that run does. -/
structure Linearized (p₀ : IngestPipeline S) (w : Pool (IngestPipeline S) (Call S))
    (ds : List Delivery) (q : IngestPipeline S) : Prop where
  run : ingestAll p₀ (ds.map Delivery.call) = some (ds, q)
  storage : q.sdf_storage = w.shared.sdf_storage
  decided : (ds.map Delivery.decided).Perm (w.threads.filterMap Call.decided)

namespace Linearized

variable {p₀ p p' q q' : IngestPipeline S} {l₁ l₂ : List (Call S)} {c c' : Call S}
  {ds : List Delivery}

theorem start (calls : List (CallClock × Bytes)) :
    Linearized p₀ (arrivals p₀ calls) [] p₀ where
  run := rfl
  storage := rfl
  decided := by
    have hnone : (arrivals p₀ calls).threads.filterMap Call.decided = [] := by
      apply List.filterMap_eq_nil_iff.mpr
      intro c hc
      obtain ⟨call, -, rfl⟩ := List.mem_map.mp hc
      rfl
    rw [hnone]
    exact .nil

/-- A section that decides nothing and leaves the storage alone is invisible. -/
theorem silent (h : Linearized p₀ ⟨p, l₁ ++ c :: l₂⟩ ds q) (hd : c'.decided = c.decided)
    (hs : p'.sdf_storage = p.sdf_storage) : Linearized p₀ ⟨p', l₁ ++ c' :: l₂⟩ ds q where
  run := h.run
  storage := h.storage.trans hs.symm
  decided := by
    have hperm := h.decided
    simp only [List.filterMap_append, List.filterMap_cons] at hperm ⊢
    rw [hd]
    exact hperm

/-- A section that decides its call is the whole call in the serial run. -/
theorem decides (h : Linearized p₀ ⟨p, l₁ ++ c :: l₂⟩ ds q) {clock : CallClock} {raw : Bytes}
    {res : Except IngestError IngestResult}
    (hrun : (processPacket clock raw).run q = some (res, q'))
    (hs : q'.sdf_storage = p'.sdf_storage) (hc : c.decided = none)
    (hc' : c'.decided = some ((clock, raw), res.toOption.map IngestResult.is_keyframe)) :
    Linearized p₀ ⟨p', l₁ ++ c' :: l₂⟩
      (ds ++ [⟨clock, raw, res, (q.opened raw).toOption⟩]) q' where
  run := by
    rw [List.map_append]
    exact ingestAll_snoc h.run hrun
  storage := hs
  decided := by
    have hperm := h.decided
    simp only [List.filterMap_append, List.filterMap_cons, hc] at hperm
    simp only [List.filterMap_append, List.filterMap_cons, hc', List.map_append, List.map_cons,
      List.map_nil]
    exact (List.perm_append_singleton _ _).trans ((hperm.cons _).trans List.perm_middle.symm)

end Linearized

/-! ## Pending cache writes -/

/-- The packet of a call between its storage section and its cache write. -/
def Call.pending (self : Call S) : Option Accepted :=
  match self.phase with
  | .stored frame | .routed frame _ | .looked frame _ _ => some frame.accepted
  | _ => none

/-- The packets whose cache writes are pending. -/
def pendingOf (cs : List (Call S)) : List Accepted := cs.filterMap Call.pending

/-- No two calls with the same cache key are between their storage section and their
cache write. -/
def Apart (w : Pool (IngestPipeline S) (Call S)) : Prop :=
  ((pendingOf w.threads).map Accepted.key).Nodup

section Pending

variable {p : IngestPipeline S} {l₁ l₂ : List (Call S)} {c : Call S} {a b : Accepted}

theorem pendingOf_none (hc : c.pending = none) :
    pendingOf (l₁ ++ c :: l₂) = pendingOf (l₁ ++ l₂) := by
  rw [pendingOf, List.filterMap_append, List.filterMap_cons, hc, ← List.filterMap_append]
  rfl

theorem pendingOf_some (hc : c.pending = some a) :
    (pendingOf (l₁ ++ c :: l₂)).Perm (a :: pendingOf (l₁ ++ l₂)) := by
  rw [pendingOf, List.filterMap_append, List.filterMap_cons, hc]
  refine List.perm_middle.trans (List.Perm.cons _ ?_)
  rw [← List.filterMap_append]
  rfl

theorem mem_pendingOf_some (hc : c.pending = some a) :
    b ∈ pendingOf (l₁ ++ c :: l₂) ↔ b = a ∨ b ∈ pendingOf (l₁ ++ l₂) :=
  (pendingOf_some hc).mem_iff.trans List.mem_cons

/-- A pending key occurs once among calls that are apart. -/
theorem Apart.key_ne (h : Apart ⟨p, l₁ ++ c :: l₂⟩) (hc : c.pending = some a) :
    ∀ b ∈ pendingOf (l₁ ++ l₂), b.key ≠ a.key := by
  have hnodup := (((pendingOf_some hc).map Accepted.key).nodup_iff.mp h)
  intro b hb hkey
  apply (List.nodup_cons.mp hnodup).1
  rw [← hkey]
  exact List.mem_map_of_mem hb

/-- A call that has not begun has no pending write. -/
theorem pendingOf_arrivals {p₀ : IngestPipeline S} {calls : List (CallClock × Bytes)} :
    pendingOf (arrivals p₀ calls).threads = [] := by
  apply List.filterMap_eq_nil_iff.mpr
  intro c hc
  obtain ⟨call, -, rfl⟩ := List.mem_map.mp hc
  rfl

end Pending

/-! ## The entries of the frame cache -/

/-- The entries `m` of the frame cache, whatever the order of the writes: a key under
which the deliveries `ds` accepted a packet holds one of these packets, unless the
write is pending, and the other keys hold what they held in `m₀`. -/
structure CacheHolds (m₀ : UInt64 → Option Bytes) (w : Pool (IngestPipeline S) (Call S))
    (ds : List Delivery) (m : UInt64 → Option Bytes) : Prop where
  entries : S.cache.Represents w.shared.frame_cache m
  pending : ∀ a ∈ pendingOf w.threads, a ∈ acceptedOf ds
  written : ∀ a ∈ acceptedOf ds, a ∈ pendingOf w.threads ∨
    ∃ b ∈ acceptedOf ds, b.key = a.key ∧ m a.key = some b.payload
  unwritten : ∀ k, (∀ a ∈ acceptedOf ds, a.key ≠ k) → m k = m₀ k

namespace CacheHolds

variable {p p' : IngestPipeline S} {l₁ l₂ : List (Call S)} {c c' : Call S} {a : Accepted}
  {m₀ m : UInt64 → Option Bytes} {ds ds' : List Delivery}

theorem start {p₀ : IngestPipeline S} (hrep : S.cache.Represents p₀.frame_cache m₀)
    {calls : List (CallClock × Bytes)} : CacheHolds m₀ (arrivals p₀ calls) [] m₀ where
  entries := hrep
  pending := by
    rw [pendingOf_arrivals]
    exact fun a ha ↦ (List.not_mem_nil ha).elim
  written _ ha := (List.not_mem_nil ha).elim
  unwritten _ _ := rfl

/-- A section that neither begins nor ends a pending write keeps the entries. -/
theorem keep (h : CacheHolds m₀ ⟨p, l₁ ++ c :: l₂⟩ ds m) (hc : c'.pending = c.pending)
    (hm : S.cache.Represents p'.frame_cache m) (hds : acceptedOf ds' = acceptedOf ds) :
    CacheHolds m₀ ⟨p', l₁ ++ c' :: l₂⟩ ds' m := by
  have hpending : pendingOf (l₁ ++ c' :: l₂) = pendingOf (l₁ ++ c :: l₂) := by
    simp only [pendingOf, List.filterMap_append, List.filterMap_cons, hc]
  refine ⟨hm, ?_, ?_, ?_⟩
  · simp only [hpending, hds]
    exact h.pending
  · simp only [hpending, hds]
    exact h.written
  · simp only [hds]
    exact h.unwritten

/-- A packet is accepted and its write becomes pending. -/
theorem begin_write (h : CacheHolds m₀ ⟨p, l₁ ++ c :: l₂⟩ ds m) (hc : c.pending = none)
    (hc' : c'.pending = some a) (hp : p'.frame_cache = p.frame_cache)
    (hds : acceptedOf ds' = acceptedOf ds ++ [a]) :
    CacheHolds m₀ ⟨p', l₁ ++ c' :: l₂⟩ ds' m := by
  have hold := h.pending
  have hwritten := h.written
  simp only [pendingOf_none hc] at hold hwritten
  refine ⟨?_, ?_, ?_, ?_⟩
  · simp only [hp]
    exact h.entries
  · intro b hb
    rw [hds]
    rcases (mem_pendingOf_some hc').mp hb with rfl | hb
    · exact List.mem_append_right _ (List.mem_singleton_self _)
    · exact List.mem_append_left _ (hold b hb)
  · rw [hds]
    intro b hb
    simp only [mem_pendingOf_some hc']
    rcases List.mem_append.mp hb with hb | hb
    · rcases hwritten b hb with hb | ⟨d, hd, hkey, hm⟩
      · exact Or.inl (Or.inr hb)
      · exact Or.inr ⟨d, List.mem_append_left _ hd, hkey, hm⟩
    · exact Or.inl (Or.inl (List.mem_singleton.mp hb))
  · intro k hk
    rw [hds] at hk
    exact h.unwritten k fun b hb ↦ hk b (List.mem_append_left _ hb)

/-- A pending write is done. -/
theorem end_write (h : CacheHolds m₀ ⟨p, l₁ ++ c :: l₂⟩ ds m) (hc : c.pending = some a)
    (hc' : c'.pending = none)
    (hp : p'.frame_cache = S.cache.put p.frame_cache a.key a.payload) :
    CacheHolds m₀ ⟨p', l₁ ++ c' :: l₂⟩ ds (Function.update m a.key (some a.payload)) := by
  have hold := h.pending
  have hwritten := h.written
  simp only [mem_pendingOf_some hc] at hold hwritten
  refine ⟨?_, ?_, ?_, ?_⟩
  · simp only [hp]
    exact h.entries.put _ _
  · simp only [pendingOf_none hc']
    exact fun b hb ↦ hold b (Or.inr hb)
  · simp only [pendingOf_none hc']
    intro b hb
    by_cases hkey : b.key = a.key
    · refine Or.inr ⟨a, hold a (Or.inl rfl), hkey.symm, ?_⟩
      rw [hkey]
      exact Function.update_self _ _ _
    · rcases hwritten b hb with (rfl | hb) | ⟨d, hd, hkey', hm⟩
      · exact absurd rfl hkey
      · exact Or.inl hb
      · exact Or.inr ⟨d, hd, hkey', by rw [Function.update_of_ne hkey, hm]⟩
  · intro k hk
    rw [Function.update_of_ne (hk a (hold a (Or.inl rfl))).symm]
    exact h.unwritten k hk

end CacheHolds

/-! ## The frame cache of a serial run -/

/-- The hit a call has still to count, over a cache with the entries `m`. -/
def Call.hit (m : UInt64 → Option Bytes) (self : Call S) : ℕ :=
  match self.phase with
  | .stored frame | .routed frame _ => (m frame.accepted.key).isSome.toNat
  | .looked _ _ cache_hit | .cached _ _ cache_hit | .synced _ _ cache_hit _
  | .queued _ _ cache_hit .. | .recorded _ _ cache_hit .. => cache_hit.toNat
  | _ => 0

/-- The entries `m'` of a serial run are the entries `m` of the pool with the pending
writes done, and its hits are those of the pool with the pending ones. -/
structure CacheAgrees (w : Pool (IngestPipeline S) (Call S)) (q : IngestPipeline S)
    (m m' : UInt64 → Option Bytes) : Prop where
  entries : S.cache.Represents w.shared.frame_cache m
  entries' : S.cache.Represents q.frame_cache m'
  written : ∀ a ∈ pendingOf w.threads, m' a.key = some a.payload
  unwritten : ∀ k, (∀ a ∈ pendingOf w.threads, a.key ≠ k) → m' k = m k
  hits : w.shared.routing_stats.cache_hits + UInt64.ofNat (total (Call.hit m) w)
    = q.routing_stats.cache_hits

/-- A counter that counts a hit. -/
theorem countHit (cache_hit : Bool) (hits : UInt64) :
    (if cache_hit then hits + 1 else hits) = hits + UInt64.ofNat cache_hit.toNat := by
  cases cache_hit with
  | false => exact (UInt64.add_zero hits).symm
  | true => rfl

namespace CacheAgrees

theorem start {p₀ : IngestPipeline S} {m₀ : UInt64 → Option Bytes}
    (hrep : S.cache.Represents p₀.frame_cache m₀) {calls : List (CallClock × Bytes)} :
    CacheAgrees (arrivals p₀ calls) p₀ m₀ m₀ where
  entries := hrep
  entries' := hrep
  written := by
    rw [pendingOf_arrivals]
    exact fun a ha ↦ (List.not_mem_nil ha).elim
  unwritten _ _ := rfl
  hits := by
    have hzero : total (Call.hit m₀) (arrivals p₀ calls) = 0 := by
      apply List.sum_eq_zero
      intro n hn
      simp only [arrivals, List.map_map, List.mem_map] at hn
      obtain ⟨call, -, rfl⟩ := hn
      rfl
    rw [hzero]
    exact UInt64.add_zero _

variable {p p' q q' : IngestPipeline S} {l₁ l₂ : List (Call S)} {c c' : Call S}
  {a : Accepted} {m m' : UInt64 → Option Bytes}

/-- A section that neither begins nor ends a pending write keeps the agreement. -/
theorem keep (h : CacheAgrees ⟨p, l₁ ++ c :: l₂⟩ q m m') (hc : c'.pending = c.pending)
    (hm : S.cache.Represents p'.frame_cache m)
    (hhits : p'.routing_stats.cache_hits + UInt64.ofNat (c'.hit m)
      = p.routing_stats.cache_hits + UInt64.ofNat (c.hit m))
    (hq : q'.frame_cache = q.frame_cache) (hq' : q'.routing_stats = q.routing_stats) :
    CacheAgrees ⟨p', l₁ ++ c' :: l₂⟩ q' m m' := by
  have hpending : pendingOf (l₁ ++ c' :: l₂) = pendingOf (l₁ ++ c :: l₂) := by
    simp only [pendingOf, List.filterMap_append, List.filterMap_cons, hc]
  refine ⟨hm, ?_, ?_, ?_, ?_⟩
  · rw [hq]
    exact h.entries'
  · simp only [hpending]
    exact h.written
  · simp only [hpending]
    exact h.unwritten
  · have hold := h.hits
    simp only [total, List.map_append, List.map_cons, List.sum_append, List.sum_cons,
      UInt64.ofNat_add] at hold ⊢
    rw [hq', ← hold]
    calc p'.routing_stats.cache_hits + (UInt64.ofNat (l₁.map (Call.hit m)).sum
          + (UInt64.ofNat (c'.hit m) + UInt64.ofNat (l₂.map (Call.hit m)).sum))
        = (p'.routing_stats.cache_hits + UInt64.ofNat (c'.hit m))
          + (UInt64.ofNat (l₁.map (Call.hit m)).sum
            + UInt64.ofNat (l₂.map (Call.hit m)).sum) := by abel
      _ = _ := by rw [hhits]; abel

/-- A write becomes pending where the serial run does it. -/
theorem begin_write (h : CacheAgrees ⟨p, l₁ ++ c :: l₂⟩ q m m') (hcache : S.cache.Lossless)
    (hapart : Apart ⟨p', l₁ ++ c' :: l₂⟩) (hc : c.pending = none)
    (hc' : c'.pending = some a) (hhit : c.hit m = 0)
    (hhit' : c'.hit m = (m a.key).isSome.toNat) (hp : p'.frame_cache = p.frame_cache)
    (hp' : p'.routing_stats.cache_hits = p.routing_stats.cache_hits)
    (hq : q'.frame_cache
      = S.cache.put (S.cache.get q.frame_cache a.key).2 a.key a.payload)
    (hq' : q'.routing_stats.cache_hits = q.routing_stats.cache_hits
      + UInt64.ofNat (S.cache.get q.frame_cache a.key).1.isSome.toNat) :
    CacheAgrees ⟨p', l₁ ++ c' :: l₂⟩ q' m (Function.update m' a.key (some a.payload)) := by
  have hothers := hapart.key_ne hc'
  have hwritten := h.written
  have hunwritten := h.unwritten
  simp only [pendingOf_none hc] at hwritten hunwritten
  refine ⟨?_, ?_, ?_, ?_, ?_⟩
  · simp only [hp]
    exact h.entries
  · rw [hq]
    exact (h.entries'.get _).put _ _
  · intro b hb
    rcases (mem_pendingOf_some hc').mp hb with rfl | hb
    · exact Function.update_self _ _ _
    · rw [Function.update_of_ne (hothers b hb)]
      exact hwritten b hb
  · intro k hk
    simp only [mem_pendingOf_some hc', forall_eq_or_imp] at hk
    rw [Function.update_of_ne hk.1.symm]
    exact hunwritten k hk.2
  · -- No other write of this key is pending, so both caches have the same entry for it.
    have hget : (S.cache.get q.frame_cache a.key).1 = m a.key :=
      (hcache.get h.entries' _).trans (hunwritten _ hothers)
    have hold := h.hits
    have hzero : UInt64.ofNat 0 = 0 := rfl
    simp only [total, List.map_append, List.map_cons, List.sum_append, List.sum_cons,
      UInt64.ofNat_add, hhit, hhit', hzero] at hold ⊢
    rw [hq', ← hold, hget, hp']
    abel

/-- A pending write is done. -/
theorem end_write (h : CacheAgrees ⟨p, l₁ ++ c :: l₂⟩ q m m')
    (hapart : Apart ⟨p, l₁ ++ c :: l₂⟩) (hc : c.pending = some a) (hc' : c'.pending = none)
    (hhit : ∀ n, c'.hit n = c.hit m)
    (hp : p'.frame_cache = S.cache.put p.frame_cache a.key a.payload)
    (hp' : p'.routing_stats.cache_hits = p.routing_stats.cache_hits) :
    CacheAgrees ⟨p', l₁ ++ c' :: l₂⟩ q (Function.update m a.key (some a.payload)) m' := by
  have hothers := hapart.key_ne hc
  have hwritten := h.written
  have hunwritten := h.unwritten
  simp only [mem_pendingOf_some hc, forall_eq_or_imp] at hwritten hunwritten
  refine ⟨?_, h.entries', ?_, ?_, ?_⟩
  · simp only [hp]
    exact h.entries.put _ _
  · simp only [pendingOf_none hc']
    exact hwritten.2
  · simp only [pendingOf_none hc']
    intro k hk
    by_cases hka : k = a.key
    · subst hka
      rw [Function.update_self]
      exact hwritten.1
    · rw [Function.update_of_ne hka]
      exact hunwritten k ⟨Ne.symm hka, hk⟩
  · -- The other calls look up other keys.
    have hlookup : ∀ d ∈ l₁ ++ l₂,
        d.hit (Function.update m a.key (some a.payload)) = d.hit m := by
      intro d hd
      have hne : ∀ b, d.pending = some b → b.key ≠ a.key :=
        fun b hb ↦ hothers b (List.mem_filterMap.mpr ⟨d, hd, hb⟩)
      obtain ⟨clock, raw, ph⟩ := d
      cases ph with
      | stored frame => simp only [Call.hit, Function.update_of_ne (hne _ rfl)]
      | routed frame => simp only [Call.hit, Function.update_of_ne (hne _ rfl)]
      | _ => rfl
    have hmap : ∀ l : List (Call S), l ⊆ l₁ ++ l₂ →
        l.map (Call.hit (Function.update m a.key (some a.payload))) = l.map (Call.hit m) :=
      fun l hl ↦ List.map_congr_left fun d hd ↦ hlookup d (hl hd)
    have hold := h.hits
    simp only [total, List.map_append, List.map_cons, List.sum_append, List.sum_cons] at hold ⊢
    rw [hmap l₁ (List.subset_append_left _ _), hmap l₂ (List.subset_append_right _ _), hhit,
      hp']
    exact hold

end CacheAgrees

/-! ## The simulation -/

/-- Two pipelines that decide the next packet alike. -/
structure Alike (p q : IngestPipeline S) : Prop where
  secret : p.key_store.master_secret = q.key_store.master_secret
  storage : p.sdf_storage = q.sdf_storage
  world_min : p.world_min = q.world_min
  world_max : p.world_max = q.world_max

theorem Alike.mortonOf {p q : IngestPipeline S} (h : Alike p q) (pl : Bytes) :
    p.mortonOf pl = q.mortonOf pl := by
  simp only [IngestPipeline.mortonOf, h.world_min, h.world_max]

theorem Alike.stored {p q : IngestPipeline S} (h : Alike p q) (v : UInt32) (pl : Bytes) :
    p.stored v pl = q.stored v pl := by
  simp only [IngestPipeline.stored, h.mortonOf, h.storage]

theorem Alike.frameUnder {p q : IngestPipeline S} (h : Alike p q) (header : Header S)
    (pl : Bytes) : p.frameUnder header pl = q.frameUnder header pl := by
  simp only [IngestPipeline.frameUnder, h.mortonOf]

theorem headerOf_congr {p q : IngestPipeline S}
    (h : p.key_store.master_secret = q.key_store.master_secret) (raw : Bytes) :
    p.headerOf raw = q.headerOf raw := by
  simp only [headerOf, h]

/-- What no section changes. -/
theorem Advances.unchanged {clock : CallClock} {raw : Bytes} {ph ph' : Phase S}
    {p q : IngestPipeline S} (h : Advances clock raw ph p ph' q) :
    q.key_store.master_secret = p.key_store.master_secret ∧
      q.world_min = p.world_min ∧ q.world_max = p.world_max := by
  cases h with
  | keyed => exact ⟨DeviceKeyStore.master_secret_deriveDeviceKey _ _, rfl, rfl⟩
  | _ => exact ⟨rfl, rfl, rfl⟩

/-- The pipeline of a pool keeps the master secret and the world bounds of `p₀`, and a
call holds no header but that of its own packet. -/
structure Coherent (p₀ p : IngestPipeline S) (c : Call S) : Prop where
  secret : p.key_store.master_secret = p₀.key_store.master_secret
  world_min : p.world_min = p₀.world_min
  world_max : p.world_max = p₀.world_max
  header : ∀ header, c.phase = .keyed header → header = p₀.headerOf c.raw

theorem coherent_of_reaches {p₀ : IngestPipeline S} {calls : List (CallClock × Bytes)}
    {w : Pool (IngestPipeline S) (Call S)}
    (h : Pool.Reaches Call.step (arrivals p₀ calls) w) :
    ∀ c ∈ w.threads, Coherent p₀ w.shared c := by
  refine Pool.Reaches.forall_threads ?_ ?_ h ?_
  · intro c p c' q hstep hc
    obtain ⟨-, hraw, hadv⟩ := advances_of_step hstep
    obtain ⟨hsecret, hmin, hmax⟩ := hadv.unchanged
    refine ⟨hsecret.trans hc.secret, hmin.trans hc.world_min, hmax.trans hc.world_max, ?_⟩
    intro header hheader
    obtain ⟨clock, raw, ph⟩ := c
    obtain ⟨clock', raw', ph'⟩ := c'
    obtain rfl : raw' = raw := hraw
    obtain rfl : ph' = .keyed header := hheader
    cases hadv with
    | keyed => exact headerOf_congr hc.secret raw'
  · intro c p c' q hstep d hd
    obtain ⟨-, -, hadv⟩ := advances_of_step hstep
    obtain ⟨hsecret, hmin, hmax⟩ := hadv.unchanged
    exact ⟨hsecret.trans hd.secret, hmin.trans hd.world_min, hmax.trans hd.world_max, hd.header⟩
  · intro c hc
    obtain ⟨call, -, rfl⟩ := List.mem_map.mp hc
    exact ⟨rfl, rfl, rfl, fun header hheader ↦ by cases hheader⟩

/-- A pool and the serial run it is simulated by: the run has the storage of the pool, the
frame cache of the pool holds packets of the run, and if its calls are kept apart, it is
the one of the run. -/
structure Simulates (apart : Prop) (p₀ : IngestPipeline S) (m₀ : UInt64 → Option Bytes)
    (w : Pool (IngestPipeline S) (Call S)) (ds : List Delivery) (q : IngestPipeline S) :
    Prop where
  linearized : Linearized p₀ w ds q
  holds : ∃ m, CacheHolds m₀ w ds m
  agrees : apart → Apart w ∧ ∃ m m', CacheAgrees w q m m'

namespace Simulates

variable {apart : Prop} {p₀ p p' q q' : IngestPipeline S} {m₀ : UInt64 → Option Bytes}
  {l₁ l₂ : List (Call S)} {c c' : Call S} {ds ds' : List Delivery}

theorem start (hrep : S.cache.Represents p₀.frame_cache m₀)
    (calls : List (CallClock × Bytes)) : Simulates apart p₀ m₀ (arrivals p₀ calls) [] p₀ where
  linearized := .start calls
  holds := ⟨m₀, .start hrep⟩
  agrees _ := by
    refine ⟨?_, m₀, m₀, .start hrep⟩
    rw [Apart, pendingOf_arrivals]
    exact List.nodup_nil

/-- A section that neither begins nor ends a cache write. -/
theorem keep (h : Simulates apart p₀ m₀ ⟨p, l₁ ++ c :: l₂⟩ ds q)
    (hlin : Linearized p₀ ⟨p', l₁ ++ c' :: l₂⟩ ds' q')
    (hapart : apart → Apart ⟨p', l₁ ++ c' :: l₂⟩) (hds : acceptedOf ds' = acceptedOf ds)
    (hpending : c'.pending = c.pending)
    (hm : ∀ m, S.cache.Represents p.frame_cache m → S.cache.Represents p'.frame_cache m ∧
      p'.routing_stats.cache_hits + UInt64.ofNat (c'.hit m)
        = p.routing_stats.cache_hits + UInt64.ofNat (c.hit m))
    (hq : q'.frame_cache = q.frame_cache) (hq' : q'.routing_stats = q.routing_stats) :
    Simulates apart p₀ m₀ ⟨p', l₁ ++ c' :: l₂⟩ ds' q' := by
  obtain ⟨m, hholds⟩ := h.holds
  refine ⟨hlin, ⟨m, hholds.keep hpending (hm m hholds.entries).1 hds⟩, fun hb ↦ ?_⟩
  obtain ⟨-, n, n', hagree⟩ := h.agrees hb
  obtain ⟨hrep, hhits⟩ := hm n hagree.entries
  exact ⟨hapart hb, n, n', hagree.keep hpending hrep hhits hq hq'⟩

/-- A call that returns an error fails in the serial run too. -/
theorem reject (h : Simulates apart p₀ m₀ ⟨p, l₁ ++ c :: l₂⟩ ds q)
    (hapart : apart → Apart ⟨p', l₁ ++ c' :: l₂⟩) {clock : CallClock} {raw : Bytes}
    {err : IngestError} (hi : Ingests clock raw q (.error err) q')
    (hs : q'.sdf_storage = p'.sdf_storage) (hc : c.decided = none)
    (hc' : c'.decided = some ((clock, raw), none)) (hpending : c'.pending = c.pending)
    (hp : p'.frame_cache = p.frame_cache)
    (hhits : ∀ m, p'.routing_stats.cache_hits + UInt64.ofNat (c'.hit m)
      = p.routing_stats.cache_hits + UInt64.ofNat (c.hit m)) :
    ∃ ds' q', Simulates apart p₀ m₀ ⟨p', l₁ ++ c' :: l₂⟩ ds' q' := by
  have hkept : q'.frame_cache = q.frame_cache ∧ q'.routing_stats = q.routing_stats := by
    cases hi <;> exact ⟨rfl, rfl⟩
  refine ⟨_, q', h.keep (h.linearized.decides (processPacket_of_ingests hi) hs hc hc') hapart
    (acceptedOf_snoc_none rfl) hpending (fun m hm ↦ ⟨?_, hhits m⟩) hkept.1 hkept.2⟩
  rw [hp]
  exact hm

/-- **One section.**  A section of a call is nothing at all in the serial run, or it
decides the call, which the serial run then makes as a whole. -/
theorem step (hcache : S.cache.Lossless) (h : Simulates apart p₀ m₀ ⟨p, l₁ ++ c :: l₂⟩ ds q)
    (hc : Coherent p₀ p c) (hstep : c.step p = some (c', p'))
    (hapart : apart → Apart ⟨p', l₁ ++ c' :: l₂⟩) :
    ∃ ds' q', Simulates apart p₀ m₀ ⟨p', l₁ ++ c' :: l₂⟩ ds' q' := by
  have hlin := h.linearized
  have hrun := run_of_ingestAll hlin.run
  have halike : Alike p q := {
    secret := hc.secret.trans hrun.master_secret.symm
    storage := hlin.storage.symm
    world_min := hc.world_min.trans hrun.world.1.symm
    world_max := hc.world_max.trans hrun.world.2.symm }
  obtain ⟨hclock, hraw, hadv⟩ := advances_of_step hstep
  obtain ⟨clock, raw, ph⟩ := c
  obtain ⟨clock', raw', ph'⟩ := c'
  obtain rfl : clock' = clock := hclock
  obtain rfl : raw' = raw := hraw
  have hheader : ∀ header, ph = .keyed header → header = q.headerOf raw' :=
    fun header h ↦ (hc.header header h).trans (headerOf_congr hrun.master_secret.symm raw')
  cases hadv with
  | malformed hlen =>
      exact h.reject hapart (.malformed hlen) hlin.storage rfl rfl rfl rfl fun m ↦ rfl
  | keyed hlen =>
      exact ⟨ds, q, h.keep (hlin.silent rfl rfl) hapart rfl rfl (fun m hm ↦ ⟨hm, rfl⟩) rfl rfl⟩
  | @undecryptable _ header e hlen ho =>
      obtain rfl := hheader header rfl
      exact h.reject hapart (.undecryptable hlen ho) hlin.storage rfl rfl rfl rfl fun m ↦ rfl
  | @refused _ header pl e s hlen ho hs =>
      obtain rfl := hheader header rfl
      rw [halike.stored] at hs
      exact h.reject hapart (.refused hlen ho hs) rfl rfl rfl rfl rfl fun m ↦ rfl
  | @stored _ header pl s hlen ho hs =>
      obtain rfl := hheader header rfl
      rw [halike.stored] at hs
      obtain ⟨m, hholds⟩ := h.holds
      refine ⟨_, _, hlin.decides (processPacket_of_ingests (.accepted hlen ho hs))
        rfl rfl rfl, ⟨m, hholds.begin_write rfl rfl rfl ?_⟩, fun hb ↦ ?_⟩
      · apply acceptedOf_snoc_some
        have ho' : q.opened raw' = .ok pl := ho
        rw [ho']
        rfl
      · obtain ⟨-, n, n', hagree⟩ := h.agrees hb
        exact ⟨hapart hb, n, _, hagree.begin_write hcache (hapart hb) rfl rfl rfl rfl
          rfl rfl rfl (countHit _ _)⟩
  | @looked _ frame =>
      refine ⟨ds, q, h.keep (hlin.silent rfl rfl) hapart rfl rfl (fun n hn ↦ ?_) rfl rfl⟩
      have hhit : (lookupFrame frame p).1 = (n frame.accepted.key).isSome :=
        congrArg Option.isSome (hcache.get hn frame.accepted.key)
      refine ⟨hn.get _, ?_⟩
      simp only [Call.hit, hhit]
      rfl
  | @cached _ frame =>
      obtain ⟨m, hholds⟩ := h.holds
      refine ⟨ds, q, hlin.silent rfl rfl, ⟨_, hholds.end_write rfl rfl rfl⟩, fun hb ↦ ?_⟩
      obtain ⟨hapart', n, n', hagree⟩ := h.agrees hb
      exact ⟨hapart hb, _, n', hagree.end_write hapart' rfl rfl (fun _ ↦ rfl) rfl rfl⟩
  | returned =>
      refine ⟨ds, q, h.keep (hlin.silent rfl rfl) hapart rfl rfl (fun n hn ↦ ⟨hn, ?_⟩) rfl rfl⟩
      exact (UInt64.add_zero _).trans (countHit _ _)
  | _ =>
      exact ⟨ds, q, h.keep (hlin.silent rfl rfl) hapart rfl rfl (fun m hm ↦ ⟨hm, rfl⟩) rfl rfl⟩

end Simulates

/-- **The simulation.**  Every interleaving is simulated by a serial run. -/
theorem exists_simulates (hcache : S.cache.Lossless) (apart : Prop) {p₀ : IngestPipeline S}
    {m₀ : UInt64 → Option Bytes} (hrep : S.cache.Represents p₀.frame_cache m₀)
    {calls : List (CallClock × Bytes)} {w : Pool (IngestPipeline S) (Call S)}
    (h : Pool.ReachesWithin Call.step (fun w ↦ apart → Apart w) (arrivals p₀ calls) w) :
    ∃ ds q, Simulates apart p₀ m₀ w ds q := by
  induction h with
  | refl => exact ⟨[], p₀, .start hrep calls⟩
  | @tail w w' hw hs ih =>
      obtain ⟨ds, q, hsim⟩ := ih
      obtain ⟨hs, hapart⟩ := hs
      cases hs with
      | @mk p p' c c' l₁ l₂ hstep =>
          have hc : Coherent p₀ p c :=
            coherent_of_reaches (Pool.ReachesWithin.reaches hw) c
              (List.mem_append_right _ List.mem_cons_self)
          exact hsim.step hcache hc hstep hapart

/-! ## Counters -/

/-- The call has returned. -/
def Phase.isReturned : Phase S → Bool
  | .returned _ => true
  | _ => false

theorem Phase.isReturned_iff {ph : Phase S} :
    ph.isReturned = true ↔ ∃ res, ph = .returned res := by
  cases ph <;> simp [isReturned]

/-- Every call has returned. -/
def Finished (w : Pool (IngestPipeline S) (Call S)) : Prop :=
  ∀ c ∈ w.threads, ∃ res, c.phase = .returned res

instance (w : Pool (IngestPipeline S) (Call S)) : Decidable (Finished w) :=
  decidable_of_iff (∀ c ∈ w.threads, c.phase.isReturned = true)
    (by simp only [Phase.isReturned_iff, Finished])

instance (w : Pool (IngestPipeline S) (Call S)) : Decidable (Apart w) :=
  inferInstanceAs (Decidable ((pendingOf w.threads).map Accepted.key).Nodup)

/-- Two pipelines whose queue router, telemetry and routing stats have counted the same,
cache hits apart. -/
structure SameCounters (p q : IngestPipeline S) : Prop where
  messages_routed : p.queue_router.messages_routed = q.queue_router.messages_routed
  bytes_routed : p.queue_router.bytes_routed = q.queue_router.bytes_routed
  total_packets : p.telemetry.total_packets = q.telemetry.total_packets
  keyframe_count : p.telemetry.keyframe_count = q.telemetry.keyframe_count
  delta_count : p.telemetry.delta_count = q.telemetry.delta_count
  total_bytes : p.telemetry.total_bytes = q.telemetry.total_bytes
  total_requests : p.routing_stats.total_requests = q.routing_stats.total_requests

section Finished

variable {w w' : Pool (IngestPipeline S) (Call S)}

/-- What finished calls have counted is a sum over what was decided of them. -/
theorem total_of_finished (hfin : Finished w) (n : Call S → ℕ)
    (n' : (CallClock × Bytes) × Option Bool → ℕ)
    (h : ∀ clock raw res, n ⟨clock, raw, .returned res⟩
      = n' ((clock, raw), res.toOption.map IngestResult.is_keyframe)) :
    total n w = ((w.threads.filterMap Call.decided).map n').sum := by
  have hdecided : w.threads.map n = (w.threads.filterMap Call.decided).map n' := by
    rw [List.map_filterMap, ← List.filterMap_eq_map]
    apply List.filterMap_congr
    rintro ⟨clock, raw, ph⟩ hc
    obtain ⟨res, rfl⟩ : ∃ res, ph = .returned res := hfin _ hc
    exact congrArg some (h clock raw res)
  rw [total, hdecided]

/-- Finished calls of which the same was decided have counted the same. -/
theorem sameCounters_of_perm {p₀ : IngestPipeline S} {calls calls' : List (CallClock × Bytes)}
    (h : Pool.Reaches Call.step (arrivals p₀ calls) w)
    (h' : Pool.Reaches Call.step (arrivals p₀ calls') w') (hfin : Finished w)
    (hfin' : Finished w')
    (hperm : (w.threads.filterMap Call.decided).Perm (w'.threads.filterMap Call.decided)) :
    SameCounters w.shared w'.shared := by
  have hsum : ∀ (n : Call S → ℕ) (n' : (CallClock × Bytes) × Option Bool → ℕ),
      (∀ clock raw res, n ⟨clock, raw, .returned res⟩
        = n' ((clock, raw), res.toOption.map IngestResult.is_keyframe)) →
      total n w = total n w' := by
    intro n n' hn
    rw [total_of_finished hfin n n' hn, total_of_finished hfin' n n' hn]
    exact (hperm.map n').sum_eq
  have hcount : ∀ n : Phase S → ℕ, (∀ res, n (.returned res) = res.toOption.isSome.toNat) →
      total (fun c ↦ n c.phase) w = total (fun c ↦ n c.phase) w' := by
    intro n hn
    apply hsum _ fun e ↦ e.2.isSome.toNat
    intro clock raw res
    rw [hn, Option.isSome_map]
  refine ⟨?_, ?_, ?_, ?_, ?_, ?_, ?_⟩
  · rw [messages_routed_of_reaches h, messages_routed_of_reaches h', hcount]
    rintro (e | r) <;> rfl
  · rw [bytes_routed_of_reaches h, bytes_routed_of_reaches h']
  · rw [total_packets_of_reaches h, total_packets_of_reaches h', hcount]
    rintro (e | r) <;> rfl
  · rw [keyframe_count_of_reaches h, keyframe_count_of_reaches h',
      hsum _ fun e ↦ (e.2.any id).toNat]
    rintro clock raw (e | r) <;> rfl
  · rw [delta_count_of_reaches h, delta_count_of_reaches h',
      hsum _ fun e ↦ (e.2.any not).toNat]
    rintro clock raw (e | r) <;> rfl
  · rw [total_bytes_of_reaches h, total_bytes_of_reaches h',
      hsum _ fun e ↦ e.2.isSome.toNat * e.1.2.length]
    rintro clock raw (e | r) <;> rfl
  · rw [total_requests_of_reaches h, total_requests_of_reaches h', hcount]
    rintro (e | r) <;> rfl

/-- No write is pending when all calls have returned. -/
theorem pendingOf_finished (hfin : Finished w) : pendingOf w.threads = [] := by
  apply List.filterMap_eq_nil_iff.mpr
  rintro ⟨clock, raw, ph⟩ hc
  obtain ⟨res, rfl⟩ : ∃ res, ph = .returned res := hfin _ hc
  rfl

theorem total_hit_finished (hfin : Finished w) (m : UInt64 → Option Bytes) :
    total (Call.hit m) w = 0 := by
  apply List.sum_eq_zero
  intro n hn
  obtain ⟨⟨clock, raw, ph⟩, hc, rfl⟩ := List.mem_map.mp hn
  obtain ⟨res, rfl⟩ : ∃ res, ph = .returned res := hfin _ hc
  rfl

/-- The serial run a finished interleaving is linearized to makes the same calls and
counts the same. -/
theorem Linearized.finished {p₀ q : IngestPipeline S} {calls : List (CallClock × Bytes)}
    {ds : List Delivery} (hlin : Linearized p₀ w ds q)
    (h : Pool.Reaches Call.step (arrivals p₀ calls) w) (hfin : Finished w) :
    (ds.map Delivery.call).Perm calls ∧ SameCounters q w.shared := by
  have hcalls : w.threads.map (fun c ↦ (c.clock, c.raw)) = calls := by
    have hkeep : ∀ (c : Call S) p c' q, c.step p = some (c', q) →
        (c'.clock, c'.raw) = (c.clock, c.raw) := by
      intro c p c' q hstep
      obtain ⟨hclock, hraw, -⟩ := advances_of_step hstep
      rw [hclock, hraw]
    have hmap := Pool.Reaches.map_threads (fun c : Call S ↦ (c.clock, c.raw)) hkeep h
    rw [hmap, arrivals, List.map_map]
    exact List.map_id calls
  have hdecided : (w.threads.filterMap Call.decided).map Prod.fst = calls := by
    rw [← hcalls, List.map_filterMap, ← List.filterMap_eq_map]
    apply List.filterMap_congr
    rintro ⟨clock, raw, ph⟩ hc
    obtain ⟨res, rfl⟩ : ∃ res, ph = .returned res := hfin _ hc
    rfl
  constructor
  · have hperm := hlin.decided.map Prod.fst
    rw [hdecided, List.map_map] at hperm
    exact hperm
  · refine sameCounters_of_perm (reaches_of_ingestAll hlin.run) h ?_ hfin ?_
    · intro c hc
      obtain ⟨x, -, rfl⟩ := List.mem_map.mp hc
      exact ⟨x.result, rfl⟩
    · refine List.Perm.trans (List.Perm.of_eq ?_) hlin.decided
      rw [List.filterMap_map, ← List.filterMap_eq_map]
      rfl

end Finished

/-! ## Serializability -/

/-- **Serializability of storage and counters, and of the frame cache when calls are
kept apart.**  Any interleaving of calls that all return leaves the storage and the
counters of the same calls made one after another in some order, and under each key of
the frame cache one of the packets accepted under it; and if no two calls with the same
cache key are ever between their storage section and their cache write at once, also the
frame cache and the cache hits. -/
theorem serial_of_reaches (hcache : S.cache.Lossless) {p₀ : IngestPipeline S}
    {m₀ : UInt64 → Option Bytes} (hrep : S.cache.Represents p₀.frame_cache m₀)
    {calls : List (CallClock × Bytes)} {w : Pool (IngestPipeline S) (Call S)}
    (hfin : Finished w) :
    (Pool.Reaches Call.step (arrivals p₀ calls) w →
      ∃ order ds q, order.Perm calls ∧ ingestAll p₀ order = some (ds, q) ∧
        q.sdf_storage = w.shared.sdf_storage ∧ SameCounters q w.shared ∧
        ∀ k, (∃ a ∈ acceptedOf ds, a.key = k ∧
            (S.cache.get w.shared.frame_cache k).1 = some a.payload) ∨
          ((∀ a ∈ acceptedOf ds, a.key ≠ k) ∧
            (S.cache.get w.shared.frame_cache k).1 = (S.cache.get p₀.frame_cache k).1)) ∧
    (Pool.ReachesWithin Call.step Apart (arrivals p₀ calls) w →
      ∃ order ds q, order.Perm calls ∧ ingestAll p₀ order = some (ds, q) ∧
        q.sdf_storage = w.shared.sdf_storage ∧ SameCounters q w.shared ∧
        q.routing_stats = w.shared.routing_stats ∧
        ∀ k, (S.cache.get q.frame_cache k).1 = (S.cache.get w.shared.frame_cache k).1) := by
  constructor
  · intro h
    obtain ⟨ds, q, hlin, ⟨m, hholds⟩, -⟩ :=
      exists_simulates hcache False hrep (h.within fun _ hf ↦ hf.elim)
    obtain ⟨hperm, hcounters⟩ := hlin.finished h hfin
    refine ⟨_, ds, q, hperm, hlin.run, hlin.storage, hcounters, fun k ↦ ?_⟩
    have hget : (S.cache.get w.shared.frame_cache k).1 = m k := hcache.get hholds.entries k
    rw [hget, hcache.get hrep k]
    by_cases hk : ∃ a ∈ acceptedOf ds, a.key = k
    · obtain ⟨a, ha, rfl⟩ := hk
      rcases hholds.written a ha with hpending | ⟨b, hb, hkey, hm⟩
      · rw [pendingOf_finished hfin] at hpending
        cases hpending
      · exact Or.inl ⟨b, hb, hkey, hm⟩
    · have hne : ∀ a ∈ acceptedOf ds, a.key ≠ k := fun a ha hak ↦ hk ⟨a, ha, hak⟩
      exact Or.inr ⟨hne, hholds.unwritten k hne⟩
  · intro h
    have htrue : Pool.ReachesWithin Call.step (fun w ↦ True → Apart w) (arrivals p₀ calls) w :=
      Relation.ReflTransGen.mono (fun _ _ hs ↦ ⟨hs.1, fun _ ↦ hs.2⟩) _ _ h
    obtain ⟨ds, q, hlin, -, hsim⟩ := exists_simulates hcache True hrep htrue
    obtain ⟨hperm, hcounters⟩ := hlin.finished h.reaches hfin
    obtain ⟨-, m, m', hagree⟩ := hsim trivial
    refine ⟨_, ds, q, hperm, hlin.run, hlin.storage, hcounters, ?_, fun k ↦ ?_⟩
    · have hhits := hagree.hits
      rw [total_hit_finished hfin] at hhits
      exact SdfRoutingStats.ext hcounters.total_requests
        (hhits.symm.trans (UInt64.add_zero _))
    · rw [hcache.get hagree.entries' k, hcache.get hagree.entries k]
      apply hagree.unwritten
      rw [pendingOf_finished hfin]
      exact fun a ha ↦ (List.not_mem_nil ha).elim

/-! ## A race -/

/-- A storage that is a map: it keeps the last record at each Morton code. -/
abbrev lastRecord : AliceDb where
  __ := AliceDb.inMemory
  storeKeyframe s m v x := (.ok (), s.filter (fun r ↦ r.morton ≠ m) ++ [⟨m, v, x⟩])

/-- The crates in memory, with a storage that is a map. -/
abbrev mapSiblings : Siblings where
  __ := Siblings.inMemory
  db := lastRecord

/-- A new pipeline over these crates. -/
def mapPipeline : IngestPipeline mapSiblings where
  key_store := .new _ (.replicate 32 42)
  sdf_storage := []
  frame_cache := ∅
  cdn_router := none
  sync_hub := []
  queue_router := .new 4
  telemetry := .new _
  routing_stats := ⟨0, 0⟩
  world_min := ⟨.negTen, .negTen, .negTen⟩
  world_max := ⟨.ten, .ten, .ten⟩

/-- A keyframe of device 1 at the origin, with the given SDF value. -/
def keyframe (x : UInt8) : CallClock × Bytes :=
  (⟨0, 0, 0, 0⟩, packet 1 5 ((deviceKey AliceCrypto.inMemory (.replicate 32 42) 1).toList
    ++ [1, 0, 0, 0, 0, 0, 0, 0, 0, 0, 0, 0, 0, x, 0, 0, 0]))

/-- What the race is about: the stored value, the cached one and the hits. -/
def raced (p : IngestPipeline mapSiblings) : List F32 × Option F32 × UInt64 :=
  (p.sdf_storage.map SdfRecord.sdf_value,
    (p.frame_cache.lookup (cacheKey 1 5)).map sdfValue, p.routing_stats.cache_hits)

/-- Two calls can be made in two orders. -/
theorem perm_pair {A : Type} {a b : A} {l : List A} (h : l.Perm [a, b]) :
    l = [a, b] ∨ l = [b, a] := by
  obtain ⟨x, y, rfl⟩ := List.length_eq_two.mp h.length_eq
  have hx : x ∈ [a, b] := h.subset List.mem_cons_self
  rcases List.mem_cons.mp hx with rfl | hx
  · obtain rfl := List.singleton_perm_singleton.mp (List.perm_cons x |>.mp h)
    exact Or.inl rfl
  · obtain rfl := List.mem_singleton.mp hx
    obtain rfl := List.singleton_perm_singleton.mp
      (List.perm_cons x |>.mp (h.trans (List.Perm.swap x a [])))
    exact Or.inr rfl

/-- **Two keyframes race.**  Two keyframes of one device and version, stored in one order
and cached in the other, leave the storage of one serial order and the cache of the
other, and no hit where any order has one. -/
theorem not_serializable : ∃ calls w,
    Pool.Reaches Call.step (arrivals mapPipeline calls) w ∧ Finished w ∧
    ∀ order : List (CallClock × Bytes), order.Perm calls →
      ∀ ds q, ingestAll mapPipeline order = some (ds, q) →
        ¬ (q.sdf_storage = w.shared.sdf_storage ∧
          ∀ k, (mapSiblings.cache.get q.frame_cache k).1
            = (mapSiblings.cache.get w.shared.frame_cache k).1) ∧
        q.routing_stats.cache_hits ≠ w.shared.routing_stats.cache_hits := by
  have hrun : (Pool.schedule Call.step (fun _ ↦ True)
      (arrivals mapPipeline [keyframe 1, keyframe 2])
      [0, 0, 1, 1, 0, 1, 0, 1, 1, 0, 0, 0, 0, 0, 1, 1, 1, 1]).map
        (fun w ↦ (decide (Finished w), raced w.shared))
      = some (true, [⟨2⟩], some ⟨1⟩, 0) := by decide +kernel
  have hserial : ∀ order : List (CallClock × Bytes), order.Perm [keyframe 1, keyframe 2] →
      ∃ x, (ingestAll mapPipeline order).map (fun r ↦ raced r.2) = some ([x], some x, 1) := by
    intro order hperm
    rcases perm_pair hperm with rfl | rfl
    · exact ⟨⟨2⟩, by decide +kernel⟩
    · exact ⟨⟨1⟩, by decide +kernel⟩
  obtain ⟨w, hw, heq⟩ := Option.map_eq_some_iff.mp hrun
  simp only [Prod.mk.injEq, decide_eq_true_eq] at heq
  obtain ⟨hfin, hw'⟩ := heq
  refine ⟨_, w, (Pool.reachesWithin_of_schedule hw).reaches, hfin, ?_⟩
  intro order hperm ds q hq
  obtain ⟨x, hx⟩ := hserial order hperm
  rw [hq, Option.map_some] at hx
  have hq' : raced q = ([x], some x, 1) := Option.some.inj hx
  constructor
  · rintro ⟨hstorage, hcache⟩
    have hvalue : (raced q).1 = (raced w.shared).1 :=
      congrArg (List.map SdfRecord.sdf_value) hstorage
    have hframe : (raced q).2.1 = (raced w.shared).2.1 :=
      congrArg (Option.map sdfValue) (hcache (cacheKey 1 5))
    rw [hq', hw'] at hvalue hframe
    obtain rfl := List.singleton_inj.mp hvalue
    exact absurd hframe (by decide)
  · intro hhits
    have hhits' : (raced q).2.2 = (raced w.shared).2.2 := hhits
    rw [hq', hw'] at hhits'
    have hone : (1 : UInt64) = 0 := hhits'
    exact absurd hone (by decide)

/-- Two deltas of different devices, interleaved section by section, are apart. -/
theorem serial_of_reaches_inMemory :
    let body (d : UInt64) := (deviceKey AliceCrypto.inMemory (.replicate 32 42) d).toList
      ++ [2, 7]
    let calls := [(⟨0, 0, 0, 0⟩, packet 1 5 (body 1)), (⟨0, 0, 0, 0⟩, packet 2 5 (body 2))]
    ∃ w, Pool.ReachesWithin Call.step Apart (arrivals inMemory calls) w ∧ Finished w ∧
      ∃ order ds q, order.Perm calls ∧ ingestAll inMemory order = some (ds, q) ∧
        SameCounters q w.shared ∧ q.routing_stats = w.shared.routing_stats := by
  intro body calls
  have hrun : (Pool.schedule Call.step Apart (arrivals inMemory calls)
      [0, 1, 0, 1, 0, 1, 0, 1, 0, 1, 0, 1, 0, 1, 0, 1, 0, 1]).map
        (fun w ↦ decide (Finished w)) = some true := by decide +kernel
  obtain ⟨w, hw, hfin⟩ := Option.map_eq_some_iff.mp hrun
  have hreach := Pool.reachesWithin_of_schedule hw
  have hfin := of_decide_eq_true hfin
  have hrep : (mapCache UInt64 Bytes).Represents inMemory.frame_cache fun _ ↦ none :=
    .new 1000
  obtain ⟨order, ds, q, hperm, hall, -, hcounters, hstats, -⟩ :=
    (serial_of_reaches (mapCache_lossless UInt64 Bytes) hrep hfin).2 hreach
  exact ⟨w, hreach, hfin, order, ds, q, hperm, hall, hcounters, hstats⟩

end IngestPipeline

end CloudGateway
