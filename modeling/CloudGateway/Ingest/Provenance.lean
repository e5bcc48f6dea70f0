import CloudGateway.Ingest.Records
import CloudGateway.Ingest.Serial

/-!
# Where things come from

While calls of `process_packet` run concurrently, the storage and the frame cache are
written in the middle of each.  This file says what they hold at *any* moment of *any*
interleaving, over crates that may evict, refuse and fail.

What a call works on is its own packet: its frame is the one `p₀` makes of it
(`Sourced`).  A call whose storage section has been passed is accepted, and what has been
written to the storage are the records of the accepted packets, one for each keyframe with
data (`stores_of_reaches`); what the frame cache answers under a key is the payload of a
packet accepted under that key (`cached_of_reaches`).
-/

namespace CloudGateway

open LittleEndian KeyedCache

deriving instance DecidableEq for CallClock

variable {S : Siblings}

namespace IngestPipeline

/-! ## Calls and their packets -/

/-- The frame a call holds between two of its sections. -/
def Phase.frame : Phase S → Option Frame
  | .arrived | .keyed _ | .returned _ => none
  | .stored frame | .routed frame _ | .looked frame _ _ | .cached frame _ _
  | .synced frame .. | .queued frame .. | .recorded frame .. => some frame

/-- The storage section of the call has been passed. -/
def Phase.isAccepted : Phase S → Bool
  | .arrived | .keyed _ | .returned (.error _) => false
  | _ => true

/-- What a pipeline with the keys of `p₀` takes a packet for, if it opens. -/
def packetOf (p₀ : IngestPipeline S) (raw : Bytes) : Option Accepted :=
  (p₀.opened raw).toOption.map fun pl ↦
    ⟨headerDevice raw, headerVersion raw, isKeyframe pl, pl⟩

/-- The packet of a call that is accepted. -/
def Call.packet (p₀ : IngestPipeline S) (self : Call S) : Option Accepted :=
  if self.phase.isAccepted then p₀.packetOf self.raw else none

/-- The packets that the calls of a pool have had accepted. -/
def acceptedIn (p₀ : IngestPipeline S) (w : Pool (IngestPipeline S) (Call S)) :
    List Accepted := w.threads.filterMap (Call.packet p₀)

/-- A call holds nothing but what `p₀` makes of its own packet. -/
structure Sourced (p₀ : IngestPipeline S) (c : Call S) : Prop where
  long : c.phase.isAccepted = true → 12 ≤ c.raw.length
  frame : ∀ frame, c.phase.frame = some frame →
    ∃ pl, p₀.opened c.raw = .ok pl ∧ frame = p₀.frameOf c.raw pl
  result : ∀ r, c.phase = .returned (.ok r) → ∃ pl, p₀.opened c.raw = .ok pl ∧
    r.device_id = headerDevice c.raw ∧ r.scene_version = headerVersion c.raw ∧
    r.is_keyframe = isKeyframe pl

variable {p₀ : IngestPipeline S} {calls : List (CallClock × Bytes)}
  {w : Pool (IngestPipeline S) (Call S)}

theorem Coherent.mortonOf {p : IngestPipeline S} {c : Call S} (h : Coherent p₀ p c)
    (pl : Bytes) : p.mortonOf pl = p₀.mortonOf pl := by
  simp only [IngestPipeline.mortonOf, h.world_min, h.world_max]

/-- A section leaves its call with what `p₀` makes of its packet. -/
theorem Sourced.step {c c' : Call S} {p q : IngestPipeline S} (hc : Coherent p₀ p c)
    (h : Sourced p₀ c) (hstep : c.step p = some (c', q)) : Sourced p₀ c' := by
  obtain ⟨-, hraw, hadv⟩ := advances_of_step hstep
  obtain ⟨clock, raw, ph⟩ := c
  obtain ⟨clock', raw', ph'⟩ := c'
  obtain rfl : raw' = raw := hraw
  -- Most sections end the call with an error or pass its frame on.
  have hkeep : (ph'.isAccepted = true → ph.isAccepted = true) →
      (∀ frame, ph'.frame = some frame → ph.frame = some frame) →
      (∀ r, ph' ≠ .returned (.ok r)) → Sourced p₀ ⟨clock', raw', ph'⟩ :=
    fun hacc hframe hreturned ↦ ⟨fun h' ↦ h.long (hacc h'),
      fun frame hf ↦ h.frame frame (hframe frame hf), fun r hr ↦ absurd hr (hreturned r)⟩
  cases hadv with
  | malformed | undecryptable | refused | keyed =>
      exact hkeep (by intro h'; cases h') (by intro frame hf; cases hf) (by intro r hr; cases hr)
  | @stored _ header pl s hlen ho hs =>
      obtain rfl : header = p₀.headerOf raw' := hc.header header rfl
      have ho : p₀.opened raw' = .ok pl := ho
      refine ⟨fun _ ↦ hlen, ?_, ?_⟩
      · intro frame hf
        obtain rfl := Option.some.inj hf
        exact ⟨pl, ho, by simp only [frameUnder, hc.mortonOf]⟩
      · intro r hr
        cases hr
  | @returned _ frame =>
      obtain ⟨pl, ho, hframe⟩ := h.frame frame rfl
      refine ⟨fun _ ↦ h.long rfl, ?_, ?_⟩
      · intro frame' hf
        cases hf
      · intro r hr
        cases hr
        exact ⟨pl, ho, by rw [hframe]; rfl, by rw [hframe]; rfl, by rw [hframe]; rfl⟩
  | _ => exact hkeep (fun _ ↦ rfl) (fun frame hf ↦ hf) (by intro r hr; cases hr)

theorem sourced_of_reaches (h : Pool.Reaches Call.step (arrivals p₀ calls) w) :
    ∀ c ∈ w.threads, Sourced p₀ c := by
  induction h with
  | refl =>
      intro c hc
      obtain ⟨call, -, rfl⟩ := List.mem_map.mp hc
      exact ⟨(by intro hacc; cases hacc), (by intro frame hf; cases hf),
        (by intro r hr; cases hr)⟩
  | tail hv hs ih =>
      cases hs with
      | @mk p q c c' l₁ l₂ hstep =>
          have hmem : c ∈ l₁ ++ c :: l₂ := List.mem_append_right _ List.mem_cons_self
          intro d hd
          rcases List.mem_append.mp hd with hd | hd
          · exact ih d (List.mem_append_left _ hd)
          rcases List.mem_cons.mp hd with rfl | hd
          · exact (ih c hmem).step (coherent_of_reaches hv c hmem) hstep
          · exact ih d (List.mem_append_right _ (List.mem_cons_of_mem _ hd))

/-- The calls of a pool are those that were made. -/
theorem calls_of_reaches (h : Pool.Reaches Call.step (arrivals p₀ calls) w) :
    w.threads.map (fun c ↦ (c.clock, c.raw)) = calls := by
  have hkeep : ∀ (c : Call S) p c' q, c.step p = some (c', q) →
      (c'.clock, c'.raw) = (c.clock, c.raw) := by
    intro c p c' q hstep
    obtain ⟨hclock, hraw, -⟩ := advances_of_step hstep
    rw [hclock, hraw]
  rw [Pool.Reaches.map_threads (fun c : Call S ↦ (c.clock, c.raw)) hkeep h, arrivals,
    List.map_map]
  exact List.map_id calls

/-! ## Accepted packets -/

/-- The packet of an accepted call is what its payload opened to. -/
theorem packet_of_opened {c : Call S} {pl : Bytes} (hacc : c.phase.isAccepted = true)
    (ho : p₀.opened c.raw = .ok pl) :
    c.packet p₀ = some ⟨headerDevice c.raw, headerVersion c.raw, isKeyframe pl, pl⟩ := by
  rw [Call.packet, if_pos hacc, packetOf, ho]
  rfl

/-- An accepted call has a packet. -/
theorem Sourced.packet {c : Call S} (h : Sourced p₀ c) (hacc : c.phase.isAccepted = true) :
    ∃ pl, p₀.opened c.raw = .ok pl ∧ c.packet p₀
      = some ⟨headerDevice c.raw, headerVersion c.raw, isKeyframe pl, pl⟩ := by
  have hopen : ∃ pl, p₀.opened c.raw = .ok pl := by
    obtain ⟨clock, raw, ph⟩ := c
    cases ph with
    | arrived | keyed => cases hacc
    | returned res =>
        cases res with
        | error e => cases hacc
        | ok r =>
            obtain ⟨pl, ho, -⟩ := h.result r rfl
            exact ⟨pl, ho⟩
    | _ =>
        obtain ⟨pl, ho, -⟩ := h.frame _ rfl
        exact ⟨pl, ho⟩
  obtain ⟨pl, ho⟩ := hopen
  exact ⟨pl, ho, packet_of_opened hacc ho⟩

/-- The packet of a call is what opened. -/
theorem packet_inv {c : Call S} {a : Accepted} (h : c.packet p₀ = some a) :
    ∃ pl, p₀.opened c.raw = .ok pl ∧
      a = ⟨headerDevice c.raw, headerVersion c.raw, isKeyframe pl, pl⟩ := by
  unfold Call.packet at h
  split at h
  · unfold packetOf at h
    obtain ⟨pl, ho, rfl⟩ := Option.map_eq_some_iff.mp h
    cases hopen : p₀.opened c.raw with
    | error e =>
        rw [hopen] at ho
        cases ho
    | ok pl' =>
        rw [hopen] at ho
        obtain rfl := Option.some.inj ho
        exact ⟨pl', rfl, rfl⟩
  · cases h

/-- A frame is that of an accepted packet. -/
theorem Sourced.packet_of_frame {c : Call S} (h : Sourced p₀ c) {frame : Frame}
    (hf : c.phase.frame = some frame) : c.packet p₀ = some frame.accepted := by
  obtain ⟨pl, ho, rfl⟩ := h.frame frame hf
  have hacc : c.phase.isAccepted = true := by
    obtain ⟨clock, raw, ph⟩ := c
    cases ph with
    | arrived | keyed | returned => cases hf
    | _ => rfl
  exact packet_of_opened hacc ho

theorem mem_acceptedIn {a : Accepted} :
    a ∈ acceptedIn p₀ w ↔ ∃ c ∈ w.threads, c.packet p₀ = some a := List.mem_filterMap

/-- An accepted call stays accepted. -/
theorem packet_step {c c' : Call S} {p q : IngestPipeline S} (hstep : c.step p = some (c', q))
    {a : Accepted} (ha : c.packet p₀ = some a) : c'.packet p₀ = some a := by
  obtain ⟨-, hraw, hadv⟩ := advances_of_step hstep
  obtain ⟨clock, raw, ph⟩ := c
  obtain ⟨clock', raw', ph'⟩ := c'
  obtain rfl : raw' = raw := hraw
  cases hadv with
  | malformed | undecryptable | refused | keyed | stored => cases ha
  | _ => exact ha

/-- What has been accepted stays so. -/
theorem acceptedIn_step {c c' : Call S} {p q : IngestPipeline S} {l₁ l₂ : List (Call S)}
    (hstep : c.step p = some (c', q)) {a : Accepted}
    (ha : a ∈ acceptedIn p₀ ⟨p, l₁ ++ c :: l₂⟩) : a ∈ acceptedIn p₀ ⟨q, l₁ ++ c' :: l₂⟩ := by
  obtain ⟨d, hd, hpacket⟩ := mem_acceptedIn.mp ha
  rcases List.mem_append.mp hd with hd | hd
  · exact mem_acceptedIn.mpr ⟨d, List.mem_append_left _ hd, hpacket⟩
  rcases List.mem_cons.mp hd with rfl | hd
  · exact mem_acceptedIn.mpr
      ⟨c', List.mem_append_right _ List.mem_cons_self, packet_step hstep hpacket⟩
  · exact mem_acceptedIn.mpr
      ⟨d, List.mem_append_right _ (List.mem_cons_of_mem _ hd), hpacket⟩

/-! ## Records -/

/-- The records a call has written. -/
def Call.records (p₀ : IngestPipeline S) (self : Call S) : List SdfRecord :=
  recordsOf S p₀.world_min p₀.world_max (self.packet p₀).toList

/-- What the storage section makes of the storage, it makes by at most one call. -/
theorem stores_stored {p : IngestPipeline S} {v : UInt32} {pl : Bytes}
    {outcome : Except S.db.Error Unit} {s : S.db.SdfStorage} (h : p.stored v pl = (outcome, s)) :
    S.db.Stores p.sdf_storage
      (if StoresRecord pl then [⟨recordBetween S p.world_min p.world_max v pl, outcome.isOk⟩]
        else []) s := by
  by_cases hst : StoresRecord pl
  · rw [stored, if_pos hst] at h
    rw [if_pos hst]
    exact AliceDb.Stores.nil.snoc h
  · rw [stored, if_neg hst] at h
    obtain rfl : p.sdf_storage = s := (Prod.mk.inj h).2
    rw [if_neg hst]
    exact .nil

/-- A section writes what its call has written more than before. -/
theorem stores_step {c c' : Call S} {p q : IngestPipeline S} (hc : Coherent p₀ p c)
    (hstep : c.step p = some (c', q)) :
    ∃ cs, c'.records p₀ = c.records p₀ ++ written cs ∧
      S.db.Stores p.sdf_storage cs q.sdf_storage := by
  obtain ⟨-, hraw, hadv⟩ := advances_of_step hstep
  obtain ⟨clock, raw, ph⟩ := c
  obtain ⟨clock', raw', ph'⟩ := c'
  obtain rfl : raw' = raw := hraw
  have hnothing : ∀ {rs : List SdfRecord} {s : S.db.SdfStorage},
      ∃ cs, rs = rs ++ written cs ∧ S.db.Stores s cs s :=
    ⟨[], (List.append_nil _).symm, .nil⟩
  cases hadv with
  | @refused _ header pl e s hlen ho hs =>
      refine ⟨_, ?_, stores_stored hs⟩
      split <;> rfl
  | @stored _ header pl s hlen ho hs =>
      obtain rfl : header = p₀.headerOf raw' := hc.header header rfl
      have hpacket : Call.packet p₀ ⟨clock', raw', .stored (p.frameUnder (p₀.headerOf raw') pl)⟩
          = some ⟨headerDevice raw', headerVersion raw', isKeyframe pl, pl⟩ :=
        packet_of_opened rfl ho
      refine ⟨_, ?_, stores_stored hs⟩
      rw [Call.records, hpacket, Option.toList_some, recordsOf_singleton, hc.world_min,
        hc.world_max]
      split <;> rfl
  | _ => exact hnothing

theorem flatMap_records (w : Pool (IngestPipeline S) (Call S)) :
    w.threads.flatMap (Call.records p₀)
      = recordsOf S p₀.world_min p₀.world_max (acceptedIn p₀ w) := by
  unfold acceptedIn
  induction w.threads with
  | nil => rfl
  | cons c l ih =>
      rw [List.flatMap_cons, ih, Call.records, ← recordsOf_append, List.filterMap_cons]
      cases c.packet p₀ <;> rfl

/-- **Records under concurrency.**  At any moment of any interleaving, the storage is what
some calls of `store_keyframe` have made of it, and these have written the records of the
accepted packets, each once. -/
theorem stores_of_reaches (h : Pool.Reaches Call.step (arrivals p₀ calls) w) :
    ∃ cs, S.db.Stores p₀.sdf_storage cs w.shared.sdf_storage ∧
      (written cs).Perm (recordsOf S p₀.world_min p₀.world_max (acceptedIn p₀ w)) := by
  have hnone : (arrivals p₀ calls).threads.flatMap (Call.records p₀) = [] := by
    apply List.flatMap_eq_nil_iff.mpr
    intro c hc
    obtain ⟨call, -, rfl⟩ := List.mem_map.mp hc
    rfl
  obtain ⟨rs, hperm, cs, rfl, hstores⟩ := h.traced (J := Coherent p₀)
    (fun p ↦ p.sdf_storage)
    (fun s rs s' ↦ ∃ cs, rs = written cs ∧ S.db.Stores s cs s') (Call.records p₀)
    (fun s ↦ ⟨[], rfl, .nil⟩)
    (by
      rintro s _ s' _ s'' ⟨cs, rfl, h⟩ ⟨cs', rfl, h'⟩
      exact ⟨cs ++ cs', (written_append _ _).symm, h.append h'⟩)
    (by
      intro c p c' q hc hstep
      obtain ⟨cs, hrecords, hstores⟩ := stores_step hc hstep
      exact ⟨_, hrecords, cs, rfl, hstores⟩)
    fun v hv ↦ coherent_of_reaches hv
  rw [hnone, List.nil_append, flatMap_records] at hperm
  exact ⟨cs, hstores, hperm⟩

/-! ## Cached frames -/

/-- The entries `m` of the frame cache are those it had, and payloads of packets accepted
under their keys. -/
structure CacheSourced (p₀ : IngestPipeline S) (m₀ : UInt64 → Option Bytes)
    (w : Pool (IngestPipeline S) (Call S)) (m : UInt64 → Option Bytes) : Prop where
  entries : S.cache.Represents w.shared.frame_cache m
  sourced : ∀ k pl, m k = some pl →
    m₀ k = some pl ∨ ∃ a ∈ acceptedIn p₀ w, a.key = k ∧ a.payload = pl

theorem cacheSourced_of_reaches {m₀ : UInt64 → Option Bytes}
    (hrep : S.cache.Represents p₀.frame_cache m₀)
    (h : Pool.Reaches Call.step (arrivals p₀ calls) w) : ∃ m, CacheSourced p₀ m₀ w m := by
  induction h with
  | refl => exact ⟨m₀, hrep, fun k pl hk ↦ Or.inl hk⟩
  | tail hv hs ih =>
      obtain ⟨m, hentries, hsourced⟩ := ih
      cases hs with
      | @mk p q c c' l₁ l₂ hstep =>
          have hc : Sourced p₀ c :=
            sourced_of_reaches hv c (List.mem_append_right _ List.mem_cons_self)
          -- A section that writes nothing leaves the entries and their sources.
          have hkeep : S.cache.Represents q.frame_cache m →
              ∃ m, CacheSourced p₀ m₀ ⟨q, l₁ ++ c' :: l₂⟩ m := by
            intro hm
            refine ⟨m, hm, fun k pl hk ↦ ?_⟩
            rcases hsourced k pl hk with hold | ⟨a, ha, hkey, hpl⟩
            · exact Or.inl hold
            · exact Or.inr ⟨a, acceptedIn_step hstep ha, hkey, hpl⟩
          obtain ⟨-, hraw, hadv⟩ := advances_of_step hstep
          obtain ⟨clock, raw, ph⟩ := c
          obtain ⟨clock', raw', ph'⟩ := c'
          obtain rfl : raw' = raw := hraw
          cases hadv with
          | looked => exact hkeep (hentries.get _)
          | @cached _ frame =>
              refine ⟨_, hentries.put frame.accepted.key frame.accepted.payload, ?_⟩
              intro k pl hk
              by_cases hkey : k = frame.accepted.key
              · subst hkey
                rw [Function.update_self] at hk
                obtain rfl := Option.some.inj hk
                refine Or.inr ⟨frame.accepted, mem_acceptedIn.mpr ⟨_,
                  List.mem_append_right _ List.mem_cons_self, ?_⟩, rfl, rfl⟩
                exact packet_step hstep (hc.packet_of_frame rfl)
              · rw [Function.update_of_ne hkey] at hk
                rcases hsourced k pl hk with hold | ⟨a, ha, hkey, hpl⟩
                · exact Or.inl hold
                · exact Or.inr ⟨a, acceptedIn_step hstep ha, hkey, hpl⟩
          | _ => exact hkeep hentries

/-- Over a sound cache, what is answered under a key was there from the start or is the
payload of a packet accepted under that key. -/
theorem cached_of_reaches (hcache : S.cache.Sound) {m₀ : UInt64 → Option Bytes}
    (hrep : S.cache.Represents p₀.frame_cache m₀)
    (h : Pool.Reaches Call.step (arrivals p₀ calls) w) {k : UInt64} {pl : Bytes}
    (hget : (S.cache.get w.shared.frame_cache k).1 = some pl) :
    m₀ k = some pl ∨ ∃ a ∈ acceptedIn p₀ w, a.key = k ∧ a.payload = pl := by
  obtain ⟨m, hentries, hsourced⟩ := cacheSourced_of_reaches hrep h
  rcases hcache.get hentries k with hnone | hsome
  · rw [hnone] at hget
    cases hget
  · exact hsourced k pl (hsome.symm.trans hget)

/-! ## The law -/

theorem cachedFrame_of_reaches (hcache : S.cache.Sound) {path : String} {cap : ℕ}
    {secret : Bytes32} {lo hi : Vec3}
    (hnew : IngestPipeline.new S path cap secret lo hi = .ok p₀)
    (h : Pool.Reaches Call.step (arrivals p₀ calls) w) {d : UInt64} {v : UInt32} {pl : Bytes}
    (hget : (w.shared.getCachedFrame d v).1 = some pl) : ∃ a ∈ acceptedIn p₀ w,
      a.device_id.toNat % 2 ^ 32 = d.toNat % 2 ^ 32 ∧ a.scene_version = v ∧ a.payload = pl := by
  have hrep : S.cache.Represents p₀.frame_cache fun _ ↦ none := by
    rw [(frame_cache_of_new hnew).1]
    exact CacheApi.Represents.new cap
  rcases cached_of_reaches hcache hrep h hget with hnone | ⟨a, ha, hkey, hpl⟩
  · cases hnone
  · obtain ⟨hd, hv⟩ := cacheKey_eq_iff.mp hkey
    exact ⟨a, ha, hd, hv, hpl⟩

/-- A call that has returned `Ok` reports its own packet. -/
theorem result_of_reaches (h : Pool.Reaches Call.step (arrivals p₀ calls) w) {c : Call S}
    (hc : c ∈ w.threads) {r : IngestResult} (hr : c.phase = .returned (.ok r)) :
    ∃ a, c.packet p₀ = some a ∧ r.device_id = a.device_id ∧
      r.scene_version = a.scene_version ∧ r.is_keyframe = a.is_keyframe := by
  have hsourced := sourced_of_reaches h c hc
  obtain ⟨pl, ho, hd, hv, hk⟩ := hsourced.result r hr
  obtain ⟨pl', ho', hpacket⟩ := hsourced.packet (by rw [hr]; rfl)
  obtain rfl := Except.ok.inj (ho.symm.trans ho')
  exact ⟨_, hpacket, hd, hv, hk⟩

/-- **Provenance under concurrency.**  At any moment of any interleaving of calls on a new
pipeline, the storage is what some calls of `store_keyframe` have made of it, which have
written exactly one record for each accepted keyframe with data; whatever the frame cache
answers for a device and version is the payload of a packet accepted with that version and
the low half of that device id; and a call that has returned `Ok` reports its own packet. -/
theorem provenance_of_reaches (hcache : S.cache.Sound) {path : String} {cap : ℕ}
    {secret : Bytes32} {lo hi : Vec3} {p₀ : IngestPipeline S}
    (hnew : IngestPipeline.new S path cap secret lo hi = .ok p₀)
    {calls : List (CallClock × Bytes)} {w : Pool (IngestPipeline S) (Call S)}
    (h : Pool.Reaches Call.step (arrivals p₀ calls) w) :
    (∃ cs, S.db.Stores p₀.sdf_storage cs w.shared.sdf_storage ∧
      (written cs).Perm (recordsOf S p₀.world_min p₀.world_max (acceptedIn p₀ w))) ∧
    (∀ d v pl, (w.shared.getCachedFrame d v).1 = some pl → ∃ a ∈ acceptedIn p₀ w,
      a.device_id.toNat % 2 ^ 32 = d.toNat % 2 ^ 32 ∧ a.scene_version = v ∧
      a.payload = pl) ∧
    ∀ c ∈ w.threads, ∀ r, c.phase = .returned (.ok r) → ∃ a, c.packet p₀ = some a ∧
      r.device_id = a.device_id ∧ r.scene_version = a.scene_version ∧
      r.is_keyframe = a.is_keyframe :=
  ⟨stores_of_reaches h, fun _ _ _ hget ↦ cachedFrame_of_reaches hcache hnew h hget,
    fun _ hc _ hr ↦ result_of_reaches h hc hr⟩

/-- Two keyframes stored at the same time, of which one is cached. -/
theorem provenance_of_reaches_inMemory :
    let body (d : UInt64) := (deviceKey AliceCrypto.inMemory (.replicate 32 42) d).toList
      ++ [1, 0, 0, 0, d.toUInt8]
    let calls := [(⟨0, 0, 0, 0⟩, packet 1 5 (body 1)), (⟨0, 0, 0, 0⟩, packet 2 5 (body 2))]
    ∃ w cs, Pool.Reaches Call.step (arrivals inMemory calls) w ∧
      AliceDb.inMemory.Stores [] cs w.shared.sdf_storage ∧
      (written cs).Perm (recordsOf .inMemory inMemory.world_min inMemory.world_max
        (acceptedIn inMemory w)) ∧
      w.shared.sdf_storage.length = 2 ∧ ∃ a ∈ acceptedIn inMemory w,
        a.device_id.toNat % 2 ^ 32 = 1 ∧ a.payload = [1, 0, 0, 0, 1] := by
  intro body calls
  have hrun : (Pool.schedule Call.step (fun _ ↦ True) (arrivals inMemory calls)
      [0, 1, 1, 0, 0, 0, 0]).map (fun w ↦ (w.shared.sdf_storage.length,
        (w.shared.getCachedFrame 1 5).1)) = some (2, some [1, 0, 0, 0, 1]) := by
    decide +kernel
  obtain ⟨w, hw, heq⟩ := Option.map_eq_some_iff.mp hrun
  obtain ⟨hlength, hcached⟩ := Prod.mk.inj heq
  have hreach := (Pool.reachesWithin_of_schedule hw).reaches
  obtain ⟨⟨cs, hstores, hrecords⟩, hframes, -⟩ := provenance_of_reaches
    (mapCache_lossless UInt64 Bytes).sound (new_inMemory "db" 1000) hreach
  obtain ⟨a, ha, hd, -, hpl⟩ := hframes 1 5 _ hcached
  exact ⟨w, cs, hreach, hstores, hrecords, hlength, a, ha, hd, hpl⟩

end IngestPipeline

end CloudGateway
