import CloudGateway.Ingest.Provenance

/-!
# Rejected packets

A packet that is rejected has been looked at: its device is in the key cache.  Otherwise
it has not been there, whatever the other calls were doing meanwhile: take the rejected
calls out of any interleaving, and what is left is an interleaving of the remaining calls,
in which each of them comes exactly as far, with the same results, and leaves the same
pipeline but for the key cache (`rejected_invisible`).

A sequence of packets that do not open can therefore delay the others, and fill the key
cache, but not change what any of them does.
-/

namespace CloudGateway

open LittleEndian

variable {S : Siblings}

namespace IngestPipeline

/-- The call has returned an error. -/
def Phase.isRejected : Phase S → Bool
  | .returned (.error _) => true
  | _ => false

/-- The call can still return an error. -/
def Phase.MayReject : Phase S → Prop
  | .arrived | .keyed _ | .returned (.error _) => True
  | _ => False

/-- The pipelines are the same but for the key cache, which holds no more devices in
`q`. -/
structure SameButKeys (p q : IngestPipeline S) : Prop where
  eq : q = { p with key_store := q.key_store }
  secret : q.key_store.master_secret = p.key_store.master_secret
  keys : ∀ d ∈ q.key_store.key_cache, d ∈ p.key_store.key_cache

theorem SameButKeys.refl (p : IngestPipeline S) : SameButKeys p p := ⟨rfl, rfl, fun _ h ↦ h⟩

/-- A rejected call was never anything but a call that may be. -/
theorem mayReject_of_step {c c' : Call S} {p q : IngestPipeline S}
    (h : c.step p = some (c', q)) (hc : c'.phase.MayReject) : c.phase.MayReject := by
  obtain ⟨-, -, hadv⟩ := advances_of_step h
  obtain ⟨clock, raw, ph⟩ := c
  obtain ⟨clock', raw', ph'⟩ := c'
  cases hadv with
  | malformed | keyed | undecryptable | refused => trivial
  | _ => cases hc

/-- What a call that may be rejected has done is to look up a key. -/
theorem silent_of_mayReject
    (hfail : ∀ s m v x e s', S.db.storeKeyframe s m v x = (.error e, s') → s' = s)
    {c c' : Call S} {p p' q : IngestPipeline S} (h : c.step p = some (c', p'))
    (hc : c'.phase.MayReject) (hpq : SameButKeys p q) : SameButKeys p' q := by
  obtain ⟨-, -, hadv⟩ := advances_of_step h
  obtain ⟨clock, raw, ph⟩ := c
  obtain ⟨clock', raw', ph'⟩ := c'
  cases hadv with
  | malformed | undecryptable => exact hpq
  | keyed hlen =>
      refine ⟨hpq.eq, ?_, fun d hd ↦ ?_⟩
      · rw [hpq.secret, keyed_key_store, DeviceKeyStore.master_secret_deriveDeviceKey]
      · rw [keyed_key_store, DeviceKeyStore.mem_deriveDeviceKey]
        exact Or.inr (hpq.keys d hd)
  | @refused _ header pl e s hlen ho hs =>
      obtain ⟨hst, -⟩ := stored_fst_error.mp (congrArg Prod.fst hs)
      rw [stored, if_pos hst] at hs
      obtain rfl := hfail _ _ _ _ _ _ hs
      exact hpq
  | _ => cases hc

/-- A section does the same whatever the key cache. -/
theorem step_sameButKeys {c c' : Call S} {p p' q : IngestPipeline S}
    (h : c.step p = some (c', p')) (hpq : SameButKeys p q) :
    ∃ q', c.step q = some (c', q') ∧ SameButKeys p' q' := by
  obtain ⟨hclock, hraw, hadv⟩ := advances_of_step h
  obtain ⟨clock, raw, ph⟩ := c
  obtain ⟨clock', raw', ph'⟩ := c'
  obtain rfl : clock' = clock := hclock
  obtain rfl : raw' = raw := hraw
  obtain ⟨heq, hsecret, hkeys⟩ := hpq
  obtain ⟨ks, rfl⟩ : ∃ ks, q = { p with key_store := ks } := ⟨_, heq⟩
  have hdo : ∀ {q'}, Advances clock' raw' ph { p with key_store := ks } ph' q' →
      SameButKeys p' q' → ∃ q', Call.step ⟨clock', raw', ph⟩ { p with key_store := ks }
        = some (⟨clock', raw', ph'⟩, q') ∧ SameButKeys p' q' :=
    fun hq hsame ↦ ⟨_, step_of_advances hq, hsame⟩
  have hsame : SameButKeys p { p with key_store := ks } := ⟨rfl, hsecret, hkeys⟩
  cases hadv with
  | malformed hlen => exact hdo (.malformed hlen) hsame
  | keyed hlen =>
      have hheader : p.headerOf raw'
          = ({ p with key_store := ks } : IngestPipeline S).headerOf raw' :=
        headerOf_congr hsecret.symm raw'
      rw [hheader] at hdo ⊢
      refine hdo (.keyed hlen) ⟨rfl, ?_, fun d hd ↦ ?_⟩
      · rw [keyed_key_store, keyed_key_store, DeviceKeyStore.master_secret_deriveDeviceKey,
          DeviceKeyStore.master_secret_deriveDeviceKey]
        exact hsecret
      · rw [keyed_key_store, DeviceKeyStore.mem_deriveDeviceKey] at hd ⊢
        exact hd.imp_right (hkeys d)
  | undecryptable hlen ho => exact hdo (.undecryptable hlen ho) hsame
  | refused hlen ho hs => exact hdo (.refused hlen ho hs) ⟨rfl, hsecret, hkeys⟩
  | stored hlen ho hs => exact hdo (.stored hlen ho hs) ⟨rfl, hsecret, hkeys⟩
  | routed => exact hdo .routed hsame
  | looked => exact hdo .looked ⟨rfl, hsecret, hkeys⟩
  | cached => exact hdo .cached ⟨rfl, hsecret, hkeys⟩
  | synced => exact hdo .synced ⟨rfl, hsecret, hkeys⟩
  | queued => exact hdo .queued ⟨rfl, hsecret, hkeys⟩
  | recorded => exact hdo .recorded ⟨rfl, hsecret, hkeys⟩
  | returned => exact hdo .returned ⟨rfl, hsecret, hkeys⟩

/-- The calls of a pool that have not been rejected. -/
def survivors (w : Pool (IngestPipeline S) (Call S)) : List (Call S) :=
  w.threads.filter fun c ↦ !c.phase.isRejected

/-- **Rejected packets are invisible.**  Over a storage that a failed store leaves alone,
take the calls that are rejected out of any interleaving of any calls: what is left is an
interleaving of the other calls, in which each has come as far and holds and returns the
same, and the pipeline is the same but for the key cache, which holds no more devices. -/
theorem rejected_invisible
    (hfail : ∀ s m v x e s', S.db.storeKeyframe s m v x = (.error e, s') → s' = s)
    {p₀ : IngestPipeline S} {calls : List (CallClock × Bytes)}
    {w : Pool (IngestPipeline S) (Call S)}
    (h : Pool.Reaches Call.step (arrivals p₀ calls) w) :
    ∃ q, Pool.Reaches Call.step
        (arrivals p₀ ((survivors w).map fun c ↦ (c.clock, c.raw))) ⟨q, survivors w⟩ ∧
      q = { w.shared with key_store := q.key_store } ∧
      q.key_store.master_secret = w.shared.key_store.master_secret ∧
      ∀ d ∈ q.key_store.key_cache, d ∈ w.shared.key_store.key_cache := by
  have hgone : ∀ c : Call S, c.phase.isRejected = true → c.phase.MayReject := by
    rintro ⟨clock, raw, ph⟩ hc
    cases ph with
    | returned res =>
        cases res with
        | error e => trivial
        | ok r => cases hc
    | _ => cases hc
  obtain ⟨-, hrun⟩ := h.erase (fun c : Call S ↦ c.phase.isRejected)
    (fun c ↦ c.phase.MayReject) SameButKeys hgone
    (fun c p c' p' hstep ↦ mayReject_of_step hstep)
    (fun c p c' p' q hstep ↦ silent_of_mayReject hfail hstep)
    (fun c p c' p' q hstep ↦ step_sameButKeys hstep)
  obtain ⟨q, hq, hreach⟩ := hrun p₀ (.refl p₀)
  have harrived : (arrivals p₀ calls).threads
      = w.threads.map fun c ↦ Call.arrive (c.clock, c.raw) := by
    rw [arrivals, ← calls_of_reaches h, List.map_map]
    rfl
  rw [harrived, Pool.kept_map] at hreach
  refine ⟨q, ?_, hq.eq, hq.secret, hq.keys⟩
  rw [arrivals, List.map_map]
  exact hreach

/-- A delta between whose sections a packet of device 7 is rejected: without it there are
the same one call and the same pipeline, and device 7 is not in the key cache. -/
theorem rejected_invisible_inMemory :
    let delta := packet 1 5 ((deviceKey AliceCrypto.inMemory (.replicate 32 42) 1).toList
      ++ [2, 7])
    let clock : CallClock := ⟨0, 0, 0, 0⟩
    ∃ w q, Pool.Reaches Call.step (arrivals inMemory [(clock, packet 7 1 []), (clock, delta)]) w ∧
      Finished w ∧ (7 : UInt64) ∈ w.shared.key_store.key_cache ∧
      Pool.Reaches Call.step (arrivals inMemory [(clock, delta)]) ⟨q, survivors w⟩ ∧
      q = { w.shared with key_store := q.key_store } := by
  intro delta clock
  have hrun : (Pool.schedule Call.step (fun _ ↦ True)
      (arrivals inMemory [(clock, packet 7 1 []), (clock, delta)])
      [1, 0, 1, 1, 0, 1, 1, 1, 1, 1, 1]).map (fun w ↦ decide (Finished w ∧
        (w.shared.key_store.key_cache.lookup 7).isSome = true ∧
        (survivors w).map (fun c ↦ (c.clock, c.raw)) = [(clock, delta)])) = some true := by
    decide +kernel
  obtain ⟨w, hw, heq⟩ := Option.map_eq_some_iff.mp hrun
  obtain ⟨hfin, hkey, hsurvivors⟩ := of_decide_eq_true heq
  have hreach := (Pool.reachesWithin_of_schedule hw).reaches
  obtain ⟨q, hrest, hsame, -⟩ := rejected_invisible AliceDb.inMemory_failed hreach
  rw [hsurvivors] at hrest
  exact ⟨w, q, hreach, hfin, Finmap.lookup_isSome.mp hkey, hrest, hsame⟩

end IngestPipeline

end CloudGateway
