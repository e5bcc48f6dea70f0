import CloudGateway.HeavySlot.Fifo

/-!
# As many as there are slots

Over all runs of all processes, a slot is in the hands of one keeper when its lock is held and
of none when it is not, so that no more heavy runs go on at a time than there are slots, and a
keeper that is killed leaves its slot to the next (`slots_of_reaches`).
-/

namespace CloudGateway

namespace HeavySlot

namespace Process

variable {ks : List Process} {w : Pool Machine Process}

/-- A pid in the process table is that of a process. -/
theorem exists_of_running (h : Pool.Reaches step ⟨Machine.empty, ks⟩ w) :
    ∀ p ∈ w.shared.running, ∃ k ∈ w.threads, k.isRunning = true ∧ k.pid = p := by
  induction h with
  | refl => exact fun p hp ↦ absurd hp (Finset.notMem_empty p)
  | tail _ hs ih =>
      cases hs with
      | @mk m m' k k' l₁ l₂ h =>
          obtain ⟨phase, fate, rfl, hmoves⟩ := step_inv h
          intro p hp
          rcases eq_or_ne p k.pid with rfl | hne
          · refine ⟨_, List.mem_append_right _ List.mem_cons_self, ?_, rfl⟩
            cases hmoves with
            | fork | clock | work => rfl
            | exit => exact absurd hp (Finset.notMem_erase _ _)
          · obtain ⟨u, hu, hrunning, rfl⟩ := ih p ((hmoves.frame.running p hne).mp hp)
            refine ⟨u, ?_, hrunning, rfl⟩
            rcases List.mem_append.mp hu with hu | hu
            · exact List.mem_append_left _ hu
            · rcases List.mem_cons.mp hu with rfl | hu
              · exact absurd rfl hne
              · exact List.mem_append_right _ (List.mem_cons_of_mem _ hu)

/-- A slot is one of the keeper's. -/
theorem slot_lt_of_reaches {n : ℕ} (hks : ∀ k ∈ ks, k.phase = .unborn)
    (hn : ∀ k ∈ ks, k.slots ≤ n) (h : Pool.Reaches step ⟨Machine.empty, ks⟩ w) :
    ∀ k ∈ w.threads, k.slots ≤ n ∧ ∀ j, k.slot? = some j → j < n := by
  refine h.forall_threads (J := fun _ k ↦ k.slots ≤ n ∧ ∀ j, k.slot? = some j → j < n) ?_
    (fun _ _ _ _ _ _ hu ↦ hu) ?_
  · rintro k m k' m' hstep ⟨hslots, hslot⟩
    obtain ⟨phase, fate, rfl, hmoves⟩ := step_inv hstep
    refine ⟨hslots, fun j hj ↦ ?_⟩
    cases hmoves with
    | fork | clock | exit => cases hj
    | work hk hwork =>
        rw [slot?, hk] at hslot
        cases hwork with
        | flock hlt =>
            obtain rfl := Option.some.inj hj
            exact hlt.trans_le hslots
        | dequeue | sleep => exact hslot j hj
        | create | enter | opendir | readdir | live | gone | first | behind | unlink | busy
        | full | again | leave | clean => cases hj
  · intro k hk
    refine ⟨hn k hk, fun j hj ↦ ?_⟩
    rw [slot?, hks k hk] at hj
    cases hj

/-- The slots that keepers have. -/
def slotsHeld (ks : List Process) : List ℕ := ks.filterMap slot?

/-- No two keepers have one slot. -/
theorem nodup_slotsHeld (hks : ∀ k ∈ ks, k.phase = .unborn)
    (h : Pool.Reaches step ⟨Machine.empty, ks⟩ w) : (slotsHeld w.threads).Nodup := by
  obtain ⟨hsound, hapart⟩ := sound_of_reaches hks h
  refine List.pairwise_filterMap.mpr (hapart.imp_of_mem fun {k u} hk hu hku j hj i hi heq ↦ ?_)
  subst heq
  have hk' := isRunning_of_slot hj
  have hu' := isRunning_of_slot hi
  have hlock := ((hsound k hk).slot hk' j).mpr hj
  rw [((hsound u hu).slot hu' j).mpr hi] at hlock
  exact hku.1.pids hk' hu' (Option.some.inj hlock).symm

/-- A lock is held by a keeper that has the slot. -/
theorem mem_slotsHeld_iff (hks : ∀ k ∈ ks, k.phase = .unborn)
    (h : Pool.Reaches step ⟨Machine.empty, ks⟩ w) (j : ℕ) :
    j ∈ slotsHeld w.threads ↔ (w.shared.locks j).isSome = true := by
  obtain ⟨hsound, -⟩ := sound_of_reaches hks h
  rw [slotsHeld, List.mem_filterMap, Option.isSome_iff_exists]
  constructor
  · rintro ⟨k, hk, hj⟩
    exact ⟨k.pid, ((hsound k hk).slot (isRunning_of_slot hj) j).mpr hj⟩
  · rintro ⟨p, hp⟩
    obtain ⟨k, hk, hrunning, rfl⟩ :=
      exists_of_running h p ((machine_of_reaches hks h).locks j p hp)
    exact ⟨k, hk, ((hsound k hk).slot hrunning j).mp hp⟩

/-- **One keeper to a slot.**  One keeper has a slot when its lock is held, and none when it is
free; and no more keepers have slots than the largest number of slots that one of them knows
of. -/
theorem slots_of_reaches {n : ℕ} (hks : ∀ k ∈ ks, k.phase = .unborn)
    (hn : ∀ k ∈ ks, k.slots ≤ n) (h : Pool.Reaches step ⟨Machine.empty, ks⟩ w) :
    (∀ j, w.threads.countP (fun k ↦ k.slot? == some j)
      = if (w.shared.locks j).isSome then 1 else 0) ∧
    w.threads.countP (fun k ↦ k.slot?.isSome) ≤ n := by
  have hnodup := nodup_slotsHeld hks h
  constructor
  · intro j
    rw [← List.count_filterMap]
    show (slotsHeld w.threads).count j = _
    rw [hnodup.count]
    simp only [mem_slotsHeld_iff hks h j]
  · have hsub : slotsHeld w.threads ⊆ List.range n := fun j hj ↦ by
      obtain ⟨k, hk, hslot⟩ := List.mem_filterMap.mp hj
      exact List.mem_range.mpr ((slot_lt_of_reaches hks hn h k hk).2 j hslot)
    rw [← List.length_filterMap_eq_countP]
    exact (hnodup.subperm hsub).length_le.trans_eq List.length_range

/-- Two keepers with one slot: the one with pid 8 is killed when it has just taken it, and the
other one gets it. -/
theorem slots_of_reaches_two :
    let names := [ticketName 200 7, ticketName 100 8]
    let second : Process := ⟨7, 1, [.ok, .clock 200, .ok, .ok, .ok, .found names, .ok, .ok, .ok,
      .ok, .ok], .unborn⟩
    let first : Process := ⟨8, 1, [.ok, .clock 100, .ok, .ok, .ok, .found names, .ok, .ok, .ok,
      .ok, .killed], .unborn⟩
    ∃ w : Pool Machine Process, Pool.Reaches step ⟨Machine.empty, [second, first]⟩ w ∧
      w.shared.locks 0 = some 7 ∧ w.threads.countP (fun k ↦ k.slot? == some 0) = 1 ∧
      w.threads.countP (fun k ↦ k.slot?.isSome) ≤ 1 := by
  intro names second first
  have hw : (Pool.schedule step (fun _ ↦ True) ⟨Machine.empty, [second, first]⟩
      [0, 0, 0, 0, 1, 1, 1, 1, 1, 1, 1, 1, 1, 1, 1, 0, 0, 0, 0, 0, 0, 0]).map
        (fun w ↦ w.shared.locks 0) = some (some 7) := by decide +kernel
  obtain ⟨w, hrun, hlock⟩ := Option.map_eq_some_iff.mp hw
  have hreaches := (Pool.reachesWithin_of_schedule hrun).reaches
  obtain ⟨hone, htotal⟩ := slots_of_reaches (n := 1) (by decide) (by decide) hreaches
  refine ⟨w, hreaches, hlock, ?_, htotal⟩
  rw [hone, hlock]
  rfl

end Process

end HeavySlot

end CloudGateway
