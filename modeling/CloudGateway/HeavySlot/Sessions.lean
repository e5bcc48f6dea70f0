import CloudGateway.HeavySlot.Fifo

/-!
# Holders

The shells of `scripts/preflight.sh` with their keepers, and the files `info.<k>` in which a
holder leaves its pid.  Over all runs, a shell that runs in a slot is named by the file of the
slot for as long as it runs, whoever else comes, goes or is killed (`named_of_reaches`), so
that a nested run finds its holder there and does not queue behind it.

What it rests on is the order of `heavy_slot_release`, the file first and then the keeper, and
that a keeper which has a slot does not end before its shell.
-/

namespace CloudGateway

namespace HeavySlot

/-- Where a shell is in `heavy_slot_acquire` and `heavy_slot_release`. -/
inductive Shell
  /-- It reads what its keeper prints. -/
  | reads
  /-- It has read `held <k>`: the redirection to `info.<k>` empties the file. -/
  | got (k : ℕ)
  /-- `printf` writes the file. -/
  | writes (k : ℕ)
  /-- The run itself, in slot `k`. -/
  | runs (k : ℕ)
  /-- `rm -f` of the file is done: `kill` the keeper. -/
  | removed (k : ℕ)
  | ended
deriving DecidableEq

/-- Whose step is next. -/
inductive Turn
  | shell
  | keeper
  /-- The shell is killed, or gives up. -/
  | dies
deriving DecidableEq

/-- A shell with its keeper. -/
structure Session where
  pid : ℕ
  shell : Shell
  keeper : Process
  turns : List Turn
deriving DecidableEq

/-- The machine, with the first lines of the files `info.<k>`. -/
structure Directory where
  machine : Machine
  info : ℕ → Option ℕ

namespace Session

/-- The slot that the shell knows it has. -/
def slot? (s : Session) : Option ℕ :=
  match s.shell with
  | .got k | .writes k | .runs k | .removed k => some k
  | .reads | .ended => none

/-- What the shell does next. -/
def act (s : Session) (info : ℕ → Option ℕ) : Option (Shell × (ℕ → Option ℕ)) :=
  match s.shell with
  | .reads =>
      match s.keeper.phase with
      | .keeping _ (.holds _ k) => some (.got k, info)
      | _ => none
  | .got k => some (.writes k, Function.update info k none)
  | .writes k => some (.runs k, Function.update info k (some s.pid))
  | .runs k => some (.removed k, Function.update info k none)
  | .removed _ => some (.ended, info)
  | .ended => none

/-- The next step of a session.  A keeper with a slot goes on until its shell is gone, or has
killed it. -/
def step (s : Session) (d : Directory) : Option (Session × Directory) :=
  match s.turns with
  | .shell :: turns =>
      (s.act d.info).map fun r ↦
        ({ s with shell := r.1, turns := turns }, { d with info := r.2 })
  | .keeper :: turns =>
      (s.keeper.step d.machine).bind fun r ↦
        if s.keeper.slot?.isSome ∧ r.1.slot? = none ∧ s.shell ≠ .ended then none
        else some ({ s with keeper := r.1, turns := turns }, { d with machine := r.2 })
  | .dies :: turns => some ({ s with shell := .ended, turns := turns }, d)
  | [] => none

variable {s u s' : Session} {d d' : Directory}

/-! ## Steps -/

/-- What a session can do next. -/
inductive Moves (s : Session) (d : Directory) : Shell → Process → Directory → Prop
  | read {micros : ℕ} {since : Finset (List Char)} {k : ℕ}
      (hshell : s.shell = .reads) (hkeeper : s.keeper.phase = .keeping micros (.holds since k)) :
      Moves s d (.got k) s.keeper d
  | empty {k : ℕ} (hshell : s.shell = .got k) :
      Moves s d (.writes k) s.keeper { d with info := Function.update d.info k none }
  | write {k : ℕ} (hshell : s.shell = .writes k) :
      Moves s d (.runs k) s.keeper { d with info := Function.update d.info k (some s.pid) }
  | remove {k : ℕ} (hshell : s.shell = .runs k) :
      Moves s d (.removed k) s.keeper { d with info := Function.update d.info k none }
  | ends : Moves s d .ended s.keeper d
  | keeper {keeper' : Process} {m' : Machine} (h : s.keeper.step d.machine = some (keeper', m'))
      (hslot : s.keeper.slot?.isSome = true → keeper'.slot? = none → s.shell = .ended) :
      Moves s d s.shell keeper' { d with machine := m' }

theorem step_inv (h : s.step d = some (s', d')) :
    ∃ shell keeper turns, s' = { s with shell := shell, keeper := keeper, turns := turns } ∧
      s.Moves d shell keeper d' := by
  unfold step at h
  split at h
  · obtain ⟨⟨shell, info⟩, hact, heq⟩ := Option.map_eq_some_iff.mp h
    cases heq
    refine ⟨shell, s.keeper, _, rfl, ?_⟩
    unfold act at hact
    split at hact
    · split at hact <;> cases hact
      exact .read ‹_› ‹_›
    · cases hact
      exact .empty ‹_›
    · cases hact
      exact .write ‹_›
    · cases hact
      exact .remove ‹_›
    · cases hact
      exact .ends
    · cases hact
  · obtain ⟨⟨keeper', m'⟩, hkeeper, hite⟩ := Option.bind_eq_some_iff.mp h
    split at hite <;> cases hite
    rename_i hslot
    refine ⟨s.shell, keeper', _, rfl, .keeper hkeeper fun hhad hhas ↦ ?_⟩
    by_contra hshell
    exact hslot ⟨hhad, hhas, hshell⟩
  · cases h
    exact ⟨_, _, _, rfl, .ends⟩
  · cases h

/-! ## What a session knows -/

/-- What a shell with its keeper can say. -/
structure Sound (d : Directory) (s : Session) : Prop where
  keeper : s.keeper.Sound d.machine
  slot : ∀ k, s.slot? = some k → s.keeper.slot? = some k
  named : ∀ k, s.shell = .runs k → d.info k = some s.pid

/-- A keeper that has a slot keeps it until it ends. -/
theorem slot_of_step {k k' : Process} {m m' : Machine} {j : ℕ} (h : k.step m = some (k', m'))
    (hj : k.slot? = some j) : k'.slot? = some j ∨ k'.slot? = none := by
  obtain ⟨phase, fate, rfl, hmoves⟩ := Process.step_inv h
  cases hmoves with
  | fork | clock | exit => exact .inr rfl
  | work hk hwork =>
      rw [Process.slot?, hk] at hj
      cases hwork with
      | dequeue | sleep => exact .inl hj
      | flock | create | enter | opendir | readdir | live | gone | first | behind | unlink | busy
      | full | again | clean => cases hj
      | leave => exact .inr rfl

/-- Two sessions do not have one slot. -/
theorem slot_ne (hs : s.Sound d) (hu : u.Sound d) (hap : s.keeper.Apart u.keeper) {k : ℕ}
    (hslot : s.slot? = some k) : u.slot? ≠ some k := by
  intro huslot
  have hkeeper := hs.slot k hslot
  have hukeeper := hu.slot k huslot
  have hrunning := Process.isRunning_of_slot hkeeper
  have hurunning := Process.isRunning_of_slot hukeeper
  have hlock := (hs.keeper.slot hrunning k).mpr hkeeper
  rw [(hu.keeper.slot hurunning k).mpr hukeeper] at hlock
  exact hap.pids hrunning hurunning (Option.some.inj hlock).symm

theorem Sound.step (h : s.step d = some (s', d')) (hs : s.Sound d) : s'.Sound d' := by
  obtain ⟨shell, keeper, turns, rfl, hmoves⟩ := step_inv h
  obtain ⟨hkeeper, hslot, hnamed⟩ := hs
  have hhas : ∀ k, s.shell ∈ [.got k, .writes k, .runs k, .removed k] →
      s.keeper.slot? = some k := by
    intro k hk
    refine hslot k ?_
    rw [slot?]
    simp only [List.mem_cons, List.not_mem_nil, or_false] at hk
    rcases hk with hk | hk | hk | hk <;> rw [hk]
  cases hmoves with
  | @read micros since k hshell hphase =>
      refine ⟨hkeeper, ?_, ?_⟩
      · rintro j ⟨⟩
        rw [Process.slot?, hphase]
        rfl
      · rintro j ⟨⟩
  | @empty k hshell =>
      refine ⟨hkeeper, ?_, ?_⟩
      · rintro j ⟨⟩
        exact hhas k (by simp [hshell])
      · rintro j ⟨⟩
  | @write k hshell =>
      refine ⟨hkeeper, ?_, ?_⟩
      · rintro j ⟨⟩
        exact hhas k (by simp [hshell])
      · rintro j ⟨⟩
        exact Function.update_self _ _ _
  | @remove k hshell =>
      refine ⟨hkeeper, ?_, ?_⟩
      · rintro j ⟨⟩
        exact hhas k (by simp [hshell])
      · rintro j ⟨⟩
  | ends =>
      refine ⟨hkeeper, ?_, ?_⟩
      · rintro j ⟨⟩
      · rintro j ⟨⟩
  | @keeper keeper' m' hstep hends =>
      refine ⟨Process.Sound.step hstep hkeeper, fun k hk ↦ ?_, hnamed⟩
      have hhad := hslot k hk
      rcases slot_of_step hstep hhad with hsame | hnone
      · exact hsame
      · have hshell := hends (by rw [hhad]; rfl) hnone
        rw [slot?, hshell] at hk
        cases hk

theorem Sound.others (h : s.step d = some (s', d')) (hs : s.Sound d)
    (hap : s.keeper.Apart u.keeper ∧ u.keeper.Apart s.keeper) (hu : u.Sound d) :
    u.Sound d' ∧ s'.keeper.Apart u.keeper ∧ u.keeper.Apart s'.keeper := by
  obtain ⟨shell, keeper, turns, rfl, hmoves⟩ := step_inv h
  -- A file that the session changes is that of its own slot.
  have hinfo : ∀ k line, s.slot? = some k →
      Sound { d with info := Function.update d.info k line } u := by
    intro k line hk
    refine ⟨hu.keeper, hu.slot, fun j hj ↦ ?_⟩
    have hne : j ≠ k := by
      rintro rfl
      exact slot_ne hs hu hap.1 hk (by rw [slot?, hj])
    exact (Function.update_of_ne hne _ _).trans (hu.named j hj)
  cases hmoves with
  | read | ends => exact ⟨hu, hap⟩
  | @empty k hshell => exact ⟨hinfo k none (by rw [slot?, hshell]), hap⟩
  | @write k hshell => exact ⟨hinfo k _ (by rw [slot?, hshell]), hap⟩
  | @remove k hshell => exact ⟨hinfo k none (by rw [slot?, hshell]), hap⟩
  | keeper hstep =>
      obtain ⟨hkeeper, hap⟩ := Process.Sound.others hstep hs.keeper hap hu.keeper
      exact ⟨⟨hkeeper, hu.slot, hu.named⟩, hap⟩

/-! ## Runs -/

variable {ss : List Session} {info : ℕ → Option ℕ} {w : Pool Directory Session}

/-- **The file of a slot names its holder.**  Whatever the files held at first: while a shell
runs in slot `k`, `info.<k>` has its pid, its keeper has the lock, and no other shell has the
slot. -/
theorem named_of_reaches (hss : ∀ s ∈ ss, s.shell = .reads ∧ s.keeper.phase = .unborn)
    (h : Pool.Reaches step ⟨⟨Machine.empty, info⟩, ss⟩ w) :
    (∀ s ∈ w.threads, ∀ k, s.shell = .runs k →
      w.shared.info k = some s.pid ∧ w.shared.machine.locks k = some s.keeper.pid) ∧
    w.threads.Pairwise fun s u ↦ ∀ k, s.slot? = some k → u.slot? ≠ some k := by
  have hstart : ∀ s ∈ ss, s.Sound ⟨Machine.empty, info⟩ := by
    intro s hs
    obtain ⟨hshell, hphase⟩ := hss s hs
    refine ⟨Process.sound_unborn hphase, fun k hk ↦ ?_, fun k hk ↦ ?_⟩
    · rw [slot?, hshell] at hk
      cases hk
    · rw [hshell] at hk
      cases hk
  obtain ⟨hsound, hapart⟩ := h.forall_pairs
    (R := fun s u ↦ s.keeper.Apart u.keeper ∧ u.keeper.Apart s.keeper) (fun _ _ ↦ And.symm)
    (fun _ _ _ _ ↦ Sound.step) (fun _ _ _ _ hstep hs _ ↦ Sound.others hstep hs) hstart
    (List.pairwise_of_forall_mem_list fun s hs u hu ↦
      ⟨Process.apart_unborn (hss s hs).2, Process.apart_unborn (hss u hu).2⟩)
  constructor
  · intro s hs k hk
    obtain ⟨hkeeper, hslot, hnamed⟩ := hsound s hs
    have hhas := hslot k (by rw [slot?, hk])
    exact ⟨hnamed k hk, (hkeeper.slot (Process.isRunning_of_slot hhas) k).mpr hhas⟩
  · exact hapart.imp_of_mem fun hs hu hap k ↦ slot_ne (hsound _ hs) (hsound _ hu) hap.1

/-- The shell with pid 70 takes a slot whose file is from a holder that was killed. -/
theorem named_of_reaches_stale :
    let keeper : Process := ⟨7, 1, [.ok, .clock 100, .ok, .ok, .ok, .found [ticketName 100 7], .ok,
      .ok, .ok, .ok], .unborn⟩
    let session : Session := ⟨70, .reads, keeper, List.replicate 10 .keeper ++
      [.shell, .shell, .shell]⟩
    ∃ w, Pool.Reaches step ⟨⟨Machine.empty, fun _ ↦ some 99⟩, [session]⟩ w ∧
      w.shared.info 0 = some 70 ∧ w.shared.machine.locks 0 = some 7 := by
  intro keeper session
  have hw : (Pool.schedule step (fun _ ↦ True) ⟨⟨Machine.empty, fun _ ↦ some 99⟩, [session]⟩
      (List.replicate 13 0)).map (fun w ↦ w.threads) = some [⟨70, .runs 0,
        ⟨7, 1, [], .keeping 100 (.holds {ticketName 100 7} 0)⟩, []⟩] := by decide +kernel
  obtain ⟨w, hrun, hthreads⟩ := Option.map_eq_some_iff.mp hw
  have hreaches := (Pool.reachesWithin_of_schedule hrun).reaches
  obtain ⟨hnamed, -⟩ := named_of_reaches (by decide) hreaches
  exact ⟨w, hreaches, hnamed _ (by rw [hthreads]; exact List.mem_cons_self) 0 rfl⟩

end Session

end HeavySlot

end CloudGateway
