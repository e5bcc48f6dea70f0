import CloudGateway.HeavySlot

/-!
# First come, first served

The queue of the heavy slots, over all runs of all processes, whatever their calls come back
with and whenever they are killed: a keeper that takes a slot has none before it of those that
were waiting when it began the round (`served_in_order`).

`Moves` says once what a step can do.  What the proof rests on is `Sound`, what each process
can say of itself and the machine, and `Apart`, which keeps any two processes out of each
other's way: they have different pids, and neither is about to remove the ticket that the
other waits with.
-/

namespace CloudGateway

namespace HeavySlot

/-! ## Steps -/

/-- What a keeper can do next. -/
inductive Work.Moves (pid slots : ℕ) (me : List Char) (m : Machine) :
    Work → Work → Machine → Prop
  | create (h : me ∉ m.created) : Moves pid slots me m .named .queued (m.create me)
  | enter : Moves pid slots me m .queued .idle m
  | opendir : Moves pid slots me m .idle (.opened m.queue) m
  | readdir {since : Finset (List Char)} {names : List (List Char)}
      (hsince : ∀ t ∈ since, t ∈ m.queue → t ∈ names) (hcreated : ∀ t ∈ names, t ∈ m.created) :
      Moves pid slots me m (.opened since) (.scan since (listing names) []) m
  | live {since : Finset (List Char)} {t : List Char} {todo live : List (List Char)}
      (h : m.isLive pid t = true) :
      Moves pid slots me m (.scan since (t :: todo) live) (.scan since todo (live ++ [t])) m
  | gone {since : Finset (List Char)} {t : List Char} {todo live : List (List Char)}
      (h : m.isLive pid t = false) :
      Moves pid slots me m (.scan since (t :: todo) live) (.drop since t todo live) m
  | first {since : Finset (List Char)} {live : List (List Char)} (h : place live me = some 0) :
      Moves pid slots me m (.scan since [] live) (.first since 0) m
  | behind {since : Finset (List Char)} {live : List (List Char)} :
      Moves pid slots me m (.scan since [] live) .rest m
  | unlink {since : Finset (List Char)} {t : List Char} {todo live : List (List Char)} :
      Moves pid slots me m (.drop since t todo live) (.scan since todo live) (m.unlink t)
  | flock {since : Finset (List Char)} {k : ℕ} (hk : k < slots) (h : m.locks k = none) :
      Moves pid slots me m (.first since k) (.taken since k) (m.flock k pid)
  | busy {since : Finset (List Char)} {k : ℕ} :
      Moves pid slots me m (.first since k) (.first since (k + 1)) m
  | full {since : Finset (List Char)} {k : ℕ} : Moves pid slots me m (.first since k) .rest m
  | dequeue {since : Finset (List Char)} {k : ℕ} :
      Moves pid slots me m (.taken since k) (.holds since k) (m.unlink me)
  | sleep {since : Finset (List Char)} {k : ℕ} :
      Moves pid slots me m (.holds since k) (.holds since k) m
  | again : Moves pid slots me m .rest .idle m
  | leave {work : Work} (h : work ∈ [.named, .queued, .idle, .rest]) :
      Moves pid slots me m work .leaving m
  | clean : Moves pid slots me m .leaving .exiting (m.unlink me)

theorem Work.moves {pid slots : ℕ} {me : List Char} {m m' : Machine} {work work' : Work}
    {a : Answer} (h : work.next pid slots me m a = some (work', m')) :
    work.Moves pid slots me m work' m' := by
  unfold Work.next at h
  split at h
  all_goals first
    | (cases h; constructor; decide)
    | (cases h; constructor)
    | skip
  · split at h <;> cases h
    exact .create ‹_›
  · split at h <;> cases h
    rename_i hnames
    exact .readdir hnames.1 hnames.2
  · split at h <;> cases h
    · exact .live ‹_›
    · exact .gone (Bool.eq_false_iff.mpr ‹_›)
  · split at h <;> cases h
    · exact .first ‹_›
    · exact .behind
  · split at h
    · split at h <;> cases h
      · exact .flock ‹_› ‹_›
      · exact .busy
    · cases h
      exact .full
  · cases h

/-- Whether a keeper is in the queue and has no slot. -/
def Work.waits : Work → Bool
  | .queued | .idle | .opened _ | .scan _ _ _ | .drop _ _ _ _ | .first _ _ | .rest => true
  | .named | .taken _ _ | .holds _ _ | .leaving | .exiting => false

/-- The slot a keeper has. -/
def Work.slot? : Work → Option ℕ
  | .taken _ k | .holds _ k => some k
  | _ => none

/-- What was in the queue when a keeper began the round in which it got its slot. -/
def Work.since? : Work → Option (Finset (List Char))
  | .taken since _ | .holds since _ => some since
  | _ => none

namespace Process

variable {k u : Process} {m m' : Machine}

/-- Whether there is such a process. -/
def isRunning (k : Process) : Bool :=
  match k.phase with
  | .started | .keeping _ _ => true
  | .unborn | .ended => false

/-- What a process can do next. -/
inductive Moves (k : Process) (m : Machine) : Phase → Machine → Prop
  | fork (hk : k.phase = .unborn) (hpid : k.pid ≠ 0) (h : k.pid ∉ m.running) :
      Moves k m .started (m.fork k.pid)
  | clock (hk : k.phase = .started) (micros : ℕ) : Moves k m (.keeping micros .named) m
  | work {micros : ℕ} {work work' : Work} {m' : Machine} (hk : k.phase = .keeping micros work)
      (h : work.Moves k.pid k.slots (k.ticket micros) m work' m') :
      Moves k m (.keeping micros work') m'
  | exit (hk : k.isRunning = true) : Moves k m .ended (m.exit k.pid)

theorem moves_of_next {a : Answer} {phase : Phase} (h : k.next m a = some (phase, m')) :
    k.Moves m phase m' := by
  unfold next at h
  split at h
  · split at h <;> cases h
    all_goals exact .exit (by simp [isRunning, *])
  · split at h
    · split at h <;> cases h
      rename_i hpid
      obtain ⟨hpid, hrunning⟩ := not_or.mp hpid
      exact .fork ‹_› hpid hrunning
    · cases h
      exact .clock ‹_› _
    · cases h
      exact .exit (by simp [isRunning, *])
    · cases h
      exact .exit (by simp [isRunning, *])
    · obtain ⟨⟨work, m''⟩, hnext, heq⟩ := Option.map_eq_some_iff.mp h
      cases heq
      exact .work ‹_› (Work.moves hnext)
    · cases h

theorem step_inv {k' : Process} (h : k.step m = some (k', m')) :
    ∃ phase fate, k' = { k with phase := phase, fate := fate } ∧ k.Moves m phase m' := by
  unfold step at h
  split at h
  · obtain ⟨⟨phase, m''⟩, hnext, heq⟩ := Option.map_eq_some_iff.mp h
    cases heq
    exact ⟨phase, _, rfl, moves_of_next hnext⟩
  · cases h

/-! ## What one step changes -/

/-- The ticket a process waits with. -/
def waiting? (k : Process) : Option (List Char) :=
  match k.phase with
  | .keeping micros work => if work.waits then some (k.ticket micros) else none
  | .unborn | .started | .ended => none

/-- The ticket a process is about to remove for another that is gone. -/
def dropping? (k : Process) : Option (List Char) :=
  match k.phase with
  | .keeping _ (.drop _ t _ _) => some t
  | _ => none

/-- The slot a process has. -/
def slot? (k : Process) : Option ℕ :=
  match k.phase with
  | .keeping _ work => work.slot?
  | .unborn | .started | .ended => none

/-- What a step of `k` leaves alone. -/
structure Frame (k : Process) (m m' : Machine) : Prop where
  created : m.created ⊆ m'.created
  queue : ∀ t ∈ m.created, t ∈ m'.queue → t ∈ m.queue
  removed : ∀ t ∈ m.queue, t ∉ m'.queue →
    t ∈ k.dropping? ∨ ∃ micros work, k.phase = .keeping micros work ∧ t = k.ticket micros
  running : ∀ p, p ≠ k.pid → (p ∈ m'.running ↔ p ∈ m.running)
  locks : ∀ p, p ≠ k.pid → ∀ j, m'.locks j = some p ↔ m.locks j = some p

theorem Frame.refl (k : Process) (m : Machine) : k.Frame m m where
  created := Finset.Subset.refl _
  queue _ _ h := h
  removed _ h h' := absurd h h'
  running _ _ := Iff.rfl
  locks _ _ _ := Iff.rfl

theorem Frame.unlink {t : List Char} (h : t ∈ k.dropping? ∨
    ∃ micros work, k.phase = .keeping micros work ∧ t = k.ticket micros) :
    k.Frame m (m.unlink t) where
  created := Finset.Subset.refl _
  queue _ _ hu := Finset.mem_of_mem_erase hu
  removed u hu hu' := by
    have hut : u = t := by
      by_contra hne
      exact hu' (Finset.mem_erase.mpr ⟨hne, hu⟩)
    rw [hut]
    exact h
  running _ _ := Iff.rfl
  locks _ _ _ := Iff.rfl

theorem Frame.create {t : List Char} (h : t ∉ m.created) : k.Frame m (m.create t) where
  created := Finset.subset_insert _ _
  queue u hu hu' := by
    rcases Finset.mem_insert.mp hu' with rfl | hu'
    · exact absurd hu h
    · exact hu'
  removed u hu hu' := absurd (Finset.mem_insert_of_mem hu) hu'
  running _ _ := Iff.rfl
  locks _ _ _ := Iff.rfl

theorem Frame.fork : k.Frame m (m.fork k.pid) where
  created := Finset.Subset.refl _
  queue _ _ h := h
  removed _ h h' := absurd h h'
  running p hp := by
    rw [Machine.fork, Finset.mem_insert]
    exact or_iff_right hp
  locks _ _ _ := Iff.rfl

theorem Frame.exit : k.Frame m (m.exit k.pid) where
  created := Finset.Subset.refl _
  queue _ _ h := h
  removed _ h h' := absurd h h'
  running p hp := by
    rw [Machine.exit, Finset.mem_erase]
    exact and_iff_right hp
  locks p hp j := by
    rw [Machine.locks_exit_iff]
    exact and_iff_left hp

theorem Frame.flock {j : ℕ} (h : m.locks j = none) : k.Frame m (m.flock j k.pid) where
  created := Finset.Subset.refl _
  queue _ _ h := h
  removed _ h h' := absurd h h'
  running _ _ := Iff.rfl
  locks p hp i := by
    rw [Machine.locks_flock]
    split
    · subst i
      rw [h, Option.some.injEq]
      exact iff_of_false hp.symm (by intro h; cases h)
    · exact Iff.rfl

theorem Moves.frame {phase : Phase} (h : k.Moves m phase m') : k.Frame m m' := by
  cases h with
  | fork => exact .fork
  | clock => exact .refl k m
  | exit => exact .exit
  | @work micros _ _ _ hk h =>
      cases h with
      | create h => exact .create h
      | unlink => exact .unlink (.inl (by simp [dropping?, hk]))
      | flock _ h => exact .flock h
      | dequeue => exact .unlink (.inr ⟨_, _, hk, rfl⟩)
      | clean => exact .unlink (.inr ⟨_, _, hk, rfl⟩)
      | enter | opendir | readdir | live | gone | first | behind | busy | full | sleep
      | again | leave => exact .refl k _

/-! ## What a process knows -/

end Process

/-- What a keeper has found out since it last opened the queue: whose tickets are still there
of those that were there then. -/
def Work.Sees (me : List Char) (m : Machine) : Work → Prop
  | .opened since => since ⊆ m.created
  | .scan since todo live => since ⊆ m.created ∧ (∀ t ∈ todo, t ∈ m.created) ∧
      (live ++ todo).Pairwise (· ≤ ·) ∧ ∀ t ∈ since, t ∈ m.queue → t ∈ live ++ todo
  | .drop since name todo live => since ⊆ m.created ∧ (∀ t ∈ todo, t ∈ m.created) ∧
      (live ++ todo).Pairwise (· ≤ ·) ∧ (∀ t ∈ since, t ∈ m.queue → t ≠ name → t ∈ live ++ todo) ∧
      name ∈ m.created ∧ name ≠ me
  | .first since _ | .taken since _ | .holds since _ => since ⊆ m.created ∧
      ∀ t ∈ since, t ∈ m.queue → me ≤ t
  | .named | .queued | .idle | .rest | .leaving | .exiting => True

namespace Machine

/-- A machine on which nobody but the processes does anything. -/
structure Sound (m : Machine) : Prop where
  queue : m.queue ⊆ m.created
  created : ∀ t ∈ m.created, t.head?.any Char.isDigit = true
  locks : ∀ j p, m.locks j = some p → p ∈ m.running

end Machine

namespace Process

/-- What a process can say of itself and the machine. -/
structure Sound (m : Machine) (k : Process) : Prop where
  machine : m.Sound
  running : k.isRunning = true → k.pid ∈ m.running ∧ k.pid ≠ 0
  waits : ∀ t ∈ k.waiting?, t ∈ m.queue
  sees : ∀ micros work, k.phase = .keeping micros work → work.Sees (k.ticket micros) m
  slot : k.isRunning = true → ∀ j, m.locks j = some k.pid ↔ k.slot? = some j

/-- Neither of two processes is in the other's way. -/
structure Apart (k u : Process) : Prop where
  pids : k.isRunning = true → u.isRunning = true → k.pid ≠ u.pid
  drops : ∀ t ∈ k.dropping?, t ∉ u.waiting?

/-! ## What one step keeps -/

variable {k u : Process} {m m' : Machine}

theorem waiting?_inv {t : List Char} (h : t ∈ k.waiting?) :
    ∃ micros work, k.phase = .keeping micros work ∧ work.waits = true ∧ t = k.ticket micros := by
  unfold waiting? at h
  split at h
  · rename_i micros work hphase
    cases hwaits : work.waits with
    | true =>
        rw [hwaits, if_pos rfl] at h
        exact ⟨micros, work, hphase, hwaits, (Option.some.inj h).symm⟩
    | false =>
        rw [hwaits] at h
        cases h
  all_goals cases h

theorem waiting?_of_waits {micros : ℕ} {work : Work} (hk : k.phase = .keeping micros work)
    (h : work.waits = true) : k.ticket micros ∈ k.waiting? := by
  simp [waiting?, hk, h]

theorem dropping?_inv {t : List Char} (h : t ∈ k.dropping?) :
    ∃ micros since todo live, k.phase = .keeping micros (.drop since t todo live) := by
  unfold dropping? at h
  split at h
  · cases h
    exact ⟨_, _, _, _, ‹_›⟩
  · cases h

theorem isRunning_of_keeping {micros : ℕ} {work : Work} (h : k.phase = .keeping micros work) :
    k.isRunning = true := by rw [isRunning, h]

theorem isRunning_of_slot {k : Process} {j : ℕ} (h : k.slot? = some j) : k.isRunning = true := by
  unfold slot? at h
  split at h
  · exact isRunning_of_keeping ‹_›
  all_goals cases h

/-- The ticket of a process that is there is live. -/
theorem isLive_ticket (hrunning : k.pid ∈ m.running) (hpid : k.pid ≠ 0) (pid micros : ℕ) :
    m.isLive pid (k.ticket micros) = true := by
  simp [Machine.isLive, ticket, hrunning, hpid]

/-- A process knows its own ticket. -/
theorem isLive_self (hpid : k.pid ≠ 0) (micros : ℕ) :
    m.isLive k.pid (k.ticket micros) = true := by
  simp [Machine.isLive, ticket, hpid]

theorem Frame.sees (h : k.Frame m m') {me : List Char} {work : Work} (hs : work.Sees me m) :
    work.Sees me m' := by
  cases work with
  | opened since => exact hs.trans h.created
  | scan since todo live =>
      obtain ⟨hsince, htodo, hsorted, hthere⟩ := hs
      exact ⟨hsince.trans h.created, fun t ht ↦ h.created (htodo t ht), hsorted,
        fun t ht hqueue ↦ hthere t ht (h.queue t (hsince ht) hqueue)⟩
  | drop since name todo live =>
      obtain ⟨hsince, htodo, hsorted, hthere, hname, hme⟩ := hs
      exact ⟨hsince.trans h.created, fun t ht ↦ h.created (htodo t ht), hsorted,
        fun t ht hqueue ↦ hthere t ht (h.queue t (hsince ht) hqueue), h.created hname, hme⟩
  | first since j | taken since j | holds since j =>
      exact ⟨hs.1.trans h.created, fun t ht hqueue ↦ hs.2 t ht (h.queue t (hs.1 ht) hqueue)⟩
  | named | queued | idle | rest | leaving | exiting => trivial

theorem Moves.machine {phase : Phase} (h : k.Moves m phase m') (hs : k.Sound m) : m'.Sound := by
  obtain ⟨hqueue, hcreated, hlocks⟩ := hs.machine
  cases h with
  | clock => exact hs.machine
  | fork =>
      exact ⟨hqueue, hcreated, fun j p hj ↦ Finset.mem_insert_of_mem (hlocks j p hj)⟩
  | exit =>
      refine ⟨hqueue, hcreated, fun j p hj ↦ ?_⟩
      obtain ⟨hj, hp⟩ := Machine.locks_exit_iff.mp hj
      exact Finset.mem_erase.mpr ⟨hp, hlocks j p hj⟩
  | @work micros _ _ _ hk h =>
      cases h with
      | create =>
          refine ⟨Finset.insert_subset_insert _ hqueue, fun t ht ↦ ?_, hlocks⟩
          rcases Finset.mem_insert.mp ht with rfl | ht
          · exact isDigit_head?_ticketName _ _
          · exact hcreated t ht
      | flock =>
          refine ⟨hqueue, hcreated, fun j p hj ↦ ?_⟩
          rw [Machine.locks_flock] at hj
          split at hj
          · obtain rfl := Option.some.inj hj
            exact (hs.running (isRunning_of_keeping hk)).1
          · exact hlocks j p hj
      | unlink | dequeue | clean =>
          exact ⟨(Finset.erase_subset _ _).trans hqueue, hcreated, hlocks⟩
      | enter | opendir | readdir | live | gone | first | behind | busy | full | sleep
      | again | leave => exact hs.machine

/-- What a process can say is left true by the others. -/
theorem Sound.of_frame (hu : u.Sound m) (h : k.Frame m m') (hm : m'.Sound)
    (hpids : u.isRunning = true → u.pid ≠ k.pid) (hdrops : ∀ t ∈ k.dropping?, t ∉ u.waiting?) :
    u.Sound m' where
  machine := hm
  running hu' := ⟨(h.running u.pid (hpids hu')).mpr (hu.running hu').1, (hu.running hu').2⟩
  waits t ht := by
    by_contra hgone
    rcases h.removed t (hu.waits t ht) hgone with hdrop | ⟨micros, work, hk, rfl⟩
    · exact hdrops t hdrop ht
    · obtain ⟨micros', work', hu', -, heq⟩ := waiting?_inv ht
      have hpid := congrArg pidOf heq
      rw [ticket, ticket, pidOf_ticketName, pidOf_ticketName] at hpid
      exact hpids (isRunning_of_keeping hu') (Option.some.inj hpid).symm
  sees micros work hphase := h.sees (hu.sees micros work hphase)
  slot hu' j := (h.locks u.pid (hpids hu') j).trans (hu.slot hu' j)

end Process

/-- What a keeper has found out stays true of what it does next. -/
theorem Work.Moves.sees {pid slots : ℕ} {me : List Char} {m m' : Machine} {work work' : Work}
    (h : work.Moves pid slots me m work' m') (hs : work.Sees me m) (hm : m.Sound)
    (hself : m.isLive pid me = true) : work'.Sees me m' := by
  cases h with
  | create | enter | behind | full | again | leave | clean => trivial
  | opendir => exact hm.queue
  | readdir hsince hcreated =>
      refine ⟨hs, fun t ht ↦ hcreated t (mem_listing.mp ht).1, pairwise_listing _, ?_⟩
      intro t ht hqueue
      exact mem_listing.mpr ⟨hsince t ht hqueue, hm.created t (hs ht)⟩
  | @live since t todo live h =>
      obtain ⟨hsince, htodo, hsorted, hthere⟩ := hs
      have happend : live ++ [t] ++ todo = live ++ t :: todo := (List.append_cons _ _ _).symm
      rw [← happend] at hsorted hthere
      exact ⟨hsince, fun u hu ↦ htodo u (List.mem_cons_of_mem _ hu), hsorted, hthere⟩
  | @gone since t todo live h =>
      obtain ⟨hsince, htodo, hsorted, hthere⟩ := hs
      have hsub : (live ++ todo).Sublist (live ++ t :: todo) :=
        (List.Sublist.refl live).append (List.sublist_cons_self t todo)
      refine ⟨hsince, fun u hu ↦ htodo u (List.mem_cons_of_mem _ hu), hsorted.sublist hsub, ?_,
        htodo t List.mem_cons_self, ?_⟩
      · intro u hu hqueue hne
        rcases List.mem_append.mp (hthere u hu hqueue) with hu | hu
        · exact List.mem_append_left _ hu
        · exact List.mem_append_right _ ((List.mem_cons.mp hu).resolve_left hne)
      · rintro rfl
        rw [hself] at h
        cases h
  | unlink =>
      obtain ⟨hsince, htodo, hsorted, hthere, -, -⟩ := hs
      refine ⟨hsince, htodo, hsorted, fun u hu hqueue ↦ ?_⟩
      obtain ⟨hne, hqueue⟩ := Finset.mem_erase.mp hqueue
      exact hthere u hu hqueue hne
  | first h =>
      obtain ⟨hsince, -, hsorted, hthere⟩ := hs
      refine ⟨hsince, fun t ht hqueue ↦ ?_⟩
      rw [List.append_nil] at hsorted hthere
      exact le_of_place hsorted h (hthere t ht hqueue)
  | flock | busy | sleep => exact hs
  | dequeue => exact ⟨hs.1, fun t ht hqueue ↦ hs.2 t ht (Finset.mem_of_mem_erase hqueue)⟩

/-- A keeper waits with its ticket in the queue. -/
theorem Work.Moves.waits {pid slots : ℕ} {me : List Char} {m m' : Machine} {work work' : Work}
    (h : work.Moves pid slots me m work' m') (hsees : work.Sees me m)
    (hs : work.waits = true → me ∈ m.queue) : work'.waits = true → me ∈ m'.queue := by
  cases h with
  | create => exact fun _ ↦ Finset.mem_insert_self _ _
  | unlink =>
      obtain ⟨-, -, -, -, -, hne⟩ := hsees
      exact fun _ ↦ Finset.mem_erase.mpr ⟨hne.symm, hs rfl⟩
  | enter | opendir | readdir | live | gone | first | behind | busy | full | again =>
      exact fun _ ↦ hs rfl
  | flock | dequeue | sleep | leave | clean => rintro ⟨⟩

/-- A keeper has a slot from when it takes its lock. -/
theorem Work.Moves.slot {pid slots : ℕ} {me : List Char} {m m' : Machine} {work work' : Work}
    (h : work.Moves pid slots me m work' m')
    (hs : ∀ j, m.locks j = some pid ↔ work.slot? = some j) :
    ∀ j, m'.locks j = some pid ↔ work'.slot? = some j := by
  cases h with
  | @flock since k _ h =>
      intro j
      rw [Machine.locks_flock]
      rcases eq_or_ne j k with rfl | hne
      · simp [Work.slot?]
      · rw [if_neg hne, hs j]
        simp [Work.slot?, hne.symm]
  | leave h =>
      have hnone : ∀ w ∈ [Work.named, .queued, .idle, .rest], w.slot? = none := by decide
      intro j
      rw [hs j, hnone _ h]
      rfl
  | create | enter | opendir | readdir | live | gone | first | behind | unlink | busy | full
  | dequeue | sleep | again | clean => exact hs

namespace Process

variable {k u : Process} {m m' : Machine}

/-- What a process can say is true after its own steps. -/
theorem Sound.step {k' : Process} (h : k.step m = some (k', m')) (hs : k.Sound m) :
    k'.Sound m' := by
  obtain ⟨phase, fate, rfl, hmoves⟩ := step_inv h
  have hmachine := hmoves.machine hs
  cases hmoves with
  | fork hk hpid hnew =>
      refine ⟨hmachine, fun _ ↦ ⟨Finset.mem_insert_self _ _, hpid⟩, ?_, ?_, fun _ j ↦ ?_⟩
      · rintro t ⟨⟩
      · rintro micros work ⟨⟩
      · exact iff_of_false (fun hj ↦ hnew (hs.machine.locks j _ hj)) (by rintro ⟨⟩)
  | clock hk micros =>
      have hrunning : k.isRunning = true := by rw [isRunning, hk]
      have hslot : k.slot? = none := by rw [slot?, hk]
      refine ⟨hmachine, fun _ ↦ hs.running hrunning, ?_, ?_, fun _ j ↦ ?_⟩
      · rintro t ⟨⟩
      · rintro _ _ ⟨⟩
        trivial
      · rw [hs.slot hrunning j, hslot]
        rfl
  | exit hk =>
      refine ⟨hmachine, ?_, ?_, ?_, ?_⟩
      · rintro ⟨⟩
      · rintro t ⟨⟩
      · rintro micros work ⟨⟩
      · rintro ⟨⟩
  | @work micros work work' _ hk hwork =>
      have hrunning := isRunning_of_keeping hk
      obtain ⟨hpid, hpos⟩ := hs.running hrunning
      have hslot : k.slot? = work.slot? := by rw [slot?, hk]
      refine ⟨hmachine, fun _ ↦ ⟨?_, hpos⟩, ?_, ?_, fun _ ↦ ?_⟩
      · cases hwork with
        | _ => exact hpid
      · intro t ht
        obtain ⟨_, _, ⟨⟩, hwaits, rfl⟩ := waiting?_inv ht
        exact hwork.waits (hs.sees micros work hk)
          (fun hwait ↦ hs.waits _ (waiting?_of_waits hk hwait)) hwaits
      · rintro _ _ ⟨⟩
        exact hwork.sees (hs.sees micros work hk) hs.machine (isLive_self hpos micros)
      · exact hwork.slot (fun j ↦ hslot ▸ hs.slot hrunning j)

/-- A pid is given to one process at a time. -/
theorem Moves.pid_ne {phase : Phase} (h : k.Moves m phase m') (hu : u.Sound m)
    (hap : k.Apart u) (hrunning : u.isRunning = true) : k.pid ≠ u.pid := by
  cases h with
  | fork hk hpid hnew => exact fun heq ↦ hnew (heq ▸ (hu.running hrunning).1)
  | clock hk => exact hap.pids (by rw [isRunning, hk]) hrunning
  | work hk => exact hap.pids (isRunning_of_keeping hk) hrunning
  | exit hk => exact hap.pids hk hrunning

/-- A process that removes a ticket has found nobody there who waits with it. -/
theorem Apart.step {phase : Phase} {fate : List Answer} (h : k.Moves m phase m')
    (hu : u.Sound m) (hap : k.Apart u) :
    Apart { k with phase := phase, fate := fate } u where
  pids _ hrunning := h.pid_ne hu hap hrunning
  drops t ht hwait := by
    obtain ⟨micros', work', hphase, -, rfl⟩ := waiting?_inv hwait
    obtain ⟨hpid, hpos⟩ := hu.running (isRunning_of_keeping hphase)
    obtain ⟨micros, since, todo, live, hdrop⟩ := dropping?_inv ht
    obtain rfl : phase = _ := hdrop
    cases h with
    | work hk h =>
        cases h with
        | gone h =>
            rw [isLive_ticket hpid hpos] at h
            cases h

/-- A ticket that is new is nobody's to remove. -/
theorem Apart.stepped {phase : Phase} {fate : List Answer} (h : k.Moves m phase m')
    (hu : u.Sound m) (hpid : u.isRunning = true → k.pid ≠ u.pid) (hap : u.Apart k) :
    Apart u { k with phase := phase, fate := fate } where
  pids hrunning _ := (hpid hrunning).symm
  drops t ht hwait := by
    obtain ⟨micros, work, hphase, hwaits, rfl⟩ := waiting?_inv hwait
    obtain ⟨micros', since, todo, live, hdrop⟩ := dropping?_inv ht
    obtain rfl : phase = _ := hphase
    cases h with
    | clock => cases hwaits
    | @work _ before _ _ hk h =>
        have hbefore : before.waits = true → False := fun hwait ↦
          hap.drops _ ht (waiting?_of_waits hk hwait)
        cases h with
        | create h =>
            obtain ⟨-, -, -, -, hname, -⟩ := hu.sees _ _ hdrop
            exact h hname
        | enter | opendir | readdir | live | gone | first | behind | unlink | busy | full
        | again => exact hbefore rfl
        | flock | dequeue | sleep | leave | clean => cases hwaits

/-! ## Runs -/

variable {ks : List Process} {w : Pool Machine Process}

theorem machine_empty : Machine.empty.Sound where
  queue := Finset.Subset.refl _
  created t ht := absurd ht (Finset.notMem_empty t)
  locks := by rintro _ _ ⟨⟩

/-- Before a process exists it can say everything, and is apart from every other. -/
theorem sound_unborn (h : k.phase = .unborn) : k.Sound Machine.empty where
  machine := machine_empty
  running hk := by
    rw [isRunning, h] at hk
    cases hk
  waits t ht := by
    rw [waiting?, h] at ht
    cases ht
  sees micros work hk := by
    rw [h] at hk
    cases hk
  slot hk := by
    rw [isRunning, h] at hk
    cases hk

theorem apart_unborn (h : k.phase = .unborn) : k.Apart u where
  pids hk := by
    rw [isRunning, h] at hk
    cases hk
  drops t ht := by
    rw [dropping?, h] at ht
    cases ht

/-- A step of one process leaves what another can say, and keeps the two apart. -/
theorem Sound.others {k' : Process} (h : k.step m = some (k', m')) (hk : k.Sound m)
    (hap : k.Apart u ∧ u.Apart k) (hu : u.Sound m) :
    u.Sound m' ∧ k'.Apart u ∧ u.Apart k' := by
  have hk' := Sound.step h hk
  obtain ⟨phase, fate, rfl, hmoves⟩ := step_inv h
  have hpid : u.isRunning = true → k.pid ≠ u.pid := hmoves.pid_ne hu hap.1
  exact ⟨hu.of_frame hmoves.frame hk'.machine (fun hrunning ↦ (hpid hrunning).symm) hap.1.drops,
    hap.1.step hmoves hu, hap.2.stepped hmoves hu hpid⟩

/-- In every run each process can say what it knows, and any two are apart. -/
theorem sound_of_reaches (hks : ∀ k ∈ ks, k.phase = .unborn)
    (h : Pool.Reaches step ⟨Machine.empty, ks⟩ w) :
    (∀ k ∈ w.threads, k.Sound w.shared) ∧
      w.threads.Pairwise fun k u ↦ k.Apart u ∧ u.Apart k :=
  h.forall_pairs (fun _ _ ↦ And.symm) (fun _ _ _ _ ↦ Sound.step)
    (fun _ _ _ _ hstep hk _ ↦ Sound.others hstep hk) (fun k hk ↦ sound_unborn (hks k hk))
    (List.pairwise_of_forall_mem_list fun k hk u hu ↦
      ⟨apart_unborn (hks k hk), apart_unborn (hks u hu)⟩)

theorem machine_of_reaches (hks : ∀ k ∈ ks, k.phase = .unborn)
    (h : Pool.Reaches step ⟨Machine.empty, ks⟩ w) : w.shared.Sound := by
  rcases Relation.ReflTransGen.cases_tail h with rfl | ⟨v, -, hs⟩
  · exact machine_empty
  · obtain ⟨hsound, -⟩ := sound_of_reaches hks h
    cases hs with
    | mk => exact (hsound _ (List.mem_append_right _ List.mem_cons_self)).machine

/-- **First come, first served.**  While a keeper waits, its ticket is in the queue; and if it
was there when another began the round in which it got its slot, then the other one's ticket
comes first in the order of the names, whatever the clocks say.  Until the clock has eleven
digits of seconds that is the older ticket. -/
theorem served_in_order (hks : ∀ k ∈ ks, k.phase = .unborn)
    (h : Pool.Reaches step ⟨Machine.empty, ks⟩ w) {a b : Process} (ha : a ∈ w.threads)
    (hb : b ∈ w.threads) {micros micros' : ℕ} {work work' : Work}
    (hwait : a.phase = .keeping micros work) (hwaits : work.waits = true)
    (hserved : b.phase = .keeping micros' work') {since : Finset (List Char)}
    (hsince : work'.since? = some since) :
    a.ticket micros ∈ w.shared.queue ∧
      (a.ticket micros ∈ since → b.ticket micros' ≤ a.ticket micros ∧
        (micros' < 10 ^ 16 → micros' ≤ micros)) := by
  obtain ⟨hsound, -⟩ := sound_of_reaches hks h
  have hqueue := (hsound a ha).waits _ (waiting?_of_waits hwait hwaits)
  have hsees := (hsound b hb).sees micros' work' hserved
  refine ⟨hqueue, fun hthere ↦ ?_⟩
  have hle : b.ticket micros' ≤ a.ticket micros := by
    cases work' with
    | taken since' j | holds since' j =>
        obtain rfl := Option.some.inj hsince
        exact hsees.2 _ hthere hqueue
    | named | queued | idle | opened | scan | drop | first | rest | leaving | exiting =>
        cases hsince
  refine ⟨hle, fun hclock ↦ not_lt.mp fun hlt ↦ ?_⟩
  exact absurd hle (not_le.mpr (ticketName_lt_of_lt hlt a.pid b.pid hclock))

/-- Two keepers with one slot: the one with pid 8 comes first, and takes the slot while the other
one waits. -/
theorem served_in_order_two :
    let late : Process := ⟨7, 1, [.ok, .clock 200, .ok, .ok], .unborn⟩
    let early : Process := ⟨8, 1, [.ok, .clock 100, .ok, .ok, .ok,
      .found [ticketName 200 7, ticketName 100 8], .ok, .ok, .ok, .ok], .unborn⟩
    ∃ w : Pool Machine Process, Pool.Reaches step ⟨Machine.empty, [late, early]⟩ w ∧
      ticketName 200 7 ∈ w.shared.queue ∧ ticketName 100 8 ≤ ticketName 200 7 ∧
      (100 < 10 ^ 16 → 100 ≤ 200) := by
  intro late early
  have hw : (Pool.schedule step (fun _ ↦ True) ⟨Machine.empty, [late, early]⟩
      [0, 0, 0, 0, 1, 1, 1, 1, 1, 1, 1, 1, 1, 1]).map (fun w ↦ w.threads)
        = some [⟨7, 1, [], .keeping 200 .idle⟩,
          ⟨8, 1, [], .keeping 100 (.taken {ticketName 100 8, ticketName 200 7} 0)⟩] := by
    decide +kernel
  obtain ⟨w, hrun, hthreads⟩ := Option.map_eq_some_iff.mp hw
  have hreaches := (Pool.reachesWithin_of_schedule hrun).reaches
  have hserved := served_in_order (by decide) hreaches
    (a := ⟨7, 1, [], .keeping 200 .idle⟩) (by rw [hthreads]; exact List.mem_cons_self)
    (b := ⟨8, 1, [], .keeping 100 (.taken {ticketName 100 8, ticketName 200 7} 0)⟩)
    (by rw [hthreads]; simp) rfl rfl rfl rfl
  exact ⟨w, hreaches, hserved.1, hserved.2 (by decide +kernel)⟩

end Process

end HeavySlot

end CloudGateway
