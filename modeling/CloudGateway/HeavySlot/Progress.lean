import CloudGateway.HeavySlot.Fifo

/-!
# Free slots are taken

From every state that any run of any processes leads to: if a slot is free and no process is
left that has an older ticket, then a keeper at the top of its loop needs nobody to get the
slot.  Its next round removes the tickets of the processes that are gone, and takes the first
slot that is free (`takes_free_slot`).
-/

namespace CloudGateway

namespace HeavySlot

/-- How many calls a keeper makes about the tickets `todo`. -/
def calls (m : Machine) (pid : ℕ) (todo : List (List Char)) : ℕ :=
  (todo.map fun t ↦ if m.isLive pid t then 1 else 2).sum

/-- Without those of the tickets `todo` whose processes are gone. -/
def Machine.swept (m : Machine) (pid : ℕ) : List (List Char) → Machine
  | [] => m
  | t :: todo => if m.isLive pid t then m.swept pid todo else (m.unlink t).swept pid todo

theorem calls_cons_live {m : Machine} {pid : ℕ} {t : List Char} (h : m.isLive pid t = true)
    (todo : List (List Char)) : calls m pid (t :: todo) = calls m pid todo + 1 := by
  rw [calls, List.map_cons, List.sum_cons, if_pos h, Nat.add_comm, calls]

theorem calls_cons_gone {m : Machine} {pid : ℕ} {t : List Char} (h : m.isLive pid t = false)
    (todo : List (List Char)) : calls m pid (t :: todo) = calls m pid todo + 2 := by
  rw [calls, List.map_cons, List.sum_cons, if_neg (Bool.eq_false_iff.mp h), Nat.add_comm, calls]

namespace Machine

variable {m : Machine} {pid : ℕ} {t : List Char} {todo : List (List Char)}

theorem mem_swept {u : List Char} : u ∈ (m.swept pid todo).queue ↔
    u ∈ m.queue ∧ (u ∈ todo → m.isLive pid u = true) := by
  induction todo generalizing m with
  | nil => exact (and_iff_left (fun hu ↦ absurd hu List.not_mem_nil)).symm
  | cons t todo ih =>
      rw [swept]
      split
      · rename_i hlive
        rw [ih]
        refine and_congr_right fun _ ↦ ⟨fun hkept hu ↦ ?_, fun hkept hu ↦ hkept (.tail t hu)⟩
        rcases List.mem_cons.mp hu with rfl | hu
        · exact hlive
        · exact hkept hu
      · rename_i hgone
        rw [ih]
        show u ∈ m.queue.erase t ∧ _ ↔ _
        rw [Finset.mem_erase]
        constructor
        · rintro ⟨⟨hne, hqueue⟩, hkept⟩
          exact ⟨hqueue, fun hu ↦ hkept ((List.mem_cons.mp hu).resolve_left hne)⟩
        · rintro ⟨hqueue, hkept⟩
          refine ⟨⟨?_, hqueue⟩, fun hu ↦ hkept (.tail t hu)⟩
          rintro rfl
          exact hgone (hkept List.mem_cons_self)

theorem swept_cons_live (h : m.isLive pid t = true) :
    m.swept pid (t :: todo) = m.swept pid todo := if_pos h

theorem swept_cons_gone (h : m.isLive pid t = false) :
    m.swept pid (t :: todo) = (m.unlink t).swept pid todo := if_neg (Bool.eq_false_iff.mp h)

/-- The locks stay as they are. -/
@[simp] theorem locks_swept : (m.swept pid todo).locks = m.locks := by
  induction todo generalizing m with
  | nil => rfl
  | cons t todo ih =>
      rw [swept]
      split
      · exact ih
      · exact ih

end Machine

/-- Who is in a sorted list, and before nobody, is the first. -/
theorem place_of_le {live : List (List Char)} {me : List Char} (hsorted : live.Pairwise (· ≤ ·))
    (hme : me ∈ live) (hle : ∀ t ∈ live, me ≤ t) : place live me = some 0 := by
  cases live with
  | nil => cases hme
  | cons first rest =>
      have hfirst : first ≤ me := by
        rcases List.mem_cons.mp hme with rfl | hrest
        · exact le_rfl
        · exact (List.pairwise_cons.mp hsorted).1 me hrest
      obtain rfl := le_antisymm hfirst (hle first List.mem_cons_self)
      rw [place, List.idxOf?_cons, if_pos (beq_self_eq_true _)]

namespace Process

/-- The keeper where it is, and what it will be told. -/
def keeping (k : Process) (micros : ℕ) (work : Work) (fate : List Answer) : Process :=
  { k with phase := .keeping micros work, fate := fate }

variable {k : Process} {micros : ℕ} {fate : List Answer} {since : Finset (List Char)}
  {m m' : Machine} {j : ℕ}

theorem step_ok {work work' : Work}
    (h : work.next k.pid k.slots (k.ticket micros) m .ok = some (work', m')) :
    step (k.keeping micros work (.ok :: fate)) m = some (k.keeping micros work' fate, m') := by
  have hnext : (k.keeping micros work (.ok :: fate)).next m .ok
      = some (.keeping micros work', m') := by
    cases work with
    | exiting => cases h
    | named | queued | idle | opened | scan | drop | first | taken | holds | rest | leaving =>
        exact congrArg (Option.map fun r : Work × Machine ↦ (Phase.keeping micros r.1, r.2)) h
  exact congrArg (Option.map _) hnext

theorem step_found {names : List (List Char)}
    (hsince : ∀ t ∈ since, t ∈ m.queue → t ∈ names) (hcreated : ∀ t ∈ names, t ∈ m.created) :
    step (k.keeping micros (.opened since) (.found names :: fate)) m
      = some (k.keeping micros (.scan since (listing names) []) fate, m) := by
  have hnext : (Work.opened since).next k.pid k.slots (k.ticket micros) m (.found names)
      = some (.scan since (listing names) [], m) := if_pos ⟨hsince, hcreated⟩
  have hphase : (k.keeping micros (.opened since) (.found names :: fate)).next m (.found names)
      = some (.keeping micros (.scan since (listing names) []), m) :=
    congrArg (Option.map fun r : Work × Machine ↦ (Phase.keeping micros r.1, r.2)) hnext
  exact congrArg (Option.map _) hphase

/-- The keeper asks for each ticket whether its process is there. -/
theorem alone_scan (todo live : List (List Char)) (m : Machine) (fate : List Answer) :
    Pool.Alone step
      (k.keeping micros (.scan since todo live)
        (List.replicate (calls m k.pid todo) .ok ++ fate), m)
      (k.keeping micros (.scan since [] (live ++ todo.filter (m.isLive k.pid))) fate,
        m.swept k.pid todo) := by
  induction todo generalizing live m with
  | nil =>
      rw [List.filter_nil, List.append_nil]
      exact .refl
  | cons t todo ih =>
      cases hlive : m.isLive k.pid t with
      | true =>
          rw [calls_cons_live hlive, Machine.swept_cons_live hlive,
            List.filter_cons_of_pos hlive, List.append_cons]
          exact .head (step_ok (if_pos hlive)) (ih (live ++ [t]) m)
      | false =>
          have hneg : ¬ m.isLive k.pid t = true := Bool.eq_false_iff.mp hlive
          rw [calls_cons_gone hlive, Machine.swept_cons_gone hlive, List.filter_cons_of_neg hneg]
          exact .head (step_ok (if_neg hneg)) (.head (step_ok rfl) (ih live (m.unlink t)))

/-- The keeper tries the slots up to the first that is free. -/
theorem alone_busy (hbusy : ∀ i < j, m.locks i ≠ none) (hlt : j < k.slots) {n i : ℕ}
    (hi : i + n = j) : Pool.Alone step
      (k.keeping micros (.first since i) (List.replicate n .ok ++ fate), m)
      (k.keeping micros (.first since j) fate, m) := by
  induction n generalizing i with
  | zero =>
      obtain rfl : i = j := hi
      exact .refl
  | succ n ih =>
      have hnext : (Work.first since i).next k.pid k.slots (k.ticket micros) m .ok
          = some (.first since (i + 1), m) := by
        rw [Work.next, if_pos (by omega), if_neg (hbusy i (by omega))]
      exact .head (step_ok hnext) (ih (by omega))

/-- The keeper is the first in the queue, and gets the first slot that is free. -/
theorem alone_round (fate : List Answer) {names : List (List Char)}
    (hnames : ∀ t, t ∈ names ↔ t ∈ m.queue)
    (hqueue : m.queue ⊆ m.created)
    (hplace : place ((listing names).filter (m.isLive k.pid)) (k.ticket micros) = some 0)
    (hlt : j < k.slots) (hfree : m.locks j = none) (hbusy : ∀ i < j, m.locks i ≠ none) :
    Pool.Alone step
      (k.keeping micros .idle (.ok :: .found names ::
        (List.replicate (calls m k.pid (listing names)) .ok ++ .ok ::
          (List.replicate j .ok ++ .ok :: .ok :: fate))), m)
      (k.keeping micros (.holds m.queue j) fate,
        ((m.swept k.pid (listing names)).flock j k.pid).unlink (k.ticket micros)) := by
  have hfirst : (Work.scan m.queue [] ([] ++ (listing names).filter (m.isLive k.pid))).next k.pid
      k.slots (k.ticket micros) (m.swept k.pid (listing names)) .ok
        = some (.first m.queue 0, m.swept k.pid (listing names)) := if_pos hplace
  have hflock : (Work.first m.queue j).next k.pid k.slots (k.ticket micros)
      (m.swept k.pid (listing names)) .ok
        = some (.taken m.queue j, (m.swept k.pid (listing names)).flock j k.pid) := by
    rw [Work.next, if_pos hlt, Machine.locks_swept, if_pos hfree]
  have hbusy : ∀ i < j, (m.swept k.pid (listing names)).locks i ≠ none := by
    rwa [Machine.locks_swept]
  refine .head (step_ok rfl) (.head (step_found (fun t ht _ ↦ (hnames t).mpr ht)
    fun t ht ↦ hqueue ((hnames t).mp ht)) ((alone_scan _ _ _ _).trans ?_))
  refine .head (step_ok hfirst) (Relation.ReflTransGen.trans
    (alone_busy hbusy hlt (Nat.zero_add j)) ?_)
  exact .head (step_ok hflock) (.head (step_ok rfl) .refl)

/-- **Free slots are taken.**  A keeper at the top of its loop, with no process left that has an
older ticket, needs only so many calls to get the first slot that is free; and it leaves no
ticket in the queue whose process is gone. -/
theorem takes_free_slot {ks : List Process} (l₁ l₂ : List Process)
    (hks : ∀ k ∈ ks, k.phase = .unborn) {names : List (List Char)}
    (h : Pool.Reaches step ⟨Machine.empty, ks⟩ ⟨m, l₁ ++ k.keeping micros .idle
      (.ok :: .found names :: (List.replicate (calls m k.pid (listing names)) .ok ++ .ok ::
        (List.replicate j .ok ++ .ok :: .ok :: fate))) :: l₂⟩)
    (hnames : ∀ t, t ∈ names ↔ t ∈ m.queue)
    (holdest : ∀ t ∈ m.queue, t < k.ticket micros → m.isLive k.pid t = false)
    (hlt : j < k.slots) (hfree : m.locks j = none) (hbusy : ∀ i < j, m.locks i ≠ none) :
    ∃ m' : Machine, Pool.Reaches step ⟨Machine.empty, ks⟩
        ⟨m', l₁ ++ k.keeping micros (.holds m.queue j) fate :: l₂⟩ ∧
      ∀ t, t ∈ m'.queue ↔ t ∈ m.queue ∧ m.isLive k.pid t = true ∧ t ≠ k.ticket micros := by
  obtain ⟨hsound, -⟩ := sound_of_reaches hks h
  have hk := hsound _ (List.mem_append_right _ List.mem_cons_self)
  obtain ⟨hqueue, hcreated, -⟩ := hk.machine
  have hself : m.isLive k.pid (k.ticket micros) = true := isLive_self (hk.running rfl).2 micros
  have hme : k.ticket micros ∈ m.queue := hk.waits _ rfl
  have hlisting : ∀ t, t ∈ listing names ↔ t ∈ m.queue := fun t ↦ by
    rw [mem_listing, hnames]
    exact and_iff_left_of_imp fun ht ↦ hcreated t (hqueue ht)
  -- Of the tickets whose processes are there, the keeper's is the oldest.
  have hplace : place ((listing names).filter (m.isLive k.pid)) (k.ticket micros) = some 0 := by
    refine place_of_le ((pairwise_listing names).filter _) ?_ fun t ht ↦ ?_
    · exact List.mem_filter.mpr ⟨(hlisting _).mpr hme, hself⟩
    · obtain ⟨ht, hlive⟩ := List.mem_filter.mp ht
      by_contra hle
      rw [holdest t ((hlisting t).mp ht) (not_le.mp hle)] at hlive
      cases hlive
  have halone := alone_round fate hnames hqueue hplace hlt hfree hbusy
  refine ⟨_, h.trans (Pool.Alone.reaches halone l₁ l₂), fun t ↦ ?_⟩
  show t ∈ (m.swept k.pid (listing names)).queue.erase (k.ticket micros) ↔ _
  rw [Finset.mem_erase, Machine.mem_swept, hlisting]
  constructor
  · rintro ⟨hne, hthere, hlive⟩
    exact ⟨hthere, hlive hthere, hne⟩
  · rintro ⟨hthere, hlive, hne⟩
    exact ⟨hne, hthere, fun _ ↦ hlive⟩

/-- The keeper with pid 8 is killed while it waits with the older ticket. -/
theorem takes_free_slot_orphan :
    let names := [ticketName 200 7, ticketName 100 8]
    let second : Process := ⟨7, 1, [.ok, .clock 200, .ok, .ok, .ok, .found names, .ok, .ok, .ok,
      .ok, .ok, .ok], .unborn⟩
    let first : Process := ⟨8, 1, [.ok, .clock 100, .ok, .killed], .unborn⟩
    ∃ m' : Machine, Pool.Reaches step ⟨Machine.empty, [second, first]⟩
        ⟨m', [⟨7, 1, [], .keeping 200 (.holds {ticketName 200 7, ticketName 100 8} 0)⟩,
          ⟨8, 1, [], .ended⟩]⟩ ∧ ∀ t, t ∉ m'.queue := by
  intro names second first
  have hw : (Pool.schedule step (fun _ ↦ True) ⟨Machine.empty, [second, first]⟩
      [1, 1, 1, 1, 0, 0, 0, 0]).map (fun w ↦ (w.shared.queue, w.shared.running, w.shared.locks 0,
        w.threads)) = some ({ticketName 200 7, ticketName 100 8}, {7}, none,
        [second.keeping 200 .idle [.ok, .found names, .ok, .ok, .ok, .ok, .ok, .ok],
          ⟨8, 1, [], .ended⟩]) := by decide +kernel
  obtain ⟨⟨m, threads⟩, hrun, hcheck⟩ := Option.map_eq_some_iff.mp hw
  simp only [Prod.mk.injEq] at hcheck
  obtain ⟨hqueue, hrunning, hfree, rfl⟩ := hcheck
  have hgone : m.isLive 7 (ticketName 100 8) = false := by
    simp [Machine.isLive, hrunning]
  have hself : m.isLive 7 (ticketName 200 7) = true := isLive_self (k := second) (by decide) 200
  have hlisting : listing names = [ticketName 100 8, ticketName 200 7] := by decide +kernel
  have hcalls : calls m 7 (listing names) = 3 := by
    rw [hlisting, calls_cons_gone hgone, calls_cons_live hself]
    rfl
  have hmem : ∀ t, t ∈ names ↔ t ∈ m.queue := by
    simp [hqueue, names]
  have holdest : ∀ t ∈ m.queue, t < ticketName 200 7 → m.isLive 7 t = false := by
    intro t ht hlt
    rcases List.mem_pair.mp ((hmem t).mpr ht) with rfl | rfl
    · exact absurd hlt (lt_irrefl _)
    · exact hgone
  have hreaches := (Pool.reachesWithin_of_schedule hrun).reaches
  rw [show [Answer.ok, .ok, .ok, .ok, .ok, .ok] = List.replicate 3 .ok ++ .ok ::
    (List.replicate 0 .ok ++ .ok :: .ok :: []) from rfl, ← hcalls] at hreaches
  obtain ⟨m', hround, hleft⟩ := takes_free_slot [] [⟨8, 1, [], .ended⟩] (k := second)
    (by decide) hreaches hmem holdest (by decide) hfree (by rintro i ⟨⟩)
  rw [hqueue] at hround
  refine ⟨m', hround, fun t ht ↦ ?_⟩
  obtain ⟨hthere, hlives, hne⟩ := (hleft t).mp ht
  rcases List.mem_pair.mp ((hmem t).mpr hthere) with rfl | rfl
  · exact hne rfl
  · rw [show m.isLive second.pid = m.isLive 7 from rfl, hgone] at hlives
    cases hlives

end Process

end HeavySlot

end CloudGateway
