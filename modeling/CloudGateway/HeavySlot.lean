import Mathlib.Data.Finset.Erase
import Mathlib.Data.Finset.Insert
import Mathlib.Data.List.DropRight
import Mathlib.Data.List.Sort
import CloudGateway.Library.Padded
import CloudGateway.Library.Pool

/-!
# The heavy slots

The lock of `scripts/preflight.sh` that lets `ALICE_HEAVY_SLOTS` heavy runs of a machine go on
at a time: the keeper process of `heavy_slot_acquire`, one atomic step for each call it makes
to the system.  The processes of the machine are the threads of a pool, and what they share is
the directory of the slots and the process table.

What a call of a process comes back with is not up to the process: which names `readdir` finds
while others come and go, what time it is, whether its parent is still there, whether the
process is killed.  A process reads these off its `fate`, a list of answers; nothing is
assumed about it.
-/

namespace CloudGateway

namespace HeavySlot

/-! ## Tickets -/

/-- `sprintf("%017.6f-%d", time, $$)`, the time in microseconds. -/
def ticketName (micros pid : ℕ) : List Char :=
  zeroPad 10 (micros / 1000000) ++
    '.' :: (zeroPad 6 (micros % 1000000) ++ '-' :: Nat.toDigits 10 pid)

/-- `$p`: the digits at the end of a name, if a `-` is before them. -/
def pidOf (name : List Char) : Option ℕ :=
  let digits := name.rtakeWhile Char.isDigit
  if digits ≠ [] ∧ (name.rdropWhile Char.isDigit).getLast? = some '-' then
    some (Nat.ofDigitChars 10 digits 0)
  else none

/-- The pid is read back from the name. -/
theorem pidOf_append (stem : List Char) (pid : ℕ) :
    pidOf (stem ++ '-' :: Nat.toDigits 10 pid) = some pid := by
  have hdigits : ∀ c ∈ (Nat.toDigits 10 pid).reverse, c.isDigit = true := fun c hc ↦
    Nat.isDigit_of_mem_toDigits (by decide) (by decide) (List.mem_reverse.mp hc)
  have hreverse : (stem ++ '-' :: Nat.toDigits 10 pid).reverse
      = (Nat.toDigits 10 pid).reverse ++ '-' :: stem.reverse := by simp
  have htake : (stem ++ '-' :: Nat.toDigits 10 pid).rtakeWhile Char.isDigit
      = Nat.toDigits 10 pid := by
    rw [List.rtakeWhile, hreverse, List.takeWhile_append_of_pos hdigits]
    simp
  have hdrop : (stem ++ '-' :: Nat.toDigits 10 pid).rdropWhile Char.isDigit = stem ++ ['-'] := by
    rw [List.rdropWhile, hreverse, List.dropWhile_append_of_pos hdigits]
    simp
  have hlast : (stem ++ ['-']).getLast? = some '-' := List.getLast?_concat ..
  rw [pidOf, htake, hdrop, if_pos ⟨Nat.toDigits_ne_nil, hlast⟩, Nat.ofDigitChars_ten_toDigits]

@[simp] theorem pidOf_ticketName (micros pid : ℕ) : pidOf (ticketName micros pid) = some pid := by
  have hsplit : ticketName micros pid = (zeroPad 10 (micros / 1000000) ++
      '.' :: zeroPad 6 (micros % 1000000)) ++ '-' :: Nat.toDigits 10 pid := by
    simp [ticketName]
  rw [hsplit, pidOf_append]

theorem isDigit_head?_ticketName (micros pid : ℕ) :
    (ticketName micros pid).head?.any Char.isDigit = true := by
  obtain ⟨c, hc, hhead⟩ := head?_zeroPad 10 (micros / 1000000)
  rw [ticketName, List.head?_append, hhead]
  exact hc

/-- Until the clock has eleven digits of seconds, the earlier ticket is the smaller name. -/
theorem ticketName_lt_of_lt {micros micros' : ℕ} (h : micros < micros') (pid pid' : ℕ)
    (hclock : micros' < 10 ^ 16) : ticketName micros pid < ticketName micros' pid' := by
  have hseconds' : micros' / 1000000 < 10 ^ 10 := Nat.div_lt_of_lt_mul hclock
  have hseconds : micros / 1000000 < 10 ^ 10 := Nat.div_lt_of_lt_mul (h.trans hclock)
  rw [ticketName, ticketName]
  rcases Nat.lt_or_eq_of_le (Nat.div_le_div_right (c := 1000000) h.le) with hlt | heq
  · refine List.append_lt_append_of_lt (zeroPad_lt_of_lt (by decide) hseconds' hlt) ?_ _ _
    rw [length_zeroPad (by decide) hseconds, length_zeroPad (by decide) hseconds']
  · rw [heq]
    refine List.append_lt_append_left (.cons ?_) _
    have hmicros : ∀ n, n % 1000000 < 10 ^ 6 := fun n ↦ Nat.mod_lt _ (by decide)
    refine List.append_lt_append_of_lt (zeroPad_lt_of_lt (by decide) (hmicros _) ?_) ?_ _ _
    · omega
    · rw [length_zeroPad (by decide) (hmicros _), length_zeroPad (by decide) (hmicros _)]

/-- `sort grep { /^\d/ }`. -/
def listing (names : List (List Char)) : List (List Char) :=
  (names.filter fun name ↦ name.head?.any Char.isDigit).insertionSort (· ≤ ·)

/-- `my ($place) = grep { $live[$_] eq $me } 0 .. $#live`. -/
def place (live : List (List Char)) (me : List Char) : Option ℕ := live.idxOf? me

theorem mem_listing {names : List (List Char)} {name : List Char} :
    name ∈ listing names ↔ name ∈ names ∧ name.head?.any Char.isDigit = true := by
  rw [listing, List.mem_insertionSort, List.mem_filter]

theorem pairwise_listing (names : List (List Char)) : (listing names).Pairwise (· ≤ ·) :=
  List.pairwise_insertionSort _ _

/-- The first of a sorted list is the smallest in it. -/
theorem le_of_place {live : List (List Char)} {me t : List Char}
    (hsorted : live.Pairwise (· ≤ ·)) (h : place live me = some 0) (ht : t ∈ live) : me ≤ t := by
  cases live with
  | nil => cases ht
  | cons first rest =>
      have hme : first = me := by
        by_contra hne
        rw [place, List.idxOf?_cons, if_neg (by simpa using hne)] at h
        obtain ⟨n, -, hn⟩ := Option.map_eq_some_iff.mp h
        cases hn
      subst hme
      rcases List.mem_cons.mp ht with rfl | ht
      · exact le_rfl
      · exact (List.pairwise_cons.mp hsorted).1 t ht

/-! ## The machine -/

/-- What the processes share. -/
structure Machine where
  /-- The names in `queue/`. -/
  queue : Finset (List Char)
  /-- The names there ever were in `queue/`. -/
  created : Finset (List Char)
  /-- The process whose `flock` is on `lock.<k>`. -/
  locks : ℕ → Option ℕ
  /-- The pids of the processes there are. -/
  running : Finset ℕ

namespace Machine

/-- Nobody has come yet. -/
def empty : Machine := ⟨∅, ∅, fun _ ↦ none, ∅⟩

def fork (m : Machine) (pid : ℕ) : Machine := { m with running := insert pid m.running }

def create (m : Machine) (name : List Char) : Machine :=
  { m with queue := insert name m.queue, created := insert name m.created }

def unlink (m : Machine) (name : List Char) : Machine := { m with queue := m.queue.erase name }

def flock (m : Machine) (k pid : ℕ) : Machine :=
  { m with locks := Function.update m.locks k (some pid) }

/-- A process ends, and the kernel takes its locks back. -/
def exit (m : Machine) (pid : ℕ) : Machine :=
  { m with
    locks := fun k ↦ (m.locks k).filter (· ≠ pid)
    running := m.running.erase pid }

theorem locks_flock (m : Machine) (k pid j : ℕ) :
    (m.flock k pid).locks j = if j = k then some pid else m.locks j :=
  Function.update_apply _ _ _ _

theorem locks_exit_iff {m : Machine} {pid j p : ℕ} :
    (m.exit pid).locks j = some p ↔ m.locks j = some p ∧ p ≠ pid := by
  rw [exit, Option.filter_eq_some_iff, decide_eq_true_iff]

/-- `$p && ($p == $$ || kill(0, $p))`. -/
def isLive (m : Machine) (pid : ℕ) (name : List Char) : Bool :=
  (pidOf name).any fun p ↦ p ≠ 0 && (p == pid || decide (p ∈ m.running))

end Machine

/-! ## The keeper -/

/-- Where a keeper is, each named by what it does next.  `since` is what was in `queue/` when
the keeper last opened it. -/
inductive Work
  /-- `open` the ticket. -/
  | named
  /-- The ticket is there: `open` the locks. -/
  | queued
  /-- The top of the loop: `opendir`. -/
  | idle
  /-- `readdir`. -/
  | opened (since : Finset (List Char))
  /-- `kill 0` for the next of the names `todo`, if there is one. -/
  | scan (since : Finset (List Char)) (todo live : List (List Char))
  /-- `unlink` the ticket `name` of a process that is gone. -/
  | drop (since : Finset (List Char)) (name : List Char) (todo live : List (List Char))
  /-- The first in the queue: `flock` slot `k`. -/
  | first (since : Finset (List Char)) (k : ℕ)
  /-- The slot is taken: `unlink` the ticket. -/
  | taken (since : Finset (List Char)) (k : ℕ)
  /-- `sleep 1 while getppid() == parent`. -/
  | holds (since : Finset (List Char)) (k : ℕ)
  /-- No slot in this round: give up, or sleep. -/
  | rest
  /-- The `END` block. -/
  | leaving
  /-- The process ends. -/
  | exiting
deriving DecidableEq

/-- What a call to the system comes back with. -/
inductive Answer
  | ok
  | fails
  /-- `time`. -/
  | clock (micros : ℕ)
  /-- `readdir`. -/
  | found (names : List (List Char))
  /-- `$w >= $limit`. -/
  | timeout
  /-- `getppid() != $parent`. -/
  | orphaned
  /-- A signal has ended the process. -/
  | killed
deriving DecidableEq

inductive Phase
  /-- The process does not exist yet. -/
  | unborn
  /-- It exists, and has no ticket: a keeper that has not read the clock, or another program. -/
  | started
  /-- A keeper that has read the clock. -/
  | keeping (micros : ℕ) (work : Work)
  | ended
deriving DecidableEq

structure Process where
  pid : ℕ
  /-- `$n`, from `heavy_slot_count`. -/
  slots : ℕ
  fate : List Answer
  phase : Phase
deriving DecidableEq

/-- `$me`. -/
def Process.ticket (k : Process) (micros : ℕ) : List Char := ticketName micros k.pid

/-- A keeper's next call, with what it does to the machine.  `readdir` finds the names that
have been there since `opendir`, and of the others whichever have been there at some time. -/
def Work.next (pid slots : ℕ) (me : List Char) (m : Machine) :
    Work → Answer → Option (Work × Machine)
  -- Assumed: no two processes of one pid read the same microsecond.  Where a ticket of that
  -- name is still there, `open` would empty it and come back.
  | .named, .ok => if me ∈ m.created then none else some (.queued, m.create me)
  | .named, .fails => some (.leaving, m)
  | .queued, .ok => some (.idle, m)
  | .queued, .fails => some (.leaving, m)
  | .idle, .ok => some (.opened m.queue, m)
  | .idle, .fails => some (.leaving, m)
  | .opened since, .found names =>
      if (∀ t ∈ since, t ∈ m.queue → t ∈ names) ∧ ∀ t ∈ names, t ∈ m.created then
        some (.scan since (listing names) [], m)
      else none
  | .scan since (t :: todo) live, .ok =>
      if m.isLive pid t then some (.scan since todo (live ++ [t]), m)
      else some (.drop since t todo live, m)
  | .scan since [] live, .ok =>
      if place live me = some 0 then some (.first since 0, m) else some (.rest, m)
  | .drop since t todo live, .ok => some (.scan since todo live, m.unlink t)
  | .first since k, .ok =>
      if k < slots then
        if m.locks k = none then some (.taken since k, m.flock k pid)
        else some (.first since (k + 1), m)
      else some (.rest, m)
  | .taken since k, .ok => some (.holds since k, m.unlink me)
  | .holds since k, .ok => some (.holds since k, m)
  | .rest, .ok => some (.idle, m)
  | .rest, .timeout => some (.leaving, m)
  | .rest, .orphaned => some (.leaving, m)
  | .leaving, .ok => some (.exiting, m.unlink me)
  | _, _ => none

/-- A process's next call, by the answer it gets. -/
def Process.next (k : Process) (m : Machine) : Answer → Option (Phase × Machine)
  | .killed =>
      match k.phase with
      | .started | .keeping _ _ => some (.ended, m.exit k.pid)
      | .unborn | .ended => none
  | a =>
      match k.phase, a with
      | .unborn, .ok =>
          if k.pid = 0 ∨ k.pid ∈ m.running then none else some (.started, m.fork k.pid)
      | .started, .clock micros => some (.keeping micros .named, m)
      | .keeping _ .exiting, .ok => some (.ended, m.exit k.pid)
      -- `$ticket` is undefined by now, so that the `END` block does nothing.
      | .keeping _ (.holds _ _), .orphaned => some (.ended, m.exit k.pid)
      | .keeping micros work, a =>
          (work.next k.pid k.slots (k.ticket micros) m a).map fun r ↦ (.keeping micros r.1, r.2)
      | _, _ => none

/-- A process's next step. -/
def Process.step (k : Process) (m : Machine) : Option (Process × Machine) :=
  match k.fate with
  | a :: fate => (k.next m a).map fun r ↦ ({ k with phase := r.1, fate := fate }, r.2)
  | [] => none

end HeavySlot

end CloudGateway
