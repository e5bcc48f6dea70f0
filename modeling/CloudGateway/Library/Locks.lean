import Mathlib.Algebra.Order.Group.Multiset
import Mathlib.Data.Multiset.Bind
import CloudGateway.Library.Pool
import CloudGateway.Library.Prog

/-!
# Threads with locks

`LockCode L σ A` is code over a shared state `σ` that takes and releases locks of `L` between
its atomic steps.  A critical section is `guarded l c`: the lock is released however `c` ends,
as a guard that goes out of scope does, so code that can fault or fail (`LockProg`) needs no
rule of its own for its early returns.

A discipline is a pair of relations: `r h l` says that `l` may be awaited while `h` is held, and
`o a l` that one call may take `l` after it has taken `a`.  That a call keeps to a discipline
(`KeepsTo`) is a property of its code alone.  If all calls do, and no infinite chain of locks may
be awaited one behind the other, then the threads that run them, in any interleaving, never
deadlock (`exists_step`).
-/

universe u

/-- Code that takes and releases locks and reads and updates a shared state. -/
inductive LockCode (L σ A : Type u) : Type u
  | ret (a : A)
  | lock (l : L) (k : LockCode L σ A)
  | unlock (l : L) (k : LockCode L σ A)
  /-- One atomic step; the rest depends on the state it began in. -/
  | run (f : σ → σ) (k : σ → LockCode L σ A)

namespace LockCode

variable {L σ ε A B : Type u}

/-- One code after the other. -/
protected def bind : LockCode L σ A → (A → LockCode L σ B) → LockCode L σ B
  | ret a, f => f a
  | lock l k, f => lock l (k.bind f)
  | unlock l k, f => unlock l (k.bind f)
  | run g k, f => run g fun s ↦ (k s).bind f

instance instMonad : Monad (LockCode L σ) where
  pure := ret
  bind := LockCode.bind

/-- A critical section. -/
def guarded (l : L) (c : LockCode L σ A) : LockCode L σ A :=
  lock l (c.bind fun a ↦ unlock l (ret a))

/-- What code does when it runs alone. -/
def exec : LockCode L σ A → σ → A × σ
  | ret a, s => (a, s)
  | lock _ k, s => k.exec s
  | unlock _ k, s => k.exec s
  | run f k, s => (k s).exec (f s)

theorem exec_bind (c : LockCode L σ A) (f : A → LockCode L σ B) (s : σ) :
    (c.bind f).exec s = (f (c.exec s).1).exec (c.exec s).2 := by
  induction c generalizing s with
  | ret a => rfl
  | lock l k ih => exact ih s
  | unlock l k ih => exact ih s
  | run g k ih => exact ih s (g s)

@[simp] theorem exec_guarded (l : L) (c : LockCode L σ A) (s : σ) :
    (guarded l c).exec s = c.exec s := exec_bind c _ s

/-! ## Discipline -/

section Discipline

variable [DecidableEq L]

/-- From the given locks held and taken, the code keeps to the discipline, and ends with locks
held and taken as `Q` says. -/
def Obeys (r o : L → L → Prop) (Q : List L → List L → Prop) :
    LockCode L σ A → List L → List L → Prop
  | ret _, held, taken => Q held taken
  | lock l k, held, taken =>
      (∀ h ∈ held, r h l) ∧ (∀ a ∈ taken, o a l) ∧ k.Obeys r o Q (l :: held) (taken ++ [l])
  | unlock l k, held, taken => l ∈ held ∧ k.Obeys r o Q (held.erase l) taken
  | run _ k, held, taken => ∀ s, (k s).Obeys r o Q held taken

/-- The code of a call: it begins with no lock held or taken, and ends with none held. -/
def KeepsTo (r o : L → L → Prop) (c : LockCode L σ A) : Prop :=
  c.Obeys r o (fun held _ ↦ held = []) [] []

variable {r o : L → L → Prop} {P Q : List L → List L → Prop} {held taken : List L}

theorem Obeys.bind {c : LockCode L σ A} {f : A → LockCode L σ B}
    (hc : c.Obeys r o P held taken)
    (hf : ∀ a held taken, P held taken → (f a).Obeys r o Q held taken) :
    (c.bind f).Obeys r o Q held taken := by
  induction c generalizing held taken with
  | ret a => exact hf a held taken hc
  | lock l k ih => exact ⟨hc.1, hc.2.1, ih hc.2.2⟩
  | unlock l k ih => exact ⟨hc.1, ih hc.2⟩
  | run g k ih => exact fun s ↦ ih s (hc s)

/-- A critical section obeys if its body does with the lock held. -/
theorem Obeys.guarded {l : L} {c : LockCode L σ A} (hheld : ∀ h ∈ held, r h l)
    (htaken : ∀ a ∈ taken, o a l)
    (hc : c.Obeys r o (fun h t ↦ l ∈ h ∧ Q (h.erase l) t) (l :: held) (taken ++ [l])) :
    (guarded l c).Obeys r o Q held taken :=
  ⟨hheld, htaken, hc.bind fun _ _ _ h ↦ h⟩

end Discipline

end LockCode

/-! ## Code that may fault or fail -/

/-- Code with locks that faults, fails or returns, as a `Prog` does. -/
abbrev LockProg (L σ ε : Type u) := ExceptT ε (OptionT (LockCode L σ))

namespace LockProg

variable {L σ ε A B : Type u}

/-- The code of a program whose outcome is a value of the code. -/
def code (c : LockProg L σ ε A) : LockCode L σ (Option (Except ε A)) := c

/-- A program as one atomic step. -/
def atomic (x : Prog σ ε A) : LockProg L σ ε A :=
  (.run (fun s ↦ ((x.run s).map Prod.snd).getD s)
    fun s ↦ .ret ((x.run s).map Prod.fst) : LockCode L σ (Option (Except ε A)))

/-- A critical section, left however the program ends. -/
def guarded (l : L) (x : Prog σ ε A) : LockProg L σ ε A :=
  (LockCode.guarded l (atomic x).code : LockCode L σ (Option (Except ε A)))

/-- The program without its locks. -/
def toProg (c : LockProg L σ ε A) : Prog σ ε A :=
  ⟨fun s ↦ (c.code.exec s).1.map fun out ↦ (out, (c.code.exec s).2)⟩

theorem run_toProg (c : LockProg L σ ε A) (s : σ) :
    (toProg c).run s = (c.code.exec s).1.map fun out ↦ (out, (c.code.exec s).2) := rfl

@[simp] theorem toProg_atomic (x : Prog σ ε A) : toProg (atomic x : LockProg L σ ε A) = x := by
  have hrun : ∀ s, (toProg (atomic x : LockProg L σ ε A)).run s = x.run s := by
    intro s
    show ((x.run s).map Prod.fst).map (fun out ↦ (out, ((x.run s).map Prod.snd).getD s))
      = x.run s
    cases x.run s <;> rfl
  exact congrArg Prog.mk (funext hrun)

@[simp] theorem toProg_guarded (l : L) (x : Prog σ ε A) : toProg (guarded l x) = x := by
  have hexec : ∀ s, (guarded l x).code.exec s = (atomic x : LockProg L σ ε A).code.exec s :=
    LockCode.exec_guarded l _
  have hrun : ∀ s, (toProg (guarded l x)).run s
      = (toProg (atomic x : LockProg L σ ε A)).run s := by
    intro s
    rw [run_toProg, run_toProg, hexec]
  rw [toProg_atomic] at hrun
  exact congrArg Prog.mk (funext hrun)

@[simp] theorem toProg_pure (a : A) : toProg (pure a : LockProg L σ ε A) = pure a := rfl

/-- What the code of a sequence does after its first part. -/
def andThen (f : A → LockProg L σ ε B) : Option (Except ε A) → LockProg L σ ε B
  | some (.ok a) => f a
  | some (.error e) => (.ret (some (.error e)) : LockCode L σ (Option (Except ε B)))
  | none => (.ret none : LockCode L σ (Option (Except ε B)))

theorem code_bind (c : LockProg L σ ε A) (f : A → LockProg L σ ε B) :
    (c >>= f).code = c.code.bind fun out ↦ (andThen f out).code := by
  show LockCode.bind c _ = LockCode.bind c _
  refine congrArg (LockCode.bind c) (funext fun out ↦ ?_)
  rcases out with - | e | a <;> rfl

@[simp] theorem toProg_bind (c : LockProg L σ ε A) (f : A → LockProg L σ ε B) :
    toProg (c >>= f) = toProg c >>= fun a ↦ toProg (f a) := by
  have hrun : ∀ s, (toProg (c >>= f)).run s = (toProg c >>= fun a ↦ toProg (f a)).run s := by
    intro s
    have hexec := LockCode.exec_bind c.code (fun out ↦ (andThen f out).code) s
    rw [← code_bind] at hexec
    cases hc : c.code.exec s with
    | mk out s' =>
        rw [hc] at hexec
        have hfirst : (toProg c).run s = out.map fun out ↦ (out, s') := by
          rw [run_toProg, hc]
        rcases out with - | e | a
        · rw [Prog.run_bind_of_none hfirst, run_toProg, hexec]
          rfl
        · rw [Prog.run_bind_of_error hfirst, run_toProg, hexec]
          rfl
        · rw [Prog.run_bind_of_ok hfirst, run_toProg, hexec]
          rfl
  exact congrArg Prog.mk (funext hrun)

section Discipline

variable [DecidableEq L] {r o : L → L → Prop} {P Q R : List L → List L → Prop}

/-- From locks as `P` says, the program keeps to the discipline and ends with locks as `Q`
says, whether it faults, fails or returns. -/
def Keeps (r o : L → L → Prop) (P Q : List L → List L → Prop) (c : LockProg L σ ε A) : Prop :=
  ∀ held taken, P held taken → c.code.Obeys r o Q held taken

theorem Keeps.pure (hPQ : ∀ held taken, P held taken → Q held taken) (a : A) :
    Keeps r o P Q (Pure.pure a : LockProg L σ ε A) := hPQ

theorem Keeps.atomic (hPQ : ∀ held taken, P held taken → Q held taken) (x : Prog σ ε A) :
    Keeps r o P Q (atomic x : LockProg L σ ε A) :=
  fun held taken h _ ↦ hPQ held taken h

/-- Two programs in a row; the first may end the whole. -/
theorem Keeps.bind {c : LockProg L σ ε A} {f : A → LockProg L σ ε B} (hc : Keeps r o P Q c)
    (hf : ∀ a, Keeps r o Q R (f a)) (hQR : ∀ held taken, Q held taken → R held taken) :
    Keeps r o P R (c >>= f) := by
  intro held taken h
  rw [code_bind]
  refine (hc held taken h).bind fun out held taken hQ ↦ ?_
  rcases out with - | e | a
  · exact hQR held taken hQ
  · exact hQR held taken hQ
  · exact hf a held taken hQ

theorem Keeps.guarded {l : L}
    (hP : ∀ held taken, P held taken →
      (∀ h ∈ held, r h l) ∧ (∀ a ∈ taken, o a l) ∧ Q held (taken ++ [l])) (x : Prog σ ε A) :
    Keeps r o P Q (guarded l x) := by
  intro held taken h
  obtain ⟨hheld, htaken, hQ⟩ := hP held taken h
  refine LockCode.Obeys.guarded hheld htaken fun _ ↦ ⟨List.mem_cons_self, ?_⟩
  rw [List.erase_cons_head]
  exact hQ

end Discipline

end LockProg

/-! ## Threads -/

/-- A shared state with the locks that are taken. -/
structure Locked (L σ : Type u) where
  locked : Multiset L
  data : σ

/-- A thread: the rest of its current call, the calls it will make after it, the locks it holds,
and those its current call has taken so far, in order. -/
structure LockThread (L σ : Type u) where
  code : LockCode L σ PUnit
  later : List (LockCode L σ PUnit)
  held : List L
  taken : List L

namespace LockThread

variable {L σ : Type u}

/-- A thread that will make the given calls. -/
def start (calls : List (LockCode L σ PUnit)) : LockThread L σ := ⟨.ret ⟨⟩, calls, [], []⟩

/-- The thread has made all its calls. -/
def Finished (t : LockThread L σ) : Prop := t.code = .ret ⟨⟩ ∧ t.later = []

/-- The next step of the thread is to take the lock. -/
def Awaits (t : LockThread L σ) (l : L) : Prop := ∃ k, t.code = .lock l k

variable [DecidableEq L]

instance (t : LockThread L σ) (l : L) : Decidable (t.Awaits l) :=
  match h : t.code with
  | .lock l' k =>
      if hl : l' = l then .isTrue ⟨k, hl ▸ h⟩
      else .isFalse fun ⟨_, hk⟩ ↦ hl (by rw [h] at hk; exact (LockCode.lock.inj hk).1)
  | .ret _ => .isFalse fun ⟨_, hk⟩ ↦ by rw [h] at hk; cases hk
  | .unlock _ _ => .isFalse fun ⟨_, hk⟩ ↦ by rw [h] at hk; cases hk
  | .run _ _ => .isFalse fun ⟨_, hk⟩ ↦ by rw [h] at hk; cases hk

/-- The next atomic step of a thread.  A lock is taken only while nobody has it. -/
def step (t : LockThread L σ) (s : Locked L σ) : Option (LockThread L σ × Locked L σ) :=
  match t.code with
  | .ret _ => match t.later with
      | [] => none
      | c :: later => some ({ t with code := c, later := later, taken := [] }, s)
  | .lock l k =>
      if l ∈ s.locked then none
      else some ({ t with code := k, held := l :: t.held, taken := t.taken ++ [l] },
        { s with locked := l ::ₘ s.locked })
  | .unlock l k =>
      if l ∈ t.held ∧ l ∈ s.locked then
        some ({ t with code := k, held := t.held.erase l },
          { s with locked := s.locked.erase l })
      else none
  | .run f k => some ({ t with code := k s.data }, { s with data := f s.data })

/-- What a step of a thread can be. -/
inductive Steps (t : LockThread L σ) (s : Locked L σ) : LockThread L σ → Locked L σ → Prop
  | call {c : LockCode L σ PUnit} {later : List (LockCode L σ PUnit)} (hc : t.code = .ret ⟨⟩)
      (hl : t.later = c :: later) : Steps t s ⟨c, later, t.held, []⟩ s
  | lock {l : L} {k : LockCode L σ PUnit} (hc : t.code = .lock l k) (hl : l ∉ s.locked) :
      Steps t s ⟨k, t.later, l :: t.held, t.taken ++ [l]⟩ ⟨l ::ₘ s.locked, s.data⟩
  | unlock {l : L} {k : LockCode L σ PUnit} (hc : t.code = .unlock l k) (hh : l ∈ t.held)
      (hl : l ∈ s.locked) :
      Steps t s ⟨k, t.later, t.held.erase l, t.taken⟩ ⟨s.locked.erase l, s.data⟩
  | run {f : σ → σ} {k : σ → LockCode L σ PUnit} (hc : t.code = .run f k) :
      Steps t s ⟨k s.data, t.later, t.held, t.taken⟩ ⟨s.locked, f s.data⟩

theorem steps_of_step {t t' : LockThread L σ} {s s' : Locked L σ}
    (h : t.step s = some (t', s')) : Steps t s t' s' := by
  rw [step] at h
  cases hc : t.code with
  | ret a =>
      simp only [hc] at h
      cases hl : t.later with
      | nil =>
          simp only [hl] at h
          cases h
      | cons c later =>
          simp only [hl] at h
          obtain ⟨rfl, rfl⟩ := Prod.mk.inj (Option.some.inj h)
          exact .call hc hl
  | lock l k =>
      simp only [hc] at h
      by_cases hl : l ∈ s.locked
      · rw [if_pos hl] at h
        cases h
      · rw [if_neg hl] at h
        obtain ⟨rfl, rfl⟩ := Prod.mk.inj (Option.some.inj h)
        exact .lock hc hl
  | unlock l k =>
      simp only [hc] at h
      by_cases hl : l ∈ t.held ∧ l ∈ s.locked
      · rw [if_pos hl] at h
        obtain ⟨rfl, rfl⟩ := Prod.mk.inj (Option.some.inj h)
        exact .unlock hc hl.1 hl.2
      · rw [if_neg hl] at h
        cases h
  | run f k =>
      simp only [hc] at h
      obtain ⟨rfl, rfl⟩ := Prod.mk.inj (Option.some.inj h)
      exact .run hc

/-- A lock is released by the thread that holds it, and only then. -/
theorem locked_step {t t' : LockThread L σ} {s s' : Locked L σ}
    (h : t.step s = some (t', s')) :
    s'.locked + (t.held : Multiset L) = s.locked + (t'.held : Multiset L) := by
  cases steps_of_step h with
  | call _ _ => rfl
  | @lock l k _ _ =>
      rw [← Multiset.cons_coe, Multiset.cons_add, Multiset.add_cons]
  | @unlock l k _ hh hl =>
      calc s.locked.erase l + (t.held : Multiset L)
        _ = s.locked.erase l + l ::ₘ (t.held : Multiset L).erase l := by
            rw [Multiset.cons_erase (Multiset.mem_coe.mpr hh)]
        _ = l ::ₘ s.locked.erase l + (t.held : Multiset L).erase l := by
            rw [Multiset.cons_add, Multiset.add_cons]
        _ = s.locked + (t.held.erase l : Multiset L) := by
            rw [Multiset.cons_erase hl, Multiset.coe_erase]
  | run _ => rfl

/-! ## Disciplined threads -/

/-- The rest of the thread's call and its later calls keep to the discipline, and its call has
taken its locks in order. -/
structure Disciplined (r o : L → L → Prop) (t : LockThread L σ) : Prop where
  code : t.code.Obeys r o (fun held _ ↦ held = []) t.held t.taken
  later : ∀ c ∈ t.later, c.KeepsTo r o
  ordered : t.taken.Pairwise o

variable {r o : L → L → Prop}

theorem disciplined_start {calls : List (LockCode L σ PUnit)}
    (h : ∀ c ∈ calls, c.KeepsTo r o) :
    (start calls).Disciplined r o := ⟨rfl, h, .nil⟩

/-- A disciplined thread stays so. -/
theorem Disciplined.step {t t' : LockThread L σ} {s s' : Locked L σ} (hd : t.Disciplined r o)
    (h : t.step s = some (t', s')) : t'.Disciplined r o := by
  obtain ⟨hcode, hlater, hord⟩ := hd
  cases steps_of_step h with
  | @call c later hc hl =>
      rw [hc] at hcode
      have hheld : t.held = [] := hcode
      rw [hl] at hlater
      refine ⟨?_, fun c' hc' ↦ hlater c' (List.mem_cons_of_mem c hc'), .nil⟩
      rw [hheld]
      exact hlater c List.mem_cons_self
  | @lock l k hc hl =>
      rw [hc] at hcode
      obtain ⟨-, htaken, hk⟩ := hcode
      refine ⟨hk, hlater, List.pairwise_append.mpr ⟨hord, List.pairwise_singleton _ _, ?_⟩⟩
      intro a ha b hb
      rw [List.mem_singleton.mp hb]
      exact htaken a ha
  | unlock hc _ _ =>
      rw [hc] at hcode
      exact ⟨hcode.2, hlater, hord⟩
  | run hc =>
      rw [hc] at hcode
      exact ⟨hcode s.data, hlater, hord⟩

/-- A disciplined thread awaits a lock only while it may. -/
theorem Disciplined.awaits {t : LockThread L σ} (hd : t.Disciplined r o) {l : L}
    (h : t.Awaits l) : ∀ h ∈ t.held, r h l := by
  obtain ⟨k, hk⟩ := h
  have hcode := hd.code
  rw [hk] at hcode
  exact hcode.1

/-- A disciplined thread that is done holds nothing. -/
theorem Disciplined.held_of_finished {t : LockThread L σ} (hd : t.Disciplined r o)
    (h : t.Finished) : t.held = [] := by
  have hcode := hd.code
  rw [h.1] at hcode
  exact hcode

/-- A disciplined thread is done, or can go on, or awaits a lock that is taken. -/
theorem Disciplined.awaits_of_stuck {t : LockThread L σ} {s : Locked L σ}
    (hd : t.Disciplined r o) (hheld : ∀ l ∈ t.held, l ∈ s.locked) (hstuck : t.step s = none)
    (hunfinished : ¬ t.Finished) : ∃ l ∈ s.locked, t.Awaits l := by
  have hcode := hd.code
  rw [LockThread.step] at hstuck
  cases hc : t.code with
  | ret a =>
      simp only [hc] at hstuck
      cases hl : t.later with
      | nil => exact absurd ⟨hc, hl⟩ hunfinished
      | cons c later =>
          simp only [hl] at hstuck
          cases hstuck
  | lock l k =>
      simp only [hc] at hstuck
      by_cases hl : l ∈ s.locked
      · exact ⟨l, hl, k, hc⟩
      · rw [if_neg hl] at hstuck
        cases hstuck
  | unlock l k =>
      simp only [hc] at hstuck
      rw [hc] at hcode
      rw [if_pos ⟨hcode.1, hheld l hcode.1⟩] at hstuck
      cases hstuck
  | run f k =>
      simp only [hc] at hstuck
      cases hstuck

/-! ## Runs -/

/-- Threads that have not begun, on a state with no lock taken. -/
def pool (data : σ) (calls : List (List (LockCode L σ PUnit))) :
    Pool (Locked L σ) (LockThread L σ) := ⟨⟨0, data⟩, calls.map start⟩

variable {data : σ} {calls : List (List (LockCode L σ PUnit))}
  {w : Pool (Locked L σ) (LockThread L σ)}

theorem disciplined_of_reaches
    (hcalls : ∀ cs ∈ calls, ∀ c ∈ cs, c.KeepsTo r o)
    (h : Pool.Reaches step (pool data calls) w) : ∀ t ∈ w.threads, t.Disciplined r o := by
  refine Pool.Reaches.forall_threads (J := fun _ t ↦ Disciplined r o t)
    (fun t s t' s' hs hd ↦ hd.step hs) (fun _ _ _ _ _ _ hd ↦ hd) h ?_
  intro t ht
  obtain ⟨cs, hcs, rfl⟩ := List.mem_map.mp ht
  exact disciplined_start (hcalls cs hcs)

/-- The locks taken are those the threads hold. -/
theorem locked_of_reaches (h : Pool.Reaches step (pool data calls) w) :
    w.shared.locked = (w.threads.map fun t ↦ (t.held : Multiset L)).sum := by
  have hacc := h.accounting Locked.locked (fun t : LockThread L σ ↦ (t.held : Multiset L))
    fun t s t' s' ↦ locked_step
  have hnone : ((pool data calls).threads.map fun t ↦ (t.held : Multiset L)).sum = 0 := by
    refine List.sum_eq_zero fun x hx ↦ ?_
    obtain ⟨t, ht, rfl⟩ := List.mem_map.mp hx
    obtain ⟨cs, -, rfl⟩ := List.mem_map.mp ht
    rfl
  rw [hnone, add_zero] at hacc
  rw [hacc]
  exact zero_add _

/-- **No deadlock.**  If every call keeps to the discipline, and there is no infinite chain of
locks each of which may be awaited while the one before is held, then in every reachable
state with a thread that is not done, some thread can take a step. -/
theorem exists_step (hwf : WellFounded fun l h ↦ r h l)
    (hcalls : ∀ cs ∈ calls, ∀ c ∈ cs, c.KeepsTo r o)
    (hw : Pool.Reaches step (pool data calls) w) (hun : ∃ t ∈ w.threads, ¬ t.Finished) :
    ∃ t ∈ w.threads, (t.step w.shared).isSome := by
  have hd := disciplined_of_reaches hcalls hw
  have hmem : ∀ l, l ∈ w.shared.locked ↔ ∃ t ∈ w.threads, l ∈ t.held := by
    intro l
    have hjoin : l ∈ Multiset.join ↑(w.threads.map fun t ↦ (t.held : Multiset L)) ↔
        ∃ t ∈ w.threads, l ∈ t.held := by simp [Multiset.mem_join]
    rwa [Multiset.join, Multiset.sum_coe, ← locked_of_reaches hw] at hjoin
  by_contra hnone
  have hstuck : ∀ t ∈ w.threads, t.step w.shared = none := by
    intro t ht
    by_contra hsome
    exact hnone ⟨t, ht, Option.isSome_iff_ne_none.mpr hsome⟩
  have hawaits : ∀ t ∈ w.threads, ¬ t.Finished → ∃ l ∈ w.shared.locked, t.Awaits l :=
    fun t ht ↦ (hd t ht).awaits_of_stuck (fun l hl ↦ (hmem l).mpr ⟨t, ht, hl⟩) (hstuck t ht)
  -- Whoever holds an awaited lock awaits a further one.
  have hchain : ∀ l, l ∉ w.shared.locked := by
    intro l
    induction l using hwf.induction with
    | _ l ih =>
        intro hl
        obtain ⟨t, ht, hheld⟩ := (hmem l).mp hl
        have hunfinished : ¬ t.Finished := by
          intro hf
          rw [(hd t ht).held_of_finished hf] at hheld
          cases hheld
        obtain ⟨l', hl', ha⟩ := hawaits t ht hunfinished
        exact ih l' ((hd t ht).awaits ha l hheld) hl'
  obtain ⟨t, ht, hunfinished⟩ := hun
  obtain ⟨l, hl, -⟩ := hawaits t ht hunfinished
  exact hchain l hl

end LockThread
