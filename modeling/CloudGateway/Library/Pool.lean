import Mathlib.Logic.Relation
import Mathlib.Algebra.BigOperators.Group.List.Basic
import Mathlib.Data.List.Forall2
import Mathlib.Tactic.Abel

/-!
# Pools of threads

A pool is a shared state with a list of threads; one step of the pool is one
atomic step of one of its threads, chosen by nobody in particular, so that a run
of the pool is an interleaving of its threads.

A thread is a value `t : τ`, and `step t s` is its next atomic step on the shared
state `s`, if it has one.  Six rules turn a fact about one such step into a
fact about every run of every pool:

* `Reaches.map_threads` — what no thread changes about itself;
* `Reaches.forall_threads` — what every thread keeps about itself;
* `Reaches.forall_pairs` — what it keeps about itself as long as it is apart from the others;
* `Reaches.accounting` — what the shared state gains is what the threads account
  for;
* `Reaches.traced` and `Reaches.history` — what a component of the shared state has undergone
  is what the threads have done to it, in some order;
* `Reaches.map` — what a pool looks like from a coarser one.

A pool at which threads arrive is no more general (`Opens.reaches`), and threads whose
steps nobody sees can be taken out of a run (`Reaches.erase`).  Threads that only look at the
shared state do not disturb the others (`Reaches.workers`), and what they have seen they have
seen along the run of the others (`Reaches.forall_observers`).

`ReachesWithin P` is a run all of whose pools satisfy `P`, and `ReachesWhere G` one in which
each thread that takes a step finds the shared state and the other threads as `G` says.
-/

universe u v w

/-- A shared state and the threads that work on it. -/
structure Pool (σ : Type u) (τ : Type v) where
  shared : σ
  threads : List τ

namespace Pool

variable {σ : Type u} {τ : Type v} (step : τ → σ → Option (τ × σ))

/-- One atomic step of one thread. -/
inductive Step : Pool σ τ → Pool σ τ → Prop
  | mk {s s' : σ} {t t' : τ} {l₁ l₂ : List τ} (h : step t s = some (t', s')) :
      Step ⟨s, l₁ ++ t :: l₂⟩ ⟨s', l₁ ++ t' :: l₂⟩

/-- A run of a pool. -/
def Reaches : Pool σ τ → Pool σ τ → Prop := Relation.ReflTransGen (Step step)

/-- A run of a pool through pools that satisfy `P`. -/
def ReachesWithin (P : Pool σ τ → Prop) : Pool σ τ → Pool σ τ → Prop :=
  Relation.ReflTransGen fun w w' ↦ Step step w w' ∧ P w'

/-- One atomic step of a thread that finds the shared state and the others as `G` says. -/
inductive StepWhere (G : σ → List τ → τ → Prop) : Pool σ τ → Pool σ τ → Prop
  | mk {s s' : σ} {t t' : τ} {l₁ l₂ : List τ} (h : step t s = some (t', s'))
      (hG : G s (l₁ ++ l₂) t) : StepWhere G ⟨s, l₁ ++ t :: l₂⟩ ⟨s', l₁ ++ t' :: l₂⟩

/-- A run of a pool whose steps are taken where `G` says. -/
def ReachesWhere (G : σ → List τ → τ → Prop) : Pool σ τ → Pool σ τ → Prop :=
  Relation.ReflTransGen (StepWhere step G)

variable {step} {w w' : Pool σ τ}

/-- The first thread takes a step. -/
theorem Step.head {s s' : σ} {t t' : τ} (h : step t s = some (t', s')) (l : List τ) :
    Step step ⟨s, t :: l⟩ ⟨s', t' :: l⟩ :=
  @Step.mk _ _ step _ _ _ _ [] l h

/-- One of the other threads takes a step. -/
theorem Step.cons {s s' : σ} {l l' : List τ} (h : Step step ⟨s, l⟩ ⟨s', l'⟩) (u : τ) :
    Step step ⟨s, u :: l⟩ ⟨s', u :: l'⟩ := by
  cases h with
  | @mk _ _ _ _ l₁ l₂ h => exact @Step.mk _ _ step _ _ _ _ (u :: l₁) l₂ h

/-- A run is one where `G` says, if every step of so many threads is. -/
theorem Reaches.reachesWhere {G : σ → List τ → τ → Prop} (h : Reaches step w w')
    (hG : ∀ s l t, l.length + 1 = w.threads.length → G s l t) : ReachesWhere step G w w' := by
  suffices ReachesWhere step G w w' ∧ w'.threads.length = w.threads.length from this.1
  induction h with
  | refl => exact ⟨.refl, rfl⟩
  | tail _ hs ih =>
      cases hs with
      | @mk s s' t t' l₁ l₂ h =>
          obtain ⟨hrun, hlength⟩ := ih
          simp only [List.length_append, List.length_cons] at hlength ⊢
          refine ⟨hrun.tail (.mk h (hG s _ t ?_)), hlength⟩
          rw [List.length_append, ← hlength, Nat.add_assoc]

theorem ReachesWithin.reaches {P : Pool σ τ → Prop} (h : ReachesWithin step P w w') :
    Reaches step w w' := Relation.ReflTransGen.mono (fun _ _ h ↦ h.1) w w' h

theorem Reaches.within {P : Pool σ τ → Prop} (h : Reaches step w w') (hP : ∀ w, P w) :
    ReachesWithin step P w w' :=
  Relation.ReflTransGen.mono (fun _ v hv ↦ ⟨hv, hP v⟩) w w' h

/-! ## Rules -/

/-- A fact no thread changes about itself. -/
theorem Reaches.map_threads {α : Type w} (f : τ → α)
    (hstep : ∀ t s t' s', step t s = some (t', s') → f t' = f t)
    (h : Reaches step w w') : w'.threads.map f = w.threads.map f := by
  induction h with
  | refl => rfl
  | tail _ hs ih =>
      cases hs with
      | mk h => simpa only [List.map_append, List.map_cons, hstep _ _ _ _ h] using ih

/-- A property of the shared state and one thread that every thread keeps for
itself and for the others. -/
theorem Reaches.forall_threads {J : σ → τ → Prop}
    (hown : ∀ t s t' s', step t s = some (t', s') → J s t → J s' t')
    (hothers : ∀ t s t' s', step t s = some (t', s') → ∀ u, J s u → J s' u)
    (h : Reaches step w w') (hw : ∀ t ∈ w.threads, J w.shared t) :
    ∀ t ∈ w'.threads, J w'.shared t := by
  induction h with
  | refl => exact hw
  | tail _ hs ih =>
      cases hs with
      | @mk s s' t t' l₁ l₂ h =>
          intro u hu
          rcases List.mem_append.mp hu with hu | hu
          · exact hothers t s t' s' h u (ih u (List.mem_append_left _ hu))
          · rcases List.mem_cons.mp hu with rfl | hu
            · exact hown t s u s' h (ih t (List.mem_append_right _ List.mem_cons_self))
            · exact hothers t s t' s' h u
                (ih u (List.mem_append_right _ (List.mem_cons_of_mem _ hu)))

/-- A property of the shared state and one thread, with a relation between any two threads:
each thread keeps the property for itself, and both for each other thread it is related to. -/
theorem Reaches.forall_pairs {J : σ → τ → Prop} {R : τ → τ → Prop}
    (hsymm : ∀ t u, R t u → R u t)
    (hown : ∀ t s t' s', step t s = some (t', s') → J s t → J s' t')
    (hothers : ∀ t s t' s', step t s = some (t', s') → J s t →
      ∀ u, R t u → J s u → J s' u ∧ R t' u)
    (h : Reaches step w w') (hw : ∀ t ∈ w.threads, J w.shared t) (hR : w.threads.Pairwise R) :
    (∀ t ∈ w'.threads, J w'.shared t) ∧ w'.threads.Pairwise R := by
  induction h with
  | refl => exact ⟨hw, hR⟩
  | tail _ hs ih =>
      cases hs with
      | @mk s s' t t' l₁ l₂ h =>
          obtain ⟨hJ, hR⟩ := ih
          have ht : J s t := hJ t (List.mem_append_right _ List.mem_cons_self)
          obtain ⟨hR₁, hR₂, hcross⟩ := List.pairwise_append.mp hR
          obtain ⟨hlater, hR₂⟩ := List.pairwise_cons.mp hR₂
          have hfirst : ∀ u ∈ l₁, J s' u ∧ R u t' := fun u hu ↦ by
            have hother := hothers t s t' s' h ht u
              (hsymm u t (hcross u hu t List.mem_cons_self)) (hJ u (List.mem_append_left _ hu))
            exact ⟨hother.1, hsymm t' u hother.2⟩
          have hlast : ∀ u ∈ l₂, J s' u ∧ R t' u := fun u hu ↦
            hothers t s t' s' h ht u (hlater u hu)
              (hJ u (List.mem_append_right _ (List.mem_cons_of_mem _ hu)))
          constructor
          · intro u hu
            rcases List.mem_append.mp hu with hu | hu
            · exact (hfirst u hu).1
            · rcases List.mem_cons.mp hu with rfl | hu
              · exact hown t s u s' h ht
              · exact (hlast u hu).1
          · refine List.pairwise_append.mpr ⟨hR₁, List.pairwise_cons.mpr
              ⟨fun u hu ↦ (hlast u hu).2, hR₂⟩, fun u hu v hv ↦ ?_⟩
            rcases List.mem_cons.mp hv with rfl | hv
            · exact (hfirst u hu).2
            · exact hcross u hu v (List.mem_cons_of_mem _ hv)

/-- Accounting, for threads of which a fact `J` is known in every pool reached. -/
theorem Reaches.accounting_where {M : Type w} [AddCancelCommMonoid M] {J : σ → τ → Prop}
    (g : σ → M) (f : τ → M)
    (hstep : ∀ t s t' s', J s t → step t s = some (t', s') → g s' + f t = g s + f t')
    (h : Reaches step w w') (hJ : ∀ v, Reaches step w v → ∀ t ∈ v.threads, J v.shared t) :
    g w'.shared + (w.threads.map f).sum = g w.shared + (w'.threads.map f).sum := by
  induction h with
  | refl => rfl
  | tail hv hs ih =>
      cases hs with
      | @mk s s' t t' l₁ l₂ h =>
          have ht : J s t := hJ _ hv t (List.mem_append_right _ List.mem_cons_self)
          have hone := hstep t s t' s' ht h
          simp only [List.map_append, List.map_cons, List.sum_append, List.sum_cons] at ih ⊢
          have key : g s' + (w.threads.map f).sum + f t
              = g w.shared + ((l₁.map f).sum + (f t' + (l₂.map f).sum)) + f t := calc
            g s' + (w.threads.map f).sum + f t
              = (g s' + f t) + (w.threads.map f).sum := add_right_comm _ _ _
            _ = (g s + f t') + (w.threads.map f).sum := by rw [hone]
            _ = (g s + (w.threads.map f).sum) + f t' := add_right_comm _ _ _
            _ = g w.shared + ((l₁.map f).sum + (f t + (l₂.map f).sum)) + f t' := by rw [ih]
            _ = g w.shared + ((l₁.map f).sum + (f t' + (l₂.map f).sum)) + f t := by abel
          exact add_right_cancel key

/-- **Accounting.**  If each step adds to the shared quantity `g` what its thread
gains in `f`, then over any run `g` grows by what the threads gain in total. -/
theorem Reaches.accounting {M : Type w} [AddCancelCommMonoid M] (g : σ → M) (f : τ → M)
    (hstep : ∀ t s t' s', step t s = some (t', s') → g s' + f t = g s + f t')
    (h : Reaches step w w') :
    g w'.shared + (w.threads.map f).sum = g w.shared + (w'.threads.map f).sum :=
  h.accounting_where (J := fun _ _ ↦ True) g f (fun t s t' s' _ ↦ hstep t s t' s')
    fun _ _ _ _ ↦ trivial

/-- **Traces.**  If each step leaves on a component of the shared state, as `T` says, the
trace of what its thread has more in `f` than before, then over any run the component bears
the trace, in some order, of what the threads have more in `f`. -/
theorem Reaches.traced {α β : Type w} {J : σ → τ → Prop} (g : σ → β)
    (T : β → List α → β → Prop) (f : τ → List α) (hnil : ∀ b, T b [] b)
    (happend : ∀ b as b' as' b'', T b as b' → T b' as' b'' → T b (as ++ as') b'')
    (hstep : ∀ t s t' s', J s t → step t s = some (t', s') →
      ∃ as, f t' = f t ++ as ∧ T (g s) as (g s'))
    (h : Reaches step w w') (hJ : ∀ v, Reaches step w v → ∀ t ∈ v.threads, J v.shared t) :
    ∃ as, (w.threads.flatMap f ++ as).Perm (w'.threads.flatMap f) ∧
      T (g w.shared) as (g w'.shared) := by
  induction h with
  | refl => exact ⟨[], by rw [List.append_nil], hnil _⟩
  | tail hv hs ih =>
      obtain ⟨as, hperm, hg⟩ := ih
      cases hs with
      | @mk s s' t t' l₁ l₂ h =>
          have ht : J s t := hJ _ hv t (List.mem_append_right _ List.mem_cons_self)
          obtain ⟨bs, hf, hg'⟩ := hstep t s t' s' ht h
          refine ⟨as ++ bs, ?_, happend _ _ _ _ _ hg hg'⟩
          simp only [List.flatMap_append, List.flatMap_cons, hf] at hperm ⊢
          rw [← List.append_assoc]
          refine (hperm.append_right bs).trans ?_
          simp only [List.append_assoc]
          exact List.Perm.append_left _ (List.Perm.append_left _ List.perm_append_comm)

/-- **History.**  If each step applies to a component of the shared state, through `app`,
what its thread has more in `f` than before, then over any run the component undergoes,
in some order, what the threads have more in `f`. -/
theorem Reaches.history {α β : Type w} {J : σ → τ → Prop} (g : σ → β) (app : β → α → β)
    (f : τ → List α)
    (hstep : ∀ t s t' s', J s t → step t s = some (t', s') →
      ∃ as, f t' = f t ++ as ∧ g s' = as.foldl app (g s))
    (h : Reaches step w w') (hJ : ∀ v, Reaches step w v → ∀ t ∈ v.threads, J v.shared t) :
    ∃ as, (w.threads.flatMap f ++ as).Perm (w'.threads.flatMap f) ∧
      g w'.shared = as.foldl app (g w.shared) := by
  refine h.traced g (fun b as b' ↦ b' = as.foldl app b) f (fun _ ↦ rfl) ?_ hstep hJ
  rintro b as _ as' _ rfl rfl
  exact List.foldl_append.symm

/-- **Simulation.**  If each step of a thread is a step, or nothing at all, when seen
through `f` and `g`, then so seen a run is a run. -/
theorem Reaches.map {σ' : Type u} {τ' : Type v} {step' : τ' → σ' → Option (τ' × σ')}
    (f : σ → σ') (g : τ → τ')
    (hsim : ∀ t s t' s', step t s = some (t', s') →
      step' (g t) (f s) = some (g t', f s') ∨ g t' = g t ∧ f s' = f s)
    (h : Reaches step w w') :
    Reaches step' ⟨f w.shared, w.threads.map g⟩ ⟨f w'.shared, w'.threads.map g⟩ := by
  induction h with
  | refl => exact .refl
  | tail _ hs ih =>
      cases hs with
      | @mk s s' t t' l₁ l₂ h =>
          rcases hsim t s t' s' h with hstep | ⟨ht, hs⟩
          · simp only [List.map_append, List.map_cons] at ih ⊢
            exact ih.tail (.mk hstep)
          · simp only [List.map_append, List.map_cons, ht, hs] at ih ⊢
            exact ih

/-! ## Arrivals -/

/-- A run of a pool at which threads arrive at any time; `ts` are those that have. -/
inductive Opens (step : τ → σ → Option (τ × σ)) (w₀ : Pool σ τ) : List τ → Pool σ τ → Prop
  /-- No thread has arrived. -/
  | start : Opens step w₀ [] w₀
  /-- A thread takes a step. -/
  | step {ts : List τ} {w w' : Pool σ τ} (h : Opens step w₀ ts w) (hs : Step step w w') :
      Opens step w₀ ts w'
  /-- A thread arrives. -/
  | arrive {ts : List τ} {w : Pool σ τ} (h : Opens step w₀ ts w) (t : τ) :
      Opens step w₀ (ts ++ [t]) ⟨w.shared, w.threads ++ [t]⟩

/-- A thread that is not there yet is in nobody's way. -/
theorem Step.snoc {s s' : σ} {l l' : List τ} (h : Step step ⟨s, l⟩ ⟨s', l'⟩) (u : τ) :
    Step step ⟨s, l ++ [u]⟩ ⟨s', l' ++ [u]⟩ := by
  cases h with
  | @mk _ _ t t' l₁ l₂ h =>
      have hmk : Step step ⟨s, l₁ ++ t :: (l₂ ++ [u])⟩ ⟨s', l₁ ++ t' :: (l₂ ++ [u])⟩ := .mk h
      simpa only [List.append_assoc, List.cons_append] using hmk

theorem Reaches.snoc (h : Reaches step w w') (u : τ) :
    Reaches step ⟨w.shared, w.threads ++ [u]⟩ ⟨w'.shared, w'.threads ++ [u]⟩ := by
  induction h with
  | refl => exact .refl
  | tail _ hs ih => exact ih.tail (hs.snoc u)

/-- **Late arrivals.**  A run at which threads arrive is a run of the pool at which they
have all been from the start. -/
theorem Opens.reaches {s : σ} {l ts : List τ} (h : Opens step ⟨s, l⟩ ts w) :
    Reaches step ⟨s, l ++ ts⟩ w := by
  induction h with
  | start => rw [List.append_nil]; exact .refl
  | step _ hs ih => exact ih.tail hs
  | arrive _ t ih => rw [← List.append_assoc]; exact ih.snoc t

/-! ## Erasing threads -/

/-- The threads of a list at whose positions another list has one that stays. -/
def kept (gone : τ → Bool) : List τ → List τ → List τ
  | u :: us, t :: ts => if gone u then kept gone us ts else t :: kept gone us ts
  | _, _ => []

theorem kept_append (gone : τ → Bool) {us ts us' ts' : List τ} (h : us.length = ts.length) :
    kept gone (us ++ us') (ts ++ ts') = kept gone us ts ++ kept gone us' ts' := by
  induction us generalizing ts with
  | nil =>
      obtain rfl := List.length_eq_zero_iff.mp h.symm
      rfl
  | cons u us ih =>
      cases ts with
      | nil => cases h
      | cons t ts =>
          have hlength : us.length = ts.length := Nat.succ.inj h
          cases hu : gone u with
          | true => simp only [List.cons_append, kept, hu, if_true, ih hlength]
          | false =>
              simp only [List.cons_append, kept, hu, Bool.false_eq_true, if_false, ih hlength]

theorem kept_map (gone : τ → Bool) (f : τ → τ) (us : List τ) :
    kept gone us (us.map f) = (us.filter fun u ↦ !gone u).map f := by
  induction us with
  | nil => rfl
  | cons u us ih => cases hu : gone u <;> simp [kept, hu, ih]

/-- **Erasing.**  Let `gone` say of a thread at the end of a run that it is to be erased,
and `Q` of a thread on the way that it may still be.  If the steps of such threads are
silent, that is, seen by nobody through `R`, then without these threads the run is a run
of the others. -/
theorem Reaches.erase (gone : τ → Bool) (Q : τ → Prop) (R : σ → σ → Prop)
    (hgone : ∀ t, gone t = true → Q t)
    (hback : ∀ t s t' s', step t s = some (t', s') → Q t' → Q t)
    (hsilent : ∀ t s t' s' p, step t s = some (t', s') → Q t' → R s p → R s' p)
    (hsim : ∀ t s t' s' p, step t s = some (t', s') → R s p →
      ∃ p', step t p = some (t', p') ∧ R s' p')
    (h : Reaches step w w') :
    List.Forall₂ (fun u t ↦ gone u = true → Q t) w'.threads w.threads ∧
    ∀ p, R w.shared p → ∃ p', R w'.shared p' ∧
      Reaches step ⟨p, kept gone w'.threads w.threads⟩
        ⟨p', w'.threads.filter fun t ↦ !gone t⟩ := by
  induction h using Relation.ReflTransGen.head_induction_on with
  | refl =>
      refine ⟨List.forall₂_same.mpr fun t _ ↦ hgone t, fun p hp ↦ ⟨p, hp, ?_⟩⟩
      have hkept := kept_map gone id w'.threads
      rw [List.map_id, List.map_id] at hkept
      rw [hkept]
      exact .refl
  | head hs _ ih =>
      obtain ⟨hfates, hrun⟩ := ih
      cases hs with
      | @mk s s' t t' l₁ l₂ h =>
          -- The fate of the thread that takes the step, and those of the others.
          obtain ⟨u, us₂, hu, hus₂, hdrop⟩ :=
            List.forall₂_cons_right_iff.mp (List.forall₂_drop_append _ _ _ hfates)
          have hus₁ := List.forall₂_take_append _ _ _ hfates
          have hsplit : w'.threads = w'.threads.take l₁.length ++ u :: us₂ := by
            rw [← hdrop, List.take_append_drop]
          generalize w'.threads.take l₁.length = us₁ at hus₁ hsplit
          rw [hsplit] at hrun ⊢
          have hkept : ∀ t, kept gone (us₁ ++ u :: us₂) (l₁ ++ t :: l₂)
              = kept gone us₁ l₁ ++ (if gone u then kept gone us₂ l₂
                else t :: kept gone us₂ l₂) :=
            fun t ↦ kept_append gone hus₁.length_eq
          simp only [hkept] at hrun ⊢
          refine ⟨List.rel_append hus₁ (.cons (fun hg ↦ hback _ _ _ _ h (hu hg)) hus₂),
            fun p hp ↦ ?_⟩
          cases hg : gone u with
          | true =>
              simp only [hg, if_true] at hrun ⊢
              exact hrun p (hsilent _ _ _ _ _ h (hu hg) hp)
          | false =>
              simp only [hg, Bool.false_eq_true, if_false] at hrun ⊢
              obtain ⟨q, hstep, hq⟩ := hsim _ _ _ _ _ h hp
              obtain ⟨p', hp', hreach⟩ := hrun q hq
              exact ⟨p', hp', .head (.mk hstep) hreach⟩

/-! ## Observers -/

section Observers

variable {ο : Type w}

/-- Threads that work on the shared state, and observers that look at it. -/
def withObservers (step : τ → σ → Option (τ × σ)) (look : ο → σ → Option ο) :
    τ ⊕ ο → σ → Option ((τ ⊕ ο) × σ)
  | .inl t, s => (step t s).map fun r ↦ (.inl r.1, r.2)
  | .inr o, s => (look o s).map fun o' ↦ (.inr o', s)

/-- A pool without its observers. -/
def workers (w : Pool σ (τ ⊕ ο)) : Pool σ τ := ⟨w.shared, w.threads.filterMap Sum.getLeft?⟩

/-- The observers of a pool. -/
def observers (w : Pool σ (τ ⊕ ο)) : List ο := w.threads.filterMap Sum.getRight?

variable {look : ο → σ → Option ο} {u u' : Pool σ (τ ⊕ ο)}

/-- Either a worker takes a step, or an observer looks. -/
theorem Step.workers_or_observers (h : Step (withObservers step look) u u') :
    (Step step u.workers u'.workers ∧ u'.observers = u.observers) ∨
    u'.workers = u.workers ∧ ∃ o o' l₁ l₂, look o u.shared = some o' ∧
      u.observers = l₁ ++ o :: l₂ ∧ u'.observers = l₁ ++ o' :: l₂ := by
  cases h with
  | @mk s s' t t' l₁ l₂ h =>
      cases t with
      | inl t =>
          obtain ⟨⟨t', s'⟩, hstep, heq⟩ := Option.map_eq_some_iff.mp h
          cases heq
          refine .inl ⟨?_, ?_⟩
          · simp only [workers, List.filterMap_append, List.filterMap_cons, Sum.getLeft?_inl]
            exact .mk hstep
          · simp only [observers, List.filterMap_append, List.filterMap_cons, Sum.getRight?_inl]
      | inr o =>
          obtain ⟨o', hlook, heq⟩ := Option.map_eq_some_iff.mp h
          cases heq
          refine .inr ⟨?_, o, o', l₁.filterMap Sum.getRight?, l₂.filterMap Sum.getRight?, hlook,
            ?_, ?_⟩
          · simp only [workers, List.filterMap_append, List.filterMap_cons, Sum.getLeft?_inr]
          · simp only [observers, List.filterMap_append, List.filterMap_cons, Sum.getRight?_inr]
          · simp only [observers, List.filterMap_append, List.filterMap_cons, Sum.getRight?_inr]

/-- **Observers do not disturb.**  Without its observers, a run is a run of the workers. -/
theorem Reaches.workers (h : Reaches (withObservers step look) u u') :
    Reaches step u.workers u'.workers := by
  induction h with
  | refl => exact .refl
  | tail _ hs ih =>
      rcases hs.workers_or_observers with ⟨hstep, -⟩ | ⟨hsame, -⟩
      · exact ih.tail hstep
      · rw [hsame]
        exact ih

/-- A property of the workers and one observer that each step of a worker keeps, and each
look of the observer. -/
theorem Reaches.forall_observers {J : Pool σ τ → ο → Prop}
    (hstep : ∀ v v' o, Step step v v' → J v o → J v' o)
    (hlook : ∀ v o o', look o v.shared = some o' → J v o → J v o')
    (h : Reaches (withObservers step look) u u') (hu : ∀ o ∈ u.observers, J u.workers o) :
    ∀ o ∈ u'.observers, J u'.workers o := by
  induction h with
  | refl => exact hu
  | @tail v v' _ hs ih =>
      rcases hs.workers_or_observers with ⟨hworker, hsame⟩ |
        ⟨hsame, o, o', l₁, l₂, hlooks, hbefore, hafter⟩
      · rw [hsame]
        exact fun o ho ↦ hstep _ _ o hworker (ih o ho)
      · rw [hsame, hafter]
        rw [hbefore] at ih
        intro p hp
        rcases List.mem_append.mp hp with hp | hp
        · exact ih p (List.mem_append_left _ hp)
        · rcases List.mem_cons.mp hp with rfl | hp
          · exact hlook v.workers o p hlooks (ih o (List.mem_append_right _ List.mem_cons_self))
          · exact ih p (List.mem_append_right _ (List.mem_cons_of_mem _ hp))

end Observers

/-! ## One thread alone -/

/-- A thread takes steps and nobody else does. -/
def Alone (step : τ → σ → Option (τ × σ)) : τ × σ → τ × σ → Prop :=
  Relation.ReflTransGen fun p q ↦ step p.1 p.2 = some q

theorem Alone.head {s s' : σ} {t t' : τ} {q : τ × σ} (h : step t s = some (t', s'))
    (hq : Alone step (t', s') q) : Alone step (t, s) q := Relation.ReflTransGen.head h hq

theorem Alone.reaches {p q : τ × σ} (h : Alone step p q) (l₁ l₂ : List τ) :
    Reaches step ⟨p.2, l₁ ++ p.1 :: l₂⟩ ⟨q.2, l₁ ++ q.1 :: l₂⟩ := by
  induction h with
  | refl => exact .refl
  | tail _ hs ih => exact ih.tail (.mk hs)

/-! ## Schedules -/

/-- Let the thread at position `i` take a step. -/
def stepAt (step : τ → σ → Option (τ × σ)) (w : Pool σ τ) (i : ℕ) : Option (Pool σ τ) :=
  w.threads[i]?.bind fun t ↦ (step t w.shared).map fun r ↦ ⟨r.2, w.threads.set i r.1⟩

/-- Let the threads at the given positions take a step each, in that order, as long as
the pools satisfy `P`. -/
def schedule (step : τ → σ → Option (τ × σ)) (P : Pool σ τ → Prop) [DecidablePred P]
    (w : Pool σ τ) (is : List ℕ) : Option (Pool σ τ) :=
  is.foldlM (fun w i ↦ (stepAt step w i).filter fun w ↦ P w) w

theorem step_of_stepAt {i : ℕ} (h : stepAt step w i = some w') : Step step w w' := by
  obtain ⟨t, ht, h⟩ := Option.bind_eq_some_iff.mp h
  obtain ⟨⟨t', s'⟩, hstep, rfl⟩ := Option.map_eq_some_iff.mp h
  obtain ⟨hi, rfl⟩ := List.getElem?_eq_some_iff.mp ht
  cases w with
  | mk s l =>
      have hsplit : l = l.take i ++ l[i] :: l.drop (i + 1) := by
        rw [List.getElem_cons_drop, List.take_append_drop]
      have hset : l.set i t' = l.take i ++ t' :: l.drop (i + 1) :=
        List.set_eq_take_append_cons_drop.trans (if_pos hi)
      have hmk : Step step ⟨s, l.take i ++ l[i] :: l.drop (i + 1)⟩
          ⟨s', l.take i ++ t' :: l.drop (i + 1)⟩ := .mk hstep
      rw [← hsplit, ← hset] at hmk
      exact hmk

/-- A schedule is a run. -/
theorem reachesWithin_of_schedule {P : Pool σ τ → Prop} [DecidablePred P] {is : List ℕ}
    (h : schedule step P w is = some w') : ReachesWithin step P w w' := by
  induction is generalizing w with
  | nil =>
      obtain rfl := Option.some.inj h
      exact .refl
  | cons i is ih =>
      rw [schedule, List.foldlM_cons] at h
      obtain ⟨v, hv, h⟩ := Option.bind_eq_some_iff.mp h
      obtain ⟨hv, hP⟩ := Option.filter_eq_some_iff.mp hv
      exact .head ⟨step_of_stepAt hv, of_decide_eq_true hP⟩ (ih h)

end Pool
