import Mathlib.Tactic.Common

/-!
# Programs that may fault, fail or return

`Prog σ ε A` is a program over a shared state `σ` with three ways to end: it
**faults** (an index out of range: the program is gone and so is its state), it
**fails** with an error of type `ε`, or it returns a value of type `A`.  A
program that fails keeps the effects it had, as a method that returns early does.

The bind of two programs is computed from how the first one ends
(`run_bind_of_ok`, `run_bind_of_error`), which is how a long program is run
symbolically: one rewrite per statement.
-/

universe u

/-- A program over the state `σ` with errors in `ε`; a run to `none` is a fault. -/
structure Prog (σ ε A : Type u) where
  run : σ → Option (Except ε A × σ)

namespace Prog

variable {σ ε A B : Type u}

instance instMonad : Monad (Prog σ ε) where
  pure a := ⟨fun s ↦ some (.ok a, s)⟩
  bind x f := ⟨fun s ↦ match x.run s with
    | none => none
    | some (.error e, s') => some (.error e, s')
    | some (.ok a, s') => (f a).run s'⟩

/-- Return early with an error. -/
def fail (e : ε) : Prog σ ε A := ⟨fun s ↦ some (.error e, s)⟩

/-- The current state. -/
def get : Prog σ ε σ := ⟨fun s ↦ some (.ok s, s)⟩

/-- A step that always succeeds. -/
def locked (f : σ → A × σ) : Prog σ ε A := ⟨fun s ↦ some (.ok (f s).1, (f s).2)⟩

/-- A step that may fail, with its effect on the state either way. -/
def attempt (f : σ → Except ε A × σ) : Prog σ ε A := ⟨fun s ↦ some (f s)⟩

/-- A computation that faults on `none`. -/
def orFault (o : Option A) : Prog σ ε A := ⟨fun s ↦ o.map fun a ↦ (.ok a, s)⟩

/-- A computation that fails on `none`. -/
def orFail (e : ε) : Option A → Prog σ ε A
  | some a => pure a
  | none => fail e

/-- A computation that may fail without touching the state. -/
def ofExcept (x : Except ε A) : Prog σ ε A := ⟨fun s ↦ some (x, s)⟩

/-! ## Running a program -/

@[simp] theorem run_pure (a : A) (s : σ) : (pure a : Prog σ ε A).run s = some (.ok a, s) := rfl

@[simp] theorem run_attempt (f : σ → Except ε A × σ) (s : σ) :
    (attempt f).run s = some (f s) := rfl

@[simp] theorem orFail_some (e : ε) (a : A) : (orFail e (some a) : Prog σ ε A) = pure a := rfl

/-- A program that returns goes on with its continuation. -/
theorem run_bind_of_ok {x : Prog σ ε A} {f : A → Prog σ ε B} {s s' : σ} {a : A}
    (h : x.run s = some (.ok a, s')) : (x >>= f).run s = (f a).run s' := by
  show (match x.run s with
    | none => none
    | some (.error e, s') => some (.error e, s')
    | some (.ok a, s') => (f a).run s') = (f a).run s'
  rw [h]

/-- A program that fails skips its continuation. -/
theorem run_bind_of_error {x : Prog σ ε A} {f : A → Prog σ ε B} {s s' : σ} {e : ε}
    (h : x.run s = some (.error e, s')) : (x >>= f).run s = some (.error e, s') := by
  show (match x.run s with
    | none => none
    | some (.error e, s') => some (.error e, s')
    | some (.ok a, s') => (f a).run s') = some (.error e, s')
  rw [h]

/-- A program that faults stays gone. -/
theorem run_bind_of_none {x : Prog σ ε A} {f : A → Prog σ ε B} {s : σ}
    (h : x.run s = none) : (x >>= f).run s = none := by
  show (match x.run s with
    | none => none
    | some (.error e, s') => some (.error e, s')
    | some (.ok a, s') => (f a).run s') = none
  rw [h]

@[simp] theorem run_pure_bind (a : A) (f : A → Prog σ ε B) (s : σ) :
    ((pure a : Prog σ ε A) >>= f).run s = (f a).run s := run_bind_of_ok rfl

@[simp] theorem run_fail_bind (e : ε) (f : A → Prog σ ε B) (s : σ) :
    ((fail e : Prog σ ε A) >>= f).run s = some (.error e, s) := run_bind_of_error rfl

@[simp] theorem run_get_bind (f : σ → Prog σ ε B) (s : σ) :
    ((get : Prog σ ε σ) >>= f).run s = (f s).run s := run_bind_of_ok rfl

@[simp] theorem run_locked_bind (g : σ → A × σ) (f : A → Prog σ ε B) (s : σ) :
    ((locked g : Prog σ ε A) >>= f).run s = (f (g s).1).run (g s).2 := run_bind_of_ok rfl

@[simp] theorem run_orFault_some_bind (a : A) (f : A → Prog σ ε B) (s : σ) :
    ((orFault (some a) : Prog σ ε A) >>= f).run s = (f a).run s := run_bind_of_ok rfl

@[simp] theorem run_ofExcept_ok_bind (a : A) (f : A → Prog σ ε B) (s : σ) :
    ((ofExcept (.ok a) : Prog σ ε A) >>= f).run s = (f a).run s := run_bind_of_ok rfl

@[simp] theorem run_ofExcept_error_bind (e : ε) (f : A → Prog σ ε B) (s : σ) :
    ((ofExcept (.error e) : Prog σ ε A) >>= f).run s = some (.error e, s) :=
  run_bind_of_error rfl

end Prog
