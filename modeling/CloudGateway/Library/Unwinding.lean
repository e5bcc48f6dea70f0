import Mathlib.Data.List.Basic
import Mathlib.Tactic.Common

/-!
# Noninterference by unwinding

A system takes an event in each step and may put something out.  A *view* of its state
unwinds when the events an observer does not see leave the view alone and put nothing out,
while what the others do and put out depends on the view only.  Then an observer cannot
tell a run from the run of the visible events (`outputs_filter`).
-/

universe u v w

namespace Unwinding

variable {S V : Type u} {E : Type v} {O P : Type w}

/-- What a system puts out on some events, in their order. -/
def outputs (step : S → E → S) (out : S → E → Option O) : S → List E → List O
  | _, [] => []
  | s, e :: es => (out s e).toList ++ outputs step out (step s e) es

/-- What is kept of the outputs is kept output by output. -/
theorem filterMap_outputs (step : S → E → S) (out : S → E → Option O) (f : O → Option P)
    (s : S) (es : List E) :
    (outputs step out s es).filterMap f = outputs step (fun s e ↦ (out s e).bind f) s es := by
  induction es generalizing s with
  | nil => rfl
  | cons e es ih =>
      rw [outputs, outputs, List.filterMap_append, ih]
      congr 1
      cases out s e with
      | none => rfl
      | some o => cases h : f o <;> simp [h]

theorem outputs_append (step : S → E → S) (out : S → E → Option O) (s : S) (es es' : List E) :
    outputs step out s (es ++ es')
      = outputs step out s es ++ outputs step out (es.foldl step s) es' := by
  induction es generalizing s with
  | nil => rfl
  | cons e es ih => rw [List.cons_append, outputs, ih, outputs, List.append_assoc]; rfl

/-- A view of the state that unwinds. -/
structure Unwinds (step : S → E → S) (out : S → E → Option O) (visible : E → Bool)
    (view : S → V) : Prop where
  /-- An event that is not visible leaves the view alone. -/
  view_hidden : ∀ s e, visible e = false → view (step s e) = view s
  /-- An event that is not visible puts nothing out. -/
  out_hidden : ∀ s e, visible e = false → out s e = none
  /-- What a visible event does to the view depends on the view. -/
  view_congr : ∀ s t e, visible e = true → view s = view t → view (step s e) = view (step t e)
  /-- What a visible event puts out depends on the view. -/
  out_congr : ∀ s t e, visible e = true → view s = view t → out s e = out t e

/-- **Noninterference.**  From states with the same view, a run puts out what the run of its
visible events does. -/
theorem Unwinds.outputs_filter {step : S → E → S} {out : S → E → Option O}
    {visible : E → Bool} {view : S → V} (h : Unwinds step out visible view) {s t : S}
    (hview : view s = view t) (es : List E) :
    outputs step out s es = outputs step out t (es.filter visible) := by
  induction es generalizing s t with
  | nil => rfl
  | cons e es ih =>
      cases hvisible : visible e with
      | false =>
          have hstay : view (step s e) = view t := (h.view_hidden s e hvisible).trans hview
          rw [List.filter_cons_of_neg (by simp [hvisible]), outputs,
            h.out_hidden s e hvisible, ih hstay]
          rfl
      | true =>
          have hnext := h.view_congr s t e hvisible hview
          rw [List.filter_cons_of_pos hvisible, outputs, outputs,
            h.out_congr s t e hvisible hview, ih hnext]

end Unwinding
