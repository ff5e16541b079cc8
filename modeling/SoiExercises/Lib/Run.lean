import Mathlib.Data.List.Basic

/-!
# Finite runs of a labelled transition relation

A subsystem of the exercises is a relation `step : σ → ε → σ → Prop`: from a state, on an
event, to a state. `Run` collects the events of a finite execution, and `Run.invariant` is the
one induction behind every whole-run result: what a step preserves, a run preserves. Nothing
here names a particular system.
-/

namespace SoiExercises.Lib

variable {σ ε : Type*}

/-- `Run step s es t`: the events `es`, in order, lead from `s` to `t`. -/
inductive Run (step : σ → ε → σ → Prop) : σ → List ε → σ → Prop
  | nil (s : σ) : Run step s [] s
  | snoc {s t u : σ} {es : List ε} {e : ε} : Run step s es t → step t e u → Run step s (es ++ [e]) u

/-- The steps of `step` that meet a condition on the state before and the event. -/
def Guarded (step : σ → ε → σ → Prop) (cond : σ → ε → Prop) (s : σ) (e : ε) (t : σ) : Prop :=
  step s e t ∧ cond s e

/-- The steps of `step`, each with the state that it leads to in its event. -/
def Traced (step : σ → ε → σ → Prop) (s : σ) (e : ε × σ) (t : σ) : Prop := step s e.1 t ∧ e.2 = t

namespace Run

variable {step step' : σ → ε → σ → Prop} {s t u : σ} {es es' : List ε} {e : ε}

theorem single (h : step s e t) : Run step s [e] t := (Run.nil s).snoc h

theorem trans (h : Run step s es t) (h' : Run step t es' u) : Run step s (es ++ es') u := by
  induction h' with
  | nil => simpa using h
  | snoc _ last ih => rw [← List.append_assoc]; exact ih.snoc last

theorem cons (h : step s e t) (h' : Run step t es u) : Run step s (e :: es) u :=
  (single h).trans h'

/-- **The invariant rule.** What every step preserves holds at the end of every run. -/
theorem invariant {Inv : σ → Prop} (preserved : ∀ {s e t}, Inv s → step s e t → Inv t)
    (h : Run step s es t) (init : Inv s) : Inv t := by
  induction h with
  | nil => exact init
  | snoc _ last ih => exact preserved ih last

/-- The invariant rule for a property that also speaks of the events so far. -/
theorem invariant_events {Inv : List ε → σ → Prop}
    (preserved : ∀ {es s e t}, Inv es s → step s e t → Inv (es ++ [e]) t)
    (h : Run step s es t) (init : Inv [] s) : Inv es t := by
  induction h with
  | nil => exact init
  | snoc _ last ih => exact preserved ih last

/-- A step is traced with the state that it leads to. -/
theorem trace {es : List (ε × σ)} (h : Run (Traced step) s es t) (last : step t e u) : Run (Traced step) s (es ++ [(e, u)]) u :=
  h.snoc ⟨last, rfl⟩

theorem mono (sub : ∀ {s e t}, step s e t → step' s e t) (h : Run step s es t) : Run step' s es t := by
  induction h with
  | nil => exact .nil _
  | snoc _ last ih => exact ih.snoc (sub last)

/-- **The simulation rule.** If every step of the abstract relation is matched by one of the concrete
relation, on the same event and back into the simulation, so is every run. -/
theorem simulate {α : Type*} {step₀ : α → ε → α → Prop} {R : α → σ → Prop} {a b : α}
    (h : Run step₀ a es b) (init : R a s)
    (matched : ∀ {a e b s}, R a s → step₀ a e b → ∃ t, step s e t ∧ R b t) :
    ∃ t, Run step s es t ∧ R b t := by
  induction h with
  | nil => exact ⟨s, .nil s, init⟩
  | snoc _ last ih =>
    obtain ⟨t, run, related⟩ := ih
    obtain ⟨u, step, related⟩ := matched related last
    exact ⟨u, run.snoc step, related⟩

end Run

end SoiExercises.Lib
