import Mathlib.Algebra.Order.Group.Nat
import Mathlib.Tactic.Common

/-!
# Runs of an event-driven system

A system is a function `step : σ → ι → σ` from a state and an event to the next state; an event
carries every choice of the environment.  A run is a list of events.
-/

namespace Run

variable {σ ι : Type} {step : σ → ι → σ}

def final (step : σ → ι → σ) : σ → List ι → σ
  | s, [] => s
  | s, event :: rest => final step (step s event) rest

/-- Every event of the run meets `K` in the state it happens in. -/
def Meets (step : σ → ι → σ) (K : σ → ι → Prop) : σ → List ι → Prop
  | _, [] => True
  | s, event :: rest => K s event ∧ Meets step K (step s event) rest

instance instDecidableMeets (K : σ → ι → Prop) [∀ s event, Decidable (K s event)] :
    ∀ s events, Decidable (Meets step K s events)
  | _, [] => isTrue trivial
  | s, event :: rest =>
    have := instDecidableMeets K (step s event) rest
    inferInstanceAs (Decidable (K s event ∧ _))

@[simp] theorem final_nil (s : σ) : final step s [] = s := rfl

@[simp] theorem final_cons (s : σ) (event : ι) (rest : List ι) :
    final step s (event :: rest) = final step (step s event) rest := rfl

theorem final_append (s : σ) (before after : List ι) :
    final step s (before ++ after) = final step (final step s before) after := by
  induction before generalizing s with
  | nil => rfl
  | cons event rest ih => exact ih (step s event)

variable {K : σ → ι → Prop} {s : σ}

@[simp] theorem meets_cons {event : ι} {rest : List ι} :
    Meets step K s (event :: rest) ↔ K s event ∧ Meets step K (step s event) rest := Iff.rfl

theorem meets_append {before after : List ι} :
    Meets step K s (before ++ after) ↔
      Meets step K s before ∧ Meets step K (final step s before) after := by
  induction before generalizing s with
  | nil => simp [Meets]
  | cons event rest ih => simp [Meets, ih, and_assoc]

/-- What holds at the start and is kept by every step that meets `K` holds at the end of every
run that meets `K`. -/
theorem invariant {I : σ → Prop} (hstep : ∀ s event, I s → K s event → I (step s event))
    {events : List ι} (hs : I s) (hK : Meets step K s events) : I (final step s events) := by
  induction events generalizing s with
  | nil => exact hs
  | cons event rest ih => exact ih (hstep s event hs hK.1) hK.2

/-- The unconditional case. -/
theorem invariant_always {I : σ → Prop} (hstep : ∀ s event, I s → I (step s event))
    (events : List ι) (hs : I s) : I (final step s events) := by
  induction events generalizing s with
  | nil => exact hs
  | cons event rest ih => exact ih (hstep s event hs)

end Run
