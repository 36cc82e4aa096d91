/-!
# Runs of a partial step function

A system is a step function from a state and an event to the next state, if the
event is enabled.  `Reach` collects the states of the runs all of whose steps
meet a condition on the event and the state before it.  The condition `fun _ _ =>
True` gives the states of all runs.

`Reach.invariant` is the induction every safety theorem goes through: what holds
at the start and is kept by each step that meets the condition holds in every
state reached.
-/

namespace Lib

variable {σ : Type u} {ε : Type v}

/-- The states reached from `s₀` by steps that meet the condition `ok`. -/
inductive Reach (step : σ → ε → Option σ) (ok : σ → ε → Prop) (s₀ : σ) : σ → Prop
  | start : Reach step ok s₀ s₀
  | step {s s' : σ} {e : ε} :
      Reach step ok s₀ s → ok s e → step s e = some s' → Reach step ok s₀ s'

namespace Reach

variable {step : σ → ε → Option σ} {ok ok' : σ → ε → Prop} {s₀ s : σ}

/-- A property that holds at the start and is kept by every step holds in every
state reached. -/
theorem invariant {I : σ → Prop} (h : Reach step ok s₀ s) (hstart : I s₀)
    (hstep : ∀ s e s', I s → ok s e → step s e = some s' → I s') : I s := by
  induction h with
  | start => exact hstart
  | step _ hok hs ih => exact hstep _ _ _ ih hok hs

/-- A weaker condition reaches no fewer states. -/
theorem mono (h : Reach step ok s₀ s) (himp : ∀ s e, ok s e → ok' s e) :
    Reach step ok' s₀ s := by
  induction h with
  | start => exact .start
  | step _ hok hs ih => exact .step ih (himp _ _ hok) hs

/-- Runs follow one another. -/
theorem trans {s₁ s₂ : σ} (h₁ : Reach step ok s₀ s₁) (h₂ : Reach step ok s₁ s₂) :
    Reach step ok s₀ s₂ := by
  induction h₂ with
  | start => exact h₁
  | step _ hok hs ih => exact .step ih hok hs

/-- If each step is a step of another system or none in it, every run is one of the other system. -/
theorem simulate {σ' : Type u'} {ε' : Type v'} {step' : σ' → ε' → Option σ'} {ok' : σ' → ε' → Prop}
    (f : σ → σ') {I : σ → Prop} (h : Reach step ok s₀ s) (hstart : I s₀)
    (hstep : ∀ s e s', I s → ok s e → step s e = some s' →
      I s' ∧ (f s' = f s ∨ ∃ e', ok' (f s) e' ∧ step' (f s) e' = some (f s'))) :
    I s ∧ Reach step' ok' (f s₀) (f s) := by
  induction h with
  | start => exact ⟨hstart, .start⟩
  | step _ hok hs ih =>
      obtain ⟨hinv, hreach⟩ := ih
      obtain ⟨hinv', hsame | ⟨e', hok', hs'⟩⟩ := hstep _ _ _ hinv hok hs
      · exact ⟨hinv', hsame ▸ hreach⟩
      · exact ⟨hinv', .step hreach hok' hs'⟩

end Reach

/-- Run a list of events that each meet the condition. -/
def runAll (step : σ → ε → Option σ) (ok : σ → ε → Prop) [∀ s e, Decidable (ok s e)] (s : σ) :
    List ε → Option σ
  | [] => some s
  | e :: es => if ok s e then (step s e).bind fun s' => runAll step ok s' es else none

/-- A completed list of events reaches its last state. -/
theorem reach_of_runAll {step : σ → ε → Option σ} {ok : σ → ε → Prop} [∀ s e, Decidable (ok s e)]
    {s s' : σ} {es : List ε} (h : runAll step ok s es = some s') : Reach step ok s s' := by
  induction es generalizing s with
  | nil =>
      cases h
      exact .start
  | cons e es ih =>
      rw [runAll] at h
      split at h
      next hok =>
        obtain ⟨s₁, hs, hrest⟩ := Option.bind_eq_some_iff.mp h
        exact (Reach.step .start hok hs).trans (ih hrest)
      next => cases h

end Lib
