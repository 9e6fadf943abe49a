import Mathlib.Data.List.Induction

/-!
# Properties of runs

A run is a list of events applied to a state. A property of states that every step keeps under
a condition, and loses otherwise, holds throughout a run if and only if every step of the run
meets the condition.
-/

namespace Hc.Runs

variable {σ ε : Type} (step : σ → ε → σ)

/-- The property holds in every state of the run. -/
def Throughout (P : σ → Prop) (s : σ) (events : List ε) : Prop :=
  ∀ before after, events = before ++ after → P (before.foldl step s)

/-- Every step of the run meets the condition, in the state before the step. -/
def EveryStep (C : σ → ε → Prop) (s : σ) (events : List ε) : Prop :=
  ∀ before e after, events = before ++ e :: after → C (before.foldl step s) e

variable {step} {P : σ → Prop} {C : σ → ε → Prop} {s : σ} {events : List ε}

theorem Throughout.of_everyStep (hstart : P s) (hkeep : ∀ s e, P s → C s e → P (step s e))
    (h : EveryStep step C s events) : Throughout step P s events := by
  intro before
  induction before using List.reverseRecOn with
  | nil => exact fun _ _ => hstart
  | append_singleton before e ih =>
      intro after hevents
      rw [List.append_assoc] at hevents
      rw [List.foldl_append]
      exact hkeep _ _ (ih _ hevents) (h before e after hevents)

/-- Where a step loses the property unless the condition holds, the condition is exact. -/
theorem throughout_iff (hstart : P s) (hstep : ∀ s e, P s → (P (step s e) ↔ C s e)) :
    Throughout step P s events ↔ EveryStep step C s events := by
  constructor
  · intro h before e after hevents
    have hnext := h (before ++ [e]) after (by rw [hevents, List.append_assoc]; rfl)
    rw [List.foldl_append] at hnext
    exact (hstep _ e (h before (e :: after) hevents)).mp hnext
  · exact .of_everyStep hstart fun s e hs => (hstep s e hs).mpr

/-- A condition on the events alone. -/
theorem everyStep_iff_forall_mem {p : ε → Prop} :
    EveryStep step (fun _ e => p e) s events ↔ ∀ e ∈ events, p e := by
  constructor
  · intro h e he
    obtain ⟨before, after, hevents⟩ := List.append_of_mem he
    exact h before e after hevents
  · rintro h before e after rfl
    exact h e (List.mem_append_right _ List.mem_cons_self)

end Hc.Runs
