import Mathlib.Data.List.Basic

/-!
# Runs of a machine

A machine takes one event at a time. Which events it can take depends on its state, and an event it
takes determines the next state. A *guard* is a further condition on the state and the event: the
states that a machine reaches while every event meets the guard are how a property that holds only
of some runs is stated. The guard that is always met gives all runs.
-/

namespace Interleaving

variable {σ ε : Type}

/-- A machine with states `σ` and events `ε`. -/
structure Machine (σ ε : Type) where
  enabled : σ → ε → Prop
  /-- The state after the event. -/
  step : σ → ε → σ

namespace Machine

/-- The states reached from `s₀` by events that all meet `guard`. -/
inductive Reach (M : Machine σ ε) (guard : σ → ε → Prop) (s₀ : σ) : σ → Prop
  | refl : Reach M guard s₀ s₀
  | step {s : σ} {e : ε} :
      Reach M guard s₀ s → M.enabled s e → guard s e → Reach M guard s₀ (M.step s e)

variable {M : Machine σ ε} {guard : σ → ε → Prop} {s₀ s : σ}

/-- What holds at first and is preserved by every event holds throughout. -/
theorem Reach.invariant {I : σ → Prop} (h₀ : I s₀)
    (hstep : ∀ s e, I s → M.enabled s e → guard s e → I (M.step s e))
    (h : M.Reach guard s₀ s) : I s := by
  induction h with
  | refl => exact h₀
  | step _ henabled hguard ih => exact hstep _ _ ih henabled hguard

variable [∀ s e, Decidable (M.enabled s e)] [∀ s e, Decidable (guard s e)]

/-- Whether a list of events can happen from `s` on, all of them meeting the guard. -/
def passes (M : Machine σ ε) (guard : σ → ε → Prop) [∀ s e, Decidable (M.enabled s e)]
    [∀ s e, Decidable (guard s e)] (s : σ) : List ε → Bool
  | [] => true
  | e :: es => decide (M.enabled s e) && decide (guard s e) && M.passes guard (M.step s e) es

theorem Reach.of_passes {es : List ε} (hes : M.passes guard s es = true) :
    M.Reach guard s (es.foldl M.step s) := by
  suffices h : ∀ {s' : σ}, M.Reach guard s s' → M.passes guard s' es = true →
      M.Reach guard s (es.foldl M.step s') from h .refl hes
  clear hes
  induction es with
  | nil => exact fun h _ ↦ h
  | cons e es ih =>
    intro s' h hes
    rw [passes, Bool.and_eq_true, Bool.and_eq_true, decide_eq_true_iff, decide_eq_true_iff] at hes
    exact ih (h.step hes.1.1 hes.1.2) hes.2

end Machine

end Interleaving
