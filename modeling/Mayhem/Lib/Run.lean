import Mathlib.Logic.Relation

/-!
This module contains the rule for runs of a system that moves by steps.
-/

namespace Run

variable {σ : Type} {step : σ → σ → Prop} {start s : σ}

theorem invariant (inv : σ → Prop) (hstart : inv start)
    (hstep : ∀ s s', inv s → step s s' → inv s') (hs : Relation.ReflTransGen step start s) : inv s := by
  induction hs with
  | refl => exact hstart
  | tail _ hlast ih => exact hstep _ _ ih hlast

theorem invariant_log {τ : Type} {step : σ × τ → σ × τ → Prop} {log₀ log : τ} (inv : σ → τ → Prop)
    (hstart : inv start log₀) (hstep : ∀ s log s' log', inv s log → step (s, log) (s', log') → inv s' log')
    (hs : Relation.ReflTransGen step (start, log₀) (s, log)) : inv s log :=
  invariant (fun state : σ × τ => inv state.1 state.2) hstart (fun _ _ => hstep _ _ _ _) hs

end Run
