import Mathlib.Logic.Relation

/-!
This module contains the runs of a machine that is driven by a list of commands.
-/

namespace Trace

variable {σ κ : Type} (next : σ → κ → σ) (start : σ) (run : List κ)

def stateAt (index : Nat) : σ := (run.take index).foldl next start

variable {next start run}

variable {index : Nat}

theorem stateAt_succ {command : κ} (h : run[index]? = some command) :
    stateAt next start run (index + 1) = next (stateAt next start run index) command := by
  unfold stateAt
  rw [List.take_add_one, h, List.foldl_append]
  rfl

theorem stateAt_of_length_le (h : run.length ≤ index) : stateAt next start run index = run.foldl next start := by
  unfold stateAt
  rw [List.take_of_length_le h]

theorem invariant (inv : Nat → σ → Prop) (hstart : inv 0 start)
    (hstep : ∀ index command, run[index]? = some command → inv index (stateAt next start run index) →
      inv (index + 1) (next (stateAt next start run index) command)) (hindex : index ≤ run.length) :
    inv index (stateAt next start run index) := by
  induction index with
  | zero => exact hstart
  | succ index ih =>
    have hcommand : run[index]? = some (run.get ⟨index, hindex⟩) := List.getElem?_eq_getElem hindex
    rw [stateAt_succ hcommand]
    apply hstep index _ hcommand
    apply ih
    omega

theorem between (rel : σ → σ → Prop) (hrefl : ∀ s, rel s s)
    (htrans : ∀ s s' s'', rel s s' → rel s' s'' → rel s s'')
    (hstep : ∀ index command, run[index]? = some command →
      rel (stateAt next start run index) (next (stateAt next start run index) command))
    {first last : Nat} (hle : first ≤ last) :
    rel (stateAt next start run first) (stateAt next start run last) := by
  induction hle with
  | refl => exact hrefl _
  | @step last _ ih =>
    cases hcommand : run[last]? with
    | some command =>
      rw [stateAt_succ hcommand]
      exact htrans _ _ _ ih (hstep last command hcommand)
    | none =>
      -- Past its end the run stands still.
      have hend := List.getElem?_eq_none_iff.mp hcommand
      rw [stateAt_of_length_le hend] at ih
      rw [stateAt_of_length_le (Nat.le_succ_of_le hend)]
      exact ih

theorem filled {τ : Type} (slot : σ → τ) (live : τ → Prop) (fills : Nat → τ → Prop)
    (hstart : ¬ live (slot start)) (hstep : ∀ index command, run[index]? = some command →
      slot (next (stateAt next start run index) command) = slot (stateAt next start run index) ∨
      ¬ live (slot (next (stateAt next start run index) command)) ∨
      fills index (slot (next (stateAt next start run index) command))) (hindex : index ≤ run.length)
    (hlive : live (slot (stateAt next start run index))) :
    ∃ filled, filled < index ∧ fills filled (slot (stateAt next start run index)) ∧
      ∀ between, filled < between → between ≤ index →
        slot (stateAt next start run between) = slot (stateAt next start run index) := by
  induction index with
  | zero => exact absurd hlive hstart
  | succ index ih =>
    have hcommand : run[index]? = some (run.get ⟨index, hindex⟩) := List.getElem?_eq_getElem hindex
    have hcases := hstep index _ hcommand
    have hsucc : stateAt next start run (index + 1) = next _ _ := stateAt_succ hcommand
    rw [← hsucc] at hcases
    obtain hkept | hempty | hfilled := hcases
    . rw [hkept] at hlive ⊢
      obtain ⟨filled, hlt, hfills, hbetween⟩ := ih (Nat.le_of_succ_le hindex) hlive
      refine ⟨filled, Nat.lt_succ_of_lt hlt, hfills, ?_⟩
      intro between hafter hle
      obtain rfl | hlt := Nat.eq_or_lt_of_le hle
      . exact hkept
      . exact hbetween between hafter (Nat.le_of_lt_succ hlt)
    . exact absurd hlive hempty
    . refine ⟨index, Nat.lt_succ_self index, hfilled, ?_⟩
      intro between hafter hle
      rw [Nat.le_antisymm hle hafter]

theorem reaches {step : σ → σ → Prop} (hstep : ∀ index, (hindex : index < run.length) →
      step (stateAt next start run index) (next (stateAt next start run index) run[index])) :
    Relation.ReflTransGen step start (stateAt next start run run.length) := by
  apply invariant (fun _ s => Relation.ReflTransGen step start s) .refl
  . intro index _ hcommand hreached
    obtain ⟨hindex, rfl⟩ := List.getElem?_eq_some_iff.mp hcommand
    exact hreached.tail (hstep index hindex)
  . exact Nat.le_refl _

end Trace
