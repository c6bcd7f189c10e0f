import Mathlib.Algebra.BigOperators.Finprod
import Mathlib.Algebra.BigOperators.Ring.Finset
import Mathlib.Data.Int.Cast.Basic

/-!
This module contains holdings of arbitrarily many parties, of which all but finitely many are empty.
-/

namespace Holdings

open Function

variable {ι : Type} {v w u : ι → Nat} {δ δ' : ℤ}

def Change (v w : ι → Nat) (δ : ℤ) : Prop :=
  ∃ parties : Finset ι, (∀ i ∉ parties, w i = v i) ∧ ∑ i ∈ parties, ((w i : ℤ) - v i) = δ

namespace Change

theorem of_eq (h : ∀ i, w i = v i) : Change v w 0 := ⟨∅, fun i _ => h i, Finset.sum_empty⟩

theorem single (i : ι) (h : ∀ j, j ≠ i → w j = v j) : Change v w (w i - v i) := by
  refine ⟨{i}, fun j hj => h j (by simpa using hj), ?_⟩
  rw [Finset.sum_singleton]

theorem of_entry {κ : Type} [DecidableEq κ] {f g : ι → κ → Nat} {i : ι} {k : κ}
    (h : ∀ j l, (j, l) ≠ (i, k) → g j l = f j l) (l : κ) :
    Change (f · l) (g · l) (if l = k then (g i k : ℤ) - f i k else 0) := by
  by_cases hl : l = k
  . subst hl
    rw [if_pos rfl]
    exact .single i fun j hne => h j l fun heq => hne (Prod.mk.inj heq).1
  . rw [if_neg hl]
    exact .of_eq fun j => h j l fun heq => hl (Prod.mk.inj heq).2

theorem sum_eq_of_subset {parties others : Finset ι} (hsub : parties ⊆ others) (h : ∀ i ∉ parties, w i = v i) :
    ∑ i ∈ others, ((w i : ℤ) - v i) = ∑ i ∈ parties, ((w i : ℤ) - v i) := by
  symm
  apply Finset.sum_subset hsub
  intro i _ hi
  rw [h i hi, sub_self]

theorem trans (h : Change v w δ) (h' : Change w u δ') : Change v u (δ + δ') := by
  classical
  obtain ⟨parties, hsame, hsum⟩ := h
  obtain ⟨parties', hsame', hsum'⟩ := h'
  have hleft : parties ⊆ parties ∪ parties' := Finset.subset_union_left
  have hright : parties' ⊆ parties ∪ parties' := Finset.subset_union_right
  refine ⟨parties ∪ parties', ?_, ?_⟩
  . intro i hi
    rw [Finset.mem_union, not_or] at hi
    rw [hsame' i hi.2, hsame i hi.1]
  . rw [← hsum, ← hsum', ← sum_eq_of_subset hleft hsame, ← sum_eq_of_subset hright hsame',
      ← Finset.sum_add_distrib]
    apply Finset.sum_congr rfl
    intro i _
    omega

theorem finite_support (h : Change v w δ) (hv : (support v).Finite) : (support w).Finite := by
  obtain ⟨parties, hsame, -⟩ := h
  apply (hv.union parties.finite_toSet).subset
  intro i hi
  by_cases hmem : i ∈ parties
  . exact .inr hmem
  . left
    rw [mem_support, ← hsame i hmem]
    exact hi

theorem finsum_eq (h : Change v w δ) (hv : (support v).Finite) : ∑ᶠ i, (w i : ℤ) = ∑ᶠ i, (v i : ℤ) + δ := by
  classical
  have hw := h.finite_support hv
  obtain ⟨parties, hsame, rfl⟩ := h
  have hcast : ∀ f : ι → Nat, support (fun i => (f i : ℤ)) = support f := by
    intro f
    ext i
    simp
  have hall : ∀ f : ι → Nat, support f ⊆ ↑(parties ∪ hv.toFinset ∪ hw.toFinset) →
      ∑ᶠ i, (f i : ℤ) = ∑ i ∈ parties ∪ hv.toFinset ∪ hw.toFinset, (f i : ℤ) := by
    intro f hf
    apply finsum_eq_sum_of_support_subset
    rw [hcast]
    exact hf
  have hsub : parties ⊆ parties ∪ hv.toFinset ∪ hw.toFinset :=
    Finset.subset_union_left.trans Finset.subset_union_left
  rw [hall w (by intro i hi; simp [hi]), hall v (by intro i hi; simp [hi]), ← sum_eq_of_subset hsub hsame,
    ← Finset.sum_add_distrib]
  apply Finset.sum_congr rfl
  intro i _
  omega

end Change

end Holdings
