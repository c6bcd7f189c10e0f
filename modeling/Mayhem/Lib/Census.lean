import Mathlib.Data.Set.Card
import Mayhem.Lib.Table

/-!
This module contains the number of records of a table that have a property, and how one write changes it.
-/

namespace Table

variable {K V : Type} {t : Table K V} {p : V → Prop} {k : K} {v : V}

def holders (t : Table K V) (p : V → Prop) : Set K := { k | ∃ v, t.get k = some v ∧ p v }

noncomputable def census (t : Table K V) (p : V → Prop) : ℕ∞ := (t.holders p).encard

theorem mem_holders_iff (h : t.get k = some v) : k ∈ t.holders p ↔ p v := by
  constructor
  . rintro ⟨_, hw, hp⟩
    obtain rfl := Option.some.inj (h.symm.trans hw)
    exact hp
  . intro hp
    exact ⟨v, h, hp⟩

theorem not_mem_holders (h : t.get k = none) : k ∉ t.holders p := by
  rintro ⟨_, hw, -⟩
  rw [h] at hw
  cases hw

@[simp]
theorem census_empty (p : V → Prop) : (empty : Table K V).census p = 0 := by
  apply Set.encard_eq_zero.mpr
  ext k
  simp [holders]

variable [DecidableEq K]

theorem holders_put_diff (t : Table K V) (p : V → Prop) (k : K) (v : V) :
    (t.put k v).holders p \ {k} = t.holders p \ {k} := by
  ext k'
  simp only [Set.mem_sdiff, Set.mem_singleton_iff]
  apply and_congr_left
  intro hne
  unfold holders
  simp [Set.mem_ofPred_eq, get_put_of_ne t v hne]

theorem census_put_of_enters (hout : k ∉ t.holders p) (hv : p v) : (t.put k v).census p = t.census p + 1 := by
  have hin : k ∈ (t.put k v).holders p := ⟨v, t.get_put_self k v, hv⟩
  have hrest := holders_put_diff t p k v
  rw [Set.sdiff_singleton_eq_self hout] at hrest
  rw [census, census, ← hrest, Set.encard_sdiff_singleton_add_one hin]

theorem census_put_of_leaves (hin : k ∈ t.holders p) (hv : ¬ p v) : (t.put k v).census p + 1 = t.census p := by
  have hout : k ∉ (t.put k v).holders p := fun h => hv ((mem_holders_iff (t.get_put_self k v)).mp h)
  have hrest := holders_put_diff t p k v
  rw [Set.sdiff_singleton_eq_self hout] at hrest
  rw [census, census, hrest, Set.encard_sdiff_singleton_add_one hin]

theorem census_put_of_stays (hout : k ∉ t.holders p) (hv : ¬ p v) : (t.put k v).census p = t.census p := by
  have hout' : k ∉ (t.put k v).holders p := fun h => hv ((mem_holders_iff (t.get_put_self k v)).mp h)
  have hrest := holders_put_diff t p k v
  rw [Set.sdiff_singleton_eq_self hout, Set.sdiff_singleton_eq_self hout'] at hrest
  rw [census, census, hrest]

end Table
