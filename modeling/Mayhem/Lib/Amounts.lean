import Mayhem.Lib.Keyed

namespace Amounts

variable {A α : Type}

structure AddUpTo (amounts : A → Option Nat) (total : Nat) : Prop where
  accounts : ∃ accounts : Finset A, (∀ a, (amounts a).isSome ↔ a ∈ accounts) ∧
    ∑ a ∈ accounts, (amounts a).getD 0 = total
  pos : ∀ a n, amounts a = some n → 0 < n

theorem AddUpTo.none : AddUpTo (fun _ : A => Option.none) 0 where
  accounts := ⟨∅, by simp, by simp⟩
  pos := by simp

variable [DecidableEq A] {amounts : A → Option Nat} {total : Nat}

theorem AddUpTo.mem_of_sum_eq (h : AddUpTo amounts total) {S : Finset A}
    (hsum : ∑ a ∈ S, (amounts a).getD 0 = total) {a : A} (ha : (amounts a).isSome) : a ∈ S := by
  obtain ⟨all, hall, htotal⟩ := h.accounts
  by_contra hnot
  obtain ⟨n, hn⟩ := Option.isSome_iff_exists.mp ha
  have hpos := h.pos a n hn
  -- those of `S` without an amount do not count
  have hinter : ∑ b ∈ S ∩ all, (amounts b).getD 0 = ∑ b ∈ S, (amounts b).getD 0 := by
    refine Finset.sum_subset Finset.inter_subset_left ?_
    intro b hb hnotBoth
    have hb' : b ∉ all := fun hmem => hnotBoth (Finset.mem_inter.mpr ⟨hb, hmem⟩)
    rw [← hall, Option.not_isSome_iff_eq_none] at hb'
    rw [hb', Option.getD_none]
  have hsubset : insert a (S ∩ all) ⊆ all := Finset.insert_subset ((hall a).mp ha) Finset.inter_subset_right
  have hle := Finset.sum_le_sum_of_subset (f := fun b => (amounts b).getD 0) hsubset
  rw [Finset.sum_insert (fun hmem => hnot (Finset.mem_inter.mp hmem).1), hinter, hsum, htotal, hn,
    Option.getD_some] at hle
  omega

theorem AddUpTo.eq_none (h : AddUpTo amounts 0) (a : A) : amounts a = .none := by
  by_contra hsome
  have hmem := h.mem_of_sum_eq (S := ∅) Finset.sum_empty (Option.isSome_iff_ne_none.mpr hsome)
  simp at hmem

theorem AddUpTo.of_entries {entries : List α} {account : α → A} {amount : α → Nat}
    (hnodup : (entries.map account).Nodup) (hpos : ∀ entry ∈ entries, 0 < amount entry)
    (hamounts : ∀ a, amounts a = (entries.find? fun entry => account entry = a).map amount) :
    AddUpTo amounts (entries.map amount).sum := by
  constructor
  . refine ⟨(entries.map account).toFinset, ?_, ?_⟩
    . intro a
      rw [hamounts, Option.isSome_map, List.find?_isSome, List.mem_toFinset, List.mem_map]
      simp
    . rw [List.sum_toFinset _ hnodup, List.map_map]
      congr 1
      refine List.map_congr_left fun entry hmem => ?_
      rw [Function.comp_apply, hamounts, Keyed.find?_eq_some hnodup hmem, Option.map_some, Option.getD_some]
  . intro a _ hn
    rw [hamounts, Option.map_eq_some_iff] at hn
    obtain ⟨entry, hfind, rfl⟩ := hn
    exact hpos entry (List.mem_of_find?_eq_some hfind)

end Amounts
