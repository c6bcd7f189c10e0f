import Mayhem.Market

namespace Mayhem
namespace Counts

structure Canonical (counts : Counts) : Prop where
  sorted : counts.Pairwise fun a b => a.1 < b.1
  nonzero : ∀ entry ∈ counts, entry.2 ≠ 0

theorem get_cons (entry : String × Nat) (counts : Counts) (unit : String) :
    get (entry :: counts) unit = if unit = entry.1 then entry.2 else get counts unit := by
  unfold get
  rw [List.lookup_cons]
  by_cases h : unit = entry.1
  . simp [h]
  . rw [if_neg h, beq_eq_false_iff_ne.mpr h]

variable {counts : Counts} {unit : String}

theorem get_of_not_mem (h : unit ∉ counts.map Prod.fst) : counts.get unit = 0 := by
  induction counts with
  | nil => rfl
  | cons _ counts ih =>
    rw [List.map_cons, List.mem_cons, not_or] at h
    rw [get_cons, if_neg h.1, ih h.2]

theorem get_set (counts : Counts) (unit : String) (n : Nat) (unit' : String) :
    (counts.set unit n).get unit' = if unit' = unit then n else counts.get unit' := by
  induction counts with
  | nil => rw [set, get_cons]
  | cons _ counts ih =>
    rw [set]
    split
    . next heq =>
      rw [get_cons, get_cons, ← heq]
      split <;> rfl
    . split
      . rw [get_cons]
      . next hne _ =>
        rw [get_cons, get_cons, ih]
        by_cases heq : unit' = unit
        . rw [if_pos heq, if_pos heq, if_neg]
          exact fun hfirst => hne (heq.symm.trans hfirst)
        . rw [if_neg heq, if_neg heq]

theorem mem_keys_set {unit' : String} {n : Nat} :
    unit' ∈ (counts.set unit n).map Prod.fst ↔ unit' = unit ∨ unit' ∈ counts.map Prod.fst := by
  induction counts with
  | nil => simp [set]
  | cons _ counts ih =>
    rw [set]
    split
    . next heq => simp [heq]
    . split
      . rw [List.map_cons, List.mem_cons]
      . rw [List.map_cons, List.mem_cons, ih, List.map_cons, List.mem_cons]
        exact or_left_comm

theorem sorted_set (h : counts.Pairwise fun a b => a.1 < b.1) (unit : String) (n : Nat) :
    (counts.set unit n).Pairwise fun a b => a.1 < b.1 := by
  induction counts with
  | nil => exact List.pairwise_singleton _ _
  | cons _ counts ih =>
    rw [List.pairwise_cons] at h
    rw [set]
    split
    . next heq =>
      rw [List.pairwise_cons, heq]
      exact h
    . next hne =>
      split
      . next hlt =>
        rw [List.pairwise_cons, List.forall_mem_cons, List.pairwise_cons]
        exact ⟨⟨hlt, fun other hother => lt_trans hlt (h.1 other hother)⟩, h⟩
      . next hnot =>
        rw [List.pairwise_cons]
        refine ⟨?_, ih h.2⟩
        intro other hother
        have hkey := mem_keys_set.mp (List.mem_map_of_mem hother)
        rcases hkey with hkey | hkey
        . rw [hkey]
          exact lt_of_le_of_ne (le_of_not_gt hnot) (Ne.symm hne)
        . obtain ⟨found, hfound, hsame⟩ := List.mem_map.mp hkey
          rw [← hsame]
          exact h.1 found hfound

theorem foldl_set (keys : Counts) (value : String → Nat) (acc : Counts)
    (hacc : acc.Pairwise fun a b => a.1 < b.1) (unit : String) :
    (keys.foldl (fun acc entry => acc.set entry.1 (value entry.1)) acc).Pairwise
        (fun a b => a.1 < b.1) ∧
      (keys.foldl (fun acc entry => acc.set entry.1 (value entry.1)) acc).get unit =
        if unit ∈ keys.map Prod.fst then value unit else acc.get unit := by
  induction keys generalizing acc with
  | nil => exact ⟨hacc, rfl⟩
  | cons entry keys ih =>
    obtain ⟨hsorted, hget⟩ := ih (acc.set entry.1 (value entry.1)) (sorted_set hacc _ _)
    refine ⟨hsorted, ?_⟩
    rw [List.foldl_cons, hget, get_set]
    by_cases hkeys : unit ∈ keys.map Prod.fst
    . simp [hkeys]
    . by_cases heq : unit = entry.1
      . simp [heq]
      . simp [hkeys, heq]

theorem sorted_union (f : Nat → Nat → Nat) (a b : Counts) : (union f a b).Pairwise fun a b => a.1 < b.1 :=
  (foldl_set (a ++ b) (fun unit => f (a.get unit) (b.get unit)) [] List.Pairwise.nil "").1

theorem get_union {f : Nat → Nat → Nat} (hf : f 0 0 = 0) (a b : Counts) (unit : String) :
    (union f a b).get unit = f (a.get unit) (b.get unit) := by
  have hget := (foldl_set (a ++ b) (fun unit => f (a.get unit) (b.get unit)) [] List.Pairwise.nil
    unit).2
  rw [union, hget]
  split
  . rfl
  . next hnot =>
    rw [List.map_append, List.mem_append, not_or] at hnot
    rw [get_of_not_mem hnot.1, get_of_not_mem hnot.2, hf]
    rfl

theorem get_nonzero (h : counts.Pairwise fun a b => a.1 < b.1) (unit : String) :
    counts.nonzero.get unit = counts.get unit := by
  induction counts with
  | nil => rfl
  | cons entry counts ih =>
    rw [List.pairwise_cons] at h
    have hkept : get (nonzero counts) unit = get counts unit := ih h.2
    unfold nonzero at hkept ⊢
    rw [List.filter_cons]
    split
    . rw [get_cons, get_cons, hkept]
    . next hzero =>
      rw [hkept, get_cons]
      split
      . next heq =>
        have hnot : unit ∉ counts.map Prod.fst := by
          intro hmem
          obtain ⟨other, hother, hsame⟩ := List.mem_map.mp hmem
          have hlt := h.1 other hother
          rw [hsame, heq] at hlt
          exact lt_irrefl _ hlt
        have hvalue : entry.2 = 0 := by simpa using hzero
        rw [get_of_not_mem hnot, hvalue]
      . rfl

theorem canonical_nonzero (h : counts.Pairwise fun a b => a.1 < b.1) : counts.nonzero.Canonical where
  sorted := h.sublist List.filter_sublist
  nonzero entry hentry := by simpa using (List.mem_filter.mp hentry).2

theorem mem_iff_get (h : counts.Canonical) {n : Nat} : (unit, n) ∈ counts ↔ counts.get unit = n ∧ n ≠ 0 := by
  obtain ⟨hsorted, hnonzero⟩ := h
  induction counts with
  | nil => simp [get, eq_comm]
  | cons entry counts ih =>
    rw [List.pairwise_cons] at hsorted
    rw [List.forall_mem_cons] at hnonzero
    rw [List.mem_cons, ih hsorted.2 hnonzero.2, get_cons]
    by_cases heq : unit = entry.1
    . have hzero : get counts unit = 0 := by
        apply get_of_not_mem
        intro hmem
        obtain ⟨other, hother, hsame⟩ := List.mem_map.mp hmem
        have hlt := hsorted.1 other hother
        rw [hsame, heq] at hlt
        exact lt_irrefl _ hlt
      rw [if_pos heq, hzero]
      constructor
      . rintro (hfirst | ⟨rfl, hne⟩)
        . rw [← hfirst] at hnonzero ⊢
          exact ⟨rfl, hnonzero.1⟩
        . exact absurd rfl hne
      . rintro ⟨rfl, -⟩
        exact .inl (Prod.ext heq rfl)
    . rw [if_neg heq, or_iff_right]
      rintro rfl
      exact heq rfl

theorem Canonical.ext {a b : Counts} (ha : a.Canonical) (hb : b.Canonical)
    (h : ∀ unit, a.get unit = b.get unit) : a = b := by
  have hnodup : ∀ {c : Counts}, c.Canonical → c.Nodup := by
    intro c hc
    refine hc.sorted.imp ?_
    rintro x y hlt rfl
    exact lt_irrefl _ hlt
  have hperm : a.Perm b := by
    rw [List.perm_ext_iff_of_nodup (hnodup ha) (hnodup hb)]
    rintro ⟨unit, _⟩
    rw [mem_iff_get ha, mem_iff_get hb, h]
  refine hperm.eq_of_pairwise ?_ ha.sorted hb.sorted
  intro x y _ _ hlt hgt
  exact absurd hgt (lt_asymm hlt)

end Counts

theorem addSettledUsage_eq_ok {left right sum : Counts} (h : addSettledUsage left right = .ok sum) :
    sum.Canonical ∧ ∀ unit, sum.get unit = left.get unit + right.get unit := by
  simp only [addSettledUsage, checks_iff] at h
  obtain ⟨-, rfl⟩ := h
  have hsorted := Counts.sorted_union (· + ·) left right
  refine ⟨Counts.canonical_nonzero hsorted, fun unit => ?_⟩
  rw [Counts.get_nonzero hsorted, Counts.get_union rfl]

end Mayhem
