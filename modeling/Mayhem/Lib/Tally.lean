import Mathlib

/-!
This module contains tallies: lists of amounts under distinct keys, in the order in which the keys were first
seen.
-/

namespace Tally

variable {K : Type} [DecidableEq K]

def add (k : K) (n : Nat) : List (K × Nat) → List (K × Nat)
  | [] => [(k, n)]
  | entry :: tally =>
    if entry.1 = k then (k, entry.2 + n) :: tally else entry :: add k n tally

def addAll (tally entries : List (K × Nat)) : List (K × Nat) :=
  entries.foldl (fun tally entry => add entry.1 entry.2 tally) tally

@[simp]
theorem addAll_nil (tally : List (K × Nat)) : addAll tally [] = tally := rfl

@[simp]
theorem addAll_cons (tally : List (K × Nat)) (entry : K × Nat) (entries : List (K × Nat)) :
    addAll tally (entry :: entries) = addAll (add entry.1 entry.2 tally) entries := rfl

def amount (entries : List (K × Nat)) (k : K) : Nat :=
  ((entries.filter fun entry => entry.1 = k).map Prod.snd).sum

@[simp]
theorem amount_nil (k : K) : amount [] k = 0 := rfl

theorem amount_cons (entry : K × Nat) (entries : List (K × Nat)) (k : K) :
    amount (entry :: entries) k = (if entry.1 = k then entry.2 else 0) + amount entries k := by
  unfold amount
  rw [List.filter_cons]
  split <;> simp_all

theorem amount_append (entries more : List (K × Nat)) (k : K) :
    amount (entries ++ more) k = amount entries k + amount more k := by
  simp [amount]

variable {entries : List (K × Nat)} {k : K}

theorem amount_of_not_mem (h : k ∉ entries.map Prod.fst) : amount entries k = 0 := by
  induction entries with
  | nil => rfl
  | cons _ entries ih =>
    rw [List.map_cons, List.mem_cons, not_or] at h
    rw [amount_cons, if_neg (Ne.symm h.1), ih h.2]

theorem amount_perm {entries' : List (K × Nat)} (h : entries.Perm entries') (k : K) :
    amount entries k = amount entries' k :=
  ((h.filter _).map _).sum_eq

theorem amount_add (k : K) (n : Nat) (tally : List (K × Nat)) (k' : K) :
    amount (add k n tally) k' = (if k = k' then n else 0) + amount tally k' := by
  induction tally with
  | nil => rw [add, amount_cons]
  | cons _ tally ih =>
    rw [add]
    split
    . next heq =>
      rw [amount_cons, amount_cons, heq]
      split <;> omega
    . rw [amount_cons, amount_cons, ih]
      omega

theorem sum_add (k : K) (n : Nat) (tally : List (K × Nat)) :
    ((add k n tally).map Prod.snd).sum = (tally.map Prod.snd).sum + n := by
  induction tally with
  | nil => simp [add]
  | cons _ tally ih =>
    unfold add
    split
    . simp only [List.map_cons, List.sum_cons]
      omega
    . simp only [List.map_cons, List.sum_cons, ih]
      omega

theorem amount_addAll (tally entries : List (K × Nat)) (k : K) :
    amount (addAll tally entries) k = amount tally k + amount entries k := by
  induction entries generalizing tally with
  | nil => rfl
  | cons _ entries ih =>
    rw [addAll_cons, ih, amount_add, amount_cons]
    omega

variable {tally : List (K × Nat)}

theorem mem_keys_add {k' : K} {n : Nat} : k' ∈ (add k n tally).map Prod.fst ↔ k' = k ∨
    k' ∈ tally.map Prod.fst := by
  induction tally with
  | nil => simp [add]
  | cons _ tally ih =>
    rw [add]
    split
    . next heq => simp [heq]
    . rw [List.map_cons, List.mem_cons, ih, List.map_cons, List.mem_cons]
      exact or_left_comm

theorem mem_keys_addAll :
    k ∈ (addAll tally entries).map Prod.fst ↔ k ∈ tally.map Prod.fst ∨ k ∈ entries.map Prod.fst := by
  induction entries generalizing tally with
  | nil => simp
  | cons _ entries ih =>
    rw [addAll_cons, ih, mem_keys_add, List.map_cons, List.mem_cons, or_assoc, or_left_comm]

theorem nodup_keys_add (k : K) (n : Nat) (h : (tally.map Prod.fst).Nodup) :
    ((add k n tally).map Prod.fst).Nodup := by
  induction tally with
  | nil => exact List.nodup_singleton k
  | cons _ tally ih =>
    rw [List.map_cons, List.nodup_cons] at h
    rw [add]
    split
    . next heq =>
      rw [List.map_cons, List.nodup_cons]
      exact ⟨heq ▸ h.1, h.2⟩
    . next hne =>
      rw [List.map_cons, List.nodup_cons, mem_keys_add, not_or]
      exact ⟨⟨hne, h.1⟩, ih h.2⟩

theorem nodup_keys_addAll (entries : List (K × Nat)) (h : (tally.map Prod.fst).Nodup) :
    ((addAll tally entries).map Prod.fst).Nodup := by
  induction entries generalizing tally with
  | nil => exact h
  | cons _ entries ih => exact ih (nodup_keys_add _ _ h)

theorem amount_of_mem (hnodup : (tally.map Prod.fst).Nodup) {n : Nat} (h : (k, n) ∈ tally) :
    amount tally k = n := by
  induction tally with
  | nil => simp at h
  | cons entry tally ih =>
    rw [List.map_cons, List.nodup_cons] at hnodup
    rw [amount_cons]
    rcases List.mem_cons.mp h with rfl | h
    . rw [if_pos rfl, amount_of_not_mem hnodup.1]
      rfl
    . have hne : entry.1 ≠ k := by
        intro heq
        exact hnodup.1 (heq ▸ List.mem_map_of_mem h)
      rw [if_neg hne, ih hnodup.2 h, Nat.zero_add]

omit [DecidableEq K] in
theorem mem_of_lookup [BEq K] [LawfulBEq K] {V : Type} {entries : List (K × V)} {v : V}
    (h : entries.lookup k = some v) : (k, v) ∈ entries := by
  obtain ⟨_, _, rfl, -⟩ := List.lookup_eq_some_iff.mp h
  exact List.mem_append_right _ List.mem_cons_self

omit [DecidableEq K] in
theorem perm_of_lookup [BEq K] [LawfulBEq K] {other : List (K × Nat)} (hnodup : (tally.map Prod.fst).Nodup)
    (hfound : ∀ entry ∈ tally, other.lookup entry.1 = some entry.2) (hlength : other.length = tally.length) :
    tally.Perm other := by
  have hsubset : tally ⊆ other := by
    intro entry hentry
    exact mem_of_lookup (hfound entry hentry)
  exact ((List.Nodup.of_map _ hnodup).subperm hsubset).perm_of_length_le (Nat.le_of_eq hlength)

theorem amount_map_addAll {L : Type} [DecidableEq L] (f : K → L) (tally entries : List (K × Nat))
    (k : L) : amount ((addAll tally entries).map (Prod.map f id)) k =
      amount (tally.map (Prod.map f id)) k + amount (entries.map (Prod.map f id)) k := by
  have hadd : ∀ (k' : K) (n : Nat) (tally : List (K × Nat)), amount ((add k' n tally).map (Prod.map f id)) k =
        amount (tally.map (Prod.map f id)) k + if f k' = k then n else 0 := by
    intro k' n tally
    induction tally with
    | nil =>
      rw [add, List.map_cons, List.map_nil, amount_cons, amount_nil, Nat.zero_add, Nat.add_zero]
      rfl
    | cons entry tally ih =>
      rw [add]
      split
      . next heq =>
        subst heq
        rw [List.map_cons, List.map_cons, amount_cons, amount_cons]
        by_cases hk : f entry.1 = k
        . simp [hk]
          omega
        . simp [hk]
      . rw [List.map_cons, List.map_cons, amount_cons, amount_cons, ih]
        omega
  induction entries generalizing tally with
  | nil => rfl
  | cons entry entries ih =>
    rw [addAll_cons, ih, hadd, List.map_cons, amount_cons]
    dsimp only [Prod.map, id]
    omega

theorem sum_amount {ι : Type} [DecidableEq ι] (f : ι → K) (hf : Function.Injective f)
    (entries : List (K × Nat)) (keys : Finset ι) (p : K → Prop) [DecidablePred p]
    (hp : ∀ i, p (f i)) (hkeys : ∀ entry ∈ entries, p entry.1 → ∃ i ∈ keys, f i = entry.1) :
    ∑ i ∈ keys, amount entries (f i) = ((entries.filter fun entry => p entry.1).map Prod.snd).sum := by
  induction entries with
  | nil => simp
  | cons entry entries ih =>
    rw [List.forall_mem_cons] at hkeys
    simp only [amount_cons, Finset.sum_add_distrib, ih hkeys.2]
    rw [List.filter_cons]
    by_cases hentry : p entry.1
    . obtain ⟨i, hi, heq⟩ := hkeys.1 hentry
      have hone : ∑ j ∈ keys, (if entry.1 = f j then entry.2 else 0) = entry.2 := by
        rw [Finset.sum_eq_single i]
        . rw [if_pos heq.symm]
        . intro j _ hne
          rw [if_neg]
          intro hsame
          exact hne (hf (hsame.symm.trans heq.symm))
        . exact fun hnot => absurd hi hnot
      rw [hone, if_pos (by simpa using hentry), List.map_cons, List.sum_cons]
    . have hnone : ∑ j ∈ keys, (if entry.1 = f j then entry.2 else 0) = 0 := by
        apply Finset.sum_eq_zero
        intro j _
        rw [if_neg]
        intro hsame
        exact hentry (hsame ▸ hp j)
      rw [hnone, if_neg (by simpa using hentry), Nat.zero_add]

end Tally
