import Mathlib

namespace Keyed

variable {K α : Type} [DecidableEq K] (key : α → K)

def erase (k : K) (l : List α) : List α := l.filter fun a => key a ≠ k

def modify (k : K) (g : α → α) (l : List α) : List α := l.map fun a => if key a = k then g a else a

variable {key} {l : List α} {k : K}

theorem find?_eq_some (hnodup : (l.map key).Nodup) {a : α} (ha : a ∈ l) :
    l.find? (fun b => key b = key a) = some a := by
  have hfound : (l.find? fun b => key b = key a).isSome := by
    rw [List.find?_isSome]
    exact ⟨a, ha, by simp⟩
  obtain ⟨b, hb⟩ := Option.isSome_iff_exists.mp hfound
  have hsame : key b = key a := by simpa using List.find?_some hb
  rw [hb, List.inj_on_of_nodup_map hnodup (List.mem_of_find?_eq_some hb) ha hsame]

theorem mem_erase {a : α} : a ∈ erase key k l ↔ a ∈ l ∧ key a ≠ k := by
  simp [erase]

theorem erase_cons_of_eq {b : α} (h : key b = k) : erase key k (b :: l) = erase key k l :=
  List.filter_cons_of_neg (by simpa using h)

theorem erase_cons_of_ne {b : α} (h : key b ≠ k) : erase key k (b :: l) = b :: erase key k l :=
  List.filter_cons_of_pos (by simpa using h)

theorem erase_of_not_mem (h : k ∉ l.map key) : erase key k l = l := by
  rw [erase, List.filter_eq_self]
  intro a ha
  have hne : key a ≠ k := fun heq => h (List.mem_map.mpr ⟨a, ha, heq⟩)
  simp [hne]

theorem erase_sublist : (erase key k l).Sublist l := List.filter_sublist

theorem sum_erase (hnodup : (l.map key).Nodup) {a : α} (ha : a ∈ l) (f : α → Nat) :
    f a + ((erase key (key a) l).map f).sum = (l.map f).sum := by
  induction l with
  | nil => cases ha
  | cons b l ih =>
    rw [List.map_cons, List.nodup_cons] at hnodup
    by_cases hkey : key b = key a
    . have hab : a = b := by
        rcases List.mem_cons.mp ha with heq | hmem
        . exact heq
        . exact absurd (List.mem_map.mpr ⟨a, hmem, hkey.symm⟩) hnodup.1
      subst hab
      rw [erase_cons_of_eq rfl, erase_of_not_mem hnodup.1, List.map_cons, List.sum_cons]
    . have hmem : a ∈ l := by
        rcases List.mem_cons.mp ha with heq | hmem
        . exact absurd (congrArg key heq).symm hkey
        . exact hmem
      rw [erase_cons_of_ne hkey, List.map_cons, List.sum_cons, List.map_cons, List.sum_cons, ← ih hnodup.2 hmem]
      omega

theorem map_modify {β : Type} {f : α → β} {g : α → α} (hg : ∀ a, f (g a) = f a) :
    (modify key k g l).map f = l.map f := by
  rw [modify, List.map_map]
  apply List.map_congr_left
  intro a _
  rw [Function.comp_apply]
  split
  . exact hg a
  . rfl

theorem erase_modify {g : α → α} (hg : ∀ a, key (g a) = key a) :
    erase key k (modify key k g l) = erase key k l := by
  induction l with
  | nil => rfl
  | cons b l ih =>
    rw [modify, List.map_cons]
    by_cases hkey : key b = k
    . rw [if_pos hkey, erase_cons_of_eq ((hg b).trans hkey), erase_cons_of_eq hkey]
      exact ih
    . rw [if_neg hkey, erase_cons_of_ne hkey, erase_cons_of_ne hkey]
      exact congrArg (List.cons b) ih

theorem mem_modify_of_mem {g : α → α} {a : α} (ha : a ∈ l) (hkey : key a = k) : g a ∈ modify key k g l :=
  List.mem_map.mpr ⟨a, ha, by rw [if_pos hkey]⟩

theorem sum_modify (hnodup : (l.map key).Nodup) {a : α} (ha : a ∈ l) {g : α → α}
    (hg : ∀ a, key (g a) = key a) (f : α → Nat) :
    f a + ((modify key (key a) g l).map f).sum = f (g a) + (l.map f).sum := by
  have hmem : g a ∈ modify key (key a) g l := mem_modify_of_mem ha rfl
  have hnodup' : ((modify key (key a) g l).map key).Nodup := by
    rw [map_modify hg]
    exact hnodup
  rw [← sum_erase hnodup' hmem, hg, erase_modify hg, ← sum_erase hnodup ha]
  omega

theorem sum_le_sum {l' : List α} (hnodup : (l.map key).Nodup) (hnodup' : (l'.map key).Nodup) {f : α → Nat}
    (h : ∀ a ∈ l, ∃ b ∈ l', key b = key a ∧ f a ≤ f b) : (l.map f).sum ≤ (l'.map f).sum := by
  induction l generalizing l' with
  | nil => simp
  | cons a l ih =>
    rw [List.map_cons, List.nodup_cons] at hnodup
    obtain ⟨b, hb, hkey, _⟩ := h a List.mem_cons_self
    have hrest : (l.map f).sum ≤ ((erase key (key b) l').map f).sum := by
      apply ih hnodup.2 (hnodup'.sublist (erase_sublist.map key))
      intro c hc
      obtain ⟨d, hd, hsame, hbound⟩ := h c (List.mem_cons_of_mem _ hc)
      refine ⟨d, mem_erase.mpr ⟨hd, ?_⟩, hsame, hbound⟩
      rw [hsame, hkey]
      intro heq
      exact hnodup.1 (heq ▸ List.mem_map_of_mem hc)
    rw [List.map_cons, List.sum_cons, ← sum_erase hnodup' hb f]
    omega

theorem erase_eq_erase {K' : Type} [DecidableEq K'] {key' : α → K'} (hnodup : (l.map key).Nodup)
    (hnodup' : (l.map key').Nodup) {a : α} (ha : a ∈ l) : erase key (key a) l = erase key' (key' a) l := by
  apply List.filter_congr
  intro b hb
  have hkey : key b = key a ↔ b = a := ⟨fun h => List.inj_on_of_nodup_map hnodup hb ha h, fun h => congrArg key h⟩
  have hkey' : key' b = key' a ↔ b = a :=
    ⟨fun h => List.inj_on_of_nodup_map hnodup' hb ha h, fun h => congrArg key' h⟩
  exact decide_eq_decide.mpr (not_congr (hkey.trans hkey'.symm))

end Keyed
