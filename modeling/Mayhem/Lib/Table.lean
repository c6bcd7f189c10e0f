import Mathlib.Logic.Function.Basic
import Mathlib.Data.List.Basic

/-!
This module contains keyed stores: a `Table` maps every key to at most one value and is changed by `put` and
`del` only.
-/

def Table (K V : Type) : Type := K → Option V

namespace Table

variable {K V : Type}

def empty : Table K V := fun _ => none

def get (t : Table K V) (k : K) : Option V := t k

@[ext]
theorem ext {t u : Table K V} (h : ∀ k, t.get k = u.get k) : t = u := funext h

@[simp]
theorem get_empty (k : K) : (empty : Table K V).get k = none := rfl

variable [DecidableEq K]

def put (t : Table K V) (k : K) (v : V) : Table K V := fun k' => if k' = k then some v else t k'

def del (t : Table K V) (k : K) : Table K V := fun k' => if k' = k then none else t k'

theorem get_put (t : Table K V) (k k' : K) (v : V) : (t.put k v).get k' = if k' = k then some v else t.get k' :=
  rfl

@[simp]
theorem get_put_self (t : Table K V) (k : K) (v : V) : (t.put k v).get k = some v := by
  simp [get_put]

variable {k : K}

@[simp]
theorem get_put_of_ne (t : Table K V) {k' : K} (v : V) (h : k' ≠ k) : (t.put k v).get k' = t.get k' := by
  simp [get_put, h]

theorem get_put_eq_some {t : Table K V} {k' : K} {v w : V} :
    (t.put k v).get k' = some w ↔ k' = k ∧ v = w ∨ k' ≠ k ∧ t.get k' = some w := by
  rw [get_put]
  split
  case isTrue heq => simp [heq]
  case isFalse hne => simp [hne]

theorem isSome_get_put {t : Table K V} {k' : K} {v : V} (h : (t.get k').isSome = true) :
    ((t.put k v).get k').isSome = true := by
  rw [get_put]
  split
  . rfl
  . exact h

theorem get_del (t : Table K V) (k k' : K) : (t.del k).get k' = if k' = k then none else t.get k' := rfl

@[simp]
theorem get_del_of_ne (t : Table K V) {k' : K} (h : k' ≠ k) : (t.del k).get k' = t.get k' := by
  simp [get_del, h]

def putAll (t : Table K V) (entries : List (K × V)) : Table K V :=
  entries.foldl (fun t e => t.put e.1 e.2) t

@[simp]
theorem putAll_nil (t : Table K V) : t.putAll [] = t := rfl

@[simp]
theorem putAll_cons (t : Table K V) (e : K × V) (entries : List (K × V)) :
    t.putAll (e :: entries) = (t.put e.1 e.2).putAll entries := rfl

theorem putAll_append (t : Table K V) (entries more : List (K × V)) :
    t.putAll (entries ++ more) = (t.putAll entries).putAll more :=
  List.foldl_append

theorem get_putAll_of_not_mem (t : Table K V) (entries : List (K × V)) (k : K)
    (h : k ∉ entries.map Prod.fst) : (t.putAll entries).get k = t.get k := by
  induction entries generalizing t with
  | nil => rfl
  | cons _ entries ih =>
    simp only [List.map_cons, List.mem_cons, not_or] at h
    rw [putAll_cons, ih _ h.2, get_put_of_ne _ _ h.1]

theorem get_putAll_of_mem (t : Table K V) (entries : List (K × V)) (hnodup : (entries.map Prod.fst).Nodup)
    {v : V} (h : (k, v) ∈ entries) : (t.putAll entries).get k = some v := by
  induction entries generalizing t with
  | nil => simp at h
  | cons _ entries ih =>
    simp only [List.map_cons, List.nodup_cons] at hnodup
    rw [putAll_cons]
    rcases List.mem_cons.mp h with rfl | h
    · rw [get_putAll_of_not_mem _ _ _ hnodup.1, get_put_self]
    · exact ih _ hnodup.2 h

theorem get_putAll_cases (t : Table K V) (entries : List (K × V)) (k : K) :
    (t.putAll entries).get k = t.get k ∨ ∃ v, (k, v) ∈ entries ∧ (t.putAll entries).get k = some v := by
  induction entries generalizing t with
  | nil => exact .inl rfl
  | cons e entries ih =>
    rw [putAll_cons]
    rcases ih (t.put e.1 e.2) with heq | ⟨v, hmem, heq⟩
    . by_cases hkey : k = e.1
      . subst hkey
        exact .inr ⟨e.2, List.mem_cons_self, heq.trans (get_put_self _ _ _)⟩
      . exact .inl (heq.trans (get_put_of_ne _ _ hkey))
    . exact .inr ⟨v, List.mem_cons_of_mem _ hmem, heq⟩

theorem get_putAll_empty_iff {entries : List (K × V)} (hnodup : (entries.map Prod.fst).Nodup) {v : V} :
    (empty.putAll entries).get k = some v ↔ (k, v) ∈ entries := by
  constructor
  . intro h
    by_cases hmem : k ∈ entries.map Prod.fst
    . obtain ⟨⟨_, _⟩, hentry, rfl⟩ := List.mem_map.mp hmem
      rw [get_putAll_of_mem _ _ hnodup hentry, Option.some.injEq] at h
      exact h ▸ hentry
    . rw [get_putAll_of_not_mem _ _ _ hmem, get_empty] at h
      cases h
  . exact get_putAll_of_mem _ _ hnodup

theorem putAll_eq_self_iff {t : Table K V} {entries : List (K × V)} (hnodup : (entries.map Prod.fst).Nodup) :
    t.putAll entries = t ↔ ∀ entry ∈ entries, t.get entry.1 = some entry.2 := by
  constructor
  . intro heq entry hmem
    rw [← heq]
    exact get_putAll_of_mem t entries hnodup hmem
  . intro hstored
    funext k
    rcases get_putAll_cases t entries k with hsame | ⟨_, hmem, hnew⟩
    . exact hsame
    . exact hnew.trans (hstored _ hmem).symm

end Table
