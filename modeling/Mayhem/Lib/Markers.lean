import Mathlib.Data.List.Infix

namespace Markers

variable {α : Type}

structure Separate (markers : List (List α)) : Prop where
  ne_nil : [] ∉ markers
  eq_of_infix : ∀ first ∈ markers, ∀ second ∈ markers, first <:+: second → first = second

theorem Separate.eq_of_starts {markers : List (List α)} (h : Separate markers) {first second text : List α}
    (hfirst : first ∈ markers) (hsecond : second ∈ markers) (hp : first <+: text) (hq : second <+: text) :
    first = second := by
  rcases List.prefix_or_prefix_of_prefix hp hq with hle | hle
  . exact h.eq_of_infix _ hfirst _ hsecond hle.isInfix
  . exact (h.eq_of_infix _ hsecond _ hfirst hle.isInfix).symm

variable [DecidableEq α]

def find (marker : List α) : List α → Option Nat
  | [] => if marker = [] then some 0 else none
  | a :: text => if marker <+: a :: text then some 0 else (find marker text).map (· + 1)

theorem find_cons_of_not {marker : List α} {a : α} {text : List α} (h : ¬ marker <+: a :: text) :
    find marker (a :: text) = (find marker text).map (· + 1) := if_neg h

theorem prefix_drop_of_find {marker text : List α} {index : Nat} (h : find marker text = some index) :
    marker <+: text.drop index := by
  induction text generalizing index with
  | nil =>
    simp only [find] at h
    split at h
    case isTrue hnil => simp [hnil]
    case isFalse => cases h
  | cons a text ih =>
    by_cases hhead : marker <+: a :: text
    . rw [find, if_pos hhead] at h
      cases h
      exact hhead
    . rw [find_cons_of_not hhead, Option.map_eq_some_iff] at h
      obtain ⟨index, h, rfl⟩ := h
      exact ih h

theorem find_of_starts {marker text : List α} (h : marker <+: text) : find marker text = some 0 := by
  cases text with
  | nil => simp [find, List.prefix_nil.mp h]
  | cons _ text => exact if_pos h

end Markers
