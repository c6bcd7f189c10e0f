import Mathlib

/-!
This module contains books of deposits that can be taken back.
-/

namespace Reversal

variable {A D R : Type}

@[ext]
structure Sums where
  disputedAu : Nat
  clawbackAu : Nat
  absorbedAu : Nat
deriving DecidableEq

namespace Sums

def zero : Sums := ⟨0, 0, 0⟩

def add (sums more : Sums) : Sums :=
  ⟨sums.disputedAu + more.disputedAu, sums.clawbackAu + more.clawbackAu, sums.absorbedAu + more.absorbedAu⟩

def total (l : List Sums) : Sums :=
  ⟨(l.map disputedAu).sum, (l.map clawbackAu).sum, (l.map absorbedAu).sum⟩

theorem total_append_singleton (l : List Sums) (sums : Sums) : total (l ++ [sums]) = (total l).add sums := by
  simp [total, add]

def Splits (sums : Sums) : Prop := sums.clawbackAu + sums.absorbedAu = sums.disputedAu

theorem Splits.add {sums more : Sums} (h : sums.Splits) (hmore : more.Splits) : (sums.add more).Splits := by
  unfold Splits at h hmore ⊢
  simp only [Sums.add]
  omega

end Sums

inductive Event (A D R : Type) where
  | credit (ref : D) (account : A) (au : Nat)
  | takeBack (ref : R) (account : A) (sums : Sums)

structure Deposit (A : Type) where
  account : A
  au : Nat
  sums : Sums

@[ext]
structure Book (A D R : Type) where
  deposit : D → Option (Deposit A)
  taken : R → Bool
  frozen : A → Option (Nat × Sums)

def Book.empty : Book A D R := ⟨fun _ => none, fun _ => false, fun _ => none⟩

namespace Event

def credited : Event A D R → Option D
  | credit ref _ _ => some ref
  | takeBack _ _ _ => none

def takenBack : Event A D R → Option R
  | credit _ _ _ => none
  | takeBack ref _ _ => some ref

section Taken

variable [DecidableEq D] (target : R → D)

def takenOf (deposit : D) : Event A D R → Option Sums
  | credit _ _ _ => none
  | takeBack ref _ sums => if target ref = deposit then some sums else none

variable {target} {ref : R} {owner : A} {sums : Sums}

theorem takenOf_target : takenOf target (target ref) (takeBack ref owner sums : Event A D R) = some sums :=
  if_pos rfl

theorem takenOf_of_ne {deposit : D} (h : deposit ≠ target ref) :
    takenOf target deposit (takeBack ref owner sums : Event A D R) = none :=
  if_neg (Ne.symm h)

end Taken

section Frozen

variable [DecidableEq A] (freezes : R → Sums → Bool)

def frozenFor (account : A) : Event A D R → Option Sums
  | credit _ _ _ => none
  | takeBack ref owner sums => if owner = account ∧ freezes ref sums then some sums else none

variable {freezes} {ref : R} {account owner : A} {sums : Sums}

theorem frozenFor_owner (h : freezes ref sums = true) :
    frozenFor freezes owner (takeBack ref owner sums : Event A D R) = some sums :=
  if_pos ⟨rfl, h⟩

theorem frozenFor_of_ne (h : account ≠ owner) :
    frozenFor freezes account (takeBack ref owner sums : Event A D R) = none :=
  if_neg fun hboth => h hboth.1.symm

theorem frozenFor_of_not (h : ¬freezes ref sums = true) :
    frozenFor freezes account (takeBack ref owner sums : Event A D R) = none :=
  if_neg fun hboth => h hboth.2

end Frozen

end Event

def frozenRecord (disputes : List Sums) : Option (Nat × Sums) :=
  if disputes = [] then none else some (disputes.length, Sums.total disputes)

def addFrozen (record : Option (Nat × Sums)) (sums : Sums) : Nat × Sums :=
  match record with
  | some (count, total) => (count + 1, total.add sums)
  | none => (1, sums)

theorem frozenRecord_append_singleton (disputes : List Sums) (sums : Sums) :
    frozenRecord (disputes ++ [sums]) = some (addFrozen (frozenRecord disputes) sums) := by
  cases disputes with
  | nil => simp [frozenRecord, addFrozen, Sums.total]
  | cons first rest =>
    have htotal := Sums.total_append_singleton (first :: rest) sums
    simp only [frozenRecord, List.append_eq_nil_iff, List.cons_ne_nil, false_and, if_false, htotal, addFrozen,
      List.length_append, List.length_singleton]

theorem filterMap_snoc_some {α β : Type} {f : α → Option β} {a : α} {b : β} (h : f a = some b) (l : List α) :
    (l ++ [a]).filterMap f = l.filterMap f ++ [b] := by
  rw [List.filterMap_append, List.filterMap_cons_some h, List.filterMap_nil]

theorem filterMap_snoc_none {α β : Type} {f : α → Option β} {a : α} (h : f a = none) (l : List α) :
    (l ++ [a]).filterMap f = l.filterMap f := by
  rw [List.filterMap_append, List.filterMap_cons_none h, List.filterMap_nil, List.append_nil]

/--
What is under a reference after one entry was written is that entry, or what was there before.
-/
theorem update_eq_some {β : Type} [DecidableEq D] {entries : D → Option β} {ref other : D} {entry found : β}
    (h : Function.update entries ref (some entry) other = some found) :
    other = ref ∧ found = entry ∨ other ≠ ref ∧ entries other = some found := by
  by_cases heq : other = ref
  . subst heq
    rw [Function.update_self, Option.some.injEq] at h
    exact .inl ⟨rfl, h.symm⟩
  . rw [Function.update_of_ne heq] at h
    exact .inr ⟨heq, h⟩

section Steps

variable [DecidableEq A] [DecidableEq D] [DecidableEq R] (target : R → D) (freezes : R → Sums → Bool)

inductive Step (book : Book A D R) : Option (Event A D R) → Book A D R → Prop
  | keep : Step book none book
  | credit (ref : D) (account : A) (au : Nat) (hnew : book.deposit ref = none) :
      Step book (some (.credit ref account au))
        { book with deposit := Function.update book.deposit ref (some ⟨account, au, .zero⟩) }
  | takeBack (ref : R) (deposit : Deposit A) (sums : Sums) (hnew : book.taken ref = false)
      (hdeposit : book.deposit (target ref) = some deposit)
      (hle : deposit.sums.disputedAu + sums.disputedAu ≤ deposit.au) (hsplits : sums.Splits) :
      Step book (some (.takeBack ref deposit.account sums))
        { deposit :=
            Function.update book.deposit (target ref) (some { deposit with sums := deposit.sums.add sums })
          taken := Function.update book.taken ref true
          frozen :=
            if freezes ref sums then
              Function.update book.frozen deposit.account (some (addFrozen (book.frozen deposit.account) sums))
            else book.frozen }

structure Explains (history : List (Event A D R)) (book : Book A D R) : Prop where
  credited_once : (history.filterMap Event.credited).Nodup
  taken_once : (history.filterMap Event.takenBack).Nodup
  credited_iff : ∀ ref, ref ∈ history.filterMap Event.credited ↔ (book.deposit ref).isSome
  taken_iff : ∀ ref, ref ∈ history.filterMap Event.takenBack ↔ book.taken ref = true
  taken_credited : ∀ ref, book.taken ref = true → (book.deposit (target ref)).isSome
  deposit_eq : ∀ ref deposit, book.deposit ref = some deposit →
    Event.credit ref deposit.account deposit.au ∈ history ∧
      deposit.sums = Sums.total (history.filterMap (Event.takenOf target ref))
  disputed_le : ∀ ref deposit, book.deposit ref = some deposit → deposit.sums.disputedAu ≤ deposit.au
  splits : ∀ ref deposit, book.deposit ref = some deposit → deposit.sums.Splits
  frozen_eq : ∀ account, book.frozen account = frozenRecord (history.filterMap (Event.frozenFor freezes account))

variable {target freezes} {history : List (Event A D R)} {book after : Book A D R}

omit [DecidableEq R] in
theorem Explains.empty : Explains target freezes ([] : List (Event A D R)) Book.empty := by
  constructor
  all_goals simp [Book.empty, frozenRecord]

omit [DecidableEq R] in
theorem Explains.credit (h : Explains target freezes history book) {ref : D} (hnew : book.deposit ref = none)
    (account : A) (au : Nat) :
    Explains target freezes (history ++ [.credit ref account au])
      { book with deposit := Function.update book.deposit ref (some ⟨account, au, .zero⟩) } := by
  have hfresh : ref ∉ history.filterMap Event.credited := by
    rw [h.credited_iff, hnew]
    simp
  -- Nothing was taken back of a deposit that is new.
  have huntaken : history.filterMap (Event.takenOf target ref) = [] := by
    rw [List.filterMap_eq_nil_iff]
    intro event hmem
    cases event with
    | credit other owner => rfl
    | takeBack other owner =>
      apply if_neg
      intro heq
      have htaken : book.taken other = true := (h.taken_iff other).mp (List.mem_filterMap.mpr ⟨_, hmem, rfl⟩)
      have hsome := h.taken_credited other htaken
      rw [heq, hnew] at hsome
      cases hsome
  constructor
  case credited_once =>
    rw [filterMap_snoc_some (f := Event.credited) (a := .credit ref account au) rfl]
    exact List.nodup_append.mpr ⟨h.credited_once, List.nodup_singleton ref, by aesop⟩
  case taken_once =>
    rw [filterMap_snoc_none rfl]
    exact h.taken_once
  case credited_iff =>
    intro other
    rw [filterMap_snoc_some (f := Event.credited) (a := .credit ref account au) rfl, List.mem_append,
      List.mem_singleton, h.credited_iff]
    by_cases heq : other = ref
    . subst heq
      simp
    . simp [heq]
  case taken_iff =>
    intro other
    rw [filterMap_snoc_none rfl]
    exact h.taken_iff other
  case taken_credited =>
    intro other htaken
    by_cases heq : target other = ref
    . simp [heq]
    . simpa [heq] using h.taken_credited other htaken
  case deposit_eq =>
    intro other deposit hdeposit
    rcases update_eq_some hdeposit with ⟨rfl, rfl⟩ | ⟨-, hdeposit⟩
    . refine ⟨by simp, ?_⟩
      rw [filterMap_snoc_none rfl, huntaken]
      rfl
    . obtain ⟨hmem, hsums⟩ := h.deposit_eq other deposit hdeposit
      refine ⟨List.mem_append_left _ hmem, ?_⟩
      rw [filterMap_snoc_none rfl]
      exact hsums
  case disputed_le =>
    intro other deposit hdeposit
    rcases update_eq_some hdeposit with ⟨-, rfl⟩ | ⟨-, hdeposit⟩
    . exact Nat.zero_le au
    . exact h.disputed_le other deposit hdeposit
  case splits =>
    intro other deposit hdeposit
    rcases update_eq_some hdeposit with ⟨-, rfl⟩ | ⟨-, hdeposit⟩
    . rfl
    . exact h.splits other deposit hdeposit
  case frozen_eq =>
    intro owner
    rw [filterMap_snoc_none rfl]
    exact h.frozen_eq owner

theorem Explains.takeBack (h : Explains target freezes history book) {ref : R} {deposit : Deposit A} {sums : Sums}
    (hnew : book.taken ref = false) (hdeposit : book.deposit (target ref) = some deposit)
    (hle : deposit.sums.disputedAu + sums.disputedAu ≤ deposit.au) (hsplits : sums.Splits) :
    Explains target freezes (history ++ [.takeBack ref deposit.account sums])
      { deposit := Function.update book.deposit (target ref) (some { deposit with sums := deposit.sums.add sums })
        taken := Function.update book.taken ref true
        frozen :=
          if freezes ref sums then
            Function.update book.frozen deposit.account (some (addFrozen (book.frozen deposit.account) sums))
          else book.frozen } := by
  have hfresh : ref ∉ history.filterMap Event.takenBack := by
    rw [h.taken_iff, hnew]
    simp
  constructor
  case credited_once =>
    rw [filterMap_snoc_none rfl]
    exact h.credited_once
  case taken_once =>
    rw [filterMap_snoc_some (f := Event.takenBack) (a := .takeBack ref deposit.account sums) rfl]
    exact List.nodup_append.mpr ⟨h.taken_once, List.nodup_singleton ref, by aesop⟩
  case credited_iff =>
    intro other
    rw [filterMap_snoc_none rfl, h.credited_iff]
    by_cases heq : other = target ref
    . subst heq
      simp [hdeposit]
    . simp [heq]
  case taken_iff =>
    intro other
    rw [filterMap_snoc_some (f := Event.takenBack) (a := .takeBack ref deposit.account sums) rfl, List.mem_append,
      List.mem_singleton, h.taken_iff]
    by_cases heq : other = ref
    . subst heq
      simp
    . simp [heq]
  case taken_credited =>
    intro other htaken
    by_cases heq : target other = target ref
    . simp [heq]
    . have hne : other ≠ ref := fun hsame => heq (congrArg target hsame)
      simp only [Function.update_of_ne hne] at htaken
      simpa [heq] using h.taken_credited other htaken
  case deposit_eq =>
    intro other after hafter
    rcases update_eq_some hafter with ⟨rfl, rfl⟩ | ⟨hne, hbefore⟩
    . obtain ⟨hmem, hsums⟩ := h.deposit_eq _ _ hdeposit
      refine ⟨List.mem_append_left _ hmem, ?_⟩
      rw [filterMap_snoc_some Event.takenOf_target, Sums.total_append_singleton, ← hsums]
    . obtain ⟨hmem, hsums⟩ := h.deposit_eq other after hbefore
      refine ⟨List.mem_append_left _ hmem, ?_⟩
      rw [filterMap_snoc_none (Event.takenOf_of_ne hne)]
      exact hsums
  case disputed_le =>
    intro other after hafter
    rcases update_eq_some hafter with ⟨-, rfl⟩ | ⟨-, hbefore⟩
    . exact hle
    . exact h.disputed_le other after hbefore
  case splits =>
    intro other after hafter
    rcases update_eq_some hafter with ⟨-, rfl⟩ | ⟨-, hbefore⟩
    . exact (h.splits _ _ hdeposit).add hsplits
    . exact h.splits other after hbefore
  case frozen_eq =>
    intro owner
    dsimp only
    by_cases hfreezes : freezes ref sums = true
    . rw [if_pos hfreezes]
      by_cases heq : owner = deposit.account
      . subst heq
        rw [Function.update_self, filterMap_snoc_some (Event.frozenFor_owner hfreezes),
          frozenRecord_append_singleton, h.frozen_eq]
      . rw [Function.update_of_ne heq, h.frozen_eq, filterMap_snoc_none (Event.frozenFor_of_ne heq)]
    . rw [if_neg hfreezes, h.frozen_eq, filterMap_snoc_none (Event.frozenFor_of_not hfreezes)]

theorem Explains.step {event : Option (Event A D R)} (h : Explains target freezes history book)
    (hstep : Step target freezes book event after) : Explains target freezes (history ++ event.toList) after := by
  cases hstep with
  | keep => simpa using h
  | credit ref account au hnew => exact h.credit hnew account au
  | takeBack ref _ _ hnew hdeposit hle hsplits => exact h.takeBack hnew hdeposit hle hsplits

end Steps

end Reversal
