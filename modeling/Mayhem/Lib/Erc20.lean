import Mayhem.Lib.Reject

/-!
This module contains a plain ERC-20 token: what is sent is what arrives, and nothing else moves a balance.
-/

def maxUint256 : Nat := 2 ^ 256 - 1

structure Erc20 (A : Type) where
  balanceOf : A → Nat
  allowance : A → A → Nat

namespace Erc20

variable {A : Type} [DecidableEq A] {token token' : Erc20 A} {zero : A}

def move (token : Erc20 A) (source target : A) (amount : Nat) : Erc20 A :=
  let taken := Function.update token.balanceOf source (token.balanceOf source - amount)
  { token with balanceOf := Function.update taken target (taken target + amount) }

def transfer (zero : A) (token : Erc20 A) (sender target : A) (amount : Nat) : Except String (Erc20 A) := do
  rejectIf (sender = zero) "ERC20InvalidSender"
  rejectIf (target = zero) "ERC20InvalidReceiver"
  rejectIf (token.balanceOf sender < amount) "ERC20InsufficientBalance"
  return token.move sender target amount

def approve (zero : A) (token : Erc20 A) (owner spender : A) (amount : Nat) : Except String (Erc20 A) := do
  rejectIf (owner = zero) "ERC20InvalidApprover"
  rejectIf (spender = zero) "ERC20InvalidSpender"
  return { token with
    allowance := Function.update token.allowance owner
      (Function.update (token.allowance owner) spender amount) }

def spendAllowance (token : Erc20 A) (owner spender : A) (amount : Nat) : Except String (Erc20 A) := do
  rejectIf (token.allowance owner spender < amount) "ERC20InsufficientAllowance"
  if token.allowance owner spender = maxUint256 then
    return token
  else
    return { token with
      allowance := Function.update token.allowance owner (Function.update (token.allowance owner)
        spender (token.allowance owner spender - amount)) }

def transferFrom (zero : A) (token : Erc20 A) (spender source target : A) (amount : Nat) :
    Except String (Erc20 A) := do
  let spent ← token.spendAllowance source spender amount
  spent.transfer zero source target amount

def mint (token : Erc20 A) (target : A) (amount : Nat) : Erc20 A :=
  { token with balanceOf := Function.update token.balanceOf target (token.balanceOf target + amount) }

variable {target account : A}

theorem balanceOf_move_of_ne (token : Erc20 A) {source : A} (amount : Nat) (h : source ≠ account) :
    token.balanceOf account ≤ (token.move source target amount).balanceOf account := by
  dsimp only [move]
  rw [Function.update_apply, Function.update_of_ne (Ne.symm h)]
  split
  . next heq =>
    subst heq
    rw [Function.update_of_ne (Ne.symm h)]
    omega
  . exact Nat.le_refl _

theorem balanceOf_move_target (token : Erc20 A) {source : A} (amount : Nat) (h : source ≠ target) :
    (token.move source target amount).balanceOf target = token.balanceOf target + amount := by
  dsimp only [move]
  rw [Function.update_self, Function.update_of_ne (Ne.symm h)]

theorem le_balanceOf_move_source (token : Erc20 A) (source target : A) (amount : Nat) :
    token.balanceOf source ≤ (token.move source target amount).balanceOf source + amount := by
  dsimp only [move]
  rw [Function.update_apply, Function.update_self]
  split
  . next heq =>
    subst heq
    rw [Function.update_self]
    omega
  . omega

variable {amount : Nat}

theorem transfer_eq_ok {sender : A} (h : token.transfer zero sender target amount = .ok token') :
    token' = token.move sender target amount := by
  simp only [transfer, checks_iff] at h
  exact h.2.2.2.symm

variable {spender : A}

theorem spendAllowance_eq_ok {owner : A} (h : token.spendAllowance owner spender amount = .ok token') :
    token'.balanceOf = token.balanceOf ∧ amount ≤ token.allowance owner spender ∧
      ∀ account other, token'.allowance account other ≤ token.allowance account other := by
  simp only [spendAllowance, checks_iff, Nat.not_lt] at h
  obtain ⟨hle, h⟩ := h
  split at h
  . rw [Except.pure_accepts_iff] at h
    subst h
    exact ⟨rfl, hle, fun _ _ => Nat.le_refl _⟩
  . rw [Except.pure_accepts_iff] at h
    subst h
    refine ⟨rfl, hle, ?_⟩
    intro account other
    dsimp only
    by_cases howner : account = owner
    . subst howner
      rw [Function.update_self, Function.update_apply]
      split
      . next heq =>
        subst heq
        exact Nat.sub_le _ _
      . exact Nat.le_refl _
    . simp only [Function.update_of_ne howner, Nat.le_refl]

theorem approve_keeps {owner : A} (howner : owner ≠ account)
    (h : token.approve zero owner spender amount = .ok token') :
    token'.balanceOf = token.balanceOf ∧ token'.allowance account = token.allowance account := by
  simp only [approve, checks_iff] at h
  obtain ⟨-, -, rfl⟩ := h
  exact ⟨rfl, Function.update_of_ne (Ne.symm howner) _ _⟩

theorem le_balanceOf_mint (token : Erc20 A) (target account : A) (amount : Nat) :
    token.balanceOf account ≤ (token.mint target amount).balanceOf account := by
  dsimp only [mint]
  rw [Function.update_apply]
  split
  . next heq =>
    subst heq
    exact Nat.le_add_right _ _
  . exact Nat.le_refl _

theorem transferFrom_keeps {source : A} (happroved : ∀ spender, token.allowance account spender = 0)
    (h : token.transferFrom zero spender source target amount = .ok token') :
    token.balanceOf account ≤ token'.balanceOf account ∧ ∀ spender, token'.allowance account spender = 0 := by
  simp only [transferFrom, checks_iff] at h
  obtain ⟨spent, hspent, h⟩ := h
  obtain ⟨hbalance, hle, hallowance⟩ := spendAllowance_eq_ok hspent
  obtain rfl := transfer_eq_ok h
  refine ⟨?_, ?_⟩
  . rw [← hbalance]
    by_cases hsource : source = account
    . -- without an allowance only nothing can be taken
      subst hsource
      rw [happroved, Nat.le_zero] at hle
      subst hle
      exact le_balanceOf_move_source spent source target 0
    . exact balanceOf_move_of_ne spent amount hsource
  . intro other
    have hless := hallowance account other
    rw [happroved] at hless
    exact Nat.le_zero.mp hless

end Erc20
