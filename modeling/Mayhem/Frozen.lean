import Mayhem.Lib.Run
import Mayhem.Outstanding
import Mayhem.Deposit.Handle

namespace Mayhem

def Holds.ReservedLe (holds holds' : Holds) : Prop :=
  ∀ user rail, (holds'.targetedSpendSummary user rail).reservedAu ≤
    (holds.targetedSpendSummary user rail).reservedAu

namespace Holds.ReservedLe

variable {holds holds' holds'' : Holds}

theorem refl (holds : Holds) : ReservedLe holds holds := fun _ _ => Nat.le_refl _

theorem of_summary {user : PublicKey} {rail : Rail} {summary : SpendSummary}
    (hsummary : holds'.summary = holds.summary.put (user, rail) summary)
    (hle : summary.reservedAu ≤ (holds.targetedSpendSummary user rail).reservedAu) :
    ReservedLe holds holds' := by
  intro _ _
  unfold targetedSpendSummary at hle ⊢
  rw [hsummary, Table.get_put]
  split
  . next heq =>
    obtain ⟨rfl, rfl⟩ := Prod.mk.inj heq
    exact hle
  . exact Nat.le_refl _

end Holds.ReservedLe

namespace Ledger

variable {crypto : Crypto} {s s' : Ledger} {key : Digest}

theorem Closing.reservedLe {plan : ClosePlan} {reservation : ReservationRecord}
    (h : s.Closing key plan reservation) : s.holds.ReservedLe (s.writeClosePlan plan reservation).holds := by
  obtain ⟨reservedAu, _, ⟨balance, hhold⟩, -⟩ := h.closure_eq
  have hsummary : (s.writeClosePlan plan reservation).holds.summary =
      s.holds.summary.put (plan.session.user, plan.session.rail) ⟨reservedAu, balance⟩ := by
    dsimp only [writeClosePlan, Holds.writeClosure]
    rw [hhold]
    cases plan.closure.session with
    | none | some => rfl
  apply Holds.ReservedLe.of_summary hsummary
  dsimp only
  omega

theorem PageOutcome.reservedLe {sender : PublicKey} {value : TargetedEpochValue}
    {transition : Option CommitTransition} {outcome : Outcome ApplyResult}
    (houtcome : PageOutcome crypto s sender key value transition outcome)
    (hlegacy : ∀ account, s.holds.hold.get account = none) : s.holds.ReservedLe outcome.1.holds := by
  refine houtcome.holds_invariant hlegacy s.holds.ReservedLe (.refl _) ?_
  intro holds _ _ _ _ hle hconsumed user rail
  rw [hconsumed.next_eq]
  exact Nat.le_trans (Holds.ReservedLe.of_summary rfl (Nat.sub_le _ _) user rail) (hle user rail)

variable {user : PublicKey}

theorem HoldOp.Effect.reservedAu_le {op : HoldOp} {events : List HoldEvent}
    (heffect : op.Effect crypto s s' events) (hlegacy : ∀ account, s.holds.hold.get account = none)
    (hop : ∀ key value result, op = .reserve key value → value.user = user →
      (s.applyTargetedSpendReserveFeature crypto key value).2 = .ok result → result.idempotent = true)
    (rail : Rail) : (s'.holds.targetedSpendSummary user rail).reservedAu ≤
      (s.holds.targetedSpendSummary user rail).reservedAu := by
  cases heffect with
  | @reserved key value plan hprepare hnew =>
    obtain ⟨result, hresult, hidempotent⟩ := prepareReserve_result hprepare
    have hother : value.user ≠ user := by
      intro heq
      have hagain := hop key value result rfl heq
        (by rw [applyTargetedSpendReserveFeature, hprepare]; exact hresult)
      rw [hidempotent] at hagain
      exact Bool.false_ne_true hagain
    dsimp only [writeReservation, Holds.targetedSpendSummary]
    rw [Table.get_put_of_ne]
    intro heq
    obtain ⟨huser, -⟩ := Prod.mk.inj heq
    rw [hnew.user_eq] at huser
    exact hother huser.symm
  | final plan reservation hprepare hclosing _ _ hnew => exact hclosing.reservedLe user rail
  | closed plan reservation hprepare hclosed => exact hclosed.toClosing.reservedLe user rail
  | page earnings transition houtcome | pageZero earnings transition houtcome =>
    exact houtcome.reservedLe hlegacy user rail
  | _ => exact Nat.le_refl _

/--
A reservation that names the user asks for more credit than the user has left on its rail.
-/
def HoldOp.BeyondCredit (user : PublicKey) (s : Ledger) : HoldOp → Prop
  | .reserve _ value => value.user = user → ∀ balance, s.balanceRecord user value.rail = .ok balance →
      balance.au < (s.holds.targetedSpendSummary user value.rail).reservedAu + value.maxSpendAu
  | _ => True

inductive FrozenStep (crypto : Crypto) (user : PublicKey) : Ledger → Ledger → Prop
  | op (s : Ledger) (op : HoldOp) (hfrozen : s.registry.frozen.get user = some true)
      (hbeyond : op.BeyondCredit user s) : FrozenStep crypto user s (op.run crypto s)
  | other (s s' : Ledger) (hfrozen : s.registry.frozen.get user = some true)
      (hholds : s'.holds = s.holds) (hreservation : s'.receipts.reservation = s.receipts.reservation)
      (hbilling : s'.receipts.billing = s.receipts.billing) : FrozenStep crypto user s s'

theorem reserve_idempotent_of_beyondCredit {value : SpendReserveValue} {result : ReserveResult}
    (hlegacy : ∀ account, s.holds.hold.get account = none)
    (hbeyond : (HoldOp.reserve key value).BeyondCredit value.user s)
    (hresult : (s.applyTargetedSpendReserveFeature crypto key value).2 = .ok result) :
    result.idempotent = true := by
  dsimp only [applyTargetedSpendReserveFeature] at hresult
  cases hprepare : s.prepareReserve crypto key value with
  | error => simp [hprepare] at hresult
  | ok =>
    obtain ⟨_, rfl, hidempotent⟩ | ⟨_, rfl, hnew⟩ := prepareReserve_eq_ok (hlegacy _) hprepare
    . rw [hprepare] at hresult
      obtain rfl := Except.ok.inj hresult
      exact hidempotent
    . -- A new reservation was compared with the balance.
      obtain ⟨balance, hbalance, hcovered⟩ := hnew.covered
      have hless := hbeyond rfl balance hbalance
      rw [hnew.reservedAu_eq] at hcovered
      omega

def unfrozen (s : Ledger) (user : PublicKey) : Ledger :=
  { s with registry := { s.registry with frozen := s.registry.frozen.del user } }

theorem prepareReserve_unfrozen (value : SpendReserveValue) :
    (s.unfrozen user).prepareReserve crypto key value = s.prepareReserve crypto key value := rfl

theorem reserve_unfrozen (value : SpendReserveValue) :
    (s.unfrozen user).applyTargetedSpendReserveFeature crypto key value =
      ((s.applyTargetedSpendReserveFeature crypto key value).1.unfrozen user,
        (s.applyTargetedSpendReserveFeature crypto key value).2) := by
  unfold applyTargetedSpendReserveFeature
  rw [prepareReserve_unfrozen]
  split <;> rfl

theorem FrozenStep.holdRun (h : FrozenStep crypto user s s') (hrun : ∃ history, HoldRun crypto s history) :
    ∃ history, HoldRun crypto s' history := by
  obtain ⟨history, hrun⟩ := hrun
  cases h with
  | op op _ _ => exact ⟨_, .op op hrun⟩
  | other _ _ hholds hreservation hbilling => exact ⟨_, .other hrun hholds hreservation hbilling⟩

theorem FrozenStep.reservedAu_le (h : FrozenStep crypto user s s')
    (hlegacy : ∀ account, s.holds.hold.get account = none) (rail : Rail) :
    (s'.holds.targetedSpendSummary user rail).reservedAu ≤
      (s.holds.targetedSpendSummary user rail).reservedAu := by
  cases h with
  | op op _ hbeyond =>
    apply (op.effect hlegacy).reservedAu_le hlegacy
    rintro _ _ _ rfl rfl hresult
    exact reserve_idempotent_of_beyondCredit hlegacy hbeyond hresult
  | other _ _ hholds => rw [hholds]

/--
While an account is frozen and every reservation of it asks for more than is left, it gets no new reservation
and its reserved credit does not grow. The balance does that alone: without the freeze every answer is the same.
-/
theorem frozen_reserves_nothing {history : List HoldEvent} {user : PublicKey}
    (hrun : HoldRun crypto s history) (hsteps : Relation.ReflTransGen (FrozenStep crypto user) s s') :
    (∀ rail, (s'.holds.targetedSpendSummary user rail).reservedAu ≤
      (s.holds.targetedSpendSummary user rail).reservedAu) ∧
    (∀ key value result, value.user = user → (HoldOp.reserve key value).BeyondCredit user s' →
      (s'.applyTargetedSpendReserveFeature crypto key value).2 = .ok result → result.idempotent = true) ∧
    ∀ key value, (s'.unfrozen user).applyTargetedSpendReserveFeature crypto key value =
      ((s'.applyTargetedSpendReserveFeature crypto key value).1.unfrozen user,
        (s'.applyTargetedSpendReserveFeature crypto key value).2) := by
  have hreached : (∃ history', HoldRun crypto s' history') ∧
      ∀ rail, (s'.holds.targetedSpendSummary user rail).reservedAu ≤
        (s.holds.targetedSpendSummary user rail).reservedAu := by
    refine Run.invariant (fun t : Ledger => (∃ history', HoldRun crypto t history') ∧
      ∀ rail, (t.holds.targetedSpendSummary user rail).reservedAu ≤
        (s.holds.targetedSpendSummary user rail).reservedAu)
      ⟨⟨history, hrun⟩, fun _ => Nat.le_refl _⟩ ?_ hsteps
    rintro _ _ ⟨⟨history', hbefore⟩, hle⟩ hstep
    refine ⟨hstep.holdRun ⟨history', hbefore⟩, ?_⟩
    intro rail
    exact Nat.le_trans (hstep.reservedAu_le hbefore.holdsMatch.noLegacy rail) (hle rail)
  obtain ⟨⟨history', hrun'⟩, hle⟩ := hreached
  refine ⟨hle, ?_, fun _ => reserve_unfrozen⟩
  rintro key value result rfl hbeyond hresult
  exact reserve_idempotent_of_beyondCredit hrun'.holdsMatch.noLegacy hbeyond hresult

def plainDepositHost : DepositHost where
  depositLeafHash _ := 0
  depositRootHash previous leaf count := previous + leaf + count
  rateFeatureKey _ := 0
  trimToLowerCase value := value

def cardDeposit : FiatDepositValue := ⟨"stripe", 20, 100, "pay-1", ⟨some "usd", some 1⟩, 1, 0⟩

def cardChargeback : FiatChargebackValue :=
  ⟨"stripe", 20, 40, "pay-1", "dispute-1", ⟨some "usd", some 1⟩, 1, 0⟩

def chargedBack (s : Ledger) : Ledger :=
  ((s.fiatDeposit plainDepositHost 10 cardDeposit).1.fiatChargeback plainDepositHost 10 cardChargeback).1

def frozenReserved : Ledger := chargedBack talkReserved

/--
Half of the 1000 is reserved when the account is frozen, and 501 more are refused.
-/
theorem frozen_reserves_nothing_refused : frozenReserved.registry.frozen.get 20 = some true ∧
    (frozenReserved.applyTargetedSpendReserveFeature plainHost 301 (talkReserve 1 501)).2.message =
      some "Insufficient unreserved credit balance." ∧
    (((HoldOp.reserve 301 (talkReserve 1 501)).run plainHost frozenReserved).holds.targetedSpendSummary 20
      .tnk).reservedAu ≤ (frozenReserved.holds.targetedSpendSummary 20 .tnk).reservedAu := by
  have hledger : HoldRun plainHost talkLedger [] := .other .start rfl rfl rfl
  have hreserved := HoldRun.op (.reserve 300 (talkReserve 0 500)) hledger
  have hcharged : HoldRun plainHost frozenReserved _ := .other hreserved rfl rfl rfl
  have hfrozen : frozenReserved.registry.frozen.get 20 = some true := by decide +kernel
  have hbeyond : (HoldOp.reserve 301 (talkReserve 1 501)).BeyondCredit 20 frozenReserved := by
    intro _ balance hbalance
    have hau : (frozenReserved.balanceRecord 20 .tnk).toOption.map BalanceRecord.au =
      some 1000 := by decide +kernel
    rw [show frozenReserved.balanceRecord 20 .tnk = .ok balance from hbalance] at hau
    rw [Option.some.inj hau]
    decide +kernel
  exact ⟨hfrozen, by decide +kernel,
    (frozen_reserves_nothing hcharged (.single (.op _ _ hfrozen hbeyond))).1 .tnk⟩

/--
The frozen buyer reserves as before.
-/
theorem frozen_account_reserves : (fiatDeposit plainDepositHost talkLedger 10 cardDeposit).2.message = none ∧
    (fiatChargeback plainDepositHost (talkLedger.fiatDeposit plainDepositHost 10 cardDeposit).1 10
      cardChargeback).2.message = none ∧
    (chargedBack talkLedger).registry.frozen.get 20 = some true ∧
    ((chargedBack talkLedger).applyTargetedSpendReserveFeature plainHost 300
      (talkReserve 0 500)).2.toOption.map ReserveResult.idempotent = some false ∧
    ((chargedBack talkLedger).holds.targetedSpendSummary 20 .tnk).reservedAu = 0 ∧
    (((HoldOp.reserve 300 (talkReserve 0 500)).run plainHost
      (chargedBack talkLedger)).holds.targetedSpendSummary 20 .tnk).reservedAu = 500 := by
  decide +kernel

end Ledger

end Mayhem
