import Mayhem.Payout.Fiat
import Mayhem.Payout.Tap

namespace Mayhem.Ledger

inductive PayoutOp where
  | plan (sender : PublicKey) (key : Digest) (value : PlanValue)
  | prepare (sender : PublicKey) (tx key : Digest) (value : PreparationValue)
  | tnkOutput (sender : PublicKey) (key : Digest) (value : TnkOutputValue)
  | fiatAttempt (sender : PublicKey) (key : Digest) (value : FiatAttemptValue)
  | fiatAttemptResult (sender : PublicKey) (key : Digest) (value : AttemptResultValue)
  | fiatOutput (sender : PublicKey) (key : Digest) (value : FiatOutputValue)
  | close (sender : PublicKey) (key : Digest) (value : CloseEpochValue)
  | tapSettlement (sender : PublicKey) (key : Digest) (value : TapSettlementValue)

namespace PayoutOp

def exec (crypto : Crypto) (host : PayoutCrypto) (s : Ledger) : PayoutOp → Ledger
  | .plan sender key value => (s.applyTargetedPayoutEpochFeature crypto host sender key value).1
  | .prepare sender tx key value =>
    (s.applyTargetedPayoutPreparationFeature crypto host sender tx key value).1
  | .tnkOutput sender key value => (s.applyTargetedTnkOutputFeature host sender key value).1
  | .fiatAttempt sender key value => (s.applyTargetedFiatAttemptFeature host sender key value).1
  | .fiatAttemptResult sender key value =>
    (s.applyFinalizeTargetedFiatAttemptFeature host sender key value).1
  | .fiatOutput sender key value => (s.applyTargetedFiatOutputFeature host sender key value).1
  | .close sender key value => (s.applyCloseTargetedPayoutEpochFeature host sender key value).1
  | .tapSettlement sender key value =>
    (s.applyTargetedTapSettlementFeature crypto host sender key value).1

def Whole (crypto : Crypto) (host : PayoutCrypto) (s : Ledger) : PayoutOp → Prop
  | .tapSettlement sender key value =>
    ∀ message, (s.applyTargetedTapSettlementFeature crypto host sender key value).2 = .error message →
      (s.applyTargetedTapSettlementFeature crypto host sender key value).1 = s
  | _ => True

end PayoutOp

def writeTapSettlement (s : Ledger) (sender : PublicKey) (value : TapSettlementValue) (plan : TapPlan)
    (tails : List ((Rail × PublicKey) × PreparationTail)) : Ledger :=
  let written := s.writeTapPlan value plan
  { written with payouts := { written.payouts.writeConsumption plan.preparations tails with
    tapSettlement := s.payouts.tapSettlement.put value.epoch (value, sender) } }

inductive PayoutChange (crypto : Crypto) (host : PayoutCrypto) (s : Ledger) : PayoutOp → Ledger → Prop where
  | none (op : PayoutOp) : PayoutChange crypto host s op s
  | planned (sender : PublicKey) (key : Digest) (value : PlanValue) :
    PayoutChange crypto host s (.plan sender key value) (s.writePlan value)
  | prepared {sender : PublicKey} {tx key : Digest} {value : PreparationValue} {lock : Option LiabilityLock} :
    s.preparePreparation crypto host sender tx key value = .ok (some lock) →
    PayoutChange crypto host s (.prepare sender tx key value) (s.writePreparation tx value lock)
  | tnkSettled {sender : PublicKey} {key : Digest} {value : TnkOutputValue} {plan : OutputPlan} :
    s.prepareTnkOutput host sender key value = .ok (some plan) →
    PayoutChange crypto host s (.tnkOutput sender key value)
      (s.writeOutput .tnk value.epoch (.tnk value) [msbTransferSeenKey value.msbTransfer] plan)
  | attemptOpened {sender : PublicKey} {key : Digest} {value : FiatAttemptValue} :
    s.prepareFiatAttempt host sender key value = .ok true →
    PayoutChange crypto host s (.fiatAttempt sender key value) (s.writeFiatAttempt value)
  | attemptEnded {sender : PublicKey} {key : Digest} {value : AttemptResultValue} {attempt : FiatAttempt}
    {effect : Option String} :
    s.prepareFiatAttemptResult host sender key value = .ok (some (attempt, effect)) →
    PayoutChange crypto host s (.fiatAttemptResult sender key value)
      (s.writeFiatAttemptResult value attempt effect)
  | fiatSettled {sender : PublicKey} {key : Digest} {value : FiatOutputValue} {plan : OutputPlan}
    {attempt : FiatAttempt} {effect : AttemptEffect} :
    s.prepareFiatOutput host sender key value = .ok (some (plan, attempt, effect)) →
    PayoutChange crypto host s (.fiatOutput sender key value) (s.writeFiatOutput value plan attempt effect)
  | closed (sender : PublicKey) (key : Digest) (value : CloseEpochValue) :
    PayoutChange crypto host s (.close sender key value) { s with payouts := { s.payouts with
      closed := s.payouts.closed.put (value.rail, value.epoch) value } }
  | tapSettled {sender : PublicKey} {key : Digest} {value : TapSettlementValue} {plan : TapPlan}
    {tails : List ((Rail × PublicKey) × PreparationTail)} :
    s.prepareTapSettlement crypto host sender key value = .ok (some plan) →
    s.payouts.validatePayoutPreparationConsumption plan.preparations = .ok tails →
    PayoutChange crypto host s (.tapSettlement sender key value) (s.writeTapSettlement sender value plan tails)
  | tapCut {sender : PublicKey} {key : Digest} {value : TapSettlementValue} {plan : TapPlan} {message : String} :
    s.prepareTapSettlement crypto host sender key value = .ok (some plan) →
    s.applyTargetedTapSettlementFeature crypto host sender key value =
      (s.writeTapPlan value plan, .error message) →
    PayoutChange crypto host s (.tapSettlement sender key value) (s.writeTapPlan value plan)

theorem targetedTapSettlement_cases (s : Ledger) (sender : PublicKey) (value : TapSettlementValue)
    (plan : TapPlan) :
    (∃ tails, s.payouts.validatePayoutPreparationConsumption plan.preparations = .ok tails ∧
      s.targetedTapSettlement sender value plan = (s.writeTapSettlement sender value plan tails, .ok false)) ∨
    ∃ message, s.targetedTapSettlement sender value plan = (s.writeTapPlan value plan, .error message) := by
  cases htails : (s.writeTapPlan value plan).payouts.validatePayoutPreparationConsumption plan.preparations with
  | error message =>
    have hcut : (s.writeTapPlan value plan).payouts.consumePayoutPreparations plan.preparations =
      .error message := by
      rw [Payouts.consumePayoutPreparations, htails]
      rfl
    refine .inr ⟨message, ?_⟩
    simp [targetedTapSettlement, hcut]
  | ok tails =>
    have hconsumed : (s.writeTapPlan value plan).payouts.consumePayoutPreparations plan.preparations =
        .ok ((s.writeTapPlan value plan).payouts.writeConsumption plan.preparations tails) := by
      rw [Payouts.consumePayoutPreparations, htails]
      rfl
    refine .inl ⟨tails, htails, ?_⟩
    simp only [targetedTapSettlement, hconsumed]
    rfl

variable {s : Ledger}

theorem plannedOutput_economicOpId {rail : Rail} {ref : OutputReference} {output : PlanOutput}
    (h : s.targetedPayoutPlannedOutput rail ref = .ok output) : output.economicOpId = ref.economicOpId := by
  simp only [targetedPayoutPlannedOutput, checks_iff, not_or, not_not, ne_eq] at h
  obtain ⟨_, -, _, -, ⟨-, -, heq⟩, rfl⟩ := h
  exact heq

theorem PayoutOp.change (crypto : Crypto) (host : PayoutCrypto) (s : Ledger) (op : PayoutOp) :
    PayoutChange crypto host s op (op.exec crypto host s) := by
  cases op with
  | plan sender key value =>
    rw [exec, applyTargetedPayoutEpochFeature]
    split
    . exact .none _
    . exact .planned sender key value
    . exact .none _
  | prepare sender _ key value =>
    rw [exec, applyTargetedPayoutPreparationFeature]
    split
    . exact .none _
    . exact .none _
    case h_3 _ hprepare => exact .prepared hprepare
  | tnkOutput sender key value =>
    rw [exec, applyTargetedTnkOutputFeature]
    split
    . exact .none _
    . exact .none _
    case h_3 plan hprepare => exact .tnkSettled hprepare
  | fiatAttempt sender key value =>
    rw [exec, applyTargetedFiatAttemptFeature]
    split
    . exact .none _
    . exact .none _
    case h_3 hprepare => exact .attemptOpened hprepare
  | fiatAttemptResult sender key value =>
    rw [exec, applyFinalizeTargetedFiatAttemptFeature]
    split
    . exact .none _
    . exact .none _
    case h_3 attempt effect hprepare => exact .attemptEnded hprepare
  | fiatOutput sender key value =>
    rw [exec, applyTargetedFiatOutputFeature]
    split
    . exact .none _
    . exact .none _
    case h_3 plan attempt effect hprepare => exact .fiatSettled hprepare
  | close sender key value =>
    rw [exec, applyCloseTargetedPayoutEpochFeature]
    split
    . exact .none _
    . exact .none _
    . exact .closed sender key value
  | tapSettlement sender key value =>
    cases hprepare : s.prepareTapSettlement crypto host sender key value with
    | error message =>
      simp only [exec, applyTargetedTapSettlementFeature, hprepare]
      exact .none _
    | ok found =>
      cases found with
      | none =>
        simp only [exec, applyTargetedTapSettlementFeature, hprepare]
        exact .none _
      | some plan =>
        have happly : s.applyTargetedTapSettlementFeature crypto host sender key value =
            s.targetedTapSettlement sender value plan := by
          rw [applyTargetedTapSettlementFeature, hprepare]
        rcases targetedTapSettlement_cases s sender value plan with ⟨_, htails, hsettled⟩ | ⟨message, hcut⟩
        . rw [exec, happly, hsettled]
          exact .tapSettled hprepare htails
        . rw [exec, happly, hcut]
          exact .tapCut hprepare (happly.trans hcut)

theorem PayoutOp.Whole.writeTapPlan_eq {crypto : Crypto} {host : PayoutCrypto} {sender : PublicKey}
    {key : Digest} {value : TapSettlementValue} {plan : TapPlan} {message : String}
    (h : Whole crypto host s (.tapSettlement sender key value))
    (hcut : s.applyTargetedTapSettlementFeature crypto host sender key value =
      (s.writeTapPlan value plan, .error message)) : s.writeTapPlan value plan = s := by
  have hsame := h message (by rw [hcut])
  rw [hcut] at hsame
  exact hsame

theorem whole_of_accepted {crypto : Crypto} {host : PayoutCrypto} {sender : PublicKey} {key : Digest}
    {value : TapSettlementValue} {repeated : Bool}
    (h : (s.applyTargetedTapSettlementFeature crypto host sender key value).2.toOption = some repeated) :
    PayoutOp.Whole crypto host s (.tapSettlement sender key value) := by
  intro _ herror
  rw [herror] at h
  cases h

end Mayhem.Ledger
