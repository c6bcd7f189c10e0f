import Mayhem.Payout.Prepare

namespace Mayhem

structure SettlementOutput where
  party : PayoutParty
  target : String
  currency : Option String
  liabilityAu : Nat
  settledAu : Nat
  dustAu : Nat
  roundingAu : Nat

def PlanOutput.settlement (output : PlanOutput) : Option SettlementOutput :=
  output.party.map fun party =>
    match output.amount with
    | .tnk au _ => ⟨party, output.target, none, au, au, 0, 0⟩
    | .fiat terms => ⟨party, output.target, terms.destination.map FiatDestination.currency,
        terms.liabilityAu, terms.paidAu, terms.dustAu, terms.roundingAu⟩

def TapOutput.settlement (output : TapOutput) : SettlementOutput :=
  ⟨⟨output.provider, output.payoutRevision, output.paidCumAuBefore, output.aggregatePaidCumAuBefore⟩,
    output.target, none, output.paidAu, output.paidAu, 0, 0⟩

structure SettlementUpdates where
  liabilities : List ((PublicKey × Rail × Digest) × PayoutLiability)
  earnings : List ((PublicKey × Rail) × EarningRecord)

structure ProviderPaid where
  provider : PublicKey
  aggregatePaidCumAuBefore : Nat
  paidAu : Nat

def addProviderPaid (output : SettlementOutput) : List ProviderPaid → Except String (List ProviderPaid)
  | [] => .ok [⟨output.party.provider, output.party.aggregatePaidCumAuBefore, output.settledAu⟩]
  | paid :: rest => do
    if paid.provider = output.party.provider then
      rejectIf (paid.aggregatePaidCumAuBefore + paid.paidAu ≠ output.party.aggregatePaidCumAuBefore)
        "Targeted settlement provider outputs have a discontinuous aggregate paid watermark."
      return { paid with paidAu := paid.paidAu + output.settledAu } :: rest
    else
      let rest ← addProviderPaid output rest
      return paid :: rest

def checkSettledAmount (rail : Rail) (output : SettlementOutput) (payableAu : Nat) : Except String Unit := do
  if rail = .fiat then
    rejectIf (output.liabilityAu < output.settledAu ∨ output.liabilityAu = 0 ∨
      payableAu < output.liabilityAu ∨ output.dustAu ≠ output.liabilityAu - output.settledAu ∨
      output.roundingAu ≠ output.liabilityAu - output.settledAu)
      "Targeted fiat settlement exceeds its frozen revision liability or mismatches dust."
  rejectIf (output.settledAu = 0) "Targeted settlement liability has no payable earnings."
  rejectIf (rail ≠ .fiat ∧ payableAu < output.settledAu)
    "Targeted settlement amount exceeds revision liability."

def Earned.payableAu (earned : Earned) : Except String Nat := do
  let releasedAu ← safeSubAu earned.totalAu earned.heldAu
  safeSubAu releasedAu earned.paidCumAu

def Earned.pay (earned : Earned) (au epoch : Nat) : Earned :=
  { earned with paidCumAu := earned.paidCumAu + au, updatedEpoch := max earned.updatedEpoch epoch }

namespace Ledger

def payableProvider (s : Ledger) (provider : PublicKey) : Except String ProviderRecord := do
  let record ← requireSome (s.registry.providers.get provider) "Provider not found."
  rejectIf (record.status ≠ .active ∧ record.status ≠ .banned)
    "Targeted settlement provider status is not payable."
  return record

def settlementBinding (s : Ledger) (rail : Rail) (epoch : Nat) (output : SettlementOutput) :
    Except String PayoutBinding := do
  let binding ← s.registry.payoutBindingFor rail output.party.provider output.party.payoutRevision epoch
    "Targeted settlement requires its immutable payout binding."
  rejectIf (binding.target ≠ output.target) "Targeted settlement payout target mismatch."
  rejectIf (rail = .fiat ∧ binding.currency ≠ output.currency)
    "Targeted settlement payout currency mismatch."
  return binding

def settleLiability (s : Ledger) (rail : Rail) (epoch : Nat) (param : ParamKey → Nat)
    (output : SettlementOutput) :
    Except String ((PublicKey × Rail × Digest) × PayoutLiability) := do
  let record ← s.payableProvider output.party.provider
  let binding ← s.settlementBinding rail epoch output
  let key := (output.party.provider, rail, output.party.payoutRevision)
  let mismatch := "Targeted settlement payout liability mismatch."
  let liability ← requireSome (s.accounts.liability.get key) mismatch
  rejectIf (liability.target ≠ binding.target ∨ liability.currency ≠ binding.currency ∨
    liability.chainId ≠ binding.chainId) mismatch
  guardianValidatePayoutLiabilityRecord liability rail
  let refreshed ← s.refreshForPayout epoch param output.party.provider record liability.earned
  let payableAu ← refreshed.payableAu
  rejectIf (refreshed.paidCumAu ≠ output.party.paidCumAuBefore)
    "Targeted settlement paid cumulative watermark mismatch."
  checkSettledAmount rail output payableAu
  let next := { liability with earned := refreshed.pay output.settledAu epoch }
  guardianValidatePayoutLiabilityRecord next rail
  return (key, next)

def settleEarning (s : Ledger) (rail : Rail) (epoch : Nat) (param : ParamKey → Nat)
    (paid : ProviderPaid) : Except String ((PublicKey × Rail) × EarningRecord) := do
  let record ← s.payableProvider paid.provider
  let earning ← s.earningRecord paid.provider rail
  guardianValidateEarningRecord earning rail
  let refreshed ← s.refreshForPayout epoch param paid.provider record earning.earned
  let payableAu ← refreshed.payableAu
  rejectIf (refreshed.paidCumAu ≠ paid.aggregatePaidCumAuBefore)
    "Targeted settlement aggregate paid cumulative watermark mismatch."
  rejectIf (payableAu < paid.paidAu) "Targeted settlement exceeds aggregate provider earnings."
  let next := { earning with earned := refreshed.pay paid.paidAu epoch }
  guardianValidateEarningRecord next rail
  return ((paid.provider, rail), next)

def settleOutput (s : Ledger) (rail : Rail) (epoch : Nat) (param : ParamKey → Nat)
    (progress : List ((PublicKey × Rail × Digest) × PayoutLiability) × List ProviderPaid)
    (output : SettlementOutput) :
    Except String (List ((PublicKey × Rail × Digest) × PayoutLiability) × List ProviderPaid) := do
  let liability ← s.settleLiability rail epoch param output
  let paid ← addProviderPaid output progress.2
  return (progress.1 ++ [liability], paid)

def targetedPayoutSettlementUpdates (s : Ledger) (outputs : List SettlementOutput) (rail : Rail)
    (epoch time : Nat) : Except String SettlementUpdates := do
  let param := s.registry.activeParamAt time
  let (liabilities, paid) ← outputs.foldlM (s.settleOutput rail epoch param) ([], [])
  let earnings ← paid.mapM (s.settleEarning rail epoch param)
  return ⟨liabilities, earnings⟩

end Ledger

def Accounts.writeSettlement (accounts : Accounts) (updates : SettlementUpdates) : Accounts :=
  { accounts with
    liability := accounts.liability.putAll updates.liabilities
    earning := accounts.earning.putAll updates.earnings }

def Preparation.tailKey (preparation : Preparation) : Option (Rail × PublicKey) :=
  preparation.value.liability.map fun liability => (preparation.value.rail, liability.provider)

def lastPreparation (preparations : List Preparation) (key : Rail × PublicKey) : Option Preparation :=
  (preparations.filter fun preparation => preparation.tailKey = some key).getLast?

namespace Payouts

def consumableTail (payouts : Payouts) (preparations : List Preparation) (key : Rail × PublicKey) :
    Except String ((Rail × PublicKey) × PreparationTail) := do
  let mismatch := "Targeted payout preparation aggregate tail mismatch."
  let preparation ← requireSome (lastPreparation preparations key) mismatch
  let tail ← requireSome (payouts.tail.get key) mismatch
  rejectIf (tail.economicOpId ≠ preparation.value.economicOpId ∨ tail.consumed) mismatch
  return (key, tail)

def validatePayoutPreparationConsumption (payouts : Payouts) (preparations : List Preparation) :
    Except String (List ((Rail × PublicKey) × PreparationTail)) :=
  (preparations.filterMap Preparation.tailKey).eraseDups.mapM (payouts.consumableTail preparations)

def writeConsumption (payouts : Payouts) (preparations : List Preparation)
    (tails : List ((Rail × PublicKey) × PreparationTail)) : Payouts :=
  { payouts with
    preparation := payouts.preparation.putAll (preparations.map fun preparation =>
      ((preparation.value.rail, preparation.value.economicOpId), { preparation with consumed := true }))
    effectLock := payouts.effectLock.putAll (preparations.flatMap fun preparation =>
      preparation.value.externalEffectIds.map fun effectId =>
        ((preparation.value.rail, effectId), ⟨preparation.value.economicOpId, true⟩))
    tail := payouts.tail.putAll (tails.map fun entry => (entry.1, { entry.2 with consumed := true })) }

def consumePayoutPreparations (payouts : Payouts) (preparations : List Preparation) : Except String Payouts := do
  let tails ← payouts.validatePayoutPreparationConsumption preparations
  return payouts.writeConsumption preparations tails

end Payouts

structure OutputReference where
  epoch : Nat
  epochApplyHash : Digest
  planRoot : Digest
  economicOpId : Digest
  outputIndex : Nat
  preparationId : Digest

def TnkOutputValue.reference (value : TnkOutputValue) : OutputReference :=
  ⟨value.epoch, value.epochApplyHash, value.planRoot, value.economicOpId, value.outputIndex, value.preparationId⟩

def FiatOutputValue.reference (value : FiatOutputValue) : OutputReference :=
  ⟨value.epoch, value.epochApplyHash, value.planRoot, value.economicOpId, value.outputIndex, value.preparationId⟩

def PreparationPayload.planned : PreparationPayload → Option (Digest × PlanOutput)
  | .fiat planRoot output _ => some (planRoot, output)
  | .tnk payload => some (payload.planRoot, payload.output)
  | _ => none

structure OutputPlan where
  output : PlanOutput
  preparation : Preparation
  tails : List ((Rail × PublicKey) × PreparationTail)
  updates : SettlementUpdates
  fee : Option FeeRecord

namespace Ledger

def targetedPayoutPlannedOutput (s : Ledger) (rail : Rail) (ref : OutputReference) :
    Except String PlanOutput := do
  let mismatch := "Targeted output settlement does not match its epoch plan."
  let plan ← requireSome (s.payouts.plan.get (rail, ref.epoch)) mismatch
  let output ← requireSome (plan.outputs[ref.outputIndex]?) mismatch
  rejectIf (plan.planRoot ≠ ref.planRoot ∨ plan.epochApplyHash ≠ ref.epochApplyHash ∨
    output.economicOpId ≠ ref.economicOpId) mismatch
  return output

def targetedPayoutPreparationForOutput (s : Ledger) (rail : Rail) (ref : OutputReference)
    (output : PlanOutput) : Except String Preparation := do
  let required := "Targeted output settlement requires its unconsumed preparation."
  let preparation ← requireSome (s.payouts.preparation.get (rail, ref.preparationId)) required
  let value := preparation.value
  rejectIf (preparation.consumed ∨ value.economicOpId ≠ ref.economicOpId ∨ value.epoch ≠ ref.epoch ∨
    value.epochApplyHash ≠ ref.epochApplyHash ∨ value.outputIndex ≠ ref.outputIndex ∨
    value.payload.planned ≠ some (ref.planRoot, output)) required
  return preparation

def sweepFee (s : Ledger) (rail : Rail) (epoch : Nat) (output : PlanOutput) (mismatch : String) :
    Except String FeeRecord := do
  let fee ← s.feeCumRecord rail
  let payableAu ← (safeSubAu fee.cumAu fee.sweptCumAu).mapError fun _ => mismatch
  rejectIf (payableAu ≠ output.liabilityAu ∨ output.paidAu ≠ output.liabilityAu) mismatch
  let next := { fee with
    sweptCumAu := fee.sweptCumAu + output.paidAu
    updatedEpoch := max fee.updatedEpoch epoch }
  guardianValidateFeeRecord next rail
  return next

def planOutput (s : Ledger) (rail : Rail) (epoch time : Nat) (output : PlanOutput)
    (preparation : Preparation) (mismatch : String) : Except String OutputPlan := do
  let tails ← s.payouts.validatePayoutPreparationConsumption [preparation]
  match output.settlement with
  | some settlement =>
    let updates ← s.targetedPayoutSettlementUpdates [settlement] rail epoch time
    return ⟨output, preparation, tails, updates, none⟩
  | none =>
    let fee ← s.sweepFee rail epoch output mismatch
    return ⟨output, preparation, tails, ⟨[], []⟩, some fee⟩

def writeOutput (s : Ledger) (rail : Rail) (epoch : Nat) (value : OutputValue) (seen : List RailSeen)
    (plan : OutputPlan) : Ledger :=
  let accounts := s.accounts.writeSettlement plan.updates
  let consumed := s.payouts.writeConsumption [plan.preparation] plan.tails
  { s with
    accounts := { accounts with
      fee := accounts.fee.putAll (plan.fee.toList.map fun fee => (rail, fee)) }
    payouts := { consumed with
      railSeen := consumed.railSeen.putAll (seen.map fun key => (key, ()))
      output := consumed.output.put (rail, epoch, plan.output.economicOpId) value } }

def tnkE18 : Nat := 1000000000000000000

def auToTnkE18Ceil (au rateTnkUsdAu : Nat) : Except String Nat := do
  rejectIf (au = 0) "Invalid TNK settlement amount."
  rejectIf (rateTnkUsdAu = 0) "Invalid TNK/USD atto-rate."
  return (au * tnkE18 + rateTnkUsdAu - 1) / rateTnkUsdAu

def guardianRequireHistoricalTnkRate (host : PayoutCrypto) (s : Ledger) (payload : TnkPayload)
    (time : Nat) : Except String Unit := do
  let label := "Guardian TNK settlement rate invariant failed: "
  let expected : RateValue := ⟨.tnkUsdAu, payload.rateTnkUsdAu, payload.rateSource, payload.rateTs⟩
  let key := host.rateFeatureKey expected
  let rate ← requireSome (s.payouts.rate.get key)
    (label ++ "exact admin-posted oracle history required.")
  rejectIf (rate.value ≠ expected ∨ rate.updatedAt ≠ key ∨ rate.postedByRole ≠ .admin)
    (label ++ "oracle history is invalid.")
  rejectIf (rate.value.ts > time) (label ++ "oracle timestamp is in the future.")
  rejectIf (time - rate.value.ts > s.registry.activeParamAt time .rateStalenessSeconds)
    (label ++ "oracle is stale.")

def normalizeMsbTransferEvidence (transfer : MsbTransfer) (label : String) : Except String Unit := do
  rejectIf (transfer.network ∉ ["mainnet", "testnet1"]) (label ++ " network is invalid.")
  rejectIf (¬ isSafeInteger transfer.confirmedLength ∨ transfer.confirmedLength < 1)
    (label ++ " confirmed length is invalid.")
  rejectIf (¬ isSafeInteger transfer.observedSignedLength ∨
    transfer.observedSignedLength < transfer.confirmedLength)
    (label ++ " observed signed length is invalid.")
  rejectIf (¬ isSafeKeyPart transfer.source ∨ ¬ isSafeKeyPart transfer.target)
    (label ++ " address is invalid.")
  rejectIf (transfer.amountE18 = 0) (label ++ " amount is invalid.")

def normalizeTargetedTnkOutputSettlementValue (value : TnkOutputValue) : Except String Unit := do
  normalizeMsbTransferEvidence value.msbTransfer "targeted TNK output transfer"
  rejectIf (value.contractVersion ≠ contractVersion ∨ ¬ isSafeInteger value.epoch ∨ value.epoch < 1 ∨
    ¬ isSafeInteger value.time ∨ ¬ isSafeInteger value.outputIndex ∨
    value.preparationId ≠ value.economicOpId ∨ value.externalEffectId ≠ value.msbTransfer.txHash)
    "Invalid targeted TNK output settlement."

def msbTransferSeenKey (transfer : MsbTransfer) : RailSeen := .msb transfer.network transfer.txHash

def validateTnkTransfer (host : PayoutCrypto) (s : Ledger) (value : TnkOutputValue) (output : PlanOutput)
    (preparation : Preparation) : Except String Unit := do
  let mismatch := "Targeted TNK output evidence does not match its signed preparation."
  let transfer := value.msbTransfer
  match preparation.value.payload, output.amount with
  | .tnk payload, .tnk au amountE18 =>
    rejectIf (preparation.value.externalEffectIds ≠ [value.externalEffectId] ∨
      payload.msbTxHash ≠ value.externalEffectId ∨ payload.msbPayload.tx ≠ value.externalEffectId ∨
      transfer.network ≠ payload.network ∨ transfer.source ≠ payload.treasuryFrom ∨
      transfer.target ≠ output.target ∨ transfer.amountE18 ≠ amountE18) mismatch
    s.guardianRequireHistoricalTnkRate host payload value.time
    let expectedE18 ← (auToTnkE18Ceil au payload.rateTnkUsdAu).mapError
      fun _ => "Targeted TNK output does not match its oracle rate."
    rejectIf (expectedE18 ≠ amountE18) "Targeted TNK output does not match its oracle rate."
  | _, _ => .error mismatch
  rejectIf ((s.payouts.railSeen.get (msbTransferSeenKey transfer)).isSome)
    "Targeted TNK transfer was already consumed."

def prepareTnkOutput (host : PayoutCrypto) (s : Ledger) (sender : PublicKey) (key : Digest)
    (value : TnkOutputValue) : Except String (Option OutputPlan) := do
  normalizeTargetedTnkOutputSettlementValue value
  rejectIf (key ≠ host.controlKey (.tnkOutput value)) "Invalid targeted TNK output feature key."
  requireTargetedPayoutAdminSignature host s.registry sender value.admin (.tnkOutput value)
    "Targeted TNK output settlement"
  match s.payouts.output.get (.tnk, value.epoch, value.economicOpId) with
  | some existing =>
    rejectIf (existing ≠ .tnk value) "Targeted TNK output is already settled."
    return none
  | none =>
    let output ← s.targetedPayoutPlannedOutput .tnk value.reference
    let preparation ← s.targetedPayoutPreparationForOutput .tnk value.reference output
    s.validateTnkTransfer host value output preparation
    let plan ← s.planOutput .tnk value.epoch value.time output preparation
      "Targeted TNK fee output does not match canonical fee state."
    return some plan

def applyTargetedTnkOutputFeature (host : PayoutCrypto) (s : Ledger) (sender : PublicKey) (key : Digest)
    (value : TnkOutputValue) : Outcome Bool :=
  match s.prepareTnkOutput host sender key value with
  | .error message => (s, .error message)
  | .ok none => (s, .ok true)
  | .ok (some plan) =>
    (s.writeOutput .tnk value.epoch (.tnk value) [msbTransferSeenKey value.msbTransfer] plan, .ok false)

def OutputValue.planRoot : OutputValue → Digest
  | .tnk value => value.planRoot
  | .fiat value => value.planRoot

def normalizeCloseTargetedPayoutEpochValue (value : CloseEpochValue) : Except String Unit :=
  rejectIf (value.contractVersion ≠ contractVersion ∨ value.rail = .tap ∨ ¬ isSafeInteger value.epoch ∨
    value.epoch < 1 ∨ ¬ isSafeInteger value.time) "Invalid targeted payout epoch close."

def validateEpochClose (s : Ledger) (value : CloseEpochValue) : Except String Unit := do
  let mismatch := "Targeted payout epoch close does not match its plan."
  let plan ← requireSome (s.payouts.plan.get (value.rail, value.epoch)) mismatch
  rejectIf (plan.planRoot ≠ value.planRoot ∨ plan.epochApplyHash ≠ value.epochApplyHash) mismatch
  rejectIf (∃ output ∈ plan.outputs,
    (s.payouts.output.get (value.rail, value.epoch, output.economicOpId)).map OutputValue.planRoot ≠
      some value.planRoot) "Targeted payout epoch has unsettled planned outputs."

def prepareEpochClose (host : PayoutCrypto) (s : Ledger) (sender : PublicKey) (key : Digest)
    (value : CloseEpochValue) : Except String Bool := do
  normalizeCloseTargetedPayoutEpochValue value
  rejectIf (key ≠ host.controlKey (.close value)) "Invalid targeted payout epoch close key."
  requireTargetedPayoutAdminSignature host s.registry sender value.admin (.close value)
    "Targeted payout epoch close"
  match s.payouts.closed.get (value.rail, value.epoch) with
  | some existing =>
    rejectIf (existing ≠ value) "Targeted payout epoch is already closed."
    return false
  | none =>
    s.validateEpochClose value
    return true

def applyCloseTargetedPayoutEpochFeature (host : PayoutCrypto) (s : Ledger) (sender : PublicKey)
    (key : Digest) (value : CloseEpochValue) : Outcome Bool :=
  match s.prepareEpochClose host sender key value with
  | .error message => (s, .error message)
  | .ok false => (s, .ok true)
  | .ok true => ({ s with payouts := { s.payouts with
      closed := s.payouts.closed.put (value.rail, value.epoch) value } }, .ok false)

end Ledger

end Mayhem
