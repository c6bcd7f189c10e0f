import Mayhem.Settlement.Feature

namespace Mayhem

inductive PayoutControl where
  | plan (value : PlanValue)
  | fiatAttempt (value : FiatAttemptValue)
  | fiatAttemptResult (value : AttemptResultValue)
  | tnkOutput (value : TnkOutputValue)
  | fiatOutput (value : FiatOutputValue)
  | close (value : CloseEpochValue)

structure PayoutCrypto where
  controlKey : PayoutControl → Digest
  verifyControl : PublicKey → PayoutControl → Bool
  outputsRoot : Rail → Nat → List PlanOutput → Digest
  carryRoot : Rail → Nat → List PayoutCarry → Digest
  planRoot : Rail → Nat → Nat → Digest → Nat → PlanOutcome → Digest → Digest → Digest
  preparationKey : PreparationValue → Digest
  verifyPreparation : PublicKey → PreparationValue → Bool
  payloadHash : Digest → Rail → Nat → Digest → PreparationKind → Nat → PreparationPayload → Digest
  payloadBytes : PreparationPayload → Nat
  attemptId : Digest → Nat → FiatAttemptRequest → Digest
  attemptIdempotencyKeyHash : Digest → Digest
  attemptRequestHash : Digest → Digest → Nat → FiatAttemptRequest → Digest
  transferGroup : Nat → Digest → String
  tapSettlementKey : TapSettlementValue → Digest
  tapSettlementRoot : List TapEntry → Except String Digest
  tapEntriesHash : List TapEntry → Digest
  tapProviderEntriesHash : List TapEntry → Digest
  tapRefundsHash : List TapEntry → Digest
  tapOutputsHash : List TapOutput → Digest
  rateFeatureKey : RateValue → Digest

def requireTargetedPayoutAdminSignature (crypto : PayoutCrypto) (reg : Registry)
    (sender admin : PublicKey) (control : PayoutControl) (label : String) : Except String Unit := do
  rejectIf (reg.admin ≠ some admin ∨ sender ≠ admin) (label ++ " requires canonical admin authority.")
  rejectIf (crypto.verifyControl admin control = false)
    ("Invalid " ++ label.toLower ++ " admin signature.")

namespace Ledger

def epochApplyAnchor (crypto : Crypto) (s : Ledger) (epoch : Nat) : Except String (Option ApplyAnchor) := do
  rejectIf (¬ isSafeInteger epoch ∨ epoch < 1) "Invalid epoch apply anchor epoch."
  match s.epochs.applyAnchor.get epoch with
  | some historical =>
    rejectIf (¬ isSafeInteger historical.settlementUnix ∨ historical.appliedAt.isNone)
      "Epoch apply anchor is invalid."
    return some historical
  | none =>
    let current := s.applyState
    match current.lastApplyHash with
    | none => return none
    | some applyHash =>
      if current.updatedEpoch = epoch ∧ current.pendingEpoch.isNone then
        let settlementUnix ← priorEpochSettlementUnix crypto s.epochs current
        return some ⟨applyHash, settlementUnix, current.updatedAt⟩
      else return none

def requireEpochApplyAnchor (crypto : Crypto) (s : Ledger) (epoch : Nat) (applyHash : Digest)
    (label : String) : Except String Unit := do
  let anchor ← s.epochApplyAnchor crypto epoch
  rejectIf (anchor.map ApplyAnchor.applyHash ≠ some applyHash) (label ++ " apply hash mismatch.")

end Ledger

namespace PlanOutput

variable (output : PlanOutput)

def paidAu : Nat :=
  match output.amount with
  | .tnk au _ => au
  | .fiat terms => terms.paidAu

def liabilityAu : Nat :=
  match output.amount with
  | .tnk au _ => au
  | .fiat terms => terms.liabilityAu

def destinationCurrency : Option String :=
  match output.amount with
  | .tnk _ _ => none
  | .fiat terms => terms.destination.map FiatDestination.currency

def sourceCurrency : Option String :=
  match output.amount with
  | .tnk _ _ => none
  | .fiat terms => some terms.sourceCurrency

def liabilityKey : Option (PublicKey × Digest) :=
  output.party.map fun party => (party.provider, party.payoutRevision)

def before (left right : PlanOutput) : Bool :=
  match left.party, right.party with
  | some l, some r =>
    l.provider < r.provider ∨ l.provider = r.provider ∧ l.payoutRevision < r.payoutRevision
  | some _, none => true
  | none, some _ => false
  | none, none => left.economicOpId < right.economicOpId

end PlanOutput

def isFiatCurrency (s : String) : Bool := s.length == 3 && s.toList.all fun c => 'a' ≤ c && c ≤ 'z'

def normalizeTargetedTnkSettlementOutput (target : String) (au tnkE18 : Nat) : Except String Unit := do
  rejectIf (¬ isSafeKeyPart target) "Invalid TNK settlement output address."
  rejectIf (au = 0) "Invalid TNK settlement output amount."
  rejectIf (tnkE18 = 0) "tnk_e18 must be positive."

def normalizeTargetedFiatOperatorOutput (target : String) (terms : FiatTerms) : Except String Unit := do
  rejectIf (terms.destination.isSome)
    "targeted fiat preparation operator output does not accept fields: destination_currency."
  rejectIf (¬ isSafeKeyPart target) "Invalid fiat settlement output target."
  rejectIf (¬ isFiatCurrency terms.sourceCurrency) "Invalid fiat settlement source currency."
  rejectIf (terms.sourceAmountMinor = 0) "Fiat settlement source amount must be positive."
  rejectIf (terms.liabilityAu = 0) "Invalid fiat settlement output liability_au."
  rejectIf (terms.paidAu = 0) "Invalid fiat settlement output paid_au."
  rejectIf (terms.paidAu + terms.dustAu ≠ terms.liabilityAu ∨ terms.roundingAu ≠ terms.dustAu)
    "Fiat settlement output liability, paid amount, rounding, and dust do not balance."
  rejectIf (terms.paidAu ≠ terms.liabilityAu ∨ terms.roundingAu ≠ 0 ∨ terms.dustAu ≠ 0)
    "Targeted fiat operator fee must retain its exact AU liability with zero dust."

def normalizeTargetedFiatProviderOutput (target : String) (terms : FiatTerms) : Except String Unit := do
  let destination ← requireSome terms.destination
    "targeted fiat preparation provider output is missing destination_currency."
  rejectIf (¬ isSafeKeyPart target) "Invalid targeted fiat preparation provider identity."
  rejectIf (terms.liabilityAu = 0) "Invalid targeted fiat preparation liability_au."
  rejectIf (terms.paidAu = 0) "Invalid targeted fiat preparation paid_au."
  rejectIf (¬ isFiatCurrency terms.sourceCurrency ∨ ¬ isFiatCurrency destination.currency ∨
    terms.sourceAmountMinor = 0 ∨ destination.amountMinMinor = 0 ∨ destination.amountMaxMinor = 0 ∨
    destination.amountMaxMinor < destination.amountMinMinor ∨
    terms.paidAu + terms.dustAu ≠ terms.liabilityAu ∨ terms.roundingAu ≠ terms.dustAu)
    "Invalid targeted fiat preparation economic terms."

def normalizeTargetedPayoutPlanOutput (rail : Rail) (output : PlanOutput) (expectedIndex : Nat) :
    Except String Unit := do
  rejectIf (output.outputIndex ≠ expectedIndex) "Invalid targeted payout epoch output identity."
  match rail, output.amount with
  | .tnk, .tnk au tnkE18 => normalizeTargetedTnkSettlementOutput output.target au tnkE18
  | .tnk, .fiat _ => .error "targeted TNK epoch output is missing au."
  | .fiat, .fiat terms =>
    match output.party with
    | some _ => normalizeTargetedFiatProviderOutput output.target terms
    | none => normalizeTargetedFiatOperatorOutput output.target terms
  | .fiat, .tnk _ _ => .error "targeted fiat preparation provider output is missing liability_au."
  | .tap, _ => .error "Targeted payout epoch plans support only fiat and TNK."

def PayoutCarry.key (carry : PayoutCarry) : PublicKey × Digest := (carry.provider, carry.payoutRevision)

def carryLe (a b : PayoutCarry) : Prop := liabilityEntryLe a.key b.key

instance : DecidableRel carryLe := fun _ _ => inferInstanceAs (Decidable (liabilityEntryLe _ _))

def normalizeTargetedPayoutCarry (carry : PayoutCarry) : Except String Unit := do
  rejectIf (carry.liabilityAu = 0) "Invalid targeted payout epoch carry amount."
  rejectIf (carry.heldAu + carry.payableAu ≠ carry.liabilityAu ∨
    (carry.reason = .held ∧ (carry.heldAu = 0 ∨ carry.payableAu ≠ 0)) ∨
    (carry.reason = .belowPayoutMinimum ∧ (carry.payableAu = 0 ∨ carry.payoutMinAu ≤ carry.payableAu)))
    "Targeted payout epoch carry classification is invalid."

def PlanValue.expectedOutcome (value : PlanValue) : PlanOutcome :=
  if value.outputs ≠ [] then .payouts else if value.carry ≠ [] then .carry else .noWork

def normalizeTargetedPayoutEpochValue (crypto : PayoutCrypto) (value : PlanValue) : Except String Unit := do
  rejectIf (value.contractVersion ≠ contractVersion ∨ value.rail = .tap ∨
    ¬ isSafeInteger value.epoch ∨ value.epoch < 1 ∨ ¬ isSafeInteger value.time ∨
    ¬ isSafeInteger value.snapshotSignedLength ∨ value.snapshotSignedLength < 1)
    "Invalid targeted payout epoch plan."
  let _ ← value.outputs.zipIdx.mapM fun entry =>
    normalizeTargetedPayoutPlanOutput value.rail entry.1 entry.2
  rejectIf (¬ (value.outputs.map PlanOutput.economicOpId).Nodup)
    "Targeted payout epoch output identities must be unique."
  rejectIf ((value.outputs.filter fun output => output.party.isNone).length > 1)
    "Targeted payout epoch may contain only one operator output."
  rejectIf (¬ value.outputs.IsChain fun left right => left.before right)
    "Targeted payout epoch outputs are not canonically ordered."
  let _ ← value.carry.mapM normalizeTargetedPayoutCarry
  rejectIf (value.carry.insertionSort carryLe ≠ value.carry ∨ ¬ (value.carry.map PayoutCarry.key).Nodup)
    "Targeted payout epoch carries must be canonical and unique."
  rejectIf (∃ carry ∈ value.carry, some carry.key ∈ value.outputs.map PlanOutput.liabilityKey)
    "Targeted payout liability cannot be both payable and carried."
  rejectIf (value.outcome ≠ value.expectedOutcome)
    "Targeted payout epoch outcome does not match its work."
  let outputsRoot := crypto.outputsRoot value.rail value.epoch value.outputs
  let carryRoot := crypto.carryRoot value.rail value.epoch value.carry
  rejectIf (value.outputsRoot ≠ outputsRoot ∨ value.carryRoot ≠ carryRoot ∨
    value.planRoot ≠ crypto.planRoot value.rail value.epoch value.time value.epochApplyHash
      value.snapshotSignedLength value.outcome outputsRoot carryRoot)
    "Targeted payout epoch root mismatch."

def payoutParam (param : ParamKey → Nat) : ParamKey → Nat
  | .probationSuccessfulSessions => 0
  | .newProviderHoldbackEpochs => param .holdbackEpochs
  | key => param key

def Registry.payoutBindingFor (reg : Registry) (rail : Rail) (provider : PublicKey) (revision : Digest)
    (epoch : Nat) (message : String) : Except String PayoutBinding := do
  let binding ← requireSome (reg.payoutBindings.get (rail, provider, revision)) message
  rejectIf (¬ binding.verified ∨ binding.provider ≠ provider ∨ binding.rail ≠ rail ∨
    binding.revision ≠ revision ∨ binding.activationEpoch > epoch) message
  return binding

structure PlanProgress where
  classified : List (PublicKey × Digest)
  cursors : Table PublicKey Nat

def PlanValue.outputOf (value : PlanValue) (entry : PublicKey × Digest) : Option PlanOutput :=
  value.outputs.find? fun output => output.liabilityKey = some entry

def PlanValue.carryOf (value : PlanValue) (entry : PublicKey × Digest) : Option PayoutCarry :=
  value.carry.find? fun carry => carry.key = entry

def PayoutAmount.covers (amount : PayoutAmount) (payableAu : Nat) (binding : PayoutBinding) : Bool :=
  match amount with
  | .tnk au _ => au = payableAu
  | .fiat terms =>
    terms.liabilityAu = payableAu ∧ terms.destination.map FiatDestination.currency = binding.currency

namespace Ledger

def refreshForPayout (s : Ledger) (epoch : Nat) (param : ParamKey → Nat) (provider : PublicKey)
    (record : ProviderRecord) (earned : Earned) : Except String Earned := do
  let probeGate ← probeGateForEarning s.oversight provider earned param
  let locked ← providerLockedEarningEpochs record (payoutParam param)
  let disputeGate ← providerHasOpenDispute s.oversight provider
  refreshEarningHoldback earned epoch locked probeGate disputeGate

def planCursor (s : Ledger) (value : PlanValue) (param : ParamKey → Nat) (provider : PublicKey)
    (record : ProviderRecord) (cursor : Option Nat) : Except String Nat :=
  match cursor with
  | some paidCumAu => .ok paidCumAu
  | none => do
    let earning ← s.earningRecord provider value.rail
    guardianValidateEarningRecord earning value.rail
    let refreshed ← s.refreshForPayout value.epoch param provider record earning.earned
    return refreshed.paidCumAu

def planPayable (s : Ledger) (value : PlanValue) (param : ParamKey → Nat) (progress : PlanProgress)
    (entry : PublicKey × Digest) (record : ProviderRecord) (binding : PayoutBinding)
    (refreshed : Earned) (payableAu : Nat) : Except String PlanProgress := do
  let inexact := "Targeted payout plan must include every payable canonical liability exactly."
  let output ← requireSome (value.outputOf entry) inexact
  let party ← requireSome output.party inexact
  rejectIf ((value.carryOf entry).isSome ∨ output.target ≠ binding.target ∨
    party.paidCumAuBefore ≠ refreshed.paidCumAu ∨ ¬ output.amount.covers payableAu binding) inexact
  let paidCumAu ← s.planCursor value param entry.1 record (progress.cursors.get entry.1)
  rejectIf (party.aggregatePaidCumAuBefore ≠ paidCumAu)
    "Targeted payout aggregate paid watermark mismatch."
  return ⟨entry :: progress.classified, progress.cursors.put entry.1 (paidCumAu + output.paidAu)⟩

def planCarried (value : PlanValue) (param : ParamKey → Nat) (progress : PlanProgress)
    (entry : PublicKey × Digest) (refreshed : Earned) (outstandingAu payableAu : Nat) :
    Except String PlanProgress := do
  let expected : PayoutCarry := ⟨entry.1, entry.2, outstandingAu, refreshed.heldAu, payableAu, param .payoutMinAu,
      if payableAu = 0 then .held else .belowPayoutMinimum⟩
  rejectIf ((value.outputOf entry).isSome ∨ value.carryOf entry ≠ some expected)
    "Targeted payout plan must explicitly carry every held or below-minimum liability."
  return { progress with classified := entry :: progress.classified }

def planLiability (s : Ledger) (value : PlanValue) (param : ParamKey → Nat) (progress : PlanProgress)
    (entry : PublicKey × Digest) : Except String PlanProgress := do
  let absent := "Targeted payout liability index does not match canonical state."
  let liability ← requireSome (s.accounts.liability.get (entry.1, value.rail, entry.2)) absent
  rejectIf (liability.earned.updatedEpoch > value.epoch) absent
  guardianValidatePayoutLiabilityRecord liability value.rail
  let unpayable := "Targeted payout indexed provider status is not payable."
  let record ← requireSome (s.registry.providers.get entry.1) unpayable
  rejectIf (record.status ≠ .active ∧ record.status ≠ .banned) unpayable
  let mismatch := "Targeted payout indexed liability binding mismatch."
  let binding ← s.registry.payoutBindingFor value.rail entry.1 entry.2 value.epoch mismatch
  rejectIf (binding.target ≠ liability.target ∨ binding.currency ≠ liability.currency ∨
    binding.chainId ≠ liability.chainId) mismatch
  let refreshed ← s.refreshForPayout value.epoch param entry.1 record liability.earned
  let invalid := "Targeted payout canonical liability is invalid."
  let outstandingAu ← (safeSubAu refreshed.totalAu refreshed.paidCumAu).mapError fun _ => invalid
  let payableAu ← (safeSubAu outstandingAu refreshed.heldAu).mapError fun _ => invalid
  if outstandingAu = 0 then
    rejectIf ((value.outputOf entry).isSome ∨ (value.carryOf entry).isSome)
      "Settled targeted payout liability must be omitted."
    return progress
  else if payableAu = 0 ∨ payableAu < param .payoutMinAu then
    planCarried value param progress entry refreshed outstandingAu payableAu
  else s.planPayable value param progress entry record binding refreshed payableAu

def planOperatorFee (s : Ledger) (value : PlanValue) : Except String Unit := do
  let operatorOutputs := value.outputs.filter fun output => output.party.isNone
  let fee ← s.feeCumRecord value.rail
  guardianValidateFeeRecord fee value.rail
  let payableAu ← safeSubAu fee.cumAu fee.sweptCumAu
  if payableAu = 0 then
    rejectIf (operatorOutputs ≠ []) "Targeted payout plan includes a nonexistent operator fee."
  else
    rejectIf (operatorOutputs.map PlanOutput.liabilityAu ≠ [payableAu])
      "Targeted payout plan must include the complete canonical operator fee."

def validateTargetedPayoutEpochCompleteness (s : Ledger) (value : PlanValue) (param : ParamKey → Nat) :
    Except String Unit := do
  let index ← providerPayoutLiabilityIndex s.accounts value.rail
  let progress ← index.entries.foldlM (s.planLiability value param) ⟨[], .empty⟩
  rejectIf (progress.classified.length ≠
    value.carry.length + (value.outputs.filter fun output => output.party.isSome).length)
    "Targeted payout plan contains a liability absent from the canonical index."
  s.planOperatorFee value

def maxPlanOutputs (rail : Rail) : ParamKey :=
  if rail = .tnk then .maxTnkSettlementOutputs else .maxFiatSettlementOutputs

def validatePayoutEpochPlan (s : Ledger) (value : PlanValue) : Except String Unit := do
  let state := s.applyState
  rejectIf (state.updatedEpoch ≠ value.epoch ∨ state.lastApplyHash ≠ some value.epochApplyHash ∨
    state.pendingEpoch.isSome)
    "Targeted payout epoch plan must freeze the latest completed canonical apply."
  let param := s.registry.activeParamAt value.time
  rejectIf (value.outputs.length > param (maxPlanOutputs value.rail))
    "Targeted payout epoch output count exceeds limit."
  s.validateTargetedPayoutEpochCompleteness value param

def preparePayoutEpoch (crypto : Crypto) (host : PayoutCrypto) (s : Ledger) (sender : PublicKey)
    (key : Digest) (value : PlanValue) : Except String Bool := do
  normalizeTargetedPayoutEpochValue host value
  rejectIf (key ≠ host.controlKey (.plan value)) "Invalid targeted payout epoch feature key."
  requireTargetedPayoutAdminSignature host s.registry sender value.admin (.plan value)
    "Targeted payout epoch plan"
  s.requireEpochApplyAnchor crypto value.epoch value.epochApplyHash "Targeted payout epoch plan"
  match s.payouts.plan.get (value.rail, value.epoch) with
  | some existing =>
    rejectIf (existing ≠ value) "Targeted payout epoch plan already exists."
    return false
  | none =>
    s.validatePayoutEpochPlan value
    return true

def writePlan (s : Ledger) (value : PlanValue) : Ledger :=
  { s with payouts := { s.payouts with
    plan := s.payouts.plan.put (value.rail, value.epoch) value } }

def applyTargetedPayoutEpochFeature (crypto : Crypto) (host : PayoutCrypto) (s : Ledger)
    (sender : PublicKey) (key : Digest) (value : PlanValue) : Outcome Bool :=
  match s.preparePayoutEpoch crypto host sender key value with
  | .error message => (s, .error message)
  | .ok true => (s.writePlan value, .ok false)
  | .ok false => (s, .ok true)

end Ledger

end Mayhem
