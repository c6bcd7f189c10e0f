import Mayhem.Payout.Plan

namespace Mayhem

def payoutPreparationLiabilityForOutput (output : PlanOutput) : Option PreparationLiability :=
  output.party.map fun party =>
    ⟨party.provider, party.payoutRevision, output.target, output.destinationCurrency, none,
      party.paidCumAuBefore, party.aggregatePaidCumAuBefore, output.liabilityAu, output.paidAu⟩

def TapOutput.preparationLiability (output : TapOutput) (chainId : Nat) : PreparationLiability :=
  ⟨output.provider, output.payoutRevision, output.target, none, some chainId, output.paidCumAuBefore,
    output.aggregatePaidCumAuBefore, output.paidAu, output.paidAu⟩

def normalizePreparationLiability (liability : PreparationLiability) : Except String Unit := do
  rejectIf (¬ isSafeKeyPart liability.target ∨ (∃ currency ∈ liability.currency, ¬ isFiatCurrency currency) ∨
    ∃ chainId ∈ liability.chainId, ¬ isSafeInteger chainId ∨ chainId < 1)
    "Invalid targeted payout preparation liability identity."
  rejectIf (liability.liabilityAu = 0 ∨ liability.paidAu = 0 ∨ liability.liabilityAu < liability.paidAu)
    "Invalid targeted payout preparation liability amount."

def kindMatches (kind : PreparationKind) (output : PlanOutput) (liability : Option PreparationLiability) : Bool :=
  match kind with
  | .liability => output.party.isSome && liability == payoutPreparationLiabilityForOutput output
  | .fee => output.party.isNone && liability.isNone
  | .tapRoot => false

def normalizeTargetedFiatPreparationPayload (value : PreparationValue) (output : PlanOutput)
    (sourceCurrency : String) : Except String Unit := do
  rejectIf (¬ isFiatCurrency sourceCurrency) "Invalid targeted fiat preparation payload."
  normalizeTargetedPayoutPlanOutput .fiat output value.outputIndex
  rejectIf (output.sourceCurrency ≠ some sourceCurrency)
    "Targeted fiat preparation source currency mismatch."
  rejectIf (¬ kindMatches value.kind output value.liability)
    (if value.kind = .liability then "Targeted fiat preparation output does not match liability."
      else "Targeted fiat preparation output does not match kind.")

def rateSources : List String := ["gate-spot", "mexc-spot"]

def normalizeMsbSignedPayoutPayload (payload : MsbPayload) (output : PlanOutput) (treasuryFrom : String) :
    Except String Unit :=
  rejectIf (¬ isSafeInteger payload.kind ∨ payload.address ≠ treasuryFrom ∨
    payload.target ≠ output.target ∨ output.amount ≠ .tnk output.paidAu payload.amountE18)
    "Invalid targeted TNK signed MSB payload."

def normalizeTargetedTnkPreparationPayload (value : PreparationValue) (payload : TnkPayload) :
    Except String Unit := do
  rejectIf (¬ isSafeKeyPart payload.network ∨ ¬ isSafeKeyPart payload.treasuryFrom ∨
    ¬ isSafeInteger payload.rateTs ∨ payload.rateSource ∉ rateSources ∨ payload.rateTnkUsdAu = 0)
    "Invalid targeted TNK preparation payload."
  normalizeTargetedPayoutPlanOutput .tnk payload.output value.outputIndex
  normalizeMsbSignedPayoutPayload payload.msbPayload payload.output payload.treasuryFrom
  rejectIf (payload.msbTxHash ≠ payload.msbPayload.tx ∨ value.externalEffectIds ≠ [payload.msbTxHash])
    "Targeted TNK preparation effect must equal its signed MSB tx hash."
  rejectIf (¬ kindMatches value.kind payload.output value.liability)
    "Targeted TNK preparation output does not match its kind."

def normalizePreparationPayload (value : PreparationValue) : Except String Unit :=
  match value.rail, value.payload with
  | .fiat, .fiat _ output sourceCurrency => normalizeTargetedFiatPreparationPayload value output sourceCurrency
  | .fiat, _ => .error "targeted fiat preparation payload is missing processor."
  | .tnk, .tnk payload => normalizeTargetedTnkPreparationPayload value payload
  | .tnk, _ => .error "targeted TNK preparation payload is missing msb_payload."
  | .tap, _ => .ok ()

def preparationEffects (kind : PreparationKind) (rail : Rail) : Option Nat :=
  match kind, rail with
  | .tapRoot, .tap => some 2
  | .tapRoot, _ => none
  | .fee, .tap => none
  | .fee, .tnk => some 1
  | .fee, .fiat => some 0
  | .liability, .tnk => some 1
  | .liability, _ => some 0

def normalizeTargetedPayoutPreparationValue (host : PayoutCrypto) (value : PreparationValue) :
    Except String Unit := do
  rejectIf (value.contractVersion ≠ contractVersion ∨ ¬ isSafeInteger value.epoch ∨ value.epoch < 1 ∨
    ¬ isSafeInteger value.preparedAt ∨ ¬ isSafeInteger value.outputIndex ∨
    value.externalEffectIds.length > 2) "Invalid targeted payout preparation."
  rejectIf (host.payloadBytes value.payload > 16384)
    "Targeted payout preparation payload exceeds 16384 bytes."
  rejectIf (¬ value.externalEffectIds.Nodup)
    "Invalid targeted payout preparation external effect ids."
  rejectIf (preparationEffects value.kind value.rail ≠ some value.externalEffectIds.length)
    "Targeted payout preparation kind does not match rail effects."
  match value.kind, value.liability with
  | .liability, some liability => normalizePreparationLiability liability
  | .liability, none => .error "targeted payout preparation liability value must be an object."
  | _, some _ => .error "Non-liability payout preparation cannot bind a liability."
  | _, none => .ok ()
  normalizePreparationPayload value
  rejectIf (value.payloadHash ≠ host.payloadHash value.economicOpId value.rail value.epoch
    value.epochApplyHash value.kind value.outputIndex value.payload)
    "Targeted payout preparation payload hash mismatch."

def tapOperatorBps : Nat := 1500

def targetedTapPayoutSplit (feeBps : Nat) : Except String TapSplit := do
  rejectIf (¬ isSafeInteger feeBps ∨ feeBps ≠ tapOperatorBps)
    "Targeted TAP fee schedule does not match the fixed on-chain operator split."
  return ⟨feeBps, Ledger.tapBurnBps, 10000 - feeBps - Ledger.tapBurnBps⟩

def PreparationPayload.tapSplit : PreparationPayload → Option TapSplit
  | .tapOutput payload => some payload.split
  | .tapRoot payload => some payload.split
  | _ => none

structure LiabilityLock where
  tailKey : Rail × PublicKey
  lockKey : Rail × PublicKey × Digest × Nat
  tail : PreparationTail

namespace Ledger

def expectedAggregateBefore (tail : Option PreparationTail) (paidCumAu : Nat) : Except String Nat :=
  match tail with
  | none => .ok paidCumAu
  | some tail =>
    if tail.consumed then do
      rejectIf (tail.paidCumAuAfter ≠ paidCumAu)
        "Consumed payout preparation tail does not match aggregate earnings."
      return paidCumAu
    else .ok tail.paidCumAuAfter

def validatePayoutPreparationLiability (s : Ledger) (value : PreparationValue)
    (liability : PreparationLiability) : Except String LiabilityLock := do
  let unbound := "Targeted payout preparation requires its immutable payout binding."
  let binding ← s.registry.payoutBindingFor value.rail liability.provider liability.payoutRevision
    value.epoch unbound
  rejectIf (binding.target ≠ liability.target ∨ binding.currency ≠ liability.currency ∨
    binding.chainId ≠ liability.chainId) unbound
  let mismatch := "Targeted payout preparation liability watermark mismatch."
  let current ← requireSome
    (s.accounts.liability.get (liability.provider, value.rail, liability.payoutRevision)) mismatch
  rejectIf (current.target ≠ liability.target ∨ current.currency ≠ liability.currency ∨
    current.chainId ≠ liability.chainId ∨ current.earned.paidCumAu ≠ liability.paidCumAuBefore) mismatch
  let releasedAu ← safeSubAu current.earned.totalAu current.earned.heldAu
  let payableAu ← safeSubAu releasedAu current.earned.paidCumAu
  rejectIf (liability.liabilityAu > payableAu) "Targeted payout preparation exceeds revision liability."
  let earning ← s.earningRecord liability.provider value.rail
  let tailKey := (value.rail, liability.provider)
  let aggregateBefore ← expectedAggregateBefore (s.payouts.tail.get tailKey) earning.earned.paidCumAu
  rejectIf (liability.aggregatePaidCumAuBefore ≠ aggregateBefore)
    "Targeted payout preparation aggregate watermark mismatch."
  return {
    tailKey := tailKey
    lockKey := (value.rail, liability.provider, liability.payoutRevision, liability.paidCumAuBefore)
    tail := ⟨value.economicOpId, liability.aggregatePaidCumAuBefore,
      liability.aggregatePaidCumAuBefore + liability.paidAu, false⟩ }

def validatePreparedPlan (s : Ledger) (value : PreparationValue) (planRoot : Digest)
    (output : PlanOutput) : Except String Unit := do
  let mismatch := "Targeted payout preparation does not match its canonical epoch plan."
  let plan ← requireSome (s.payouts.plan.get (value.rail, value.epoch)) mismatch
  rejectIf (plan.planRoot ≠ planRoot ∨ plan.epochApplyHash ≠ value.epochApplyHash ∨
    plan.outputs[value.outputIndex]? ≠ some output ∨ output.economicOpId ≠ value.economicOpId) mismatch

def canonicalTnkPaymentConfig (s : Ledger) : Except String TnkPaymentConfig := do
  let required := "Canonical TNK payment config required."
  let payments ← requireSome s.registry.payments required
  rejectIf (payments.setByRole ≠ .admin) required
  let tnk ← requireSome payments.tnk required
  rejectIf (tnk.network ∉ ["mainnet", "testnet1"]) "Canonical TNK payment network is invalid."
  rejectIf (¬ isSafeKeyPart tnk.treasuryAddress) "Canonical TNK treasury address is invalid."
  return tnk

def validatePreparedPayload (s : Ledger) (value : PreparationValue) : Except String Unit :=
  match value.payload with
  | .fiat planRoot output _ => s.validatePreparedPlan value planRoot output
  | .tnk payload => do
    s.validatePreparedPlan value payload.planRoot payload.output
    let payment ← s.canonicalTnkPaymentConfig
    rejectIf (payload.network ≠ payment.network ∨ payload.treasuryFrom ≠ payment.treasuryAddress)
      "Targeted TNK preparation source does not match payment config."
  | .tapOutput _ | .tapRoot _ => do
    let split ← targetedTapPayoutSplit (s.registry.activeParamAt value.preparedAt .feeBps)
    rejectIf (value.payload.tapSplit ≠ some split)
      "Targeted TAP preparation does not match the fixed on-chain split."

def preparationLock (s : Ledger) (value : PreparationValue) : Except String (Option LiabilityLock) :=
  match value.liability with
  | none => .ok none
  | some liability => do
    let lock ← s.validatePayoutPreparationLiability value liability
    rejectIf ((s.payouts.liabilityLock.get lock.lockKey).isSome)
      "Targeted payout liability watermark already has a preparation."
    return some lock

def preparePreparation (crypto : Crypto) (host : PayoutCrypto) (s : Ledger) (sender : PublicKey)
    (tx key : Digest) (value : PreparationValue) : Except String (Option (Option LiabilityLock)) := do
  normalizeTargetedPayoutPreparationValue host value
  rejectIf (key ≠ host.preparationKey value) "Invalid targeted payout preparation key."
  rejectIf (s.registry.admin ≠ some value.admin ∨ sender ≠ value.admin)
    "Targeted payout preparation requires canonical admin authority."
  rejectIf (host.verifyPreparation value.admin value = false)
    "Invalid targeted payout preparation admin signature."
  s.requireEpochApplyAnchor crypto value.epoch value.epochApplyHash "Targeted payout preparation"
  s.validatePreparedPayload value
  match s.payouts.preparation.get (value.rail, value.economicOpId) with
  | some existing =>
    rejectIf (existing ≠ ⟨value, false, tx⟩)
      "Targeted payout preparation economic operation already exists."
    return none
  | none =>
    let lock ← s.preparationLock value
    rejectIf (∃ effectId ∈ value.externalEffectIds, (s.payouts.effectLock.get (value.rail, effectId)).isSome)
      "Targeted payout external effect id already has a preparation."
    return some lock

def writePreparation (s : Ledger) (tx : Digest) (value : PreparationValue) (lock : Option LiabilityLock) :
    Ledger :=
  { s with payouts := { s.payouts with
    liabilityLock := s.payouts.liabilityLock.putAll
      (lock.toList.map fun lock => (lock.lockKey, value.economicOpId))
    tail := s.payouts.tail.putAll (lock.toList.map fun lock => (lock.tailKey, lock.tail))
    effectLock := s.payouts.effectLock.putAll
      (value.externalEffectIds.map fun effectId => ((value.rail, effectId), ⟨value.economicOpId, false⟩))
    preparation := s.payouts.preparation.put (value.rail, value.economicOpId) ⟨value, false, tx⟩ } }

def applyTargetedPayoutPreparationFeature (crypto : Crypto) (host : PayoutCrypto) (s : Ledger)
    (sender : PublicKey) (tx key : Digest) (value : PreparationValue) : Outcome Bool :=
  match s.preparePreparation crypto host sender tx key value with
  | .error message => (s, .error message)
  | .ok none => (s, .ok true)
  | .ok (some lock) => (s.writePreparation tx value lock, .ok false)

end Ledger

end Mayhem
