import Mayhem.Payout.Settle

namespace Mayhem

def tapWei : Nat := 1000000000000000000

def minTapConfirmationDepth : Nat := 12

def isLowerAlnum (c : Char) : Bool := 'a' ≤ c && c ≤ 'z' || '0' ≤ c && c ≤ '9'

def isRateSource (s : String) : Bool :=
  match s.toList with
  | [] => false
  | c :: rest => isLowerAlnum c && decide (rest.length ≤ 63) &&
      rest.all fun c => isLowerAlnum c || c == '.' || c == '_' || c == '-'

def normalizeTargetedTapRateLock (lock : TapRateLock) : Except String Unit :=
  rejectIf (lock.tapUsdAu = 0 ∨ ¬ isSafeInteger lock.epoch ∨ lock.epoch < 1 ∨ ¬ isRateSource lock.source ∨
    ¬ isSafeInteger lock.rateTs ∨ ¬ isSafeInteger lock.payment.scope.chainId ∨
    lock.payment.scope.chainId < 1 ∨ ¬ isSafeInteger lock.payment.paymentConfigVer ∨
    lock.payment.paymentConfigVer < 1) "Invalid targeted TAP settlement rate lock."

def normalizeTargetedTapSettlementEntry (entry : TapEntry) : Except String Unit := do
  rejectIf (¬ isEthHexBytes entry.account 20) "Invalid targeted TAP settlement distribution account."
  rejectIf (entry.cumulativeWei = 0) "Invalid targeted TAP settlement cumulative claim."

def normalizeClaimEntries (entries : List TapEntry) (duplicate unordered : String) : Except String Unit := do
  let _ ← entries.mapM normalizeTargetedTapSettlementEntry
  rejectIf (¬ (entries.map TapEntry.account).Nodup) duplicate
  rejectIf (¬ (entries.map TapEntry.account).IsChain (· < ·)) unordered

def normalizeTargetedTapSettlementOutput (output : TapOutput) (tapUsdAu : Nat) : Except String Unit := do
  rejectIf (¬ isEthHexBytes output.target 20 ∨ output.paidAu = 0 ∨ output.tapWei = 0 ∨
    output.cumulativeClaimWei = 0) "Invalid targeted TAP provider output."
  let expectedTapWei := output.paidAu * tapWei / tapUsdAu
  rejectIf (expectedTapWei = 0 ∨ output.tapWei ≠ expectedTapWei)
    "Targeted TAP provider output does not match the locked rate."
  rejectIf (output.cumulativeClaimWei ≠ output.priorCumulativeClaimWei + output.tapWei)
    "Targeted TAP provider output cumulative claim chain is invalid."

def TapOutput.key (output : TapOutput) : PublicKey × Digest := (output.provider, output.payoutRevision)

def TapOutput.before (left right : TapOutput) : Bool :=
  left.provider < right.provider ∨ left.provider = right.provider ∧ left.payoutRevision < right.payoutRevision

def TapEntry.claim (entry : TapEntry) : String × Nat := (entry.account, entry.cumulativeWei)

def combinedClaims (providerEntries refunds : List TapEntry) : List TapEntry :=
  ((Tally.addAll [] ((providerEntries ++ refunds).map TapEntry.claim)).map
    fun claim => TapEntry.mk claim.1 claim.2).insertionSort fun a b => a.account ≤ b.account

def claimOf (entries : List TapEntry) (account : String) : Option Nat :=
  (entries.find? fun entry => entry.account = account).map TapEntry.cumulativeWei

def advanceTargetCursor (cursors : Table String Nat) (output : TapOutput) : Except String (Table String Nat) := do
  rejectIf (∃ prior ∈ cursors.get output.target, prior ≠ output.priorCumulativeClaimWei)
    "Targeted TAP outputs do not form a canonical per-target claim chain."
  return cursors.put output.target output.cumulativeClaimWei

def TapSettlementValue.confirmed (value : TapSettlementValue) : Bool :=
  value.rootConfirmed ∧ value.executionStatus = 1 ∧ value.proposalBlockNumber ≤ value.executionBlockNumber ∧
    value.executionBlockNumber ≤ value.finalizedBlockNumber ∧
    value.confirmationDepth = value.finalizedBlockNumber - value.executionBlockNumber ∧
    minTapConfirmationDepth ≤ value.confirmationDepth ∧
    (value.payment.scope.chainId = 1 → value.confirmationPolicy = .finalizedTag) ∧
    (value.confirmationPolicy = .finalizedTag ∨ value.confirmationPolicy = .depth value.confirmationDepth) ∧
    value.proposalTx ≠ value.executionTx

def normalizeTapTotals (value : TapSettlementValue) : Except String Unit := do
  rejectIf (value.cumulativeSpentWei = 0 ∨ value.providerCumulativeClaimedWei = 0 ∨
    value.providerPaidAu = 0 ∨ value.providerTapWei = 0) "Invalid targeted TAP settlement totals."
  normalizeClaimEntries value.entries "Duplicate targeted TAP settlement distribution account."
    "Targeted TAP settlement distribution entries must be canonical."
  normalizeClaimEntries value.providerEntries "Duplicate targeted TAP provider claim account."
    "Targeted TAP provider claim entries must be canonical."
  normalizeClaimEntries value.refunds "Duplicate targeted TAP buyer refund account."
    "Targeted TAP buyer refund entries must be canonical."
  rejectIf ((value.providerEntries.map TapEntry.cumulativeWei).sum ≠ value.providerCumulativeClaimedWei ∨
    (value.refunds.map TapEntry.cumulativeWei).sum ≠ value.buyerRefundWei)
    "Targeted TAP provider/refund totals do not match claim entries."
  rejectIf (combinedClaims value.providerEntries value.refunds ≠ value.entries)
    "Targeted TAP executed entries do not merge provider and refund claims."

def normalizeTapOutputs (host : PayoutCrypto) (value : TapSettlementValue) : Except String Unit := do
  let _ ← value.outputs.mapM fun output =>
    normalizeTargetedTapSettlementOutput output value.rateLock.tapUsdAu
  rejectIf (¬ (value.outputs.map TapOutput.key).Nodup)
    "Duplicate targeted TAP settlement payout liability."
  rejectIf (¬ value.outputs.IsChain fun left right => left.before right)
    "Targeted TAP settlement outputs must be canonical."
  rejectIf (value.providerCount ≠ value.outputs.length ∨
    (value.outputs.map TapOutput.paidAu).sum ≠ value.providerPaidAu ∨
    (value.outputs.map TapOutput.tapWei).sum ≠ value.providerTapWei)
    "Targeted TAP settlement totals do not match outputs."
  let cursors ← value.outputs.foldlM advanceTargetCursor .empty
  rejectIf (∃ output ∈ value.outputs, claimOf value.providerEntries output.target ≠ cursors.get output.target)
    "Targeted TAP output claim chain does not match the executed root entry."
  let mismatch := "Targeted TAP settlement root mismatch."
  let root ← (host.tapSettlementRoot value.entries).mapError fun _ => mismatch
  rejectIf (root ≠ value.root) mismatch

def normalizeTargetedTapSettlementValue (host : PayoutCrypto) (value : TapSettlementValue) :
    Except String Unit := do
  normalizeTargetedTapRateLock value.rateLock
  rejectIf (¬ isSafeInteger value.epoch ∨ value.epoch < 1 ∨ ¬ isSafeInteger value.time ∨
    ¬ isSafeInteger value.payment.scope.chainId ∨ value.payment.scope.chainId < 1 ∨
    ¬ isSafeInteger value.payment.paymentConfigVer ∨ value.payment.paymentConfigVer < 1 ∨
    value.preparationIds = [] ∨ value.externalEffectIds.length ≠ 2 ∨
    ¬ isSafeInteger value.proposalBlockNumber ∨ ¬ isSafeInteger value.executionBlockNumber ∨
    ¬ isSafeInteger value.finalizedBlockNumber ∨ ¬ value.confirmed ∨
    ¬ isSafeInteger value.providerCount ∨ value.providerCount < 1 ∨ ¬ isSafeInteger value.split.feeBps ∨
    value.split.tapBurnBps ≠ Ledger.tapBurnBps ∨ value.split.providerShareBps = 0 ∨
    value.split.feeBps + value.split.tapBurnBps + value.split.providerShareBps ≠ 10000 ∨
    value.entries = [] ∨ value.providerEntries = [] ∨ value.outputs = [])
    "Invalid targeted TAP settlement."
  rejectIf (¬ value.preparationIds.Nodup ∨ ¬ value.externalEffectIds.Nodup)
    "Invalid targeted TAP settlement preparation identities."
  rejectIf (value.rateLock.epoch ≠ value.epoch ∨ value.rateLock.payment ≠ value.payment)
    "Targeted TAP settlement rate lock scope mismatch."
  normalizeTapTotals value
  normalizeTapOutputs host value

structure ExpectedPreparation where
  economicOpId : Digest
  epoch : Nat
  epochApplyHash : Digest
  kind : PreparationKind
  outputIndex : Nat
  payload : PreparationPayload
  liability : Option PreparationLiability
  externalEffectIds : List Digest

def TapSettlementValue.expectedOutput (value : TapSettlementValue) (economicOpId : Digest)
    (output : TapOutput) (outputIndex : Nat) : ExpectedPreparation :=
  ⟨economicOpId, value.epoch, value.epochApplyHash, .liability, outputIndex,
    .tapOutput ⟨value.epoch, value.epochApplyHash, outputIndex, output, value.payment, value.split,
      value.rateLock⟩,
    some (output.preparationLiability value.payment.scope.chainId), []⟩

def TapSettlementValue.expectedRoot (host : PayoutCrypto) (value : TapSettlementValue) : ExpectedPreparation :=
  ⟨value.rootPreparationId, value.epoch, value.epochApplyHash, .tapRoot, 0,
    .tapRoot ⟨value.epoch, value.epochApplyHash, value.payment, value.rateLock, value.root,
      value.cumulativeSpentWei, value.providerCumulativeClaimedWei, value.buyerRefundWei,
      value.providerCount, value.providerPaidAu, value.providerTapWei, value.split,
      host.tapEntriesHash value.entries, host.tapProviderEntriesHash value.providerEntries,
      host.tapRefundsHash value.refunds, host.tapOutputsHash value.outputs⟩,
    none, value.externalEffectIds⟩

def validateTapEntitlement (split : TapSplit) (state : TapSettlementState)
    (spentWei claimedWei providerTapWei : Nat) : Except String Unit := do
  rejectIf (spentWei ≤ state.cumulativeSpentWei) "Targeted TAP cumulative gross spend must advance."
  let grossSpendDeltaWei := spentWei - state.cumulativeSpentWei
  rejectIf (providerTapWei ≠ grossSpendDeltaWei * split.providerShareBps / 10000 ∨
    claimedWei ≠ state.cumulativeProviderClaimedWei + providerTapWei)
    "Targeted TAP provider entitlement does not match the historical fee/burn split."

def advanceClaim (cursor : Nat) (output : TapOutput) : Except String Nat := do
  rejectIf (output.priorCumulativeClaimWei ≠ cursor ∨
    output.cumulativeClaimWei ≠ output.priorCumulativeClaimWei + output.tapWei)
    "Targeted TAP cumulative claim output chain does not advance from canonical state."
  return output.cumulativeClaimWei

namespace Payouts

def tapClaimUpdate (payouts : Payouts) (value : TapSettlementValue) (entry : TapEntry) :
    Except String ((TapScope × String) × TapCumulative) := do
  let key := (value.payment.scope, entry.account)
  let claim := (payouts.tapClaim.get key).getD ⟨value.payment.tokenAddress, 0⟩
  rejectIf (claim.tokenAddress ≠ value.payment.tokenAddress)
    "Invalid targeted TAP cumulative claim state."
  let targetOutputs := value.outputs.filter fun output => output.target = entry.account
  let cursor ← targetOutputs.foldlM advanceClaim claim.cumulativeWei
  rejectIf (entry.cumulativeWei ≠ cursor)
    "Targeted TAP cumulative claim chain does not match executed root."
  return (key, { claim with cumulativeWei := entry.cumulativeWei })

def tapRefundUpdate (payouts : Payouts) (value : TapSettlementValue) (entry : TapEntry) :
    Except String ((TapScope × String) × TapCumulative) := do
  let key := (value.payment.scope, entry.account)
  let refund := (payouts.tapRefund.get key).getD ⟨value.payment.tokenAddress, 0⟩
  rejectIf (refund.tokenAddress ≠ value.payment.tokenAddress ∨ entry.cumulativeWei < refund.cumulativeWei)
    "Invalid or decreasing targeted TAP cumulative refund state."
  return (key, { refund with cumulativeWei := entry.cumulativeWei })

def priorRefunds (payouts : Payouts) (state : TapSettlementState) : List TapEntry :=
  if state.lastEpoch = 0 then []
  else ((payouts.tapSettlement.get state.lastEpoch).map fun record => record.1.refunds).getD []

def tapStateFor (payouts : Payouts) (payment : TapPaymentScope) : TapSettlementState :=
  (payouts.tapState.get payment.scope).getD ⟨payment, 0, 0, 0, 0⟩

end Payouts

def tapSeenKeys (value : TapSettlementValue) : List RailSeen :=
  [.tapRoot value.payment.scope value.root, .tapProposal value.payment.scope value.proposalTx,
    .tapExecution value.payment.scope value.executionTx]

structure TapPlan where
  preparations : List Preparation
  updates : SettlementUpdates
  claims : List ((TapScope × String) × TapCumulative)
  refunds : List ((TapScope × String) × TapCumulative)
  state : TapSettlementState

namespace Ledger

def validatePayoutPreparationRecord (host : PayoutCrypto) (s : Ledger) (rail : Rail)
    (expected : ExpectedPreparation) : Except String Preparation := do
  let mismatch := "Targeted settlement does not match an unconsumed canonical preparation."
  let record ← requireSome (s.payouts.preparation.get (rail, expected.economicOpId)) mismatch
  let value := record.value
  rejectIf (value.economicOpId ≠ expected.economicOpId ∨ value.rail ≠ rail ∨
    value.epoch ≠ expected.epoch ∨ value.epochApplyHash ≠ expected.epochApplyHash ∨
    value.kind ≠ expected.kind ∨ value.outputIndex ≠ expected.outputIndex ∨ record.consumed ∨
    value.payload ≠ expected.payload ∨ value.liability ≠ expected.liability ∨
    value.externalEffectIds ≠ expected.externalEffectIds) mismatch
  rejectIf (value.payloadHash ≠ host.payloadHash expected.economicOpId rail expected.epoch
    expected.epochApplyHash expected.kind expected.outputIndex expected.payload)
    "Targeted settlement preparation payload hash mismatch."
  rejectIf (∃ liability ∈ expected.liability,
    s.payouts.liabilityLock.get (rail, liability.provider, liability.payoutRevision,
      liability.paidCumAuBefore) ≠ some expected.economicOpId)
    "Targeted settlement preparation liability lock mismatch."
  rejectIf (∃ effectId ∈ expected.externalEffectIds, (s.payouts.effectLock.get (rail, effectId)).all fun lock =>
      lock.economicOpId ≠ expected.economicOpId ∨ lock.consumed)
    "Targeted settlement preparation effect lock mismatch."
  return record

def tapOutputPreparation (host : PayoutCrypto) (s : Ledger) (value : TapSettlementValue)
    (entry : TapOutput × Nat) : Except String Preparation := do
  let economicOpId ← requireSome (value.preparationIds[entry.2]?)
    "Targeted settlement does not match an unconsumed canonical preparation."
  s.validatePayoutPreparationRecord host .tap (value.expectedOutput economicOpId entry.1 entry.2)

def payoutPreparationsForSettlement (host : PayoutCrypto) (s : Ledger) (value : TapSettlementValue) :
    Except String (List Preparation) := do
  let outputs ← value.outputs.zipIdx.mapM (s.tapOutputPreparation host value)
  let root ← s.validatePayoutPreparationRecord host .tap (value.expectedRoot host)
  return outputs ++ [root]

def guardianRequireHistoricalTapRateLock (host : PayoutCrypto) (s : Ledger) (lock : TapRateLock)
    (time : Nat) : Except String Unit := do
  let label := "Guardian TAP settlement rate invariant failed: "
  let expected : RateValue := ⟨.tapUsdAu, lock.tapUsdAu, lock.source, lock.rateTs⟩
  let key := host.rateFeatureKey expected
  rejectIf (key ≠ lock.rateRecordKey) (label ++ "rate record key mismatch.")
  let required := label ++ "exact admin-posted oracle history required."
  let rate ← requireSome (s.payouts.rate.get key) required
  let admin ← requireSome s.registry.admin required
  rejectIf (rate.value ≠ expected ∨ rate.updatedAt ≠ key ∨ rate.postedBy ≠ admin ∨
    rate.postedBy ≠ lock.postedBy ∨ rate.postedByRole ≠ .admin)
    (label ++ "oracle history is invalid.")
  rejectIf (rate.value.ts > time) (label ++ "oracle timestamp is in the future.")
  rejectIf (time - rate.value.ts > s.registry.activeParamAt time .rateStalenessSeconds)
    (label ++ "oracle is stale.")

def validateTapPayment (s : Ledger) (payment : TapPaymentScope) : Except String Unit := do
  let mismatch := "Targeted TAP settlement does not match canonical payment configuration."
  let payments ← requireSome s.registry.payments mismatch
  rejectIf (some payments.setBy ≠ s.registry.admin ∨ payments.setByRole ≠ .admin ∨
    payments.ver ≠ payment.paymentConfigVer ∨ payments.tap ≠ some payment.scope ∨
    payments.tapTokenAddress ≠ payment.tokenAddress) mismatch

def validateTapSchedule (host : PayoutCrypto) (s : Ledger) (value : TapSettlementValue) :
    Except String TapSplit := do
  let split ← targetedTapPayoutSplit (s.registry.activeParamAt value.time .feeBps)
  rejectIf (value.split ≠ split)
    "Targeted TAP settlement fee/burn split does not match the historical schedule."
  rejectIf (value.outputs.length > s.registry.activeParamAt value.time .maxTapSettlementOutputs)
    "Targeted TAP settlement output count exceeds limit."
  s.validateTapPayment value.payment
  s.guardianRequireHistoricalTapRateLock host value.rateLock value.time
  return split

def validateTapState (s : Ledger) (value : TapSettlementValue) (split : TapSplit) :
    Except String TapSettlementState := do
  rejectIf ((s.payouts.railSeen.get (.tapRoot value.payment.scope value.root)).isSome)
    "Targeted TAP settlement root was already consumed."
  rejectIf ((s.payouts.railSeen.get (.tapProposal value.payment.scope value.proposalTx)).isSome)
    "Targeted TAP settlement proposal transaction was already consumed."
  rejectIf ((s.payouts.railSeen.get (.tapExecution value.payment.scope value.executionTx)).isSome)
    "Targeted TAP settlement execution transaction was already consumed."
  let state := s.payouts.tapStateFor value.payment
  rejectIf (state.payment ≠ value.payment ∨ ¬ isSafeInteger state.lastEpoch)
    "Invalid targeted TAP settlement state."
  rejectIf (value.epoch ≤ state.lastEpoch) "Targeted TAP settlement epoch must advance."
  validateTapEntitlement split state value.cumulativeSpentWei value.providerCumulativeClaimedWei
    value.providerTapWei
  rejectIf (value.buyerRefundWei < state.cumulativeBuyerRefundWei)
    "Targeted TAP cumulative buyer refunds cannot decrease."
  return state

def planTapSettlement (crypto : Crypto) (host : PayoutCrypto) (s : Ledger) (value : TapSettlementValue)
    (split : TapSplit) : Except String TapPlan := do
  s.requireEpochApplyAnchor crypto value.epoch value.epochApplyHash "Targeted TAP settlement"
  let preparations ← s.payoutPreparationsForSettlement host value
  let state ← s.validateTapState value split
  let claims ← value.providerEntries.mapM (s.payouts.tapClaimUpdate value)
  rejectIf (∃ output ∈ value.outputs, output.target ∉ value.providerEntries.map TapEntry.account)
    "Targeted TAP provider output target is missing from executed root."
  rejectIf (∃ prior ∈ s.payouts.priorRefunds state,
    (claimOf value.refunds prior.account).all fun next => next < prior.cumulativeWei)
    "Targeted TAP refund claim cannot be removed or decreased."
  let refunds ← value.refunds.mapM (s.payouts.tapRefundUpdate value)
  let updates ← s.targetedPayoutSettlementUpdates (value.outputs.map TapOutput.settlement) .tap
    value.epoch value.time
  return ⟨preparations, updates, claims, refunds, { state with
    lastEpoch := value.epoch
    cumulativeSpentWei := value.cumulativeSpentWei
    cumulativeProviderClaimedWei := value.providerCumulativeClaimedWei
    cumulativeBuyerRefundWei := value.buyerRefundWei }⟩

def prepareTapSettlement (crypto : Crypto) (host : PayoutCrypto) (s : Ledger) (sender : PublicKey)
    (key : Digest) (value : TapSettlementValue) : Except String (Option TapPlan) := do
  normalizeTargetedTapSettlementValue host value
  rejectIf (key ≠ host.tapSettlementKey value) "Invalid targeted TAP settlement key."
  s.registry.requireAdmin sender
  let split ← s.validateTapSchedule host value
  match s.payouts.tapSettlement.get value.epoch with
  | some existing =>
    rejectIf (existing ≠ (value, sender)) "Targeted TAP settlement already exists for epoch."
    return none
  | none =>
    let plan ← s.planTapSettlement crypto host value split
    return some plan

theorem prepareTapSettlement_planned {crypto : Crypto} {host : PayoutCrypto} {s : Ledger} {sender : PublicKey}
    {key : Digest} {value : TapSettlementValue} {plan : TapPlan}
    (h : s.prepareTapSettlement crypto host sender key value = .ok (some plan)) :
    normalizeTargetedTapSettlementValue host value = .ok () ∧ s.payouts.tapSettlement.get value.epoch = none ∧
      ∃ split, s.planTapSettlement crypto host value split = .ok plan := by
  simp only [prepareTapSettlement, checks_iff] at h
  obtain ⟨hvalue, -, -, split, -, h⟩ := h
  split at h
  . simp at h
  case h_2 hunsettled =>
    simp only [checks_iff, Option.some.injEq] at h
    obtain ⟨_, hplan, rfl⟩ := h
    exact ⟨hvalue, hunsettled, split, hplan⟩

def writeTapPlan (s : Ledger) (value : TapSettlementValue) (plan : TapPlan) : Ledger :=
  { s with
    accounts := s.accounts.writeSettlement plan.updates
    payouts := { s.payouts with
      tapClaim := s.payouts.tapClaim.putAll plan.claims
      tapRefund := s.payouts.tapRefund.putAll plan.refunds
      railSeen := s.payouts.railSeen.putAll ((tapSeenKeys value).map fun key => (key, ()))
      tapState := s.payouts.tapState.put value.payment.scope plan.state } }

def targetedTapSettlement (s : Ledger) (sender : PublicKey) (value : TapSettlementValue)
    (plan : TapPlan) : Outcome Bool :=
  let written := s.writeTapPlan value plan
  match written.payouts.consumePayoutPreparations plan.preparations with
  | .error message => (written, .error message)
  | .ok consumed => ({ written with payouts := { consumed with
      tapSettlement := consumed.tapSettlement.put value.epoch (value, sender) } }, .ok false)

def applyTargetedTapSettlementFeature (crypto : Crypto) (host : PayoutCrypto) (s : Ledger)
    (sender : PublicKey) (key : Digest) (value : TapSettlementValue) : Outcome Bool :=
  match s.prepareTapSettlement crypto host sender key value with
  | .error message => (s, .error message)
  | .ok none => (s, .ok true)
  | .ok (some plan) => s.targetedTapSettlement sender value plan

end Ledger

end Mayhem
