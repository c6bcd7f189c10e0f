import Mayhem.Payout.Tap

/-!
This module contains the roller, the script that turns the receipts and liabilities of the TAP rail into a
root of cumulative claims on the pool.
-/

namespace Mayhem.Roller

def bps : Nat := 10000

def providerBps : Nat := 7500

def operatorBps : Nat := 1500

def settlementReceiptSchemaVersions : List Nat := [10, sessionReceiptSchemaVersion]

structure RollerHost extends PayoutCrypto where
  getAddress : String → Option String

variable (crypto : Crypto) (host : RollerHost)

def normalizeAddress (account label : String) : Except String String := do
  let address ← requireSome (host.getAddress account) (label ++ " must be an Ethereum address")
  return .ofList (address.toList.map Char.toLower)

def addReceiptUsage (usage : Counts) (entry : String × Nat) : Except String Counts := do
  rejectIf (¬ isSafeKeyPart entry.1) "receipt usage unit is invalid"
  rejectIf (¬ isSafeInteger entry.2) "receipt usage count must be a non-negative safe integer"
  if entry.2 = 0 then
    return usage
  let unit := canonicalUsageUnit entry.1
  let next := usage.get unit + entry.2
  rejectIf (¬ isSafeInteger next) "receipt usage count overflow"
  return usage.set unit next

def normalizeReceiptUsage (source : Counts) : Except String Counts := source.foldlM addReceiptUsage []

def assertUsageMonotonic (previous current : Counts) : Except String Unit :=
  previous.forM fun entry => rejectIf (current.get entry.1 < entry.2)
    ("receipt cumulative usage regressed for " ++ entry.1)

def verifyReceiptBaseline (body : ReceiptBody) : Except String Unit := do
  let billingPriorUsage ← normalizeReceiptUsage body.billingPriorUsage
  rejectIf (billingPriorUsage ≠ body.billingPriorUsage) "receipt billing_prior_usage must be canonical"
  let usage ← normalizeReceiptUsage body.usage
  rejectIf (usage ≠ body.usage) "receipt usage must be canonical"
  rejectIf (body.billingAttempt = 0 ∧ (billingPriorUsage.length > 0 ∨ body.billingPriorAuOwedCum ≠ 0))
    "initial receipt billing attempt must have an empty baseline"
  rejectIf (body.billingPriorAuOwedCum = 0 ∧ billingPriorUsage.length > 0)
    "receipt billing prior usage requires a prior cumulative amount"
  assertUsageMonotonic billingPriorUsage usage

def verifyReceiptEnvelope (envelope : ReceiptEnvelope) : Except String Unit := do
  let body := envelope.body
  rejectIf (body.schemaVersion ∉ settlementReceiptSchemaVersions)
    "receipt schema_version must be one of 10, 11"
  rejectIf (body.rail ≠ .tap) "TAP settlement receipt rail must be tap"
  rejectIf (body.modelId.length = 0 ∨ body.modelId.length > 256) "Invalid receipt model_id"
  rejectIf (body.promptHash.length = 0 ∨ body.promptHash.length > 256) "Invalid receipt prompt_hash"
  rejectIf (¬ isSafeInteger body.billingAttempt) "Invalid receipt billing attempt"
  verifyReceiptBaseline body
  rejectIf (¬ isSafeInteger body.seq) "Invalid receipt sequence"
  rejectIf (¬ isSafeInteger body.priceVer ∨ body.priceVer < 1) "Invalid receipt price version"
  rejectIf (¬ isSafeInteger body.rulesVer ∨ body.rulesVer < 1) "Invalid receipt rules version"
  rejectIf (¬ isSafeInteger body.servedCtx) "Invalid receipt served context"
  rejectIf (¬ isSafeInteger body.ts) "Invalid receipt timestamp"
  rejectIf (body.auOwedCum = 0) "receipt au_owed_cum must be positive"
  rejectIf (body.auOwedCum < body.billingPriorAuOwedCum)
    "receipt cumulative au regressed below its signed billing baseline"
  rejectIf (¬ crypto.verifyReceipt envelope.enclaveSig body envelope.enclavePubkey)
    "Invalid enclave receipt signature"
  rejectIf (¬ crypto.verifyReceipt envelope.userSig body body.user) "Invalid user receipt signature"

structure ReceiptEntry where
  envelope : ReceiptEnvelope
  epoch : Option Nat
  settleAu : Option Nat
  previousAuOwedCum : Option Nat
  providerRefs : Option (List PublicKey)
  contributionWeightsBps : Option (List Nat)
  tapAddress : Option String

structure BillingState where
  attempt : Nat
  attemptPriorUsage : Counts
  attemptPriorAu : Nat
  sessionId : Digest
  seq : Nat
  currentUsage : Counts
  currentAu : Nat

structure BillingBaseline where
  previousAu : Nat
  attemptPriorUsage : Counts
  attemptPriorAu : Nat

def billingBaseline (state : Option BillingState) (body : ReceiptBody) : Except String BillingBaseline :=
  match state with
  | none => do
    rejectIf (body.billingPriorAuOwedCum ≠ 0 ∨ body.billingPriorUsage.length > 0)
      "receipt logical billing baseline has no prior signed receipt in the batch"
    return ⟨body.billingPriorAuOwedCum, body.billingPriorUsage, body.billingPriorAuOwedCum⟩
  | some state => do
    let same := body.billingAttempt = state.attempt
    rejectIf (body.billingAttempt < state.attempt) "receipt billing attempt regressed"
    rejectIf (same ∧ body.sessionId ≠ state.sessionId)
      "receipt transport session changed within one billing attempt"
    rejectIf (same ∧ (body.billingPriorAuOwedCum ≠ state.attemptPriorAu ∨
      body.billingPriorUsage ≠ state.attemptPriorUsage)) "receipt billing attempt baseline changed"
    rejectIf (same ∧ body.seq ≤ state.seq) "receipt sequence did not advance"
    rejectIf (¬ same ∧ (body.billingPriorAuOwedCum ≠ state.currentAu ∨
      body.billingPriorUsage ≠ state.currentUsage))
      "receipt redispatch baseline does not match prior logical settlement"
    assertUsageMonotonic state.currentUsage body.usage
    return if same then ⟨state.currentAu, state.attemptPriorUsage, state.attemptPriorAu⟩
      else ⟨state.currentAu, body.billingPriorUsage, body.billingPriorAuOwedCum⟩

def receiptDeltaAu (states : Table Digest BillingState) (entry : ReceiptEntry) :
    Except String (Nat × Table Digest BillingState) := do
  let body := entry.envelope.body
  rejectIf entry.settleAu.isSome "TAP settlement amount must derive from signed receipt cumulative amount"
  let baseline ← billingBaseline (states.get body.billingId) body
  rejectIf (∃ declared ∈ entry.previousAuOwedCum, declared ≠ baseline.previousAu)
    "receipt previous_au_owed_cum contradicts the signed logical billing chain"
  rejectIf (body.auOwedCum < baseline.previousAu) "receipt cumulative au regressed"
  return (body.auOwedCum - baseline.previousAu, states.put body.billingId
    ⟨body.billingAttempt, baseline.attemptPriorUsage, baseline.attemptPriorAu, body.sessionId, body.seq,
      body.usage, body.auOwedCum⟩)

abbrev SessionKey := Nat × PublicKey × Digest

structure SessionBinding where
  provider : PublicKey
  payoutRevision : Digest
  au : Nat
  account : String
deriving DecidableEq

structure LiabilityEntry where
  provider : PublicKey
  payoutRevision : Digest
  rail : Rail
  target : String
  chainId : Nat
  totalAu : Nat
  heldAu : Nat
  paidCumAu : Nat
  aggregatePaidCumAu : Nat
  updatedEpoch : Nat

abbrev LiabilityIdentity := PublicKey × Digest × String

def LiabilityEntry.identity (liability : LiabilityEntry) : LiabilityIdentity :=
  (liability.provider, liability.payoutRevision, liability.target)

def LiabilityEntry.payableAu (liability : LiabilityEntry) : Nat :=
  liability.totalAu - liability.heldAu - liability.paidCumAu

inductive RefundAmount where
  | wei (n : Nat)
  | au (n : Nat)

structure BuyerRefund where
  account : Option String
  buyer : Option PublicKey
  amount : Option RefundAmount

structure Input where
  receipts : List ReceiptEntry
  bundleEpoch : Option Nat
  buyerRefunds : List BuyerRefund
  buyerAccounts : Table PublicKey String
  tapUsdAu : Nat
  ledgerFeeBps : Option Nat
  topLevelPayoutMinAu : Option Nat
  payoutMinAu : List Nat
  settleThroughEpoch : Option Nat
  challengeEpochs : Nat
  holdbackEpochs : Nat
  sessionBindings : Table SessionKey SessionBinding
  liabilities : List LiabilityEntry

structure ReleasePolicy where
  settleThroughEpoch : Option Nat
  challengeEpochs : Nat
  holdbackEpochs : Nat
  releaseDelayEpochs : Nat

namespace Input

def tapLedgerFeeBps (input : Input) : Except String Nat := do
  let feeBps ← requireSome input.ledgerFeeBps "TAP settlement requires admin ledger fee_bps"
  rejectIf (feeBps ≠ operatorBps) "TAP ledger fee_bps must equal on-chain OPERATOR_BPS 1500"
  return feeBps

def tapPayoutMinAu (input : Input) : Except String Nat := do
  rejectIf input.topLevelPayoutMinAu.isSome
    "top-level payout_min_au is not accepted; use params.payout_min_au from the frozen admin-ledger bundle"
  let minimum ← requireSome input.payoutMinAu.head?
    "TAP settlement requires frozen admin-ledger params.payout_min_au"
  rejectIf (∃ other ∈ input.payoutMinAu, other ≠ minimum)
    "TAP payout_min_au disagrees across frozen settlement evidence"
  return minimum

def releasePolicy (input : Input) : Except String ReleasePolicy := do
  rejectIf (input.challengeEpochs = 0) "TAP settlement challenge_epochs must be non-zero"
  return ⟨input.settleThroughEpoch, input.challengeEpochs, input.holdbackEpochs,
    max input.challengeEpochs input.holdbackEpochs⟩

def targetedBindingForReceipt (input : Input) (entry : ReceiptEntry) :
    Except String (SessionKey × SessionBinding) := do
  let body := entry.envelope.body
  let epoch ← requireSome (entry.epoch.or input.bundleEpoch) "Missing targeted TAP allocation epoch"
  rejectIf (¬ isSafeInteger epoch) "targeted TAP allocation epoch must be a non-negative safe integer"
  rejectIf (epoch = 0) "targeted TAP allocation epoch must be positive"
  let key := (epoch, body.user, body.sessionId)
  let binding ← requireSome (input.sessionBindings.get key)
    ("Missing targeted TAP payout allocation for session " ++ toString body.sessionId)
  rejectIf (binding.provider ≠ body.provider)
    "targeted TAP payout allocation does not match receipt provider"
  rejectIf (binding.au = 0) "targeted TAP allocation au must be positive"
  return (key, binding)

end Input

def receiptProvider (entry : ReceiptEntry) (binding : SessionBinding) : Except String LiabilityIdentity := do
  rejectIf (entry.providerRefs.isSome ∨ entry.contributionWeightsBps.isSome)
    "multi-provider TAP receipts require a signed contribution schema"
  rejectIf entry.tapAddress.isSome
    "provider TAP address must come from an immutable targeted payout binding"
  let account ← normalizeAddress host binding.account
    ("targeted provider account for " ++ toString binding.provider)
  return (binding.provider, binding.payoutRevision, account)

structure ReceiptProgress where
  billingStates : Table Digest BillingState
  allocatedAu : List (SessionKey × Nat)
  bindingsUsed : List (SessionKey × SessionBinding)
  receiptCount : Nat
  required : List LiabilityIdentity

abbrev ReceiptEntry.le (left right : ReceiptEntry) : Prop :=
  let a := left.envelope.body
  let b := right.envelope.body
  a.billingId < b.billingId ∨ a.billingId = b.billingId ∧
    (a.billingAttempt < b.billingAttempt ∨ a.billingAttempt = b.billingAttempt ∧ a.seq ≤ b.seq)

namespace Input

def addReceipt (input : Input) (progress : ReceiptProgress) (entry : ReceiptEntry) :
    Except String ReceiptProgress := do
  verifyReceiptEnvelope crypto entry.envelope
  let (deltaAu, billingStates) ← receiptDeltaAu progress.billingStates entry
  if deltaAu = 0 then
    return { progress with billingStates := billingStates }
  let (key, binding) ← input.targetedBindingForReceipt entry
  let allocatedAu := Tally.add key deltaAu progress.allocatedAu
  rejectIf (Tally.amount allocatedAu key > binding.au)
    "TAP receipt amount exceeds targeted session allocation"
  let liability ← receiptProvider host entry binding
  return {
    billingStates := billingStates
    allocatedAu := allocatedAu
    bindingsUsed := progress.bindingsUsed.insert (key, binding)
    receiptCount := progress.receiptCount + 1
    required := progress.required.insert liability }

def readReceipts (input : Input) : Except String ReceiptProgress := do
  let sorted := input.receipts.insertionSort ReceiptEntry.le
  let progress ← sorted.foldlM (input.addReceipt crypto host) ⟨.empty, [], [], 0, []⟩
  rejectIf (∃ used ∈ progress.bindingsUsed, Tally.amount progress.allocatedAu used.1 ≠ used.2.au)
    "TAP receipt amount does not equal targeted session allocation"
  return progress

end Input

def canonicalTapLiability (seen : List LiabilityEntry) (entry : LiabilityEntry) :
    Except String (List LiabilityEntry) := do
  rejectIf (entry.rail ≠ .tap) "canonical TAP payout liability identity is invalid"
  let target ← normalizeAddress host entry.target "canonical TAP payout liability target"
  let canonical := { entry with target := target }
  rejectIf (entry.heldAu > entry.totalAu ∨ entry.paidCumAu > entry.totalAu - entry.heldAu)
    "canonical TAP payout liability violates AU conservation"
  rejectIf (canonical.identity ∈ seen.map LiabilityEntry.identity)
    "canonical TAP payout liability identity is duplicated"
  rejectIf (¬ isSafeInteger entry.chainId)
    "canonical TAP liability chain_id must be a non-negative safe integer"
  rejectIf (entry.chainId = 0) "canonical TAP liability chain_id must be positive"
  rejectIf (¬ isSafeInteger entry.updatedEpoch)
    "canonical TAP liability updated_epoch must be a non-negative safe integer"
  return seen ++ [canonical]

def canonicalTapLiabilityMap (entries : List LiabilityEntry) : Except String (List LiabilityEntry) :=
  entries.foldlM (canonicalTapLiability host) []

abbrev LiabilityEntry.le (a b : LiabilityEntry) : Prop :=
  a.provider < b.provider ∨ a.provider = b.provider ∧
    (a.payoutRevision < b.payoutRevision ∨ a.payoutRevision = b.payoutRevision ∧ a.target ≤ b.target)

def requiredLiabilities (liabilities : List LiabilityEntry) (required : List LiabilityIdentity) :
    Except String (List LiabilityEntry) := do
  required.forM fun identity => rejectIf (identity ∉ liabilities.map LiabilityEntry.identity)
    ("confirmed canonical TAP liability is missing for " ++ toString identity.1 ++ "/" ++
      toString identity.2.1 ++ "/" ++ identity.2.2)
  return (liabilities.filter fun liability => liability.identity ∈ required).insertionSort
    LiabilityEntry.le

def auToTapWei (au tapUsdAu : Nat) : Nat := au * tapWei / tapUsdAu

structure CheckpointOutput where
  provider : PublicKey
  payoutRevision : Digest
  target : String
  liabilityTotalAu : Nat
  heldAu : Nat
  paidCumAuBefore : Nat
  aggregatePaidCumAuBefore : Nat
  netAuPaid : Nat
  tapWei : Nat
  previousCumulativeWei : Nat
  newCumulativeWei : Nat

inductive DeferReason where
  | belowPayoutMinimum
  | belowTapWeiPrecision

structure DeferredLiability where
  provider : PublicKey
  payoutRevision : Digest
  target : String
  payableAu : Nat
  reason : DeferReason

structure PayoutProgress where
  perProvider : List (String × Nat)
  aggregatePaid : Table PublicKey Nat
  heldReceiptCount : Nat
  heldAu : Nat
  thresholdHeldProviderCount : Nat
  thresholdHeldAu : Nat
  spentAu : Nat
  outputs : List CheckpointOutput
  deferred : List DeferredLiability

def PayoutProgress.hold (progress : PayoutProgress) (liability : LiabilityEntry) : PayoutProgress :=
  if liability.heldAu > 0 then
    { progress with
      heldReceiptCount := progress.heldReceiptCount + 1
      heldAu := progress.heldAu + liability.heldAu }
  else progress

def PayoutProgress.defer (progress : PayoutProgress) (liability : LiabilityEntry) (payoutMinAu : Nat) :
    PayoutProgress :=
  { progress with
    thresholdHeldProviderCount := progress.thresholdHeldProviderCount + 1
    thresholdHeldAu := progress.thresholdHeldAu + liability.payableAu
    deferred := progress.deferred ++ [⟨liability.provider, liability.payoutRevision, liability.target,
      liability.payableAu,
      if liability.payableAu < payoutMinAu then .belowPayoutMinimum else .belowTapWeiPrecision⟩] }

def LiabilityEntry.isPaid (liability : LiabilityEntry) (tapUsdAu payoutMinAu : Nat) : Bool :=
  liability.payableAu ≠ 0 ∧ payoutMinAu ≤ liability.payableAu ∧ auToTapWei liability.payableAu tapUsdAu ≠ 0

def PayoutProgress.pay (progress : PayoutProgress) (liability : LiabilityEntry) (tapUsdAu : Nat) :
    Except String PayoutProgress := do
  let providerWei := auToTapWei liability.payableAu tapUsdAu
  let previousCumulativeWei := Tally.amount progress.perProvider liability.target
  let aggregateBefore := (progress.aggregatePaid.get liability.provider).getD liability.aggregatePaidCumAu
  rejectIf (aggregateBefore < liability.aggregatePaidCumAu)
    "canonical TAP aggregate paid watermark regressed"
  return { progress with
    perProvider := Tally.add liability.target providerWei progress.perProvider
    aggregatePaid := progress.aggregatePaid.put liability.provider
      (aggregateBefore + liability.payableAu)
    spentAu := progress.spentAu + liability.payableAu
    outputs := progress.outputs ++ [{
      provider := liability.provider
      payoutRevision := liability.payoutRevision
      target := liability.target
      liabilityTotalAu := liability.totalAu
      heldAu := liability.heldAu
      paidCumAuBefore := liability.paidCumAu
      aggregatePaidCumAuBefore := aggregateBefore
      netAuPaid := liability.payableAu
      tapWei := providerWei
      previousCumulativeWei := previousCumulativeWei
      newCumulativeWei := previousCumulativeWei + providerWei }] }

def addLiability (tapUsdAu payoutMinAu : Nat) (progress : PayoutProgress) (liability : LiabilityEntry) :
    Except String PayoutProgress :=
  let held := progress.hold liability
  if liability.payableAu = 0 then .ok held
  else if liability.isPaid tapUsdAu payoutMinAu then held.pay liability tapUsdAu
  else .ok (held.defer liability payoutMinAu)

def addWei (claims : List (String × Nat)) (claim : String × Nat) : List (String × Nat) :=
  if claim.2 = 0 then claims else Tally.add claim.1 claim.2 claims

def sortedDistributionEntries (claims : List (String × Nat)) : List TapEntry :=
  ((claims.filter fun claim => claim.2 > 0).map fun claim => TapEntry.mk claim.1 claim.2).insertionSort
    fun a b => a.account ≤ b.account

def settlementDistribution (entries : List TapEntry) (label : String) : Except String (List (String × Nat)) :=
  entries.foldlM (fun claims entry => do
    let account ← normalizeAddress host entry.account (label ++ " account")
    return addWei claims (account, entry.cumulativeWei)) []

def totalWei (claims : List (String × Nat)) : Nat := (claims.map Prod.snd).sum

def TapEntry.totalWei (entries : List TapEntry) : Nat := (entries.map TapEntry.cumulativeWei).sum

namespace Input

def buyerRefundAccount (input : Input) (refund : BuyerRefund) : Except String String :=
  match refund.account with
  | some account => normalizeAddress host account "buyer refund account"
  | none => do
    let buyer ← requireSome refund.buyer "buyer refund requires account or buyer/user id"
    let account ← requireSome (input.buyerAccounts.get buyer)
      ("Missing TAP refund address for buyer " ++ toString buyer)
    normalizeAddress host account ("buyer refund account for " ++ toString buyer)

def buyerRefundWei (input : Input) (refund : BuyerRefund) : Except String Nat :=
  match refund.amount with
  | some (.wei n) => .ok n
  | some (.au n) => .ok (auToTapWei n input.tapUsdAu)
  | none => .error
      "buyer refund requires cumulative_wei/amount_wei/refund_wei or cumulative_au/amount_au/refund_au"

def applyBuyerRefunds (input : Input) (refunds : List (String × Nat)) : Except String (List (String × Nat)) :=
  input.buyerRefunds.foldlM (fun refunds refund => do
    let account ← input.buyerRefundAccount host refund
    let wei ← input.buyerRefundWei refund
    return addWei refunds (account, wei)) refunds

end Input

inductive IdleReason where
  | awaitingMaturity
  | belowPayoutMinimum
  | nothingClaimable

structure Report where
  root : Option Digest
  reason : Option IdleReason
  tapUsdAu : Nat
  ledgerFeeBps : Nat
  receiptCount : Nat
  heldReceiptCount : Nat
  thresholdHeldProviderCount : Nat
  spentAu : Nat
  heldAu : Nat
  thresholdHeldAu : Nat
  cumulativeSpentWei : Nat
  payoutMinAu : Nat
  deferred : List DeferredLiability
  outputs : List CheckpointOutput
  providerClaimedWei : Nat
  buyerRefundWei : Nat
  totalClaimedWei : Nat
  providerCapWei : Nat
  entries : List TapEntry
  providers : List TapEntry
  refunds : List TapEntry
  payoutBindings : List (SessionKey × SessionBinding)
  releasePolicy : ReleasePolicy

def Report.providerTapWei (report : Report) : Nat := (report.outputs.map CheckpointOutput.tapWei).sum

def validatePriorSettlementState (prior : Report) : Except String Unit :=
  match prior.root with
  | none => .ok ()
  | some root => do
    let entries ← sortedDistributionEntries <$> settlementDistribution host prior.entries "prior settlement"
    let mismatch := "prior TAP settlement entries do not match the confirmed root"
    rejectIf (entries = []) mismatch
    let distributed ← host.tapSettlementRoot entries
    rejectIf (distributed ≠ root) mismatch
    let providers ← sortedDistributionEntries <$> settlementDistribution host prior.providers "prior providers"
    let refunds ← sortedDistributionEntries <$> settlementDistribution host prior.refunds "prior refunds"
    rejectIf (combinedClaims providers refunds ≠ entries)
      "prior TAP provider/refund distributions do not match the confirmed root"
    rejectIf (TapEntry.totalWei providers ≠ prior.cumulativeSpentWei * providerBps / bps)
      "prior TAP provider distribution does not match its exact provider cap"

def nextCumulativeSpentWei (priorSpentWei priorClaimedWei claimedWei : Nat) : Except String Nat := do
  rejectIf (priorClaimedWei > claimedWei) "provider cumulative TAP claims regressed"
  let spentWei := if claimedWei > priorClaimedWei then ceilDivBigInt (claimedWei * bps) providerBps
    else priorSpentWei
  rejectIf (spentWei < priorSpentWei)
    "canonical TAP liability payout conflicts with prior cumulative spend"
  rejectIf (claimedWei ≠ spentWei * providerBps / bps)
    "provider distribution does not exactly match the TAP provider cap"
  return spentWei

def distributionRoot (entries : List TapEntry) : Except String (Option Digest) :=
  if entries = [] then .ok none else some <$> host.tapSettlementRoot entries

def idleReason (progress : PayoutProgress) : IdleReason :=
  if progress.heldReceiptCount > 0 then .awaitingMaturity
  else if progress.thresholdHeldProviderCount > 0 then .belowPayoutMinimum
  else .nothingClaimable

def priorSpentWei (prior : Option Report) : Nat := (prior.map Report.cumulativeSpentWei).getD 0

def priorProviders (prior : Option Report) : List TapEntry := (prior.map Report.providers).getD []

def priorRefunds (prior : Option Report) : List TapEntry := (prior.map Report.refunds).getD []

def buildTapSettlement (input : Input) (prior : Option Report) : Except String Report := do
  prior.forM (validatePriorSettlementState host)
  rejectIf (input.tapUsdAu = 0) "tap_usd_au must be positive"
  let feeBps ← input.tapLedgerFeeBps
  let payoutMinAu ← input.tapPayoutMinAu
  let policy ← input.releasePolicy
  let perProvider ← settlementDistribution host (priorProviders prior) "prior providers"
  let liabilities ← canonicalTapLiabilityMap host input.liabilities
  let priorRefund ← settlementDistribution host (priorRefunds prior) "prior refunds"
  let receipts ← input.readReceipts crypto host
  let required ← requiredLiabilities liabilities receipts.required
  let paid ← required.foldlM (addLiability input.tapUsdAu payoutMinAu)
    ⟨perProvider, .empty, 0, 0, 0, 0, 0, [], []⟩
  let refunded ← input.applyBuyerRefunds host priorRefund
  let providers := sortedDistributionEntries paid.perProvider
  let claimedWei := TapEntry.totalWei providers
  let spentWei ← nextCumulativeSpentWei (priorSpentWei prior) (totalWei perProvider) claimedWei
  let refunds := sortedDistributionEntries refunded
  let entries := combinedClaims providers refunds
  let root ← distributionRoot host entries
  return {
    root := root
    reason := if entries = [] then some (idleReason paid) else none
    tapUsdAu := input.tapUsdAu
    ledgerFeeBps := feeBps
    receiptCount := receipts.receiptCount
    heldReceiptCount := paid.heldReceiptCount
    thresholdHeldProviderCount := paid.thresholdHeldProviderCount
    spentAu := paid.spentAu
    heldAu := paid.heldAu + paid.thresholdHeldAu
    thresholdHeldAu := paid.thresholdHeldAu
    cumulativeSpentWei := spentWei
    payoutMinAu := payoutMinAu
    deferred := paid.deferred
    outputs := paid.outputs
    providerClaimedWei := claimedWei
    buyerRefundWei := TapEntry.totalWei refunds
    totalClaimedWei := TapEntry.totalWei entries
    providerCapWei := spentWei * providerBps / bps
    entries := entries
    providers := providers
    refunds := refunds
    payoutBindings := receipts.bindingsUsed
    releasePolicy := policy }

end Mayhem.Roller
