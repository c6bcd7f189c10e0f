import Mayhem.Records

namespace Mayhem

structure PayoutParty where
  provider : PublicKey
  payoutRevision : Digest
  paidCumAuBefore : Nat
  aggregatePaidCumAuBefore : Nat
deriving DecidableEq

structure FiatDestination where
  currency : String
  amountMinMinor : Nat
  amountMaxMinor : Nat
deriving DecidableEq

structure FiatTerms where
  liabilityAu : Nat
  paidAu : Nat
  roundingAu : Nat
  dustAu : Nat
  sourceCurrency : String
  sourceAmountMinor : Nat
  destination : Option FiatDestination
deriving DecidableEq

inductive PayoutAmount where
  | tnk (au tnkE18 : Nat)
  | fiat (terms : FiatTerms)
deriving DecidableEq

structure PlanOutput where
  economicOpId : Digest
  outputIndex : Nat
  target : String
  party : Option PayoutParty
  amount : PayoutAmount
deriving DecidableEq

inductive CarryReason where
  | held
  | belowPayoutMinimum
deriving DecidableEq

structure PayoutCarry where
  provider : PublicKey
  payoutRevision : Digest
  liabilityAu : Nat
  heldAu : Nat
  payableAu : Nat
  payoutMinAu : Nat
  reason : CarryReason
deriving DecidableEq

inductive PlanOutcome where
  | payouts
  | carry
  | noWork
deriving DecidableEq

structure PlanValue where
  contractVersion : Nat
  rail : Rail
  epoch : Nat
  time : Nat
  epochApplyHash : Digest
  snapshotSignedLength : Nat
  outcome : PlanOutcome
  outputs : List PlanOutput
  carry : List PayoutCarry
  outputsRoot : Digest
  carryRoot : Digest
  planRoot : Digest
  admin : PublicKey
  adminSig : Signature
deriving DecidableEq

structure PreparationLiability where
  provider : PublicKey
  payoutRevision : Digest
  target : String
  currency : Option String
  chainId : Option Nat
  paidCumAuBefore : Nat
  aggregatePaidCumAuBefore : Nat
  liabilityAu : Nat
  paidAu : Nat
deriving DecidableEq

inductive PreparationKind where
  | liability
  | fee
  | tapRoot
deriving DecidableEq

structure MsbPayload where
  kind : Nat
  address : String
  tx : Digest
  txv : Digest
  target : String
  amountE18 : Nat
  nonce : Digest
  signature : Signature
deriving DecidableEq

structure TnkPayload where
  planRoot : Digest
  output : PlanOutput
  network : String
  treasuryFrom : String
  rateTnkUsdAu : Nat
  rateSource : String
  rateTs : Nat
  msbTxHash : Digest
  msbPayload : MsbPayload
deriving DecidableEq

structure TapPaymentScope where
  scope : TapScope
  tokenAddress : Nat
  paymentConfigVer : Nat
deriving DecidableEq

structure TapSplit where
  feeBps : Nat
  tapBurnBps : Nat
  providerShareBps : Nat
deriving DecidableEq

structure TapRateLock where
  epoch : Nat
  bundleSha256 : Digest
  tapUsdAu : Nat
  source : String
  rateTs : Nat
  rateRecordKey : Digest
  postedBy : PublicKey
  payment : TapPaymentScope
deriving DecidableEq

structure TapOutput where
  provider : PublicKey
  payoutRevision : Digest
  target : String
  paidCumAuBefore : Nat
  aggregatePaidCumAuBefore : Nat
  paidAu : Nat
  tapWei : Nat
  priorCumulativeClaimWei : Nat
  cumulativeClaimWei : Nat
deriving DecidableEq

structure TapEntry where
  account : String
  cumulativeWei : Nat
deriving DecidableEq

structure TapOutputPayload where
  epoch : Nat
  epochApplyHash : Digest
  outputIndex : Nat
  output : TapOutput
  payment : TapPaymentScope
  split : TapSplit
  rateLock : TapRateLock
deriving DecidableEq

structure TapRootPayload where
  epoch : Nat
  epochApplyHash : Digest
  payment : TapPaymentScope
  rateLock : TapRateLock
  root : Digest
  cumulativeSpentWei : Nat
  providerCumulativeClaimedWei : Nat
  buyerRefundWei : Nat
  providerCount : Nat
  providerPaidAu : Nat
  providerTapWei : Nat
  split : TapSplit
  entriesHash : Digest
  providerEntriesHash : Digest
  refundsHash : Digest
  outputsHash : Digest
deriving DecidableEq

inductive PreparationPayload where
  | fiat (planRoot : Digest) (output : PlanOutput) (sourceCurrency : String)
  | tnk (payload : TnkPayload)
  | tapOutput (payload : TapOutputPayload)
  | tapRoot (payload : TapRootPayload)
deriving DecidableEq

structure PreparationValue where
  contractVersion : Nat
  economicOpId : Digest
  rail : Rail
  epoch : Nat
  epochApplyHash : Digest
  preparedAt : Nat
  kind : PreparationKind
  outputIndex : Nat
  payloadHash : Digest
  payload : PreparationPayload
  liability : Option PreparationLiability
  externalEffectIds : List Digest
  admin : PublicKey
  adminSig : Signature
deriving DecidableEq

structure Preparation where
  value : PreparationValue
  consumed : Bool
  preparedAtTx : Digest
deriving DecidableEq

structure PreparationTail where
  economicOpId : Digest
  paidCumAuBefore : Nat
  paidCumAuAfter : Nat
  consumed : Bool

structure EffectLock where
  economicOpId : Digest
  consumed : Bool

inductive TransferKind where
  | stripeTransfer
  | platformBalance
deriving DecidableEq

structure FxQuote where
  id : String
  hash : Digest
deriving DecidableEq

structure FiatAttemptRequest where
  kind : TransferKind
  destination : String
  sourceCurrency : String
  sourceAmountMinor : Nat
  terms : Option FiatDestination
  fxQuote : Option FxQuote
  transferGroup : Option String
  metadataHash : Digest
deriving DecidableEq

structure FiatAttemptValue where
  contractVersion : Nat
  epoch : Nat
  epochApplyHash : Digest
  planRoot : Digest
  economicOpId : Digest
  outputIndex : Nat
  attemptId : Digest
  attemptNo : Nat
  preparedAt : Nat
  quoteExpiresAt : Option Nat
  idempotencyKeyHash : Digest
  requestHash : Digest
  request : FiatAttemptRequest
  admin : PublicKey
  adminSig : Signature
deriving DecidableEq

structure TransferArrival where
  currency : String
  amountMinor : Nat
  destinationPayment : String
deriving DecidableEq

structure StripeTransfer where
  kind : TransferKind
  attemptId : Digest
  ref : String
  destination : String
  sourceCurrency : String
  sourceAmountMinor : Nat
  arrival : Option TransferArrival
  fxQuote : Option FxQuote
  transferGroup : Option String
deriving DecidableEq

inductive AttemptStatus where
  | prepared
  | succeeded
  | expiredPreEffect
deriving DecidableEq

inductive AttemptEvidence where
  | succeeded (transfer : StripeTransfer)
  | expiredPreEffect (fxQuote : FxQuote) (quoteExpiresAt : Nat)
deriving DecidableEq

structure AttemptResultValue where
  contractVersion : Nat
  epoch : Nat
  economicOpId : Digest
  attemptId : Digest
  time : Nat
  evidence : AttemptEvidence
  admin : PublicKey
  adminSig : Signature
deriving DecidableEq

structure FiatAttempt where
  preparation : FiatAttemptValue
  status : AttemptStatus
  result : Option AttemptResultValue
  consumed : Bool

structure AttemptTail where
  attemptNo : Nat
  status : AttemptStatus

structure AttemptEffect where
  economicOpId : Digest
  attemptId : Digest
  consumed : Bool

structure MsbTransfer where
  network : String
  txHash : Digest
  confirmedLength : Nat
  observedSignedLength : Nat
  source : String
  target : String
  amountE18 : Nat
deriving DecidableEq

structure TnkOutputValue where
  contractVersion : Nat
  epoch : Nat
  time : Nat
  epochApplyHash : Digest
  planRoot : Digest
  economicOpId : Digest
  outputIndex : Nat
  preparationId : Digest
  externalEffectId : Digest
  msbTransfer : MsbTransfer
  admin : PublicKey
  adminSig : Signature
deriving DecidableEq

structure FiatOutputValue where
  contractVersion : Nat
  epoch : Nat
  time : Nat
  epochApplyHash : Digest
  planRoot : Digest
  economicOpId : Digest
  outputIndex : Nat
  preparationId : Digest
  attemptId : Digest
  stripeTransfer : StripeTransfer
  admin : PublicKey
  adminSig : Signature
deriving DecidableEq

inductive OutputValue where
  | tnk (value : TnkOutputValue)
  | fiat (value : FiatOutputValue)
deriving DecidableEq

structure CloseEpochValue where
  contractVersion : Nat
  rail : Rail
  epoch : Nat
  time : Nat
  epochApplyHash : Digest
  planRoot : Digest
  admin : PublicKey
  adminSig : Signature
deriving DecidableEq

inductive ConfirmationPolicy where
  | finalizedTag
  | depth (blocks : Nat)
deriving DecidableEq

structure TapSettlementValue where
  epoch : Nat
  time : Nat
  payment : TapPaymentScope
  epochApplyHash : Digest
  preparationIds : List Digest
  rootPreparationId : Digest
  externalEffectIds : List Digest
  rateLock : TapRateLock
  root : Digest
  rootConfirmed : Bool
  proposalTx : Digest
  proposalBlockNumber : Nat
  executionTx : Digest
  executionStatus : Nat
  executionBlockNumber : Nat
  finalizedBlockNumber : Nat
  confirmationDepth : Nat
  confirmationPolicy : ConfirmationPolicy
  cumulativeSpentWei : Nat
  providerCumulativeClaimedWei : Nat
  buyerRefundWei : Nat
  split : TapSplit
  providerCount : Nat
  providerPaidAu : Nat
  providerTapWei : Nat
  providerEntries : List TapEntry
  refunds : List TapEntry
  entries : List TapEntry
  outputs : List TapOutput
deriving DecidableEq

structure TapSettlementState where
  payment : TapPaymentScope
  lastEpoch : Nat
  cumulativeSpentWei : Nat
  cumulativeProviderClaimedWei : Nat
  cumulativeBuyerRefundWei : Nat

structure TapCumulative where
  tokenAddress : Nat
  cumulativeWei : Nat

inductive RailSeen where
  | msb (network : String) (txHash : Digest)
  | stripe (ref : String)
  | stripePlatform (ref : String)
  | stripeFxQuote (id : String)
  | stripeDestinationPayment (id : String)
  | tapRoot (scope : TapScope) (root : Digest)
  | tapProposal (scope : TapScope) (tx : Digest)
  | tapExecution (scope : TapScope) (tx : Digest)
deriving DecidableEq

inductive RateDenom where
  | tnkUsdAu
  | tapUsdAu
deriving DecidableEq

structure RateValue where
  denom : RateDenom
  usdAu : Nat
  source : String
  ts : Nat
deriving DecidableEq

structure RateRecord where
  value : RateValue
  updatedAt : Digest
  postedBy : PublicKey
  postedByRole : Role

structure Payouts where
  plan : Table (Rail × Nat) PlanValue
  preparation : Table (Rail × Digest) Preparation
  liabilityLock : Table (Rail × PublicKey × Digest × Nat) Digest
  tail : Table (Rail × PublicKey) PreparationTail
  effectLock : Table (Rail × Digest) EffectLock
  attempt : Table (Digest × Digest) FiatAttempt
  attemptTail : Table Digest AttemptTail
  attemptEffect : Table String AttemptEffect
  attemptIdempotency : Table Digest Digest
  attemptQuote : Table String Digest
  output : Table (Rail × Nat × Digest) OutputValue
  closed : Table (Rail × Nat) CloseEpochValue
  tapSettlement : Table Nat (TapSettlementValue × PublicKey)
  tapState : Table TapScope TapSettlementState
  tapClaim : Table (TapScope × String) TapCumulative
  tapRefund : Table (TapScope × String) TapCumulative
  railSeen : Table RailSeen Unit
  rate : Table Digest RateRecord
  fiatDust : Table (PublicKey × Nat) Nat

def Payouts.empty : Payouts where
  plan := .empty
  preparation := .empty
  liabilityLock := .empty
  tail := .empty
  effectLock := .empty
  attempt := .empty
  attemptTail := .empty
  attemptEffect := .empty
  attemptIdempotency := .empty
  attemptQuote := .empty
  output := .empty
  closed := .empty
  tapSettlement := .empty
  tapState := .empty
  tapClaim := .empty
  tapRefund := .empty
  railSeen := .empty
  rate := .empty
  fiatDust := .empty

end Mayhem
