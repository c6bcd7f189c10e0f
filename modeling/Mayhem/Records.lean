import Mayhem.Receipt

namespace Mayhem

structure SpendSession where
  sessionId : Digest
  billingId : Digest
  billingAttempt : Nat
  billingPriorUsage : Counts
  billingPriorAuOwedCum : Nat
  billingEpoch : Nat
  reservationId : Digest
  reservationExpiresAfterEpoch : Nat
  reservationReceiptGraceEpochs : Nat
  user : PublicKey
  rail : Rail
  provider : PublicKey
  payoutRevision : Digest
  enclaveId : Digest
  enclavePubkey : PublicKey
  modelId : String
  priceVer : Nat
  lockedRateMap : List RateEntry
  lockedPerReqAu : Nat
  lockedMinSessionAu : Nat
  servedCtx : Nat
  requiredModalities : List Modality
  requiredSpecialities : List (String × String)
  workflow : Option Workflow
  ctxBracket : Option String
  ctxBracketTableVer : Option Nat
  rulesVer : Nat
  maxSpendAu : Nat
  voucherHash : Digest
  settlementReady : Bool

structure SpendHold where
  reservedAu : Nat
  sessions : List SpendSession

structure SpendSummary where
  reservedAu : Nat
  balanceAuAtLastReserve : Option Nat

structure ReservationIndex where
  sessionId : Digest
  billingId : Digest
  billingAttempt : Nat
  reservationId : Digest

structure Holds where
  hold : Table (PublicKey × Rail) SpendHold
  summary : Table (PublicKey × Rail) SpendSummary
  legacyRelease : Table (PublicKey × Rail) Nat
  session : Table (PublicKey × Rail × Digest) SpendSession
  legacySession : Table (PublicKey × Rail × Digest) SpendSession
  sessionIndex : Table (PublicKey × Rail × Digest) ReservationIndex
  billingAttempt : Table (PublicKey × Rail × Digest × Nat) ReservationIndex

structure BillingAnchor where
  user : PublicKey
  rail : Rail
  epoch : Nat
  latestAttempt : Nat

inductive ReservationStatus where
  | active
  | closed
deriving DecidableEq

structure ReservationIdentity where
  billingId : Digest
  billingAttempt : Nat
  billingEpoch : Nat
  reservationExpiresAfterEpoch : Nat
  reservationReceiptGraceEpochs : Nat
  sessionId : Digest
  user : PublicKey
  provider : PublicKey
  rail : Rail
  payoutRevision : Digest
deriving DecidableEq

structure ReservationRecord where
  identity : ReservationIdentity
  status : ReservationStatus

structure ReservationClose where
  latestReceiptSeq : Option Nat
  latestReceiptHash : Option Digest
  retainedAu : Nat
  releasedAu : Nat
  reason : String
  closedBy : PublicKey
  time : Nat
  settlementEpoch : Option Nat
  featureKey : Option Digest

structure ReceiptHead where
  epoch : Option Nat
  billingEpoch : Nat
  settlementEpoch : Option Nat
  indexPosition : Option Nat
  settlementReady : Bool
  user : PublicKey
  rail : Rail
  provider : PublicKey
  payoutRevision : Digest
  sessionId : Digest
  reservationId : Digest
  receiptSeq : Nat
  receiptHash : Digest
  incrementalAu : Nat
  receipt : ReceiptEnvelope

abbrev BillingAttempt := Digest × Nat

instance : LawfulBEq BillingAttempt := inferInstanceAs (LawfulBEq (Digest × Nat))

def receiptEpochIndexPageSize : Nat := 128

structure ReceiptEpochIndex where
  count : Nat
  pageCount : Nat
  revision : Nat
  updatedAt : Option Digest
deriving DecidableEq

structure Allocation where
  sessionId : Digest
  billingId : Digest
  billingAttempt : Nat
  billingEpoch : Nat
  receiptSeq : Nat
  receiptHash : Digest
  user : PublicKey
  rail : Rail
  provider : PublicKey
  payoutRevision : Digest
  au : Nat
deriving DecidableEq

def Allocation.attempt (allocation : Allocation) : BillingAttempt :=
  (allocation.billingId, allocation.billingAttempt)

structure ReceiptConsumption where
  epoch : Nat
  allocation : Allocation
  featureKey : Digest
deriving DecidableEq

structure IngressCursor where
  nextEpoch : Nat
  activatedEpoch : Nat

structure Receipts where
  billing : Table Digest BillingAnchor
  reservation : Table Digest ReservationRecord
  reservationClose : Table Digest ReservationClose
  head : Table BillingAttempt ReceiptHead
  consumed : Table BillingAttempt ReceiptConsumption
  epochIndex : Table Nat ReceiptEpochIndex
  epochPage : Table (Nat × Nat) (List BillingAttempt)
  ingress : Option IngressCursor

structure BalanceRecord where
  au : Nat
  updatedEpoch : Nat
  scope : Option TapScope

structure Holdback where
  epoch : Nat
  au : Nat
  lockedEpochs : Option Nat
  probeGate : Bool
deriving DecidableEq

structure Earned where
  totalAu : Nat
  heldAu : Nat
  paidCumAu : Nat
  holdbacks : Option (List Holdback)
  updatedEpoch : Nat

structure EarningRecord where
  earned : Earned
  slashedCumAu : Nat
  scope : Option TapScope
  fiatDustSweptCumAu : Nat

structure FeeRecord where
  cumAu : Nat
  sweptCumAu : Nat
  settledCumAu : Option Nat
  updatedEpoch : Nat
  scope : Option TapScope

structure BurnRecord where
  cumAu : Nat
  updatedEpoch : Nat
  burnBps : Nat
  scope : Option TapScope

structure PayoutLiability where
  earned : Earned
  target : String
  currency : Option String
  chainId : Option Nat

structure LiabilityIndex where
  entries : List (PublicKey × Digest)
  updatedEpoch : Nat
  updatedAt : Option Digest
deriving DecidableEq

structure PayoutSnapshot where
  revision : Digest
  target : String
  currency : Option String
  chainId : Option Nat
  earnedAu : Nat
  featureKey : Digest
deriving DecidableEq

structure PayoutAllocation where
  page : Nat
  allocation : Allocation
  featureKey : Digest
deriving DecidableEq

structure EpochRoots where
  dep : Digest
  use : Digest
  earn : Digest
  fee : Digest
  price : Digest
deriving DecidableEq

structure EpochTotals where
  depCount : Nat
  depAu : Nat
  useCount : Nat
  useAu : Nat
  providerCount : Nat
  earnAu : Nat
  feeAu : Nat
  feeCumAu : Nat
  burnAu : Nat
  burnCumAu : Nat
  priceCount : Nat
deriving DecidableEq

inductive CommitStatus where
  | provisional
  | void
  | superseded
deriving DecidableEq

structure EpochFreeze where
  time : Nat
  receiptIndex : ReceiptEpochIndex

structure ReceiptApply where
  index : ReceiptEpochIndex
  commitHash : Digest
  allocationCount : Nat
  providerCount : Nat
  marketCount : Nat
  earnCumAu : Nat
  feeAu : Nat
  burnAu : Nat

structure ApplyState where
  updatedEpoch : Nat
  updatedAt : Option Digest
  lastApplyHash : Option Digest
  lastApplyPreviousHash : Option Digest
  lastSettlementUnix : Option Nat
  lastPage : Option Nat
  lastReceipt : Option ReceiptApply
  pendingEpoch : Option Nat
  pendingNextPage : Nat
  pendingSettlementUnix : Option Nat
  pendingReservedDebits : Option (List ((Rail × PublicKey) × Nat))
  pendingReceipt : Option ReceiptApply

structure EarningMarker where
  priorCumulativeAu : Nat
  grossAu : Nat
  netAu : Nat
  cumulativeAu : Nat
  firstPage : Nat
  lastPage : Nat

structure MarketMarker where
  ctxBracketTableVer : Option Nat
  demandAu : Nat
  settledUsage : Counts
  sessionCount : Nat
  providerCount : Nat
  firstPage : Nat
  lastPage : Nat

structure PriceTerms where
  rateMap : List RateEntry
  perReqAu : Nat
  minSessionAu : Nat
deriving DecidableEq

structure PriceSeed where
  ver : Nat
  terms : PriceTerms
  effectiveAt : Nat
  setBy : PublicKey
  setByRole : Role

structure CalibrationDimension where
  unit : String
  units : Nat
  workUs : Nat

structure ActivityCalibration where
  sourceHash : Digest
  dimensions : List CalibrationDimension

inductive ActivityBasis where
  | calibratedWork
  | relativeDimensionVector
deriving DecidableEq

inductive FrozenReason where
  | missingCanonicalActivity
  | activityBaselineBootstrap

structure MarketConstants where
  emaAlphaBps : Nat
  gainBps : Nat
  maxStepBps : Nat
  maxMomentumBps : Nat

structure MarketActivity where
  epoch : Nat
  epochSeconds : Nat
  activeSupply : Nat
  activeDemandAu : Nat
  sessionCount : Nat
  settledUsage : Option Counts
  calibrationHash : Option Digest
  activityBasis : ActivityBasis
  activityVector : Option Counts
  previousActivityVector : Option Counts
  previousActivityRate : Option Nat
  previousEmaActivityVector : Option Counts
  emaActivityVector : Option Counts
  calibration : Option ActivityCalibration
  modelrefVer : Option Nat
  calibratedWorkPs : Option Nat
  activityRate : Option Nat
  previousEmaActivityRate : Option Nat
  emaActivityRate : Option Nat
  activityInitialized : Bool
  momentumBps : Nat
  multiplierBps : Nat
  frozenReason : Option FrozenReason
  constants : MarketConstants
  desired : PriceTerms
  previousPriceVer : Nat
  previous : PriceTerms
  seedPriceVer : Nat

structure PriceRecord where
  enclaveId : Digest
  modelId : String
  ver : Nat
  terms : PriceTerms
  effectiveAt : Nat
  setBy : PublicKey
  setByRole : Role
  ctxBracket : Option String
  ctxBracketTableVer : Option Nat
  seed : Option PriceSeed
  market : Option MarketActivity

structure PriceSchedule where
  current : Option PriceRecord
  pending : Option PriceRecord

structure ModelRef where
  modelClass : Option ModelClass
  rateMap : List RateEntry
  activityCalibration : Option ActivityCalibration
  ver : Option Nat

abbrev MarketKey := Digest × Option String

instance : LawfulBEq MarketKey := inferInstanceAs (LawfulBEq (Digest × Option String))

structure MarketRow where
  enclaveId : Digest
  ctxBracket : Option String
  ctxBracketTableVer : Option Nat
deriving DecidableEq

def MarketRow.key (row : MarketRow) : MarketKey := (row.enclaveId, row.ctxBracket)

structure MarketUsage where
  row : MarketRow
  demandAu : Nat
  sessionCount : Nat
  providerCount : Nat
deriving DecidableEq

structure PriceDerivation where
  epoch : Nat
  time : Nat
  epochSeconds : Nat
  usageRoot : Option Digest
  record : PriceRecord

structure Market where
  schedule : Table MarketKey PriceSchedule
  record : Table (MarketKey × Nat) PriceRecord
  modelRef : Table String ModelRef
  activityIndex : List MarketRow
  priceRoot : Table Nat Digest

structure ActivityEvidence where
  priceUsage : MarketUsage
  derivation : PriceDerivation
  expectedPriceRoot : Digest

structure EpochCommit where
  epochSeconds : Nat
  targetedReceiptPages : Bool
  roots : EpochRoots
  totals : EpochTotals
  status : CommitStatus
  provisionalUntilEpoch : Nat
  commitHash : Digest
  submittedBy : PublicKey
  time : Nat
  replacementCount : Nat
  expectedActivityEvidence : Option ActivityEvidence

structure EpochCommitValue where
  epoch : Nat
  epochSeconds : Nat
  roots : EpochRoots
  totals : EpochTotals

inductive FraudReason where
  | overCredit
  | priceDerivation
deriving DecidableEq

inductive FraudProofPayload where
  | overCredit (epoch proofEpoch : Nat) (receipt : ReceiptEnvelope)
      (claimedAuOwedCum previousAuOwedCum : Nat)
  | priceDerivation (epoch proofEpoch : Nat) (priceUsage : MarketUsage)
      (expectedPriceRoot committedPriceRoot priceDerivationHash : Digest)

structure SlashRecord where
  provider : PublicKey
  slashBps : Nat
  forfeitedAu : Nat
  beneficiaryAu : Nat
  treasuryAu : Nat

structure FraudRecord where
  proofEpoch : Nat
  reason : FraudReason
  voidedCommit : Digest
  bannedSubmitter : PublicKey
  slash : Option SlashRecord

structure ApplyAnchor where
  applyHash : Digest
  settlementUnix : Nat
  appliedAt : Option Digest
deriving DecidableEq

structure EmptySealValue where
  marketPriceRoot : Digest
  marketPriceCount : Nat
  epoch : Nat
  time : Nat
  epochSeconds : Nat
  previousApplyHash : Option Digest
  reasonHash : Digest
  sealedBy : PublicKey
deriving DecidableEq

structure EmptySeal where
  value : EmptySealValue
  sealHash : Digest

inductive EvidenceKind where
  | use
  | earn
  | fee
  | price
deriving DecidableEq

structure EvidenceRoot where
  merkleRoot : Digest
  time : Nat

structure DepositReversals where
  reversalCount : Nat
  reversedAuTotal : Nat
  clawbackAuTotal : Nat
  networkAbsorbedAuTotal : Nat
deriving DecidableEq

structure DepositRoot where
  merkleRoot : Digest
  count : Nat
  auTotal : Nat
  reversals : Option DepositReversals
deriving DecidableEq

structure Epochs where
  applyState : Option ApplyState
  freeze : Table Nat EpochFreeze
  commit : Table Nat EpochCommit
  superseded : Table (Nat × Digest) EpochCommit
  emptySeal : Table Nat EmptySeal
  applyAnchor : Table Nat ApplyAnchor
  challenge : Table Nat Digest
  earningMarker : Table (Nat × Rail × PublicKey) EarningMarker
  marketMarker : Table (Nat × MarketKey) MarketMarker
  marketProvider : Table (Nat × MarketKey × PublicKey) Nat
  evidence : Table (EvidenceKind × Nat) EvidenceRoot
  depositRoot : Table Nat DepositRoot
  fraud : Table (Nat × Digest) FraudRecord
  committerBan : Table PublicKey Digest

structure Accounts where
  balance : Table (PublicKey × Rail) BalanceRecord
  earning : Table (PublicKey × Rail) EarningRecord
  fee : Table Rail FeeRecord
  burn : Table Rail BurnRecord
  liability : Table (PublicKey × Rail × Digest) PayoutLiability
  liabilityIndex : Table Rail LiabilityIndex
  payoutSnapshot : Table (Nat × Nat × PublicKey × Rail) PayoutSnapshot
  payoutAllocation : Table (Nat × Digest) PayoutAllocation
  slash : Table (PublicKey × Digest) SlashRecord

end Mayhem
