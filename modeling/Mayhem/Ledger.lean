import Mayhem.Dispute.Records
import Mayhem.Deposit.Records

/-!
This module contains the values of the operations, what the contract takes from its host, and the ledger itself.
-/

namespace Mayhem

structure SpendVoucher where
  schemaVersion : Nat
  sessionId : Digest
  billingId : Digest
  billingAttempt : Nat
  billingPriorUsage : Counts
  billingPriorAuOwedCum : Nat
  billingEpoch : Nat
  reservationId : Digest
  reservationExpiresAfterEpoch : Nat
  reservationReceiptGraceEpochs : Nat
  user : PublicKey
  provider : PublicKey
  payoutRevision : Digest
  rail : Rail
  enclaveId : Digest
  modelId : String
  priceVer : Nat
  lockedRateMap : List RateEntry
  lockedPerReqAu : Nat
  lockedMinSessionAu : Nat
  servedCtx : Nat
  requiredModalities : List Modality
  requiredSpecialities : List (String × String)
  workflow : Option Workflow
  ctxBracket : Option String
  ctxBracketTableVer : Option Nat
  rulesVer : Nat
  maxSpendAu : Nat
  checkpointTokens : Nat
  checkpointMs : Nat

structure SpendReserveValue where
  payoutRevision : Digest
  contractVersion : Nat
  sessionId : Digest
  reservationId : Digest
  reservationExpiresAfterEpoch : Nat
  reservationReceiptGraceEpochs : Nat
  epoch : Nat
  time : Nat
  rail : Rail
  user : PublicKey
  provider : PublicKey
  enclaveId : Digest
  enclavePubkey : PublicKey
  modelId : String
  priceVer : Nat
  rulesVer : Nat
  servedCtx : Nat
  requiredModalities : List Modality
  requiredSpecialities : List (String × String)
  workflow : Option Workflow
  ctxBracket : Option String
  ctxBracketTableVer : Option Nat
  maxSpendAu : Nat
  voucher : SpendVoucher
  userSig : Signature
  providerSig : Signature

structure RecordReceiptValue where
  contractVersion : Nat
  epoch : Nat
  payoutRevision : Digest
  receipt : ReceiptEnvelope
  providerSig : Signature

inductive ActorRole where
  | provider
  | user
deriving DecidableEq

structure CloseReservationValue where
  contractVersion : Nat
  billingEpoch : Nat
  reservationId : Digest
  reservationExpiresAfterEpoch : Nat
  reservationReceiptGraceEpochs : Nat
  billingId : Digest
  billingAttempt : Nat
  sessionId : Digest
  user : PublicKey
  rail : Rail
  provider : PublicKey
  payoutRevision : Digest
  latestReceiptSeq : Option Nat
  latestReceiptHash : Option Digest
  time : Nat
  reason : String
  actor : PublicKey
  actorRole : ActorRole
  actorSig : Signature

structure Debit where
  rail : Rail
  user : PublicKey
  au : Nat

structure TargetedEarning where
  rail : Rail
  provider : PublicKey
  grossAu : Nat
  payoutRevision : Digest
deriving DecidableEq

structure EarningFinal where
  rail : Rail
  provider : PublicKey
  grossAu : Nat
  netAu : Nat
  cumulativeAu : Nat
deriving DecidableEq

structure TargetedEpochValue where
  epoch : Nat
  time : Nat
  epochCommitHash : Digest
  receiptIndex : ReceiptEpochIndex
  debits : List Debit
  earnings : List TargetedEarning
  allocations : List Allocation
  page : Nat
  lastPage : Bool
  marketUsage : Option (List MarketUsage)
  earningFinals : Option (List EarningFinal)

structure CommitPageZeroValue where
  epoch : Nat
  time : Nat
  epochCommitHash : Digest
  receiptIndex : ReceiptEpochIndex
  debits : List Debit
  earnings : List TargetedEarning
  allocations : List Allocation
  lastPage : Bool
  marketUsage : Option (List MarketUsage)
  earningFinals : Option (List EarningFinal)
  roots : EpochRoots
  totals : EpochTotals
  supersedesCommitHash : Option Digest

structure FraudProofValue where
  epoch : Nat
  proofEpoch : Nat
  time : Nat
  reason : Option FraudReason
  receipt : Option ReceiptEnvelope
  claimedAuOwedCum : Option Nat
  previousAuOwedCum : Option Nat
  priceUsage : Option MarketUsage

structure TargetedApplyPayload where
  epoch : Nat
  page : Nat
  lastPage : Bool
  time : Nat
  epochSeconds : Nat
  feeBps : Nat
  epochCommitHash : Digest
  receiptIndex : ReceiptEpochIndex
  debits : List ((Rail × PublicKey) × Nat)
  earnings : List ((Rail × PublicKey) × Nat)
  previousApplyHash : Option Digest
  marketUsage : Option (List MarketUsage)
  earningFinals : Option (List EarningFinal)
  payoutRevisions : List (PublicKey × Rail × Digest)
  allocations : List Allocation

structure FeeRootValue where
  epoch : Nat
  feeAu : Nat
  feeCumAu : Nat
  burnAu : Nat
  burnCumAu : Nat
  tapBurnBps : Nat

inductive MerkleKind where
  | use
  | earn
  | price

/--
The hash functions and signature checks of the contract's host. A hash is a function of the
value it is taken over.
-/
structure Crypto where
  usageLeafHash : ReceiptLeaf → Digest
  canonicalReceiptHash : ReceiptEnvelope → Digest
  voucherHash : SpendVoucher → Digest
  epochCommitHash : EpochCommitValue → Digest
  fraudProofHash : FraudProofPayload → Digest
  fraudProofBytes : FraudProofValue → Nat
  targetedApplyHash : TargetedApplyPayload → Digest
  emptySealHash : EmptySealValue → Digest
  earnLeafHash : EarningFinal → Digest
  feeRootHash : FeeRootValue → Digest
  priceDerivationLeafHash : PriceDerivation → Digest
  calibrationHash : ActivityCalibration → Digest
  merkleEmptyRoot : MerkleKind → Digest
  merkleNode : MerkleKind → Digest → Digest → Digest
  depositRootHash : Digest → Digest → Nat → Digest
  spendReserveFeatureKey : SpendReserveValue → Digest
  recordReceiptFeatureKey : RecordReceiptValue → Digest
  closeReservationFeatureKey : Bool → CloseReservationValue → Digest
  targetedEpochFeatureKey : TargetedEpochValue → Digest
  commitPageZeroFeatureKey : CommitPageZeroValue → Digest
  verifySpendVoucher : PublicKey → SpendVoucher → Signature → Bool
  verifySpendReserve : PublicKey → SpendReserveValue → Bool
  verifyReceipt : Signature → ReceiptBody → PublicKey → Bool
  verifyRecordReceipt : PublicKey → RecordReceiptValue → Bool
  verifyCloseReservation : Bool → PublicKey → CloseReservationValue → Bool

namespace Crypto

variable (crypto : Crypto)

def verifyReceiptEnvelope (envelope : ReceiptEnvelope) : Bool :=
  crypto.verifyReceipt envelope.enclaveSig envelope.body envelope.enclavePubkey &&
    crypto.verifyReceipt envelope.userSig envelope.body envelope.body.user

def usageLeaf (envelope : ReceiptEnvelope) : Digest :=
  crypto.usageLeafHash envelope.receiptLeafEnvelope

def merkleLevel (kind : MerkleKind) : List Digest → List Digest
  | left :: right :: rest => crypto.merkleNode kind left right :: merkleLevel kind rest
  | [left] => [crypto.merkleNode kind left left]
  | [] => []

def merkleUp (kind : MerkleKind) : Nat → List Digest → Digest
  | _, [] => crypto.merkleEmptyRoot kind
  | _, [root] => root
  | 0, root :: _ => root
  | fuel + 1, level => merkleUp kind fuel (crypto.merkleLevel kind level)

def merkleRoot (kind : MerkleKind) (leaves : List Digest) : Digest :=
  crypto.merkleUp kind leaves.length (leaves.insertionSort (· ≤ ·))

def priceDerivationRoot (derivations : List PriceDerivation) : Digest :=
  crypto.merkleRoot .price (derivations.map crypto.priceDerivationLeafHash)

end Crypto

structure Oversight where
  auditorActive : Table PublicKey Bool
  probePass : Table (PublicKey × Nat) (List PublicKey)
  probe : Table Digest Bool
  providerOpenDisputes : Table PublicKey Nat

structure Ledger where
  registry : Registry
  market : Market
  holds : Holds
  receipts : Receipts
  accounts : Accounts
  epochs : Epochs
  oversight : Oversight
  payouts : Payouts
  disputes : Disputes
  reputation : Reputation
  deposits : Deposits

namespace Ledger

def empty : Ledger where
  registry := .empty
  market := ⟨.empty, .empty, .empty, [], .empty⟩
  holds := ⟨.empty, .empty, .empty, .empty, .empty, .empty, .empty⟩
  receipts := ⟨.empty, .empty, .empty, .empty, .empty, .empty, .empty, none⟩
  accounts := ⟨.empty, .empty, .empty, .empty, .empty, .empty, .empty, .empty, .empty⟩
  epochs := ⟨none, .empty, .empty, .empty, .empty, .empty, .empty, .empty, .empty, .empty, .empty, .empty,
      .empty, .empty⟩
  oversight := ⟨.empty, .empty, .empty, .empty⟩
  payouts := .empty
  disputes := ⟨.empty, .empty, .empty, none, .empty⟩
  reputation := ⟨.empty, .empty, .empty⟩
  deposits := ⟨.empty, .empty, .empty, .empty, .empty, .empty, .empty, .empty, none, none⟩

end Ledger

abbrev Outcome (α : Type) := Ledger × Except String α

end Mayhem
