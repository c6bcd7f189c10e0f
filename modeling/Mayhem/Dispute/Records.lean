import Mayhem.Records

namespace Mayhem

inductive DisputeStatus where
  | opened
  | resolved
  | expired
deriving DecidableEq

inductive DisputeOutcome where
  | providerFault
  | openerFault
  | noFault
  | timeoutRefund
deriving DecidableEq

inductive DepositAction where
  | refund
  | forfeit
  | partialForfeit
deriving DecidableEq

structure DisputeClose where
  outcome : DisputeOutcome
  depositAction : DepositAction
  depositRefundedAu : Nat
  depositForfeitedAu : Nat
deriving DecidableEq

structure DisputeRecord where
  disputeId : Nat
  status : DisputeStatus
  rail : Rail
  openedBy : PublicKey
  sessionId : Digest
  provider : PublicKey
  counterparty : PublicKey
  enclaveId : Digest
  epoch : Nat
  depositAu : Nat
  timeoutEpochs : Nat
  expiresAfterEpoch : Nat
  closed : Option DisputeClose
deriving DecidableEq

structure Disputes where
  epochHold : Table (PublicKey × Rail × Nat) SpendHold
  record : Table Nat DisputeRecord
  session : Table (PublicKey × Digest) Nat
  next : Option Nat
  openerOpenCount : Table PublicKey Nat

inductive ReputationKind where
  | sessionOk
  | sessionPartial
  | sessionFail
  | probeOk
  | probeFail
  | uptimeTick
  | underdelivery
  | disputeLost
  | provenanceViolation
deriving DecidableEq

structure ReputationEvent where
  provider : PublicKey
  eventId : String
  kind : ReputationKind
  epoch : Nat
  time : Nat
  paidAu : Option Nat
  maxSpendAu : Option Nat
  evidenceHash : Option String
  recordedAt : Digest
  recordedBy : PublicKey

structure ReputationHead where
  head : Digest
  count : Nat

structure ReputationFold where
  rawNano : Int
  time : Nat
  maxEpoch : Nat
  successfulSessions : Nat
  provenanceViolation : Bool
  eventCount : Nat
  eventsHead : Digest

structure Reputation where
  event : Table (PublicKey × String) (ReputationEvent × Digest)
  head : Table PublicKey ReputationHead
  fold : Table PublicKey ReputationFold

end Mayhem
