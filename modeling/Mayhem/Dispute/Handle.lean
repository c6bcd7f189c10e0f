import Mayhem.Slash
import Mayhem.Reservation
import Mayhem.Reputation

namespace Mayhem

structure DisputeValue where
  rail : Rail
  sessionId : Digest
  reason : String
  provider : PublicKey
  counterparty : Option PublicKey
  enclaveId : Digest
  epoch : Option Nat
  time : Nat
  evidenceBytes : Option Nat

structure DisputeResolveValue where
  disputeId : Nat
  outcome : Option DisputeOutcome
  depositAction : Option DepositAction
  rationaleHash : String
  time : Nat
  slash : Bool
  beneficiary : Option PublicKey

structure DisputeExpireValue where
  disputeId : Nat
  time : Nat

def disputeEvidenceMaxBytes : Nat := 4096

def validateDisputeOpen (value : DisputeValue) : Except String Unit := do
  rejectIf (¬ isSafeKeyPart value.reason) "Invalid dispute reason."
  rejectIf (∃ bytes ∈ value.evidenceBytes, bytes > disputeEvidenceMaxBytes)
    "Dispute evidence bundle is too large."

def validateEpochSpendSession (reg : Registry) (user : PublicKey) (rail : Rail) (epoch : Nat)
    (session : SpendSession) : Except String Unit := do
  rejectIf (¬ isSafeInteger session.billingAttempt) "Invalid spend hold billing attempt."
  rejectIf (session.billingEpoch ≠ epoch) "Invalid spend hold billing epoch."
  validateSpendSession reg user rail session

def normalizeSpendHoldRecord (reg : Registry) (record : Option SpendHold) (user : PublicKey) (rail : Rail)
    (epoch : Nat) : Except String SpendHold :=
  match record with
  | none => .ok emptySpendHold
  | some hold => do
    hold.sessions.forM (validateEpochSpendSession reg user rail epoch)
    return hold

def disputeOpenCount {K : Type} (counts : Table K Nat) (key : K) : Except String Nat := do
  let count := (counts.get key).getD 0
  rejectIf (¬ isSafeInteger count) "Invalid open dispute count."
  return count

namespace Ledger

def closeDisputeCounts (s : Ledger) (dispute : DisputeRecord) : Except String Ledger := do
  let openerCount ← disputeOpenCount s.disputes.openerOpenCount dispute.openedBy
  let providerCount ← disputeOpenCount s.oversight.providerOpenDisputes dispute.provider
  rejectIf (openerCount < 1 ∨ providerCount < 1) "Open dispute count underflow."
  return { s with
    disputes := { s.disputes with
      openerOpenCount := s.disputes.openerOpenCount.put dispute.openedBy (openerCount - 1) }
    oversight := { s.oversight with
      providerOpenDisputes := s.oversight.providerOpenDisputes.put dispute.provider (providerCount - 1) } }

structure DisputePlan where
  balance : BalanceRecord
  record : DisputeRecord
  openerCount : Nat
  providerCount : Nat

def requireOpener (s : Ledger) (sender : PublicKey) : Except String Unit :=
  if s.registry.admin = some sender then .ok () else s.registry.requireConsent sender

def linkedSession (s : Ledger) (sender : PublicKey) (value : DisputeValue) (epoch : Nat) :
    Except String SpendSession := do
  let hold ← normalizeSpendHoldRecord s.registry (s.disputes.epochHold.get (sender, value.rail, epoch))
    sender value.rail epoch
  let session ← requireSome (hold.sessions.find? fun session => session.sessionId = value.sessionId)
    "Dispute must reference an opener-linked spend reservation."
  rejectIf ((s.disputes.session.get (sender, session.sessionId)).isSome)
    "Session already has a dispute from this opener."
  rejectIf (session.provider ≠ value.provider) "Dispute provider does not match the linked session."
  rejectIf (session.enclaveId ≠ value.enclaveId) "Dispute enclave does not match the linked session."
  rejectIf (∃ counterparty ∈ value.counterparty, counterparty ≠ session.provider)
    "Dispute counterparty does not match the linked session provider."
  return session

def prepareDispute (s : Ledger) (sender : PublicKey) (value : DisputeValue) : Except String DisputePlan := do
  s.requireOpener sender
  validateDisputeOpen value
  let balance ← s.balanceRecord sender value.rail
  guardianValidateBalanceRecord balance value.rail
  let param := s.registry.activeParamAt value.time
  let depositAu := param .disputeDepositAu
  rejectIf (balance.au < depositAu) "Insufficient balance for dispute deposit."
  let epoch := value.epoch.getD s.applyState.updatedEpoch
  rejectIf (epoch > s.applyState.updatedEpoch) "Dispute epoch cannot exceed the latest applied epoch."
  let session ← s.linkedSession sender value epoch
  let openerCount ← disputeOpenCount s.disputes.openerOpenCount sender
  rejectIf (openerCount ≥ param .maxOpenDisputesPerOpener) "Open dispute limit reached."
  let providerCount ← disputeOpenCount s.oversight.providerOpenDisputes session.provider
  let expiresAfterEpoch := epoch + param .disputeTimeoutEpochs
  rejectIf (¬ isSafeInteger expiresAfterEpoch) "Dispute timeout epoch overflow."
  let next := { balance with
    au := balance.au - depositAu
    updatedEpoch := max balance.updatedEpoch (value.epoch.getD 0) }
  guardianValidateBalanceRecord next value.rail
  return ⟨next,
    { disputeId := s.disputes.next.getD 1
      status := .opened
      rail := value.rail
      openedBy := sender
      sessionId := session.sessionId
      provider := session.provider
      counterparty := value.counterparty.getD session.provider
      enclaveId := session.enclaveId
      epoch := epoch
      depositAu := depositAu
      timeoutEpochs := param .disputeTimeoutEpochs
      expiresAfterEpoch := expiresAfterEpoch
      closed := none }, openerCount, providerCount⟩

def writeDispute (s : Ledger) (plan : DisputePlan) : Ledger :=
  let record := plan.record
  let debited := s.putBalance record.openedBy record.rail plan.balance
  { debited with
    disputes := { s.disputes with
      record := s.disputes.record.put record.disputeId record
      session := s.disputes.session.put (record.openedBy, record.sessionId) record.disputeId
      next := some (record.disputeId + 1)
      openerOpenCount := s.disputes.openerOpenCount.put record.openedBy (plan.openerCount + 1) }
    oversight := { s.oversight with
      providerOpenDisputes := s.oversight.providerOpenDisputes.put record.provider (plan.providerCount + 1) } }

def dispute (s : Ledger) (sender : PublicKey) (value : DisputeValue) : Outcome DisputeRecord :=
  match s.prepareDispute sender value with
  | .error message => (s, .error message)
  | .ok plan => (s.writeDispute plan, .ok plan.record)

end Ledger

structure BondSplit where
  refundedAu : Nat
  forfeitedAu : Nat

def openerFaultForfeit (depositAu forfeitBps : Nat) : Nat :=
  min (max (depositAu * forfeitBps / 10000) 1) (depositAu - 1)

def bondSplit (action : DepositAction) (depositAu forfeitBps : Nat) : Except String BondSplit :=
  match action with
  | .refund => .ok ⟨depositAu, 0⟩
  | .forfeit => .ok ⟨0, depositAu⟩
  | .partialForfeit => do
    rejectIf (depositAu = 0) "dispute deposit must be positive."
    rejectIf (depositAu < 2) "Dispute deposit is too small to split."
    let forfeitedAu := openerFaultForfeit depositAu forfeitBps
    let refundedAu ← safeSubAu depositAu forfeitedAu
    return ⟨refundedAu, forfeitedAu⟩

structure DisputeVerdict where
  dispute : DisputeRecord
  outcome : DisputeOutcome
  action : DepositAction
  split : BondSplit

namespace Ledger

def openDispute (s : Ledger) (disputeId : Nat) : Except String DisputeRecord := do
  let dispute ← requireSome (s.disputes.record.get disputeId) "Dispute not found."
  rejectIf (dispute.status ≠ .opened) "Dispute is not open."
  return dispute

def prepareDisputeResolve (s : Ledger) (sender : PublicKey) (value : DisputeResolveValue) :
    Except String DisputeVerdict := do
  s.registry.requireAdmin sender
  let outcome ← requireSome (value.outcome.filter (· ≠ .timeoutRefund)) "Unsupported dispute outcome."
  let action ← requireSome value.depositAction "Unsupported dispute deposit action."
  let dispute ← s.openDispute value.disputeId
  rejectIf (outcome = .providerFault ∧ (s.registry.providers.get dispute.provider).isNone)
    "Provider not found."
  rejectIf (value.slash ∧ outcome ≠ .providerFault) "Only provider_fault disputes may slash a provider."
  rejectIf (s.applyState.updatedEpoch > dispute.expiresAfterEpoch)
    "Dispute resolution window has closed; expire the dispute."
  rejectIf (outcome = .openerFault ∧ action ≠ .partialForfeit)
    "Opener-fault disputes require a partial deposit forfeit."
  rejectIf (outcome ≠ .openerFault ∧ action = .partialForfeit)
    "Partial deposit forfeit is reserved for opener-fault disputes."
  let split ← bondSplit action dispute.depositAu
    (s.registry.activeParamAt value.time .disputeOpenerFaultForfeitBps)
  return ⟨dispute, outcome, action, split⟩

def refundDeposit (s : Ledger) (dispute : DisputeRecord) (au : Nat) : Except String Ledger :=
  if au = 0 then .ok s else do
    let balance ← s.balanceRecord dispute.openedBy dispute.rail
    guardianValidateBalanceRecord balance dispute.rail
    return s.putBalance dispute.openedBy dispute.rail { balance with
      au := balance.au + au
      updatedEpoch := max balance.updatedEpoch dispute.epoch }

def forfeitDeposit (s : Ledger) (dispute : DisputeRecord) (au : Nat) : Except String Ledger :=
  if au = 0 then .ok s else do
    let fee ← s.feeCumRecord dispute.rail
    guardianValidateFeeRecord fee dispute.rail
    let updated := { fee with
      cumAu := fee.cumAu + au
      settledCumAu := some (fee.settledCumAu.getD fee.cumAu + au)
      updatedEpoch := max fee.updatedEpoch dispute.epoch }
    guardianValidateFeeRecord updated dispute.rail
    return s.putFee dispute.rail updated

def payDeposit (s : Ledger) (dispute : DisputeRecord) (split : BondSplit) : Outcome Unit :=
  match s.refundDeposit dispute split.refundedAu with
  | .error message => (s, .error message)
  | .ok refunded =>
    match refunded.forfeitDeposit dispute split.forfeitedAu with
    | .error message => (refunded, .error message)
    | .ok forfeited => (forfeited, .ok ())

def disputeLostEventId (disputeId : Nat) : String := "dispute-" ++ toString disputeId ++ "-lost"

def disputeLostEvent (sender : PublicKey) (tx : Digest) (value : DisputeResolveValue)
    (dispute : DisputeRecord) : ReputationEvent where
  provider := dispute.provider
  eventId := disputeLostEventId dispute.disputeId
  kind := .disputeLost
  epoch := dispute.epoch
  time := value.time
  paidAu := none
  maxSpendAu := none
  evidenceHash := some value.rationaleHash
  recordedAt := tx
  recordedBy := sender

def disputeSlashRequest (s : Ledger) (value : DisputeResolveValue) (dispute : DisputeRecord) : SlashRequest where
  provider := dispute.provider
  epoch := dispute.epoch
  slashBps := s.registry.activeParamAt value.time .disputeLostSlashBps
  beneficiary := some (value.beneficiary.getD dispute.openedBy)
  enclaveId := some dispute.enclaveId
  banProvider := false
  tombstoneEnclave := false

def faultProvider (s : Ledger) (host : ReputationHost) (sender : PublicKey) (tx : Digest)
    (value : DisputeResolveValue) (verdict : DisputeVerdict) : Outcome (Option SlashRecord) :=
  if verdict.outcome ≠ .providerFault then (s, .ok none)
  else
    match s.reputation.appendReputationEvent host (disputeLostEvent sender tx value verdict.dispute) with
    | .error message => (s, .error message)
    | .ok reputation =>
      let judged := { s with reputation := reputation }
      if value.slash then
        match judged.applyProviderSlash tx (judged.disputeSlashRequest value verdict.dispute) with
        | .error message => (judged, .error message)
        | .ok (slashed, slash) => (slashed, .ok (some slash))
      else (judged, .ok none)

def resolved (verdict : DisputeVerdict) : DisputeRecord :=
  { verdict.dispute with
    status := .resolved
    closed := some ⟨verdict.outcome, verdict.action, verdict.split.refundedAu, verdict.split.forfeitedAu⟩ }

def putDispute (s : Ledger) (disputeId : Nat) (dispute : DisputeRecord) : Ledger :=
  { s with disputes := { s.disputes with record := s.disputes.record.put disputeId dispute } }

def disputeResolve (s : Ledger) (host : ReputationHost) (sender : PublicKey) (tx : Digest)
    (value : DisputeResolveValue) : Outcome (DisputeRecord × Option SlashRecord) :=
  match s.prepareDisputeResolve sender value with
  | .error message => (s, .error message)
  | .ok verdict =>
    match s.payDeposit verdict.dispute verdict.split with
    | (paid, .error message) => (paid, .error message)
    | (paid, .ok ()) =>
      match paid.faultProvider host sender tx value verdict with
      | (judged, .error message) => (judged, .error message)
      | (judged, .ok slash) =>
        match judged.closeDisputeCounts verdict.dispute with
        | .error message => (judged, .error message)
        | .ok counted =>
          (counted.putDispute value.disputeId (resolved verdict), .ok (resolved verdict, slash))

def expired (dispute : DisputeRecord) : DisputeRecord :=
  { dispute with
    status := .expired
    closed := some ⟨.timeoutRefund, .refund, dispute.depositAu, 0⟩ }

def prepareDisputeExpire (s : Ledger) (value : DisputeExpireValue) :
    Except String (DisputeRecord × BalanceRecord × Ledger) := do
  let dispute ← s.openDispute value.disputeId
  rejectIf (¬ isSafeInteger dispute.expiresAfterEpoch) "Dispute has no valid timeout epoch."
  rejectIf (s.applyState.updatedEpoch < dispute.expiresAfterEpoch) "Dispute timeout epoch not reached."
  let balance ← s.balanceRecord dispute.openedBy dispute.rail
  guardianValidateBalanceRecord balance dispute.rail
  let next := { balance with
    au := balance.au + dispute.depositAu
    updatedEpoch := max (max balance.updatedEpoch s.applyState.updatedEpoch) dispute.epoch }
  guardianValidateBalanceRecord next dispute.rail
  let counted ← s.closeDisputeCounts dispute
  return (dispute, next, counted)

def disputeExpire (s : Ledger) (value : DisputeExpireValue) : Outcome DisputeRecord :=
  match s.prepareDisputeExpire value with
  | .error message => (s, .error message)
  | .ok (dispute, balance, counted) =>
    ((counted.putBalance dispute.openedBy dispute.rail balance).putDispute value.disputeId (expired dispute),
      .ok (expired dispute))

end Ledger

end Mayhem
