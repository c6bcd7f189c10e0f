import Mayhem.Reservation

/-!
This module contains the life of a reservation after it was made, and the index of the receipts of an epoch.
-/

namespace Mayhem

def validateEpochApplyPageOrder (state : ApplyState) (epoch page : Nat) : Except String Unit := do
  if page = 0 then
    rejectIf (state.pendingEpoch.isSome)
      "Guardian monotonic epoch invariant failed: pending epoch apply page exists."
    rejectIf (epoch ≤ state.updatedEpoch) "Guardian monotonic epoch invariant failed."
    rejectIf (epoch ≠ state.updatedEpoch + 1)
      "Guardian monotonic epoch invariant failed: epoch apply must be contiguous."
  else
    rejectIf (state.pendingEpoch ≠ some epoch)
      "Guardian monotonic epoch invariant failed: epoch apply page has no pending predecessor."
    rejectIf (epoch ≠ state.updatedEpoch + 1)
      "Guardian monotonic epoch invariant failed: epoch apply must be contiguous."
    rejectIf (state.pendingNextPage ≠ page)
      "Guardian monotonic epoch invariant failed: epoch apply page is not contiguous."
    rejectIf (state.lastApplyHash.isNone)
      "Guardian monotonic epoch invariant failed: pending epoch apply hash missing."

def EpochCommit.hashValue (commit : EpochCommit) (epoch : Nat) : EpochCommitValue :=
  ⟨epoch, commit.epochSeconds, commit.roots, commit.totals⟩

def priorEpochSettlementUnix (crypto : Crypto) (epochs : Epochs) (state : ApplyState) : Except String Nat := do
  if let some settled := state.lastSettlementUnix.filter fun n => isSafeInteger n then
    return settled
  let epoch := state.updatedEpoch
  rejectIf (¬ isSafeInteger epoch ∨ epoch < 1)
    "Prior canonical epoch settlement identity is invalid."
  let lastApplyHash ← requireSome state.lastApplyHash
    "Prior canonical epoch settlement identity is invalid."
  match epochs.emptySeal.get epoch with
  | some sealed =>
    rejectIf (sealed.value.epoch ≠ epoch ∨ sealed.sealHash ≠ lastApplyHash ∨ ¬ isSafeInteger sealed.value.time)
      "Prior canonical empty-seal settlement identity is invalid."
    rejectIf (crypto.emptySealHash sealed.value ≠ sealed.sealHash)
      "Prior canonical empty-seal settlement hash is invalid."
    return sealed.value.time
  | none =>
    let commit ← requireSome (epochs.commit.get epoch)
      "Prior canonical epoch commit settlement identity is invalid."
    rejectIf (¬ isSafeInteger commit.time)
      "Prior canonical epoch commit settlement identity is invalid."
    rejectIf (crypto.epochCommitHash (commit.hashValue epoch) ≠ commit.commitHash ∨
      ∃ receipt ∈ state.lastReceipt, receipt.commitHash ≠ commit.commitHash)
      "Prior canonical epoch commit settlement hash is invalid."
    let usageRoot ← requireSome (epochs.evidence.get (.use, epoch))
      "Prior canonical epoch apply evidence is missing."
    rejectIf (usageRoot.time ≠ commit.time ∨ usageRoot.merkleRoot ≠ commit.roots.use)
      "Prior canonical epoch apply evidence is missing."
    return commit.time

def validateEpochCadenceTime (crypto : Crypto) (epochs : Epochs) (state : ApplyState)
    (epoch page settledAt epochSeconds : Nat) : Except String Unit := do
  rejectIf (¬ isSafeInteger settledAt ∨ ¬ isSafeInteger epochSeconds ∨ epochSeconds < 1)
    "Invalid canonical epoch settlement time."
  if page > 0 then
    rejectIf (state.pendingEpoch ≠ some epoch ∨ state.pendingSettlementUnix ≠ some settledAt)
      "Paged epoch apply settlement time changed between pages."
  else if state.updatedEpoch ≠ 0 then
    let prior ← priorEpochSettlementUnix crypto epochs state
    rejectIf (¬ isSafeInteger (prior + epochSeconds)) "Canonical epoch settlement time overflow."
    rejectIf (settledAt < prior + epochSeconds) "Epoch settlement cadence has not matured."

def emptyReceiptEpochIndex : ReceiptEpochIndex := ⟨0, 0, 0, none⟩

def receiptPageCount (count : Nat) : Nat :=
  (count + receiptEpochIndexPageSize - 1) / receiptEpochIndexPageSize

def normalizeReceiptEpochIndexMetadata (index : ReceiptEpochIndex) (allowEmpty : Bool) :
    Except String ReceiptEpochIndex := do
  rejectIf (¬ isSafeInteger index.count ∨ ¬ isSafeInteger index.pageCount ∨
    ¬ isSafeInteger index.revision ∨ index.revision < index.count)
    "Canonical receipt epoch metadata counters are invalid."
  rejectIf (index.pageCount ≠ receiptPageCount index.count)
    "Canonical receipt epoch metadata page count is invalid."
  if index.count = 0 then
    rejectIf (¬ allowEmpty ∨ index.revision ≠ 0 ∨ index.updatedAt.isSome)
      "Canonical receipt epoch metadata cannot be empty."
  else
    rejectIf (index.updatedAt.isNone) "Canonical receipt epoch metadata updated_at is invalid."
  return index

structure IndexAppend where
  epoch : Nat
  index : ReceiptEpochIndex
  page : Nat
  identities : List BillingAttempt
  position : Nat

def nextReceiptEpochIndex (epochs : Epochs) (receipts : Receipts) (epoch : Nat)
    (attempt : BillingAttempt) : Except String IndexAppend := do
  rejectIf ((epochs.freeze.get epoch).isSome)
    "Cannot append receipts to a frozen settlement epoch."
  let index := (receipts.epochIndex.get epoch).getD emptyReceiptEpochIndex
  let _ ← normalizeReceiptEpochIndexMetadata index true
  rejectIf (index.count ≥ maxSafeInteger) "Canonical receipt epoch count overflow."
  let page := index.count / receiptEpochIndexPageSize
  let identities := (receipts.epochPage.get (epoch, page)).getD []
  rejectIf (identities.length ≠ index.count % receiptEpochIndexPageSize ∨
    identities.length ≥ receiptEpochIndexPageSize)
    "Canonical receipt epoch page is invalid or full."
  rejectIf (attempt ∈ identities) "Canonical receipt billing attempt is already indexed."
  return {
    epoch := epoch
    index := { index with
      count := index.count + 1
      pageCount := max index.pageCount (page + 1) }
    page := page
    identities := identities ++ [attempt]
    position := index.count }

def IndexAppend.nextMetadata (append : IndexAppend) (key : Digest) : Except String ReceiptEpochIndex := do
  rejectIf (append.index.revision ≥ maxSafeInteger) "Canonical receipt epoch revision overflow."
  return { append.index with revision := append.index.revision + 1, updatedAt := some key }

def Ledger.receiptSettlementEpoch (s : Ledger) : Except String Nat := do
  let base := s.applyState.pendingEpoch.getD s.applyState.updatedEpoch
  rejectIf (base ≥ maxSafeInteger) "Receipt settlement epoch overflow."
  match s.receipts.ingress with
  | none => return base + 1
  | some cursor =>
    rejectIf (¬ isSafeInteger cursor.nextEpoch ∨ cursor.nextEpoch < 1 ∨
      ¬ isSafeInteger cursor.activatedEpoch ∨ cursor.activatedEpoch < 1 ∨
      cursor.activatedEpoch ≥ cursor.nextEpoch ∨ cursor.nextEpoch > base + 2)
      "Canonical receipt ingress cursor is invalid."
    return max (base + 1) cursor.nextEpoch

def Ledger.validateFrozenEpoch (s : Ledger) (epoch time : Nat) (index : ReceiptEpochIndex) : Except String Unit :=
  match s.epochs.freeze.get epoch with
  | none => rejectIf (∃ cursor ∈ s.receipts.ingress, epoch ≥ cursor.activatedEpoch)
      "Canonical epoch freeze required before settlement."
  | some freeze => rejectIf (freeze.time ≠ time ∨ freeze.receiptIndex ≠ index)
      "Settlement does not match its canonical epoch freeze."

def Ledger.prepareFreeze (crypto : Crypto) (s : Ledger) (sender : PublicKey) (epoch time : Nat) :
    Except String (Option (EpochFreeze × IngressCursor)) := do
  s.registry.requireAdmin sender
  rejectIf (epoch < 1 ∨ epoch ≥ maxSafeInteger ∨ ¬ isSafeInteger time)
    "Invalid epoch freeze identity or timestamp."
  if (s.epochs.freeze.get epoch).isSome then
    return none
  validateEpochApplyPageOrder s.applyState epoch 0
  let epochSeconds := s.registry.activeParamAt time .epochSeconds
  validateEpochCadenceTime crypto s.epochs s.applyState epoch 0 time epochSeconds
  rejectIf (time < epoch * epochSeconds) "Epoch freeze is not active until the epoch window ends."
  let ingress ← s.receiptSettlementEpoch
  rejectIf (ingress ≠ epoch) "Epoch freeze must close the open receipt batch."
  let index ← normalizeReceiptEpochIndexMetadata
    ((s.receipts.epochIndex.get epoch).getD emptyReceiptEpochIndex) true
  let activatedEpoch := (s.receipts.ingress.map IngressCursor.activatedEpoch).getD epoch
  return some (⟨time, index⟩, ⟨epoch + 1, activatedEpoch⟩)

def Ledger.epochFreeze (crypto : Crypto) (s : Ledger) (sender : PublicKey) (epoch time : Nat) : Outcome Unit :=
  match s.prepareFreeze crypto sender epoch time with
  | .error message => (s, .error message)
  | .ok none => (s, .ok ())
  | .ok (some (freeze, cursor)) =>
    ({ s with
      epochs := { s.epochs with freeze := s.epochs.freeze.put epoch freeze }
      receipts := { s.receipts with ingress := some cursor } }, .ok ())

def reservationCloseAmounts (session : SpendSession) (reservation : ReservationRecord)
    (head : Option ReceiptHead) : Except String (Nat × Nat) := do
  rejectIf (reservation.status ≠ .active) "Targeted reservation is already closed."
  let retainedAu := (head.map ReceiptHead.incrementalAu).getD 0
  let releasedAu ← (safeSubAu session.maxSpendAu retainedAu).mapError
    fun _ => "Targeted reservation close exceeds its hold."
  return (retainedAu, releasedAu)

def SpendSession.retain (session : SpendSession) (retainedAu : Nat) : SpendSession :=
  { session with maxSpendAu := retainedAu, settlementReady := true }

inductive ClosedHold where
  | sharded (summary : SpendSummary)
  | legacy (release : Nat)

structure Closure where
  hold : ClosedHold
  session : Option SpendSession
  retainedAu : Nat
  releasedAu : Nat

def prepareShardedTargetedReservationClosure (summary : SpendSummary) (session : SpendSession)
    (reservation : ReservationRecord) (head : Option ReceiptHead) : Except String Closure := do
  let (retainedAu, releasedAu) ← reservationCloseAmounts session reservation head
  let reservedAu ← (safeSubAu summary.reservedAu releasedAu).mapError
    fun _ => "Targeted reservation close exceeds outstanding sharded holds."
  return ⟨.sharded { summary with reservedAu := reservedAu },
    head.map fun _ => session.retain retainedAu, retainedAu, releasedAu⟩

def prepareLegacyTargetedReservationClosure (hold : SpendHold) (release : Nat)
    (session : SpendSession) (reservation : ReservationRecord) (head : Option ReceiptHead) :
    Except String Closure := do
  let (retainedAu, releasedAu) ← reservationCloseAmounts session reservation head
  let _ ← (safeSubAu hold.reservedAu releasedAu).mapError
    fun _ => "Targeted reservation close exceeds outstanding holds."
  rejectIf (release + releasedAu > hold.reservedAu)
    "Targeted reservation close exceeds legacy outstanding holds."
  return ⟨.legacy (release + releasedAu), head.map fun _ => session.retain retainedAu, retainedAu, releasedAu⟩

def prepareClosure (state : ReservationState) (reservation : ReservationRecord)
    (head : Option ReceiptHead) : Except String Closure :=
  match state with
  | .sharded summary session =>
    prepareShardedTargetedReservationClosure summary session reservation head
  | .legacy hold release session =>
    prepareLegacyTargetedReservationClosure hold release session reservation head
  | .legacyOverlay _ _ _ =>
    .error "Cannot read properties of undefined (reading 'balance_au_at_last_reserve')"
  | .missing _ => .error "Close usage reservation does not match its outstanding hold."

def Holds.writeClosure (holds : Holds) (session : SpendSession) (closure : Closure) : Holds :=
  let account := (session.user, session.rail)
  let sessionKey := (session.user, session.rail, session.reservationId)
  match closure.hold, closure.session with
  | .sharded summary, some kept =>
    { holds with
      summary := holds.summary.put account summary
      session := holds.session.put sessionKey kept }
  | .sharded summary, none =>
    { holds with
      summary := holds.summary.put account summary
      session := holds.session.del sessionKey
      sessionIndex := holds.sessionIndex.del (session.user, session.rail, session.sessionId)
      billingAttempt := holds.billingAttempt.del
        (session.user, session.rail, session.billingId, session.billingAttempt) }
  | .legacy release, some kept =>
    { holds with
      legacyRelease := holds.legacyRelease.put account release
      legacySession := holds.legacySession.put sessionKey kept }
  | .legacy release, none =>
    { holds with
      legacyRelease := holds.legacyRelease.put account release
      legacySession := holds.legacySession.del sessionKey }

structure ClosePlan where
  session : SpendSession
  closure : Closure
  record : ReservationClose
  head : Option (ReceiptHead × IndexAppend × ReceiptEpochIndex)

def Receipts.writeHead (receipts : Receipts) (attempt : BillingAttempt) (head : ReceiptHead) : Receipts :=
  { receipts with head := receipts.head.put attempt head }

def Receipts.writeIndex (receipts : Receipts) (append : IndexAppend)
    (metadata : ReceiptEpochIndex) : Receipts :=
  { receipts with
    epochPage := receipts.epochPage.put (append.epoch, append.page) append.identities
    epochIndex := receipts.epochIndex.put append.epoch metadata }

def SpendSession.attempt (session : SpendSession) : BillingAttempt :=
  (session.billingId, session.billingAttempt)

def Receipts.writeClosePlan (receipts : Receipts) (plan : ClosePlan)
    (reservation : ReservationRecord) : Receipts :=
  let indexed :=
    match plan.head with
    | some (head, append, metadata) =>
      (receipts.writeHead plan.session.attempt head).writeIndex append metadata
    | none => receipts
  { indexed with
    reservation := indexed.reservation.put plan.session.reservationId
      { reservation with status := .closed }
    reservationClose := indexed.reservationClose.put plan.session.reservationId plan.record }

def Ledger.writeClosePlan (s : Ledger) (plan : ClosePlan) (reservation : ReservationRecord) : Ledger :=
  { s with
    holds := s.holds.writeClosure plan.session plan.closure
    receipts := s.receipts.writeClosePlan plan reservation }

def normalizeRecordUsageReceiptValue (reg : Registry) (value : RecordReceiptValue) :
    Except String RecordReceiptValue := do
  rejectIf (value.contractVersion ≠ contractVersion ∧ value.contractVersion ∉ recoverableReceiptContractVersions)
    "Invalid record usage receipt contract version."
  rejectIf (¬ isSafeInteger value.epoch ∨ value.epoch < 1) "Invalid record usage receipt epoch."
  let receipt ← normalizeReceiptEnvelope reg value.receipt
  rejectIf (receipt.body.billingEpoch ≠ value.epoch)
    "Record usage receipt outer epoch does not match signed receipt."
  rejectIf (receipt.body.payoutRevision ≠ value.payoutRevision)
    "Record usage receipt outer payout revision does not match signed receipt."
  return value

def ReceiptBody.receiptAttemptTerms (body : ReceiptBody) : ReceiptBody :=
  { body with
    seq := 0
    final := false
    workflowOutput := none
    usage := []
    usageAttribution := none
    auOwedCum := 0
    ts := 0 }

def receiptUsageIsMonotonic (previous next : Counts) : Bool :=
  (previous ++ next).all fun entry =>
    decide (isSafeInteger (previous.get entry.1) ∧ isSafeInteger (next.get entry.1) ∧
      previous.get entry.1 ≤ next.get entry.1)

def SpendSession.matchesReceipt (session : SpendSession) (receipt : ReceiptEnvelope) : Bool :=
  let body := receipt.body
  decide (session.billingId = body.billingId ∧ session.billingAttempt = body.billingAttempt ∧
    session.billingEpoch = body.billingEpoch ∧ session.reservationId = body.reservationId ∧
    session.reservationExpiresAfterEpoch = body.reservationExpiresAfterEpoch ∧
    session.reservationReceiptGraceEpochs = body.reservationReceiptGraceEpochs ∧
    session.user = body.user ∧ session.rail = body.rail ∧ session.provider = body.provider ∧
    session.payoutRevision = body.payoutRevision ∧ session.enclaveId = body.enclaveId ∧
    session.enclavePubkey = receipt.enclavePubkey ∧ session.modelId = body.modelId ∧
    session.priceVer = body.priceVer ∧ session.billingPriorUsage = body.billingPriorUsage ∧
    session.billingPriorAuOwedCum = body.billingPriorAuOwedCum ∧
    session.lockedRateMap = body.lockedRateMap ∧ session.lockedPerReqAu = body.lockedPerReqAu ∧
    session.lockedMinSessionAu = body.lockedMinSessionAu ∧ session.servedCtx = body.servedCtx ∧
    session.ctxBracket = body.ctxBracket ∧ session.ctxBracketTableVer = body.ctxBracketTableVer ∧
    session.rulesVer = body.rulesVer ∧ session.workflow = body.workflow)

def ReceiptBody.reservationIdentity (body : ReceiptBody) : ReservationIdentity where
  billingId := body.billingId
  billingAttempt := body.billingAttempt
  billingEpoch := body.billingEpoch
  reservationExpiresAfterEpoch := body.reservationExpiresAfterEpoch
  reservationReceiptGraceEpochs := body.reservationReceiptGraceEpochs
  sessionId := body.sessionId
  user := body.user
  provider := body.provider
  rail := body.rail
  payoutRevision := body.payoutRevision

def ReceiptBody.attempt (body : ReceiptBody) : BillingAttempt :=
  (body.billingId, body.billingAttempt)

def validateHeadAdvance (receipts : Receipts) (existing : ReceiptHead) (body : ReceiptBody) :
    Except String Unit := do
  rejectIf ((receipts.consumed.get body.attempt).isSome)
    "A consumed canonical receipt head cannot advance."
  rejectIf (body.seq ≤ existing.receiptSeq)
    "Receipt sequence conflicts with the canonical high-water head."
  rejectIf (existing.receipt.body.final ∨ existing.settlementReady)
    "A finalized canonical receipt head cannot advance."
  rejectIf (existing.receipt.body.receiptAttemptTerms ≠ body.receiptAttemptTerms)
    "Higher receipt sequence changed immutable attempt terms."
  rejectIf (¬ receiptUsageIsMonotonic existing.receipt.body.usage body.usage ∨
    body.auOwedCum < existing.receipt.body.auOwedCum)
    "Higher receipt sequence is not monotonic."

def validateExistingHead (receipts : Receipts) (body : ReceiptBody) : Except String Unit :=
  match receipts.head.get body.attempt with
  | none => .ok ()
  | some existing => validateHeadAdvance receipts existing body

def receiptIncrementalAu (session : SpendSession) (body : ReceiptBody) : Except String Nat := do
  let message := "Receipt incremental amount is not positive or exceeds its session reservation."
  let incrementalAu ← (safeSubAu body.auOwedCum body.billingPriorAuOwedCum).mapError fun _ => message
  rejectIf (incrementalAu = 0 ∨ incrementalAu > session.maxSpendAu) message
  return incrementalAu

def validateBillingAnchor (receipts : Receipts) (body : ReceiptBody) : Except String Unit := do
  let anchor ← requireSome (receipts.billing.get body.billingId)
    "Receipt billing anchor is missing or inconsistent."
  rejectIf (anchor.user ≠ body.user ∨ anchor.rail ≠ body.rail ∨ anchor.epoch ≠ body.billingEpoch ∨
    anchor.latestAttempt < body.billingAttempt)
    "Receipt billing anchor is missing or inconsistent."
  rejectIf (anchor.latestAttempt > body.billingAttempt)
    "An older billing attempt cannot advance after a higher attempt exists."

structure RecordResult where
  epoch : Option Nat
  receiptHash : Digest
  idempotent : Bool

inductive RecordPlan where
  | repeated
  | advance (attempt : BillingAttempt) (head : ReceiptHead)
  | final (plan : ClosePlan) (reservation : ReservationRecord)

namespace Ledger

def validateRecord (crypto : Crypto) (s : Ledger) (key : Digest) (value : RecordReceiptValue) :
    Except String ReceiptEnvelope := do
  let normalized ← normalizeRecordUsageReceiptValue s.registry value
  rejectIf (key ≠ crypto.recordReceiptFeatureKey normalized)
    "Invalid record usage receipt feature key."
  rejectIf (¬ crypto.verifyRecordReceipt normalized.receipt.body.provider normalized)
    "Invalid record usage receipt provider signature."
  rejectIf (¬ crypto.verifyReceiptEnvelope normalized.receipt)
    "Invalid record usage receipt user or enclave signature."
  return normalized.receipt

def prepareReceipt (s : Ledger) (receipt : ReceiptEnvelope) :
    Except String (ReservationState × SpendSession × ReservationRecord × Nat) := do
  let body := receipt.body
  let state ← targetedSpendReservationState s.registry s.holds body.user body.rail
    body.reservationId body.sessionId
  let session ← requireSome state.session
    "Receipt does not match an exact targeted spend hold session."
  rejectIf (¬ session.matchesReceipt receipt)
    "Receipt terms do not match the targeted spend hold session."
  let incrementalAu ← receiptIncrementalAu session body
  validateBillingAnchor s.receipts body
  let reservation ← requireSome (s.receipts.reservation.get body.reservationId)
    "Receipt reservation identity is missing or inconsistent."
  rejectIf (reservation.identity ≠ body.reservationIdentity)
    "Receipt reservation identity is missing or inconsistent."
  rejectIf (reservation.status ≠ .active) "A closed targeted reservation cannot advance."
  return (state, session, reservation, incrementalAu)

def receiptHead (crypto : Crypto) (receipt : ReceiptEnvelope) (incrementalAu : Nat)
    (settled : Option (Nat × Nat)) : ReceiptHead where
  epoch := settled.map Prod.fst
  billingEpoch := receipt.body.billingEpoch
  settlementEpoch := settled.map Prod.fst
  indexPosition := settled.map Prod.snd
  settlementReady := settled.isSome
  user := receipt.body.user
  rail := receipt.body.rail
  provider := receipt.body.provider
  payoutRevision := receipt.body.payoutRevision
  sessionId := receipt.body.sessionId
  reservationId := receipt.body.reservationId
  receiptSeq := receipt.body.seq
  receiptHash := crypto.canonicalReceiptHash receipt
  incrementalAu := incrementalAu
  receipt := receipt

def prepareFinalReceipt (crypto : Crypto) (s : Ledger) (key : Digest) (receipt : ReceiptEnvelope)
    (state : ReservationState) (session : SpendSession) (reservation : ReservationRecord)
    (incrementalAu settlementEpoch : Nat) : Except String ClosePlan := do
  let body := receipt.body
  rejectIf (∃ head ∈ s.receipts.head.get body.attempt, head.indexPosition.isSome)
    "Non-final canonical receipt head was unexpectedly indexed."
  let append ← nextReceiptEpochIndex s.epochs s.receipts settlementEpoch body.attempt
  let head := receiptHead crypto receipt incrementalAu (some (settlementEpoch, append.position))
  rejectIf ((s.receipts.reservationClose.get body.reservationId).isSome)
    "Targeted reservation close record already exists."
  let closure ← prepareClosure state reservation (some head)
  let metadata ← append.nextMetadata key
  let record : ReservationClose :=
    ⟨some head.receiptSeq, some head.receiptHash, closure.retainedAu, closure.releasedAu,
      "final_receipt", body.provider, body.ts, none, none⟩
  return ⟨session, closure, record, some (head, append, metadata)⟩

def prepareNewReceipt (crypto : Crypto) (s : Ledger) (key : Digest) (receipt : ReceiptEnvelope) :
    Except String (RecordPlan × RecordResult) := do
  let body := receipt.body
  let receiptHash := crypto.canonicalReceiptHash receipt
  validateExistingHead s.receipts body
  let (state, session, reservation, incrementalAu) ← s.prepareReceipt receipt
  let settlementEpoch ← s.receiptSettlementEpoch
  rejectIf (body.billingEpoch > settlementEpoch) "Receipt billing epoch is in the future."
  if body.final then
    let plan ← s.prepareFinalReceipt crypto key receipt state session reservation incrementalAu
      settlementEpoch
    return (.final plan reservation, ⟨some settlementEpoch, receiptHash, false⟩)
  else
    return (.advance body.attempt (receiptHead crypto receipt incrementalAu none), ⟨none, receiptHash, false⟩)

def prepareRecord (crypto : Crypto) (s : Ledger) (key : Digest) (value : RecordReceiptValue) :
    Except String (RecordPlan × RecordResult) := do
  let receipt ← s.validateRecord crypto key value
  let receiptHash := crypto.canonicalReceiptHash receipt
  match (s.receipts.head.get receipt.body.attempt).filter fun head =>
      head.receiptHash = receiptHash ∧ head.receipt = receipt with
  | some head => return (.repeated, ⟨head.settlementEpoch, receiptHash, true⟩)
  | none => s.prepareNewReceipt crypto key receipt

def writeRecord (s : Ledger) : RecordPlan → Ledger
  | .repeated => s
  | .advance attempt head => { s with receipts := s.receipts.writeHead attempt head }
  | .final plan reservation => s.writeClosePlan plan reservation

def applyRecordUsageReceiptFeature (crypto : Crypto) (s : Ledger) (key : Digest)
    (value : RecordReceiptValue) : Outcome RecordResult :=
  match s.prepareRecord crypto key value with
  | .error message => (s, .error message)
  | .ok (plan, result) => (s.writeRecord plan, .ok result)

end Ledger

def normalizeCloseUsageReservationValue (value : CloseReservationValue) (expiry : Bool) :
    Except String CloseReservationValue := do
  rejectIf (value.contractVersion ≠ contractVersion ∨ ¬ isSafeInteger value.billingEpoch ∨
    value.billingEpoch < 1 ∨ ¬ isSafeInteger value.reservationExpiresAfterEpoch ∨
    value.reservationExpiresAfterEpoch ≤ value.billingEpoch ∨
    ¬ isSafeInteger value.reservationReceiptGraceEpochs ∨ ¬ isSafeInteger value.billingAttempt ∨
    ¬ isSafeInteger value.time ∨ ¬ isSafeKeyPart value.reason ∨
    value.actorRole ≠ (if expiry then .user else .provider))
    "Invalid close usage reservation feature."
  rejectIf (value.actor ≠ if expiry then value.user else value.provider)
    "Close usage reservation actor does not match its role."
  rejectIf (value.latestReceiptSeq.isSome ≠ value.latestReceiptHash.isSome ∨
    ∃ seq ∈ value.latestReceiptSeq, ¬ isSafeInteger seq)
    "Invalid close usage reservation receipt head."
  return value

def CloseReservationValue.reservationIdentity (value : CloseReservationValue) : ReservationIdentity where
  billingId := value.billingId
  billingAttempt := value.billingAttempt
  billingEpoch := value.billingEpoch
  reservationExpiresAfterEpoch := value.reservationExpiresAfterEpoch
  reservationReceiptGraceEpochs := value.reservationReceiptGraceEpochs
  sessionId := value.sessionId
  user := value.user
  provider := value.provider
  rail := value.rail
  payoutRevision := value.payoutRevision

def CloseReservationValue.attempt (value : CloseReservationValue) : BillingAttempt :=
  (value.billingId, value.billingAttempt)

def SpendSession.matchesClose (session : SpendSession) (value : CloseReservationValue) : Bool :=
  decide (session.billingId = value.billingId ∧ session.billingAttempt = value.billingAttempt ∧
    session.billingEpoch = value.billingEpoch ∧
    session.reservationExpiresAfterEpoch = value.reservationExpiresAfterEpoch ∧
    session.reservationReceiptGraceEpochs = value.reservationReceiptGraceEpochs ∧
    session.provider = value.provider ∧ session.payoutRevision = value.payoutRevision)

def validateCloseHead (receipts : Receipts) (value : CloseReservationValue) : Except String Unit :=
  match receipts.head.get value.attempt with
  | none => rejectIf (value.latestReceiptSeq.isSome ∨ value.latestReceiptHash.isSome)
      "Close usage reservation receipt head does not exist."
  | some head => do
    rejectIf (head.billingEpoch ≠ value.billingEpoch ∨ head.reservationId ≠ value.reservationId ∨
      head.sessionId ≠ value.sessionId ∨ head.user ≠ value.user ∨ head.rail ≠ value.rail ∨
      head.provider ≠ value.provider ∨ head.payoutRevision ≠ value.payoutRevision ∨
      some head.receiptSeq ≠ value.latestReceiptSeq ∨
      some head.receiptHash ≠ value.latestReceiptHash)
      "Close usage reservation does not match the canonical receipt head."
    rejectIf (head.settlementReady ∨ head.receipt.body.final ∨ (receipts.consumed.get value.attempt).isSome)
      "Finalized or consumed receipt evidence cannot be closed again."

structure CloseResult where
  settlementEpoch : Option Nat
  idempotent : Bool

namespace Ledger

def prepareCloseHead (s : Ledger) (key : Digest) (attempt : BillingAttempt) (settlementEpoch : Nat) :
    Except String (Option (ReceiptHead × IndexAppend × ReceiptEpochIndex)) :=
  match s.receipts.head.get attempt with
  | none => .ok none
  | some existing => do
    let append ← nextReceiptEpochIndex s.epochs s.receipts settlementEpoch attempt
    let metadata ← append.nextMetadata key
    return some ({ existing with
      epoch := some settlementEpoch
      settlementEpoch := some settlementEpoch
      indexPosition := some append.position
      settlementReady := true }, append, metadata)

def validateClose (crypto : Crypto) (key : Digest) (value : CloseReservationValue)
    (expiry : Bool) : Except String CloseReservationValue := do
  let normalized ← normalizeCloseUsageReservationValue value expiry
  rejectIf (key ≠ crypto.closeReservationFeatureKey expiry normalized)
    "Invalid close usage reservation feature key."
  rejectIf (¬ crypto.verifyCloseReservation expiry normalized.actor normalized)
    "Invalid close usage reservation signature."
  return normalized

def prepareCloseTarget (s : Ledger) (value : CloseReservationValue) :
    Except String (ReservationState × SpendSession × ReservationRecord) := do
  let reservation ← requireSome (s.receipts.reservation.get value.reservationId)
    "Close usage reservation does not match an active reservation."
  rejectIf (reservation.status ≠ .active ∨ reservation.identity ≠ value.reservationIdentity)
    "Close usage reservation does not match an active reservation."
  let state ← targetedSpendReservationState s.registry s.holds value.user value.rail
    value.reservationId value.sessionId
  let session ← requireSome state.session
    "Close usage reservation does not match its outstanding hold."
  rejectIf (¬ session.matchesClose value)
    "Close usage reservation does not match its outstanding hold."
  return (state, session, reservation)

def prepareClose (crypto : Crypto) (s : Ledger) (key : Digest) (value : CloseReservationValue)
    (expiry : Bool) : Except String (Option (ClosePlan × ReservationRecord) × CloseResult) := do
  let value ← validateClose crypto key value expiry
  match s.receipts.reservationClose.get value.reservationId with
  | some existing =>
    rejectIf (existing.featureKey ≠ some key)
      "Targeted reservation close conflicts with its canonical close."
    return (none, ⟨existing.settlementEpoch, true⟩)
  | none =>
    let (state, session, reservation) ← s.prepareCloseTarget value
    validateCloseHead s.receipts value
    let settlementEpoch ← s.receiptSettlementEpoch
    rejectIf (value.billingEpoch > settlementEpoch)
      "Close usage reservation billing epoch is in the future."
    let graceEnd := value.reservationExpiresAfterEpoch + value.reservationReceiptGraceEpochs
    rejectIf (expiry ∧ (¬ isSafeInteger graceEnd ∨ s.applyState.updatedEpoch < graceEnd))
      "Buyer reservation close is not yet past canonical expiry and receipt grace."
    let head ← s.prepareCloseHead key value.attempt settlementEpoch
    let closure ← prepareClosure state reservation (head.map Prod.fst)
    let settled := head.map fun _ => settlementEpoch
    let record : ReservationClose :=
      ⟨head.map fun entry => entry.1.receiptSeq, head.map fun entry => entry.1.receiptHash,
        closure.retainedAu, closure.releasedAu, value.reason, value.actor, value.time, settled,
        some key⟩
    return (some (⟨session, closure, record, head⟩, reservation), ⟨settled, false⟩)

def applyCloseUsageReservationFeature (crypto : Crypto) (s : Ledger) (key : Digest)
    (value : CloseReservationValue) (expiry : Bool) : Outcome CloseResult :=
  match s.prepareClose crypto key value expiry with
  | .error message => (s, .error message)
  | .ok (none, result) => (s, .ok result)
  | .ok (some (plan, reservation), result) => (s.writeClosePlan plan reservation, .ok result)

end Ledger

end Mayhem
