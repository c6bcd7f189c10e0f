import Mayhem.Market

namespace Mayhem

def validateSpecialitySelection (value : List (String × String)) (label : String) : Except String Unit := do
  rejectIf (value.length > 16) (label ++ " must contain between 0 and 16 specialities.")
  value.forM fun entry => do
    rejectIf (¬ isSafeKeyPart entry.1) (label ++ " contains an invalid speciality name.")
    rejectIf (¬ isSafeKeyPart entry.2) (label ++ " " ++ entry.1 ++ " contains an invalid level.")

def validateSpecialityLevelMap (value : List (String × List String)) (label : String) : Except String Unit := do
  rejectIf (value.length > 16) (label ++ " must contain between 0 and 16 specialities.")
  value.forM fun entry => do
    rejectIf (¬ isSafeKeyPart entry.1)
      (label ++ " contains invalid speciality " ++ entry.1 ++ ".")
    rejectIf (entry.2.length = 0 ∨ entry.2.length > 16)
      (label ++ " " ++ entry.1 ++ " must contain between 1 and 16 levels.")
    let _ ← entry.2.foldlM (fun seen level => do
      rejectIf (¬ isSafeKeyPart level) (label ++ " " ++ entry.1 ++ " contains an invalid level.")
      rejectIf (level ∈ seen)
        (label ++ " " ++ entry.1 ++ " contains duplicate level " ++ level ++ ".")
      return level :: seen) []
    return ()

def validateCanonicalWorkflow (source : Option Workflow) (lockedRateMap : List RateEntry)
    (label message : String) : Except String Unit :=
  match source with
  | none => .ok ()
  | some source => do
    let workflow ← normalizeWorkflowBinding source label lockedRateMap
    rejectIf (workflow ≠ source) message

def normalizeSpendVoucherForReserve (reg : Registry) (voucher : SpendVoucher) : Except String SpendVoucher := do
  rejectIf (voucher.schemaVersion ≠ spendVoucherSchemaVersion)
    "Unsupported spend voucher schema version."
  rejectIf (¬ isSafeInteger voucher.billingAttempt) "Invalid spend voucher billing attempt."
  rejectIf (¬ isSafeInteger voucher.billingEpoch ∨ voucher.billingEpoch < 1)
    "Invalid spend voucher billing epoch."
  rejectIf (¬ isSafeInteger voucher.reservationExpiresAfterEpoch ∨
    voucher.reservationExpiresAfterEpoch ≤ voucher.billingEpoch ∨
    ¬ isSafeInteger voucher.reservationReceiptGraceEpochs)
    "Invalid spend voucher reservation expiry policy."
  let billingPriorUsage ← normalizeReceiptUsage voucher.billingPriorUsage
  rejectIf (billingPriorUsage ≠ voucher.billingPriorUsage)
    "Spend voucher billing prior usage must be canonical."
  rejectIf (voucher.billingAttempt = 0 ∧ (billingPriorUsage.length > 0 ∨ voucher.billingPriorAuOwedCum ≠ 0))
    "Initial spend voucher billing attempt must have an empty baseline."
  rejectIf (voucher.billingPriorAuOwedCum = 0 ∧ billingPriorUsage.length > 0)
    "Spend voucher billing prior usage requires a prior cumulative amount."
  rejectIf (voucher.modelId.length = 0 ∨ voucher.modelId.length > 256)
    "Invalid spend voucher model id."
  rejectIf (¬ isSafeInteger voucher.priceVer ∨ voucher.priceVer < 1)
    "Invalid spend voucher price version."
  rejectIf (¬ isSafeInteger voucher.rulesVer ∨ voucher.rulesVer < 1)
    "Invalid spend voucher rules version."
  let lockedRateMap ← normalizeLockedRateMap voucher.lockedRateMap "spend voucher locked_rate_map"
  rejectIf (¬ isSafeInteger voucher.servedCtx) "Invalid spend voucher served context."
  validateModalitySet voucher.requiredModalities "spend voucher required_modalities"
  validateSpecialitySelection voucher.requiredSpecialities "spend voucher required_specialities"
  validateCanonicalWorkflow voucher.workflow lockedRateMap "spend voucher workflow"
    "Spend voucher workflow must be canonical."
  reg.checkCtxBracket voucher.enclaveId voucher.servedCtx voucher.ctxBracket
    voucher.ctxBracketTableVer "spend voucher"
  rejectIf (voucher.maxSpendAu = 0) "Invalid spend voucher max spend."
  rejectIf (¬ isSafeInteger voucher.checkpointTokens ∨ voucher.checkpointTokens < 1)
    "Invalid spend voucher checkpoint tokens."
  rejectIf (¬ isSafeInteger voucher.checkpointMs ∨ voucher.checkpointMs < 1)
    "Invalid spend voucher checkpoint milliseconds."
  return { voucher with lockedRateMap := lockedRateMap }

def validateReserveVoucher (value : SpendReserveValue) (voucher : SpendVoucher) : Except String Unit := do
  rejectIf (voucher.sessionId ≠ value.sessionId) "Spend reservation voucher session mismatch."
  rejectIf (voucher.reservationId ≠ value.reservationId)
    "Spend reservation voucher reservation mismatch."
  rejectIf (voucher.reservationExpiresAfterEpoch ≠ value.reservationExpiresAfterEpoch ∨
    voucher.reservationReceiptGraceEpochs ≠ value.reservationReceiptGraceEpochs)
    "Spend reservation voucher expiry policy mismatch."
  rejectIf (voucher.billingEpoch ≠ value.epoch) "Spend reservation voucher billing epoch mismatch."
  rejectIf (voucher.user ≠ value.user) "Spend reservation voucher user mismatch."
  rejectIf (voucher.provider ≠ value.provider) "Spend reservation voucher provider mismatch."
  rejectIf (voucher.payoutRevision ≠ value.payoutRevision)
    "Spend reservation voucher payout revision mismatch."
  rejectIf (voucher.rail ≠ value.rail) "Spend reservation voucher rail mismatch."
  rejectIf (voucher.enclaveId ≠ value.enclaveId) "Spend reservation voucher enclave mismatch."
  rejectIf (voucher.modelId ≠ value.modelId) "Spend reservation voucher model mismatch."
  rejectIf (voucher.priceVer ≠ value.priceVer) "Spend reservation voucher price mismatch."
  rejectIf (voucher.servedCtx ≠ value.servedCtx) "Spend reservation voucher served context mismatch."
  rejectIf (voucher.requiredModalities ≠ value.requiredModalities)
    "Spend reservation voucher required modalities mismatch."
  rejectIf (voucher.requiredSpecialities ≠ value.requiredSpecialities)
    "Spend reservation voucher required specialities mismatch."
  validateCanonicalWorkflow value.workflow voucher.lockedRateMap "spend reservation workflow"
    "Spend reservation workflow must be canonical."
  rejectIf (voucher.workflow ≠ value.workflow) "Spend reservation voucher workflow mismatch."
  rejectIf (voucher.ctxBracket ≠ value.ctxBracket)
    "Spend reservation voucher context bracket mismatch."
  rejectIf (voucher.ctxBracketTableVer ≠ value.ctxBracketTableVer)
    "Spend reservation voucher context bracket table version mismatch."
  rejectIf (voucher.rulesVer ≠ value.rulesVer) "Spend reservation voucher rules version mismatch."
  rejectIf (voucher.maxSpendAu ≠ value.maxSpendAu) "Spend reservation voucher max spend mismatch."

def normalizeTargetedSpendReserveValue (reg : Registry) (value : SpendReserveValue) :
    Except String SpendReserveValue := do
  rejectIf (value.contractVersion ≠ contractVersion) "Invalid spend reservation contract version."
  rejectIf (¬ isSafeInteger value.reservationExpiresAfterEpoch ∨
    value.reservationExpiresAfterEpoch ≤ value.epoch ∨
    ¬ isSafeInteger value.reservationReceiptGraceEpochs)
    "Invalid spend reservation expiry policy."
  rejectIf (¬ isSafeInteger value.epoch ∨ value.epoch < 1) "Invalid spend reservation epoch."
  rejectIf (¬ isSafeInteger value.time) "Invalid spend reservation timestamp."
  rejectIf (value.modelId.length = 0 ∨ value.modelId.length > 256)
    "Invalid spend reservation model id."
  rejectIf (¬ isSafeInteger value.priceVer ∨ value.priceVer < 1)
    "Invalid spend reservation price version."
  rejectIf (¬ isSafeInteger value.rulesVer ∨ value.rulesVer < 1)
    "Invalid spend reservation rules version."
  rejectIf (¬ isSafeInteger value.servedCtx) "Invalid spend reservation served context."
  validateModalitySet value.requiredModalities "spend reservation required_modalities"
  validateSpecialitySelection value.requiredSpecialities "spend reservation required_specialities"
  let activeTable := value.ctxBracketTableVer.map fun _ => reg.ctxBracketTableAt value.time
  rejectIf (∃ ver ∈ activeTable.map CtxBracketTable.ver, value.ctxBracketTableVer ≠ some ver)
    "Spend reservation context bracket table is not active."
  reg.normalizeCtxBracketEvidenceForEnclave value.enclaveId value.servedCtx value.ctxBracket
    value.ctxBracketTableVer activeTable "spend reservation"
  rejectIf (value.maxSpendAu = 0) "Invalid spend reservation max spend."
  let voucher ← normalizeSpendVoucherForReserve reg value.voucher
  validateReserveVoucher value voucher
  let param := reg.activeParamAt value.time
  rejectIf (¬ isSafeInteger (value.epoch + param .reservationMaxLifetimeEpochs) ∨
    value.reservationExpiresAfterEpoch ≠ value.epoch + param .reservationMaxLifetimeEpochs ∨
    value.reservationReceiptGraceEpochs ≠ param .reservationReceiptGraceEpochs)
    "Spend reservation expiry policy does not match active parameters."
  return { value with voucher := voucher }

def validateSpendSession (reg : Registry) (user : PublicKey) (rail : Rail)
    (session : SpendSession) : Except String Unit := do
  rejectIf (¬ isSafeInteger session.billingAttempt) "Invalid spend hold billing attempt."
  rejectIf (¬ isSafeInteger session.billingEpoch ∨ session.billingEpoch < 1)
    "Invalid spend hold billing epoch."
  rejectIf (¬ isSafeInteger session.reservationExpiresAfterEpoch ∨
    session.reservationExpiresAfterEpoch ≤ session.billingEpoch ∨
    ¬ isSafeInteger session.reservationReceiptGraceEpochs)
    "Invalid spend hold reservation expiry policy."
  rejectIf (session.user ≠ user ∨ session.rail ≠ rail) "Spend hold session user or rail mismatch."
  rejectIf (session.modelId.length = 0 ∨ session.modelId.length > 256)
    "Invalid spend hold model id."
  let billingPriorUsage ← (normalizeReceiptUsage session.billingPriorUsage).mapError
    fun _ => "Invalid spend hold billing prior usage."
  rejectIf (billingPriorUsage ≠ session.billingPriorUsage) "Invalid spend hold billing prior usage."
  rejectIf (¬ isSafeInteger session.priceVer ∨ session.priceVer < 1)
    "Invalid spend hold price version."
  rejectIf (¬ isSafeInteger session.rulesVer ∨ session.rulesVer < 1)
    "Invalid spend hold rules version."
  let lockedRateMap ← normalizeLockedRateMap session.lockedRateMap "spend hold locked_rate_map"
  rejectIf (lockedRateMap ≠ session.lockedRateMap) "Spend hold locked_rate_map must be canonical."
  rejectIf (¬ isSafeInteger session.servedCtx) "Invalid spend hold served context."
  validateModalitySet session.requiredModalities "spend hold required_modalities"
  validateSpecialitySelection session.requiredSpecialities "spend hold required_specialities"
  validateCanonicalWorkflow session.workflow lockedRateMap "spend hold workflow"
    "Spend hold workflow must be canonical."
  reg.checkCtxBracket session.enclaveId session.servedCtx session.ctxBracket
    session.ctxBracketTableVer "spend hold"
  rejectIf (session.maxSpendAu = 0) "Invalid spend hold max spend."

def emptySpendHold : SpendHold := ⟨0, []⟩

def normalizeTargetedSpendHoldRecord (reg : Registry) (record : Option SpendHold)
    (user : PublicKey) (rail : Rail) : Except String SpendHold :=
  match record with
  | none => .ok emptySpendHold
  | some hold => do
    hold.sessions.forM (validateSpendSession reg user rail)
    rejectIf ((hold.sessions.map SpendSession.maxSpendAu).sum ≠ hold.reservedAu)
      "Targeted spend hold reserved amount does not equal its sessions."
    return hold

def normalizeTargetedSpendSessionRecord (reg : Registry) (record : Option SpendSession)
    (user : PublicKey) (rail : Rail) (reservationId : Digest) : Except String (Option SpendSession) :=
  match record with
  | none => .ok none
  | some session => do
    validateSpendSession reg user rail session
    rejectIf (session.reservationId ≠ reservationId) "Targeted spend session key mismatch."
    return some session

def Holds.targetedSpendSummary (holds : Holds) (user : PublicKey) (rail : Rail) : SpendSummary :=
  (holds.summary.get (user, rail)).getD ⟨0, none⟩

def Holds.targetedSpendLegacyRelease (holds : Holds) (user : PublicKey) (rail : Rail) : Nat :=
  (holds.legacyRelease.get (user, rail)).getD 0

structure SpendAccounting where
  hold : SpendHold
  summary : SpendSummary
  legacyReservedAu : Nat
  totalReservedAu : Nat

def targetedSpendAccountingState (reg : Registry) (holds : Holds) (user : PublicKey)
    (rail : Rail) : Except String SpendAccounting := do
  let hold ← normalizeTargetedSpendHoldRecord reg (holds.hold.get (user, rail)) user rail
  let summary := holds.targetedSpendSummary user rail
  let legacyReservedAu ←
    (safeSubAu hold.reservedAu (holds.targetedSpendLegacyRelease user rail)).mapError
      fun _ => "Targeted spend legacy release exceeds outstanding holds."
  return ⟨hold, summary, legacyReservedAu, legacyReservedAu + summary.reservedAu⟩

inductive ReservationState where
  | sharded (summary : SpendSummary) (session : SpendSession)
  | legacyOverlay (hold : SpendHold) (release : Nat) (session : SpendSession)
  | legacy (hold : SpendHold) (release : Nat) (session : SpendSession)
  | missing (hold : SpendHold)

def ReservationState.session : ReservationState → Option SpendSession
  | sharded _ session => some session
  | legacyOverlay _ _ session => some session
  | legacy _ _ session => some session
  | missing _ => none

def targetedSpendReservationState (reg : Registry) (holds : Holds) (user : PublicKey) (rail : Rail)
    (reservationId sessionId : Digest) : Except String ReservationState := do
  let sessionRecord ← normalizeTargetedSpendSessionRecord reg
    (holds.session.get (user, rail, reservationId)) user rail reservationId
  match sessionRecord with
  | some session =>
    rejectIf (session.sessionId ≠ sessionId)
      "Targeted spend session id does not match reservation key."
    return .sharded (holds.targetedSpendSummary user rail) session
  | none =>
    let hold ← normalizeTargetedSpendHoldRecord reg (holds.hold.get (user, rail)) user rail
    match hold.sessions.find? fun entry =>
        entry.sessionId = sessionId ∧ entry.reservationId = reservationId with
    | none => return .missing hold
    | some session =>
      let overlay ← normalizeTargetedSpendSessionRecord reg
        (holds.legacySession.get (user, rail, reservationId)) user rail reservationId
      let release := holds.targetedSpendLegacyRelease user rail
      match overlay with
      | some overlay =>
        rejectIf (overlay.sessionId ≠ sessionId)
          "Targeted spend legacy session id does not match reservation key."
        return .legacyOverlay hold release overlay
      | none => return .legacy hold release session

def billingReservationIdentity (value : SpendReserveValue) : ReservationIdentity where
  billingId := value.voucher.billingId
  billingAttempt := value.voucher.billingAttempt
  billingEpoch := value.epoch
  reservationExpiresAfterEpoch := value.reservationExpiresAfterEpoch
  reservationReceiptGraceEpochs := value.reservationReceiptGraceEpochs
  sessionId := value.sessionId
  user := value.user
  provider := value.provider
  rail := value.rail
  payoutRevision := value.payoutRevision

def validateExistingBillingReservation (receipts : Receipts) (value : SpendReserveValue) :
    Except String Unit := do
  let identity := billingReservationIdentity value
  let anchor ← requireSome (receipts.billing.get identity.billingId)
    "Billing reservation anchor is missing or inconsistent."
  rejectIf (anchor.user ≠ identity.user ∨ anchor.rail ≠ identity.rail ∨
    anchor.epoch ≠ identity.billingEpoch ∨ ¬ isSafeInteger anchor.latestAttempt ∨
    anchor.latestAttempt < identity.billingAttempt)
    "Billing reservation anchor is missing or inconsistent."
  let reservation ← requireSome (receipts.reservation.get value.voucher.reservationId)
    "Reservation identity is missing or inconsistent."
  rejectIf (reservation.status ≠ .active ∨ reservation.identity ≠ identity)
    "Reservation identity is missing or inconsistent."

def activeLegacyReservation (receipts : Receipts) (hold : SpendHold) (attempt : BillingAttempt) : Bool :=
  hold.sessions.any fun session => (session.billingId, session.billingAttempt) = attempt ∧
    (receipts.reservation.get session.reservationId).all fun reservation =>
      reservation.status = .active

def nextBillingAnchor (reg : Registry) (holds : Holds) (receipts : Receipts)
    (value : SpendReserveValue) : Except String BillingAnchor := do
  let identity := billingReservationIdentity value
  match receipts.billing.get identity.billingId with
  | none =>
    rejectIf (identity.billingAttempt ≠ 0) "Initial billing reservation attempt must be zero."
    return ⟨identity.user, identity.rail, identity.billingEpoch, 0⟩
  | some anchor =>
    rejectIf (anchor.user ≠ identity.user ∨ anchor.rail ≠ identity.rail ∨
      anchor.epoch ≠ identity.billingEpoch ∨ ¬ isSafeInteger anchor.latestAttempt)
      "Billing id cannot move across user, rail, or epoch."
    if identity.billingAttempt = anchor.latestAttempt then
      rejectIf ((receipts.head.get (identity.billingId, identity.billingAttempt)).isSome)
        "Billing attempt must advance exactly once."
      let hold ← normalizeTargetedSpendHoldRecord reg
        (holds.hold.get (identity.user, identity.rail)) identity.user identity.rail
      rejectIf (activeLegacyReservation receipts hold
          (identity.billingId, identity.billingAttempt) ∨
        (holds.billingAttempt.get
          (identity.user, identity.rail, identity.billingId, identity.billingAttempt)).isSome)
        "Billing attempt already has an active reservation."
      return anchor
    else
      rejectIf (identity.billingAttempt ≠ anchor.latestAttempt + 1)
        "Billing attempt must advance exactly once."
      let priorHead ← requireSome (receipts.head.get (identity.billingId, anchor.latestAttempt))
        "Higher billing attempt requires the prior canonical receipt head."
      rejectIf (value.voucher.billingPriorUsage ≠ priorHead.receipt.body.usage ∨
        value.voucher.billingPriorAuOwedCum ≠ priorHead.receipt.body.auOwedCum)
        "Higher billing attempt does not exactly chain from the prior attempt."
      return { anchor with latestAttempt := identity.billingAttempt }

def prepareBillingReservation (reg : Registry) (holds : Holds) (receipts : Receipts)
    (value : SpendReserveValue) : Except String (BillingAnchor × ReservationRecord) := do
  let anchor ← nextBillingAnchor reg holds receipts value
  rejectIf ((receipts.reservation.get value.voucher.reservationId).isSome)
    "Reservation id is already in use."
  return (anchor, ⟨billingReservationIdentity value, .active⟩)

def Registry.validateCommittedServeTerms (serve : ServeRecord) (value : SpendReserveValue) :
    Except String Unit := do
  rejectIf (¬ isSafeInteger serve.servedCtx)
    "Provider serve record is missing committed context terms."
  rejectIf (serve.servedCtx ≠ value.servedCtx)
    "Spend reservation served context does not match provider committed context."
  validateModalitySet serve.servedModalities "provider committed served_modalities"
  validateModalitySet value.requiredModalities "spend reservation required_modalities"
  rejectIf (∃ modality ∈ value.requiredModalities, modality ∉ serve.servedModalities)
    "Provider committed modalities do not cover the spend reservation."
  validateSpecialityLevelMap serve.servedSpecialities "provider committed served_specialities"
  validateSpecialitySelection value.requiredSpecialities "spend reservation required_specialities"
  rejectIf (serve.servedSpecialities.map Prod.fst ≠ value.requiredSpecialities.map Prod.fst)
    "Spend reservation must bind every provider committed speciality."
  rejectIf (∃ entry ∈ value.requiredSpecialities, entry.2 ∉ (serve.servedSpecialities.lookup entry.1).getD [])
    "Provider committed specialities do not cover the spend reservation."
  rejectIf (serve.ctxBracket ≠ value.ctxBracket)
    "Spend reservation context bracket does not match provider committed context."
  rejectIf (serve.ctxBracketTableVer ≠ value.ctxBracketTableVer)
    "Spend reservation context bracket table does not match provider committed context."

def requireCurrentAdminPrice (reg : Registry) (market : Market) (enclaveId : Digest)
    (ctxBracket : Option String) : Except String Unit := do
  let resolved ← match ctxBracket, reg.enclaves.get enclaveId with
    | some bracket, _ => pure (some bracket)
    | none, some enclave =>
      if Registry.enclaveUsesCtxPrice enclave then
        some <$> reg.defaultPriceCtxBracketForEnclave enclave 0
      else pure none
    | none, none => pure none
  let current ← requireSome (market.priceSchedule (enclaveId, resolved)).current
    "Current admin price required before provider serving."
  rejectIf (current.enclaveId ≠ enclaveId)
    "Provider serving requires a current admin-set enclave price."
  rejectIf (current.ctxBracket ≠ resolved)
    "Provider serving requires a current admin-set enclave price for the context bracket."
  let admin ← requireSome reg.admin "Provider serving requires a current admin key."
  rejectIf (current.setBy ≠ admin)
    "Provider serving requires a current price set by the current admin."
  rejectIf (current.setByRole ≠ .admin)
    "Provider serving requires a current admin-set enclave price."

def validateLockedPrice (market : Market) (value : SpendReserveValue) : Except String Unit := do
  let lockedPrice ← requireSome
    (market.record.get ((value.enclaveId, value.ctxBracket), value.priceVer))
    "Spend reservation locked price version is not known."
  rejectIf (lockedPrice.setByRole ≠ .admin) "Spend reservation locked price is not admin-set."
  rejectIf (lockedPrice.ctxBracket ≠ value.ctxBracket)
    "Spend reservation locked price context bracket mismatch."
  rejectIf (lockedPrice.ctxBracketTableVer ≠ value.ctxBracketTableVer)
    "Spend reservation locked price context bracket table mismatch."
  rejectIf (value.voucher.lockedRateMap ≠ lockedPrice.terms.rateMap)
    "Spend reservation locked rate_map does not match price version."
  rejectIf (value.voucher.lockedPerReqAu ≠ lockedPrice.terms.perReqAu)
    "Spend reservation locked per_req_au does not match price version."
  rejectIf (value.voucher.lockedMinSessionAu ≠ lockedPrice.terms.minSessionAu)
    "Spend reservation locked min_session_au does not match price version."

def validateReserveMarket (reg : Registry) (market : Market) (value : SpendReserveValue) :
    Except String Unit := do
  let provider ← requireSome (reg.providers.get value.provider) "Provider registration required."
  rejectIf (provider.status ≠ .active) "Provider registration required."
  rejectIf (value.rail ∉ provider.acceptedRails) "Provider does not accept payment rail."
  let enclave ← requireSome (reg.enclaves.get value.enclaveId) "Admin enclave is not active."
  rejectIf (enclave.status ≠ .active) "Admin enclave is not active."
  rejectIf (enclave.createdByRole ≠ .admin)
    "Canonical serving requires an admin-created enclave."
  rejectIf (enclave.modelId ≠ value.modelId)
    "Spend reservation model does not match admin enclave."
  let serve ← requireSome (reg.serves.get (value.provider, value.enclaveId))
    "Provider is not actively serving this admin enclave."
  rejectIf (serve.status ≠ .active) "Provider is not actively serving this admin enclave."
  Registry.validateCommittedServeTerms serve value
  requireCurrentAdminPrice reg market value.enclaveId value.ctxBracket
  validateLockedPrice market value
  rejectIf (reg.rules.map RulesRecord.ver ≠ some value.rulesVer)
    "Spend reservation rules version is not current."

def spendSession (crypto : Crypto) (value : SpendReserveValue) : SpendSession where
  sessionId := value.sessionId
  billingId := value.voucher.billingId
  billingAttempt := value.voucher.billingAttempt
  billingPriorUsage := value.voucher.billingPriorUsage
  billingPriorAuOwedCum := value.voucher.billingPriorAuOwedCum
  billingEpoch := value.epoch
  reservationId := value.voucher.reservationId
  reservationExpiresAfterEpoch := value.reservationExpiresAfterEpoch
  reservationReceiptGraceEpochs := value.reservationReceiptGraceEpochs
  user := value.user
  rail := value.rail
  provider := value.provider
  payoutRevision := value.payoutRevision
  enclaveId := value.enclaveId
  enclavePubkey := value.enclavePubkey
  modelId := value.modelId
  priceVer := value.priceVer
  lockedRateMap := value.voucher.lockedRateMap
  lockedPerReqAu := value.voucher.lockedPerReqAu
  lockedMinSessionAu := value.voucher.lockedMinSessionAu
  servedCtx := value.servedCtx
  requiredModalities := value.requiredModalities
  requiredSpecialities := value.requiredSpecialities
  workflow := value.workflow
  ctxBracket := value.ctxBracket
  ctxBracketTableVer := value.ctxBracketTableVer
  rulesVer := value.rulesVer
  maxSpendAu := value.maxSpendAu
  voucherHash := crypto.voucherHash value.voucher
  settlementReady := false

def SpendSession.sameTerms (a b : SpendSession) : Bool :=
  decide (a.billingId = b.billingId ∧ a.billingAttempt = b.billingAttempt ∧
    a.billingEpoch = b.billingEpoch ∧ a.reservationId = b.reservationId ∧
    a.reservationExpiresAfterEpoch = b.reservationExpiresAfterEpoch ∧
    a.reservationReceiptGraceEpochs = b.reservationReceiptGraceEpochs ∧ a.user = b.user ∧
    a.rail = b.rail ∧ a.provider = b.provider ∧ a.payoutRevision = b.payoutRevision ∧
    a.enclaveId = b.enclaveId ∧ a.enclavePubkey = b.enclavePubkey ∧ a.modelId = b.modelId ∧
    a.priceVer = b.priceVer ∧ a.billingPriorUsage = b.billingPriorUsage ∧
    a.billingPriorAuOwedCum = b.billingPriorAuOwedCum ∧ a.lockedRateMap = b.lockedRateMap ∧
    a.lockedPerReqAu = b.lockedPerReqAu ∧ a.lockedMinSessionAu = b.lockedMinSessionAu ∧
    a.servedCtx = b.servedCtx ∧ a.requiredModalities = b.requiredModalities ∧
    a.requiredSpecialities = b.requiredSpecialities ∧ a.workflow = b.workflow ∧
    a.ctxBracket = b.ctxBracket ∧ a.ctxBracketTableVer = b.ctxBracketTableVer ∧
    a.rulesVer = b.rulesVer ∧ a.maxSpendAu = b.maxSpendAu ∧ a.voucherHash = b.voucherHash)

structure ReserveResult where
  reservedAu : Nat
  availableAu : Nat
  idempotent : Bool

structure ReservePlan where
  session : SpendSession
  summary : SpendSummary
  anchor : BillingAnchor
  reservation : ReservationRecord
  balanceAu : Nat
  totalReservedAu : Nat

def ReservePlan.result (plan : ReservePlan) : Except String ReserveResult := do
  let availableAu ← safeSubAu plan.balanceAu plan.totalReservedAu
  return ⟨plan.totalReservedAu, availableAu, false⟩

def SpendSession.reservationIndex (session : SpendSession) : ReservationIndex :=
  ⟨session.sessionId, session.billingId, session.billingAttempt, session.reservationId⟩

def Ledger.writeReservation (s : Ledger) (plan : ReservePlan) : Ledger :=
  let session := plan.session
  let account := (session.user, session.rail)
  { s with
    holds := { s.holds with
      summary := s.holds.summary.put account plan.summary
      session := s.holds.session.put (session.user, session.rail, session.reservationId) session
      sessionIndex := s.holds.sessionIndex.put (session.user, session.rail, session.sessionId)
        session.reservationIndex
      billingAttempt := s.holds.billingAttempt.put
        (session.user, session.rail, session.billingId, session.billingAttempt)
        session.reservationIndex }
    receipts := { s.receipts with
      billing := s.receipts.billing.put session.billingId plan.anchor
      reservation := s.receipts.reservation.put session.reservationId plan.reservation } }

namespace Ledger

def applyState (s : Ledger) : ApplyState :=
  s.epochs.applyState.getD ⟨0, none, none, none, none, none, none, none, 0, none, none, none⟩

def activeBillingEpoch (s : Ledger) : Nat :=
  s.applyState.pendingEpoch.getD s.applyState.updatedEpoch + 1

def validateReserve (crypto : Crypto) (s : Ledger) (key : Digest) (value : SpendReserveValue) :
    Except String SpendReserveValue := do
  let normalized ← normalizeTargetedSpendReserveValue s.registry value
  let _ ← s.registry.providerPayoutBindingForEpoch normalized.provider normalized.rail
    normalized.payoutRevision normalized.epoch true
  rejectIf (key ≠ crypto.spendReserveFeatureKey normalized)
    "Invalid targeted spend reservation key."
  rejectIf (¬ crypto.verifySpendVoucher normalized.user normalized.voucher normalized.userSig)
    "Invalid spend voucher signature."
  rejectIf (¬ crypto.verifySpendReserve normalized.provider normalized)
    "Invalid targeted spend reservation provider signature."
  rejectIf (normalized.epoch ≠ s.activeBillingEpoch)
    "Spend reservation epoch is not the active billing epoch."
  validateReserveMarket s.registry s.market normalized
  return normalized

def validateReserveIndexes (holds : Holds) (value : SpendReserveValue) : Except String Unit := do
  rejectIf (∃ index ∈ holds.sessionIndex.get (value.user, value.rail, value.sessionId),
    index.sessionId ≠ value.sessionId) "Targeted spend reservation index is invalid."
  rejectIf (∃ index ∈ holds.billingAttempt.get
      (value.user, value.rail, value.voucher.billingId, value.voucher.billingAttempt),
    index.billingId ≠ value.voucher.billingId ∨
    index.billingAttempt ≠ value.voucher.billingAttempt)
    "Targeted spend reservation index is invalid."
  rejectIf (∃ index ∈ holds.sessionIndex.get (value.user, value.rail, value.sessionId),
    index.reservationId ≠ value.reservationId)
    "Targeted spend reservation session already exists with different terms."
  rejectIf (∃ index ∈ holds.billingAttempt.get
      (value.user, value.rail, value.voucher.billingId, value.voucher.billingAttempt),
    index.reservationId ≠ value.reservationId)
    "Billing attempt already has an active reservation."

def prepareReserve (crypto : Crypto) (s : Ledger) (key : Digest) (value : SpendReserveValue) :
    Except String (ReserveResult ⊕ ReservePlan) := do
  let value ← s.validateReserve crypto key value
  let balance ← s.balanceRecord value.user value.rail
  guardianValidateBalanceRecord balance value.rail
  let accounting ← targetedSpendAccountingState s.registry s.holds value.user value.rail
  let state ← targetedSpendReservationState s.registry s.holds value.user value.rail
    value.reservationId value.sessionId
  validateReserveIndexes s.holds value
  let legacySessionById := accounting.hold.sessions.find?
    fun session => session.sessionId = value.sessionId
  let session := spendSession crypto value
  match state.session.or legacySessionById with
  | some existing =>
    rejectIf (¬ existing.sameTerms session)
      "Targeted spend reservation session already exists with different terms."
    validateExistingBillingReservation s.receipts value
    return .inl ⟨accounting.totalReservedAu, balance.au - accounting.totalReservedAu, true⟩
  | none =>
    let (anchor, reservation) ← prepareBillingReservation s.registry s.holds s.receipts value
    let reservedAu := accounting.summary.reservedAu + value.maxSpendAu
    let totalReservedAu := accounting.legacyReservedAu + reservedAu
    rejectIf (totalReservedAu > balance.au) "Insufficient unreserved credit balance."
    return .inr
      ⟨session, ⟨reservedAu, some balance.au⟩, anchor, reservation, balance.au, totalReservedAu⟩

def applyTargetedSpendReserveFeature (crypto : Crypto) (s : Ledger) (key : Digest)
    (value : SpendReserveValue) : Outcome ReserveResult :=
  match s.prepareReserve crypto key value with
  | .error message => (s, .error message)
  | .ok (.inl result) => (s, .ok result)
  | .ok (.inr plan) => (s.writeReservation plan, plan.result)

end Ledger

end Mayhem
