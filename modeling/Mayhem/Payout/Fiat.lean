import Mayhem.Payout.Settle

namespace Mayhem

def isFormatChar (c : Char) : Bool :=
  'a' ≤ c && c ≤ 'z' || 'A' ≤ c && c ≤ 'Z' || '0' ≤ c && c ≤ '9' || c == '.' || c == '_' || c == '-'

def hasLead (lead s : String) : Bool :=
  lead.toList.isPrefixOf s.toList && decide (lead.length < s.length) &&
    (s.toList.drop lead.length).all isFormatChar

def isFxQuoteId (s : String) : Bool := hasLead "fxq_" s

def isDestinationPayment (s : String) : Bool := hasLead "py_" s

def isTransferGroup (s : String) : Bool :=
  let rest := s.toList.drop "mayhem_fiat_epoch_".length
  let digits := rest.takeWhile Char.isDigit
  "mayhem_fiat_epoch_".toList.isPrefixOf s.toList && !digits.isEmpty && digits.head? != some '0' &&
    match rest.dropWhile Char.isDigit with
    | '_' :: hex => hex.length == 16 && hex.all fun c => c.isDigit || 'a' ≤ c && c ≤ 'f'
    | _ => false

def requiresQuote (sourceCurrency destinationCurrency : String) : Bool :=
  sourceCurrency != "usd" || destinationCurrency != "usd"

def normalizeTransferTerms (request : FiatAttemptRequest) (terms : FiatDestination) : Except String Unit := do
  rejectIf (¬ isFiatCurrency terms.currency ∨ terms.amountMinMinor = 0 ∨ terms.amountMaxMinor = 0 ∨
    terms.amountMaxMinor < terms.amountMinMinor ∨ ¬ ∃ group ∈ request.transferGroup, isTransferGroup group)
    "Invalid targeted fiat attempt destination terms."
  if requiresQuote request.sourceCurrency terms.currency then
    rejectIf (¬ ∃ quote ∈ request.fxQuote, isFxQuoteId quote.id)
      "Targeted fiat attempt requires a canonical FX quote."
  else
    rejectIf (request.fxQuote.isSome) "Direct USD fiat attempt must not contain an FX quote."

def normalizeTargetedFiatAttemptRequest (request : FiatAttemptRequest) : Except String Unit := do
  rejectIf (¬ isSafeKeyPart request.destination ∨ ¬ isFiatCurrency request.sourceCurrency ∨
    request.sourceAmountMinor = 0) "Invalid targeted fiat attempt request."
  match request.kind with
  | .platformBalance =>
    rejectIf (request.terms.isSome ∨ request.fxQuote.isSome ∨ request.transferGroup.isSome)
      "Platform-balance fiat attempt must not contain Stripe transfer terms."
  | .stripeTransfer =>
    let terms ← requireSome request.terms "Invalid targeted fiat attempt destination terms."
    normalizeTransferTerms request terms

def quoteExpiryValid (value : FiatAttemptValue) : Bool :=
  match value.request.kind with
  | .stripeTransfer => value.quoteExpiresAt.any fun expiry => isSafeInteger expiry && value.preparedAt < expiry
  | .platformBalance => value.quoteExpiresAt.isNone

def normalizePrepareTargetedFiatAttemptValue (host : PayoutCrypto) (value : FiatAttemptValue) :
    Except String Unit := do
  rejectIf (value.contractVersion ≠ contractVersion ∨ ¬ isSafeInteger value.epoch ∨ value.epoch < 1 ∨
    ¬ isSafeInteger value.outputIndex ∨ ¬ isSafeInteger value.attemptNo ∨ value.attemptNo < 1 ∨
    ¬ isSafeInteger value.preparedAt) "Invalid targeted fiat attempt preparation."
  normalizeTargetedFiatAttemptRequest value.request
  let attemptId := host.attemptId value.economicOpId value.attemptNo value.request
  rejectIf (value.attemptId ≠ attemptId)
    "Targeted fiat attempt id does not match its canonical request."
  rejectIf (value.idempotencyKeyHash ≠ host.attemptIdempotencyKeyHash attemptId)
    "Targeted fiat attempt idempotency key hash does not match its canonical attempt."
  rejectIf (¬ quoteExpiryValid value) "Invalid targeted fiat attempt quote expiry."
  rejectIf (host.attemptRequestHash value.economicOpId value.attemptId value.attemptNo value.request ≠
    value.requestHash) "Targeted fiat attempt request hash mismatch."

def FiatAttemptValue.asksFor (host : PayoutCrypto) (value : FiatAttemptValue) (output : PlanOutput) : Bool :=
  let request := value.request
  match output.amount with
  | .tnk _ _ => false
  | .fiat terms =>
    request.kind = (if output.party.isSome then .stripeTransfer else .platformBalance) ∧
      request.destination = output.target ∧ request.sourceCurrency = terms.sourceCurrency ∧
      request.sourceAmountMinor = terms.sourceAmountMinor ∧
      (output.party.isSome → request.terms = terms.destination ∧
        request.transferGroup = some (host.transferGroup value.epoch value.epochApplyHash))

def attemptRenewable (tail : Option AttemptTail) (attemptNo : Nat) : Bool :=
  match tail with
  | none => attemptNo = 1
  | some tail => tail.status = .expiredPreEffect ∧ attemptNo = tail.attemptNo + 1

namespace Ledger

def prepareFiatAttempt (host : PayoutCrypto) (s : Ledger) (sender : PublicKey) (key : Digest)
    (value : FiatAttemptValue) : Except String Bool := do
  normalizePrepareTargetedFiatAttemptValue host value
  rejectIf (key ≠ host.controlKey (.fiatAttempt value)) "Invalid targeted fiat attempt feature key."
  requireTargetedPayoutAdminSignature host s.registry sender value.admin (.fiatAttempt value)
    "Targeted fiat attempt preparation"
  let mismatch := "Targeted fiat attempt does not match the canonical epoch plan."
  let plan ← requireSome (s.payouts.plan.get (.fiat, value.epoch)) mismatch
  let output ← requireSome (plan.outputs[value.outputIndex]?) mismatch
  rejectIf (plan.planRoot ≠ value.planRoot ∨ plan.epochApplyHash ≠ value.epochApplyHash ∨
    output.economicOpId ≠ value.economicOpId) mismatch
  let required := "Targeted fiat attempt requires its unconsumed economic preparation."
  let preparation ← requireSome (s.payouts.preparation.get (.fiat, value.economicOpId)) required
  rejectIf (preparation.consumed ∨ preparation.value.outputIndex ≠ value.outputIndex ∨
    preparation.value.payload.planned ≠ some (value.planRoot, output)) required
  rejectIf (¬ value.asksFor host output)
    "Targeted fiat attempt request does not match its planned output."
  match s.payouts.attempt.get (value.economicOpId, value.attemptId) with
  | some existing =>
    rejectIf (existing.preparation ≠ value) "Targeted fiat attempt identity already exists."
    return false
  | none =>
    rejectIf (¬ attemptRenewable (s.payouts.attemptTail.get value.economicOpId) value.attemptNo)
      "Targeted fiat attempt may renew only after definitive pre-effect expiry."
    rejectIf ((s.payouts.attemptIdempotency.get value.idempotencyKeyHash).isSome)
      "Targeted fiat attempt idempotency key was already used."
    rejectIf (∃ quote ∈ value.request.fxQuote, (s.payouts.attemptQuote.get quote.id).isSome)
      "Targeted fiat attempt FX quote was already used."
    return true

def writeFiatAttempt (s : Ledger) (value : FiatAttemptValue) : Ledger :=
  { s with payouts := { s.payouts with
    attempt := s.payouts.attempt.put (value.economicOpId, value.attemptId) ⟨value, .prepared, none, false⟩
    attemptTail := s.payouts.attemptTail.put value.economicOpId ⟨value.attemptNo, .prepared⟩
    attemptIdempotency := s.payouts.attemptIdempotency.put value.idempotencyKeyHash value.attemptId
    attemptQuote := s.payouts.attemptQuote.putAll
      (value.request.fxQuote.toList.map fun quote => (quote.id, value.attemptId)) } }

def applyTargetedFiatAttemptFeature (host : PayoutCrypto) (s : Ledger) (sender : PublicKey) (key : Digest)
    (value : FiatAttemptValue) : Outcome Bool :=
  match s.prepareFiatAttempt host sender key value with
  | .error message => (s, .error message)
  | .ok false => (s, .ok true)
  | .ok true => (s.writeFiatAttempt value, .ok false)

end Ledger

def normalizeTransferArrival (transfer : StripeTransfer) (arrival : TransferArrival) (label : String) :
    Except String Unit := do
  rejectIf (¬ isFiatCurrency arrival.currency) (label ++ " destination currency is invalid.")
  rejectIf (arrival.amountMinor = 0) (label ++ " destination amount must be positive.")
  if requiresQuote transfer.sourceCurrency arrival.currency then
    rejectIf (¬ ∃ quote ∈ transfer.fxQuote, isFxQuoteId quote.id)
      (label ++ " FX quote identity is required and invalid.")
  else
    rejectIf (transfer.fxQuote.isSome)
      (label ++ " direct USD transfer must not include an FX quote identity.")
  rejectIf (¬ isDestinationPayment arrival.destinationPayment)
    (label ++ " destination payment readback is invalid.")

def refLead : TransferKind → String
  | .stripeTransfer => "tr_"
  | .platformBalance => "platform_balance:"

def normalizeStripeTransferEvidence (transfer : StripeTransfer) (label : String) (attemptId : Digest) :
    Except String Unit := do
  rejectIf (transfer.attemptId ≠ attemptId) (label ++ " attempt id does not match its canonical attempt.")
  rejectIf (¬ isSafeKeyPart transfer.ref ∨ ¬ isSafeKeyPart transfer.destination)
    (label ++ " reference or destination is invalid.")
  rejectIf (¬ (refLead transfer.kind).toList.isPrefixOf transfer.ref.toList)
    (label ++ (if transfer.kind = .stripeTransfer then " requires a Stripe transfer id."
      else " platform balance reference is invalid."))
  rejectIf (¬ isFiatCurrency transfer.sourceCurrency) (label ++ " source currency is invalid.")
  rejectIf (transfer.sourceAmountMinor = 0) (label ++ " source amount must be positive.")
  match transfer.kind with
  | .platformBalance =>
    rejectIf (transfer.transferGroup.isSome) (label ++ " platform balance transfer group must be null.")
    rejectIf (transfer.arrival.isSome ∨ transfer.fxQuote.isSome)
      (label ++ " does not accept fields: destination_currency.")
  | .stripeTransfer =>
    rejectIf (¬ ∃ group ∈ transfer.transferGroup, isSafeKeyPart group)
      (label ++ " transfer group is invalid.")
    let arrival ← requireSome transfer.arrival (label ++ " is missing destination_currency.")
    normalizeTransferArrival transfer arrival label

def AttemptEvidence.status : AttemptEvidence → AttemptStatus
  | .succeeded _ => .succeeded
  | .expiredPreEffect _ _ => .expiredPreEffect

def AttemptEvidence.transfer : AttemptEvidence → Option StripeTransfer
  | .succeeded transfer => some transfer
  | .expiredPreEffect _ _ => none

def normalizeFinalizeTargetedFiatAttemptValue (value : AttemptResultValue) : Except String Unit := do
  rejectIf (value.contractVersion ≠ contractVersion ∨ ¬ isSafeInteger value.epoch ∨ value.epoch < 1 ∨
    ¬ isSafeInteger value.time) "Invalid targeted fiat attempt finalization."
  match value.evidence with
  | .succeeded transfer =>
    normalizeStripeTransferEvidence transfer "targeted fiat attempt success evidence" value.attemptId
  | .expiredPreEffect quote quoteExpiresAt =>
    rejectIf (¬ isFxQuoteId quote.id ∨ ¬ isSafeInteger quoteExpiresAt)
      "Invalid targeted fiat attempt expiry evidence."

def TransferArrival.within (arrival : TransferArrival) (terms : FiatDestination) : Bool :=
  arrival.currency = terms.currency ∧ terms.amountMinMinor ≤ arrival.amountMinor ∧
    arrival.amountMinor ≤ terms.amountMaxMinor

def StripeTransfer.fulfils (transfer : StripeTransfer) (request : FiatAttemptRequest) : Bool :=
  transfer.kind = request.kind ∧ transfer.destination = request.destination ∧
    transfer.sourceCurrency = request.sourceCurrency ∧
    transfer.sourceAmountMinor = request.sourceAmountMinor ∧
    (request.kind = .stripeTransfer →
      transfer.fxQuote = request.fxQuote ∧ transfer.transferGroup = request.transferGroup ∧
        ∃ arrival ∈ transfer.arrival, ∃ terms ∈ request.terms, arrival.within terms)

namespace Ledger

def prepareFiatAttemptResult (host : PayoutCrypto) (s : Ledger) (sender : PublicKey) (key : Digest)
    (value : AttemptResultValue) : Except String (Option (FiatAttempt × Option String)) := do
  normalizeFinalizeTargetedFiatAttemptValue value
  rejectIf (key ≠ host.controlKey (.fiatAttemptResult value))
    "Invalid targeted fiat attempt finalization key."
  requireTargetedPayoutAdminSignature host s.registry sender value.admin (.fiatAttemptResult value)
    "Targeted fiat attempt finalization"
  let absent := "Targeted fiat attempt preparation not found."
  let attempt ← requireSome (s.payouts.attempt.get (value.economicOpId, value.attemptId)) absent
  rejectIf (attempt.preparation.epoch ≠ value.epoch) absent
  if attempt.status ≠ .prepared then
    rejectIf (attempt.result ≠ some value) "Targeted fiat attempt is already terminal."
    return none
  else
    let request := attempt.preparation.request
    match value.evidence with
    | .expiredPreEffect quote quoteExpiresAt =>
      rejectIf (request.kind ≠ .stripeTransfer ∨ attempt.preparation.quoteExpiresAt ≠ some quoteExpiresAt ∨
        value.time < quoteExpiresAt ∨ request.fxQuote ≠ some quote)
        "Targeted fiat attempt expiry does not match its prepared quote."
      return some (attempt, none)
    | .succeeded transfer =>
      rejectIf (¬ transfer.fulfils request)
        "Targeted fiat attempt result does not match its prepared request."
      rejectIf ((s.payouts.attemptEffect.get transfer.ref).isSome)
        "Targeted fiat external effect was already finalized."
      return some (attempt, some transfer.ref)

def writeFiatAttemptResult (s : Ledger) (value : AttemptResultValue) (attempt : FiatAttempt)
    (effect : Option String) : Ledger :=
  { s with payouts := { s.payouts with
    attemptEffect := s.payouts.attemptEffect.putAll
      (effect.toList.map fun ref => (ref, ⟨value.economicOpId, value.attemptId, false⟩))
    attempt := s.payouts.attempt.put (value.economicOpId, value.attemptId)
      { attempt with status := value.evidence.status, result := some value }
    attemptTail := s.payouts.attemptTail.put value.economicOpId
      ⟨attempt.preparation.attemptNo, value.evidence.status⟩ } }

def applyFinalizeTargetedFiatAttemptFeature (host : PayoutCrypto) (s : Ledger) (sender : PublicKey)
    (key : Digest) (value : AttemptResultValue) : Outcome Bool :=
  match s.prepareFiatAttemptResult host sender key value with
  | .error message => (s, .error message)
  | .ok none => (s, .ok true)
  | .ok (some (attempt, effect)) => (s.writeFiatAttemptResult value attempt effect, .ok false)

def normalizeTargetedFiatOutputSettlementValue (value : FiatOutputValue) : Except String Unit := do
  normalizeStripeTransferEvidence value.stripeTransfer "targeted fiat output transfer" value.attemptId
  rejectIf (value.contractVersion ≠ contractVersion ∨ ¬ isSafeInteger value.epoch ∨ value.epoch < 1 ∨
    ¬ isSafeInteger value.time ∨ ¬ isSafeInteger value.outputIndex ∨
    value.preparationId ≠ value.economicOpId) "Invalid targeted fiat output settlement."

def stripeSeenKeys (transfer : StripeTransfer) : List RailSeen :=
  match transfer.kind with
  | .platformBalance => [.stripePlatform transfer.ref]
  | .stripeTransfer =>
    .stripe transfer.ref :: (transfer.fxQuote.toList.map fun quote => RailSeen.stripeFxQuote quote.id) ++
      transfer.arrival.toList.map fun arrival => RailSeen.stripeDestinationPayment arrival.destinationPayment

def validateFiatTransfer (s : Ledger) (value : FiatOutputValue) :
    Except String (FiatAttempt × AttemptEffect) := do
  let required := "Targeted fiat output requires a succeeded canonical attempt."
  let transfer := value.stripeTransfer
  let attempt ← requireSome (s.payouts.attempt.get (value.economicOpId, value.attemptId)) required
  rejectIf (attempt.status ≠ .succeeded ∨ attempt.consumed ∨
    attempt.result.bind (fun result => result.evidence.transfer) ≠ some transfer) required
  let mismatch := "Targeted fiat attempt effect lock mismatch."
  let effect ← requireSome (s.payouts.attemptEffect.get transfer.ref) mismatch
  rejectIf (effect.economicOpId ≠ value.economicOpId ∨ effect.attemptId ≠ value.attemptId ∨
    effect.consumed) mismatch
  rejectIf (∃ seen ∈ stripeSeenKeys transfer, (s.payouts.railSeen.get seen).isSome)
    "Targeted Stripe transfer evidence was already consumed."
  return (attempt, effect)

def prepareFiatOutput (host : PayoutCrypto) (s : Ledger) (sender : PublicKey) (key : Digest)
    (value : FiatOutputValue) : Except String (Option (OutputPlan × FiatAttempt × AttemptEffect)) := do
  normalizeTargetedFiatOutputSettlementValue value
  rejectIf (key ≠ host.controlKey (.fiatOutput value)) "Invalid targeted fiat output feature key."
  requireTargetedPayoutAdminSignature host s.registry sender value.admin (.fiatOutput value)
    "Targeted fiat output settlement"
  match s.payouts.output.get (.fiat, value.epoch, value.economicOpId) with
  | some existing =>
    rejectIf (existing ≠ .fiat value) "Targeted fiat output is already settled."
    return none
  | none =>
    let output ← s.targetedPayoutPlannedOutput .fiat value.reference
    let preparation ← s.targetedPayoutPreparationForOutput .fiat value.reference output
    let (attempt, effect) ← s.validateFiatTransfer value
    let plan ← s.planOutput .fiat value.epoch value.time output preparation
      "Targeted fiat fee output does not match canonical fee state."
    return some (plan, attempt, effect)

def writeFiatOutput (s : Ledger) (value : FiatOutputValue) (plan : OutputPlan) (attempt : FiatAttempt)
    (effect : AttemptEffect) : Ledger :=
  let settled := s.writeOutput .fiat value.epoch (.fiat value) (stripeSeenKeys value.stripeTransfer) plan
  { settled with payouts := { settled.payouts with
    attempt := settled.payouts.attempt.put (value.economicOpId, value.attemptId)
      { attempt with consumed := true }
    attemptEffect := settled.payouts.attemptEffect.put value.stripeTransfer.ref
      { effect with consumed := true } } }

def applyTargetedFiatOutputFeature (host : PayoutCrypto) (s : Ledger) (sender : PublicKey) (key : Digest)
    (value : FiatOutputValue) : Outcome Bool :=
  match s.prepareFiatOutput host sender key value with
  | .error message => (s, .error message)
  | .ok none => (s, .ok true)
  | .ok (some (plan, attempt, effect)) => (s.writeFiatOutput value plan attempt effect, .ok false)

end Ledger

end Mayhem
