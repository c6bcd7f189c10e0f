import Mayhem.Registry

namespace Mayhem

def addReceiptUsage (usage : Counts) (entry : String × Nat) : Except String Counts := do
  rejectIf (entry.1.length = 0 ∨ entry.1.length > 64) "Invalid receipt usage unit."
  rejectIf (¬ isSafeInteger entry.2) "Invalid receipt usage count."
  if entry.2 = 0 then
    return usage
  let unit := canonicalUsageUnit entry.1
  rejectIf (¬ isSafeKeyPart unit) "Invalid receipt usage unit."
  let next ← safeAddCount (usage.get unit) entry.2 "receipt usage count"
  return usage.set unit next

def normalizeReceiptUsage (source : Counts) : Except String Counts :=
  source.foldlM addReceiptUsage []

def insertRate (entry : RateEntry) : List RateEntry → List RateEntry
  | [] => [entry]
  | e :: rest => if entry.unit < e.unit then entry :: e :: rest else e :: insertRate entry rest

def addLockedRate (label : String) (normalized : List RateEntry) (entry : RateEntry) :
    Except String (List RateEntry) := do
  rejectIf (entry.unit.length = 0 ∨ entry.unit.length > 64)
    (label ++ " unit must be a non-empty string.")
  let unit := canonicalUsageUnit entry.unit
  rejectIf (¬ isSafeKeyPart unit) (label ++ " unit is invalid.")
  rejectIf (unit ∈ normalized.map RateEntry.unit) (label ++ " has duplicate unit " ++ unit ++ ".")
  rejectIf (entry.perUnitAu = 0) (label ++ " per_unit_au must be a positive integer.")
  rejectIf (¬ isSafeInteger entry.granularity ∨ entry.granularity = 0)
    (label ++ " granularity must be a positive integer.")
  return insertRate { entry with unit := unit } normalized

def normalizeLockedRateMap (rateMap : List RateEntry) (label : String) : Except String (List RateEntry) := do
  rejectIf (rateMap.length = 0 ∨ rateMap.length > rateMapMaxEntries)
    (label ++ " must be a non-empty array with at most 16 entries.")
  rateMap.foldlM (addLockedRate label) []

def rateMapByUnit (rateMap : List RateEntry) (unit : String) : Option RateEntry :=
  rateMap.reverse.find? fun entry => entry.unit = unit

structure PricedUsage where
  count : Nat
  perUnitAu : Nat
  granularity : Nat

def addPricedUsage (rateMap : List RateEntry) (priced : List PricedUsage) (entry : String × Nat) :
    Except String (List PricedUsage) := do
  rejectIf (¬ isSafeInteger entry.2) "Invalid receipt usage count."
  if entry.2 = 0 then
    return priced
  let rate ← requireSome (rateMapByUnit rateMap entry.1)
    ("Receipt locked_rate_map missing usage unit " ++ entry.1 ++ ".")
  rejectIf (rate.perUnitAu = 0) "Invalid locked rate per_unit_au."
  rejectIf (¬ isSafeInteger rate.granularity ∨ rate.granularity = 0)
    "Invalid locked rate granularity."
  return priced ++ [⟨entry.2, rate.perUnitAu, rate.granularity⟩]

def usageAuForRateMap (rateMap : List RateEntry) (usage : Counts) : Except String Nat := do
  let priced ← usage.foldlM (addPricedUsage rateMap) []
  match priced with
  | [] => return 0
  | first :: _ =>
    if priced.all fun entry => entry.granularity = first.granularity then
      let raw := (priced.map fun entry => entry.count * entry.perUnitAu).sum
      return ceilDivBigInt raw first.granularity
    else
      return (priced.map fun entry =>
        ceilDivBigInt (entry.count * entry.perUnitAu) entry.granularity).sum

def usageAuForLockedTerms (rateMap : List RateEntry) (perReqAu minSessionAu : Nat)
    (usage : Counts) : Except String Nat := do
  let usageAu ← usageAuForRateMap rateMap usage
  return max (usageAu + perReqAu) minSessionAu

def receiptUsageDelta (previous current : Counts) : Except String Counts := do
  rejectIf (∃ entry ∈ previous, current.get entry.1 < entry.2)
    "Receipt cumulative usage regressed."
  return (current.map fun entry => (entry.1, entry.2 - previous.get entry.1)).filter
    fun entry => entry.2 > 0

def logicalCumulativeAuForLockedTerms (rateMap : List RateEntry) (perReqAu minSessionAu : Nat)
    (priorUsage : Counts) (priorAuOwedCum : Nat) (currentUsage : Counts) : Except String Nat := do
  let delta ← receiptUsageDelta priorUsage currentUsage
  let increment ←
    if priorAuOwedCum = 0 then usageAuForLockedTerms rateMap perReqAu minSessionAu delta
    else usageAuForRateMap rateMap delta
  return priorAuOwedCum + increment

structure Workflow where
  endpointFamily : String
  graphHash : Digest
  runtimeId : String
  outcomeClass : String
  quotedUsage : Counts
deriving DecidableEq

structure WorkflowOutput where
  outputModalities : List Modality
  metrics : Counts
deriving DecidableEq

structure ReceiptBody where
  schemaVersion : Nat
  sessionId : Digest
  billingId : Digest
  billingAttempt : Nat
  billingPriorUsage : Counts
  billingPriorAuOwedCum : Nat
  billingEpoch : Nat
  reservationId : Digest
  reservationExpiresAfterEpoch : Nat
  reservationReceiptGraceEpochs : Nat
  payoutRevision : Digest
  seq : Nat
  final : Bool
  rail : Rail
  user : PublicKey
  provider : PublicKey
  enclaveId : Digest
  modelId : String
  priceVer : Nat
  lockedRateMap : List RateEntry
  lockedPerReqAu : Nat
  lockedMinSessionAu : Nat
  servedCtx : Nat
  ctxBracket : Option String
  ctxBracketTableVer : Option Nat
  rulesVer : Nat
  workflow : Option Workflow
  workflowOutput : Option WorkflowOutput
  usage : Counts
  usageAttribution : Option Counts
  auOwedCum : Nat
  promptHash : String
  ts : Nat
deriving DecidableEq

structure ReceiptEnvelope where
  body : ReceiptBody
  enclaveSig : Signature
  userSig : Signature
  enclavePubkey : PublicKey
deriving DecidableEq

structure ReceiptLeaf where
  body : ReceiptBody
  enclaveSig : Signature
  userSig : Signature

def ReceiptEnvelope.receiptLeafEnvelope (envelope : ReceiptEnvelope) : ReceiptLeaf :=
  ⟨envelope.body, envelope.enclaveSig, envelope.userSig⟩

def normalizeWorkflowBinding (source : Workflow) (label : String) (rateMap : List RateEntry) :
    Except String Workflow := do
  rejectIf (¬ isSafeKeyPart source.endpointFamily) (label ++ " endpoint_family is invalid.")
  rejectIf (¬ isSafeKeyPart source.runtimeId) (label ++ " runtime_id is invalid.")
  rejectIf (¬ isSafeKeyPart source.outcomeClass) (label ++ " outcome_class is invalid.")
  let quotedUsage ← (normalizeReceiptUsage source.quotedUsage).mapError
    fun _ => label ++ " quoted_usage is invalid."
  rejectIf (quotedUsage = []) (label ++ " quoted_usage is invalid.")
  let _ ← (usageAuForRateMap rateMap quotedUsage).mapError
    fun _ => label ++ " quoted_usage is not priced by the locked rate_map."
  return { source with quotedUsage := quotedUsage }

def Modality.name : Modality → String
  | .text => "text"
  | .embedding => "embedding"
  | .image => "image"
  | .video => "video"
  | .audio => "audio"

def validateModalitySet (value : List Modality) (label : String) : Except String Unit := do
  rejectIf (value.length = 0 ∨ value.length > 8)
    (label ++ " must be a non-empty array with at most 8 entries.")
  go [] value
where
  go (seen : List Modality) : List Modality → Except String Unit
    | [] => .ok ()
    | modality :: rest => do
      rejectIf (modality ∈ seen) (label ++ " contains duplicate modality " ++ modality.name ++ ".")
      go (modality :: seen) rest

def normalizeWorkflowOutputBinding (source : WorkflowOutput) (label : String) : Except String Unit := do
  validateModalitySet source.outputModalities (label ++ " output_modalities")
  rejectIf (source.metrics.length = 0 ∨ source.metrics.length > 32)
    (label ++ " metrics must contain between 1 and 32 entries.")
  source.metrics.forM fun entry => do
    rejectIf (¬ isSafeKeyPart entry.1) (label ++ " metric key is invalid.")
    rejectIf (¬ isSafeInteger entry.2 ∨ entry.2 = 0) (label ++ " metric count is invalid.")

def usageAttributionAxes : List String :=
  ["context_input_tokens", "reasoning_output_tokens", "vision_input_tokens", "audio_input_tokens"]

def addUsageAttribution (normalized : Counts) (entry : String × Nat) : Except String Counts := do
  rejectIf (entry.1 ∉ usageAttributionAxes)
    ("Unsupported receipt usage attribution " ++ entry.1 ++ ".")
  rejectIf (¬ isSafeInteger entry.2) "Invalid receipt usage attribution count."
  return if entry.2 > 0 then normalized.set entry.1 entry.2 else normalized

def normalizeReceiptUsageAttribution (source : Option Counts) : Except String Counts :=
  (source.getD []).foldlM addUsageAttribution []

def validateReceiptAttempt (body : ReceiptBody) : Except String Unit := do
  rejectIf (body.modelId.length = 0 ∨ body.modelId.length > 256) "Invalid receipt model_id."
  rejectIf (body.promptHash.length = 0 ∨ body.promptHash.length > 256)
    "Invalid receipt prompt_hash."
  rejectIf (¬ isSafeInteger body.billingAttempt) "Invalid receipt billing attempt."
  rejectIf (¬ isSafeInteger body.billingEpoch ∨ body.billingEpoch < 1)
    "Invalid receipt billing epoch."
  rejectIf (¬ isSafeInteger body.reservationExpiresAfterEpoch ∨
    body.reservationExpiresAfterEpoch ≤ body.billingEpoch ∨
    ¬ isSafeInteger body.reservationReceiptGraceEpochs)
    "Invalid receipt reservation expiry policy."
  let billingPriorUsage ← normalizeReceiptUsage body.billingPriorUsage
  rejectIf (billingPriorUsage ≠ body.billingPriorUsage)
    "Receipt billing prior usage must be canonical."
  rejectIf (body.billingAttempt = 0 ∧ (billingPriorUsage.length > 0 ∨ body.billingPriorAuOwedCum ≠ 0))
    "Initial receipt billing attempt must have an empty baseline."
  rejectIf (body.billingPriorAuOwedCum = 0 ∧ billingPriorUsage.length > 0)
    "Receipt billing prior usage requires a prior cumulative amount."
  rejectIf (¬ isSafeInteger body.seq) "Invalid receipt sequence."
  rejectIf (¬ isSafeInteger body.priceVer ∨ body.priceVer < 1) "Invalid receipt price version."

def validateReceiptWorkflow (body : ReceiptBody) (lockedRateMap : List RateEntry) : Except String Unit :=
  match body.workflow, body.workflowOutput with
  | none, none => .ok ()
  | none, some _ => .error "Receipt workflow_output requires workflow."
  | some source, output => do
    let workflow ← normalizeWorkflowBinding source "receipt workflow" lockedRateMap
    rejectIf (workflow ≠ source) "Receipt workflow must be canonical."
    match output with
    | some output => normalizeWorkflowOutputBinding output "receipt workflow_output"
    | none => .error "Receipt workflow requires workflow_output."

def validateReceiptUsage (body : ReceiptBody) : Except String Unit := do
  let usage ← normalizeReceiptUsage body.usage
  rejectIf (usage ≠ body.usage) "Receipt usage must be canonical."
  let attribution ← normalizeReceiptUsageAttribution body.usageAttribution
  rejectIf (attribution ≠ body.usageAttribution.getD [])
    "Receipt usage attribution must be canonical."
  rejectIf (attribution.get "context_input_tokens" > body.servedCtx)
    "Receipt context attribution exceeds served context."
  rejectIf (attribution.get "reasoning_output_tokens" > usage.get "output_token")
    "Receipt reasoning attribution exceeds billed output tokens."
  rejectIf (attribution.get "vision_input_tokens" > usage.get "input_token")
    "Receipt vision attribution exceeds billed input tokens."
  rejectIf (attribution.get "audio_input_tokens" > usage.get "input_token")
    "Receipt audio attribution exceeds billed input tokens."

def validateReceiptAmount (body : ReceiptBody) : Except String Unit := do
  let lockedAu ← logicalCumulativeAuForLockedTerms body.lockedRateMap body.lockedPerReqAu
    body.lockedMinSessionAu body.billingPriorUsage body.billingPriorAuOwedCum body.usage
  rejectIf (body.auOwedCum ≠ lockedAu)
    "Receipt cumulative amount does not match locked price terms."

def validateReceiptBody (reg : Registry) (body : ReceiptBody) : Except String Unit := do
  rejectIf (body.schemaVersion ≠ sessionReceiptSchemaVersion) "Unsupported receipt schema version."
  validateReceiptAttempt body
  let lockedRateMap ← normalizeLockedRateMap body.lockedRateMap "receipt locked_rate_map"
  rejectIf (lockedRateMap ≠ body.lockedRateMap) "Receipt locked_rate_map must be canonical."
  rejectIf (¬ isSafeInteger body.servedCtx) "Invalid receipt served context."
  reg.checkCtxBracket body.enclaveId body.servedCtx body.ctxBracket body.ctxBracketTableVer
    "receipt"
  rejectIf (¬ isSafeInteger body.rulesVer ∨ body.rulesVer < 1) "Invalid receipt rules version."
  validateReceiptWorkflow body lockedRateMap
  validateReceiptUsage body
  validateReceiptAmount body
  rejectIf (¬ isSafeInteger body.ts) "Invalid receipt timestamp."

def normalizeReceiptEnvelope (reg : Registry) (envelope : ReceiptEnvelope) : Except String ReceiptEnvelope := do
  validateReceiptBody reg envelope.body
  return envelope

theorem normalizeReceiptEnvelope_eq_ok {reg : Registry} {envelope normalized : ReceiptEnvelope} :
    normalizeReceiptEnvelope reg envelope = .ok normalized ↔
      validateReceiptBody reg envelope.body = .ok () ∧ envelope = normalized := by
  simp only [normalizeReceiptEnvelope, checks_iff]

theorem auOwedCum_of_receiptBody {reg : Registry} {body : ReceiptBody}
    (h : validateReceiptBody reg body = .ok ()) :
    logicalCumulativeAuForLockedTerms body.lockedRateMap body.lockedPerReqAu
      body.lockedMinSessionAu body.billingPriorUsage body.billingPriorAuOwedCum body.usage
      = .ok body.auOwedCum := by
  simp only [validateReceiptBody, Except.bind_accepts_iff] at h
  obtain ⟨_, -, _, -, _, -, _, -, _, -, _, -, _, -, _, -, _, -, _, hamount, -⟩ := h
  simp only [validateReceiptAmount, checks_iff, ne_eq, not_not] at hamount
  obtain ⟨_, hlocked, heq⟩ := hamount
  rw [hlocked, heq]

end Mayhem
