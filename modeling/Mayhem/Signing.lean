import Mayhem.Receipt
import Mayhem.Lib.JsObject

namespace Mayhem

open JsObject

namespace Proto

structure UnitMap where
  entries : List (String × UInt64)
  sorted : (entries.map Prod.fst).Pairwise (· < ·)

theorem UnitMap.sorted_nil : (([] : List (String × UInt64)).map Prod.fst).Pairwise (· < ·) := .nil

abbrev MoneyAu := BitVec 128

structure RateMapEntry where
  unit : String
  perUnitAu : MoneyAu
  granularity : UInt64

structure WorkflowBinding where
  endpointFamily : String
  graphHash : String
  runtimeId : String
  outcomeClass : String
  quotedUsage : UnitMap

structure WorkflowOutputBinding where
  outputModalities : List String
  metrics : UnitMap

structure ReceiptBody where
  schemaVersion : UInt32
  sessionId : String
  billingId : String
  billingAttempt : UInt32
  billingPriorUsage : UnitMap
  billingPriorAuOwedCum : MoneyAu
  billingEpoch : UInt64
  reservationId : String
  reservationExpiresAfterEpoch : UInt64
  reservationReceiptGraceEpochs : UInt64
  payoutRevision : String
  seq : UInt64
  finalReceipt : Bool
  rail : String
  user : String
  provider : String
  enclaveId : String
  modelId : String
  priceVer : UInt64
  lockedRateMap : List RateMapEntry
  lockedPerReqAu : MoneyAu
  lockedMinSessionAu : MoneyAu
  servedCtx : UInt32
  ctxBracket : Option String
  ctxBracketTableVer : Option UInt32
  rulesVer : UInt64
  workflow : Option WorkflowBinding
  workflowOutput : Option WorkflowOutputBinding
  usage : UnitMap
  usageAttribution : UnitMap
  auOwedCum : MoneyAu
  promptHash : String
  ts : UInt64

def UnitMap.counts (m : UnitMap) : Counts := m.entries.map (Prod.map id UInt64.toNat)

def UnitMap.toJson (m : UnitMap) : Json := JsObject.counts m.counts

def MoneyAu.toJson (au : MoneyAu) : Json := .str au.toNat.repr

def RateMapEntry.entries (entry : RateMapEntry) : Entries := [("unit", some (.str entry.unit)),
  ("per_unit_au", some entry.perUnitAu.toJson),
  ("granularity", some (.nat entry.granularity.toNat))]

def WorkflowBinding.entries (workflow : WorkflowBinding) : Entries := [
  ("endpoint_family", some (.str workflow.endpointFamily)),
  ("graph_hash", some (.str workflow.graphHash)),
  ("runtime_id", some (.str workflow.runtimeId)),
  ("outcome_class", some (.str workflow.outcomeClass)),
  ("quoted_usage", some workflow.quotedUsage.toJson)]

def WorkflowOutputBinding.entries (output : WorkflowOutputBinding) : Entries := [
  ("output_modalities", some (.arr (output.outputModalities.map Json.str))),
  ("metrics", some output.metrics.toJson)]

def nullable : Option Json → Json
  | some value => value
  | none => .null

def ReceiptBody.entries (body : ReceiptBody) : Entries :=
  [("schema_version", some (.nat body.schemaVersion.toNat)),
  ("session_id", some (.str body.sessionId)),
  ("billing_id", some (.str body.billingId)),
  ("billing_attempt", some (.nat body.billingAttempt.toNat)),
  ("billing_prior_usage", some body.billingPriorUsage.toJson),
  ("billing_prior_au_owed_cum", some body.billingPriorAuOwedCum.toJson),
  ("billing_epoch", some (.nat body.billingEpoch.toNat)),
  ("reservation_id", some (.str body.reservationId)),
  ("reservation_expires_after_epoch", some (.nat body.reservationExpiresAfterEpoch.toNat)),
  ("reservation_receipt_grace_epochs", some (.nat body.reservationReceiptGraceEpochs.toNat)),
  ("payout_revision", some (.str body.payoutRevision)),
  ("seq", some (.nat body.seq.toNat)),
  ("final", some (.bool body.finalReceipt)),
  ("rail", some (.str body.rail)),
  ("user", some (.str body.user)),
  ("provider", some (.str body.provider)),
  ("enclave_id", some (.str body.enclaveId)),
  ("model_id", some (.str body.modelId)),
  ("price_ver", some (.nat body.priceVer.toNat)),
  ("locked_rate_map", some (.arr (body.lockedRateMap.map fun entry => record entry.entries))),
  ("locked_per_req_au", some body.lockedPerReqAu.toJson),
  ("locked_min_session_au", some body.lockedMinSessionAu.toJson),
  ("served_ctx", some (.nat body.servedCtx.toNat)),
  ("ctx_bracket", some (nullable (body.ctxBracket.map Json.str))),
  ("ctx_bracket_table_ver", some (nullable (body.ctxBracketTableVer.map fun ver => Json.nat ver.toNat))),
  ("rules_ver", some (.nat body.rulesVer.toNat)),
  ("workflow", body.workflow.map fun workflow => record workflow.entries),
  ("workflow_output", body.workflowOutput.map fun output => record output.entries),
  ("usage", some body.usage.toJson),
  ("usage_attribution", if body.usageAttribution.entries = [] then none else some body.usageAttribution.toJson),
  ("au_owed_cum", some body.auOwedCum.toJson),
  ("prompt_hash", some (.str body.promptHash)),
  ("ts", some (.nat body.ts.toNat))]

def ReceiptBody.toJson (body : ReceiptBody) : Json := record body.entries

end Proto

def signingMessageVersion : Nat := 2

def signingEnvelope (domain : String) (body : Json) : Json :=
  record [("domain", some (.str domain)), ("signing_version", some (.nat signingMessageVersion)),
    ("body", some body)]

def Proto.receiptSigningBytes (body : ReceiptBody) : ByteArray :=
  (signingEnvelope "mayhem-session-receipt" body.toJson).bytes

def workflowFields : List String :=
  ["endpoint_family", "graph_hash", "runtime_id", "outcome_class", "quoted_usage"]

def stableField (field name : String) (value : Option Json) : Option Json :=
  if name = field then value.map stableValue else value

def canonicalWorkflowBinding : Json → Json
  | .obj fields => pick (stableField "quoted_usage") workflowFields (.obj fields)
  | workflow => workflow

def workflowOutputFields : List String := ["output_modalities", "metrics"]

def canonicalWorkflowOutput : Json → Json
  | .obj fields => pick (stableField "metrics") workflowOutputFields (.obj fields)
  | output => output

def hasFields : Json → Bool
  | .obj fields => !fields.isEmpty
  | _ => false

def receiptFields : List String := [
  "schema_version", "session_id", "billing_id", "billing_attempt", "billing_prior_usage",
  "billing_prior_au_owed_cum", "billing_epoch", "reservation_id", "reservation_expires_after_epoch",
  "reservation_receipt_grace_epochs", "payout_revision", "seq", "final", "rail", "user", "provider", "enclave_id",
  "model_id", "price_ver", "locked_rate_map", "locked_per_req_au", "locked_min_session_au", "served_ctx",
  "ctx_bracket", "ctx_bracket_table_ver", "rules_ver", "workflow", "workflow_output", "usage",
  "usage_attribution", "au_owed_cum", "prompt_hash", "ts"]

def canonicalField (name : String) (value : Option Json) : Option Json :=
  if name = "workflow" then value.map canonicalWorkflowBinding
  else if name = "workflow_output" then value.map canonicalWorkflowOutput
  else if name = "usage_attribution" then value.filter hasFields
  else value

def canonicalReceiptBody : Json → Json
  | .obj fields => pick canonicalField receiptFields (.obj fields)
  | body => body

def receiptMessage (body : Json) : ByteArray :=
  (signingEnvelope "mayhem-session-receipt" (canonicalReceiptBody body)).bytes

def envelopeFields : List String := [
  "schema_version", "session_id", "billing_id", "billing_attempt", "billing_prior_usage",
  "billing_prior_au_owed_cum", "billing_epoch", "reservation_id", "reservation_expires_after_epoch",
  "reservation_receipt_grace_epochs", "payout_revision", "seq", "final", "rail", "user", "provider", "enclave_id",
  "model_id", "price_ver", "locked_rate_map", "rules_ver", "usage", "au_owed_cum", "prompt_hash", "ts",
  "usage_attribution", "locked_per_req_au", "locked_min_session_au", "served_ctx", "ctx_bracket",
  "ctx_bracket_table_ver", "workflow", "workflow_output"]

def clonedFields : List String :=
  ["billing_prior_usage", "locked_rate_map", "usage", "usage_attribution", "workflow", "workflow_output"]

def clonedField (numbers : Numbers) (name : String) (value : Option Json) : Option Json :=
  if name ∈ clonedFields then value.map (parsed numbers) else value

def envelopeBody (numbers : Numbers) (source : Json) : Json := pick (clonedField numbers) envelopeFields source

def Rail.name : Rail → String
  | .fiat => "fiat"
  | .tap => "tap"
  | .tnk => "tnk"

def Rail.ofName (name : String) : Option Rail := providerAcceptedRailOrder.find? fun rail => rail.name = name

def Modality.ofName (name : String) : Option Modality :=
  [Modality.text, .embedding, .image, .video, .audio].find? fun modality => modality.name = name

def utf16Length (s : String) : Nat := (s.toList.map fun c => if c.toNat < 65536 then 1 else 2).sum

def isHexBytes (s : String) (bytes : Nat) : Bool :=
  s.length == 2 * bytes &&
    s.toList.all fun c => c.isDigit || ('a' ≤ c && c ≤ 'f') || ('A' ≤ c && c ≤ 'F')

namespace Proto

def RateMapEntry.ledgerEntry (entry : RateMapEntry) : RateEntry :=
  ⟨entry.unit, entry.perUnitAu.toNat, entry.granularity.toNat⟩

def WorkflowBinding.ledgerWorkflow (ids : String → Digest) (workflow : WorkflowBinding) : Workflow :=
  ⟨workflow.endpointFamily, ids workflow.graphHash, workflow.runtimeId, workflow.outcomeClass,
    workflow.quotedUsage.counts⟩

def WorkflowOutputBinding.ledgerOutput (output : WorkflowOutputBinding) : Option WorkflowOutput := do
  let modalities ← output.outputModalities.mapM Modality.ofName
  return ⟨modalities, output.metrics.counts⟩

def ReceiptBody.toLedger (ids : String → Digest) (rail : Rail) (workflowOutput : Option WorkflowOutput)
    (body : ReceiptBody) : Mayhem.ReceiptBody where
  schemaVersion := body.schemaVersion.toNat
  sessionId := ids body.sessionId
  billingId := ids body.billingId
  billingAttempt := body.billingAttempt.toNat
  billingPriorUsage := body.billingPriorUsage.counts
  billingPriorAuOwedCum := body.billingPriorAuOwedCum.toNat
  billingEpoch := body.billingEpoch.toNat
  reservationId := ids body.reservationId
  reservationExpiresAfterEpoch := body.reservationExpiresAfterEpoch.toNat
  reservationReceiptGraceEpochs := body.reservationReceiptGraceEpochs.toNat
  payoutRevision := ids body.payoutRevision
  seq := body.seq.toNat
  final := body.finalReceipt
  rail := rail
  user := ids body.user
  provider := ids body.provider
  enclaveId := ids body.enclaveId
  modelId := body.modelId
  priceVer := body.priceVer.toNat
  lockedRateMap := body.lockedRateMap.map RateMapEntry.ledgerEntry
  lockedPerReqAu := body.lockedPerReqAu.toNat
  lockedMinSessionAu := body.lockedMinSessionAu.toNat
  servedCtx := body.servedCtx.toNat
  ctxBracket := body.ctxBracket
  ctxBracketTableVer := body.ctxBracketTableVer.map UInt32.toNat
  rulesVer := body.rulesVer.toNat
  workflow := body.workflow.map (WorkflowBinding.ledgerWorkflow ids)
  workflowOutput := workflowOutput
  usage := body.usage.counts
  usageAttribution := if body.usageAttribution.entries = [] then none else some body.usageAttribution.counts
  auOwedCum := body.auOwedCum.toNat
  promptHash := body.promptHash
  ts := body.ts.toNat

def ReceiptBody.ledgerBody (ids : String → Digest) (body : ReceiptBody) : Option Mayhem.ReceiptBody := do
  let rail ← Rail.ofName body.rail
  let workflowOutput ← body.workflowOutput.mapM WorkflowOutputBinding.ledgerOutput
  return body.toLedger ids rail workflowOutput

/--
The JSON text of a receipt passes the receipt normalisation of the contract.
-/
structure ReceiptBody.Accepted (ids : String → Digest) (reg : Registry) (body : ReceiptBody) : Prop where
  texts : ∀ text ∈ [body.sessionId, body.user, body.provider, body.enclaveId, body.modelId, body.promptHash],
    0 < utf16Length text ∧ utf16Length text ≤ 256
  keys : ∀ key ∈ [body.billingId, body.reservationId, body.payoutRevision, body.user, body.provider],
    isHexBytes key 32
  graphHash : ∀ workflow ∈ body.workflow,
    isHexBytes workflow.graphHash 32 ∧ workflow.graphHash.toLower = workflow.graphHash
  valid : ∃ ledgerBody, body.ledgerBody ids = some ledgerBody ∧ validateReceiptBody reg ledgerBody = .ok ()

end Proto

theorem normalizeReceiptUsage_safe {source usage : Counts} (h : normalizeReceiptUsage source = .ok usage) :
    ∀ entry ∈ source, isSafeInteger entry.2 := by
  refine Except.forall_of_foldlM ?_ h
  intro usage entry _ hadd
  simp only [addReceiptUsage, Except.bind_accepts_iff, rejectIf_accepts_iff, not_not] at hadd
  exact hadd.choose_spec.2.choose_spec.1

theorem normalizeLockedRateMap_safe {rateMap normalized : List RateEntry} {label : String}
    (h : normalizeLockedRateMap rateMap label = .ok normalized) :
    ∀ entry ∈ rateMap, isSafeInteger entry.granularity := by
  simp only [normalizeLockedRateMap, Except.bind_accepts_iff] at h
  obtain ⟨_, -, h⟩ := h
  refine Except.forall_of_foldlM ?_ h
  intro normalized entry _ hadd
  simp only [addLockedRate, Except.bind_accepts_iff, rejectIf_accepts_iff, not_or, not_not] at hadd
  obtain ⟨_, -, _, -, _, -, _, -, _, ⟨hsafe, -⟩, -⟩ := hadd
  exact hsafe

theorem normalizeReceiptUsageAttribution_safe {source : Option Counts} {attribution : Counts}
    (h : normalizeReceiptUsageAttribution source = .ok attribution) :
    ∀ entry ∈ source.getD [], entry.1 ∈ usageAttributionAxes ∧ isSafeInteger entry.2 := by
  refine Except.forall_of_foldlM ?_ h
  intro _ entry _ hadd
  simp only [addUsageAttribution, Except.bind_accepts_iff, rejectIf_accepts_iff, not_not] at hadd
  obtain ⟨_, haxis, _, hsafe, -⟩ := hadd
  exact ⟨haxis, hsafe⟩

theorem normalizeWorkflowOutputBinding_safe {output : WorkflowOutput} {label : String}
    (h : normalizeWorkflowOutputBinding output label = .ok ()) :
    ∀ entry ∈ output.metrics, isSafeInteger entry.2 := by
  simp only [normalizeWorkflowOutputBinding, Except.bind_accepts_iff, Except.forM_accepts_iff] at h
  obtain ⟨_, -, _, -, h⟩ := h
  intro entry hmem
  have hentry := h entry hmem
  simp only [rejectIf_accepts_iff, not_or, not_not] at hentry
  exact hentry.choose_spec.2.1

structure ReceiptBody.SafeNumbers (body : ReceiptBody) : Prop where
  billingEpoch : isSafeInteger body.billingEpoch
  reservationExpiresAfterEpoch : isSafeInteger body.reservationExpiresAfterEpoch
  reservationReceiptGraceEpochs : isSafeInteger body.reservationReceiptGraceEpochs
  seq : isSafeInteger body.seq
  priceVer : isSafeInteger body.priceVer
  rulesVer : isSafeInteger body.rulesVer
  ts : isSafeInteger body.ts
  lockedRateMap : ∀ entry ∈ body.lockedRateMap, isSafeInteger entry.granularity
  billingPriorUsage : ∀ entry ∈ body.billingPriorUsage, isSafeInteger entry.2
  usage : ∀ entry ∈ body.usage, isSafeInteger entry.2
  usageAttribution : ∀ entry ∈ body.usageAttribution.getD [], entry.1 ∈ usageAttributionAxes ∧
    isSafeInteger entry.2
  quotedUsage : ∀ workflow ∈ body.workflow, ∀ entry ∈ workflow.quotedUsage, isSafeInteger entry.2
  metrics : ∀ output ∈ body.workflowOutput, ∀ entry ∈ output.metrics, isSafeInteger entry.2

theorem validateReceiptWorkflow_safe {body : ReceiptBody} {rateMap : List RateEntry}
    (h : validateReceiptWorkflow body rateMap = .ok ()) :
    (∀ workflow ∈ body.workflow, ∀ entry ∈ workflow.quotedUsage, isSafeInteger entry.2) ∧
      ∀ output ∈ body.workflowOutput, ∀ entry ∈ output.metrics, isSafeInteger entry.2 := by
  unfold validateReceiptWorkflow at h
  cases hworkflow : body.workflow with
  | none =>
    cases houtput : body.workflowOutput with
    | none => simp
    | some output =>
      rw [hworkflow, houtput] at h
      cases h
  | some workflow =>
    cases houtput : body.workflowOutput with
    | none =>
      rw [hworkflow, houtput] at h
      simp only [checks_iff, reduceCtorEq, and_false, exists_false] at h
    | some output =>
      rw [hworkflow, houtput] at h
      simp only [Except.bind_accepts_iff, normalizeWorkflowBinding, Except.mapError_accepts_iff] at h
      obtain ⟨_, ⟨_, -, _, -, _, -, _, husage, -⟩, _, -, houtput⟩ := h
      refine ⟨?_, ?_⟩
      . rintro _ ⟨⟩
        exact normalizeReceiptUsage_safe husage
      . rintro _ ⟨⟩
        exact normalizeWorkflowOutputBinding_safe houtput

theorem validateReceiptBody_safeNumbers {reg : Registry} {body : ReceiptBody}
    (h : validateReceiptBody reg body = .ok ()) : body.SafeNumbers := by
  simp only [validateReceiptBody, validateReceiptAttempt, validateReceiptUsage, Except.bind_accepts_iff,
    rejectIf_accepts_iff, not_or, not_not] at h
  obtain ⟨_, -, _, ⟨_, -, _, -, _, -, _, ⟨hepoch, -⟩, _, ⟨hexpires, -, hgrace⟩, _, hprior, _, -, _, -,
    _, -, _, hseq,
    hprice, -⟩, _, hrates, _, -, _, -, _, -, _, ⟨hrules, -⟩, _, hworkflow, _, ⟨usage, husage, _, -, _,
    hattribution, -⟩, _, -, hts⟩ := h
  have hworkflow := validateReceiptWorkflow_safe hworkflow
  exact {
    billingEpoch := hepoch
    reservationExpiresAfterEpoch := hexpires
    reservationReceiptGraceEpochs := hgrace
    seq := hseq
    priceVer := hprice
    rulesVer := hrules
    ts := hts
    lockedRateMap := normalizeLockedRateMap_safe hrates
    billingPriorUsage := normalizeReceiptUsage_safe hprior
    usage := normalizeReceiptUsage_safe husage
    usageAttribution := normalizeReceiptUsageAttribution_safe hattribution
    quotedUsage := hworkflow.1
    metrics := hworkflow.2 }

namespace Proto

def UnitMap.KeepsOrder (m : UnitMap) : Prop :=
  ∀ a ∈ m.entries.map Prod.fst, ∀ b ∈ m.entries.map Prod.fst, a < b → MayFollow a b

instance (m : UnitMap) : Decidable m.KeepsOrder :=
  inferInstanceAs (Decidable (∀ a ∈ m.entries.map Prod.fst, ∀ b ∈ m.entries.map Prod.fst, a < b → MayFollow a b))

/--
The maps of a receipt whose names its parties choose are listed in one order by both sides.
-/
structure ReceiptBody.KeepsOrder (body : ReceiptBody) : Prop where
  billingPriorUsage : body.billingPriorUsage.KeepsOrder
  usage : body.usage.KeepsOrder
  quotedUsage : ∀ workflow ∈ body.workflow, workflow.quotedUsage.KeepsOrder
  metrics : ∀ output ∈ body.workflowOutput, output.metrics.KeepsOrder

variable (numbers : Numbers)

section UnitMap

variable {m : UnitMap}

theorem UnitMap.names_counts : m.counts.map Prod.fst = m.entries.map Prod.fst := by
  rw [counts, List.map_map]
  rfl

theorem UnitMap.ownOrder_eq_self_iff : ownOrder m.counts = m.counts ↔ m.KeepsOrder := by
  rw [JsObject.ownOrder_eq_self_iff (m.names_counts ▸ m.sorted), names_counts]
  rfl

theorem UnitMap.parsed_eq_iff (hsafe : ∀ entry ∈ m.counts, isSafeInteger entry.2) :
    parsed numbers m.toJson = m.toJson ↔ m.KeepsOrder := by
  rw [toJson, parsed_counts numbers hsafe, ← ownOrder_eq_self_iff]
  exact ⟨counts_inj, congrArg JsObject.counts⟩

theorem UnitMap.stableValue_eq_iff (hsafe : ∀ entry ∈ m.counts, isSafeInteger entry.2) :
    stableValue (parsed numbers m.toJson) = m.toJson ↔ m.KeepsOrder := by
  rw [toJson, parsed_counts numbers hsafe, stableValue_counts (m.names_counts ▸ m.sorted), ← ownOrder_eq_self_iff]
  exact ⟨counts_inj, congrArg JsObject.counts⟩

end UnitMap

theorem canonicalWorkflowBinding_eq_iff {workflow : WorkflowBinding}
    (hsafe : ∀ entry ∈ workflow.quotedUsage.counts, isSafeInteger entry.2) :
    canonicalWorkflowBinding (parsed numbers (record workflow.entries)) = record workflow.entries ↔
      workflow.quotedUsage.KeepsOrder := by
  have hnames : workflow.entries.map Prod.fst = workflowFields := rfl
  rw [← UnitMap.stableValue_eq_iff numbers hsafe]
  refine (pick_parsed_eq_iff (f := stableField "quoted_usage") numbers hnames (by decide)
    (by decide +kernel)).trans ?_
  simp [WorkflowBinding.entries, stableField, parsed]

theorem canonicalWorkflowOutput_eq_iff {output : WorkflowOutputBinding}
    (hsafe : ∀ entry ∈ output.metrics.counts, isSafeInteger entry.2) :
    canonicalWorkflowOutput (parsed numbers (record output.entries)) = record output.entries ↔
      output.metrics.KeepsOrder := by
  have hnames : output.entries.map Prod.fst = workflowOutputFields := rfl
  rw [← UnitMap.stableValue_eq_iff numbers hsafe]
  refine (pick_parsed_eq_iff (f := stableField "metrics") numbers hnames (by decide) (by decide +kernel)).trans ?_
  simp [WorkflowOutputBinding.entries, stableField, parsed, parsedItems_eq]

theorem clonedField_parsed (name : String) (value : Option Json) :
    clonedField numbers name (value.map (parsed numbers)) = value.map (parsed numbers) := by
  unfold clonedField
  split
  . simp only [Option.map_map, Function.comp_def, parsed_parsed]
  . rfl

theorem signingEnvelope_inj {domain : String} {body body' : Json} :
    signingEnvelope domain body = signingEnvelope domain body' ↔ body = body' := by
  simp [signingEnvelope, record, present]

theorem receiptMessage_eq_iff (body : ReceiptBody) :
    receiptMessage (envelopeBody numbers (parsed numbers body.toJson)) = receiptSigningBytes body ↔
      ∀ entry ∈ body.entries, canonicalField entry.1 (entry.2.map (parsed numbers)) = entry.2 := by
  have hpick : canonicalReceiptBody (envelopeBody numbers (parsed numbers body.toJson)) =
      pick (fun name value => canonicalField name (clonedField numbers name value)) receiptFields
        (parsed numbers body.toJson) :=
    pick_pick (by decide) (by decide) _
  have hnames : body.entries.map Prod.fst = receiptFields := rfl
  rw [receiptMessage, receiptSigningBytes, Json.bytes_injective.eq_iff, signingEnvelope_inj, hpick,
    ReceiptBody.toJson, pick_parsed_eq_iff numbers hnames (by decide) (by decide +kernel)]
  simp [clonedField_parsed]

theorem RateMapEntry.parsed_entries {entry : RateMapEntry} (hsafe : isSafeInteger entry.granularity.toNat) :
    parsed numbers (record entry.entries) = record entry.entries := by
  have hindex : ∀ name ∈ entry.entries.map Prod.fst, arrayIndex name = none := by
    change ∀ name ∈ ["unit", "per_unit_au", "granularity"], arrayIndex name = none
    decide +kernel
  rw [parsed_record numbers hindex]
  simp [entries, MoneyAu.toJson, parsed, numbers.read_of_safe _ hsafe]

theorem hasFields_toJson {m : UnitMap} (h : m.entries ≠ []) : hasFields m.toJson = true := by
  cases hentries : m.entries with
  | nil => exact absurd hentries h
  | cons => simp [UnitMap.toJson, JsObject.counts, UnitMap.counts, hentries, hasFields]

theorem ReceiptBody.Accepted.safeNumbers {ids : String → Digest} {reg : Registry} {body : ReceiptBody}
    (h : body.Accepted ids reg) :
    ∃ rail output, (body.toLedger ids rail output).SafeNumbers ∧
      ∀ binding ∈ body.workflowOutput, ∀ entry ∈ binding.metrics.counts, isSafeInteger entry.2 := by
  obtain ⟨ledgerBody, hbody, hvalid⟩ := h.valid
  simp only [ReceiptBody.ledgerBody, Option.pure_def, Option.bind_eq_bind, Option.bind_eq_some_iff] at hbody
  obtain ⟨rail, -, output, houtput, ⟨⟩⟩ := hbody
  have hsafe := validateReceiptBody_safeNumbers hvalid
  refine ⟨rail, output, hsafe, ?_⟩
  intro binding hbinding
  rw [Option.mem_def.mp hbinding] at houtput
  simp only [WorkflowOutputBinding.ledgerOutput, Option.mapM_some, Option.pure_def, Option.bind_eq_bind,
    Option.map_eq_map, Option.map_eq_some_iff, Option.bind_eq_some_iff] at houtput
  obtain ⟨_, ⟨_, -, ⟨⟩⟩, rfl⟩ := houtput
  exact hsafe.metrics _ rfl

theorem parsed_nullable (value : Option Json) (h : ∀ j ∈ value, parsed numbers j = j) :
    parsed numbers (nullable value) = nullable value := by
  cases value with
  | none => rfl
  | some j => exact h j rfl

theorem usageAttribution_eq {m : UnitMap} (h : parsed numbers m.toJson = m.toJson) :
    ((if m.entries = [] then none else some m.toJson).map (parsed numbers)).filter hasFields =
      if m.entries = [] then none else some m.toJson := by
  split
  . rfl
  . next hne => rw [Option.map_some, h, Option.filter_some, if_pos (hasFields_toJson hne)]

section Accepted

variable {ids : String → Digest} {rail : Rail} {output : Option WorkflowOutput} {body : ReceiptBody}

theorem lockedRateMap_kept (hsafe : (body.toLedger ids rail output).SafeNumbers) :
    (body.lockedRateMap.map fun entry => record entry.entries).map (parsed numbers) =
      body.lockedRateMap.map fun entry => record entry.entries := by
  rw [List.map_map]
  apply List.map_congr_left
  intro entry hmem
  exact entry.parsed_entries numbers (hsafe.lockedRateMap _ (List.mem_map_of_mem hmem))

theorem usageAttribution_kept (hsafe : (body.toLedger ids rail output).SafeNumbers) :
    parsed numbers body.usageAttribution.toJson = body.usageAttribution.toJson := by
  have hentries : ∀ entry ∈ body.usageAttribution.counts, entry.1 ∈ usageAttributionAxes ∧
    isSafeInteger entry.2 := by
    intro entry hmem
    have hne : body.usageAttribution.entries ≠ [] := by
      intro hnil
      simp [UnitMap.counts, hnil] at hmem
    exact hsafe.usageAttribution entry (by simpa [ReceiptBody.toLedger, hne] using hmem)
  have haxes : ∀ axis ∈ usageAttributionAxes, arrayIndex axis = none := by decide +kernel
  rw [UnitMap.parsed_eq_iff numbers fun entry hmem => (hentries entry hmem).2, ← UnitMap.ownOrder_eq_self_iff]
  apply ownOrder_of_not_index
  intro _ hname
  obtain ⟨entry, hmem, rfl⟩ := List.mem_map.mp hname
  exact haxes _ (hentries entry hmem).1

theorem workflow_kept_iff (hsafe : (body.toLedger ids rail output).SafeNumbers) :
    (body.workflow.map fun workflow => canonicalWorkflowBinding (parsed numbers (record workflow.entries))) =
      (body.workflow.map fun workflow => record workflow.entries) ↔
    ∀ workflow ∈ body.workflow, workflow.quotedUsage.KeepsOrder := by
  cases hworkflow : body.workflow with
  | none => simp
  | some workflow =>
    have hquoted : ∀ entry ∈ workflow.quotedUsage.counts, isSafeInteger entry.2 :=
      hsafe.quotedUsage (workflow.ledgerWorkflow ids) (by simp [ReceiptBody.toLedger, hworkflow])
    simp [canonicalWorkflowBinding_eq_iff numbers hquoted]

theorem workflowOutput_kept_iff
    (hmetrics : ∀ binding ∈ body.workflowOutput, ∀ entry ∈ binding.metrics.counts, isSafeInteger entry.2) :
    (body.workflowOutput.map fun output => canonicalWorkflowOutput (parsed numbers (record output.entries))) =
      (body.workflowOutput.map fun output => record output.entries) ↔
    ∀ output ∈ body.workflowOutput, output.metrics.KeepsOrder := by
  cases houtput : body.workflowOutput with
  | none => simp
  | some output => simp [canonicalWorkflowOutput_eq_iff numbers (hmetrics output houtput)]

end Accepted

/--
For a receipt that the contract accepts, the contract writes the bytes that were signed if and only if it lists
the units and metrics of the receipt in the order of their names.
-/
theorem receipt_bytes_eq_iff (ids : String → Digest) (reg : Registry) (body : ReceiptBody)
    (h : body.Accepted ids reg) :
    receiptMessage (envelopeBody numbers (parsed numbers body.toJson)) = receiptSigningBytes body ↔
      body.KeepsOrder := by
  obtain ⟨_, output, hsafe, hmetrics⟩ := h.safeNumbers
  have hread32 (n : UInt32) : numbers.read n.toNat = n.toNat :=
    numbers.read_of_safe _ (by have := n.toNat_lt; omega)
  have hread (n : UInt64) (hn : isSafeInteger n.toNat) : numbers.read n.toNat = n.toNat :=
    numbers.read_of_safe _ hn
  have hbracket : parsed numbers (nullable (body.ctxBracket.map Json.str)) =
    nullable (body.ctxBracket.map Json.str) :=
    parsed_nullable numbers _ (by simp [parsed])
  have hver : parsed numbers (nullable (body.ctxBracketTableVer.map fun ver => Json.nat ver.toNat)) =
      nullable (body.ctxBracketTableVer.map fun ver => Json.nat ver.toNat) :=
    parsed_nullable numbers _ (by simp [parsed, hread32])
  have hfields : (∀ entry ∈ body.entries, canonicalField entry.1 (entry.2.map (parsed numbers)) = entry.2) ↔
      body.billingPriorUsage.KeepsOrder ∧ (∀ workflow ∈ body.workflow, workflow.quotedUsage.KeepsOrder) ∧
        (∀ output ∈ body.workflowOutput, output.metrics.KeepsOrder) ∧ body.usage.KeepsOrder := by
    rw [← workflow_kept_iff numbers hsafe, ← workflowOutput_kept_iff numbers hmetrics,
      ← UnitMap.parsed_eq_iff numbers hsafe.usage, ← UnitMap.parsed_eq_iff numbers hsafe.billingPriorUsage]
    simp [ReceiptBody.entries, canonicalField, parsed, parsedItems_eq, MoneyAu.toJson, hread32,
      hread _ hsafe.billingEpoch, hread _ hsafe.reservationExpiresAfterEpoch,
      hread _ hsafe.reservationReceiptGraceEpochs, hread _ hsafe.seq, hread _ hsafe.priceVer,
      hread _ hsafe.rulesVer, hread _ hsafe.ts, hbracket, hver, lockedRateMap_kept numbers hsafe,
      usageAttribution_eq numbers (usageAttribution_kept numbers hsafe), Function.comp_def]
  rw [receiptMessage_eq_iff, hfields]
  constructor
  . rintro ⟨hprior, hworkflow, houtput, husage⟩
    exact ⟨hprior, husage, hworkflow, houtput⟩
  . exact fun hkeeps => ⟨hkeeps.billingPriorUsage, hkeeps.quotedUsage, hkeeps.metrics, hkeeps.usage⟩

def twoUnitReceipt (a b : String) (h : a < b) : ReceiptBody where
  schemaVersion := 11
  sessionId := "s"
  billingId := String.ofList (List.replicate 64 '1')
  billingAttempt := 0
  billingPriorUsage := ⟨[], UnitMap.sorted_nil⟩
  billingPriorAuOwedCum := 0
  billingEpoch := 1
  reservationId := String.ofList (List.replicate 64 '2')
  reservationExpiresAfterEpoch := 25
  reservationReceiptGraceEpochs := 6
  payoutRevision := String.ofList (List.replicate 64 '3')
  seq := 0
  finalReceipt := true
  rail := "tnk"
  user := String.ofList (List.replicate 64 '4')
  provider := String.ofList (List.replicate 64 '5')
  enclaveId := "e"
  modelId := "m"
  priceVer := 1
  lockedRateMap := [⟨a, 1, 1⟩, ⟨b, 1, 1⟩]
  lockedPerReqAu := 0
  lockedMinSessionAu := 0
  servedCtx := 0
  ctxBracket := none
  ctxBracketTableVer := none
  rulesVer := 1
  workflow := none
  workflowOutput := none
  usage := ⟨[(a, 1), (b, 1)], by simpa using h⟩
  usageAttribution := ⟨[], UnitMap.sorted_nil⟩
  auOwedCum := 2
  promptHash := "p"
  ts := 0

def speechRegistry : Registry :=
  { Registry.empty with enclaves := Table.empty.put 40 ⟨.active, .admin, "m", some .stt, 0, [.audio], [30]⟩ }

def exactNumbers : Numbers := ⟨fun n => n, fun _ _ => rfl, fun _ => rfl⟩

theorem digitReceipt_accepted : (twoUnitReceipt "10" "9" (by decide)).Accepted (fun _ => 40) speechRegistry where
  texts := by decide +kernel
  keys := by decide +kernel
  graphHash := by rintro _ ⟨⟩
  valid := ⟨_, rfl, by decide +kernel⟩

theorem audioReceipt_accepted :
    (twoUnitReceipt "audio_second" "image" (by decide)).Accepted (fun _ => 40) speechRegistry where
  texts := by decide +kernel
  keys := by decide +kernel
  graphHash := by rintro _ ⟨⟩
  valid := ⟨_, rfl, by decide +kernel⟩

theorem receipt_bytes_eq_audio : receiptMessage (envelopeBody exactNumbers (parsed exactNumbers
      (twoUnitReceipt "audio_second" "image" (by decide)).toJson)) =
      receiptSigningBytes (twoUnitReceipt "audio_second" "image" (by decide)) :=
  (receipt_bytes_eq_iff exactNumbers _ _ _ audioReceipt_accepted).mpr {
    billingPriorUsage := by decide +kernel
    usage := by decide +kernel
    quotedUsage := by rintro _ ⟨⟩
    metrics := by rintro _ ⟨⟩ }

/--
A receipt over the units `9` and `10` is accepted, but the contract writes `9` before `10`
and the signer `10` before `9`.
-/
theorem digit_units_change_bytes : (twoUnitReceipt "10" "9" (by decide)).Accepted (fun _ => 40) speechRegistry ∧
      receiptMessage (envelopeBody exactNumbers
        (parsed exactNumbers (twoUnitReceipt "10" "9" (by decide)).toJson)) ≠
        receiptSigningBytes (twoUnitReceipt "10" "9" (by decide)) := by
  refine ⟨digitReceipt_accepted, ?_⟩
  rw [Ne, receiptMessage_eq_iff]
  intro hfields
  have husage := hfields ("usage", some (twoUnitReceipt "10" "9" (by decide)).usage.toJson)
    (by simp [ReceiptBody.entries])
  have hsame : parsed exactNumbers (twoUnitReceipt "10" "9" (by decide)).usage.toJson =
      (twoUnitReceipt "10" "9" (by decide)).usage.toJson := by
    simpa [canonicalField] using husage
  rw [UnitMap.parsed_eq_iff exactNumbers (by decide +kernel)] at hsame
  exact absurd hsame (by decide +kernel)

end Proto

end Mayhem
