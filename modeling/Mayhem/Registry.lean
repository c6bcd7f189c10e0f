import Mayhem.Lib.Table
import Mayhem.Basic

/-!
This module contains the part of the ledger that says who may serve what on which terms.
-/

namespace Mayhem

inductive RecordStatus where
  | active
  | inactive
  | banned
  | tombstoned
  | retired
  | slashed
deriving DecidableEq

inductive Role where
  | admin
  | genesis
deriving DecidableEq

inductive ModelClass where
  | textGeneration
  | embedding
  | imageGeneration
  | videoGeneration
  | tts
  | stt
  | audioGeneration
  | musicGeneration
  | workflow
deriving DecidableEq

inductive Modality where
  | text
  | embedding
  | image
  | video
  | audio
deriving DecidableEq

structure ProviderRecord where
  status : RecordStatus
  acceptedRails : List Rail
  enclaves : List Digest
  successfulSessions : Nat

structure EnclaveRecord where
  status : RecordStatus
  createdByRole : Role
  modelId : String
  modelClass : Option ModelClass
  ctxMax : Nat
  modalitySet : List Modality
  providers : List PublicKey

structure ServeRecord where
  status : RecordStatus
  servedCtx : Nat
  servedModalities : List Modality
  servedSpecialities : List (String × List String)
  ctxBracket : Option String
  ctxBracketTableVer : Option Nat

structure CtxBracket where
  id : String
  maxCtx : Option Nat

structure CtxBracketTable where
  ver : Nat
  brackets : List CtxBracket
  effectiveAt : Nat

structure CtxBracketSchedule where
  current : CtxBracketTable
  pending : Option CtxBracketTable

structure RulesRecord where
  ver : Nat
  hash : Digest
deriving DecidableEq

structure TapScope where
  chainId : Nat
  poolAddress : Nat
deriving DecidableEq

structure TnkPaymentConfig where
  network : String
  treasuryAddress : String

structure PaymentConfig where
  setByRole : Role
  tap : Option TapScope
  setBy : PublicKey
  ver : Nat
  tapTokenAddress : Nat
  tnk : Option TnkPaymentConfig

structure PayoutBinding where
  verified : Bool
  provider : PublicKey
  rail : Rail
  revision : Digest
  activationEpoch : Nat
  target : String
  currency : Option String
  chainId : Option Nat
  stripeProcessorRevision : Option Digest

structure PayoutPointer where
  currentRevision : Digest
  pendingRevision : Option Digest
  pendingActivationEpoch : Nat

structure StripeVerification where
  ready : Bool
  target : String
  processorRevision : Option Digest

inductive ParamKey where
  | probationSuccessfulSessions
  | probationSeconds
  | probationMaxConcurrentSessionsPerUser
  | probationPriceMaxBps
  | probationWeightBps
  | auditorMinReputationBps
  | auditorMinAgeSeconds
  | canaryMatchMinBps
  | canaryProbeHoldbackBps
  | canaryProbeReleaseMinPasses
  | probeRewardAu
  | uptimeTickSeconds
  | fraudSlashBps
  | disputeLostSlashBps
  | newProviderHoldbackEpochs
  | holdbackEpochs
  | minTierNoticeEpochs
  | feeBps
  | disputeDepositAu
  | disputeTimeoutEpochs
  | maxOpenDisputesPerOpener
  | disputeOpenerFaultForfeitBps
  | payoutMinAu
  | priceMinBps
  | priceMaxBps
  | priceRateLimitSeconds
  | marketTargetUtilizationBps
  | marketEmaAlphaBps
  | marketGainBps
  | marketMaxStepBps
  | marketColdStartMinProviders
  | marketProviderEpochTargetAu
  | marketMaxUtilizationBps
  | marketBelowTargetDiscountBps
  | marketAboveTargetSlopeBps
  | epochSeconds
  | reservationMaxLifetimeEpochs
  | reservationReceiptGraceEpochs
  | rateStalenessSeconds
  | rulesGraceSeconds
  | challengeEpochs
  | maxApplyBatch
  | maxMarketUsageEntries
  | maxTapSettlementOutputs
  | maxTnkSettlementOutputs
  | maxFiatSettlementOutputs
  | paramActivationDelaySeconds
deriving DecidableEq

namespace ParamKey

def default : ParamKey → Nat
  | probationSuccessfulSessions => 50
  | probationSeconds => 7 * 24 * 60 * 60
  | probationMaxConcurrentSessionsPerUser => 2
  | probationPriceMaxBps => 10000
  | probationWeightBps => 5000
  | auditorMinReputationBps => 8000
  | auditorMinAgeSeconds => 30 * 24 * 60 * 60
  | canaryMatchMinBps => 9000
  | canaryProbeHoldbackBps => 0
  | canaryProbeReleaseMinPasses => 2
  | probeRewardAu => 5000000000000000
  | uptimeTickSeconds => 6 * 60 * 60
  | fraudSlashBps => 10000
  | disputeLostSlashBps => 2000
  | newProviderHoldbackEpochs => 168
  | holdbackEpochs => 24
  | minTierNoticeEpochs => 24
  | feeBps => 1500
  | disputeDepositAu => 1000000000000000000
  | disputeTimeoutEpochs => 168
  | maxOpenDisputesPerOpener => 8
  | disputeOpenerFaultForfeitBps => 2500
  | payoutMinAu => 1000000000000000000
  | priceMinBps => 2500
  | priceMaxBps => 40000
  | priceRateLimitSeconds => 6 * 60 * 60
  | marketTargetUtilizationBps => 8500
  | marketEmaAlphaBps => 2500
  | marketGainBps => 5000
  | marketMaxStepBps => 1000
  | marketColdStartMinProviders => 2
  | marketProviderEpochTargetAu => 1000000000000000000
  | marketMaxUtilizationBps => 50000
  | marketBelowTargetDiscountBps => 2500
  | marketAboveTargetSlopeBps => 15000
  | epochSeconds => 3600
  | reservationMaxLifetimeEpochs => 24
  | reservationReceiptGraceEpochs => 6
  | rateStalenessSeconds => 45 * 60
  | rulesGraceSeconds => 14 * 24 * 60 * 60
  | challengeEpochs => 6
  | maxApplyBatch => 2000
  | maxMarketUsageEntries => 5000
  | maxTapSettlementOutputs => 5000
  | maxTnkSettlementOutputs => 5000
  | maxFiatSettlementOutputs => 5000
  | paramActivationDelaySeconds => 24 * 60 * 60

end ParamKey

structure ParamEntry where
  value : Nat
  effectiveAt : Nat
  ver : Nat
  submittedAt : Nat
  setBy : Option PublicKey
  setAt : Option Digest
deriving DecidableEq

structure ParamRecord where
  current : ParamEntry
  pending : Option ParamEntry
deriving DecidableEq

structure ParamMeta where
  ver : Nat
  keys : List ParamKey
  setBy : PublicKey
  updatedAt : Digest
  effectiveAt : Nat
deriving DecidableEq

structure ParamUpdate where
  ver : Nat
  values : List (ParamKey × Nat)
  submittedAt : Nat
  effectiveAt : Nat
  setBy : PublicKey
  tx : Digest
deriving DecidableEq

structure Registry where
  admin : Option PublicKey
  rules : Option RulesRecord
  consents : Table PublicKey RulesRecord
  frozen : Table PublicKey Bool
  providers : Table PublicKey ProviderRecord
  enclaves : Table Digest EnclaveRecord
  serves : Table (PublicKey × Digest) ServeRecord
  ctxBrackets : Option CtxBracketSchedule
  ctxBracketTables : Table Nat CtxBracketTable
  params : Table ParamKey ParamRecord
  paramMeta : Option ParamMeta
  paramUpdates : Table Nat ParamUpdate
  payments : Option PaymentConfig
  payoutBindings : Table (Rail × PublicKey × Digest) PayoutBinding
  payoutPointers : Table (PublicKey × Rail) PayoutPointer
  stripeVerifications : Table (PublicKey × String) StripeVerification

namespace Registry

def empty : Registry where
  admin := none
  rules := none
  consents := .empty
  frozen := .empty
  providers := .empty
  enclaves := .empty
  serves := .empty
  ctxBrackets := none
  ctxBracketTables := .empty
  params := .empty
  paramMeta := none
  paramUpdates := .empty
  payments := none
  payoutBindings := .empty
  payoutPointers := .empty
  stripeVerifications := .empty

def requireAdmin (reg : Registry) (sender : PublicKey) : Except String Unit :=
  rejectIf (reg.admin ≠ some sender) "Admin required."

def requireConsent (reg : Registry) (sender : PublicKey) : Except String Unit := do
  let rules ← requireSome reg.rules "Rules are not set."
  rejectIf (reg.consents.get sender ≠ some rules)
    ("Consent required for rules version " ++ toString rules.ver ++ ".")
  rejectIf (reg.frozen.get sender = some true) "Account frozen."

def safeMarketBound (entry : ParamEntry) : Bool := 2500 ≤ entry.value ∧ entry.value ≤ 40000

def sanitizeMarketBoundRecord (key : ParamKey) (record : ParamRecord) : ParamRecord :=
  if key ≠ .priceMinBps ∧ key ≠ .priceMaxBps then record
  else
    { current :=
        if safeMarketBound record.current then record.current
        else { record.current with value := key.default }
      pending := record.pending.filter safeMarketBound }

def paramRecord (reg : Registry) (key : ParamKey) : ParamRecord :=
  match reg.params.get key with
  | some existing => sanitizeMarketBoundRecord key existing
  | none => { current := ⟨key.default, 0, 0, 0, none, none⟩, pending := none }

def paramActiveEntry (record : ParamRecord) (time : Nat) : ParamEntry :=
  match record.pending with
  | some pending => if pending.effectiveAt ≤ time then pending else record.current
  | none => record.current

def activeParamAt (reg : Registry) (time : Nat) (key : ParamKey) : Nat :=
  (paramActiveEntry (reg.paramRecord key) time).value

def ctxBracketTableVersion : Nat := 1

def defaultCtxBracketTableRecord : CtxBracketTable where
  ver := ctxBracketTableVersion
  brackets := [⟨"le8k", some 8192⟩, ⟨"le32k", some 32768⟩, ⟨"le128k", some 131072⟩,
    ⟨"le256k", some 262144⟩, ⟨"gt256k", none⟩]
  effectiveAt := 0

def ctxBracketSchedule (reg : Registry) : CtxBracketSchedule :=
  reg.ctxBrackets.getD ⟨defaultCtxBracketTableRecord, none⟩

def ctxBracketTableAt (reg : Registry) (time : Nat) : CtxBracketTable :=
  let schedule := reg.ctxBracketSchedule
  match schedule.pending with
  | some pending => if pending.effectiveAt ≤ time then pending else schedule.current
  | none => schedule.current

def ctxBracketTableByVersion (reg : Registry) (ver : Nat) : Except String CtxBracketTable := do
  rejectIf (¬ isSafeInteger ver ∨ ver < 1) "Invalid context bracket table version."
  if ver = ctxBracketTableVersion then
    return defaultCtxBracketTableRecord
  requireSome (reg.ctxBracketTables.get ver) "Unknown context bracket table version."

def ctxBracketForTokens (tokens : Nat) (table : List CtxBracket) : Option String :=
  if ¬ isSafeInteger tokens then none
  else
    (table.find? fun entry =>
      match entry.maxCtx with
      | none => true
      | some maxCtx => tokens ≤ maxCtx).map CtxBracket.id

def enclaveUsesCtxPrice (enclave : EnclaveRecord) : Bool :=
  enclave.modelClass = some .textGeneration

def validateCtxBracketEvidence (tokens : Nat) (bracket : Option String) (tableVer : Option Nat)
    (table : Option CtxBracketTable) (label : String) : Except String Unit := do
  let bracket ← requireSome bracket ("Invalid " ++ label ++ " context bracket.")
  let tableVer ← requireSome tableVer ("Invalid " ++ label ++ " context bracket table version.")
  let table ← requireSome table (label ++ " context bracket table version mismatch.")
  rejectIf (table.ver ≠ tableVer) (label ++ " context bracket table version mismatch.")
  rejectIf (bracket ∉ table.brackets.map CtxBracket.id) ("Invalid " ++ label ++ " context bracket.")
  rejectIf (ctxBracketForTokens tokens table.brackets ≠ some bracket)
    (label ++ " context bracket does not match served context.")

def normalizeCtxBracketEvidenceForEnclave (reg : Registry) (enclaveId : Digest) (tokens : Nat)
    (bracket : Option String) (tableVer : Option Nat) (table : Option CtxBracketTable)
    (label : String) : Except String Unit := do
  let enclave ← requireSome (reg.enclaves.get enclaveId) (label ++ " enclave not found.")
  if enclaveUsesCtxPrice enclave then
    validateCtxBracketEvidence tokens bracket tableVer table label
  else
    rejectIf (bracket.isSome)
      (label ++ " context bracket is only valid for text-generation enclaves.")
    rejectIf (tableVer.isSome)
      (label ++ " context bracket table version is only valid for text-generation enclaves.")

def checkCtxBracket (reg : Registry) (enclaveId : Digest) (tokens : Nat) (bracket : Option String)
    (tableVer : Option Nat) (label : String) : Except String Unit := do
  let table ← match tableVer with
    | none => pure none
    | some ver => some <$> reg.ctxBracketTableByVersion ver
  reg.normalizeCtxBracketEvidenceForEnclave enclaveId tokens bracket tableVer table label

def canonicalTapPaymentConfig (reg : Registry) : Except String (Option TapScope) :=
  match reg.payments with
  | none => .ok none
  | some payments => do
    rejectIf (payments.setByRole ≠ .admin) "Canonical TAP payment config required."
    let tap ← requireSome payments.tap "Canonical TAP payment config required."
    rejectIf (¬ isSafeInteger tap.chainId ∨ tap.chainId < 1) "Canonical TAP chain id is invalid."
    return some tap

def providerPayoutBindingForEpoch (reg : Registry) (provider : PublicKey) (rail : Rail)
    (revision : Digest) (epoch : Nat) (requireCurrentReadiness : Bool) :
    Except String PayoutBinding := do
  rejectIf (¬ isSafeInteger epoch ∨ epoch < 1) "Invalid targeted payout binding reference."
  let binding ← requireSome (reg.payoutBindings.get (rail, provider, revision))
    "Active verified provider payout binding required."
  rejectIf (¬ binding.verified ∨ binding.provider ≠ provider ∨ binding.rail ≠ rail ∨
    binding.revision ≠ revision) "Active verified provider payout binding required."
  rejectIf (binding.activationEpoch > epoch)
    "Provider payout binding is not active for targeted epoch."
  let pointer ← requireSome (reg.payoutPointers.get (provider, rail))
    "Provider payout binding pointer required."
  let activeRevision :=
    match pointer.pendingRevision with
    | some pending =>
      if pointer.pendingActivationEpoch ≤ epoch then pending else pointer.currentRevision
    | none => pointer.currentRevision
  rejectIf (activeRevision ≠ revision)
    "Provider payout binding revision is not active for targeted epoch."
  if requireCurrentReadiness ∧ rail = .fiat then
    let verification ← requireSome (reg.stripeVerifications.get (provider, binding.target))
      "Provider Stripe payout binding is not currently ready."
    rejectIf (¬ verification.ready ∨ verification.target ≠ binding.target ∨
      verification.processorRevision ≠ binding.stripeProcessorRevision)
      "Provider Stripe payout binding is not currently ready."
  return binding

end Registry

end Mayhem
