import Mayhem.Ledger

namespace Mayhem

namespace ParamKey

def name : ParamKey → String
  | probationSuccessfulSessions => "probation_successful_sessions"
  | probationSeconds => "probation_seconds"
  | probationMaxConcurrentSessionsPerUser => "probation_max_concurrent_sessions_per_user"
  | probationPriceMaxBps => "probation_price_max_bps"
  | probationWeightBps => "probation_weight_bps"
  | auditorMinReputationBps => "auditor_min_reputation_bps"
  | auditorMinAgeSeconds => "auditor_min_age_seconds"
  | canaryMatchMinBps => "canary_match_min_bps"
  | canaryProbeHoldbackBps => "canary_probe_holdback_bps"
  | canaryProbeReleaseMinPasses => "canary_probe_release_min_passes"
  | probeRewardAu => "probe_reward_au"
  | uptimeTickSeconds => "uptime_tick_seconds"
  | fraudSlashBps => "fraud_slash_bps"
  | disputeLostSlashBps => "dispute_lost_slash_bps"
  | newProviderHoldbackEpochs => "new_provider_holdback_epochs"
  | holdbackEpochs => "holdback_epochs"
  | minTierNoticeEpochs => "min_tier_notice_epochs"
  | feeBps => "fee_bps"
  | disputeDepositAu => "dispute_deposit_au"
  | disputeTimeoutEpochs => "dispute_timeout_epochs"
  | maxOpenDisputesPerOpener => "max_open_disputes_per_opener"
  | disputeOpenerFaultForfeitBps => "dispute_opener_fault_forfeit_bps"
  | payoutMinAu => "payout_min_au"
  | priceMinBps => "price_min_bps"
  | priceMaxBps => "price_max_bps"
  | priceRateLimitSeconds => "price_rate_limit_seconds"
  | marketTargetUtilizationBps => "market_target_utilization_bps"
  | marketEmaAlphaBps => "market_ema_alpha_bps"
  | marketGainBps => "market_gain_bps"
  | marketMaxStepBps => "market_max_step_bps"
  | marketColdStartMinProviders => "market_cold_start_min_providers"
  | marketProviderEpochTargetAu => "market_provider_epoch_target_au"
  | marketMaxUtilizationBps => "market_max_utilization_bps"
  | marketBelowTargetDiscountBps => "market_below_target_discount_bps"
  | marketAboveTargetSlopeBps => "market_above_target_slope_bps"
  | epochSeconds => "epoch_seconds"
  | reservationMaxLifetimeEpochs => "reservation_max_lifetime_epochs"
  | reservationReceiptGraceEpochs => "reservation_receipt_grace_epochs"
  | rateStalenessSeconds => "rate_staleness_seconds"
  | rulesGraceSeconds => "rules_grace_seconds"
  | challengeEpochs => "challenge_epochs"
  | maxApplyBatch => "max_apply_batch"
  | maxMarketUsageEntries => "max_market_usage_entries"
  | maxTapSettlementOutputs => "max_tap_settlement_outputs"
  | maxTnkSettlementOutputs => "max_tnk_settlement_outputs"
  | maxFiatSettlementOutputs => "max_fiat_settlement_outputs"
  | paramActivationDelaySeconds => "param_activation_delay_seconds"

def all : List ParamKey :=
  [.probationSuccessfulSessions, .probationSeconds, .probationMaxConcurrentSessionsPerUser, .probationPriceMaxBps,
    .probationWeightBps, .auditorMinReputationBps, .auditorMinAgeSeconds, .canaryMatchMinBps,
    .canaryProbeHoldbackBps, .canaryProbeReleaseMinPasses, .probeRewardAu, .uptimeTickSeconds,
    .fraudSlashBps, .disputeLostSlashBps, .newProviderHoldbackEpochs, .holdbackEpochs,
    .minTierNoticeEpochs, .feeBps, .disputeDepositAu, .disputeTimeoutEpochs,
    .maxOpenDisputesPerOpener, .disputeOpenerFaultForfeitBps, .payoutMinAu, .priceMinBps,
    .priceMaxBps, .priceRateLimitSeconds, .marketTargetUtilizationBps, .marketEmaAlphaBps,
    .marketGainBps, .marketMaxStepBps, .marketColdStartMinProviders, .marketProviderEpochTargetAu,
    .marketMaxUtilizationBps, .marketBelowTargetDiscountBps, .marketAboveTargetSlopeBps, .epochSeconds,
    .reservationMaxLifetimeEpochs, .reservationReceiptGraceEpochs, .rateStalenessSeconds, .rulesGraceSeconds,
    .challengeEpochs, .maxApplyBatch, .maxMarketUsageEntries, .maxTapSettlementOutputs,
    .maxTnkSettlementOutputs, .maxFiatSettlementOutputs, .paramActivationDelaySeconds]

def ofName (name : String) : Option ParamKey := all.find? fun key => key.name = name

end ParamKey

structure ParamBounds where
  min : Nat
  max : Option Nat
  deprecated : Bool

def ParamKey.bounds : ParamKey → ParamBounds
  | probationSuccessfulSessions => ⟨0, some 1000000, false⟩
  | probationSeconds => ⟨0, some (365 * 24 * 60 * 60), false⟩
  | probationMaxConcurrentSessionsPerUser => ⟨1, some 1000000, false⟩
  | probationPriceMaxBps => ⟨0, some 1000000, false⟩
  | probationWeightBps => ⟨0, some 10000, false⟩
  | auditorMinReputationBps => ⟨0, some 10000, false⟩
  | auditorMinAgeSeconds => ⟨0, some (10 * 365 * 24 * 60 * 60), false⟩
  | canaryMatchMinBps => ⟨0, some 10000, false⟩
  | canaryProbeHoldbackBps => ⟨0, some 10000, false⟩
  | canaryProbeReleaseMinPasses => ⟨0, some 1000000, false⟩
  | probeRewardAu => ⟨0, none, false⟩
  | uptimeTickSeconds => ⟨60, some (30 * 24 * 60 * 60), false⟩
  | fraudSlashBps => ⟨0, some 10000, false⟩
  | disputeLostSlashBps => ⟨0, some 10000, false⟩
  | newProviderHoldbackEpochs => ⟨0, some 1000000, false⟩
  | holdbackEpochs => ⟨0, some 1000000, false⟩
  | minTierNoticeEpochs => ⟨1, some 1000000, false⟩
  | feeBps => ⟨0, some 1500, false⟩
  | disputeDepositAu => ⟨1, none, false⟩
  | disputeTimeoutEpochs => ⟨1, some 1000000, false⟩
  | maxOpenDisputesPerOpener => ⟨1, some 1000, false⟩
  | disputeOpenerFaultForfeitBps => ⟨1, some 9999, false⟩
  | payoutMinAu => ⟨0, none, false⟩
  | priceMinBps => ⟨2500, some 40000, false⟩
  | priceMaxBps => ⟨2500, some 40000, false⟩
  | priceRateLimitSeconds => ⟨0, some (365 * 24 * 60 * 60), false⟩
  | marketTargetUtilizationBps => ⟨1, some 9999, true⟩
  | marketEmaAlphaBps => ⟨1, some 10000, false⟩
  | marketGainBps => ⟨1, some 10000, false⟩
  | marketMaxStepBps => ⟨1, some 10000, false⟩
  | marketColdStartMinProviders => ⟨0, some 1000000, true⟩
  | marketProviderEpochTargetAu => ⟨1, none, true⟩
  | marketMaxUtilizationBps => ⟨1, some 1000000, true⟩
  | marketBelowTargetDiscountBps => ⟨0, some 10000, true⟩
  | marketAboveTargetSlopeBps => ⟨0, some 1000000, true⟩
  | epochSeconds => ⟨60, some 86400, false⟩
  | reservationMaxLifetimeEpochs => ⟨1, some 1000000, false⟩
  | reservationReceiptGraceEpochs => ⟨0, some 1000000, false⟩
  | rateStalenessSeconds => ⟨60, some 86400, false⟩
  | rulesGraceSeconds => ⟨0, some (365 * 24 * 60 * 60), false⟩
  | challengeEpochs => ⟨0, some 1000000, false⟩
  | maxApplyBatch => ⟨1, some maxSafeInteger, false⟩
  | maxMarketUsageEntries => ⟨0, some maxSafeInteger, false⟩
  | maxTapSettlementOutputs => ⟨1, some maxSafeInteger, false⟩
  | maxTnkSettlementOutputs => ⟨1, some maxSafeInteger, false⟩
  | maxFiatSettlementOutputs => ⟨1, some maxSafeInteger, false⟩
  | paramActivationDelaySeconds => ⟨0, some (30 * 24 * 60 * 60), false⟩

inductive ParamInput where
  | au (amount : Nat)
  | integer (value : Int)
  | other

structure ParamValues where
  entries : List (String × ParamInput)
  nodup : (entries.map Prod.fst).Nodup

structure SetParamsValue where
  submittedAt : Nat
  effectiveAt : Nat
  values : Option ParamValues

def validateParamKeys (names : List String) : Except String (List ParamKey) := do
  rejectIf (names.length = 0 ∨ names.length > 64) "Invalid parameter keys."
  names.mapM fun name => requireSome (ParamKey.ofName name) ("Unknown parameter " ++ name ++ ".")

def normalizeParamAu (key : ParamKey) (input : ParamInput) : Except String Nat :=
  match input with
  | .au amount => do
    rejectIf (amount = 0 ∧ key.bounds.min ≠ 0) ("Parameter " ++ key.name ++ " must be positive.")
    return amount
  | _ => .error ("Parameter " ++ key.name ++ " must be a canonical decimal string.")

def validateParamValue (key : ParamKey) (input : ParamInput) : Except String Nat := do
  rejectIf key.bounds.deprecated ("Parameter " ++ key.name ++ " is deprecated and read-only.")
  match key.bounds.max with
  | none => do
    let amount ← normalizeParamAu key input
    rejectIf (amount < key.bounds.min) ("Parameter " ++ key.name ++ " is out of range.")
    return amount
  | some max =>
    match input with
    | .integer value => do
      rejectIf (value < key.bounds.min ∨ value > max) ("Parameter " ++ key.name ++ " is out of range.")
      return value.toNat
    | _ => .error ("Parameter " ++ key.name ++ " must be an integer.")

def validateParamValues (values : Option ParamValues) : Except String (List (ParamKey × Nat)) := do
  let values ← requireSome values "Parameter values must be an object."
  rejectIf (values.entries.length = 0) "At least one parameter is required."
  let keys ← validateParamKeys (values.entries.map Prod.fst)
  (keys.zip (values.entries.map Prod.snd)).mapM fun (key, input) => do
    let value ← validateParamValue key input
    return (key, value)

def validateParamBounds (param : ParamKey → Nat) : Except String Unit :=
  rejectIf (param .priceMinBps > param .priceMaxBps) "price_min_bps must not exceed price_max_bps."

namespace Registry

def prepareSetParams (reg : Registry) (sender : PublicKey) (value : SetParamsValue) :
    Except String (List (ParamKey × Nat)) := do
  reg.requireAdmin sender
  rejectIf (value.effectiveAt < value.submittedAt + reg.activeParamAt value.submittedAt
    .paramActivationDelaySeconds)
    "Parameter changes require at least the active param_activation_delay_seconds."
  let values ← validateParamValues value.values
  validateParamBounds fun key => (values.lookup key).getD (reg.activeParamAt value.effectiveAt key)
  return values.insertionSort fun a b => a.1.name ≤ b.1.name

def nextParamVer (reg : Registry) : Nat :=
  match reg.paramMeta with
  | some previous => previous.ver + 1
  | none => 1

def AwaitsChange (reg : Registry) (submittedAt : Nat) (key : ParamKey) : Prop :=
  ∃ pending ∈ (reg.paramRecord key).pending, pending.effectiveAt > submittedAt

instance (reg : Registry) (submittedAt : Nat) (key : ParamKey) : Decidable (reg.AwaitsChange submittedAt key) :=
  inferInstanceAs (Decidable (∃ pending ∈ (reg.paramRecord key).pending, pending.effectiveAt > submittedAt))

def scheduledEntry (sender : PublicKey) (tx : Digest) (value : SetParamsValue) (ver amount : Nat) : ParamEntry :=
  ⟨amount, value.effectiveAt, ver, value.submittedAt, some sender, some tx⟩

def scheduledRecord (reg : Registry) (value : SetParamsValue) (key : ParamKey) (entry : ParamEntry) :
    ParamRecord :=
  ⟨paramActiveEntry (reg.paramRecord key) value.submittedAt, some entry⟩

def scheduleParams (sender : PublicKey) (tx : Digest) (value : SetParamsValue) (ver : Nat) (reg : Registry) :
    List (ParamKey × Nat) → Registry × Except String Unit
  | [] => (reg, .ok ())
  | (key, amount) :: rest =>
    if reg.AwaitsChange value.submittedAt key then
      (reg, .error ("Pending parameter change already scheduled for " ++ key.name ++ "."))
    else
      let record := reg.scheduledRecord value key (scheduledEntry sender tx value ver amount)
      scheduleParams sender tx value ver { reg with params := reg.params.put key record } rest

def setParams (reg : Registry) (sender : PublicKey) (tx : Digest) (value : SetParamsValue) :
    Registry × Except String Nat :=
  match reg.prepareSetParams sender value with
  | .error message => (reg, .error message)
  | .ok changes =>
    let ver := reg.nextParamVer
    match reg.scheduleParams sender tx value ver changes with
    | (written, .error message) => (written, .error message)
    | (written, .ok ()) =>
      ({ written with
        paramUpdates := written.paramUpdates.put ver
          ⟨ver, changes, value.submittedAt, value.effectiveAt, sender, tx⟩
        paramMeta := some ⟨ver, changes.map Prod.fst, sender, tx, value.effectiveAt⟩ }, .ok ver)

end Registry

end Mayhem
