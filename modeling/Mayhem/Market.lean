import Mayhem.Account

/-!
This module contains the prices of enclaves, the admin's price updates and the price controller.
-/

namespace Mayhem

namespace Counts

def union (f : Nat → Nat → Nat) (a b : Counts) : Counts :=
  (a ++ b).foldl (fun acc entry => acc.set entry.1 (f (a.get entry.1) (b.get entry.1))) []

def nonzero (counts : Counts) : Counts := counts.filter fun entry => entry.2 ≠ 0

end Counts

def incrementalSettledUsage (body : ReceiptBody) : Except String Counts := do
  let usage ← (normalizeReceiptUsage body.usage).mapError
    fun _ => "Canonical receipt activity usage is invalid."
  let prior ← (normalizeReceiptUsage body.billingPriorUsage).mapError
    fun _ => "Canonical receipt activity usage is invalid."
  let billed ← normalizeLockedRateMap body.lockedRateMap "activity locked rates"
  rejectIf (∃ entry ∈ prior, usage.get entry.1 < entry.2)
    "Canonical receipt activity regressed below billing baseline."
  return ((Counts.union (· - ·) usage prior).nonzero).filter
    fun entry => entry.1 ∈ billed.map RateEntry.unit

def addSettledUsage (left right : Counts) : Except String Counts := do
  rejectIf (∃ entry ∈ left ++ right, ¬ isSafeKeyPart entry.1) "Invalid settled activity unit."
  return (Counts.union (· + ·) left right).nonzero

def calibratedActivityWork (usage : Counts) (calibration : ActivityCalibration) : Except String Nat :=
  usage.foldlM (fun work entry => do
    let dimension ← requireSome
      (calibration.dimensions.reverse.find? fun dimension => dimension.unit = entry.1)
      "Settled unit is missing its signed activity calibration."
    return work + entry.2 * dimension.workUs * 1000000 / dimension.units) 0

def marketActivityMomentum (current previous : Nat) (constants : MarketConstants) : Nat :=
  let raw :=
    if previous > 0 then current * 10000 / previous
    else if current > 0 then constants.maxMomentumBps
    else 0
  min raw constants.maxMomentumBps

def marketActivityEma (previous current : Nat) (constants : MarketConstants) : Nat :=
  (previous * (10000 - constants.emaAlphaBps) + current * constants.emaAlphaBps) / 10000

def marketActivityVector (usage : Counts) (epochSeconds : Nat) : Counts :=
  usage.map fun entry => (entry.1, entry.2 * 1000000000000 / epochSeconds)

def marketVectorMomentum (current previous : Counts) (constants : MarketConstants) : Nat :=
  let units := (Counts.union (· + ·) current previous).nonzero
  (units.map fun entry =>
    marketActivityMomentum (current.get entry.1) (previous.get entry.1) constants).sum / units.length

def marketVectorEma (previous current : Counts) (constants : MarketConstants) : Counts :=
  Counts.union (marketActivityEma · · constants) previous current

def modelClassRateUnits : ModelClass → List String
  | .textGeneration => ["input_token", "cached_input_token", "output_token"]
  | .embedding => ["input_token", "embedding"]
  | .imageGeneration => ["image", "step"]
  | .videoGeneration => ["video_second", "frame"]
  | .tts => ["input_character", "audio_second"]
  | .stt => ["audio_second"]
  | .audioGeneration => ["input_character", "audio_second"]
  | .musicGeneration => ["input_character", "audio_second"]
  | .workflow => ["megapixel_step", "megapixel", "pixel_frame", "compute_second", "audio_second",
      "input_character", "frame", "image", "step", "video_second"]

def ModelClass.name : ModelClass → String
  | .textGeneration => "text-generation"
  | .embedding => "embedding"
  | .imageGeneration => "image-generation"
  | .videoGeneration => "video-generation"
  | .tts => "tts"
  | .stt => "stt"
  | .audioGeneration => "audio-generation"
  | .musicGeneration => "music-generation"
  | .workflow => "workflow"

def normalizeRateMap (rateMap : List RateEntry) : List RateEntry :=
  rateMap.foldl (fun sorted entry => insertRate entry sorted) []

def validateRateEntry (modelClass : ModelClass) (label : String) (seen : List String)
    (entry : RateEntry) : Except String (List String) := do
  rejectIf (entry.unit.length = 0 ∨ entry.unit.length > 64)
    (label ++ " unit must be a non-empty string.")
  rejectIf (entry.unit ∉ modelClassRateUnits modelClass)
    (label ++ " unit " ++ entry.unit ++ " is not allowed for model_class " ++ modelClass.name ++ ".")
  rejectIf (entry.unit ∈ seen) (label ++ " has duplicate unit " ++ entry.unit ++ ".")
  rejectIf (¬ isSafeInteger entry.granularity ∨ entry.granularity = 0)
    (label ++ " granularity must be a positive integer.")
  return entry.unit :: seen

def validateRateMap (rateMap : List RateEntry) (modelClass : ModelClass) (label : String) :
    Except String Unit := do
  rejectIf (rateMap.length = 0 ∨ rateMap.length > rateMapMaxEntries)
    (label ++ " must be a non-empty array with at most 16 entries.")
  let _ ← rateMap.foldlM (validateRateEntry modelClass label) []
  return ()

def requiredModalityUnits : ModelClass → List String
  | .textGeneration => ["input_token", "output_token"]
  | .embedding => ["input_token"]
  | .imageGeneration => ["image", "step"]
  | .videoGeneration => ["video_second", "frame"]
  | .tts | .audioGeneration | .musicGeneration => ["input_character", "audio_second"]
  | .stt => ["audio_second"]
  | .workflow => []

def validateEnclaveModalityRateMap (enclave : EnclaveRecord) (modelClass : ModelClass)
    (rateMap : List RateEntry) : Except String Unit := do
  validateModalitySet enclave.modalitySet "Enclave caps modality_set"
  (requiredModalityUnits modelClass).forM fun unit =>
    rejectIf (unit ∉ rateMap.map RateEntry.unit)
      ("Enclave price rate_map is missing required modality unit " ++ unit ++ ".")

def rateMapUnits (rateMap : List RateEntry) : List String := (rateMap.map RateEntry.unit).eraseDups

def rateWithinBounds (price ref : RateEntry) (minBps maxBps : Nat) : Bool :=
  decide (ref.perUnitAu ≠ 0 ∧ isSafeInteger ref.granularity ∧ ref.granularity ≠ 0 ∧
    isSafeInteger price.granularity ∧ price.granularity ≠ 0 ∧
    ref.perUnitAu * price.granularity * max 2500 minBps ≤ price.perUnitAu * ref.granularity * 10000 ∧
    price.perUnitAu * ref.granularity * 10000 ≤ ref.perUnitAu * price.granularity * min 40000 maxBps)

def validateRateMapBounds (price reference : List RateEntry) (minBps maxBps : Nat) : Except String Unit := do
  rejectIf ((rateMapUnits price).length ≠ (rateMapUnits reference).length)
    "Price rate_map units must match model reference rate_map units."
  (rateMapUnits reference).forM fun unit => do
    let priceEntry ← requireSome (rateMapByUnit price unit)
      ("Price rate_map is missing model reference unit " ++ unit ++ ".")
    rejectIf (¬ ∃ ref ∈ rateMapByUnit reference unit, rateWithinBounds priceEntry ref minBps maxBps)
      ("Price rate_map unit " ++ unit ++ " outside model reference bounds.")

def scalePriceTerm (amount : Nat) (multiplierBps : Nat) : Nat :=
  if amount = 0 then 0 else max ((amount * multiplierBps + 5000) / 10000) 1

def stepPriceTerm (current desired : Nat) (constants : MarketConstants) : Nat :=
  if current = desired then current
  else if current = 0 then desired
  else
    let delta := if current > desired then current - desired else desired - current
    let gained := max (delta * constants.gainBps / 10000) 1
    let maxStep := max (current * constants.maxStepBps / 10000) 1
    let step := min gained maxStep
    if desired > current then current + step else current - step

def scaleRateMap (rateMap : List RateEntry) (multiplierBps : Nat) : List RateEntry :=
  normalizeRateMap (rateMap.map fun entry =>
    { entry with perUnitAu := scalePriceTerm entry.perUnitAu multiplierBps })

def stepRateMap (current desired : List RateEntry) (constants : MarketConstants) :
    Except String (List RateEntry) := do
  let stepped ← current.mapM fun entry => do
    let target ← requireSome
      ((rateMapByUnit desired entry.unit).filter fun target =>
        target.granularity = entry.granularity)
      "Market price rate_map shape changed."
    return { entry with perUnitAu := stepPriceTerm entry.perUnitAu target.perUnitAu constants }
  return normalizeRateMap stepped

def clampRate (reference : List RateEntry) (minBps maxBps : Nat) (entry : RateEntry) :
    Except String RateEntry := do
  let ref ← requireSome (rateMapByUnit reference entry.unit) "Invalid market price rate_map bounds."
  rejectIf (ref.perUnitAu = 0 ∨ ¬ isSafeInteger entry.granularity ∨ entry.granularity = 0 ∨
    ¬ isSafeInteger ref.granularity ∨ ref.granularity = 0) "Invalid market price rate_map bounds."
  let denominator := ref.granularity * 10000
  let scaledReference := ref.perUnitAu * entry.granularity
  let lower := (scaledReference * max 2500 minBps + denominator - 1) / denominator
  let upper := scaledReference * min 40000 maxBps / denominator
  rejectIf (lower > upper) ("Model reference bounds cannot represent unit " ++ entry.unit ++ ".")
  return { entry with perUnitAu := max lower (min entry.perUnitAu upper) }

def clampRateMapBounds (price reference : List RateEntry) (minBps maxBps : Nat) :
    Except String (List RateEntry) := do
  rejectIf ((rateMapUnits price).length ≠ (rateMapUnits reference).length)
    "Market price rate_map units must match model reference rate_map units."
  let bounded ← price.mapM (clampRate reference minBps maxBps)
  return normalizeRateMap bounded

def validateActivityCalibration (calibration : ActivityCalibration)
    (modelClass : Option ModelClass) (rateMap : List RateEntry) : Except String Unit := do
  let units := calibration.dimensions.map CalibrationDimension.unit
  rejectIf (units.length < 1 ∨ units.length > rateMapMaxEntries)
    "Invalid activity calibration metadata."
  rejectIf (¬ units.Nodup ∨ ∃ dimension ∈ calibration.dimensions,
    (¬ ∃ c ∈ modelClass, dimension.unit ∈ modelClassRateUnits c) ∨
    dimension.units = 0 ∨ dimension.units ≥ 10 ^ 18 ∨
    dimension.workUs = 0 ∨ dimension.workUs ≥ 10 ^ 18) "Invalid activity calibration dimension."
  rejectIf (units.insertionSort (· ≤ ·) ≠ (rateMap.map RateEntry.unit).insertionSort (· ≤ ·))
    "Activity calibration must cover every model reference rate unit exactly."
  rejectIf (modelClass = some .textGeneration ∧ ("input_token" ∉ units ∨ "output_token" ∉ units))
    "Activity calibration requires calibrated workload dimensions."
  rejectIf (units ≠ units.insertionSort (· ≤ ·)) "Activity calibration dimensions must be sorted."

def emptyPriceSchedule : PriceSchedule := ⟨none, none⟩

def Market.priceSchedule (market : Market) (key : MarketKey) : PriceSchedule :=
  (market.schedule.get key).getD emptyPriceSchedule

namespace PriceSchedule

def priceScheduleAt (schedule : PriceSchedule) (time : Nat) : PriceSchedule :=
  match schedule.pending with
  | some pending => if pending.effectiveAt ≤ time then ⟨some pending, none⟩ else schedule
  | none => schedule

def priceActiveEntry (schedule : PriceSchedule) (time : Nat) : Option PriceRecord :=
  match schedule.pending with
  | some pending => if pending.effectiveAt ≤ time then some pending else schedule.current
  | none => schedule.current

def priceLatestEntry (schedule : PriceSchedule) : Option PriceRecord :=
  schedule.pending.or schedule.current

end PriceSchedule

def PriceRecord.priceSeedSnapshot (record : PriceRecord) : PriceSeed :=
  ⟨record.ver, record.terms, record.effectiveAt, record.setBy, record.setByRole⟩

def PriceRecord.priceSeedEntry (record : PriceRecord) : PriceSeed :=
  record.seed.getD record.priceSeedSnapshot

def PriceSchedule.priceLatestSeedEntry (schedule : PriceSchedule) : Option PriceSeed :=
  schedule.priceLatestEntry.map PriceRecord.priceSeedEntry

structure PriceCtxMeta where
  ctxBracket : String
  ctxBracketTableVer : Nat

namespace Registry

def defaultPriceCtxBracketForEnclave (reg : Registry) (enclave : EnclaveRecord) (time : Nat) :
    Except String String := do
  rejectIf (¬ isSafeInteger enclave.ctxMax) "Invalid enclave context capacity."
  requireSome (ctxBracketForTokens enclave.ctxMax (reg.ctxBracketTableAt time).brackets)
    "No context bracket covers enclave context capacity."

def priceCtxMetaForEnclave (reg : Registry) (enclave : EnclaveRecord) (ctxBracket : Option String)
    (time : Nat) (label : String) : Except String (Option PriceCtxMeta) := do
  if ¬ enclaveUsesCtxPrice enclave then
    rejectIf (ctxBracket.isSome)
      (label ++ " context bracket is only valid for text-generation enclaves.")
    return none
  rejectIf (¬ isSafeInteger time) "Invalid context bracket timestamp."
  let table := reg.ctxBracketTableAt time
  let bracket ← match ctxBracket with
    | some bracket => pure bracket
    | none => reg.defaultPriceCtxBracketForEnclave enclave time
  rejectIf (¬ isSafeKeyPart bracket) ("Invalid " ++ label ++ " context bracket.")
  rejectIf (bracket ∉ table.brackets.map CtxBracket.id)
    (label ++ " context bracket is not in the active admin table.")
  return some ⟨bracket, table.ver⟩

end Registry

structure CanonicalActivity where
  settledUsage : Counts
  totals : Option (Nat × Nat × Nat)

structure MarketContext where
  epoch : Nat
  time : Nat
  epochSeconds : Nat
  canonicalActivity : MarketKey → Option CanonicalActivity
  includeDormant : Bool

structure ActivityEntry where
  usage : MarketUsage
  dormant : Bool

structure PriceUpdate where
  row : MarketRow
  marketKey : MarketKey
  scheduleKey : MarketKey
  schedule : PriceSchedule
  record : PriceRecord

abbrev MarketKey.le (a b : MarketKey) : Prop :=
  a.1 < b.1 ∨ a.1 = b.1 ∧ a.2.getD "" ≤ b.2.getD ""

def defaultMaxMarketUsageEntries : Nat := 5000

def mapMarketUsageEntriesForHash (usage : List MarketUsage) : List MarketUsage :=
  usage.insertionSort fun a b => MarketKey.le a.row.key b.row.key

def activityMarketEntries (market : Market) (usage : List MarketUsage) (includeDormant : Bool) :
    Except String (List ActivityEntry) := do
  rejectIf (market.activityIndex.length > defaultMaxMarketUsageEntries)
    "Market activity index exceeds its deterministic bound."
  let keys := usage.map fun entry => entry.row.key
  let dormant :=
    if includeDormant then market.activityIndex.filter fun row => row.key ∉ keys else []
  rejectIf ((keys ++ market.activityIndex.map MarketRow.key).eraseDups.length >
    defaultMaxMarketUsageEntries) "Market activity index capacity exceeded."
  let entries := (mapMarketUsageEntriesForHash usage).map (ActivityEntry.mk · false) ++
    dormant.map fun row => ⟨⟨row, 0, 0, 0⟩, true⟩
  return entries.insertionSort fun a b => MarketKey.le a.usage.row.key b.usage.row.key

def marketPriceConstants (param : ParamKey → Nat) : MarketConstants where
  emaAlphaBps := param .marketEmaAlphaBps
  gainBps := param .marketGainBps
  maxStepBps := param .marketMaxStepBps
  maxMomentumBps := 50000

def activityContinues (previous : Option MarketActivity) (calibrationHash : Option Digest)
    (basis : ActivityBasis) (epoch : Nat) : Option MarketActivity :=
  previous.filter fun market => market.activityInitialized ∧
    market.calibrationHash = calibrationHash ∧ market.activityBasis = basis ∧
    market.epoch + 1 = epoch

def marketActivity (crypto : Crypto) (ctx : MarketContext) (constants : MarketConstants)
    (current : PriceRecord) (seed : PriceSeed) (modelRef : ModelRef) (usage : MarketUsage)
    (canonical : Option CanonicalActivity) : Except String MarketActivity := do
  let settledUsage := canonical.map CanonicalActivity.settledUsage
  if let some calibration := modelRef.activityCalibration then
    validateActivityCalibration calibration modelRef.modelClass modelRef.rateMap
  let calibrationHash := modelRef.activityCalibration.map crypto.calibrationHash
  let work ← match modelRef.activityCalibration, settledUsage with
    | some calibration, some settled => some <$> calibratedActivityWork settled calibration
    | _, _ => pure none
  let activityRate := work.map (· / ctx.epochSeconds)
  let vector := settledUsage.map (marketActivityVector · ctx.epochSeconds)
  let basis := if work.isNone then .relativeDimensionVector else .calibratedWork
  let previous := activityContinues current.market calibrationHash basis ctx.epoch
  if let some (sessionCount, demandAu, providerCount) := canonical.bind CanonicalActivity.totals then
    rejectIf (sessionCount ≠ usage.sessionCount ∨ demandAu ≠ usage.demandAu ∨ providerCount ≠ usage.providerCount)
      "Market activity totals do not match canonical receipt evidence."
  let momentum :=
    match previous, vector with
    | some market, some vector =>
      if basis = .calibratedWork then
        marketActivityMomentum (activityRate.getD 0) (market.activityRate.getD 0) constants
      else marketVectorMomentum vector (market.activityVector.getD []) constants
    | _, _ => 10000
  let frozenReason :=
    if settledUsage.isNone then some FrozenReason.missingCanonicalActivity
    else if previous.isNone then some .activityBaselineBootstrap
    else none
  let multiplier := if frozenReason.isSome then 10000 else momentum
  return {
    epoch := ctx.epoch
    epochSeconds := ctx.epochSeconds
    activeSupply := usage.providerCount
    activeDemandAu := usage.demandAu
    sessionCount := usage.sessionCount
    settledUsage := settledUsage
    calibrationHash := calibrationHash
    activityBasis := basis
    activityVector := vector
    previousActivityVector := (previous.map MarketActivity.activityVector).getD vector
    previousActivityRate := (previous.map MarketActivity.activityRate).getD activityRate
    previousEmaActivityVector := (previous.map MarketActivity.emaActivityVector).getD vector
    emaActivityVector := vector.map fun vector =>
      match previous with
      | some market => marketVectorEma (market.emaActivityVector.getD []) vector constants
      | none => vector
    calibration := modelRef.activityCalibration
    modelrefVer := modelRef.ver
    calibratedWorkPs := work
    activityRate := activityRate
    previousEmaActivityRate := (previous.map MarketActivity.emaActivityRate).getD activityRate
    emaActivityRate := activityRate.map fun rate =>
      match previous with
      | some market => marketActivityEma (market.emaActivityRate.getD 0) rate constants
      | none => rate
    activityInitialized := vector.isSome
    momentumBps := momentum
    multiplierBps := multiplier
    frozenReason := frozenReason
    constants := constants
    desired :=
      { rateMap := scaleRateMap current.terms.rateMap multiplier
        perReqAu := scalePriceTerm current.terms.perReqAu multiplier
        minSessionAu := scalePriceTerm current.terms.minSessionAu multiplier }
    previousPriceVer := current.ver
    previous := current.terms
    seedPriceVer := seed.ver }

def clampToSeed (seed amount : Nat) : Nat :=
  max (scalePriceTerm seed 2500) (min amount (scalePriceTerm seed 40000))

def nextPriceTerms (activity : MarketActivity) (seed : PriceSeed) (reference : List RateEntry)
    (minBps maxBps : Nat) : Except String PriceTerms := do
  let stepped ← stepRateMap activity.previous.rateMap activity.desired.rateMap activity.constants
  let rateMap ← clampRateMapBounds stepped reference minBps maxBps
  return {
    rateMap := rateMap
    perReqAu := clampToSeed seed.terms.perReqAu
      (stepPriceTerm activity.previous.perReqAu activity.desired.perReqAu activity.constants)
    minSessionAu := clampToSeed seed.terms.minSessionAu
      (stepPriceTerm activity.previous.minSessionAu activity.desired.minSessionAu
        activity.constants) }

def marketPriceUpdate (crypto : Crypto) (reg : Registry) (market : Market) (ctx : MarketContext)
    (entry : ActivityEntry) : Except String (Option PriceUpdate) := do
  let usage := entry.usage
  let param := reg.activeParamAt ctx.time
  match (reg.enclaves.get usage.row.enclaveId).filter fun enclave => enclave.status = .active with
  | none =>
    rejectIf (usage.sessionCount ≠ 0) "Market usage enclave is not active."
    return none
  | some enclave =>
    match reg.priceCtxMetaForEnclave enclave usage.row.ctxBracket ctx.time "Market usage" with
    | .error message => if entry.dormant then return none else .error message
    | .ok ctxMeta =>
      if ∃ m ∈ ctxMeta.map PriceCtxMeta.ctxBracketTableVer, ∃ n ∈ usage.row.ctxBracketTableVer, n ≠ m then
        rejectIf (¬ entry.dormant)
          "Market usage context bracket table version is not active for the epoch."
        return none
      let scheduleKey := (usage.row.enclaveId, ctxMeta.map PriceCtxMeta.ctxBracket)
      let schedule := (market.priceSchedule scheduleKey).priceScheduleAt ctx.time
      let current ← requireSome (schedule.priceActiveEntry ctx.time)
        "Market usage enclave has no admin price seed."
      let seed := current.priceSeedEntry
      rejectIf (seed.setByRole ≠ .admin) "Market price requires an admin seed."
      let modelRef ← requireSome (market.modelRef.get enclave.modelId)
        "Market price model reference not found."
      rejectIf (∃ previous ∈ current.market, previous.epoch ≥ ctx.epoch)
        "Market activity epoch must increase exactly once per settled epoch."
      let canonical := (ctx.canonicalActivity usage.row.key).or
        (if ctx.includeDormant ∧ usage.sessionCount = 0 then some ⟨[], none⟩ else none)
      let activity ← marketActivity crypto ctx (marketPriceConstants param) current seed modelRef
        usage canonical
      let terms ← nextPriceTerms activity seed modelRef.rateMap (param .priceMinBps)
        (param .priceMaxBps)
      let record : PriceRecord := {
        enclaveId := current.enclaveId
        modelId := current.modelId
        ver := (schedule.priceLatestEntry.map PriceRecord.ver).getD 0 + 1
        terms := terms
        effectiveAt := ctx.time
        setBy := seed.setBy
        setByRole := .admin
        ctxBracket := ctxMeta.map PriceCtxMeta.ctxBracket
        ctxBracketTableVer := ctxMeta.map PriceCtxMeta.ctxBracketTableVer
        seed := some seed
        market := some activity }
      return some {
        row := ⟨usage.row.enclaveId, ctxMeta.map PriceCtxMeta.ctxBracket,
          ctxMeta.map PriceCtxMeta.ctxBracketTableVer⟩
        marketKey := usage.row.key
        scheduleKey := scheduleKey
        schedule := { schedule with current := some record }
        record := record }

def computeMarketPriceUpdates (crypto : Crypto) (reg : Registry) (market : Market)
    (ctx : MarketContext) (usage : List MarketUsage) : Except String (List PriceUpdate) := do
  rejectIf (¬ isSafeInteger ctx.epochSeconds ∨ ctx.epochSeconds < 1)
    "Market activity requires a calibrated epoch duration."
  let entries ← activityMarketEntries market usage ctx.includeDormant
  let updates ← entries.mapM (marketPriceUpdate crypto reg market ctx)
  return updates.reduceOption

def priceDerivationsFromMarketUpdates (updates : List PriceUpdate) (epoch time epochSeconds : Nat)
    (usageRoot : Option Digest) : List PriceDerivation :=
  (updates.insertionSort fun a b => MarketKey.le a.row.key b.row.key).map fun update =>
    ⟨epoch, time, epochSeconds, usageRoot, update.record⟩

def Market.writePriceUpdates (market : Market) (updates : List PriceUpdate) : Market :=
  updates.foldl (fun market update =>
    { market with
      schedule := market.schedule.put update.scheduleKey update.schedule
      record := market.record.put (update.scheduleKey, update.record.ver) update.record }) market

def putActivityRow (index : List (MarketKey × MarketRow)) (key : MarketKey) (row : MarketRow) :
    List (MarketKey × MarketRow) :=
  if key ∈ index.map Prod.fst then
    index.map fun entry => if entry.1 = key then (key, row) else entry
  else index ++ [(key, row)]

def Market.writeActivityMarketIndex (market : Market) (updates : List PriceUpdate) : Except String Market := do
  let known := market.activityIndex.foldl (fun index row => putActivityRow index row.key row) []
  let seen := updates.filter fun update =>
    ∃ activity ∈ update.record.market, activity.activityInitialized
  let index := seen.foldl (fun index update => putActivityRow index update.marketKey update.row)
    known
  rejectIf (index.length > defaultMaxMarketUsageEntries) "Market activity index overflow."
  if updates.isEmpty then return market
  return { market with
    activityIndex := (index.map Prod.snd).insertionSort fun a b => MarketKey.le a.key b.key }

end Mayhem
