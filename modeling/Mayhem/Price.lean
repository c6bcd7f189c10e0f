import Mayhem.Settlement.Feature

namespace Mayhem

structure SetPriceValue where
  enclaveId : Digest
  rateMap : List RateEntry
  perReqAu : Nat
  minSessionAu : Nat
  effectiveAt : Nat
  ctxBracket : Option String

def PriceSchedule.addSeed (schedule : PriceSchedule) (record : PriceRecord) : Except String PriceSchedule := do
  if schedule.current.isNone then
    return { schedule with current := some record }
  let promoted := schedule.priceScheduleAt record.effectiveAt
  rejectIf (promoted.pending.isSome) "Pending price change already scheduled."
  return { promoted with pending := some record }

def PriceSchedule.nextVer (schedule : PriceSchedule) : Nat :=
  (schedule.priceLatestEntry.map PriceRecord.ver).getD 0 + 1

structure SetPricePlan where
  key : MarketKey
  schedule : PriceSchedule
  record : PriceRecord

namespace Ledger

def priceReference (s : Ledger) (enclaveId : Digest) : Except String (EnclaveRecord × ModelRef × ModelClass) := do
  let enclave ← requireSome (s.registry.enclaves.get enclaveId) "Enclave not found."
  rejectIf (enclave.status = .retired) "Enclave is retired."
  let modelRef ← requireSome (s.market.modelRef.get enclave.modelId) "Model reference not found."
  let enclaveClass ← requireSome enclave.modelClass
    "Enclave model_class must be a non-empty string."
  let modelRefClass ← requireSome modelRef.modelClass
    "Model reference model_class must be a non-empty string."
  rejectIf (modelRefClass ≠ enclaveClass)
    "Model reference model_class must match enclave model_class."
  return (enclave, modelRef, enclaveClass)

def prepareSetPrice (s : Ledger) (sender : PublicKey) (value : SetPriceValue) : Except String SetPricePlan := do
  s.registry.requireAdmin sender
  let (enclave, modelRef, modelClass) ← s.priceReference value.enclaveId
  validateRateMap value.rateMap modelClass "Enclave price rate_map"
  let rateMap := normalizeRateMap value.rateMap
  validateEnclaveModalityRateMap enclave modelClass rateMap
  let param := s.registry.activeParamAt value.effectiveAt
  validateRateMapBounds rateMap modelRef.rateMap (param .priceMinBps) (param .priceMaxBps)
  let ctxMeta ← s.registry.priceCtxMetaForEnclave enclave value.ctxBracket value.effectiveAt
    "Enclave price"
  let key := (value.enclaveId, ctxMeta.map PriceCtxMeta.ctxBracket)
  let schedule := s.market.priceSchedule key
  rejectIf (∃ seed ∈ schedule.priceLatestSeedEntry,
    value.effectiveAt < seed.effectiveAt + param .priceRateLimitSeconds)
    "Price seed changes are limited by price_rate_limit_seconds."
  let record : PriceRecord :=
    { enclaveId := value.enclaveId
      modelId := enclave.modelId
      ver := schedule.nextVer
      terms := ⟨rateMap, value.perReqAu, value.minSessionAu⟩
      effectiveAt := value.effectiveAt
      setBy := sender
      setByRole := .admin
      ctxBracket := ctxMeta.map PriceCtxMeta.ctxBracket
      ctxBracketTableVer := ctxMeta.map PriceCtxMeta.ctxBracketTableVer
      seed := none
      market := none }
  let updated ← schedule.addSeed record
  return ⟨key, updated, record⟩

def setPrice (s : Ledger) (sender : PublicKey) (value : SetPriceValue) : Outcome Nat :=
  match s.prepareSetPrice sender value with
  | .error message => (s, .error message)
  | .ok plan =>
    ({ s with market := { s.market with
        schedule := s.market.schedule.put plan.key plan.schedule
        record := s.market.record.put (plan.key, plan.record.ver) plan.record } },
      .ok plan.record.ver)

structure SealPlan where
  sealed : EmptySeal
  updates : List PriceUpdate
  state : ApplyState
  anchors : PageAnchors

def sealedApplyState (state : ApplyState) (epoch time : Nat) (tx sealHash : Digest) : ApplyState :=
  { state with
    updatedAt := some tx
    lastApplyPreviousHash := state.lastApplyHash
    lastApplyHash := some sealHash
    updatedEpoch := epoch
    lastSettlementUnix := some time
    pendingEpoch := none
    pendingNextPage := 0
    pendingSettlementUnix := none
    pendingReservedDebits := none
    lastPage := some 0 }

def validateExistingSeal (crypto : Crypto) (s : Ledger) (sender : PublicKey)
    (epoch time : Nat) (reasonHash : Digest) (existing : EmptySeal) : Except String Unit :=
  rejectIf (existing.sealHash ≠ crypto.emptySealHash existing.value ∨
    existing.value.reasonHash ≠ reasonHash ∨ existing.value.time ≠ time ∨
    existing.value.sealedBy ≠ sender ∨ s.applyState.updatedEpoch ≠ epoch ∨
    s.applyState.lastApplyHash ≠ some existing.sealHash ∨ s.applyState.pendingEpoch.isSome)
    "Empty epoch seal already exists."

def prepareNewSeal (crypto : Crypto) (s : Ledger) (sender : PublicKey) (tx : Digest)
    (epoch time : Nat) (reasonHash : Digest) : Except String SealPlan := do
  let epochSeconds := s.registry.activeParamAt time .epochSeconds
  let index := (s.receipts.epochIndex.get epoch).getD emptyReceiptEpochIndex
  rejectIf (¬ isSafeInteger index.count ∨ ¬ isSafeInteger index.revision)
    "Canonical receipt epoch index is invalid."
  rejectIf (index.count ≠ 0 ∨ index.revision ≠ 0)
    "Cannot seal an epoch empty while canonical receipts exist."
  s.validateFrozenEpoch epoch time index
  rejectIf (time < epoch * epochSeconds)
    "Empty epoch seal is not active until the epoch window ends."
  validateEpochCadenceTime crypto s.epochs s.applyState epoch 0 time epochSeconds
  validateEpochApplyPageOrder s.applyState epoch 0
  let updates ← computeMarketPriceUpdates crypto s.registry s.market
    { epoch := epoch
      time := time
      epochSeconds := epochSeconds
      canonicalActivity := fun _ => none
      includeDormant := true } []
  let derivations := priceDerivationsFromMarketUpdates updates epoch time epochSeconds
    (some (crypto.merkleRoot .use []))
  rejectIf ((s.market.priceRoot.get epoch).isSome)
    "Empty epoch market price evidence already exists."
  let value : EmptySealValue :=
    { marketPriceRoot := crypto.priceDerivationRoot derivations
      marketPriceCount := derivations.length
      epoch := epoch
      time := time
      epochSeconds := epochSeconds
      previousApplyHash := s.applyState.lastApplyHash
      reasonHash := reasonHash
      sealedBy := sender }
  let sealed : EmptySeal := ⟨value, crypto.emptySealHash value⟩
  let state := sealedApplyState s.applyState epoch time tx sealed.sealHash
  let anchors ← prepareAnchors s.epochs s.applyState state true
  return ⟨sealed, updates, state, anchors⟩

def prepareSeal (crypto : Crypto) (s : Ledger) (sender : PublicKey) (tx : Digest)
    (epoch time : Nat) (reasonHash : Digest) : Except String (Option SealPlan) := do
  s.registry.requireAdmin sender
  rejectIf (¬ isSafeInteger epoch ∨ epoch < 1) "Invalid empty epoch seal epoch."
  rejectIf (¬ isSafeInteger time) "Invalid empty epoch seal timestamp."
  match s.epochs.emptySeal.get epoch with
  | some existing =>
    validateExistingSeal crypto s sender epoch time reasonHash existing
    return none
  | none => some <$> s.prepareNewSeal crypto sender tx epoch time reasonHash

def writeSeal (s : Ledger) (epoch : Nat) (plan : SealPlan) (market : Market) : Ledger :=
  { s with
    market := market.writePriceUpdates plan.updates
    epochs := { s.epochs with
      emptySeal := s.epochs.emptySeal.put epoch plan.sealed
      challenge := s.epochs.challenge.putAll plan.anchors.challenges
      applyState := some plan.state
      applyAnchor := s.epochs.applyAnchor.putAll plan.anchors.anchor.toList } }

def epochSealEmpty (crypto : Crypto) (s : Ledger) (sender : PublicKey) (tx : Digest)
    (epoch time : Nat) (reasonHash : Digest) : Outcome Unit :=
  match s.prepareSeal crypto sender tx epoch time reasonHash with
  | .error message => (s, .error message)
  | .ok none => (s, .ok ())
  | .ok (some plan) =>
    let evidence := { s.market with
      priceRoot := s.market.priceRoot.put epoch plan.sealed.value.marketPriceRoot }
    match evidence.writeActivityMarketIndex plan.updates with
    | .error message => ({ s with market := evidence }, .error message)
    | .ok market => (s.writeSeal epoch plan market, .ok ())

end Ledger

end Mayhem
