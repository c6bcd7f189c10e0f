import Mayhem.Settlement.Apply

namespace Mayhem

structure RailDeltas where
  debitAu : Rail → Nat
  grossAu : Rail → Nat
  feeAu : Rail → Nat
  burnAu : Rail → Nat

def RailDeltas.touched (deltas : RailDeltas) (rail : Rail) : Bool :=
  decide (deltas.debitAu rail > 0 ∨ deltas.grossAu rail > 0)

structure RailUpdate where
  rail : Rail
  fee : FeeRecord
  nextFee : FeeRecord
  burn : BurnRecord
  nextBurn : BurnRecord

def Ledger.railUpdate (s : Ledger) (epoch : Nat) (deltas : RailDeltas) (rail : Rail) :
    Except String RailUpdate := do
  let fee ← s.feeCumRecord rail
  guardianValidateFeeRecord fee rail
  let nextFee := if deltas.touched rail then
    { fee with
      cumAu := fee.cumAu + deltas.feeAu rail
      settledCumAu := some (fee.settledCumAu.getD fee.cumAu + deltas.debitAu rail)
      updatedEpoch := epoch } else fee
  let burn ← s.burnCumRecord rail
  guardianValidateBurnRecord burn rail
  let nextBurn := if deltas.touched rail then
    { burn with
      cumAu := burn.cumAu + deltas.burnAu rail
      updatedEpoch := epoch
      burnBps := railBurnBps rail } else burn
  return ⟨rail, fee, nextFee, burn, nextBurn⟩

def guardianCheckRail (deltas : RailDeltas) (update : RailUpdate) : Except String Unit := do
  guardianValidateFeeRecord update.fee update.rail
  guardianValidateFeeRecord update.nextFee update.rail
  rejectIf (update.nextFee.cumAu ≠ update.fee.cumAu + deltas.feeAu update.rail)
    "Guardian fee conservation invariant failed."
  guardianValidateBurnRecord update.burn update.rail
  guardianValidateBurnRecord update.nextBurn update.rail
  rejectIf (update.nextBurn.cumAu ≠ update.burn.cumAu + deltas.burnAu update.rail)
    "Guardian burn conservation invariant failed."

def sumOverRails (amount : Rail → Nat) : Nat := (providerAcceptedRailOrder.map amount).sum

def guardianCheckEpochApply (state : ApplyState) (epoch : Nat) (debitTotal providerDeltaTotal : Nat)
    (deltas : RailDeltas) (updates : List RailUpdate) (balances : List ((PublicKey × Rail) × BalanceRecord))
    (earnings : List ((PublicKey × Rail) × EarningRecord)) : Except String Unit := do
  rejectIf (¬ isSafeInteger state.updatedEpoch) "Guardian monotonic epoch invariant failed."
  rejectIf (epoch ≠ state.updatedEpoch + 1) "Guardian monotonic epoch invariant failed."
  updates.forM (guardianCheckRail deltas)
  rejectIf (providerDeltaTotal + sumOverRails deltas.feeAu + sumOverRails deltas.burnAu ≠ debitTotal)
    "Guardian conservation invariant failed."
  balances.forM fun entry => guardianValidateBalanceRecord entry.2 entry.1.2
  earnings.forM fun entry => guardianValidateEarningRecord entry.2 entry.1.2
  rejectIf (∃ update ∈ updates, update.nextFee.cumAu >
    update.fee.settledCumAu.getD update.fee.cumAu + deltas.debitAu update.rail)
    "Guardian conservation invariant failed."

def nextEpochApplyState (state : ApplyState) (value : TargetedEpochValue) (key applyHash : Digest)
    (debits : List ((Rail × PublicKey) × Nat)) (receipt : ReceiptApply) : ApplyState :=
  let base := { state with
    updatedAt := some key
    lastApplyPreviousHash := state.lastApplyHash
    lastApplyHash := some applyHash
    lastReceipt := some receipt
    lastPage := some value.page }
  if value.lastPage then
    { base with
      updatedEpoch := value.epoch
      lastSettlementUnix := some value.time
      pendingEpoch := none
      pendingNextPage := 0
      pendingSettlementUnix := none
      pendingReservedDebits := none
      pendingReceipt := none }
  else
    { base with
      pendingEpoch := some value.epoch
      pendingNextPage := value.page + 1
      pendingSettlementUnix := some value.time
      pendingReservedDebits := some (mapRailEntriesForHash debits)
      pendingReceipt := some receipt }

def prepareEpochApplyAnchor (epochs : Epochs) (state : ApplyState) :
    Except String (Option (Nat × ApplyAnchor)) := do
  let incomplete := "Cannot anchor an incomplete epoch apply."
  rejectIf (¬ isSafeInteger state.updatedEpoch ∨ state.updatedEpoch < 1 ∨ state.pendingEpoch.isSome)
    incomplete
  let applyHash ← requireSome state.lastApplyHash incomplete
  let settlementUnix ← requireSome state.lastSettlementUnix incomplete
  rejectIf (¬ isSafeInteger settlementUnix) incomplete
  let record : ApplyAnchor := ⟨applyHash, settlementUnix, state.updatedAt⟩
  match epochs.applyAnchor.get state.updatedEpoch with
  | some existing =>
    rejectIf (existing ≠ record) "Epoch apply anchor conflict."
    return none
  | none => return some (state.updatedEpoch, record)

def prepareCanaryChallengeAnchor (epochs : Epochs) (state : ApplyState) :
    Except String (Option (Nat × Digest)) := do
  if ¬ isSafeInteger state.updatedEpoch ∨ state.updatedEpoch < 1 ∨ state.pendingEpoch.isSome then
    return none
  match state.lastApplyHash, epochs.challenge.get state.updatedEpoch with
  | none, _ => return none
  | some applyHash, some existing =>
    rejectIf (existing ≠ applyHash) "Canary challenge anchor conflict."
    return none
  | some applyHash, none => return some (state.updatedEpoch, applyHash)

def validatePagedEpochCommitEvidence (crypto : Crypto) (epochs : Epochs) (market : Market)
    (epoch : Nat) (commit : EpochCommit) (feeCumAu burnCumAu : Nat) : Except String Unit := do
  rejectIf (commit.totals.priceCount ≠ 0)
    "Paged receipt settlement cannot finalize market price derivations."
  rejectIf (commit.roots.price ≠ crypto.priceDerivationRoot [])
    "Paged receipt settlement requires the canonical empty price root."
  rejectIf (commit.totals.feeCumAu ≠ feeCumAu)
    "Epoch cumulative fee total does not match paged settlement state."
  rejectIf (commit.totals.burnCumAu ≠ burnCumAu)
    "Epoch cumulative burn total does not match paged settlement state."
  rejectIf (∃ root ∈ epochs.depositRoot.get epoch,
    root.merkleRoot ≠ commit.roots.dep ∨ root.count ≠ commit.totals.depCount ∨ root.auTotal ≠ commit.totals.depAu)
    "Committed deposit root does not match deposit evidence."
  rejectIf ((epochs.evidence.get (.use, epoch)).isSome) "Epoch use evidence root already exists."
  rejectIf ((epochs.evidence.get (.earn, epoch)).isSome) "Epoch earn evidence root already exists."
  rejectIf ((epochs.evidence.get (.fee, epoch)).isSome) "Epoch fee evidence root already exists."
  rejectIf ((epochs.evidence.get (.price, epoch)).isSome) "Epoch price evidence root already exists."
  rejectIf ((market.priceRoot.get epoch).isSome) "Bounded market price evidence already exists."

inductive PageEvidence where
  | none
  | final (commit : EpochCommit) (priceRoot : Digest)
  | derived (priceRoot : Digest)

namespace PageEvidence

def writeDepositRoot (epoch : Nat) (roots : Table Nat DepositRoot) : PageEvidence → Table Nat DepositRoot
  | .final commit _ =>
    if (roots.get epoch).isSome then roots
    else roots.put epoch ⟨commit.roots.dep, commit.totals.depCount, commit.totals.depAu, Option.none⟩
  | _ => roots

def writeRoots (epoch time : Nat) (evidence : Table (EvidenceKind × Nat) EvidenceRoot) :
    PageEvidence → Table (EvidenceKind × Nat) EvidenceRoot
  | .none => evidence
  | .final commit _ => evidence.putAll [((.use, epoch), ⟨commit.roots.use, time⟩),
      ((.earn, epoch), ⟨commit.roots.earn, time⟩), ((.fee, epoch), ⟨commit.roots.fee, time⟩),
      ((.price, epoch), ⟨commit.roots.price, time⟩)]
  | .derived priceRoot => evidence.put (.price, epoch) ⟨priceRoot, time⟩

def writePriceRoot (epoch : Nat) (roots : Table Nat Digest) : PageEvidence → Table Nat Digest
  | .final _ priceRoot => roots.put epoch priceRoot
  | _ => roots

end PageEvidence

structure ApplyResult where
  idempotent : Bool
  debitedAu : Nat
  earnedAu : Nat
  feeAu : Nat
  burnAu : Nat
  rails : List Rail
  marketPrices : List PriceUpdate
  priceRoot : Option Digest

structure ApplyPlan where
  epoch : Nat
  time : Nat
  commit : Option CommitTransition
  balances : List ((PublicKey × Rail) × BalanceRecord)
  earnings : List ((PublicKey × Rail) × EarningRecord)
  progress : EpochProgress
  rails : List RailUpdate
  challenges : List (Nat × Digest)
  state : ApplyState
  anchor : Option (Nat × ApplyAnchor)
  evidence : PageEvidence
  priceUpdates : List PriceUpdate
  result : ApplyResult

def ApplyPlan.newCommit (plan : ApplyPlan) : Option CommitTransition :=
  plan.commit.filter CommitTransition.write

def ApplyPlan.archived (plan : ApplyPlan) : Option EpochCommit :=
  plan.newCommit.bind CommitTransition.archive

def Epochs.writeApply (epochs : Epochs) (plan : ApplyPlan) : Epochs :=
  { epochs with
    superseded := epochs.superseded.putAll
      (plan.archived.toList.map fun archive => ((plan.epoch, archive.commitHash), archive))
    commit := epochs.commit.putAll
      (plan.newCommit.toList.map fun transition => (plan.epoch, transition.record))
    earningMarker := epochs.earningMarker.putAll plan.progress.earningMarkers
    marketProvider := epochs.marketProvider.putAll plan.progress.marketProviders
    marketMarker := epochs.marketMarker.putAll plan.progress.marketMarkers
    challenge := epochs.challenge.putAll plan.challenges
    applyState := some plan.state
    applyAnchor := epochs.applyAnchor.putAll plan.anchor.toList
    depositRoot := plan.evidence.writeDepositRoot plan.epoch epochs.depositRoot
    evidence := plan.evidence.writeRoots plan.epoch plan.time epochs.evidence }

def Accounts.writeApply (accounts : Accounts) (plan : ApplyPlan) : Accounts :=
  { accounts with
    balance := accounts.balance.putAll plan.balances
    earning := accounts.earning.putAll plan.earnings
    fee := accounts.fee.putAll (plan.rails.map fun update => (update.rail, update.nextFee))
    burn := accounts.burn.putAll (plan.rails.map fun update => (update.rail, update.nextBurn)) }

def Ledger.writeApply (s : Ledger) (plan : ApplyPlan) : Ledger :=
  { s with
    accounts := s.accounts.writeApply plan
    epochs := s.epochs.writeApply plan
    market := { s.market with
      priceRoot := plan.evidence.writePriceRoot plan.epoch s.market.priceRoot } }

def providerMarker (s : Ledger) (value : TargetedEpochValue)
    (deltas : List ((Rail × PublicKey) × ProviderRecord × SettlementDelta))
    (earnings : List ((PublicKey × Rail) × EarningRecord)) (entry : (Rail × PublicKey) × Nat) :
    Except String (((Nat × Rail × PublicKey) × EarningMarker) × Bool) := do
  let missing := "Bounded receipt provider earning update is missing."
  let (_, delta) ← requireSome (deltas.lookup entry.1) missing
  let earning ← requireSome (earnings.lookup (entry.1.2, entry.1.1)) missing
  s.epochs.nextEarningMarker value.epoch value.page entry delta.providerAu earning.earned.totalAu

def validateFinalPage (crypto : Crypto) (epochs : Epochs) (value : TargetedEpochValue)
    (commit : EpochCommit) (usage : List MarketUsage) (progress : EpochProgress) : Except String Unit := do
  if value.lastPage then
    validateFinalMarkers epochs value usage progress
    validateFinalTotals crypto commit value.epoch (value.earningFinals.getD []) progress

def epochProgress (crypto : Crypto) (s : Ledger) (state : ApplyState) (value : TargetedEpochValue)
    (commit : EpochCommit) (totals : PageTotals) (markets : List MarketTally)
    (deltas : List ((Rail × PublicKey) × ProviderRecord × SettlementDelta))
    (earnings : List ((PublicKey × Rail) × EarningRecord)) (feeAu burnAu : Nat) :
    Except String EpochProgress := do
  if ¬ commit.targetedReceiptPages then
    return ⟨[], [], [], 0, 0, 0, feeAu, burnAu⟩
  let prior ← priorProgress state value.page
  let markers ← (mapRailEntriesForHash totals.gross).mapM (providerMarker s value deltas earnings)
  let updates ← markets.mapM (s.epochs.nextMarketMarker value.epoch value.page)
  let providerCount ← safeAddCount prior.providerCount (markers.filter Prod.snd).length
    "bounded receipt provider count"
  let marketCount ← safeAddCount prior.marketCount
    (updates.filter Epochs.MarketMarkerUpdate.fresh).length "bounded receipt market count"
  let finals := value.earningFinals.getD []
  let progress : EpochProgress :=
    { earningMarkers := markers.map Prod.fst
      marketMarkers := updates.map fun update => (update.key, update.marker)
      marketProviders := updates.flatMap Epochs.MarketMarkerUpdate.providers
      providerCount := providerCount
      marketCount := marketCount
      earnCumAu := if value.lastPage then (finals.map EarningFinal.cumulativeAu).sum
        else prior.earnCumAu
      feeAu := prior.feeAu + feeAu
      burnAu := prior.burnAu + burnAu }
  validateFinalPage crypto s.epochs value commit totals.usage progress
  return progress

def MarketTally.activity (tally : MarketTally) : CanonicalActivity :=
  ⟨tally.settledUsage, some (tally.sessionCount, tally.demandAu, tally.providers.length)⟩

def MarketMarker.activity (marker : MarketMarker) : CanonicalActivity :=
  ⟨marker.settledUsage, some (marker.sessionCount, marker.demandAu, marker.providerCount)⟩

def canonicalActivity (epochs : Epochs) (value : TargetedEpochValue) (bounded : Bool)
    (usage : List MarketUsage) (markets : List MarketTally) (progress : EpochProgress)
    (key : MarketKey) : Option CanonicalActivity :=
  let page := (markets.find? fun tally => tally.row.key = key).map MarketTally.activity
  if bounded ∧ value.lastPage ∧ key ∈ usage.map (fun entry => entry.row.key) then
    ((progress.marketMarkers.lookup (value.epoch, key)).or
      (epochs.marketMarker.get (value.epoch, key))).map MarketMarker.activity
  else page

namespace Ledger

def applyPayload (value : TargetedEpochValue) (param : ParamKey → Nat) (totals : PageTotals)
    (position : PagePosition) : TargetedApplyPayload where
  epoch := value.epoch
  page := value.page
  lastPage := value.lastPage
  time := value.time
  epochSeconds := param .epochSeconds
  feeBps := param .feeBps
  epochCommitHash := value.epochCommitHash
  receiptIndex := value.receiptIndex
  debits := mapRailEntriesForHash totals.debits
  earnings := mapRailEntriesForHash totals.gross
  previousApplyHash := position.previousApplyHash
  marketUsage := value.marketUsage.map fun _ => mapMarketUsageEntriesForHash totals.usage
  earningFinals := value.earningFinals
  payoutRevisions := value.earnings.map fun e => (e.provider, e.rail, e.payoutRevision)
  allocations := value.allocations

def prepareApplyCommit (s : Ledger) (sender : PublicKey) (value : TargetedEpochValue)
    (options : ApplyOptions) : Except String (PageTotals × EpochCommit) := do
  s.registry.requireAdmin sender
  let totals ← pageTotals value (s.registry.activeParamAt value.time)
  let _ ← normalizeReceiptEpochIndexMetadata value.receiptIndex false
  let stored ← requireSome (s.receipts.epochIndex.get value.epoch)
    "canonical receipt epoch metadata value must be an object."
  let current ← normalizeReceiptEpochIndexMetadata stored false
  rejectIf (current ≠ value.receiptIndex)
    "Canonical receipt epoch index changed after the apply snapshot."
  s.validateFrozenEpoch value.epoch value.time value.receiptIndex
  let unmatched := "Matching provisional epoch commit required for targeted apply."
  let commit ← requireSome ((options.commitTransition.map CommitTransition.record).or
    (s.epochs.commit.get value.epoch)) unmatched
  rejectIf (commit.status ≠ .provisional ∨ commit.commitHash ≠ value.epochCommitHash) unmatched
  validateApplyCommit commit value totals options.markets
  return (totals, commit)

structure PageMoney where
  debits : List ((Rail × PublicKey) × Nat)
  balances : List ((PublicKey × Rail) × BalanceRecord)
  shares : List ((Rail × PublicKey) × ProviderRecord × SettlementDelta)
  earnings : List ((PublicKey × Rail) × EarningRecord)

def prepareMoney (s : Ledger) (value : TargetedEpochValue) (totals : PageTotals)
    (commit : EpochCommit) (options : ApplyOptions) : Except String PageMoney := do
  let param := s.registry.activeParamAt value.time
  let debits ← nextReservationDebitTotals s.applyState value.epoch value.page totals.debits
  rejectIf (value.lastPage ∧ sumRailAu debits ≠ commit.totals.useAu)
    "Targeted apply cumulative debit does not match the epoch commit."
  let balances ← totals.debits.mapM (s.debitBalance value.epoch)
  let shares ← totals.gross.mapM
    (s.earningDelta commit.targetedReceiptPages options.deltas (param .feeBps))
  let earnings ← shares.mapM (s.creditEarning value.epoch param)
  return ⟨debits, balances, shares, earnings⟩

def PageMoney.feeAu (money : PageMoney) (rail : Rail) : Nat :=
  ((money.shares.filter fun share => share.1.1 = rail).map fun share => share.2.2.feeAu).sum

def PageMoney.burnAu (money : PageMoney) (rail : Rail) : Nat :=
  ((money.shares.filter fun share => share.1.1 = rail).map fun share => share.2.2.burnAu).sum

def PageMoney.deltas (money : PageMoney) (totals : PageTotals) : RailDeltas where
  debitAu := railTotals totals.debits
  grossAu := railTotals totals.gross
  feeAu := money.feeAu
  burnAu := money.burnAu

def prepareMarket (crypto : Crypto) (s : Ledger) (value : TargetedEpochValue) (commit : EpochCommit)
    (totals : PageTotals) (markets : List MarketTally) (progress : EpochProgress) :
    Except String (List PriceUpdate × List PriceDerivation) := do
  let epochSeconds := s.registry.activeParamAt value.time .epochSeconds
  let bounded := commit.targetedReceiptPages
  let updates ← if value.marketUsage.isSome then
      computeMarketPriceUpdates crypto s.registry s.market
        { epoch := value.epoch
          time := value.time
          epochSeconds := epochSeconds
          canonicalActivity := canonicalActivity s.epochs value bounded totals.usage markets progress
          includeDormant := bounded && value.lastPage } totals.usage
    else pure []
  let usageRoot := if bounded then some commit.roots.use else none
  return (updates, priceDerivationsFromMarketUpdates updates value.epoch value.time epochSeconds usageRoot)

structure PageAnchors where
  challenges : List (Nat × Digest)
  anchor : Option (Nat × ApplyAnchor)

def prepareAnchors (epochs : Epochs) (state nextState : ApplyState) (lastPage : Bool) :
    Except String PageAnchors := do
  let previous ← prepareCanaryChallengeAnchor epochs state
  if lastPage then
    let anchor ← prepareEpochApplyAnchor epochs nextState
    let challenge ← prepareCanaryChallengeAnchor epochs nextState
    return ⟨previous.toList ++ challenge.toList, anchor⟩
  else
    return ⟨previous.toList, none⟩

def validateFinalEvidence (crypto : Crypto) (s : Ledger) (value : TargetedEpochValue)
    (commit : EpochCommit) (rails : List RailUpdate) : Except String Unit :=
  if value.lastPage ∧ commit.targetedReceiptPages then
    validatePagedEpochCommitEvidence crypto s.epochs s.market value.epoch commit
      (rails.map fun update => update.nextFee.cumAu).sum
      (rails.map fun update => update.nextBurn.cumAu).sum
  else .ok ()

def pageEvidence (crypto : Crypto) (value : TargetedEpochValue) (commit : EpochCommit)
    (derivations : List PriceDerivation) : PageEvidence :=
  if value.lastPage ∧ commit.targetedReceiptPages then
    .final commit (crypto.priceDerivationRoot derivations)
  else if derivations = [] then .none
  else .derived (crypto.priceDerivationRoot derivations)

def receiptApply (value : TargetedEpochValue) (position : PagePosition) (progress : EpochProgress) :
    ReceiptApply where
  index := value.receiptIndex
  commitHash := value.epochCommitHash
  allocationCount := position.allocationCount
  providerCount := progress.providerCount
  marketCount := progress.marketCount
  earnCumAu := progress.earnCumAu
  feeAu := progress.feeAu
  burnAu := progress.burnAu

def prepareNewPage (crypto : Crypto) (s : Ledger) (key : Digest) (value : TargetedEpochValue)
    (options : ApplyOptions) (totals : PageTotals) (commit : EpochCommit) (position : PagePosition)
    (applyHash : Digest) : Except String ApplyPlan := do
  let state := s.applyState
  validateEpochCadenceTime crypto s.epochs state value.epoch value.page value.time
    (s.registry.activeParamAt value.time .epochSeconds)
  validateEpochApplyPageOrder state value.epoch value.page
  let money ← s.prepareMoney value totals commit options
  let deltas := money.deltas totals
  let feeAu := sumOverRails deltas.feeAu
  let burnAu := sumOverRails deltas.burnAu
  let progress ← epochProgress crypto s state value commit totals options.markets money.shares
    money.earnings feeAu burnAu
  let rails ← providerAcceptedRailOrder.mapM (s.railUpdate value.epoch deltas)
  let afterFeesAu ← safeSubAu (sumRailAu totals.gross) feeAu
  let earnedAu ← safeSubAu afterFeesAu burnAu
  guardianCheckEpochApply state value.epoch (sumRailAu totals.debits) earnedAu deltas rails
    money.balances money.earnings
  let (priceUpdates, derivations) ← prepareMarket crypto s value commit totals options.markets
    progress
  validateFinalEvidence crypto s value commit rails
  let nextState := nextEpochApplyState state value key applyHash money.debits
    (receiptApply value position progress)
  let anchors ← prepareAnchors s.epochs state nextState value.lastPage
  return {
    epoch := value.epoch
    time := value.time
    commit := options.commitTransition
    balances := money.balances
    earnings := money.earnings
    progress := progress
    rails := rails.filter fun update => deltas.touched update.rail
    challenges := anchors.challenges
    state := nextState
    anchor := anchors.anchor
    evidence := pageEvidence crypto value commit derivations
    priceUpdates := priceUpdates
    result :=
      { idempotent := false
        debitedAu := sumRailAu totals.debits
        earnedAu := earnedAu
        feeAu := feeAu
        burnAu := burnAu
        rails := providerAcceptedRailOrder.filter deltas.touched
        marketPrices := priceUpdates
        priceRoot := if priceUpdates = [] then none
          else some (crypto.priceDerivationRoot derivations) } }

def prepareApply (crypto : Crypto) (s : Ledger) (sender : PublicKey) (key : Digest)
    (value : TargetedEpochValue) (options : ApplyOptions) : Except String (Option ApplyPlan) := do
  let (totals, commit) ← s.prepareApplyCommit sender value options
  let position ← pagePosition s.applyState value
  let applyHash := crypto.targetedApplyHash
    (applyPayload value (s.registry.activeParamAt value.time) totals position)
  if isIdempotentEpochApplyPage s.applyState value.epoch value.page value.lastPage applyHash then
    return none
  else
    some <$> s.prepareNewPage crypto key value options totals commit position applyHash

def idempotentResult : ApplyResult := ⟨true, 0, 0, 0, 0, [], [], none⟩

def targetedEpochApply (crypto : Crypto) (s : Ledger) (sender : PublicKey) (key : Digest)
    (value : TargetedEpochValue) (options : ApplyOptions) : Outcome ApplyResult :=
  match s.prepareApply crypto sender key value options with
  | .error message => (s, .error message)
  | .ok none => (s, .ok idempotentResult)
  | .ok (some plan) =>
    let written := s.writeApply plan
    match written.market.writeActivityMarketIndex plan.priceUpdates with
    | .error message => (written, .error message)
    | .ok market =>
      ({ written with market := market.writePriceUpdates plan.priceUpdates }, .ok plan.result)

end Ledger

end Mayhem
