import Mayhem.Settlement.Page

namespace Mayhem

def aggregateRailLedgerEntries (entries : List ((Rail × PublicKey) × Nat)) (label : String) :
    Except String (List ((Rail × PublicKey) × Nat)) := do
  rejectIf (∃ entry ∈ entries, entry.2 = 0) ("Invalid " ++ label ++ " amount.")
  return Tally.addAll [] entries

def sumRailAu (entries : List ((Rail × PublicKey) × Nat)) : Nat := (entries.map Prod.snd).sum

def railTotals (entries : List ((Rail × PublicKey) × Nat)) (rail : Rail) : Nat :=
  sumRailAu (entries.filter fun entry => entry.1.1 = rail)

def assertMatchingRailTotals (left right : Rail → Nat) : Except String Unit :=
  rejectIf (∃ rail ∈ providerAcceptedRailOrder, left rail ≠ right rail)
    "Epoch debits must equal gross provider earnings per rail."

def railEntryLe (a b : (Rail × PublicKey) × Nat) : Prop :=
  [a.1.1.index, a.1.2] ≤ [b.1.1.index, b.1.2]

instance : DecidableRel railEntryLe := fun _ _ => inferInstanceAs (Decidable (_ ≤ _))

def mapRailEntriesForHash (entries : List ((Rail × PublicKey) × Nat)) : List ((Rail × PublicKey) × Nat) :=
  entries.insertionSort railEntryLe

def MarketUsage.plus (current entry : MarketUsage) : Except String MarketUsage := do
  rejectIf (current.row.ctxBracketTableVer ≠ entry.row.ctxBracketTableVer.or current.row.ctxBracketTableVer)
    "Market usage context bracket table version mismatch."
  let sessionCount ← safeAddCount current.sessionCount entry.sessionCount
    "market usage session_count"
  let providerCount ← safeAddCount current.providerCount entry.providerCount
    "market usage provider_count"
  return ⟨entry.row, current.demandAu + entry.demandAu, sessionCount, providerCount⟩

def mergeMarketUsage (entry : MarketUsage) : List MarketUsage → Except String (List MarketUsage)
  | [] => .ok [entry]
  | current :: rest => do
    if current.row.key = entry.row.key then
      let sum ← current.plus entry
      return sum :: rest
    else
      let rest ← mergeMarketUsage entry rest
      return current :: rest

def aggregateMarketUsageEntries (entries : List MarketUsage) : Except String (List MarketUsage) :=
  entries.foldlM (fun usage entry => do
    checkMarketUsage entry
    mergeMarketUsage entry usage) []

def sumMarketDemandAu (usage : List MarketUsage) : Nat := (usage.map MarketUsage.demandAu).sum

structure PageTotals where
  debits : List ((Rail × PublicKey) × Nat)
  gross : List ((Rail × PublicKey) × Nat)
  usage : List MarketUsage

def pageTotals (value : TargetedEpochValue) (param : ParamKey → Nat) : Except String PageTotals := do
  rejectIf (value.debits.length + value.earnings.length + value.allocations.length >
    param .maxApplyBatch) "Epoch apply batch exceeds max_apply_batch."
  rejectIf ((value.marketUsage.getD []).length > param .maxMarketUsageEntries)
    "Epoch market usage batch exceeds max_market_usage_entries."
  let debits ← aggregateRailLedgerEntries
    (value.debits.map fun d => ((d.rail, d.user), d.au)) "debit"
  let gross ← aggregateRailLedgerEntries
    (value.earnings.map fun e => ((e.rail, e.provider), e.grossAu)) "earning"
  assertMatchingRailTotals (railTotals debits) (railTotals gross)
  let usage ← aggregateMarketUsageEntries (value.marketUsage.getD [])
  return ⟨debits, gross, usage⟩

def checkCanonicalMarketUsage (seen : List MarketKey × Nat × Nat) (usage : MarketTally) :
    Except String (List MarketKey × Nat × Nat) := do
  rejectIf ((∃ bracket ∈ usage.row.ctxBracket, ¬ isSafeKeyPart bracket) ∨
    (∃ ver ∈ usage.row.ctxBracketTableVer, ¬ isSafeInteger ver ∨ ver < 1) ∨
    usage.demandAu = 0 ∨ ¬ isSafeInteger usage.sessionCount ∨ usage.sessionCount < 1 ∨
    usage.providers.length < 1 ∨ ¬ usage.providers.Nodup ∨
    usage.providers.insertionSort (· ≤ ·) ≠ usage.providers ∨ usage.row.key ∈ seen.1)
    "Bounded receipt canonical market usage is invalid."
  let sessionCount ← (safeAddCount seen.2.2 usage.sessionCount "").mapError
    fun _ => "Bounded receipt canonical market usage overflow."
  return (usage.row.key :: seen.1, seen.2.1 + usage.demandAu, sessionCount)

def validateCanonicalMarketUsage (markets : List MarketTally) (grossTotal : Nat)
    (allocationCount : Nat) : Except String Unit := do
  rejectIf (markets = []) "Bounded receipt canonical market usage is missing."
  let (_, demandAu, sessionCount) ← markets.foldlM checkCanonicalMarketUsage ([], 0, 0)
  rejectIf (demandAu ≠ grossTotal ∨ sessionCount ≠ allocationCount)
    "Bounded receipt canonical market usage does not match page allocations."

def isEpochApplyPagePositionReplay (state : ApplyState) (epoch page : Nat) (lastPage : Bool) : Bool :=
  decide (state.lastPage = some page) &&
    if lastPage then decide (state.updatedEpoch = epoch ∧ state.pendingEpoch = none)
    else decide (state.pendingEpoch = some epoch ∧ state.pendingNextPage = page + 1)

def isIdempotentEpochApplyPage (state : ApplyState) (epoch page : Nat) (lastPage : Bool)
    (applyHash : Digest) : Bool :=
  decide (state.lastApplyHash = some applyHash) &&
    isEpochApplyPagePositionReplay state epoch page lastPage

structure PagePosition where
  previousApplyHash : Option Digest
  allocationCount : Nat

def pagePosition (state : ApplyState) (value : TargetedEpochValue) : Except String PagePosition := do
  let replay := isEpochApplyPagePositionReplay state value.epoch value.page value.lastPage
  let snapshot := if replay then state.lastReceipt else state.pendingReceipt
  rejectIf ((replay ∨ value.page > 0) ∧ ¬ ∃ receipt ∈ snapshot,
    receipt.index = value.receiptIndex ∧ receipt.commitHash = value.epochCommitHash)
    "Paged targeted apply receipt snapshot changed between pages."
  let recorded := (snapshot.map ReceiptApply.allocationCount).getD 0
  let prior := if value.page = 0 then 0 else recorded
  rejectIf (¬ replay ∧ ¬ isSafeInteger prior) "Paged targeted apply allocation count is missing."
  let count := if replay then recorded else prior + value.allocations.length
  rejectIf (¬ isSafeInteger count ∨ count < 1 ∨ count > value.receiptIndex.count)
    "Paged targeted apply allocation count exceeds the canonical receipt index."
  rejectIf (value.lastPage ∧ count ≠ value.receiptIndex.count)
    "Last targeted apply page does not consume the complete canonical receipt index."
  rejectIf (¬ value.lastPage ∧ count ≥ value.receiptIndex.count)
    "Non-final targeted apply page already consumes the complete canonical receipt index."
  let previousApplyHash :=
    if replay then state.lastApplyPreviousHash
    else if value.page = 0 then none
    else state.lastApplyHash
  return ⟨previousApplyHash, count⟩

def checkPendingDebit (seen : List (Rail × PublicKey)) (entry : (Rail × PublicKey) × Nat) :
    Except String (List (Rail × PublicKey)) := do
  rejectIf (entry.2 = 0) "Invalid pending reservation debit amount."
  rejectIf (entry.1 ∈ seen) "Duplicate pending reservation debit entry."
  return entry.1 :: seen

def nextReservationDebitTotals (state : ApplyState) (epoch page : Nat)
    (debits : List ((Rail × PublicKey) × Nat)) : Except String (List ((Rail × PublicKey) × Nat)) := do
  let base := if page = 0 then [] else state.pendingReservedDebits.getD []
  let _ ← base.foldlM checkPendingDebit []
  rejectIf (page > 0 ∧ state.pendingEpoch = some epoch ∧ state.pendingReservedDebits.isNone)
    "Pending reservation debit state missing for paged epoch apply."
  return Tally.addAll base debits

structure CommitTransition where
  record : EpochCommit
  archive : Option EpochCommit
  write : Bool

structure ApplyOptions where
  commitTransition : Option CommitTransition
  deltas : List ((Rail × PublicKey) × Nat × SettlementDelta)
  markets : List MarketTally

def validateApplyCommit (commit : EpochCommit) (value : TargetedEpochValue) (totals : PageTotals)
    (markets : List MarketTally) : Except String Unit := do
  if commit.targetedReceiptPages then
    validateCanonicalMarketUsage markets (sumRailAu totals.gross) value.allocations.length
    rejectIf (commit.time ≠ value.time)
      "Bounded receipt settlement timestamp must match its epoch commit."
  rejectIf (commit.totals.useCount ≠ value.receiptIndex.count)
    "Epoch commit receipt count does not match the canonical receipt index."
  if commit.targetedReceiptPages then
    rejectIf (value.lastPage ≠ value.earningFinals.isSome ∨ value.lastPage ≠ value.marketUsage.isSome)
      ("Bounded receipt settlement requires earning_finals and market_usage on its final page " ++ "only.")
    rejectIf (value.lastPage ∧ sumMarketDemandAu totals.usage ≠ commit.totals.useAu)
      "Final epoch market usage demand must equal committed usage."
  else
    rejectIf (value.marketUsage.isSome ∧ sumMarketDemandAu totals.usage ≠ sumRailAu totals.gross)
      "Epoch market usage demand must equal gross provider earnings."

namespace Ledger

def debitBalance (s : Ledger) (epoch : Nat) (entry : (Rail × PublicKey) × Nat) :
    Except String ((PublicKey × Rail) × BalanceRecord) := do
  let ((rail, user), debitAu) := entry
  let balance ← s.balanceRecord user rail
  guardianValidateBalanceRecord balance rail
  rejectIf (balance.au < debitAu) "Insufficient credit balance."
  return ((user, rail), { balance with au := balance.au - debitAu, updatedEpoch := epoch })

def earningDelta (s : Ledger) (bounded : Bool)
    (deltas : List ((Rail × PublicKey) × Nat × SettlementDelta)) (feeBps : Nat)
    (entry : (Rail × PublicKey) × Nat) :
    Except String ((Rail × PublicKey) × ProviderRecord × SettlementDelta) := do
  let ((rail, provider), grossAu) := entry
  let record ← requireSome (s.registry.providers.get provider) "Provider not found."
  rejectIf (rail ∉ record.acceptedRails) "Provider does not accept payment rail."
  if bounded then
    let missing := "Bounded receipt provider settlement delta is missing."
    let (deltaGrossAu, delta) ← requireSome (deltas.lookup (rail, provider)) missing
    rejectIf (deltaGrossAu ≠ grossAu) missing
    return ((rail, provider), record, delta)
  else
    let feeAu := safeMulDivAu grossAu feeBps 10000
    let burnAu := safeMulDivAu grossAu (railBurnBps rail) 10000
    rejectIf (feeAu > grossAu ∨ burnAu > grossAu - feeAu) "Invalid provider settlement delta."
    return ((rail, provider), record, ⟨feeAu, burnAu, grossAu - feeAu - burnAu⟩)

def creditEarned (s : Ledger) (epoch : Nat) (param : ParamKey → Nat) (provider : PublicKey)
    (record : ProviderRecord) (aggregate earned : Earned) (au : Nat) : Except String Earned := do
  let probeGate ← probeGateForEarning s.oversight provider aggregate param
  let locked ← providerLockedEarningEpochs record param
  let disputeGate ← providerHasOpenDispute s.oversight provider
  let refreshed ← refreshEarningHoldback earned epoch locked probeGate disputeGate
  let holdbacks ← appendHoldbackBucket (refreshed.holdbacks.getD []) epoch au locked
  return { refreshed with
    totalAu := refreshed.totalAu + au
    heldAu := refreshed.heldAu + au
    holdbacks := some holdbacks
    updatedEpoch := epoch }

def creditEarning (s : Ledger) (epoch : Nat) (param : ParamKey → Nat)
    (entry : (Rail × PublicKey) × ProviderRecord × SettlementDelta) :
    Except String ((PublicKey × Rail) × EarningRecord) := do
  let ((rail, provider), record, delta) := entry
  let current ← s.earningRecord provider rail
  guardianValidateEarningRecord current rail
  let earned ← s.creditEarned epoch param provider record current.earned current.earned
    delta.providerAu
  return ((provider, rail), { current with earned := earned })

end Ledger

structure EpochProgress where
  earningMarkers : List ((Nat × Rail × PublicKey) × EarningMarker)
  marketMarkers : List ((Nat × MarketKey) × MarketMarker)
  marketProviders : List ((Nat × MarketKey × PublicKey) × Nat)
  providerCount : Nat
  marketCount : Nat
  earnCumAu : Nat
  feeAu : Nat
  burnAu : Nat

namespace Epochs

variable (epochs : Epochs)

def nextEarningMarker (epoch page : Nat) (entry : (Rail × PublicKey) × Nat) (deltaAu totalAu : Nat) :
    Except String (((Nat × Rail × PublicKey) × EarningMarker) × Bool) := do
  let ((rail, provider), grossAu) := entry
  let priorTotalAu ← safeSubAu totalAu deltaAu
  let key := (epoch, rail, provider)
  match epochs.earningMarker.get key with
  | none => return ((key, ⟨priorTotalAu, grossAu, deltaAu, totalAu, page, page⟩), true)
  | some marker =>
    rejectIf (marker.cumulativeAu ≠ priorTotalAu ∨ ¬ isSafeInteger marker.firstPage ∨
      ¬ isSafeInteger marker.lastPage ∨ marker.lastPage ≥ page)
      "Bounded receipt provider earning marker is inconsistent."
    return ((key, { marker with
      grossAu := marker.grossAu + grossAu
      netAu := marker.netAu + deltaAu
      cumulativeAu := totalAu
      lastPage := page }), false)

def newMarketProviders (epoch page : Nat) (usage : MarketTally) :
    Except String (List ((Nat × MarketKey × PublicKey) × Nat)) := do
  let key (provider : PublicKey) := (epoch, usage.row.key, provider)
  rejectIf (∃ provider ∈ usage.providers, ∃ firstPage ∈ epochs.marketProvider.get (key provider),
    ¬ isSafeInteger firstPage ∨ firstPage ≥ page)
    "Bounded receipt market provider marker is inconsistent."
  let fresh := usage.providers.filter fun provider =>
    (epochs.marketProvider.get (key provider)).isNone
  return fresh.map fun provider => (key provider, page)

structure MarketMarkerUpdate where
  key : Nat × MarketKey
  marker : MarketMarker
  providers : List ((Nat × MarketKey × PublicKey) × Nat)
  fresh : Bool

def nextMarketMarker (epoch page : Nat) (usage : MarketTally) : Except String MarketMarkerUpdate := do
  let key := (epoch, usage.row.key)
  let existing := epochs.marketMarker.get key
  rejectIf (∃ marker ∈ existing, marker.ctxBracketTableVer ≠ usage.row.ctxBracketTableVer ∨
    ¬ isSafeInteger marker.firstPage ∨ ¬ isSafeInteger marker.lastPage ∨ marker.lastPage ≥ page ∨
    ¬ isSafeInteger marker.sessionCount ∨ marker.sessionCount < 1 ∨
    ¬ isSafeInteger marker.providerCount ∨ marker.providerCount < 1)
    "Bounded receipt market usage marker is inconsistent."
  let marker := existing.getD ⟨usage.row.ctxBracketTableVer, 0, [], 0, 0, page, page⟩
  let providers ← epochs.newMarketProviders epoch page usage
  let overflow := "Bounded receipt market usage marker overflow."
  let sessionCount ← (safeAddCount marker.sessionCount usage.sessionCount "").mapError
    fun _ => overflow
  let providerCount ← (safeAddCount marker.providerCount providers.length "").mapError
    fun _ => overflow
  let settledUsage ← addSettledUsage marker.settledUsage usage.settledUsage
  return {
    key := key
    marker := { marker with
      settledUsage := settledUsage
      demandAu := marker.demandAu + usage.demandAu
      sessionCount := sessionCount
      providerCount := providerCount
      lastPage := page }
    providers := providers
    fresh := existing.isNone }

end Epochs

def priorProgress (state : ApplyState) (page : Nat) : Except String ReceiptApply := do
  let start : ReceiptApply := ⟨⟨0, 0, 0, none⟩, 0, 0, 0, 0, 0, 0, 0⟩
  if page = 0 then
    return start
  let invalid := "Bounded receipt settlement cumulative state is invalid."
  let prior ← requireSome state.pendingReceipt invalid
  rejectIf (¬ isSafeInteger prior.providerCount ∨ ¬ isSafeInteger prior.marketCount) invalid
  return prior

def validateFinalMarkers (epochs : Epochs) (value : TargetedEpochValue) (usage : List MarketUsage)
    (progress : EpochProgress) : Except String Unit := do
  rejectIf (usage.length ≠ progress.marketCount)
    "Final market usage count does not match bounded settlement state."
  rejectIf (∃ entry ∈ usage,
    let key := (value.epoch, entry.row.key)
    ((progress.marketMarkers.lookup key).or (epochs.marketMarker.get key)).map (fun marker =>
      (⟨⟨entry.row.enclaveId, entry.row.ctxBracket, marker.ctxBracketTableVer⟩, marker.demandAu,
        marker.sessionCount, marker.providerCount⟩ : MarketUsage)) ≠ some entry)
    "Final market usage does not match canonical receipt settlement state."
  let finals := value.earningFinals.getD []
  rejectIf (finals.length ≠ progress.providerCount)
    "Final provider earning count does not match bounded settlement state."
  rejectIf (∃ final ∈ finals,
    let key := (value.epoch, final.rail, final.provider)
    ((progress.earningMarkers.lookup key).or (epochs.earningMarker.get key)).map (fun marker =>
      (⟨final.rail, final.provider, marker.grossAu, marker.netAu, marker.cumulativeAu⟩ : EarningFinal)) ≠
        some final)
    "Final provider earning evidence does not match applied settlement state."

def validateFinalTotals (crypto : Crypto) (commit : EpochCommit) (epoch : Nat)
    (finals : List EarningFinal) (progress : EpochProgress) : Except String Unit := do
  rejectIf (progress.providerCount ≠ commit.totals.providerCount ∨
    progress.earnCumAu ≠ commit.totals.earnAu ∨ progress.feeAu ≠ commit.totals.feeAu ∨
    progress.burnAu ≠ commit.totals.burnAu)
    "Final bounded settlement totals do not match the epoch commit."
  rejectIf (crypto.merkleRoot .earn (finals.map crypto.earnLeafHash) ≠ commit.roots.earn)
    "Final provider earning root does not match the epoch commit."
  rejectIf (crypto.feeRootHash ⟨epoch, progress.feeAu, commit.totals.feeCumAu, progress.burnAu,
    commit.totals.burnCumAu, Ledger.tapBurnBps⟩ ≠ commit.roots.fee)
    "Final fee root does not match the epoch commit."

end Mayhem
