import Mayhem.Slash
import Mayhem.Lifecycle

/-!
This module contains epoch commits, which anyone may make, and the fraud proofs that void them.
-/

namespace Mayhem

def normalizeEpochTotals (totals : EpochTotals) : Except String EpochTotals := do
  rejectIf (¬ isSafeInteger totals.depCount) "Invalid epoch total dep_count."
  rejectIf (¬ isSafeInteger totals.useCount) "Invalid epoch total use_count."
  rejectIf (¬ isSafeInteger totals.providerCount) "Invalid epoch total provider_count."
  rejectIf (¬ isSafeInteger totals.priceCount) "Invalid epoch total price_count."
  return totals

structure MarketTally where
  row : MarketRow
  demandAu : Nat
  sessionCount : Nat
  providers : List PublicKey
  settledUsage : Counts

def ReceiptBody.marketRow (body : ReceiptBody) : MarketRow :=
  ⟨body.enclaveId, body.ctxBracket, body.ctxBracketTableVer.filter fun _ => body.ctxBracket.isSome⟩

def MarketTally.add (tally : MarketTally) (head : ReceiptHead) : Except String MarketTally := do
  let increment ← incrementalSettledUsage head.receipt.body
  let settledUsage ← (addSettledUsage tally.settledUsage increment).mapError
    fun _ => "Activity commitment work overflow."
  return { tally with
    demandAu := tally.demandAu + head.incrementalAu
    sessionCount := tally.sessionCount + 1
    providers := if head.provider ∈ tally.providers then tally.providers
      else tally.providers ++ [head.provider]
    settledUsage := settledUsage }

def addToMarketTallies (head : ReceiptHead) : List MarketTally → Except String (List MarketTally)
  | [] => do
    let tally ← MarketTally.add ⟨head.receipt.body.marketRow, 0, 0, [], []⟩ head
    return [tally]
  | tally :: rest => do
    if tally.row.key = head.receipt.body.marketRow.key then
      return (← tally.add head) :: rest
    else
      return tally :: (← addToMarketTallies head rest)

structure ActivityScan where
  seen : List BillingAttempt
  markets : List MarketTally
  leaves : List Digest

def scanReceipt (crypto : Crypto) (receipts : Receipts) (epoch : Nat) (scan : ActivityScan)
    (attempt : BillingAttempt) : Except String ActivityScan := do
  rejectIf (attempt ∈ scan.seen) "Activity commitment duplicates a canonical receipt."
  let head ← requireSome (receipts.head.get attempt)
    "Activity commitment requires canonical final receipt heads."
  rejectIf (head.epoch ≠ some epoch ∨ head.settlementEpoch ≠ some epoch ∨ ¬ head.settlementReady)
    "Activity commitment requires canonical final receipt heads."
  let markets ← addToMarketTallies head scan.markets
  return ⟨attempt :: scan.seen, markets, scan.leaves ++ [crypto.usageLeaf head.receipt]⟩

def indexedAttempts (receipts : Receipts) (epoch pageCount : Nat) : Except String (List BillingAttempt) := do
  let pages ← (List.range pageCount).mapM fun page =>
    requireSome (receipts.epochPage.get (epoch, page)) "Activity commitment receipt page is invalid."
  return pages.flatten

namespace Ledger

def prepareCommittedActivityEvidence (crypto : Crypto) (s : Ledger)
    (epoch time epochSeconds : Nat) (roots : EpochRoots) (totals : EpochTotals) :
    Except String (Option ActivityEvidence) := do
  if totals.priceCount = 0 then
    return none
  rejectIf (totals.priceCount ≠ 1) ("Nonempty activity price commitments require one market; " ++
    "use bounded receipt pages for larger settlements.")
  let stored ← requireSome (s.receipts.epochIndex.get epoch)
    "canonical receipt epoch metadata value must be an object."
  let index ← normalizeReceiptEpochIndexMetadata stored false
  rejectIf (index.count > 128 ∨ index.count ≠ totals.useCount)
    ("Activity price commitment requires at most 128 canonical receipts; " ++ "use bounded receipt pages.")
  s.validateFrozenEpoch epoch time index
  let attempts ← indexedAttempts s.receipts epoch index.pageCount
  let scan ← attempts.foldlM (scanReceipt crypto s.receipts epoch) ⟨[], [], []⟩
  match scan.markets with
  | [tally] =>
    rejectIf (scan.seen.length ≠ index.count)
      "Activity price commitment must cover exactly one complete canonical receipt market."
    rejectIf (crypto.merkleRoot .use scan.leaves ≠ roots.use)
      "Activity price commitment usage root differs from canonical signed receipts."
    rejectIf (tally.demandAu ≠ totals.useAu) "Activity commitment gross total mismatch."
    let usage : MarketUsage := ⟨tally.row, tally.demandAu, tally.sessionCount, tally.providers.length⟩
    let canonical : CanonicalActivity :=
      ⟨tally.settledUsage, some (usage.sessionCount, usage.demandAu, usage.providerCount)⟩
    let updates ← computeMarketPriceUpdates crypto s.registry s.market
      { epoch := epoch
        time := time
        epochSeconds := epochSeconds
        canonicalActivity := fun key => if key = tally.row.key then some canonical else none
        includeDormant := false } [usage]
    let derivations := priceDerivationsFromMarketUpdates updates epoch time epochSeconds
      (some roots.use)
    let derivation ← requireSome derivations.head? "Activity commitment has no price derivation."
    return some ⟨usage, derivation, crypto.priceDerivationRoot derivations⟩
  | _ => .error "Activity price commitment must cover exactly one complete canonical receipt market."

structure CommitResult where
  commitHash : Digest
  idempotent : Bool

def prepareCommit (crypto : Crypto) (s : Ledger) (sender : PublicKey)
    (epoch time : Nat) (roots : EpochRoots) (totals : EpochTotals) :
    Except String (Option EpochCommit × CommitResult) := do
  rejectIf ((s.epochs.committerBan.get sender).isSome) "Epoch committer is banned."
  let totals ← normalizeEpochTotals totals
  let param := s.registry.activeParamAt time
  let commitHash := crypto.epochCommitHash ⟨epoch, param .epochSeconds, roots, totals⟩
  match s.epochs.commit.get epoch with
  | some existing =>
    rejectIf (existing.commitHash ≠ commitHash) "Epoch commit already exists."
    return (none, ⟨commitHash, true⟩)
  | none =>
    let evidence ← s.prepareCommittedActivityEvidence crypto epoch time (param .epochSeconds) roots
      totals
    return (some {
      epochSeconds := param .epochSeconds
      targetedReceiptPages := false
      roots := roots
      totals := totals
      status := .provisional
      provisionalUntilEpoch := epoch + param .challengeEpochs
      commitHash := commitHash
      submittedBy := sender
      time := time
      replacementCount := 0
      expectedActivityEvidence := evidence }, ⟨commitHash, false⟩)

def epochCommit (crypto : Crypto) (s : Ledger) (sender : PublicKey) (epoch time : Nat)
    (roots : EpochRoots) (totals : EpochTotals) : Outcome CommitResult :=
  match s.prepareCommit crypto sender epoch time roots totals with
  | .error message => (s, .error message)
  | .ok (none, result) => (s, .ok result)
  | .ok (some commit, result) =>
    ({ s with epochs := { s.epochs with commit := s.epochs.commit.put epoch commit } }, .ok result)

end Ledger

def fraudProofMaxBytes : Nat := 4096

structure OverCreditProof where
  actualAu : Nat
  claimedAu : Nat
  receiptHash : Digest

def validateOverCreditFraudProof (crypto : Crypto) (commit : EpochCommit) (proofEpoch : Nat)
    (receipt : ReceiptEnvelope) (claimedCum previousAu : Nat) : Except String OverCreditProof := do
  rejectIf (commit.status = .void) "Epoch commit is already void."
  rejectIf (proofEpoch > commit.provisionalUntilEpoch) "Epoch commit challenge window has closed."
  rejectIf (commit.totals.useCount ≠ 1) "Over-credit proof requires a single committed receipt."
  rejectIf (previousAu > receipt.body.auOwedCum ∨ previousAu > claimedCum)
    "Previous receipt amount exceeds cumulative amount."
  let actualAu ← safeSubAu receipt.body.auOwedCum previousAu
  let claimedAu ← safeSubAu claimedCum previousAu
  rejectIf (claimedAu ≤ actualAu) "Receipt does not contradict committed usage."
  rejectIf (commit.totals.useAu ≠ claimedAu)
    "Fraud proof claimed amount does not match committed usage total."
  let claimedReceipt := { receipt with body := { receipt.body with auOwedCum := claimedCum } }
  rejectIf (commit.roots.use ≠ crypto.usageLeaf claimedReceipt)
    "Fraud proof does not match committed usage root."
  return ⟨actualAu, claimedAu, crypto.usageLeaf receipt⟩

def checkMarketUsage (entry : MarketUsage) : Except String Unit := do
  rejectIf (∃ bracket ∈ entry.row.ctxBracket, ¬ isSafeKeyPart bracket)
    "Invalid market usage context bracket."
  rejectIf (∃ ver ∈ entry.row.ctxBracketTableVer, ¬ isSafeInteger ver ∨ ver < 1)
    "Invalid market usage context bracket table version."
  rejectIf (entry.demandAu = 0) "Invalid market usage demand."
  rejectIf (¬ isSafeInteger entry.sessionCount ∨ entry.sessionCount = 0)
    "Invalid market usage session_count."
  rejectIf (¬ isSafeInteger entry.providerCount ∨ entry.providerCount = 0)
    "Invalid market usage provider_count."

def normalizePriceProofUsage (usage : MarketUsage) : Except String MarketUsage := do
  checkMarketUsage usage
  return usage

structure PriceDerivationProof where
  priceUsage : MarketUsage
  expectedPriceRoot : Digest
  derivationHash : Digest

def validatePriceDerivationFraudProof (crypto : Crypto) (commit : EpochCommit) (proofEpoch : Nat)
    (usage : MarketUsage) : Except String PriceDerivationProof := do
  rejectIf (commit.status = .void) "Epoch commit is already void."
  rejectIf (proofEpoch > commit.provisionalUntilEpoch) "Epoch commit challenge window has closed."
  let unpinned := "Price activity proof requires canonical work evidence pinned by its commitment."
  rejectIf (commit.totals.priceCount ≠ 1) unpinned
  let evidence ← requireSome commit.expectedActivityEvidence unpinned
  let priceUsage ← normalizePriceProofUsage usage
  rejectIf (priceUsage ≠ evidence.priceUsage)
    "Price activity proof usage differs from canonical commitment evidence."
  let expected := crypto.priceDerivationRoot [evidence.derivation]
  rejectIf (expected ≠ evidence.expectedPriceRoot) "Pinned activity evidence is inconsistent."
  rejectIf (expected = commit.roots.price)
    "Price activity proof does not contradict committed price root."
  return ⟨priceUsage, expected, crypto.priceDerivationLeafHash evidence.derivation⟩

structure FraudFinding where
  proofHash : Digest
  reason : FraudReason
  enclaveId : Digest

structure FraudResult where
  proofHash : Digest
  voidedCommit : Digest
  bannedSubmitter : PublicKey
  idempotent : Bool

namespace Ledger

def overCreditFinding (crypto : Crypto) (s : Ledger) (commit : EpochCommit)
    (value : FraudProofValue) : Except String (Digest × Option FraudFinding) := do
  let source ← requireSome value.receipt "Over-credit fraud proof requires a receipt."
  let claimed ← requireSome value.claimedAuOwedCum
    "Over-credit fraud proof requires claimed_au_owed_cum."
  let receipt ← normalizeReceiptEnvelope s.registry source
  rejectIf (¬ crypto.verifyReceiptEnvelope receipt) "Invalid receipt signature."
  let previous := value.previousAuOwedCum.getD 0
  let proofHash := crypto.fraudProofHash
    (.overCredit value.epoch value.proofEpoch receipt claimed previous)
  if (s.epochs.fraud.get (value.epoch, proofHash)).isSome then
    return (proofHash, none)
  let _ ← validateOverCreditFraudProof crypto commit value.proofEpoch receipt claimed previous
  return (proofHash, some ⟨proofHash, .overCredit, receipt.body.enclaveId⟩)

def priceDerivationFinding (crypto : Crypto) (s : Ledger) (commit : EpochCommit)
    (value : FraudProofValue) : Except String (Digest × Option FraudFinding) := do
  let usage ← requireSome value.priceUsage "Price derivation fraud proof requires price_usage."
  let proof ← validatePriceDerivationFraudProof crypto commit value.proofEpoch usage
  let proofHash := crypto.fraudProofHash (.priceDerivation value.epoch value.proofEpoch
    proof.priceUsage proof.expectedPriceRoot commit.roots.price proof.derivationHash)
  if (s.epochs.fraud.get (value.epoch, proofHash)).isSome then
    return (proofHash, none)
  return (proofHash, some ⟨proofHash, .priceDerivation, proof.priceUsage.row.enclaveId⟩)

def fraudFinding (crypto : Crypto) (s : Ledger) (commit : EpochCommit) (value : FraudProofValue) :
    FraudReason → Except String (Digest × Option FraudFinding)
  | .overCredit => s.overCreditFinding crypto commit value
  | .priceDerivation => s.priceDerivationFinding crypto commit value

def validateChallenge (commit : EpochCommit) (proofEpoch : Nat) : Option FraudFinding → Except String Unit
  | none => .ok ()
  | some _ => do
    rejectIf (commit.status = .void) "Epoch commit is already void."
    rejectIf (proofEpoch > commit.provisionalUntilEpoch) "Epoch commit challenge window has closed."

def prepareFraudProof (crypto : Crypto) (s : Ledger) (value : FraudProofValue) :
    Except String (EpochCommit × Digest × Option FraudFinding) := do
  let reason ← requireSome value.reason "Unsupported fraud proof reason."
  rejectIf (crypto.fraudProofBytes value > fraudProofMaxBytes) "Fraud proof exceeds 4096 bytes."
  let commit ← requireSome (s.epochs.commit.get value.epoch) "Epoch commit not found."
  let (proofHash, finding) ← s.fraudFinding crypto commit value reason
  validateChallenge commit value.proofEpoch finding
  return (commit, proofHash, finding)

def fraudSlash (s : Ledger) (sender : PublicKey) (tx : Digest) (value : FraudProofValue)
    (commit : EpochCommit) (finding : FraudFinding) :
    Except String (Ledger × Option SlashRecord) := do
  if (s.registry.providers.get commit.submittedBy).isNone then
    return (s, none)
  let (next, slash) ← s.applyProviderSlash tx
    { provider := commit.submittedBy
      epoch := value.epoch
      slashBps := s.registry.activeParamAt value.time .fraudSlashBps
      beneficiary := some sender
      enclaveId := some finding.enclaveId
      banProvider := true
      tombstoneEnclave := true }
  return (next, some slash)

def writeFraud (s : Ledger) (value : FraudProofValue) (commit : EpochCommit)
    (finding : FraudFinding) (slash : Option SlashRecord) : Ledger :=
  { s with
    epochs := { s.epochs with
      fraud := s.epochs.fraud.put (value.epoch, finding.proofHash)
        ⟨value.proofEpoch, finding.reason, commit.commitHash, commit.submittedBy, slash⟩
      commit := s.epochs.commit.put value.epoch { commit with status := .void }
      committerBan :=
        if (s.epochs.committerBan.get commit.submittedBy).isSome then s.epochs.committerBan
        else s.epochs.committerBan.put commit.submittedBy finding.proofHash } }

def fraudProof (crypto : Crypto) (s : Ledger) (sender : PublicKey) (tx : Digest)
    (value : FraudProofValue) : Outcome FraudResult :=
  match s.prepareFraudProof crypto value with
  | .error message => (s, .error message)
  | .ok (commit, proofHash, none) =>
    (s, .ok ⟨proofHash, commit.commitHash, commit.submittedBy, true⟩)
  | .ok (commit, proofHash, some finding) =>
    match s.fraudSlash sender tx value commit finding with
    | .error message => (s, .error message)
    | .ok (next, slash) =>
      (next.writeFraud value commit finding slash, .ok ⟨proofHash, commit.commitHash, commit.submittedBy, false⟩)

end Ledger

end Mayhem
