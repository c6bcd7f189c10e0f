import Mayhem.Lib.Tally
import Mayhem.Commit

namespace Mayhem

def Rail.index : Rail → Nat
  | .fiat => 0
  | .tap => 1
  | .tnk => 2

def Allocation.sortKey (a : Allocation) : List Nat :=
  [a.rail.index, a.user, a.billingEpoch, a.billingId, a.billingAttempt, a.sessionId]

def checkAllocation (seen : List Allocation) (entry : Allocation) : Except String (List Allocation) := do
  rejectIf (¬ isSafeInteger entry.billingAttempt ∨ ¬ isSafeInteger entry.billingEpoch ∨
    entry.billingEpoch < 1 ∨ ¬ isSafeInteger entry.receiptSeq)
    "Invalid targeted epoch allocation receipt position."
  rejectIf (entry.sessionId ∈ seen.map Allocation.sessionId ∨
    entry.attempt ∈ seen.map Allocation.attempt) "Duplicate targeted epoch receipt allocation."
  rejectIf (entry.au = 0) "targeted epoch allocation amount must be positive."
  return entry :: seen

def TargetedEarning.sortKey (e : TargetedEarning) : List Nat :=
  [e.rail.index, e.provider, e.payoutRevision]

def mergeTargetedEarning (entry : TargetedEarning) : List TargetedEarning → List TargetedEarning
  | [] => [entry]
  | e :: rest =>
    if e.rail = entry.rail ∧ e.provider = entry.provider ∧ e.payoutRevision = entry.payoutRevision
    then { e with grossAu := e.grossAu + entry.grossAu } :: rest
    else e :: mergeTargetedEarning entry rest

def addTargetedEarning (earnings : List TargetedEarning) (entry : TargetedEarning) :
    Except String (List TargetedEarning) := do
  rejectIf (entry.grossAu = 0) "targeted epoch gross earning must be positive."
  rejectIf (∃ e ∈ earnings, e.rail = entry.rail ∧ e.provider = entry.provider ∧
    e.payoutRevision ≠ entry.payoutRevision)
    "Targeted epoch provider rail cannot substitute payout revisions."
  return mergeTargetedEarning entry earnings

def EarningFinal.sortKey (e : EarningFinal) : List Nat := [e.rail.index, e.provider]

def checkEarningFinal (seen : List (Rail × PublicKey)) (entry : EarningFinal) :
    Except String (List (Rail × PublicKey)) := do
  rejectIf ((entry.rail, entry.provider) ∈ seen) "Duplicate targeted epoch final earning provider."
  rejectIf (entry.grossAu = 0 ∨ entry.netAu = 0 ∨ entry.cumulativeAu = 0)
    "Invalid targeted epoch final earning amount."
  rejectIf (entry.netAu > entry.grossAu ∨ entry.cumulativeAu < entry.netAu)
    "Targeted epoch final earning totals are inconsistent."
  return (entry.rail, entry.provider) :: seen

def checkEarningFinals (lastPage : Bool) : Option (List EarningFinal) → Except String Unit
  | none => .ok ()
  | some finals => do
    rejectIf (¬ lastPage ∨ finals = [])
      "Targeted epoch earning_finals require a non-empty final page."
    let _ ← finals.foldlM checkEarningFinal []
    rejectIf (finals.insertionSort (fun a b => a.sortKey ≤ b.sortKey) ≠ finals)
      "Targeted epoch final earnings must be canonical."

def normalizeTargetedEpochFeatureValue (value : TargetedEpochValue) : Except String TargetedEpochValue := do
  let _ ← normalizeReceiptEpochIndexMetadata value.receiptIndex false
  rejectIf (value.allocations = []) "Targeted epoch allocations must be a non-empty array."
  let _ ← value.allocations.foldlM checkAllocation []
  rejectIf (value.allocations.insertionSort (fun a b => a.sortKey ≤ b.sortKey) ≠ value.allocations)
    "Targeted epoch allocations must be canonical."
  let earnings ← value.earnings.foldlM addTargetedEarning []
  checkEarningFinals value.lastPage value.earningFinals
  rejectIf (¬ isSafeInteger value.epoch ∨ value.epoch < 1) "Invalid targeted epoch."
  rejectIf (¬ isSafeInteger value.time) "Invalid targeted epoch timestamp."
  rejectIf (¬ isSafeInteger value.page) "Invalid epochApply page."
  return { value with
    earnings := earnings.insertionSort fun a b => a.sortKey ≤ b.sortKey }

def ReceiptHead.matchesAllocation (head : ReceiptHead) (epoch : Nat) (a : Allocation) : Bool :=
  decide (head.epoch = some epoch ∧ head.settlementEpoch = some epoch ∧
    head.billingEpoch = a.billingEpoch ∧ head.settlementReady ∧ head.receiptSeq = a.receiptSeq ∧
    head.receiptHash = a.receiptHash ∧ head.sessionId = a.sessionId ∧ head.user = a.user ∧
    head.rail = a.rail ∧ head.provider = a.provider ∧ head.payoutRevision = a.payoutRevision ∧
    head.incrementalAu = a.au)

def validateReceiptMarket (body : ReceiptBody) (a : Allocation) : Except String Unit :=
  rejectIf (body.sessionId ≠ a.sessionId ∨ body.provider ≠ a.provider ∨
    (∃ bracket ∈ body.ctxBracket, ¬ isSafeKeyPart bracket) ∨
    ∃ ver ∈ body.ctxBracketTableVer, ¬ isSafeInteger ver ∨ ver < 1)
    "Canonical receipt market identity is invalid."

def MarketTally.addAllocation (tally : MarketTally) (body : ReceiptBody) (a : Allocation) :
    Except String MarketTally := do
  rejectIf (tally.row.ctxBracketTableVer ≠ body.ctxBracketTableVer.or tally.row.ctxBracketTableVer)
    "Canonical receipt market context version changed within an epoch."
  let sessionCount ← (safeAddCount tally.sessionCount 1 "").mapError
    fun _ => "Canonical receipt market usage overflow."
  let increment ← incrementalSettledUsage body
  let settledUsage ← addSettledUsage tally.settledUsage increment
  return { tally with
    demandAu := tally.demandAu + a.au
    sessionCount := sessionCount
    providers := if a.provider ∈ tally.providers then tally.providers
      else tally.providers ++ [a.provider]
    settledUsage := settledUsage }

def addAllocationUsage (body : ReceiptBody) (a : Allocation) : List MarketTally → Except String (List MarketTally)
  | [] => do
    let row : MarketRow := ⟨body.enclaveId, body.ctxBracket, body.ctxBracketTableVer⟩
    let tally ← MarketTally.addAllocation ⟨row, 0, 0, [], []⟩ body a
    return [tally]
  | tally :: rest => do
    if tally.row.key = (body.enclaveId, body.ctxBracket) then
      let tally ← tally.addAllocation body a
      return tally :: rest
    else
      let rest ← addAllocationUsage body a rest
      return tally :: rest

def SpendSession.matchesAllocation (session : SpendSession) (a : Allocation) : Bool :=
  decide (session.billingId = a.billingId ∧ session.billingAttempt = a.billingAttempt ∧
    session.billingEpoch = a.billingEpoch ∧ session.provider = a.provider ∧
    session.payoutRevision = a.payoutRevision ∧ session.settlementReady)

def consumeReservation (reg : Registry) (stored holds : Holds) (head : ReceiptHead)
    (a : Allocation) : Except String Holds := do
  let state ← targetedSpendReservationState reg stored a.user a.rail head.reservationId a.sessionId
  let mismatch := "Targeted epoch allocation does not match its reserved session."
  let session ← requireSome state.session mismatch
  rejectIf (¬ session.matchesAllocation a) mismatch
  rejectIf (session.reservationId ≠ head.reservationId ∨ session.user ≠ a.user ∨
    session.rail ≠ a.rail ∨ a.au ≠ session.maxSpendAu ∨ a.au ≠ head.incrementalAu)
    "Targeted epoch allocation does not exactly consume its reserved receipt."
  let sessionKey := (a.user, a.rail, head.reservationId)
  match state with
  | .sharded _ _ =>
    let summary := holds.targetedSpendSummary a.user a.rail
    let reservedAu ← (safeSubAu summary.reservedAu a.au).mapError
      fun _ => "Targeted epoch allocation exceeds outstanding sharded holds."
    return { holds with
      summary := holds.summary.put (a.user, a.rail) { summary with reservedAu := reservedAu }
      session := holds.session.del sessionKey
      sessionIndex := holds.sessionIndex.del (a.user, a.rail, a.sessionId)
      billingAttempt := holds.billingAttempt.del
        (a.user, a.rail, session.billingId, session.billingAttempt) }
  | .legacyOverlay hold _ _ =>
    let release := holds.targetedSpendLegacyRelease a.user a.rail + a.au
    rejectIf (release > hold.reservedAu)
      "Targeted epoch allocation exceeds outstanding legacy holds."
    return { holds with
      legacyRelease := holds.legacyRelease.put (a.user, a.rail) release
      legacySession := holds.legacySession.del sessionKey }
  | .legacy hold _ _ =>
    let release := holds.targetedSpendLegacyRelease a.user a.rail + a.au
    rejectIf (release > hold.reservedAu)
      "Targeted epoch allocation exceeds outstanding legacy holds."
    return { holds with legacyRelease := holds.legacyRelease.put (a.user, a.rail) release }
  | .missing _ => .error mismatch

structure Bindings where
  sessions : List Digest
  attempts : List BillingAttempt
  holds : Holds
  markets : List MarketTally
  debits : List ((Rail × PublicKey) × Nat)
  earnings : List ((Rail × PublicKey × Digest) × Nat)

def bindAllocation (s : Ledger) (epoch : Nat) (key : Digest) (bindings : Bindings)
    (a : Allocation) : Except String Bindings := do
  rejectIf (a.sessionId ∈ bindings.sessions) "Targeted epoch session allocation is duplicated."
  rejectIf (a.attempt ∈ bindings.attempts)
    "Targeted epoch billing attempt allocation is duplicated."
  let mismatch := "Targeted epoch allocation does not match its canonical receipt head."
  let head ← requireSome (s.receipts.head.get a.attempt) mismatch
  rejectIf (¬ head.matchesAllocation epoch a) mismatch
  validateReceiptMarket head.receipt.body a
  let markets ← addAllocationUsage head.receipt.body a bindings.markets
  let holds ← match s.receipts.consumed.get a.attempt with
    | some existing => do
      rejectIf (existing ≠ ⟨epoch, a, key⟩)
        "Canonical receipt billing attempt is already consumed."
      pure bindings.holds
    | none => consumeReservation s.registry s.holds bindings.holds head a
  return {
    sessions := a.sessionId :: bindings.sessions
    attempts := a.attempt :: bindings.attempts
    holds := holds
    markets := markets
    debits := Tally.add (a.rail, a.user) a.au bindings.debits
    earnings := Tally.add (a.rail, a.provider, a.payoutRevision) a.au bindings.earnings }

def MarketTally.sortProviders (tally : MarketTally) : MarketTally :=
  { tally with providers := tally.providers.insertionSort (· ≤ ·) }

def validateTargetedEpochReservationBindings (s : Ledger) (value : TargetedEpochValue)
    (key : Digest) : Except String (Holds × List MarketTally) := do
  let debitTotals := Tally.addAll [] (value.debits.map fun d => ((d.rail, d.user), d.au))
  let earningTotals := value.earnings.map fun e =>
    ((e.rail, e.provider, e.payoutRevision), e.grossAu)
  let bindings ← value.allocations.foldlM (bindAllocation s value.epoch key)
    ⟨[], [], s.holds, [], [], []⟩
  rejectIf (∃ entry ∈ debitTotals, bindings.debits.lookup entry.1 ≠ some entry.2)
    "Targeted epoch debit does not equal session allocations."
  rejectIf (bindings.debits.length ≠ debitTotals.length)
    "Targeted epoch allocation has no matching debit."
  rejectIf (∃ entry ∈ earningTotals, bindings.earnings.lookup entry.1 ≠ some entry.2)
    "Targeted epoch earning does not equal session allocations."
  rejectIf (bindings.earnings.length ≠ earningTotals.length)
    "Targeted epoch allocation has no matching earning."
  let markets := bindings.markets.insertionSort fun a b => MarketKey.le a.row.key b.row.key
  return (bindings.holds, markets.map MarketTally.sortProviders)

end Mayhem
