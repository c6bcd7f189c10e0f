import Mayhem.Ledger

/-!
This module contains the money records of the ledger, the guardian's checks on them and the holdback buckets.
-/

namespace Mayhem

def railScope (reg : Registry) (rail : Rail) : Except String (Option TapScope) :=
  if rail = .tap then reg.canonicalTapPaymentConfig else .ok none

def scopedRecord {α : Type} (tap : Option TapScope) (scope : α → Option TapScope)
    (current : Option α) : Option α :=
  match tap with
  | none => current
  | some pool => current.filter fun record => scope record = some pool

def readScoped {α : Type} (reg : Registry) (rail : Rail) (scope : α → Option TapScope)
    (stored : Option α) (fresh : Option TapScope → α) : Except String α := do
  let tap ← railScope reg rail
  return (scopedRecord tap scope stored).getD (fresh tap)

def emptyEarned : Earned := ⟨0, 0, 0, none, 0⟩

namespace Ledger

def balanceRecord (s : Ledger) (user : PublicKey) (rail : Rail) : Except String BalanceRecord :=
  readScoped s.registry rail BalanceRecord.scope (s.accounts.balance.get (user, rail))
    fun tap => ⟨0, 0, tap⟩

def earningRecord (s : Ledger) (provider : PublicKey) (rail : Rail) : Except String EarningRecord :=
  readScoped s.registry rail EarningRecord.scope (s.accounts.earning.get (provider, rail))
    fun tap => ⟨emptyEarned, 0, tap, 0⟩

def feeCumRecord (s : Ledger) (rail : Rail) : Except String FeeRecord :=
  readScoped s.registry rail FeeRecord.scope (s.accounts.fee.get rail)
    fun tap => ⟨0, 0, none, 0, tap⟩

def tapBurnBps : Nat := 1000

def railBurnBps (rail : Rail) : Nat := if rail = .tap then tapBurnBps else 0

def burnCumRecord (s : Ledger) (rail : Rail) : Except String BurnRecord :=
  readScoped s.registry rail BurnRecord.scope (s.accounts.burn.get rail)
    fun tap => ⟨0, 0, railBurnBps rail, tap⟩

def putBalance (s : Ledger) (user : PublicKey) (rail : Rail) (record : BalanceRecord) : Ledger :=
  { s with accounts := { s.accounts with balance := s.accounts.balance.put (user, rail) record } }

def putEarning (s : Ledger) (provider : PublicKey) (rail : Rail) (record : EarningRecord) : Ledger :=
  { s with accounts := { s.accounts with earning := s.accounts.earning.put (provider, rail) record } }

def putFee (s : Ledger) (rail : Rail) (record : FeeRecord) : Ledger :=
  { s with accounts := { s.accounts with fee := s.accounts.fee.put rail record } }

end Ledger

def lockRank (lockedEpochs : Option Nat) : Nat :=
  match lockedEpochs with
  | none => 0
  | some n => n + 1

def Holdback.before (a b : Holdback) : Bool :=
  decide (a.epoch < b.epoch) || decide (a.epoch = b.epoch) &&
    (decide (lockRank a.lockedEpochs < lockRank b.lockedEpochs) ||
      decide (a.lockedEpochs = b.lockedEpochs) && !a.probeGate && b.probeGate)

def Holdback.sameSlot (a b : Holdback) : Bool :=
  a.epoch = b.epoch ∧ a.lockedEpochs = b.lockedEpochs ∧ a.probeGate = b.probeGate

def insertBucket (bucket : Holdback) : List Holdback → List Holdback
  | [] => [bucket]
  | b :: rest =>
    if bucket.sameSlot b then { b with au := b.au + bucket.au } :: rest
    else if bucket.before b then bucket :: b :: rest
    else b :: insertBucket bucket rest

def addHoldbackBucket (buckets : List Holdback) (bucket : Holdback) : Except String (List Holdback) := do
  rejectIf (¬ isSafeInteger bucket.epoch) "Guardian monotonic epoch invariant failed."
  rejectIf (bucket.au = 0) "Guardian non-negative earnings invariant failed."
  rejectIf (∃ n ∈ bucket.lockedEpochs, ¬ isSafeInteger n)
    "Guardian monotonic epoch invariant failed."
  return insertBucket bucket buckets

def normalizeHoldbackBuckets (earned : Earned) : Except String (List Holdback) :=
  match earned.holdbacks with
  | none =>
    let epoch := if isSafeInteger earned.updatedEpoch then earned.updatedEpoch else 0
    .ok (if earned.heldAu = 0 then [] else [⟨epoch, earned.heldAu, none, false⟩])
  | some buckets => buckets.foldlM addHoldbackBucket []

def holdbackBucketTotal (buckets : List Holdback) : Nat := (buckets.map Holdback.au).sum

structure ProbeGate where
  holdbackBps : Nat
  passedEpochs : List Nat

def refreshBucket (currentEpoch lockedEpochs : Nat) (probeGate : Option ProbeGate)
    (disputeGate : Bool) (bucket : Holdback) : Option Holdback :=
  if disputeGate ∨ bucket.epoch + bucket.lockedEpochs.getD lockedEpochs > currentEpoch then
    some bucket
  else
    match probeGate with
    | none => none
    | some gate =>
      if bucket.epoch ∈ gate.passedEpochs then none
      else if bucket.probeGate then some bucket
      else
        let gatedAu := safeMulDivAu bucket.au gate.holdbackBps 10000
        if gatedAu > 0 then some { bucket with au := gatedAu, probeGate := true } else none

def refreshEarningHoldback (earned : Earned) (currentEpoch lockedEpochs : Nat)
    (probeGate : Option ProbeGate) (disputeGate : Bool) : Except String Earned := do
  rejectIf (¬ isSafeInteger currentEpoch) "Guardian monotonic epoch invariant failed."
  rejectIf (¬ isSafeInteger lockedEpochs) "Guardian monotonic epoch invariant failed."
  let buckets ← normalizeHoldbackBuckets earned
  let kept := buckets.filterMap (refreshBucket currentEpoch lockedEpochs probeGate disputeGate)
  return { earned with heldAu := holdbackBucketTotal kept, holdbacks := some kept }

def appendHoldbackBucket (buckets : List Holdback) (epoch : Nat) (au : Nat) (lockedEpochs : Nat) :
    Except String (List Holdback) := do
  rejectIf (¬ isSafeInteger epoch) "Guardian monotonic epoch invariant failed."
  rejectIf (au = 0) "Guardian non-negative earnings invariant failed."
  rejectIf (¬ isSafeInteger lockedEpochs) "Guardian monotonic epoch invariant failed."
  let normalized ← buckets.foldlM addHoldbackBucket []
  return insertBucket ⟨epoch, au, some lockedEpochs, false⟩ normalized

def slashNewestFirst : List Holdback → Nat → List Holdback × Nat
  | [], remaining => ([], remaining)
  | bucket :: rest, remaining =>
    if remaining = 0 then (bucket :: rest, 0)
    else if bucket.au ≤ remaining then slashNewestFirst rest (remaining - bucket.au)
    else ({ bucket with au := bucket.au - remaining } :: rest, 0)

def slashHoldbackBuckets (buckets : List Holdback) (slashAu : Nat) : Except String (List Holdback) := do
  let (kept, remaining) := slashNewestFirst buckets.reverse slashAu
  rejectIf (remaining ≠ 0) "Guardian earnings conservation invariant failed."
  return kept.reverse

def slashAmount (heldAu : Nat) (slashBps : Nat) : Except String Nat := do
  rejectIf (slashBps > 10000) "Invalid slash bps."
  return safeMulDivAu heldAu slashBps 10000

def lockedEarningEpochs (successfulSessions : Nat) (param : ParamKey → Nat) : Nat :=
  let providerHoldback :=
    if successfulSessions < param .probationSuccessfulSessions then
      max (param .holdbackEpochs) (param .newProviderHoldbackEpochs)
    else param .holdbackEpochs
  max providerHoldback (param .challengeEpochs)

def providerLockedEarningEpochs (provider : ProviderRecord) (param : ParamKey → Nat) : Except String Nat := do
  rejectIf (¬ isSafeInteger provider.successfulSessions)
    "Invalid provider holdback probation state."
  return lockedEarningEpochs provider.successfulSessions param

def probeGateForEarning (oversight : Oversight) (provider : PublicKey) (earned : Earned)
    (param : ParamKey → Nat) : Except String (Option ProbeGate) := do
  let holdbackBps := param .canaryProbeHoldbackBps
  let requiredPasses := param .canaryProbeReleaseMinPasses
  if holdbackBps = 0 ∨ requiredPasses = 0 then
    return none
  rejectIf (holdbackBps > 10000) "Invalid canary probe holdback bps."
  rejectIf (¬ isSafeInteger requiredPasses ∨ requiredPasses < 2)
    "Invalid canary probe release threshold."
  let buckets ← normalizeHoldbackBuckets earned
  let passed := (buckets.map Holdback.epoch).filter fun epoch =>
    let auditors := (oversight.probePass.get (provider, epoch)).getD []
    let active := auditors.dedup.filter fun auditor =>
      oversight.auditorActive.get auditor = some true
    auditors.dedup.length = auditors.length ∧ requiredPasses ≤ active.length
  return some ⟨holdbackBps, passed⟩

def providerHasOpenDispute (oversight : Oversight) (provider : PublicKey) : Except String Bool := do
  let count := (oversight.providerOpenDisputes.get provider).getD 0
  rejectIf (¬ isSafeInteger count) "Invalid open dispute count."
  return decide (count > 0)

structure SettlementDelta where
  feeAu : Nat
  burnAu : Nat
  providerAu : Nat

def providerSettlementPageDelta (grossAu priorGrossAu : Nat) (rail : Rail) (feeBps : Nat) :
    Except String SettlementDelta := do
  let nextGrossAu := priorGrossAu + grossAu
  let feeAu ← safeSubAu (safeMulDivAu nextGrossAu feeBps 10000)
    (safeMulDivAu priorGrossAu feeBps 10000)
  let burnBps := Ledger.railBurnBps rail
  let burnAu ← safeSubAu (safeMulDivAu nextGrossAu burnBps 10000)
    (safeMulDivAu priorGrossAu burnBps 10000)
  let afterFeeAu ← safeSubAu grossAu feeAu
  let providerAu ← safeSubAu afterFeeAu burnAu
  return ⟨feeAu, burnAu, providerAu⟩

def guardianValidateTapScope (scope : Option TapScope) (amounts : List Nat) (label : String) :
    Except String Unit :=
  match scope with
  | none => rejectIf (∃ au ∈ amounts, au ≠ 0) ("Guardian TAP " ++ label ++ " scope invariant failed.")
  | some tap => rejectIf (¬ isSafeInteger tap.chainId ∨ tap.chainId < 1)
      ("Guardian TAP " ++ label ++ " chain invariant failed.")

def guardianValidateBalanceRecord (record : BalanceRecord) (rail : Rail) : Except String Unit := do
  rejectIf (¬ isSafeInteger record.updatedEpoch) "Guardian balance epoch invariant failed."
  if rail = .tap then
    guardianValidateTapScope record.scope [record.au] "balance"

def guardianValidateEarned (earned : Earned) (conservation : String) : Except String Unit := do
  let payableAu ← safeSubAu earned.totalAu earned.heldAu
  rejectIf (earned.heldAu > earned.totalAu ∨ earned.paidCumAu > payableAu) conservation

def guardianValidateBuckets (earned : Earned) (conservation : String) : Except String Unit := do
  let buckets ← normalizeHoldbackBuckets earned
  rejectIf (holdbackBucketTotal buckets ≠ earned.heldAu) conservation

def guardianValidateEarningRecord (record : EarningRecord) (rail : Rail) : Except String Unit := do
  rejectIf (¬ isSafeInteger record.earned.updatedEpoch) "Guardian earnings epoch invariant failed."
  guardianValidateEarned record.earned "Guardian earnings conservation invariant failed."
  if record.earned.holdbacks.isSome then
    guardianValidateBuckets record.earned "Guardian earnings conservation invariant failed."
  if rail = .tap then
    guardianValidateTapScope record.scope
      [record.earned.totalAu, record.earned.heldAu, record.earned.paidCumAu] "earning"

def guardianValidateLiabilityScope (liability : PayoutLiability) (rail : Rail) : Except String Unit :=
  match rail with
  | .fiat => rejectIf ((¬ ∃ currency ∈ liability.currency, isSafeKeyPart currency) ∨ liability.chainId.isSome)
      "Guardian payout liability fiat scope invariant failed."
  | .tap => rejectIf (liability.currency.isSome ∨
      (¬ ∃ chainId ∈ liability.chainId, isSafeInteger chainId ∧ 1 ≤ chainId) ∨
      ¬ isEthHexBytes liability.target 20)
      "Guardian payout liability TAP scope invariant failed."
  | .tnk => rejectIf (liability.currency.isSome ∨ liability.chainId.isSome)
      "Guardian payout liability TNK scope invariant failed."

def guardianValidatePayoutLiabilityRecord (liability : PayoutLiability) (rail : Rail) : Except String Unit := do
  rejectIf (¬ isSafeKeyPart liability.target) "Guardian payout liability target invariant failed."
  guardianValidateLiabilityScope liability rail
  rejectIf (¬ isSafeInteger liability.earned.updatedEpoch)
    "Guardian payout liability epoch invariant failed."
  (guardianValidateEarned liability.earned "").mapError
    fun _ => "Guardian payout liability conservation invariant failed."
  guardianValidateBuckets liability.earned
    "Guardian payout liability conservation invariant failed."

def guardianValidateFeeRecord (record : FeeRecord) (rail : Rail) : Except String Unit := do
  rejectIf (¬ isSafeInteger record.updatedEpoch) "Guardian monotonic epoch invariant failed."
  rejectIf (record.sweptCumAu > record.cumAu) "Guardian fee conservation invariant failed."
  rejectIf (record.settledCumAu.getD record.cumAu < record.cumAu)
    "Guardian conservation invariant failed."
  if rail = .tap then
    guardianValidateTapScope record.scope
      [record.cumAu, record.sweptCumAu, record.settledCumAu.getD 0] "fee"

def guardianValidateBurnRecord (record : BurnRecord) (rail : Rail) : Except String Unit := do
  rejectIf (¬ isSafeInteger record.updatedEpoch) "Guardian monotonic epoch invariant failed."
  rejectIf (record.burnBps ≠ Ledger.railBurnBps rail) "Guardian burn policy invariant failed."
  if rail = .tap then
    guardianValidateTapScope record.scope [record.cumAu] "burn"

end Mayhem
