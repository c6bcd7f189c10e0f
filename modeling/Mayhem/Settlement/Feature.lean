import Mayhem.Settlement.Epoch

/-!
This module contains the admin's settlement operations: a page of an epoch, and the first page together with
the commit it settles.
-/

namespace Mayhem

structure LiabilityUpdate where
  earning : TargetedEarning
  delta : SettlementDelta
  liability : PayoutLiability
  snapshot : PayoutSnapshot

def LiabilityUpdate.key (update : LiabilityUpdate) : PublicKey × Rail × Digest :=
  (update.earning.provider, update.earning.rail, update.earning.payoutRevision)

def priorProviderGross (epochs : Epochs) (value : TargetedEpochValue) (replay : Bool)
    (earning : TargetedEarning) : Except String Nat := do
  match epochs.earningMarker.get (value.epoch, earning.rail, earning.provider) with
  | none =>
    rejectIf (replay = true) "Bounded receipt provider earning marker is missing on replay."
    return 0
  | some marker =>
    rejectIf (¬ isSafeInteger marker.lastPage ∨
      if replay then marker.lastPage ≠ value.page else marker.lastPage ≥ value.page)
      "Bounded receipt provider earning marker is inconsistent."
    if replay then safeSubAu marker.grossAu earning.grossAu else return marker.grossAu

def priorPageGross (epochs : Epochs) (value : TargetedEpochValue) (bounded replay : Bool)
    (earning : TargetedEarning) : Except String Nat :=
  if bounded then priorProviderGross epochs value replay earning else .ok 0

def PayoutBinding.emptyLiability (binding : PayoutBinding) : PayoutLiability :=
  ⟨⟨0, 0, 0, some [], 0⟩, binding.target, binding.currency, binding.chainId⟩

def Ledger.liabilityUpdate (s : Ledger) (value : TargetedEpochValue) (key : Digest)
    (bounded replay : Bool) (earning : TargetedEarning) : Except String LiabilityUpdate := do
  let param := s.registry.activeParamAt value.time
  let binding ← s.registry.providerPayoutBindingForEpoch earning.provider earning.rail
    earning.payoutRevision value.epoch false
  let inactive := "Targeted epoch provider is not active."
  let provider ← requireSome (s.registry.providers.get earning.provider) inactive
  rejectIf (provider.status ≠ .active) inactive
  let priorGrossAu ← priorPageGross s.epochs value bounded replay earning
  let delta ← providerSettlementPageDelta earning.grossAu priorGrossAu earning.rail (param .feeBps)
  let existing := (s.accounts.liability.get
    (earning.provider, earning.rail, earning.payoutRevision)).getD binding.emptyLiability
  rejectIf (existing.target ≠ binding.target ∨ existing.currency ≠ binding.currency ∨
    existing.chainId ≠ binding.chainId) "Provider payout liability binding mismatch."
  guardianValidatePayoutLiabilityRecord existing earning.rail
  let aggregate ← s.earningRecord earning.provider earning.rail
  let earned ← s.creditEarned value.epoch param earning.provider provider aggregate.earned
    existing.earned delta.providerAu
  let liability := { existing with earned := earned }
  guardianValidatePayoutLiabilityRecord liability earning.rail
  return {
    earning := earning
    delta := delta
    liability := liability
    snapshot := ⟨earning.payoutRevision, binding.target, binding.currency, binding.chainId,
      delta.providerAu, key⟩ }

def liabilityEntryLe (a b : PublicKey × Digest) : Prop := [a.1, a.2] ≤ [b.1, b.2]

instance : DecidableRel liabilityEntryLe := fun _ _ => inferInstanceAs (Decidable (_ ≤ _))

def providerPayoutLiabilityIndex (accounts : Accounts) (rail : Rail) : Except String LiabilityIndex := do
  match accounts.liabilityIndex.get rail with
  | none => return ⟨[], 0, none⟩
  | some index =>
    rejectIf (¬ isSafeInteger index.updatedEpoch) "Invalid provider payout liability index."
    rejectIf (¬ index.entries.Nodup ∨ index.entries.insertionSort liabilityEntryLe ≠ index.entries)
      "Provider payout liability index must be canonical and unique."
    return index

def LiabilityIndex.add (index : LiabilityIndex) (entry : PublicKey × Digest) (epoch : Nat)
    (key : Digest) : LiabilityIndex where
  entries :=
    if entry ∈ index.entries then index.entries
    else (index.entries ++ [entry]).insertionSort liabilityEntryLe
  updatedEpoch := max index.updatedEpoch epoch
  updatedAt := some key

def nextProviderPayoutLiabilityIndex (accounts : Accounts) (epoch : Nat) (key : Digest)
    (updates : List LiabilityUpdate) (rail : Rail) : Except String (Option (Rail × LiabilityIndex)) := do
  let entries := (updates.filter fun update => update.earning.rail = rail).map fun update =>
    (update.earning.provider, update.earning.payoutRevision)
  if entries = [] then
    return none
  let index ← providerPayoutLiabilityIndex accounts rail
  return some (rail, entries.foldl (fun index entry => index.add entry epoch key) index)

def nextProviderPayoutLiabilityIndexes (accounts : Accounts) (epoch : Nat) (key : Digest)
    (updates : List LiabilityUpdate) : Except String (List (Rail × LiabilityIndex)) := do
  let indexes ← providerAcceptedRailOrder.mapM
    (nextProviderPayoutLiabilityIndex accounts epoch key updates)
  return indexes.reduceOption

structure FeaturePlan where
  epoch : Nat
  key : Digest
  holds : Holds
  allocations : List ((Nat × Digest) × PayoutAllocation)
  consumptions : List (BillingAttempt × ReceiptConsumption)
  liabilities : List LiabilityUpdate
  snapshots : List ((Nat × Nat × PublicKey × Rail) × PayoutSnapshot)
  indexes : List (Rail × LiabilityIndex)
  options : ApplyOptions

def anyStored {K V : Type} (table : Table K V) (entries : List (K × V)) : Bool :=
  entries.any fun entry => (table.get entry.1).isSome

def conflicting {K V : Type} [DecidableEq V] (table : Table K V) (entries : List (K × V)) : Prop :=
  ∃ entry ∈ entries, ∃ stored ∈ table.get entry.1, stored ≠ entry.2

def missing {K V : Type} [DecidableEq V] (table : Table K V) (entries : List (K × V)) : Prop :=
  ∃ entry ∈ entries, table.get entry.1 ≠ some entry.2

instance {K V : Type} [DecidableEq V] (table : Table K V) (entries : List (K × V)) :
    Decidable (conflicting table entries) :=
  inferInstanceAs (Decidable (∃ entry ∈ entries, ∃ stored ∈ table.get entry.1, stored ≠ entry.2))

instance {K V : Type} [DecidableEq V] (table : Table K V) (entries : List (K × V)) :
    Decidable (missing table entries) :=
  inferInstanceAs (Decidable (∃ entry ∈ entries, table.get entry.1 ≠ some entry.2))

namespace Ledger

def prepareFeature (s : Ledger) (key : Digest) (value : TargetedEpochValue)
    (transition : Option CommitTransition) : Except String FeaturePlan := do
  let replay := isEpochApplyPagePositionReplay s.applyState value.epoch value.page value.lastPage
  let (holds, markets) ← validateTargetedEpochReservationBindings s value key
  let allocations := value.allocations.map fun a =>
    ((value.epoch, a.sessionId), (⟨value.page, a, key⟩ : PayoutAllocation))
  let consumptions := value.allocations.map fun a =>
    (a.attempt, (⟨value.epoch, a, key⟩ : ReceiptConsumption))
  rejectIf (conflicting s.accounts.payoutAllocation allocations)
    "Targeted epoch session allocation already exists."
  rejectIf (conflicting s.receipts.consumed consumptions)
    "Canonical receipt billing attempt is already consumed."
  let commit := (transition.map CommitTransition.record).or (s.epochs.commit.get value.epoch)
  let bounded := (commit.map EpochCommit.targetedReceiptPages).getD false
  let liabilities ← value.earnings.mapM (s.liabilityUpdate value key bounded replay)
  let indexes ← nextProviderPayoutLiabilityIndexes s.accounts value.epoch key liabilities
  let snapshots := liabilities.map fun update =>
    ((value.epoch, value.page, update.earning.provider, update.earning.rail), update.snapshot)
  rejectIf (conflicting s.accounts.payoutSnapshot snapshots)
    "Targeted epoch payout snapshot already exists."
  let preexisting := anyStored s.accounts.payoutAllocation allocations ||
    anyStored s.receipts.consumed consumptions || anyStored s.accounts.payoutSnapshot snapshots ||
    indexes.any fun entry => s.accounts.liabilityIndex.get entry.1 = some entry.2
  rejectIf (preexisting ∧ ¬ replay)
    "Targeted epoch feature artifacts require an idempotent page replay."
  return {
    epoch := value.epoch
    key := key
    holds := holds
    allocations := allocations
    consumptions := consumptions
    liabilities := liabilities
    snapshots := snapshots
    indexes := indexes
    options :=
      { commitTransition := transition
        deltas := liabilities.map fun update =>
          ((update.earning.rail, update.earning.provider), update.earning.grossAu, update.delta)
        markets := markets } }

def validateReplay (s : Ledger) (plan : FeaturePlan) : Except String Unit := do
  rejectIf (missing s.accounts.payoutAllocation plan.allocations)
    "Targeted epoch session allocation is missing."
  rejectIf (missing s.accounts.payoutSnapshot plan.snapshots)
    "Targeted epoch liability snapshot is missing."
  rejectIf (missing s.accounts.liabilityIndex plan.indexes)
    "Targeted epoch liability index is missing."
  rejectIf (missing s.receipts.consumed plan.consumptions) "Canonical receipt consumption is missing."

end Ledger

def Registry.promotePayoutPointer (reg : Registry) (epoch : Nat) (update : LiabilityUpdate) : Registry :=
  let key := (update.earning.provider, update.earning.rail)
  match reg.payoutPointers.get key with
  | none => reg
  | some pointer =>
    if pointer.pendingRevision = some update.earning.payoutRevision ∧ pointer.pendingActivationEpoch ≤ epoch then
      { reg with
        payoutPointers := reg.payoutPointers.put key ⟨update.earning.payoutRevision, none, 0⟩ }
    else reg

def Accounts.writeFeature (accounts : Accounts) (plan : FeaturePlan) : Accounts :=
  { accounts with
    payoutAllocation := accounts.payoutAllocation.putAll plan.allocations
    liability := accounts.liability.putAll
      (plan.liabilities.map fun update => (update.key, update.liability))
    payoutSnapshot := accounts.payoutSnapshot.putAll plan.snapshots
    liabilityIndex := accounts.liabilityIndex.putAll plan.indexes }

namespace Ledger

def writeFeature (s : Ledger) (plan : FeaturePlan) : Ledger :=
  { s with
    holds := plan.holds
    receipts := { s.receipts with consumed := s.receipts.consumed.putAll plan.consumptions }
    accounts := s.accounts.writeFeature plan
    registry := plan.liabilities.foldl
      (fun reg update => reg.promotePayoutPointer plan.epoch update) s.registry }

def applyNormalizedEpoch (crypto : Crypto) (s : Ledger) (sender : PublicKey) (key : Digest)
    (value : TargetedEpochValue) (transition : Option CommitTransition) : Outcome ApplyResult :=
  match s.prepareFeature key value transition with
  | .error message => (s, .error message)
  | .ok plan =>
    match s.targetedEpochApply crypto sender key value plan.options with
    | (s', .error message) => (s', .error message)
    | (s', .ok result) =>
      if result.idempotent then
        match s'.validateReplay plan with
        | .error message => (s', .error message)
        | .ok () => (s', .ok result)
      else (s'.writeFeature plan, .ok result)

def applyTargetedEpochFeature (crypto : Crypto) (s : Ledger) (sender : PublicKey) (key : Digest)
    (value : TargetedEpochValue) : Outcome ApplyResult :=
  match normalizeTargetedEpochFeatureValue value with
  | .error message => (s, .error message)
  | .ok normalized =>
    if key ≠ crypto.targetedEpochFeatureKey value then
      (s, .error "Invalid targeted epoch feature key.")
    else s.applyNormalizedEpoch crypto sender key normalized none

end Ledger

def CommitPageZeroValue.targetedValue (value : CommitPageZeroValue) : TargetedEpochValue where
  epoch := value.epoch
  time := value.time
  epochCommitHash := value.epochCommitHash
  receiptIndex := value.receiptIndex
  debits := value.debits
  earnings := value.earnings
  allocations := value.allocations
  page := 0
  lastPage := value.lastPage
  marketUsage := value.marketUsage
  earningFinals := value.earningFinals

def normalizeCommitTargetedEpochPageZeroFeatureValue (crypto : Crypto) (value : CommitPageZeroValue) :
    Except String TargetedEpochValue := do
  let totals ← normalizeEpochTotals value.totals
  rejectIf (totals.priceCount ≠ 0)
    "Receipt settlement page zero cannot carry market price derivations."
  rejectIf (value.roots.price ≠ crypto.priceDerivationRoot [])
    "Receipt settlement price root must be the canonical empty root."
  normalizeTargetedEpochFeatureValue value.targetedValue

namespace Ledger

def validateSupersession (s : Ledger) (value : CommitPageZeroValue) (existing : EpochCommit) :
    Except String Unit := do
  rejectIf (existing.status ≠ .provisional ∨ ¬ isSafeInteger existing.replacementCount)
    "Only a canonical provisional epoch commit can be superseded."
  rejectIf (value.supersedesCommitHash ≠ some existing.commitHash)
    "Commit-plus-page-zero must identify the current provisional commit."
  rejectIf (s.applyState.updatedEpoch + 1 ≠ value.epoch ∨ s.applyState.pendingEpoch.isSome)
    "Epoch commit cannot be superseded after targeted apply has started."
  rejectIf (∃ kind ∈ [EvidenceKind.use, .earn, .fee, .price], (s.epochs.evidence.get (kind, value.epoch)).isSome)
    "Epoch commit cannot be superseded after settlement evidence exists."
  rejectIf (¬ isSafeInteger existing.totals.useCount ∨ value.totals.useCount ≤ existing.totals.useCount)
    "Replacement epoch commit must strictly extend the canonical receipt count."
  rejectIf (¬ isSafeInteger existing.time ∨ value.time < existing.time)
    "Replacement epoch commit timestamp cannot precede the superseded commit."

def prepareTargetedEpochCommitTransition (crypto : Crypto) (s : Ledger) (sender : PublicKey)
    (value : CommitPageZeroValue) : Except String CommitTransition := do
  let stored ← requireSome (s.receipts.epochIndex.get value.epoch)
    "canonical receipt epoch metadata value must be an object."
  let current ← normalizeReceiptEpochIndexMetadata stored false
  rejectIf (current ≠ value.receiptIndex)
    "Canonical receipt epoch index changed before commit-plus-page-zero."
  rejectIf (value.totals.useCount ≠ current.count)
    "Epoch commit receipt count must match the canonical receipt index."
  let param := s.registry.activeParamAt value.time
  let commitHash := crypto.epochCommitHash
    ⟨value.epoch, param .epochSeconds, value.roots, value.totals⟩
  rejectIf (commitHash ≠ value.epochCommitHash)
    "Commit-plus-page-zero epoch commit hash is invalid."
  let record (replacementCount : Nat) : EpochCommit :=
    { epochSeconds := param .epochSeconds
      targetedReceiptPages := true
      roots := value.roots
      totals := value.totals
      status := .provisional
      provisionalUntilEpoch := value.epoch + param .challengeEpochs
      commitHash := commitHash
      submittedBy := sender
      time := value.time
      replacementCount := replacementCount
      expectedActivityEvidence := none }
  match s.epochs.commit.get value.epoch with
  | none =>
    rejectIf (value.supersedesCommitHash.isSome) "Epoch commit has nothing to supersede."
    return ⟨record 0, none, true⟩
  | some existing =>
    if existing.commitHash = commitHash then
      rejectIf (existing.status ≠ .provisional ∨ ¬ existing.targetedReceiptPages ∨
        existing.time ≠ value.time ∨ existing.roots ≠ value.roots ∨ existing.totals ≠ value.totals)
        "Existing epoch commit does not match commit-plus-page-zero."
      return ⟨existing, none, false⟩
    else
      s.validateSupersession value existing
      return ⟨record (existing.replacementCount + 1), some { existing with status := .superseded }, true⟩

def applyCommitTargetedEpochPageZeroFeature (crypto : Crypto) (s : Ledger) (sender : PublicKey)
    (key : Digest) (value : CommitPageZeroValue) : Outcome ApplyResult :=
  match normalizeCommitTargetedEpochPageZeroFeatureValue crypto value with
  | .error message => (s, .error message)
  | .ok normalized =>
    if key ≠ crypto.commitPageZeroFeatureKey value then
      (s, .error "Invalid commit-plus-page-zero feature key.")
    else
      match s.prepareTargetedEpochCommitTransition crypto sender value with
      | .error message => (s, .error message)
      | .ok transition => s.applyNormalizedEpoch crypto sender key normalized (some transition)

end Ledger

end Mayhem
