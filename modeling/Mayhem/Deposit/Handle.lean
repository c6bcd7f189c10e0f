import Mayhem.Payout.Tap

namespace Mayhem

structure TnkDepositValue where
  memoHash : String
  msbTransfer : MsbTransfer
  epoch : Nat
  time : Nat

structure TapDepositValue where
  who : String
  tapWei : Nat
  identity : TapDepositIdentity
  blockNumber : Nat
  finalizedBlockNumber : Nat
  confirmationDepth : Nat
  confirmationPolicy : String
  eventSignature : String
  watcherId : String
  epoch : Nat
  time : Nat

structure TapDepositReversalValue where
  identity : TapDepositIdentity
  blockNumber : Nat
  reconciliationFromBlock : Nat
  reconciliationToBlock : Nat
  finalizedBlockNumber : Nat
  confirmationPolicy : String
  watcherId : String
  reason : String
  epoch : Nat
  time : Nat

structure FiatEvidence where
  currency : Option String
  amountMinor : Option Nat

structure FiatDepositValue where
  rail : String
  who : PublicKey
  au : Nat
  extRefHash : String
  evidence : FiatEvidence
  epoch : Nat
  time : Nat

structure FiatChargebackValue where
  rail : String
  who : PublicKey
  au : Nat
  extRefHash : String
  disputeRefHash : String
  evidence : FiatEvidence
  epoch : Nat
  time : Nat

inductive DepositLeaf where
  | tnk (memoHash : String) (intent : TnkDepositIntent) (au : Nat) (transfer : MsbTransfer) (rateTs : Nat)
  | tap (value : TapDepositValue) (user : PublicKey) (au : Nat) (rate : RateValue)
  | tapReversal (value : TapDepositReversalValue) (user : PublicKey) (au clawbackAu absorbedAu : Nat)
  | fiat (value : FiatDepositValue)
  | fiatChargeback (value : FiatChargebackValue) (clawbackAu absorbedAu : Nat)

structure DepositHost where
  depositLeafHash : DepositLeaf → Digest
  depositRootHash : Digest → Digest → Nat → Digest
  rateFeatureKey : RateValue → Digest
  trimToLowerCase : String → String

def attoUnit : Nat := 1000000000000000000

def fiatDepositRails : List String := ["stripe"]

def legacyTnkDepositRateDriftBps : Nat := 100

def tapDepositEventSignature : String :=
  "0xe1fffcc4923d04b559f4d29a8bfc6cda04eb5b0d3c460751c2402c5c5cc9109c"

def tapDepositWatcherId : String := "tap-deposit-watcher-v1"

def normalizeFiatCurrency (host : DepositHost) (value : String) : Except String String := do
  let currency := host.trimToLowerCase value
  rejectIf (currency.length ≠ 3 ∨ ¬ currency.toList.all Char.isLower) "Unsupported fiat currency."
  return currency

def fiatEvidenceFields (host : DepositHost) (evidence : FiatEvidence) : Except String FiatEvidence := do
  let required := "Fiat evidence requires fiat_currency and fiat_amount_minor."
  let currency ← requireSome evidence.currency required
  let amount ← requireSome evidence.amountMinor required
  let currency ← normalizeFiatCurrency host currency
  rejectIf (¬ isSafeInteger amount ∨ amount = 0) "Invalid fiat amount."
  return ⟨currency, amount⟩

def validateTapDepositIdentity (identity : TapDepositIdentity) : Except String Unit := do
  rejectIf (¬ isSafeInteger identity.scope.chainId ∨ identity.scope.chainId < 1) "Invalid TAP chain id."
  rejectIf (¬ isSafeInteger identity.logIndex) "Invalid TAP deposit log index."

def validateTapDepositValue (value : TapDepositValue) : Except String Unit := do
  rejectIf (¬ isSafeInteger value.identity.logIndex) "Invalid TAP deposit log index."
  rejectIf (¬ isSafeInteger value.blockNumber) "Invalid TAP deposit block number."
  rejectIf (¬ isSafeInteger value.identity.scope.chainId ∨ value.identity.scope.chainId < 1)
    "Invalid TAP chain id."
  rejectIf (¬ isSafeInteger value.finalizedBlockNumber ∨ value.finalizedBlockNumber < value.blockNumber)
    "Invalid TAP finalized block number."
  rejectIf (¬ isSafeInteger value.confirmationDepth) "Invalid TAP confirmation depth."
  rejectIf (value.confirmationDepth ≠ value.finalizedBlockNumber - value.blockNumber)
    "TAP confirmation depth does not match finalized block."
  rejectIf (¬ isSafeKeyPart value.confirmationPolicy) "Invalid TAP confirmation policy."
  rejectIf (value.confirmationDepth < minTapConfirmationDepth)
    ("TAP confirmation depth below minimum " ++ toString minTapConfirmationDepth ++ ".")
  rejectIf (value.identity.scope.chainId = 1 ∧ value.confirmationPolicy ≠ "finalized-tag")
    "Ethereum mainnet TAP deposits require finalized-tag policy."
  rejectIf (value.confirmationPolicy ≠ "finalized-tag" ∧
    value.confirmationPolicy ≠ "depth-" ++ toString value.confirmationDepth)
    "TAP confirmation policy must match the confirmed depth or use finalized-tag."
  rejectIf (value.eventSignature ≠ tapDepositEventSignature) "TAP deposit event signature mismatch."
  rejectIf (value.watcherId ≠ tapDepositWatcherId) "Invalid TAP deposit watcher id."
  rejectIf (¬ isSafeInteger value.epoch ∨ value.epoch < 1) "Invalid TAP deposit epoch."
  rejectIf (¬ isSafeInteger value.time) "Invalid TAP deposit timestamp."
  rejectIf (value.tapWei = 0) "tap_wei must be positive."

def validateTapDepositReversalValue (value : TapDepositReversalValue) : Except String Unit := do
  validateTapDepositIdentity value.identity
  rejectIf (¬ isSafeInteger value.blockNumber) "Invalid TAP reversal block number."
  rejectIf (¬ isSafeInteger value.reconciliationFromBlock ∨
    value.reconciliationFromBlock > value.blockNumber) "Invalid TAP reversal reconciliation start."
  rejectIf (¬ isSafeInteger value.reconciliationToBlock ∨ value.reconciliationToBlock < value.blockNumber)
    "Invalid TAP reversal reconciliation end."
  rejectIf (¬ isSafeInteger value.finalizedBlockNumber ∨
    value.finalizedBlockNumber < value.reconciliationToBlock + minTapConfirmationDepth)
    "TAP reversal is not sufficiently behind the finalized reference."
  rejectIf (value.confirmationPolicy ≠ "finalized-tag") "TAP reversal requires finalized-tag policy."
  rejectIf (value.watcherId ≠ tapDepositWatcherId) "TAP watcher id mismatch."
  rejectIf (value.reason ≠ "canonical_event_missing") "Invalid TAP reversal reason."
  rejectIf (¬ isSafeInteger value.epoch ∨ value.epoch < 1) "Invalid TAP reversal epoch."
  rejectIf (¬ isSafeInteger value.time) "Invalid TAP reversal timestamp."

def Registry.requireCanonicalTapPool (reg : Registry) (scope : TapScope) : Except String Unit := do
  let tap ← reg.canonicalTapPaymentConfig
  rejectIf (tap = none) "Canonical TAP payment config required."
  rejectIf (tap ≠ some scope) "TAP operation does not match the canonical payment pool."

def requireFreshRateOf (reg : Registry) (latest : Option RateRecord) (time : Nat)
    (required adminRequired adminPosted future stale : String) : Except String RateRecord := do
  let rate ← requireSome latest required
  let admin ← requireSome reg.admin adminRequired
  rejectIf (rate.postedBy ≠ admin ∨ rate.postedByRole ≠ .admin) adminPosted
  rejectIf (rate.value.ts > time) future
  rejectIf (time - rate.value.ts > reg.activeParamAt time .rateStalenessSeconds) stale
  return rate

def validateTnkRateRecord (rate : RateRecord) (tnkUsdAu : Option Nat) (source : Option String)
    (ts : Option Nat) (updatedAt : Option Digest) (admin : Option PublicKey) (label : String) :
    Except String Unit := do
  rejectIf (rate.value.usdAu = 0 ∨ rate.value.denom ≠ .tnkUsdAu ∨ rate.value.source.length < 1 ∨
    rate.value.source.length > 64 ∨ ¬ isSafeInteger rate.value.ts ∨ rate.postedByRole ≠ .admin)
    (label ++ " is invalid.")
  rejectIf (∃ key ∈ admin, rate.postedBy ≠ key) (label ++ " is not admin-posted.")
  rejectIf (∃ usdAu ∈ tnkUsdAu, rate.value.usdAu ≠ usdAu) (label ++ " amount mismatch.")
  rejectIf (∃ name ∈ source, rate.value.source ≠ name) (label ++ " source mismatch.")
  rejectIf (∃ time ∈ ts, rate.value.ts ≠ time) (label ++ " timestamp mismatch.")
  rejectIf (∃ key ∈ updatedAt, rate.updatedAt ≠ key) (label ++ " record key mismatch.")

namespace Ledger

def requireFreshRate (s : Ledger) (time : Nat) : Except String RateRecord :=
  requireFreshRateOf s.registry s.deposits.tnkRateLatest time "Fresh rate oracle required."
    "Fresh rate oracle requires a current admin key." "Fresh rate oracle must be admin-posted."
    "Rate oracle timestamp is in the future." "Rate oracle is stale."

def requireFreshTapRate (s : Ledger) (time : Nat) : Except String RateRecord :=
  requireFreshRateOf s.registry s.deposits.tapRateLatest time "Fresh TAP rate oracle required."
    "Fresh TAP rate oracle requires a current admin key." "Fresh TAP rate oracle must be admin-posted."
    "TAP rate oracle timestamp is in the future." "TAP rate oracle is stale."

def guardianRequireFreshRate (s : Ledger) (time : Nat) : Except String RateRecord :=
  (s.requireFreshRate time).mapError ("Guardian rate freshness invariant failed: " ++ ·)

def guardianRequireFreshTapRate (s : Ledger) (time : Nat) : Except String RateRecord :=
  (s.requireFreshTapRate time).mapError ("Guardian TAP rate freshness invariant failed: " ++ ·)

def legacyTnkDepositRateCloseToCurrent (locked current : Nat) : Bool :=
  0 < locked ∧ 0 < current ∧
    (max locked current - min locked current) * 10000 ≤ max locked current * legacyTnkDepositRateDriftBps

def guardianRequireHistoricalTnkDepositRate (host : DepositHost) (s : Ledger) (pending : TnkDepositIntent)
    (lock : Nat × Digest) (time : Nat) : Except String Nat := do
  let label := "Guardian TNK deposit rate invariant failed: "
  let expected : RateValue := ⟨.tnkUsdAu, pending.rateTnkUsdAu, pending.rateSource, lock.1⟩
  let key := host.rateFeatureKey expected
  rejectIf (key ≠ lock.2) (label ++ "rate record key mismatch.")
  let required := label ++ "exact admin-posted oracle history required."
  let rate ← requireSome (s.payouts.rate.get key) required
  let admin ← requireSome s.registry.admin required
  (validateTnkRateRecord rate (some pending.rateTnkUsdAu) (some pending.rateSource) (some lock.1)
    (some lock.2) (some admin) "Guardian TNK deposit rate").mapError (label ++ ·)
  rejectIf (rate.value.ts > time) (label ++ "oracle timestamp is in the future.")
  return rate.value.ts

def guardianRequireTnkDepositRateLock (host : DepositHost) (s : Ledger) (pending : TnkDepositIntent)
    (time : Nat) : Except String Nat := do
  rejectIf (pending.rateTnkUsdAu = 0 ∨ ¬ isSafeKeyPart pending.rateSource)
    "Guardian TNK deposit rate invariant failed: pending rate is invalid."
  match pending.rateLock with
  | some lock => do
    rejectIf (¬ isSafeInteger lock.1)
      "Guardian TNK deposit rate invariant failed: pending rate lock is invalid."
    s.guardianRequireHistoricalTnkDepositRate host pending lock time
  | none => do
    let current ← s.guardianRequireFreshRate time
    rejectIf (current.value.source ≠ pending.rateSource ∨
      legacyTnkDepositRateCloseToCurrent pending.rateTnkUsdAu current.value.usdAu = false)
      "TNK deposit rate does not match pending intent."
    return current.value.ts

def nextDepositRoot (host : DepositHost) (s : Ledger) (epoch : Nat) (leaf : Digest) (au : Nat) : DepositRoot :=
  match s.epochs.depositRoot.get epoch with
  | none => ⟨leaf, 1, au, none⟩
  | some current =>
    -- the record is built anew, without the totals of reversals that the current one may have
    ⟨host.depositRootHash current.merkleRoot leaf (current.count + 1), current.count + 1,
      current.auTotal + au, none⟩

def nextDepositReversalRoot (host : DepositHost) (s : Ledger) (epoch : Nat) (leaf : Digest)
    (disputedAu clawbackAu absorbedAu : Nat) : DepositRoot :=
  match s.epochs.depositRoot.get epoch with
  | none => ⟨leaf, 1, 0, some (DepositReversals.add none disputedAu clawbackAu absorbedAu)⟩
  | some current =>
    ⟨host.depositRootHash current.merkleRoot leaf (current.count + 1), current.count + 1,
      current.auTotal, some (DepositReversals.add current.reversals disputedAu clawbackAu absorbedAu)⟩

def putDepositRoot (s : Ledger) (epoch : Nat) (root : DepositRoot) : Ledger :=
  { s with epochs := { s.epochs with depositRoot := s.epochs.depositRoot.put epoch root } }

structure TnkCreditPlan where
  memoHash : String
  balance : BalanceRecord
  root : DepositRoot
  credit : TnkDepositCredit

def tnkDepositAu (host : DepositHost) (s : Ledger) (value : TnkDepositValue) (pending : TnkDepositIntent) :
    Except String (Nat × Nat) := do
  let payment ← s.canonicalTnkPaymentConfig
  let transfer := value.msbTransfer
  rejectIf (pending.msbNetwork ≠ payment.network ∨ pending.treasuryAddress ≠ payment.treasuryAddress)
    "Pending TNK deposit no longer matches canonical payment config."
  rejectIf (transfer.network ≠ payment.network ∨ transfer.source ≠ pending.msbFrom ∨
    transfer.target ≠ payment.treasuryAddress)
    "TNK deposit MSB transfer identity does not match pending intent."
  rejectIf ((s.payouts.railSeen.get (msbTransferSeenKey transfer)).isSome)
    "MSB transfer already consumed by Mayhem."
  rejectIf (transfer.amountE18 = 0 ∨ pending.tnkE18 = 0) "tnk_e18 must be positive."
  rejectIf (pending.tnkE18 ≠ transfer.amountE18) "TNK deposit amount does not match pending intent."
  let rateTs ← s.guardianRequireTnkDepositRateLock host pending value.time
  let au := transfer.amountE18 * pending.rateTnkUsdAu / attoUnit
  rejectIf (au = 0) "TNK deposit converts to zero au."
  rejectIf (pending.quotedAu ≠ au) "TNK deposit credit does not match pending intent."
  return (au, rateTs)

def prepareTnkDeposit (host : DepositHost) (s : Ledger) (sender : PublicKey) (value : TnkDepositValue) :
    Except String (TnkDepositCredit ⊕ TnkCreditPlan) := do
  s.registry.requireAdmin sender
  rejectIf (¬ isSafeKeyPart value.memoHash) "Invalid deposit memo hash."
  rejectIf (¬ isSafeInteger value.epoch ∨ value.epoch < 1) "Invalid TNK deposit epoch."
  rejectIf (¬ isSafeInteger value.time) "Invalid TNK deposit timestamp."
  normalizeMsbTransferEvidence value.msbTransfer "TNK deposit MSB transfer evidence"
  match s.deposits.tnkCredited.get value.memoHash with
  | some credit => do
    rejectIf (credit.msbTransfer ≠ value.msbTransfer)
      "TNK deposit memo already credited by a different MSB transfer."
    return .inl credit
  | none => do
    let pending ← requireSome (s.deposits.tnkPending.get value.memoHash)
      "Pending TNK deposit intent not found."
    let (au, rateTs) ← s.tnkDepositAu host value pending
    let balance ← s.balanceRecord pending.user .tnk
    let leaf := host.depositLeafHash (.tnk value.memoHash pending au value.msbTransfer rateTs)
    let root := s.nextDepositRoot host value.epoch leaf au
    return .inr ⟨value.memoHash, { balance with au := balance.au + au }, root,
      ⟨pending.user, au, value.epoch, rateTs, root.merkleRoot, value.msbTransfer⟩⟩

def writeTnkDeposit (s : Ledger) (plan : TnkCreditPlan) : Ledger :=
  let credited := (s.putBalance plan.credit.user .tnk plan.balance).putDepositRoot plan.credit.epoch plan.root
  { credited with
    deposits := { s.deposits with
      tnkPending := s.deposits.tnkPending.del plan.memoHash
      tnkCredited := s.deposits.tnkCredited.put plan.memoHash plan.credit }
    payouts := { s.payouts with
      railSeen := s.payouts.railSeen.put (msbTransferSeenKey plan.credit.msbTransfer) () } }

def tnkDeposit (host : DepositHost) (s : Ledger) (sender : PublicKey) (value : TnkDepositValue) :
    Outcome TnkDepositCredit :=
  match s.prepareTnkDeposit host sender value with
  | .error message => (s, .error message)
  | .ok (.inl credit) => (s, .ok credit)
  | .ok (.inr plan) => (s.writeTnkDeposit plan, .ok plan.credit)

structure TapCreditPlan where
  identity : TapDepositIdentity
  balance : BalanceRecord
  root : DepositRoot
  seen : TapDepositSeen

def tapAccountBinding (s : Ledger) (value : TapDepositValue) : Except String TapAccountBinding := do
  let required := "TAP account binding required before deposit credit."
  let binding ← requireSome (s.deposits.tapAccount.get (value.identity.scope, value.who)) required
  rejectIf (¬ binding.active) required
  rejectIf (binding.ethereumAddress ≠ value.who ∨ binding.scope ≠ value.identity.scope)
    "TAP account binding does not match deposit evidence."
  return binding

def prepareTapDeposit (host : DepositHost) (s : Ledger) (sender : PublicKey) (value : TapDepositValue) :
    Except String (TapDepositSeen ⊕ TapCreditPlan) := do
  s.registry.requireAdmin sender
  validateTapDepositValue value
  s.registry.requireCanonicalTapPool value.identity.scope
  match s.deposits.tap.get value.identity with
  | some seen => return .inl seen
  | none => do
    let rate ← s.guardianRequireFreshTapRate value.time
    rejectIf (rate.value.usdAu = 0) "Invalid TAP/USD policy rate."
    let au := value.tapWei * rate.value.usdAu / attoUnit
    rejectIf (au = 0) "TAP deposit converts to zero au."
    let binding ← s.tapAccountBinding value
    let balance ← s.balanceRecord binding.user .tap
    guardianValidateBalanceRecord balance .tap
    let leaf := host.depositLeafHash (.tap value binding.user au rate.value)
    let next := { balance with
      au := balance.au + au
      updatedEpoch := max balance.updatedEpoch value.epoch }
    return .inr ⟨value.identity, next, s.nextDepositRoot host value.epoch leaf au,
      ⟨binding.user, value.who, au, value.epoch, value.blockNumber, false⟩⟩

def writeTapDeposit (s : Ledger) (plan : TapCreditPlan) : Ledger :=
  let credited := (s.putBalance plan.seen.who .tap plan.balance).putDepositRoot plan.seen.epoch plan.root
  { credited with
    deposits := { s.deposits with tap := s.deposits.tap.put plan.identity plan.seen } }

def tapDeposit (host : DepositHost) (s : Ledger) (sender : PublicKey) (value : TapDepositValue) :
    Outcome TapDepositSeen :=
  match s.prepareTapDeposit host sender value with
  | .error message => (s, .error message)
  | .ok (.inl seen) => (s, .ok seen)
  | .ok (.inr plan) => (s.writeTapDeposit plan, .ok plan.seen)

def clawback (balance : BalanceRecord) (au epoch : Nat) : BalanceRecord × Nat × Nat :=
  let clawbackAu := min balance.au au
  ({ balance with au := balance.au - clawbackAu, updatedEpoch := max balance.updatedEpoch epoch },
    clawbackAu, au - clawbackAu)

def nextFreezeRecord (s : Ledger) (user : PublicKey) (reason : FreezeReason) (rail : Rail)
    (au clawbackAu absorbedAu epoch time : Nat) : FreezeRecord :=
  match s.deposits.freeze.get user with
  | some frozen =>
    ⟨reason, rail, frozen.firstFrozenAtSeconds, time, max frozen.updatedEpoch epoch, frozen.disputeCount + 1,
      frozen.disputedAuCum + au, frozen.clawbackAuCum + clawbackAu, frozen.networkAbsorbedAuCum + absorbedAu⟩
  | none => ⟨reason, rail, time, time, epoch, 1, au, clawbackAu, absorbedAu⟩

def freezeAccount (s : Ledger) (user : PublicKey) (record : FreezeRecord) : Ledger :=
  { s with
    registry := { s.registry with frozen := s.registry.frozen.put user true }
    deposits := { s.deposits with freeze := s.deposits.freeze.put user record } }

structure TapReversalPlan where
  identity : TapDepositIdentity
  balance : BalanceRecord
  root : DepositRoot
  credited : TapDepositSeen
  seen : TapReversalSeen
  freeze : Option FreezeRecord

def prepareTapDepositReversal (host : DepositHost) (s : Ledger) (sender : PublicKey)
    (value : TapDepositReversalValue) : Except String (TapReversalSeen ⊕ TapReversalPlan) := do
  s.registry.requireAdmin sender
  validateTapDepositReversalValue value
  s.registry.requireCanonicalTapPool value.identity.scope
  let credited ← requireSome (s.deposits.tap.get value.identity) "TAP deposit event not found."
  rejectIf (credited.blockNumber ≠ value.blockNumber)
    "TAP reversal block number does not match credited event."
  match s.deposits.tapReversal.get value.identity with
  | some seen => return .inl seen
  | none => do
    rejectIf credited.reversed "TAP deposit is already reversed."
    rejectIf (credited.au = 0) "credited TAP deposit amount must be positive."
    let balance ← s.balanceRecord credited.who .tap
    guardianValidateBalanceRecord balance .tap
    let (next, clawbackAu, absorbedAu) := clawback balance credited.au value.epoch
    let leaf := host.depositLeafHash (.tapReversal value credited.who credited.au clawbackAu absorbedAu)
    let root := s.nextDepositReversalRoot host value.epoch leaf credited.au clawbackAu absorbedAu
    let freeze :=
      if absorbedAu ≠ 0 then
        some (s.nextFreezeRecord credited.who .tapDepositReorgShortfall .tap credited.au clawbackAu absorbedAu
          value.epoch value.time)
      else none
    return .inr ⟨value.identity, next, root, credited,
      ⟨credited.who, credited.au, clawbackAu, absorbedAu, absorbedAu ≠ 0, value.epoch⟩, freeze⟩

def writeTapDepositReversal (s : Ledger) (plan : TapReversalPlan) : Ledger :=
  let debited := (s.putBalance plan.seen.who .tap plan.balance).putDepositRoot plan.seen.epoch plan.root
  let reversed := { debited with
    deposits := { s.deposits with
      tap := s.deposits.tap.put plan.identity { plan.credited with reversed := true }
      tapReversal := s.deposits.tapReversal.put plan.identity plan.seen } }
  match plan.freeze with
  | some record => reversed.freezeAccount plan.seen.who record
  | none => reversed

def tapDepositReversal (host : DepositHost) (s : Ledger) (sender : PublicKey)
    (value : TapDepositReversalValue) : Outcome TapReversalSeen :=
  match s.prepareTapDepositReversal host sender value with
  | .error message => (s, .error message)
  | .ok (.inl seen) => (s, .ok seen)
  | .ok (.inr plan) => (s.writeTapDepositReversal plan, .ok plan.seen)

structure FiatCreditPlan where
  extRefHash : String
  balance : BalanceRecord
  root : DepositRoot
  seen : FiatDepositSeen

def prepareFiatDeposit (host : DepositHost) (s : Ledger) (sender : PublicKey) (value : FiatDepositValue) :
    Except String (FiatDepositSeen ⊕ FiatCreditPlan) := do
  s.registry.requireAdmin sender
  rejectIf (value.rail ∉ fiatDepositRails) "Unsupported fiat deposit rail."
  rejectIf (¬ isSafeKeyPart value.extRefHash) "Invalid external reference hash."
  let fiat ← fiatEvidenceFields host value.evidence
  rejectIf (value.au = 0) "fiat deposit amount must be positive."
  match s.deposits.fiat.get value.extRefHash with
  | some seen => return .inl seen
  | none => do
    let balance ← s.balanceRecord value.who .fiat
    guardianValidateBalanceRecord balance .fiat
    let leaf := host.depositLeafHash (.fiat { value with evidence := fiat })
    let next := { balance with
      au := balance.au + value.au
      updatedEpoch := max balance.updatedEpoch value.epoch }
    return .inr ⟨value.extRefHash, next, s.nextDepositRoot host value.epoch leaf value.au,
      ⟨value.rail, value.who, value.au, value.epoch, 0, 0, 0⟩⟩

def writeFiatDeposit (s : Ledger) (plan : FiatCreditPlan) : Ledger :=
  let credited := (s.putBalance plan.seen.who .fiat plan.balance).putDepositRoot plan.seen.epoch plan.root
  { credited with
    deposits := { s.deposits with fiat := s.deposits.fiat.put plan.extRefHash plan.seen } }

def fiatDeposit (host : DepositHost) (s : Ledger) (sender : PublicKey) (value : FiatDepositValue) :
    Outcome FiatDepositSeen :=
  match s.prepareFiatDeposit host sender value with
  | .error message => (s, .error message)
  | .ok (.inl seen) => (s, .ok seen)
  | .ok (.inr plan) => (s.writeFiatDeposit plan, .ok plan.seen)

structure ChargebackPlan where
  extRefHash : String
  disputeRefHash : String
  balance : BalanceRecord
  root : DepositRoot
  credited : FiatDepositSeen
  seen : FiatChargebackSeen
  freeze : FreezeRecord

def prepareFiatChargeback (host : DepositHost) (s : Ledger) (sender : PublicKey)
    (value : FiatChargebackValue) : Except String (FiatChargebackSeen ⊕ ChargebackPlan) := do
  s.registry.requireAdmin sender
  rejectIf (value.rail ∉ fiatDepositRails) "Unsupported fiat chargeback rail."
  rejectIf (¬ isSafeKeyPart value.extRefHash) "Invalid external reference hash."
  rejectIf (¬ isSafeKeyPart value.disputeRefHash) "Invalid dispute reference hash."
  let fiat ← fiatEvidenceFields host value.evidence
  rejectIf (value.au = 0) "fiat chargeback amount must be positive."
  let credited ← requireSome (s.deposits.fiat.get value.extRefHash) "Fiat deposit reference not found."
  rejectIf (credited.who ≠ value.who) "Fiat chargeback recipient mismatch."
  rejectIf (credited.processorRail ≠ value.rail) "Fiat chargeback processor rail mismatch."
  match s.deposits.fiatChargeback.get (value.extRefHash, value.disputeRefHash) with
  | some seen => return .inl seen
  | none => do
    let disputedAuCum := credited.disputedAuCum + value.au
    rejectIf (disputedAuCum > credited.au) "Fiat chargeback exceeds original deposit."
    let balance ← s.balanceRecord value.who .fiat
    guardianValidateBalanceRecord balance .fiat
    let (next, clawbackAu, absorbedAu) := clawback balance value.au value.epoch
    let leaf := host.depositLeafHash (.fiatChargeback { value with evidence := fiat } clawbackAu absorbedAu)
    return .inr ⟨value.extRefHash, value.disputeRefHash, next,
      s.nextDepositReversalRoot host value.epoch leaf value.au clawbackAu absorbedAu,
      { credited with
        disputedAuCum := disputedAuCum
        chargebackAuCum := credited.chargebackAuCum + clawbackAu
        networkAbsorbedAuCum := credited.networkAbsorbedAuCum + absorbedAu },
      ⟨value.who, value.au, clawbackAu, absorbedAu, value.epoch⟩,
      s.nextFreezeRecord value.who .fiatChargeback .fiat value.au clawbackAu absorbedAu value.epoch value.time⟩

def writeFiatChargeback (s : Ledger) (plan : ChargebackPlan) : Ledger :=
  let debited := (s.putBalance plan.seen.who .fiat plan.balance).putDepositRoot plan.seen.epoch plan.root
  Ledger.freezeAccount { debited with
    deposits := { s.deposits with
      fiat := s.deposits.fiat.put plan.extRefHash plan.credited
      fiatChargeback := s.deposits.fiatChargeback.put (plan.extRefHash, plan.disputeRefHash) plan.seen } }
    plan.seen.who plan.freeze

def fiatChargeback (host : DepositHost) (s : Ledger) (sender : PublicKey) (value : FiatChargebackValue) :
    Outcome FiatChargebackSeen :=
  match s.prepareFiatChargeback host sender value with
  | .error message => (s, .error message)
  | .ok (.inl seen) => (s, .ok seen)
  | .ok (.inr plan) => (s.writeFiatChargeback plan, .ok plan.seen)

end Ledger

end Mayhem
