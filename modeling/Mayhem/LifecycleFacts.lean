import Mayhem.Lifecycle

namespace Mayhem

variable {reg : Registry} {user : PublicKey} {rail : Rail}

theorem normalizeTargetedSpendSessionRecord_eq_ok {record found : Option SpendSession}
    {reservationId : Digest}
    (h : normalizeTargetedSpendSessionRecord reg record user rail reservationId = .ok found) :
    found = record ∧ ∀ session ∈ record,
      session.user = user ∧ session.rail = rail ∧ session.reservationId = reservationId := by
  cases record with
  | none =>
    obtain rfl := Except.ok.inj h
    exact ⟨rfl, by simp⟩
  | some session =>
    simp only [normalizeTargetedSpendSessionRecord, validateSpendSession, checks_iff, not_or, not_not] at h
    obtain ⟨⟨-, -, -, ⟨huser, hrail⟩, -⟩, hid, rfl⟩ := h
    refine ⟨rfl, ?_⟩
    rintro _ ⟨⟩
    exact ⟨huser, hrail, hid⟩

variable {holds : Holds}

theorem reservationState_cases {reservationId sessionId : Digest} {state : ReservationState}
    (hlegacy : holds.hold.get (user, rail) = none)
    (h : targetedSpendReservationState reg holds user rail reservationId sessionId = .ok state) :
    (∃ session, holds.session.get (user, rail, reservationId) = some session ∧
      session.user = user ∧ session.rail = rail ∧ session.reservationId = reservationId ∧
      state = .sharded (holds.targetedSpendSummary user rail) session) ∨
    (holds.session.get (user, rail, reservationId) = none ∧ state = .missing emptySpendHold) := by
  simp only [targetedSpendReservationState, checks_iff] at h
  obtain ⟨_, hfound, h⟩ := h
  obtain ⟨rfl, hsession⟩ := normalizeTargetedSpendSessionRecord_eq_ok hfound
  cases hget : holds.session.get (user, rail, reservationId) with
  | some session =>
    simp only [hget, checks_iff] at h
    obtain ⟨huser, hrail, hid⟩ := hsession session hget
    exact .inl ⟨session, rfl, huser, hrail, hid, h.2.symm⟩
  | none =>
    simp only [hget, hlegacy, normalizeTargetedSpendHoldRecord, Except.bind_of_ok, emptySpendHold, List.find?_nil,
      checks_iff] at h
    exact .inr ⟨rfl, h.symm⟩

theorem targetedSpendAccountingState_eq_ok {accounting : SpendAccounting}
    (hlegacy : holds.hold.get (user, rail) = none)
    (h : targetedSpendAccountingState reg holds user rail = .ok accounting) :
    accounting.hold = emptySpendHold ∧ accounting.summary = holds.targetedSpendSummary user rail ∧
      accounting.legacyReservedAu = 0 := by
  simp only [targetedSpendAccountingState, hlegacy, normalizeTargetedSpendHoldRecord, Except.bind_of_ok,
    checks_iff, Except.mapError_accepts_iff, safeSubAu_eq_ok] at h
  obtain ⟨legacyReservedAu, ⟨-, hlegacyReserved⟩, rfl⟩ := h
  refine ⟨rfl, rfl, ?_⟩
  rw [← hlegacyReserved]
  exact Nat.zero_sub _

def SpendReserveValue.attempt (value : SpendReserveValue) : BillingAttempt :=
  (value.voucher.billingId, value.voucher.billingAttempt)

inductive AnchorStep (holds : Holds) (receipts : Receipts) (user : PublicKey) (rail : Rail)
    (attempt : BillingAttempt) (next : BillingAnchor) : Prop
  | first (hanchor : receipts.billing.get attempt.1 = none) (hlatest : next.latestAttempt = attempt.2)
  | again (anchor : BillingAnchor) (hanchor : receipts.billing.get attempt.1 = some anchor)
      (hlatest : anchor.latestAttempt = attempt.2) (hnext : next.latestAttempt = attempt.2)
      (hhead : receipts.head.get attempt = none)
      (hopen : holds.billingAttempt.get (user, rail, attempt.1, attempt.2) = none)
  | advance (anchor : BillingAnchor) (hanchor : receipts.billing.get attempt.1 = some anchor)
      (hlatest : anchor.latestAttempt + 1 = attempt.2) (hnext : next.latestAttempt = attempt.2)

def SpendVoucher.ContinuesFrom (voucher : SpendVoucher) (head : ReceiptHead) : Prop :=
  voucher.billingPriorUsage = head.receipt.body.usage ∧
    voucher.billingPriorAuOwedCum = head.receipt.body.auOwedCum

structure BaselineChecked (receipts : Receipts) (voucher : SpendVoucher) (attempt : BillingAttempt) :
    Prop where
  first : receipts.billing.get attempt.1 = none → attempt.2 = 0
  later : ∀ anchor ∈ receipts.billing.get attempt.1, anchor.latestAttempt ≠ attempt.2 →
    ∃ prior, receipts.head.get (attempt.1, anchor.latestAttempt) = some prior ∧ voucher.ContinuesFrom prior

theorem nextBillingAnchor_eq_ok {receipts : Receipts} {value : SpendReserveValue} {next : BillingAnchor}
    (h : nextBillingAnchor reg holds receipts value = .ok next) :
    next.user = value.user ∧ next.rail = value.rail ∧ (∀ anchor ∈ receipts.billing.get value.attempt.1,
        anchor.user = value.user ∧ anchor.rail = value.rail) ∧
      AnchorStep holds receipts value.user value.rail value.attempt next ∧
      BaselineChecked receipts value.voucher value.attempt := by
  unfold nextBillingAnchor at h
  dsimp only [billingReservationIdentity] at h
  split at h
  . next hanchor =>
    simp only [checks_iff, not_not] at h
    obtain ⟨hzero, rfl⟩ := h
    have hno : ∀ anchor, anchor ∉ receipts.billing.get value.attempt.1 := by
      rw [SpendReserveValue.attempt, hanchor]
      simp
    refine ⟨rfl, rfl, fun anchor hmem => absurd hmem (hno anchor), .first hanchor hzero.symm, ?_⟩
    exact ⟨fun _ => hzero, fun anchor hmem => absurd hmem (hno anchor)⟩
  . next anchor hanchor =>
    simp only [checks_iff, not_or, not_not] at h
    obtain ⟨⟨huser, hrail, -, -⟩, h⟩ := h
    have howner : ∀ found ∈ receipts.billing.get value.attempt.1,
        found.user = value.user ∧ found.rail = value.rail := by
      intro found hfound
      obtain rfl := Option.some.inj (hanchor.symm.trans hfound)
      exact ⟨huser, hrail⟩
    have hsome : receipts.billing.get value.attempt.1 = none → value.attempt.2 = 0 := by
      rw [SpendReserveValue.attempt, hanchor]
      rintro ⟨⟩
    split at h
    . next hlatest =>
      simp only [checks_iff, not_or, Bool.not_eq_true, Option.isSome_eq_false_iff, Option.isNone_iff_eq_none] at h
      obtain ⟨hhead, _, -, ⟨-, hopen⟩, rfl⟩ := h
      refine ⟨huser, hrail, howner, .again anchor hanchor hlatest.symm hlatest.symm hhead hopen, hsome, ?_⟩
      intro found hfound hne
      obtain rfl := Option.some.inj (hanchor.symm.trans hfound)
      exact absurd hlatest.symm hne
    . simp only [checks_iff, not_or, not_not] at h
      obtain ⟨hlatest, prior, hprior, hchained, rfl⟩ := h
      refine ⟨huser, hrail, howner, .advance anchor hanchor hlatest.symm rfl, hsome, ?_⟩
      intro found hfound _
      obtain rfl := Option.some.inj (hanchor.symm.trans hfound)
      exact ⟨prior, hprior, hchained⟩

structure SameReservation (value normalized : SpendReserveValue) : Prop where
  user_eq : normalized.user = value.user
  rail_eq : normalized.rail = value.rail
  reservationId_eq : normalized.reservationId = value.reservationId
  maxSpendAu_eq : normalized.maxSpendAu = value.maxSpendAu
  attempt_eq : normalized.attempt = value.attempt
  voucher_eq : normalized.voucher.reservationId = value.reservationId
  priorUsage_eq : normalized.voucher.billingPriorUsage = value.voucher.billingPriorUsage
  priorAu_eq : normalized.voucher.billingPriorAuOwedCum = value.voucher.billingPriorAuOwedCum

theorem normalizeReserveValue_eq_ok {value normalized : SpendReserveValue}
    (h : normalizeTargetedSpendReserveValue reg value = .ok normalized) :
    SameReservation value normalized := by
  simp only [normalizeTargetedSpendReserveValue, normalizeSpendVoucherForReserve, validateReserveVoucher,
    checks_iff, not_not] at h
  obtain ⟨-, -, -, -, -, -, -, -, -, -, -, -, -, _, hvoucher, hsame, -, rfl⟩ := h
  obtain ⟨-, -, -, -, _, -, -, -, -, -, -, -, _, -, -, -, -, -, -, -, -, -, rfl⟩ := hvoucher
  exact ⟨rfl, rfl, rfl, rfl, rfl, hsame.2.1, rfl, rfl⟩

def ReceiptHead.SameReceipt (head existing : ReceiptHead) : Prop :=
  head.receipt = existing.receipt ∧ head.incrementalAu = existing.incrementalAu ∧
    head.reservationId = existing.reservationId ∧ head.receiptSeq = existing.receiptSeq

namespace Ledger

structure NewReservation (s : Ledger) (value : SpendReserveValue) (plan : ReservePlan) : Prop where
  user_eq : plan.session.user = value.user
  rail_eq : plan.session.rail = value.rail
  reservationId_eq : plan.session.reservationId = value.reservationId
  attempt_eq : plan.session.attempt = value.attempt
  maxSpendAu_eq : plan.session.maxSpendAu = value.maxSpendAu
  reservation_none : s.receipts.reservation.get value.reservationId = none
  anchor_user : plan.anchor.user = value.user
  anchor_rail : plan.anchor.rail = value.rail
  anchor_owner : ∀ anchor ∈ s.receipts.billing.get value.attempt.1, anchor.user = value.user ∧
    anchor.rail = value.rail
  anchor_step : AnchorStep s.holds s.receipts value.user value.rail value.attempt plan.anchor
  baseline : BaselineChecked s.receipts value.voucher value.attempt
  priorUsage_eq : plan.session.billingPriorUsage = value.voucher.billingPriorUsage
  priorAu_eq : plan.session.billingPriorAuOwedCum = value.voucher.billingPriorAuOwedCum
  reservedAu_eq : plan.summary.reservedAu =
    (s.holds.targetedSpendSummary value.user value.rail).reservedAu + value.maxSpendAu
  covered : ∃ balance, s.balanceRecord value.user value.rail = .ok balance ∧ plan.summary.reservedAu ≤ balance.au

variable {crypto : Crypto} {s : Ledger} {key : Digest}

theorem prepareReserve_result {value : SpendReserveValue} {plan : ReservePlan}
    (h : s.prepareReserve crypto key value = .ok (.inr plan)) :
    ∃ result, plan.result = .ok result ∧ result.idempotent = false := by
  simp only [prepareReserve, checks_iff] at h
  obtain ⟨_, -, _, -, -, _, -, _, -, -, h⟩ := h
  split at h
  . simp only [checks_iff, reduceCtorEq, and_false]
      at h
  . simp only [checks_iff, Prod.exists, Sum.inr.injEq] at h
    obtain ⟨_, _, -, hcovered, rfl⟩ := h
    rw [ReservePlan.result, safeSubAu, rejectIf_of_not hcovered]
    exact ⟨_, rfl, rfl⟩

theorem prepareReserve_eq_ok {value : SpendReserveValue} {found : ReserveResult ⊕ ReservePlan}
    (hlegacy : s.holds.hold.get (value.user, value.rail) = none)
    (h : s.prepareReserve crypto key value = .ok found) :
    (∃ result, found = .inl result ∧ result.idempotent = true) ∨
      ∃ plan, found = .inr plan ∧ NewReservation s value plan := by
  simp only [prepareReserve, validateReserve, checks_iff] at h
  obtain ⟨_, ⟨_, hnormalized, _, -, -, -, -, -, -, rfl⟩, balance, hbalance, -, _, haccounting, _, -, -, h⟩ := h
  have hsame := normalizeReserveValue_eq_ok hnormalized
  rw [hsame.user_eq, hsame.rail_eq] at haccounting hbalance
  obtain ⟨_, hsummary, hzero⟩ := targetedSpendAccountingState_eq_ok hlegacy haccounting
  split at h
  . simp only [checks_iff] at h
    obtain ⟨-, -, rfl⟩ := h
    exact .inl ⟨_, rfl, rfl⟩
  . simp only [checks_iff, Prod.mk.injEq, Prod.exists, prepareBillingReservation] at h
    obtain ⟨anchor, _, ⟨_, hanchor, hfresh, rfl, rfl⟩, hcovered, rfl⟩ := h
    obtain ⟨huser, hrail, howner, hstep, hbaseline⟩ := nextBillingAnchor_eq_ok hanchor
    rw [hsame.user_eq, hsame.rail_eq, hsame.attempt_eq] at hstep
    rw [hsame.attempt_eq] at hbaseline
    rw [hsame.user_eq] at huser
    rw [hsame.rail_eq] at hrail
    rw [hsame.user_eq, hsame.rail_eq, hsame.attempt_eq] at howner
    refine .inr ⟨_, rfl, {
      user_eq := hsame.user_eq
      rail_eq := hsame.rail_eq
      reservationId_eq := hsame.voucher_eq
      attempt_eq := hsame.attempt_eq
      maxSpendAu_eq := hsame.maxSpendAu_eq
      reservation_none := ?_
      anchor_user := huser
      anchor_rail := hrail
      anchor_owner := howner
      anchor_step := hstep
      baseline := ?_
      priorUsage_eq := hsame.priorUsage_eq
      priorAu_eq := hsame.priorAu_eq
      reservedAu_eq := ?_
      covered := ⟨balance, hbalance, ?_⟩ }⟩
    . rw [hsame.voucher_eq] at hfresh
      simpa using hfresh
    . refine ⟨hbaseline.first, ?_⟩
      intro anchor hmem hne
      obtain ⟨prior, hprior, husage, hau⟩ := hbaseline.later anchor hmem hne
      exact ⟨prior, hprior, hsame.priorUsage_eq ▸ husage, hsame.priorAu_eq ▸ hau⟩
    . rw [hsummary, hsame.maxSpendAu_eq]
    . rw [hzero] at hcovered
      dsimp only
      omega

structure SettledHead (s : Ledger) (key : Digest) (attempt : BillingAttempt) (head : ReceiptHead)
    (append : IndexAppend) (metadata : ReceiptEpochIndex) : Prop where
  epoch_ok : s.receiptSettlementEpoch = .ok append.epoch
  append_ok : nextReceiptEpochIndex s.epochs s.receipts append.epoch attempt = .ok append
  metadata_ok : append.nextMetadata key = .ok metadata
  existing : ∀ existing ∈ s.receipts.head.get attempt, existing.settlementReady = false
  ready : head.settlementReady = true
  settlementEpoch_eq : head.settlementEpoch = some append.epoch
  indexPosition_eq : head.indexPosition = some append.position

structure Closing (s : Ledger) (key : Digest) (plan : ClosePlan) (reservation : ReservationRecord) :
    Prop where
  session_eq : s.holds.session.get (plan.session.user, plan.session.rail, plan.session.reservationId)
    = some plan.session
  reservation_eq : s.receipts.reservation.get plan.session.reservationId = some reservation
  retained_le : (plan.head.map fun entry => entry.1.incrementalAu).getD 0 ≤ plan.session.maxSpendAu
  closure_eq : ∃ reservedAu : Nat,
    reservedAu + (plan.session.maxSpendAu - (plan.head.map fun entry => entry.1.incrementalAu).getD 0)
      = (s.holds.targetedSpendSummary plan.session.user plan.session.rail).reservedAu ∧
    (∃ balance, plan.closure.hold = .sharded ⟨reservedAu, balance⟩) ∧
    plan.closure.session = plan.head.map fun entry => plan.session.retain entry.1.incrementalAu
  head_ok : ∀ head append metadata, plan.head = some (head, append, metadata) →
    SettledHead s key plan.session.attempt head append metadata

variable {session : SpendSession} {reservation : ReservationRecord}

theorem prepareClosure_eq_ok {summary : SpendSummary} {head : Option ReceiptHead} {closure : Closure}
    (h : prepareClosure (.sharded summary session) reservation head = .ok closure) :
    (head.map ReceiptHead.incrementalAu).getD 0 ≤ session.maxSpendAu ∧ ∃ reservedAu : Nat,
        reservedAu + (session.maxSpendAu - (head.map ReceiptHead.incrementalAu).getD 0)
          = summary.reservedAu ∧
        closure.hold = .sharded { summary with reservedAu := reservedAu } ∧
        closure.session = head.map fun head => session.retain head.incrementalAu := by
  simp only [prepareClosure, prepareShardedTargetedReservationClosure, reservationCloseAmounts, checks_iff,
    Except.mapError_accepts_iff, safeSubAu_eq_ok, Prod.exists, Prod.mk.injEq] at h
  obtain ⟨_, _, ⟨-, _, ⟨hle, _⟩, rfl, rfl⟩, reservedAu, ⟨_, _⟩, rfl⟩ := h
  refine ⟨hle, reservedAu, ?_, rfl, ?_⟩
  . omega
  . cases head with
    | none | some => rfl

variable {receipts : Receipts}

theorem nextReceiptEpochIndex_epoch {epochs : Epochs} {epoch : Nat} {attempt : BillingAttempt}
    {append : IndexAppend} (h : nextReceiptEpochIndex epochs receipts epoch attempt = .ok append) :
    append.epoch = epoch := by
  simp only [nextReceiptEpochIndex, checks_iff] at h
  obtain ⟨-, _, -, -, -, -, rfl⟩ := h
  rfl

structure ClosedReservation (s : Ledger) (key : Digest) (value : CloseReservationValue)
    (plan : ClosePlan) (reservation : ReservationRecord) : Prop extends Closing s key plan reservation where
  reservationId_eq : plan.session.reservationId = value.reservationId
  head_eq : (plan.head.map fun entry => entry.1.incrementalAu) =
    (s.receipts.head.get value.attempt).map ReceiptHead.incrementalAu
  head_same : ∀ head append metadata, plan.head = some (head, append, metadata) →
    ∃ existing, s.receipts.head.get plan.session.attempt = some existing ∧ head.SameReceipt existing

variable {value : CloseReservationValue}

theorem prepareCloseTarget_eq_ok {state : ReservationState}
    (hlegacy : s.holds.hold.get (value.user, value.rail) = none)
    (h : s.prepareCloseTarget value = .ok (state, session, reservation)) :
    s.receipts.reservation.get value.reservationId = some reservation ∧
      s.holds.session.get (session.user, session.rail, session.reservationId) = some session ∧
      session.reservationId = value.reservationId ∧ session.attempt = value.attempt ∧
      state = .sharded (s.holds.targetedSpendSummary session.user session.rail) session := by
  simp only [prepareCloseTarget, checks_iff, Prod.mk.injEq, SpendSession.matchesClose, decide_eq_true_eq, not_not]
    at h
  obtain ⟨_, hreservation, -, _, hstate, _, hsession, hmatches, rfl, rfl, rfl⟩ := h
  obtain ⟨_, hfound, huser, hrail, hid, rfl⟩ | ⟨-, rfl⟩ := reservationState_cases hlegacy hstate
  . obtain rfl := Option.some.inj hsession
    rw [huser, hrail, hid]
    exact ⟨hreservation, hfound, rfl, Prod.ext hmatches.1 hmatches.2.1, rfl⟩
  . cases hsession

theorem prepareCloseHead_eq_ok {attempt : BillingAttempt} {settlementEpoch : Nat}
    {found : Option (ReceiptHead × IndexAppend × ReceiptEpochIndex)}
    (hepoch : s.receiptSettlementEpoch = .ok settlementEpoch)
    (hexisting : ∀ existing ∈ s.receipts.head.get attempt, existing.settlementReady = false)
    (h : s.prepareCloseHead key attempt settlementEpoch = .ok found) :
    (found.map fun entry => entry.1.incrementalAu) = (s.receipts.head.get attempt).map ReceiptHead.incrementalAu ∧
      ∀ head append metadata, found = some (head, append, metadata) →
        SettledHead s key attempt head append metadata ∧
          ∃ existing, s.receipts.head.get attempt = some existing ∧ head.SameReceipt existing := by
  unfold prepareCloseHead at h
  split at h
  . next hnone =>
    obtain rfl := Except.ok.inj h
    rw [hnone]
    exact ⟨rfl, by simp⟩
  . next existing hsome =>
    simp only [checks_iff] at h
    obtain ⟨append, happend, metadata, hmetadata, rfl⟩ := h
    have hsame := nextReceiptEpochIndex_epoch happend
    rw [hsome]
    refine ⟨rfl, ?_⟩
    rintro _ _ _ ⟨⟩
    refine ⟨?_, existing, rfl, rfl, rfl, rfl, rfl⟩
    exact {
      epoch_ok := by rw [hsame]; exact hepoch
      append_ok := by rw [hsame]; exact happend
      metadata_ok := hmetadata
      existing := hsome ▸ hexisting
      ready := rfl
      settlementEpoch_eq := congrArg some hsame.symm
      indexPosition_eq := rfl }

theorem validateCloseHead_ready (h : validateCloseHead receipts value = .ok ()) :
    ∀ existing ∈ receipts.head.get value.attempt, existing.settlementReady = false := by
  intro existing hexisting
  unfold validateCloseHead at h
  rw [Option.mem_def] at hexisting
  simp only [hexisting, checks_iff, not_or, Bool.not_eq_true] at h
  exact h.2.1

theorem prepareClose_eq_ok {expiry : Bool} {found : Option (ClosePlan × ReservationRecord)}
    {result : CloseResult} (hlegacy : s.holds.hold.get (value.user, value.rail) = none)
    (h : s.prepareClose crypto key value expiry = .ok (found, result)) :
    (found = none ∧ result.idempotent = true) ∨
      ∃ plan reservation, found = some (plan, reservation) ∧ result.idempotent = false ∧
        ClosedReservation s key value plan reservation := by
  simp only [prepareClose, validateClose, normalizeCloseUsageReservationValue, checks_iff] at h
  obtain ⟨_, ⟨_, ⟨-, -, -, rfl⟩, -, -, rfl⟩, h⟩ := h
  split at h
  . simp only [checks_iff, Prod.mk.injEq] at h
    obtain ⟨-, rfl, rfl⟩ := h
    exact .inl ⟨rfl, rfl⟩
  . simp only [checks_iff, Prod.mk.injEq, Prod.exists] at h
    obtain ⟨_, _, reservation, htarget, hhead, _, hepoch, -, -, head, hclose, _, hclosure, rfl, rfl⟩ := h
    obtain ⟨hreservation, hsession, hid, hattempt, rfl⟩ := prepareCloseTarget_eq_ok hlegacy htarget
    obtain ⟨hamount, hsettled⟩ := prepareCloseHead_eq_ok hepoch (validateCloseHead_ready hhead) hclose
    obtain ⟨hle, reservedAu, hreserved, hhold, hkept⟩ := prepareClosure_eq_ok hclosure
    rw [Option.map_map] at hle hreserved hkept
    refine .inr ⟨_, _, rfl, rfl, {
      session_eq := hsession
      reservation_eq := by rw [hid]; exact hreservation
      retained_le := hle
      closure_eq := ⟨reservedAu, hreserved, ⟨_, hhold⟩, hkept⟩
      head_ok := by
        rw [hattempt]
        exact fun head append metadata hfound => (hsettled head append metadata hfound).1
      reservationId_eq := hid
      head_eq := hamount
      head_same := by
        rw [hattempt]
        exact fun head append metadata hfound => (hsettled head append metadata hfound).2 }⟩

structure NewReceipt (s : Ledger) (body : ReceiptBody) (head : ReceiptHead) : Prop where
  body_eq : head.receipt.body = body
  reservationId_eq : head.reservationId = body.reservationId
  incrementalAu_eq : body.billingPriorAuOwedCum + head.incrementalAu = body.auOwedCum
  valid : validateReceiptBody s.registry body = .ok ()
  session_ok : ∃ session, s.holds.session.get (body.user, body.rail, body.reservationId) = some session ∧
    session.attempt = body.attempt ∧ session.billingPriorUsage = body.billingPriorUsage ∧
    session.billingPriorAuOwedCum = body.billingPriorAuOwedCum ∧ head.incrementalAu ≤ session.maxSpendAu
  latest : ∃ anchor, s.receipts.billing.get body.billingId = some anchor ∧
    anchor.latestAttempt = body.billingAttempt
  monotonic : ∀ existing ∈ s.receipts.head.get body.attempt,
    receiptUsageIsMonotonic existing.receipt.body.usage body.usage = true ∧
      existing.receipt.body.auOwedCum ≤ body.auOwedCum
  receiptSeq_eq : head.receiptSeq = body.seq
  later : ∀ existing ∈ s.receipts.head.get body.attempt, existing.receiptSeq < body.seq

inductive Recorded (s : Ledger) (key : Digest) (body : ReceiptBody) : RecordPlan → Bool → Prop
  | repeated : Recorded s key body .repeated true
  | advance (head : ReceiptHead) (hfinal : body.final = false)
      (hexisting : ∀ existing ∈ s.receipts.head.get body.attempt, existing.settlementReady = false)
      (hready : head.settlementReady = false) (hnew : NewReceipt s body head) :
      Recorded s key body (.advance body.attempt head) false
  | final (plan : ClosePlan) (reservation : ReservationRecord) (hfinal : body.final = true)
      (hclosing : Closing s key plan reservation)
      (hid : plan.session.reservationId = body.reservationId)
      (hhead : (plan.head.map fun entry => entry.1.incrementalAu) =
        some (body.auOwedCum - body.billingPriorAuOwedCum))
      (hnew : ∀ head append metadata, plan.head = some (head, append, metadata) →
        plan.session.attempt = body.attempt ∧ NewReceipt s body head) :
      Recorded s key body (.final plan reservation) false

theorem validateExistingHead_eq_ok {body : ReceiptBody} (h : validateExistingHead receipts body = .ok ()) :
    ∀ existing ∈ receipts.head.get body.attempt, existing.settlementReady = false ∧
      existing.receiptSeq < body.seq ∧ receiptUsageIsMonotonic existing.receipt.body.usage body.usage = true ∧
      existing.receipt.body.auOwedCum ≤ body.auOwedCum := by
  intro existing hexisting
  unfold validateExistingHead at h
  rw [Option.mem_def] at hexisting
  simp only [hexisting, validateHeadAdvance, checks_iff, not_or, not_not, not_lt, Bool.not_eq_true] at h
  obtain ⟨-, hseq, ⟨-, hready⟩, -, hmonotonic⟩ := h
  exact ⟨hready, Nat.lt_of_not_le hseq, by simpa using hmonotonic⟩

structure ReceiptTarget (s : Ledger) (body : ReceiptBody) (session : SpendSession)
    (reservation : ReservationRecord) (incrementalAu : Nat) : Prop where
  reservation_eq : s.receipts.reservation.get body.reservationId = some reservation
  session_eq : s.holds.session.get (body.user, body.rail, body.reservationId) = some session
  user_eq : session.user = body.user
  rail_eq : session.rail = body.rail
  reservationId_eq : session.reservationId = body.reservationId
  attempt_eq : session.attempt = body.attempt
  priorUsage_eq : session.billingPriorUsage = body.billingPriorUsage
  priorAu_eq : session.billingPriorAuOwedCum = body.billingPriorAuOwedCum
  incrementalAu_eq : body.billingPriorAuOwedCum + incrementalAu = body.auOwedCum
  incrementalAu_le : incrementalAu ≤ session.maxSpendAu
  latest : ∃ anchor, s.receipts.billing.get body.billingId = some anchor ∧
    anchor.latestAttempt = body.billingAttempt

theorem validateBillingAnchor_latest {body : ReceiptBody} (h : validateBillingAnchor receipts body = .ok ()) :
    ∃ anchor, receipts.billing.get body.billingId = some anchor ∧ anchor.latestAttempt = body.billingAttempt := by
  simp only [validateBillingAnchor, checks_iff, not_or, not_lt] at h
  obtain ⟨anchor, hanchor, ⟨-, -, -, hle⟩, hge⟩ := h
  exact ⟨anchor, hanchor, Nat.le_antisymm hge hle⟩

theorem prepareReceipt_eq_ok {receipt : ReceiptEnvelope} {state : ReservationState} {incrementalAu : Nat}
    (hlegacy : s.holds.hold.get (receipt.body.user, receipt.body.rail) = none)
    (h : s.prepareReceipt receipt = .ok (state, session, reservation, incrementalAu)) :
    ReceiptTarget s receipt.body session reservation incrementalAu ∧
      state = .sharded (s.holds.targetedSpendSummary session.user session.rail) session := by
  simp only [prepareReceipt, receiptIncrementalAu, checks_iff, Except.mapError_accepts_iff, safeSubAu_eq_ok,
    Prod.mk.injEq, SpendSession.matchesReceipt, decide_eq_true_eq, not_or, not_lt, not_not] at h
  obtain ⟨_, hstate, _, hsession, hmatches, _, ⟨_, ⟨_, _⟩, ⟨-, hle⟩, rfl⟩, hanchor, _,
    hreservation, -, -, rfl, rfl, rfl, rfl⟩ := h
  obtain ⟨_, hfound, huser, hrail, hid, rfl⟩ | ⟨-, rfl⟩ := reservationState_cases hlegacy hstate
  . obtain rfl := Option.some.inj hsession
    obtain ⟨hbilling, hattempt, -, -, -, -, -, -, -, -, -, -, -, -, husage, hpriorAu, -⟩ := hmatches
    rw [huser, hrail]
    refine ⟨?_, rfl⟩
    exact {
      reservation_eq := hreservation
      session_eq := hfound
      user_eq := huser
      rail_eq := hrail
      reservationId_eq := hid
      attempt_eq := Prod.ext hbilling hattempt
      priorUsage_eq := husage
      priorAu_eq := hpriorAu
      incrementalAu_eq := by omega
      incrementalAu_le := hle
      latest := validateBillingAnchor_latest hanchor }
  . cases hsession

theorem ReceiptTarget.newReceipt {receipt : ReceiptEnvelope} {incrementalAu : Nat}
    (h : ReceiptTarget s receipt.body session reservation incrementalAu)
    (hvalid : validateReceiptBody s.registry receipt.body = .ok ())
    (hexisting : validateExistingHead s.receipts receipt.body = .ok ()) (settled : Option (Nat × Nat)) :
    NewReceipt s receipt.body (receiptHead crypto receipt incrementalAu settled) where
  body_eq := rfl
  reservationId_eq := rfl
  incrementalAu_eq := h.incrementalAu_eq
  valid := hvalid
  session_ok := ⟨session, h.session_eq, h.attempt_eq, h.priorUsage_eq, h.priorAu_eq, h.incrementalAu_le⟩
  latest := h.latest
  monotonic existing hmem := (validateExistingHead_eq_ok hexisting existing hmem).2.2
  receiptSeq_eq := rfl
  later existing hmem := (validateExistingHead_eq_ok hexisting existing hmem).2.1

theorem prepareRecord_eq_ok {value : RecordReceiptValue} {plan : RecordPlan} {result : RecordResult}
    (hlegacy : s.holds.hold.get (value.receipt.body.user, value.receipt.body.rail) = none)
    (h : s.prepareRecord crypto key value = .ok (plan, result)) :
    Recorded s key value.receipt.body plan result.idempotent := by
  simp only [prepareRecord, validateRecord, normalizeRecordUsageReceiptValue,
    normalizeReceiptEnvelope_eq_ok, checks_iff] at h
  obtain ⟨_, ⟨_, ⟨-, -, _, ⟨hvalid, rfl⟩, -, -, rfl⟩, -, -, -, rfl⟩, h⟩ := h
  split at h
  . simp only [checks_iff, Prod.mk.injEq] at h
    obtain ⟨rfl, rfl⟩ := h
    exact .repeated
  . simp only [prepareNewReceipt, checks_iff, Prod.exists] at h
    obtain ⟨hexisting, _, _, _, _, hreceipt, _, hepoch, -, h⟩ := h
    obtain ⟨htarget, rfl⟩ := prepareReceipt_eq_ok hlegacy hreceipt
    have hready : ∀ existing ∈ s.receipts.head.get value.receipt.body.attempt, existing.settlementReady = false :=
      fun existing hmem => (validateExistingHead_eq_ok hexisting existing hmem).1
    split at h
    . next hfinal =>
      simp only [prepareFinalReceipt, checks_iff, Prod.mk.injEq] at h
      obtain ⟨_, ⟨-, _, happend, -, _, hclosure, _, hmetadata, rfl⟩, rfl, rfl⟩ := h
      have hsame := nextReceiptEpochIndex_epoch happend
      obtain ⟨hle, reservedAu, hreserved, hhold, hkept⟩ := prepareClosure_eq_ok hclosure
      refine .final _ _ hfinal ?_ htarget.reservationId_eq ?_ ?_
      . exact {
          session_eq := by
            rw [htarget.user_eq, htarget.rail_eq, htarget.reservationId_eq]
            exact htarget.session_eq
          reservation_eq := by rw [htarget.reservationId_eq]; exact htarget.reservation_eq
          retained_le := hle
          closure_eq := ⟨reservedAu, hreserved, ⟨_, hhold⟩, hkept⟩
          head_ok := by
            rintro _ _ _ ⟨⟩
            rw [htarget.attempt_eq]
            exact {
              epoch_ok := by rw [hsame]; exact hepoch
              append_ok := by rw [hsame]; exact happend
              metadata_ok := hmetadata
              existing := hready
              ready := rfl
              settlementEpoch_eq := congrArg some hsame.symm
              indexPosition_eq := rfl } }
      . have hau := htarget.incrementalAu_eq
        dsimp only [Option.map_some, receiptHead]
        congr 1
        omega
      . rintro _ _ _ ⟨⟩
        exact ⟨htarget.attempt_eq, htarget.newReceipt hvalid hexisting _⟩
    . next hfinal =>
      simp only [checks_iff, Prod.mk.injEq] at h
      obtain ⟨rfl, rfl⟩ := h
      exact .advance _ (by simpa using hfinal) hready rfl (htarget.newReceipt hvalid hexisting _)

end Ledger

end Mayhem
