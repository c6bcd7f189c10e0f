import Mayhem.Settlement.Feature
import Mayhem.LifecycleFacts

namespace Mayhem

def TargetedEarning.account (e : TargetedEarning) : Rail × PublicKey := (e.rail, e.provider)

theorem mergeTargetedEarning_accounts {entry : TargetedEarning} {earnings : List TargetedEarning}
    (h : ∀ e ∈ earnings, e.account = entry.account → e.payoutRevision = entry.payoutRevision) :
    (mergeTargetedEarning entry earnings).map TargetedEarning.account =
      if entry.account ∈ earnings.map TargetedEarning.account
      then earnings.map TargetedEarning.account
      else earnings.map TargetedEarning.account ++ [entry.account] := by
  induction earnings with
  | nil => rfl
  | cons e earnings ih =>
    rw [List.forall_mem_cons] at h
    rw [mergeTargetedEarning]
    by_cases hsame : e.account = entry.account
    . have hboth := h.1 hsame
      obtain ⟨hrail, hprovider⟩ := Prod.mk.inj hsame
      rw [if_pos ⟨hrail, hprovider, hboth⟩, List.map_cons, List.map_cons, if_pos]
      . rfl
      . rw [← hsame]
        exact List.mem_cons_self
    . have hother : ¬ (e.rail = entry.rail ∧ e.provider = entry.provider ∧
          e.payoutRevision = entry.payoutRevision) := fun hall => hsame (Prod.ext hall.1 hall.2.1)
      have hmem : entry.account ∈ (e :: earnings).map TargetedEarning.account ↔
          entry.account ∈ earnings.map TargetedEarning.account := by
        rw [List.map_cons, List.mem_cons, or_iff_right (Ne.symm hsame)]
      rw [if_neg hother, List.map_cons, ih h.2]
      split
      . next hin => rw [if_pos (hmem.mpr hin), List.map_cons]
      . next hnot => rw [if_neg (hmem.not.mpr hnot), List.map_cons, List.cons_append]

theorem addTargetedEarnings_nodup {entries earnings next : List TargetedEarning}
    (hnodup : (earnings.map TargetedEarning.account).Nodup)
    (h : entries.foldlM addTargetedEarning earnings = .ok next) :
    (next.map TargetedEarning.account).Nodup := by
  induction entries generalizing earnings with
  | nil =>
    rw [List.foldlM_nil, Except.pure_accepts_iff] at h
    exact h ▸ hnodup
  | cons _ entries ih =>
    simp only [List.foldlM_cons, addTargetedEarning, checks_iff, not_exists, not_and, not_not] at h
    obtain ⟨_, ⟨-, hrevision, rfl⟩, h⟩ := h
    refine ih ?_ h
    rw [mergeTargetedEarning_accounts]
    . split
      . exact hnodup
      . next hnot => exact List.nodup_append.mpr ⟨hnodup, List.nodup_singleton _, by
          rintro _ hmem _ hlast rfl
          exact hnot (List.mem_singleton.mp hlast ▸ hmem)⟩
    . intro e he hsame
      obtain ⟨hrail, hprovider⟩ := Prod.mk.inj hsame
      exact hrevision e he hrail hprovider

theorem normalize_eq_ok {value normalized : TargetedEpochValue}
    (h : normalizeTargetedEpochFeatureValue value = .ok normalized) :
    normalized = { value with earnings := normalized.earnings } ∧
      (normalized.earnings.map TargetedEarning.account).Nodup := by
  simp only [normalizeTargetedEpochFeatureValue, checks_iff] at h
  obtain ⟨_, -, -, _, -, -, earnings, hearnings, -, -, -, -, rfl⟩ := h
  refine ⟨rfl, ?_⟩
  have hperm := (List.perm_insertionSort (fun a b : TargetedEarning => a.sortKey ≤ b.sortKey) earnings).map
    TargetedEarning.account
  have hempty : (([] : List TargetedEarning).map TargetedEarning.account).Nodup := List.nodup_nil
  exact hperm.nodup_iff.mpr (addTargetedEarnings_nodup hempty hearnings)

structure BoundAllocation (s : Ledger) (epoch : Nat) (key : Digest) (bindings : Bindings)
    (a : Allocation) (next : Bindings) (head : ReceiptHead) : Prop where
  attempt_fresh : a.attempt ∉ bindings.attempts
  head_eq : s.receipts.head.get a.attempt = some head
  head_matches : head.matchesAllocation epoch a = true
  markets_ok : addAllocationUsage head.receipt.body a bindings.markets = .ok next.markets
  holds_ok : s.receipts.consumed.get a.attempt = none →
    consumeReservation s.registry s.holds bindings.holds head a = .ok next.holds
  attempts_eq : next.attempts = a.attempt :: bindings.attempts
  debits_eq : next.debits = Tally.add (a.rail, a.user) a.au bindings.debits
  earnings_eq : next.earnings = Tally.add (a.rail, a.provider, a.payoutRevision) a.au bindings.earnings

variable {s : Ledger} {epoch : Nat} {key : Digest}

theorem bindAllocation_eq_ok {bindings next : Bindings} {a : Allocation}
    (h : bindAllocation s epoch key bindings a = .ok next) :
    ∃ head, BoundAllocation s epoch key bindings a next head := by
  simp only [bindAllocation, checks_iff, not_not] at h
  obtain ⟨-, hattempt, head, hhead, hmatches, -, _, hmarkets, h⟩ := h
  split at h
  . next _ hconsumed =>
    simp only [checks_iff] at h
    obtain ⟨-, _, rfl, rfl⟩ := h
    exact ⟨head, hattempt, hhead, hmatches, hmarkets, by simp [hconsumed], rfl, rfl, rfl⟩
  . simp only [checks_iff] at h
    obtain ⟨_, hholds, rfl⟩ := h
    exact ⟨head, hattempt, hhead, hmatches, hmarkets, fun _ => hholds, rfl, rfl, rfl⟩

structure ConsumedReservation (stored holds : Holds) (head : ReceiptHead) (a : Allocation)
    (session : SpendSession) (next : Holds) : Prop where
  session_eq : stored.session.get (a.user, a.rail, head.reservationId) = some session
  attempt_eq : session.attempt = a.attempt
  maxSpendAu_eq : session.maxSpendAu = a.au
  reserved_le : a.au ≤ (holds.targetedSpendSummary a.user a.rail).reservedAu
  next_eq : next = { holds with
    summary := holds.summary.put (a.user, a.rail) { holds.targetedSpendSummary a.user a.rail with
      reservedAu := (holds.targetedSpendSummary a.user a.rail).reservedAu - a.au }
    session := holds.session.del (a.user, a.rail, head.reservationId)
    sessionIndex := holds.sessionIndex.del (a.user, a.rail, a.sessionId)
    billingAttempt := holds.billingAttempt.del (a.user, a.rail, a.billingId, a.billingAttempt) }

theorem consumeReservation_eq_ok {reg : Registry} {stored holds next : Holds} {head : ReceiptHead}
    {a : Allocation} (hlegacy : stored.hold.get (a.user, a.rail) = none)
    (h : consumeReservation reg stored holds head a = .ok next) :
    ∃ session, ConsumedReservation stored holds head a session next := by
  simp only [consumeReservation, checks_iff, SpendSession.matchesAllocation, decide_eq_true_eq,
    not_or, not_not] at h
  obtain ⟨_, hstate, session, hsession, hmatches, hexact, h⟩ := h
  obtain ⟨found, hfound, -, -, -, rfl⟩ | ⟨-, rfl⟩ := reservationState_cases hlegacy hstate
  . obtain rfl := Option.some.inj hsession
    simp only [checks_iff, Except.mapError_accepts_iff, safeSubAu_eq_ok] at h
    obtain ⟨_, ⟨hle, rfl⟩, rfl⟩ := h
    refine ⟨found, hfound, Prod.ext hmatches.1 hmatches.2.1, hexact.2.2.2.1.symm, hle, ?_⟩
    rw [hmatches.1, hmatches.2.1]
  . cases hsession

theorem bindAllocations_heads {allocations : List Allocation} {bindings next : Bindings}
    (h : allocations.foldlM (bindAllocation s epoch key) bindings = .ok next) :
    (allocations.map Allocation.attempt).Nodup ∧ ∀ a ∈ allocations, a.attempt ∉ bindings.attempts ∧ ∃ head,
        s.receipts.head.get a.attempt = some head ∧ head.matchesAllocation epoch a = true := by
  induction allocations generalizing bindings with
  | nil => exact ⟨List.nodup_nil, by simp⟩
  | cons a allocations ih =>
    rw [List.foldlM_cons, Except.bind_accepts_iff] at h
    obtain ⟨_, hbound, h⟩ := h
    obtain ⟨head, hbound⟩ := bindAllocation_eq_ok hbound
    obtain ⟨hnodup, hheads⟩ := ih h
    rw [hbound.attempts_eq] at hheads
    rw [List.map_cons, List.nodup_cons, List.forall_mem_cons]
    refine ⟨⟨?_, hnodup⟩, ⟨hbound.attempt_fresh, head, hbound.head_eq, hbound.head_matches⟩, ?_⟩
    . intro hmem
      obtain ⟨b, hb, heq⟩ := List.mem_map.mp hmem
      exact (hheads b hb).1 (heq ▸ List.mem_cons_self)
    . intro b hb
      obtain ⟨hfresh, hhead⟩ := hheads b hb
      exact ⟨fun hmem => hfresh (List.mem_cons_of_mem _ hmem), hhead⟩

structure BoundPage (s : Ledger) (value : TargetedEpochValue) (key : Digest) (holds : Holds)
    (markets : List MarketTally) (bindings : Bindings) : Prop where
  bind_ok : value.allocations.foldlM (bindAllocation s value.epoch key)
    ⟨[], [], s.holds, [], [], []⟩ = .ok bindings
  debits_eq : ∀ entry ∈ Tally.addAll [] (value.debits.map fun d => ((d.rail, d.user), d.au)),
    bindings.debits.lookup entry.1 = some entry.2
  debits_length : bindings.debits.length =
    (Tally.addAll [] (value.debits.map fun d => ((d.rail, d.user), d.au))).length
  earnings_eq : ∀ e ∈ value.earnings, bindings.earnings.lookup (e.rail, e.provider, e.payoutRevision) =
    some e.grossAu
  earnings_length : bindings.earnings.length = value.earnings.length
  holds_eq : holds = bindings.holds
  markets_eq : markets = (bindings.markets.insertionSort fun a b =>
    MarketKey.le a.row.key b.row.key).map MarketTally.sortProviders

theorem reservationBindings_eq_ok {value : TargetedEpochValue} {holds : Holds}
    {markets : List MarketTally}
    (h : validateTargetedEpochReservationBindings s value key = .ok (holds, markets)) :
    ∃ bindings, BoundPage s value key holds markets bindings := by
  simp only [validateTargetedEpochReservationBindings, checks_iff, Prod.mk.injEq, not_exists, not_and,
    not_not, List.forall_mem_map, List.length_map] at h
  obtain ⟨bindings, hbind, hdebits, hdebitsLength, hearnings, hearningsLength, hholds, hmarkets⟩ := h
  exact ⟨bindings, {
    bind_ok := hbind
    debits_eq := hdebits
    debits_length := hdebitsLength
    earnings_eq := hearnings
    earnings_length := hearningsLength
    holds_eq := hholds.symm
    markets_eq := hmarkets.symm }⟩

theorem not_replay_of_pageOrder {state : ApplyState} {page : Nat} {lastPage : Bool}
    (h : validateEpochApplyPageOrder state epoch page = .ok ()) :
    isEpochApplyPagePositionReplay state epoch page lastPage = false := by
  unfold validateEpochApplyPageOrder at h
  rw [Bool.eq_false_iff]
  intro hreplay
  simp only [isEpochApplyPagePositionReplay, Bool.and_eq_true, decide_eq_true_eq] at hreplay
  obtain ⟨-, hreplay⟩ := hreplay
  split at h
  . simp only [checks_iff, Bool.not_eq_true, not_not] at h
    split at hreplay
    . simp only [decide_eq_true_eq] at hreplay
      omega
    . simp only [decide_eq_true_eq] at hreplay
      simp [hreplay.1] at h
  . simp only [checks_iff, Bool.not_eq_true, not_not] at h
    split at hreplay
    . simp only [decide_eq_true_eq] at hreplay
      omega
    . simp only [decide_eq_true_eq] at hreplay
      omega

namespace Ledger

structure CommittedPage (s : Ledger) (sender : PublicKey) (value : TargetedEpochValue)
    (options : ApplyOptions) (totals : PageTotals) (commit : EpochCommit) : Prop where
  admin_ok : s.registry.requireAdmin sender = .ok ()
  totals_ok : pageTotals value (s.registry.activeParamAt value.time) = .ok totals
  index_ok : ∃ stored, s.receipts.epochIndex.get value.epoch = some stored ∧
    normalizeReceiptEpochIndexMetadata stored false = .ok value.receiptIndex
  frozen_ok : s.validateFrozenEpoch value.epoch value.time value.receiptIndex = .ok ()
  commit_eq : (options.commitTransition.map CommitTransition.record).or
    (s.epochs.commit.get value.epoch) = some commit

variable {sender : PublicKey} {value : TargetedEpochValue} {options : ApplyOptions}

theorem prepareApplyCommit_eq_ok {totals : PageTotals} {commit : EpochCommit}
    (h : s.prepareApplyCommit sender value options = .ok (totals, commit)) :
    CommittedPage s sender value options totals commit := by
  simp only [prepareApplyCommit, checks_iff, Prod.mk.injEq, not_or, not_not] at h
  obtain ⟨hadmin, _, htotals, _, -, stored, hstored, _, hcurrent, rfl, hfrozen, _, hcommit,
    -, -, rfl, rfl⟩ := h
  exact {
    admin_ok := hadmin
    totals_ok := htotals
    index_ok := ⟨stored, hstored, hcurrent⟩
    frozen_ok := hfrozen
    commit_eq := hcommit }

structure NewPage (crypto : Crypto) (s : Ledger) (sender : PublicKey) (key : Digest)
    (value : TargetedEpochValue) (options : ApplyOptions) (plan : ApplyPlan) where
  totals : PageTotals
  epochCommit : EpochCommit
  position : PagePosition
  applyHash : Digest
  money : PageMoney
  railUpdates : List RailUpdate
  derivations : List PriceDerivation
  anchors : PageAnchors
  commit_ok : s.prepareApplyCommit sender value options = .ok (totals, epochCommit)
  position_ok : pagePosition s.applyState value = .ok position
  cadence_ok : validateEpochCadenceTime crypto s.epochs s.applyState value.epoch value.page value.time
    (s.registry.activeParamAt value.time .epochSeconds) = .ok ()
  order_ok : validateEpochApplyPageOrder s.applyState value.epoch value.page = .ok ()
  money_ok : s.prepareMoney value totals epochCommit options = .ok money
  progress_ok : epochProgress crypto s s.applyState value epochCommit totals options.markets
    money.shares money.earnings (sumOverRails (money.deltas totals).feeAu)
    (sumOverRails (money.deltas totals).burnAu) = .ok plan.progress
  rails_ok : providerAcceptedRailOrder.mapM (s.railUpdate value.epoch (money.deltas totals))
    = .ok railUpdates
  guardian_ok : guardianCheckEpochApply s.applyState value.epoch (sumRailAu totals.debits)
    plan.result.earnedAu (money.deltas totals) railUpdates money.balances money.earnings = .ok ()
  market_ok : prepareMarket crypto s value epochCommit totals options.markets plan.progress
    = .ok (plan.priceUpdates, derivations)
  anchors_ok : prepareAnchors s.epochs s.applyState plan.state value.lastPage = .ok anchors
  anchor_eq : plan.anchor = anchors.anchor
  epoch_eq : plan.epoch = value.epoch
  plan_commit_eq : plan.commit = options.commitTransition
  balances_eq : plan.balances = money.balances
  earnings_eq : plan.earnings = money.earnings
  rails_eq : plan.rails = railUpdates.filter fun update => (money.deltas totals).touched update.rail
  state_eq : plan.state = nextEpochApplyState s.applyState value key applyHash money.debits
    (receiptApply value position plan.progress)
  not_idempotent : plan.result.idempotent = false
  marketPrices_eq : plan.result.marketPrices = plan.priceUpdates

variable {crypto : Crypto}

theorem newPage_of_plan {plan : ApplyPlan}
    (h : s.prepareApply crypto sender key value options = .ok (some plan)) :
    Nonempty (NewPage crypto s sender key value options plan) := by
  simp only [prepareApply, checks_iff, Prod.exists] at h
  obtain ⟨totals, commit, hcommit, position, hposition, h⟩ := h
  split at h
  . simp at h
  . simp only [Except.map_accepts_iff, Option.some.injEq, exists_eq_right] at h
    simp only [prepareNewPage, checks_iff, Prod.exists] at h
    obtain ⟨hcadence, horder, money, hmoney, _, hprogress, rails, hrails, _, -, _, -,
      hguardian, _, derivations, hmarket, -, anchors, hanchors, rfl⟩ := h
    exact ⟨{
      totals := totals
      epochCommit := commit
      position := position
      applyHash := _
      money := money
      railUpdates := rails
      derivations := derivations
      anchors := anchors
      commit_ok := hcommit
      position_ok := hposition
      cadence_ok := hcadence
      order_ok := horder
      money_ok := hmoney
      progress_ok := hprogress
      rails_ok := hrails
      guardian_ok := hguardian
      market_ok := hmarket
      anchors_ok := hanchors
      anchor_eq := rfl
      epoch_eq := rfl
      plan_commit_eq := rfl
      balances_eq := rfl
      earnings_eq := rfl
      rails_eq := rfl
      state_eq := rfl
      not_idempotent := rfl
      marketPrices_eq := rfl }⟩

theorem replay_of_plan (h : s.prepareApply crypto sender key value options = .ok none) :
    isEpochApplyPagePositionReplay s.applyState value.epoch value.page value.lastPage = true := by
  simp only [prepareApply, checks_iff, Prod.exists] at h
  obtain ⟨_, _, -, _, -, h⟩ := h
  split at h
  . next hidempotent =>
    simp only [isIdempotentEpochApplyPage, Bool.and_eq_true] at hidempotent
    exact hidempotent.2
  . simp at h

def featureBounded (s : Ledger) (value : TargetedEpochValue) (transition : Option CommitTransition) : Bool :=
  (((transition.map CommitTransition.record).or (s.epochs.commit.get value.epoch)).map
    EpochCommit.targetedReceiptPages).getD false

structure PreparedFeature (s : Ledger) (key : Digest) (value : TargetedEpochValue)
    (transition : Option CommitTransition) (feature : FeaturePlan) : Prop where
  bindings_ok : validateTargetedEpochReservationBindings s value key =
    .ok (feature.holds, feature.options.markets)
  liabilities_ok : value.earnings.mapM (s.liabilityUpdate value key (s.featureBounded value transition)
    (isEpochApplyPagePositionReplay s.applyState value.epoch value.page value.lastPage)) = .ok feature.liabilities
  transition_eq : feature.options.commitTransition = transition
  deltas_eq : feature.options.deltas = feature.liabilities.map fun update =>
    ((update.earning.rail, update.earning.provider), update.earning.grossAu, update.delta)
  consumptions_eq : feature.consumptions = value.allocations.map fun a =>
    (a.attempt, (⟨value.epoch, a, key⟩ : ReceiptConsumption))
  fresh : isEpochApplyPagePositionReplay s.applyState value.epoch value.page value.lastPage = false →
    anyStored s.receipts.consumed feature.consumptions = false

theorem prepareFeature_eq_ok {transition : Option CommitTransition} {feature : FeaturePlan}
    (h : s.prepareFeature key value transition = .ok feature) :
    PreparedFeature s key value transition feature := by
  simp only [prepareFeature, checks_iff, Prod.exists] at h
  obtain ⟨_, _, hbindings, -, -, _, hliabilities, _, -, -, hfresh, rfl⟩ := h
  refine ⟨hbindings, hliabilities, rfl, rfl, rfl, ?_⟩
  intro hreplay
  rw [hreplay] at hfresh
  simp only [Bool.or_eq_true, not_and, not_not, Bool.false_eq_true, imp_false, not_or, Bool.not_eq_true] at hfresh
  exact hfresh.1.1.2

theorem consumed_none_of_settled {transition : Option CommitTransition} {feature : FeaturePlan}
    {plan : ApplyPlan} (hfeature : s.prepareFeature key value transition = .ok feature)
    (hplan : s.prepareApply crypto sender key value feature.options = .ok (some plan)) :
    ∀ a ∈ value.allocations, s.receipts.consumed.get a.attempt = none := by
  obtain ⟨page⟩ := newPage_of_plan hplan
  have hprepared := prepareFeature_eq_ok hfeature
  have hfresh := hprepared.fresh (not_replay_of_pageOrder page.order_ok)
  rw [hprepared.consumptions_eq, anyStored, List.any_eq_false] at hfresh
  intro a ha
  have hnone := hfresh _ (List.mem_map.mpr ⟨a, ha, rfl⟩)
  simpa using hnone

def settled (s : Ledger) (plan : ApplyPlan) (feature : FeaturePlan) (market : Market) : Ledger :=
  writeFeature { s.writeApply plan with market := market.writePriceUpdates plan.priceUpdates } feature

inductive PageOutcome (crypto : Crypto) (s : Ledger) (sender : PublicKey) (key : Digest)
    (value : TargetedEpochValue) (transition : Option CommitTransition) :
    Outcome ApplyResult → Prop
  | rejected (message : String) : PageOutcome crypto s sender key value transition
      (s, .error message)
  | replayed (feature : FeaturePlan)
      (hfeature : s.prepareFeature key value transition = .ok feature)
      (hreplay : s.validateReplay feature = .ok ())
      (hplan : s.prepareApply crypto sender key value feature.options = .ok none) :
      PageOutcome crypto s sender key value transition (s, .ok idempotentResult)
  | stopped (feature : FeaturePlan) (plan : ApplyPlan) (message : String)
      (hfeature : s.prepareFeature key value transition = .ok feature)
      (hplan : s.prepareApply crypto sender key value feature.options = .ok (some plan))
      (hmarket : (s.writeApply plan).market.writeActivityMarketIndex plan.priceUpdates = .error message) :
      PageOutcome crypto s sender key value transition (s.writeApply plan, .error message)
  | settled (feature : FeaturePlan) (plan : ApplyPlan) (market : Market)
      (hfeature : s.prepareFeature key value transition = .ok feature)
      (hplan : s.prepareApply crypto sender key value feature.options = .ok (some plan))
      (hmarket : (s.writeApply plan).market.writeActivityMarketIndex plan.priceUpdates = .ok market) :
      PageOutcome crypto s sender key value transition
        (s.settled plan feature market, .ok plan.result)

theorem applyNormalizedEpoch_outcome (crypto : Crypto) (s : Ledger) (sender : PublicKey)
    (key : Digest) (value : TargetedEpochValue) (transition : Option CommitTransition) :
    PageOutcome crypto s sender key value transition
      (s.applyNormalizedEpoch crypto sender key value transition) := by
  unfold applyNormalizedEpoch targetedEpochApply
  cases hfeature : s.prepareFeature key value transition with
  | error message => exact .rejected message
  | ok feature =>
    dsimp only
    cases hplan : s.prepareApply crypto sender key value feature.options with
    | error message => exact .rejected message
    | ok found =>
      cases found with
      | none =>
        dsimp only [idempotentResult]
        cases hreplay : s.validateReplay feature with
        | error message => exact .rejected message
        | ok _ => exact .replayed feature hfeature hreplay hplan
      | some plan =>
        obtain ⟨page⟩ := newPage_of_plan hplan
        dsimp only
        cases hmarket : (s.writeApply plan).market.writeActivityMarketIndex plan.priceUpdates with
        | error message => exact .stopped feature plan message hfeature hplan hmarket
        | ok market =>
          simp only [page.not_idempotent, Bool.false_eq_true, if_false]
          exact .settled feature plan market hfeature hplan hmarket

theorem page_cases (crypto : Crypto) (s : Ledger) (sender : PublicKey)
    (key : Digest) (value : TargetedEpochValue) :
    (∃ message, s.applyTargetedEpochFeature crypto sender key value = (s, .error message)) ∨
      ∃ earnings, normalizeTargetedEpochFeatureValue value = .ok { value with earnings := earnings } ∧
        PageOutcome crypto s sender key { value with earnings := earnings } none
          (s.applyTargetedEpochFeature crypto sender key value) := by
  unfold applyTargetedEpochFeature
  split
  . exact .inl ⟨_, rfl⟩
  . next _ hnormalized =>
    split
    . exact .inl ⟨_, rfl⟩
    . have heq := (normalize_eq_ok hnormalized).1
      rw [heq] at hnormalized ⊢
      exact .inr ⟨_, hnormalized, applyNormalizedEpoch_outcome ..⟩

theorem page_outcome (crypto : Crypto) (s : Ledger) (sender : PublicKey)
    (key : Digest) (value : TargetedEpochValue) :
    ∃ earnings, PageOutcome crypto s sender key { value with earnings := earnings } none
      (s.applyTargetedEpochFeature crypto sender key value) := by
  rcases page_cases crypto s sender key value with ⟨message, heq⟩ | ⟨earnings, -, h⟩
  . rw [heq]
    exact ⟨value.earnings, .rejected message⟩
  . exact ⟨earnings, h⟩

theorem pageZero_cases (crypto : Crypto) (s : Ledger)
    (sender : PublicKey) (key : Digest) (value : CommitPageZeroValue) :
    (∃ message, s.applyCommitTargetedEpochPageZeroFeature crypto sender key value = (s, .error message)) ∨
      ∃ earnings transition, normalizeTargetedEpochFeatureValue value.targetedValue =
          .ok { value.targetedValue with earnings := earnings } ∧
        s.prepareTargetedEpochCommitTransition crypto sender value = .ok transition ∧
        PageOutcome crypto s sender key { value.targetedValue with earnings := earnings }
          (some transition) (s.applyCommitTargetedEpochPageZeroFeature crypto sender key value) := by
  unfold applyCommitTargetedEpochPageZeroFeature
  split
  . exact .inl ⟨_, rfl⟩
  . next _ hnormalized =>
    split
    . exact .inl ⟨_, rfl⟩
    . split
      . exact .inl ⟨_, rfl⟩
      . next transition htransition =>
        simp only [normalizeCommitTargetedEpochPageZeroFeatureValue, checks_iff] at hnormalized
        obtain ⟨_, -, -, -, hnormalized⟩ := hnormalized
        have heq := (normalize_eq_ok hnormalized).1
        rw [heq] at hnormalized ⊢
        exact .inr ⟨_, transition, hnormalized, htransition, applyNormalizedEpoch_outcome ..⟩

theorem pageZero_outcome (crypto : Crypto) (s : Ledger)
    (sender : PublicKey) (key : Digest) (value : CommitPageZeroValue) :
    ∃ earnings transition, PageOutcome crypto s sender key
      { value.targetedValue with earnings := earnings } transition
        (s.applyCommitTargetedEpochPageZeroFeature crypto sender key value) := by
  rcases pageZero_cases crypto s sender key value with
    ⟨message, heq⟩ | ⟨earnings, transition, -, -, h⟩
  . rw [heq]
    exact ⟨value.targetedValue.earnings, none, .rejected message⟩
  . exact ⟨earnings, some transition, h⟩

end Ledger
end Mayhem
