import Mayhem.Lib.PagedChain
import Mayhem.Rejection

namespace Mayhem

def ApplyState.chain (state : ApplyState) : PagedChain.State Digest where
  finished := state.updatedEpoch
  lastTime := state.lastSettlementUnix
  pending :=
    match state.pendingEpoch, state.pendingSettlementUnix, state.pendingReceipt with
    | some _, some time, some receipt => some (state.pendingNextPage, time, receipt.commitHash)
    | _, _, _ => none

structure ApplyState.Ready (state : ApplyState) : Prop where
  pending_ok : ∀ epoch ∈ state.pendingEpoch, epoch = state.updatedEpoch + 1 ∧
    state.pendingSettlementUnix.isSome = true ∧ state.pendingReceipt.isSome = true
  unsettled : state.updatedEpoch = 0 → state.lastSettlementUnix = none
  settled : state.updatedEpoch ≠ 0 → ∃ time, state.lastSettlementUnix = some time ∧ isSafeInteger time

namespace ApplyState

variable {state : ApplyState}

theorem chain_pending_of_none (h : state.pendingEpoch = none) : state.chain.pending = none := by
  simp [chain, h]

theorem Ready.chain_pending (h : state.Ready) (hpending : state.pendingEpoch = some epoch) :
    ∃ time receipt, state.pendingSettlementUnix = some time ∧ state.pendingReceipt = some receipt ∧
      state.chain.pending = some (state.pendingNextPage, time, receipt.commitHash) := by
  obtain ⟨-, htime, hreceipt⟩ := h.pending_ok epoch hpending
  obtain ⟨time, htime⟩ := Option.isSome_iff_exists.mp htime
  obtain ⟨receipt, hreceipt⟩ := Option.isSome_iff_exists.mp hreceipt
  refine ⟨time, receipt, htime, hreceipt, ?_⟩
  simp [chain, hpending, htime, hreceipt]

theorem Ready.reach_eq (h : state.Ready) : state.chain.reach = state.pendingEpoch.getD state.updatedEpoch := by
  cases hpending : state.pendingEpoch with
  | none =>
    rw [PagedChain.State.reach, chain_pending_of_none hpending]
    rfl
  | some epoch =>
    obtain ⟨_, _, -, -, heq⟩ := h.chain_pending hpending
    rw [PagedChain.State.reach, heq]
    exact (h.pending_ok epoch hpending).1.symm

end ApplyState

variable {state : ApplyState} {epoch : Nat}

theorem pageOrder_eq_ok {page : Nat}
    (h : validateEpochApplyPageOrder state epoch page = .ok ()) :
    epoch = state.updatedEpoch + 1 ∧ (page = 0 → state.pendingEpoch = none) ∧
      (page ≠ 0 → state.pendingEpoch = some epoch ∧ state.pendingNextPage = page) := by
  unfold validateEpochApplyPageOrder at h
  split at h
  . next hzero =>
    simp only [checks_iff, not_not, Bool.not_eq_true, Option.isSome_eq_false_iff, Option.isNone_iff_eq_none] at h
    exact ⟨h.2.2, fun _ => h.1, fun hne => absurd hzero hne⟩
  . next hne =>
    simp only [checks_iff, not_not] at h
    exact ⟨h.2.1, fun hzero => absurd hzero hne, fun _ => ⟨h.1, h.2.2.1⟩⟩

variable {epochs : Epochs}

theorem validateEpochCadenceTime_eq_ok {crypto : Crypto} {page settledAt epochSeconds : Nat}
    (h : validateEpochCadenceTime crypto epochs state epoch page settledAt epochSeconds = .ok ()) :
    isSafeInteger settledAt ∧ (page ≠ 0 → state.pendingSettlementUnix = some settledAt) ∧
      (page = 0 → state.updatedEpoch ≠ 0 → ∃ prior,
        priorEpochSettlementUnix crypto epochs state = .ok prior ∧ prior + epochSeconds ≤ settledAt) := by
  simp only [validateEpochCadenceTime, checks_iff, not_or, not_not] at h
  obtain ⟨⟨hsafe, -⟩, h⟩ := h
  refine ⟨hsafe, ?_⟩
  split at h
  . next _ =>
    simp only [checks_iff, not_or, not_not] at h
    exact ⟨fun _ => h.2, fun hzero => absurd hzero (by omega)⟩
  . next hzero =>
    refine ⟨fun hne => absurd hne (by omega), fun _ hlater => ?_⟩
    rw [if_pos hlater] at h
    simp only [checks_iff, not_lt] at h
    obtain ⟨prior, hprior, -, hle⟩ := h
    exact ⟨prior, hprior, hle⟩

theorem spaced_of_cadence {crypto : Crypto} {settledAt epochSeconds : Nat} (hready : state.Ready)
    (h : validateEpochCadenceTime crypto epochs state epoch 0 settledAt epochSeconds = .ok ()) :
    state.chain.Spaced settledAt epochSeconds := by
  intro _ hlast
  have hlater : state.updatedEpoch ≠ 0 := by
    intro hzero
    rw [ApplyState.chain, hready.unsettled hzero] at hlast
    cases hlast
  obtain ⟨time, htime, hsafe⟩ := hready.settled hlater
  obtain ⟨-, -, hopen⟩ := validateEpochCadenceTime_eq_ok h
  obtain ⟨prior, hprior, hle⟩ := hopen rfl hlater
  have heq : prior = time := by
    simp only [priorEpochSettlementUnix, htime, Option.filter_some, hsafe, decide_true, if_true] at hprior
    exact (Except.ok.inj hprior).symm
  rw [ApplyState.chain, htime] at hlast
  obtain rfl := Option.some.inj hlast
  rw [← heq]
  exact hle

theorem commitHash_of_pagePosition {value : TargetedEpochValue} {position : PagePosition}
    (h : pagePosition state value = .ok position) (hpage : value.page ≠ 0)
    (hreplay : isEpochApplyPagePositionReplay state value.epoch value.page value.lastPage = false) :
    ∃ receipt ∈ state.pendingReceipt, receipt.commitHash = value.epochCommitHash := by
  simp only [pagePosition, hreplay, Bool.false_eq_true, if_false, false_or, checks_iff] at h
  obtain ⟨hsnapshot, -⟩ := h
  rw [not_and, not_not] at hsnapshot
  obtain ⟨receipt, hreceipt, -, hhash⟩ := hsnapshot (Nat.pos_of_ne_zero hpage)
  exact ⟨receipt, hreceipt, hhash⟩

def Epochs.Anchored (epochs : Epochs) (finished : Nat) : Prop :=
  ∀ epoch, (epochs.applyAnchor.get epoch).isSome = true ↔ 1 ≤ epoch ∧ epoch ≤ finished

theorem prepareEpochApplyAnchor_eq_ok {finished : Nat} {found : Option (Nat × ApplyAnchor)}
    (h : prepareEpochApplyAnchor epochs state = .ok found) (hanchored : epochs.Anchored finished)
    (hnext : state.updatedEpoch = finished + 1) :
    ∃ record, found = some (state.updatedEpoch, record) ∧
      state.lastSettlementUnix = some record.settlementUnix := by
  have hnone : epochs.applyAnchor.get state.updatedEpoch = none := by
    rw [← Option.not_isSome_iff_eq_none, hanchored]
    omega
  simp only [prepareEpochApplyAnchor, hnone, checks_iff] at h
  obtain ⟨-, _, -, settlementUnix, hunix, -, rfl⟩ := h
  exact ⟨_, rfl, hunix⟩

theorem Epochs.Anchored.put {epochs' : Epochs} {finished : Nat} {record : ApplyAnchor}
    (h : epochs.Anchored finished) (heq : epochs'.applyAnchor = epochs.applyAnchor.put (finished + 1) record) :
    epochs'.Anchored (finished + 1) ∧ ∀ epoch anchor, epochs.applyAnchor.get epoch = some anchor →
      epochs'.applyAnchor.get epoch = some anchor := by
  constructor
  . intro epoch
    rw [heq, Table.get_put]
    split
    . next hthis =>
      subst hthis
      simp
    . rw [h epoch]
      omega
  . intro epoch anchor hanchor
    have hold := (h epoch).mp (Option.isSome_iff_exists.mpr ⟨anchor, hanchor⟩)
    rw [heq, Table.get_put_of_ne _ _ (by omega)]
    exact hanchor

namespace Ledger

variable {crypto : Crypto} {s s' : Ledger}

structure ChainReady (s : Ledger) : Prop where
  bounded : s.market.activeMarkets.length ≤ defaultMaxMarketUsageEntries
  ready : s.applyState.Ready
  anchored : s.epochs.Anchored s.applyState.updatedEpoch

structure Chained (s s' : Ledger) (events : List (PagedChain.Event Digest)) : Prop where
  step : PagedChain.Step s.applyState.chain events s'.applyState.chain
  ready : ChainReady s'
  kept : ∀ epoch anchor, s.epochs.applyAnchor.get epoch = some anchor →
    s'.epochs.applyAnchor.get epoch = some anchor
  dated : ∀ epoch anchor, s'.epochs.applyAnchor.get epoch = some anchor →
    s.epochs.applyAnchor.get epoch = some anchor ∨ ∃ event ∈ events, event.completes = true ∧
      event.round = epoch ∧ event.time = anchor.settlementUnix

theorem Chained.of_kept (h : ChainReady s) (hstate : s'.epochs.applyState = s.epochs.applyState)
    (hanchor : s'.epochs.applyAnchor = s.epochs.applyAnchor)
    (hbounded : s'.market.activeMarkets.length ≤ defaultMaxMarketUsageEntries) : Chained s s' [] := by
  have hstate : s'.applyState = s.applyState := by rw [applyState, hstate, ← applyState]
  constructor
  case step =>
    rw [hstate]
    exact .idle _
  case ready =>
    refine ⟨hbounded, hstate ▸ h.ready, ?_⟩
    rw [hstate, Epochs.Anchored, hanchor]
    exact h.anchored
  case kept => rw [hanchor]; exact fun _ _ h => h
  case dated => rw [hanchor]; exact fun _ _ h => .inl h

theorem Chained.of_repeated {event : PagedChain.Event Digest} (h : ChainReady s)
    (hfresh : event.fresh = false)
    (hround : event.round = s.applyState.pendingEpoch.getD s.applyState.updatedEpoch)
    (hpage : s.applyState.pendingEpoch.isSome = true → event.IsPage) : Chained s s [event] where
  step := by
    refine .repeated _ event hfresh ?_ ?_
    . rw [h.ready.reach_eq]
      exact hround
    . intro hpending
      apply hpage
      rw [← Option.not_isNone, Bool.not_eq_true', ← Bool.not_eq_true, Option.isNone_iff_eq_none]
      intro hnone
      rw [ApplyState.chain_pending_of_none hnone] at hpending
      cases hpending
  ready := h
  kept _ _ hanchor := hanchor
  dated _ _ hanchor := .inl hanchor

theorem Chained.of_finished {event : PagedChain.Event Digest} {anchor : Option (Nat × ApplyAnchor)}
    (h : ChainReady s) (hstep : PagedChain.Step s.applyState.chain [event]
      ⟨s.applyState.updatedEpoch + 1, some event.time, none⟩) (hcompletes : event.completes = true)
    (hround : event.round = s.applyState.updatedEpoch + 1) (hsafe : isSafeInteger event.time)
    (hupdated : state.updatedEpoch = s.applyState.updatedEpoch + 1)
    (hunix : state.lastSettlementUnix = some event.time) (hnone : state.pendingEpoch = none)
    (hprepared : prepareEpochApplyAnchor s.epochs state = .ok anchor)
    (hstate : s'.epochs.applyState = some state)
    (hanchor : s'.epochs.applyAnchor = s.epochs.applyAnchor.putAll anchor.toList)
    (hbounded : s'.market.activeMarkets.length ≤ defaultMaxMarketUsageEntries) : Chained s s' [event] := by
  have hstate : s'.applyState = state := by rw [applyState, hstate, Option.getD_some]
  obtain ⟨_, rfl, hrecord⟩ := prepareEpochApplyAnchor_eq_ok hprepared h.anchored hupdated
  rw [Option.toList_some, Table.putAll_cons, Table.putAll_nil, hupdated] at hanchor
  obtain ⟨hanchored, hkept⟩ := h.anchored.put hanchor
  constructor
  case step =>
    rw [hstate]
    have hchain : state.chain = ⟨s.applyState.updatedEpoch + 1, some event.time, none⟩ := by
      rw [← hupdated, ← hunix, ← ApplyState.chain_pending_of_none hnone]
      rfl
    rw [hchain]
    exact hstep
  case ready =>
    refine ⟨hbounded, ?_, ?_⟩
    . rw [hstate]
      constructor
      case pending_ok => rw [hnone]; rintro _ ⟨⟩
      case unsettled => rw [hupdated]; rintro ⟨⟩
      case settled => exact fun _ => ⟨_, hunix, hsafe⟩
    . rw [hstate, hupdated]
      exact hanchored
  case kept => exact hkept
  case dated =>
    intro _ _ hfound
    rw [hanchor, Table.get_put] at hfound
    split at hfound
    . next hthis =>
      obtain rfl := Option.some.inj hfound
      refine .inr ⟨event, List.mem_singleton_self event, hcompletes, hround.trans hthis.symm, ?_⟩
      exact Option.some.inj (hunix.symm.trans hrecord)
    . exact .inl hfound

def chainEvent (s : Ledger) (mark : PagedChain.Mark Digest) (epoch time : Nat) (fresh : Bool) :
    PagedChain.Event Digest :=
  ⟨mark, epoch, time, s.registry.activeParamAt time .epochSeconds, fresh⟩

def pageChainEvents (s : Ledger) (value : TargetedEpochValue) (answer : Except String ApplyResult) :
    List (PagedChain.Event Digest) :=
  match answer with
  | .error _ => []
  | .ok result =>
    [s.chainEvent (.page value.page value.epochCommitHash value.lastPage) value.epoch value.time
      (!result.idempotent)]

section

variable {sender : PublicKey} {key : Digest} {value : TargetedEpochValue}

theorem NewPage.placed {options : ApplyOptions} {plan : ApplyPlan}
    (page : NewPage crypto s sender key value options plan) (h : ChainReady s) :
    s.applyState.chain.Placed value.page value.time (s.registry.activeParamAt value.time .epochSeconds)
      value.epochCommitHash := by
  obtain ⟨-, hfirst, hlater⟩ := pageOrder_eq_ok page.order_ok
  unfold PagedChain.State.Placed
  by_cases hpage : value.page = 0
  . have hcadence := page.cadence_ok
    rw [hpage] at hcadence
    rw [ApplyState.chain_pending_of_none (hfirst hpage)]
    exact ⟨hpage, spaced_of_cadence h.ready hcadence⟩
  . obtain ⟨hpending, hnext⟩ := hlater hpage
    obtain ⟨time, _, htime, hreceipt, hchain⟩ := h.ready.chain_pending hpending
    obtain ⟨-, hsame, -⟩ := validateEpochCadenceTime_eq_ok page.cadence_ok
    obtain ⟨_, hfound, hhash⟩ := commitHash_of_pagePosition page.position_ok hpage
      (not_replay_of_pageOrder page.order_ok)
    have htimes := Option.some.inj ((hsame hpage).symm.trans htime)
    have hreceipts := Option.some.inj (hfound.symm.trans hreceipt)
    rw [hchain]
    dsimp only
    rw [hnext, htimes, ← hhash, hreceipts]

theorem NewPage.chained {options : ApplyOptions} {plan : ApplyPlan}
    (page : NewPage crypto s sender key value options plan) (h : ChainReady s)
    (hstate : s'.epochs.applyState = some plan.state)
    (hanchor : s'.epochs.applyAnchor = s.epochs.applyAnchor.putAll plan.anchor.toList)
    (hbounded : s'.market.activeMarkets.length ≤ defaultMaxMarketUsageEntries) :
    Chained s s' [s.chainEvent (.page value.page value.epochCommitHash value.lastPage) value.epoch
      value.time true] := by
  obtain ⟨hepoch, -⟩ := pageOrder_eq_ok page.order_ok
  obtain ⟨hsafe, -⟩ := validateEpochCadenceTime_eq_ok page.cadence_ok
  have hplaced := page.placed h
  have hnext := page.state_eq
  have hanchors := page.anchors_ok
  rw [page.anchor_eq] at hanchor
  unfold chainEvent
  cases hlast : value.lastPage with
  | true =>
    simp only [prepareAnchors, hlast, if_true, checks_iff] at hanchors
    obtain ⟨_, -, anchor, hprepared, _, -, heq⟩ := hanchors
    rw [← heq] at hanchor
    simp only [nextEpochApplyState, hlast, if_true] at hnext
    rw [hepoch]
    refine Chained.of_finished h (.lastPage _ _ _ _ _ hplaced) rfl rfl hsafe ?_ ?_ ?_ hprepared hstate
      hanchor hbounded
    . rw [hnext]
      exact hepoch
    . rw [hnext]
    . rw [hnext]
  | false =>
    simp only [prepareAnchors, hlast, Bool.false_eq_true, if_false, checks_iff] at hanchors
    obtain ⟨_, -, heq⟩ := hanchors
    rw [← heq, Option.toList_none, Table.putAll_nil] at hanchor
    simp only [nextEpochApplyState, hlast, Bool.false_eq_true, if_false] at hnext
    have hstate : s'.applyState = plan.state := by rw [applyState, hstate, Option.getD_some]
    constructor
    case step =>
      rw [hstate, hnext, hepoch]
      exact .page _ _ _ _ _ hplaced
    case ready =>
      refine ⟨hbounded, ?_, ?_⟩
      . rw [hstate, hnext]
        constructor
        case pending_ok =>
          rintro _ ⟨⟩
          exact ⟨hepoch, rfl, rfl⟩
        case unsettled => exact h.ready.unsettled
        case settled => exact h.ready.settled
      . rw [hstate, hnext, Epochs.Anchored, hanchor]
        exact h.anchored
    case kept => rw [hanchor]; exact fun _ _ h => h
    case dated => rw [hanchor]; exact fun _ _ h => .inl h

theorem PageOutcome.chained {transition : Option CommitTransition} {outcome : Outcome ApplyResult}
    (houtcome : PageOutcome crypto s sender key value transition outcome) (h : ChainReady s) :
    Chained s outcome.1 (s.pageChainEvents value outcome.2) := by
  have hbounded := houtcome.activeMarkets_le h.bounded
  cases houtcome with
  | rejected message => exact .of_kept h rfl rfl h.bounded
  | replayed feature hfeature _ hplan =>
    have hposition := replay_of_plan hplan
    simp only [isEpochApplyPagePositionReplay, Bool.and_eq_true, decide_eq_true_eq] at hposition
    obtain ⟨-, hposition⟩ := hposition
    refine .of_repeated h rfl ?_ (fun _ => ⟨_, _, _, rfl⟩)
    split at hposition
    . simp only [decide_eq_true_eq] at hposition
      rw [hposition.2, ← hposition.1]
      rfl
    . simp only [decide_eq_true_eq] at hposition
      rw [hposition.1]
      rfl
  | stopped feature plan message hfeature hplan hmarket =>
    -- the index of active markets was within its bound, so it does not stop a page
    obtain ⟨page⟩ := newPage_of_plan hplan
    obtain ⟨market, hok⟩ := marketIndex_of_newPage page fun _ => h.bounded
    rw [hok] at hmarket
    cases hmarket
  | settled feature plan market hfeature hplan hmarket =>
    obtain ⟨page⟩ := newPage_of_plan hplan
    dsimp only [pageChainEvents]
    rw [page.not_idempotent]
    exact page.chained h rfl rfl hbounded

end

def sealChainEvents (s : Ledger) (epoch time : Nat) (answer : Except String Unit) :
    List (PagedChain.Event Digest) :=
  match answer with
  | .error _ => []
  | .ok _ => [s.chainEvent .whole epoch time (s.epochs.emptySeal.get epoch).isNone]

section

variable {sender : PublicKey} {tx : Digest} {epoch time : Nat} {reasonHash : Digest}

theorem prepareSeal_eq_ok {found : Option SealPlan}
    (h : s.prepareSeal crypto sender tx epoch time reasonHash = .ok found) :
    (found = none ∧ (s.epochs.emptySeal.get epoch).isNone = false ∧
      s.applyState.updatedEpoch = epoch ∧ s.applyState.pendingEpoch = none) ∨
    ∃ plan, found = some plan ∧ s.epochs.emptySeal.get epoch = none ∧
      s.prepareNewSeal crypto sender tx epoch time reasonHash = .ok plan := by
  simp only [prepareSeal, checks_iff] at h
  obtain ⟨-, -, -, h⟩ := h
  split at h
  . next _ hexisting =>
    simp only [validateExistingSeal, checks_iff, not_or, not_not, Bool.not_eq_true,
      Option.isSome_eq_false_iff, Option.isNone_iff_eq_none] at h
    obtain ⟨⟨-, -, -, -, hupdated, -, hnone⟩, hfound⟩ := h
    exact .inl ⟨hfound.symm, by rw [hexisting]; rfl, hupdated, hnone⟩
  . next hnone =>
    simp only [Except.map_accepts_iff] at h
    obtain ⟨plan, hplan, rfl⟩ := h
    exact .inr ⟨plan, rfl, hnone, hplan⟩

theorem writeSeal_chained {plan : SealPlan} {market : Market} (h : ChainReady s)
    (hplan : s.prepareNewSeal crypto sender tx epoch time reasonHash = .ok plan)
    (hbounded : market.activeMarkets.length ≤ defaultMaxMarketUsageEntries) :
    Chained s (s.writeSeal epoch plan market) [s.chainEvent .whole epoch time true] := by
  simp only [prepareNewSeal, checks_iff] at hplan
  obtain ⟨-, -, -, -, hcadence, horder, _, -, -, _, hanchors, rfl⟩ := hplan
  simp only [prepareAnchors, if_true, checks_iff] at hanchors
  obtain ⟨_, -, _, hprepared, _, -, rfl⟩ := hanchors
  obtain ⟨hepoch, hfirst, -⟩ := pageOrder_eq_ok horder
  obtain ⟨hsafe, -⟩ := validateEpochCadenceTime_eq_ok hcadence
  have hnone := ApplyState.chain_pending_of_none (hfirst rfl)
  subst hepoch
  refine Chained.of_finished h (.whole _ _ _ hnone (spaced_of_cadence h.ready hcadence)) rfl rfl hsafe
    rfl rfl rfl hprepared rfl rfl ?_
  dsimp only [writeSeal, Market.activeMarkets]
  rw [Market.writePriceUpdates_activityIndex]
  exact hbounded

theorem epochSealEmpty_chained (h : ChainReady s) :
    Chained s (s.epochSealEmpty crypto sender tx epoch time reasonHash).1
      (s.sealChainEvents epoch time (s.epochSealEmpty crypto sender tx epoch time reasonHash).2) := by
  unfold epochSealEmpty
  split
  . exact .of_kept h rfl rfl h.bounded
  . next hprepare =>
    obtain ⟨-, hfresh, hupdated, hnone⟩ | ⟨_, hfound, -⟩ := prepareSeal_eq_ok hprepare
    . refine .of_repeated h hfresh ?_ ?_
      . rw [hnone, hupdated]
        rfl
      . rw [hnone]
        rintro ⟨⟩
    . cases hfound
  . next _ hprepare =>
    obtain ⟨hfound, -⟩ | ⟨_, hfound, hnone, hplan⟩ := prepareSeal_eq_ok hprepare
    . cases hfound
    . obtain rfl := Option.some.inj hfound
      dsimp only
      split
      . exact .of_kept h rfl rfl h.bounded
      . next _ hmarket =>
        dsimp only [sealChainEvents]
        rw [hnone]
        exact writeSeal_chained h hplan (Market.activeMarkets_of_write hmarket h.bounded)

end

theorem epochSealEmpty_holds (crypto : Crypto) (s : Ledger) (sender : PublicKey) (tx : Digest)
    (epoch time : Nat) (reasonHash : Digest) :
    (s.epochSealEmpty crypto sender tx epoch time reasonHash).1.holds = s.holds ∧
      (s.epochSealEmpty crypto sender tx epoch time reasonHash).1.receipts = s.receipts := by
  unfold epochSealEmpty
  split
  . exact ⟨rfl, rfl⟩
  . exact ⟨rfl, rfl⟩
  . dsimp only
    split <;> exact ⟨rfl, rfl⟩

structure ChainKept (s s' : Ledger) : Prop where
  state_eq : s'.epochs.applyState = s.epochs.applyState
  anchor_eq : s'.epochs.applyAnchor = s.epochs.applyAnchor
  index_eq : s'.market.activityIndex = s.market.activityIndex

namespace ChainKept

theorem refl (s : Ledger) : ChainKept s s := ⟨rfl, rfl, rfl⟩

theorem trans {s'' : Ledger} (h : ChainKept s s') (h' : ChainKept s' s'') : ChainKept s s'' :=
  ⟨h'.state_eq.trans h.state_eq, h'.anchor_eq.trans h.anchor_eq, h'.index_eq.trans h.index_eq⟩

theorem reserve (crypto : Crypto) (s : Ledger) (key : Digest) (value : SpendReserveValue) :
    ChainKept s (s.applyTargetedSpendReserveFeature crypto key value).1 := by
  unfold applyTargetedSpendReserveFeature
  split <;> exact ⟨rfl, rfl, rfl⟩

theorem record (crypto : Crypto) (s : Ledger) (key : Digest) (value : RecordReceiptValue) :
    ChainKept s (s.applyRecordUsageReceiptFeature crypto key value).1 := by
  unfold applyRecordUsageReceiptFeature
  split
  . exact refl s
  . next plan _ _ =>
    cases plan with
    | repeated => exact refl s
    | advance | final => exact ⟨rfl, rfl, rfl⟩

theorem close (crypto : Crypto) (s : Ledger) (key : Digest) (value : CloseReservationValue)
    (expiry : Bool) : ChainKept s (s.applyCloseUsageReservationFeature crypto key value expiry).1 := by
  unfold applyCloseUsageReservationFeature
  split <;> exact ⟨rfl, rfl, rfl⟩

theorem freeze (crypto : Crypto) (s : Ledger) (sender : PublicKey) (epoch time : Nat) :
    ChainKept s (s.epochFreeze crypto sender epoch time).1 := by
  unfold epochFreeze
  split <;> exact ⟨rfl, rfl, rfl⟩

end ChainKept

inductive ChainStep (crypto : Crypto) :
    Ledger × List (PagedChain.Event Digest) → Ledger × List (PagedChain.Event Digest) → Prop
  | page (s : Ledger) (log : List (PagedChain.Event Digest)) (sender : PublicKey) (key : Digest)
      (value : TargetedEpochValue) :
      ChainStep crypto (s, log) ((s.applyTargetedEpochFeature crypto sender key value).1,
        log ++ s.pageChainEvents value (s.applyTargetedEpochFeature crypto sender key value).2)
  | pageZero (s : Ledger) (log : List (PagedChain.Event Digest)) (sender : PublicKey) (key : Digest)
      (value : CommitPageZeroValue) :
      ChainStep crypto (s, log) ((s.applyCommitTargetedEpochPageZeroFeature crypto sender key value).1,
        log ++ s.pageChainEvents value.targetedValue
          (s.applyCommitTargetedEpochPageZeroFeature crypto sender key value).2)
  | emptySeal (s : Ledger) (log : List (PagedChain.Event Digest)) (sender : PublicKey) (tx : Digest)
      (epoch time : Nat) (reasonHash : Digest) :
      ChainStep crypto (s, log) ((s.epochSealEmpty crypto sender tx epoch time reasonHash).1,
        log ++ s.sealChainEvents epoch time (s.epochSealEmpty crypto sender tx epoch time reasonHash).2)
  | other (s s' : Ledger) (log : List (PagedChain.Event Digest)) (hkept : ChainKept s s') :
      ChainStep crypto (s, log) (s', log)

def ChainRun (crypto : Crypto) :
    Ledger × List (PagedChain.Event Digest) → Ledger × List (PagedChain.Event Digest) → Prop :=
  Relation.ReflTransGen (ChainStep crypto)

variable {log log' : List (PagedChain.Event Digest)}

theorem ChainStep.chained (hstep : ChainStep crypto (s, log) (s', log')) (h : ChainReady s) :
    ∃ events, log' = log ++ events ∧ Chained s s' events := by
  cases hstep with
  | page _ _ sender key value =>
    refine ⟨_, rfl, ?_⟩
    obtain ⟨_, houtcome⟩ := page_outcome crypto s sender key value
    exact houtcome.chained h
  | pageZero _ _ sender key value =>
    refine ⟨_, rfl, ?_⟩
    obtain ⟨_, _, houtcome⟩ := pageZero_outcome crypto s sender key value
    exact houtcome.chained h
  | emptySeal _ _ sender => exact ⟨_, rfl, epochSealEmpty_chained h⟩
  | other _ _ _ hkept =>
    refine ⟨[], (List.append_nil _).symm, .of_kept h hkept.state_eq hkept.anchor_eq ?_⟩
    rw [Market.activeMarkets, hkept.index_eq]
    exact h.bounded

structure ChainInv (s : Ledger) (log : List (PagedChain.Event Digest)) : Prop where
  ready : ChainReady s
  sound : PagedChain.Sound s.applyState.chain log
  dated : ∀ epoch anchor, s.epochs.applyAnchor.get epoch = some anchor →
    ∃ event ∈ log, event.completes = true ∧ event.round = epoch ∧ event.time = anchor.settlementUnix

theorem ChainInv.empty : ChainInv Ledger.empty [] where
  ready := by
    refine ⟨Nat.zero_le _, ⟨?_, fun _ => rfl, fun h => absurd rfl h⟩, ?_⟩
    . rintro _ ⟨⟩
    . intro _
      constructor
      . rintro ⟨⟩
      . rintro ⟨hpos, hle⟩
        exact absurd hle (Nat.not_le_of_lt hpos)
  sound := .start
  dated := by rintro _ _ ⟨⟩

theorem ChainStep.inv (hstep : ChainStep crypto (s, log) (s', log')) (h : ChainInv s log) :
    ChainInv s' log' ∧ ∀ epoch anchor, s.epochs.applyAnchor.get epoch = some anchor →
      s'.epochs.applyAnchor.get epoch = some anchor := by
  obtain ⟨_, rfl, hchained⟩ := hstep.chained h.ready
  refine ⟨⟨hchained.ready, h.sound.step hchained.step, ?_⟩, hchained.kept⟩
  intro epoch anchor hanchor
  rcases hchained.dated epoch anchor hanchor with hold | ⟨event, hevent, hrest⟩
  . obtain ⟨event, hevent, hrest⟩ := h.dated epoch anchor hold
    exact ⟨event, List.mem_append_left _ hevent, hrest⟩
  . exact ⟨event, List.mem_append_right _ hevent, hrest⟩

theorem ChainRun.inv (h : ChainInv s log) (hrun : ChainRun crypto (s, log) (s', log')) :
    ChainInv s' log' ∧ ∀ epoch anchor, s.epochs.applyAnchor.get epoch = some anchor →
      s'.epochs.applyAnchor.get epoch = some anchor := by
  refine Run.invariant_log (fun t seen => ChainInv t seen ∧ ∀ epoch anchor,
    s.epochs.applyAnchor.get epoch = some anchor → t.epochs.applyAnchor.get epoch = some anchor)
    ⟨h, fun _ _ h => h⟩ ?_ hrun
  intro t seen _ _ hinv hstep
  obtain ⟨hnext, hkept⟩ := hstep.inv hinv.1
  exact ⟨hnext, fun _ _ hanchor => hkept _ _ (hinv.2 _ _ hanchor)⟩

/--
Epochs are settled one after the other, page by page and at the distance in force, and every finished epoch gets
one anchor that stays.
-/
theorem epochs_in_order {log : List (PagedChain.Event Digest)}
    (hrun : ChainRun crypto (Ledger.empty, []) (s, log)) :
    (∀ s' log', ChainStep crypto (s, log) (s', log') → s'.applyState.updatedEpoch = s.applyState.updatedEpoch ∨
        s'.applyState.updatedEpoch = s.applyState.updatedEpoch + 1) ∧
    (∀ epoch, PagedChain.Numbered (PagedChain.pages log epoch)) ∧
    (∀ before first middle second after, log = before ++ first :: middle ++ second :: after →
      first.IsPage → first.fresh = true → second.IsPage → second.fresh = true →
      second.round = first.round → ∀ event ∈ middle, event.round = first.round ∧ event.IsPage) ∧
    (∀ first ∈ log, ∀ second ∈ log, first.completes = true → second.opens = true →
      second.round = first.round + 1 → first.time + second.spacing ≤ second.time) ∧
    (log.filter PagedChain.Event.completes).map PagedChain.Event.round = List.range' 1 s.applyState.updatedEpoch ∧
    (∀ epoch, (s.epochs.applyAnchor.get epoch).isSome = true ↔
      1 ≤ epoch ∧ epoch ≤ s.applyState.updatedEpoch) ∧
    (∀ epoch anchor, s.epochs.applyAnchor.get epoch = some anchor →
      (∃ event ∈ log, event.completes = true ∧ event.round = epoch ∧ event.time = anchor.settlementUnix) ∧
      ∀ s' log', ChainRun crypto (s, log) (s', log') → s'.epochs.applyAnchor.get epoch = some anchor) := by
  have hinv := (ChainRun.inv .empty hrun).1
  refine ⟨?_, hinv.sound.numbered, ?_, hinv.sound.spaced, hinv.sound.completions, hinv.ready.anchored, ?_⟩
  . intro s' log' hstep
    obtain ⟨_, -, hchained⟩ := hstep.chained hinv.ready
    exact hchained.step.finished
  . intro before first middle second after hlog _ _ _ hfresh hround
    exact hinv.sound.between hlog hround hfresh
  . intro epoch anchor hanchor
    exact ⟨hinv.dated epoch anchor hanchor, fun s' log' hnext => (hnext.inv hinv).2 _ _ hanchor⟩

def pairFirst : CommitPageZeroValue :=
  { talkPageZero with
    receiptIndex := ⟨2, 1, 2, some 1⟩
    lastPage := false
    marketUsage := none
    earningFinals := none
    roots := pairRoots
    totals := pairTotals }

def pairSecond : TargetedEpochValue := pairPage 1 4 true [talkAllocation 1 4] pairUsage pairFinals

def pairHalf : Ledger := (pairFrozen.applyCommitTargetedEpochPageZeroFeature pairHost 10 0 pairFirst).1

def pairSettled : Ledger := (pairHalf.applyTargetedEpochFeature pairHost 10 1 pairSecond).1

def pairQuiet : Ledger := (pairSettled.epochFreeze pairHost 10 2 7200).1

theorem pairFrozen_kept : ChainKept Ledger.empty pairFrozen :=
  have htalk : ChainKept Ledger.empty talkLedger := ⟨rfl, rfl, rfl⟩
  (((htalk.trans (.reserve ..)).trans (.record ..)).trans (.reserve ..)).trans (.record ..) |>.trans
    (.freeze ..)

/--
An epoch of two pages and an empty one.
-/
theorem epochs_in_order_pair : ∃ s log, ChainRun pairHost (Ledger.empty, []) (s, log) ∧
    PagedChain.pages log 1 = [(0, 3600, 77), (1, 3600, 77)] ∧
    (log.filter PagedChain.Event.completes).map PagedChain.Event.round = List.range' 1 2 ∧
    ∀ s' log', ChainRun pairHost (s, log) (s', log') →
      (s'.epochs.applyAnchor.get 1).isSome = true ∧ (s'.epochs.applyAnchor.get 2).isSome = true := by
  have hfrozen : ChainRun pairHost (Ledger.empty, []) (pairFrozen, []) := .single (.other _ _ _ pairFrozen_kept)
  have hsettled := (hfrozen.tail (.pageZero _ _ 10 0 pairFirst)).tail (.page _ _ 10 1 pairSecond)
  have hquiet := hsettled.tail (.other _ _ _ (.freeze pairHost _ 10 2 7200))
  have hrun := hquiet.tail (.emptySeal _ _ 10 2 2 7200 0)
  refine ⟨_, _, hrun, by decide +kernel, ?_⟩
  have hupdated : (pairQuiet.epochSealEmpty pairHost 10 2 2 7200 0).1.applyState.updatedEpoch = 2 := by
    decide +kernel
  obtain ⟨-, -, -, -, hcompletions, hanchored, hkept⟩ := epochs_in_order hrun
  change _ = List.range' 1 (pairQuiet.epochSealEmpty pairHost 10 2 2 7200 0).1.applyState.updatedEpoch
    at hcompletions
  rw [hupdated] at hcompletions
  refine ⟨hcompletions, ?_⟩
  intro s' log' hnext
  have hstays : ∀ epoch, 1 ≤ epoch → epoch ≤ 2 → (s'.epochs.applyAnchor.get epoch).isSome = true := by
    intro epoch hpos hle
    obtain ⟨anchor, hanchor⟩ := Option.isSome_iff_exists.mp
      ((hanchored epoch).mpr ⟨hpos, hle.trans hupdated.ge⟩)
    exact Option.isSome_iff_exists.mpr ⟨anchor, (hkept epoch anchor hanchor).2 s' log' hnext⟩
  exact ⟨hstays 1 (by decide) (by decide), hstays 2 (by decide) (by decide)⟩

end Ledger
end Mayhem
