import Mayhem.Chain

namespace Mayhem

/-! The listing of an epoch -/

namespace Receipts

variable (receipts : Receipts)

def indexOf (epoch : Nat) : ReceiptEpochIndex :=
  (receipts.epochIndex.get epoch).getD emptyReceiptEpochIndex

def pageOf (epoch page : Nat) : List BillingAttempt := (receipts.epochPage.get (epoch, page)).getD []

def listing (epoch : Nat) : List BillingAttempt :=
  (List.range (receiptPageCount (receipts.indexOf epoch).count)).flatMap (receipts.pageOf epoch)

end Receipts

theorem receiptPageCount_succ_of_full {count : Nat} (h : count % receiptEpochIndexPageSize = 0) :
    receiptPageCount count = count / receiptEpochIndexPageSize ∧
      receiptPageCount (count + 1) = count / receiptEpochIndexPageSize + 1 := by
  unfold receiptPageCount receiptEpochIndexPageSize at *
  omega

theorem receiptPageCount_succ_of_partial {count : Nat} (h : count % receiptEpochIndexPageSize ≠ 0) :
    receiptPageCount count = count / receiptEpochIndexPageSize + 1 ∧
      receiptPageCount (count + 1) = count / receiptEpochIndexPageSize + 1 := by
  unfold receiptPageCount receiptEpochIndexPageSize at *
  omega

variable {receipts : Receipts} {epoch : Nat} {attempt : BillingAttempt} {append : IndexAppend}

theorem nextReceiptEpochIndex_eq_ok {epochs : Epochs}
    (h : nextReceiptEpochIndex epochs receipts epoch attempt = .ok append) :
    append.epoch = epoch ∧ append.page = (receipts.indexOf epoch).count / receiptEpochIndexPageSize ∧
      append.identities = receipts.pageOf epoch append.page ++ [attempt] ∧
      (receipts.pageOf epoch append.page).length = (receipts.indexOf epoch).count % receiptEpochIndexPageSize ∧
      append.index.count = (receipts.indexOf epoch).count + 1 := by
  simp only [nextReceiptEpochIndex, checks_iff, not_or, not_not] at h
  obtain ⟨-, _, -, -, ⟨hlength, -⟩, -, rfl⟩ := h
  exact ⟨rfl, rfl, rfl, hlength, rfl⟩

structure Appended (receipts receipts' : Receipts) (epoch : Nat) (attempt : BillingAttempt) : Prop where
  listing_eq : receipts'.listing epoch = receipts.listing epoch ++ [attempt]
  count_eq : (receipts'.indexOf epoch).count = (receipts.indexOf epoch).count + 1
  other_index : ∀ other, other ≠ epoch → receipts'.epochIndex.get other = receipts.epochIndex.get other
  other_page : ∀ other page, other ≠ epoch →
    receipts'.epochPage.get (other, page) = receipts.epochPage.get (other, page)

variable {receipts' : Receipts}

theorem Receipts.listing_congr (hindex : receipts'.epochIndex.get epoch = receipts.epochIndex.get epoch)
    (hpage : ∀ page, receipts'.epochPage.get (epoch, page) = receipts.epochPage.get (epoch, page)) :
    receipts'.listing epoch = receipts.listing epoch := by
  have hpages : receipts'.pageOf epoch = receipts.pageOf epoch := by
    funext page
    rw [pageOf, hpage, ← pageOf]
  rw [listing, indexOf, hindex, ← indexOf, hpages, ← listing]

theorem Appended.other_listing {other : Nat} (h : Appended receipts receipts' epoch attempt)
    (hne : other ≠ epoch) : receipts'.listing other = receipts.listing other :=
  Receipts.listing_congr (h.other_index other hne) fun page => h.other_page other page hne

theorem appended_of_put {epochs : Epochs} {key : Digest} {metadata : ReceiptEpochIndex}
    (happend : nextReceiptEpochIndex epochs receipts epoch attempt = .ok append)
    (hmetadata : append.nextMetadata key = .ok metadata)
    (hpage : receipts'.epochPage = receipts.epochPage.put (append.epoch, append.page) append.identities)
    (hindex : receipts'.epochIndex = receipts.epochIndex.put append.epoch metadata) :
    Appended receipts receipts' epoch attempt := by
  obtain ⟨hepoch, hnumber, hidentities, hlength, hcount⟩ := nextReceiptEpochIndex_eq_ok happend
  rw [hepoch] at hpage hindex
  have hnext : (receipts'.indexOf epoch).count = (receipts.indexOf epoch).count + 1 := by
    simp only [IndexAppend.nextMetadata, checks_iff] at hmetadata
    rw [Receipts.indexOf, hindex, Table.get_put_self, Option.getD_some, ← hmetadata.2, hcount]
  have hlast : receipts'.pageOf epoch append.page = receipts.pageOf epoch append.page ++ [attempt] := by
    rw [Receipts.pageOf, hpage, Table.get_put_self, Option.getD_some, hidentities]
  have hbefore : ∀ page < append.page, receipts'.pageOf epoch page = receipts.pageOf epoch page := by
    intro page _
    rw [Receipts.pageOf, hpage, Table.get_put_of_ne, ← Receipts.pageOf]
    intro heq
    have := (Prod.mk.inj heq).2
    omega
  have hearlier : (List.range append.page).flatMap (receipts'.pageOf epoch) =
      (List.range append.page).flatMap (receipts.pageOf epoch) := by
    apply List.flatMap_congr
    intro page hmem
    exact hbefore page (List.mem_range.mp hmem)
  constructor
  case listing_eq =>
    unfold Receipts.listing
    rw [hnext]
    by_cases hfull : (receipts.indexOf epoch).count % receiptEpochIndexPageSize = 0
    . -- the attempt opens a page
      obtain ⟨hold, hnew⟩ := receiptPageCount_succ_of_full hfull
      rw [hfull, List.length_eq_zero_iff] at hlength
      rw [hold, hnew, ← hnumber, List.range_succ, List.flatMap_append, hearlier, List.flatMap_singleton,
        hlast, hlength, List.nil_append]
    . obtain ⟨hold, hnew⟩ := receiptPageCount_succ_of_partial hfull
      rw [hold, hnew, ← hnumber, List.range_succ, List.flatMap_append, List.flatMap_append, hearlier,
        List.flatMap_singleton, List.flatMap_singleton, hlast, List.append_assoc]
  case count_eq => exact hnext
  case other_index =>
    intro other hne
    rw [hindex, Table.get_put_of_ne _ _ hne]
  case other_page =>
    intro other page hne
    rw [hpage, Table.get_put_of_ne]
    intro heq
    exact hne (Prod.mk.inj heq).1

theorem Receipts.exists_listedAt (h : attempt ∈ receipts.listing epoch) :
    ∃ page offset, receipts.ListedAt attempt epoch page offset := by
  obtain ⟨page, -, hmem⟩ := List.mem_flatMap.mp h
  unfold pageOf at hmem
  cases hpage : receipts.epochPage.get (epoch, page) with
  | none =>
    rw [hpage] at hmem
    cases hmem
  | some identities =>
    rw [hpage, Option.getD_some] at hmem
    obtain ⟨offset, hoffset⟩ := List.mem_iff_getElem?.mp hmem
    exact ⟨page, offset, identities, hpage, hoffset⟩

structure IndexSound (receipts : Receipts) : Prop where
  length_eq : ∀ epoch, (receipts.listing epoch).length = (receipts.indexOf epoch).count
  ready : ∀ attempt head epoch, receipts.head.get attempt = some head → head.settlementReady = true →
    head.settlementEpoch = some epoch → attempt ∈ receipts.listing epoch

structure IndexKept (receipts receipts' : Receipts) : Prop where
  index_eq : receipts'.epochIndex = receipts.epochIndex
  page_eq : receipts'.epochPage = receipts.epochPage
  ready : ∀ attempt head, receipts'.head.get attempt = some head → head.settlementReady = true →
    receipts.head.get attempt = some head

namespace IndexKept

variable {receipts receipts' : Receipts}

theorem of_eq (hindex : receipts'.epochIndex = receipts.epochIndex)
    (hpage : receipts'.epochPage = receipts.epochPage) (hhead : receipts'.head = receipts.head) :
    IndexKept receipts receipts' :=
  ⟨hindex, hpage, fun _ _ h _ => hhead ▸ h⟩

theorem indexOf_eq (h : IndexKept receipts receipts') (epoch : Nat) :
    receipts'.indexOf epoch = receipts.indexOf epoch := by
  rw [Receipts.indexOf, h.index_eq, ← Receipts.indexOf]

theorem listing_eq (h : IndexKept receipts receipts') (epoch : Nat) :
    receipts'.listing epoch = receipts.listing epoch :=
  Receipts.listing_congr (by rw [h.index_eq]) fun page => by rw [h.page_eq]

theorem indexSound (h : IndexKept receipts receipts') (hsound : IndexSound receipts) : IndexSound receipts' where
  length_eq epoch := by
    rw [h.listing_eq, h.indexOf_eq]
    exact hsound.length_eq epoch
  ready attempt head epoch hhead hready hepoch := by
    rw [h.listing_eq]
    exact hsound.ready attempt head epoch (h.ready attempt head hhead hready) hready hepoch

end IndexKept

theorem Appended.indexSound {head : ReceiptHead} (h : Appended receipts receipts' epoch attempt)
    (hsound : IndexSound receipts) (hhead : receipts'.head = receipts.head.put attempt head)
    (hepoch : head.settlementEpoch = some epoch) : IndexSound receipts' where
  length_eq other := by
    by_cases hsame : other = epoch
    . subst hsame
      rw [h.listing_eq, h.count_eq, List.length_append, hsound.length_eq, List.length_singleton]
    . rw [h.other_listing hsame, Receipts.indexOf, h.other_index other hsame]
      exact hsound.length_eq other
  ready other found place hfound hready hplace := by
    rw [hhead, Table.get_put] at hfound
    split at hfound
    . next hsame =>
      obtain rfl := Option.some.inj hfound
      obtain rfl := Option.some.inj (hepoch.symm.trans hplace)
      rw [h.listing_eq, hsame]
      exact List.mem_append_right _ (List.mem_singleton_self attempt)
    . have hold := hsound.ready other found place hfound hready hplace
      by_cases hsame : place = epoch
      . subst hsame
        rw [h.listing_eq]
        exact List.mem_append_left _ hold
      . rw [h.other_listing hsame]
        exact hold

/-! What is settled of the epoch that is pending -/

def ApplyState.settledCount (state : ApplyState) : Nat :=
  match state.pendingEpoch with
  | none => 0
  | some _ => (state.pendingReceipt.map ReceiptApply.allocationCount).getD 0

theorem pagePosition_count {state : ApplyState} {value : TargetedEpochValue} {position : PagePosition}
    (h : pagePosition state value = .ok position)
    (horder : validateEpochApplyPageOrder state value.epoch value.page = .ok ()) :
    position.allocationCount = state.settledCount + value.allocations.length ∧
      (value.lastPage = true → position.allocationCount = value.receiptIndex.count) := by
  have hreplay : isEpochApplyPagePositionReplay state value.epoch value.page value.lastPage = false :=
    not_replay_of_pageOrder horder
  obtain ⟨-, hfirst, hlater⟩ := pageOrder_eq_ok horder
  simp only [pagePosition, hreplay, Bool.false_eq_true, if_false, checks_iff] at h
  obtain ⟨-, -, -, hcomplete, -, rfl⟩ := h
  rw [not_and, not_not] at hcomplete
  refine ⟨?_, hcomplete⟩
  unfold ApplyState.settledCount
  dsimp only
  by_cases hpage : value.page = 0
  . rw [if_pos hpage, hfirst hpage]
  . rw [if_neg hpage, (hlater hpage).1]

namespace Ledger

variable {crypto : Crypto} {s s' : Ledger} {log log' : List Consumption}

/-! What a step does to the listings -/

structure SettlementKept (s s' : Ledger) : Prop where
  freeze_eq : s'.epochs.freeze = s.epochs.freeze
  ingress_eq : s'.receipts.ingress = s.receipts.ingress
  state_eq : s'.epochs.applyState = s.epochs.applyState

structure NewlyListed (s s' : Ledger) (epoch : Nat) (attempt : BillingAttempt) (head : ReceiptHead) :
    Prop extends SettlementKept s s' where
  open_ok : s.receiptSettlementEpoch = .ok epoch
  appended : Appended s.receipts s'.receipts epoch attempt
  head_eq : s'.receipts.head = s.receipts.head.put attempt head
  settlementEpoch_eq : head.settlementEpoch = some epoch
  consumed_eq : s'.receipts.consumed = s.receipts.consumed

structure NewlyFrozen (s s' : Ledger) (epoch : Nat) : Prop extends IndexKept s.receipts s'.receipts where
  open_ok : s.receiptSettlementEpoch = .ok epoch
  freeze_eq : ∃ freeze, s'.epochs.freeze = s.epochs.freeze.put epoch freeze
  ingress_eq : ∃ cursor, s'.receipts.ingress = some cursor ∧ cursor.nextEpoch = epoch + 1
  state_eq : s'.epochs.applyState = s.epochs.applyState
  consumed_eq : s'.receipts.consumed = s.receipts.consumed

structure NewlySettled (s s' : Ledger) (value : TargetedEpochValue) (key : Digest) : Prop
    extends IndexKept s.receipts s'.receipts where
  freeze_eq : s'.epochs.freeze = s.epochs.freeze
  ingress_eq : s'.receipts.ingress = s.receipts.ingress
  epoch_eq : value.epoch = s.applyState.updatedEpoch + 1
  consumed_eq : s'.receipts.consumed = s.receipts.consumed.putAll (value.allocations.map fun a =>
    (a.attempt, (⟨value.epoch, a, key⟩ : ReceiptConsumption)))
  heads : ∀ a ∈ value.allocations, ∃ head, s.receipts.head.get a.attempt = some head ∧
    head.settlementReady = true ∧ head.incrementalAu = a.au
  between : value.lastPage = false → s'.applyState.updatedEpoch = s.applyState.updatedEpoch ∧
    s'.applyState.settledCount = s.applyState.settledCount + value.allocations.length
  last : value.lastPage = true → s'.applyState.updatedEpoch = value.epoch ∧ s'.applyState.settledCount = 0 ∧
    s.applyState.settledCount + value.allocations.length = (s.receipts.indexOf value.epoch).count

structure NewlySealed (s s' : Ledger) : Prop where
  freeze_eq : s'.epochs.freeze = s.epochs.freeze
  receipts_eq : s'.receipts = s.receipts
  count_eq : (s.receipts.indexOf (s.applyState.updatedEpoch + 1)).count = 0
  pending_eq : s.applyState.settledCount = 0
  updated_eq : s'.applyState.updatedEpoch = s.applyState.updatedEpoch + 1
  next_eq : s'.applyState.settledCount = 0

inductive ListingChange (s : Ledger) : Ledger → List Consumption → Prop
  | kept (s' : Ledger) (hindex : IndexKept s.receipts s'.receipts) (hkept : SettlementKept s s')
      (hconsumed : s'.receipts.consumed = s.receipts.consumed) : ListingChange s s' []
  | listed (s' : Ledger) (epoch : Nat) (attempt : BillingAttempt) (head : ReceiptHead)
      (hlisted : NewlyListed s s' epoch attempt head) : ListingChange s s' []
  | frozen (s' : Ledger) (epoch : Nat) (hfrozen : NewlyFrozen s s' epoch) : ListingChange s s' []
  | settled (s' : Ledger) (value : TargetedEpochValue) (key : Digest)
      (hsettled : NewlySettled s s' value key) :
      ListingChange s s' (value.allocations.map fun a => ⟨a.attempt, value.epoch, value.page⟩)
  | sealed (s' : Ledger) (hsealed : NewlySealed s s') : ListingChange s s' []

theorem ListingChange.refl (s : Ledger) : ListingChange s s [] := .kept s (.of_eq rfl rfl rfl) ⟨rfl, rfl, rfl⟩ rfl

theorem Closing.listingChange {key : Digest} {plan : ClosePlan} {reservation : ReservationRecord}
    (h : s.Closing key plan reservation) : ListingChange s (s.writeClosePlan plan reservation) [] := by
  cases hhead : plan.head with
  | none =>
    apply ListingChange.kept
    . dsimp only [writeClosePlan, Receipts.writeClosePlan]
      rw [hhead]
      exact .of_eq rfl rfl rfl
    . dsimp only [writeClosePlan, Receipts.writeClosePlan]
      rw [hhead]
      exact ⟨rfl, rfl, rfl⟩
    . dsimp only [writeClosePlan, Receipts.writeClosePlan]
      rw [hhead]
  | some entry =>
    obtain ⟨head, append, metadata⟩ := entry
    have hsettled := h.head_ok head append metadata hhead
    have hreceipts : (s.writeClosePlan plan reservation).receipts =
        { (s.receipts.writeHead plan.session.attempt head).writeIndex append metadata with
          reservation := s.receipts.reservation.put plan.session.reservationId
            { reservation with status := .closed }
          reservationClose := s.receipts.reservationClose.put plan.session.reservationId plan.record } := by
      dsimp only [writeClosePlan, Receipts.writeClosePlan]
      rw [hhead]
      rfl
    refine .listed _ append.epoch plan.session.attempt head ?_
    exact {
      freeze_eq := rfl
      ingress_eq := by rw [hreceipts]; rfl
      state_eq := rfl
      open_ok := hsettled.epoch_ok
      appended := appended_of_put hsettled.append_ok hsettled.metadata_ok (by rw [hreceipts]; rfl)
        (by rw [hreceipts]; rfl)
      head_eq := by rw [hreceipts]; rfl
      settlementEpoch_eq := hsettled.settlementEpoch_eq
      consumed_eq := by rw [hreceipts]; rfl }

theorem normalizeReceiptEpochIndexMetadata_eq_ok {index normalized : ReceiptEpochIndex} {allowEmpty : Bool}
    (h : normalizeReceiptEpochIndexMetadata index allowEmpty = .ok normalized) : normalized = index := by
  simp only [normalizeReceiptEpochIndexMetadata, checks_iff] at h
  obtain ⟨-, -, h⟩ := h
  split at h
  . simp only [checks_iff] at h
    exact h.2.symm
  . simp only [checks_iff] at h
    exact h.2.symm

section

variable {sender : PublicKey} {key : Digest} {value : TargetedEpochValue}
  {transition : Option CommitTransition}

theorem newlySettled_of_plan {feature : FeaturePlan} {plan : ApplyPlan} {market : Market}
    (hfeature : s.prepareFeature key value transition = .ok feature)
    (hplan : s.prepareApply crypto sender key value feature.options = .ok (some plan)) :
    NewlySettled s (s.settled plan feature market) value key := by
  obtain ⟨page⟩ := newPage_of_plan hplan
  have hprepared := prepareFeature_eq_ok hfeature
  obtain ⟨_, hbound⟩ := reservationBindings_eq_ok hprepared.bindings_ok
  obtain ⟨-, hheads⟩ := bindAllocations_heads hbound.bind_ok
  obtain ⟨_, hstored, hindex⟩ := (prepareApplyCommit_eq_ok page.commit_ok).index_ok
  obtain ⟨hepoch, -⟩ := pageOrder_eq_ok page.order_ok
  obtain ⟨hcount, hcomplete⟩ := pagePosition_count page.position_ok page.order_ok
  have hstate : (s.settled plan feature market).applyState = plan.state := rfl
  constructor
  case toIndexKept => exact .of_eq rfl rfl rfl
  case freeze_eq => rfl
  case ingress_eq => rfl
  case epoch_eq => exact hepoch
  case consumed_eq => rw [← hprepared.consumptions_eq]; rfl
  case heads =>
    intro a ha
    obtain ⟨-, head, hhead, hmatches⟩ := hheads a ha
    simp only [ReceiptHead.matchesAllocation, decide_eq_true_eq] at hmatches
    exact ⟨head, hhead, hmatches.2.2.2.1, hmatches.2.2.2.2.2.2.2.2.2.2.2⟩
  case between =>
    intro hlast
    rw [hstate, page.state_eq, ← hcount]
    simp only [nextEpochApplyState, hlast, Bool.false_eq_true, if_false, ApplyState.settledCount]
    exact ⟨trivial, rfl⟩
  case last =>
    intro hlast
    rw [hstate, page.state_eq]
    simp only [nextEpochApplyState, hlast, if_true, ApplyState.settledCount]
    refine ⟨trivial, trivial, ?_⟩
    rw [Receipts.indexOf, hstored, Option.getD_some, ← normalizeReceiptEpochIndexMetadata_eq_ok hindex]
    exact hcount.symm.trans (hcomplete hlast)

theorem PageOutcome.listingChange {outcome : Outcome ApplyResult} (h : ChainReady s)
    (houtcome : PageOutcome crypto s sender key value transition outcome) :
    ListingChange s outcome.1
      (PageAnswer.mk outcome.2 value.epoch value.page value.allocations).consumptions := by
  cases houtcome with
  | rejected | replayed => exact .refl s
  | stopped feature plan _ hfeature hplan hmarket =>
    obtain ⟨page⟩ := newPage_of_plan hplan
    obtain ⟨market, hok⟩ := marketIndex_of_newPage page fun _ => h.bounded
    rw [hok] at hmarket
    cases hmarket
  | settled feature plan market hfeature hplan hmarket =>
    obtain ⟨page⟩ := newPage_of_plan hplan
    dsimp only [PageAnswer.consumptions]
    rw [page.not_idempotent, if_neg Bool.false_ne_true]
    exact .settled _ value key (newlySettled_of_plan hfeature hplan)

end

theorem HoldOp.Effect.listingChange {op : HoldOp} {events : List HoldEvent}
    (heffect : op.Effect crypto s s' events) (h : ChainReady s) :
    ListingChange s s' (op.consumptions crypto s) := by
  cases heffect with
  | reserved plan hprepare hnew => exact .kept _ (.of_eq rfl rfl rfl) ⟨rfl, rfl, rfl⟩ rfl
  | advanced _ hprepare _ hready hnew =>
    refine .kept _ ⟨rfl, rfl, ?_⟩ ⟨rfl, rfl, rfl⟩ rfl
    intro _ _ hfound hfoundReady
    dsimp only [Receipts.writeHead] at hfound
    rw [Table.get_put] at hfound
    split at hfound
    . obtain rfl := Option.some.inj hfound
      rw [hready] at hfoundReady
      cases hfoundReady
    . exact hfound
  | final plan reservation hprepare hclosing _ _ hnew => exact hclosing.listingChange
  | closed plan reservation hprepare hclosed => exact hclosed.toClosing.listingChange
  | page earnings transition houtcome | pageZero earnings transition houtcome =>
    have hchange := houtcome.listingChange h
    exact hchange
  | _ => exact .refl s

theorem epochFreeze_listingChange (crypto : Crypto) (s : Ledger) (sender : PublicKey) (epoch time : Nat) :
    ListingChange s (s.epochFreeze crypto sender epoch time).1 [] := by
  unfold epochFreeze
  split
  . exact .refl s
  . exact .refl s
  . next freeze _ hprepare =>
    simp only [prepareFreeze, checks_iff] at hprepare
    obtain ⟨-, -, hprepare⟩ := hprepare
    split at hprepare
    . cases hprepare
    . simp only [checks_iff, not_not, Option.some.injEq, Prod.mk.injEq] at hprepare
      obtain ⟨-, -, -, opened, hopen, rfl, _, -, -, rfl⟩ := hprepare
      refine .frozen _ opened ?_
      exact {
        toIndexKept := .of_eq rfl rfl rfl
        open_ok := hopen
        freeze_eq := ⟨freeze, rfl⟩
        ingress_eq := ⟨_, rfl, rfl⟩
        state_eq := rfl
        consumed_eq := rfl }

theorem epochSealEmpty_listingChange (crypto : Crypto) (s : Ledger) (sender : PublicKey) (tx : Digest)
    (epoch time : Nat) (reasonHash : Digest) :
    ListingChange s (s.epochSealEmpty crypto sender tx epoch time reasonHash).1 [] := by
  unfold epochSealEmpty
  split
  . exact .refl s
  . exact .refl s
  . next _ hprepare =>
    obtain ⟨hfound, -⟩ | ⟨_, hfound, -, hplan⟩ := prepareSeal_eq_ok hprepare
    . cases hfound
    . obtain rfl := Option.some.inj hfound
      dsimp only
      split
      . exact .kept _ (.of_eq rfl rfl rfl) ⟨rfl, rfl, rfl⟩ rfl
      . simp only [prepareNewSeal, checks_iff, not_or, not_not] at hplan
        obtain ⟨-, ⟨hcount, -⟩, -, -, -, horder, _, -, -, _, -, rfl⟩ := hplan
        obtain ⟨rfl, hfirst, -⟩ := pageOrder_eq_ok horder
        refine .sealed _ ?_
        exact {
          freeze_eq := rfl
          receipts_eq := rfl
          count_eq := hcount
          pending_eq := by rw [ApplyState.settledCount, hfirst rfl]
          updated_eq := rfl
          next_eq := rfl }

/-! What is listed and what is settled -/

theorem receiptSettlementEpoch_eq_ok (h : s.receiptSettlementEpoch = .ok epoch) :
    s.applyState.pendingEpoch.getD s.applyState.updatedEpoch < epoch ∧
      ∀ cursor ∈ s.receipts.ingress, cursor.nextEpoch ≤ epoch := by
  simp only [receiptSettlementEpoch, checks_iff] at h
  obtain ⟨-, h⟩ := h
  split at h
  . next hnone =>
    obtain rfl := Except.ok.inj h
    rw [hnone]
    exact ⟨Nat.lt_succ_self _, by simp⟩
  . next cursor hsome =>
    simp only [checks_iff] at h
    obtain ⟨-, rfl⟩ := h
    rw [hsome]
    refine ⟨Nat.lt_of_succ_le (Nat.le_max_left _ _), ?_⟩
    rintro _ ⟨⟩
    exact Nat.le_max_right _ _

def settledIn (log : List Consumption) (epoch : Nat) : List BillingAttempt :=
  (log.filter fun c => c.epoch = epoch).map Consumption.attempt

theorem settledIn_append (log events : List Consumption) (epoch : Nat) :
    settledIn (log ++ events) epoch = settledIn log epoch ++ settledIn events epoch := by
  rw [settledIn, List.filter_append, List.map_append, ← settledIn, ← settledIn]

theorem settledIn_page (value : TargetedEpochValue) (epoch : Nat) :
    settledIn (value.allocations.map fun a => ⟨a.attempt, value.epoch, value.page⟩) epoch =
      if value.epoch = epoch then value.allocations.map Allocation.attempt else [] := by
  rw [settledIn, List.filter_map, List.map_map]
  split
  . next hsame =>
    rw [List.filter_eq_self.mpr]
    . rfl
    . simp [hsame]
  . next hother =>
    rw [List.filter_eq_nil_iff.mpr]
    . rfl
    . simp [hother]

structure ListingSound (s : Ledger) (log : List Consumption) : Prop where
  index : IndexSound s.receipts
  ingress : ∀ epoch, (s.epochs.freeze.get epoch).isSome = true →
    ∃ cursor ∈ s.receipts.ingress, epoch < cursor.nextEpoch
  reached : ∀ c ∈ log, c.epoch ≤ s.applyState.updatedEpoch + 1
  counted : (settledIn log (s.applyState.updatedEpoch + 1)).length = s.applyState.settledCount
  complete : ∀ epoch ≤ s.applyState.updatedEpoch, (settledIn log epoch).Perm (s.receipts.listing epoch)

namespace ListingSound

theorem listing_empty (epoch : Nat) : Ledger.empty.receipts.listing epoch = [] := by
  have hpages : receiptPageCount (Ledger.empty.receipts.indexOf epoch).count = 0 := by
    change receiptPageCount 0 = 0
    decide
  rw [Receipts.listing, hpages]
  rfl

theorem empty : ListingSound Ledger.empty [] where
  index := by
    constructor
    . intro epoch
      rw [listing_empty]
      rfl
    . rintro _ _ _ ⟨⟩
  ingress := by rintro _ ⟨⟩
  reached := by rintro _ ⟨⟩
  counted := rfl
  complete epoch _ := by
    rw [listing_empty]
    exact .refl _

theorem lt_of_open (h : ListingSound s log) (hready : s.applyState.Ready) {opened : Nat}
    (hopen : s.receiptSettlementEpoch = .ok opened)
    (hshut : (s.epochs.freeze.get epoch).isSome = true ∨ ∃ c ∈ log, c.epoch = epoch) : epoch < opened := by
  obtain ⟨hbase, hcursor⟩ := receiptSettlementEpoch_eq_ok hopen
  rcases hshut with hfrozen | ⟨c, hc, rfl⟩
  . obtain ⟨cursor, hmem, hlt⟩ := h.ingress epoch hfrozen
    exact hlt.trans_le (hcursor cursor hmem)
  . refine Nat.lt_of_le_of_lt ?_ hbase
    have hreached := h.reached c hc
    cases hpending : s.applyState.pendingEpoch with
    | some epoch =>
      rw [Option.getD_some, (hready.pending_ok epoch hpending).1]
      exact hreached
    | none =>
      -- nothing is settled yet of the epoch after the last finished one
      have hcounted := h.counted
      rw [ApplyState.settledCount, hpending, List.length_eq_zero_iff, settledIn, List.map_eq_nil_iff,
        List.filter_eq_nil_iff] at hcounted
      have hne := hcounted c hc
      rw [decide_eq_true_eq] at hne
      rw [Option.getD_none]
      omega

theorem finished_lt_of_open {opened : Nat} (hready : s.applyState.Ready)
    (hopen : s.receiptSettlementEpoch = .ok opened) (hle : epoch ≤ s.applyState.updatedEpoch) :
    epoch < opened := by
  obtain ⟨hbase, -⟩ := receiptSettlementEpoch_eq_ok hopen
  cases hpending : s.applyState.pendingEpoch with
  | some pending =>
    rw [hpending, Option.getD_some, (hready.pending_ok pending hpending).1] at hbase
    omega
  | none =>
    rw [hpending, Option.getD_none] at hbase
    omega

theorem of_state (h : ListingSound s log) (hstate : s'.epochs.applyState = s.epochs.applyState)
    (hindex : IndexSound s'.receipts) (hingress : ∀ epoch, (s'.epochs.freeze.get epoch).isSome = true →
      ∃ cursor ∈ s'.receipts.ingress, epoch < cursor.nextEpoch)
    (hlisting : ∀ epoch ≤ s.applyState.updatedEpoch, s'.receipts.listing epoch = s.receipts.listing epoch) :
    ListingSound s' log := by
  have hstate : s'.applyState = s.applyState := by rw [applyState, hstate, ← applyState]
  refine ⟨hindex, hingress, ?_, ?_, ?_⟩
  . rw [hstate]
    exact h.reached
  . rw [hstate]
    exact h.counted
  . intro epoch hle
    rw [hstate] at hle
    rw [hlisting epoch hle]
    exact h.complete epoch hle

theorem frozen_ingress (h : ListingSound s log) (hfrozen : NewlyFrozen s s' epoch) (other : Nat)
    (hsome : (s'.epochs.freeze.get other).isSome = true) :
    ∃ cursor ∈ s'.receipts.ingress, other < cursor.nextEpoch := by
  obtain ⟨freeze, hfreeze⟩ := hfrozen.freeze_eq
  obtain ⟨cursor, hcursor, hnext⟩ := hfrozen.ingress_eq
  refine ⟨cursor, hcursor, ?_⟩
  rw [hnext]
  rw [hfreeze, Table.get_put] at hsome
  split at hsome
  . next _ => omega
  . obtain ⟨previous, hprevious, _⟩ := h.ingress other hsome
    have hle := (receiptSettlementEpoch_eq_ok hfrozen.open_ok).2 previous hprevious
    omega

theorem settledIn_perm_listing (hindex : IndexSound receipts) (hsound : ReceiptsSound receipts log)
    (hlength : (settledIn log epoch).length = (receipts.indexOf epoch).count) :
    (settledIn log epoch).Perm (receipts.listing epoch) := by
  have hnodup : (settledIn log epoch).Nodup := hsound.nodup.sublist (List.filter_sublist.map Consumption.attempt)
  have hsubset : settledIn log epoch ⊆ receipts.listing epoch := by
    intro attempt hmem
    obtain ⟨c, hc, rfl⟩ := List.mem_map.mp hmem
    rw [List.mem_filter, decide_eq_true_eq] at hc
    obtain ⟨-, head, hhead, hready, hepoch, -⟩ := hsound.consumed c hc.1
    exact hindex.ready c.attempt head epoch hhead hready (hc.2 ▸ hepoch)
  apply (List.subperm_of_subset hnodup hsubset).perm_of_length_le
  rw [hlength, hindex.length_eq]

theorem of_finished (hindex : IndexSound s'.receipts)
    (hingress : ∀ epoch, (s'.epochs.freeze.get epoch).isSome = true →
      ∃ cursor ∈ s'.receipts.ingress, epoch < cursor.nextEpoch)
    (hupdated : s'.applyState.updatedEpoch = s.applyState.updatedEpoch + 1)
    (hcount : s'.applyState.settledCount = 0) (hreached : ∀ c ∈ log, c.epoch ≤ s.applyState.updatedEpoch + 1)
    (hcomplete : ∀ epoch ≤ s.applyState.updatedEpoch + 1,
      (settledIn log epoch).Perm (s'.receipts.listing epoch)) : ListingSound s' log := by
  refine ⟨hindex, hingress, ?_, ?_, ?_⟩
  . intro c hc
    have := hreached c hc
    omega
  . rw [hcount, List.length_eq_zero_iff, settledIn, List.map_eq_nil_iff, List.filter_eq_nil_iff]
    intro c hc
    have := hreached c hc
    rw [decide_eq_true_eq]
    omega
  . rw [hupdated]
    exact hcomplete

theorem settled (h : ListingSound s log) {value : TargetedEpochValue} {key : Digest}
    {events : List Consumption} (hsettled : NewlySettled s s' value key)
    (hevents : events = value.allocations.map fun a => ⟨a.attempt, value.epoch, value.page⟩)
    (hsound : ReceiptsSound s'.receipts (log ++ events)) : ListingSound s' (log ++ events) := by
  have hindex := hsettled.toIndexKept.indexSound h.index
  have hepoch := hsettled.epoch_eq
  have hreached : ∀ c ∈ log ++ events, c.epoch ≤ s.applyState.updatedEpoch + 1 := by
    intro c hc
    rcases List.mem_append.mp hc with hc | hc
    . exact h.reached c hc
    . obtain ⟨a, -, rfl⟩ := List.mem_map.mp (hevents ▸ hc)
      exact hepoch.le
  have hcounted : (settledIn (log ++ events) (s.applyState.updatedEpoch + 1)).length =
      s.applyState.settledCount + value.allocations.length := by
    rw [settledIn_append, hevents, settledIn_page, if_pos hepoch, List.length_append, h.counted, List.length_map]
  have hcomplete : ∀ epoch ≤ s.applyState.updatedEpoch,
      (settledIn (log ++ events) epoch).Perm (s'.receipts.listing epoch) := by
    intro epoch hle
    rw [settledIn_append, hevents, settledIn_page, if_neg (by omega), List.append_nil,
      hsettled.toIndexKept.listing_eq]
    exact h.complete epoch hle
  have hingress : ∀ epoch, (s'.epochs.freeze.get epoch).isSome = true →
      ∃ cursor ∈ s'.receipts.ingress, epoch < cursor.nextEpoch := by
    rw [hsettled.freeze_eq, hsettled.ingress_eq]
    exact h.ingress
  cases hlast : value.lastPage with
  | false =>
    obtain ⟨hupdated, hcount⟩ := hsettled.between hlast
    refine ⟨hindex, hingress, ?_, ?_, ?_⟩
    . rw [hupdated]
      exact hreached
    . rw [hupdated, hcount]
      exact hcounted
    . rw [hupdated]
      exact hcomplete
  | true =>
    obtain ⟨hupdated, hcount, hall⟩ := hsettled.last hlast
    refine of_finished hindex hingress (hupdated.trans hepoch) hcount hreached ?_
    intro epoch hle
    rcases Nat.le_succ_iff.mp hle with hle | rfl
    . exact hcomplete epoch hle
    . apply settledIn_perm_listing hindex hsound
      rw [hsettled.toIndexKept.indexOf_eq, hcounted, hall, hepoch]

theorem sealed (h : ListingSound s log) (hsealed : NewlySealed s s') : ListingSound s' log := by
  have hindex := h.index
  have hingress := h.ingress
  rw [← hsealed.receipts_eq] at hindex hingress
  rw [← hsealed.freeze_eq] at hingress
  refine of_finished hindex hingress hsealed.updated_eq hsealed.next_eq h.reached ?_
  intro epoch hle
  rw [hsealed.receipts_eq]
  rcases Nat.le_succ_iff.mp hle with hle | rfl
  . exact h.complete epoch hle
  . -- neither listed nor settled
    have hcounted := h.counted
    have hlength := h.index.length_eq (s.applyState.updatedEpoch + 1)
    rw [hsealed.pending_eq, List.length_eq_zero_iff] at hcounted
    rw [hsealed.count_eq, List.length_eq_zero_iff] at hlength
    rw [Nat.succ_eq_add_one, hcounted, hlength]

end ListingSound

variable {events : List Consumption}

theorem ListingChange.listingSound (hchange : ListingChange s s' events) (h : ListingSound s log)
    (hready : s.applyState.Ready) (hsound : ReceiptsSound s'.receipts (log ++ events)) :
    ListingSound s' (log ++ events) := by
  cases hchange with
  | kept hindex hkept =>
    rw [List.append_nil]
    refine h.of_state hkept.state_eq (hindex.indexSound h.index) ?_ fun epoch _ => hindex.listing_eq epoch
    rw [hkept.freeze_eq, hkept.ingress_eq]
    exact h.ingress
  | listed epoch _ _ hlisted =>
    rw [List.append_nil]
    have hindex := hlisted.appended.indexSound h.index hlisted.head_eq hlisted.settlementEpoch_eq
    refine h.of_state hlisted.state_eq hindex ?_ ?_
    . rw [hlisted.freeze_eq, hlisted.ingress_eq]
      exact h.ingress
    . intro _ hle
      have hlt := ListingSound.finished_lt_of_open hready hlisted.open_ok hle
      exact hlisted.appended.other_listing hlt.ne
  | frozen epoch hfrozen =>
    rw [List.append_nil]
    have hkept := hfrozen.toIndexKept
    exact h.of_state hfrozen.state_eq (hkept.indexSound h.index) (h.frozen_ingress hfrozen)
      fun epoch _ => hkept.listing_eq epoch
  | settled _ _ hsettled => exact h.settled hsettled rfl hsound
  | sealed hsealed =>
    rw [List.append_nil]
    exact h.sealed hsealed

/-! Epochs that are not open any more -/

structure StableAt (receipts receipts' : Receipts) (epoch : Nat) : Prop where
  index_eq : receipts'.epochIndex.get epoch = receipts.epochIndex.get epoch
  page_eq : ∀ page, receipts'.epochPage.get (epoch, page) = receipts.epochPage.get (epoch, page)
  head_eq : ∀ attempt ∈ receipts.listing epoch, receipts'.head.get attempt = receipts.head.get attempt
  later : ∀ attempt other, attempt ∈ receipts'.listing other → attempt ∈ receipts.listing other ∨ epoch < other

namespace StableAt

variable {receipts receipts' receipts'' : Receipts} {epoch : Nat}

theorem refl (receipts : Receipts) (epoch : Nat) : StableAt receipts receipts epoch :=
  ⟨rfl, fun _ => rfl, fun _ _ => rfl, fun _ _ h => .inl h⟩

theorem trans (h : StableAt receipts receipts' epoch) (h' : StableAt receipts' receipts'' epoch) :
    StableAt receipts receipts'' epoch where
  index_eq := h'.index_eq.trans h.index_eq
  page_eq page := (h'.page_eq page).trans (h.page_eq page)
  head_eq attempt hmem := by
    rw [h'.head_eq attempt (Receipts.listing_congr h.index_eq h.page_eq ▸ hmem), h.head_eq attempt hmem]
  later attempt other hmem := by
    rcases h'.later attempt other hmem with hold | hlater
    . exact h.later attempt other hold
    . exact .inr hlater

theorem of_kept (h : IndexKept receipts receipts')
    (hheads : ∀ attempt ∈ receipts.listing epoch, receipts'.head.get attempt = receipts.head.get attempt) :
    StableAt receipts receipts' epoch where
  index_eq := by rw [h.index_eq]
  page_eq page := by rw [h.page_eq]
  head_eq := hheads
  later attempt other hmem := by
    rw [h.listing_eq] at hmem
    exact .inl hmem

end StableAt

theorem ReceiptsSound.head_eq_of_listed (h : ReceiptsSound receipts log)
    (hkept : HeadsKept receipts receipts') (hmem : attempt ∈ receipts.listing epoch) :
    receipts'.head.get attempt = receipts.head.get attempt := by
  obtain ⟨page, offset, hat⟩ := Receipts.exists_listedAt hmem
  obtain ⟨-, head, hhead, hready, -⟩ := h.listed attempt epoch page offset hat
  rw [hkept attempt head hhead hready, hhead]

theorem ListingChange.stableAt (hchange : ListingChange s s' events) (h : ListingSound s log)
    (hready : s.applyState.Ready) (hsound : ReceiptsSound s.receipts log)
    (hkept : HeadsKept s.receipts s'.receipts)
    (hshut : (s.epochs.freeze.get epoch).isSome = true ∨ ∃ c ∈ log, c.epoch = epoch) :
    StableAt s.receipts s'.receipts epoch := by
  have hheads : ∀ attempt ∈ s.receipts.listing epoch,
    s'.receipts.head.get attempt = s.receipts.head.get attempt :=
    fun attempt hmem => ReceiptsSound.head_eq_of_listed hsound hkept hmem
  cases hchange with
  | kept hindex => exact .of_kept hindex hheads
  | listed opened attempt head hlisted =>
    have hlt := h.lt_of_open hready hlisted.open_ok hshut
    constructor
    case index_eq => exact hlisted.appended.other_index epoch hlt.ne
    case page_eq => exact fun page => hlisted.appended.other_page epoch page hlt.ne
    case head_eq => exact hheads
    case later =>
      intro _ place hmem
      by_cases hsame : place = opened
      . exact .inr (hsame ▸ hlt)
      . rw [hlisted.appended.other_listing hsame] at hmem
        exact .inl hmem
  | frozen opened hfrozen => exact .of_kept hfrozen.toIndexKept hheads
  | settled _ _ hsettled => exact .of_kept hsettled.toIndexKept hheads
  | sealed hsealed =>
    rw [hsealed.receipts_eq]
    exact .refl _ _

theorem ListingChange.freeze_kept (hchange : ListingChange s s' events)
    (h : (s.epochs.freeze.get epoch).isSome = true) : (s'.epochs.freeze.get epoch).isSome = true := by
  cases hchange with
  | kept _ hkept => rw [hkept.freeze_eq]; exact h
  | listed opened _ _ hlisted => rw [hlisted.freeze_eq]; exact h
  | frozen opened hfrozen =>
    obtain ⟨freeze, hfreeze⟩ := hfrozen.freeze_eq
    rw [hfreeze]
    exact Table.isSome_get_put h
  | settled _ _ hsettled => rw [hsettled.freeze_eq]; exact h
  | sealed hsealed => rw [hsealed.freeze_eq]; exact h

/-! Settled amounts -/

def AmountsSound (receipts : Receipts) : Prop :=
  ∀ attempt record, receipts.consumed.get attempt = some record →
    ∃ head, receipts.head.get attempt = some head ∧ head.settlementReady = true ∧
      record.allocation.au = head.incrementalAu

theorem AmountsSound.of_kept (h : AmountsSound receipts) (hkept : HeadsKept receipts receipts')
    (hconsumed : receipts'.consumed = receipts.consumed) : AmountsSound receipts' := by
  intro attempt record hrecord
  rw [hconsumed] at hrecord
  obtain ⟨head, hhead, hready, hau⟩ := h attempt record hrecord
  exact ⟨head, hkept attempt head hhead hready, hready, hau⟩

theorem ListingChange.amountsSound (hchange : ListingChange s s' events) (h : AmountsSound s.receipts)
    (hkept : HeadsKept s.receipts s'.receipts) : AmountsSound s'.receipts := by
  cases hchange with
  | kept _ _ hconsumed => exact h.of_kept hkept hconsumed
  | listed epoch attempt head hlisted => exact h.of_kept hkept hlisted.consumed_eq
  | frozen epoch hfrozen => exact h.of_kept hkept hfrozen.consumed_eq
  | settled _ _ hsettled =>
    intro attempt record hrecord
    rw [hsettled.consumed_eq] at hrecord
    rcases Table.get_putAll_cases s.receipts.consumed _ attempt with heq | ⟨_, hmem, heq⟩
    . rw [heq] at hrecord
      obtain ⟨head, hhead, hready, hau⟩ := h attempt record hrecord
      exact ⟨head, hkept _ _ hhead hready, hready, hau⟩
    . rw [heq] at hrecord
      obtain ⟨a, ha, hentry⟩ := List.mem_map.mp hmem
      obtain ⟨rfl, rfl⟩ := Prod.mk.inj hentry
      obtain rfl := Option.some.inj hrecord
      obtain ⟨head, hhead, hready, hau⟩ := hsettled.heads a ha
      exact ⟨head, hkept _ _ hhead hready, hready, hau.symm⟩
  | sealed hsealed =>
    rw [hsealed.receipts_eq]
    exact h

/-! Runs -/

inductive ListingStep (crypto : Crypto) : Ledger × List Consumption → Ledger × List Consumption → Prop
  | op (s : Ledger) (log : List Consumption) (op : HoldOp) :
      ListingStep crypto (s, log) (op.run crypto s, log ++ op.consumptions crypto s)
  | freeze (s : Ledger) (log : List Consumption) (sender : PublicKey) (epoch time : Nat) :
      ListingStep crypto (s, log) ((s.epochFreeze crypto sender epoch time).1, log)
  | emptySeal (s : Ledger) (log : List Consumption) (sender : PublicKey) (tx : Digest) (epoch time : Nat)
      (reasonHash : Digest) :
      ListingStep crypto (s, log) ((s.epochSealEmpty crypto sender tx epoch time reasonHash).1, log)
  | other (s s' : Ledger) (log : List Consumption) (hholds : s'.holds = s.holds)
      (hreceipts : s'.receipts = s.receipts) (hfreeze : s'.epochs.freeze = s.epochs.freeze)
      (hkept : ChainKept s s') : ListingStep crypto (s, log) (s', log)

def ListingRun (crypto : Crypto) : Ledger × List Consumption → Ledger × List Consumption → Prop :=
  Relation.ReflTransGen (ListingStep crypto)

structure ListingInv (crypto : Crypto) (s : Ledger) (log : List Consumption) : Prop where
  settlement : SettlementInv crypto s log
  chain : ChainReady s
  listing : ListingSound s log
  amounts : AmountsSound s.receipts

section

variable (hstep : ListingStep crypto (s, log) (s', log'))
include hstep

theorem ListingStep.settlementStep : SettlementStep crypto (s, log) (s', log') := by
  cases hstep with
  | op _ _ op => exact .op s log op
  | freeze _ _ sender epoch time => exact .freeze s log sender epoch time
  | emptySeal _ _ sender tx epoch time reasonHash =>
    obtain ⟨hholds, hreceipts⟩ := epochSealEmpty_holds crypto s sender tx epoch time reasonHash
    exact .other _ _ _ hholds hreceipts
  | other _ _ _ hholds hreceipts => exact .other _ _ _ hholds hreceipts

theorem ListingStep.chainReady (h : ChainReady s) : ChainReady s' := by
  have hready : ∀ {events}, ChainStep crypto (s, []) (s', events) → ChainReady s' := by
    intro events hchain
    obtain ⟨_, -, hchained⟩ := hchain.chained h
    exact hchained.ready
  cases hstep with
  | op _ _ op =>
    cases op with
    | reserve key value => exact hready (.other _ _ _ (.reserve crypto s key value))
    | record key value => exact hready (.other _ _ _ (.record crypto s key value))
    | close key value expiry => exact hready (.other _ _ _ (.close crypto s key value expiry))
    | page sender key value => exact hready (.page _ _ sender key value)
    | pageZero sender key value => exact hready (.pageZero _ _ sender key value)
  | freeze _ _ sender epoch time => exact hready (.other _ _ _ (.freeze crypto s sender epoch time))
  | emptySeal _ _ sender tx epoch time reasonHash =>
    exact hready (.emptySeal _ _ sender tx epoch time reasonHash)
  | other _ _ _ _ _ _ hkept => exact hready (.other _ _ _ hkept)

theorem ListingStep.listingChange
    (h : ListingInv crypto s log) : ∃ events, log' = log ++ events ∧ ListingChange s s' events := by
  cases hstep with
  | op _ _ op =>
    obtain ⟨_, hrun⟩ := h.settlement.holds
    exact ⟨_, rfl, (op.effect hrun.holdsMatch.noLegacy).listingChange h.chain⟩
  | freeze _ _ sender epoch time =>
    exact ⟨[], (List.append_nil _).symm, epochFreeze_listingChange crypto s sender epoch time⟩
  | emptySeal _ _ sender tx epoch time reasonHash =>
    exact ⟨[], (List.append_nil _).symm, epochSealEmpty_listingChange crypto s sender tx epoch time reasonHash⟩
  | other _ _ _ _ hreceipts hfreeze hkept =>
    refine ⟨[], (List.append_nil _).symm, .kept _ ?_ ⟨hfreeze, ?_, hkept.state_eq⟩ ?_⟩
    . rw [hreceipts]
      exact .of_eq rfl rfl rfl
    . rw [hreceipts]
    . rw [hreceipts]

theorem ListingStep.inv (h : ListingInv crypto s log) : ListingInv crypto s' log' := by
  obtain ⟨_, rfl, hchange⟩ := hstep.listingChange h
  obtain ⟨hkept, hsettlement⟩ := hstep.settlementStep.inv h.settlement
  exact {
    settlement := hsettlement
    chain := hstep.chainReady h.chain
    listing := hchange.listingSound h.listing h.chain.ready hsettlement.receipts
    amounts := hchange.amountsSound h.amounts hkept }

end

theorem ListingRun.inv (hrun : ListingRun crypto (Ledger.empty, []) (s, log)) : ListingInv crypto s log := by
  refine Run.invariant_log (ListingInv crypto) ?_ ?_ hrun
  . exact ⟨⟨⟨[], .start⟩, ReceiptsSound.empty⟩, ChainInv.empty.ready, ListingSound.empty, by rintro _ _ ⟨⟩⟩
  . intro _ _ _ _ hinv hstep
    exact hstep.inv hinv

theorem ListingRun.stableAt (h : ListingInv crypto s log)
    (hshut : (s.epochs.freeze.get epoch).isSome = true ∨ ∃ c ∈ log, c.epoch = epoch)
    (hrun : ListingRun crypto (s, log) (s', log')) : StableAt s.receipts s'.receipts epoch := by
  have hlast := Run.invariant_log (fun t seen => ListingInv crypto t seen ∧
    ((t.epochs.freeze.get epoch).isSome = true ∨ ∃ c ∈ seen, c.epoch = epoch) ∧
      StableAt s.receipts t.receipts epoch) ⟨h, hshut, .refl _ _⟩ ?_ hrun
  . exact hlast.2.2
  . rintro t seen _ _ ⟨hinv, hshut, hstable⟩ hstep
    obtain ⟨_, rfl, hchange⟩ := hstep.listingChange hinv
    obtain ⟨hkept, -⟩ := hstep.settlementStep.inv hinv.settlement
    refine ⟨hstep.inv hinv, ?_, hstable.trans (hchange.stableAt hinv.listing hinv.chain.ready
      hinv.settlement.receipts hkept hshut)⟩
    rcases hshut with hfrozen | ⟨c, hc, hepoch⟩
    . exact .inl (hchange.freeze_kept hfrozen)
    . exact .inr ⟨c, List.mem_append_left _ hc, hepoch⟩

/-! Last pages -/

def HoldOp.lastPage : HoldOp → Bool
  | .page _ _ value => value.lastPage
  | .pageZero _ _ value => value.lastPage
  | _ => false

theorem PageOutcome.finished {sender : PublicKey} {key : Digest} {value : TargetedEpochValue}
    {transition : Option CommitTransition} {outcome : Outcome ApplyResult} {result : ApplyResult}
    (houtcome : PageOutcome crypto s sender key value transition outcome)
    (hresult : outcome.2 = .ok result) (hlast : value.lastPage = true) :
    outcome.1.applyState.updatedEpoch = value.epoch := by
  cases houtcome with
  | replayed feature hfeature _ hplan =>
    have hposition := replay_of_plan hplan
    simp only [isEpochApplyPagePositionReplay, hlast, if_true, Bool.and_eq_true, decide_eq_true_eq] at hposition
    exact hposition.2.1
  | rejected | stopped => cases hresult
  | settled feature _ _ hfeature hplan =>
    exact ((newlySettled_of_plan hfeature hplan).last hlast).1

theorem HoldOp.finished (op : HoldOp) {answer : PageAnswer} {result : ApplyResult}
    (hanswer : op.pageAnswer crypto s = some answer) (hresult : answer.answer = .ok result)
    (hlast : op.lastPage = true) : (op.run crypto s).applyState.updatedEpoch = answer.epoch := by
  cases op with
  | reserve | record | close => cases hanswer
  | page sender key value =>
    obtain rfl := Option.some.inj hanswer
    obtain ⟨_, houtcome⟩ := page_outcome crypto s sender key value
    exact houtcome.finished hresult hlast
  | pageZero sender key value =>
    obtain rfl := Option.some.inj hanswer
    obtain ⟨_, _, houtcome⟩ := pageZero_outcome crypto s sender key value
    exact houtcome.finished hresult hlast

/--
The index of an epoch that is frozen or being settled stays as it is. When the last page of an epoch is accepted,
its pages have settled exactly what it lists, each receipt for its recorded amount.
-/
theorem shut_epochs_stable_and_complete (hrun : ListingRun crypto (Ledger.empty, []) (s, log)) :
    (∀ epoch, ((s.epochs.freeze.get epoch).isSome = true ∨ ∃ c ∈ log, c.epoch = epoch) →
      ∀ s' log', ListingRun crypto (s, log) (s', log') →
        s'.receipts.epochIndex.get epoch = s.receipts.epochIndex.get epoch ∧
        (∀ page, s'.receipts.epochPage.get (epoch, page) = s.receipts.epochPage.get (epoch, page)) ∧
        (∀ attempt ∈ s.receipts.listing epoch, s'.receipts.head.get attempt = s.receipts.head.get attempt) ∧
        ∀ attempt other, attempt ∈ s'.receipts.listing other → attempt ∉ s.receipts.listing other →
          epoch < other) ∧
    ∀ (op : HoldOp) (answer : PageAnswer) (result : ApplyResult),
      op.pageAnswer crypto s = some answer → answer.answer = .ok result → op.lastPage = true →
        (settledIn (log ++ op.consumptions crypto s) answer.epoch).Perm
          ((op.run crypto s).receipts.listing answer.epoch) ∧
        ((op.run crypto s).receipts.listing answer.epoch).Nodup ∧
        ∀ attempt ∈ (op.run crypto s).receipts.listing answer.epoch, ∃ head record,
          (op.run crypto s).receipts.head.get attempt = some head ∧
          (op.run crypto s).receipts.consumed.get attempt = some record ∧
          record.epoch = answer.epoch ∧ record.allocation.au = head.incrementalAu := by
  have hinv := hrun.inv
  refine ⟨?_, ?_⟩
  . intro epoch hshut s' log' hnext
    have hstable := hnext.stableAt hinv hshut
    refine ⟨hstable.index_eq, hstable.page_eq, hstable.head_eq, ?_⟩
    intro attempt other hmem hnot
    exact (hstable.later attempt other hmem).resolve_left hnot
  . intro op answer result hanswer hresult hlast
    have hafter := ListingStep.inv (.op s log op) hinv
    have hsound := hafter.settlement.receipts
    have hperm := hafter.listing.complete answer.epoch (op.finished hanswer hresult hlast).ge
    have hnodup : (settledIn (log ++ op.consumptions crypto s) answer.epoch).Nodup :=
      hsound.nodup.sublist (List.filter_sublist.map Consumption.attempt)
    refine ⟨hperm, hperm.nodup_iff.mp hnodup, ?_⟩
    intro attempt hmem
    obtain ⟨c, hc, rfl⟩ := List.mem_map.mp (hperm.mem_iff.mpr hmem)
    rw [List.mem_filter, decide_eq_true_eq] at hc
    obtain ⟨⟨_, _, hrecord⟩, -⟩ := hsound.consumed c hc.1
    obtain ⟨head, hhead, -, hau⟩ := hafter.amounts c.attempt _ hrecord
    exact ⟨head, _, hhead, hrecord, hc.2, hau⟩

theorem talkFrozen_listingRun : ListingRun plainHost (Ledger.empty, []) (talkFrozen, []) := by
  have hledger : ListingRun plainHost (Ledger.empty, []) (talkLedger, []) :=
    .single (.other _ _ _ rfl rfl rfl ⟨rfl, rfl, rfl⟩)
  have hreserved : ListingRun plainHost (Ledger.empty, []) (talkReserved, []) :=
    hledger.tail (.op talkLedger [] (.reserve 300 (talkReserve 0 500)))
  have hrecorded : ListingRun plainHost (Ledger.empty, []) (talkRecorded, []) :=
    hreserved.tail (.op talkReserved [] (.record 1 (talkReceipt 0 4)))
  exact hrecorded.tail (.freeze talkRecorded [] 10 1 3600)

/--
The frozen epoch of the talk, and the page that settles what it lists.
-/
theorem shut_epochs_stable_and_complete_talk :
    ∃ s log, ∃ op : HoldOp, ListingRun plainHost (Ledger.empty, []) (s, log) ∧
      (s.epochs.freeze.get 1).isSome = true ∧ s.receipts.listing 1 = [(200, 0)] ∧ op.lastPage = true ∧
      (settledIn (log ++ op.consumptions plainHost s) 1).Perm
        ((op.run plainHost s).receipts.listing 1) ∧
      ∀ s' log', ListingRun plainHost (s, log) (s', log') →
        s'.receipts.epochIndex.get 1 = s.receipts.epochIndex.get 1 ∧
        s'.receipts.head.get (200, 0) = s.receipts.head.get (200, 0) := by
  have hfacts : (talkFrozen.epochs.freeze.get 1).isSome = true ∧ talkFrozen.receipts.listing 1 = [(200, 0)] ∧
      (talkFrozen.applyCommitTargetedEpochPageZeroFeature plainHost 10 1 talkPageZero).2.message = none := by
    decide +kernel
  obtain ⟨hfrozen, hlisting, haccepted⟩ := hfacts
  obtain ⟨result, hresult⟩ := Except.message_eq_none_iff.mp haccepted
  have hrun := talkFrozen_listingRun
  generalize talkFrozen = s at *
  obtain ⟨hstable, hcomplete⟩ := shut_epochs_stable_and_complete hrun
  obtain ⟨hperm, -⟩ := hcomplete (.pageZero 10 1 talkPageZero) _ result rfl hresult rfl
  refine ⟨s, [], .pageZero 10 1 talkPageZero, hrun, hfrozen, hlisting, rfl, hperm, ?_⟩
  intro s' log' hnext
  obtain ⟨hindex, -, hheads, -⟩ := hstable 1 (.inl hfrozen) s' log' hnext
  exact ⟨hindex, hheads _ (hlisting ▸ List.mem_singleton_self _)⟩

end Ledger

end Mayhem
