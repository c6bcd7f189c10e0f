import Mayhem.Partition

namespace Mayhem

theorem putActivityRow_keys (index : List (MarketKey × MarketRow)) (key : MarketKey)
    (row : MarketRow) : (putActivityRow index key row).map Prod.fst =
      if key ∈ index.map Prod.fst then index.map Prod.fst else index.map Prod.fst ++ [key] := by
  unfold putActivityRow
  split
  . rw [List.map_map]
    apply List.map_congr_left
    intro _ _
    dsimp only [Function.comp_apply]
    split
    . next heq => exact heq.symm
    . rfl
  . rw [List.map_append]
    rfl

section

variable {α : Type} {key : α → MarketKey} {row : α → MarketRow}

theorem nodup_putActivityRows {index : List (MarketKey × MarketRow)}
    (hnodup : (index.map Prod.fst).Nodup) (entries : List α) :
    ((entries.foldl (fun index a => putActivityRow index (key a) (row a)) index).map
      Prod.fst).Nodup := by
  induction entries generalizing index with
  | nil => exact hnodup
  | cons a entries ih =>
    apply ih
    rw [putActivityRow_keys]
    split
    . exact hnodup
    . next hnew => exact List.nodup_append_comm.mp (List.nodup_cons.mpr ⟨hnew, hnodup⟩)

theorem mem_putActivityRows (index : List (MarketKey × MarketRow)) (entries : List α)
    (k : MarketKey) :
    k ∈ (entries.foldl (fun index a => putActivityRow index (key a) (row a)) index).map Prod.fst ↔
      k ∈ index.map Prod.fst ∨ k ∈ entries.map key := by
  induction entries generalizing index with
  | nil => simp
  | cons a entries ih =>
    have hhead : k ∈ (putActivityRow index (key a) (row a)).map Prod.fst ↔
        k ∈ index.map Prod.fst ∨ k = key a := by
      rw [putActivityRow_keys]
      split
      . next hold =>
        constructor
        . exact .inl
        . rintro (hmem | rfl)
          . exact hmem
          . exact hold
      . rw [List.mem_append, List.mem_singleton]
    rw [List.foldl_cons, ih, hhead, List.map_cons, List.mem_cons, or_assoc]

end

namespace Market

variable {market market' : Market} {updates : List PriceUpdate}

def activeMarkets (market : Market) : List MarketKey :=
  (market.activityIndex.map MarketRow.key).dedup

def knownActivity (market : Market) : List (MarketKey × MarketRow) :=
  market.activityIndex.foldl (fun index row => putActivityRow index row.key row) []

theorem nodup_knownActivity (market : Market) : (market.knownActivity.map Prod.fst).Nodup := by
  apply nodup_putActivityRows
  exact List.nodup_nil

theorem mem_knownActivity (market : Market) (k : MarketKey) :
    k ∈ market.knownActivity.map Prod.fst ↔ k ∈ market.activityIndex.map MarketRow.key := by
  rw [knownActivity, mem_putActivityRows]
  simp

theorem length_knownActivity (market : Market) :
    market.knownActivity.length = market.activeMarkets.length := by
  have hperm : (market.knownActivity.map Prod.fst).Perm market.activeMarkets := by
    apply (List.perm_ext_iff_of_nodup market.nodup_knownActivity (List.nodup_dedup _)).mpr
    intro _
    rw [mem_knownActivity]
    exact List.mem_dedup.symm
  rw [← hperm.length_eq, List.length_map]

theorem writeActivityMarketIndex_accepts {visited : List MarketKey}
    (hknown : ∀ k ∈ market.activityIndex.map MarketRow.key, k ∈ visited)
    (hupdates : ∀ update ∈ updates, update.marketKey ∈ visited)
    (hbound : visited.length ≤ defaultMaxMarketUsageEntries) :
    ∃ market', market.writeActivityMarketIndex updates = .ok market' := by
  have hlength : ∀ seen ⊆ updates, (seen.foldl
      (fun index update => putActivityRow index update.marketKey update.row)
      market.knownActivity).length ≤ defaultMaxMarketUsageEntries := by
    intro seen hseen
    refine le_trans ?_ hbound
    rw [← List.length_map Prod.fst]
    refine ((nodup_putActivityRows market.nodup_knownActivity seen).subperm ?_).length_le
    intro k hk
    rw [mem_putActivityRows, mem_knownActivity] at hk
    rcases hk with hk | hk
    . exact hknown k hk
    . obtain ⟨update, hupdate, rfl⟩ := List.mem_map.mp hk
      exact hupdates update (hseen hupdate)
  unfold writeActivityMarketIndex
  dsimp only
  rw [rejectIf_of_not, Except.bind_of_ok]
  . split
    . exact ⟨_, rfl⟩
    . exact ⟨_, rfl⟩
  . exact Nat.not_lt.mpr (hlength _ (List.filter_subset_self _))

theorem writeActivityMarketIndex_nil
    (hcrowded : defaultMaxMarketUsageEntries < market.activeMarkets.length) :
    market.writeActivityMarketIndex [] = .error "Market activity index overflow." := by
  rw [← length_knownActivity] at hcrowded
  have hreject : rejectIf (market.knownActivity.length > defaultMaxMarketUsageEntries)
      "Market activity index overflow." = .error "Market activity index overflow." :=
        if_pos hcrowded
  unfold writeActivityMarketIndex
  change (rejectIf (market.knownActivity.length > defaultMaxMarketUsageEntries) _ >>= _) = _
  rw [hreject, Except.bind_of_error]

theorem activeMarkets_of_write (h : market.writeActivityMarketIndex updates = .ok market')
    (hbound : market.activeMarkets.length ≤ defaultMaxMarketUsageEntries) :
    market'.activeMarkets.length ≤ defaultMaxMarketUsageEntries := by
  simp only [writeActivityMarketIndex, checks_iff, Nat.not_lt] at h
  obtain ⟨hlength, h⟩ := h
  split at h
  . obtain rfl := (Except.pure_accepts_iff ..).mp h
    exact hbound
  . obtain rfl := (Except.pure_accepts_iff ..).mp h
    refine (List.dedup_sublist _).length_le.trans ?_
    rw [List.length_map, List.length_insertionSort, List.length_map]
    exact hlength

theorem writePriceUpdates_activityIndex (market : Market) (updates : List PriceUpdate) :
    (market.writePriceUpdates updates).activityIndex = market.activityIndex := by
  induction updates generalizing market with
  | nil => rfl
  | cons _ updates ih => exact ih _

end Market

theorem computeMarketPriceUpdates_visited {crypto : Crypto} {reg : Registry} {market : Market}
    {ctx : MarketContext} {usage : List MarketUsage} {updates : List PriceUpdate}
    (h : computeMarketPriceUpdates crypto reg market ctx usage = .ok updates) :
    ∃ visited : List MarketKey, visited.length ≤ defaultMaxMarketUsageEntries ∧
      (∀ k ∈ market.activityIndex.map MarketRow.key, k ∈ visited) ∧
      ∀ update ∈ updates, update.marketKey ∈ visited := by
  simp only [computeMarketPriceUpdates, activityMarketEntries, checks_iff, Nat.not_lt] at h
  obtain ⟨-, _, ⟨-, hbound, rfl⟩, _, hfound, rfl⟩ := h
  refine ⟨_, hbound, fun k hk => List.mem_eraseDups.mpr (List.mem_append_right _ hk), ?_⟩
  intro update hupdate
  obtain ⟨_, hentry, hok⟩ := Except.exists_of_mem_mapM_result hfound
    (List.reduceOption_mem_iff.mp hupdate)
  rw [(marketPriceUpdate_eq_some hok).marketKey_eq, List.mem_eraseDups, List.mem_append]
  rw [List.mem_insertionSort, List.mem_append, List.mem_map, List.mem_map] at hentry
  rcases hentry with ⟨row, hrow, rfl⟩ | ⟨row, hrow, rfl⟩
  . rw [mapMarketUsageEntriesForHash, List.mem_insertionSort] at hrow
    exact .inl (List.mem_map_of_mem hrow)
  . refine .inr (List.mem_map_of_mem ?_)
    split at hrow
    . exact List.mem_of_mem_filter hrow
    . cases hrow

namespace Ledger

variable {crypto : Crypto} {s : Ledger}

variable {sender : PublicKey} {key : Digest} {value : TargetedEpochValue}

theorem marketIndex_of_newPage {options : ApplyOptions} {plan : ApplyPlan}
    (page : NewPage crypto s sender key value options plan)
    (hbound : value.marketUsage = none →
      s.market.activeMarkets.length ≤ defaultMaxMarketUsageEntries) :
    ∃ market, (s.writeApply plan).market.writeActivityMarketIndex plan.priceUpdates =
      .ok market := by
  have hmarket := page.market_ok
  unfold prepareMarket at hmarket
  dsimp only at hmarket
  split at hmarket
  . simp only [checks_iff, Prod.mk.injEq] at hmarket
    obtain ⟨_, hupdates, rfl, -⟩ := hmarket
    obtain ⟨_, hlength, hknown, hvisited⟩ := computeMarketPriceUpdates_visited hupdates
    exact Market.writeActivityMarketIndex_accepts hknown hvisited hlength
  . next hnone =>
    simp only [pure_bind, checks_iff, Prod.mk.injEq] at hmarket
    rw [← hmarket.1]
    -- without usage there are no prices, and the index is measured as it was stored
    refine Market.writeActivityMarketIndex_accepts ?_ ?_
      (hbound (Option.not_isSome_iff_eq_none.mp hnone))
    . exact fun k hk => List.mem_dedup.mpr hk
    . exact fun update hupdate => absurd hupdate List.not_mem_nil

variable {message : String}

theorem PageOutcome.unchanged_of_error {transition : Option CommitTransition}
    {outcome : Outcome ApplyResult}
    (houtcome : PageOutcome crypto s sender key value transition outcome)
    (hbound : value.marketUsage = none →
      s.market.activeMarkets.length ≤ defaultMaxMarketUsageEntries)
    (herror : outcome.2 = .error message) : outcome.1 = s := by
  cases houtcome with
  | rejected message => rfl
  | stopped _ _ message _ hplan hmarket =>
    obtain ⟨page⟩ := newPage_of_plan hplan
    obtain ⟨market, hok⟩ := marketIndex_of_newPage page hbound
    rw [hok] at hmarket
    cases hmarket
  | replayed | settled => cases herror

theorem PageOutcome.activeMarkets_le {transition : Option CommitTransition}
    {outcome : Outcome ApplyResult}
    (houtcome : PageOutcome crypto s sender key value transition outcome)
    (hbound : s.market.activeMarkets.length ≤ defaultMaxMarketUsageEntries) :
    outcome.1.market.activeMarkets.length ≤ defaultMaxMarketUsageEntries := by
  cases houtcome with
  | rejected | replayed | stopped => exact hbound
  | settled _ plan market _ _ hmarket =>
    have hwritten := Market.activeMarkets_of_write hmarket hbound
    dsimp only [Market.activeMarkets] at hwritten ⊢
    change ((market.writePriceUpdates plan.priceUpdates).activityIndex.map _).dedup.length ≤ _
    rw [Market.writePriceUpdates_activityIndex]
    exact hwritten

def HoldOp.rejection (crypto : Crypto) (s : Ledger) : HoldOp → Option String
  | .reserve key value => (s.applyTargetedSpendReserveFeature crypto key value).2.message
  | .record key value => (s.applyRecordUsageReceiptFeature crypto key value).2.message
  | .close key value expiry =>
    (s.applyCloseUsageReservationFeature crypto key value expiry).2.message
  | .page sender key value => (s.applyTargetedEpochFeature crypto sender key value).2.message
  | .pageZero sender key value =>
    (s.applyCommitTargetedEpochPageZeroFeature crypto sender key value).2.message

def HoldOp.BringsNoUsage : HoldOp → Prop
  | .page _ _ value => value.marketUsage = none
  | .pageZero _ _ value => value.marketUsage = none
  | _ => False

theorem reserve_unchanged_of_error {value : SpendReserveValue}
    (h : (s.applyTargetedSpendReserveFeature crypto key value).2 = .error message) :
    (s.applyTargetedSpendReserveFeature crypto key value).1 = s := by
  unfold applyTargetedSpendReserveFeature at h ⊢
  split
  . rfl
  . rfl
  . next _ hprepare =>
    -- the answer is computed after the writes, but cannot fail any more
    obtain ⟨_, hresult, -⟩ := prepareReserve_result hprepare
    rw [hprepare] at h
    exact absurd (hresult.symm.trans h) (by simp)

theorem record_unchanged_of_error {value : RecordReceiptValue}
    (h : (s.applyRecordUsageReceiptFeature crypto key value).2 = .error message) :
    (s.applyRecordUsageReceiptFeature crypto key value).1 = s := by
  unfold applyRecordUsageReceiptFeature at h ⊢
  split
  . rfl
  . next _ _ hprepare =>
    rw [hprepare] at h
    cases h

theorem close_unchanged_of_error {value : CloseReservationValue} {expiry : Bool}
    (h : (s.applyCloseUsageReservationFeature crypto key value expiry).2 = .error message) :
    (s.applyCloseUsageReservationFeature crypto key value expiry).1 = s := by
  unfold applyCloseUsageReservationFeature at h ⊢
  split
  . rfl
  . rfl
  . next _ _ _ hprepare =>
    rw [hprepare] at h
    cases h

/--
A rejected operation leaves the ledger as it is, a page without market usage if the index of active
markets was within its bound. Every operation keeps the index within it.
-/
theorem rejected_op_unchanged (op : HoldOp)
    (hbound : op.BringsNoUsage → s.market.activeMarkets.length ≤ defaultMaxMarketUsageEntries) :
    (∀ message, op.rejection crypto s = some message → op.run crypto s = s) ∧
      (s.market.activeMarkets.length ≤ defaultMaxMarketUsageEntries →
        (op.run crypto s).market.activeMarkets.length ≤ defaultMaxMarketUsageEntries) := by
  cases op with
  | reserve key value =>
    refine ⟨fun message h => reserve_unchanged_of_error (Except.message_eq_some_iff.mp h),
      fun hwithin => ?_⟩
    dsimp only [HoldOp.run, applyTargetedSpendReserveFeature]
    split <;> exact hwithin
  | record key value =>
    refine ⟨fun message h => record_unchanged_of_error (Except.message_eq_some_iff.mp h),
      fun hwithin => ?_⟩
    dsimp only [HoldOp.run, applyRecordUsageReceiptFeature]
    split
    . exact hwithin
    . next plan _ _ =>
      cases plan with
      | repeated | advance | final => exact hwithin
  | close key value =>
    refine ⟨fun message h => close_unchanged_of_error (Except.message_eq_some_iff.mp h),
      fun hwithin => ?_⟩
    dsimp only [HoldOp.run, applyCloseUsageReservationFeature]
    split <;> exact hwithin
  | page sender key value =>
    dsimp only [HoldOp.run, HoldOp.rejection]
    obtain ⟨_, houtcome⟩ := page_outcome crypto s sender key value
    refine ⟨fun message h => ?_, houtcome.activeMarkets_le⟩
    exact houtcome.unchanged_of_error hbound (Except.message_eq_some_iff.mp h)
  | pageZero sender key value =>
    dsimp only [HoldOp.run, HoldOp.rejection]
    obtain ⟨_, _, houtcome⟩ := pageZero_outcome crypto s sender key value
    refine ⟨fun message h => ?_, houtcome.activeMarkets_le⟩
    exact houtcome.unchanged_of_error hbound (Except.message_eq_some_iff.mp h)

/--
A reservation beyond the balance.
-/
theorem rejected_op_unchanged_talk :
    talkLedger.market.activeMarkets.length ≤ defaultMaxMarketUsageEntries ∧
      (HoldOp.reserve 300 (talkReserve 0 5000)).rejection plainHost talkLedger =
        some "Insufficient unreserved credit balance." ∧
      (HoldOp.reserve 300 (talkReserve 0 5000)).run plainHost talkLedger = talkLedger := by
  have hbound : talkLedger.market.activeMarkets.length ≤ defaultMaxMarketUsageEntries := by decide
  have hrejected : (HoldOp.reserve 300 (talkReserve 0 5000)).rejection plainHost talkLedger =
      some "Insufficient unreserved credit balance." := by decide +kernel
  exact ⟨hbound, hrejected, (rejected_op_unchanged _ fun _ => hbound).1 _ hrejected⟩

theorem applyTargetedEpochFeature_crowded {feature : FeaturePlan} {plan : ApplyPlan}
    (hnormalized : normalizeTargetedEpochFeatureValue value = .ok value)
    (hkey : crypto.targetedEpochFeatureKey value = key)
    (hfeature : s.prepareFeature key value none = .ok feature)
    (hplan : s.prepareApply crypto sender key value feature.options = .ok (some plan))
    (hupdates : plan.priceUpdates = [])
    (hcrowded : defaultMaxMarketUsageEntries < s.market.activeMarkets.length) :
    s.applyTargetedEpochFeature crypto sender key value =
      (s.writeApply plan, .error "Market activity index overflow.") := by
  have hindex : (s.writeApply plan).market.writeActivityMarketIndex [] =
      .error "Market activity index overflow." := Market.writeActivityMarketIndex_nil hcrowded
  simp [applyTargetedEpochFeature, hnormalized, hkey, applyNormalizedEpoch, hfeature,
    targetedEpochApply, hplan,
    hupdates, hindex]

def withActivityIndex (s : Ledger) (rows : List MarketRow) : Ledger :=
  { s with market := { s.market with activityIndex := rows } }

theorem withActivityIndex_activeMarkets (s : Ledger) (rows : List MarketRow) :
    (s.withActivityIndex rows).market.activeMarkets = (rows.map MarketRow.key).dedup := rfl

def crowdedRows : List MarketRow := (List.range 5001).map fun n => ⟨n, none, none⟩

def crowdedLedger : Ledger := pairCommitted.withActivityIndex crowdedRows

def crowdedPage : TargetedEpochValue := pairPage 0 4 false [talkAllocation 0 4] none none

theorem crowdedLedger_activeMarkets :
    defaultMaxMarketUsageEntries < crowdedLedger.market.activeMarkets.length := by
  have hkeys : crowdedRows.map MarketRow.key = (List.range 5001).map fun n => (n, none) := by
    rw [crowdedRows, List.map_map]
    rfl
  have hnodup : (crowdedRows.map MarketRow.key).Nodup := by
    rw [hkeys]
    exact List.nodup_range.map fun m n heq => congrArg Prod.fst heq
  have hlength : (crowdedRows.map MarketRow.key).dedup.length = 5001 := by
    rw [hnodup.dedup, hkeys, List.length_map, List.length_range]
  rw [crowdedLedger, withActivityIndex_activeMarkets, hlength]
  exact Nat.lt_succ_self 5000

/--
The page is rejected after its money has been written.
-/
theorem rejected_page_debits_user :
    (HoldOp.page 10 0 crowdedPage).rejection pairHost crowdedLedger =
        some "Market activity index overflow." ∧
      crowdedLedger.balanceAu 20 .tnk = 1000 ∧
      ((HoldOp.page 10 0 crowdedPage).run pairHost crowdedLedger).balanceAu 20 .tnk = 996 := by
  have hfacts : ((crowdedLedger.prepareFeature 0 crowdedPage none).toOption.any fun feature =>
      (crowdedLedger.prepareApply pairHost 10 0 crowdedPage feature.options).toOption.join.any
        fun plan => plan.priceUpdates.isEmpty &&
          (crowdedLedger.writeApply plan).balanceAu 20 .tnk == 996) = true ∧
      crowdedLedger.balanceAu 20 .tnk = 1000 := by decide +kernel
  have hnormalized : normalizeTargetedEpochFeatureValue crowdedPage = .ok crowdedPage := rfl
  have hkey : pairHost.targetedEpochFeatureKey crowdedPage = 0 := rfl
  have hcrowded := crowdedLedger_activeMarkets
  generalize crowdedLedger = s, crowdedPage = value, pairHost = crypto at *
  obtain ⟨hfacts, hbefore⟩ := hfacts
  cases hfeature : s.prepareFeature 0 value none with
  | error => simp [hfeature, Except.toOption] at hfacts
  | ok feature =>
    rcases hplan : s.prepareApply crypto 10 0 value feature.options with _ | _ | plan
    . simp [hfeature, hplan, Except.toOption] at hfacts
    . simp [hfeature, hplan, Except.toOption] at hfacts
    . simp only [hfeature, hplan, Except.toOption, Option.any_some, Option.join_some,
        Bool.and_eq_true,
        List.isEmpty_iff, beq_iff_eq] at hfacts
      have hrun := applyTargetedEpochFeature_crowded hnormalized hkey hfeature hplan
        hfacts.1 hcrowded
      refine ⟨?_, hbefore, ?_⟩
      . rw [HoldOp.rejection, hrun]
        rfl
      . rw [HoldOp.run, hrun]
        exact hfacts.2

end Ledger

end Mayhem
