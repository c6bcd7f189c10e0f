import Mayhem.Usage
import Mayhem.Settlement.Money

namespace Mayhem

def ReceiptBody.marketKey (body : ReceiptBody) : MarketKey := (body.enclaveId, body.ctxBracket)

def ReceiptBody.settledUnits (body : ReceiptBody) (key : MarketKey) (unit : String) : Nat :=
  if body.marketKey = key then readAu (fun counts => counts.get unit) (incrementalSettledUsage body)
  else 0

def MarketTally.units (unit : String) (tally : MarketTally) : MarketKey × Nat :=
  (tally.row.key, tally.settledUsage.get unit)

variable {body : ReceiptBody} {a : Allocation}

theorem addAllocation_eq_ok {tally next : MarketTally} (h : tally.addAllocation body a = .ok next) :
    next.row = tally.row ∧ next.settledUsage.Canonical ∧ ∀ unit,
      next.settledUsage.get unit = tally.settledUsage.get unit +
        readAu (fun counts => counts.get unit) (incrementalSettledUsage body) := by
  simp only [MarketTally.addAllocation, checks_iff] at h
  obtain ⟨-, _, -, _, hincrement, _, hsettled, rfl⟩ := h
  obtain ⟨hcanonical, hget⟩ := addSettledUsage_eq_ok hsettled
  refine ⟨rfl, hcanonical, fun unit => ?_⟩
  rw [hincrement]
  exact hget unit

structure MarketTallies (markets : List MarketTally) : Prop where
  nodup : (markets.map fun tally => tally.row.key).Nodup
  canonical : ∀ tally ∈ markets, tally.settledUsage.Canonical

variable {markets : List MarketTally}

theorem addAllocationUsage_keys {next : List MarketTally} (h : addAllocationUsage body a markets = .ok next) :
    (next.map fun tally => tally.row.key) = (if body.marketKey ∈ markets.map fun tally => tally.row.key then
        markets.map fun tally => tally.row.key
      else (markets.map fun tally => tally.row.key) ++ [body.marketKey]) ∧
    ((∀ tally ∈ markets, tally.settledUsage.Canonical) → ∀ tally ∈ next, tally.settledUsage.Canonical) ∧
    ∀ key unit, Tally.amount (next.map (MarketTally.units unit)) key =
      Tally.amount (markets.map (MarketTally.units unit)) key + body.settledUnits key unit := by
  induction markets generalizing next with
  | nil =>
    simp only [addAllocationUsage, checks_iff] at h
    obtain ⟨tally, htally, rfl⟩ := h
    obtain ⟨hrow, hcanonical, hget⟩ := addAllocation_eq_ok htally
    refine ⟨?_, fun _ => ?_, fun key unit => ?_⟩
    . rw [List.map_singleton, hrow]
      rfl
    . rw [List.forall_mem_singleton]
      exact hcanonical
    . rw [List.map_singleton, List.map_nil, Tally.amount_cons, MarketTally.units, hrow, hget,
        ReceiptBody.settledUnits, Tally.amount_nil]
      dsimp only [MarketRow.key, ReceiptBody.marketKey, Counts.get, List.lookup_nil, Option.getD_none]
      simp only [Nat.zero_add, Nat.add_zero]
      rfl
  | cons tally markets ih =>
    rw [addAllocationUsage] at h
    split at h
    . next heq =>
      simp only [checks_iff] at h
      obtain ⟨_, hadded, rfl⟩ := h
      obtain ⟨hrow, hcanonical, hget⟩ := addAllocation_eq_ok hadded
      refine ⟨?_, fun hall => ?_, fun key unit => ?_⟩
      . rw [List.map_cons, List.map_cons, hrow, if_pos]
        exact List.mem_cons.mpr (.inl heq.symm)
      . rw [List.forall_mem_cons] at hall ⊢
        exact ⟨hcanonical, hall.2⟩
      . rw [List.map_cons, List.map_cons, Tally.amount_cons, Tally.amount_cons, MarketTally.units,
          MarketTally.units, hrow, hget, ReceiptBody.settledUnits, ReceiptBody.marketKey, heq]
        dsimp only
        split <;> omega
    . next hne =>
      simp only [checks_iff] at h
      obtain ⟨_, hrest, rfl⟩ := h
      obtain ⟨hkeys, hcanonical, hunits⟩ := ih hrest
      refine ⟨?_, fun hall => ?_, fun key unit => ?_⟩
      . have hmem : body.marketKey ∈ (tally :: markets).map (fun tally => tally.row.key) ↔
            body.marketKey ∈ markets.map fun tally => tally.row.key := by
          rw [List.map_cons, List.mem_cons]
          exact or_iff_right (Ne.symm hne)
        rw [List.map_cons, hkeys]
        split
        . next hin => rw [if_pos (hmem.mpr hin), List.map_cons]
        . next hnot => rw [if_neg (hmem.not.mpr hnot), List.map_cons, List.cons_append]
      . rw [List.forall_mem_cons] at hall ⊢
        exact ⟨hall.1, hcanonical hall.2⟩
      . rw [List.map_cons, List.map_cons, Tally.amount_cons, Tally.amount_cons, hunits]
        omega

theorem MarketTallies.add {next : List MarketTally} (hmarkets : MarketTallies markets)
    (h : addAllocationUsage body a markets = .ok next) : MarketTallies next := by
  obtain ⟨hkeys, hcanonical, -⟩ := addAllocationUsage_keys h
  refine ⟨?_, hcanonical hmarkets.canonical⟩
  rw [hkeys]
  split
  . exact hmarkets.nodup
  . next hnot =>
    refine List.nodup_append.mpr ⟨hmarkets.nodup, List.nodup_singleton _, ?_⟩
    rintro _ hmem _ hlast rfl
    exact hnot (List.mem_singleton.mp hlast ▸ hmem)

namespace Receipts

def bodyOf (receipts : Receipts) (a : Allocation) : Option ReceiptBody :=
  (receipts.head.get a.attempt).map fun head => head.receipt.body

def settledUnits (receipts : Receipts) (key : MarketKey) (unit : String) (a : Allocation) : Nat :=
  ((receipts.bodyOf a).map fun body => body.settledUnits key unit).getD 0

end Receipts

theorem bindAllocations_markets {s : Ledger} {epoch : Nat} {key : Digest} {allocations : List Allocation}
    {bindings next : Bindings} (hmarkets : MarketTallies bindings.markets)
    (h : allocations.foldlM (bindAllocation s epoch key) bindings = .ok next) :
    MarketTallies next.markets ∧
    (∀ market, market ∈ (next.markets.map fun tally => tally.row.key) ↔
      market ∈ (bindings.markets.map fun tally => tally.row.key) ∨
        ∃ a ∈ allocations, (s.receipts.bodyOf a).map ReceiptBody.marketKey = some market) ∧
    ∀ market unit, Tally.amount (next.markets.map (MarketTally.units unit)) market =
      Tally.amount (bindings.markets.map (MarketTally.units unit)) market +
        (allocations.map (s.receipts.settledUnits market unit)).sum := by
  induction allocations generalizing bindings with
  | nil =>
    rw [List.foldlM_nil, Except.pure_accepts_iff] at h
    subst h
    exact ⟨hmarkets, by simp, by simp⟩
  | cons a allocations ih =>
    rw [List.foldlM_cons, Except.bind_accepts_iff] at h
    obtain ⟨_, hbound, h⟩ := h
    obtain ⟨head, hbound⟩ := bindAllocation_eq_ok hbound
    obtain ⟨htallies, hmem, hunits⟩ := ih (hmarkets.add hbound.markets_ok) h
    obtain ⟨hkeys, -, hadded⟩ := addAllocationUsage_keys hbound.markets_ok
    have hbody : s.receipts.bodyOf a = some head.receipt.body := by
      rw [Receipts.bodyOf, hbound.head_eq]
      rfl
    refine ⟨htallies, fun market => ?_, fun market unit => ?_⟩
    . rw [hmem, hkeys, List.exists_mem_cons_iff, hbody, Option.map_some, Option.some.injEq, ← or_assoc]
      refine or_congr_left ?_
      split
      . next hin =>
        constructor
        . exact .inl
        . rintro (hold | rfl)
          . exact hold
          . exact hin
      . rw [List.mem_append, List.mem_singleton]
        exact or_congr_right eq_comm
    . rw [hunits, hadded, List.map_cons, List.sum_cons, Receipts.settledUnits, hbody, Option.map_some,
        Option.getD_some]
      omega

theorem providerSettlementPageDelta_add {grossAu grossAu' priorGrossAu feeBps : Nat} {rail : Rail}
    {delta delta' : SettlementDelta}
    (h : providerSettlementPageDelta grossAu priorGrossAu rail feeBps = .ok delta)
    (h' : providerSettlementPageDelta grossAu' (priorGrossAu + grossAu) rail feeBps = .ok delta') :
    providerSettlementPageDelta (grossAu + grossAu') priorGrossAu rail feeBps =
      .ok ⟨delta.feeAu + delta'.feeAu, delta.burnAu + delta'.burnAu,
        delta.providerAu + delta'.providerAu⟩ := by
  simp only [providerSettlementPageDelta, checks_iff, safeSubAu_eq_ok] at h h' ⊢
  obtain ⟨feeAu, ⟨_, rfl⟩, burnAu, ⟨_, rfl⟩, _, ⟨_, rfl⟩, _, ⟨_, rfl⟩, rfl⟩ := h
  obtain ⟨_, ⟨_, rfl⟩, _, ⟨_, rfl⟩, _, ⟨_, rfl⟩, _, ⟨_, rfl⟩, rfl⟩ := h'
  rw [← Nat.add_assoc]
  generalize safeMulDivAu priorGrossAu feeBps 10000 = fee₀ at *
  generalize safeMulDivAu (priorGrossAu + grossAu) feeBps 10000 = fee₁ at *
  generalize safeMulDivAu (priorGrossAu + grossAu + grossAu') feeBps 10000 = fee₂ at *
  generalize safeMulDivAu priorGrossAu (Ledger.railBurnBps rail) 10000 = burn₀ at *
  generalize safeMulDivAu (priorGrossAu + grossAu) (Ledger.railBurnBps rail) 10000 = burn₁ at *
  generalize safeMulDivAu (priorGrossAu + grossAu + grossAu') (Ledger.railBurnBps rail) 10000 = burn₂ at *
  refine ⟨_, ⟨?_, rfl⟩, _, ⟨?_, rfl⟩, _, ⟨?_, rfl⟩, _, ⟨?_, rfl⟩, ?_⟩
  . omega
  . omega
  . omega
  . omega
  . dsimp only
    rw [SettlementDelta.mk.injEq]
    omega

theorem providerSettlementPageDelta_zero (priorGrossAu feeBps : Nat) (rail : Rail) :
    providerSettlementPageDelta 0 priorGrossAu rail feeBps = .ok ⟨0, 0, 0⟩ := by
  simp [providerSettlementPageDelta, safeSubAu_eq_ok]

namespace Epochs

def markerGrossAu (epochs : Epochs) (key : Nat × Rail × PublicKey) : Nat :=
  ((epochs.earningMarker.get key).map EarningMarker.grossAu).getD 0

def markerNetAu (epochs : Epochs) (key : Nat × Rail × PublicKey) : Nat :=
  ((epochs.earningMarker.get key).map EarningMarker.netAu).getD 0

def settledUsage (epochs : Epochs) (key : Nat × MarketKey) : Counts :=
  ((epochs.marketMarker.get key).map MarketMarker.settledUsage).getD []

variable {epochs : Epochs}

theorem nextEarningMarker_eq_ok {epoch page deltaAu totalAu : Nat} {entry : (Rail × PublicKey) × Nat}
    {update : ((Nat × Rail × PublicKey) × EarningMarker) × Bool}
    (h : epochs.nextEarningMarker epoch page entry deltaAu totalAu = .ok update) :
    update.1.1 = (epoch, entry.1) ∧ update.1.2.grossAu = epochs.markerGrossAu (epoch, entry.1) + entry.2 ∧
      update.1.2.netAu = epochs.markerNetAu (epoch, entry.1) + deltaAu := by
  obtain ⟨⟨_, _⟩, grossAu⟩ := entry
  simp only [nextEarningMarker, checks_iff] at h
  obtain ⟨_, -, h⟩ := h
  split at h
  . next hnone =>
    simp only [checks_iff] at h
    subst h
    simp [markerGrossAu, markerNetAu, hnone]
  . next _ hsome =>
    simp only [checks_iff] at h
    obtain ⟨-, rfl⟩ := h
    simp [markerGrossAu, markerNetAu, hsome]

theorem nextMarketMarker_eq_ok {epoch page : Nat} {usage : MarketTally} {update : MarketMarkerUpdate}
    (h : epochs.nextMarketMarker epoch page usage = .ok update) :
    update.key = (epoch, usage.row.key) ∧ update.marker.settledUsage.Canonical ∧
      ∀ unit, update.marker.settledUsage.get unit =
        (epochs.settledUsage (epoch, usage.row.key)).get unit + usage.settledUsage.get unit := by
  simp only [nextMarketMarker, checks_iff, Except.mapError_accepts_iff] at h
  obtain ⟨-, _, -, _, -, _, -, _, hsettled, rfl⟩ := h
  obtain ⟨hcanonical, hget⟩ := addSettledUsage_eq_ok hsettled
  refine ⟨rfl, hcanonical, fun unit => ?_⟩
  dsimp only
  rw [hget, settledUsage]
  cases epochs.marketMarker.get (epoch, usage.row.key) with
  | none | some => rfl

end Epochs

theorem priorPageGross_eq_ok {epochs : Epochs} {value : TargetedEpochValue} {earning : TargetedEarning}
    {priorGrossAu : Nat} (h : priorPageGross epochs value true false earning = .ok priorGrossAu) :
    priorGrossAu = epochs.markerGrossAu (value.epoch, earning.account) := by
  rw [priorPageGross, if_pos rfl, priorProviderGross] at h
  unfold Epochs.markerGrossAu TargetedEarning.account
  split at h
  . next hnone =>
    simp only [checks_iff] at h
    rw [hnone, ← h.2]
    rfl
  . next _ hsome =>
    simp only [checks_iff, Bool.false_eq_true, if_false] at h
    rw [hsome, ← h.2]
    rfl

theorem epochProgress_eq_ok {crypto : Crypto} {s : Ledger} {state : ApplyState} {value : TargetedEpochValue}
    {commit : EpochCommit} {totals : PageTotals}
    {deltas : List ((Rail × PublicKey) × ProviderRecord × SettlementDelta)}
    {earnings : List ((PublicKey × Rail) × EarningRecord)} {feeAu burnAu : Nat} {progress : EpochProgress}
    (hbounded : commit.targetedReceiptPages = true)
    (h : epochProgress crypto s state value commit totals markets deltas earnings feeAu burnAu = .ok progress) :
    ∃ markers updates,
      (mapRailEntriesForHash totals.gross).mapM (providerMarker s value deltas earnings) = .ok markers ∧
      markets.mapM (s.epochs.nextMarketMarker value.epoch value.page) = .ok updates ∧
      progress.earningMarkers = markers.map Prod.fst ∧
      progress.marketMarkers = updates.map fun update => (update.key, update.marker) := by
  simp only [epochProgress, hbounded, not_true_eq_false, if_false, checks_iff] at h
  obtain ⟨_, -, markers, hmarkers, updates, hupdates, _, -, _, -, -, rfl⟩ := h
  exact ⟨markers, updates, hmarkers, hupdates, rfl, rfl⟩

namespace Ledger
namespace AppliedPage

variable {crypto : Crypto} {s s' : Ledger} {sender : PublicKey} {key : Digest}
  {value : TargetedEpochValue} {transition : Option CommitTransition} {feature : FeaturePlan}
  {plan : ApplyPlan}

variable (h : AppliedPage crypto s sender key value transition feature plan)

include h

theorem featureBounded_eq : s.featureBounded value transition = h.page.epochCommit.targetedReceiptPages := by
  have hcommit := h.committed.commit_eq
  rw [h.prepared.transition_eq] at hcommit
  rw [featureBounded, hcommit]
  rfl

theorem delta_keys (f : SettlementDelta → Nat) :
    (feature.options.deltas.map fun delta => (delta.1, f delta.2.2)).map Prod.fst =
      value.earnings.map TargetedEarning.account := by
  rw [h.prepared.deltas_eq, List.map_map, List.map_map]
  apply Except.map_eq_of_mapM h.prepared.liabilities_ok
  intro _ _ hupdate
  rw [Function.comp_apply, Function.comp_apply, (liabilityUpdate_delta hupdate).1]
  rfl

variable (hbounded : h.page.epochCommit.targetedReceiptPages = true)

include hbounded

theorem exists_delta
    (hnodup : (value.earnings.map TargetedEarning.account).Nodup) (account : Rail × PublicKey) :
    ∃ delta, providerSettlementPageDelta
        (Tally.amount (value.allocations.map Allocation.credit) account)
        (s.epochs.markerGrossAu (value.epoch, account)) account.1
        (s.registry.activeParamAt value.time .feeBps) = .ok delta ∧
      ∀ f : SettlementDelta → Nat, f ⟨0, 0, 0⟩ = 0 →
        Tally.amount (feature.options.deltas.map fun delta => (delta.1, f delta.2.2)) account = f delta := by
  rw [← h.bound.amount_earnings hnodup]
  by_cases hmem : account ∈ value.earnings.map TargetedEarning.account
  . obtain ⟨earning, hearning, rfl⟩ := List.mem_map.mp hmem
    obtain ⟨update, hupdate, hok⟩ := Except.exists_of_mem_mapM h.prepared.liabilities_ok hearning
    obtain ⟨hsame, _, hprior, hdelta⟩ := liabilityUpdate_delta hok
    rw [h.featureBounded_eq, hbounded, not_replay_of_pageOrder h.page.order_ok] at hprior
    rw [priorPageGross_eq_ok hprior] at hdelta
    have hgross : Tally.amount (value.earnings.map TargetedEarning.entry) earning.account = earning.grossAu := by
      apply Tally.amount_of_mem
      . rw [List.map_map]
        exact hnodup
      . exact List.mem_map.mpr ⟨earning, hearning, rfl⟩
    refine ⟨update.delta, by rw [hgross]; exact hdelta, fun f _ => ?_⟩
    apply Tally.amount_of_mem
    . rw [h.delta_keys]
      exact hnodup
    . rw [h.prepared.deltas_eq, List.map_map]
      exact List.mem_map.mpr ⟨update, hupdate, by rw [Function.comp_apply, hsame]; rfl⟩
  . refine ⟨⟨0, 0, 0⟩, ?_, fun f hzero => ?_⟩
    . rw [Tally.amount_of_not_mem, providerSettlementPageDelta_zero]
      rw [List.map_map]
      exact hmem
    . rw [Tally.amount_of_not_mem, hzero]
      rw [h.delta_keys]
      exact hmem

theorem amount_shares
    (hnodup : (value.earnings.map TargetedEarning.account).Nodup) (f : SettlementDelta → Nat)
    (account : Rail × PublicKey) :
    Tally.amount (h.page.money.shares.map fun share => (share.1, f share.2.2)) account =
      Tally.amount (feature.options.deltas.map fun delta => (delta.1, f delta.2.2)) account := by
  have hkeys : (h.page.money.shares.map fun share => (share.1, f share.2.2)).map Prod.fst =
      h.page.totals.gross.map Prod.fst := by
    rw [List.map_map, ← h.share_keys]
    rfl
  by_cases hmem : account ∈ h.page.totals.gross.map Prod.fst
  . rw [← h.share_keys] at hmem
    obtain ⟨share, hshare, rfl⟩ := List.mem_map.mp hmem
    obtain ⟨⟨⟨_, _⟩, _⟩, -, hok⟩ := Except.exists_of_mem_mapM_result h.money.shares_ok hshare
    simp only [earningDelta, hbounded, if_true, checks_iff, Prod.exists] at hok
    obtain ⟨_, -, -, _, delta, hlookup, -, rfl⟩ := hok
    rw [Tally.amount_of_mem (n := f delta), Tally.amount_of_mem (n := f delta)]
    . rw [h.delta_keys]
      exact hnodup
    . exact List.mem_map.mpr ⟨_, Tally.mem_of_lookup hlookup, rfl⟩
    . rw [hkeys]
      exact h.nodup_gross
    . exact List.mem_map.mpr ⟨_, hshare, rfl⟩
  . rw [Tally.amount_of_not_mem (hkeys ▸ hmem), Tally.amount_of_not_mem]
    rw [h.delta_keys]
    intro hin
    apply hmem
    rw [h.gross_eq, Tally.mem_keys_addAll, List.map_map]
    exact .inr hin

theorem markers_eq (hnodup : (value.earnings.map TargetedEarning.account).Nodup)
    (hmarker : s'.epochs.earningMarker = s.epochs.earningMarker.putAll plan.progress.earningMarkers)
    (account : Rail × PublicKey) :
    s'.epochs.markerGrossAu (value.epoch, account) = s.epochs.markerGrossAu (value.epoch, account) +
        Tally.amount (value.allocations.map Allocation.credit) account ∧
      s'.epochs.markerNetAu (value.epoch, account) = s.epochs.markerNetAu (value.epoch, account) +
        Tally.amount (feature.options.deltas.map fun delta => (delta.1, delta.2.2.providerAu))
          account := by
  obtain ⟨_, _, hmarkers, -, hprogress, -⟩ := epochProgress_eq_ok hbounded h.page.progress_ok
  have hfacts : ∀ entry update,
    providerMarker s value h.page.money.shares h.page.money.earnings entry = .ok update →
      update.1.1 = (value.epoch, entry.1) ∧
        update.1.2.grossAu = s.epochs.markerGrossAu (value.epoch, entry.1) + entry.2 ∧
        ∃ record delta, (entry.1, record, delta) ∈ h.page.money.shares ∧
          update.1.2.netAu = s.epochs.markerNetAu (value.epoch, entry.1) + delta.providerAu := by
    intro entry update hok
    simp only [providerMarker, checks_iff, Prod.exists] at hok
    obtain ⟨record, delta, hlookup, _, -, hnext⟩ := hok
    obtain ⟨hkey, hgross, hnet⟩ := Epochs.nextEarningMarker_eq_ok hnext
    exact ⟨hkey, hgross, record, delta, Tally.mem_of_lookup hlookup, hnet⟩
  have hperm : (mapRailEntriesForHash h.page.totals.gross).Perm h.page.totals.gross := List.perm_insertionSort _ _
  have hkeys : plan.progress.earningMarkers.map Prod.fst =
      ((mapRailEntriesForHash h.page.totals.gross).map Prod.fst).map
        fun account => (value.epoch, account) := by
    rw [hprogress, List.map_map, List.map_map]
    exact Except.map_eq_of_mapM hmarkers fun entry update hok => (hfacts entry update hok).1
  have hkeysNodup : (plan.progress.earningMarkers.map Prod.fst).Nodup := by
    rw [hkeys]
    exact ((hperm.map _).nodup_iff.mpr h.nodup_gross).map (Prod.mk_right_injective _)
  have hgross : Tally.amount (value.allocations.map Allocation.credit) account =
      Tally.amount h.page.totals.gross account := by
    rw [h.gross_eq, Tally.amount_addAll, ← h.bound.amount_earnings hnodup]
    exact (Nat.zero_add _).symm
  rw [← h.amount_shares hbounded hnodup SettlementDelta.providerAu, hgross]
  by_cases hmem : account ∈ h.page.totals.gross.map Prod.fst
  . obtain ⟨⟨account, grossAu⟩, hentry, rfl⟩ := List.mem_map.mp hmem
    obtain ⟨update, hupdate, hok⟩ := Except.exists_of_mem_mapM hmarkers (hperm.mem_iff.mpr hentry)
    obtain ⟨hkey, hmarkerGross, record, delta, hshare, hmarkerNet⟩ := hfacts _ _ hok
    have hget : s'.epochs.earningMarker.get (value.epoch, account) = some update.1.2 := by
      rw [hmarker]
      refine Table.get_putAll_of_mem _ _ hkeysNodup ?_
      rw [hprogress]
      exact List.mem_map.mpr ⟨update, hupdate, Prod.ext hkey rfl⟩
    rw [Epochs.markerGrossAu, Epochs.markerNetAu, hget, Tally.amount_of_mem h.nodup_gross hentry,
      Tally.amount_of_mem (n := delta.providerAu)]
    . exact ⟨hmarkerGross, hmarkerNet⟩
    . rw [List.map_map]
      exact h.share_keys ▸ h.nodup_gross
    . exact List.mem_map.mpr ⟨_, hshare, rfl⟩
  . have hnot : (value.epoch, account) ∉ plan.progress.earningMarkers.map Prod.fst := by
      rw [hkeys]
      intro hin
      obtain ⟨_, hfound, heq⟩ := List.mem_map.mp hin
      obtain ⟨-, rfl⟩ := Prod.mk.inj heq
      exact hmem ((hperm.map _).mem_iff.mp hfound)
    have hget : s'.epochs.earningMarker.get (value.epoch, account) =
        s.epochs.earningMarker.get (value.epoch, account) := by
      rw [hmarker, Table.get_putAll_of_not_mem _ _ _ hnot]
    rw [Epochs.markerGrossAu, Epochs.markerNetAu, hget, Tally.amount_of_not_mem hmem, Tally.amount_of_not_mem]
    . exact ⟨rfl, rfl⟩
    . rw [List.map_map]
      exact h.share_keys ▸ hmem

theorem settledUsage_eq
    (hmarker : s'.epochs.marketMarker = s.epochs.marketMarker.putAll plan.progress.marketMarkers)
    (market : MarketKey) :
    (∀ unit, (s'.epochs.settledUsage (value.epoch, market)).get unit =
      (s.epochs.settledUsage (value.epoch, market)).get unit +
        (value.allocations.map (s.receipts.settledUnits market unit)).sum) ∧
    ((∃ a ∈ value.allocations, (s.receipts.bodyOf a).map ReceiptBody.marketKey = some market) →
      (s'.epochs.settledUsage (value.epoch, market)).Canonical) ∧
    ((¬ ∃ a ∈ value.allocations, (s.receipts.bodyOf a).map ReceiptBody.marketKey = some market) →
      s'.epochs.settledUsage (value.epoch, market) = s.epochs.settledUsage (value.epoch, market)) := by
  obtain ⟨_, _, -, hupdates, -, hprogress⟩ := epochProgress_eq_ok hbounded h.page.progress_ok
  have hempty : MarketTallies [] := ⟨List.nodup_nil, by simp⟩
  obtain ⟨htallies, hmem, hunits⟩ := bindAllocations_markets hempty h.bound.bind_ok
  let tallies := h.bindings.markets.insertionSort fun a b => MarketKey.le a.row.key b.row.key
  have hperm : tallies.Perm h.bindings.markets := List.perm_insertionSort _ _
  have hmarkets : feature.options.markets = tallies.map MarketTally.sortProviders := h.bound.markets_eq
  have hrows : (feature.options.markets.map fun tally => tally.row.key) = tallies.map fun tally =>
    tally.row.key := by
    rw [hmarkets, List.map_map]
    rfl
  have hkeys : plan.progress.marketMarkers.map Prod.fst =
      (tallies.map fun tally => tally.row.key).map fun market => (value.epoch, market) := by
    rw [hprogress, List.map_map, ← hrows, List.map_map]
    exact Except.map_eq_of_mapM hupdates fun tally update hok => (Epochs.nextMarketMarker_eq_ok hok).1
  have hnodup : (tallies.map fun tally => tally.row.key).Nodup := (hperm.map _).nodup_iff.mpr htallies.nodup
  have hnamed : market ∈ (tallies.map fun tally => tally.row.key) ↔
      ∃ a ∈ value.allocations, (s.receipts.bodyOf a).map ReceiptBody.marketKey = some market := by
    rw [(hperm.map _).mem_iff, hmem]
    exact or_iff_right List.not_mem_nil
  have hsum : ∀ unit, (value.allocations.map (s.receipts.settledUnits market unit)).sum =
      Tally.amount (tallies.map (MarketTally.units unit)) market := by
    intro unit
    rw [Tally.amount_perm (hperm.map _), hunits]
    exact (Nat.zero_add _).symm
  rw [← hnamed]
  by_cases hin : market ∈ tallies.map fun tally => tally.row.key
  . obtain ⟨tally, htally, hrow⟩ := List.mem_map.mp hin
    have hsorted : tally.sortProviders ∈ feature.options.markets := by
      rw [hmarkets]
      exact List.mem_map_of_mem htally
    obtain ⟨update, hupdate, hok⟩ := Except.exists_of_mem_mapM hupdates hsorted
    obtain ⟨hkey, hcanonical, hget⟩ := Epochs.nextMarketMarker_eq_ok hok
    have hstored : s'.epochs.marketMarker.get (value.epoch, market) = some update.marker := by
      rw [hmarker]
      refine Table.get_putAll_of_mem _ _ ?_ ?_
      . rw [hkeys]
        exact hnodup.map (Prod.mk_right_injective _)
      . rw [hprogress]
        exact List.mem_map.mpr ⟨update, hupdate, Prod.ext (hkey.trans (Prod.ext rfl hrow)) rfl⟩
    have hafter : s'.epochs.settledUsage (value.epoch, market) = update.marker.settledUsage := by
      rw [Epochs.settledUsage, hstored]
      rfl
    rw [hafter]
    refine ⟨fun unit => ?_, fun _ => hcanonical, fun hnot => absurd hin hnot⟩
    have hamount : Tally.amount (tallies.map (MarketTally.units unit)) market = tally.settledUsage.get unit := by
      apply Tally.amount_of_mem
      . rw [List.map_map]
        exact hnodup
      . exact List.mem_map.mpr ⟨tally, htally, Prod.ext hrow rfl⟩
    rw [hget, hsum, hamount]
    dsimp only [MarketTally.sortProviders]
    rw [hrow]
  . have hnot : (value.epoch, market) ∉ plan.progress.marketMarkers.map Prod.fst := by
      rw [hkeys]
      intro hmarked
      obtain ⟨_, hfound, heq⟩ := List.mem_map.mp hmarked
      obtain ⟨-, rfl⟩ := Prod.mk.inj heq
      exact hin hfound
    have hsame : s'.epochs.settledUsage (value.epoch, market) = s.epochs.settledUsage (value.epoch, market) := by
      rw [Epochs.settledUsage, hmarker, Table.get_putAll_of_not_mem _ _ _ hnot]
      rfl
    refine ⟨fun unit => ?_, fun hfound => absurd hfound hin, fun _ => hsame⟩
    rw [hsame, hsum, Tally.amount_of_not_mem]
    . rfl
    . rw [List.map_map]
      exact hin

end AppliedPage
end Ledger

end Mayhem
