import Mayhem.Lib.VersionLog
import Mayhem.Settlement.Facts
import Mayhem.Price
import Mayhem.Host

namespace Mayhem

namespace PriceSchedule

variable {schedule updated : PriceSchedule}

def topVer (schedule : PriceSchedule) : Nat :=
  max ((schedule.current.map PriceRecord.ver).getD 0) ((schedule.pending.map PriceRecord.ver).getD 0)

def Ordered (schedule : PriceSchedule) : Prop :=
  ∀ pending ∈ schedule.pending, ∀ current ∈ schedule.current, current.ver < pending.ver

instance (schedule : PriceSchedule) : Decidable schedule.Ordered :=
  inferInstanceAs (Decidable
    (∀ pending ∈ schedule.pending, ∀ current ∈ schedule.current, current.ver < pending.ver))

theorem nextVer_priceScheduleAt (schedule : PriceSchedule) (time : Nat) :
    (schedule.priceScheduleAt time).nextVer = schedule.nextVer := by
  rcases schedule with ⟨_, _ | _⟩
  . rfl
  . unfold priceScheduleAt
    dsimp only
    split <;> rfl

theorem nextVer_eq_topVer (h : schedule.Ordered) : schedule.nextVer = schedule.topVer + 1 := by
  rcases schedule with ⟨_ | current, _ | pending⟩
  . rfl
  . simp [nextVer, topVer, priceLatestEntry]
  . simp [nextVer, topVer, priceLatestEntry]
  . have hlt : current.ver < pending.ver := h pending rfl current rfl
    simp only [nextVer, topVer, priceLatestEntry, Option.or_some, Option.map_some, Option.getD_some]
    omega

theorem topVer_addSeed {record : PriceRecord} (h : schedule.addSeed record = .ok updated) :
    record.ver ≤ updated.topVer := by
  unfold addSeed at h
  split at h
  . rw [Except.pure_accepts_iff] at h
    subst h
    exact le_max_left _ _
  . simp only [checks_iff] at h
    obtain ⟨-, rfl⟩ := h
    exact le_max_right _ _

end PriceSchedule

def Registry.priceKey (reg : Registry) (time : Nat) (key : MarketKey) : Option MarketKey :=
  match reg.enclaves.get key.1 with
  | none => none
  | some enclave =>
    match reg.priceCtxMetaForEnclave enclave key.2 time "Enclave price" with
    | .error _ => none
    | .ok ctxMeta => some (key.1, ctxMeta.map PriceCtxMeta.ctxBracket)

theorem Registry.priceKey_of_meta {reg : Registry} {enclave : EnclaveRecord} {key : MarketKey}
    {time : Nat} {label : String} {ctxMeta : Option PriceCtxMeta}
    (henclave : reg.enclaves.get key.1 = some enclave)
    (hmeta : reg.priceCtxMetaForEnclave enclave key.2 time label = .ok ctxMeta) :
    reg.priceKey time key = some (key.1, ctxMeta.map PriceCtxMeta.ctxBracket) := by
  -- the label is only a part of the messages
  have hlabel : reg.priceCtxMetaForEnclave enclave key.2 time "Enclave price" = .ok ctxMeta := by
    unfold priceCtxMetaForEnclave at hmeta ⊢
    split at hmeta
    . next hctx =>
      rw [if_pos hctx]
      simpa using hmeta
    . next hctx =>
      rw [if_neg hctx]
      cases hbracket : key.2 <;> simpa [hbracket] using hmeta
  rw [priceKey, henclave]
  dsimp only
  rw [hlabel]

section Controller

variable {crypto : Crypto} {reg : Registry} {market : Market} {ctx : MarketContext}

structure Follows (reg : Registry) (market : Market) (time : Nat) (key : MarketKey)
    (update : PriceUpdate) : Prop where
  marketKey_eq : update.marketKey = key
  scheduleKey_eq : reg.priceKey time key = some update.scheduleKey
  ver_eq : update.record.ver = (market.priceSchedule update.scheduleKey).nextVer
  ver_le : update.record.ver ≤ update.schedule.topVer

theorem marketPriceUpdate_eq_some {entry : ActivityEntry} {update : PriceUpdate}
    (h : marketPriceUpdate crypto reg market ctx entry = .ok (some update)) :
    Follows reg market ctx.time entry.usage.row.key update := by
  unfold marketPriceUpdate at h
  dsimp only at h
  split at h
  . simp at h
  . next _ henclave =>
    split at h
    . split at h <;> simp at h
    . next _ hmeta =>
      split at h
      . simp at h
      . simp only [checks_iff, Option.some.injEq] at h
        obtain ⟨_, -, -, _, -, -, _, -, _, -, rfl⟩ := h
        exact {
          marketKey_eq := rfl
          scheduleKey_eq := Registry.priceKey_of_meta (Option.filter_eq_some_iff.mp henclave).1 hmeta
          ver_eq := PriceSchedule.nextVer_priceScheduleAt _ _
          ver_le := le_max_left _ _ }

variable {entries : List ActivityEntry}

theorem follows_of_forall₂ {found : List (Option PriceUpdate)}
    (h : List.Forall₂ (fun entry update => marketPriceUpdate crypto reg market ctx entry = .ok update)
      entries found) :
    (found.reduceOption.map PriceUpdate.scheduleKey).Sublist
        ((entries.map fun entry => entry.usage.row.key).filterMap (reg.priceKey ctx.time)) ∧
      ∀ update ∈ found.reduceOption, ∃ key, Follows reg market ctx.time key update := by
  induction h with
  | nil => exact ⟨List.Sublist.refl _, by simp⟩
  | @cons entry update entries found hhead _ ih =>
    cases update with
    | none =>
      rw [List.reduceOption_cons_of_none, List.map_cons, List.filterMap_cons]
      refine ⟨?_, ih.2⟩
      split
      . exact ih.1
      . exact ih.1.cons _
    | some update =>
      have hfollows := marketPriceUpdate_eq_some hhead
      rw [List.reduceOption_cons_of_some, List.map_cons, List.map_cons,
        List.filterMap_cons_some hfollows.scheduleKey_eq, List.forall_mem_cons]
      exact ⟨ih.1.cons_cons _, ⟨_, hfollows⟩, ih.2⟩

def Market.visited (market : Market) (usage : List MarketKey) (includeDormant : Bool) : List MarketKey :=
  usage.dedup ++ if includeDormant then (market.activityIndex.map MarketRow.key).filter (· ∉ usage)
    else []

def MarketUsage.key (usage : MarketUsage) : MarketKey := usage.row.key

variable {usage : List MarketUsage}

theorem activityMarketEntries_keys {includeDormant : Bool} (hnodup : (usage.map MarketUsage.key).Nodup)
    (h : activityMarketEntries market usage includeDormant = .ok entries) :
    (entries.map fun entry => entry.usage.key).Perm
      (market.visited (usage.map MarketUsage.key) includeDormant) := by
  simp only [activityMarketEntries, checks_iff] at h
  obtain ⟨-, -, rfl⟩ := h
  refine ((List.perm_insertionSort _ _).map _).trans ?_
  rw [List.map_append, Market.visited, List.Nodup.dedup hnodup]
  refine List.Perm.append ?_ ?_
  . rw [List.map_map]
    exact (List.perm_insertionSort _ _).map _
  . cases includeDormant with
    | false => exact List.Perm.refl _
    | true =>
      rw [if_pos rfl, if_pos rfl, List.map_map, List.filter_map]
      exact List.Perm.refl _

structure FollowsAll (reg : Registry) (market : Market) (time : Nat) (visited : List MarketKey)
    (updates : List PriceUpdate) : Prop where
  scheduleKeys : (updates.map PriceUpdate.scheduleKey).Subperm
    (visited.filterMap (reg.priceKey time))
  follows : ∀ update ∈ updates, ∃ key, Follows reg market time key update

variable {updates : List PriceUpdate}

theorem computeMarketPriceUpdates_follows (hnodup : (usage.map MarketUsage.key).Nodup)
    (h : computeMarketPriceUpdates crypto reg market ctx usage = .ok updates) :
    FollowsAll reg market ctx.time
      (market.visited (usage.map MarketUsage.key) ctx.includeDormant) updates := by
  simp only [computeMarketPriceUpdates, checks_iff, Except.mapM_accepts_iff] at h
  obtain ⟨-, _, hentries, _, hfound, rfl⟩ := h
  have hkeys := (activityMarketEntries_keys hnodup hentries).filterMap (reg.priceKey ctx.time)
  obtain ⟨hsub, hfollows⟩ := follows_of_forall₂ hfound
  exact ⟨hsub.subperm.trans hkeys.subperm, hfollows⟩

def Market.OrderlyVisit (market : Market) (reg : Registry) (time : Nat) (visited : List MarketKey) : Prop :=
  (visited.filterMap (reg.priceKey time)).Nodup ∧
    ∀ key ∈ visited.filterMap (reg.priceKey time), (market.priceSchedule key).Ordered

instance (time : Nat) (visited : List MarketKey) : Decidable (market.OrderlyVisit reg time visited) :=
  inferInstanceAs (Decidable (_ ∧ _))

theorem FollowsAll.nodup {time : Nat} {visited : List MarketKey}
    (h : FollowsAll reg market time visited updates) (horderly : market.OrderlyVisit reg time visited) :
    (updates.map PriceUpdate.scheduleKey).Nodup := by
  obtain ⟨_, hperm, hsub⟩ := h.scheduleKeys
  exact hperm.nodup_iff.mp (horderly.1.sublist hsub)

variable {merged : List MarketUsage}

theorem mergeMarketUsage_keys {entry : MarketUsage} (h : mergeMarketUsage entry usage = .ok merged) :
    merged.map MarketUsage.key = if entry.key ∈ usage.map MarketUsage.key
      then usage.map MarketUsage.key else usage.map MarketUsage.key ++ [entry.key] := by
  induction usage generalizing merged with
  | nil =>
    rw [mergeMarketUsage, Except.ok.injEq] at h
    subst h
    simp
  | cons current _ ih =>
    rw [mergeMarketUsage] at h
    split at h
    . next heq =>
      simp only [MarketUsage.plus, checks_iff] at h
      obtain ⟨_, ⟨-, _, -, _, -, rfl⟩, rfl⟩ := h
      have hkey : current.key = entry.key := heq
      simp only [List.map_cons, hkey, List.mem_cons, true_or, if_true]
      rfl
    . next hne =>
      simp only [checks_iff] at h
      obtain ⟨merged, hmerged, rfl⟩ := h
      have hkey : entry.key ≠ current.key := fun heq => hne heq.symm
      rw [List.map_cons, List.map_cons, ih hmerged]
      simp only [List.mem_cons, hkey, false_or]
      split <;> rfl

theorem mergeMarketUsage_nodup {entry : MarketUsage} (hnodup : (usage.map MarketUsage.key).Nodup)
    (h : mergeMarketUsage entry usage = .ok merged) :
    (merged.map MarketUsage.key).Nodup ∧
      ∀ key, key ∈ merged.map MarketUsage.key ↔ key ∈ usage.map MarketUsage.key ∨ key = entry.key := by
  rw [mergeMarketUsage_keys h]
  split
  . next hmem =>
    refine ⟨hnodup, fun key => (or_iff_left_of_imp ?_).symm⟩
    rintro rfl
    exact hmem
  . next hmem =>
    refine ⟨List.Nodup.append hnodup (List.nodup_singleton _) ?_, fun key => by simp⟩
    simpa using hmem

theorem foldlM_mergeMarketUsage {entries : List MarketUsage} (hnodup : (usage.map MarketUsage.key).Nodup)
    (h : entries.foldlM (fun usage entry => do
      checkMarketUsage entry
      mergeMarketUsage entry usage) usage = .ok merged) :
    (merged.map MarketUsage.key).Nodup ∧ ∀ key, key ∈ merged.map MarketUsage.key ↔
      key ∈ usage.map MarketUsage.key ∨ key ∈ entries.map MarketUsage.key := by
  induction entries generalizing usage with
  | nil =>
    rw [List.foldlM_nil, Except.pure_accepts_iff] at h
    subst h
    exact ⟨hnodup, fun key => by simp⟩
  | cons entry entries ih =>
    simp only [List.foldlM_cons, checks_iff] at h
    obtain ⟨_, ⟨-, hnext⟩, h⟩ := h
    obtain ⟨hnodup, hmem⟩ := mergeMarketUsage_nodup hnodup hnext
    obtain ⟨hmerged, hmem'⟩ := ih hnodup h
    refine ⟨hmerged, fun key => ?_⟩
    rw [hmem', hmem, List.map_cons, List.mem_cons, or_assoc]

theorem aggregateMarketUsageEntries_visited {entries : List MarketUsage}
    (h : aggregateMarketUsageEntries entries = .ok usage) (market : Market) (includeDormant : Bool) :
    (usage.map MarketUsage.key).Nodup ∧ (market.visited (usage.map MarketUsage.key) includeDormant).Perm
        (market.visited (entries.map MarketUsage.key) includeDormant) := by
  have hempty : (([] : List MarketUsage).map MarketUsage.key).Nodup := List.nodup_nil
  obtain ⟨hnodup, hmem⟩ := foldlM_mergeMarketUsage hempty h
  refine ⟨hnodup, List.Perm.append ?_ ?_⟩
  . rw [List.Nodup.dedup hnodup, List.perm_ext_iff_of_nodup hnodup (List.nodup_dedup _)]
    intro key
    rw [hmem, List.mem_dedup]
    simp
  . cases includeDormant with
    | false => exact List.Perm.refl _
    | true =>
      simp only [hmem, List.map_nil, List.not_mem_nil, false_or]
      exact List.Perm.refl _

end Controller

def PriceUpdate.write (update : PriceUpdate) : MarketKey × PriceRecord :=
  (update.scheduleKey, update.record)

structure PriceChange (market market' : Market) (writes : List (MarketKey × PriceRecord)) : Prop where
  record_eq : market'.record = market.record.putAll (VersionLog.stored PriceRecord.ver writes)
  schedule_eq : ∀ key, key ∉ writes.map Prod.fst → market'.priceSchedule key = market.priceSchedule key
  nodup : (writes.map Prod.fst).Nodup
  ver_eq : ∀ write ∈ writes, write.2.ver = (market.priceSchedule write.1).topVer + 1
  ver_le : ∀ write ∈ writes, write.2.ver ≤ (market'.priceSchedule write.1).topVer

theorem PriceChange.none {market market' : Market} (hschedule : market'.schedule = market.schedule)
    (hrecord : market'.record = market.record) : PriceChange market market' [] where
  record_eq := hrecord
  schedule_eq key _ := by rw [Market.priceSchedule, Market.priceSchedule, hschedule]
  nodup := List.nodup_nil
  ver_eq := by simp
  ver_le := by simp

namespace Market

variable {market market' : Market} {updates : List PriceUpdate}

theorem writePriceUpdates_record (market : Market) (updates : List PriceUpdate) :
    (market.writePriceUpdates updates).record =
      market.record.putAll (VersionLog.stored PriceRecord.ver (updates.map PriceUpdate.write)) := by
  induction updates generalizing market with
  | nil => rfl
  | cons _ updates ih => exact ih _

theorem writePriceUpdates_schedule (market : Market) (updates : List PriceUpdate) :
    (market.writePriceUpdates updates).schedule =
      market.schedule.putAll (updates.map fun update => (update.scheduleKey, update.schedule)) := by
  induction updates generalizing market with
  | nil => rfl
  | cons update updates ih => exact ih _

theorem writeActivityMarketIndex_prices (h : market.writeActivityMarketIndex updates = .ok market') :
    market'.schedule = market.schedule ∧ market'.record = market.record := by
  simp only [writeActivityMarketIndex, checks_iff] at h
  obtain ⟨-, h⟩ := h
  split at h
  . obtain rfl := (Except.pure_accepts_iff ..).mp h
    exact ⟨rfl, rfl⟩
  . obtain rfl := (Except.pure_accepts_iff ..).mp h
    exact ⟨rfl, rfl⟩

theorem writePriceUpdates_change {reg : Registry} {time : Nat} {visited : List MarketKey}
    (hschedule : market'.schedule = market.schedule) (hrecord : market'.record = market.record)
    (hfollows : FollowsAll reg market time visited updates)
    (horderly : market.OrderlyVisit reg time visited) :
    PriceChange market (market'.writePriceUpdates updates) (updates.map PriceUpdate.write) where
  record_eq := by rw [writePriceUpdates_record, hrecord]
  schedule_eq key hkey := by
    rw [priceSchedule, priceSchedule, writePriceUpdates_schedule, hschedule, Table.get_putAll_of_not_mem]
    rw [List.map_map] at hkey ⊢
    exact hkey
  nodup := by
    rw [List.map_map]
    exact hfollows.nodup horderly
  ver_eq := by
    rw [List.forall_mem_map]
    intro update hupdate
    obtain ⟨_, hupdated⟩ := hfollows.follows update hupdate
    have hvisited := hfollows.scheduleKeys.subset (List.mem_map_of_mem hupdate)
    exact hupdated.ver_eq.trans (PriceSchedule.nextVer_eq_topVer (horderly.2 _ hvisited))
  ver_le := by
    rw [List.forall_mem_map]
    intro update hupdate
    have hstored : (market'.writePriceUpdates updates).schedule.get update.scheduleKey
        = some update.schedule := by
      rw [writePriceUpdates_schedule]
      apply Table.get_putAll_of_mem
      . rw [List.map_map]
        exact hfollows.nodup horderly
      . exact List.mem_map.mpr ⟨update, hupdate, rfl⟩
    obtain ⟨_, hupdated⟩ := hfollows.follows update hupdate
    rw [PriceUpdate.write, priceSchedule, hstored]
    exact hupdated.ver_le

end Market

structure PricesKept (market : Market) (log : List (MarketKey × PriceRecord)) : Prop where
  record_eq : market.record = Table.empty.putAll (VersionLog.stored PriceRecord.ver log)
  ascending : VersionLog.Ascending PriceRecord.ver log
  below : ∀ key, VersionLog.Below PriceRecord.ver log key ((market.priceSchedule key).topVer + 1)

theorem PricesKept.change {market market' : Market} {log writes : List (MarketKey × PriceRecord)}
    (h : PricesKept market log) (hchange : PriceChange market market' writes) :
    PricesKept market' (log ++ writes) := by
  constructor
  . rw [hchange.record_eq, h.record_eq, VersionLog.stored_append, Table.putAll_append]
  . apply h.ascending.append (VersionLog.ascending_of_nodup hchange.nodup)
    intro write hwrite
    rw [hchange.ver_eq write hwrite]
    exact h.below write.1
  . intro key
    by_cases hkey : key ∈ writes.map Prod.fst
    . obtain ⟨write, hwrite, rfl⟩ := List.mem_map.mp hkey
      have hle := hchange.ver_le write hwrite
      rw [hchange.ver_eq write hwrite] at hle
      apply VersionLog.Below.append
      . apply (h.below write.1).mono
        omega
      . intro other hother heq
        have hle := hchange.ver_le other hother
        rw [heq] at hle
        omega
    . rw [hchange.schedule_eq key hkey]
      apply (h.below key).append
      intro write hwrite heq
      exact absurd (List.mem_map.mpr ⟨write, hwrite, heq⟩) hkey

namespace Ledger

variable {crypto : Crypto} {s : Ledger}

def pageMarkets (s : Ledger) (value : TargetedEpochValue) (bounded : Bool) : List MarketKey :=
  match value.marketUsage with
  | none => []
  | some usage => s.market.visited (usage.map MarketUsage.key) (bounded && value.lastPage)

variable {sender : PublicKey} {key : Digest} {value : TargetedEpochValue}

theorem NewPage.follows {options : ApplyOptions} {plan : ApplyPlan}
    (page : NewPage crypto s sender key value options plan) :
    FollowsAll s.registry s.market value.time
      (s.pageMarkets value page.epochCommit.targetedReceiptPages) plan.priceUpdates := by
  have hmarket := page.market_ok
  have htotals := (prepareApplyCommit_eq_ok page.commit_ok).totals_ok
  simp only [pageTotals, checks_iff] at htotals
  obtain ⟨-, -, _, -, _, -, -, _, husage, htotals⟩ := htotals
  unfold prepareMarket at hmarket
  unfold pageMarkets
  cases hvalue : value.marketUsage with
  | none =>
    simp only [hvalue, Option.isSome_none, Bool.false_eq_true, if_false, checks_iff, Prod.mk.injEq] at hmarket
    obtain ⟨_, rfl, hupdates, -⟩ := hmarket
    rw [← hupdates]
    exact ⟨List.nil_subperm, by simp⟩
  | some =>
    simp only [hvalue, Option.isSome_some, if_true, checks_iff, Prod.mk.injEq] at hmarket
    obtain ⟨_, hupdates, rfl, -⟩ := hmarket
    rw [← htotals] at hupdates
    rw [hvalue] at husage
    obtain ⟨hnodup, hperm⟩ := aggregateMarketUsageEntries_visited husage s.market
      (page.epochCommit.targetedReceiptPages && value.lastPage)
    have hfollows := computeMarketPriceUpdates_follows hnodup hupdates
    exact ⟨hfollows.scheduleKeys.trans (hperm.filterMap _).subperm, hfollows.follows⟩

def pageWrites (outcome : Outcome ApplyResult) : List (MarketKey × PriceRecord) :=
  match outcome.2 with
  | .error _ => []
  | .ok result => result.marketPrices.map PriceUpdate.write

theorem PageOutcome.priceChange {transition : Option CommitTransition} {outcome : Outcome ApplyResult}
    {bounded : Bool} (h : PageOutcome crypto s sender key value transition outcome)
    (hbounded : ∀ commit, (transition.map CommitTransition.record).or
      (s.epochs.commit.get value.epoch) = some commit → commit.targetedReceiptPages = bounded)
    (horderly : s.market.OrderlyVisit s.registry value.time (s.pageMarkets value bounded)) :
    PriceChange s.market outcome.1.market (pageWrites outcome) := by
  cases h with
  | rejected | replayed | stopped => exact .none rfl rfl
  | settled _ _ market hfeature hplan hmarket =>
    obtain ⟨page⟩ := newPage_of_plan hplan
    have hcommit := (prepareApplyCommit_eq_ok page.commit_ok).commit_eq
    rw [(prepareFeature_eq_ok hfeature).transition_eq] at hcommit
    have hfollows := page.follows
    rw [hbounded _ hcommit] at hfollows
    obtain ⟨hschedule, hrecord⟩ := Market.writeActivityMarketIndex_prices hmarket
    dsimp only [pageWrites]
    rw [page.marketPrices_eq]
    exact Market.writePriceUpdates_change hschedule hrecord hfollows horderly

inductive PriceOp where
  | setPrice (sender : PublicKey) (value : SetPriceValue)
  | page (sender : PublicKey) (key : Digest) (value : TargetedEpochValue)
  | pageZero (sender : PublicKey) (key : Digest) (value : CommitPageZeroValue)
  | epochSealEmpty (sender : PublicKey) (tx : Digest) (epoch time : Nat) (reasonHash : Digest)

namespace PriceOp

def run (crypto : Crypto) (s : Ledger) : PriceOp → Ledger
  | .setPrice sender value => (s.setPrice sender value).1
  | .page sender key value => (s.applyTargetedEpochFeature crypto sender key value).1
  | .pageZero sender key value =>
    (s.applyCommitTargetedEpochPageZeroFeature crypto sender key value).1
  | .epochSealEmpty sender tx epoch time reasonHash =>
    (s.epochSealEmpty crypto sender tx epoch time reasonHash).1

def writes (crypto : Crypto) (s : Ledger) : PriceOp → List (MarketKey × PriceRecord)
  | .setPrice sender value =>
    match s.prepareSetPrice sender value with
    | .error _ => []
    | .ok plan => [(plan.key, plan.record)]
  | .page sender key value => pageWrites (s.applyTargetedEpochFeature crypto sender key value)
  | .pageZero sender key value =>
    pageWrites (s.applyCommitTargetedEpochPageZeroFeature crypto sender key value)
  | .epochSealEmpty sender tx epoch time reasonHash =>
    match s.prepareSeal crypto sender tx epoch time reasonHash,
      (s.epochSealEmpty crypto sender tx epoch time reasonHash).2 with
    | .ok (some plan), .ok () => plan.updates.map PriceUpdate.write
    | _, _ => []

def Orderly (s : Ledger) : PriceOp → Prop
  | .setPrice _ value =>
    s.market.OrderlyVisit s.registry value.effectiveAt [(value.enclaveId, value.ctxBracket)]
  | .page _ _ value =>
    s.market.OrderlyVisit s.registry value.time (s.pageMarkets value
      ((s.epochs.commit.get value.epoch).any EpochCommit.targetedReceiptPages))
  | .pageZero _ _ value =>
    s.market.OrderlyVisit s.registry value.time (s.pageMarkets value.targetedValue true)
  | .epochSealEmpty _ _ _ time _ =>
    s.market.OrderlyVisit s.registry time (s.market.visited [] true)

instance (s : Ledger) (op : PriceOp) : Decidable (op.Orderly s) :=
  match op with
  | .setPrice .. | .page .. | .pageZero .. | .epochSealEmpty .. =>
    inferInstanceAs (Decidable (Market.OrderlyVisit ..))

end PriceOp

theorem prepareSetPrice_eq_ok {value : SetPriceValue} {plan : SetPricePlan}
    (h : s.prepareSetPrice sender value = .ok plan) :
    s.registry.priceKey value.effectiveAt (value.enclaveId, value.ctxBracket) = some plan.key ∧
      plan.record.ver = (s.market.priceSchedule plan.key).nextVer ∧
      plan.record.ver ≤ plan.schedule.topVer := by
  simp only [prepareSetPrice, priceReference, checks_iff, Prod.exists, Prod.mk.injEq] at h
  obtain ⟨-, _, _, _, ⟨_, henclave, -, _, -, _, -, _, -, -, rfl, rfl, rfl⟩, -, -, -, _, hmeta, -, _,
    hupdated, rfl⟩ := h
  exact ⟨Registry.priceKey_of_meta henclave hmeta, rfl, PriceSchedule.topVer_addSeed hupdated⟩

theorem transition_targetedReceiptPages {value : CommitPageZeroValue} {transition : CommitTransition}
    (h : s.prepareTargetedEpochCommitTransition crypto sender value = .ok transition) :
    transition.record.targetedReceiptPages = true := by
  simp only [prepareTargetedEpochCommitTransition, checks_iff] at h
  obtain ⟨_, -, _, -, -, -, -, h⟩ := h
  split at h
  . simp only [checks_iff] at h
    obtain ⟨-, rfl⟩ := h
    rfl
  . split at h
    . simp only [checks_iff, not_or, not_not] at h
      obtain ⟨hexisting, rfl⟩ := h
      exact hexisting.2.1
    . simp only [checks_iff] at h
      obtain ⟨-, rfl⟩ := h
      rfl

theorem prepareSeal_follows {tx : Digest} {epoch time : Nat} {reasonHash : Digest} {plan : SealPlan}
    (h : s.prepareSeal crypto sender tx epoch time reasonHash = .ok (some plan)) :
    FollowsAll s.registry s.market time (s.market.visited [] true) plan.updates := by
  simp only [prepareSeal, checks_iff] at h
  obtain ⟨-, -, -, h⟩ := h
  split at h
  . simp at h
  . simp only [Except.map_accepts_iff, Option.some.injEq, exists_eq_right, prepareNewSeal, checks_iff] at h
    obtain ⟨-, -, -, -, -, -, updates, hupdates, -, _, -, rfl⟩ := h
    have hempty : (([] : List MarketUsage).map MarketUsage.key).Nodup := List.nodup_nil
    exact computeMarketPriceUpdates_follows hempty hupdates

theorem PriceOp.priceChange (op : PriceOp) (horderly : op.Orderly s) :
    PriceChange s.market (op.run crypto s).market (op.writes crypto s) := by
  cases op with
  | setPrice sender value =>
    dsimp only [PriceOp.run, PriceOp.writes, Ledger.setPrice]
    cases hplan : s.prepareSetPrice sender value with
    | error message => exact .none rfl rfl
    | ok plan =>
      obtain ⟨hkey, hver, htop⟩ := prepareSetPrice_eq_ok hplan
      have hordered := horderly.2 _ (List.mem_filterMap.mpr ⟨_, List.mem_singleton_self _, hkey⟩)
      dsimp only
      refine ⟨rfl, ?_, List.nodup_singleton _, ?_, ?_⟩
      . intro key hne
        rw [List.map_cons, List.map_nil, List.mem_singleton] at hne
        rw [Market.priceSchedule, Market.priceSchedule, Table.get_put_of_ne _ _ hne]
      . rw [List.forall_mem_singleton]
        exact hver.trans (PriceSchedule.nextVer_eq_topVer hordered)
      . rw [List.forall_mem_singleton, Market.priceSchedule, Table.get_put_self]
        exact htop
  | page sender key value =>
    dsimp only [PriceOp.run, PriceOp.writes]
    obtain ⟨_, houtcome⟩ := page_outcome crypto s sender key value
    have hbounded : ∀ commit, ((none : Option CommitTransition).map CommitTransition.record).or
        (s.epochs.commit.get value.epoch) = some commit → commit.targetedReceiptPages =
          (s.epochs.commit.get value.epoch).any EpochCommit.targetedReceiptPages := by
      intro commit hcommit
      rw [Option.map_none, Option.none_or] at hcommit
      rw [hcommit, Option.any_some]
    exact houtcome.priceChange hbounded horderly
  | pageZero sender key value =>
    dsimp only [PriceOp.run, PriceOp.writes]
    rcases pageZero_cases crypto s sender key value with
      ⟨message, heq⟩ | ⟨_, transition, -, htransition, houtcome⟩
    . rw [heq]
      exact .none rfl rfl
    . have hbounded : ∀ commit, ((some transition).map CommitTransition.record).or
          (s.epochs.commit.get value.epoch) = some commit → commit.targetedReceiptPages = true := by
        intro commit hcommit
        rw [Option.map_some, Option.some_or, Option.some.injEq] at hcommit
        rw [← hcommit]
        exact transition_targetedReceiptPages htransition
      exact houtcome.priceChange hbounded horderly
  | epochSealEmpty sender tx epoch time reasonHash =>
    dsimp only [PriceOp.run, PriceOp.writes, Ledger.epochSealEmpty]
    cases hplan : s.prepareSeal crypto sender tx epoch time reasonHash with
    | error message => exact .none rfl rfl
    | ok found =>
      cases found with
      | none => exact .none rfl rfl
      | some plan =>
        dsimp only
        split
        . exact .none rfl rfl
        . next market hmarket =>
          obtain ⟨hschedule, hrecord⟩ := Market.writeActivityMarketIndex_prices hmarket
          exact Market.writePriceUpdates_change hschedule hrecord (prepareSeal_follows hplan) horderly

inductive PriceRun (crypto : Crypto) (allowed : Ledger → PriceOp → Prop) :
    Ledger → List (MarketKey × PriceRecord) → Prop
  | start : PriceRun crypto allowed Ledger.empty []
  | op {s : Ledger} {log : List (MarketKey × PriceRecord)} (op : PriceOp)
      (hs : PriceRun crypto allowed s log) (hallowed : allowed s op) :
      PriceRun crypto allowed (op.run crypto s) (log ++ op.writes crypto s)
  | other {s s' : Ledger} {log : List (MarketKey × PriceRecord)} (hs : PriceRun crypto allowed s log)
      (hschedule : s'.market.schedule = s.market.schedule)
      (hrecord : s'.market.record = s.market.record) : PriceRun crypto allowed s' log

theorem PriceRun.pricesKept {log : List (MarketKey × PriceRecord)}
    (h : PriceRun crypto (fun s op => op.Orderly s) s log) : PricesKept s.market log := by
  induction h with
  | start => exact ⟨rfl, VersionLog.ascending_nil, fun key => by simp [VersionLog.Below]⟩
  | op op _ horderly ih => exact ih.change (op.priceChange horderly)
  | other _ hschedule hrecord ih =>
    have hkept := ih.change (.none hschedule hrecord)
    rwa [List.append_nil] at hkept

/--
Along an orderly run the versions of every enclave and bracket rise in the order in which they are stored,
and the store holds every price record as it was stored.
-/
theorem price_versions_immutable {log : List (MarketKey × PriceRecord)}
    (hrun : PriceRun crypto (fun s op => op.Orderly s) s log) :
    VersionLog.Ascending PriceRecord.ver log ∧ ∀ key ver record, s.market.record.get (key, ver) = some record ↔
        (key, record) ∈ log ∧ record.ver = ver := by
  have hkept := hrun.pricesKept
  refine ⟨hkept.ascending, fun key ver record => ?_⟩
  rw [hkept.record_eq]
  exact VersionLog.get_iff_of_ascending hkept.ascending

def speechLedger : Ledger :=
  { Ledger.empty with
    registry := { Registry.empty with
      admin := some 10
      enclaves := Table.empty.put 40 ⟨.active, .admin, "m", some .stt, 0, [.audio], []⟩ }
    market := { Ledger.empty.market with
      modelRef := Table.empty.put "m" ⟨some .stt, [⟨"audio_second", 100, 1⟩], none, some 1⟩ } }

def speechPrice (perUnitAu effectiveAt : Nat) : SetPriceValue :=
  ⟨40, [⟨"audio_second", perUnitAu, 1⟩], 0, 0, effectiveAt, none⟩

def speechPriced : Ledger :=
  let priced := (speechLedger.setPrice 10 (speechPrice 100 0)).1
  { priced with market := { priced.market with activityIndex := [⟨40, none, none⟩] } }

def speechPending : Ledger := (speechPriced.setPrice 10 (speechPrice 200 10000000)).1

def speechSealed : Ledger := (speechPending.epochSealEmpty plainHost 10 1 1 3600 0).1

def speechLog : List (MarketKey × PriceRecord) :=
  (PriceOp.setPrice 10 (speechPrice 100 0)).writes plainHost speechLedger ++
    (PriceOp.setPrice 10 (speechPrice 200 10000000)).writes plainHost speechPriced ++
    (PriceOp.epochSealEmpty 10 1 1 3600 0).writes plainHost speechPending

theorem speechSealed_run (allowed : Ledger → PriceOp → Prop)
    (hfirst : allowed speechLedger (.setPrice 10 (speechPrice 100 0)))
    (hsecond : allowed speechPriced (.setPrice 10 (speechPrice 200 10000000)))
    (hseal : allowed speechPending (.epochSealEmpty 10 1 1 3600 0)) :
    PriceRun plainHost allowed speechSealed speechLog := by
  have hledger : PriceRun plainHost allowed speechLedger [] := .other .start rfl rfl
  have hpriced : PriceRun plainHost allowed speechPriced _ := .other (.op _ hledger hfirst) rfl rfl
  exact .op _ (.op _ hpriced hsecond) hseal

theorem price_versions_speech : ∃ s log, PriceRun plainHost (fun s op => op.Orderly s) s log ∧
      log.map (fun entry => entry.2.ver) = [1, 2, 3] ∧
      VersionLog.Ascending PriceRecord.ver log := by
  have hrun := speechSealed_run (fun s op => op.Orderly s) (by decide +kernel)
    (by decide +kernel) (by decide +kernel)
  exact ⟨speechSealed, speechLog, hrun, by decide +kernel, (price_versions_immutable hrun).1⟩

/--
While the second price waits, every empty epoch stores a third one, with other terms each time.
-/
theorem price_version_overwritten : ∃ s log, PriceRun plainHost (fun _ _ => True) s log ∧
      log.map (fun entry => (entry.1, entry.2.ver, entry.2.terms.rateMap)) =
        [((40, none), 1, [⟨"audio_second", 100, 1⟩]), ((40, none), 2, [⟨"audio_second", 200, 1⟩]),
          ((40, none), 3, [⟨"audio_second", 100, 1⟩]), ((40, none), 3, [⟨"audio_second", 90, 1⟩])] :=
  ⟨_, _, .op (.epochSealEmpty 10 2 2 7200 0)
    (speechSealed_run _ trivial trivial trivial) trivial, by decide +kernel⟩

end Ledger

end Mayhem
