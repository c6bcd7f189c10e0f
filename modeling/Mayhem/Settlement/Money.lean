import Mayhem.Settlement.Facts

namespace Mayhem

section

variable {α : Type} {reg reg' : Registry} {rail : Rail} {scope : α → Option TapScope}
  {stored : Option α} {fresh : Option TapScope → α}

theorem readScoped_of_stored (hfresh : ∀ tap, scope (fresh tap) = tap) {record next : α}
    (hread : readScoped reg rail scope stored fresh = .ok record)
    (hscope : railScope reg' rail = railScope reg rail) (hnext : scope next = scope record) :
    readScoped reg' rail scope (some next) fresh = .ok next := by
  cases htap : railScope reg rail with
  | error => simp [readScoped, htap] at hread
  | ok tap =>
    rw [readScoped, htap, Except.bind_of_ok] at hread
    obtain rfl := Except.ok.inj hread
    rw [readScoped, hscope, htap, Except.bind_of_ok]
    cases tap with
    | none => rfl
    | some pool =>
      -- the record that was read is in the pool in force, whether it was stored or is fresh
      have hpool : scope ((scopedRecord (some pool) scope stored).getD (fresh (some pool))) = some pool := by
        cases hstored : scopedRecord (some pool) scope stored with
        | none => exact hfresh (some pool)
        | some record =>
          rw [scopedRecord, Option.filter_eq_some_iff] at hstored
          simpa using hstored.2
      rw [scopedRecord, Option.filter_some, hnext, hpool]
      simp

variable {K : Type} [DecidableEq K] {table : Table K α} {entries : List (K × α)} {k : K}

theorem readScoped_putAll_of_mem (hfresh : ∀ tap, scope (fresh tap) = tap) {record next : α}
    (hread : readScoped reg rail scope (table.get k) fresh = .ok record)
    (hscope : railScope reg' rail = railScope reg rail) (hnodup : (entries.map Prod.fst).Nodup)
    (hmem : (k, next) ∈ entries) (hnext : scope next = scope record) :
    readScoped reg' rail scope ((table.putAll entries).get k) fresh = .ok next := by
  rw [Table.get_putAll_of_mem _ _ hnodup hmem]
  exact readScoped_of_stored hfresh hread hscope hnext

theorem readScoped_putAll_of_not_mem (hscope : railScope reg' rail = railScope reg rail)
    (hnot : k ∉ entries.map Prod.fst) :
    readScoped reg' rail scope ((table.putAll entries).get k) fresh =
      readScoped reg rail scope (table.get k) fresh := by
  rw [Table.get_putAll_of_not_mem _ _ _ hnot, readScoped, readScoped, hscope]

end

def readAu {α : Type} (amount : α → Nat) : Except String α → Nat
  | .ok record => amount record
  | .error _ => 0

namespace Ledger

def balanceAu (s : Ledger) (user : PublicKey) (rail : Rail) : Nat :=
  readAu BalanceRecord.au (s.balanceRecord user rail)

def earnedAu (s : Ledger) (provider : PublicKey) (rail : Rail) : Nat :=
  readAu (fun record => record.earned.totalAu) (s.earningRecord provider rail)

def feeCumAu (s : Ledger) (rail : Rail) : Nat := readAu FeeRecord.cumAu (s.feeCumRecord rail)

def burnCumAu (s : Ledger) (rail : Rail) : Nat := readAu BurnRecord.cumAu (s.burnCumRecord rail)

end Ledger

def Allocation.debit (a : Allocation) : (Rail × PublicKey) × Nat := ((a.rail, a.user), a.au)

def Allocation.credit (a : Allocation) : (Rail × PublicKey) × Nat := ((a.rail, a.provider), a.au)

def Debit.entry (d : Debit) : (Rail × PublicKey) × Nat := ((d.rail, d.user), d.au)

def TargetedEarning.entry (e : TargetedEarning) : (Rail × PublicKey) × Nat :=
  ((e.rail, e.provider), e.grossAu)

theorem bindAllocations_totals {s : Ledger} {epoch : Nat} {key : Digest} {allocations : List Allocation}
    {bindings next : Bindings} (h : allocations.foldlM (bindAllocation s epoch key) bindings = .ok next) :
    next.debits = Tally.addAll bindings.debits (allocations.map Allocation.debit) ∧
      next.earnings = Tally.addAll bindings.earnings
        (allocations.map fun a => ((a.rail, a.provider, a.payoutRevision), a.au)) := by
  induction allocations generalizing bindings with
  | nil =>
    rw [List.foldlM_nil, Except.pure_accepts_iff] at h
    subst h
    exact ⟨rfl, rfl⟩
  | cons a allocations ih =>
    rw [List.foldlM_cons, Except.bind_accepts_iff] at h
    obtain ⟨_, hbound, h⟩ := h
    obtain ⟨_, hbound⟩ := bindAllocation_eq_ok hbound
    obtain ⟨hdebits, hearnings⟩ := ih h
    rw [hdebits, hearnings, hbound.debits_eq, hbound.earnings_eq]
    exact ⟨rfl, rfl⟩

namespace BoundPage

variable {s : Ledger} {value : TargetedEpochValue} {key : Digest} {holds : Holds}
  {markets : List MarketTally} {bindings : Bindings}

theorem amount_debits (h : BoundPage s value key holds markets bindings) (account : Rail × PublicKey) :
    Tally.amount (value.debits.map Debit.entry) account =
      Tally.amount (value.allocations.map Allocation.debit) account := by
  have hnodup : ((Tally.addAll [] (value.debits.map Debit.entry)).map Prod.fst).Nodup :=
    Tally.nodup_keys_addAll _ List.nodup_nil
  have hsame := Tally.amount_perm (Tally.perm_of_lookup hnodup h.debits_eq h.debits_length) account
  rw [(bindAllocations_totals h.bind_ok).1, Tally.amount_addAll, Tally.amount_addAll] at hsame
  simpa using hsame

theorem amount_earnings (h : BoundPage s value key holds markets bindings)
    (hnodup : (value.earnings.map TargetedEarning.account).Nodup) (account : Rail × PublicKey) :
    Tally.amount (value.earnings.map TargetedEarning.entry) account =
      Tally.amount (value.allocations.map Allocation.credit) account := by
  let entry (e : TargetedEarning) : (Rail × PublicKey × Digest) × Nat :=
    ((e.rail, e.provider, e.payoutRevision), e.grossAu)
  let coarse (k : Rail × PublicKey × Digest) : Rail × PublicKey := (k.1, k.2.1)
  have hkeys : ((value.earnings.map entry).map Prod.fst).Nodup := by
    refine List.Nodup.of_map coarse ?_
    rw [List.map_map, List.map_map]
    exact hnodup
  have hfound : ∀ e ∈ value.earnings.map entry, bindings.earnings.lookup e.1 = some e.2 :=
    List.forall_mem_map.mpr h.earnings_eq
  have hperm := Tally.perm_of_lookup hkeys hfound (by rw [List.length_map, h.earnings_length])
  have hsame := Tally.amount_perm (hperm.map (Prod.map coarse id)) account
  rw [(bindAllocations_totals h.bind_ok).2, Tally.amount_map_addAll, List.map_map, List.map_map] at hsame
  refine hsame.trans ?_
  exact Nat.zero_add _

end BoundPage

theorem pageTotals_eq_ok {value : TargetedEpochValue} {param : ParamKey → Nat} {totals : PageTotals}
    (h : pageTotals value param = .ok totals) :
    totals.debits = Tally.addAll [] (value.debits.map Debit.entry) ∧
      totals.gross = Tally.addAll [] (value.earnings.map TargetedEarning.entry) ∧
      ∀ rail, railTotals totals.debits rail = railTotals totals.gross rail := by
  simp only [pageTotals, aggregateRailLedgerEntries, assertMatchingRailTotals, checks_iff, not_exists,
    not_and, not_not] at h
  obtain ⟨-, -, _, ⟨-, rfl⟩, _, ⟨-, rfl⟩, hrails, _, -, rfl⟩ := h
  refine ⟨rfl, rfl, fun rail => hrails rail ?_⟩
  cases rail <;> decide

def SettlementDelta.grossAu (delta : SettlementDelta) : Nat :=
  delta.feeAu + delta.burnAu + delta.providerAu

theorem providerSettlementPageDelta_grossAu {grossAu priorGrossAu feeBps : Nat} {rail : Rail}
    {delta : SettlementDelta} (h : providerSettlementPageDelta grossAu priorGrossAu rail feeBps = .ok delta) :
    delta.grossAu = grossAu := by
  simp only [providerSettlementPageDelta, checks_iff, safeSubAu_eq_ok] at h
  obtain ⟨_, -, _, -, _, ⟨_, rfl⟩, _, ⟨_, rfl⟩, rfl⟩ := h
  dsimp only [SettlementDelta.grossAu]
  omega

namespace Ledger

variable {s : Ledger}

variable {value : TargetedEpochValue}

theorem liabilityUpdate_delta {key : Digest} {bounded replay : Bool} {earning : TargetedEarning}
    {update : LiabilityUpdate} (h : s.liabilityUpdate value key bounded replay earning = .ok update) :
    update.earning = earning ∧ ∃ priorGrossAu,
      priorPageGross s.epochs value bounded replay earning = .ok priorGrossAu ∧
      providerSettlementPageDelta earning.grossAu priorGrossAu earning.rail
        (s.registry.activeParamAt value.time .feeBps) = .ok update.delta := by
  simp only [liabilityUpdate, checks_iff] at h
  obtain ⟨_, -, _, -, -, priorGrossAu, hprior, delta, hdelta, -, -, _, -, _, -, -, rfl⟩ := h
  exact ⟨rfl, priorGrossAu, hprior, hdelta⟩

variable {epoch : Nat}

theorem creditEarned_totalAu {param : ParamKey → Nat} {provider : PublicKey} {record : ProviderRecord}
    {aggregate earned next : Earned} {au : Nat}
    (h : s.creditEarned epoch param provider record aggregate earned au = .ok next) :
    next.totalAu = earned.totalAu + au := by
  simp only [creditEarned, refreshEarningHoldback, checks_iff] at h
  obtain ⟨_, -, _, -, _, -, _, ⟨-, -, _, -, rfl⟩, _, -, rfl⟩ := h
  rfl

theorem creditEarning_eq_ok {param : ParamKey → Nat}
    {share : (Rail × PublicKey) × ProviderRecord × SettlementDelta}
    {entry : (PublicKey × Rail) × EarningRecord} (h : s.creditEarning epoch param share = .ok entry) :
    entry.1 = (share.1.2, share.1.1) ∧ ∃ current, s.earningRecord share.1.2 share.1.1 = .ok current ∧
      entry.2.scope = current.scope ∧
      entry.2.earned.totalAu = current.earned.totalAu + share.2.2.providerAu := by
  obtain ⟨⟨_, _⟩, _, _⟩ := share
  simp only [creditEarning, checks_iff] at h
  obtain ⟨current, hcurrent, -, earned, hearned, rfl⟩ := h
  exact ⟨rfl, current, hcurrent, rfl, creditEarned_totalAu hearned⟩

theorem debitBalance_eq_ok {entry : (Rail × PublicKey) × Nat} {debited : (PublicKey × Rail) × BalanceRecord}
    (h : s.debitBalance epoch entry = .ok debited) :
    debited.1 = (entry.1.2, entry.1.1) ∧ ∃ balance, s.balanceRecord entry.1.2 entry.1.1 = .ok balance ∧
      debited.2.scope = balance.scope ∧ entry.2 ≤ balance.au ∧
      debited.2.au = balance.au - entry.2 := by
  obtain ⟨⟨_, _⟩, au⟩ := entry
  simp only [debitBalance, checks_iff] at h
  obtain ⟨balance, hbalance, -, hcovered, rfl⟩ := h
  exact ⟨rfl, balance, hbalance, rfl, Nat.le_of_not_lt hcovered, rfl⟩

structure PreparedMoney (s : Ledger) (value : TargetedEpochValue) (totals : PageTotals)
    (commit : EpochCommit) (options : ApplyOptions) (money : PageMoney) : Prop where
  balances_ok : totals.debits.mapM (s.debitBalance value.epoch) = .ok money.balances
  shares_ok : totals.gross.mapM (s.earningDelta commit.targetedReceiptPages options.deltas
    (s.registry.activeParamAt value.time .feeBps)) = .ok money.shares
  earnings_ok : money.shares.mapM (s.creditEarning value.epoch (s.registry.activeParamAt value.time)) =
    .ok money.earnings

theorem prepareMoney_eq_ok {totals : PageTotals} {commit : EpochCommit} {options : ApplyOptions}
    {money : PageMoney} (h : s.prepareMoney value totals commit options = .ok money) :
    PreparedMoney s value totals commit options money := by
  simp only [prepareMoney, checks_iff, not_and, not_not] at h
  obtain ⟨_, -, -, _, hbalances, _, hshares, _, hearnings, rfl⟩ := h
  exact ⟨hbalances, hshares, hearnings⟩

theorem railUpdate_eq_ok {deltas : RailDeltas} {rail : Rail} {update : RailUpdate}
    (h : s.railUpdate epoch deltas rail = .ok update) :
    update.rail = rail ∧ (∃ fee, s.feeCumRecord rail = .ok fee ∧ (deltas.touched rail = true →
        update.nextFee.scope = fee.scope ∧ update.nextFee.cumAu = fee.cumAu + deltas.feeAu rail)) ∧
      ∃ burn, s.burnCumRecord rail = .ok burn ∧ (deltas.touched rail = true →
        update.nextBurn.scope = burn.scope ∧ update.nextBurn.cumAu = burn.cumAu + deltas.burnAu rail) := by
  simp only [railUpdate, checks_iff] at h
  obtain ⟨fee, hfee, -, burn, hburn, -, rfl⟩ := h
  refine ⟨rfl, ⟨fee, hfee, fun htouched => ?_⟩, burn, hburn, fun htouched => ?_⟩
  . dsimp only
    rw [if_pos htouched]
    exact ⟨rfl, rfl⟩
  . dsimp only
    rw [if_pos htouched]
    exact ⟨rfl, rfl⟩

theorem promotePayoutPointers_eq (reg : Registry) (epoch : Nat) (updates : List LiabilityUpdate) :
    ∃ pointers, updates.foldl (fun reg update => reg.promotePayoutPointer epoch update) reg =
      { reg with payoutPointers := pointers } := by
  induction updates generalizing reg with
  | nil => exact ⟨reg.payoutPointers, rfl⟩
  | cons update updates ih =>
    obtain ⟨pointers, hpointers⟩ := ih (reg.promotePayoutPointer epoch update)
    refine ⟨pointers, ?_⟩
    rw [List.foldl_cons, hpointers, Registry.promotePayoutPointer]
    split
    . rfl
    . split <;> rfl

theorem settled_registry (plan : ApplyPlan) (feature : FeaturePlan) (market : Market) :
    ∃ pointers, (s.settled plan feature market).registry = { s.registry with
      payoutPointers := pointers } :=
  promotePayoutPointers_eq s.registry feature.epoch feature.liabilities

theorem settled_railScope (plan : ApplyPlan) (feature : FeaturePlan) (market : Market) (rail : Rail) :
    railScope (s.settled plan feature market).registry rail = railScope s.registry rail := by
  obtain ⟨_, hpointers⟩ := settled_registry (s := s) plan feature market
  rw [hpointers]
  rfl

structure AppliedPage (crypto : Crypto) (s : Ledger) (sender : PublicKey) (key : Digest)
    (value : TargetedEpochValue) (transition : Option CommitTransition) (feature : FeaturePlan)
    (plan : ApplyPlan) where
  page : NewPage crypto s sender key value feature.options plan
  bindings : Bindings
  prepared : PreparedFeature s key value transition feature
  bound : BoundPage s value key feature.holds feature.options.markets bindings
  committed : CommittedPage s sender value feature.options page.totals page.epochCommit
  money : PreparedMoney s value page.totals page.epochCommit feature.options page.money

theorem appliedPage_of_settled {crypto : Crypto} {sender : PublicKey} {key : Digest}
    {transition : Option CommitTransition} {feature : FeaturePlan} {plan : ApplyPlan}
    (hfeature : s.prepareFeature key value transition = .ok feature)
    (hplan : s.prepareApply crypto sender key value feature.options = .ok (some plan)) :
    Nonempty (AppliedPage crypto s sender key value transition feature plan) := by
  obtain ⟨page⟩ := newPage_of_plan hplan
  have hprepared := prepareFeature_eq_ok hfeature
  obtain ⟨bindings, hbound⟩ := reservationBindings_eq_ok hprepared.bindings_ok
  exact ⟨{
    page := page
    bindings := bindings
    prepared := hprepared
    bound := hbound
    committed := prepareApplyCommit_eq_ok page.commit_ok
    money := prepareMoney_eq_ok page.money_ok }⟩

namespace AppliedPage

variable {crypto : Crypto} {s' : Ledger} {sender : PublicKey} {key : Digest}
  {value : TargetedEpochValue} {transition : Option CommitTransition} {feature : FeaturePlan}
  {plan : ApplyPlan}
  (h : AppliedPage crypto s sender key value transition feature plan)

include h

theorem debits_eq : h.page.totals.debits = Tally.addAll [] (value.debits.map Debit.entry) :=
  (pageTotals_eq_ok h.committed.totals_ok).1

theorem gross_eq : h.page.totals.gross = Tally.addAll [] (value.earnings.map TargetedEarning.entry) :=
  (pageTotals_eq_ok h.committed.totals_ok).2.1

theorem nodup_debits : (h.page.totals.debits.map Prod.fst).Nodup := by
  rw [h.debits_eq]
  exact Tally.nodup_keys_addAll _ List.nodup_nil

theorem nodup_gross : (h.page.totals.gross.map Prod.fst).Nodup := by
  rw [h.gross_eq]
  exact Tally.nodup_keys_addAll _ List.nodup_nil

theorem amount_debits (account : Rail × PublicKey) : Tally.amount h.page.totals.debits account =
      Tally.amount (value.allocations.map Allocation.debit) account := by
  rw [h.debits_eq, Tally.amount_addAll, h.bound.amount_debits]
  exact Nat.zero_add _

theorem gross_eq_shares : h.page.totals.gross = h.page.money.shares.map fun share =>
    (share.1, share.2.2.grossAu) := by
  have hdeltas : ∀ delta ∈ feature.options.deltas, delta.2.2.grossAu = delta.2.1 := by
    intro delta hdelta
    rw [h.prepared.deltas_eq] at hdelta
    obtain ⟨_, hupdate, rfl⟩ := List.mem_map.mp hdelta
    obtain ⟨_, -, hupdate⟩ := Except.exists_of_mem_mapM_result h.prepared.liabilities_ok hupdate
    obtain ⟨heq, _, -, hdelta⟩ := liabilityUpdate_delta hupdate
    rw [providerSettlementPageDelta_grossAu hdelta, heq]
  rw [Except.map_eq_of_mapM h.money.shares_ok (q := id)]
  . exact (List.map_id _).symm
  . rintro ⟨⟨_, _⟩, grossAu⟩ share hshare
    simp only [earningDelta, checks_iff] at hshare
    obtain ⟨_, -, -, hshare⟩ := hshare
    split at hshare
    . simp only [checks_iff, Prod.exists, not_not] at hshare
      obtain ⟨_, delta, hlookup, rfl, rfl⟩ := hshare
      exact Prod.ext rfl (hdeltas _ (Tally.mem_of_lookup hlookup))
    . simp only [checks_iff, not_or] at hshare
      obtain ⟨⟨_, _⟩, rfl⟩ := hshare
      dsimp only [SettlementDelta.grossAu, id]
      refine Prod.ext rfl ?_
      dsimp only
      omega

theorem share_keys : h.page.money.shares.map Prod.fst = h.page.totals.gross.map Prod.fst := by
  rw [h.gross_eq_shares, List.map_map]
  rfl

theorem balance_keys : plan.balances.map Prod.fst = (h.page.totals.debits.map Prod.fst).map Prod.swap := by
  rw [h.page.balances_eq, List.map_map]
  apply Except.map_eq_of_mapM h.money.balances_ok
  intro _ _ hdebited
  exact (debitBalance_eq_ok hdebited).1

theorem earning_keys : plan.earnings.map Prod.fst = (h.page.totals.gross.map Prod.fst).map Prod.swap := by
  rw [h.page.earnings_eq, ← h.share_keys, List.map_map]
  apply Except.map_eq_of_mapM h.money.earnings_ok
  intro _ _ hentry
  exact (creditEarning_eq_ok hentry).1

variable {rail : Rail}

theorem mem_balance_keys {user : PublicKey} : (user, rail) ∈ plan.balances.map Prod.fst ↔
      (rail, user) ∈ h.page.totals.debits.map Prod.fst := by
  rw [h.balance_keys]
  exact List.mem_map_of_injective Prod.swap_injective (a := (rail, user))

theorem mem_earning_keys {provider : PublicKey} : (provider, rail) ∈ plan.earnings.map Prod.fst ↔
      (rail, provider) ∈ h.page.totals.gross.map Prod.fst := by
  rw [h.earning_keys]
  exact List.mem_map_of_injective Prod.swap_injective (a := (rail, provider))

theorem nodup_balances : (plan.balances.map Prod.fst).Nodup := by
  rw [h.balance_keys]
  exact h.nodup_debits.map Prod.swap_injective

theorem nodup_earnings : (plan.earnings.map Prod.fst).Nodup := by
  rw [h.earning_keys]
  exact h.nodup_gross.map Prod.swap_injective

theorem balanceAu_add (user : PublicKey) (hscope : railScope s'.registry rail = railScope s.registry rail)
    (hbalance : s'.accounts.balance = s.accounts.balance.putAll plan.balances) :
    s'.balanceAu user rail + Tally.amount (value.allocations.map Allocation.debit) (rail, user) =
      s.balanceAu user rail := by
  rw [← h.amount_debits]
  by_cases hmem : (rail, user) ∈ h.page.totals.debits.map Prod.fst
  . obtain ⟨⟨_, _⟩, hentry, rfl⟩ := List.mem_map.mp hmem
    obtain ⟨debited, hdebited, hok⟩ := Except.exists_of_mem_mapM h.money.balances_ok hentry
    obtain ⟨hkey, balance, hread, hkept, hle, hau⟩ := debitBalance_eq_ok hok
    rw [← h.page.balances_eq] at hdebited
    have hnext : s'.balanceRecord user rail = .ok debited.2 := by
      rw [balanceRecord, hbalance]
      exact readScoped_putAll_of_mem (fun _ => rfl) hread hscope h.nodup_balances (hkey ▸ hdebited) hkept
    rw [balanceAu, balanceAu, hnext, hread, Tally.amount_of_mem h.nodup_debits hentry]
    dsimp only [readAu] at hle hau ⊢
    omega
  . have hnext : s'.balanceRecord user rail = s.balanceRecord user rail := by
      rw [balanceRecord, hbalance]
      exact readScoped_putAll_of_not_mem hscope (h.mem_balance_keys.not.mpr hmem)
    rw [Tally.amount_of_not_mem hmem, balanceAu, balanceAu, hnext]
    rfl

theorem earnedAu_eq (provider : PublicKey) (hscope : railScope s'.registry rail = railScope s.registry rail)
    (hearning : s'.accounts.earning = s.accounts.earning.putAll plan.earnings) :
    s'.earnedAu provider rail = s.earnedAu provider rail +
      Tally.amount (h.page.money.shares.map fun share => (share.1, share.2.2.providerAu))
        (rail, provider) := by
  have hkeys : (h.page.money.shares.map fun share => (share.1, share.2.2.providerAu)).map Prod.fst =
      h.page.totals.gross.map Prod.fst := by
    rw [List.map_map, ← h.share_keys]
    rfl
  by_cases hmem : (rail, provider) ∈ h.page.totals.gross.map Prod.fst
  . rw [← h.share_keys] at hmem
    obtain ⟨share, hshare, heq⟩ := List.mem_map.mp hmem
    obtain ⟨entry, hentry, hok⟩ := Except.exists_of_mem_mapM h.money.earnings_ok hshare
    obtain ⟨hkey, _, hread, hkept, htotal⟩ := creditEarning_eq_ok hok
    rw [heq] at hkey hread
    rw [← h.page.earnings_eq] at hentry
    have hnext : s'.earningRecord provider rail = .ok entry.2 := by
      rw [earningRecord, hearning]
      exact readScoped_putAll_of_mem (fun _ => rfl) hread hscope h.nodup_earnings (hkey ▸ hentry) hkept
    rw [earnedAu, earnedAu, hnext, hread, Tally.amount_of_mem (n := share.2.2.providerAu)]
    . exact htotal
    . rw [hkeys]
      exact h.nodup_gross
    . exact List.mem_map.mpr ⟨share, hshare, by rw [heq]⟩
  . have hnext : s'.earningRecord provider rail = s.earningRecord provider rail := by
      rw [earningRecord, hearning]
      exact readScoped_putAll_of_not_mem hscope (h.mem_earning_keys.not.mpr hmem)
    rw [Tally.amount_of_not_mem (hkeys ▸ hmem), earnedAu, earnedAu, hnext]
    rfl

theorem railTotals_gross (rail : Rail) : railTotals h.page.totals.gross rail =
      h.page.money.feeAu rail + h.page.money.burnAu rail +
        ((h.page.money.shares.filter fun share => share.1.1 = rail).map
          fun share => share.2.2.providerAu).sum := by
  rw [h.gross_eq_shares, railTotals, sumRailAu, PageMoney.feeAu, PageMoney.burnAu, List.filter_map,
    List.map_map, ← List.sum_map_add, ← List.sum_map_add]
  rfl

theorem untouched (hrail : (h.page.money.deltas h.page.totals).touched rail = false) :
    h.page.money.feeAu rail = 0 ∧ h.page.money.burnAu rail = 0 := by
  have hgross : railTotals h.page.totals.gross rail = 0 := by
    rw [RailDeltas.touched, decide_eq_false_iff_not, not_or] at hrail
    dsimp only [PageMoney.deltas] at hrail
    omega
  rw [h.railTotals_gross] at hgross
  omega

theorem rails_eq : plan.rails.map RailUpdate.rail =
      providerAcceptedRailOrder.filter (h.page.money.deltas h.page.totals).touched := by
  have hrails : h.page.railUpdates.map RailUpdate.rail = providerAcceptedRailOrder.map id :=
    Except.map_eq_of_mapM h.page.rails_ok fun rail update hupdate => (railUpdate_eq_ok hupdate).1
  rw [List.map_id] at hrails
  rw [← hrails, h.page.rails_eq, List.filter_map]
  rfl

theorem mem_rails : rail ∈ plan.rails.map RailUpdate.rail ↔
      (h.page.money.deltas h.page.totals).touched rail = true := by
  rw [h.rails_eq, List.mem_filter]
  have hall : rail ∈ providerAcceptedRailOrder := by cases rail <;> decide
  exact and_iff_right hall

theorem nodup_rails : (plan.rails.map RailUpdate.rail).Nodup := by
  rw [h.rails_eq]
  exact List.Nodup.filter _ (by decide)

theorem exists_update (hrail : (h.page.money.deltas h.page.totals).touched rail = true) : ∃ update ∈ plan.rails,
      s.railUpdate value.epoch (h.page.money.deltas h.page.totals) rail = .ok update := by
  obtain ⟨update, hupdate, rfl⟩ := List.mem_map.mp (h.mem_rails.mpr hrail)
  refine ⟨update, hupdate, ?_⟩
  rw [h.page.rails_eq] at hupdate
  obtain ⟨rail, -, hok⟩ := Except.exists_of_mem_mapM_result h.page.rails_ok (List.mem_of_mem_filter hupdate)
  rw [(railUpdate_eq_ok hok).1]
  exact hok

theorem readAu_rails {α : Type}
    {amount : α → Nat} {scope : α → Option TapScope} {fresh : Option TapScope → α} {table : Table Rail α}
    {next : RailUpdate → α} {movedAu : Nat} (hfresh : ∀ tap, scope (fresh tap) = tap)
    (hscope : railScope s'.registry rail = railScope s.registry rail)
    (huntouched : (h.page.money.deltas h.page.totals).touched rail = false → movedAu = 0)
    (htouched : ∀ update, s.railUpdate value.epoch (h.page.money.deltas h.page.totals) rail = .ok update →
      (h.page.money.deltas h.page.totals).touched rail = true →
      ∃ record, readScoped s.registry rail scope (table.get rail) fresh = .ok record ∧
        scope (next update) = scope record ∧ amount (next update) = amount record + movedAu) :
    readAu amount (readScoped s'.registry rail scope
        ((table.putAll (plan.rails.map fun update => (update.rail, next update))).get rail) fresh) =
      readAu amount (readScoped s.registry rail scope (table.get rail) fresh) + movedAu := by
  have hkeys : (plan.rails.map fun update => (update.rail, next update)).map Prod.fst =
      plan.rails.map RailUpdate.rail := by
    rw [List.map_map]
    rfl
  cases hrail : (h.page.money.deltas h.page.totals).touched rail with
  | true =>
    obtain ⟨update, hupdate, hok⟩ := h.exists_update hrail
    obtain ⟨record, hread, hkept, hamount⟩ := htouched update hok hrail
    rw [readScoped_putAll_of_mem hfresh hread hscope (hkeys ▸ h.nodup_rails) ?_ hkept, hread]
    . exact hamount
    . exact List.mem_map.mpr ⟨update, hupdate, by rw [(railUpdate_eq_ok hok).1]⟩
  | false =>
    have hnot : rail ∉ plan.rails.map RailUpdate.rail := by
      rw [h.mem_rails, hrail]
      exact Bool.false_ne_true
    rw [readScoped_putAll_of_not_mem hscope (hkeys ▸ hnot), huntouched hrail]
    rfl

theorem feeCumAu_eq
    (hscope : railScope s'.registry rail = railScope s.registry rail) (hfee : s'.accounts.fee =
      s.accounts.fee.putAll (plan.rails.map fun update => (update.rail, update.nextFee))) :
    s'.feeCumAu rail = s.feeCumAu rail + h.page.money.feeAu rail := by
  rw [feeCumAu, feeCumRecord, hfee]
  refine h.readAu_rails (fun _ => rfl) hscope (fun hrail => (h.untouched hrail).1) ?_
  intro update hok hrail
  obtain ⟨-, ⟨fee, hread, hnext⟩, -⟩ := railUpdate_eq_ok hok
  exact ⟨fee, hread, hnext hrail⟩

theorem burnCumAu_eq
    (hscope : railScope s'.registry rail = railScope s.registry rail) (hburn : s'.accounts.burn =
      s.accounts.burn.putAll (plan.rails.map fun update => (update.rail, update.nextBurn))) :
    s'.burnCumAu rail = s.burnCumAu rail + h.page.money.burnAu rail := by
  rw [burnCumAu, burnCumRecord, hburn]
  refine h.readAu_rails (fun _ => rfl) hscope (fun hrail => (h.untouched hrail).2) ?_
  intro update hok hrail
  obtain ⟨-, -, burn, hread, hnext⟩ := railUpdate_eq_ok hok
  exact ⟨burn, hread, hnext hrail⟩

theorem debit_of_allocation
    {account : Rail × PublicKey} (hmem : account ∈ h.page.totals.debits.map Prod.fst) :
    ∃ a ∈ value.allocations, a.rail = account.1 ∧ a.user = account.2 := by
  rw [h.debits_eq] at hmem
  obtain ⟨entry, hentry, rfl⟩ := List.mem_map.mp hmem
  have hfound := List.mem_map_of_mem (f := Prod.fst) (Tally.mem_of_lookup (h.bound.debits_eq entry hentry))
  rw [(bindAllocations_totals h.bound.bind_ok).1, Tally.mem_keys_addAll, List.map_map] at hfound
  rcases hfound with hfound | hfound
  . cases hfound
  . obtain ⟨a, ha, heq⟩ := List.mem_map.mp hfound
    obtain ⟨hrail, huser⟩ := Prod.mk.inj heq
    exact ⟨a, ha, hrail, huser⟩

theorem earning_of_allocation
    {account : Rail × PublicKey} (hmem : account ∈ h.page.totals.gross.map Prod.fst) :
    ∃ a ∈ value.allocations, a.rail = account.1 ∧ a.provider = account.2 := by
  rw [h.gross_eq, Tally.mem_keys_addAll, List.map_map] at hmem
  rcases hmem with hmem | hmem
  . cases hmem
  . obtain ⟨e, he, heq⟩ := List.mem_map.mp hmem
    obtain ⟨hrail, hprovider⟩ := Prod.mk.inj heq
    have hfound := List.mem_map_of_mem (f := Prod.fst) (Tally.mem_of_lookup (h.bound.earnings_eq e he))
    rw [(bindAllocations_totals h.bound.bind_ok).2, Tally.mem_keys_addAll, List.map_map] at hfound
    rcases hfound with hfound | hfound
    . cases hfound
    . obtain ⟨a, ha, heq⟩ := List.mem_map.mp hfound
      simp only [Function.comp_apply, Prod.mk.injEq] at heq
      exact ⟨a, ha, heq.1.trans hrail, heq.2.1.trans hprovider⟩

theorem sum_shares (f : SettlementDelta → Nat) (rail : Rail) {providers : Finset PublicKey}
    (hproviders : ∀ a ∈ value.allocations, a.rail = rail → a.provider ∈ providers) :
    ∑ provider ∈ providers, Tally.amount
        (h.page.money.shares.map fun share => (share.1, f share.2.2)) (rail, provider) =
      ((h.page.money.shares.filter fun share => share.1.1 = rail).map fun share => f share.2.2).sum := by
  rw [Tally.sum_amount (fun provider => (rail, provider)) (Prod.mk_right_injective rail) _ providers
    (fun account => account.1 = rail) (fun _ => rfl), List.filter_map, List.map_map]
  . rfl
  . intro _ hentry hrail
    obtain ⟨share, hshare, rfl⟩ := List.mem_map.mp hentry
    have hmem : share.1 ∈ h.page.totals.gross.map Prod.fst := by
      rw [← h.share_keys]
      exact List.mem_map_of_mem hshare
    obtain ⟨a, ha, har, hap⟩ := h.earning_of_allocation hmem
    exact ⟨a.provider, hproviders a ha (har.trans hrail), Prod.ext hrail.symm hap⟩

theorem rail_of_allocation
    (hmem : rail ∈ plan.rails.map RailUpdate.rail) : ∃ a ∈ value.allocations, a.rail = rail := by
  have htouched := h.mem_rails.mp hmem
  have hpositive : 0 < railTotals h.page.totals.debits rail := by
    have hsame := (pageTotals_eq_ok h.committed.totals_ok).2.2 rail
    rw [RailDeltas.touched, decide_eq_true_eq] at htouched
    dsimp only [PageMoney.deltas] at htouched
    omega
  have hsome : (h.page.totals.debits.filter fun entry => entry.1.1 = rail) ≠ [] := by
    intro hnil
    rw [railTotals, hnil] at hpositive
    cases hpositive
  obtain ⟨entry, hentry⟩ := List.exists_mem_of_ne_nil _ hsome
  obtain ⟨hentry, hrail⟩ := List.mem_filter.mp hentry
  obtain ⟨a, ha, heq, -⟩ := h.debit_of_allocation (List.mem_map_of_mem hentry)
  exact ⟨a, ha, heq.trans (of_decide_eq_true hrail)⟩

end AppliedPage

end Ledger

end Mayhem
