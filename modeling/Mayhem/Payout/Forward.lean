import Mayhem.Lib.Amounts
import Mayhem.Payout.Atomic
import Mayhem.Payout.Ops

namespace Mayhem

namespace Payouts

variable (payouts : Payouts) (scope : TapScope)

def claimWei (account : String) : Option Nat :=
  (payouts.tapClaim.get (scope, account)).map TapCumulative.cumulativeWei

def refundWei (account : String) : Option Nat :=
  (payouts.tapRefund.get (scope, account)).map TapCumulative.cumulativeWei

def claimedWei : Nat := (payouts.tapState.get scope).elim 0 TapSettlementState.cumulativeProviderClaimedWei

def refundedWei : Nat := (payouts.tapState.get scope).elim 0 TapSettlementState.cumulativeBuyerRefundWei

end Payouts

/-! The entries of a settlement -/

structure TapEntry.Listed (entries : List TapEntry) (total : Nat) : Prop where
  nodup : (entries.map TapEntry.account).Nodup
  pos : ∀ entry ∈ entries, 0 < entry.cumulativeWei
  sum_eq : (entries.map TapEntry.cumulativeWei).sum = total

variable {entries : List TapEntry}

theorem normalizeClaimEntries_accepted {duplicate unordered : String}
    (h : normalizeClaimEntries entries duplicate unordered = .ok ()) :
    TapEntry.Listed entries (entries.map TapEntry.cumulativeWei).sum := by
  simp only [normalizeClaimEntries, checks_iff, not_not] at h
  obtain ⟨_, hentries, hnodup, -⟩ := h
  refine ⟨hnodup, ?_, rfl⟩
  intro _ hmem
  obtain ⟨_, -, hentry⟩ := Except.exists_of_mem_mapM hentries hmem
  simp only [normalizeTargetedTapSettlementEntry, checks_iff] at hentry
  omega

theorem claimOf_of_mem (hnodup : (entries.map TapEntry.account).Nodup) {entry : TapEntry}
    (hmem : entry ∈ entries) : claimOf entries entry.account = some entry.cumulativeWei := by
  rw [claimOf, Keyed.find?_eq_some hnodup hmem, Option.map_some]

theorem exists_of_claimOf {account : String} {wei : Nat} (h : claimOf entries account = some wei) :
    ∃ entry ∈ entries, entry.account = account ∧ entry.cumulativeWei = wei := by
  rw [claimOf, Option.map_eq_some_iff] at h
  obtain ⟨entry, hfind, rfl⟩ := h
  exact ⟨entry, List.mem_of_find?_eq_some hfind, by simpa using List.find?_some hfind, rfl⟩

theorem claimOf_eq_none {account : String} (h : account ∉ entries.map TapEntry.account) :
    claimOf entries account = none := by
  rw [claimOf, Option.map_eq_none_iff, List.find?_eq_none]
  intro entry hmem
  simpa using fun heq => h (List.mem_map.mpr ⟨entry, hmem, heq⟩)

/-! Storing entries -/

section

variable {table : Table (TapScope × String) TapCumulative} {entries : List TapEntry} {scope : TapScope}
variable {updates : List ((TapScope × String) × TapCumulative)}

def TapEntry.Stores (scope : TapScope) (entries : List TapEntry)
    (updates : List ((TapScope × String) × TapCumulative)) : Prop :=
  updates.map (fun update => (update.1, update.2.cumulativeWei)) =
    entries.map fun entry => ((scope, entry.account), entry.cumulativeWei)

theorem TapEntry.Stores.keys (h : Stores scope entries updates) :
    updates.map Prod.fst = entries.map fun entry => (scope, entry.account) := by
  have hkeys := congrArg (List.map Prod.fst) h
  rw [List.map_map, List.map_map] at hkeys
  exact hkeys

theorem TapEntry.Stores.get_other (h : Stores scope entries updates) {other : TapScope} (hne : other ≠ scope)
    (account : String) : (table.putAll updates).get (other, account) = table.get (other, account) := by
  apply Table.get_putAll_of_not_mem
  rw [h.keys, List.mem_map]
  rintro ⟨_, -, heq⟩
  exact hne (congrArg Prod.fst heq).symm

theorem TapEntry.Stores.get_new (h : Stores scope entries updates)
    (hnodup : (entries.map TapEntry.account).Nodup) {entry : TapEntry} (hmem : entry ∈ entries) :
    ((table.putAll updates).get (scope, entry.account)).map TapCumulative.cumulativeWei =
      some entry.cumulativeWei := by
  have hentry : ((scope, entry.account), entry.cumulativeWei) ∈
      updates.map fun update => (update.1, update.2.cumulativeWei) := by
    rw [h]
    exact List.mem_map_of_mem hmem
  obtain ⟨⟨_, _⟩, hupdate, heq⟩ := List.mem_map.mp hentry
  obtain ⟨rfl, hwei⟩ := Prod.mk.inj heq
  have hkeys : (updates.map Prod.fst).Nodup := by
    have hmap : entries.map (fun entry => (scope, entry.account)) =
        (entries.map TapEntry.account).map (Prod.mk scope) := by rw [List.map_map]; rfl
    rw [h.keys, hmap]
    exact hnodup.map (Prod.mk_right_injective scope)
  rw [Table.get_putAll_of_mem _ _ hkeys hupdate, Option.map_some]
  exact congrArg some hwei

theorem TapEntry.Stores.amounts_eq (h : Stores scope entries updates)
    (hnodup : (entries.map TapEntry.account).Nodup)
    (hall : ∀ account, (table.get (scope, account)).isSome → account ∈ entries.map TapEntry.account)
    (account : String) :
    ((table.putAll updates).get (scope, account)).map TapCumulative.cumulativeWei = claimOf entries account := by
  by_cases hmem : account ∈ entries.map TapEntry.account
  . obtain ⟨entry, hentry, rfl⟩ := List.mem_map.mp hmem
    rw [h.get_new hnodup hentry, claimOf_of_mem hnodup hentry]
  . have hkept : (table.putAll updates).get (scope, account) = table.get (scope, account) := by
      apply Table.get_putAll_of_not_mem
      rw [h.keys, List.mem_map]
      rintro ⟨entry, hentry, heq⟩
      exact hmem (List.mem_map.mpr ⟨entry, hentry, congrArg Prod.snd heq⟩)
    have hnone : table.get (scope, account) = none :=
      Option.not_isSome_iff_eq_none.mp fun hsome => hmem (hall account hsome)
    rw [hkept, hnone, claimOf_eq_none hmem, Option.map_none]

end

/-! What an accepted settlement has passed -/

structure TapAccepted (payouts : Payouts) (value : TapSettlementValue) (plan : TapPlan) : Prop where
  epoch_pos : 1 ≤ value.epoch
  unsettled : payouts.tapSettlement.get value.epoch = none
  providerEntries : TapEntry.Listed value.providerEntries value.providerCumulativeClaimedWei
  refunds : TapEntry.Listed value.refunds value.buyerRefundWei
  paid : (value.outputs.map TapOutput.tapWei).sum = value.providerTapWei
  targets : ∀ output ∈ value.outputs, output.target ∈ value.providerEntries.map TapEntry.account
  epoch_lt : (payouts.tapStateFor value.payment).lastEpoch < value.epoch
  spent_lt : (payouts.tapStateFor value.payment).cumulativeSpentWei < value.cumulativeSpentWei
  claimed_eq : value.providerCumulativeClaimedWei =
    (payouts.tapStateFor value.payment).cumulativeProviderClaimedWei + value.providerTapWei
  refunded_le : (payouts.tapStateFor value.payment).cumulativeBuyerRefundWei ≤ value.buyerRefundWei
  prior : ∀ prior ∈ payouts.priorRefunds (payouts.tapStateFor value.payment),
    ∃ next, claimOf value.refunds prior.account = some next ∧ prior.cumulativeWei ≤ next
  claimUpdates : value.providerEntries.mapM (payouts.tapClaimUpdate value) = .ok plan.claims
  refundUpdates : value.refunds.mapM (payouts.tapRefundUpdate value) = .ok plan.refunds
  state_eq : plan.state = { payouts.tapStateFor value.payment with
    lastEpoch := value.epoch
    cumulativeSpentWei := value.cumulativeSpentWei
    cumulativeProviderClaimedWei := value.providerCumulativeClaimedWei
    cumulativeBuyerRefundWei := value.buyerRefundWei }

theorem normalizeTapTotals_accepted {value : TapSettlementValue} (h : normalizeTapTotals value = .ok ()) :
    TapEntry.Listed value.providerEntries value.providerCumulativeClaimedWei ∧
      TapEntry.Listed value.refunds value.buyerRefundWei := by
  simp only [normalizeTapTotals, checks_iff, not_or, not_not, ne_eq] at h
  obtain ⟨-, -, hproviders, hrefunds, ⟨hclaimed, hrefunded⟩, -⟩ := h
  have hproviders := normalizeClaimEntries_accepted hproviders
  have hrefunds := normalizeClaimEntries_accepted hrefunds
  rw [hclaimed] at hproviders
  rw [hrefunded] at hrefunds
  exact ⟨hproviders, hrefunds⟩

theorem normalizeTapOutputs_accepted {host : PayoutCrypto} {value : TapSettlementValue}
    (h : normalizeTapOutputs host value = .ok ()) :
    (value.outputs.map TapOutput.tapWei).sum = value.providerTapWei := by
  simp only [normalizeTapOutputs, checks_iff, not_or, not_not, ne_eq] at h
  obtain ⟨-, -, -, -, ⟨-, -, hpaid⟩, -⟩ := h
  exact hpaid

namespace Ledger

variable {crypto : Crypto} {host : PayoutCrypto} {s s' : Ledger}

theorem prepareTapSettlement_accepted {sender : PublicKey} {key : Digest} {value : TapSettlementValue}
    {plan : TapPlan} (h : s.prepareTapSettlement crypto host sender key value = .ok (some plan)) :
    TapAccepted s.payouts value plan := by
  obtain ⟨hvalue, hunsettled, _, hplan⟩ := prepareTapSettlement_planned h
  simp only [normalizeTargetedTapSettlementValue, checks_iff, not_or] at hvalue
  obtain ⟨-, ⟨-, _, -⟩, -, -, htotals, houtputs⟩ := hvalue
  obtain ⟨hproviders, hrefunds⟩ := normalizeTapTotals_accepted htotals
  simp only [planTapSettlement, checks_iff] at hplan
  obtain ⟨-, _, -, _, hstate, _, hclaims, htargets, hprior, refunds, hrefundUpdates, _, -, rfl⟩ := hplan
  simp only [validateTapState, validateTapEntitlement, checks_iff, not_or, not_not, ne_eq, not_le,
    not_lt] at hstate
  obtain ⟨-, -, -, -, hlt, ⟨hspent, -, hclaimed⟩, hrefunded, rfl⟩ := hstate
  refine ⟨by omega, hunsettled, hproviders, hrefunds, normalizeTapOutputs_accepted houtputs, ?_, hlt, hspent,
    hclaimed, hrefunded, ?_, hclaims, hrefundUpdates, rfl⟩
  . intro output hmem
    by_contra hmissing
    exact htargets ⟨output, hmem, hmissing⟩
  . intro prior hmem
    by_contra hlost
    apply hprior
    refine ⟨prior, hmem, ?_⟩
    cases hnext : claimOf value.refunds prior.account with
    | none => rfl
    | some next =>
      rw [Option.all_some, decide_eq_true_eq]
      by_contra hle
      exact hlost ⟨next, hnext, by omega⟩

end Ledger

/-! The claims after a settlement -/

theorem foldlM_advanceClaim {outputs : List TapOutput} {cursor last : Nat}
    (h : outputs.foldlM advanceClaim cursor = .ok last) :
    last = cursor + (outputs.map TapOutput.tapWei).sum := by
  induction outputs generalizing cursor with
  | nil =>
    rw [List.foldlM_nil, Except.pure_accepts_iff] at h
    simp [h]
  | cons _ outputs ih =>
    simp only [List.foldlM_cons, checks_iff, advanceClaim, not_or, not_not, ne_eq] at h
    obtain ⟨_, ⟨⟨hprior, hnext⟩, rfl⟩, hrest⟩ := h
    rw [ih hrest, List.map_cons, List.sum_cons, hnext, hprior]
    omega

def TapOutput.payment (output : TapOutput) : String × Nat := (output.target, output.tapWei)

section

variable {payouts : Payouts} {value : TapSettlementValue} {entry : TapEntry}
variable {update : (TapScope × String) × TapCumulative}

theorem tapClaimUpdate_accepted (h : payouts.tapClaimUpdate value entry = .ok update) :
    (update.1, update.2.cumulativeWei) = ((value.payment.scope, entry.account), entry.cumulativeWei) ∧
      entry.cumulativeWei = (payouts.claimWei value.payment.scope entry.account).getD 0 +
        Tally.amount (value.outputs.map TapOutput.payment) entry.account := by
  simp only [Payouts.tapClaimUpdate, checks_iff, not_not, ne_eq] at h
  obtain ⟨-, _, hcursor, hentry, rfl⟩ := h
  refine ⟨rfl, ?_⟩
  rw [hentry, foldlM_advanceClaim hcursor, Tally.amount, List.filter_map, List.map_map, Payouts.claimWei]
  cases payouts.tapClaim.get (value.payment.scope, entry.account) <;> rfl

end

namespace TapAccepted

variable {payouts : Payouts} {value : TapSettlementValue} {plan : TapPlan}

theorem claims_stored (h : TapAccepted payouts value plan) :
    TapEntry.Stores value.payment.scope value.providerEntries plan.claims :=
  Except.map_eq_of_mapM h.claimUpdates fun _ _ hupdate => (tapClaimUpdate_accepted hupdate).1

theorem refunds_stored (h : TapAccepted payouts value plan) :
    TapEntry.Stores value.payment.scope value.refunds plan.refunds := by
  apply Except.map_eq_of_mapM h.refundUpdates
  intro _ _ hupdate
  simp only [Payouts.tapRefundUpdate, checks_iff] at hupdate
  obtain ⟨-, rfl⟩ := hupdate
  rfl

theorem entry_eq (h : TapAccepted payouts value plan) {entry : TapEntry} (hmem : entry ∈ value.providerEntries) :
    entry.cumulativeWei = (payouts.claimWei value.payment.scope entry.account).getD 0 +
      Tally.amount (value.outputs.map TapOutput.payment) entry.account := by
  obtain ⟨_, -, hupdate⟩ := Except.exists_of_mem_mapM h.claimUpdates hmem
  exact (tapClaimUpdate_accepted hupdate).2

theorem sum_claimWei (h : TapAccepted payouts value plan) :
    ∑ account ∈ (value.providerEntries.map TapEntry.account).toFinset,
        (payouts.claimWei value.payment.scope account).getD 0 = payouts.claimedWei value.payment.scope := by
  have hpaid : ∑ account ∈ (value.providerEntries.map TapEntry.account).toFinset,
      Tally.amount (value.outputs.map TapOutput.payment) account = value.providerTapWei := by
    rw [Tally.sum_amount (fun account => account) (fun _ _ heq => heq) _ _ (fun _ => True)
      (fun _ => trivial), ← h.paid]
    . simp only [decide_true, List.filter_true, List.map_map]
      rfl
    . intro payment hmem _
      obtain ⟨output, houtput, rfl⟩ := List.mem_map.mp hmem
      exact ⟨output.target, List.mem_toFinset.mpr (h.targets output houtput), rfl⟩
  have hclaimed := h.claimed_eq
  have hentries : ∑ account ∈ (value.providerEntries.map TapEntry.account).toFinset,
      ((payouts.claimWei value.payment.scope account).getD 0 +
        Tally.amount (value.outputs.map TapOutput.payment) account) = value.providerCumulativeClaimedWei := by
    rw [List.sum_toFinset _ h.providerEntries.nodup, List.map_map, ← h.providerEntries.sum_eq]
    congr 1
    exact List.map_congr_left fun entry hmem => (h.entry_eq hmem).symm
  rw [Finset.sum_add_distrib, hpaid] at hentries
  have hbefore : (payouts.tapStateFor value.payment).cumulativeProviderClaimedWei =
      payouts.claimedWei value.payment.scope := by
    rw [Payouts.tapStateFor, Payouts.claimedWei]
    cases payouts.tapState.get value.payment.scope <;> rfl
  omega

end TapAccepted

/-! The invariant -/

structure TapSound (payouts : Payouts) : Prop where
  claims : ∀ scope, Amounts.AddUpTo (payouts.claimWei scope) (payouts.claimedWei scope)
  refunds : ∀ scope, Amounts.AddUpTo (payouts.refundWei scope) (payouts.refundedWei scope)
  last : ∀ scope state, payouts.tapState.get scope = some state → ∃ record,
    payouts.tapSettlement.get state.lastEpoch = some record ∧
      ∀ account, payouts.refundWei scope account = claimOf record.1.refunds account
  recorded : ∀ epoch record, payouts.tapSettlement.get epoch = some record → 1 ≤ epoch ∧
    ∃ state, payouts.tapState.get record.1.payment.scope = some state ∧ epoch ≤ state.lastEpoch

namespace TapSound

variable {payouts : Payouts} {value : TapSettlementValue} {plan : TapPlan}

theorem empty : TapSound .empty where
  claims _ := .none
  refunds _ := .none
  last _ _ h := by cases h
  recorded _ _ h := by cases h

theorem claimant_listed (h : TapSound payouts) (hplan : TapAccepted payouts value plan) {account : String}
    (hsome : (payouts.claimWei value.payment.scope account).isSome) :
    account ∈ value.providerEntries.map TapEntry.account :=
  List.mem_toFinset.mp ((h.claims value.payment.scope).mem_of_sum_eq hplan.sum_claimWei hsome)

theorem refund_listed (h : TapSound payouts) (hplan : TapAccepted payouts value plan) {account : String}
    {wei : Nat} (hwei : payouts.refundWei value.payment.scope account = some wei) :
    ∃ next, claimOf value.refunds account = some next ∧ wei ≤ next := by
  cases hstate : payouts.tapState.get value.payment.scope with
  | none =>
    have hzero := h.refunds value.payment.scope
    rw [Payouts.refundedWei, hstate] at hzero
    rw [hzero.eq_none account] at hwei
    cases hwei
  | some state =>
    obtain ⟨record, hrecord, hrefunds⟩ := h.last _ state hstate
    rw [hrefunds] at hwei
    obtain ⟨_, hentry, rfl, rfl⟩ := exists_of_claimOf hwei
    have hlast : state.lastEpoch ≠ 0 := by
      have hpos := (h.recorded _ record hrecord).1
      omega
    apply hplan.prior
    rw [Payouts.tapStateFor, hstate, Option.getD_some, Payouts.priorRefunds, if_neg hlast, hrecord,
      Option.map_some, Option.getD_some]
    exact hentry

end TapSound

/-! One step -/

structure TapWritten (payouts payouts' : Payouts) (sender : PublicKey) (value : TapSettlementValue)
    (plan : TapPlan) : Prop where
  tapClaim_eq : payouts'.tapClaim = payouts.tapClaim.putAll plan.claims
  tapRefund_eq : payouts'.tapRefund = payouts.tapRefund.putAll plan.refunds
  tapState_eq : payouts'.tapState = payouts.tapState.put value.payment.scope plan.state
  tapSettlement_eq : payouts'.tapSettlement = payouts.tapSettlement.put value.epoch (value, sender)

/--
Everything the later state records is at least what the earlier one did, and nobody is missing.
-/
structure TapForward (payouts payouts' : Payouts) : Prop where
  state : ∀ scope state, payouts.tapState.get scope = some state → ∃ state',
    payouts'.tapState.get scope = some state' ∧ state.lastEpoch ≤ state'.lastEpoch ∧
      state.cumulativeSpentWei ≤ state'.cumulativeSpentWei ∧
      state.cumulativeProviderClaimedWei ≤ state'.cumulativeProviderClaimedWei ∧
      state.cumulativeBuyerRefundWei ≤ state'.cumulativeBuyerRefundWei
  claim : ∀ scope account wei, payouts.claimWei scope account = some wei →
    ∃ wei', payouts'.claimWei scope account = some wei' ∧ wei ≤ wei'
  refund : ∀ scope account wei, payouts.refundWei scope account = some wei →
    ∃ wei', payouts'.refundWei scope account = some wei' ∧ wei ≤ wei'
  settlement : ∀ epoch record, payouts.tapSettlement.get epoch = some record →
    payouts'.tapSettlement.get epoch = some record

theorem TapForward.refl (payouts : Payouts) : TapForward payouts payouts where
  state _ state h := ⟨state, h, le_rfl, le_rfl, le_rfl, le_rfl⟩
  claim _ _ wei h := ⟨wei, h, le_rfl⟩
  refund _ _ wei h := ⟨wei, h, le_rfl⟩
  settlement _ _ h := h

theorem TapForward.trans {first second third : Payouts} (h : TapForward first second)
    (h' : TapForward second third) : TapForward first third where
  state := by
    intro scope state hstate
    obtain ⟨next, hnext, _, _, _, _⟩ := h.state scope state hstate
    obtain ⟨last, hlast, _, _, _, _⟩ := h'.state scope next hnext
    exact ⟨last, hlast, by omega, by omega, by omega, by omega⟩
  claim := by
    intro scope account wei hwei
    obtain ⟨next, hnext, hle⟩ := h.claim scope account wei hwei
    obtain ⟨last, hlast, hle'⟩ := h'.claim scope account next hnext
    exact ⟨last, hlast, hle.trans hle'⟩
  refund := by
    intro scope account wei hwei
    obtain ⟨next, hnext, hle⟩ := h.refund scope account wei hwei
    obtain ⟨last, hlast, hle'⟩ := h'.refund scope account next hnext
    exact ⟨last, hlast, hle.trans hle'⟩
  settlement epoch record hrecord := h'.settlement _ _ (h.settlement _ _ hrecord)

namespace TapWritten

variable {payouts payouts' : Payouts} {sender : PublicKey} {value : TapSettlementValue} {plan : TapPlan}

variable (hwritten : TapWritten payouts payouts' sender value plan) (hplan : TapAccepted payouts value plan)

include hwritten hplan

theorem claimWei_other {scope : TapScope} (hne : scope ≠ value.payment.scope) :
    payouts'.claimWei scope = payouts.claimWei scope := by
  funext account
  rw [Payouts.claimWei, hwritten.tapClaim_eq, hplan.claims_stored.get_other hne]
  rfl

theorem refundWei_other {scope : TapScope} (hne : scope ≠ value.payment.scope) :
    payouts'.refundWei scope = payouts.refundWei scope := by
  funext account
  rw [Payouts.refundWei, hwritten.tapRefund_eq, hplan.refunds_stored.get_other hne]
  rfl

variable (h : TapSound payouts)

include h

theorem claimWei_new (account : String) :
    payouts'.claimWei value.payment.scope account = claimOf value.providerEntries account := by
  rw [Payouts.claimWei, hwritten.tapClaim_eq]
  apply hplan.claims_stored.amounts_eq hplan.providerEntries.nodup
  intro account hsome
  apply h.claimant_listed hplan
  rw [Payouts.claimWei, Option.isSome_map]
  exact hsome

theorem refundWei_new (account : String) :
    payouts'.refundWei value.payment.scope account = claimOf value.refunds account := by
  rw [Payouts.refundWei, hwritten.tapRefund_eq]
  apply hplan.refunds_stored.amounts_eq hplan.refunds.nodup
  intro account hsome
  obtain ⟨refund, hrefund⟩ := Option.isSome_iff_exists.mp hsome
  have hwei : payouts.refundWei value.payment.scope account = some refund.cumulativeWei := by
    rw [Payouts.refundWei, hrefund, Option.map_some]
  obtain ⟨_, hnext, -⟩ := h.refund_listed hplan hwei
  obtain ⟨_, hentry, rfl, -⟩ := exists_of_claimOf hnext
  exact List.mem_map_of_mem hentry

theorem forward : TapForward payouts payouts' where
  state := by
    intro scope state hstate
    rw [hwritten.tapState_eq, Table.get_put]
    split
    case isFalse => exact ⟨state, hstate, le_rfl, le_rfl, le_rfl, le_rfl⟩
    case isTrue heq =>
      have hprior : payouts.tapStateFor value.payment = state := by
        rw [Payouts.tapStateFor, ← heq, hstate, Option.getD_some]
      have hepoch := hplan.epoch_lt
      have hspent := hplan.spent_lt
      have hclaimed := hplan.claimed_eq
      have hrefunded := hplan.refunded_le
      rw [hprior] at hepoch hspent hclaimed hrefunded
      have hgrown : state.cumulativeProviderClaimedWei ≤ value.providerCumulativeClaimedWei := by omega
      rw [hplan.state_eq]
      exact ⟨_, rfl, hepoch.le, hspent.le, hgrown, hrefunded⟩
  claim := by
    intro scope account wei hwei
    by_cases hscope : scope = value.payment.scope
    . subst hscope
      rw [hwritten.claimWei_new hplan h]
      have hlisted := h.claimant_listed hplan (Option.isSome_iff_exists.mpr ⟨wei, hwei⟩)
      obtain ⟨entry, hentry, rfl⟩ := List.mem_map.mp hlisted
      refine ⟨entry.cumulativeWei, claimOf_of_mem hplan.providerEntries.nodup hentry, ?_⟩
      rw [hplan.entry_eq hentry, hwei, Option.getD_some]
      omega
    . rw [hwritten.claimWei_other hplan hscope]
      exact ⟨wei, hwei, le_rfl⟩
  refund := by
    intro scope account wei hwei
    by_cases hscope : scope = value.payment.scope
    . subst hscope
      rw [hwritten.refundWei_new hplan h]
      exact h.refund_listed hplan hwei
    . rw [hwritten.refundWei_other hplan hscope]
      exact ⟨wei, hwei, le_rfl⟩
  settlement := by
    intro _ _ hrecord
    rw [hwritten.tapSettlement_eq, Table.get_put_of_ne _ _ _]
    . exact hrecord
    . intro heq
      rw [heq, hplan.unsettled] at hrecord
      cases hrecord

theorem sound : TapSound payouts' where
  claims := by
    intro scope
    by_cases hscope : scope = value.payment.scope
    . subst hscope
      have htotal : payouts'.claimedWei value.payment.scope = value.providerCumulativeClaimedWei := by
        rw [Payouts.claimedWei, hwritten.tapState_eq, Table.get_put_self, hplan.state_eq]
        rfl
      rw [htotal, ← hplan.providerEntries.sum_eq]
      exact .of_entries hplan.providerEntries.nodup hplan.providerEntries.pos
        (hwritten.claimWei_new hplan h)
    . rw [hwritten.claimWei_other hplan hscope, Payouts.claimedWei, hwritten.tapState_eq,
        Table.get_put_of_ne _ _ hscope]
      exact h.claims scope
  refunds := by
    intro scope
    by_cases hscope : scope = value.payment.scope
    . subst hscope
      have htotal : payouts'.refundedWei value.payment.scope = value.buyerRefundWei := by
        rw [Payouts.refundedWei, hwritten.tapState_eq, Table.get_put_self, hplan.state_eq]
        rfl
      rw [htotal, ← hplan.refunds.sum_eq]
      exact .of_entries hplan.refunds.nodup hplan.refunds.pos (hwritten.refundWei_new hplan h)
    . rw [hwritten.refundWei_other hplan hscope, Payouts.refundedWei, hwritten.tapState_eq,
        Table.get_put_of_ne _ _ hscope]
      exact h.refunds scope
  last := by
    intro scope state hstate
    rw [hwritten.tapState_eq] at hstate
    obtain ⟨rfl, rfl⟩ | ⟨hne, hstate⟩ := Table.get_put_eq_some.mp hstate
    . refine ⟨(value, sender), ?_, hwritten.refundWei_new hplan h⟩
      rw [hwritten.tapSettlement_eq, hplan.state_eq]
      exact Table.get_put_self _ _ _
    . obtain ⟨record, hrecord, hrefunds⟩ := h.last scope state hstate
      refine ⟨record, (hwritten.forward hplan h).settlement _ _ hrecord, ?_⟩
      rw [hwritten.refundWei_other hplan hne]
      exact hrefunds
  recorded := by
    intro epoch record hrecord
    rw [hwritten.tapSettlement_eq] at hrecord
    obtain ⟨rfl, rfl⟩ | ⟨-, hrecord⟩ := Table.get_put_eq_some.mp hrecord
    . refine ⟨hplan.epoch_pos, plan.state, ?_, ?_⟩
      . rw [hwritten.tapState_eq]
        exact Table.get_put_self _ _ _
      . rw [hplan.state_eq]
    . obtain ⟨hpos, state, hstate, hle⟩ := h.recorded epoch record hrecord
      obtain ⟨state', hstate', hlast, -⟩ := (hwritten.forward hplan h).state _ state hstate
      exact ⟨hpos, state', hstate', hle.trans hlast⟩

end TapWritten

/-! Runs -/

structure SameTapBooks (s s' : Ledger) : Prop where
  tapClaim_eq : s'.payouts.tapClaim = s.payouts.tapClaim
  tapRefund_eq : s'.payouts.tapRefund = s.payouts.tapRefund
  tapState_eq : s'.payouts.tapState = s.payouts.tapState
  tapSettlement_eq : s'.payouts.tapSettlement = s.payouts.tapSettlement

namespace SameTapBooks

variable {s s' : Ledger}

theorem refl (s : Ledger) : SameTapBooks s s := ⟨rfl, rfl, rfl, rfl⟩

theorem claimWei_eq (h : SameTapBooks s s') : s'.payouts.claimWei = s.payouts.claimWei := by
  funext scope account
  rw [Payouts.claimWei, h.tapClaim_eq, Payouts.claimWei]

theorem refundWei_eq (h : SameTapBooks s s') : s'.payouts.refundWei = s.payouts.refundWei := by
  funext scope account
  rw [Payouts.refundWei, h.tapRefund_eq, Payouts.refundWei]

theorem sound (hsame : SameTapBooks s s') (h : TapSound s.payouts) : TapSound s'.payouts where
  claims := by
    intro scope
    rw [hsame.claimWei_eq, Payouts.claimedWei, hsame.tapState_eq]
    exact h.claims scope
  refunds := by
    intro scope
    rw [hsame.refundWei_eq, Payouts.refundedWei, hsame.tapState_eq]
    exact h.refunds scope
  last := by
    rw [hsame.refundWei_eq, hsame.tapState_eq, hsame.tapSettlement_eq]
    exact h.last
  recorded := by
    rw [hsame.tapState_eq, hsame.tapSettlement_eq]
    exact h.recorded

theorem forward (hsame : SameTapBooks s s') : TapForward s.payouts s'.payouts where
  state := by
    rw [hsame.tapState_eq]
    exact (TapForward.refl s.payouts).state
  claim := by
    rw [hsame.claimWei_eq]
    exact (TapForward.refl s.payouts).claim
  refund := by
    rw [hsame.refundWei_eq]
    exact (TapForward.refl s.payouts).refund
  settlement := by
    rw [hsame.tapSettlement_eq]
    exact (TapForward.refl s.payouts).settlement

end SameTapBooks

namespace Ledger

variable {crypto : Crypto} {host : PayoutCrypto} {s s' : Ledger}

inductive TapStep (crypto : Crypto) (host : PayoutCrypto) : Ledger → Ledger → Prop where
  | op (s : Ledger) (op : PayoutOp) : op.Whole crypto host s → TapStep crypto host s (op.exec crypto host s)
  | other {s s' : Ledger} : SameTapBooks s s' → TapStep crypto host s s'

theorem PayoutChange.tapWritten {op : PayoutOp} (hchange : PayoutChange crypto host s op s')
    (hwhole : op.Whole crypto host s) :
    SameTapBooks s s' ∨ ∃ sender value plan, TapAccepted s.payouts value plan ∧
      TapWritten s.payouts s'.payouts sender value plan := by
  cases hchange with
  | tapSettled hprepare =>
    exact .inr ⟨_, _, _, prepareTapSettlement_accepted hprepare, ⟨rfl, rfl, rfl, rfl⟩⟩
  | tapCut hprepare hcut =>
    rw [hwhole.writeTapPlan_eq hcut]
    exact .inl (.refl s)
  | none op => exact .inl (.refl s)
  | planned | prepared | tnkSettled | attemptOpened | attemptEnded | fiatSettled | closed =>
    exact .inl ⟨rfl, rfl, rfl, rfl⟩

theorem TapStep.tapWritten (hstep : TapStep crypto host s s') :
    SameTapBooks s s' ∨ ∃ sender value plan, TapAccepted s.payouts value plan ∧
      TapWritten s.payouts s'.payouts sender value plan := by
  cases hstep with
  | op op hwhole => exact (op.change crypto host s).tapWritten hwhole
  | other hsame => exact .inl hsame

theorem TapStep.forward (hstep : TapStep crypto host s s') (h : TapSound s.payouts) :
    TapSound s'.payouts ∧ TapForward s.payouts s'.payouts := by
  rcases hstep.tapWritten with hsame | ⟨_, _, _, hplan, hwritten⟩
  . exact ⟨hsame.sound h, hsame.forward⟩
  . exact ⟨hwritten.sound hplan h, hwritten.forward hplan h⟩

theorem tapForward_of_run (h : TapSound s.payouts) (hrun : Relation.ReflTransGen (TapStep crypto host) s s') :
    TapSound s'.payouts ∧ TapForward s.payouts s'.payouts := by
  refine Run.invariant (fun t => TapSound t.payouts ∧ TapForward s.payouts t.payouts) ⟨h, .refl _⟩ ?_ hrun
  rintro t _ ⟨hsound, hforward⟩ hstep
  obtain ⟨hnext, hkept⟩ := hstep.forward hsound
  exact ⟨hnext, hforward.trans hkept⟩

/--
Nothing that the TAP rail records goes back. The claims and the refunds of a pool add up to its totals, and a
settlement comes after all that were settled for its pool.
-/
theorem tap_settlement_forward {start : Ledger} (hstart : start.payouts = .empty)
    (hrun : Relation.ReflTransGen (TapStep crypto host) start s)
    (hlater : Relation.ReflTransGen (TapStep crypto host) s s') :
    TapForward s.payouts s'.payouts ∧
      (∀ scope, Amounts.AddUpTo (s.payouts.claimWei scope) (s.payouts.claimedWei scope) ∧
        Amounts.AddUpTo (s.payouts.refundWei scope) (s.payouts.refundedWei scope)) ∧
      ∀ sender key value, (s.applyTargetedTapSettlementFeature crypto host sender key value).2 = .ok false →
        ∀ epoch record, s.payouts.tapSettlement.get epoch = some record →
          record.1.payment.scope = value.payment.scope → epoch < value.epoch := by
  have hsound := (tapForward_of_run (by rw [hstart]; exact .empty) hrun).1
  refine ⟨(tapForward_of_run hsound hlater).2, fun scope => ⟨hsound.claims scope, hsound.refunds scope⟩, ?_⟩
  intro sender key value haccepted epoch record hrecord hscope
  obtain ⟨plan, hprepare⟩ : ∃ plan, s.prepareTapSettlement crypto host sender key value = .ok (some plan) := by
    rw [applyTargetedTapSettlementFeature] at haccepted
    split at haccepted
    . cases haccepted
    . cases haccepted
    case h_3 plan hprepare => exact ⟨plan, hprepare⟩
  obtain ⟨-, _, hstate, _⟩ := hsound.recorded epoch record hrecord
  have hlt := (prepareTapSettlement_accepted hprepare).epoch_lt
  rw [Payouts.tapStateFor, ← hscope, hstate, Option.getD_some] at hlt
  omega

/-! Two settlements of a pool -/

def skipHost : PayoutCrypto :=
  { plainPayoutHost with tapSettlementRoot := fun entries => .ok (entries.length - 1) }

def skipRate (ts : Nat) (s : Ledger) : Ledger :=
  { s with payouts := { s.payouts with
    rate := s.payouts.rate.put ts { tapRate with value := { tapRate.value with ts := ts }, updatedAt := ts } } }

theorem skipRate_same (ts : Nat) {t : Ledger} (h : t.payouts = s.payouts) : SameTapBooks s (skipRate ts t) := by
  constructor
  all_goals
    rw [← h]
    rfl

def skipPrepare (expected : ExpectedPreparation) (time : Nat) : PayoutOp :=
  .prepare 10 1 expected.economicOpId { tapPreparation expected with preparedAt := time }

def skipValue : TapSettlementValue :=
  { tapSettlementValue with
    epoch := 8
    time := 28800
    epochApplyHash := 8
    preparationIds := [5]
    rootPreparationId := 200
    externalEffectIds := [201, 202]
    rateLock := { tapRateLock with epoch := 8, rateRecordKey := 28800, rateTs := 28800 }
    root := 1
    proposalTx := 201
    executionTx := 202
    cumulativeSpentWei := 80
    providerCumulativeClaimedWei := 60
    providerEntries := [⟨stintTarget .tap 4, 30⟩, ⟨stintTarget .tap 5, 30⟩]
    entries := [⟨stintTarget .tap 4, 30⟩, ⟨stintTarget .tap 5, 30⟩]
    outputs := [tapOutput 5 30] }

theorem idleEpoch_payouts (epoch : Nat) (s : Ledger) : (idleEpoch epoch s).payouts = s.payouts := by
  have hfreeze : (s.epochFreeze stintHost 10 epoch (3600 * epoch)).1.payouts = s.payouts := by
    unfold epochFreeze
    split <;> rfl
  rw [idleEpoch, ← hfreeze]
  unfold epochSealEmpty
  split
  . rfl
  . rfl
  . dsimp only
    split <;> rfl

def skipStart : Ledger := { revisedLedger .tap with payouts := .empty }

def skipReady : Ledger :=
  (skipPrepare (tapSettlementValue.expectedRoot skipHost) 21600).exec stintHost skipHost
    ((skipPrepare (tapSettlementValue.expectedOutput 4 (tapOutput 4 0) 0) 21600).exec stintHost skipHost
      (skipRate 21600 skipStart))

def skipSettled : Ledger := (PayoutOp.tapSettlement 10 6 tapSettlementValue).exec stintHost skipHost skipReady

def skipReadyAgain : Ledger :=
  (skipPrepare (skipValue.expectedRoot skipHost) 28800).exec stintHost skipHost
    ((skipPrepare (skipValue.expectedOutput 5 (tapOutput 5 30) 0) 28800).exec stintHost skipHost
      (skipRate 28800 (idleEpoch 8 (idleEpoch 7 skipSettled))))

def skipSettledAgain : Ledger := (PayoutOp.tapSettlement 10 8 skipValue).exec stintHost skipHost skipReadyAgain

theorem skip_accepted :
    (skipReady.applyTargetedTapSettlementFeature stintHost skipHost 10 6 tapSettlementValue).2.toOption =
      some false ∧
    (skipReadyAgain.applyTargetedTapSettlementFeature stintHost skipHost 10 8 skipValue).2.toOption = some false ∧
    (skipSettledAgain.payouts.tapSettlement.get 6).map Prod.fst = some tapSettlementValue ∧
    (skipSettledAgain.payouts.tapSettlement.get 7).map Prod.fst = none ∧
    (skipSettledAgain.payouts.tapSettlement.get 8).map Prod.fst = some skipValue := by
  decide +kernel

theorem settled_of_run {t : Ledger} {op op' : PayoutOp} {sender : PublicKey} {key : Digest}
    {value : TapSettlementValue} {repeated : Bool} (hsame : SameTapBooks s t) (hop : op.Whole crypto host t)
    (hop' : op'.Whole crypto host (op.exec crypto host t))
    (haccepted : ((op'.exec crypto host (op.exec crypto host t)).applyTargetedTapSettlementFeature crypto host
      sender key value).2.toOption = some repeated) :
    Relation.ReflTransGen (TapStep crypto host) s
      ((PayoutOp.tapSettlement sender key value).exec crypto host
        (op'.exec crypto host (op.exec crypto host t))) := by
  refine .tail (.tail (.tail (.single (.other hsame)) (.op t op hop)) (.op _ op' hop')) ?_
  exact .op _ (.tapSettlement sender key value) (whole_of_accepted haccepted)

theorem skipSettled_of_run : Relation.ReflTransGen (TapStep stintHost skipHost) skipStart skipSettled :=
  settled_of_run (skipRate_same 21600 rfl) trivial trivial skip_accepted.1

theorem skipSettledAgain_of_run :
    Relation.ReflTransGen (TapStep stintHost skipHost) skipSettled skipSettledAgain := by
  have hsame : (idleEpoch 8 (idleEpoch 7 skipSettled)).payouts = skipSettled.payouts := by
    rw [idleEpoch_payouts, idleEpoch_payouts]
  exact settled_of_run (skipRate_same 28800 hsame) trivial trivial skip_accepted.2.1

/--
The epochs of the settlements of a pool have gaps.
-/
theorem settlement_epochs_skip : ∃ s, Relation.ReflTransGen (TapStep stintHost skipHost) skipStart s ∧
      tapSettlementValue.payment = skipValue.payment ∧
      (s.payouts.tapSettlement.get 6).map Prod.fst = some tapSettlementValue ∧
      (s.payouts.tapSettlement.get 7).map Prod.fst = none ∧
      (s.payouts.tapSettlement.get 8).map Prod.fst = some skipValue :=
  ⟨skipSettledAgain, skipSettled_of_run.trans skipSettledAgain_of_run, rfl, skip_accepted.2.2⟩

theorem tap_settlement_forward_two : TapForward skipSettled.payouts skipSettledAgain.payouts ∧
      ∀ scope, Amounts.AddUpTo (skipSettled.payouts.claimWei scope) (skipSettled.payouts.claimedWei scope) := by
  have hstart : skipStart.payouts = .empty := rfl
  have hforward := tap_settlement_forward hstart skipSettled_of_run skipSettledAgain_of_run
  exact ⟨hforward.1, fun scope => (hforward.2.1 scope).1⟩

end Ledger

end Mayhem
