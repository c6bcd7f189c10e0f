import Mayhem.Settlement.Money
import Mayhem.ExactlyOnce

namespace Mayhem
namespace Ledger

variable {crypto : Crypto} {s : Ledger}

/--
Value moves between accounts of one rail, and only accounts that allocations name are written.
-/
structure ConservesValue (s s' : Ledger) (allocations : List Allocation) : Prop where
  conserved : ∀ (rail : Rail) (users providers : Finset PublicKey),
    (∀ a ∈ allocations, a.rail = rail → a.user ∈ users ∧ a.provider ∈ providers) →
      ∑ user ∈ users, ((s.balanceAu user rail : ℤ) - s'.balanceAu user rail) =
        ∑ provider ∈ providers, ((s'.earnedAu provider rail : ℤ) - s.earnedAu provider rail) +
          ((s'.feeCumAu rail : ℤ) - s.feeCumAu rail) + ((s'.burnCumAu rail : ℤ) - s.burnCumAu rail)
  balance_frame : ∀ user rail, (∀ a ∈ allocations, a.rail = rail → a.user ≠ user) →
    s'.accounts.balance.get (user, rail) = s.accounts.balance.get (user, rail)
  earning_frame : ∀ provider rail, (∀ a ∈ allocations, a.rail = rail → a.provider ≠ provider) →
    s'.accounts.earning.get (provider, rail) = s.accounts.earning.get (provider, rail)
  fee_frame : ∀ rail, (∀ a ∈ allocations, a.rail ≠ rail) → s'.accounts.fee.get rail = s.accounts.fee.get rail
  burn_frame : ∀ rail, (∀ a ∈ allocations, a.rail ≠ rail) → s'.accounts.burn.get rail = s.accounts.burn.get rail

theorem ConservesValue.refl (s : Ledger) (allocations : List Allocation) : ConservesValue s s allocations where
  conserved := by simp
  balance_frame _ _ _ := rfl
  earning_frame _ _ _ := rfl
  fee_frame _ _ := rfl
  burn_frame _ _ := rfl

namespace AppliedPage

variable {s' : Ledger} {sender : PublicKey} {key : Digest} {value : TargetedEpochValue}
  {transition : Option CommitTransition} {feature : FeaturePlan} {plan : ApplyPlan}

theorem sum_debits (h : AppliedPage crypto s sender key value transition feature plan) (rail : Rail)
    {users : Finset PublicKey} (husers : ∀ a ∈ value.allocations, a.rail = rail → a.user ∈ users) :
    ∑ user ∈ users, Tally.amount (value.allocations.map Allocation.debit) (rail, user) =
      railTotals h.page.totals.debits rail := by
  rw [railTotals, sumRailAu, ← Tally.sum_amount (fun user => (rail, user)) (Prod.mk_right_injective rail) _ users
      (fun account => account.1 = rail) (fun _ => rfl)]
  . exact Finset.sum_congr rfl fun user _ => (h.amount_debits (rail, user)).symm
  . intro _ hentry hrail
    obtain ⟨a, ha, har, hau⟩ := h.debit_of_allocation (List.mem_map_of_mem hentry)
    exact ⟨a.user, husers a ha (har.trans hrail), Prod.ext hrail.symm hau⟩

theorem conservesValue (h : AppliedPage crypto s sender key value transition feature plan)
    (market : Market) : ConservesValue s (s.settled plan feature market) value.allocations where
  conserved rail users providers hnamed := by
    have hscope := settled_railScope (s := s) plan feature market rail
    have hdebits := h.sum_debits rail fun a ha hrail => (hnamed a ha hrail).1
    have hshares := h.sum_shares SettlementDelta.providerAu rail fun a ha hrail => (hnamed a ha hrail).2
    have hbalance : ∀ user, ((s.balanceAu user rail : ℤ) - (s.settled plan feature market).balanceAu user rail) =
          (Tally.amount (value.allocations.map Allocation.debit) (rail, user) : ℤ) := by
      intro user
      have hpaid := h.balanceAu_add user hscope rfl
      omega
    have hearning : ∀ provider, (((s.settled plan feature market).earnedAu provider rail : ℤ) -
        s.earnedAu provider rail) = (Tally.amount
          (h.page.money.shares.map fun share => (share.1, share.2.2.providerAu))
          (rail, provider) : ℤ) := by
      intro provider
      have hearned := h.earnedAu_eq provider hscope rfl
      omega
    have hfee := h.feeCumAu_eq hscope rfl
    have hburn := h.burnCumAu_eq hscope rfl
    have hmatch := (pageTotals_eq_ok h.committed.totals_ok).2.2 rail
    have hgross := h.railTotals_gross rail
    rw [Finset.sum_congr rfl fun user _ => hbalance user,
      Finset.sum_congr rfl fun provider _ => hearning provider, ← Nat.cast_sum, ← Nat.cast_sum, hdebits,
      hshares]
    omega
  balance_frame user rail hnot := by
    apply Table.get_putAll_of_not_mem
    rw [h.mem_balance_keys]
    intro hmem
    obtain ⟨a, ha, hrail, huser⟩ := h.debit_of_allocation hmem
    exact hnot a ha hrail huser
  earning_frame provider rail hnot := by
    apply Table.get_putAll_of_not_mem
    rw [h.mem_earning_keys]
    intro hmem
    obtain ⟨a, ha, hrail, hprovider⟩ := h.earning_of_allocation hmem
    exact hnot a ha hrail hprovider
  fee_frame rail hnot := by
    apply Table.get_putAll_of_not_mem
    rw [List.map_map]
    intro hmem
    obtain ⟨a, ha, hrail⟩ := h.rail_of_allocation hmem
    exact hnot a ha hrail
  burn_frame rail hnot := by
    apply Table.get_putAll_of_not_mem
    rw [List.map_map]
    intro hmem
    obtain ⟨a, ha, hrail⟩ := h.rail_of_allocation hmem
    exact hnot a ha hrail

end AppliedPage

theorem PageOutcome.conservesValue {sender : PublicKey} {key : Digest} {value : TargetedEpochValue}
    {transition : Option CommitTransition} {outcome : Outcome ApplyResult} {result : ApplyResult}
    (houtcome : PageOutcome crypto s sender key value transition outcome)
    (hresult : outcome.2 = .ok result) : ConservesValue s outcome.1 value.allocations := by
  cases houtcome with
  | replayed feature hfeature => exact ConservesValue.refl s _
  | rejected | stopped => cases hresult
  | settled feature _ market hfeature hplan =>
    obtain ⟨page⟩ := appliedPage_of_settled hfeature hplan
    exact page.conservesValue market

/--
Every accepted page conserves value on every rail and leaves all other accounts alone. A TAP record that is
bound to a pool other than the one in force holds nothing.
-/
theorem page_conserves_value {op : HoldOp} {answer : PageAnswer} {result : ApplyResult}
    (hanswer : op.pageAnswer crypto s = some answer) (hresult : answer.answer = .ok result) :
    ConservesValue s (op.run crypto s) answer.allocations := by
  cases op with
  | reserve | record | close => cases hanswer
  | page sender key value =>
    obtain rfl := Option.some.inj hanswer
    obtain ⟨_, houtcome⟩ := page_outcome crypto s sender key value
    exact houtcome.conservesValue hresult
  | pageZero sender key value =>
    obtain rfl := Option.some.inj hanswer
    obtain ⟨_, _, houtcome⟩ := pageZero_outcome crypto s sender key value
    exact houtcome.conservesValue hresult

def poolLedger (earning : EarningRecord) : Ledger :=
  { talkLedger with
    registry := { talkLedger.registry with
      payments := some ⟨.admin, some ⟨1, 8⟩, 10, 1, 7, none⟩
      providers := Table.empty.put 30 ⟨.active, [.tap], [40], 0⟩
      payoutBindings := Table.empty.put (.tap, 30, 4) ⟨true, 30, .tap, 4, 1,
        "0x0000000000000000000000000000000000000001", none, some 1, none⟩
      payoutPointers := Table.empty.put (30, .tap) ⟨4, none, 0⟩ }
    accounts := { Ledger.empty.accounts with
      balance := Table.empty.put (20, .tap) ⟨1000, 0, some ⟨1, 8⟩⟩
      earning := Table.empty.put (30, .tap) earning } }

def poolReserve : SpendReserveValue :=
  { talkReserve 0 500 with rail := .tap, voucher := { talkVoucher 0 500 with rail := .tap } }

def poolReceipt : RecordReceiptValue :=
  { talkReceipt 0 40 with receipt := plainReceipt 0 .tap ⟨"audio_second", 1, 1⟩ 40 }

def poolAllocation : Allocation := { talkAllocation 0 40 with rail := .tap }

def poolFrozen (earning : EarningRecord) : Ledger :=
  let reserved := (HoldOp.reserve 300 poolReserve).run plainHost (poolLedger earning)
  let recorded := (HoldOp.record 1 poolReceipt).run plainHost reserved
  (recorded.epochFreeze plainHost 10 1 3600).1

def poolPageZero (cumulativeAu : Nat) : HoldOp :=
  .pageZero 10 1 { talkPageZero with
    debits := [⟨.tap, 20, 40⟩]
    earnings := [⟨.tap, 30, 40, 4⟩]
    allocations := [poolAllocation]
    marketUsage := some [⟨⟨40, none, none⟩, 40, 1, 1⟩]
    earningFinals := some [⟨.tap, 30, 40, 30, cumulativeAu⟩]
    roots := ⟨0, 77, 30, 6, 0⟩
    totals := ⟨0, 0, 1, 40, 1, cumulativeAu, 6, 6, 4, 4, 0⟩ }

def poolEarning : EarningRecord := ⟨⟨7, 0, 0, some [], 0⟩, 0, some ⟨1, 8⟩, 0⟩

theorem pool_page_conserves_value : ∃ s s', ConservesValue s s' [poolAllocation] ∧
      s.balanceAu 20 .tap = 1000 ∧ s'.balanceAu 20 .tap = 960 ∧
      s.earnedAu 30 .tap = 7 ∧ s'.earnedAu 30 .tap = 37 ∧
      s.feeCumAu .tap = 0 ∧ s'.feeCumAu .tap = 6 ∧ s.burnCumAu .tap = 0 ∧ s'.burnCumAu .tap = 4 := by
  have haccepted : ∃ result, (poolPageZero 37).pageAnswer plainHost (poolFrozen poolEarning) =
      some ⟨.ok result, 1, 0, [poolAllocation]⟩ := ⟨_, rfl⟩
  obtain ⟨result, hanswer⟩ := haccepted
  exact ⟨poolFrozen poolEarning, (poolPageZero 37).run plainHost (poolFrozen poolEarning),
    page_conserves_value hanswer rfl, by decide +kernel⟩

def retiredEarning : EarningRecord := ⟨⟨500, 0, 500, some [], 0⟩, 0, some ⟨1, 9⟩, 0⟩

/--
What a provider has on record for a pool that is not in force any more is replaced.
-/
theorem retired_pool_page_replaces_earning :
    ∃ (s s' : Ledger) (op : HoldOp) (answer : PageAnswer) (result : ApplyResult),
      op.pageAnswer plainHost s = some answer ∧ answer.answer = .ok result ∧
      s' = op.run plainHost s ∧
      (s.accounts.balance.get (20, .tap)).map BalanceRecord.au = some 1000 ∧
      (s'.accounts.balance.get (20, .tap)).map BalanceRecord.au = some 960 ∧
      (s.accounts.earning.get (30, .tap)).map (fun record => record.earned.totalAu) = some 500 ∧
      (s'.accounts.earning.get (30, .tap)).map (fun record => record.earned.totalAu) = some 30 ∧
      (s.accounts.fee.get .tap).map FeeRecord.cumAu = none ∧
      (s'.accounts.fee.get .tap).map FeeRecord.cumAu = some 6 ∧
      (s.accounts.burn.get .tap).map BurnRecord.cumAu = none ∧
      (s'.accounts.burn.get .tap).map BurnRecord.cumAu = some 4 ∧
      (1000 - 960 : ℤ) ≠ (30 - 500) + (6 - 0) + (4 - 0) := by
  have haccepted : ∃ result, (poolPageZero 30).pageAnswer plainHost (poolFrozen retiredEarning) =
      some ⟨.ok result, 1, 0, [poolAllocation]⟩ := ⟨_, rfl⟩
  obtain ⟨result, hanswer⟩ := haccepted
  exact ⟨_, _, _, _, result, hanswer, rfl, rfl, by decide +kernel⟩

end Ledger
end Mayhem
