import Mayhem.Lib.Holdings
import Mayhem.Conservation
import Mayhem.Dispute.Counts
import Mayhem.Forfeit

namespace Mayhem

namespace Ledger

open Holdings

/-! Movements of value -/

def openBondAu (s : Ledger) (rail : Rail) (disputeId : Nat) : Nat :=
  match s.disputes.record.get disputeId with
  | some dispute => if dispute.status = .opened ∧ dispute.rail = rail then dispute.depositAu else 0
  | none => 0

def DepositOp.rail : DepositOp → Rail
  | .tnk _ _ => .tnk
  | .tap _ _ => .tap
  | .tapReversal _ _ => .tap
  | .fiat _ _ => .fiat
  | .chargeback _ _ => .fiat

variable {s s' s'' : Ledger} {rail : Rail} {δ δ' : ℤ}

def Moved (s s' : Ledger) (rail : Rail) (δ : ℤ) : Prop :=
  ∃ usersAu providersAu bondsAu : ℤ, Change (s.balanceAu · rail) (s'.balanceAu · rail) usersAu ∧
    Change (s.earnedAu · rail) (s'.earnedAu · rail) providersAu ∧
    Change (s.openBondAu rail) (s'.openBondAu rail) bondsAu ∧
    usersAu + providersAu + bondsAu + ((s'.feeCumAu rail : ℤ) - s.feeCumAu rail) +
      ((s'.burnCumAu rail : ℤ) - s.burnCumAu rail) = δ

theorem Moved.trans (h : Moved s s' rail δ) (h' : Moved s' s'' rail δ') : Moved s s'' rail (δ + δ') := by
  obtain ⟨_, _, _, husers, hproviders, hbonds, _⟩ := h
  obtain ⟨_, _, _, husers', hproviders', hbonds', _⟩ := h'
  refine ⟨_, _, _, husers.trans husers', hproviders.trans hproviders', hbonds.trans hbonds', ?_⟩
  omega

theorem Moved.cast (h : Moved s s' rail δ) (heq : δ = δ') : Moved s s' rail δ' := heq ▸ h

section Read

variable (hpayments : s'.registry.payments = s.registry.payments)
include hpayments

theorem balanceAu_congr {user : PublicKey}
    (h : s'.accounts.balance.get (user, rail) = s.accounts.balance.get (user, rail)) :
    s'.balanceAu user rail = s.balanceAu user rail := by
  rw [balanceAu, balanceAu, balanceRecord_congr hpayments h]

theorem earnedAu_congr {provider : PublicKey}
    (h : s'.accounts.earning.get (provider, rail) = s.accounts.earning.get (provider, rail)) :
    s'.earnedAu provider rail = s.earnedAu provider rail := by
  rw [earnedAu, earnedAu, earningRecord_congr hpayments h]

theorem feeCumAu_congr (h : s'.accounts.fee.get rail = s.accounts.fee.get rail) :
    s'.feeCumAu rail = s.feeCumAu rail := by
  rw [feeCumAu, feeCumAu, feeCumRecord_congr hpayments h]

theorem burnCumAu_congr (h : s'.accounts.burn.get rail = s.accounts.burn.get rail) :
    s'.burnCumAu rail = s.burnCumAu rail := by
  rw [burnCumAu, burnCumAu, burnCumRecord_congr hpayments h]

end Read

theorem openBondAu_congr (h : s'.disputes.record = s.disputes.record) :
    s'.openBondAu rail = s.openBondAu rail := by
  funext disputeId
  rw [openBondAu, openBondAu, h]

theorem Moved.of_parts {usersAu providersAu : ℤ}
    (husers : Change (s.balanceAu · rail) (s'.balanceAu · rail) usersAu)
    (hproviders : Change (s.earnedAu · rail) (s'.earnedAu · rail) providersAu)
    (hdisputes : s'.disputes.record = s.disputes.record) (hburn : s'.burnCumAu rail = s.burnCumAu rail)
    (hsum : usersAu + providersAu + ((s'.feeCumAu rail : ℤ) - s.feeCumAu rail) = δ) : Moved s s' rail δ := by
  refine ⟨_, _, 0, husers, hproviders, .of_eq fun _ => congrFun (openBondAu_congr hdisputes) _, ?_⟩
  omega

structure SameBooks (s s' : Ledger) : Prop where
  accounts : s'.accounts = s.accounts
  payments : s'.registry.payments = s.registry.payments
  disputes : s'.disputes.record = s.disputes.record

theorem SameBooks.moved (h : SameBooks s s') (rail : Rail) : Moved s s' rail 0 := by
  refine .of_parts (.of_eq fun _ => balanceAu_congr h.payments (by rw [h.accounts]))
    (.of_eq fun _ => earnedAu_congr h.payments (by rw [h.accounts])) h.disputes
    (burnCumAu_congr h.payments (by rw [h.accounts])) ?_
  rw [feeCumAu_congr h.payments (by rw [h.accounts])]
  omega

theorem moved_refl (s : Ledger) (rail : Rail) : Moved s s rail 0 := SameBooks.moved ⟨rfl, rfl, rfl⟩ rail

variable {r : Rail}

theorem moved_putBalance {user : PublicKey} {record next : BalanceRecord}
    (hread : s.balanceRecord user r = .ok record) (hscope : next.scope = record.scope) (rail : Rail) :
    Moved s (s.putBalance user r next) rail (if rail = r then next.au - record.au else 0) := by
  have husers := Change.of_entry (f := s.balanceAu) (g := (s.putBalance user r next).balanceAu)
    (fun _ _ hne => balanceAu_congr (putBalance_payments _ _ _ _) (Table.get_put_of_ne _ _ hne)) rail
  rw [balanceAu_of_read hread, balanceAu_of_read (balanceRecord_putBalance hread hscope)] at husers
  have hfee : (s.putBalance user r next).feeCumAu rail = s.feeCumAu rail := feeCumAu_congr rfl rfl
  refine .of_parts husers (.of_eq fun _ => earnedAu_congr rfl rfl) rfl (burnCumAu_congr rfl rfl) ?_
  rw [hfee]
  omega

theorem moved_putEarning {provider : PublicKey} {record next : EarningRecord}
    (hread : s.earningRecord provider r = .ok record) (hscope : next.scope = record.scope) (rail : Rail) :
    Moved s (s.putEarning provider r next) rail
      (if rail = r then next.earned.totalAu - record.earned.totalAu else 0) := by
  have hproviders := Change.of_entry (f := s.earnedAu) (g := (s.putEarning provider r next).earnedAu)
    (fun _ _ hne => earnedAu_congr (putEarning_payments _ _ _ _) (Table.get_put_of_ne _ _ hne)) rail
  have hstored := earningRecord_of_stored (putEarning_payments s provider r next) hread
    (Table.get_put_self _ _ _) hscope
  rw [earnedAu_of_read hread, earnedAu_of_read hstored] at hproviders
  have hfee : (s.putEarning provider r next).feeCumAu rail = s.feeCumAu rail := feeCumAu_congr rfl rfl
  refine .of_parts (.of_eq fun _ => balanceAu_congr rfl rfl) hproviders rfl (burnCumAu_congr rfl rfl) ?_
  rw [hfee]
  omega

theorem moved_putFee {record next : FeeRecord} (hread : s.feeCumRecord r = .ok record)
    (hscope : next.scope = record.scope) (rail : Rail) :
    Moved s (s.putFee r next) rail (if rail = r then next.cumAu - record.cumAu else 0) := by
  refine .of_parts (.of_eq fun _ => balanceAu_congr rfl rfl) (.of_eq fun _ => earnedAu_congr rfl rfl) rfl
    (burnCumAu_congr rfl rfl) ?_
  by_cases hrail : rail = r
  . subst hrail
    rw [if_pos rfl, feeCumAu_of_read hread, feeCumAu_of_read (feeCumRecord_putFee hread hscope)]
    omega
  . have hfee : (s.putFee r next).feeCumAu rail = s.feeCumAu rail :=
      feeCumAu_congr (putFee_payments _ _ _) (Table.get_put_of_ne _ _ hrail)
    rw [if_neg hrail, hfee]
    omega

variable {disputeId : Nat} {dispute : DisputeRecord}

theorem moved_putDispute (haccounts : s'.accounts = s.accounts)
    (hpayments : s'.registry.payments = s.registry.payments)
    (hrecord : s'.disputes.record = s.disputes.record.put disputeId dispute) (rail : Rail) :
    Moved s s' rail (s'.openBondAu rail disputeId - s.openBondAu rail disputeId) := by
  have hother (id : Nat) (hne : id ≠ disputeId) : s'.openBondAu rail id = s.openBondAu rail id := by
    rw [openBondAu, openBondAu, hrecord, Table.get_put_of_ne _ _ hne]
  refine ⟨0, 0, _, .of_eq fun _ => balanceAu_congr hpayments (by rw [haccounts]),
    .of_eq fun _ => earnedAu_congr hpayments (by rw [haccounts]), .single disputeId hother, ?_⟩
  rw [feeCumAu_congr hpayments (by rw [haccounts]), burnCumAu_congr hpayments (by rw [haccounts])]
  omega

/-! Slashes -/

theorem Slashed.moved {request : SlashRequest} (h : Slashed s request s') (rail : Rail) : Moved s s' rail 0 := by
  obtain ⟨entry, hentry, hagree⟩ := h.rails rail
  have hforfeit : Change (s.earnedAu · rail) (s'.earnedAu · rail) (-entry.forfeitedAu) := by
    obtain ⟨_, hread, hvalid, hslashed⟩ := hentry.earning
    obtain ⟨_, hafter, hscope, _, -⟩ := slashedEarning_taken hvalid hslashed
    have hstored := hentry.earningRecord_eq hagree h.payments_eq hread hafter hscope
    have hchange : Change (s.earnedAu · rail) (s'.earnedAu · rail) _ := .single request.provider fun other hne =>
      congrArg (readAu _) (hentry.earningRecord_of_ne hagree h.payments_eq hne)
    rw [earnedAu_of_read hread, earnedAu_of_read hstored] at hchange
    convert hchange using 1
    omega
  have hbalance := hentry.balanceAu_eq hagree h.payments_eq
  have hgain : Change (s.balanceAu · rail) (s'.balanceAu · rail) entry.beneficiaryAu := by
    cases hto : request.beneficiary with
    | none =>
      rw [hto] at hbalance
      have hnothing : entry.beneficiaryAu = 0 := by
        rcases hentry.balance with ⟨-, hzero⟩ | ⟨beneficiary, -, hsome, -⟩
        . exact hzero
        . rw [hto] at hsome
          cases hsome
      rw [hnothing]
      exact .of_eq fun user => by simp [hbalance user]
    | some beneficiary =>
      rw [hto] at hbalance
      have hchange : Change (s.balanceAu · rail) (s'.balanceAu · rail) _ :=
        .single beneficiary fun other hne => by
        simp [hbalance other, Ne.symm hne]
      rw [hbalance beneficiary, if_pos rfl] at hchange
      convert hchange using 1
      omega
  refine .of_parts hgain hforfeit (by rw [h.disputes_eq]) (burnCumAu_congr h.payments_eq (by rw [h.burn_eq])) ?_
  have hshares := hentry.shares
  rw [hentry.feeCumAu_eq hagree h.payments_eq]
  omega

theorem SlashPath.moved (h : SlashPath s s') (rail : Rail) : Moved s s' rail 0 := by
  refine Run.invariant (fun t => Moved s t rail 0) (moved_refl s rail) ?_ h
  intro t _ ht hstep
  cases hstep with
  | quiet haccounts hpayments hdisputes =>
    exact (ht.trans (SameBooks.moved ⟨haccounts, hpayments, by rw [hdisputes]⟩ rail)).cast (by omega)
  | slashed _ hslashed => exact (ht.trans (hslashed.moved rail)).cast (by omega)

theorem SlashPath.disputes_eq (h : SlashPath s s') : s'.disputes = s.disputes := by
  refine Run.invariant (fun t => t.disputes = s.disputes) rfl ?_ h
  intro t _ ht hstep
  cases hstep with
  | quiet _ _ hdisputes => exact hdisputes.trans ht
  | slashed _ hslashed => exact hslashed.disputes_eq.trans ht

/-! Pages -/

theorem ConservesValue.moved {allocations : List Allocation} (h : ConservesValue s s' allocations)
    (hpayments : s'.registry.payments = s.registry.payments) (hdisputes : s'.disputes = s.disputes)
    (rail : Rail) : Moved s s' rail 0 := by
  classical
  let named := allocations.filter fun a => a.rail = rail
  have hnamed : ∀ a ∈ allocations, a.rail = rail →
      a.user ∈ (named.map Allocation.user).toFinset ∧ a.provider ∈ (named.map Allocation.provider).toFinset := by
    intro a ha hrail
    have hmem : a ∈ named := List.mem_filter.mpr ⟨ha, by simpa using hrail⟩
    exact ⟨List.mem_toFinset.mpr (List.mem_map_of_mem hmem), List.mem_toFinset.mpr (List.mem_map_of_mem hmem)⟩
  have husers : Change (s.balanceAu · rail) (s'.balanceAu · rail)
      (∑ user ∈ (named.map Allocation.user).toFinset,
        ((s'.balanceAu user rail : ℤ) - s.balanceAu user rail)) := by
    refine ⟨(named.map Allocation.user).toFinset, fun user hnot => ?_, rfl⟩
    apply balanceAu_congr hpayments
    exact h.balance_frame user rail fun a ha hrail heq => hnot (heq ▸ (hnamed a ha hrail).1)
  have hproviders : Change (s.earnedAu · rail) (s'.earnedAu · rail)
      (∑ provider ∈ (named.map Allocation.provider).toFinset,
        ((s'.earnedAu provider rail : ℤ) - s.earnedAu provider rail)) := by
    refine ⟨(named.map Allocation.provider).toFinset, fun provider hnot => ?_, rfl⟩
    apply earnedAu_congr hpayments
    exact h.earning_frame provider rail fun a ha hrail heq => hnot (heq ▸ (hnamed a ha hrail).2)
  refine ⟨_, _, 0, husers, hproviders, .of_eq fun _ => congrFun (openBondAu_congr (by rw [hdisputes])) _, ?_⟩
  have hsum := h.conserved rail _ _ hnamed
  have hswap : ∑ user ∈ (named.map Allocation.user).toFinset,
    ((s'.balanceAu user rail : ℤ) - s.balanceAu user rail) =
      -∑ user ∈ (named.map Allocation.user).toFinset, ((s.balanceAu user rail : ℤ) - s'.balanceAu user rail) := by
    rw [← Finset.sum_neg_distrib]
    apply Finset.sum_congr rfl
    intro user _
    omega
  rw [hswap, hsum]
  omega

/-! Payouts and sweeps -/

theorem PaidUpdates.earnedAu_eq {outputs : List SettlementOutput} {updates : SettlementUpdates}
    {paid : List ProviderPaid} (h : PaidUpdates s r outputs updates paid)
    (hpayments : s'.registry.payments = s.registry.payments)
    (hearning : s'.accounts.earning = s.accounts.earning.putAll updates.earnings) (provider : PublicKey)
    (rail : Rail) : s'.earnedAu provider rail = s.earnedAu provider rail := by
  rcases s.accounts.earning.get_putAll_cases updates.earnings (provider, rail) with heq | ⟨after, hmem, heq⟩
  . exact earnedAu_congr hpayments (by rw [hearning, heq])
  . obtain ⟨payment, -, hkey, _, hread, hby⟩ := List.Forall₂.exists_of_mem_right h.earnings hmem
    obtain ⟨rfl, rfl⟩ := Prod.mk.inj hkey
    have hstored : s'.accounts.earning.get (payment.provider, rail) = some after := by rw [hearning, heq]
    have htotal := hby.total_eq
    dsimp only at htotal
    rw [earnedAu_of_read hread, earnedAu_of_read (earningRecord_of_stored hpayments hread hstored hby.scope_eq)]
    omega

theorem SweptDust.moved {value : DustSweepValue} {plan : DustSweepPlan} (h : SweptDust s value plan)
    (rail : Rail) : Moved s (s.writeDustSweep value plan) rail 0 := by
  obtain ⟨_, hread, hby⟩ := h.earning
  obtain ⟨fee, hfee, hscope, _⟩ := h.fee
  have htotal := hby.total_eq
  have hearning := moved_putEarning hread hby.scope_eq rail
  have hsame : (s.putEarning value.provider .fiat plan.earning).feeCumRecord .fiat = .ok fee :=
    (feeCumRecord_congr rfl rfl).trans hfee
  have hkept : SameBooks ((s.putEarning value.provider .fiat plan.earning).putFee .fiat plan.fee)
      (s.writeDustSweep value plan) := ⟨rfl, rfl, rfl⟩
  apply ((hearning.trans (moved_putFee hsame hscope rail)).trans (hkept.moved rail)).cast
  dsimp only at htotal
  split <;> omega

theorem MoneyEffect.moved (h : MoneyEffect s s') (rail : Rail) : Moved s s' rail 0 ∧
    s'.disputes = s.disputes := by
  have hpayments := h.earningsStep.payments_eq
  cases h with
  | planned payouts => exact ⟨SameBooks.moved ⟨rfl, rfl, rfl⟩ rail, rfl⟩
  | @output r plan payouts hplan =>
    obtain ⟨_, _, hpaid⟩ := hplan.updates
    refine ⟨.of_parts (.of_eq fun _ => balanceAu_congr rfl rfl)
      (.of_eq fun _ => hpaid.earnedAu_eq hpayments rfl _ _) rfl (burnCumAu_congr rfl rfl) ?_, rfl⟩
    rcases s.accounts.fee.get_putAll_cases (plan.fee.toList.map fun fee => (r, fee)) rail with
      heq | ⟨next, hmem, heq⟩
    . rw [feeCumAu_congr hpayments heq]
      omega
    . obtain ⟨found, hfound, hentry⟩ := List.mem_map.mp hmem
      obtain ⟨rfl, rfl⟩ := Prod.mk.inj hentry
      obtain ⟨fee, hread, hscope, hcum⟩ := hplan.fee found (Option.mem_toList.mp hfound)
      rw [feeCumAu_of_read hread, feeCumAu_of_read (feeCumRecord_of_stored hpayments hread heq hscope), hcum]
      omega
  | tap payouts hpaid =>
    refine ⟨.of_parts (.of_eq fun _ => balanceAu_congr rfl rfl)
      (.of_eq fun _ => hpaid.earnedAu_eq hpayments rfl _ _) rfl (burnCumAu_congr rfl rfl) ?_, rfl⟩
    rw [feeCumAu_congr hpayments rfl]
    omega
  | swept hplan => exact ⟨hplan.moved rail, rfl⟩
  | slashed hpath => exact ⟨hpath.moved rail, hpath.disputes_eq⟩

/-! Deposits -/

theorem writeTapDepositReversal_sameBooks (s : Ledger) (plan : TapReversalPlan) :
    SameBooks (s.putBalance plan.seen.who .tap plan.balance) (s.writeTapDepositReversal plan) := by
  unfold writeTapDepositReversal
  split <;> exact ⟨rfl, rfl, rfl⟩

namespace DepositOp

def creditedAu (host : DepositHost) (s : Ledger) (rail : Rail) (op : DepositOp) : Nat :=
  match op.recorded host s with
  | some (_, entry) => if rail = op.rail then entry.creditedAu else 0
  | none => 0

def clawbackAu (host : DepositHost) (s : Ledger) (rail : Rail) (op : DepositOp) : Nat :=
  match op.recorded host s with
  | some (_, entry) => if rail = op.rail then entry.clawbackAu else 0
  | none => 0

variable {host : DepositHost}

theorem Effect.balance {op : DepositOp} {epoch : Nat} {entry : EvidenceEntry}
    (h : op.Effect host s s' (some (epoch, entry))) :
    ∃ user next, SameBooks (s.putBalance user op.rail next) s' ∧
      s.Adjusts user op.rail next entry.clawbackAu entry.creditedAu := by
  cases h with
  | tnk plan hplan => exact ⟨_, _, ⟨rfl, rfl, rfl⟩, (prepareTnkDeposit_eq_ok hplan).2⟩
  | tap plan hplan => exact ⟨_, _, ⟨rfl, rfl, rfl⟩, (prepareTapDeposit_eq_ok hplan).2⟩
  | fiat plan hplan => exact ⟨_, _, ⟨rfl, rfl, rfl⟩, (prepareFiatDeposit_eq_ok hplan).2⟩
  | tapReversal plan hplan =>
    obtain ⟨-, -, -, hdebits⟩ := prepareTapDepositReversal_eq_ok hplan
    exact ⟨_, _, writeTapDepositReversal_sameBooks s plan, hdebits⟩
  | chargeback plan hplan =>
    obtain ⟨-, -, -, hdebits⟩ := prepareFiatChargeback_eq_ok hplan
    exact ⟨_, _, ⟨rfl, rfl, rfl⟩, hdebits⟩

theorem moved (host : DepositHost) (s : Ledger) (op : DepositOp) (rail : Rail) :
    Moved s (op.exec host s) rail (op.creditedAu host s rail - op.clawbackAu host s rail) := by
  have heffect := op.effect host s
  rw [creditedAu, clawbackAu]
  cases hrecorded : op.recorded host s with
  | none =>
    rw [hrecorded] at heffect
    rw [heffect.unchanged]
    exact moved_refl s rail
  | some recorded =>
    obtain ⟨_, _⟩ := recorded
    rw [hrecorded] at heffect
    obtain ⟨_, _, hsame, balance, hread, hscope, _⟩ := heffect.balance
    apply ((moved_putBalance hread hscope rail).trans (hsame.moved rail)).cast
    dsimp only
    split <;> omega

end DepositOp

/-! Disputes -/

theorem DepositOp.Effect.disputes_eq {host : DepositHost} {op : DepositOp}
    {recorded : Option (Nat × EvidenceEntry)} (h : op.Effect host s s' recorded) : s'.disputes = s.disputes := by
  cases h with
  | tapReversal =>
    unfold writeTapDepositReversal
    split <;> rfl
  | _ => rfl

theorem openBondAu_of_open (h : s.disputes.record.get disputeId = some dispute)
    (hopen : dispute.status = .opened) (rail : Rail) :
    s.openBondAu rail disputeId = if rail = dispute.rail then dispute.depositAu else 0 := by
  simp [openBondAu, h, hopen, eq_comm]

theorem openBondAu_of_closed (h : s.disputes.record.get disputeId = some dispute)
    (hclosed : dispute.status ≠ .opened) (rail : Rail) : s.openBondAu rail disputeId = 0 := by
  simp [openBondAu, h, hclosed]

theorem openBondAu_of_next (h : s.DisputesNumbered) (rail : Rail) :
    s.openBondAu rail (s.disputes.next.getD 1) = 0 := by
  unfold openBondAu
  cases hstored : s.disputes.record.get (s.disputes.next.getD 1) with
  | none => rfl
  | some dispute => exact absurd (h _ dispute hstored) (Nat.lt_irrefl _)

theorem Fileable.moved {sender : PublicKey} {value : DisputeValue} {plan : DisputePlan}
    (hplan : Fileable s sender value plan) (h : s.DisputesNumbered) (rail : Rail) :
    Moved s (s.writeDispute plan) rail 0 := by
  have hid := hplan.disputeId_eq
  obtain ⟨balance, hread, hscope, _⟩ := hplan.debits
  have hdebit := moved_putBalance hread hscope rail
  have hrecord : (s.writeDispute plan).disputes.record =
    s.disputes.record.put plan.record.disputeId plan.record := rfl
  have haccounts : (s.writeDispute plan).accounts =
      (s.putBalance plan.record.openedBy plan.record.rail plan.balance).accounts := rfl
  have hfile := @moved_putDispute (s.putBalance plan.record.openedBy plan.record.rail plan.balance)
    _ _ _ haccounts
    rfl hrecord rail
  have hbefore : (s.putBalance plan.record.openedBy plan.record.rail plan.balance).openBondAu rail
      plan.record.disputeId = 0 := by
    have hsame := @openBondAu_congr s (s.putBalance plan.record.openedBy plan.record.rail plan.balance) rail rfl
    rw [hsame, hid, openBondAu_of_next h]
  apply (hdebit.trans hfile).cast
  rw [hbefore, openBondAu_of_open (by rw [hrecord, Table.get_put_self]) hplan.opened]
  split <;> omega

theorem payDeposit_moved {split : BondSplit} {paid : Ledger} (h : s.payDeposit dispute split = (paid, .ok ()))
    (rail : Rail) :
    Moved s paid rail (if rail = dispute.rail then split.refundedAu + split.forfeitedAu else 0) := by
  obtain ⟨refunded, hrefund, hforfeit⟩ := payDeposit_eq_ok h
  have hfirst : Moved s refunded rail (if rail = dispute.rail then split.refundedAu else 0) := by
    rcases refundDeposit_eq_ok hrefund with ⟨hzero, rfl⟩ | ⟨_, next, hread, -, hnext, rfl⟩
    . apply (moved_refl _ rail).cast
      split <;> omega
    . apply (moved_putBalance hread (by rw [hnext]) rail).cast
      rw [hnext]
      dsimp only
      split <;> omega
  have hsecond : Moved refunded paid rail (if rail = dispute.rail then split.forfeitedAu else 0) := by
    rcases forfeitDeposit_eq_ok hforfeit with ⟨hzero, rfl⟩ | ⟨_, next, hread, -, hnext, rfl⟩
    . apply (moved_refl _ rail).cast
      split <;> omega
    . apply (moved_putFee hread (by rw [hnext]) rail).cast
      rw [hnext]
      dsimp only
      split <;> omega
  apply (hfirst.trans hsecond).cast
  split <;> omega

theorem Resolved.moved {host : ReputationHost} {sender : PublicKey} {tx : Digest} {value : DisputeResolveValue}
    (h : Resolved s host sender tx value s') (rail : Rail) : Moved s s' rail 0 := by
  have hframe := h.frame.1
  obtain ⟨verdict, paid, judged, _, _, hjudgeable, hpay, hfault, hcount, rfl⟩ := h
  dsimp only at hframe
  have hsplit := (bondSplit_eq_ok hjudgeable.split).1
  have hslash := paid.faultProvider_slashPath host sender tx value verdict
  rw [hfault] at hslash
  have hjudged := (payDeposit_moved hpay rail).trans (hslash.moved rail)
  obtain ⟨disputes, oversight, rfl, hrecord, -⟩ := closeDisputeCounts_eq_ok hcount
  have hput : (Table.put disputes.record value.disputeId (resolved verdict)) =
      judged.disputes.record.put value.disputeId (resolved verdict) := by rw [hrecord]
  have hmark := @moved_putDispute judged (putDispute { judged with disputes := disputes, oversight := oversight }
    value.disputeId (resolved verdict)) _ _ rfl rfl hput rail
  have hopen : judged.openBondAu rail value.disputeId =
      if rail = verdict.dispute.rail then verdict.dispute.depositAu else 0 := by
    apply openBondAu_of_open _ hjudgeable.opened
    rw [hframe, hjudgeable.stored]
  have hclosed : (putDispute { judged with disputes := disputes, oversight := oversight } value.disputeId
      (resolved verdict)).openBondAu rail value.disputeId = 0 :=
    openBondAu_of_closed (Table.get_put_self _ _ _) DisputeStatus.noConfusion rail
  apply (hjudged.trans hmark).cast
  rw [hopen, hclosed]
  split <;> omega

theorem Expired.moved {value : DisputeExpireValue} (h : Expired s value s') (rail : Rail) :
    Moved s s' rail 0 := by
  obtain ⟨dispute, _, next, _, hstored, hopened, hread, hscope, hau, hcount, rfl⟩ := h
  obtain ⟨disputes, oversight, rfl, hrecord, -⟩ := closeDisputeCounts_eq_ok hcount
  have hrefund := moved_putBalance hread hscope rail
  have hput : (Table.put disputes.record value.disputeId (expired dispute)) =
      s.disputes.record.put value.disputeId (expired dispute) := by rw [hrecord]
  have hmark := @moved_putDispute (s.putBalance dispute.openedBy dispute.rail next)
    (putDispute (putBalance { s with disputes := disputes, oversight := oversight } dispute.openedBy
      dispute.rail next)
      value.disputeId (expired dispute)) _ _ rfl rfl hput rail
  have hopen : (s.putBalance dispute.openedBy dispute.rail next).openBondAu rail value.disputeId =
      if rail = dispute.rail then dispute.depositAu else 0 := openBondAu_of_open hstored hopened rail
  have hclosed : (putDispute (putBalance { s with disputes := disputes, oversight := oversight } dispute.openedBy
      dispute.rail next) value.disputeId (expired dispute)).openBondAu rail value.disputeId = 0 :=
    openBondAu_of_closed (Table.get_put_self _ _ _) DisputeStatus.noConfusion rail
  apply (hrefund.trans hmark).cast
  rw [hopen, hclosed, hau]
  split <;> omega

theorem DisputeEffect.moved {host : ReputationHost} (heffect : DisputeEffect host s s') (h : s.DisputesNumbered)
    (rail : Rail) : Moved s s' rail 0 := by
  cases heffect with
  | kept => exact moved_refl s rail
  | filed hplan => exact hplan.moved h rail
  | judged hresolved => exact hresolved.moved rail
  | lapsed hexpired => exact hexpired.moved rail

end Ledger

/-! Operations that write everything or nothing -/

namespace EarningOp

def applyWhole (host : MoneyHost) (s : Ledger) (op : EarningOp) : Ledger :=
  match op.message host s with
  | none => op.apply host s
  | some _ => s

variable {s : Ledger}

theorem moved_applyWhole (host : MoneyHost) (h : s.DisputesNumbered) (op : EarningOp) :
    (∀ rail, s.Moved (op.applyWhole host s) rail 0) ∧ (op.applyWhole host s).DisputesNumbered := by
  unfold applyWhole
  split
  . next haccepted =>
    rcases op.effect host s with hmoney | ⟨_, _, _, _, _, houtcome, happly, hmessage⟩ | ⟨dispute, rfl⟩
    . exact ⟨fun rail => (hmoney.moved rail).1, h.congr (hmoney.moved .tnk).2⟩
    . obtain ⟨_, hok⟩ := Except.message_eq_none_iff.mp (hmessage.symm.trans haccepted)
      rw [happly]
      exact ⟨(houtcome.conservesValue hok).moved houtcome.earningsStep.payments_eq houtcome.disputes_eq,
        h.congr houtcome.disputes_eq⟩
    . have hwhole : dispute.applyWhole host.reputation s = (EarningOp.dispute dispute).apply host s := by
        rw [DisputeOp.applyWhole, show dispute.message host.reputation s = none from haccepted]
        rfl
      rw [← hwhole]
      have heffect := Ledger.DisputeOp.effect host.reputation s dispute
      exact ⟨heffect.moved h, h.after heffect⟩
  . exact ⟨s.moved_refl, h⟩

end EarningOp

/-! Runs -/

structure Books where
  ledger : Ledger
  creditedAu : Rail → Nat
  clawbackAu : Rail → Nat

inductive BooksStep (deposits : DepositHost) (host : MoneyHost) : Books → Books → Prop
  | deposit (books : Books) (op : Ledger.DepositOp) : BooksStep deposits host books
      ⟨op.exec deposits books.ledger, fun rail =>
        books.creditedAu rail + op.creditedAu deposits books.ledger rail,
        fun rail => books.clawbackAu rail + op.clawbackAu deposits books.ledger rail⟩
  | op (books : Books) (op : EarningOp) : BooksStep deposits host books
      { books with ledger := op.applyWhole host books.ledger }
  | other (books : Books) (ledger : Ledger) (haccounts : ledger.accounts = books.ledger.accounts)
      (hpayments : ledger.registry.payments = books.ledger.registry.payments)
      (hdisputes : ledger.disputes = books.ledger.disputes) : BooksStep deposits host books
      { books with ledger := ledger }

namespace Books

open Holdings Function

variable {books books' : Books}

structure Sound (books : Books) : Prop where
  numbered : books.ledger.DisputesNumbered
  users_finite : ∀ rail, (support (books.ledger.balanceAu · rail)).Finite
  providers_finite : ∀ rail, (support (books.ledger.earnedAu · rail)).Finite
  bonds_finite : ∀ rail, (support (books.ledger.openBondAu rail)).Finite
  balanced : ∀ rail,
    ∑ᶠ user, (books.ledger.balanceAu user rail : ℤ) + ∑ᶠ provider, (books.ledger.earnedAu provider rail : ℤ) +
      books.ledger.feeCumAu rail + books.ledger.burnCumAu rail +
      ∑ᶠ disputeId, (books.ledger.openBondAu rail disputeId : ℤ) =
    (books.creditedAu rail : ℤ) - books.clawbackAu rail

theorem Sound.of_moved (h : books.Sound) (hnumbered : books'.ledger.DisputesNumbered)
    (hmoved : ∀ rail, books.ledger.Moved books'.ledger rail
      (((books'.creditedAu rail : ℤ) - books'.clawbackAu rail) -
        (books.creditedAu rail - books.clawbackAu rail))) :
    books'.Sound := by
  refine ⟨hnumbered, ?_, ?_, ?_, ?_⟩
  . intro rail
    obtain ⟨_, _, _, husers, -, -, -⟩ := hmoved rail
    exact husers.finite_support (h.users_finite rail)
  . intro rail
    obtain ⟨_, _, _, -, hproviders, -, -⟩ := hmoved rail
    exact hproviders.finite_support (h.providers_finite rail)
  . intro rail
    obtain ⟨_, _, _, -, -, hbonds, -⟩ := hmoved rail
    exact hbonds.finite_support (h.bonds_finite rail)
  . intro rail
    obtain ⟨_, _, _, husers, hproviders, hbonds, _⟩ := hmoved rail
    rw [husers.finsum_eq (h.users_finite rail), hproviders.finsum_eq (h.providers_finite rail),
      hbonds.finsum_eq (h.bonds_finite rail)]
    have hbefore := h.balanced rail
    omega

theorem Sound.step {deposits : DepositHost} {host : MoneyHost} (h : books.Sound)
    (hstep : BooksStep deposits host books books') : books'.Sound := by
  cases hstep with
  | deposit op =>
    apply h.of_moved (h.numbered.congr (op.effect deposits books.ledger).disputes_eq)
    intro rail
    apply (op.moved deposits books.ledger rail).cast
    dsimp only
    omega
  | op op =>
    obtain ⟨hmoved, hnumbered⟩ := op.moved_applyWhole host h.numbered
    apply h.of_moved hnumbered
    intro rail
    apply (hmoved rail).cast
    dsimp only
    omega
  | other ledger haccounts hpayments hdisputes =>
    apply h.of_moved (h.numbered.congr hdisputes)
    intro rail
    have hsame : books.ledger.SameBooks ledger := ⟨haccounts, hpayments, by rw [hdisputes]⟩
    apply (hsame.moved rail).cast
    dsimp only
    omega

end Books

/-! From the first deposit on -/

structure Ledger.WithoutMoney (s : Ledger) : Prop where
  balance : s.accounts.balance = Table.empty
  earning : s.accounts.earning = Table.empty
  fee : s.accounts.fee = Table.empty
  burn : s.accounts.burn = Table.empty
  disputes : s.disputes.record = Table.empty

theorem readAu_readScoped_none {α : Type} (reg : Registry) (rail : Rail) (scope : α → Option TapScope)
    {amount : α → Nat} {fresh : Option TapScope → α} (h : ∀ tap, amount (fresh tap) = 0) :
    readAu amount (readScoped reg rail scope none fresh) = 0 := by
  unfold readScoped
  cases railScope reg rail with
  | error => rfl
  | ok tap =>
    have hnone : scopedRecord tap scope none = none := by cases tap <;> rfl
    rw [Except.bind_of_ok, hnone]
    exact h tap

namespace Ledger.WithoutMoney

open Function

variable {s : Ledger}

theorem balanceAu_eq (h : s.WithoutMoney) (user : PublicKey) (rail : Rail) : s.balanceAu user rail = 0 := by
  rw [balanceAu, balanceRecord, h.balance]
  exact readAu_readScoped_none _ _ _ fun _ => rfl

theorem earnedAu_eq (h : s.WithoutMoney) (provider : PublicKey) (rail : Rail) : s.earnedAu provider rail = 0 := by
  rw [earnedAu, earningRecord, h.earning]
  exact readAu_readScoped_none _ _ _ fun _ => rfl

theorem feeCumAu_eq (h : s.WithoutMoney) (rail : Rail) : s.feeCumAu rail = 0 := by
  rw [feeCumAu, feeCumRecord, h.fee]
  exact readAu_readScoped_none _ _ _ fun _ => rfl

theorem burnCumAu_eq (h : s.WithoutMoney) (rail : Rail) : s.burnCumAu rail = 0 := by
  rw [burnCumAu, burnCumRecord, h.burn]
  exact readAu_readScoped_none _ _ _ fun _ => rfl

theorem openBondAu_eq (h : s.WithoutMoney) (rail : Rail) (disputeId : Nat) : s.openBondAu rail disputeId = 0 := by
  rw [openBondAu, h.disputes]
  rfl

theorem sound (h : s.WithoutMoney) : Books.Sound ⟨s, fun _ => 0, fun _ => 0⟩ := by
  constructor
  case numbered =>
    intro _ _ hstored
    rw [h.disputes] at hstored
    cases hstored
  case users_finite => simp [h.balanceAu_eq, support]
  case providers_finite => simp [h.earnedAu_eq, support]
  case bonds_finite => simp [h.openBondAu_eq, support]
  case balanced => simp [h.balanceAu_eq, h.earnedAu_eq, h.feeCumAu_eq, h.burnCumAu_eq, h.openBondAu_eq]

end Ledger.WithoutMoney

/--
In every run, what the users, the providers, the operator, the burn and the open disputes have on a rail is what
was credited and not taken back.
-/
theorem books_balanced {deposits : DepositHost} {host : MoneyHost} {start : Ledger} {books : Books}
    (hstart : start.WithoutMoney)
    (hrun : Relation.ReflTransGen (BooksStep deposits host) ⟨start, fun _ => 0, fun _ => 0⟩ books) (rail : Rail) :
    (Function.support (books.ledger.balanceAu · rail)).Finite ∧
    (Function.support (books.ledger.earnedAu · rail)).Finite ∧
    (Function.support (books.ledger.openBondAu rail)).Finite ∧
    ∑ᶠ user, (books.ledger.balanceAu user rail : ℤ) + ∑ᶠ provider, (books.ledger.earnedAu provider rail : ℤ) +
      books.ledger.feeCumAu rail + books.ledger.burnCumAu rail +
      ∑ᶠ disputeId, (books.ledger.openBondAu rail disputeId : ℤ) =
    (books.creditedAu rail : ℤ) - books.clawbackAu rail := by
  have hsound := Run.invariant Books.Sound hstart.sound (fun _ _ h hstep => h.step hstep) hrun
  exact ⟨hsound.users_finite rail, hsound.providers_finite rail, hsound.bonds_finite rail, hsound.balanced rail⟩

def unpaidLedger : Ledger := { Ledger.talkLedger with accounts := Ledger.empty.accounts }

def unpaidBooks : Books := ⟨unpaidLedger, fun _ => 0, fun _ => 0⟩

def Books.afterDeposit (books : Books) (op : Ledger.DepositOp) : Books :=
  ⟨op.exec Ledger.plainDepositHost books.ledger,
    fun rail => books.creditedAu rail + op.creditedAu Ledger.plainDepositHost books.ledger rail,
    fun rail => books.clawbackAu rail + op.clawbackAu Ledger.plainDepositHost books.ledger rail⟩

theorem books_balanced_after_chargeback :
    ∃ books, Relation.ReflTransGen (BooksStep Ledger.plainDepositHost Ledger.plainMoneyHost) unpaidBooks books ∧
      books.creditedAu .fiat = 100 ∧ books.clawbackAu .fiat = 40 ∧
      ∑ᶠ user, (books.ledger.balanceAu user .fiat : ℤ) + ∑ᶠ provider, (books.ledger.earnedAu provider .fiat : ℤ) +
        books.ledger.feeCumAu .fiat + books.ledger.burnCumAu .fiat +
        ∑ᶠ disputeId, (books.ledger.openBondAu .fiat disputeId : ℤ) = 60 := by
  have hstart : unpaidLedger.WithoutMoney := ⟨rfl, rfl, rfl, rfl, rfl⟩
  have hpaid : Relation.ReflTransGen (BooksStep Ledger.plainDepositHost Ledger.plainMoneyHost) unpaidBooks
      (unpaidBooks.afterDeposit (.fiat 10 Ledger.cardDeposit)) := .single (.deposit _ _)
  have hrun : Relation.ReflTransGen (BooksStep Ledger.plainDepositHost Ledger.plainMoneyHost) unpaidBooks
      ((unpaidBooks.afterDeposit (.fiat 10 Ledger.cardDeposit)).afterDeposit
        (.chargeback 10 Ledger.cardChargeback)) := hpaid.tail (.deposit _ _)
  have hfacts : ((unpaidBooks.afterDeposit (.fiat 10 Ledger.cardDeposit)).afterDeposit
      (.chargeback 10 Ledger.cardChargeback)).creditedAu .fiat = 100 ∧
      ((unpaidBooks.afterDeposit (.fiat 10 Ledger.cardDeposit)).afterDeposit
        (.chargeback 10 Ledger.cardChargeback)).clawbackAu .fiat = 40 := by decide +kernel
  generalize (unpaidBooks.afterDeposit (.fiat 10 Ledger.cardDeposit)).afterDeposit
    (.chargeback 10 Ledger.cardChargeback) = books at hrun hfacts
  obtain ⟨-, -, -, hsum⟩ := books_balanced hstart hrun .fiat
  rw [hfacts.1, hfacts.2] at hsum
  exact ⟨books, hrun, hfacts.1, hfacts.2, hsum⟩

end Mayhem
