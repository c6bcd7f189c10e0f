import Mayhem.Movement
import Mayhem.SlashFacts
import Mayhem.Payout.Refresh
import Mayhem.Payout.Sweep
import Mayhem.Payout.Tap
import Mayhem.Payout.Fiat

namespace Mayhem

structure EarningMove where
  creditedAu : Nat
  paidAu : Nat
  slashedAu : Nat
  sweptAu : Nat

structure EarningRecord.MovedBy (before after : EarningRecord) (move : EarningMove) : Prop where
  scope_eq : after.scope = before.scope
  valid : after.earned.Valid
  total_eq : after.earned.totalAu + move.slashedAu + move.sweptAu = before.earned.totalAu + move.creditedAu
  paid_eq : after.earned.paidCumAu = before.earned.paidCumAu + move.paidAu
  slashed_eq : after.slashedCumAu = before.slashedCumAu + move.slashedAu
  swept_eq : after.fiatDustSweptCumAu = before.fiatDustSweptCumAu + move.sweptAu

namespace Ledger

inductive AggregateMoved (s s' : Ledger) (provider : PublicKey) (rail : Rail) : EarningMove → Prop
  | kept (h : s'.accounts.earning.get (provider, rail) = s.accounts.earning.get (provider, rail)) :
      AggregateMoved s s' provider rail ⟨0, 0, 0, 0⟩
  | moved {move : EarningMove} (before after : EarningRecord)
      (hread : s.earningRecord provider rail = .ok before)
      (hstored : s'.accounts.earning.get (provider, rail) = some after) (hby : before.MovedBy after move) :
      AggregateMoved s s' provider rail move

def liabilityEarned (s : Ledger) (key : PublicKey × Rail × Digest) : Earned :=
  ((s.accounts.liability.get key).map PayoutLiability.earned).getD emptyEarned

variable {s s' s'' : Ledger} {key : PublicKey × Rail × Digest} {rail : Rail}

theorem liabilityEarned_of_stored {liability : PayoutLiability}
    (h : s.accounts.liability.get key = some liability) : s.liabilityEarned key = liability.earned := by
  rw [liabilityEarned, h]
  rfl

theorem liabilityEarned_congr (h : s'.accounts.liability.get key = s.accounts.liability.get key) :
    s'.liabilityEarned key = s.liabilityEarned key := by
  rw [liabilityEarned, liabilityEarned, h]

inductive LiabilityMoved (s s' : Ledger) (key : PublicKey × Rail × Digest) : Nat → Nat → Prop
  | kept (h : s'.accounts.liability.get key = s.accounts.liability.get key) : LiabilityMoved s s' key 0 0
  | moved {creditedAu paidAu : Nat} (after : PayoutLiability)
      (hstored : s'.accounts.liability.get key = some after) (hvalid : after.earned.Valid)
      (htotal : after.earned.totalAu = (s.liabilityEarned key).totalAu + creditedAu)
      (hpaid : after.earned.paidCumAu = (s.liabilityEarned key).paidCumAu + paidAu) :
      LiabilityMoved s s' key creditedAu paidAu

structure EarningsStep (s s' : Ledger) : Prop where
  payments_eq : s'.registry.payments = s.registry.payments
  aggregate : ∀ provider rail, ∃ move, s.AggregateMoved s' provider rail move
  liability : ∀ key, ∃ creditedAu paidAu, s.LiabilityMoved s' key creditedAu paidAu

theorem EarningsStep.of_eq (hpayments : s'.registry.payments = s.registry.payments)
    (hearning : s'.accounts.earning = s.accounts.earning)
    (hliability : s'.accounts.liability = s.accounts.liability) : EarningsStep s s' where
  payments_eq := hpayments
  aggregate provider rail := ⟨_, .kept (by rw [hearning])⟩
  liability key := ⟨_, _, .kept (by rw [hliability])⟩

theorem EarningsStep.refl (s : Ledger) : EarningsStep s s := .of_eq rfl rfl rfl

theorem AggregateMoved.trans (hpayments : s'.registry.payments = s.registry.payments) {provider : PublicKey}
    {move move' : EarningMove} (h : s.AggregateMoved s' provider rail move)
    (h' : s'.AggregateMoved s'' provider rail move') :
    s.AggregateMoved s'' provider rail ⟨move.creditedAu + move'.creditedAu, move.paidAu + move'.paidAu,
      move.slashedAu + move'.slashedAu, move.sweptAu + move'.sweptAu⟩ := by
  cases h with
  | kept hkept =>
    cases h' with
    | kept hkept' => exact .kept (hkept'.trans hkept)
    | moved before after hread hstored hby =>
      rw [earningRecord_congr hpayments hkept] at hread
      simp only [Nat.zero_add]
      exact .moved before after hread hstored hby
  | moved before after hread hstored hby =>
    cases h' with
    | kept hkept' => exact .moved before after hread (hkept'.trans hstored) hby
    | moved _ after' hread' hstored' hby' =>
      -- the second operation reads what the first one has stored
      have heq := earningRecord_of_stored hpayments hread hstored hby.scope_eq
      obtain rfl := Except.ok.inj (heq.symm.trans hread')
      have htotal := hby.total_eq
      have htotal' := hby'.total_eq
      refine .moved before after' hread hstored' ⟨hby'.scope_eq.trans hby.scope_eq, hby'.valid, ?_, ?_, ?_, ?_⟩
      . dsimp only
        omega
      . rw [hby'.paid_eq, hby.paid_eq, Nat.add_assoc]
      . rw [hby'.slashed_eq, hby.slashed_eq, Nat.add_assoc]
      . rw [hby'.swept_eq, hby.swept_eq, Nat.add_assoc]

theorem LiabilityMoved.trans {creditedAu paidAu creditedAu' paidAu' : Nat}
    (h : s.LiabilityMoved s' key creditedAu paidAu) (h' : s'.LiabilityMoved s'' key creditedAu' paidAu') :
    s.LiabilityMoved s'' key (creditedAu + creditedAu') (paidAu + paidAu') := by
  cases h with
  | kept hkept =>
    cases h' with
    | kept hkept' => exact .kept (hkept'.trans hkept)
    | moved after hstored hvalid htotal hpaid =>
      rw [liabilityEarned_congr hkept] at htotal hpaid
      simp only [Nat.zero_add]
      exact .moved after hstored hvalid htotal hpaid
  | moved after hstored hvalid htotal hpaid =>
    cases h' with
    | kept hkept' => exact .moved after (hkept'.trans hstored) hvalid htotal hpaid
    | moved after' hstored' hvalid' htotal' hpaid' =>
      rw [liabilityEarned_of_stored hstored] at htotal' hpaid'
      refine .moved after' hstored' hvalid' ?_ ?_
      . rw [htotal', htotal, Nat.add_assoc]
      . rw [hpaid', hpaid, Nat.add_assoc]

theorem EarningsStep.trans (h : EarningsStep s s') (h' : EarningsStep s' s'') : EarningsStep s s'' where
  payments_eq := h'.payments_eq.trans h.payments_eq
  aggregate provider rail := by
    obtain ⟨_, hmove⟩ := h.aggregate provider rail
    obtain ⟨_, hmove'⟩ := h'.aggregate provider rail
    exact ⟨_, hmove.trans h.payments_eq hmove'⟩
  liability key := by
    obtain ⟨_, _, hmove⟩ := h.liability key
    obtain ⟨_, _, hmove'⟩ := h'.liability key
    exact ⟨_, _, hmove.trans hmove'⟩

theorem EarningsStep.of_putAll (hpayments : s'.registry.payments = s.registry.payments)
    {earnings : List ((PublicKey × Rail) × EarningRecord)}
    {liabilities : List ((PublicKey × Rail × Digest) × PayoutLiability)}
    (hearning : s'.accounts.earning = s.accounts.earning.putAll earnings)
    (hliability : s'.accounts.liability = s.accounts.liability.putAll liabilities)
    (hmoved : ∀ entry ∈ earnings, ∃ before move,
      s.earningRecord entry.1.1 entry.1.2 = .ok before ∧ before.MovedBy entry.2 move)
    (howed : ∀ entry ∈ liabilities, ∃ creditedAu paidAu, entry.2.earned.Valid ∧
      entry.2.earned.totalAu = (s.liabilityEarned entry.1).totalAu + creditedAu ∧
      entry.2.earned.paidCumAu = (s.liabilityEarned entry.1).paidCumAu + paidAu) : EarningsStep s s' where
  payments_eq := hpayments
  aggregate provider rail := by
    rcases s.accounts.earning.get_putAll_cases earnings (provider, rail) with heq | ⟨after, hmem, heq⟩
    . exact ⟨_, .kept (by rw [hearning, heq])⟩
    . obtain ⟨before, move, hread, hby⟩ := hmoved _ hmem
      exact ⟨move, .moved before after hread (by rw [hearning, heq]) hby⟩
  liability key := by
    rcases s.accounts.liability.get_putAll_cases liabilities key with heq | ⟨after, hmem, heq⟩
    . exact ⟨_, _, .kept (by rw [hliability, heq])⟩
    . obtain ⟨creditedAu, paidAu, hvalid, htotal, hpaid⟩ := howed _ hmem
      exact ⟨creditedAu, paidAu, .moved after (by rw [hliability, heq]) hvalid htotal hpaid⟩

structure PaidLiability (s : Ledger) (rail : Rail) (output : SettlementOutput)
    (entry : (PublicKey × Rail × Digest) × PayoutLiability) : Prop where
  key_eq : entry.1 = (output.party.provider, rail, output.party.payoutRevision)
  valid : entry.2.earned.Valid
  total_eq : entry.2.earned.totalAu = (s.liabilityEarned entry.1).totalAu
  paid_eq : entry.2.earned.paidCumAu = (s.liabilityEarned entry.1).paidCumAu + output.settledAu

theorem settleLiability_eq_ok {epoch : Nat} {param : ParamKey → Nat} {output : SettlementOutput}
    {entry : (PublicKey × Rail × Digest) × PayoutLiability}
    (h : s.settleLiability rail epoch param output = .ok entry) : PaidLiability s rail output entry := by
  simp only [settleLiability, checks_iff, not_not, ne_eq] at h
  obtain ⟨_, -, _, -, _, hstored, -, -, _, hrefreshed, _, -, -, -, hvalid, rfl⟩ := h
  have htotal := refreshForPayout_totalAu hrefreshed
  have hpaid := refreshForPayout_paidCumAu hrefreshed
  have hearned := liabilityEarned_of_stored hstored
  refine ⟨rfl, earned_valid_of_liability hvalid, ?_, ?_⟩
  . rw [hearned]
    exact htotal
  . rw [hearned, ← hpaid]
    rfl

structure PaidEarning (s : Ledger) (rail : Rail) (paid : ProviderPaid)
    (entry : (PublicKey × Rail) × EarningRecord) : Prop where
  key_eq : entry.1 = (paid.provider, rail)
  moved : ∃ before, s.earningRecord paid.provider rail = .ok before ∧
    before.MovedBy entry.2 ⟨0, paid.paidAu, 0, 0⟩

theorem settleEarning_eq_ok {epoch : Nat} {param : ParamKey → Nat} {paid : ProviderPaid}
    {entry : (PublicKey × Rail) × EarningRecord} (h : s.settleEarning rail epoch param paid = .ok entry) :
    PaidEarning s rail paid entry := by
  simp only [settleEarning, checks_iff] at h
  obtain ⟨_, -, earning, hread, -, _, hrefreshed, _, -, -, -, hvalid, rfl⟩ := h
  have htotal := refreshForPayout_totalAu hrefreshed
  have hpaid := refreshForPayout_paidCumAu hrefreshed
  refine ⟨rfl, earning, hread, rfl, (guardianValidateEarningRecord_accepts_iff.mp hvalid).2.1, ?_, ?_, rfl, rfl⟩
  . exact htotal
  . rw [← hpaid]
    rfl

variable {rail : Rail} {epoch : Nat} {param : ParamKey → Nat} {outputs : List SettlementOutput}

theorem settleOutputs_eq_ok
    {progress next : List ((PublicKey × Rail × Digest) × PayoutLiability) × List ProviderPaid}
    (h : outputs.foldlM (s.settleOutput rail epoch param) progress = .ok next) :
    ∃ liabilities, next.1 = progress.1 ++ liabilities ∧
      List.Forall₂ (PaidLiability s rail) outputs liabilities := by
  induction outputs generalizing progress with
  | nil =>
    rw [List.foldlM_nil, Except.pure_accepts_iff] at h
    subst h
    exact ⟨[], (List.append_nil _).symm, .nil⟩
  | cons _ outputs ih =>
    simp only [List.foldlM_cons, settleOutput, checks_iff] at h
    obtain ⟨_, ⟨liability, hliability, _, -, rfl⟩, h⟩ := h
    obtain ⟨liabilities, heq, hall⟩ := ih h
    refine ⟨liability :: liabilities, ?_, .cons (settleLiability_eq_ok hliability) hall⟩
    rw [heq, List.append_assoc, List.singleton_append]

structure PaidUpdates (s : Ledger) (rail : Rail) (outputs : List SettlementOutput)
    (updates : SettlementUpdates) (paid : List ProviderPaid) : Prop where
  liabilities : List.Forall₂ (PaidLiability s rail) outputs updates.liabilities
  earnings : List.Forall₂ (PaidEarning s rail) paid updates.earnings

theorem settlementUpdates_eq_ok {time : Nat} {updates : SettlementUpdates}
    (h : s.targetedPayoutSettlementUpdates outputs rail epoch time = .ok updates) :
    ∃ paid, PaidUpdates s rail outputs updates paid := by
  simp only [targetedPayoutSettlementUpdates, checks_iff, Prod.exists] at h
  obtain ⟨_, paid, hfold, _, hearnings, rfl⟩ := h
  obtain ⟨_, heq, hall⟩ := settleOutputs_eq_ok hfold
  rw [List.nil_append] at heq
  obtain rfl := heq
  refine ⟨paid, hall, ?_⟩
  exact ((Except.mapM_accepts_iff _ _ _).mp hearnings).imp fun _ _ => settleEarning_eq_ok

theorem PaidUpdates.earningsStep {updates : SettlementUpdates} {paid : List ProviderPaid}
    (h : PaidUpdates s rail outputs updates paid) (hpayments : s'.registry.payments = s.registry.payments)
    (hearning : s'.accounts.earning = s.accounts.earning.putAll updates.earnings)
    (hliability : s'.accounts.liability = s.accounts.liability.putAll updates.liabilities) :
    EarningsStep s s' := by
  apply EarningsStep.of_putAll hpayments hearning hliability
  . intro entry hentry
    obtain ⟨_, -, hkey, before, hread, hby⟩ := List.Forall₂.exists_of_mem_right h.earnings hentry
    rw [hkey]
    exact ⟨before, _, hread, hby⟩
  . intro entry hentry
    obtain ⟨output, -, howed⟩ := List.Forall₂.exists_of_mem_right h.liabilities hentry
    exact ⟨0, output.settledAu, howed.valid, howed.total_eq, howed.paid_eq⟩

theorem creditEarned_paidCumAu {provider : PublicKey} {record : ProviderRecord}
    {aggregate earned next : Earned} {au : Nat}
    (h : s.creditEarned epoch param provider record aggregate earned au = .ok next) :
    next.paidCumAu = earned.paidCumAu := by
  simp only [creditEarned, refreshEarningHoldback, checks_iff] at h
  obtain ⟨_, -, _, -, _, -, _, ⟨-, -, _, -, rfl⟩, _, -, rfl⟩ := h
  rfl

namespace AppliedPage

variable {crypto : Crypto} {sender : PublicKey} {key : Digest} {value : TargetedEpochValue}
  {transition : Option CommitTransition} {feature : FeaturePlan} {plan : ApplyPlan}

theorem earning_movedBy (h : AppliedPage crypto s sender key value transition feature plan)
    {entry : (PublicKey × Rail) × EarningRecord} (hentry : entry ∈ plan.earnings) :
    ∃ before au, s.earningRecord entry.1.1 entry.1.2 = .ok before ∧ before.MovedBy entry.2 ⟨au, 0, 0, 0⟩ := by
  rw [h.page.earnings_eq] at hentry
  obtain ⟨_, -, hok⟩ := Except.exists_of_mem_mapM_result h.money.earnings_ok hentry
  have hguard := h.page.guardian_ok
  simp only [guardianCheckEpochApply, checks_iff, Except.forM_accepts_iff] at hguard
  have hvalid := guardianValidateEarningRecord_accepts_iff.mp (hguard.2.2.2.2.2.1 entry hentry)
  simp only [creditEarning, checks_iff] at hok
  obtain ⟨current, hcurrent, -, _, hearned, rfl⟩ := hok
  exact ⟨current, _, hcurrent, rfl, hvalid.2.1, creditEarned_totalAu hearned,
    creditEarned_paidCumAu hearned, rfl, rfl⟩

theorem liability_owed (h : AppliedPage crypto s sender key value transition feature plan)
    {update : LiabilityUpdate} (hupdate : update ∈ feature.liabilities) :
    update.liability.earned.Valid ∧
      update.liability.earned.totalAu = (s.liabilityEarned update.key).totalAu + update.delta.providerAu ∧
      update.liability.earned.paidCumAu = (s.liabilityEarned update.key).paidCumAu := by
  obtain ⟨earning, -, hok⟩ := Except.exists_of_mem_mapM_result h.prepared.liabilities_ok hupdate
  simp only [liabilityUpdate, checks_iff] at hok
  obtain ⟨binding, -, _, -, -, _, -, delta, -, -, -, _, -, earned, hearned, hvalid, rfl⟩ := hok
  have hexisting : ((s.accounts.liability.get (earning.provider, earning.rail, earning.payoutRevision)).getD
      binding.emptyLiability).earned.totalAu =
        (s.liabilityEarned (earning.provider, earning.rail, earning.payoutRevision)).totalAu ∧
      ((s.accounts.liability.get (earning.provider, earning.rail, earning.payoutRevision)).getD
        binding.emptyLiability).earned.paidCumAu =
          (s.liabilityEarned (earning.provider, earning.rail, earning.payoutRevision)).paidCumAu := by
    unfold liabilityEarned
    cases s.accounts.liability.get (earning.provider, earning.rail, earning.payoutRevision) with
    | none | some => exact ⟨rfl, rfl⟩
  refine ⟨earned_valid_of_liability hvalid, ?_, ?_⟩
  . exact (creditEarned_totalAu hearned).trans (congrArg (· + delta.providerAu) hexisting.1)
  . exact (creditEarned_paidCumAu hearned).trans hexisting.2

theorem earningsStep (h : AppliedPage crypto s sender key value transition feature plan)
    (hpayments : s'.registry.payments = s.registry.payments)
    (hearning : s'.accounts.earning = s.accounts.earning.putAll plan.earnings)
    {written : List LiabilityUpdate} (hwritten : written ⊆ feature.liabilities)
    (hliability : s'.accounts.liability =
      s.accounts.liability.putAll (written.map fun update => (update.key, update.liability))) :
    EarningsStep s s' := by
  apply EarningsStep.of_putAll hpayments hearning hliability
  . intro entry hentry
    obtain ⟨before, _, hread, hby⟩ := h.earning_movedBy hentry
    exact ⟨before, _, hread, hby⟩
  . intro entry hentry
    obtain ⟨update, hupdate, rfl⟩ := List.mem_map.mp hentry
    obtain ⟨hvalid, htotal, hpaid⟩ := h.liability_owed (hwritten hupdate)
    exact ⟨update.delta.providerAu, 0, hvalid, htotal, hpaid⟩

end AppliedPage

theorem PageOutcome.earningsStep {crypto : Crypto} {sender : PublicKey} {key : Digest}
    {value : TargetedEpochValue} {transition : Option CommitTransition} {outcome : Outcome ApplyResult}
    (h : PageOutcome crypto s sender key value transition outcome) : EarningsStep s outcome.1 := by
  cases h with
  | rejected | replayed => exact .refl s
  | stopped feature plan _ hfeature hplan hmarket =>
    obtain ⟨page⟩ := appliedPage_of_settled hfeature hplan
    exact page.earningsStep rfl rfl (List.nil_subset _) rfl
  | settled feature plan market hfeature hplan hmarket =>
    obtain ⟨page⟩ := appliedPage_of_settled hfeature hplan
    obtain ⟨_, hregistry⟩ := settled_registry (s := s) plan feature market
    exact page.earningsStep (by rw [hregistry]) rfl (List.Subset.refl _) rfl

theorem slashedEarning_forfeited_le {earning : EarningRecord} {forfeitedAu : Nat}
    {updated : Option EarningRecord} (h : slashedEarning earning rail forfeitedAu = .ok updated) :
    forfeitedAu ≤ earning.earned.totalAu := by
  simp only [slashedEarning, checks_iff, safeSubAu_eq_ok] at h
  obtain ⟨_, -, _, -, _, -, _, ⟨htotal, -⟩, -⟩ := h
  exact htotal

theorem Slashed.earningsStep {request : SlashRequest} (h : Slashed s request s') : EarningsStep s s' where
  payments_eq := h.payments_eq
  aggregate provider rail := by
    obtain ⟨entry, hentry, hagree⟩ := h.rails rail
    have hstored := hagree.1 provider
    obtain ⟨earning, hread, -, hslashed⟩ := hentry.earning
    obtain ⟨hnone, -⟩ | ⟨_, hsome, hvalid⟩ := slashedEarning_eq_ok hslashed
    . rw [Accounts.writeRailSlash, hnone] at hstored
      exact ⟨_, .kept hstored⟩
    . simp only [Accounts.writeRailSlash, hsome, hentry.rail_eq] at hstored
      by_cases hprovider : provider = request.provider
      . subst hprovider
        rw [Table.get_put_self] at hstored
        have hnext := guardianValidateEarningRecord_accepts_iff.mp (hvalid _ hsome)
        have hcovered := hnext.2.1.covered
        refine ⟨⟨0, 0, entry.forfeitedAu, 0⟩, .moved earning _ hread hstored ⟨rfl, hnext.2.1, ?_, rfl, rfl, rfl⟩⟩
        have hslash := slashedEarning_forfeited_le hslashed
        dsimp only
        omega
      . rw [Table.get_put_of_ne _ _ (fun heq => hprovider (Prod.mk.inj heq).1)] at hstored
        exact ⟨_, .kept hstored⟩
  liability key := ⟨_, _, .kept (by rw [h.liability_eq])⟩

structure SweptDust (s : Ledger) (value : DustSweepValue) (plan : DustSweepPlan) : Prop where
  earning : ∃ before, s.earningRecord value.provider .fiat = .ok before ∧
    before.MovedBy plan.earning ⟨0, 0, 0, plan.dustAu⟩
  fee : ∃ fee, s.feeCumRecord .fiat = .ok fee ∧ plan.fee.scope = fee.scope ∧
    plan.fee.cumAu = fee.cumAu + plan.dustAu

theorem planDustSweep_eq_ok {value : DustSweepValue} {plan : DustSweepPlan}
    (h : s.planDustSweep value = .ok plan) : SweptDust s value plan := by
  simp only [planDustSweep, sweepableEarning, checks_iff, safeSubAu_eq_ok] at h
  obtain ⟨_, ⟨-, _, -, -, earning, hread, -, _, hrefreshed, -, rfl⟩, _, ⟨-, rfl⟩, -, _,
    ⟨htotalLe, rfl⟩, hvalid, fee, hfee, -, -, rfl⟩ := h
  have htotal := refreshForPayout_totalAu hrefreshed
  have hpaid := refreshForPayout_paidCumAu hrefreshed
  dsimp only at htotalLe
  refine ⟨⟨earning, hread, rfl, (guardianValidateEarningRecord_accepts_iff.mp hvalid).2.1, ?_, ?_, rfl, rfl⟩,
    ⟨fee, hfee, rfl, rfl⟩⟩
  . dsimp only
    omega
  . exact hpaid

theorem fiatDustSweep_cases (s : Ledger) (sender : PublicKey) (value : DustSweepValue) :
    (s.fiatDustSweep sender value).1 = s ∨ ∃ plan, SweptDust s value plan ∧
      s.fiatDustSweep sender value = (s.writeDustSweep value plan, .ok plan.dustAu) := by
  unfold fiatDustSweep
  split
  . exact .inl rfl
  . split
    . exact .inl rfl
    . split
      . exact .inl rfl
      . next plan hplan => exact .inr ⟨plan, planDustSweep_eq_ok hplan, rfl⟩

end Ledger

end Mayhem
