import Mayhem.Earnings
import Mayhem.Probe
import Mayhem.Dispute.PaidOnce
import Mayhem.Payout.Accepted

namespace Mayhem

namespace Ledger

variable {s s' : Ledger}

structure SettledOutput (s : Ledger) (rail : Rail) (plan : OutputPlan) : Prop where
  updates : ∃ outputs paid, PaidUpdates s rail outputs plan.updates paid
  fee : ∀ next ∈ plan.fee, ∃ fee, s.feeCumRecord rail = .ok fee ∧ next.scope = fee.scope ∧ next.cumAu = fee.cumAu

theorem planOutput_eq_ok {rail : Rail} {epoch time : Nat} {output : PlanOutput} {preparation : Preparation}
    {mismatch : String} {plan : OutputPlan}
    (h : s.planOutput rail epoch time output preparation mismatch = .ok plan) : SettledOutput s rail plan := by
  unfold planOutput at h
  rw [Except.bind_accepts_iff] at h
  obtain ⟨_, -, h⟩ := h
  cases hsettlement : output.settlement with
  | some settlement =>
    rw [hsettlement] at h
    simp only [checks_iff] at h
    obtain ⟨_, hupdates, rfl⟩ := h
    obtain ⟨paid, hpaid⟩ := settlementUpdates_eq_ok hupdates
    exact ⟨⟨[settlement], paid, hpaid⟩, by simp⟩
  | none =>
    rw [hsettlement] at h
    simp only [checks_iff, sweepFee] at h
    obtain ⟨next, ⟨fee, hfee, _, -, -, -, rfl⟩, rfl⟩ := h
    refine ⟨⟨[], [], .nil, .nil⟩, ?_⟩
    intro next hnext
    cases hnext
    exact ⟨fee, hfee, rfl, rfl⟩

theorem planTapSettlement_paid {crypto : Crypto} {host : PayoutCrypto} {value : TapSettlementValue}
    {split : TapSplit} {plan : TapPlan} (h : s.planTapSettlement crypto host value split = .ok plan) :
    ∃ paid, PaidUpdates s .tap (value.outputs.map TapOutput.settlement) plan.updates paid := by
  simp only [planTapSettlement, checks_iff] at h
  obtain ⟨-, _, -, _, -, _, -, -, -, _, -, updates, hupdates, rfl⟩ := h
  exact settlementUpdates_eq_ok hupdates

inductive SlashStep (s : Ledger) : Ledger → Prop
  | quiet {s' : Ledger} (haccounts : s'.accounts = s.accounts)
      (hpayments : s'.registry.payments = s.registry.payments) (hdisputes : s'.disputes = s.disputes) :
      SlashStep s s'
  | slashed {s' : Ledger} (request : SlashRequest) (h : Slashed s request s') : SlashStep s s'

abbrev SlashPath : Ledger → Ledger → Prop := Relation.ReflTransGen SlashStep

theorem SlashPath.earningsStep (h : SlashPath s s') : EarningsStep s s' := by
  refine Run.invariant (EarningsStep s) (.refl s) ?_ h
  intro _ _ ht hstep
  cases hstep with
  | quiet haccounts hpayments =>
    exact ht.trans (.of_eq hpayments (by rw [haccounts]) (by rw [haccounts]))
  | slashed _ hslashed => exact ht.trans hslashed.earningsStep

inductive MoneyEffect (s : Ledger) : Ledger → Prop
  | planned (payouts : Payouts) : MoneyEffect s { s with payouts := payouts }
  | output {rail : Rail} {plan : OutputPlan} (payouts : Payouts) (hplan : SettledOutput s rail plan) :
      MoneyEffect s { s with
        accounts := { s.accounts.writeSettlement plan.updates with
          fee := s.accounts.fee.putAll (plan.fee.toList.map fun fee => (rail, fee)) }
        payouts := payouts }
  | tap {outputs : List SettlementOutput} {updates : SettlementUpdates} {paid : List ProviderPaid}
      (payouts : Payouts) (hpaid : PaidUpdates s .tap outputs updates paid) :
      MoneyEffect s { s with accounts := s.accounts.writeSettlement updates, payouts := payouts }
  | swept {value : DustSweepValue} {plan : DustSweepPlan} (hplan : SweptDust s value plan) :
      MoneyEffect s (s.writeDustSweep value plan)
  | slashed {s' : Ledger} (hpath : SlashPath s s') : MoneyEffect s s'

theorem MoneyEffect.earningsStep (h : MoneyEffect s s') : EarningsStep s s' := by
  cases h with
  | planned payouts => exact .of_eq rfl rfl rfl
  | output payouts hplan =>
    obtain ⟨_, _, hpaid⟩ := hplan.updates
    exact hpaid.earningsStep rfl rfl rfl
  | tap payouts hpaid => exact hpaid.earningsStep rfl rfl rfl
  | @swept value plan hplan =>
    refine ⟨rfl, fun provider rail => ?_, fun key => ⟨_, _, .kept rfl⟩⟩
    by_cases hkey : (provider, rail) = (value.provider, .fiat)
    . obtain ⟨rfl, rfl⟩ := Prod.mk.inj hkey
      obtain ⟨before, hread, hby⟩ := hplan.earning
      exact ⟨_, .moved before plan.earning hread (Table.get_put_self _ _ _) hby⟩
    . exact ⟨_, .kept (Table.get_put_of_ne _ _ hkey)⟩
  | slashed hpath => exact hpath.earningsStep

theorem applyTargetedTnkOutputFeature_effect (host : PayoutCrypto) (s : Ledger) (sender : PublicKey)
    (key : Digest) (value : TnkOutputValue) :
    MoneyEffect s (s.applyTargetedTnkOutputFeature host sender key value).1 := by
  unfold applyTargetedTnkOutputFeature
  cases hprepare : s.prepareTnkOutput host sender key value with
  | error => exact .planned _
  | ok found =>
    cases found with
    | none => exact .planned _
    | some =>
      simp only [prepareTnkOutput, checks_iff] at hprepare
      obtain ⟨-, -, -, hprepare⟩ := hprepare
      split at hprepare
      . simp only [checks_iff, reduceCtorEq, and_false, exists_false] at hprepare
      . simp only [checks_iff, Option.some.injEq] at hprepare
        obtain ⟨_, -, _, -, -, _, hplan, rfl⟩ := hprepare
        exact .output _ (planOutput_eq_ok hplan)

theorem applyTargetedFiatOutputFeature_effect (host : PayoutCrypto) (s : Ledger) (sender : PublicKey)
    (key : Digest) (value : FiatOutputValue) :
    MoneyEffect s (s.applyTargetedFiatOutputFeature host sender key value).1 := by
  unfold applyTargetedFiatOutputFeature
  cases hprepare : s.prepareFiatOutput host sender key value with
  | error => exact .planned _
  | ok found =>
    cases found with
    | none => exact .planned _
    | some found =>
      simp only [prepareFiatOutput, checks_iff] at hprepare
      obtain ⟨-, -, -, hprepare⟩ := hprepare
      split at hprepare
      . simp only [checks_iff, reduceCtorEq, and_false, exists_false] at hprepare
      . simp only [checks_iff, Option.some.injEq, Prod.exists] at hprepare
        obtain ⟨_, -, _, -, _, _, -, _, hplan, rfl⟩ := hprepare
        exact .output _ (planOutput_eq_ok hplan)

theorem applyTargetedTapSettlementFeature_effect (crypto : Crypto) (host : PayoutCrypto) (s : Ledger)
    (sender : PublicKey) (key : Digest) (value : TapSettlementValue) :
    MoneyEffect s (s.applyTargetedTapSettlementFeature crypto host sender key value).1 := by
  unfold applyTargetedTapSettlementFeature
  cases hprepare : s.prepareTapSettlement crypto host sender key value with
  | error => exact .planned _
  | ok found =>
    cases found with
    | none => exact .planned _
    | some =>
      simp only [prepareTapSettlement, checks_iff] at hprepare
      obtain ⟨-, -, -, split, -, hprepare⟩ := hprepare
      split at hprepare
      . simp only [checks_iff, reduceCtorEq, and_false, exists_false] at hprepare
      . simp only [checks_iff, Option.some.injEq] at hprepare
        obtain ⟨found, hplan, heq⟩ := hprepare
        subst heq
        obtain ⟨_, hpaid⟩ := planTapSettlement_paid hplan
        dsimp only [targetedTapSettlement]
        split
        . exact .tap _ hpaid
        . exact .tap _ hpaid

theorem applyProviderSlash_slashPath {tx : Digest} {request : SlashRequest} {slash : SlashRecord}
    (h : s.applyProviderSlash tx request = .ok (s', slash)) : SlashPath s s' :=
  .single (.slashed request (applyProviderSlash_eq_ok h))

theorem fraudProof_slashPath (crypto : Crypto) (s : Ledger) (sender : PublicKey) (tx : Digest)
    (value : FraudProofValue) : SlashPath s (s.fraudProof crypto sender tx value).1 := by
  unfold fraudProof
  split
  . exact .refl
  . exact .refl
  . next commit _ finding _ =>
    split
    . exact .refl
    . next next slash hslash =>
      -- what is written after the slash is no money
      have hwrite : SlashStep next (next.writeFraud value commit finding slash) := .quiet rfl rfl rfl
      refine Relation.ReflTransGen.tail ?_ hwrite
      unfold fraudSlash at hslash
      split at hslash
      . rw [Except.pure_accepts_iff] at hslash
        obtain ⟨rfl, -⟩ := Prod.mk.inj hslash
        exact .refl
      . simp only [checks_iff, Prod.exists, Prod.mk.injEq] at hslash
        obtain ⟨_, _, happly, rfl, -⟩ := hslash
        exact applyProviderSlash_slashPath happly

theorem recordReputationEvent_slashPath (host : ReputationHost) (s : Ledger) (sender : PublicKey)
    (tx : Digest) (value : ReputationEventValue) :
    SlashPath s (s.recordReputationEvent host sender tx value).1 := by
  unfold recordReputationEvent
  split
  . exact .refl
  . next reputation _ =>
    have hnoted : SlashPath s { s with reputation := reputation } := .single (.quiet rfl rfl rfl)
    dsimp only
    split
    . split
      . exact hnoted
      . next _ _ happly => exact hnoted.trans (applyProviderSlash_slashPath happly)
    . exact hnoted

theorem probeResult_slashPath (host : ReputationHost) (canary : CanaryHost) (s : Ledger)
    (sender : PublicKey) (tx : Digest) (value : ProbeValue) :
    SlashPath s (s.probeResult host canary sender tx value).1 := by
  unfold probeResult
  split
  . exact .refl
  . next _ _ =>
    split
    . exact .refl
    . next reputation _ =>
      have hnoted : SlashPath s { s with reputation := reputation } := .single (.quiet rfl rfl rfl)
      dsimp only
      split
      . split
        . exact hnoted
        . next violated _ =>
          have hviolated : SlashPath s { s with reputation := violated } := .single (.quiet rfl rfl rfl)
          split
          . exact hviolated
          . next _ _ happly =>
            exact (hviolated.trans (applyProviderSlash_slashPath happly)).tail (.quiet rfl rfl rfl)
      . exact hnoted.tail (.quiet rfl rfl rfl)

theorem payDeposit_earningsStep (s : Ledger) (dispute : DisputeRecord) (split : BondSplit) :
    EarningsStep s (s.payDeposit dispute split).1 := by
  unfold payDeposit
  split
  . exact .refl s
  . next refunded hrefund =>
    have hrefunded : EarningsStep s refunded := by
      rcases refundDeposit_eq_ok hrefund with ⟨-, rfl⟩ | ⟨_, _, -, -, -, rfl⟩
      . exact .refl _
      . exact .of_eq rfl rfl rfl
    split
    . exact hrefunded
    . next _ hforfeit =>
      refine hrefunded.trans ?_
      rcases forfeitDeposit_eq_ok hforfeit with ⟨-, rfl⟩ | ⟨_, _, -, -, -, rfl⟩
      . exact .refl _
      . exact .of_eq rfl rfl rfl

theorem faultProvider_slashPath (host : ReputationHost) (s : Ledger) (sender : PublicKey) (tx : Digest)
    (value : DisputeResolveValue) (verdict : DisputeVerdict) :
    SlashPath s (s.faultProvider host sender tx value verdict).1 := by
  unfold faultProvider
  split
  . exact .refl
  . split
    . exact .refl
    . next reputation _ =>
      have hjudged : SlashPath s { s with reputation := reputation } := .single (.quiet rfl rfl rfl)
      dsimp only
      split
      . split
        . exact hjudged
        . next _ _ happly => exact hjudged.trans (applyProviderSlash_slashPath happly)
      . exact hjudged

theorem disputeResolve_earningsStep (host : ReputationHost) (s : Ledger) (sender : PublicKey) (tx : Digest)
    (value : DisputeResolveValue) : EarningsStep s (s.disputeResolve host sender tx value).1 := by
  unfold disputeResolve
  split
  . exact .refl s
  . next verdict _ =>
    have hpaid := s.payDeposit_earningsStep verdict.dispute verdict.split
    split
    . next paid message hpay =>
      rw [hpay] at hpaid
      exact hpaid
    . next paid hpay =>
      rw [hpay] at hpaid
      have hfault := (paid.faultProvider_slashPath host sender tx value verdict).earningsStep
      split
      . next judged message hjudge =>
        rw [hjudge] at hfault
        exact hpaid.trans hfault
      . next judged _ hjudge =>
        rw [hjudge] at hfault
        split
        . exact hpaid.trans hfault
        . next _ hcounted =>
          obtain ⟨_, _, rfl, -⟩ := closeDisputeCounts_eq_ok hcounted
          exact (hpaid.trans hfault).trans (.of_eq rfl rfl rfl)

theorem disputeExpire_earningsStep (s : Ledger) (value : DisputeExpireValue) :
    EarningsStep s (s.disputeExpire value).1 := by
  unfold disputeExpire
  split
  . exact .refl s
  . next _ _ _ hprepare =>
    simp only [prepareDisputeExpire, checks_iff] at hprepare
    obtain ⟨_, -, -, -, _, -, -, -, _, hcounted, hplan⟩ := hprepare
    cases hplan
    obtain ⟨_, _, rfl, -⟩ := closeDisputeCounts_eq_ok hcounted
    exact .of_eq rfl rfl rfl

theorem dispute_earningsStep (s : Ledger) (sender : PublicKey) (value : DisputeValue) :
    EarningsStep s (s.dispute sender value).1 := by
  unfold dispute
  split
  . exact .refl s
  . exact .of_eq rfl rfl rfl

end Ledger

structure MoneyHost where
  crypto : Crypto
  payout : PayoutCrypto
  reputation : ReputationHost
  canary : CanaryHost

inductive EarningOp where
  | page (sender : PublicKey) (key : Digest) (value : TargetedEpochValue)
  | pageZero (sender : PublicKey) (key : Digest) (value : CommitPageZeroValue)
  | plan (sender : PublicKey) (key : Digest) (value : PlanValue)
  | prepare (sender : PublicKey) (tx key : Digest) (value : PreparationValue)
  | fiatAttempt (sender : PublicKey) (key : Digest) (value : FiatAttemptValue)
  | fiatResult (sender : PublicKey) (key : Digest) (value : AttemptResultValue)
  | tnkOutput (sender : PublicKey) (key : Digest) (value : TnkOutputValue)
  | fiatOutput (sender : PublicKey) (key : Digest) (value : FiatOutputValue)
  | closeEpoch (sender : PublicKey) (key : Digest) (value : CloseEpochValue)
  | tapSettlement (sender : PublicKey) (key : Digest) (value : TapSettlementValue)
  | sweep (sender : PublicKey) (value : DustSweepValue)
  | fraudProof (sender : PublicKey) (tx : Digest) (value : FraudProofValue)
  | reputation (sender : PublicKey) (tx : Digest) (value : ReputationEventValue)
  | probe (sender : PublicKey) (tx : Digest) (value : ProbeValue)
  | dispute (op : DisputeOp)

def Outcome.report {α : Type} (outcome : Outcome α) : Ledger × Option String := (outcome.1, outcome.2.message)

namespace EarningOp

def answer (host : MoneyHost) (s : Ledger) : EarningOp → Ledger × Option String
  | page sender key value => (s.applyTargetedEpochFeature host.crypto sender key value).report
  | pageZero sender key value => (s.applyCommitTargetedEpochPageZeroFeature host.crypto sender key value).report
  | plan sender key value => (s.applyTargetedPayoutEpochFeature host.crypto host.payout sender key value).report
  | prepare sender tx key value =>
    (s.applyTargetedPayoutPreparationFeature host.crypto host.payout sender tx key value).report
  | fiatAttempt sender key value => (s.applyTargetedFiatAttemptFeature host.payout sender key value).report
  | fiatResult sender key value => (s.applyFinalizeTargetedFiatAttemptFeature host.payout sender key value).report
  | tnkOutput sender key value => (s.applyTargetedTnkOutputFeature host.payout sender key value).report
  | fiatOutput sender key value => (s.applyTargetedFiatOutputFeature host.payout sender key value).report
  | closeEpoch sender key value => (s.applyCloseTargetedPayoutEpochFeature host.payout sender key value).report
  | tapSettlement sender key value =>
    (s.applyTargetedTapSettlementFeature host.crypto host.payout sender key value).report
  | sweep sender value => (s.fiatDustSweep sender value).report
  | fraudProof sender tx value => (s.fraudProof host.crypto sender tx value).report
  | reputation sender tx value => (s.recordReputationEvent host.reputation sender tx value).report
  | probe sender tx value => (s.probeResult host.reputation host.canary sender tx value).report
  | dispute op => (op.apply host.reputation s, op.message host.reputation s)

def apply (host : MoneyHost) (s : Ledger) (op : EarningOp) : Ledger := (op.answer host s).1

def message (host : MoneyHost) (s : Ledger) (op : EarningOp) : Option String := (op.answer host s).2

theorem effect (host : MoneyHost) (s : Ledger) (op : EarningOp) : s.MoneyEffect (op.apply host s) ∨
    (∃ sender key value transition outcome, Ledger.PageOutcome host.crypto s sender key value transition outcome ∧
      op.apply host s = outcome.1 ∧ op.message host s = outcome.2.message) ∨
    ∃ dispute, op = .dispute dispute := by
  cases op with
  | page sender key value =>
    obtain ⟨_, houtcome⟩ := Ledger.page_outcome host.crypto s sender key value
    exact .inr (.inl ⟨_, _, _, _, _, houtcome, rfl, rfl⟩)
  | pageZero sender key value =>
    obtain ⟨_, _, houtcome⟩ := Ledger.pageZero_outcome host.crypto s sender key value
    exact .inr (.inl ⟨_, _, _, _, _, houtcome, rfl, rfl⟩)
  | plan sender key value =>
    left
    dsimp only [apply, answer, Outcome.report, Ledger.applyTargetedPayoutEpochFeature]
    split <;> exact .planned _
  | prepare sender tx key value =>
    left
    dsimp only [apply, answer, Outcome.report, Ledger.applyTargetedPayoutPreparationFeature]
    split <;> exact .planned _
  | fiatAttempt sender key value =>
    left
    dsimp only [apply, answer, Outcome.report, Ledger.applyTargetedFiatAttemptFeature]
    split <;> exact .planned _
  | fiatResult sender key value =>
    left
    dsimp only [apply, answer, Outcome.report, Ledger.applyFinalizeTargetedFiatAttemptFeature]
    split <;> exact .planned _
  | tnkOutput sender key value =>
    exact .inl (s.applyTargetedTnkOutputFeature_effect host.payout sender key value)
  | fiatOutput sender key value =>
    exact .inl (s.applyTargetedFiatOutputFeature_effect host.payout sender key value)
  | closeEpoch sender key value =>
    left
    dsimp only [apply, answer, Outcome.report, Ledger.applyCloseTargetedPayoutEpochFeature]
    split <;> exact .planned _
  | tapSettlement sender key value =>
    exact .inl (s.applyTargetedTapSettlementFeature_effect host.crypto host.payout sender key value)
  | sweep sender value =>
    left
    dsimp only [apply, answer, Outcome.report]
    rcases s.fiatDustSweep_cases sender value with heq | ⟨plan, hplan, heq⟩
    . rw [heq]
      exact .planned _
    . rw [heq]
      exact .swept hplan
  | fraudProof sender tx value => exact .inl (.slashed (s.fraudProof_slashPath host.crypto sender tx value))
  | reputation sender tx value =>
    exact .inl (.slashed (s.recordReputationEvent_slashPath host.reputation sender tx value))
  | probe sender tx value =>
    exact .inl (.slashed (s.probeResult_slashPath host.reputation host.canary sender tx value))
  | dispute op => exact .inr (.inr ⟨op, rfl⟩)

theorem earningsStep (host : MoneyHost) (s : Ledger) (op : EarningOp) : s.EarningsStep (op.apply host s) := by
  rcases op.effect host s with hmoney | ⟨_, _, _, _, _, houtcome, happly, -⟩ | ⟨dispute, rfl⟩
  . exact hmoney.earningsStep
  . rw [happly]
    exact houtcome.earningsStep
  . cases dispute with
    | file sender value => exact s.dispute_earningsStep sender value
    | resolve sender tx value => exact s.disputeResolve_earningsStep host.reputation sender tx value
    | expire value => exact s.disputeExpire_earningsStep value

end EarningOp

inductive EarningRunStep (host : MoneyHost) : Ledger → Ledger → Prop
  | op (s : Ledger) (op : EarningOp) : EarningRunStep host s (op.apply host s)
  | other (s s' : Ledger) (hpayments : s'.registry.payments = s.registry.payments)
      (hearning : s'.accounts.earning = s.accounts.earning)
      (hliability : s'.accounts.liability = s.accounts.liability) : EarningRunStep host s s'

namespace Ledger

variable {host : MoneyHost} {start s s' : Ledger}

theorem earningsStep_of_run (hrun : Relation.ReflTransGen (EarningRunStep host) s s') : EarningsStep s s' := by
  refine Run.invariant (EarningsStep s) (.refl s) ?_ hrun
  intro t _ ht hstep
  cases hstep with
  | op op => exact ht.trans (op.earningsStep host t)
  | other _ hpayments hearning hliability => exact ht.trans (.of_eq hpayments hearning hliability)

structure EarningsSound (s : Ledger) : Prop where
  read : ∀ provider rail record, s.accounts.earning.get (provider, rail) = some record →
    s.earningRecord provider rail = .ok record
  valid : ∀ provider rail record, s.accounts.earning.get (provider, rail) = some record → record.earned.Valid
  liability : ∀ key liability, s.accounts.liability.get key = some liability → liability.earned.Valid

theorem EarningsSound.step (h : EarningsSound s) (hstep : EarningsStep s s') : EarningsSound s' where
  read provider rail record hstored := by
    obtain ⟨_, hmove⟩ := hstep.aggregate provider rail
    cases hmove with
    | kept hkept =>
      rw [earningRecord_congr hstep.payments_eq hkept]
      exact h.read provider rail record (hkept ▸ hstored)
    | moved before after hread hafter hby =>
      obtain rfl := Option.some.inj (hafter.symm.trans hstored)
      exact earningRecord_of_stored hstep.payments_eq hread hstored hby.scope_eq
  valid provider rail record hstored := by
    obtain ⟨_, hmove⟩ := hstep.aggregate provider rail
    cases hmove with
    | kept hkept => exact h.valid provider rail record (hkept ▸ hstored)
    | moved before after hread hafter hby =>
      obtain rfl := Option.some.inj (hafter.symm.trans hstored)
      exact hby.valid
  liability key liability hstored := by
    obtain ⟨_, _, hmove⟩ := hstep.liability key
    cases hmove with
    | kept hkept => exact h.liability key liability (hkept ▸ hstored)
    | moved after hafter hvalid =>
      obtain rfl := Option.some.inj (hafter.symm.trans hstored)
      exact hvalid

theorem EarningsStep.paid_le (h : EarningsStep s s') (hsound : EarningsSound s) {provider : PublicKey}
    {rail : Rail} {record : EarningRecord} (hstored : s.accounts.earning.get (provider, rail) = some record) :
    ∃ record', s'.accounts.earning.get (provider, rail) = some record' ∧
      record.earned.paidCumAu ≤ record'.earned.paidCumAu := by
  obtain ⟨_, hmove⟩ := h.aggregate provider rail
  cases hmove with
  | kept hkept => exact ⟨record, hkept.trans hstored, Nat.le_refl _⟩
  | moved _ after hread hafter hby =>
    obtain rfl := Except.ok.inj (hread.symm.trans (hsound.read provider rail record hstored))
    exact ⟨after, hafter, hby.paid_eq ▸ Nat.le_add_right _ _⟩

theorem EarningsStep.liability_paid_le (h : EarningsStep s s') {key : PublicKey × Rail × Digest}
    {liability : PayoutLiability} (hstored : s.accounts.liability.get key = some liability) :
    ∃ liability', s'.accounts.liability.get key = some liability' ∧
      liability.earned.paidCumAu ≤ liability'.earned.paidCumAu := by
  obtain ⟨_, _, hmove⟩ := h.liability key
  cases hmove with
  | kept hkept => exact ⟨liability, hkept.trans hstored, Nat.le_refl _⟩
  | moved after hafter _ _ hpaid =>
    rw [liabilityEarned_of_stored hstored] at hpaid
    exact ⟨after, hafter, hpaid ▸ Nat.le_add_right _ _⟩

/--
In every state that is reached, what was paid to a provider and what is held back are covered by its earnings,
as a whole and for each payout revision; and what was paid never becomes less.
-/
theorem paid_within_released (hearning : ∀ key, start.accounts.earning.get key = none)
    (hliability : ∀ key, start.accounts.liability.get key = none)
    (hs : Relation.ReflTransGen (EarningRunStep host) start s)
    (hs' : Relation.ReflTransGen (EarningRunStep host) s s') :
    (∀ provider rail record, s.accounts.earning.get (provider, rail) = some record →
      record.earned.paidCumAu + record.earned.heldAu ≤ record.earned.totalAu ∧
        ∃ record', s'.accounts.earning.get (provider, rail) = some record' ∧
          record.earned.paidCumAu ≤ record'.earned.paidCumAu) ∧
    ∀ key liability, s.accounts.liability.get key = some liability →
      liability.earned.paidCumAu + liability.earned.heldAu ≤ liability.earned.totalAu ∧
        ∃ liability', s'.accounts.liability.get key = some liability' ∧
          liability.earned.paidCumAu ≤ liability'.earned.paidCumAu := by
  have hstart : EarningsSound start := by
    refine ⟨?_, ?_, ?_⟩
    . intro provider rail record hstored
      cases (hearning _).symm.trans hstored
    . intro provider rail record hstored
      cases (hearning _).symm.trans hstored
    . intro key liability hstored
      cases (hliability _).symm.trans hstored
  have hsound := hstart.step (earningsStep_of_run hs)
  have hstep := earningsStep_of_run hs'
  constructor
  . intro provider rail record hstored
    have hcovered := (hsound.valid provider rail record hstored).covered
    exact ⟨by omega, hstep.paid_le hsound hstored⟩
  . intro key liability hstored
    have hcovered := (hsound.liability key liability hstored).covered
    exact ⟨by omega, hstep.liability_paid_le hstored⟩

def plainMoneyHost : MoneyHost := ⟨plainHost, plainPayoutHost, plainReputationHost, ⟨fun _ _ _ => .ok ()⟩⟩

def auditedLedger : Ledger :=
  { talkFrozen with oversight := { talkFrozen.oversight with auditorActive := Table.empty.put 60 true } }

def talkCredited : Ledger := (EarningOp.pageZero 10 1 talkPageZero).apply plainMoneyHost auditedLedger

def failedCanary : EarningOp :=
  .probe 60 8 ⟨1, .canary, 30, some 40, 1, 3600, some 0, some false, some "e"⟩

/--
What the talk has earned is held back, and all of it is lost to the failed canary.
-/
theorem paid_within_released_talk :
    ∃ s s', Relation.ReflTransGen (EarningRunStep plainMoneyHost) auditedLedger s ∧
      Relation.ReflTransGen (EarningRunStep plainMoneyHost) s s' ∧
      (∃ record record', s.accounts.earning.get (30, .tnk) = some record ∧
        s'.accounts.earning.get (30, .tnk) = some record' ∧
        record.earned.totalAu = 4 ∧ record'.slashedCumAu = 4 ∧
        record.earned.paidCumAu + record.earned.heldAu ≤ record.earned.totalAu ∧
        record.earned.paidCumAu ≤ record'.earned.paidCumAu) ∧
      ∃ liability, s.accounts.liability.get (30, .tnk, 4) = some liability ∧
        liability.earned.paidCumAu + liability.earned.heldAu ≤ liability.earned.totalAu := by
  have hcredited : Relation.ReflTransGen (EarningRunStep plainMoneyHost) auditedLedger talkCredited :=
    .single (.op _ _)
  have hslashed : Relation.ReflTransGen (EarningRunStep plainMoneyHost) talkCredited
      (failedCanary.apply plainMoneyHost talkCredited) := .single (.op _ _)
  have hfacts : (talkCredited.accounts.earning.get (30, .tnk)).map (fun r => r.earned.totalAu) = some 4 ∧
      ((failedCanary.apply plainMoneyHost talkCredited).accounts.earning.get (30, .tnk)).map
        EarningRecord.slashedCumAu = some 4 ∧
      (talkCredited.accounts.liability.get (30, .tnk, 4)).isSome := by decide +kernel
  obtain ⟨hearned, hlost, howed⟩ := hfacts
  have hsafe := paid_within_released (fun _ => rfl) (fun _ => rfl) hcredited hslashed
  generalize failedCanary.apply plainMoneyHost talkCredited = s' at *
  generalize talkCredited = s at *
  obtain ⟨record, hrecord, htotal⟩ := Option.map_eq_some_iff.mp hearned
  obtain ⟨liability, hliability⟩ := Option.isSome_iff_exists.mp howed
  obtain ⟨hcovered, record', hrecord', hpaid⟩ := hsafe.1 30 .tnk record hrecord
  rw [hrecord', Option.map_some, Option.some.injEq] at hlost
  exact ⟨s, s', hcredited, hslashed, ⟨record, record', hrecord, hrecord', htotal, hlost, hcovered, hpaid⟩,
    liability, hliability, (hsafe.2 _ liability hliability).1⟩

end Ledger

end Mayhem
