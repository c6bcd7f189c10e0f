import Mayhem.Settlement.Split
import Mayhem.PriceVersions
import Mayhem.Conservation

namespace Mayhem
namespace Ledger

variable {crypto : Crypto} {s s' s'' : Ledger}

abbrev Share : Type := (Rail × PublicKey) × Nat × SettlementDelta

structure AccountTotals where
  grossAu : Nat
  feeAu : Nat
  burnAu : Nat
  netAu : Nat
  deriving DecidableEq

def sumShares (f : SettlementDelta → Nat) (shares : List Share) (account : Rail × PublicKey) : Nat :=
  Tally.amount (shares.map fun share => (share.1, f share.2.2)) account

def accountTotals (shares : List Share) (account : Rail × PublicKey) : AccountTotals where
  grossAu := sumShares SettlementDelta.grossAu shares account
  feeAu := sumShares SettlementDelta.feeAu shares account
  burnAu := sumShares SettlementDelta.burnAu shares account
  netAu := sumShares SettlementDelta.providerAu shares account

theorem sumShares_append (f : SettlementDelta → Nat) (shares more : List Share) (account : Rail × PublicKey) :
    sumShares f (shares ++ more) account = sumShares f shares account + sumShares f more account := by
  rw [sumShares, List.map_append, Tally.amount_append]
  rfl

def namesMarket (receipts : Receipts) (allocations : List Allocation) (market : MarketKey) : Prop :=
  ∃ a ∈ allocations, (receipts.bodyOf a).map ReceiptBody.marketKey = some market

structure Settles (s s' : Ledger) (epoch feeBps : Nat) (allocations : List Allocation)
    (shares : List Share) : Prop where
  head_eq : s'.receipts.head = s.receipts.head
  registry_eq : ∃ pointers, s'.registry = { s.registry with payoutPointers := pointers }
  freeze_eq : s'.epochs.freeze = s.epochs.freeze
  totals_eq : ∀ account, ∃ delta, providerSettlementPageDelta
      (Tally.amount (allocations.map Allocation.credit) account)
      (s.epochs.markerGrossAu (epoch, account)) account.1 feeBps = .ok delta ∧
    accountTotals shares account =
      ⟨Tally.amount (allocations.map Allocation.credit) account, delta.feeAu, delta.burnAu, delta.providerAu⟩
  markerGrossAu_eq : ∀ account, s'.epochs.markerGrossAu (epoch, account) =
    s.epochs.markerGrossAu (epoch, account) + Tally.amount (allocations.map Allocation.credit) account
  markerNetAu_eq : ∀ account, s'.epochs.markerNetAu (epoch, account) =
    s.epochs.markerNetAu (epoch, account) + sumShares SettlementDelta.providerAu shares account
  earnedAu_eq : ∀ provider rail, s'.earnedAu provider rail =
    s.earnedAu provider rail + sumShares SettlementDelta.providerAu shares (rail, provider)
  feeCumAu_eq : ∀ rail (providers : Finset PublicKey),
    (∀ a ∈ allocations, a.rail = rail → a.provider ∈ providers) → s'.feeCumAu rail =
      s.feeCumAu rail + ∑ provider ∈ providers, sumShares SettlementDelta.feeAu shares (rail, provider)
  burnCumAu_eq : ∀ rail (providers : Finset PublicKey),
    (∀ a ∈ allocations, a.rail = rail → a.provider ∈ providers) → s'.burnCumAu rail =
      s.burnCumAu rail + ∑ provider ∈ providers, sumShares SettlementDelta.burnAu shares (rail, provider)
  balanceAu_add : ∀ user rail, s'.balanceAu user rail +
    Tally.amount (allocations.map Allocation.debit) (rail, user) = s.balanceAu user rail
  usage_get : ∀ market unit, (s'.epochs.settledUsage (epoch, market)).get unit =
    (s.epochs.settledUsage (epoch, market)).get unit + (allocations.map (s.receipts.settledUnits market unit)).sum
  usage_canonical : ∀ market, namesMarket s.receipts allocations market →
    (s'.epochs.settledUsage (epoch, market)).Canonical
  usage_frame : ∀ market, ¬ namesMarket s.receipts allocations market →
    s'.epochs.settledUsage (epoch, market) = s.epochs.settledUsage (epoch, market)

namespace Settles

variable {epoch feeBps : Nat} {allocations more : List Allocation} {shares moreShares : List Share}

theorem refl (s : Ledger) (epoch feeBps : Nat) : Settles s s epoch feeBps [] [] where
  head_eq := rfl
  registry_eq := ⟨s.registry.payoutPointers, rfl⟩
  freeze_eq := rfl
  totals_eq account := ⟨_, providerSettlementPageDelta_zero .., rfl⟩
  markerGrossAu_eq _ := rfl
  markerNetAu_eq _ := rfl
  earnedAu_eq _ _ := rfl
  feeCumAu_eq rail providers _ := by simp [sumShares]
  burnCumAu_eq rail providers _ := by simp [sumShares]
  balanceAu_add _ _ := rfl
  usage_get _ _ := rfl
  usage_canonical market hnamed := by
    obtain ⟨_, hmem, -⟩ := hnamed
    cases hmem
  usage_frame _ _ := rfl

variable (h : Settles s s' epoch feeBps allocations shares)
include h

theorem settledUnits_eq : s'.receipts.settledUnits = s.receipts.settledUnits := by
  unfold Receipts.settledUnits Receipts.bodyOf
  rw [h.head_eq]

theorem namesMarket_iff (market : MarketKey) :
    namesMarket s'.receipts more market ↔ namesMarket s.receipts more market := by
  unfold namesMarket Receipts.bodyOf
  rw [h.head_eq]

theorem totals_append (h' : Settles s' s'' epoch feeBps more moreShares) (account : Rail × PublicKey) :
    ∃ delta, providerSettlementPageDelta
        (Tally.amount ((allocations ++ more).map Allocation.credit) account)
        (s.epochs.markerGrossAu (epoch, account)) account.1 feeBps = .ok delta ∧
      accountTotals (shares ++ moreShares) account =
        ⟨Tally.amount ((allocations ++ more).map Allocation.credit) account, delta.feeAu, delta.burnAu,
          delta.providerAu⟩ := by
  obtain ⟨delta, hdelta, htotals⟩ := h.totals_eq account
  obtain ⟨_, hdelta', htotals'⟩ := h'.totals_eq account
  rw [h.markerGrossAu_eq] at hdelta'
  have hboth := providerSettlementPageDelta_add hdelta hdelta'
  rw [← Tally.amount_append, ← List.map_append] at hboth
  refine ⟨_, hboth, ?_⟩
  simp only [accountTotals, AccountTotals.mk.injEq] at htotals htotals' ⊢
  simp [sumShares_append, Tally.amount_append, htotals, htotals']

theorem trans (h' : Settles s' s'' epoch feeBps more moreShares) :
    Settles s s'' epoch feeBps (allocations ++ more) (shares ++ moreShares) where
  head_eq := h'.head_eq.trans h.head_eq
  registry_eq := by
    obtain ⟨_, hfirst⟩ := h.registry_eq
    obtain ⟨pointers, hsecond⟩ := h'.registry_eq
    exact ⟨pointers, by rw [hsecond, hfirst]⟩
  freeze_eq := h'.freeze_eq.trans h.freeze_eq
  totals_eq := h.totals_append h'
  markerGrossAu_eq account := by
    rw [h'.markerGrossAu_eq, h.markerGrossAu_eq, List.map_append, Tally.amount_append, Nat.add_assoc]
  markerNetAu_eq account := by
    rw [h'.markerNetAu_eq, h.markerNetAu_eq, sumShares_append, Nat.add_assoc]
  earnedAu_eq provider rail := by
    rw [h'.earnedAu_eq, h.earnedAu_eq, sumShares_append, Nat.add_assoc]
  feeCumAu_eq rail providers hnamed := by
    rw [List.forall_mem_append] at hnamed
    rw [h'.feeCumAu_eq rail providers hnamed.2, h.feeCumAu_eq rail providers hnamed.1, Nat.add_assoc,
      ← Finset.sum_add_distrib]
    simp [sumShares_append]
  burnCumAu_eq rail providers hnamed := by
    rw [List.forall_mem_append] at hnamed
    rw [h'.burnCumAu_eq rail providers hnamed.2, h.burnCumAu_eq rail providers hnamed.1, Nat.add_assoc,
      ← Finset.sum_add_distrib]
    simp [sumShares_append]
  balanceAu_add user rail := by
    have hfirst := h.balanceAu_add user rail
    have hsecond := h'.balanceAu_add user rail
    rw [List.map_append, Tally.amount_append]
    omega
  usage_get market unit := by
    rw [h'.usage_get, h.usage_get, h.settledUnits_eq, List.map_append, List.sum_append, Nat.add_assoc]
  usage_canonical market hnamed := by
    by_cases hlast : namesMarket s'.receipts more market
    . exact h'.usage_canonical market hlast
    . rw [h'.usage_frame market hlast]
      apply h.usage_canonical
      obtain ⟨a, ha, hmarket⟩ := hnamed
      rcases List.mem_append.mp ha with ha | ha
      . exact ⟨a, ha, hmarket⟩
      . exact absurd ((h.namesMarket_iff market).mpr ⟨a, ha, hmarket⟩) hlast
  usage_frame market hnamed := by
    have hfirst : ¬ namesMarket s.receipts allocations market := by
      rintro ⟨a, ha, hmarket⟩
      exact hnamed ⟨a, List.mem_append_left _ ha, hmarket⟩
    have hlast : ¬ namesMarket s'.receipts more market := by
      rw [h.namesMarket_iff]
      rintro ⟨a, ha, hmarket⟩
      exact hnamed ⟨a, List.mem_append_right _ ha, hmarket⟩
    rw [h'.usage_frame market hlast, h.usage_frame market hfirst]

end Settles

namespace AppliedPage

variable {sender : PublicKey} {key : Digest} {value : TargetedEpochValue}
  {transition : Option CommitTransition} {feature : FeaturePlan} {plan : ApplyPlan}

theorem time_eq (h : AppliedPage crypto s sender key value transition feature plan)
    (hfreeze : s.epochs.freeze.get value.epoch = some freeze) : value.time = freeze.time := by
  have hfrozen := h.committed.frozen_ok
  rw [validateFrozenEpoch, hfreeze] at hfrozen
  simp only [checks_iff, not_or, not_not] at hfrozen
  exact hfrozen.1.symm

theorem settles (h : AppliedPage crypto s sender key value transition feature plan)
    (hbounded : h.page.epochCommit.targetedReceiptPages = true)
    (hnodup : (value.earnings.map TargetedEarning.account).Nodup)
    (hfreeze : s.epochs.freeze.get value.epoch = some freeze) (market : Market) :
    Settles s (s.settled plan feature market) value.epoch
      (s.registry.activeParamAt freeze.time .feeBps) value.allocations feature.options.deltas where
  head_eq := rfl
  registry_eq := settled_registry plan feature market
  freeze_eq := rfl
  totals_eq account := by
    obtain ⟨delta, hdelta, hsum⟩ := h.exists_delta hbounded hnodup account
    rw [h.time_eq hfreeze] at hdelta
    refine ⟨delta, hdelta, ?_⟩
    rw [accountTotals, AccountTotals.mk.injEq]
    refine ⟨?_, hsum _ rfl, hsum _ rfl, hsum _ rfl⟩
    rw [← providerSettlementPageDelta_grossAu hdelta]
    exact hsum _ rfl
  markerGrossAu_eq account := (h.markers_eq hbounded hnodup rfl account).1
  markerNetAu_eq account := (h.markers_eq hbounded hnodup rfl account).2
  earnedAu_eq provider rail := by
    have hearned := h.earnedAu_eq provider (settled_railScope plan feature market rail) rfl
    rw [h.amount_shares hbounded hnodup] at hearned
    exact hearned
  feeCumAu_eq rail providers hnamed := by
    rw [h.feeCumAu_eq (settled_railScope plan feature market rail) rfl, PageMoney.feeAu,
      ← h.sum_shares SettlementDelta.feeAu rail hnamed]
    simp only [h.amount_shares hbounded hnodup]
    rfl
  burnCumAu_eq rail providers hnamed := by
    rw [h.burnCumAu_eq (settled_railScope plan feature market rail) rfl, PageMoney.burnAu,
      ← h.sum_shares SettlementDelta.burnAu rail hnamed]
    simp only [h.amount_shares hbounded hnodup]
    rfl
  balanceAu_add user rail := h.balanceAu_add user (settled_railScope plan feature market rail) rfl
  usage_get market' := (h.settledUsage_eq hbounded rfl market').1
  usage_canonical market' := (h.settledUsage_eq hbounded rfl market').2.1
  usage_frame market' := (h.settledUsage_eq hbounded rfl market').2.2

end AppliedPage

variable {freeze : EpochFreeze}

theorem PageOutcome.settles {sender : PublicKey} {key : Digest} {value : TargetedEpochValue}
    {transition : Option CommitTransition} {outcome : Outcome ApplyResult} {result : ApplyResult}
    (houtcome : PageOutcome crypto s sender key value transition outcome)
    (hnodup : (value.earnings.map TargetedEarning.account).Nodup)
    (hbounded : ∀ commit, (transition.map CommitTransition.record).or
      (s.epochs.commit.get value.epoch) = some commit → commit.targetedReceiptPages = true)
    (hfreeze : s.epochs.freeze.get value.epoch = some freeze) (hresult : outcome.2 = .ok result)
    (hnew : result.idempotent = false) :
    ∃ feature, s.prepareFeature key value transition = .ok feature ∧
      Settles s outcome.1 value.epoch (s.registry.activeParamAt freeze.time .feeBps)
        value.allocations feature.options.deltas := by
  cases houtcome with
  | replayed feature hfeature =>
    obtain rfl := Except.ok.inj hresult
    cases hnew
  | rejected | stopped => cases hresult
  | settled feature _ market hfeature hplan =>
    obtain ⟨page⟩ := appliedPage_of_settled hfeature hplan
    have hcommit := page.committed.commit_eq
    rw [page.prepared.transition_eq] at hcommit
    exact ⟨feature, hfeature, page.settles (hbounded _ hcommit) hnodup hfreeze market⟩

/--
What a new page of an epoch settles. It is bounded if its commit keeps markers per provider.
-/
structure SettledPage where
  allocations : List Allocation
  shares : List Share
  bounded : Bool

def featureShares (s : Ledger) (key : Digest) (value : TargetedEpochValue)
    (transition : Option CommitTransition) : List Share :=
  match normalizeTargetedEpochFeatureValue value with
  | .error _ => []
  | .ok normalized =>
    match s.prepareFeature key normalized transition with
    | .error _ => []
    | .ok feature => feature.options.deltas

def HoldOp.settledPage (crypto : Crypto) (s : Ledger) : HoldOp → SettledPage
  | .page _ key value =>
    ⟨value.allocations, s.featureShares key value none,
      (s.epochs.commit.get value.epoch).any EpochCommit.targetedReceiptPages⟩
  | .pageZero sender key value =>
    match s.prepareTargetedEpochCommitTransition crypto sender value with
    | .error _ => ⟨value.allocations, [], true⟩
    | .ok transition =>
      ⟨value.allocations, s.featureShares key value.targetedValue (some transition), true⟩
  | _ => ⟨[], [], false⟩

theorem HoldOp.settles {op : HoldOp} {answer : PageAnswer} {result : ApplyResult}
    (hanswer : op.pageAnswer crypto s = some answer) (hresult : answer.answer = .ok result)
    (hnew : result.idempotent = false) (hfreeze : s.epochs.freeze.get answer.epoch = some freeze)
    (hbounded : (op.settledPage crypto s).bounded = true) :
    Settles s (op.run crypto s) answer.epoch (s.registry.activeParamAt freeze.time .feeBps)
      (op.settledPage crypto s).allocations (op.settledPage crypto s).shares := by
  cases op with
  | reserve | record | close => cases hanswer
  | page sender key value =>
    obtain rfl := Option.some.inj hanswer
    rcases page_cases crypto s sender key value with
      ⟨message, heq⟩ | ⟨earnings, hnormalized, houtcome⟩
    . rw [heq] at hresult
      cases hresult
    . have hstored : ∀ commit, ((none : Option CommitTransition).map CommitTransition.record).or
          (s.epochs.commit.get value.epoch) = some commit → commit.targetedReceiptPages = true := by
        intro commit hcommit
        rw [Option.map_none, Option.none_or] at hcommit
        dsimp only [HoldOp.settledPage] at hbounded
        rw [hcommit, Option.any_some] at hbounded
        exact hbounded
      obtain ⟨feature, hfeature, hsettles⟩ :=
        houtcome.settles (normalize_eq_ok hnormalized).2 hstored hfreeze hresult hnew
      dsimp only [HoldOp.settledPage, featureShares]
      rw [hnormalized]
      dsimp only
      rw [hfeature]
      exact hsettles
  | pageZero sender key value =>
    obtain rfl := Option.some.inj hanswer
    rcases pageZero_cases crypto s sender key value with
      ⟨message, heq⟩ | ⟨earnings, transition, hnormalized, htransition, houtcome⟩
    . rw [heq] at hresult
      cases hresult
    . have hbrought : ∀ commit, ((some transition).map CommitTransition.record).or
          (s.epochs.commit.get value.epoch) = some commit → commit.targetedReceiptPages = true := by
        intro commit hcommit
        rw [Option.map_some, Option.some_or, Option.some.injEq] at hcommit
        rw [← hcommit]
        exact transition_targetedReceiptPages htransition
      obtain ⟨feature, hfeature, hsettles⟩ :=
        houtcome.settles (normalize_eq_ok hnormalized).2 hbrought hfreeze hresult hnew
      dsimp only [HoldOp.settledPage, featureShares]
      rw [htransition]
      dsimp only
      rw [hnormalized]
      dsimp only
      rw [hfeature]
      exact hsettles

inductive EpochRun (crypto : Crypto) (epoch : Nat) (s : Ledger) : List SettledPage → Ledger → Prop
  | start : EpochRun crypto epoch s [] s
  | page {pages : List SettledPage} {s' : Ledger} (op : HoldOp) {answer : PageAnswer}
      {result : ApplyResult} (hrun : EpochRun crypto epoch s pages s')
      (hanswer : op.pageAnswer crypto s' = some answer) (hepoch : answer.epoch = epoch)
      (hresult : answer.answer = .ok result) (hnew : result.idempotent = false) :
      EpochRun crypto epoch s (pages ++ [op.settledPage crypto s']) (op.run crypto s')

variable {epoch : Nat}

theorem EpochRun.settles {pages : List SettledPage} (hfreeze : s.epochs.freeze.get epoch = some freeze)
    (hrun : EpochRun crypto epoch s pages s') (hbounded : ∀ page ∈ pages, page.bounded = true) :
    Settles s s' epoch (s.registry.activeParamAt freeze.time .feeBps)
      (pages.flatMap SettledPage.allocations) (pages.flatMap SettledPage.shares) := by
  induction hrun with
  | start => exact Settles.refl s _ _
  | @page pages s' op answer result hrun hanswer hepoch hresult hnew ih =>
    rw [List.forall_mem_append, List.forall_mem_singleton] at hbounded
    have hbefore := ih hbounded.1
    -- the pages so far leave the freeze and the fee alone
    have hstill : s'.epochs.freeze.get answer.epoch = some freeze := by
      rw [hbefore.freeze_eq, hepoch]
      exact hfreeze
    obtain ⟨_, hregistry⟩ := hbefore.registry_eq
    have hpage := HoldOp.settles hanswer hresult hnew hstill hbounded.2
    rw [hregistry, hepoch] at hpage
    rw [List.flatMap_append, List.flatMap_append, List.flatMap_singleton, List.flatMap_singleton]
    exact hbefore.trans hpage

theorem Settles.usage_unique {feeBps : Nat} {allocations allocations' : List Allocation}
    {shares shares' : List Share} {s₁ s₂ : Ledger} (h₁ : Settles s s₁ epoch feeBps allocations shares)
    (h₂ : Settles s s₂ epoch feeBps allocations' shares') (hperm : allocations.Perm allocations')
    (market : MarketKey) :
    s₁.epochs.settledUsage (epoch, market) = s₂.epochs.settledUsage (epoch, market) := by
  have hnamed : namesMarket s.receipts allocations market ↔ namesMarket s.receipts allocations' market :=
    exists_congr fun a => and_congr_left fun _ => hperm.mem_iff
  by_cases hmarket : namesMarket s.receipts allocations market
  . apply (h₁.usage_canonical market hmarket).ext (h₂.usage_canonical market (hnamed.mp hmarket))
    intro _
    rw [h₁.usage_get, h₂.usage_get, (hperm.map _).sum_eq]
  . rw [h₁.usage_frame market hmarket, h₂.usage_frame market (hnamed.not.mp hmarket)]

/--
However the receipts of a frozen epoch are split into bounded pages, they end in the same totals of every
provider and rail, the same markers, earnings, fees, burns and balances, and the same settled usage.
-/
theorem page_partition_independent {epoch : Nat} {freeze : EpochFreeze}
    {pages₁ pages₂ : List SettledPage} {s₁ s₂ : Ledger} (hfreeze : s.epochs.freeze.get epoch = some freeze)
    (hrun₁ : EpochRun crypto epoch s pages₁ s₁) (hrun₂ : EpochRun crypto epoch s pages₂ s₂)
    (hbounded₁ : ∀ page ∈ pages₁, page.bounded = true) (hbounded₂ : ∀ page ∈ pages₂, page.bounded = true)
    (hsplit : (pages₁.flatMap SettledPage.allocations).Perm (pages₂.flatMap SettledPage.allocations)) :
    (∀ account, accountTotals (pages₁.flatMap SettledPage.shares) account =
      accountTotals (pages₂.flatMap SettledPage.shares) account) ∧
    (∀ account, s₁.epochs.markerGrossAu (epoch, account) = s₂.epochs.markerGrossAu (epoch, account) ∧
      s₁.epochs.markerNetAu (epoch, account) = s₂.epochs.markerNetAu (epoch, account)) ∧
    (∀ provider rail, s₁.earnedAu provider rail = s₂.earnedAu provider rail) ∧
    (∀ rail, s₁.feeCumAu rail = s₂.feeCumAu rail ∧ s₁.burnCumAu rail = s₂.burnCumAu rail) ∧
    (∀ user rail, s₁.balanceAu user rail = s₂.balanceAu user rail) ∧
    ∀ market, s₁.epochs.settledUsage (epoch, market) = s₂.epochs.settledUsage (epoch, market) := by
  have h₁ := hrun₁.settles hfreeze hbounded₁
  have h₂ := hrun₂.settles hfreeze hbounded₂
  have hcredit : ∀ account, Tally.amount
    ((pages₁.flatMap SettledPage.allocations).map Allocation.credit) account =
        Tally.amount ((pages₂.flatMap SettledPage.allocations).map Allocation.credit) account :=
    fun account => Tally.amount_perm (hsplit.map _) account
  have htotals : ∀ account, accountTotals (pages₁.flatMap SettledPage.shares) account =
      accountTotals (pages₂.flatMap SettledPage.shares) account := by
    intro account
    obtain ⟨_, hdelta₁, htotals₁⟩ := h₁.totals_eq account
    obtain ⟨_, hdelta₂, htotals₂⟩ := h₂.totals_eq account
    rw [hcredit] at hdelta₁
    obtain rfl := Except.ok.inj (hdelta₁.symm.trans hdelta₂)
    rw [htotals₁, htotals₂, hcredit]
  have hfee := fun account => congrArg AccountTotals.feeAu (htotals account)
  have hburn := fun account => congrArg AccountTotals.burnAu (htotals account)
  have hnet := fun account => congrArg AccountTotals.netAu (htotals account)
  dsimp only [accountTotals] at hfee hburn hnet
  refine ⟨htotals, ?_, ?_, ?_, ?_, ?_⟩
  . intro account
    rw [h₁.markerGrossAu_eq, h₂.markerGrossAu_eq, h₁.markerNetAu_eq, h₂.markerNetAu_eq, hcredit, hnet]
    exact ⟨rfl, rfl⟩
  . intro provider rail
    rw [h₁.earnedAu_eq, h₂.earnedAu_eq, hnet]
  . intro rail
    -- the same providers earn on the rail in both splits
    let providers := ((pages₁.flatMap SettledPage.allocations).map Allocation.provider).toFinset
    have hnamed₁ : ∀ a ∈ pages₁.flatMap SettledPage.allocations, a.rail = rail → a.provider ∈ providers := by
      intro a ha _
      exact List.mem_toFinset.mpr (List.mem_map_of_mem ha)
    have hnamed₂ : ∀ a ∈ pages₂.flatMap SettledPage.allocations, a.rail = rail →
        a.provider ∈ providers := fun a ha hrail => hnamed₁ a (hsplit.mem_iff.mpr ha) hrail
    rw [h₁.feeCumAu_eq rail providers hnamed₁, h₂.feeCumAu_eq rail providers hnamed₂,
      h₁.burnCumAu_eq rail providers hnamed₁, h₂.burnCumAu_eq rail providers hnamed₂]
    simp [hfee, hburn]
  . intro user rail
    have hpaid₁ := h₁.balanceAu_add user rail
    have hpaid₂ := h₂.balanceAu_add user rail
    rw [Tally.amount_perm (hsplit.map _)] at hpaid₁
    omega
  . exact h₁.usage_unique h₂ hsplit

/--
The fee and the burn of a whole epoch are the floored shares of what each provider earned in it, and the
provider keeps the rest: no page rounds on its own.
-/
theorem epoch_shares_floored {freeze : EpochFreeze} {pages : List SettledPage}
    (hfreeze : s.epochs.freeze.get epoch = some freeze) (hrun : EpochRun crypto epoch s pages s')
    (hbounded : ∀ page ∈ pages, page.bounded = true) {rail : Rail} {providers : Finset PublicKey}
    (hnamed : ∀ a ∈ pages.flatMap SettledPage.allocations, a.rail = rail → a.provider ∈ providers)
    (hnew : ∀ provider, s.epochs.markerGrossAu (epoch, rail, provider) = 0) :
    let grossAu := fun provider =>
      Tally.amount ((pages.flatMap SettledPage.allocations).map Allocation.credit) (rail, provider)
    let feeAu := fun provider => grossAu provider * s.registry.activeParamAt freeze.time .feeBps / 10000
    let burnAu := fun provider => grossAu provider * railBurnBps rail / 10000
    s'.feeCumAu rail = s.feeCumAu rail + ∑ provider ∈ providers, feeAu provider ∧
    s'.burnCumAu rail = s.burnCumAu rail + ∑ provider ∈ providers, burnAu provider ∧
    ∀ provider, s'.earnedAu provider rail + feeAu provider + burnAu provider =
      s.earnedAu provider rail + grossAu provider := by
  intro grossAu feeAu burnAu
  have h := hrun.settles hfreeze hbounded
  have hshares : ∀ provider, ∃ netAu, feeAu provider + burnAu provider + netAu = grossAu provider ∧
      accountTotals (pages.flatMap SettledPage.shares) (rail, provider) =
        ⟨grossAu provider, feeAu provider, burnAu provider, netAu⟩ := by
    intro provider
    obtain ⟨delta, hdelta, htotals⟩ := h.totals_eq (rail, provider)
    rw [hnew, providerSettlementPageDelta_eq_ok_iff] at hdelta
    simp only [Nat.zero_mul, Nat.zero_mod, Nat.zero_add] at hdelta
    obtain ⟨hfee, hburn, hsum⟩ := hdelta
    rw [hfee, hburn] at hsum htotals
    exact ⟨delta.providerAu, hsum, htotals⟩
  choose netAu hsum htotals using hshares
  have hfee := fun provider => congrArg AccountTotals.feeAu (htotals provider)
  have hburn := fun provider => congrArg AccountTotals.burnAu (htotals provider)
  have hnet := fun provider => congrArg AccountTotals.netAu (htotals provider)
  dsimp only [accountTotals] at hfee hburn hnet
  refine ⟨?_, ?_, ?_⟩
  . simp only [h.feeCumAu_eq rail providers hnamed, hfee]
  . simp only [h.burnCumAu_eq rail providers hnamed, hburn]
  . intro provider
    rw [h.earnedAu_eq, hnet, ← hsum]
    omega

def HoldOp.isNewPage (crypto : Crypto) (s : Ledger) (epoch : Nat) (op : HoldOp) : Bool :=
  match op.pageAnswer crypto s with
  | some ⟨.ok result, answered, _, _⟩ => answered == epoch && !result.idempotent
  | _ => false

theorem EpochRun.next {pages : List SettledPage} (op : HoldOp) (hrun : EpochRun crypto epoch s pages s')
    (hnext : op.isNewPage crypto s' epoch = true) :
    EpochRun crypto epoch s (pages ++ [op.settledPage crypto s']) (op.run crypto s') := by
  unfold HoldOp.isNewPage at hnext
  split at hnext
  . next _ _ page _ hanswer =>
    simp only [Bool.and_eq_true, beq_iff_eq, Bool.not_eq_true'] at hnext
    exact .page op hrun hanswer hnext.1 rfl hnext.2
  . cases hnext

def pairHost : Crypto := { plainHost with commitPageZeroFeatureKey := fun _ => 0 }

def pairFrozen : Ledger :=
  let reserved := (HoldOp.reserve 301 (talkReserve 1 300)).run pairHost talkRecorded
  let recorded := (HoldOp.record 1 (talkReceipt 1 4)).run pairHost reserved
  (recorded.epochFreeze pairHost 10 1 3600).1

def pairRoots : EpochRoots := ⟨0, 77, 30, 1, 0⟩

def pairTotals : EpochTotals := ⟨0, 0, 2, 8, 1, 7, 1, 1, 0, 0, 0⟩

def pairPage (page au : Nat) (lastPage : Bool) (allocations : List Allocation)
    (marketUsage : Option (List MarketUsage)) (earningFinals : Option (List EarningFinal)) :
    TargetedEpochValue where
  epoch := 1
  time := 3600
  epochCommitHash := 77
  receiptIndex := ⟨2, 1, 2, some 1⟩
  debits := [⟨.tnk, 20, au⟩]
  earnings := [⟨.tnk, 30, au, 4⟩]
  allocations := allocations
  page := page
  lastPage := lastPage
  marketUsage := marketUsage
  earningFinals := earningFinals

def pairPageZero (au : Nat) (lastPage : Bool) (allocations : List Allocation)
    (marketUsage : Option (List MarketUsage)) (earningFinals : Option (List EarningFinal)) : HoldOp :=
  .pageZero 10 0 { talkPageZero with
    receiptIndex := ⟨2, 1, 2, some 1⟩
    debits := [⟨.tnk, 20, au⟩]
    earnings := [⟨.tnk, 30, au, 4⟩]
    allocations := allocations
    lastPage := lastPage
    marketUsage := marketUsage
    earningFinals := earningFinals
    roots := pairRoots
    totals := pairTotals }

def pairUsage : Option (List MarketUsage) := some [⟨⟨40, none, none⟩, 8, 2, 1⟩]

def pairFinals : Option (List EarningFinal) := some [⟨.tnk, 30, 8, 7, 7⟩]

/--
The two talks settled in one page and in two.
-/
theorem page_partition_independent_pair : ∃ pages₁ pages₂ s₁ s₂, EpochRun pairHost 1 pairFrozen pages₁ s₁ ∧
      EpochRun pairHost 1 pairFrozen pages₂ s₂ ∧ pages₁.length = 1 ∧ pages₂.length = 2 ∧
      accountTotals (pages₁.flatMap SettledPage.shares) (.tnk, 30) = ⟨8, 1, 0, 7⟩ ∧
      accountTotals (pages₂.flatMap SettledPage.shares) (.tnk, 30) = ⟨8, 1, 0, 7⟩ ∧
      s₁.feeCumAu .tnk = 1 ∧ s₂.feeCumAu .tnk = 1 := by
  let whole := pairPageZero 8 true [talkAllocation 0 4, talkAllocation 1 4] pairUsage pairFinals
  let first := pairPageZero 4 false [talkAllocation 0 4] none none
  let second := HoldOp.page 10 1 (pairPage 1 4 true [talkAllocation 1 4] pairUsage pairFinals)
  have hnew : whole.isNewPage pairHost pairFrozen 1 = true ∧ first.isNewPage pairHost pairFrozen 1 = true ∧
      second.isNewPage pairHost (first.run pairHost pairFrozen) 1 = true := by decide +kernel
  have hwhole := EpochRun.next whole .start hnew.1
  have hpair := (EpochRun.next first .start hnew.2.1).next second hnew.2.2
  generalize hone : [] ++ [whole.settledPage pairHost pairFrozen] = pages₁ at hwhole
  generalize htwo : [] ++ [first.settledPage pairHost pairFrozen] ++
    [second.settledPage pairHost (first.run pairHost pairFrozen)] = pages₂ at hpair
  have hfacts : (pairFrozen.epochs.freeze.get 1).isSome = true ∧
      (∀ page ∈ pages₁, page.bounded = true) ∧ (∀ page ∈ pages₂, page.bounded = true) ∧
      (pages₁.flatMap SettledPage.allocations).Perm (pages₂.flatMap SettledPage.allocations) ∧
      accountTotals (pages₁.flatMap SettledPage.shares) (.tnk, 30) = ⟨8, 1, 0, 7⟩ ∧
      (whole.run pairHost pairFrozen).feeCumAu .tnk = 1 := by
    subst hone htwo
    decide +kernel
  obtain ⟨hfrozen, hbounded₁, hbounded₂, hsplit, htotal, hfee⟩ := hfacts
  obtain ⟨freeze, hfreeze⟩ := Option.isSome_iff_exists.mp hfrozen
  obtain ⟨htotals, -, -, hcum, -, -⟩ := page_partition_independent hfreeze hwhole hpair hbounded₁ hbounded₂ hsplit
  refine ⟨pages₁, pages₂, _, _, hwhole, hpair, by rw [← hone]; rfl, by rw [← htwo]; rfl, htotal, ?_, hfee, ?_⟩
  . rw [← htotals]
    exact htotal
  . rw [← (hcum .tnk).1]
    exact hfee

theorem epoch_shares_floored_pair : ∃ pages s', EpochRun pairHost 1 pairFrozen pages s' ∧ pages.length = 2 ∧
    s'.feeCumAu .tnk = 1 ∧ s'.earnedAu 30 .tnk = 7 := by
  let first := pairPageZero 4 false [talkAllocation 0 4] none none
  let second := HoldOp.page 10 1 (pairPage 1 4 true [talkAllocation 1 4] pairUsage pairFinals)
  have hnext : first.isNewPage pairHost pairFrozen 1 = true ∧
      second.isNewPage pairHost (first.run pairHost pairFrozen) 1 = true := by decide +kernel
  have hrun := (EpochRun.next first .start hnext.1).next second hnext.2
  obtain ⟨freeze, hfreeze, hfee⟩ : ∃ freeze, pairFrozen.epochs.freeze.get 1 = some freeze ∧
      pairFrozen.registry.activeParamAt freeze.time .feeBps = 1500 := ⟨_, rfl, by decide +kernel⟩
  obtain ⟨hfees, -, hearned⟩ := @epoch_shares_floored _ _ _ 1 _ _ hfreeze hrun (by decide +kernel) .tnk {30}
    (by decide +kernel) (fun _ => rfl)
  refine ⟨_, _, hrun, rfl, hfees.trans ?_, Nat.add_right_cancel (Nat.add_right_cancel ((hearned 30).trans ?_))⟩
  . rw [hfee]
    decide +kernel
  . rw [hfee]
    decide +kernel

def pairCommitted : Ledger := (pairFrozen.epochCommit pairHost 99 1 3600 pairRoots pairTotals).1

theorem unbounded_split_changes_fee :
    ∃ freeze pages₁ pages₂ s₁ s₂, pairCommitted.epochs.freeze.get 1 = some freeze ∧
      EpochRun pairHost 1 pairCommitted pages₁ s₁ ∧ EpochRun pairHost 1 pairCommitted pages₂ s₂ ∧
      pages₁.flatMap SettledPage.allocations = pages₂.flatMap SettledPage.allocations ∧
      accountTotals (pages₁.flatMap SettledPage.shares) (.tnk, 30) = ⟨8, 1, 0, 7⟩ ∧
      accountTotals (pages₂.flatMap SettledPage.shares) (.tnk, 30) = ⟨8, 0, 0, 8⟩ ∧
      s₁.feeCumAu .tnk = 1 ∧ s₂.feeCumAu .tnk = 0 := by
  let whole := HoldOp.page 10 0 (pairPage 0 8 true [talkAllocation 0 4, talkAllocation 1 4] none none)
  let first := HoldOp.page 10 0 (pairPage 0 4 false [talkAllocation 0 4] none none)
  let second := HoldOp.page 10 1 (pairPage 1 4 true [talkAllocation 1 4] none none)
  have hnew : whole.isNewPage pairHost pairCommitted 1 = true ∧ first.isNewPage pairHost pairCommitted 1 = true ∧
      second.isNewPage pairHost (first.run pairHost pairCommitted) 1 = true := by decide +kernel
  have hwhole := EpochRun.next whole .start hnew.1
  have hpair := (EpochRun.next first .start hnew.2.1).next second hnew.2.2
  have hfrozen : (pairCommitted.epochs.freeze.get 1).isSome = true := by decide +kernel
  obtain ⟨freeze, hfreeze⟩ := Option.isSome_iff_exists.mp hfrozen
  refine ⟨freeze, _, _, _, _, hfreeze, hwhole, hpair, rfl, ?_⟩
  decide +kernel

end Ledger
end Mayhem
