import Mayhem.Payout.Accepted
import Mayhem.Roller.Build

namespace Mayhem.Roller

theorem totalWei_addWei (claims : List (String × Nat)) (claim : String × Nat) :
    totalWei (addWei claims claim) = totalWei claims + claim.2 := by
  unfold addWei
  split
  . next hzero => rw [hzero, Nat.add_zero]
  . exact Tally.sum_add claim.1 claim.2 claims

theorem totalWei_filter_pos (claims : List (String × Nat)) :
    totalWei (claims.filter fun claim => claim.2 > 0) = totalWei claims := by
  unfold totalWei
  induction claims with
  | nil => rfl
  | cons claim claims ih =>
    rw [List.filter_cons, List.map_cons, List.sum_cons]
    split
    . rw [List.map_cons, List.sum_cons, ih]
    . next hzero =>
      rw [decide_eq_true_eq] at hzero
      omega

theorem totalWei_sortedDistributionEntries (claims : List (String × Nat)) :
    TapEntry.totalWei (sortedDistributionEntries claims) = totalWei claims := by
  rw [← totalWei_filter_pos claims, TapEntry.totalWei, sortedDistributionEntries,
    ((List.perm_insertionSort _ _).map _).sum_eq, List.map_map]
  rfl

theorem totalWei_settlementDistribution {host : RollerHost} {entries : List TapEntry} {label : String}
    {claims : List (String × Nat)} (h : settlementDistribution host entries label = .ok claims) :
    totalWei claims = TapEntry.totalWei entries := by
  have hstep : ∀ (entries : List TapEntry) (start claims : List (String × Nat)),
    entries.foldlM (fun claims entry => do
        let account ← normalizeAddress host entry.account (label ++ " account")
        return addWei claims (account, entry.cumulativeWei)) start = Except.ok claims →
      totalWei claims = totalWei start + TapEntry.totalWei entries := by
    intro entries
    induction entries with
    | nil =>
      intro start claims h
      rw [List.foldlM_nil, Except.pure_accepts_iff] at h
      subst h
      rfl
    | cons entry entries ih =>
      intro start claims h
      simp only [List.foldlM_cons, checks_iff] at h
      obtain ⟨_, ⟨account, -, rfl⟩, h⟩ := h
      rw [ih _ _ h, totalWei_addWei, TapEntry.totalWei, TapEntry.totalWei, List.map_cons, List.sum_cons]
      exact Nat.add_assoc _ _ _
  have htotal := hstep entries [] claims h
  rw [htotal]
  exact Nat.zero_add _

def LiabilityEntry.dueWei (liability : LiabilityEntry) (tapUsdAu payoutMinAu : Nat) : Nat :=
  if liability.isPaid tapUsdAu payoutMinAu then auToTapWei liability.payableAu tapUsdAu else 0

theorem addLiability_eq_ok {tapUsdAu payoutMinAu : Nat} {progress next : PayoutProgress}
    {liability : LiabilityEntry} (h : addLiability tapUsdAu payoutMinAu progress liability = .ok next) :
    totalWei next.perProvider = totalWei progress.perProvider + liability.dueWei tapUsdAu payoutMinAu ∧
      (next.outputs.map CheckpointOutput.tapWei).sum =
        (progress.outputs.map CheckpointOutput.tapWei).sum + liability.dueWei tapUsdAu payoutMinAu := by
  have hheld : (progress.hold liability).perProvider = progress.perProvider ∧
      (progress.hold liability).outputs = progress.outputs := by
    unfold PayoutProgress.hold
    split
    . exact ⟨rfl, rfl⟩
    . exact ⟨rfl, rfl⟩
  unfold addLiability at h
  dsimp only at h
  split at h
  . next hzero =>
    obtain rfl := Except.ok.inj h
    have hdue : liability.dueWei tapUsdAu payoutMinAu = 0 := by
      rw [LiabilityEntry.dueWei, LiabilityEntry.isPaid, hzero]
      rfl
    rw [hdue, hheld.1, hheld.2]
    exact ⟨rfl, rfl⟩
  . split at h
    . next hpaid =>
      simp only [PayoutProgress.pay, checks_iff] at h
      obtain ⟨-, rfl⟩ := h
      dsimp only
      rw [LiabilityEntry.dueWei, if_pos hpaid, hheld.1, hheld.2, List.map_append, List.sum_append]
      exact ⟨Tally.sum_add _ _ _, rfl⟩
    . next hunpaid =>
      obtain rfl := Except.ok.inj h
      rw [LiabilityEntry.dueWei, if_neg hunpaid]
      dsimp only [PayoutProgress.defer]
      rw [hheld.1, hheld.2]
      exact ⟨rfl, rfl⟩

theorem addLiabilities_eq_ok {tapUsdAu payoutMinAu : Nat} {liabilities : List LiabilityEntry}
    {progress next : PayoutProgress}
    (h : liabilities.foldlM (addLiability tapUsdAu payoutMinAu) progress = .ok next) :
    totalWei next.perProvider = totalWei progress.perProvider +
        (liabilities.map fun liability => liability.dueWei tapUsdAu payoutMinAu).sum ∧
      (next.outputs.map CheckpointOutput.tapWei).sum = (progress.outputs.map CheckpointOutput.tapWei).sum +
          (liabilities.map fun liability => liability.dueWei tapUsdAu payoutMinAu).sum := by
  induction liabilities generalizing progress with
  | nil =>
    rw [List.foldlM_nil, Except.pure_accepts_iff] at h
    subst h
    exact ⟨rfl, rfl⟩
  | cons liability liabilities ih =>
    rw [List.foldlM_cons, Except.bind_accepts_iff] at h
    obtain ⟨_, hstep, h⟩ := h
    obtain ⟨hclaims, houtputs⟩ := addLiability_eq_ok hstep
    obtain ⟨hclaims', houtputs'⟩ := ih h
    rw [hclaims', houtputs', hclaims, houtputs, List.map_cons, List.sum_cons, Nat.add_assoc, Nat.add_assoc]
    exact ⟨rfl, rfl⟩

def Input.dueWei (crypto : Crypto) (host : RollerHost) (input : Input) : Except String Nat := do
  let payoutMinAu ← input.tapPayoutMinAu
  let liabilities ← canonicalTapLiabilityMap host input.liabilities
  let receipts ← input.readReceipts crypto host
  let required ← requiredLiabilities liabilities receipts.required
  return (required.map fun (liability : LiabilityEntry) =>
    liability.dueWei input.tapUsdAu payoutMinAu).sum

def priorClaimedWei (prior : Option Report) : Nat := TapEntry.totalWei (priorProviders prior)

variable {crypto : Crypto} {host : RollerHost} {input : Input} {prior : Option Report} {report : Report}

structure Built (crypto : Crypto) (host : RollerHost) (input : Input) (prior : Option Report) (report : Report)
    (dueWei : Nat) : Prop where
  due_ok : input.dueWei crypto host = .ok dueWei
  feeBps_eq : report.ledgerFeeBps = operatorBps
  claimedWei_eq : report.providerClaimedWei = priorClaimedWei prior + dueWei
  providers_eq : priorClaimedWei (some report) = report.providerClaimedWei
  tapWei_eq : report.providerTapWei = dueWei
  spentWei_ok : nextCumulativeSpentWei (priorSpentWei prior) (priorClaimedWei prior)
    report.providerClaimedWei = .ok report.cumulativeSpentWei

theorem buildTapSettlement_eq_ok (h : buildTapSettlement crypto host input prior = .ok report) :
    ∃ dueWei, Built crypto host input prior report dueWei := by
  unfold buildTapSettlement at h
  simp only [checks_iff] at h
  obtain ⟨-, -, feeBps, hfee, payoutMinAu, hmin, _, -, perProvider, hprovider, _,
    hliabilities, _, -, _, hreceipts, required, hrequired, paid, hpaid, _, -,
    _, hspent, _, -, h⟩ := h
  obtain ⟨hclaims, houtputs⟩ := addLiabilities_eq_ok hpaid
  have hprior := totalWei_settlementDistribution hprovider
  have hclaimed : TapEntry.totalWei (sortedDistributionEntries paid.perProvider) = priorClaimedWei prior +
        (required.map fun liability => liability.dueWei input.tapUsdAu payoutMinAu).sum := by
    rw [totalWei_sortedDistributionEntries, hclaims]
    dsimp only
    rw [hprior]
    rfl
  have hoperator : feeBps = operatorBps := by
    simp only [Input.tapLedgerFeeBps, checks_iff, ne_eq, not_not] at hfee
    obtain ⟨_, -, heq, rfl⟩ := hfee
    exact heq
  rw [hprior] at hspent
  subst h
  refine ⟨_, {
    due_ok := ?_
    feeBps_eq := hoperator
    claimedWei_eq := hclaimed
    providers_eq := rfl
    tapWei_eq := ?_
    spentWei_ok := hspent }⟩
  . rw [Input.dueWei, hmin, Except.bind_of_ok, hliabilities, Except.bind_of_ok, hreceipts,
      Except.bind_of_ok, hrequired]
    rfl
  . rw [Report.providerTapWei, houtputs]
    exact Nat.zero_add _

inductive Chain (crypto : Crypto) (host : RollerHost) : Option Report → Prop
  | start : Chain crypto host none
  | next {prior : Option Report} {input : Input} {report : Report} (hprior : Chain crypto host prior)
      (hbuild : buildTapSettlement crypto host input prior = .ok report) :
      Chain crypto host (some report)

theorem ceilDivBigInt_share (claimedWei : Nat) :
    ceilDivBigInt (claimedWei * bps) providerBps = (4 * claimedWei + 2) / 3 := by
  unfold ceilDivBigInt bps providerBps
  split
  . next _ =>
    have hclaimed : claimedWei = 0 := by omega
    rw [hclaimed]
  . omega

theorem nextCumulativeSpentWei_eq {spentWei claimedWei dueWei nextWei : Nat}
    (hspent : spentWei = (4 * claimedWei + 2) / 3)
    (h : nextCumulativeSpentWei spentWei claimedWei (claimedWei + dueWei) = .ok nextWei) :
    nextWei = (4 * (claimedWei + dueWei) + 2) / 3 := by
  simp only [nextCumulativeSpentWei, checks_iff] at h
  obtain ⟨-, -, -, rfl⟩ := h
  split
  . exact ceilDivBigInt_share _
  . next _ =>
    have hzero : dueWei = 0 := by omega
    rw [hzero, hspent]
    rfl

theorem Chain.spentWei_eq (h : Chain crypto host prior) :
    priorSpentWei prior = (4 * priorClaimedWei prior + 2) / 3 := by
  induction h with
  | start => rfl
  | @next prior _ _ _ hbuild ih =>
    obtain ⟨_, hbuilt⟩ := buildTapSettlement_eq_ok hbuild
    have hspent := hbuilt.spentWei_ok
    rw [hbuilt.claimedWei_eq] at hspent
    rw [hbuilt.providers_eq, hbuilt.claimedWei_eq]
    exact nextCumulativeSpentWei_eq ih hspent

theorem share_of_growth_iff (claimedWei dueWei : Nat) :
    dueWei = ((4 * (claimedWei + dueWei) + 2) / 3 - (4 * claimedWei + 2) / 3) * 7500 / 10000 ↔
      dueWei % 3 = 0 ∨ claimedWei % 3 = 0 ∨ claimedWei % 3 = 2 ∧ dueWei % 3 = 2 := by
  obtain ⟨a, i, hi, rfl⟩ : ∃ a i, i < 3 ∧ claimedWei = 3 * a + i :=
    ⟨claimedWei / 3, claimedWei % 3, by omega, by omega⟩
  obtain ⟨b, j, hj, rfl⟩ : ∃ b j, j < 3 ∧ dueWei = 3 * b + j := ⟨dueWei / 3, dueWei % 3, by omega, by omega⟩
  have hbefore : (4 * (3 * a + i) + 2) / 3 = 4 * a + (4 * i + 2) / 3 := by omega
  have hafter : (4 * (3 * a + i + (3 * b + j)) + 2) / 3 = 4 * a + 4 * b + (4 * (i + j) + 2) / 3 := by omega
  rw [hbefore, hafter]
  interval_cases i <;> interval_cases j <;> omega

theorem validateTapEntitlement_agrees_iff {split : TapSplit} {state : TapSettlementState}
    {spentWei claimedWei providerTapWei : Nat} :
    validateTapEntitlement split state spentWei claimedWei providerTapWei ≠
        .error "Targeted TAP provider entitlement does not match the historical fee/burn split." ↔
      spentWei ≤ state.cumulativeSpentWei ∨
        providerTapWei = (spentWei - state.cumulativeSpentWei) * split.providerShareBps / 10000 ∧
          claimedWei = state.cumulativeProviderClaimedWei + providerTapWei := by
  unfold validateTapEntitlement rejectIf
  by_cases hspent : spentWei ≤ state.cumulativeSpentWei
  . simp [hspent]
  . simp only [hspent, if_false, false_or, Except.bind_of_ok]
    split
    . next hmismatch =>
      rw [← not_and_or] at hmismatch
      exact iff_of_false (fun hne => hne rfl) hmismatch
    . next hmatch =>
      rw [not_or, not_not, not_not] at hmatch
      exact iff_of_true (by simp) hmatch

/--
The ledger accepts the split of a report exactly if the wei that are due leave no remainder by three, or the
claims before left none, or both leave two.
-/
theorem tap_split_agrees_iff {state : TapSettlementState} {split : TapSplit} {dueWei : Nat}
    (hchain : Chain crypto host prior) (hbuild : buildTapSettlement crypto host input prior = .ok report)
    (hsplit : targetedTapPayoutSplit report.ledgerFeeBps = .ok split)
    (hspent : state.cumulativeSpentWei = priorSpentWei prior)
    (hclaimed : state.cumulativeProviderClaimedWei = priorClaimedWei prior)
    (hdue : input.dueWei crypto host = .ok dueWei) :
    validateTapEntitlement split state report.cumulativeSpentWei report.providerClaimedWei
          report.providerTapWei ≠
        .error "Targeted TAP provider entitlement does not match the historical fee/burn split." ↔
      dueWei % 3 = 0 ∨ priorClaimedWei prior % 3 = 0 ∨ priorClaimedWei prior % 3 = 2 ∧ dueWei % 3 = 2 := by
  obtain ⟨_, hbuilt⟩ := buildTapSettlement_eq_ok hbuild
  obtain rfl := Except.ok.inj (hdue.symm.trans hbuilt.due_ok)
  have hshare : split.providerShareBps = 7500 := by
    rw [hbuilt.feeBps_eq] at hsplit
    obtain rfl := Except.ok.inj hsplit
    rfl
  have hnext : report.cumulativeSpentWei = (4 * (priorClaimedWei prior + dueWei) + 2) / 3 := by
    have hok := hbuilt.spentWei_ok
    rw [hbuilt.claimedWei_eq] at hok
    exact nextCumulativeSpentWei_eq hchain.spentWei_eq hok
  rw [validateTapEntitlement_agrees_iff, hspent, hclaimed, hshare, hbuilt.claimedWei_eq, hbuilt.tapWei_eq,
    hnext, hchain.spentWei_eq, ← share_of_growth_iff]
  -- a settlement that does not spend anything pays nothing
  omega

def weiReceipt (n : Nat) : ReceiptEntry where
  envelope := plainReceipt n .tap ⟨"audio_second", 1, 1⟩ 1
  epoch := some 1
  settleAu := none
  previousAuOwedCum := none
  providerRefs := none
  contributionWeightsBps := none
  tapAddress := none

def weiInput (n : Nat) : Input where
  receipts := [weiReceipt n]
  bundleEpoch := none
  buyerRefunds := []
  buyerAccounts := .empty
  tapUsdAu := tapWei
  ledgerFeeBps := some 1500
  topLevelPayoutMinAu := none
  payoutMinAu := [1]
  settleThroughEpoch := some 9
  challengeEpochs := 6
  holdbackEpochs := 0
  sessionBindings := Table.empty.put (1, 20, 100 + n) ⟨30, 4, 1, Ledger.stintTarget .tap 4⟩
  liabilities := [⟨30, 4, .tap, Ledger.stintTarget .tap 4, 1, n + 1, 0, n, n, 1⟩]

def weiRoller : RollerHost := { Ledger.plainPayoutHost with getAddress := some }

def weiState (spentWei claimedWei : Nat) : TapSettlementState :=
  ⟨⟨⟨1, 50⟩, 51, 1⟩, 1, spentWei, claimedWei, 0⟩

/--
Nothing has been rounded up before the first settlement.
-/
theorem tap_split_agrees_first :
    ∃ report, buildTapSettlement plainHost weiRoller (weiInput 0) none = .ok report ∧
      report.providerTapWei = 1 ∧
      validateTapEntitlement ⟨1500, 1000, 7500⟩ (weiState 0 0) report.cumulativeSpentWei
          report.providerClaimedWei report.providerTapWei ≠
        .error "Targeted TAP provider entitlement does not match the historical fee/burn split." := by
  have hfacts : (match buildTapSettlement plainHost weiRoller (weiInput 0) none with
      | .error _ => false
      | .ok report => report.providerTapWei == 1 && report.ledgerFeeBps == 1500) = true := by
    decide +kernel
  have hdue : (weiInput 0).dueWei plainHost weiRoller = .ok 1 := by decide +kernel
  generalize weiInput 0 = input, plainHost = crypto, weiRoller = host at *
  split at hfacts
  . cases hfacts
  . next report hbuild =>
    simp only [Bool.and_eq_true, beq_iff_eq] at hfacts
    have hsplit : targetedTapPayoutSplit report.ledgerFeeBps = .ok ⟨1500, 1000, 7500⟩ := by
      rw [hfacts.2]
      rfl
    have hspent : (weiState 0 0).cumulativeSpentWei = priorSpentWei none := rfl
    have hclaimed : (weiState 0 0).cumulativeProviderClaimedWei = priorClaimedWei none := rfl
    have hagrees := (tap_split_agrees_iff .start hbuild hsplit hspent hclaimed hdue).mpr
      (.inr (.inl rfl))
    exact ⟨report, hbuild, hfacts.1, hagrees⟩

/--
The second of two settlements of one wei each, for which the share of the wei in between is nothing.
-/
theorem second_wei_rejected :
    ∃ first second, buildTapSettlement plainHost weiRoller (weiInput 0) none = .ok first ∧
      buildTapSettlement plainHost weiRoller (weiInput 1) (some first) = .ok second ∧
      first.cumulativeSpentWei = 2 ∧ first.providerClaimedWei = 1 ∧
      targetedTapPayoutSplit second.ledgerFeeBps = .ok ⟨1500, 1000, 7500⟩ ∧
      validateTapEntitlement ⟨1500, 1000, 7500⟩ (weiState 2 1) second.cumulativeSpentWei
          second.providerClaimedWei second.providerTapWei =
        .error "Targeted TAP provider entitlement does not match the historical fee/burn split." := by
  have hfacts : (match buildTapSettlement plainHost weiRoller (weiInput 0) none with
      | .error _ => false
      | .ok first =>
        first.cumulativeSpentWei == 2 && first.providerClaimedWei == 1 &&
          match buildTapSettlement plainHost weiRoller (weiInput 1) (some first) with
          | .error _ => false
          | .ok second => second.cumulativeSpentWei == 3 && second.providerClaimedWei == 2 &&
              second.providerTapWei == 1 && second.ledgerFeeBps == 1500) = true := by decide +kernel
  generalize weiInput 0 = input, weiInput 1 = next, plainHost = crypto, weiRoller = host at *
  split at hfacts
  . cases hfacts
  . next first hfirst =>
    simp only [Bool.and_eq_true, beq_iff_eq] at hfacts
    obtain ⟨⟨hspent, hclaimed⟩, hfacts⟩ := hfacts
    split at hfacts
    . cases hfacts
    . next second hsecond =>
      simp only [Bool.and_eq_true, beq_iff_eq] at hfacts
      obtain ⟨⟨⟨hspent', hclaimed'⟩, hwei⟩, hfee⟩ := hfacts
      refine ⟨first, second, hfirst, hsecond, hspent, hclaimed, ?_, ?_⟩
      . rw [hfee]
        rfl
      . rw [hspent', hclaimed', hwei]
        decide +kernel

end Mayhem.Roller
