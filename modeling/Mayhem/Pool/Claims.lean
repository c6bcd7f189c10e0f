import Mayhem.Lib.Holdings
import Mayhem.Pool.Burn

namespace Mayhem.Pool

structure Payment where
  account : Address
  cumulativeAmount : Nat
  received : Nat

def World.payments (d : Deployment) (w : World) (call : Call) : List Payment :=
  match w.exec d call, call.action with
  | .ok w', .claim _ account cumulativeAmount _ =>
    [⟨account, cumulativeAmount, w'.token.balanceOf account - w.token.balanceOf account⟩]
  | _, _ => []

def receivedBy (account : Address) (log : List Payment) : Nat :=
  ((log.filter fun payment => payment.account = account).map Payment.received).sum

def largestClaim (account : Address) (log : List Payment) : Nat :=
  ((log.filter fun payment => payment.account = account).map Payment.cumulativeAmount).foldl max 0

inductive PaidStep (d : Deployment) : World × List Payment → World × List Payment → Prop
  | call (w : World) (log : List Payment) (call : Call) (hsender : call.sender ≠ d.self)
      (hspaced : burnShare w.pool.cumulativeSpent ≤ burnShare (w.after d call).pool.cumulativeSpent) :
      PaidStep d (w, log) (w.after d call, log ++ w.payments d call)

structure Presentable (d : Deployment) (roots : Nat → Word) (rootEpoch : Nat) (account : Address) (amount : Nat)
    (proof : List Word) : Prop where
  account_ne : account ≠ zeroAddress
  account_ne_self : account ≠ d.self
  recorded : roots rootEpoch ≠ 0
  verified : d.verifyProof proof (roots rootEpoch) (d.leaf account amount) = true

def Provable (d : Deployment) (roots : Nat → Word) (account : Address) (amount : Nat) : Prop :=
  ∃ rootEpoch proof, Presentable d roots rootEpoch account amount proof

variable {d : Deployment} {w w' : World} {log : List Payment} {rootEpoch amount : Nat} {account : Address}
  {proof : List Word}

theorem claim_eq_ok (h : Pool.claim d w rootEpoch account amount proof = .ok w') :
    Presentable d w.pool.merkleRootAtEpoch rootEpoch account amount proof ∧ w.pool.claimed account < amount ∧
      w'.token = w.token.move d.self account (amount - w.pool.claimed account) := by
  simp only [Pool.claim, checks_iff, not_or, Nat.not_le, Bool.not_eq_false] at h
  obtain ⟨⟨hzero, hself⟩, hroot, hproof, hlt, _, -, -, _, htoken, rfl⟩ := h
  exact ⟨⟨hzero, hself, hroot, hproof⟩, hlt, Erc20.transfer_eq_ok htoken⟩

theorem claim_accepts (hself : d.self ≠ zeroAddress) (hsolvent : Solvent d w)
    (hdeposited : w.pool.totalDeposited ≤ maxUint256)
    (hpresent : Presentable d w.pool.merkleRootAtEpoch rootEpoch account amount proof)
    (hlt : w.pool.claimed account < amount)
    (hfits : w.pool.totalClaimed + (amount - w.pool.claimed account) + w.pool.operatorWithdrawn +
      w.pool.totalBurned ≤ w.pool.totalDeposited) :
    ∃ w', Pool.claim d w rootEpoch account amount proof = .ok w' := by
  have hbacked := hsolvent.backed
  unfold State.outflow at hbacked
  have hconserved : conservation { w.pool with
      claimed := Function.update w.pool.claimed account amount
      totalClaimed := w.pool.totalClaimed + (amount - w.pool.claimed account) } = .ok () :=
    conservation_accepts hdeposited (by dsimp only; omega)
  simp only [Pool.claim, Erc20.transfer, checkedAdd, checks_iff]
  refine ⟨_, ?_, hpresent.recorded, ?_, by omega, _, ⟨by omega, rfl⟩, hconserved, _, ⟨hself, hpresent.account_ne,
    by omega, rfl⟩, rfl⟩
  . exact not_or.mpr ⟨hpresent.account_ne, hpresent.account_ne_self⟩
  . rw [hpresent.verified]
    exact Bool.noConfusion

theorem receivedBy_append (account : Address) (log : List Payment) (payment : Payment) :
    receivedBy account (log ++ [payment]) =
      receivedBy account log + if payment.account = account then payment.received else 0 := by
  unfold receivedBy
  by_cases h : payment.account = account <;> simp [h]

theorem largestClaim_append (account : Address) (log : List Payment) (payment : Payment) :
    largestClaim account (log ++ [payment]) =
      max (largestClaim account log) (if payment.account = account then payment.cumulativeAmount else 0) := by
  unfold largestClaim
  by_cases h : payment.account = account <;> simp [h]

structure ClaimsSound (d : Deployment) (pool : State) (log : List Payment) : Prop where
  received_eq : ∀ account, receivedBy account log = pool.claimed account
  largest_eq : ∀ account, largestClaim account log = pool.claimed account
  provable : ∀ account, pool.claimed account ≠ 0 →
    Provable d pool.merkleRootAtEpoch account (pool.claimed account)
  recorded_le : ∀ epoch, pool.merkleRootAtEpoch epoch ≠ 0 → epoch ≤ pool.epoch
  total_eq : Holdings.Change (fun _ => 0) pool.claimed pool.totalClaimed

namespace ClaimsSound

variable {pool : State}

theorem claimed (h : ClaimsSound d pool log) (hlt : pool.claimed account < amount) :
    Holdings.Change (fun _ => 0) (Function.update pool.claimed account amount)
      ((pool.totalClaimed + (amount - pool.claimed account) : Nat) : ℤ) := by
  have hsingle := Holdings.Change.single (v := pool.claimed) (w := Function.update pool.claimed account amount)
    account fun other hne => Function.update_of_ne hne _ _
  rw [Function.update_self] at hsingle
  have htotal := h.total_eq.trans hsingle
  rw [show ((pool.totalClaimed + (amount - pool.claimed account) : Nat) : ℤ) =
    pool.totalClaimed + ((amount : ℤ) - pool.claimed account) by omega]
  exact htotal

theorem claim (h : ClaimsSound d pool log)
    (hpresent : Presentable d pool.merkleRootAtEpoch rootEpoch account amount proof)
    (hlt : pool.claimed account < amount) :
    ClaimsSound d { pool with
      claimed := Function.update pool.claimed account amount
      totalClaimed := pool.totalClaimed + (amount - pool.claimed account) }
      (log ++ [⟨account, amount, amount - pool.claimed account⟩]) where
  received_eq other := by
    rw [receivedBy_append, h.received_eq]
    dsimp only
    rw [Function.update_apply]
    by_cases hsame : other = account
    . subst hsame
      rw [if_pos rfl, if_pos rfl]
      omega
    . rw [if_neg (Ne.symm hsame), if_neg hsame, Nat.add_zero]
  largest_eq other := by
    rw [largestClaim_append, h.largest_eq]
    dsimp only
    rw [Function.update_apply]
    by_cases hsame : other = account
    . subst hsame
      rw [if_pos rfl, if_pos rfl]
      omega
    . rw [if_neg (Ne.symm hsame), if_neg hsame, Nat.max_zero]
  provable other hother := by
    dsimp only at hother ⊢
    rw [Function.update_apply] at hother ⊢
    by_cases hsame : other = account
    . subst hsame
      rw [if_pos rfl]
      exact ⟨rootEpoch, proof, hpresent⟩
    . rw [if_neg hsame] at hother ⊢
      exact h.provable other hother
  recorded_le := h.recorded_le
  total_eq := h.claimed hlt

theorem executeRoot (h : ClaimsSound d pool log) {root : Word} {epoch : Nat} (hlt : pool.epoch < epoch)
    {pool' : State} (hclaimed : pool'.claimed = pool.claimed) (htotal : pool'.totalClaimed = pool.totalClaimed)
    (hepoch : pool'.epoch = epoch)
    (hroots : pool'.merkleRootAtEpoch = Function.update pool.merkleRootAtEpoch epoch root) :
    ClaimsSound d pool' log where
  received_eq := by
    rw [hclaimed]
    exact h.received_eq
  largest_eq := by
    rw [hclaimed]
    exact h.largest_eq
  provable other hother := by
    rw [hclaimed] at hother ⊢
    obtain ⟨rootEpoch, proof, hpresent⟩ := h.provable other hother
    -- the epoch of a new root is above all recorded ones
    have hle := h.recorded_le rootEpoch hpresent.recorded
    have hkept : pool'.merkleRootAtEpoch rootEpoch = pool.merkleRootAtEpoch rootEpoch := by
      rw [hroots, Function.update_of_ne (by omega)]
    refine ⟨rootEpoch, proof, hpresent.account_ne, hpresent.account_ne_self, ?_, ?_⟩
    . rw [hkept]
      exact hpresent.recorded
    . rw [hkept]
      exact hpresent.verified
  recorded_le other hother := by
    rw [hepoch]
    rw [hroots, Function.update_apply] at hother
    by_cases hsame : other = epoch
    . exact hsame.le
    . rw [if_neg hsame] at hother
      exact (h.recorded_le other hother).trans hlt.le
  total_eq := by
    rw [hclaimed, htotal]
    exact h.total_eq

theorem after (h : ClaimsSound d w.pool log) (call : Call) :
    ClaimsSound d (w.after d call).pool (log ++ w.payments d call) := by
  unfold World.after World.payments
  cases hexec : w.exec d call with
  | error _ =>
    rw [List.append_nil]
    exact h
  | ok w' =>
    have heffect := World.exec_effect hexec
    obtain ⟨_, _, _⟩ := call
    dsimp only at heffect ⊢
    generalize hpool : w'.pool = pool at heffect ⊢
    cases heffect with
    | claim _ account amount =>
      obtain ⟨hpresent, hlt, htoken⟩ := claim_eq_ok hexec
      have hreceived : w'.token.balanceOf account - w.token.balanceOf account =
        amount - w.pool.claimed account := by
        rw [htoken, Erc20.balanceOf_move_target _ _ hpresent.account_ne_self.symm]
        omega
      dsimp only
      rw [hreceived]
      exact h.claim hpresent hlt
    | executeRoot _ _ _ _ hvalid =>
      rw [List.append_nil]
      exact h.executeRoot hvalid.epoch_lt rfl rfl rfl rfl
    | _ =>
      rw [List.append_nil]
      exact ⟨h.received_eq, h.largest_eq, h.provable, h.recorded_le, h.total_eq⟩

theorem deploy {owner : Address} {maxEpochDelta : Nat} (hdeploy : deploy d owner maxEpochDelta = .ok pool) :
    ClaimsSound d pool [] := by
  simp only [Pool.deploy, checks_iff] at hdeploy
  obtain ⟨-, -, -, -, -, rfl⟩ := hdeploy
  exact ⟨fun _ => rfl, fun _ => rfl, fun _ hclaimed => absurd rfl hclaimed, fun _ hrecorded =>
    absurd rfl hrecorded,
    .of_eq fun _ => rfl⟩

variable {best : Address → Nat} {accounts : Finset Address}

theorem claimed_le (h : ClaimsSound d pool log)
    (hbest : ∀ account amount, Provable d pool.merkleRootAtEpoch account amount → amount ≤ best account)
    (account : Address) : pool.claimed account ≤ best account := by
  by_cases hzero : pool.claimed account = 0
  . rw [hzero]
    exact Nat.zero_le _
  . exact hbest account _ (h.provable account hzero)

end ClaimsSound

theorem total_le {claimed best : Address → Nat} {accounts : Finset Address} {total : Nat}
    (h : Holdings.Change (fun _ => 0) claimed total) (hle : ∀ account, claimed account ≤ best account)
    (haccounts : ∀ account ∉ accounts, best account = 0) : total ≤ ∑ account ∈ accounts, best account := by
  obtain ⟨parties, hsame, hsum⟩ := h
  have hzero : ∀ account ∉ accounts, claimed account = 0 := by
    intro account hmem
    have := hle account
    rw [haccounts account hmem] at this
    omega
  have hleft : parties ⊆ parties ∪ accounts := Finset.subset_union_left
  have hright : accounts ⊆ parties ∪ accounts := Finset.subset_union_right
  have htotal : (total : ℤ) ≤ ∑ account ∈ accounts, (best account : ℤ) := by
    rw [← hsum, ← Holdings.Change.sum_eq_of_subset hleft hsame, Holdings.Change.sum_eq_of_subset hright hzero]
    apply Finset.sum_le_sum
    intro account _
    have := hle account
    simpa using this
  exact_mod_cast htotal

/--
An account has received its largest accepted claim, in whatever order claims come. If all shares are deposited,
the largest provable claim is only refused to an account that has received it.
-/
theorem claims_order_independent {owner : Address} {maxEpochDelta : Nat} {pool : State} {token : Erc20 Address}
    (hself : d.self ≠ zeroAddress) (hdeploy : deploy d owner maxEpochDelta = .ok pool)
    (hfresh : ∀ spender, token.allowance d.self spender = 0)
    (hrun : Relation.ReflTransGen (PaidStep d) (⟨token, pool⟩, []) (w, log)) :
    (∀ account, receivedBy account log = largestClaim account log) ∧
    ∀ (best : Address → Nat) (accounts : Finset Address),
      (∀ account amount, Provable d w.pool.merkleRootAtEpoch account amount → amount ≤ best account) →
      (∀ account ∉ accounts, best account = 0) →
      ∑ account ∈ accounts, best account + operatorShare w.pool.cumulativeSpent +
        burnShare w.pool.cumulativeSpent ≤ w.pool.totalDeposited →
      ∀ rootEpoch account proof, Presentable d w.pool.merkleRootAtEpoch rootEpoch account (best account) proof →
        (∃ w', Pool.claim d w rootEpoch account (best account) proof = .ok w') ∨
          receivedBy account log = best account := by
  have hinv : ClaimsSound d w.pool log ∧ Solvent d w ∧ ShareBounds w.pool := by
    refine Run.invariant (fun state => ClaimsSound d state.1.pool state.2 ∧ Solvent d state.1 ∧
      ShareBounds state.1.pool) ⟨.deploy hdeploy, solvent_deploy hdeploy hfresh,
        shareBounds_deploy hdeploy⟩ ?_ hrun
    rintro _ _ ⟨hsound, hsolvent, hbounds⟩ ⟨w, log, call, hsender, hspaced⟩
    exact ⟨hsound.after call, hsolvent.after hsender, hbounds.after hspaced⟩
  obtain ⟨hsound, hsolvent, hbounds⟩ := hinv
  refine ⟨fun account => (hsound.received_eq account).trans (hsound.largest_eq account).symm, ?_⟩
  intro best accounts hbest haccounts _ rootEpoch account proof hpresent
  have hle := hsound.claimed_le hbest
  rcases Nat.eq_or_lt_of_le (hle account) with hreceived | hlt
  . exact .inr ((hsound.received_eq account).trans hreceived)
  . left
    have hupdated : ∀ other, Function.update w.pool.claimed account (best account) other ≤ best other := by
      intro other
      rw [Function.update_apply]
      split
      . next hsame => rw [hsame]
      . exact hle other
    have htotal := total_le (hsound.claimed hlt) hupdated haccounts
    have hburned := hbounds.burned
    have hwithdrawn := hbounds.withdrawn
    exact claim_accepts hself hsolvent hbounds.deposited hpresent hlt (by omega)

def leafDeployment : Deployment :=
  { localDeployment with leaf := fun account amount => Nat.pair account amount + 1 }

def leafRoots (first second : Nat) : Nat → Word :=
  Function.update (Function.update (fun _ => 0) 1 (leafDeployment.leaf 8 first)) 2 (leafDeployment.leaf 8 second)

def leafBest (amount : Nat) (account : Address) : Nat := if account = 8 then amount else 0

theorem provable_leafRoots {first second : Nat} (hle : first ≤ second) {account : Address} {amount : Nat}
    (h : Provable leafDeployment (leafRoots first second) account amount) : amount ≤ leafBest second account := by
  obtain ⟨rootEpoch, _, -, -, _, hverified⟩ := h
  have hroot : leafRoots first second rootEpoch = Nat.pair account amount + 1 := by
    simpa [leafDeployment, localDeployment] using hverified
  have hpair : account = 8 ∧ (amount = second ∨ amount = first) := by
    unfold leafRoots at hroot
    rw [Function.update_apply, Function.update_apply] at hroot
    split at hroot
    . obtain ⟨haccount, hamount⟩ := Nat.pair_eq_pair.mp (Nat.succ.inj hroot)
      exact ⟨haccount.symm, .inl hamount.symm⟩
    . split at hroot
      . obtain ⟨haccount, hamount⟩ := Nat.pair_eq_pair.mp (Nat.succ.inj hroot)
        exact ⟨haccount.symm, .inr hamount.symm⟩
      . cases hroot
  rw [leafBest, if_pos hpair.1]
  omega

def leafCalls (deposited spent spent' first second : Nat) (between : Action) : List Call :=
  [⟨7, 0, .approve 1 100⟩,
  ⟨7, 1, .deposit deposited⟩,
  ⟨2, 2, .proposeRoot (leafDeployment.leaf 8 first) 1 spent 3⟩,
  ⟨9, 7, .executeRoot⟩,
  ⟨9, 8, between⟩,
  ⟨2, 9, .proposeRoot (leafDeployment.leaf 8 second) 2 spent' 3⟩,
  ⟨9, 14, .executeRoot⟩,
  ⟨2, 15, .withdrawOperator 2 1⟩]

def payNext (state : World × List Payment) (call : Call) : World × List Payment :=
  (state.1.after leafDeployment call, state.2 ++ state.1.payments leafDeployment call)

def leafAt (calls : List Call) (index : Nat) : World × List Payment :=
  Trace.stateAt payNext (⟨localToken, initialState 2 0⟩, []) calls index

def paidCalls : List Call := leafCalls 60 20 40 9 20 (.claim 1 8 9 [])

theorem claims_order_independent_twice :
    receivedBy 8 (leafAt paidCalls 8).2 = 9 ∧ largestClaim 8 (leafAt paidCalls 8).2 = 9 ∧
    ∃ w', Pool.claim leafDeployment (leafAt paidCalls 8).1 2 8 20 [] = .ok w' := by
  have hdeploy : deploy leafDeployment 2 0 = .ok (initialState 2 0) := rfl
  have hspaced : ∀ index, (hindex : index < paidCalls.length) → paidCalls[index].sender ≠ leafDeployment.self ∧
      burnShare (leafAt paidCalls index).1.pool.cumulativeSpent ≤
        burnShare ((leafAt paidCalls index).1.after leafDeployment paidCalls[index]).pool.cumulativeSpent := by
    decide +kernel
  have hrun : Relation.ReflTransGen (PaidStep leafDeployment) (⟨localToken, initialState 2 0⟩, [])
      (leafAt paidCalls 8) := by
    apply Trace.reaches
    intro index hindex
    exact .call _ _ _ (hspaced index hindex).1 (hspaced index hindex).2
  obtain ⟨hlargest, hclaimable⟩ := @claims_order_independent leafDeployment (leafAt paidCalls 8).1
    (leafAt paidCalls 8).2 _ _ _ _ (by decide) hdeploy (fun _ => rfl) hrun
  have hreceived : receivedBy 8 (leafAt paidCalls 8).2 = 9 := by decide +kernel
  refine ⟨hreceived, (hlargest 8).symm.trans hreceived, ?_⟩
  have hroots : (leafAt paidCalls 8).1.pool.merkleRootAtEpoch = leafRoots 9 20 := rfl
  have hpresent : Presentable leafDeployment (leafRoots 9 20) 2 8 20 [] :=
    ⟨by decide, by decide, by decide +kernel, by decide +kernel⟩
  rw [hroots] at hclaimable
  rcases hclaimable (leafBest 20) {8} (fun _ _ => provable_leafRoots (by decide))
    (fun account hmem => if_neg (by simpa using hmem)) (by decide +kernel) 2 8 [] hpresent with hok | hall
  . exact hok
  . rw [hreceived] at hall
    cases hall

def refusedCalls : List Call := leafCalls 7 6 7 4 5 .burn

def refusedWorld : World := (leafAt refusedCalls 8).1

theorem largest_claim_refused :
    Relation.ReflTransGen (Step leafDeployment) ⟨localToken, initialState 2 0⟩ refusedWorld ∧
    (∀ account amount, Provable leafDeployment refusedWorld.pool.merkleRootAtEpoch account amount →
      amount ≤ leafBest 5 account) ∧
    (∀ account ∉ ({8} : Finset Address), leafBest 5 account = 0) ∧
    ∑ account ∈ {8}, leafBest 5 account + operatorShare refusedWorld.pool.cumulativeSpent +
      burnShare refusedWorld.pool.cumulativeSpent ≤ refusedWorld.pool.totalDeposited ∧
    Presentable leafDeployment refusedWorld.pool.merkleRootAtEpoch 2 8 (leafBest 5 8) [] ∧
    (Pool.claim leafDeployment refusedWorld 2 8 (leafBest 5 8) []).message = some "conservation" ∧
    refusedWorld.pool.claimed 8 = 0 := by
  have hroots : refusedWorld.pool.merkleRootAtEpoch = leafRoots 4 5 := rfl
  have hsender : ∀ index, (hindex : index < refusedCalls.length) →
      refusedCalls[index].sender ≠ leafDeployment.self := by decide +kernel
  have hrun : Relation.ReflTransGen (fun before after => Step leafDeployment before.1 after.1)
      (⟨localToken, initialState 2 0⟩, []) (leafAt refusedCalls 8) :=
    Trace.reaches fun index hindex => .call _ _ (hsender index hindex)
  refine ⟨hrun.lift Prod.fst fun _ _ h => h, ?_, ?_, by decide +kernel, ?_, by decide +kernel, by decide +kernel⟩
  . rw [hroots]
    exact fun _ _ => provable_leafRoots (by decide)
  . exact fun account hmem => if_neg (by simpa using hmem)
  . rw [hroots]
    exact ⟨by decide, by decide, by decide +kernel, by decide +kernel⟩

end Mayhem.Pool
