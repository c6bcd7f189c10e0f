import Mayhem.Pool

namespace Mayhem.Pool

theorem checkedAdd_le {a b c : Nat} (h : checkedAdd a b = .ok c) : a + b ≤ maxUint256 := by
  simp only [checkedAdd, checks_iff, Nat.not_lt] at h
  exact h.1

theorem checkedMul_eq_ok {a b c : Nat} (h : checkedMul a b = .ok c) : c = a * b := by
  simp only [checkedMul, checks_iff] at h
  exact h.2.symm

structure ValidRoot (pool : State) (newRoot : Word) (newEpoch newCumulativeSpent : Nat) : Prop where
  root_ne : newRoot ≠ 0
  epoch_lt : pool.epoch < newEpoch
  spent_le : pool.cumulativeSpent ≤ newCumulativeSpent
  spent_le_deposited : newCumulativeSpent ≤ pool.totalDeposited
  capped : 0 < pool.maxEpochDelta → newCumulativeSpent - pool.cumulativeSpent ≤ pool.maxEpochDelta

inductive Effect (d : Deployment) (pool : State) (sender : Address) (time : Nat) : Action → State → Prop
  | transferOwnership (newOwner : Address) (howner : sender = pool.owner)
      (hother : newOwner ≠ d.governanceSigner) :
      Effect d pool sender time (.transferOwnership newOwner) { pool with pendingOwner := newOwner }
  | acceptOwnership (hpending : pool.pendingOwner = sender) : Effect d pool sender time .acceptOwnership
        { pool with owner := sender, pendingOwner := zeroAddress }
  | proposeMaxEpochDelta (newMax : Nat) (signature : Word) (howner : sender = pool.owner)
      (hroot : pool.pendingRoot.executeAfter = 0)
      (hvalid : isLocalDevelopmentChain d = true ∨ newMax ≠ 0)
      (hsigned : d.recoverMaxEpochDelta newMax pool.governanceNonce signature = d.governanceSigner) :
      Effect d pool sender time (.proposeMaxEpochDelta newMax signature) { pool with
        governanceNonce := pool.governanceNonce + 1
        pendingMaxEpochDelta := ⟨newMax, pool.governanceNonce, time + d.governanceDelay⟩ }
  | executeMaxEpochDelta (hpending : pool.pendingMaxEpochDelta.executeAfter ≠ 0)
      (hdue : pool.pendingMaxEpochDelta.executeAfter ≤ time)
      (hvalid : isLocalDevelopmentChain d = true ∨ pool.pendingMaxEpochDelta.newMaxEpochDelta ≠ 0) :
      Effect d pool sender time .executeMaxEpochDelta { pool with
        pendingMaxEpochDelta := noMaxEpochDelta
        maxEpochDelta := pool.pendingMaxEpochDelta.newMaxEpochDelta }
  | deposit (amount received : Nat) (hdeposited : pool.totalDeposited + received ≤ maxUint256) :
      Effect d pool sender time (.deposit amount)
        { pool with totalDeposited := pool.totalDeposited + received }
  | proposeRoot (newRoot : Word) (newEpoch newCumulativeSpent : Nat) (signature : Word)
      (howner : sender = pool.owner) (hcap : pool.pendingMaxEpochDelta.executeAfter = 0)
      (hvalid : ValidRoot pool newRoot newEpoch newCumulativeSpent)
      (hsigned : d.recoverRoot newRoot newEpoch newCumulativeSpent pool.epoch pool.cumulativeSpent
        pool.governanceNonce signature = d.governanceSigner) :
      Effect d pool sender time (.proposeRoot newRoot newEpoch newCumulativeSpent signature) { pool with
        governanceNonce := pool.governanceNonce + 1
        pendingRoot := ⟨newRoot, newEpoch, newCumulativeSpent, pool.epoch, pool.cumulativeSpent,
          pool.governanceNonce, time + d.governanceDelay⟩ }
  | executeRoot (hpending : pool.pendingRoot.executeAfter ≠ 0)
      (hdue : pool.pendingRoot.executeAfter ≤ time)
      (hepoch : pool.epoch = pool.pendingRoot.previousEpoch)
      (hspent : pool.cumulativeSpent = pool.pendingRoot.previousCumulativeSpent)
      (hvalid : ValidRoot pool pool.pendingRoot.merkleRoot pool.pendingRoot.newEpoch
        pool.pendingRoot.newCumulativeSpent) :
      Effect d pool sender time .executeRoot { pool with
        pendingRoot := noRoot
        merkleRoot := pool.pendingRoot.merkleRoot
        merkleRootAtEpoch := Function.update pool.merkleRootAtEpoch pool.pendingRoot.newEpoch
          pool.pendingRoot.merkleRoot
        epoch := pool.pendingRoot.newEpoch
        cumulativeSpent := pool.pendingRoot.newCumulativeSpent }
  | claim (rootEpoch : Nat) (account : Address) (cumulativeAmount : Nat) (proof : List Word) :
      Effect d pool sender time (.claim rootEpoch account cumulativeAmount proof) { pool with
        claimed := Function.update pool.claimed account cumulativeAmount
        totalClaimed := pool.totalClaimed + (cumulativeAmount - pool.claimed account) }
  | withdrawOperator (target : Address) (amount : Nat)
      (hcap : amount ≤ pool.cumulativeSpent * operatorBps / bps - pool.operatorWithdrawn) :
      Effect d pool sender time (.withdrawOperator target amount)
        { pool with operatorWithdrawn := pool.operatorWithdrawn + amount }
  | burn : Effect d pool sender time .burn { pool with totalBurned := pool.totalBurned +
        (pool.cumulativeSpent - pool.cumulativeSpent * providerBps / bps -
          pool.cumulativeSpent * operatorBps / bps - pool.totalBurned) }
  | proposeRescue (target : Address) (amount : Nat) (signature : Word) (howner : sender = pool.owner)
      (hsigned : d.recoverRescue target amount pool.governanceNonce signature = d.governanceSigner) :
      Effect d pool sender time (.proposeRescue target amount signature) { pool with
        governanceNonce := pool.governanceNonce + 1
        pendingRescue := ⟨target, amount, pool.governanceNonce, time + d.governanceDelay⟩ }
  | executeRescue : Effect d pool sender time .executeRescue { pool with pendingRescue := noRescue }
  | transfer (target : Address) (amount : Nat) : Effect d pool sender time (.transfer target amount) pool
  | approve (spender : Address) (amount : Nat) : Effect d pool sender time (.approve spender amount) pool
  | transferFrom (source target : Address) (amount : Nat) :
      Effect d pool sender time (.transferFrom source target amount) pool
  | mint (target : Address) (amount : Nat) : Effect d pool sender time (.mint target amount) pool

variable {d : Deployment} {w w' : World} {sender : Address} {time : Nat}

theorem executeAfter_eq_ok {due : Nat} (h : executeAfter d time = .ok due) : due = time + d.governanceDelay := by
  simp only [executeAfter, checks_iff] at h
  exact h.2.symm

theorem validateMaxEpochDelta_eq_ok {value : Nat} (h : validateMaxEpochDelta d value = .ok ()) :
    isLocalDevelopmentChain d = true ∨ value ≠ 0 := by
  simp only [validateMaxEpochDelta, checks_iff, not_and_or, not_not] at h
  exact h

theorem validateRoot_eq_ok {newRoot : Word} {newEpoch newCumulativeSpent : Nat}
    (h : validateRoot w newRoot newEpoch newCumulativeSpent = .ok ()) :
    ValidRoot w.pool newRoot newEpoch newCumulativeSpent := by
  simp only [validateRoot, checks_iff, Nat.not_le, Nat.not_lt, not_and] at h
  obtain ⟨hroot, hepoch, hspent, hdeposited, hcapped⟩ := h
  exact ⟨hroot, hepoch, hspent, hdeposited, hcapped⟩

theorem operatorClaimable_eq_ok {claimable : Nat} (h : operatorClaimable w = .ok claimable) :
    claimable = w.pool.cumulativeSpent * operatorBps / bps - w.pool.operatorWithdrawn := by
  simp only [operatorClaimable, checks_iff] at h
  obtain ⟨_, hscaled, rfl⟩ := h
  rw [checkedMul_eq_ok hscaled]

theorem burnClaimable_eq_ok {amount : Nat} (h : burnClaimable w = .ok amount) :
    amount = w.pool.cumulativeSpent - w.pool.cumulativeSpent * providerBps / bps -
      w.pool.cumulativeSpent * operatorBps / bps - w.pool.totalBurned := by
  simp only [burnClaimable, checks_iff] at h
  obtain ⟨_, hprovider, _, hoperator, _, hafter, _, hcap, rfl⟩ := h
  rw [(checkedSub_eq_ok hcap).2, (checkedSub_eq_ok hafter).2, checkedMul_eq_ok hprovider,
    checkedMul_eq_ok hoperator]

theorem World.exec_effect {call : Call} (hexec : w.exec d call = .ok w') :
    Effect d w.pool call.sender call.time call.action w'.pool := by
  obtain ⟨sender, time, action⟩ := call
  cases action with
  | transferOwnership newOwner =>
    simp only [World.exec, Pool.transferOwnership, onlyOwner, checks_iff, not_not, ne_eq] at hexec
    obtain ⟨howner, hother, rfl⟩ := hexec
    exact .transferOwnership newOwner howner hother
  | acceptOwnership =>
    simp only [World.exec, Pool.acceptOwnership, checks_iff, not_not, ne_eq] at hexec
    obtain ⟨hpending, rfl⟩ := hexec
    exact .acceptOwnership hpending
  | proposeMaxEpochDelta newMax signature =>
    simp only [World.exec, Pool.proposeMaxEpochDelta, onlyOwner, checks_iff, not_not, ne_eq] at hexec
    obtain ⟨howner, -, hroot, -, hvalid, hsigned, _, hnonce, _, hdue, rfl⟩ := hexec
    obtain rfl := checkedAdd_eq_ok hnonce
    obtain rfl := executeAfter_eq_ok hdue
    exact .proposeMaxEpochDelta newMax signature howner hroot (validateMaxEpochDelta_eq_ok hvalid) hsigned
  | executeMaxEpochDelta =>
    simp only [World.exec, Pool.executeMaxEpochDelta, checks_iff, Nat.not_lt, ne_eq] at hexec
    obtain ⟨hpending, hdue, -, hvalid, rfl⟩ := hexec
    exact .executeMaxEpochDelta hpending hdue (validateMaxEpochDelta_eq_ok hvalid)
  | deposit amount =>
    simp only [World.exec, Pool.deposit, checks_iff] at hexec
    obtain ⟨-, _, -, received, -, -, _, hdeposited, rfl⟩ := hexec
    obtain rfl := checkedAdd_eq_ok hdeposited
    exact .deposit amount received (checkedAdd_le hdeposited)
  | proposeRoot newRoot newEpoch newCumulativeSpent signature =>
    simp only [World.exec, Pool.proposeRoot, onlyOwner, checks_iff, not_not, ne_eq] at hexec
    obtain ⟨howner, -, hcap, hvalid, hsigned, _, hnonce, _, hdue, rfl⟩ := hexec
    obtain rfl := checkedAdd_eq_ok hnonce
    obtain rfl := executeAfter_eq_ok hdue
    exact .proposeRoot newRoot newEpoch newCumulativeSpent signature howner hcap
      (validateRoot_eq_ok hvalid) hsigned
  | executeRoot =>
    simp only [World.exec, Pool.executeRoot, checks_iff, not_not, Nat.not_lt, ne_eq] at hexec
    obtain ⟨hpending, hdue, hepoch, hspent, hvalid, rfl⟩ := hexec
    exact .executeRoot hpending hdue hepoch hspent (validateRoot_eq_ok hvalid)
  | claim rootEpoch account cumulativeAmount proof =>
    simp only [World.exec, Pool.claim, checks_iff] at hexec
    obtain ⟨-, -, -, -, _, hclaimed, -, _, -, rfl⟩ := hexec
    obtain rfl := checkedAdd_eq_ok hclaimed
    exact .claim rootEpoch account cumulativeAmount proof
  | withdrawOperator target amount =>
    simp only [World.exec, Pool.withdrawOperator, checks_iff, not_or, Nat.not_lt] at hexec
    obtain ⟨-, -, _, hclaimable, ⟨-, hle⟩, _, hwithdrawn, -, _, -, rfl⟩ := hexec
    obtain rfl := checkedAdd_eq_ok hwithdrawn
    obtain rfl := operatorClaimable_eq_ok hclaimable
    exact .withdrawOperator target amount hle
  | burn =>
    simp only [World.exec, Pool.burn, checks_iff] at hexec
    obtain ⟨_, hamount, -, _, hburned, -, _, -, rfl⟩ := hexec
    obtain rfl := checkedAdd_eq_ok hburned
    obtain rfl := burnClaimable_eq_ok hamount
    exact .burn
  | proposeRescue target amount signature =>
    simp only [World.exec, Pool.proposeRescue, onlyOwner, checks_iff, not_not, ne_eq] at hexec
    obtain ⟨howner, -, -, _, -, -, hsigned, _, hnonce, _, hdue, rfl⟩ := hexec
    obtain rfl := checkedAdd_eq_ok hnonce
    obtain rfl := executeAfter_eq_ok hdue
    exact .proposeRescue target amount signature howner hsigned
  | executeRescue =>
    rw [executeRescue_pool hexec]
    exact .executeRescue
  | transfer target amount =>
    obtain ⟨_, -, rfl⟩ := (Except.map_accepts_iff _ _ _).mp hexec
    exact .transfer target amount
  | approve spender amount =>
    obtain ⟨_, -, rfl⟩ := (Except.map_accepts_iff _ _ _).mp hexec
    exact .approve spender amount
  | transferFrom source target amount =>
    obtain ⟨_, -, rfl⟩ := (Except.map_accepts_iff _ _ _).mp hexec
    exact .transferFrom source target amount
  | mint target amount =>
    obtain rfl := Except.ok.inj hexec
    exact .mint target amount

end Mayhem.Pool
