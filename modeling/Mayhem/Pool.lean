import Mayhem.Lib.Erc20
import Mayhem.Lib.Run

/-!
This module contains the inference pool, the contract that holds the TAP of the buyers on chain.
-/

namespace Mayhem.Pool

abbrev Address : Type := Nat

abbrev Word : Type := Nat

def zeroAddress : Address := 0

def burnSink : Address := 0xdead

def operatorBps : Nat := 1500

def providerBps : Nat := 7500

def bps : Nat := 10000

def checkedAdd (a b : Nat) : Except String Nat := do
  rejectIf (a + b > maxUint256) "Panic(0x11)"
  return a + b

def checkedSub (a b : Nat) : Except String Nat := do
  rejectIf (a < b) "Panic(0x11)"
  return a - b

def checkedMul (a b : Nat) : Except String Nat := do
  rejectIf (a * b > maxUint256) "Panic(0x11)"
  return a * b

theorem checkedAdd_eq_ok {a b c : Nat} (h : checkedAdd a b = .ok c) : c = a + b := by
  simp only [checkedAdd, checks_iff] at h
  exact h.2.symm

theorem checkedSub_eq_ok {a b c : Nat} (h : checkedSub a b = .ok c) : b ≤ a ∧ c = a - b := by
  simp only [checkedSub, checks_iff, Nat.not_lt] at h
  exact ⟨h.1, h.2.symm⟩

structure PendingRoot where
  merkleRoot : Word
  newEpoch : Nat
  newCumulativeSpent : Nat
  previousEpoch : Nat
  previousCumulativeSpent : Nat
  nonce : Nat
  executeAfter : Nat

structure PendingMaxEpochDelta where
  newMaxEpochDelta : Nat
  nonce : Nat
  executeAfter : Nat

structure PendingRescue where
  target : Address
  amount : Nat
  nonce : Nat
  executeAfter : Nat

/--
What the deployment fixes, and the hashes and signatures of the chain.
-/
structure Deployment where
  self : Address
  governanceSigner : Address
  governanceDelay : Nat
  chainId : Nat
  recoverRoot : Word → Nat → Nat → Nat → Nat → Nat → Word → Address
  recoverMaxEpochDelta : Nat → Nat → Word → Address
  recoverRescue : Address → Nat → Nat → Word → Address
  leaf : Address → Nat → Word
  verifyProof : List Word → Word → Word → Bool

structure State where
  owner : Address
  pendingOwner : Address
  maxEpochDelta : Nat
  governanceNonce : Nat
  pendingRoot : PendingRoot
  pendingMaxEpochDelta : PendingMaxEpochDelta
  pendingRescue : PendingRescue
  merkleRoot : Word
  merkleRootAtEpoch : Nat → Word
  epoch : Nat
  cumulativeSpent : Nat
  claimed : Address → Nat
  totalDeposited : Nat
  totalClaimed : Nat
  operatorWithdrawn : Nat
  totalBurned : Nat

def noRoot : PendingRoot := ⟨0, 0, 0, 0, 0, 0, 0⟩

def noMaxEpochDelta : PendingMaxEpochDelta := ⟨0, 0, 0⟩

def noRescue : PendingRescue := ⟨zeroAddress, 0, 0, 0⟩

def minPublicGovernanceDelay : Nat := 3600

def isLocalDevelopmentChain (d : Deployment) : Bool :=
  d.chainId == 1337 || d.chainId == 31337 || d.chainId == 61000

def initialState (owner : Address) (maxEpochDelta : Nat) : State where
  owner := owner
  pendingOwner := zeroAddress
  maxEpochDelta := maxEpochDelta
  governanceNonce := 0
  pendingRoot := noRoot
  pendingMaxEpochDelta := noMaxEpochDelta
  pendingRescue := noRescue
  merkleRoot := 0
  merkleRootAtEpoch := fun _ => 0
  epoch := 0
  cumulativeSpent := 0
  claimed := fun _ => 0
  totalDeposited := 0
  totalClaimed := 0
  operatorWithdrawn := 0
  totalBurned := 0

def deploy (d : Deployment) (owner : Address) (maxEpochDelta : Nat) : Except String State := do
  rejectIf (owner = zeroAddress) "OwnableInvalidOwner"
  rejectIf (d.governanceSigner = zeroAddress) "governance signer=0"
  rejectIf (d.governanceSigner = owner) "governance signer=owner"
  rejectIf (¬ isLocalDevelopmentChain d ∧ d.governanceDelay < minPublicGovernanceDelay)
    "governance delay too short"
  rejectIf (¬ isLocalDevelopmentChain d ∧ maxEpochDelta = 0) "max epoch delta=0"
  return initialState owner maxEpochDelta

structure World where
  token : Erc20 Address
  pool : State

section EntryPoints

variable (d : Deployment) (w : World) (sender : Address) (time : Nat)

def onlyOwner : Except String Unit :=
  rejectIf (sender ≠ w.pool.owner) "OwnableUnauthorizedAccount"

def executeAfter : Except String Nat := do
  rejectIf (time + d.governanceDelay > 2 ^ 64 - 1) "execute time overflow"
  return time + d.governanceDelay

def transferOwnership (newOwner : Address) : Except String World := do
  onlyOwner w sender
  rejectIf (newOwner = d.governanceSigner) "owner=governance signer"
  return { w with pool := { w.pool with pendingOwner := newOwner } }

def acceptOwnership : Except String World := do
  rejectIf (w.pool.pendingOwner ≠ sender) "OwnableUnauthorizedAccount"
  return { w with pool := { w.pool with owner := sender, pendingOwner := zeroAddress } }

def validateMaxEpochDelta (value : Nat) : Except String Unit :=
  rejectIf (¬ isLocalDevelopmentChain d ∧ value = 0) "max epoch delta=0"

def proposeMaxEpochDelta (newMax : Nat) (signature : Word) : Except String World := do
  onlyOwner w sender
  rejectIf (w.pool.pendingMaxEpochDelta.executeAfter ≠ 0) "max epoch delta pending"
  rejectIf (w.pool.pendingRoot.executeAfter ≠ 0) "root pending"
  rejectIf (newMax = w.pool.maxEpochDelta) "max epoch delta unchanged"
  validateMaxEpochDelta d newMax
  let nonce := w.pool.governanceNonce
  rejectIf (d.recoverMaxEpochDelta newMax nonce signature ≠ d.governanceSigner)
    "bad governance signature"
  let next ← checkedAdd nonce 1
  let due ← executeAfter d time
  return { w with pool := { w.pool with
    governanceNonce := next
    pendingMaxEpochDelta := ⟨newMax, nonce, due⟩ } }

def executeMaxEpochDelta : Except String World := do
  let proposal := w.pool.pendingMaxEpochDelta
  rejectIf (proposal.executeAfter = 0) "no max epoch delta pending"
  rejectIf (time < proposal.executeAfter) "governance delay"
  rejectIf (w.pool.pendingRoot.executeAfter ≠ 0) "root pending"
  validateMaxEpochDelta d proposal.newMaxEpochDelta
  return { w with pool := { w.pool with
    pendingMaxEpochDelta := noMaxEpochDelta
    maxEpochDelta := proposal.newMaxEpochDelta } }

def deposit (amount : Nat) : Except String World := do
  rejectIf (amount = 0) "amount=0"
  let token ← w.token.transferFrom zeroAddress d.self sender d.self amount
  let received ← checkedSub (token.balanceOf d.self) (w.token.balanceOf d.self)
  rejectIf (received = 0) "received=0"
  let deposited ← checkedAdd w.pool.totalDeposited received
  return { token := token, pool := { w.pool with totalDeposited := deposited } }

def validateRoot (newRoot : Word) (newEpoch newCumulativeSpent : Nat) : Except String Unit := do
  rejectIf (newRoot = 0) "root=0"
  rejectIf (newEpoch ≤ w.pool.epoch) "epoch !monotonic"
  rejectIf (newCumulativeSpent < w.pool.cumulativeSpent) "spent !monotonic"
  rejectIf (newCumulativeSpent > w.pool.totalDeposited) "spent > deposited"
  rejectIf (w.pool.maxEpochDelta > 0 ∧
    newCumulativeSpent - w.pool.cumulativeSpent > w.pool.maxEpochDelta) "epoch delta > cap"

def proposeRoot (newRoot : Word) (newEpoch newCumulativeSpent : Nat) (signature : Word) :
    Except String World := do
  onlyOwner w sender
  rejectIf (w.pool.pendingRoot.executeAfter ≠ 0) "root pending"
  rejectIf (w.pool.pendingMaxEpochDelta.executeAfter ≠ 0) "max epoch delta pending"
  validateRoot w newRoot newEpoch newCumulativeSpent
  let nonce := w.pool.governanceNonce
  rejectIf (d.recoverRoot newRoot newEpoch newCumulativeSpent w.pool.epoch w.pool.cumulativeSpent nonce
    signature ≠ d.governanceSigner) "bad governance signature"
  let next ← checkedAdd nonce 1
  let due ← executeAfter d time
  return { w with pool := { w.pool with
    governanceNonce := next
    pendingRoot := ⟨newRoot, newEpoch, newCumulativeSpent, w.pool.epoch, w.pool.cumulativeSpent, nonce, due⟩ } }

def executeRoot : Except String World := do
  let proposal := w.pool.pendingRoot
  rejectIf (proposal.executeAfter = 0) "no root pending"
  rejectIf (time < proposal.executeAfter) "governance delay"
  rejectIf (w.pool.epoch ≠ proposal.previousEpoch) "root base epoch changed"
  rejectIf (w.pool.cumulativeSpent ≠ proposal.previousCumulativeSpent) "root base spend changed"
  validateRoot w proposal.merkleRoot proposal.newEpoch proposal.newCumulativeSpent
  return { w with pool := { w.pool with
    pendingRoot := noRoot
    merkleRoot := proposal.merkleRoot
    merkleRootAtEpoch := Function.update w.pool.merkleRootAtEpoch proposal.newEpoch proposal.merkleRoot
    epoch := proposal.newEpoch
    cumulativeSpent := proposal.newCumulativeSpent } }

def conservation (pool : State) : Except String Unit := do
  let claimedAndFee ← checkedAdd pool.totalClaimed pool.operatorWithdrawn
  let outflow ← checkedAdd claimedAndFee pool.totalBurned
  rejectIf (outflow > pool.totalDeposited) "conservation"

def claim (rootEpoch : Nat) (account : Address) (cumulativeAmount : Nat) (proof : List Word) :
    Except String World := do
  rejectIf (account = zeroAddress ∨ account = d.self) "bad account"
  let claimRoot := w.pool.merkleRootAtEpoch rootEpoch
  rejectIf (claimRoot = 0) "unknown root epoch"
  rejectIf (d.verifyProof proof claimRoot (d.leaf account cumulativeAmount) = false) "bad proof"
  let already := w.pool.claimed account
  rejectIf (cumulativeAmount ≤ already) "nothing to claim"
  let delta := cumulativeAmount - already
  let totalClaimed ← checkedAdd w.pool.totalClaimed delta
  let pool := { w.pool with
    claimed := Function.update w.pool.claimed account cumulativeAmount
    totalClaimed := totalClaimed }
  conservation pool
  let token ← w.token.transfer zeroAddress d.self account delta
  return { token := token, pool := pool }

def operatorClaimable : Except String Nat := do
  let scaled ← checkedMul w.pool.cumulativeSpent operatorBps
  return scaled / bps - w.pool.operatorWithdrawn

def withdrawOperator (target : Address) (amount : Nat) : Except String World := do
  onlyOwner w sender
  rejectIf (target = zeroAddress) "to=0"
  let claimable ← operatorClaimable w
  rejectIf (amount = 0 ∨ amount > claimable) "exceeds 15% cap"
  let withdrawn ← checkedAdd w.pool.operatorWithdrawn amount
  let pool := { w.pool with operatorWithdrawn := withdrawn }
  conservation pool
  let token ← w.token.transfer zeroAddress d.self target amount
  return { token := token, pool := pool }

def burnClaimable : Except String Nat := do
  let provider ← checkedMul w.pool.cumulativeSpent providerBps
  let operator ← checkedMul w.pool.cumulativeSpent operatorBps
  let afterProvider ← checkedSub w.pool.cumulativeSpent (provider / bps)
  let cap ← checkedSub afterProvider (operator / bps)
  return cap - w.pool.totalBurned

def burn : Except String World := do
  let amount ← burnClaimable w
  rejectIf (amount = 0) "nothing to burn"
  let burned ← checkedAdd w.pool.totalBurned amount
  let pool := { w.pool with totalBurned := burned }
  conservation pool
  let token ← w.token.transfer zeroAddress d.self burnSink amount
  return { token := token, pool := pool }

def rescuableSurplus : Except String Nat := do
  let unclaimed ← checkedSub w.pool.totalDeposited w.pool.totalClaimed
  let afterFee ← checkedSub unclaimed w.pool.operatorWithdrawn
  let accounted ← checkedSub afterFee w.pool.totalBurned
  return w.token.balanceOf d.self - accounted

def proposeRescue (target : Address) (amount : Nat) (signature : Word) : Except String World := do
  onlyOwner w sender
  rejectIf (w.pool.pendingRescue.executeAfter ≠ 0) "rescue pending"
  rejectIf (target = zeroAddress) "to=0"
  let surplus ← rescuableSurplus d w
  rejectIf (amount = 0 ∨ amount > surplus) "exceeds surplus"
  let nonce := w.pool.governanceNonce
  rejectIf (d.recoverRescue target amount nonce signature ≠ d.governanceSigner)
    "bad governance signature"
  let next ← checkedAdd nonce 1
  let due ← executeAfter d time
  return { w with pool := { w.pool with
    governanceNonce := next
    pendingRescue := ⟨target, amount, nonce, due⟩ } }

def executeRescue : Except String World := do
  let proposal := w.pool.pendingRescue
  rejectIf (proposal.executeAfter = 0) "no rescue pending"
  rejectIf (time < proposal.executeAfter) "governance delay"
  let surplus ← rescuableSurplus d w
  rejectIf (proposal.amount > surplus) "exceeds surplus"
  let token ← w.token.transfer zeroAddress d.self proposal.target proposal.amount
  return { token := token, pool := { w.pool with pendingRescue := noRescue } }

end EntryPoints

inductive Action where
  | transferOwnership (newOwner : Address)
  | acceptOwnership
  | proposeMaxEpochDelta (newMax : Nat) (signature : Word)
  | executeMaxEpochDelta
  | deposit (amount : Nat)
  | proposeRoot (newRoot : Word) (newEpoch newCumulativeSpent : Nat) (signature : Word)
  | executeRoot
  | claim (rootEpoch : Nat) (account : Address) (cumulativeAmount : Nat) (proof : List Word)
  | withdrawOperator (target : Address) (amount : Nat)
  | burn
  | proposeRescue (target : Address) (amount : Nat) (signature : Word)
  | executeRescue
  | transfer (target : Address) (amount : Nat)
  | approve (spender : Address) (amount : Nat)
  | transferFrom (source target : Address) (amount : Nat)
  | mint (target : Address) (amount : Nat)
deriving DecidableEq

@[ext]
structure Call where
  sender : Address
  time : Nat
  action : Action

def World.withToken (w : World) (token : Erc20 Address) : World := { w with token := token }

def World.exec (d : Deployment) (w : World) (call : Call) : Except String World :=
  match call.action with
  | .transferOwnership newOwner => Pool.transferOwnership d w call.sender newOwner
  | .acceptOwnership => Pool.acceptOwnership w call.sender
  | .proposeMaxEpochDelta newMax signature =>
    Pool.proposeMaxEpochDelta d w call.sender call.time newMax signature
  | .executeMaxEpochDelta => Pool.executeMaxEpochDelta d w call.time
  | .deposit amount => Pool.deposit d w call.sender amount
  | .proposeRoot newRoot newEpoch newCumulativeSpent signature =>
    Pool.proposeRoot d w call.sender call.time newRoot newEpoch newCumulativeSpent signature
  | .executeRoot => Pool.executeRoot w call.time
  | .claim rootEpoch account cumulativeAmount proof =>
    Pool.claim d w rootEpoch account cumulativeAmount proof
  | .withdrawOperator target amount => Pool.withdrawOperator d w call.sender target amount
  | .burn => Pool.burn d w
  | .proposeRescue target amount signature =>
    Pool.proposeRescue d w call.sender call.time target amount signature
  | .executeRescue => Pool.executeRescue d w call.time
  | .transfer target amount => w.withToken <$> w.token.transfer zeroAddress call.sender target amount
  | .approve spender amount => w.withToken <$> w.token.approve zeroAddress call.sender spender amount
  | .transferFrom source target amount =>
    w.withToken <$> w.token.transferFrom zeroAddress call.sender source target amount
  | .mint target amount => .ok (w.withToken (w.token.mint target amount))

def World.after (d : Deployment) (w : World) (call : Call) : World :=
  match w.exec d call with
  | .ok w' => w'
  | .error _ => w

inductive Step (d : Deployment) : World → World → Prop
  | call (w : World) (call : Call) (hsender : call.sender ≠ d.self) : Step d w (w.after d call)

def World.afterAll (d : Deployment) (w : World) (calls : List Call) : World :=
  calls.foldl (World.after d) w

theorem World.reaches_afterAll (d : Deployment) (w : World) (calls : List Call)
    (hsender : ∀ call ∈ calls, call.sender ≠ d.self) :
    Relation.ReflTransGen (Step d) w (w.afterAll d calls) := by
  induction calls generalizing w with
  | nil => exact .refl
  | cons call _ ih =>
    refine .head (.call w call (hsender call List.mem_cons_self)) ?_
    exact ih (w.after d call) fun other hother => hsender other (List.mem_cons_of_mem call hother)

def State.outflow (pool : State) : Nat := pool.totalClaimed + pool.operatorWithdrawn + pool.totalBurned

structure Solvent (d : Deployment) (w : World) : Prop where
  conserved : w.pool.outflow ≤ w.pool.totalDeposited
  backed : w.pool.totalDeposited ≤ w.token.balanceOf d.self + w.pool.outflow
  unapproved : ∀ spender, w.token.allowance d.self spender = 0

variable {d : Deployment} {w w' : World} {sender : Address} {time : Nat}

theorem conservation_eq_ok {pool : State} (h : conservation pool = .ok ()) :
    pool.outflow ≤ pool.totalDeposited := by
  simp only [conservation, checks_iff, Nat.not_lt] at h
  obtain ⟨_, hfee, _, hburn, hle⟩ := h
  rw [checkedAdd_eq_ok hburn, checkedAdd_eq_ok hfee] at hle
  exact hle

theorem rescuableSurplus_eq_ok {surplus : Nat} (h : rescuableSurplus d w = .ok surplus) :
    surplus = w.token.balanceOf d.self - (w.pool.totalDeposited - w.pool.outflow) := by
  simp only [rescuableSurplus, checks_iff] at h
  obtain ⟨_, hclaimed, _, hfee, _, hburned, rfl⟩ := h
  rw [(checkedSub_eq_ok hburned).2, (checkedSub_eq_ok hfee).2, (checkedSub_eq_ok hclaimed).2]
  unfold State.outflow
  omega

theorem executeRescue_pool (h : executeRescue d w time = .ok w') :
    w'.pool = { w.pool with pendingRescue := noRescue } := by
  simp only [executeRescue, checks_iff] at h
  obtain ⟨-, -, _, -, -, _, -, rfl⟩ := h
  rfl

namespace Solvent

variable (h : Solvent d w)
include h

theorem of_pool (htoken : w'.token = w.token) (hdeposited : w'.pool.totalDeposited = w.pool.totalDeposited)
    (houtflow : w'.pool.outflow = w.pool.outflow) : Solvent d w' where
  conserved := by
    rw [hdeposited, houtflow]
    exact h.conserved
  backed := by
    rw [hdeposited, houtflow, htoken]
    exact h.backed
  unapproved := by
    rw [htoken]
    exact h.unapproved

theorem withToken {token : Erc20 Address} (hbalance : w.token.balanceOf d.self ≤ token.balanceOf d.self)
    (happroved : ∀ spender, token.allowance d.self spender = 0) : Solvent d (w.withToken token) where
  conserved := h.conserved
  backed := by
    have hbacked := h.backed
    dsimp only [World.withToken]
    omega
  unapproved := happroved

variable {amount : Nat}

theorem pay {token : Erc20 Address} {pool : State} {target : Address}
    (htoken : w.token.transfer zeroAddress d.self target amount = .ok token)
    (hdeposited : pool.totalDeposited = w.pool.totalDeposited)
    (houtflow : pool.outflow = w.pool.outflow + amount) (hconserved : conservation pool = .ok ()) :
    Solvent d ⟨token, pool⟩ := by
  obtain rfl := Erc20.transfer_eq_ok htoken
  refine ⟨conservation_eq_ok hconserved, ?_, h.unapproved⟩
  have hbacked := h.backed
  have hkept := Erc20.le_balanceOf_move_source w.token d.self target amount
  dsimp only
  omega

theorem deposit (hexec : Pool.deposit d w sender amount = .ok w') : Solvent d w' := by
  simp only [Pool.deposit, checks_iff] at hexec
  obtain ⟨-, _, htoken, _, hreceived, -, _, hdeposited, rfl⟩ := hexec
  obtain ⟨_, rfl⟩ := checkedSub_eq_ok hreceived
  obtain rfl := checkedAdd_eq_ok hdeposited
  have hconserved := h.conserved
  have hbacked := h.backed
  refine ⟨?_, ?_, (Erc20.transferFrom_keeps h.unapproved htoken).2⟩
  . dsimp only [State.outflow] at hconserved ⊢
    omega
  . dsimp only [State.outflow] at hbacked ⊢
    omega

theorem claim {rootEpoch : Nat} {account : Address} {cumulativeAmount : Nat}
    {proof : List Word} (hexec : Pool.claim d w rootEpoch account cumulativeAmount proof = .ok w') :
    Solvent d w' := by
  simp only [Pool.claim, checks_iff] at hexec
  obtain ⟨-, -, -, -, _, hclaimed, hconserved, _, htoken, rfl⟩ := hexec
  obtain rfl := checkedAdd_eq_ok hclaimed
  refine h.pay htoken rfl ?_ hconserved
  dsimp only [State.outflow]
  omega

theorem withdrawOperator {target : Address}
    (hexec : Pool.withdrawOperator d w sender target amount = .ok w') : Solvent d w' := by
  simp only [Pool.withdrawOperator, checks_iff] at hexec
  obtain ⟨-, -, _, -, -, _, hwithdrawn, hconserved, _, htoken, rfl⟩ := hexec
  obtain rfl := checkedAdd_eq_ok hwithdrawn
  refine h.pay htoken rfl ?_ hconserved
  dsimp only [State.outflow]
  omega

theorem burn (hexec : Pool.burn d w = .ok w') : Solvent d w' := by
  simp only [Pool.burn, checks_iff] at hexec
  obtain ⟨_, -, -, _, hburned, hconserved, _, htoken, rfl⟩ := hexec
  obtain rfl := checkedAdd_eq_ok hburned
  refine h.pay htoken rfl ?_ hconserved
  dsimp only [State.outflow]
  omega

theorem executeRescue (hexec : Pool.executeRescue d w time = .ok w') : Solvent d w' := by
  simp only [Pool.executeRescue, checks_iff, Nat.not_lt] at hexec
  obtain ⟨-, -, _, hsurplus, hle, token, htoken, rfl⟩ := hexec
  obtain rfl := rescuableSurplus_eq_ok hsurplus
  obtain rfl := Erc20.transfer_eq_ok htoken
  have hconserved := h.conserved
  have hbacked := h.backed
  have hkept := Erc20.le_balanceOf_move_source w.token d.self w.pool.pendingRescue.target
    w.pool.pendingRescue.amount
  refine ⟨hconserved, ?_, h.unapproved⟩
  dsimp only [State.outflow] at hconserved hbacked hle ⊢
  omega

theorem exec {call : Call} (hsender : call.sender ≠ d.self)
    (hexec : w.exec d call = .ok w') : Solvent d w' := by
  obtain ⟨sender, _, action⟩ := call
  dsimp only at hsender
  cases action with
  | transferOwnership =>
    simp only [World.exec, transferOwnership, onlyOwner, checks_iff] at hexec
    obtain ⟨-, -, rfl⟩ := hexec
    exact h.of_pool rfl rfl rfl
  | acceptOwnership =>
    simp only [World.exec, acceptOwnership, checks_iff] at hexec
    obtain ⟨-, rfl⟩ := hexec
    exact h.of_pool rfl rfl rfl
  | proposeMaxEpochDelta _ signature =>
    simp only [World.exec, proposeMaxEpochDelta, checks_iff] at hexec
    obtain ⟨-, -, -, -, -, -, _, -, _, -, rfl⟩ := hexec
    exact h.of_pool rfl rfl rfl
  | executeMaxEpochDelta =>
    simp only [World.exec, executeMaxEpochDelta, checks_iff] at hexec
    obtain ⟨-, -, -, -, rfl⟩ := hexec
    exact h.of_pool rfl rfl rfl
  | deposit amount => exact h.deposit hexec
  | proposeRoot _ _ _ signature =>
    simp only [World.exec, proposeRoot, checks_iff] at hexec
    obtain ⟨-, -, -, -, -, _, -, _, -, rfl⟩ := hexec
    exact h.of_pool rfl rfl rfl
  | executeRoot =>
    simp only [World.exec, executeRoot, checks_iff] at hexec
    obtain ⟨-, -, -, -, -, rfl⟩ := hexec
    exact h.of_pool rfl rfl rfl
  | claim => exact h.claim hexec
  | withdrawOperator target amount => exact h.withdrawOperator hexec
  | burn => exact h.burn hexec
  | proposeRescue target amount signature =>
    simp only [World.exec, proposeRescue, checks_iff] at hexec
    obtain ⟨-, -, -, _, -, -, -, _, -, _, -, rfl⟩ := hexec
    exact h.of_pool rfl rfl rfl
  | executeRescue => exact h.executeRescue hexec
  | transfer target amount =>
    obtain ⟨token, htoken, rfl⟩ := (Except.map_accepts_iff _ _ _).mp hexec
    obtain rfl := Erc20.transfer_eq_ok htoken
    exact h.withToken (Erc20.balanceOf_move_of_ne w.token amount hsender) h.unapproved
  | approve _ amount =>
    obtain ⟨token, htoken, rfl⟩ := (Except.map_accepts_iff _ _ _).mp hexec
    obtain ⟨hbalance, hallowance⟩ := Erc20.approve_keeps hsender htoken
    refine h.withToken (Nat.le_of_eq (congrFun hbalance d.self).symm) ?_
    intro other
    rw [hallowance]
    exact h.unapproved other
  | transferFrom _ target amount =>
    obtain ⟨token, htoken, rfl⟩ := (Except.map_accepts_iff _ _ _).mp hexec
    obtain ⟨hbalance, happroved⟩ := Erc20.transferFrom_keeps h.unapproved htoken
    exact h.withToken hbalance happroved
  | mint target amount =>
    obtain rfl := Except.ok.inj hexec
    exact h.withToken (Erc20.le_balanceOf_mint w.token target d.self amount) h.unapproved

theorem after {call : Call} (hsender : call.sender ≠ d.self) : Solvent d (w.after d call) := by
  unfold World.after
  cases hexec : w.exec d call with
  | ok => exact h.exec hsender hexec
  | error _ => exact h

end Solvent

theorem solvent_deploy {owner : Address} {maxEpochDelta : Nat} {pool : State} {token : Erc20 Address}
    (hdeploy : deploy d owner maxEpochDelta = .ok pool)
    (hfresh : ∀ spender, token.allowance d.self spender = 0) : Solvent d ⟨token, pool⟩ := by
  simp only [deploy, checks_iff] at hdeploy
  obtain ⟨-, -, -, -, -, rfl⟩ := hdeploy
  exact ⟨Nat.le_refl _, Nat.zero_le _, hfresh⟩

theorem escrow_backed {owner : Address} {maxEpochDelta : Nat} {pool : State} {token : Erc20 Address}
    (hdeploy : deploy d owner maxEpochDelta = .ok pool)
    (hfresh : ∀ spender, token.allowance d.self spender = 0)
    (hrun : Relation.ReflTransGen (Step d) ⟨token, pool⟩ w) :
    w.pool.totalClaimed + w.pool.operatorWithdrawn + w.pool.totalBurned ≤ w.pool.totalDeposited ∧
      w.pool.totalDeposited - w.pool.totalClaimed - w.pool.operatorWithdrawn - w.pool.totalBurned ≤
        w.token.balanceOf d.self ∧
      ∀ time w', Pool.executeRescue d w time = .ok w' →
        w.pool.totalDeposited - w.pool.totalClaimed - w.pool.operatorWithdrawn - w.pool.totalBurned ≤
          w'.token.balanceOf d.self := by
  have hsolvent : Solvent d w := by
    refine Run.invariant (Solvent d) (solvent_deploy hdeploy hfresh) ?_ hrun
    intro _ after hbefore hstep
    cases hstep with
    | call call hsender => exact hbefore.after hsender
  have hescrow : ∀ {world : World}, Solvent d world →
      world.pool.totalDeposited - world.pool.totalClaimed - world.pool.operatorWithdrawn -
        world.pool.totalBurned ≤ world.token.balanceOf d.self := by
    intro world hworld
    have hbacked := hworld.backed
    unfold State.outflow at hbacked
    omega
  refine ⟨hsolvent.conserved, hescrow hsolvent, ?_⟩
  intro time w' hrescue
  have hcounts := executeRescue_pool hrescue
  have hafter := hescrow (hsolvent.executeRescue hrescue)
  rw [hcounts] at hafter
  exact hafter

def localDeployment : Deployment where
  self := 1
  governanceSigner := 3
  governanceDelay := 5
  chainId := 31337
  recoverRoot := fun _ _ _ _ _ _ signature => signature
  recoverMaxEpochDelta := fun _ _ signature => signature
  recoverRescue := fun _ _ _ signature => signature
  leaf := fun account cumulativeAmount => account + cumulativeAmount
  verifyProof := fun _ root leaf => root == leaf

def localToken : Erc20 Address where
  balanceOf := fun account => if account = 7 then 100 else 0
  allowance := fun _ _ => 0

def rescueCalls : List Call := [⟨7, 0, .approve 1 100⟩, ⟨7, 1, .deposit 60⟩, ⟨7, 2, .transfer 1 10⟩,
  ⟨2, 3, .proposeRescue 7 10 3⟩,
  ⟨9, 8, .executeRescue⟩]

def rescued : World :=
  World.afterAll localDeployment ⟨localToken, initialState 2 0⟩ rescueCalls

theorem escrow_backed_rescue : rescued.token.balanceOf 7 = 40 ∧
    rescued.token.balanceOf localDeployment.self = 60 ∧ rescued.pool.totalDeposited = 60 ∧
    rescued.pool.totalDeposited - rescued.pool.totalClaimed - rescued.pool.operatorWithdrawn -
      rescued.pool.totalBurned ≤ rescued.token.balanceOf localDeployment.self := by
  have hdeploy : deploy localDeployment 2 0 = .ok (initialState 2 0) := rfl
  have hreaches := World.reaches_afterAll localDeployment ⟨localToken, initialState 2 0⟩ rescueCalls
    (by decide)
  refine ⟨by decide +kernel, by decide +kernel, by decide +kernel, ?_⟩
  exact (escrow_backed hdeploy (fun _ => rfl) hreaches).2.1

end Mayhem.Pool
