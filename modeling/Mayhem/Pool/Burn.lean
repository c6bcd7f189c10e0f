import Mayhem.Lib.Trace
import Mayhem.Pool.Effect

namespace Mayhem.Pool

def providerShare (spent : Nat) : Nat := spent * providerBps / bps

def operatorShare (spent : Nat) : Nat := spent * operatorBps / bps

def burnShare (spent : Nat) : Nat := spent - providerShare spent - operatorShare spent

theorem providerShare_eq (spent : Nat) : providerShare spent = spent * 3 / 4 := by
  unfold providerShare providerBps bps
  omega

theorem operatorShare_eq (spent : Nat) : operatorShare spent = spent * 3 / 20 := by
  unfold operatorShare operatorBps bps
  omega

theorem burnShare_add_shares (spent : Nat) :
    burnShare spent + providerShare spent + operatorShare spent = spent := by
  unfold burnShare
  rw [providerShare_eq, operatorShare_eq]
  omega

theorem operatorShare_mono {spent spent' : Nat} (h : spent ≤ spent') :
    operatorShare spent ≤ operatorShare spent' := by
  apply Nat.div_le_div_right
  apply Nat.mul_le_mul_right
  exact h

theorem burnShare_add_twenty_mul (spent rounds : Nat) :
    burnShare (spent + 20 * rounds) = burnShare spent + 2 * rounds := by
  have hprovider : providerShare (spent + 20 * rounds) = providerShare spent + 15 * rounds := by
    rw [providerShare_eq, providerShare_eq]
    omega
  have hoperator : operatorShare (spent + 20 * rounds) = operatorShare spent + 3 * rounds := by
    rw [operatorShare_eq, operatorShare_eq]
    omega
  have hsum := burnShare_add_shares spent
  have hsum' := burnShare_add_shares (spent + 20 * rounds)
  omega

theorem burnShare_small : ∀ spent < 20, ∀ rise < 20, burnShare spent ≤ burnShare (spent + rise) + 2 ∧
    (rise ≠ 1 ∧ rise ≠ 2 ∧ rise ≠ 3 ∧ rise ≠ 7 → burnShare spent ≤ burnShare (spent + rise)) := by
  decide +kernel

theorem burnShare_mono {s s' : Nat} (hle : s ≤ s') (hrise : s' - s ∉ [1, 2, 3, 7]) :
    burnShare s ≤ burnShare s' := by
  obtain ⟨rise, rfl⟩ := Nat.exists_eq_add_of_le hle
  simp only [Nat.add_sub_cancel_left, List.mem_cons, List.not_mem_nil, or_false, not_or] at hrise
  have hsmall := burnShare_small (s % 20) (by omega) (rise % 20) (by omega)
  have hspent := burnShare_add_twenty_mul (s % 20) (s / 20)
  have hafter := burnShare_add_twenty_mul (s % 20 + rise % 20) (s / 20 + rise / 20)
  rw [show s % 20 + 20 * (s / 20) = s by omega] at hspent
  rw [show s % 20 + rise % 20 + 20 * (s / 20 + rise / 20) = s + rise by omega] at hafter
  rw [hspent, hafter]
  obtain hzero | hpos : rise / 20 = 0 ∨ 1 ≤ rise / 20 := by omega
  . -- Below 20 the rise is its own residue.
    have := hsmall.2 (by omega)
    omega
  . omega

structure ShareBounds (pool : State) : Prop where
  burned : pool.totalBurned ≤ burnShare pool.cumulativeSpent
  withdrawn : pool.operatorWithdrawn ≤ operatorShare pool.cumulativeSpent
  spent : pool.cumulativeSpent ≤ pool.totalDeposited
  deposited : pool.totalDeposited ≤ maxUint256

inductive SpacedStep (d : Deployment) : World → World → Prop
  | call (w : World) (call : Call) (hsender : call.sender ≠ d.self)
      (hspaced : burnShare w.pool.cumulativeSpent ≤ burnShare (w.after d call).pool.cumulativeSpent) :
      SpacedStep d w (w.after d call)

namespace ShareBounds

variable {d : Deployment} {w w' : World}

variable {pool : State}

theorem withdrawOperator (h : ShareBounds pool) {amount : Nat}
    (hcap : amount ≤ pool.cumulativeSpent * operatorBps / bps - pool.operatorWithdrawn) :
    ShareBounds { pool with operatorWithdrawn := pool.operatorWithdrawn + amount } where
  burned := h.burned
  withdrawn := by
    have hwithdrawn := h.withdrawn
    dsimp only [operatorShare] at hwithdrawn ⊢
    omega
  spent := h.spent
  deposited := h.deposited

theorem burn (h : ShareBounds pool) :
    ShareBounds { pool with totalBurned := pool.totalBurned +
      (pool.cumulativeSpent - pool.cumulativeSpent * providerBps / bps -
        pool.cumulativeSpent * operatorBps / bps - pool.totalBurned) } where
  burned := by
    have hburned := h.burned
    dsimp only [burnShare, providerShare, operatorShare] at hburned ⊢
    omega
  withdrawn := h.withdrawn
  spent := h.spent
  deposited := h.deposited

theorem executeRoot (h : ShareBounds pool)
    (hspaced : burnShare pool.cumulativeSpent ≤ burnShare pool.pendingRoot.newCumulativeSpent)
    (hvalid : ValidRoot pool pool.pendingRoot.merkleRoot pool.pendingRoot.newEpoch
      pool.pendingRoot.newCumulativeSpent) {root : Word} {roots : Nat → Word} {epoch : Nat} :
    ShareBounds { pool with
      pendingRoot := noRoot
      merkleRoot := root
      merkleRootAtEpoch := roots
      epoch := epoch
      cumulativeSpent := pool.pendingRoot.newCumulativeSpent } where
  burned := Nat.le_trans h.burned hspaced
  withdrawn := by
    apply Nat.le_trans h.withdrawn
    apply operatorShare_mono hvalid.spent_le
  spent := hvalid.spent_le_deposited
  deposited := h.deposited

theorem after (h : ShareBounds w.pool) {call : Call}
    (hspaced : burnShare w.pool.cumulativeSpent ≤ burnShare (w.after d call).pool.cumulativeSpent) :
    ShareBounds (w.after d call).pool := by
  obtain ⟨sender, time, action⟩ := call
  unfold World.after at hspaced ⊢
  cases hexec : w.exec d ⟨sender, time, action⟩ with
  | ok w' =>
    have heffect := World.exec_effect hexec
    rw [hexec] at hspaced
    dsimp only at heffect hspaced ⊢
    generalize w'.pool = pool at heffect hspaced ⊢
    cases heffect with
    | deposit amount _ hdeposited =>
      exact ⟨h.burned, h.withdrawn, Nat.le_add_right_of_le h.spent, hdeposited⟩
    | executeRoot _ _ _ _ hvalid => exact h.executeRoot hspaced hvalid
    | withdrawOperator _ amount hcap => exact h.withdrawOperator hcap
    | burn => exact h.burn
    | _ => exact ⟨h.burned, h.withdrawn, h.spent, h.deposited⟩
  | error _ => exact h

theorem add_shares_le (h : ShareBounds pool) :
    pool.totalBurned + providerShare pool.cumulativeSpent + operatorShare pool.cumulativeSpent ≤
      pool.cumulativeSpent := by
  have hburned := h.burned
  have hsum := burnShare_add_shares pool.cumulativeSpent
  omega

end ShareBounds

theorem shareBounds_deploy {d : Deployment} {owner : Address} {maxEpochDelta : Nat} {pool : State}
    (hdeploy : deploy d owner maxEpochDelta = .ok pool) : ShareBounds pool := by
  simp only [deploy, checks_iff] at hdeploy
  obtain ⟨-, -, -, -, -, rfl⟩ := hdeploy
  exact ⟨Nat.zero_le _, Nat.zero_le _, Nat.le_refl _, Nat.zero_le _⟩

theorem conservation_accepts {pool : State} (hdeposited : pool.totalDeposited ≤ maxUint256)
    (houtflow : pool.totalClaimed + pool.operatorWithdrawn + pool.totalBurned ≤ pool.totalDeposited) :
    conservation pool = .ok () := by
  unfold conservation checkedAdd
  rw [rejectIf_of_not (by omega), Except.bind_of_ok, pure_bind, rejectIf_of_not (by omega)]
  rw [Except.bind_of_ok, pure_bind, rejectIf_of_not (by omega)]

/--
While no call lowers the burn share of the spent value (a root that raises it by 1, 2, 3 or 7 wei can), the burn
leaves both shares whole, and a claim within the providers' share or a withdrawal within the operator's passes the
conservation check.
-/
theorem burn_spares_shares {d : Deployment} {w : World} {owner : Address} {maxEpochDelta : Nat}
    {pool : State} {token : Erc20 Address} (hdeploy : deploy d owner maxEpochDelta = .ok pool)
    (hrun : Relation.ReflTransGen (SpacedStep d) ⟨token, pool⟩ w) :
    w.pool.totalBurned + w.pool.cumulativeSpent * providerBps / bps +
        w.pool.cumulativeSpent * operatorBps / bps ≤ w.pool.cumulativeSpent ∧
      (∀ account cumulativeAmount, w.pool.totalClaimed + (cumulativeAmount - w.pool.claimed account) ≤
          w.pool.cumulativeSpent * providerBps / bps →
        conservation { w.pool with
          claimed := Function.update w.pool.claimed account cumulativeAmount
          totalClaimed := w.pool.totalClaimed + (cumulativeAmount - w.pool.claimed account) } = .ok ()) ∧
      (∀ amount claimable, w.pool.totalClaimed ≤ w.pool.cumulativeSpent * providerBps / bps →
        operatorClaimable w = .ok claimable → amount ≤ claimable →
        conservation { w.pool with operatorWithdrawn := w.pool.operatorWithdrawn + amount } = .ok ()) := by
  have hbounds : ShareBounds w.pool := by
    refine Run.invariant (fun w => ShareBounds w.pool) (shareBounds_deploy hdeploy) ?_ hrun
    intro _ after hbefore hstep
    cases hstep with
    | call call _ hspaced => exact hbefore.after hspaced
  have hshares := hbounds.add_shares_le
  have hwithdrawn := hbounds.withdrawn
  have hspent := hbounds.spent
  unfold providerShare operatorShare at hshares
  unfold operatorShare at hwithdrawn
  refine ⟨hshares, ?_, ?_⟩
  . intro account cumulativeAmount hclaimed
    refine conservation_accepts hbounds.deposited ?_
    dsimp only
    omega
  . intro amount claimable hclaimed hclaimable _
    obtain rfl := operatorClaimable_eq_ok hclaimable
    refine conservation_accepts hbounds.deposited ?_
    dsimp only
    omega

def spacedCalls : List Call := [⟨7, 0, .approve 1 100⟩, ⟨7, 1, .deposit 60⟩, ⟨2, 2, .proposeRoot 23 1 20 3⟩,
  ⟨9, 7, .executeRoot⟩,
  ⟨9, 8, .burn⟩,
  ⟨2, 9, .proposeRoot 38 2 40 3⟩,
  ⟨9, 14, .executeRoot⟩]

def spacedAt (index : Nat) : World :=
  Trace.stateAt (World.after localDeployment) ⟨localToken, initialState 2 0⟩ spacedCalls index

def spacedPool : World := spacedAt 7

theorem burn_spares_shares_spaced : spacedPool.pool.cumulativeSpent = 40 ∧ spacedPool.pool.totalBurned = 2 ∧
    spacedPool.pool.totalBurned + spacedPool.pool.cumulativeSpent * providerBps / bps +
      spacedPool.pool.cumulativeSpent * operatorBps / bps ≤ spacedPool.pool.cumulativeSpent := by
  have hdeploy : deploy localDeployment 2 0 = .ok (initialState 2 0) := rfl
  have hspaced : ∀ index, (hindex : index < spacedCalls.length) →
    spacedCalls[index].sender ≠ localDeployment.self ∧
      let spent := (spacedAt index).pool.cumulativeSpent
      let spent' := ((spacedAt index).after localDeployment spacedCalls[index]).pool.cumulativeSpent
      spent ≤ spent' ∧ spent' - spent ∉ [1, 2, 3, 7] := by
    decide +kernel
  have hrun : Relation.ReflTransGen (SpacedStep localDeployment) ⟨localToken, initialState 2 0⟩ (spacedAt 7) := by
    apply Trace.reaches
    intro index hindex
    obtain ⟨hsender, hle, hrise⟩ := hspaced index hindex
    exact .call _ _ hsender (burnShare_mono hle hrise)
  exact ⟨by decide +kernel, by decide +kernel, (burn_spares_shares hdeploy hrun).1⟩

def closeCalls : List Call := [⟨7, 0, .approve 1 100⟩, ⟨7, 1, .deposit 7⟩, ⟨2, 2, .proposeRoot 12 1 6 3⟩,
  ⟨9, 7, .executeRoot⟩,
  ⟨9, 8, .burn⟩,
  ⟨2, 9, .proposeRoot 13 2 7 3⟩,
  ⟨9, 14, .executeRoot⟩,
  ⟨8, 15, .claim 2 8 5 []⟩]

def closePool : World :=
  World.afterAll localDeployment ⟨localToken, initialState 2 0⟩ closeCalls

/--
The burn has taken 2 of 7 and the operator's single wei is gone: its withdrawal fails although only the
providers' share has been claimed.
-/
theorem burn_takes_operator_share :
    Relation.ReflTransGen (Step localDeployment) ⟨localToken, initialState 2 0⟩ closePool ∧
    closePool.pool.cumulativeSpent = 7 ∧ closePool.pool.totalBurned = 2 ∧
    closePool.pool.totalClaimed = closePool.pool.cumulativeSpent * providerBps / bps ∧
    ¬ (closePool.pool.totalBurned + closePool.pool.cumulativeSpent * providerBps / bps +
      closePool.pool.cumulativeSpent * operatorBps / bps ≤ closePool.pool.cumulativeSpent) ∧
    (operatorClaimable closePool).toOption = some 1 ∧
    (withdrawOperator localDeployment closePool 2 2 1).message = some "conservation" := by
  refine ⟨World.reaches_afterAll localDeployment _ closeCalls (by decide), ?_⟩
  decide +kernel

end Mayhem.Pool
