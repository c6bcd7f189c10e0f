import Mayhem.Lib.Trace
import Mayhem.Pool.Effect

namespace Mayhem.Pool

inductive GovernanceMessage where
  | root (merkleRoot : Word)
      (newEpoch newCumulativeSpent previousEpoch previousCumulativeSpent nonce : Nat)
  | maxEpochDelta (newMaxEpochDelta nonce : Nat)
  | rescue (target : Address) (amount nonce : Nat)

/--
A signature that recovers to the governance signer is on a message the signer has signed for this pool.
-/
structure Unforged (d : Deployment) (signed : GovernanceMessage → Prop) : Prop where
  root : ∀ newRoot newEpoch newCumulativeSpent previousEpoch previousCumulativeSpent nonce signature,
    d.recoverRoot newRoot newEpoch newCumulativeSpent previousEpoch previousCumulativeSpent nonce
      signature = d.governanceSigner →
    signed (.root newRoot newEpoch newCumulativeSpent previousEpoch previousCumulativeSpent nonce)
  maxEpochDelta : ∀ newMax nonce signature, d.recoverMaxEpochDelta newMax nonce signature = d.governanceSigner →
    signed (.maxEpochDelta newMax nonce)
  rescue : ∀ target amount nonce signature, d.recoverRescue target amount nonce signature = d.governanceSigner →
    signed (.rescue target amount nonce)

variable {d : Deployment}

theorem World.after_effect (w : World) (call : Call) : (w.after d call).pool = w.pool ∨
    Effect d w.pool call.sender call.time call.action (w.after d call).pool := by
  unfold World.after
  cases hexec : w.exec d call with
  | ok => exact .inr (World.exec_effect hexec)
  | error _ => exact .inl rfl

namespace Effect

variable {pool pool' : State} {sender : Address} {time : Nat} {action : Action}

theorem pendingRoot_cases (h : Effect d pool sender time action pool') :
    pool'.pendingRoot = pool.pendingRoot ∨ pool'.pendingRoot = noRoot ∨
    ∃ newRoot newEpoch newCumulativeSpent signature,
      action = .proposeRoot newRoot newEpoch newCumulativeSpent signature ∧ sender = pool.owner ∧
      d.recoverRoot newRoot newEpoch newCumulativeSpent pool.epoch pool.cumulativeSpent
        pool.governanceNonce signature = d.governanceSigner ∧
      pool'.governanceNonce = pool.governanceNonce + 1 ∧
      pool'.pendingRoot = ⟨newRoot, newEpoch, newCumulativeSpent, pool.epoch, pool.cumulativeSpent,
        pool.governanceNonce, time + d.governanceDelay⟩ := by
  cases h with
  | proposeRoot newRoot newEpoch newCumulativeSpent signature howner _ _ hsigned =>
    exact .inr (.inr ⟨newRoot, newEpoch, newCumulativeSpent, signature, rfl, howner, hsigned, rfl, rfl⟩)
  | executeRoot => exact .inr (.inl rfl)
  | _ => exact .inl rfl

theorem pendingMaxEpochDelta_cases (h : Effect d pool sender time action pool') :
    pool'.pendingMaxEpochDelta = pool.pendingMaxEpochDelta ∨
    pool'.pendingMaxEpochDelta = noMaxEpochDelta ∨
    ∃ newMax signature, action = .proposeMaxEpochDelta newMax signature ∧ sender = pool.owner ∧
      d.recoverMaxEpochDelta newMax pool.governanceNonce signature = d.governanceSigner ∧
      pool'.governanceNonce = pool.governanceNonce + 1 ∧
      pool'.pendingMaxEpochDelta = ⟨newMax, pool.governanceNonce, time + d.governanceDelay⟩ := by
  cases h with
  | proposeMaxEpochDelta newMax signature howner _ _ hsigned =>
    exact .inr (.inr ⟨newMax, signature, rfl, howner, hsigned, rfl, rfl⟩)
  | executeMaxEpochDelta => exact .inr (.inl rfl)
  | _ => exact .inl rfl

end Effect

structure Governed (d : Deployment) (pool : State) : Prop where
  unrecorded : ∀ epoch, pool.epoch < epoch → pool.merkleRootAtEpoch epoch = 0
  single : pool.pendingRoot.executeAfter = 0 ∨ pool.pendingMaxEpochDelta.executeAfter = 0
  owner_ne : pool.owner ≠ d.governanceSigner
  pendingOwner_ne : pool.pendingOwner ≠ d.governanceSigner
  capped : isLocalDevelopmentChain d = true ∨ pool.maxEpochDelta ≠ 0

structure Extends (pool pool' : State) : Prop where
  nonce : pool.governanceNonce ≤ pool'.governanceNonce
  epoch : pool.epoch ≤ pool'.epoch
  cumulativeSpent : pool.cumulativeSpent ≤ pool'.cumulativeSpent
  recorded : ∀ epoch, pool.merkleRootAtEpoch epoch ≠ 0 →
    pool'.merkleRootAtEpoch epoch = pool.merkleRootAtEpoch epoch

namespace Extends

theorem refl (pool : State) : Extends pool pool := ⟨Nat.le_refl _, Nat.le_refl _, Nat.le_refl _, fun _ _ => rfl⟩

theorem trans {pool pool' pool'' : State} (h : Extends pool pool') (h' : Extends pool' pool'') :
    Extends pool pool'' where
  nonce := Nat.le_trans h.nonce h'.nonce
  epoch := Nat.le_trans h.epoch h'.epoch
  cumulativeSpent := Nat.le_trans h.cumulativeSpent h'.cumulativeSpent
  recorded := by
    intro epoch hrecorded
    have hkept := h.recorded epoch hrecorded
    rw [h'.recorded epoch (by rwa [hkept]), hkept]

end Extends

namespace Governed

variable {pool pool' : State} {sender : Address} {time : Nat} {action : Action}

theorem extends_effect (h : Governed d pool) (heffect : Effect d pool sender time action pool') :
    Extends pool pool' := by
  cases heffect with
  | executeRoot _ _ _ _ hvalid =>
    refine ⟨Nat.le_refl _, Nat.le_of_lt hvalid.epoch_lt, hvalid.spent_le, ?_⟩
    intro epoch hrecorded
    -- The root goes to an epoch past the current one, where nothing is recorded.
    have hne : epoch ≠ pool.pendingRoot.newEpoch := by
      rintro rfl
      exact hrecorded (h.unrecorded _ hvalid.epoch_lt)
    exact Function.update_of_ne hne _ _
  | proposeMaxEpochDelta | proposeRoot | proposeRescue =>
    exact ⟨Nat.le_succ _, Nat.le_refl _, Nat.le_refl _, fun _ _ => rfl⟩
  | _ => exact ⟨Nat.le_refl _, Nat.le_refl _, Nat.le_refl _, fun _ _ => rfl⟩

theorem effect (hsigner : d.governanceSigner ≠ zeroAddress) (h : Governed d pool)
    (heffect : Effect d pool sender time action pool') : Governed d pool' := by
  cases heffect with
  | transferOwnership _ _ hother => exact ⟨h.unrecorded, h.single, h.owner_ne, hother, h.capped⟩
  | acceptOwnership hpending =>
    subst hpending
    exact ⟨h.unrecorded, h.single, h.pendingOwner_ne, hsigner.symm, h.capped⟩
  | proposeMaxEpochDelta _ signature _ hroot =>
    exact ⟨h.unrecorded, .inl hroot, h.owner_ne, h.pendingOwner_ne, h.capped⟩
  | executeMaxEpochDelta _ _ hvalid =>
    exact ⟨h.unrecorded, .inr rfl, h.owner_ne, h.pendingOwner_ne, hvalid⟩
  | proposeRoot _ _ _ signature _ hcap =>
    exact ⟨h.unrecorded, .inr hcap, h.owner_ne, h.pendingOwner_ne, h.capped⟩
  | executeRoot _ _ _ _ hvalid =>
    refine ⟨?_, .inl rfl, h.owner_ne, h.pendingOwner_ne, h.capped⟩
    intro epoch hlt
    dsimp only at hlt ⊢
    rw [Function.update_of_ne (Nat.ne_of_gt hlt)]
    exact h.unrecorded epoch (Nat.lt_trans hvalid.epoch_lt hlt)
  | _ => exact ⟨h.unrecorded, h.single, h.owner_ne, h.pendingOwner_ne, h.capped⟩

end Governed

theorem governed_deploy {owner : Address} {maxEpochDelta : Nat} {pool : State}
    (hdeploy : deploy d owner maxEpochDelta = .ok pool) :
    d.governanceSigner ≠ zeroAddress ∧ Governed d pool ∧ pool.pendingRoot.executeAfter = 0 ∧
      pool.pendingMaxEpochDelta.executeAfter = 0 := by
  simp only [deploy, checks_iff, not_and_or, not_not] at hdeploy
  obtain ⟨-, hsigner, howner, -, hcap, rfl⟩ := hdeploy
  exact ⟨hsigner, ⟨fun _ _ => rfl, .inl rfl, Ne.symm howner, Ne.symm hsigner, hcap⟩, rfl, rfl⟩

def worldAt (d : Deployment) (start : World) (calls : List Call) (index : Nat) : World :=
  Trace.stateAt (World.after d) start calls index

def poolAt (d : Deployment) (start : World) (calls : List Call) (index : Nat) : State :=
  (worldAt d start calls index).pool

section Runs

variable (d) (start : World) (calls : List Call) (signed : GovernanceMessage → Prop)

def AcceptedAt (index time : Nat) (action : Action) : Prop :=
  ∃ sender w', calls[index]? = some ⟨sender, time, action⟩ ∧
    (worldAt d start calls index).exec d ⟨sender, time, action⟩ = .ok w'

def NonceUsedAt (index nonce : Nat) : Prop :=
  (poolAt d start calls index).governanceNonce = nonce ∧
    (poolAt d start calls (index + 1)).governanceNonce = nonce + 1

structure RootProposedAt (index : Nat) (root : PendingRoot) : Prop where
  call : ∃ time signature, root.executeAfter = time + d.governanceDelay ∧
    calls[index]? = some ⟨(poolAt d start calls index).owner, time,
      .proposeRoot root.merkleRoot root.newEpoch root.newCumulativeSpent signature⟩
  nonce : NonceUsedAt d start calls index root.nonce
  signature : signed (.root root.merkleRoot root.newEpoch root.newCumulativeSpent root.previousEpoch
    root.previousCumulativeSpent root.nonce)

structure MaxEpochDeltaProposedAt (index : Nat) (cap : PendingMaxEpochDelta) : Prop where
  call : ∃ time signature, cap.executeAfter = time + d.governanceDelay ∧
    calls[index]? = some ⟨(poolAt d start calls index).owner, time,
      .proposeMaxEpochDelta cap.newMaxEpochDelta signature⟩
  nonce : NonceUsedAt d start calls index cap.nonce
  signature : signed (.maxEpochDelta cap.newMaxEpochDelta cap.nonce)

end Runs

variable {start : World} {calls : List Call} {signed : GovernanceMessage → Prop}

variable {index : Nat}

theorem poolAt_succ {call : Call} (h : calls[index]? = some call) :
    poolAt d start calls (index + 1) = ((worldAt d start calls index).after d call).pool := by
  unfold poolAt worldAt
  rw [Trace.stateAt_succ h]

theorem governed_at (hsigner : d.governanceSigner ≠ zeroAddress) (hstart : Governed d start.pool)
    (hindex : index ≤ calls.length) : Governed d (poolAt d start calls index) := by
  refine Trace.invariant (fun _ (w : World) => Governed d w.pool) hstart ?_ hindex
  intro index call _ hgoverned
  obtain hsame | heffect := World.after_effect (d := d) (worldAt d start calls index) call
  . exact hsame ▸ hgoverned
  . exact hgoverned.effect hsigner heffect

theorem extends_between (hsigner : d.governanceSigner ≠ zeroAddress) (hstart : Governed d start.pool)
    {first last : Nat} (hle : first ≤ last) :
    Extends (poolAt d start calls first) (poolAt d start calls last) := by
  refine Trace.between (fun w w' : World => Extends w.pool w'.pool) (fun w => .refl w.pool)
    (fun _ _ _ h h' => Extends.trans h h') ?_ hle
  intro index call hcall
  obtain ⟨hindex, -⟩ := List.getElem?_eq_some_iff.mp hcall
  obtain hsame | heffect := World.after_effect (d := d) (worldAt d start calls index) call
  . unfold worldAt at hsame
    rw [hsame]
    exact .refl _
  . exact (governed_at hsigner hstart (Nat.le_of_lt hindex)).extends_effect heffect

theorem nonceUsedAt_unique (hsigner : d.governanceSigner ≠ zeroAddress) (hstart : Governed d start.pool)
    {other nonce : Nat} (h : NonceUsedAt d start calls index nonce)
    (h' : NonceUsedAt d start calls other nonce) : other = index := by
  obtain ⟨_, _⟩ := h
  obtain ⟨_, _⟩ := h'
  obtain hlt | heq | hgt := Nat.lt_trichotomy other index
  . have hgrown : Extends (poolAt d start calls (other + 1)) (poolAt d start calls index) :=
      extends_between hsigner hstart hlt
    have := hgrown.nonce
    omega
  . exact heq
  . have hgrown : Extends (poolAt d start calls (index + 1)) (poolAt d start calls other) :=
      extends_between hsigner hstart hgt
    have := hgrown.nonce
    omega

theorem pendingRoot_proposed (hunforged : Unforged d signed)
    (hstart : start.pool.pendingRoot.executeAfter = 0) (hindex : index ≤ calls.length)
    (hpending : (poolAt d start calls index).pendingRoot.executeAfter ≠ 0) :
    ∃ proposed, proposed < index ∧
      RootProposedAt d start calls signed proposed (poolAt d start calls index).pendingRoot ∧
      ∀ between, proposed < between → between ≤ index →
        (poolAt d start calls between).pendingRoot = (poolAt d start calls index).pendingRoot := by
  refine Trace.filled (fun w : World => w.pool.pendingRoot) (fun root => root.executeAfter ≠ 0)
    (RootProposedAt d start calls signed) (not_not.mpr hstart) ?_ hindex hpending
  intro index call hcall
  obtain hsame | heffect := World.after_effect (d := d) (worldAt d start calls index) call
  . exact .inl (congrArg State.pendingRoot hsame)
  obtain hsame | hnone | ⟨newRoot, newEpoch, newCumulativeSpent, signature, haction, howner, hsigned,
    hnonce, hroot⟩ := heffect.pendingRoot_cases
  . exact .inl hsame
  . refine .inr (.inl ?_)
    unfold worldAt at hnone
    rw [hnone]
    exact not_not.mpr rfl
  . refine .inr (.inr ?_)
    unfold worldAt at hroot
    rw [hroot]
    refine ⟨⟨call.time, signature, rfl, ?_⟩, ⟨rfl, ?_⟩, hunforged.root _ _ _ _ _ _ _ hsigned⟩
    . rw [hcall]
      exact congrArg some (Call.ext howner rfl haction)
    . rw [poolAt_succ hcall]
      exact hnonce

theorem pendingMaxEpochDelta_proposed (hunforged : Unforged d signed)
    (hstart : start.pool.pendingMaxEpochDelta.executeAfter = 0) (hindex : index ≤ calls.length)
    (hpending : (poolAt d start calls index).pendingMaxEpochDelta.executeAfter ≠ 0) :
    ∃ proposed, proposed < index ∧ MaxEpochDeltaProposedAt d start calls signed proposed
        (poolAt d start calls index).pendingMaxEpochDelta ∧
      ∀ between, proposed < between → between ≤ index → (poolAt d start calls between).pendingMaxEpochDelta =
          (poolAt d start calls index).pendingMaxEpochDelta := by
  refine Trace.filled (fun w : World => w.pool.pendingMaxEpochDelta) (fun cap => cap.executeAfter ≠ 0)
    (MaxEpochDeltaProposedAt d start calls signed) (not_not.mpr hstart) ?_ hindex hpending
  intro index call hcall
  obtain hsame | heffect := World.after_effect (d := d) (worldAt d start calls index) call
  . exact .inl (congrArg State.pendingMaxEpochDelta hsame)
  obtain hsame | hnone | ⟨newMax, signature, haction, howner, hsigned, hnonce, hcap⟩ :=
    heffect.pendingMaxEpochDelta_cases
  . exact .inl hsame
  . refine .inr (.inl ?_)
    unfold worldAt at hnone
    rw [hnone]
    exact not_not.mpr rfl
  . refine .inr (.inr ?_)
    unfold worldAt at hcap
    rw [hcap]
    refine ⟨⟨call.time, signature, rfl, ?_⟩, ⟨rfl, ?_⟩, hunforged.maxEpochDelta _ _ _ hsigned⟩
    . rw [hcall]
      exact congrArg some (Call.ext howner rfl haction)
    . rw [poolAt_succ hcall]
      exact hnonce

variable {time : Nat}

theorem AcceptedAt.effect {action : Action} (h : AcceptedAt d start calls index time action) :
    index < calls.length ∧ ∃ sender, Effect d (poolAt d start calls index) sender time action
      (poolAt d start calls (index + 1)) := by
  obtain ⟨sender, _, hcall, hexec⟩ := h
  refine ⟨(List.getElem?_eq_some_iff.mp hcall).1, sender, ?_⟩
  have heffect := World.exec_effect hexec
  rw [poolAt_succ hcall]
  unfold World.after
  rw [hexec]
  exact heffect

theorem governance_sound {owner : Address} {maxEpochDelta : Nat}
    (hdeploy : deploy d owner maxEpochDelta = .ok start.pool) (hunforged : Unforged d signed)
    (calls : List Call) :
    (∀ index time, AcceptedAt d start calls index time .executeRoot →
      (∃ proposed root, proposed < index ∧ RootProposedAt d start calls signed proposed root ∧
        (∀ between, proposed < between → between ≤ index → (poolAt d start calls between).pendingRoot = root) ∧
        (∀ other, NonceUsedAt d start calls other root.nonce → other = proposed) ∧
        root.executeAfter ≤ time ∧
        (poolAt d start calls (index + 1)).merkleRoot = root.merkleRoot ∧
        (poolAt d start calls (index + 1)).merkleRootAtEpoch root.newEpoch = root.merkleRoot ∧
        (poolAt d start calls (index + 1)).epoch = root.newEpoch ∧
        (poolAt d start calls (index + 1)).cumulativeSpent = root.newCumulativeSpent) ∧
      (poolAt d start calls index).epoch < (poolAt d start calls (index + 1)).epoch ∧
      ((isLocalDevelopmentChain d = true ∧ (poolAt d start calls index).maxEpochDelta = 0) ∨
        (poolAt d start calls (index + 1)).cumulativeSpent ≤
          (poolAt d start calls index).cumulativeSpent + (poolAt d start calls index).maxEpochDelta)) ∧
    (∀ index time, AcceptedAt d start calls index time .executeMaxEpochDelta →
      ∃ proposed cap, proposed < index ∧ MaxEpochDeltaProposedAt d start calls signed proposed cap ∧
        (∀ between, proposed < between → between ≤ index →
          (poolAt d start calls between).pendingMaxEpochDelta = cap) ∧
        (∀ other, NonceUsedAt d start calls other cap.nonce → other = proposed) ∧
        cap.executeAfter ≤ time ∧
        (poolAt d start calls (index + 1)).maxEpochDelta = cap.newMaxEpochDelta) ∧
    (∀ first last, first ≤ last → (poolAt d start calls first).epoch ≤ (poolAt d start calls last).epoch ∧
      (poolAt d start calls first).cumulativeSpent ≤ (poolAt d start calls last).cumulativeSpent ∧
      ∀ epoch, (poolAt d start calls first).merkleRootAtEpoch epoch ≠ 0 →
        (poolAt d start calls last).merkleRootAtEpoch epoch =
          (poolAt d start calls first).merkleRootAtEpoch epoch) ∧
    (∀ index, index ≤ calls.length → ((poolAt d start calls index).pendingRoot.executeAfter = 0 ∨
        (poolAt d start calls index).pendingMaxEpochDelta.executeAfter = 0) ∧
      (poolAt d start calls index).owner ≠ d.governanceSigner) := by
  obtain ⟨hsigner, hgoverned, hroot, hcap⟩ := governed_deploy hdeploy
  have hat : ∀ index, index ≤ calls.length → Governed d (poolAt d start calls index) :=
    fun index hindex => governed_at hsigner hgoverned hindex
  refine ⟨?_, ?_, ?_, ?_⟩
  . intro index time hexecuted
    obtain ⟨hindex, sender, heffect⟩ := hexecuted.effect
    generalize poolAt d start calls (index + 1) = after at heffect ⊢
    cases heffect with
    | executeRoot hpending hdue _ _ hvalid =>
      obtain ⟨proposed, hlt, hproposed, hbetween⟩ :=
        pendingRoot_proposed hunforged hroot (Nat.le_of_lt hindex) hpending
      refine ⟨⟨proposed, _, hlt, hproposed, hbetween, fun other =>
        nonceUsedAt_unique hsigner hgoverned hproposed.nonce,
        hdue, rfl, Function.update_self _ _ _, rfl, rfl⟩, hvalid.epoch_lt, ?_⟩
      obtain hlocal | hpos := (hat index (Nat.le_of_lt hindex)).capped
      . by_cases hzero : (poolAt d start calls index).maxEpochDelta = 0
        . exact .inl ⟨hlocal, hzero⟩
        . exact .inr (Nat.sub_le_iff_le_add'.mp (hvalid.capped (Nat.pos_of_ne_zero hzero)))
      . exact .inr (Nat.sub_le_iff_le_add'.mp (hvalid.capped (Nat.pos_of_ne_zero hpos)))
  . intro index time hexecuted
    obtain ⟨hindex, sender, heffect⟩ := hexecuted.effect
    generalize poolAt d start calls (index + 1) = after at heffect ⊢
    cases heffect with
    | executeMaxEpochDelta hpending hdue _ =>
      obtain ⟨proposed, hlt, hproposed, hbetween⟩ :=
        pendingMaxEpochDelta_proposed hunforged hcap (Nat.le_of_lt hindex) hpending
      exact ⟨proposed, _, hlt, hproposed, hbetween, fun other =>
        nonceUsedAt_unique hsigner hgoverned hproposed.nonce, hdue, rfl⟩
  . intro first last hle
    have hgrown : Extends (poolAt d start calls first) (poolAt d start calls last) :=
      extends_between hsigner hgoverned hle
    exact ⟨hgrown.epoch, hgrown.cumulativeSpent, hgrown.recorded⟩
  . intro index hindex
    exact ⟨(hat index hindex).single, (hat index hindex).owner_ne⟩

def publicDeployment : Deployment where
  self := 1
  governanceSigner := 3
  governanceDelay := 3600
  chainId := 1
  recoverRoot := fun newRoot newEpoch newCumulativeSpent previousEpoch previousCumulativeSpent nonce
      signature =>
    if [newRoot, newEpoch, newCumulativeSpent, previousEpoch, previousCumulativeSpent, nonce, signature] =
      [23, 1, 20, 0, 0, 1, 71] then 3 else 0
  recoverMaxEpochDelta := fun newMax nonce signature =>
    if [newMax, nonce, signature] = [30, 0, 70] then 3 else 0
  recoverRescue := fun _ _ _ _ => 0
  leaf := fun account cumulativeAmount => account + cumulativeAmount
  verifyProof := fun _ root leaf => root == leaf

def signedMessages : GovernanceMessage → Prop
  | .root newRoot newEpoch newCumulativeSpent previousEpoch previousCumulativeSpent nonce =>
    [newRoot, newEpoch, newCumulativeSpent, previousEpoch, previousCumulativeSpent, nonce] = [23, 1, 20, 0, 0, 1]
  | .maxEpochDelta newMax nonce => [newMax, nonce] = [30, 0]
  | .rescue .. => False

def publicCalls : List Call := [⟨7, 0, .approve 1 100⟩, ⟨7, 1, .deposit 60⟩, ⟨2, 2, .proposeMaxEpochDelta 30 70⟩,
  ⟨9, 3602, .executeMaxEpochDelta⟩,
  ⟨2, 3603, .proposeRoot 23 1 20 71⟩,
  ⟨9, 7203, .executeRoot⟩]

def publicPool : World where
  token := {
    balanceOf := fun account => if account = 7 then 100 else 0
    allowance := fun _ _ => 0 }
  pool := initialState 2 50

theorem unforged_publicDeployment : Unforged publicDeployment signedMessages where
  root := by
    intro _ _ _ _ _ nonce signature
    simp only [publicDeployment, signedMessages, List.cons.injEq]
    split
    . tauto
    . simp
  maxEpochDelta := by
    intro _ nonce signature
    simp only [publicDeployment, signedMessages, List.cons.injEq]
    split
    . tauto
    . simp
  rescue := by
    intro _ _ nonce signature
    simp [publicDeployment]

theorem governance_sound_public : (poolAt publicDeployment publicPool publicCalls 6).cumulativeSpent = 20 ∧
    (∃ proposed root, proposed < 5 ∧
      RootProposedAt publicDeployment publicPool publicCalls signedMessages proposed root ∧
      root.executeAfter ≤ 7203 ∧
      (poolAt publicDeployment publicPool publicCalls 6).cumulativeSpent = root.newCumulativeSpent) ∧
    (∃ proposed cap, proposed < 3 ∧
      MaxEpochDeltaProposedAt publicDeployment publicPool publicCalls signedMessages proposed cap ∧
      cap.executeAfter ≤ 3602) := by
  have hdeploy : deploy publicDeployment 2 50 = .ok publicPool.pool := rfl
  have hok : ((worldAt publicDeployment publicPool publicCalls 5).exec publicDeployment
        ⟨9, 7203, .executeRoot⟩).message = none ∧
      ((worldAt publicDeployment publicPool publicCalls 3).exec publicDeployment
        ⟨9, 3602, .executeMaxEpochDelta⟩).message = none ∧
      (poolAt publicDeployment publicPool publicCalls 6).cumulativeSpent = 20 := by
    decide +kernel
  obtain ⟨hroot, hcap, hspent⟩ := hok
  obtain ⟨hroots, hcaps, -⟩ := governance_sound hdeploy unforged_publicDeployment publicCalls
  obtain ⟨w', hw'⟩ := Except.message_eq_none_iff.mp hroot
  obtain ⟨⟨proposed, root, hlt, hproposed, -, -, hdue, -, -, -, hroot⟩, -⟩ := hroots 5 7203 ⟨9, w', rfl, hw'⟩
  obtain ⟨w'', hw''⟩ := Except.message_eq_none_iff.mp hcap
  obtain ⟨proposed', cap, hlt', hproposed', -, -, hdue', -⟩ := hcaps 3 3602 ⟨9, w'', rfl, hw''⟩
  exact ⟨hspent, ⟨proposed, root, hlt, hproposed, hdue, hroot⟩, ⟨proposed', cap, hlt', hproposed', hdue'⟩⟩

def uncappedCalls : List Call := [⟨7, 0, .approve 1 100⟩, ⟨7, 1, .deposit 60⟩, ⟨2, 2, .proposeRoot 23 1 20 3⟩,
  ⟨9, 7, .executeRoot⟩]

theorem uncapped_root_exceeds_zero : (deploy localDeployment 2 0).message = none ∧
    ((worldAt localDeployment ⟨localToken, initialState 2 0⟩ uncappedCalls 3).exec localDeployment
      ⟨9, 7, .executeRoot⟩).message = none ∧
    (poolAt localDeployment ⟨localToken, initialState 2 0⟩ uncappedCalls 3).maxEpochDelta = 0 ∧
    (poolAt localDeployment ⟨localToken, initialState 2 0⟩ uncappedCalls 3).cumulativeSpent = 0 ∧
    (poolAt localDeployment ⟨localToken, initialState 2 0⟩ uncappedCalls 4).cumulativeSpent = 20 := by
  decide +kernel

structure Executable (d : Deployment) (pool : State) : Prop extends Governed d pool where
  root : pool.pendingRoot.executeAfter ≠ 0 → pool.epoch = pool.pendingRoot.previousEpoch ∧
    pool.cumulativeSpent = pool.pendingRoot.previousCumulativeSpent ∧
    ValidRoot pool pool.pendingRoot.merkleRoot pool.pendingRoot.newEpoch pool.pendingRoot.newCumulativeSpent
  cap : pool.pendingMaxEpochDelta.executeAfter ≠ 0 →
    isLocalDevelopmentChain d = true ∨ pool.pendingMaxEpochDelta.newMaxEpochDelta ≠ 0

theorem Executable.effect {pool pool' : State} {sender : Address} {action : Action}
    (hsigner : d.governanceSigner ≠ zeroAddress) (h : Executable d pool)
    (heffect : Effect d pool sender time action pool') : Executable d pool' := by
  refine ⟨h.toGoverned.effect hsigner heffect, ?_, ?_⟩
  . cases heffect with
    | executeMaxEpochDelta hpending =>
      -- no root waits while a cap is executed
      intro hroot
      exact absurd (h.single.resolve_left hroot) hpending
    | proposeRoot _ _ _ _ _ _ hvalid => exact fun _ => ⟨rfl, rfl, { hvalid with }⟩
    | executeRoot => exact fun hnone => absurd rfl hnone
    | deposit =>
      intro hroot
      obtain ⟨hepoch, hspent, hvalid⟩ := h.root hroot
      exact ⟨hepoch, hspent,
        { hvalid with spent_le_deposited := Nat.le_add_right_of_le hvalid.spent_le_deposited }⟩
    | _ =>
      intro hroot
      obtain ⟨hepoch, hspent, hvalid⟩ := h.root hroot
      exact ⟨hepoch, hspent, { hvalid with }⟩
  . cases heffect with
    | proposeMaxEpochDelta _ _ _ _ hvalid => exact fun _ => hvalid
    | executeMaxEpochDelta => exact fun hnone => absurd rfl hnone
    | _ => exact h.cap

/--
Nothing that happens while a root or a cap waits keeps it from being executed once its delay is over.
-/
theorem proposals_executable {w : World} {owner : Address} {maxEpochDelta : Nat}
    (hdeploy : deploy d owner maxEpochDelta = .ok start.pool) (hrun : Relation.ReflTransGen (Step d) start w) :
    (w.pool.pendingRoot.executeAfter ≠ 0 → w.pool.pendingRoot.executeAfter ≤ time →
      ∃ w', Pool.executeRoot w time = .ok w') ∧
    (w.pool.pendingMaxEpochDelta.executeAfter ≠ 0 → w.pool.pendingMaxEpochDelta.executeAfter ≤ time →
      ∃ w', Pool.executeMaxEpochDelta d w time = .ok w') := by
  obtain ⟨hsigner, hgoverned, hroot, hcap⟩ := governed_deploy hdeploy
  have h : Executable d w.pool := by
    refine Run.invariant (fun w => Executable d w.pool) ⟨hgoverned, absurd hroot, absurd hcap⟩ ?_ hrun
    intro w _ hbefore hstep
    cases hstep with
    | call call =>
      obtain hsame | heffect := World.after_effect (d := d) w call
      . exact hsame ▸ hbefore
      . exact hbefore.effect hsigner heffect
  constructor
  . intro hpending hdue
    obtain ⟨hepoch, hspent, hvalid⟩ := h.root hpending
    simp only [executeRoot, validateRoot, checks_iff, not_lt, not_le, not_not, not_and]
    exact ⟨_, hpending, hdue, hepoch, hspent, ⟨hvalid.root_ne, hvalid.epoch_lt, hvalid.spent_le,
      hvalid.spent_le_deposited, hvalid.capped⟩, rfl⟩
  . intro hpending hdue
    simp only [executeMaxEpochDelta, validateMaxEpochDelta, checks_iff, not_lt, not_not, not_and_or]
    exact ⟨_, hpending, hdue, h.single.resolve_right hpending, h.cap hpending, rfl⟩

theorem proposals_executable_public :
    ∃ w', Pool.executeRoot (publicPool.afterAll publicDeployment (publicCalls.take 5)) 7203 = .ok w' := by
  have hdeploy : deploy publicDeployment 2 50 = .ok publicPool.pool := rfl
  have hrun := World.reaches_afterAll publicDeployment publicPool (publicCalls.take 5) (by decide)
  exact (proposals_executable hdeploy hrun).1 (by decide +kernel) (by decide +kernel)

end Mayhem.Pool
