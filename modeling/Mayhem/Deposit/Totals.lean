import Mayhem.Frozen

namespace Mayhem

inductive EvidenceEntry where
  | credit (au : Nat)
  | reversal (disputedAu clawbackAu absorbedAu : Nat)
deriving DecidableEq

namespace EvidenceEntry

def isReversal : EvidenceEntry → Bool
  | .credit _ => false
  | .reversal _ _ _ => true

def creditedAu : EvidenceEntry → Nat
  | .credit au => au
  | .reversal _ _ _ => 0

def disputedAu : EvidenceEntry → Nat
  | .credit _ => 0
  | .reversal disputedAu _ _ => disputedAu

def clawbackAu : EvidenceEntry → Nat
  | .credit _ => 0
  | .reversal _ clawbackAu _ => clawbackAu

def absorbedAu : EvidenceEntry → Nat
  | .credit _ => 0
  | .reversal _ _ absorbedAu => absorbedAu

structure Sound (entry : EvidenceEntry) : Prop where
  split : entry.clawbackAu + entry.absorbedAu = entry.disputedAu
  pos : entry.isReversal → 0 < entry.disputedAu

def next (entry : EvidenceEntry) (merkleRoot : Digest) (current : Option DepositRoot) : DepositRoot :=
  let count := (current.map DepositRoot.count).getD 0 + 1
  let auTotal := (current.map DepositRoot.auTotal).getD 0
  match entry with
  | .credit au => ⟨merkleRoot, count, auTotal + au, none⟩
  | .reversal disputedAu clawbackAu absorbedAu =>
    ⟨merkleRoot, count, auTotal,
      some (DepositReversals.add (current.bind DepositRoot.reversals) disputedAu clawbackAu absorbedAu)⟩

end EvidenceEntry

namespace Ledger

variable {host : DepositHost} {s s' : Ledger} {epoch : Nat}

def Records (s : Ledger) (epoch : Nat) (entry : EvidenceEntry) (root : DepositRoot) : Prop :=
  ∃ merkleRoot, root = entry.next merkleRoot (s.epochs.depositRoot.get epoch)

theorem nextDepositRoot_records (host : DepositHost) (s : Ledger) (epoch : Nat) (leaf : Digest) (au : Nat) :
    s.Records epoch (.credit au) (s.nextDepositRoot host epoch leaf au) := by
  unfold Records nextDepositRoot
  cases s.epochs.depositRoot.get epoch with
  | none => exact ⟨leaf, by simp [EvidenceEntry.next]⟩
  | some => exact ⟨_, rfl⟩

theorem nextDepositReversalRoot_records (host : DepositHost) (s : Ledger) (epoch : Nat) (leaf : Digest)
    (disputedAu clawbackAu absorbedAu : Nat) : s.Records epoch (.reversal disputedAu clawbackAu absorbedAu)
      (s.nextDepositReversalRoot host epoch leaf disputedAu clawbackAu absorbedAu) := by
  unfold Records nextDepositReversalRoot
  cases s.epochs.depositRoot.get epoch with
  | none => exact ⟨leaf, rfl⟩
  | some => exact ⟨_, rfl⟩

inductive DepositOp where
  | tnk (sender : PublicKey) (value : TnkDepositValue)
  | tap (sender : PublicKey) (value : TapDepositValue)
  | tapReversal (sender : PublicKey) (value : TapDepositReversalValue)
  | fiat (sender : PublicKey) (value : FiatDepositValue)
  | chargeback (sender : PublicKey) (value : FiatChargebackValue)

namespace DepositOp

def exec (host : DepositHost) (s : Ledger) : DepositOp → Ledger
  | .tnk sender value => (s.tnkDeposit host sender value).1
  | .tap sender value => (s.tapDeposit host sender value).1
  | .tapReversal sender value => (s.tapDepositReversal host sender value).1
  | .fiat sender value => (s.fiatDeposit host sender value).1
  | .chargeback sender value => (s.fiatChargeback host sender value).1

def recorded (host : DepositHost) (s : Ledger) : DepositOp → Option (Nat × EvidenceEntry)
  | .tnk sender value =>
    match s.prepareTnkDeposit host sender value with
    | .ok (.inr plan) => some (plan.credit.epoch, .credit plan.credit.au)
    | _ => none
  | .tap sender value =>
    match s.prepareTapDeposit host sender value with
    | .ok (.inr plan) => some (plan.seen.epoch, .credit plan.seen.au)
    | _ => none
  | .tapReversal sender value =>
    match s.prepareTapDepositReversal host sender value with
    | .ok (.inr plan) => some (plan.seen.epoch,
      .reversal plan.seen.au plan.seen.clawbackAu plan.seen.networkAbsorbedAu)
    | _ => none
  | .fiat sender value =>
    match s.prepareFiatDeposit host sender value with
    | .ok (.inr plan) => some (plan.seen.epoch, .credit plan.seen.au)
    | _ => none
  | .chargeback sender value =>
    match s.prepareFiatChargeback host sender value with
    | .ok (.inr plan) => some (plan.seen.epoch,
      .reversal plan.seen.au plan.seen.clawbackAu plan.seen.networkAbsorbedAu)
    | _ => none

def entriesFor (host : DepositHost) (s : Ledger) (epoch : Nat) (op : DepositOp) : List EvidenceEntry :=
  match op.recorded host s with
  | some (recordedFor, entry) => if recordedFor = epoch then [entry] else []
  | none => []

end DepositOp

def Adjusts (s : Ledger) (user : PublicKey) (rail : Rail) (next : BalanceRecord) (takenAu givenAu : Nat) : Prop :=
  ∃ balance, s.balanceRecord user rail = .ok balance ∧ next.scope = balance.scope ∧
    next.au + takenAu = balance.au + givenAu

variable {sender : PublicKey}

theorem prepareTnkDeposit_eq_ok {value : TnkDepositValue} {plan : TnkCreditPlan}
    (h : s.prepareTnkDeposit host sender value = .ok (.inr plan)) :
    s.Records plan.credit.epoch (.credit plan.credit.au) plan.root ∧
      s.Adjusts plan.credit.user .tnk plan.balance 0 plan.credit.au := by
  unfold prepareTnkDeposit at h
  cases hcredited : s.deposits.tnkCredited.get value.memoHash with
  | some credit => simp [hcredited] at h
  | none =>
    simp only [hcredited, checks_iff, Sum.inr.injEq] at h
    obtain ⟨-, -, -, -, -, _, -, ⟨au, _⟩, -, balance, hread, rfl⟩ := h
    exact ⟨nextDepositRoot_records .., balance, hread, rfl, rfl⟩

theorem prepareTapDeposit_eq_ok {value : TapDepositValue} {plan : TapCreditPlan}
    (h : s.prepareTapDeposit host sender value = .ok (.inr plan)) :
    s.Records plan.seen.epoch (.credit plan.seen.au) plan.root ∧
      s.Adjusts plan.seen.who .tap plan.balance 0 plan.seen.au := by
  unfold prepareTapDeposit at h
  cases hseen : s.deposits.tap.get value.identity with
  | some seen => simp [hseen] at h
  | none =>
    simp only [hseen, checks_iff, Sum.inr.injEq] at h
    obtain ⟨-, -, -, _, -, -, -, _, -, balance, hread, -, rfl⟩ := h
    exact ⟨nextDepositRoot_records .., balance, hread, rfl, rfl⟩

theorem prepareFiatDeposit_eq_ok {value : FiatDepositValue} {plan : FiatCreditPlan}
    (h : s.prepareFiatDeposit host sender value = .ok (.inr plan)) :
    s.Records plan.seen.epoch (.credit plan.seen.au) plan.root ∧
      s.Adjusts plan.seen.who .fiat plan.balance 0 plan.seen.au := by
  unfold prepareFiatDeposit at h
  cases hseen : s.deposits.fiat.get value.extRefHash with
  | some seen => simp [hseen] at h
  | none =>
    simp only [hseen, checks_iff, Sum.inr.injEq] at h
    obtain ⟨-, -, -, _, -, -, balance, hread, -, rfl⟩ := h
    exact ⟨nextDepositRoot_records .., balance, hread, rfl, rfl⟩

theorem clawback_split (balance : BalanceRecord) (au epoch : Nat) :
    (clawback balance au epoch).2.1 + (clawback balance au epoch).2.2 = au := by
  simp only [clawback]
  omega

theorem clawback_au (balance : BalanceRecord) (au epoch : Nat) :
    (clawback balance au epoch).1.au + (clawback balance au epoch).2.1 = balance.au := by
  simp only [clawback]
  omega

theorem prepareTapDepositReversal_eq_ok {value : TapDepositReversalValue} {plan : TapReversalPlan}
    (h : s.prepareTapDepositReversal host sender value = .ok (.inr plan)) :
    s.Records plan.seen.epoch (.reversal plan.seen.au plan.seen.clawbackAu plan.seen.networkAbsorbedAu)
      plan.root ∧ plan.seen.clawbackAu + plan.seen.networkAbsorbedAu = plan.seen.au ∧ 0 < plan.seen.au ∧
      s.Adjusts plan.seen.who .tap plan.balance plan.seen.clawbackAu 0 := by
  unfold prepareTapDepositReversal at h
  cases hseen : s.deposits.tapReversal.get value.identity with
  | some seen => simp [hseen] at h
  | none =>
    simp only [hseen, checks_iff, Sum.inr.injEq] at h
    obtain ⟨-, -, -, credited, -, -, -, hpos, balance, hread, -, rfl⟩ := h
    exact ⟨nextDepositReversalRoot_records .., clawback_split balance credited.au value.epoch,
      Nat.pos_of_ne_zero hpos, balance, hread, rfl, clawback_au balance credited.au value.epoch⟩

theorem prepareFiatChargeback_eq_ok {value : FiatChargebackValue} {plan : ChargebackPlan}
    (h : s.prepareFiatChargeback host sender value = .ok (.inr plan)) :
    s.Records plan.seen.epoch (.reversal plan.seen.au plan.seen.clawbackAu plan.seen.networkAbsorbedAu)
      plan.root ∧ plan.seen.clawbackAu + plan.seen.networkAbsorbedAu = plan.seen.au ∧ 0 < plan.seen.au ∧
      s.Adjusts plan.seen.who .fiat plan.balance plan.seen.clawbackAu 0 := by
  unfold prepareFiatChargeback at h
  cases hseen : s.deposits.fiatChargeback.get (value.extRefHash, value.disputeRefHash) with
  | some seen => simp [hseen] at h
  | none =>
    simp only [hseen, checks_iff, Sum.inr.injEq] at h
    obtain ⟨-, -, -, -, _, -, hpos, _, -, -, -, -, balance, hread, -, rfl⟩ := h
    exact ⟨nextDepositReversalRoot_records .., clawback_split balance value.au value.epoch,
      Nat.pos_of_ne_zero hpos, balance, hread, rfl, clawback_au balance value.au value.epoch⟩

namespace DepositOp

inductive Effect (host : DepositHost) (s : Ledger) : DepositOp → Ledger → Option (Nat × EvidenceEntry) → Prop
  | kept {op : DepositOp} (hnone : op.recorded host s = none) : Effect host s op s none
  | tnk {sender value} (plan : TnkCreditPlan) (hplan : s.prepareTnkDeposit host sender value = .ok (.inr plan)) :
      Effect host s (.tnk sender value) (s.writeTnkDeposit plan)
        (some (plan.credit.epoch, .credit plan.credit.au))
  | tap {sender value} (plan : TapCreditPlan) (hplan : s.prepareTapDeposit host sender value = .ok (.inr plan)) :
      Effect host s (.tap sender value) (s.writeTapDeposit plan) (some (plan.seen.epoch, .credit plan.seen.au))
  | fiat {sender value} (plan : FiatCreditPlan)
      (hplan : s.prepareFiatDeposit host sender value = .ok (.inr plan)) :
      Effect host s (.fiat sender value) (s.writeFiatDeposit plan) (some (plan.seen.epoch, .credit plan.seen.au))
  | tapReversal {sender value} (plan : TapReversalPlan)
      (hplan : s.prepareTapDepositReversal host sender value = .ok (.inr plan)) :
      Effect host s (.tapReversal sender value) (s.writeTapDepositReversal plan)
        (some (plan.seen.epoch, .reversal plan.seen.au plan.seen.clawbackAu plan.seen.networkAbsorbedAu))
  | chargeback {sender value} (plan : ChargebackPlan)
      (hplan : s.prepareFiatChargeback host sender value = .ok (.inr plan)) :
      Effect host s (.chargeback sender value) (s.writeFiatChargeback plan)
        (some (plan.seen.epoch, .reversal plan.seen.au plan.seen.clawbackAu plan.seen.networkAbsorbedAu))

theorem effect (host : DepositHost) (s : Ledger) (op : DepositOp) :
    op.Effect host s (op.exec host s) (op.recorded host s) := by
  cases op with
  | tnk sender value =>
    rcases hplan : s.prepareTnkDeposit host sender value with message | seen | plan <;>
      simp only [exec, recorded, tnkDeposit, hplan]
    iterate 2 exact .kept (by simp only [recorded, hplan])
    exact .tnk plan hplan
  | tap sender value =>
    rcases hplan : s.prepareTapDeposit host sender value with message | seen | plan <;>
      simp only [exec, recorded, tapDeposit, hplan]
    iterate 2 exact .kept (by simp only [recorded, hplan])
    exact .tap plan hplan
  | tapReversal sender value =>
    rcases hplan : s.prepareTapDepositReversal host sender value with message | seen | plan <;>
      simp only [exec, recorded, tapDepositReversal, hplan]
    iterate 2 exact .kept (by simp only [recorded, hplan])
    exact .tapReversal plan hplan
  | fiat sender value =>
    rcases hplan : s.prepareFiatDeposit host sender value with message | seen | plan <;>
      simp only [exec, recorded, fiatDeposit, hplan]
    iterate 2 exact .kept (by simp only [recorded, hplan])
    exact .fiat plan hplan
  | chargeback sender value =>
    rcases hplan : s.prepareFiatChargeback host sender value with message | seen | plan <;>
      simp only [exec, recorded, fiatChargeback, hplan]
    iterate 2 exact .kept (by simp only [recorded, hplan])
    exact .chargeback plan hplan

theorem Effect.unchanged {op : DepositOp} (h : op.Effect host s s' none) : s' = s := by
  cases h
  rfl

theorem Effect.depositRoot_eq {op : DepositOp} {recordedFor : Nat} {entry : EvidenceEntry}
    (h : op.Effect host s s' (some (recordedFor, entry))) :
    entry.Sound ∧ ∃ root, s.Records recordedFor entry root ∧
      s'.epochs.depositRoot = s.epochs.depositRoot.put recordedFor root := by
  have hcredit (au : Nat) : (EvidenceEntry.credit au).Sound := ⟨rfl, by simp [EvidenceEntry.isReversal]⟩
  cases h with
  | tnk plan hplan => exact ⟨hcredit _, plan.root, (prepareTnkDeposit_eq_ok hplan).1, rfl⟩
  | tap plan hplan => exact ⟨hcredit _, plan.root, (prepareTapDeposit_eq_ok hplan).1, rfl⟩
  | fiat plan hplan => exact ⟨hcredit _, plan.root, (prepareFiatDeposit_eq_ok hplan).1, rfl⟩
  | tapReversal plan hplan =>
    obtain ⟨hroot, hsplit, hpos, -⟩ := prepareTapDepositReversal_eq_ok hplan
    refine ⟨⟨hsplit, fun _ => hpos⟩, plan.root, hroot, ?_⟩
    rw [writeTapDepositReversal]
    split <;> rfl
  | chargeback plan hplan =>
    obtain ⟨hroot, hsplit, hpos, -⟩ := prepareFiatChargeback_eq_ok hplan
    exact ⟨⟨hsplit, fun _ => hpos⟩, plan.root, hroot, rfl⟩

end DepositOp

inductive DepositRun (host : DepositHost) (epoch : Nat) (s₀ : Ledger) : Ledger → List EvidenceEntry → Prop where
  | start : DepositRun host epoch s₀ s₀ []
  | op {s : Ledger} {log : List EvidenceEntry} (op : DepositOp) : DepositRun host epoch s₀ s log →
    DepositRun host epoch s₀ (op.exec host s) (log ++ op.entriesFor host s epoch)
  | other {s s' : Ledger} {log : List EvidenceEntry} : DepositRun host epoch s₀ s log →
    s'.epochs.depositRoot.get epoch = s.epochs.depositRoot.get epoch →
    DepositRun host epoch s₀ s' log

end Ledger

def reversalTotals (root : Option DepositRoot) : DepositReversals :=
  (root.bind DepositRoot.reversals).getD ⟨0, 0, 0, 0⟩

structure ExactTotals (log : List EvidenceEntry) (root : Option DepositRoot) : Prop where
  count : (root.map DepositRoot.count).getD 0 = log.length
  credited : (root.map DepositRoot.auTotal).getD 0 = (log.map EvidenceEntry.creditedAu).sum
  reversed : (reversalTotals root).reversedAuTotal = (log.map EvidenceEntry.disputedAu).sum
  clawback : (reversalTotals root).clawbackAuTotal = (log.map EvidenceEntry.clawbackAu).sum
  absorbed : (reversalTotals root).networkAbsorbedAuTotal = (log.map EvidenceEntry.absorbedAu).sum
  split : (reversalTotals root).clawbackAuTotal + (reversalTotals root).networkAbsorbedAuTotal =
    (reversalTotals root).reversedAuTotal

structure Tracks (log : List EvidenceEntry) (root : Option DepositRoot) : Prop where
  sound : ∀ entry ∈ log, entry.Sound
  count : (root.map DepositRoot.count).getD 0 = log.length
  credited : (root.map DepositRoot.auTotal).getD 0 = (log.map EvidenceEntry.creditedAu).sum
  tail : ∃ before after, log = before ++ after ∧ (∀ entry ∈ after, entry.isReversal) ∧
    (∀ entry ∈ before.getLast?, entry.isReversal = false) ∧
    (reversalTotals root).reversedAuTotal = (after.map EvidenceEntry.disputedAu).sum ∧
    (reversalTotals root).clawbackAuTotal = (after.map EvidenceEntry.clawbackAu).sum ∧
    (reversalTotals root).networkAbsorbedAuTotal = (after.map EvidenceEntry.absorbedAu).sum

namespace Tracks

variable {log : List EvidenceEntry} {root : Option DepositRoot}

theorem nil : Tracks [] none := by
  refine ⟨by simp, rfl, rfl, [], [], rfl, by simp, by simp, rfl, rfl, rfl⟩

theorem snoc (htracks : Tracks log root) {entry : EvidenceEntry} (hsound : entry.Sound)
    (merkleRoot : Digest) : Tracks (log ++ [entry]) (some (entry.next merkleRoot root)) := by
  have hcount := htracks.count
  have hcredited := htracks.credited
  obtain ⟨before, after, hlog, hafter, hbefore, hreversed, hclawback, habsorbed⟩ := htracks.tail
  have hsounds : ∀ e ∈ log ++ [entry], e.Sound := by
    intro e he
    rcases List.mem_append.mp he with he | he
    . exact htracks.sound e he
    . rw [List.mem_singleton.mp he]
      exact hsound
  cases entry with
  | credit au =>
    -- the new record starts without reversals, whatever the old one had
    refine ⟨hsounds, ?_, ?_, log ++ [.credit au], [], by simp, by simp, ?_, rfl, rfl, rfl⟩
    . simp [EvidenceEntry.next, hcount]
    . simp [EvidenceEntry.next, hcredited, EvidenceEntry.creditedAu]
    . simp [EvidenceEntry.isReversal]
  | reversal disputedAu clawbackAu absorbedAu =>
    refine ⟨hsounds, ?_, ?_, before, after ++ [.reversal disputedAu clawbackAu absorbedAu], ?_, ?_,
      hbefore, ?_, ?_, ?_⟩
    . simp [EvidenceEntry.next, hcount]
    . simp [EvidenceEntry.next, hcredited, EvidenceEntry.creditedAu]
    . rw [hlog, List.append_assoc]
    . intro e he
      rcases List.mem_append.mp he with he | he
      . exact hafter e he
      . rw [List.mem_singleton.mp he]
        rfl
    all_goals
      simp only [reversalTotals] at hreversed hclawback habsorbed
      simp [reversalTotals, EvidenceEntry.next, DepositReversals.add, EvidenceEntry.disputedAu,
        EvidenceEntry.clawbackAu, EvidenceEntry.absorbedAu, hreversed, hclawback, habsorbed]

end Tracks

def CreditsFirst (log : List EvidenceEntry) : Prop :=
  log.Pairwise fun earlier later => earlier.isReversal → later.isReversal

instance (log : List EvidenceEntry) : Decidable (CreditsFirst log) :=
  inferInstanceAs (Decidable (log.Pairwise fun earlier later => earlier.isReversal → later.isReversal))

theorem EvidenceEntry.disputedAu_eq_zero_iff {entry : EvidenceEntry} (h : entry.Sound) :
    entry.disputedAu = 0 ↔ entry.isReversal = false := by
  cases entry with
  | credit => simp [EvidenceEntry.disputedAu, EvidenceEntry.isReversal]
  | reversal disputedAu =>
    have hpos := h.pos rfl
    simp only [EvidenceEntry.isReversal, Bool.true_eq_false, iff_false]
    omega

theorem creditsFirst_append_iff {before after : List EvidenceEntry}
    (hbefore : ∀ entry ∈ before.getLast?, entry.isReversal = false)
    (hafter : ∀ entry ∈ after, entry.isReversal) :
    CreditsFirst (before ++ after) ↔ ∀ entry ∈ before, entry.isReversal = false := by
  constructor
  . intro h entry hentry
    obtain ⟨front, last, rfl⟩ : ∃ front last, before = front ++ [last] := by
      rcases List.eq_nil_or_concat before with rfl | ⟨front, last, hconcat⟩
      . simp at hentry
      . exact ⟨front, last, by simpa using hconcat⟩
    have hlast : last.isReversal = false := hbefore last (by simp)
    rcases List.mem_append.mp hentry with hfront | hself
    . have hpairs := (List.pairwise_append.mp (List.pairwise_append.mp h).1).2.2
      cases hreversal : entry.isReversal with
      | false => rfl
      | true =>
        have hlate := hpairs entry hfront last List.mem_cons_self hreversal
        rw [hlast] at hlate
        cases hlate
    . rw [List.mem_singleton.mp hself, hlast]
  . intro h
    refine List.pairwise_append.mpr ⟨?_, ?_, ?_⟩
    . apply List.pairwise_of_forall_mem_list
      intro a ha b _ hreversal
      rw [h a ha] at hreversal
      cases hreversal
    . apply List.pairwise_of_forall_mem_list
      intro a _ b hb _
      exact hafter b hb
    . intro a _ b hb _
      exact hafter b hb

theorem Tracks.exactTotals_iff {log : List EvidenceEntry} {root : Option DepositRoot}
    (htracks : Tracks log root) : ExactTotals log root ↔ CreditsFirst log := by
  obtain ⟨before, after, rfl, hafter, hbefore, hreversed, hclawback, habsorbed⟩ := htracks.tail
  have hsound : ∀ entry ∈ before, entry.Sound := fun e he => htracks.sound e (List.mem_append_left _ he)
  rw [creditsFirst_append_iff hbefore hafter]
  have hlost : (before.map EvidenceEntry.disputedAu).sum = 0 ↔ ∀ entry ∈ before, entry.isReversal = false := by
    rw [List.sum_eq_zero_iff_forall_eq_nat, List.forall_mem_map]
    apply forall₂_congr
    intro entry hentry
    exact EvidenceEntry.disputedAu_eq_zero_iff (hsound entry hentry)
  rw [← hlost]
  constructor
  . intro hexact
    have htotal := hexact.reversed
    rw [hreversed, List.map_append, List.sum_append] at htotal
    omega
  . intro _
    have hsplit (l : List EvidenceEntry) (hl : ∀ entry ∈ l, entry.Sound) :
        (l.map EvidenceEntry.clawbackAu).sum + (l.map EvidenceEntry.absorbedAu).sum =
          (l.map EvidenceEntry.disputedAu).sum := by
      induction l with
      | nil => rfl
      | cons entry _ ih =>
        have hentry := (hl entry List.mem_cons_self).split
        have hrest := ih fun e he => hl e (List.mem_cons_of_mem entry he)
        simp only [List.map_cons, List.sum_cons]
        omega
    have hearly := hsplit before hsound
    have hlate := hsplit after fun e he => htracks.sound e (List.mem_append_right _ he)
    refine ⟨htracks.count, htracks.credited, ?_, ?_, ?_, ?_⟩
    . rw [hreversed, List.map_append, List.sum_append]
      omega
    . rw [hclawback, List.map_append, List.sum_append]
      omega
    . rw [habsorbed, List.map_append, List.sum_append]
      omega
    . rw [hclawback, habsorbed, hreversed]
      exact hlate

namespace Ledger

theorem DepositRun.tracks {host : DepositHost} {epoch : Nat} {s₀ s : Ledger} {log : List EvidenceEntry}
    (hnone : s₀.epochs.depositRoot.get epoch = none) (hrun : DepositRun host epoch s₀ s log) :
    Tracks log (s.epochs.depositRoot.get epoch) := by
  induction hrun with
  | start =>
    rw [hnone]
    exact .nil
  | @op s log op _ ih =>
    have heffect := op.effect host s
    unfold DepositOp.entriesFor
    cases hrecorded : op.recorded host s with
    | none =>
      rw [hrecorded] at heffect
      rw [heffect.unchanged]
      simpa using ih
    | some recorded =>
      obtain ⟨_, _⟩ := recorded
      rw [hrecorded] at heffect
      obtain ⟨hsound, _, ⟨merkleRoot, rfl⟩, hroot⟩ := heffect.depositRoot_eq
      dsimp only
      rw [hroot]
      split
      case isTrue heq =>
        subst heq
        rw [Table.get_put_self]
        exact ih.snoc hsound merkleRoot
      case isFalse hne =>
        rw [Table.get_put_of_ne _ _ (Ne.symm hne), List.append_nil]
        exact ih
  | other _ hsame ih =>
    rw [hsame]
    exact ih

/--
After any sequence of deposits and reversals the record of the epoch has the exact totals just in case no
deposit was credited to the epoch after a reversal.
-/
theorem deposit_totals_exact_iff {host : DepositHost} {epoch : Nat} {s₀ s : Ledger} {log : List EvidenceEntry}
    (hnone : s₀.epochs.depositRoot.get epoch = none) (hrun : DepositRun host epoch s₀ s log) :
    ExactTotals log (s.epochs.depositRoot.get epoch) ↔ CreditsFirst log :=
  (hrun.tracks hnone).exactTotals_iff

def secondCardDeposit : FiatDepositValue := { cardDeposit with extRefHash := "pay-2" }

def creditsThenReversal : List DepositOp :=
  [.fiat 10 cardDeposit, .fiat 10 secondCardDeposit, .chargeback 10 cardChargeback]

def reversalBetween : List DepositOp :=
  [.fiat 10 cardDeposit, .chargeback 10 cardChargeback, .fiat 10 secondCardDeposit]

def runDeposits (host : DepositHost) (epoch : Nat) (s : Ledger) (log : List EvidenceEntry) :
    List DepositOp → Ledger × List EvidenceEntry
  | [] => (s, log)
  | op :: rest => runDeposits host epoch (op.exec host s) (log ++ op.entriesFor host s epoch) rest

theorem DepositRun.runDeposits {host : DepositHost} {epoch : Nat} {s₀ s : Ledger} {log : List EvidenceEntry}
    (ops : List DepositOp) (hrun : DepositRun host epoch s₀ s log) :
    DepositRun host epoch s₀ (runDeposits host epoch s log ops).1 (runDeposits host epoch s log ops).2 := by
  induction ops generalizing s log with
  | nil => exact hrun
  | cons op _ ih => exact ih (.op op hrun)

theorem deposit_totals_exact_credits_first :
    (runDeposits plainDepositHost 1 talkLedger [] creditsThenReversal).2 =
      [.credit 100, .credit 100, .reversal 40 40 0] ∧
    ExactTotals (runDeposits plainDepositHost 1 talkLedger [] creditsThenReversal).2
      ((runDeposits plainDepositHost 1 talkLedger [] creditsThenReversal).1.epochs.depositRoot.get 1) := by
  have hlog : (runDeposits plainDepositHost 1 talkLedger [] creditsThenReversal).2 =
      [.credit 100, .credit 100, .reversal 40 40 0] := by decide +kernel
  refine ⟨hlog, (deposit_totals_exact_iff (by decide +kernel)
    (DepositRun.start.runDeposits creditsThenReversal)).mpr ?_⟩
  rw [hlog]
  decide

/--
The second payment wipes the totals of the chargeback.
-/
theorem deposit_after_reversal_not_exact : (runDeposits plainDepositHost 1 talkLedger [] reversalBetween).2 =
      [.credit 100, .reversal 40 40 0, .credit 100] ∧
    ((runDeposits plainDepositHost 1 talkLedger [] reversalBetween).1.epochs.depositRoot.get 1).map
      (fun root => (root.count, root.auTotal, root.reversals)) = some (3, 200, none) := by
  decide +kernel

end Ledger

end Mayhem
