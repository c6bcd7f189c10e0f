import Mayhem.Released
import Mayhem.Deposit.Totals
import Mayhem.Dispute.Linked

namespace Mayhem

namespace Ledger

variable {s t : Ledger}

def DisputesNumbered (s : Ledger) : Prop :=
  ∀ disputeId dispute, s.disputes.record.get disputeId = some dispute → disputeId < s.disputes.next.getD 1

structure Fileable (s : Ledger) (sender : PublicKey) (value : DisputeValue) (plan : DisputePlan) : Prop where
  disputeId_eq : plan.record.disputeId = s.disputes.next.getD 1
  opened : plan.record.status = .opened
  openedBy_eq : plan.record.openedBy = sender
  expires_eq : plan.record.expiresAfterEpoch = value.epoch.getD s.applyState.updatedEpoch +
    s.registry.activeParamAt value.time .disputeTimeoutEpochs
  debits : s.Adjusts plan.record.openedBy plan.record.rail plan.balance plan.record.depositAu 0
  openerCount_eq : disputeOpenCount s.disputes.openerOpenCount plan.record.openedBy = .ok plan.openerCount
  providerCount_eq : disputeOpenCount s.oversight.providerOpenDisputes plan.record.provider =
    .ok plan.providerCount

variable {sender : PublicKey}

theorem prepareDispute_eq_ok {value : DisputeValue} {plan : DisputePlan}
    (h : s.prepareDispute sender value = .ok plan) : Fileable s sender value plan := by
  simp only [prepareDispute, checks_iff] at h
  obtain ⟨-, -, balance, hread, -, hcovered, -, _, -, _, hopener, -, _, hprovider, -, -, rfl⟩ := h
  exact ⟨rfl, rfl, rfl, rfl, ⟨balance, hread, rfl, Nat.sub_add_cancel (Nat.le_of_not_lt hcovered)⟩,
    hopener, hprovider⟩

theorem dispute_eq_ok {value : DisputeValue} {record : DisputeRecord}
    (h : (s.dispute sender value).2 = .ok record) :
    ∃ plan, Fileable s sender value plan ∧ plan.record = record ∧
      (s.dispute sender value).1 = s.writeDispute plan := by
  unfold dispute at h ⊢
  cases hprepare : s.prepareDispute sender value with
  | error =>
    rw [hprepare] at h
    cases h
  | ok plan =>
    rw [hprepare] at h
    exact ⟨plan, prepareDispute_eq_ok hprepare, Except.ok.inj h, rfl⟩

variable {dispute : DisputeRecord}

theorem payDeposit_eq_ok {split : BondSplit} {paid : Ledger} (h : s.payDeposit dispute split = (paid, .ok ())) :
    ∃ refunded, s.refundDeposit dispute split.refundedAu = .ok refunded ∧
      refunded.forfeitDeposit dispute split.forfeitedAu = .ok paid := by
  unfold payDeposit at h
  cases hrefund : s.refundDeposit dispute split.refundedAu with
  | error message =>
    rw [hrefund] at h
    cases h
  | ok refunded =>
    rw [hrefund] at h
    dsimp only at h
    cases hforfeit : refunded.forfeitDeposit dispute split.forfeitedAu with
    | error message =>
      rw [hforfeit] at h
      cases h
    | ok =>
      rw [hforfeit] at h
      obtain ⟨rfl, -⟩ := Prod.mk.inj h
      exact ⟨refunded, rfl, hforfeit⟩

theorem payDeposit_frame {split : BondSplit} {paid : Ledger} (h : s.payDeposit dispute split = (paid, .ok ())) :
    paid.disputes = s.disputes ∧ paid.oversight = s.oversight := by
  obtain ⟨_, hrefund, hforfeit⟩ := payDeposit_eq_ok h
  rcases refundDeposit_eq_ok hrefund with ⟨-, rfl⟩ | ⟨_, _, -, -, -, rfl⟩ <;>
    rcases forfeitDeposit_eq_ok hforfeit with ⟨-, rfl⟩ | ⟨_, _, -, -, -, rfl⟩ <;>
    exact ⟨rfl, rfl⟩

variable {host : ReputationHost} {tx : Digest} {value : DisputeResolveValue}

theorem faultProvider_frame {verdict : DisputeVerdict} {judged : Ledger} {slash : Option SlashRecord}
    (h : s.faultProvider host sender tx value verdict = (judged, .ok slash)) :
    judged.disputes = s.disputes ∧ judged.oversight = s.oversight := by
  unfold faultProvider at h
  split at h
  . obtain ⟨rfl, -⟩ := Prod.mk.inj h
    exact ⟨rfl, rfl⟩
  . split at h
    . cases h
    . dsimp only at h
      split at h
      . split at h
        . cases h
        . next happly =>
          obtain ⟨rfl, -⟩ := Prod.mk.inj h
          have hslashed := applyProviderSlash_eq_ok happly
          exact ⟨hslashed.disputes_eq, hslashed.oversight_eq⟩
      . obtain ⟨rfl, -⟩ := Prod.mk.inj h
        exact ⟨rfl, rfl⟩

structure Resolved (s : Ledger) (host : ReputationHost) (sender : PublicKey) (tx : Digest)
    (value : DisputeResolveValue) (s' : Ledger) where
  verdict : DisputeVerdict
  paid : Ledger
  judged : Ledger
  slash : Option SlashRecord
  counted : Ledger
  judgeable : Judgeable s value verdict
  pay : s.payDeposit verdict.dispute verdict.split = (paid, .ok ())
  fault : paid.faultProvider host sender tx value verdict = (judged, .ok slash)
  count : judged.closeDisputeCounts verdict.dispute = .ok counted
  result : s' = counted.putDispute value.disputeId (resolved verdict)

theorem disputeResolve_eq_ok {result : DisputeRecord × Option SlashRecord}
    (h : (s.disputeResolve host sender tx value).2 = .ok result) :
    Nonempty (Resolved s host sender tx value (s.disputeResolve host sender tx value).1) := by
  unfold disputeResolve at h ⊢
  split at h
  . cases h
  . next verdict hprepare =>
    split at h
    . cases h
    . next paid hpay =>
      split at h
      . cases h
      . next judged slash hfault =>
        split at h
        . cases h
        . next counted hcount =>
          exact ⟨verdict, paid, judged, slash, counted, prepareDisputeResolve_eq_ok hprepare, hpay,
            hfault, hcount, rfl⟩

theorem Resolved.frame (h : Resolved s host sender tx value t) :
    h.judged.disputes = s.disputes ∧ h.judged.oversight = s.oversight := by
  obtain ⟨hpaid, hpaid'⟩ := payDeposit_frame h.pay
  obtain ⟨hjudged, hjudged'⟩ := faultProvider_frame h.fault
  exact ⟨hjudged.trans hpaid, hjudged'.trans hpaid'⟩

theorem Resolved.marks (h : Resolved s host sender tx value t) :
    t.disputes.record = s.disputes.record.put value.disputeId (resolved h.verdict) ∧
      t.disputes.next = s.disputes.next := by
  have hframe := h.frame.1
  obtain ⟨verdict, _, _, _, _, _, _, _, hcount, rfl⟩ := h
  obtain ⟨disputes, _, rfl, hrecord, hnext⟩ := closeDisputeCounts_eq_ok hcount
  dsimp only at hframe
  rw [hframe] at hrecord hnext
  exact ⟨by rw [← hrecord]; rfl, hnext⟩

structure Expired (s : Ledger) (value : DisputeExpireValue) (s' : Ledger) where
  dispute : DisputeRecord
  balance : BalanceRecord
  next : BalanceRecord
  counted : Ledger
  stored : s.disputes.record.get value.disputeId = some dispute
  opened : dispute.status = .opened
  read : s.balanceRecord dispute.openedBy dispute.rail = .ok balance
  next_scope : next.scope = balance.scope
  next_au : next.au = balance.au + dispute.depositAu
  count : s.closeDisputeCounts dispute = .ok counted
  result : s' = (counted.putBalance dispute.openedBy dispute.rail next).putDispute value.disputeId
    (expired dispute)

theorem disputeExpire_eq_ok {value : DisputeExpireValue} {record : DisputeRecord}
    (h : (s.disputeExpire value).2 = .ok record) : Nonempty (Expired s value (s.disputeExpire value).1) := by
  unfold disputeExpire at h ⊢
  split at h
  . cases h
  . next dispute next counted hprepare =>
    simp only [prepareDisputeExpire, openDispute, checks_iff, not_not, ne_eq] at hprepare
    obtain ⟨_, ⟨_, hstored, hopened, rfl⟩, -, -, balance, hread, -, -, _, hcounted, hplan⟩ := hprepare
    cases hplan
    exact ⟨dispute, balance, { balance with
      au := balance.au + dispute.depositAu
      updatedEpoch := max (max balance.updatedEpoch s.applyState.updatedEpoch) dispute.epoch }, counted,
      hstored, hopened, hread, rfl, rfl, hcounted, rfl⟩

theorem Expired.marks {value : DisputeExpireValue} (h : Expired s value t) :
    t.disputes.record = s.disputes.record.put value.disputeId (expired h.dispute) ∧
      t.disputes.next = s.disputes.next := by
  obtain ⟨dispute, _, next, _, -, -, -, -, -, hcount, rfl⟩ := h
  obtain ⟨disputes, _, rfl, hrecord, hnext⟩ := closeDisputeCounts_eq_ok hcount
  exact ⟨by rw [← hrecord]; rfl, hnext⟩

def windowClosedMessage : String := "Dispute resolution window has closed; expire the dispute."

theorem bondSplit_ne_windowClosed (action : DepositAction) (depositAu forfeitBps : Nat) :
    bondSplit action depositAu forfeitBps ≠ .error windowClosedMessage := by
  intro h
  cases action with
  | refund | forfeit => cases h
  | partialForfeit =>
    simp only [bondSplit, safeSubAu, Except.bind_rejects_iff, rejectIf_rejects_iff, Except.pure_ne_error,
      windowClosedMessage, String.reduceEq, and_false, or_false, exists_false] at h

theorem prepareDisputeResolve_ne_windowClosed (admin : PublicKey)
    (hstored : s.disputes.record.get value.disputeId = some dispute)
    (hwindow : s.applyState.updatedEpoch ≤ dispute.expiresAfterEpoch) :
    (s.prepareDisputeResolve admin value).message ≠ some windowClosedMessage := by
  rw [ne_eq, Except.message_eq_some_iff]
  intro h
  simp only [prepareDisputeResolve, openDispute, Registry.requireAdmin, Except.bind_rejects_iff, checks_iff,
    rejectIf_rejects_iff, requireSome_rejects_iff, Except.pure_ne_error, bondSplit_ne_windowClosed, hstored,
    Option.some.injEq] at h
  simp only [windowClosedMessage, String.reduceEq, and_false, false_or, or_false, and_true, exists_false] at h
  obtain ⟨-, _, -, _, -, _, ⟨_, rfl, -, rfl⟩, -, -, _⟩ := h
  omega

/--
The dispute can be judged until the next epoch is applied: its window has not passed when it is opened, and no
resolution in a later state is refused for it as long as the latest applied epoch is the same.
-/
def JudgeableAtOpening (s : Ledger) (record : DisputeRecord) : Prop :=
  s.applyState.updatedEpoch ≤ record.expiresAfterEpoch ∧
    ∀ (t : Ledger) (admin : PublicKey) (value : DisputeResolveValue),
      t.applyState.updatedEpoch = s.applyState.updatedEpoch →
      t.disputes.record.get value.disputeId = some record →
      (t.prepareDisputeResolve admin value).message ≠ some windowClosedMessage

/--
An accepted dispute can be judged exactly if the epoch it names is at most the timeout behind the latest one.
-/
theorem dispute_judgeableAtOpening_iff {sender : PublicKey} {value : DisputeValue} {record : DisputeRecord}
    (h : (s.dispute sender value).2 = .ok record) :
    JudgeableAtOpening s record ↔
      s.applyState.updatedEpoch ≤ value.epoch.getD s.applyState.updatedEpoch +
        s.registry.activeParamAt value.time .disputeTimeoutEpochs := by
  obtain ⟨_, hplan, rfl, -⟩ := dispute_eq_ok h
  rw [← hplan.expires_eq]
  constructor
  . intro hjudge
    exact hjudge.1
  . intro hwindow
    refine ⟨hwindow, fun t admin resolution hepoch hstored => ?_⟩
    apply prepareDisputeResolve_ne_windowClosed admin hstored
    omega

theorem dispute_judgeableAtOpening_held :
    ∃ record, (bondHeld.dispute 20 servedComplaint).2 = .ok record ∧ JudgeableAtOpening bondHeld record := by
  have hfacts : (bondHeld.dispute 20 servedComplaint).2.message = none ∧
      bondHeld.applyState.updatedEpoch ≤ servedComplaint.epoch.getD bondHeld.applyState.updatedEpoch +
        bondHeld.registry.activeParamAt servedComplaint.time .disputeTimeoutEpochs := by
    decide +kernel
  obtain ⟨record, haccepted⟩ := Except.message_eq_none_iff.mp hfacts.1
  exact ⟨record, haccepted, (dispute_judgeableAtOpening_iff haccepted).mpr hfacts.2⟩

def bondStale : Ledger :=
  { bondHeld with
    epochs := { bondHeld.epochs with applyState := some { bondHeld.applyState with updatedEpoch := 400 } } }

/--
A dispute of the first epoch is accepted, and the admin can not judge it any more in the state it leaves.
-/
theorem stale_dispute_not_judgeable :
    (bondStale.dispute 20 servedComplaint).2.toOption.map DisputeRecord.expiresAfterEpoch = some 169 ∧
      bondStale.applyState.updatedEpoch = 400 ∧
      ((bondStale.dispute 20 servedComplaint).1.prepareDisputeResolve 10
        ⟨1, some .openerFault, some .partialForfeit, "unfounded", 3600, false, none⟩).message =
          some windowClosedMessage ∧
      ((bondStale.dispute 20 servedComplaint).1.disputeExpire ⟨1, 3600⟩).2.message = none := by
  decide +kernel

end Ledger

end Mayhem
