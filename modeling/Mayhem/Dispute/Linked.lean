import Mayhem.ExactlyOnce
import Mayhem.Dispute.Handle

namespace Mayhem.Ledger

variable {s : Ledger} {sender : PublicKey} {value : DisputeValue}

structure LinkedSession (s : Ledger) (sender : PublicKey) (value : DisputeValue) (epoch : Nat)
    (session : SpendSession) : Prop where
  held : ∃ hold, s.disputes.epochHold.get (sender, value.rail, epoch) = some hold ∧ (∀ other ∈ hold.sessions,
      validateEpochSpendSession s.registry sender value.rail epoch other = .ok ()) ∧
    hold.sessions.find? (fun other => other.sessionId = value.sessionId) = some session
  provider_eq : session.provider = value.provider
  enclaveId_eq : session.enclaveId = value.enclaveId

variable {epoch : Nat}

theorem normalizeSpendHoldRecord_eq_ok_iff {reg : Registry} {record : Option SpendHold} {user : PublicKey}
    {rail : Rail} {hold : SpendHold} :
    normalizeSpendHoldRecord reg record user rail epoch = .ok hold ↔
      (record = none ∧ hold = emptySpendHold) ∨
      (record = some hold ∧
        ∀ session ∈ hold.sessions, validateEpochSpendSession reg user rail epoch session = .ok ()) := by
  cases record with
  | none => simp [normalizeSpendHoldRecord, eq_comm]
  | some =>
    simp only [normalizeSpendHoldRecord, checks_iff, Except.forM_accepts_iff]
    constructor
    . rintro ⟨hvalid, rfl⟩
      exact .inr ⟨rfl, hvalid⟩
    . rintro (⟨hnone, -⟩ | ⟨hsome, hvalid⟩)
      . simp at hnone
      . obtain rfl := Option.some.inj hsome
        exact ⟨hvalid, rfl⟩

theorem linkedSession_eq_ok_iff {session : SpendSession}
    (hfresh : s.disputes.session.get (sender, value.sessionId) = none)
    (hcounterparty : ∀ counterparty ∈ value.counterparty, counterparty = value.provider) :
    s.linkedSession sender value epoch = .ok session ↔ LinkedSession s sender value epoch session := by
  simp only [linkedSession, checks_iff, normalizeSpendHoldRecord_eq_ok_iff, not_not, ne_eq]
  constructor
  . rintro ⟨hold, hrecord, _, hfind, -, hprovider, henclave, -, rfl⟩
    obtain ⟨-, rfl⟩ | ⟨hsome, hvalid⟩ := hrecord
    . simp [emptySpendHold] at hfind
    . exact ⟨⟨hold, hsome, hvalid, hfind⟩, hprovider, henclave⟩
  . rintro ⟨⟨hold, hsome, hvalid, hfind⟩, hprovider, henclave⟩
    have hid : session.sessionId = value.sessionId := by simpa using List.find?_some hfind
    refine ⟨hold, .inr ⟨hsome, hvalid⟩, session, hfind, ?_, hprovider, henclave, ?_, rfl⟩
    . rw [hid, hfresh]
      simp
    . rintro ⟨counterparty, hmem, hne⟩
      rw [hprovider] at hne
      exact hne (hcounterparty counterparty hmem)

theorem guardianValidateBalanceRecord_debit {balance : BalanceRecord} {rail : Rail} {au : Nat}
    (h : guardianValidateBalanceRecord balance rail = .ok ()) (hau : au ≤ balance.au)
    (hepoch : isSafeInteger epoch) :
    guardianValidateBalanceRecord
      { balance with au := au, updatedEpoch := max balance.updatedEpoch epoch } rail = .ok () := by
  simp only [guardianValidateBalanceRecord, checks_iff, not_not] at h ⊢
  obtain ⟨_, hscope⟩ := h
  refine ⟨?_, ?_⟩
  . rcases Nat.le_total balance.updatedEpoch epoch with hle | hle
    . rwa [Nat.max_eq_right hle]
    . rwa [Nat.max_eq_left hle]
  . by_cases htap : rail = .tap
    . rw [if_pos htap] at hscope ⊢
      cases hfound : balance.scope with
      | some tap =>
        rw [hfound] at hscope
        exact hscope
      | none =>
        rw [hfound] at hscope
        simp only [guardianValidateTapScope, checks_iff, List.mem_singleton, exists_eq_left, not_not] at hscope ⊢
        omega
    . rw [if_neg htap]
      rfl

theorem PageOutcome.disputes_eq {crypto : Crypto} {key : Digest} {value : TargetedEpochValue}
    {transition : Option CommitTransition} {outcome : Outcome ApplyResult}
    (h : PageOutcome crypto s sender key value transition outcome) : outcome.1.disputes = s.disputes := by
  cases h with
  | rejected | replayed | stopped | settled => rfl

theorem writeRecord_disputes (plan : RecordPlan) : (s.writeRecord plan).disputes = s.disputes := by
  cases plan with
  | _ => rfl

theorem HoldOp.disputes_eq (crypto : Crypto) (op : HoldOp) : (op.run crypto s).disputes = s.disputes := by
  cases op with
  | reserve key value =>
    dsimp only [HoldOp.run, applyTargetedSpendReserveFeature]
    split <;> rfl
  | record key value =>
    dsimp only [HoldOp.run, applyRecordUsageReceiptFeature]
    split
    . rfl
    . exact writeRecord_disputes _
  | close key value =>
    dsimp only [HoldOp.run, applyCloseUsageReservationFeature]
    split <;> rfl
  | page sender key value =>
    dsimp only [HoldOp.run]
    obtain ⟨_, houtcome⟩ := page_outcome crypto s sender key value
    exact houtcome.disputes_eq
  | pageZero sender key value =>
    dsimp only [HoldOp.run]
    obtain ⟨_, _, houtcome⟩ := pageZero_outcome crypto s sender key value
    exact houtcome.disputes_eq

/--
A dispute of somebody who may open one is accepted just when the hold of the epoch has its session. That hold is
not among what reservations, receipts, closes and pages write.
-/
theorem dispute_accepted_iff_epochHold {balance : BalanceRecord} {count : Nat}
    (hopener : s.requireOpener sender = .ok ()) (hvalid : validateDisputeOpen value = .ok ())
    (hbalance : s.balanceRecord sender value.rail = .ok balance)
    (hguardian : guardianValidateBalanceRecord balance value.rail = .ok ())
    (hdeposit : s.registry.activeParamAt value.time .disputeDepositAu ≤ balance.au)
    (hepoch : value.epoch.getD s.applyState.updatedEpoch ≤ s.applyState.updatedEpoch)
    (hfresh : s.disputes.session.get (sender, value.sessionId) = none)
    (hcount : disputeOpenCount s.disputes.openerOpenCount sender = .ok count)
    (hlimit : count < s.registry.activeParamAt value.time .maxOpenDisputesPerOpener)
    (hcounterparty : ∀ counterparty ∈ value.counterparty, counterparty = value.provider) :
    ((∃ record, (s.dispute sender value).2 = .ok record) ↔
      (∃ session, LinkedSession s sender value (value.epoch.getD s.applyState.updatedEpoch) session) ∧
      isSafeInteger ((s.oversight.providerOpenDisputes.get value.provider).getD 0) ∧
      isSafeInteger (value.epoch.getD s.applyState.updatedEpoch +
        s.registry.activeParamAt value.time .disputeTimeoutEpochs)) ∧
    ∀ crypto op, (HoldOp.run crypto s op).disputes.epochHold = s.disputes.epochHold := by
  refine ⟨?_, fun crypto op => by rw [op.disputes_eq]⟩
  have hprepared : (∃ record, (s.dispute sender value).2 = .ok record) ↔
      ∃ plan, s.prepareDispute sender value = .ok plan := by
    unfold dispute
    cases hplan : s.prepareDispute sender value with
    | ok | error => simp
  rw [hprepared]
  unfold prepareDispute
  rw [hopener, Except.bind_of_ok, hvalid, Except.bind_of_ok, hbalance, Except.bind_of_ok, hguardian,
    Except.bind_of_ok]
  dsimp only
  rw [rejectIf_of_not (by omega), Except.bind_of_ok, rejectIf_of_not (by omega), Except.bind_of_ok, hcount]
  simp only [Except.bind_of_ok, checks_iff, disputeOpenCount, linkedSession_eq_ok_iff hfresh hcounterparty,
    ge_iff_le, Nat.not_le, Nat.not_lt]
  have hnamed : value.epoch.getD 0 ≤ value.epoch.getD s.applyState.updatedEpoch := by
    cases value.epoch with
    | none => exact Nat.zero_le _
    | some epoch => exact Nat.le_refl _
  generalize value.epoch.getD s.applyState.updatedEpoch = epoch at hnamed ⊢
  constructor
  . rintro ⟨plan, session, hlinked, -, _, ⟨hsafe, -⟩, hexpiry, -⟩
    rw [hlinked.provider_eq] at hsafe
    exact ⟨⟨session, hlinked⟩, hsafe, hexpiry⟩
  . rintro ⟨⟨session, hlinked⟩, hsafe, hexpiry⟩
    rw [← hlinked.provider_eq] at hsafe
    refine ⟨_, session, hlinked, hlimit, _, ⟨hsafe, rfl⟩, hexpiry, ?_, rfl⟩
    apply guardianValidateBalanceRecord_debit hguardian (Nat.sub_le _ _)
    show _ ≤ maxSafeInteger
    omega

def bondLedger : Ledger :=
  { talkLedger with
    registry := { talkLedger.registry with consents := Table.empty.put 20 ⟨1, 0⟩ }
    accounts := { talkLedger.accounts with
      balance := Table.empty.put (20, .tnk) ⟨2000000000000000000, 0, none⟩ } }

def bondReserved : Ledger := (HoldOp.reserve 300 (talkReserve 0 500)).run plainHost bondLedger

def bondRecorded : Ledger := (HoldOp.record 1 (talkReceipt 0 4)).run plainHost bondReserved

def bondSettled : Ledger :=
  (HoldOp.pageZero 10 1 talkPageZero).run plainHost (bondRecorded.epochFreeze plainHost 10 1 3600).1

def servedComplaint : DisputeValue := ⟨.tnk, 100, "no-answer", 30, none, 40, some 1, 3600, none⟩

def heldSession : SpendSession := spendSession plainHost (talkReserve 0 500)

def bondHeld : Ledger :=
  { bondSettled with
    disputes := { bondSettled.disputes with
      epochHold := Table.empty.put (20, .tnk, 1) ⟨500, [heldSession]⟩ } }

def bondCovered (s : Ledger) (user : PublicKey) (rail : Rail) (time : Nat) : Bool :=
  match s.balanceRecord user rail with
  | .error _ => false
  | .ok balance => (guardianValidateBalanceRecord balance rail).message = none ∧
      s.registry.activeParamAt time .disputeDepositAu ≤ balance.au

theorem dispute_accepted_iff_epochHold_held :
    bondHeld.applyState.updatedEpoch = 1 ∧ ∃ record, (bondHeld.dispute 20 servedComplaint).2 = .ok record := by
  have hfacts : (bondHeld.requireOpener 20).message = none ∧ bondHeld.applyState.updatedEpoch = 1 ∧
      bondCovered bondHeld 20 .tnk 3600 = true ∧ bondHeld.disputes.session.get (20, 100) = none ∧
      (bondHeld.disputes.openerOpenCount.get 20).getD 0 = 0 ∧
      0 < bondHeld.registry.activeParamAt 3600 .maxOpenDisputesPerOpener ∧
      (validateEpochSpendSession bondHeld.registry 20 .tnk 1 heldSession).message = none ∧
      isSafeInteger ((bondHeld.oversight.providerOpenDisputes.get 30).getD 0) ∧
      isSafeInteger (1 + bondHeld.registry.activeParamAt 3600 .disputeTimeoutEpochs) := by
    decide +kernel
  have hhold : bondHeld.disputes.epochHold.get (20, .tnk, 1) = some ⟨500, [heldSession]⟩ := rfl
  generalize bondHeld = s at hfacts hhold ⊢
  obtain ⟨hopener, happlied, hcovered, hfresh, hcount, hlimit, hvalid, hsafe, hexpiry⟩ := hfacts
  obtain ⟨⟨⟩, hopener⟩ := Except.message_eq_none_iff.mp hopener
  obtain ⟨⟨⟩, hvalid⟩ := Except.message_eq_none_iff.mp hvalid
  unfold bondCovered at hcovered
  cases hbalance : s.balanceRecord 20 .tnk with
  | error message => simp [hbalance] at hcovered
  | ok balance =>
    rw [hbalance] at hcovered
    obtain ⟨hguardian, hdeposit⟩ := of_decide_eq_true hcovered
    obtain ⟨⟨⟩, hguardian⟩ := Except.message_eq_none_iff.mp hguardian
    have hopen : disputeOpenCount s.disputes.openerOpenCount 20 = .ok 0 := by
      simp [disputeOpenCount, hcount]
    have hiff := (@dispute_accepted_iff_epochHold s 20 servedComplaint balance 0 hopener rfl hbalance
      hguardian hdeposit (Nat.le_of_eq happlied.symm) hfresh hopen hlimit (by simp [servedComplaint])).1
    refine ⟨happlied, hiff.mpr ⟨⟨heldSession, ⟨⟨_, hhold, ?_, rfl⟩, rfl, rfl⟩⟩, hsafe, hexpiry⟩⟩
    intro _ hother
    rw [List.mem_singleton.mp hother]
    exact hvalid

/--
The reservation was accepted and its epoch has been applied, and the user may open a dispute; yet there is no
hold of the epoch to link it to.
-/
theorem served_dispute_rejected :
    (applyTargetedSpendReserveFeature plainHost bondLedger 300 (talkReserve 0 500)).2.message = none ∧
    bondSettled.applyState.updatedEpoch = 1 ∧
    (bondSettled.requireOpener 20).message = none ∧
    bondSettled.registry.activeParamAt 3600 .disputeDepositAu ≤
      ((bondSettled.accounts.balance.get (20, .tnk)).map BalanceRecord.au).getD 0 ∧
    bondSettled.disputes.openerOpenCount.get 20 = none ∧
    bondSettled.disputes.session.get (20, 100) = none ∧
    (bondSettled.dispute 20 servedComplaint).2.message =
      some "Dispute must reference an opener-linked spend reservation." := by
  decide +kernel

end Mayhem.Ledger
