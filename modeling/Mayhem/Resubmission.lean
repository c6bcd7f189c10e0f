import Mayhem.Billing
import Mayhem.Chain

namespace Mayhem

def ApplyState.Past (state : ApplyState) (epoch page : Nat) : Prop :=
  epoch ≤ state.updatedEpoch ∨ state.pendingEpoch = some epoch ∧ page < state.pendingNextPage

namespace ApplyState

variable {state : ApplyState} {epoch page : Nat}

theorem Past.order_rejected (h : state.Past epoch page) :
    validateEpochApplyPageOrder state epoch page ≠ .ok () := by
  intro horder
  obtain ⟨_, hfirst, hlater⟩ := pageOrder_eq_ok horder
  rcases h with _ | ⟨hpending, _⟩
  . omega
  . by_cases hpage : page = 0
    . rw [hfirst hpage] at hpending
      cases hpending
    . have hnext := (hlater hpage).2
      omega

end ApplyState

def HeadsSequenced (receipts : Receipts) : Prop :=
  ∀ attempt head, receipts.head.get attempt = some head → head.receiptSeq = head.receipt.body.seq

structure HeadsAdvance (receipts receipts' : Receipts) : Prop where
  seq_le : ∀ attempt head, receipts.head.get attempt = some head →
    ∃ head', receipts'.head.get attempt = some head' ∧ head.receiptSeq ≤ head'.receiptSeq
  sequenced : HeadsSequenced receipts → HeadsSequenced receipts'

theorem HeadsAdvance.of_eq {receipts receipts' : Receipts} (h : receipts'.head = receipts.head) :
    HeadsAdvance receipts receipts' where
  seq_le attempt head hhead := ⟨head, h ▸ hhead, Nat.le_refl _⟩
  sequenced hsequenced := by rw [HeadsSequenced, h]; exact hsequenced

theorem HeadsAdvance.of_put {receipts receipts' : Receipts} {attempt : BillingAttempt} {head : ReceiptHead}
    (hput : receipts'.head = receipts.head.put attempt head)
    (hle : ∀ existing ∈ receipts.head.get attempt, existing.receiptSeq ≤ head.receiptSeq)
    (hseq : HeadsSequenced receipts → head.receiptSeq = head.receipt.body.seq) :
    HeadsAdvance receipts receipts' where
  seq_le other found hfound := by
    rw [hput, Table.get_put]
    split
    . next hsame => exact ⟨head, rfl, hle found (hsame ▸ hfound)⟩
    . exact ⟨found, hfound, Nat.le_refl _⟩
  sequenced hsequenced other found hfound := by
    rw [hput] at hfound
    obtain ⟨-, rfl⟩ | ⟨-, hfound⟩ := Table.get_put_eq_some.mp hfound
    . exact hseq hsequenced
    . exact hsequenced other found hfound

namespace Ledger

variable {crypto : Crypto} {s s' : Ledger}

structure Advances (s s' : Ledger) : Prop where
  reservation : ∀ id, (s.receipts.reservation.get id).isSome = true →
    (s'.receipts.reservation.get id).isSome = true
  close : ∀ id, (s.receipts.reservationClose.get id).isSome = true →
    (s'.receipts.reservationClose.get id).isSome = true
  heads : HeadsAdvance s.receipts s'.receipts
  past : ∀ epoch page, s.applyState.Past epoch page → s'.applyState.Past epoch page

theorem Advances.of_receipts (hreservation : s'.receipts.reservation = s.receipts.reservation)
    (hclose : s'.receipts.reservationClose = s.receipts.reservationClose)
    (hheads : HeadsAdvance s.receipts s'.receipts)
    (hpast : ∀ epoch page, s.applyState.Past epoch page → s'.applyState.Past epoch page) : Advances s s' where
  reservation id h := by rw [hreservation]; exact h
  close id h := by rw [hclose]; exact h
  heads := hheads
  past := hpast

theorem Advances.refl (s : Ledger) : Advances s s := .of_receipts rfl rfl (.of_eq rfl) fun _ _ h => h

theorem writeReservation_advances (s : Ledger) (plan : ReservePlan) : Advances s (s.writeReservation plan) where
  reservation _ h := Table.isSome_get_put h
  close _ h := h
  heads := .of_eq rfl
  past _ _ h := h

theorem writeClosePlan_advances {plan : ClosePlan} {reservation : ReservationRecord}
    (hhead : ∀ head append metadata, plan.head = some (head, append, metadata) →
      (∀ existing ∈ s.receipts.head.get plan.session.attempt, existing.receiptSeq ≤ head.receiptSeq) ∧
        (HeadsSequenced s.receipts → head.receiptSeq = head.receipt.body.seq)) :
    Advances s (s.writeClosePlan plan reservation) where
  reservation id h := by
    have hput : (s.writeClosePlan plan reservation).receipts.reservation =
        s.receipts.reservation.put plan.session.reservationId { reservation with status := .closed } := by
      dsimp only [writeClosePlan, Receipts.writeClosePlan]
      split <;> rfl
    rw [hput]
    exact Table.isSome_get_put h
  close id h := by
    have hput : (s.writeClosePlan plan reservation).receipts.reservationClose =
        s.receipts.reservationClose.put plan.session.reservationId plan.record := by
      dsimp only [writeClosePlan, Receipts.writeClosePlan]
      split <;> rfl
    rw [hput]
    exact Table.isSome_get_put h
  heads := by
    cases hplan : plan.head with
    | none =>
      apply HeadsAdvance.of_eq
      dsimp only [writeClosePlan, Receipts.writeClosePlan]
      rw [hplan]
    | some entry =>
      obtain ⟨head, append, metadata⟩ := entry
      obtain ⟨hle, hseq⟩ := hhead head append metadata hplan
      exact .of_put (writeClosePlan_head hplan reservation) hle hseq
  past _ _ h := h

section

variable {sender : PublicKey} {key : Digest} {value : TargetedEpochValue}
  {transition : Option CommitTransition} {outcome : Outcome ApplyResult}

theorem past_of_prepareApply {options : ApplyOptions} {plan : ApplyPlan}
    (hplan : s.prepareApply crypto sender key value options = .ok (some plan)) :
    plan.state.Past value.epoch value.page ∧
      ∀ epoch page, s.applyState.Past epoch page → plan.state.Past epoch page := by
  obtain ⟨page⟩ := newPage_of_plan hplan
  rw [page.state_eq]
  obtain ⟨_, hfirst, hlater⟩ := pageOrder_eq_ok page.order_ok
  cases hlast : value.lastPage with
  | true =>
    simp only [nextEpochApplyState, hlast, if_true, ApplyState.Past]
    refine ⟨.inl (Nat.le_refl _), ?_⟩
    rintro epoch page (hle | ⟨hpending, -⟩)
    . left
      omega
    . by_cases hpage : value.page = 0
      . rw [hfirst hpage] at hpending
        cases hpending
      . rw [(hlater hpage).1] at hpending
        exact .inl (Option.some.inj hpending).ge
  | false =>
    simp only [nextEpochApplyState, hlast, Bool.false_eq_true, if_false, ApplyState.Past]
    refine ⟨.inr ⟨trivial, Nat.lt_succ_self _⟩, ?_⟩
    rintro epoch page (hle | ⟨hpending, _⟩)
    . exact .inl hle
    . by_cases hpage : value.page = 0
      . rw [hfirst hpage] at hpending
        cases hpending
      . obtain ⟨hsame, _⟩ := hlater hpage
        refine .inr ⟨hsame.symm.trans hpending, ?_⟩
        omega

theorem PageOutcome.advances (houtcome : PageOutcome crypto s sender key value transition outcome) :
    Advances s outcome.1 := by
  cases houtcome with
  | rejected | replayed => exact .refl s
  | stopped feature plan _ hfeature hplan | settled feature plan _ hfeature hplan =>
    exact .of_receipts rfl rfl (.of_eq rfl) (past_of_prepareApply hplan).2

theorem PageOutcome.past_of_ok {result : ApplyResult}
    (houtcome : PageOutcome crypto s sender key value transition outcome)
    (hresult : outcome.2 = .ok result) : outcome.1.applyState.Past value.epoch value.page := by
  cases houtcome with
  | replayed feature hfeature _ hplan =>
    have hposition := replay_of_plan hplan
    simp only [isEpochApplyPagePositionReplay, Bool.and_eq_true, decide_eq_true_eq] at hposition
    obtain ⟨-, hposition⟩ := hposition
    split at hposition
    . simp only [decide_eq_true_eq] at hposition
      exact .inl hposition.1.ge
    . simp only [decide_eq_true_eq] at hposition
      exact .inr ⟨hposition.1, hposition.2.symm ▸ Nat.lt_succ_self _⟩
  | rejected | stopped => cases hresult
  | settled feature _ _ hfeature hplan => exact (past_of_prepareApply hplan).1

theorem PageOutcome.unchanged_of_past (houtcome : PageOutcome crypto s sender key value transition outcome)
    (hpast : s.applyState.Past value.epoch value.page) : outcome.1 = s := by
  cases houtcome with
  | rejected | replayed => rfl
  | stopped feature plan _ hfeature hplan | settled feature plan _ hfeature hplan =>
    obtain ⟨page⟩ := newPage_of_plan hplan
    exact absurd page.order_ok hpast.order_rejected

end

theorem HoldOp.Effect.advances {op : HoldOp} {events : List HoldEvent}
    (heffect : op.Effect crypto s s' events) : Advances s s' := by
  cases heffect with
  | reserved plan hprepare hnew => exact writeReservation_advances s plan
  | advanced head hprepare hexisting _ hnew =>
    refine .of_receipts rfl rfl (.of_put rfl ?_ ?_) fun _ _ h => h
    . intro existing hmem
      rw [hnew.receiptSeq_eq]
      exact (hnew.later existing hmem).le
    . intro _
      rw [hnew.receiptSeq_eq, hnew.body_eq]
  | final plan reservation hprepare _ _ _ hnew =>
    apply writeClosePlan_advances
    intro head append metadata hfound
    obtain ⟨hattempt, hnew⟩ := hnew head append metadata hfound
    rw [hattempt, hnew.receiptSeq_eq, hnew.body_eq]
    exact ⟨fun existing hmem => (hnew.later existing hmem).le, fun _ => rfl⟩
  | closed plan reservation hprepare hclosed =>
    apply writeClosePlan_advances
    intro head append metadata hplan
    obtain ⟨existing, hexisting, hreceipt, -, -, hseq⟩ := hclosed.head_same head append metadata hplan
    rw [hexisting, hseq, hreceipt]
    refine ⟨?_, fun hsequenced => hsequenced _ _ hexisting⟩
    rintro _ ⟨⟩
    exact Nat.le_refl _
  | page earnings transition houtcome | pageZero earnings transition houtcome => exact houtcome.advances
  | _ => exact .refl s

theorem epochSealEmpty_advances (crypto : Crypto) (s : Ledger) (sender : PublicKey) (tx : Digest)
    (epoch time : Nat) (reasonHash : Digest) :
    Advances s (s.epochSealEmpty crypto sender tx epoch time reasonHash).1 := by
  unfold epochSealEmpty
  split
  . exact .refl s
  . exact .refl s
  . next _ hprepare =>
    obtain ⟨hfound, -⟩ | ⟨_, hfound, -, hplan⟩ := prepareSeal_eq_ok hprepare
    . cases hfound
    . obtain rfl := Option.some.inj hfound
      dsimp only
      split
      . exact .of_receipts rfl rfl (.of_eq rfl) fun _ _ h => h
      . simp only [prepareNewSeal, checks_iff] at hplan
        obtain ⟨-, -, -, -, -, horder, _, -, -, _, -, rfl⟩ := hplan
        obtain ⟨rfl, hfirst, -⟩ := pageOrder_eq_ok horder
        refine .of_receipts rfl rfl (.of_eq rfl) ?_
        rintro epoch _ (hle | ⟨hpending, -⟩)
        . exact .inl (hle.trans (Nat.le_succ _))
        . -- an epoch is sealed only when none is pending
          rw [hfirst rfl] at hpending
          cases hpending

def Absorbs (s : Ledger) : HoldOp → Prop
  | .reserve _ value => (s.receipts.reservation.get value.reservationId).isSome = true
  | .record _ value => ∃ head, s.receipts.head.get value.receipt.body.attempt = some head ∧
    value.receipt.body.seq ≤ head.receiptSeq
  | .close _ value _ => (s.receipts.reservationClose.get value.reservationId).isSome = true
  | .page _ _ value => s.applyState.Past value.epoch value.page
  | .pageZero _ _ value => s.applyState.Past value.epoch 0

theorem Absorbs.advance {op : HoldOp} (h : s.Absorbs op) (hadvances : Advances s s') : s'.Absorbs op := by
  cases op with
  | reserve key value => exact hadvances.reservation _ h
  | record key value =>
    obtain ⟨_, hhead, hle⟩ := h
    obtain ⟨head', hhead', hle'⟩ := hadvances.heads.seq_le _ _ hhead
    exact ⟨head', hhead', hle.trans hle'⟩
  | close key value => exact hadvances.close _ h
  | page | pageZero => exact hadvances.past _ _ h

variable {key : Digest}

theorem prepareReserve_repeated {value : SpendReserveValue} {result : ReserveResult}
    (h : s.prepareReserve crypto key value = .ok (.inl result)) :
    (s.receipts.reservation.get value.reservationId).isSome = true := by
  simp only [prepareReserve, validateReserve, checks_iff] at h
  obtain ⟨_, ⟨_, hnormalized, _, -, -, -, -, -, -, rfl⟩, _, -, -, _, -, _, -, -, h⟩ := h
  have hsame := normalizeReserveValue_eq_ok hnormalized
  split at h
  . simp only [validateExistingBillingReservation, checks_iff] at h
    obtain ⟨-, ⟨_, -, -, reservation, hreservation, -⟩, -⟩ := h
    rw [hsame.voucher_eq] at hreservation
    rw [hreservation]
    rfl
  . simp only [checks_iff, reduceCtorEq, and_false, exists_false] at h

variable {value : RecordReceiptValue}

theorem prepareRecord_repeated {result : RecordResult}
    (h : s.prepareRecord crypto key value = .ok (.repeated, result)) :
    ∃ head, s.receipts.head.get value.receipt.body.attempt = some head ∧ head.receipt = value.receipt := by
  simp only [prepareRecord, validateRecord, normalizeRecordUsageReceiptValue,
    normalizeReceiptEnvelope_eq_ok, checks_iff] at h
  obtain ⟨_, ⟨_, ⟨-, -, _, ⟨-, rfl⟩, -, -, rfl⟩, -, -, -, rfl⟩, h⟩ := h
  split at h
  . next head hfound =>
    rw [Option.filter_eq_some_iff, decide_eq_true_eq] at hfound
    exact ⟨head, hfound.1, hfound.2.2⟩
  . simp only [prepareNewReceipt, checks_iff, Prod.exists] at h
    obtain ⟨-, _, _, _, _, -, _, -, -, h⟩ := h
    split at h
    . simp only [checks_iff, Prod.mk.injEq, reduceCtorEq, false_and, and_false, exists_false] at h
    . simp only [checks_iff, Prod.mk.injEq, reduceCtorEq, false_and] at h

theorem prepareClose_repeated {value : CloseReservationValue} {expiry : Bool}
    {found : Option (ClosePlan × ReservationRecord)} {result : CloseResult}
    (h : s.prepareClose crypto key value expiry = .ok (found, result)) :
    found = none ↔ (s.receipts.reservationClose.get value.reservationId).isSome = true := by
  simp only [prepareClose, validateClose, normalizeCloseUsageReservationValue, checks_iff] at h
  obtain ⟨_, ⟨_, ⟨-, -, -, rfl⟩, -, -, rfl⟩, h⟩ := h
  split at h
  . next _ hexisting =>
    simp only [checks_iff, Prod.mk.injEq] at h
    rw [hexisting, ← h.2.1]
    simp
  . next hnone =>
    simp only [checks_iff, Prod.mk.injEq, Prod.exists] at h
    obtain ⟨_, _, _, -, -, _, -, -, -, _, -, _, -, rfl, -⟩ := h
    rw [hnone]
    simp

theorem HoldOp.Effect.absorbs {op : HoldOp} {events : List HoldEvent}
    (heffect : op.Effect crypto s s' events) (hsequenced : HeadsSequenced s.receipts)
    (h : op.rejection crypto s = none) : s'.Absorbs op := by
  cases heffect with
  | reserveRejected hprepare =>
    rw [HoldOp.rejection, applyTargetedSpendReserveFeature, hprepare] at h
    cases h
  | reserveRepeated hprepare => exact prepareReserve_repeated hprepare
  | reserved plan hprepare hnew =>
    dsimp only [Absorbs, writeReservation]
    rw [← hnew.reservationId_eq, Table.get_put_self]
    rfl
  | recordRejected hprepare =>
    rw [HoldOp.rejection, applyRecordUsageReceiptFeature, hprepare] at h
    cases h
  | recordRepeated hprepare =>
    obtain ⟨head, hhead, hreceipt⟩ := prepareRecord_repeated hprepare
    refine ⟨head, hhead, ?_⟩
    rw [hsequenced _ _ hhead, hreceipt]
  | advanced head hprepare _ _ hnew =>
    exact ⟨head, Table.get_put_self _ _ _, hnew.receiptSeq_eq.ge⟩
  | final plan reservation hprepare _ _ hhead hnew =>
    obtain ⟨⟨head, append, metadata⟩, hfound, -⟩ := Option.map_eq_some_iff.mp hhead
    obtain ⟨hattempt, hnew⟩ := hnew head append metadata hfound
    refine ⟨head, ?_, hnew.receiptSeq_eq.ge⟩
    rw [← hattempt, writeClosePlan_head hfound, Table.get_put_self]
  | closeRejected hprepare =>
    rw [HoldOp.rejection, applyCloseUsageReservationFeature, hprepare] at h
    cases h
  | closeRepeated hprepare => exact (prepareClose_repeated hprepare).mp rfl
  | closed plan reservation hprepare hclosed =>
    dsimp only [Absorbs, writeClosePlan, Receipts.writeClosePlan]
    rw [← hclosed.reservationId_eq, Table.get_put_self]
    rfl
  | page earnings transition houtcome | pageZero earnings transition houtcome =>
    obtain ⟨_, hresult⟩ := Except.message_eq_none_iff.mp h
    exact houtcome.past_of_ok hresult

/--
The operations submit the same value, be it under another key or by someone else.
-/
def HoldOp.SameValue : HoldOp → HoldOp → Prop
  | .reserve _ value, .reserve _ value' => value = value'
  | .record _ value, .record _ value' => value = value'
  | .close _ value _, .close _ value' _ => value = value'
  | .page _ _ value, .page _ _ value' => value = value'
  | .pageZero _ _ value, .pageZero _ _ value' => value = value'
  | _, _ => False

theorem HoldOp.SameValue.absorbs {op op' : HoldOp} (h : op.SameValue op') (habsorbs : s.Absorbs op) :
    s.Absorbs op' := by
  cases op <;> cases op' <;> first | exact h.elim | (obtain rfl := h; exact habsorbs)

theorem HoldOp.Effect.unchanged_of_absorbs {op : HoldOp} {events : List HoldEvent}
    (heffect : op.Effect crypto s s' events) (h : s.Absorbs op) : s' = s := by
  cases heffect with
  | reserved plan hprepare hnew =>
    dsimp only [Absorbs] at h
    rw [hnew.reservation_none] at h
    cases h
  | advanced found hprepare _ _ hnew =>
    obtain ⟨head, hhead, hle⟩ := h
    exact absurd hle (hnew.later head hhead).not_ge
  | final plan reservation hprepare _ _ hfound hnew =>
    obtain ⟨head, hhead, hle⟩ := h
    obtain ⟨⟨found, append, metadata⟩, hplan, -⟩ := Option.map_eq_some_iff.mp hfound
    obtain ⟨-, hnew⟩ := hnew found append metadata hplan
    exact absurd hle (hnew.later head hhead).not_ge
  | closed plan reservation hprepare =>
    have hnone := (prepareClose_repeated hprepare).mpr h
    cases hnone
  | page earnings transition houtcome | pageZero earnings transition houtcome =>
    exact houtcome.unchanged_of_past h
  | _ => rfl

inductive AcceptingStep (crypto : Crypto) : Ledger × List HoldOp → Ledger × List HoldOp → Prop
  | accepted (s : Ledger) (log : List HoldOp) (op : HoldOp) (h : op.rejection crypto s = none) :
      AcceptingStep crypto (s, log) (op.run crypto s, log ++ [op])
  | rejected (s : Ledger) (log : List HoldOp) (op : HoldOp) (h : op.rejection crypto s ≠ none) :
      AcceptingStep crypto (s, log) (op.run crypto s, log)
  | freeze (s : Ledger) (log : List HoldOp) (sender : PublicKey) (epoch time : Nat) :
      AcceptingStep crypto (s, log) ((s.epochFreeze crypto sender epoch time).1, log)
  | emptySeal (s : Ledger) (log : List HoldOp) (sender : PublicKey) (tx : Digest) (epoch time : Nat)
      (reasonHash : Digest) :
      AcceptingStep crypto (s, log) ((s.epochSealEmpty crypto sender tx epoch time reasonHash).1, log)
  | other (s s' : Ledger) (log : List HoldOp) (hholds : s'.holds = s.holds)
      (hreceipts : s'.receipts = s.receipts) (hstate : s'.epochs.applyState = s.epochs.applyState) :
      AcceptingStep crypto (s, log) (s', log)

def AcceptingRun (crypto : Crypto) : Ledger × List HoldOp → Ledger × List HoldOp → Prop :=
  Relation.ReflTransGen (AcceptingStep crypto)

structure AcceptingInv (crypto : Crypto) (s : Ledger) (log : List HoldOp) : Prop where
  holds : ∃ history, HoldRun crypto s history
  sequenced : HeadsSequenced s.receipts
  absorbs : ∀ op ∈ log, s.Absorbs op

variable {log : List HoldOp}

theorem AcceptingInv.noLegacy (h : AcceptingInv crypto s log) : ∀ account, s.holds.hold.get account = none := by
  obtain ⟨_, hrun⟩ := h.holds
  exact hrun.holdsMatch.noLegacy

theorem AcceptingInv.advance (h : AcceptingInv crypto s log) (hadvances : Advances s s')
    (hholds : ∃ history, HoldRun crypto s' history) : AcceptingInv crypto s' log where
  holds := hholds
  sequenced := hadvances.heads.sequenced h.sequenced
  absorbs op hop := (h.absorbs op hop).advance hadvances

theorem AcceptingInv.of_kept (h : AcceptingInv crypto s log) (hadvances : Advances s s')
    (hholds : s'.holds = s.holds) (hreservation : s'.receipts.reservation = s.receipts.reservation)
    (hbilling : s'.receipts.billing = s.receipts.billing) : AcceptingInv crypto s' log := by
  obtain ⟨history, hrun⟩ := h.holds
  exact h.advance hadvances ⟨history, .other hrun hholds hreservation hbilling⟩

theorem AcceptingStep.inv {log' : List HoldOp} (hstep : AcceptingStep crypto (s, log) (s', log'))
    (h : AcceptingInv crypto s log) : AcceptingInv crypto s' log' := by
  obtain ⟨_, hrun⟩ := h.holds
  cases hstep with
  | accepted _ _ op hok =>
    have hnext : AcceptingInv crypto (op.run crypto s) log :=
      h.advance (op.effect h.noLegacy).advances ⟨_, .op op hrun⟩
    refine ⟨hnext.holds, hnext.sequenced, ?_⟩
    intro op' hop'
    rcases List.mem_append.mp hop' with hold | hnew
    . exact hnext.absorbs op' hold
    . rw [List.mem_singleton.mp hnew]
      exact (op.effect h.noLegacy).absorbs h.sequenced hok
  | rejected _ _ op => exact h.advance (op.effect h.noLegacy).advances ⟨_, .op op hrun⟩
  | freeze _ _ sender epoch time =>
    obtain ⟨hholds, _, hreceipts⟩ := epochFreeze_receipts crypto s sender epoch time
    have hadvances : Advances s (s.epochFreeze crypto sender epoch time).1 := by
      unfold epochFreeze
      split <;> exact .of_receipts rfl rfl (.of_eq rfl) fun _ _ h => h
    apply h.of_kept hadvances hholds
    . rw [hreceipts]
    . rw [hreceipts]
  | emptySeal _ _ sender tx epoch time reasonHash =>
    obtain ⟨hholds, hreceipts⟩ := epochSealEmpty_holds crypto s sender tx epoch time reasonHash
    apply h.of_kept (epochSealEmpty_advances crypto s sender tx epoch time reasonHash) hholds
    . rw [hreceipts]
    . rw [hreceipts]
  | other _ _ _ hholds hreceipts hstate =>
    have hadvances : Advances s s' := by
      refine .of_receipts ?_ ?_ (.of_eq ?_) ?_
      . rw [hreceipts]
      . rw [hreceipts]
      . rw [hreceipts]
      . rw [applyState, applyState, hstate]
        exact fun _ _ h => h
    apply h.of_kept hadvances hholds
    . rw [hreceipts]
    . rw [hreceipts]

theorem AcceptingRun.inv (hrun : AcceptingRun crypto (Ledger.empty, []) (s, log)) :
    AcceptingInv crypto s log := by
  refine Run.invariant_log (AcceptingInv crypto) ⟨⟨[], .start⟩, by rintro _ _ ⟨⟩, by simp⟩ ?_ hrun
  intro t seen t' seen' hinv hstep
  exact hstep.inv hinv

/--
What was accepted once does nothing when it is submitted again, whatever has happened since.
-/
theorem resubmission_unchanged {log : List HoldOp}
    (hrun : AcceptingRun crypto (Ledger.empty, []) (s, log)) (op op' : HoldOp) (hop : op ∈ log)
    (hsame : op.SameValue op') : op'.run crypto s = s := by
  have hinv := hrun.inv
  exact (op'.effect hinv.noLegacy).unchanged_of_absorbs (hsame.absorbs (hinv.absorbs op hop))

/--
After the talk is settled, its reservation, its receipt and its page are submitted again.
-/
theorem resubmission_unchanged_talk : ∃ s log, AcceptingRun plainHost (Ledger.empty, []) (s, log) ∧
    s.applyState.updatedEpoch = 1 ∧ (HoldOp.reserve 300 (talkReserve 0 500)).run plainHost s = s ∧
    (HoldOp.record 1 (talkReceipt 0 4)).run plainHost s = s ∧
    (HoldOp.pageZero 10 1 talkPageZero).run plainHost s = s := by
  have hfacts : (HoldOp.reserve 300 (talkReserve 0 500)).rejection plainHost talkLedger = none ∧
      (HoldOp.record 1 (talkReceipt 0 4)).rejection plainHost talkReserved = none ∧
      (HoldOp.pageZero 10 1 talkPageZero).rejection plainHost talkFrozen = none ∧
      talkSettled.applyState.updatedEpoch = 1 := by
    decide +kernel
  obtain ⟨hreserve, hrecord, hpage, hupdated⟩ := hfacts
  have hledger : AcceptingRun plainHost (Ledger.empty, []) (talkLedger, []) := .single (.other _ _ _ rfl rfl rfl)
  have hreserved := hledger.tail (.accepted talkLedger _ _ hreserve)
  have hrecorded := hreserved.tail (.accepted talkReserved _ _ hrecord)
  have hfrozen := hrecorded.tail (.freeze talkRecorded _ 10 1 3600)
  have hrun := hfrozen.tail (.accepted talkFrozen _ _ hpage)
  refine ⟨talkSettled, _, hrun, hupdated, ?_, ?_, ?_⟩
  . exact resubmission_unchanged hrun (.reserve 300 (talkReserve 0 500)) _ (by simp) rfl
  . exact resubmission_unchanged hrun (.record 1 (talkReceipt 0 4)) _ (by simp) rfl
  . exact resubmission_unchanged hrun (.pageZero 10 1 talkPageZero) _ (by simp) rfl

end Ledger

end Mayhem
