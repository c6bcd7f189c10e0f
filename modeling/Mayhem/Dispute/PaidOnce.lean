import Mayhem.Lib.Run
import Mayhem.Movement
import Mayhem.SlashFacts
import Mayhem.Dispute.Handle
import Mayhem.Outstanding

namespace Mayhem

theorem bondSplit_eq_ok {action : DepositAction} {depositAu forfeitBps : Nat} {split : BondSplit}
    (h : bondSplit action depositAu forfeitBps = .ok split) :
    split.refundedAu + split.forfeitedAu = depositAu ∧
      (action ≠ .partialForfeit → split.refundedAu = 0 ∨ split.forfeitedAu = 0) := by
  cases action with
  | refund =>
    obtain rfl := Except.ok.inj h
    exact ⟨rfl, fun _ => .inr rfl⟩
  | forfeit =>
    obtain rfl := Except.ok.inj h
    exact ⟨Nat.zero_add _, fun _ => .inl rfl⟩
  | partialForfeit =>
    simp only [bondSplit, checks_iff, safeSubAu_eq_ok] at h
    obtain ⟨-, -, _, ⟨hle, rfl⟩, rfl⟩ := h
    exact ⟨Nat.sub_add_cancel hle, fun hne => absurd rfl hne⟩

theorem disputeOpenCount_eq_ok {K : Type} {counts : Table K Nat} {key : K} {count : Nat} :
    disputeOpenCount counts key = .ok count ↔ (counts.get key).getD 0 = count ∧
      isSafeInteger count := by
  simp only [disputeOpenCount, checks_iff, not_not]
  constructor
  . rintro ⟨hsafe, rfl⟩
    exact ⟨rfl, hsafe⟩
  . rintro ⟨rfl, hsafe⟩
    exact ⟨hsafe, rfl⟩

namespace Ledger

/-! Paying the bond -/

def bondPaidAu (s paid : Ledger) (dispute : DisputeRecord) : Nat :=
  (paid.balanceAu dispute.openedBy dispute.rail - s.balanceAu dispute.openedBy dispute.rail) +
    (paid.feeCumAu dispute.rail - s.feeCumAu dispute.rail)

theorem bondPaidAu_self (s : Ledger) (dispute : DisputeRecord) : s.bondPaidAu s dispute = 0 := by
  simp [bondPaidAu]

variable {s t : Ledger} {dispute : DisputeRecord} {au : Nat}

theorem bondPaidAu_congr {t' : Ledger} (haccounts : t'.accounts = t.accounts)
    (hregistry : t'.registry = t.registry) (dispute : DisputeRecord) :
    s.bondPaidAu t' dispute = s.bondPaidAu t dispute := by
  simp [bondPaidAu, balanceAu, feeCumAu, balanceRecord, feeCumRecord, haccounts, hregistry]

theorem bondPaidAu_putBalance {balance next : BalanceRecord}
    (hread : s.balanceRecord dispute.openedBy dispute.rail = .ok balance)
    (hscope : next.scope = balance.scope) (hau : next.au = balance.au + au) :
    s.bondPaidAu (s.putBalance dispute.openedBy dispute.rail next) dispute = au := by
  have hfee : (s.putBalance dispute.openedBy dispute.rail next).feeCumAu dispute.rail =
    s.feeCumAu dispute.rail := rfl
  rw [bondPaidAu, balanceAu_of_read hread,
    balanceAu_of_read (balanceRecord_putBalance hread hscope), hau, hfee]
  omega

theorem refundDeposit_eq_ok (h : s.refundDeposit dispute au = .ok t) : au = 0 ∧ t = s ∨
      ∃ balance next, s.balanceRecord dispute.openedBy dispute.rail = .ok balance ∧
        guardianValidateBalanceRecord balance dispute.rail = .ok () ∧
        next = { balance with
          au := balance.au + au
          updatedEpoch := max balance.updatedEpoch dispute.epoch } ∧
        t = s.putBalance dispute.openedBy dispute.rail next := by
  unfold refundDeposit at h
  split at h
  . next hzero =>
    cases h
    exact .inl ⟨hzero, rfl⟩
  . simp only [checks_iff] at h
    obtain ⟨balance, hbalance, hvalid, rfl⟩ := h
    exact .inr ⟨balance, _, hbalance, hvalid, rfl, rfl⟩

theorem forfeitDeposit_eq_ok (h : s.forfeitDeposit dispute au = .ok t) : au = 0 ∧ t = s ∨
      ∃ fee next, s.feeCumRecord dispute.rail = .ok fee ∧
        guardianValidateFeeRecord next dispute.rail = .ok () ∧ next = { fee with
          cumAu := fee.cumAu + au
          settledCumAu := some (fee.settledCumAu.getD fee.cumAu + au)
          updatedEpoch := max fee.updatedEpoch dispute.epoch } ∧
        t = s.putFee dispute.rail next := by
  unfold forfeitDeposit at h
  split at h
  . next hzero =>
    cases h
    exact .inl ⟨hzero, rfl⟩
  . simp only [checks_iff] at h
    obtain ⟨fee, hfee, -, hvalid, rfl⟩ := h
    exact .inr ⟨fee, _, hfee, hvalid, rfl, rfl⟩

theorem refundDeposit_balanceAu (h : s.refundDeposit dispute au = .ok t) :
    t.balanceAu dispute.openedBy dispute.rail = s.balanceAu dispute.openedBy dispute.rail + au ∧
      t.feeCumAu dispute.rail = s.feeCumAu dispute.rail := by
  rcases refundDeposit_eq_ok h with ⟨rfl, rfl⟩ | ⟨_, _, hread, -, hnext, rfl⟩
  . exact ⟨rfl, rfl⟩
  . refine ⟨?_, rfl⟩
    rw [balanceAu_of_read hread, balanceAu_of_read (balanceRecord_putBalance hread (by rw [hnext])),
      hnext]

theorem forfeitDeposit_feeCumAu (h : s.forfeitDeposit dispute au = .ok t) :
    t.feeCumAu dispute.rail = s.feeCumAu dispute.rail + au ∧
      t.balanceAu dispute.openedBy dispute.rail = s.balanceAu dispute.openedBy dispute.rail := by
  rcases forfeitDeposit_eq_ok h with ⟨rfl, rfl⟩ | ⟨_, _, hread, -, hnext, rfl⟩
  . exact ⟨rfl, rfl⟩
  . refine ⟨?_, rfl⟩
    rw [feeCumAu_of_read hread, feeCumAu_of_read (feeCumRecord_putFee hread (by rw [hnext])), hnext]

/-! What a resolution depends on -/

end Ledger

structure ReputationFold.CanCount (fold : ReputationFold) : Prop where
  time_safe : isSafeInteger fold.time
  sessions_safe : isSafeInteger fold.successfulSessions
  epoch_safe : isSafeInteger fold.maxEpoch
  count_safe : isSafeInteger (fold.eventCount + 1)

theorem ReputationHost.decayReputationRawNano_accepts (host : ReputationHost) (rawNano : Int)
    {fromSeconds toSeconds : Nat} (hsafe : isSafeInteger toSeconds)
    (hle : fromSeconds ≤ toSeconds) :
    ∃ decayed, host.decayReputationRawNano rawNano fromSeconds toSeconds = .ok decayed := by
  unfold decayReputationRawNano
  rw [rejectIf_of_not (by unfold isSafeInteger at *; omega)]
  exact ⟨_, rfl⟩

theorem ReputationHost.currentFold_accepts (host : ReputationHost) {current : Option ReputationFold}
    {time : Nat} (htime : isSafeInteger time) (hcurrent : ∀ fold ∈ current, fold.CanCount) :
    ∃ fold, host.currentFold current time = .ok fold ∧ fold.CanCount ∧ time ≤ fold.time := by
  cases current with
  | none =>
    have hone : 1 ≤ maxSafeInteger := by decide
    exact ⟨startFold time, rfl, ⟨htime, Nat.zero_le _, Nat.zero_le _, hone⟩, Nat.le_refl _⟩
  | some fold =>
    have hfold := hcurrent fold rfl
    have hcount : isSafeInteger fold.eventCount := Nat.le_of_succ_le hfold.count_safe
    have hmax : isSafeInteger (max fold.time time) := max_le hfold.time_safe htime
    obtain ⟨decayed, hdecayed⟩ := host.decayReputationRawNano_accepts fold.rawNano hmax
      (le_max_left _ _)
    have hstate : ¬ (¬ isSafeInteger fold.time ∨ ¬ isSafeInteger fold.successfulSessions ∨
        ¬ isSafeInteger fold.eventCount ∨ ¬ isSafeInteger fold.maxEpoch) := by
      simp only [not_or, not_not]
      exact ⟨hfold.time_safe, hfold.sessions_safe, hcount, hfold.epoch_safe⟩
    refine ⟨{ fold with rawNano := decayed, time := max fold.time time }, ?_, ?_, le_max_right _ _⟩
    . unfold currentFold
      dsimp only
      rw [rejectIf_of_not hstate, Except.bind_of_ok, hdecayed]
      rfl
    . exact ⟨hmax, hfold.sessions_safe, hfold.epoch_safe, hfold.count_safe⟩

theorem Reputation.appendReputationEvent_accepts {reputation : Reputation} (host : ReputationHost)
    (event : ReputationEvent) (hkind : event.kind = .disputeLost)
    (hid : isSafeKeyPart event.eventId = true)
    (hfresh : reputation.event.get (event.provider, event.eventId) = none)
    (htime : isSafeInteger event.time) (hepoch : isSafeInteger event.epoch)
    (hfold : ∀ fold ∈ reputation.fold.get event.provider, fold.CanCount) :
    ∃ next, reputation.appendReputationEvent host event = .ok next := by
  obtain ⟨fold, hcurrent, hcount, hle⟩ := host.currentFold_accepts htime hfold
  obtain ⟨_, hcontribution⟩ := host.decayReputationRawNano_accepts
    (-20000000000) hcount.time_safe hle
  unfold appendReputationEvent
  rw [rejectIf_of_not (by simp [hid]), Except.bind_of_ok, rejectIf_of_not (by simp [hfresh]),
    Except.bind_of_ok]
  dsimp only
  unfold ReputationHost.advanceReputationFold
  rw [rejectIf_of_not (by simpa using htime), Except.bind_of_ok,
    rejectIf_of_not (by simpa using hepoch),
    Except.bind_of_ok, hcurrent, Except.bind_of_ok, ReputationHost.reputationEventRawNano, hkind]
  dsimp only
  rw [Except.bind_of_ok, hcontribution, Except.bind_of_ok, if_neg (by decide),
    safeAddCount_eq_ok.mpr ⟨rfl, hcount.sessions_safe⟩, Except.bind_of_ok,
    safeAddCount_eq_ok.mpr ⟨rfl, hcount.count_safe⟩]
  exact ⟨_, rfl⟩

namespace Ledger

variable {s t : Ledger} {dispute : DisputeRecord}

structure Resolvable (s : Ledger) (value : DisputeResolveValue)
    (dispute : DisputeRecord) : Prop where
  epoch_safe : isSafeInteger dispute.epoch
  fee : value.depositAction = some .partialForfeit →
    ∃ fee, s.feeCumRecord dispute.rail = .ok fee ∧
      guardianValidateFeeRecord fee dispute.rail = .ok () ∧
      (dispute.rail = .tap → fee.scope.isSome)
  id_safe : value.outcome = some .providerFault →
    isSafeKeyPart (disputeLostEventId dispute.disputeId) = true
  event_fresh : value.outcome = some .providerFault →
    s.reputation.event.get (dispute.provider, disputeLostEventId dispute.disputeId) = none
  time_safe : value.outcome = some .providerFault → isSafeInteger value.time
  fold : value.outcome = some .providerFault →
    ∀ fold ∈ s.reputation.fold.get dispute.provider, fold.CanCount
  slashBps_le : value.slash = true →
    s.registry.activeParamAt value.time .disputeLostSlashBps ≤ 10000
  slash : value.slash = true → ∀ rail, SlashReadable s (s.disputeSlashRequest value dispute) rail
  openerCount : ∃ count, s.disputes.openerOpenCount.get dispute.openedBy = some count ∧
    isSafeInteger count ∧ 1 ≤ count
  providerCount : ∃ count, s.oversight.providerOpenDisputes.get dispute.provider = some count ∧
    isSafeInteger count ∧ 1 ≤ count

theorem forfeitDeposit_accepts (au : Nat) (hepoch : isSafeInteger dispute.epoch) {fee : FeeRecord}
    (hread : s.feeCumRecord dispute.rail = .ok fee)
    (hvalid : guardianValidateFeeRecord fee dispute.rail = .ok ())
    (hscope : dispute.rail = .tap → fee.scope.isSome) :
    ∃ t, s.forfeitDeposit dispute au = .ok t := by
  obtain ⟨_, hupdated⟩ := slashedFee_accepts au hepoch hread hvalid hscope
  rcases slashedFee_eq_ok hupdated with ⟨-, rfl⟩ | ⟨_, _, hread', -, hnext, hnextValid⟩
  . exact ⟨s, rfl⟩
  . obtain rfl := Except.ok.inj (hread.symm.trans hread')
    rw [hnext] at hnextValid
    unfold forfeitDeposit
    split
    . exact ⟨s, rfl⟩
    . rw [hread, Except.bind_of_ok, hvalid, Except.bind_of_ok]
      dsimp only
      rw [hnextValid]
      exact ⟨_, rfl⟩

variable {value : DisputeResolveValue}

theorem payDeposit_cases {split : BondSplit} (h : Resolvable s value dispute)
    (hsplit : value.depositAction ≠ some .partialForfeit →
      split.refundedAu = 0 ∨ split.forfeitedAu = 0) :
    (∃ message, s.payDeposit dispute split = (s, .error message)) ∨
      ∃ refunded paid, s.refundDeposit dispute split.refundedAu = .ok refunded ∧
        refunded.forfeitDeposit dispute split.forfeitedAu = .ok paid ∧
        s.payDeposit dispute split = (paid, .ok ()) := by
  unfold payDeposit
  cases hrefund : s.refundDeposit dispute split.refundedAu with
  | error message => exact .inl ⟨message, rfl⟩
  | ok refunded =>
    dsimp only
    cases hforfeit : refunded.forfeitDeposit dispute split.forfeitedAu with
    | ok paid => exact .inr ⟨refunded, paid, rfl, hforfeit, rfl⟩
    | error message =>
      refine .inl ⟨message, ?_⟩
      have hsome : split.forfeitedAu ≠ 0 := by
        intro hzero
        rw [hzero] at hforfeit
        cases hforfeit
      by_cases hpartial : value.depositAction = some .partialForfeit
      . rcases refundDeposit_eq_ok hrefund with ⟨-, rfl⟩ | ⟨_, next, -, -, -, rfl⟩
        . rfl
        . obtain ⟨fee, hread, hvalid, hscope⟩ := h.fee hpartial
          obtain ⟨paid, hpaid⟩ := forfeitDeposit_accepts
            (s := s.putBalance dispute.openedBy dispute.rail next)
            split.forfeitedAu h.epoch_safe hread hvalid hscope
          rw [hpaid] at hforfeit
          cases hforfeit
      . -- the forfeit is the only part, so that nothing has been written
        rw [(hsplit hpartial).resolve_right hsome] at hrefund
        cases hrefund
        rfl

/-! Judging the provider -/

theorem SlashReadable.of_payDeposit {request : SlashRequest} {rail : Rail} {split : BondSplit}
    {refunded paid : Ledger} (h : SlashReadable s request rail)
    (hepoch : isSafeInteger dispute.epoch)
    (hrefund : s.refundDeposit dispute split.refundedAu = .ok refunded)
    (hforfeit : refunded.forfeitDeposit dispute split.forfeitedAu = .ok paid) :
    SlashReadable paid request rail := by
  have hrefunded : SlashReadable refunded request rail := by
    rcases refundDeposit_eq_ok hrefund with ⟨-, rfl⟩ | ⟨balance, next, hread, hvalid, hnext, rfl⟩
    . exact h
    . refine ⟨h.earning, fun beneficiary hbeneficiary => ?_, h.fee⟩
      obtain ⟨stored, hstored, hstoredValid, hstoredScope⟩ := h.balance beneficiary hbeneficiary
      by_cases hkey : (beneficiary, rail) = (dispute.openedBy, dispute.rail)
      . obtain ⟨rfl, rfl⟩ := Prod.mk.inj hkey
        obtain rfl := Except.ok.inj (hread.symm.trans hstored)
        rw [guardianValidateBalanceRecord_accepts_iff] at hvalid
        have hscope : next.scope = balance.scope := by rw [hnext]
        refine ⟨next, balanceRecord_putBalance hread hscope, ?_, fun htap => ?_⟩
        . rw [guardianValidateBalanceRecord_accepts_iff, hscope]
          refine ⟨?_, fun htap => ?_⟩
          . rw [hnext]
            exact max_le hvalid.1 hepoch
          . have hbound := hvalid.2 htap
            obtain ⟨_, hpool⟩ := Option.isSome_iff_exists.mp (hstoredScope htap)
            rw [hpool] at hbound ⊢
            exact hbound
        . rw [hscope]
          exact hstoredScope htap
      . exact ⟨stored, by rw [balanceRecord_putBalance_of_ne _ hkey, hstored],
          hstoredValid, hstoredScope⟩
  rcases forfeitDeposit_eq_ok hforfeit with ⟨-, rfl⟩ | ⟨fee, next, hread, hvalid, hnext, rfl⟩
  . exact hrefunded
  . refine ⟨hrefunded.earning, hrefunded.balance, ?_⟩
    obtain ⟨stored, hstored, hstoredValid, hstoredScope⟩ := hrefunded.fee
    by_cases hrail : rail = dispute.rail
    . subst hrail
      obtain rfl := Except.ok.inj (hread.symm.trans hstored)
      have hscope : next.scope = fee.scope := by rw [hnext]
      refine ⟨next, feeCumRecord_putFee hread hscope, hvalid, fun htap => ?_⟩
      rw [hscope]
      exact hstoredScope htap
    . exact ⟨stored, by rw [feeCumRecord_putFee_of_ne _ hrail, hstored], hstoredValid, hstoredScope⟩

structure Judgeable (s : Ledger) (value : DisputeResolveValue)
    (verdict : DisputeVerdict) : Prop where
  stored : s.disputes.record.get value.disputeId = some verdict.dispute
  opened : verdict.dispute.status = .opened
  outcome_eq : value.outcome = some verdict.outcome
  action_eq : value.depositAction = some verdict.action
  provider : verdict.outcome = .providerFault →
    (s.registry.providers.get verdict.dispute.provider).isSome
  split : bondSplit verdict.action verdict.dispute.depositAu
    (s.registry.activeParamAt value.time .disputeOpenerFaultForfeitBps) = .ok verdict.split

variable {verdict : DisputeVerdict}

theorem prepareDisputeResolve_eq_ok {sender : PublicKey}
    (h : s.prepareDisputeResolve sender value = .ok verdict) : Judgeable s value verdict := by
  simp only [prepareDisputeResolve, openDispute, checks_iff, not_not, ne_eq, not_and] at h
  obtain ⟨-, _, houtcome, _, haction, _, ⟨_, hstored, hopened, rfl⟩, hprovider, -, -, -, -, _,
    hsplit, rfl⟩ := h
  rw [Option.filter_eq_some_iff] at houtcome
  refine ⟨hstored, hopened, houtcome.1, haction, fun hfault => ?_, hsplit⟩
  have hsome := hprovider hfault
  rwa [Bool.not_eq_true, Option.isNone_eq_false_iff] at hsome

theorem faultProvider_accepts (host : ReputationHost) (sender : PublicKey) (tx : Digest)
    {refunded paid : Ledger} (h : Resolvable s value verdict.dispute)
    (hjudge : Judgeable s value verdict)
    (hrefund : s.refundDeposit verdict.dispute verdict.split.refundedAu = .ok refunded)
    (hforfeit : refunded.forfeitDeposit verdict.dispute verdict.split.forfeitedAu = .ok paid) :
    ∃ judged slash, paid.faultProvider host sender tx value verdict = (judged, .ok slash) ∧
      judged.disputes = s.disputes ∧ judged.oversight = s.oversight := by
  have hreadable := fun hslash rail =>
    (h.slash hslash rail).of_payDeposit h.epoch_safe hrefund hforfeit
  have hframe : paid.disputes = s.disputes ∧ paid.oversight = s.oversight ∧
    paid.registry = s.registry ∧
      paid.reputation = s.reputation := by
    rcases refundDeposit_eq_ok hrefund with ⟨-, rfl⟩ | ⟨_, _, -, -, -, rfl⟩ <;>
      rcases forfeitDeposit_eq_ok hforfeit with ⟨-, rfl⟩ | ⟨_, _, -, -, -, rfl⟩ <;>
      exact ⟨rfl, rfl, rfl, rfl⟩
  obtain ⟨hdisputes, hoversight, hregistry, hreputation⟩ := hframe
  unfold faultProvider
  split
  . exact ⟨paid, none, rfl, hdisputes, hoversight⟩
  . next hfault =>
    rw [ne_eq, not_not] at hfault
    have hvalue : value.outcome = some .providerFault := by rw [hjudge.outcome_eq, hfault]
    obtain ⟨reputation, happend⟩ := paid.reputation.appendReputationEvent_accepts host
      (disputeLostEvent sender tx value verdict.dispute) rfl (h.id_safe hvalue)
      (by rw [hreputation]; exact h.event_fresh hvalue) (h.time_safe hvalue) h.epoch_safe
      (by rw [hreputation]; exact h.fold hvalue)
    rw [happend]
    dsimp only
    split
    . next hslash =>
      have hrequest : disputeSlashRequest { paid with reputation := reputation } value
          verdict.dispute = s.disputeSlashRequest value verdict.dispute := by
        unfold disputeSlashRequest
        rw [hregistry]
      have hjudged : ∀ rail, SlashReadable { paid with reputation := reputation }
          (s.disputeSlashRequest value verdict.dispute) rail := by
        intro rail
        have hrail := hreadable hslash rail
        exact ⟨hrail.earning, hrail.balance, hrail.fee⟩
      obtain ⟨⟨slashed, slash⟩, happly⟩ := applyProviderSlash_accepts tx
        (by rw [hregistry]; exact hjudge.provider hfault) hjudged
          (h.slashBps_le hslash) h.epoch_safe
      rw [hrequest, happly]
      have hslashed := applyProviderSlash_eq_ok happly
      exact ⟨slashed, some slash, rfl, hslashed.disputes_eq.trans hdisputes,
        hslashed.oversight_eq.trans hoversight⟩
    . exact ⟨_, none, rfl, hdisputes, hoversight⟩

theorem closeDisputeCounts_accepts (h : Resolvable s value dispute)
    (hdisputes : t.disputes = s.disputes) (hoversight : t.oversight = s.oversight) :
    ∃ counted, t.closeDisputeCounts dispute = .ok counted ∧
      counted.disputes.record = s.disputes.record ∧ counted.disputes.next = s.disputes.next := by
  obtain ⟨openerCount, hopener, hopenerSafe, _⟩ := h.openerCount
  obtain ⟨providerCount, hprovider, hproviderSafe, _⟩ := h.providerCount
  refine ⟨{ t with
    disputes := { t.disputes with
      openerOpenCount := t.disputes.openerOpenCount.put dispute.openedBy (openerCount - 1) }
    oversight := { t.oversight with
      providerOpenDisputes := t.oversight.providerOpenDisputes.put dispute.provider
        (providerCount - 1) } },
    ?_, by rw [hdisputes], by rw [hdisputes]⟩
  unfold closeDisputeCounts
  rw [hdisputes, hoversight, disputeOpenCount_eq_ok.mpr ⟨by rw [hopener]; rfl, hopenerSafe⟩,
    Except.bind_of_ok,
    disputeOpenCount_eq_ok.mpr ⟨by rw [hprovider]; rfl, hproviderSafe⟩, Except.bind_of_ok,
    rejectIf_of_not (by omega), Except.bind_of_ok]
  rfl

/-! The operations -/

theorem dispute_cases (s : Ledger) (sender : PublicKey) (value : DisputeValue) :
    (s.dispute sender value).1 = s ∨
      ∃ record : DisputeRecord, record.disputeId = s.disputes.next.getD 1 ∧
        record.status = .opened ∧
        (s.dispute sender value).1.disputes.record = s.disputes.record.put record.disputeId record ∧
        (s.dispute sender value).1.disputes.next = some (record.disputeId + 1) := by
  unfold dispute
  cases hprepare : s.prepareDispute sender value with
  | error => exact .inl rfl
  | ok =>
    simp only [prepareDispute, checks_iff] at hprepare
    obtain ⟨-, -, _, -, -, -, -, _, -, _, -, -, _, -, -, -, rfl⟩ := hprepare
    exact .inr ⟨_, rfl, rfl, rfl, rfl⟩

theorem disputeResolve_cases (host : ReputationHost) {sender : PublicKey} (tx : Digest)
    (hprepare : s.prepareDisputeResolve sender value = .ok verdict)
    (h : Resolvable s value verdict.dispute) :
    (s.payDeposit verdict.dispute verdict.split).1 = s ∧
      (s.disputeResolve host sender tx value).1 = s ∨
      s.bondPaidAu (s.payDeposit verdict.dispute verdict.split).1 verdict.dispute =
          verdict.dispute.depositAu ∧
        (s.disputeResolve host sender tx value).1.disputes.record =
          s.disputes.record.put value.disputeId (resolved verdict) ∧
        (s.disputeResolve host sender tx value).1.disputes.next = s.disputes.next := by
  have hjudge := prepareDisputeResolve_eq_ok hprepare
  obtain ⟨_, honly⟩ := bondSplit_eq_ok hjudge.split
  have hsplit : value.depositAction ≠ some .partialForfeit →
      verdict.split.refundedAu = 0 ∨ verdict.split.forfeitedAu = 0 := by
    intro hne
    apply honly
    rw [hjudge.action_eq, ne_eq, Option.some.injEq] at hne
    exact hne
  unfold disputeResolve
  rw [hprepare]
  dsimp only
  rcases payDeposit_cases h hsplit with ⟨_, hpay⟩ | ⟨_, _, hrefund, hforfeit, hpay⟩
  . rw [hpay]
    exact .inl ⟨rfl, rfl⟩
  . obtain ⟨_, _, hfault, hdisputes, hoversight⟩ :=
      faultProvider_accepts host sender tx h hjudge hrefund hforfeit
    obtain ⟨_, hcounted, hrecord, hnext⟩ := closeDisputeCounts_accepts h hdisputes hoversight
    obtain ⟨hbalance, hfee⟩ := refundDeposit_balanceAu hrefund
    obtain ⟨hfee', hbalance'⟩ := forfeitDeposit_feeCumAu hforfeit
    rw [hpay]
    dsimp only
    rw [hfault]
    dsimp only
    rw [hcounted]
    refine .inr ⟨?_, ?_, hnext⟩
    . rw [bondPaidAu, hbalance', hbalance, hfee', hfee]
      omega
    . exact congrArg (fun record => Table.put record value.disputeId (resolved verdict)) hrecord

theorem closeDisputeCounts_eq_ok {counted : Ledger}
    (h : s.closeDisputeCounts dispute = .ok counted) :
    ∃ disputes oversight, counted = { s with disputes := disputes, oversight := oversight } ∧
      disputes.record = s.disputes.record ∧ disputes.next = s.disputes.next := by
  simp only [closeDisputeCounts, checks_iff] at h
  obtain ⟨_, -, _, -, -, rfl⟩ := h
  exact ⟨_, _, rfl, rfl, rfl⟩

theorem disputeExpire_cases (value : DisputeExpireValue) : (s.disputeExpire value).1 = s ∨
      ∃ dispute, s.disputes.record.get value.disputeId = some dispute ∧ dispute.status = .opened ∧
        s.bondPaidAu (s.disputeExpire value).1 dispute = dispute.depositAu ∧
        (s.disputeExpire value).1.disputes.record =
          s.disputes.record.put value.disputeId (expired dispute) ∧
        (s.disputeExpire value).1.disputes.next = s.disputes.next := by
  unfold disputeExpire
  cases hprepare : s.prepareDisputeExpire value with
  | error => exact .inl rfl
  | ok plan =>
    obtain ⟨dispute, next, counted⟩ := plan
    simp only [prepareDisputeExpire, openDispute, checks_iff, not_not, ne_eq] at hprepare
    obtain ⟨_, ⟨_, hstored, hopened, rfl⟩, -, -, balance, hread, -, -, counted, hcounted, hplan⟩ :=
      hprepare
    cases hplan
    obtain ⟨disputes, _, rfl, hrecord, hnext⟩ := closeDisputeCounts_eq_ok hcounted
    refine .inr ⟨dispute, hstored, hopened, ?_, ?_, hnext⟩
    . have hsame := bondPaidAu_congr (s := s)
        (t := s.putBalance dispute.openedBy dispute.rail { balance with
        au := balance.au + dispute.depositAu
        updatedEpoch := max (max balance.updatedEpoch s.applyState.updatedEpoch) dispute.epoch })
          rfl rfl dispute
      exact hsame.trans (bondPaidAu_putBalance hread rfl rfl)
    . exact congrArg (fun record => Table.put record value.disputeId (expired dispute)) hrecord

end Ledger

/-! Runs -/

inductive DisputeOp where
  | file (sender : PublicKey) (value : DisputeValue)
  | resolve (sender : PublicKey) (tx : Digest) (value : DisputeResolveValue)
  | expire (value : DisputeExpireValue)

namespace DisputeOp

def apply (host : ReputationHost) (s : Ledger) : DisputeOp → Ledger
  | file sender value => (s.dispute sender value).1
  | resolve sender tx value => (s.disputeResolve host sender tx value).1
  | expire value => (s.disputeExpire value).1

def message (host : ReputationHost) (s : Ledger) : DisputeOp → Option String
  | file sender value => (s.dispute sender value).2.message
  | resolve sender tx value => (s.disputeResolve host sender tx value).2.message
  | expire value => (s.disputeExpire value).2.message

/--
What an operation pays on account of a dispute, whether it is accepted or not. A slash may add to
the same records, but only after the bond was paid, and does not count.
-/
def paidAu (s : Ledger) (disputeId : Nat) : DisputeOp → Nat
  | file _ _ => 0
  | resolve sender _ value =>
    if value.disputeId = disputeId then
      match s.prepareDisputeResolve sender value with
      | .error _ => 0
      | .ok verdict => s.bondPaidAu (s.payDeposit verdict.dispute verdict.split).1 verdict.dispute
    else 0
  | expire value =>
    if value.disputeId = disputeId then
      match s.openDispute disputeId with
      | .error _ => 0
      | .ok dispute => s.bondPaidAu (s.disputeExpire value).1 dispute
    else 0

def Unstoppable (s : Ledger) : DisputeOp → Prop
  | resolve sender _ value =>
    ∀ verdict, s.prepareDisputeResolve sender value = .ok verdict →
      s.Resolvable value verdict.dispute
  | _ => True

variable {s : Ledger} {sender : PublicKey} {tx : Digest} {id : Nat}

variable {value : DisputeResolveValue}

theorem paidAu_resolve_of_ne (h : id ≠ value.disputeId) :
    (resolve sender tx value).paidAu s id = 0 := if_neg (Ne.symm h)

theorem paidAu_resolve_of_error {message : String}
    (h : s.prepareDisputeResolve sender value = .error message) :
    (resolve sender tx value).paidAu s id = 0 := by
  simp [paidAu, h, ite_self]

theorem paidAu_resolve_of_ok (tx : Digest) {verdict : DisputeVerdict}
    (h : s.prepareDisputeResolve sender value = .ok verdict) :
    (resolve sender tx value).paidAu s value.disputeId =
      s.bondPaidAu (s.payDeposit verdict.dispute verdict.split).1 verdict.dispute := by
  simp [paidAu, h]

theorem paidAu_expire_of_ne {value : DisputeExpireValue} (h : id ≠ value.disputeId) :
    (expire value).paidAu s id = 0 := if_neg (Ne.symm h)

theorem paidAu_expire_of_stays {value : DisputeExpireValue} (h : (s.disputeExpire value).1 = s) :
    (expire value).paidAu s id = 0 := by
  simp only [paidAu, h]
  split
  . split
    . rfl
    . exact s.bondPaidAu_self _
  . rfl

theorem paidAu_expire_of_opened {value : DisputeExpireValue} {dispute : DisputeRecord}
    (hstored : s.disputes.record.get value.disputeId = some dispute)
    (hopened : dispute.status = .opened) :
    (expire value).paidAu s value.disputeId = s.bondPaidAu (s.disputeExpire value).1 dispute := by
  have hopen : s.openDispute value.disputeId = .ok dispute := by
    unfold Ledger.openDispute
    rw [hstored, requireSome, Except.bind_of_ok, rejectIf_of_not (by simp [hopened])]
    rfl
  simp [paidAu, hopen]

end DisputeOp

structure BondAccount where
  ledger : Ledger
  paidAu : Nat → Nat

def BondAccount.after (host : ReputationHost) (account : BondAccount) (op : DisputeOp) :
    BondAccount where
  ledger := op.apply host account.ledger
  paidAu disputeId := account.paidAu disputeId + op.paidAu account.ledger disputeId

inductive DisputeStep (host : ReputationHost) (allowed : Ledger → DisputeOp → Prop) :
    BondAccount → BondAccount → Prop
  | op (account : BondAccount) (op : DisputeOp) (h : allowed account.ledger op) :
    DisputeStep host allowed account (account.after host op)
  | other (account : BondAccount) (ledger : Ledger)
    (h : ledger.disputes = account.ledger.disputes) :
    DisputeStep host allowed account ⟨ledger, account.paidAu⟩

structure BondAccount.Settled (account : BondAccount) : Prop where
  unknown : ∀ id, account.ledger.disputes.record.get id = none → account.paidAu id = 0
  below_next : ∀ id dispute, account.ledger.disputes.record.get id = some dispute →
    id < account.ledger.disputes.next.getD 1
  opened : ∀ id dispute, account.ledger.disputes.record.get id = some dispute →
    dispute.status = .opened → account.paidAu id = 0
  closed : ∀ id dispute, account.ledger.disputes.record.get id = some dispute →
    dispute.status ≠ .opened → account.paidAu id = dispute.depositAu

namespace BondAccount

variable {account : BondAccount}

theorem Settled.congr (h : account.Settled) {ledger : Ledger} {paidAu : Nat → Nat}
    (hrecord : ledger.disputes.record = account.ledger.disputes.record)
    (hnext : ledger.disputes.next = account.ledger.disputes.next)
    (hpaid : ∀ id, paidAu id = account.paidAu id) : Settled ⟨ledger, paidAu⟩ := by
  obtain rfl : paidAu = account.paidAu := funext hpaid
  constructor
  all_goals
    dsimp only
    rw [hrecord]
  . exact h.unknown
  . rw [hnext]
    exact h.below_next
  . exact h.opened
  . exact h.closed

theorem Settled.put (h : account.Settled) {ledger : Ledger} {paidAu : Nat → Nat} {disputeId : Nat}
    {dispute : DisputeRecord}
    (hrecord : ledger.disputes.record = account.ledger.disputes.record.put disputeId dispute)
    (hnext : account.ledger.disputes.next.getD 1 ≤ ledger.disputes.next.getD 1)
    (hid : disputeId < ledger.disputes.next.getD 1)
    (hpaid : paidAu disputeId = if dispute.status = .opened then 0 else dispute.depositAu)
    (hrest : ∀ id, id ≠ disputeId → paidAu id = account.paidAu id) : Settled ⟨ledger, paidAu⟩ := by
  refine ⟨fun id hnone => ?_, fun id record hstored => ?_, fun id record hstored hopened => ?_,
    fun id record hstored hclosed => ?_⟩
  . dsimp only at hnone
    rw [hrecord, Table.get_put] at hnone
    split at hnone
    . cases hnone
    . next hne => exact (hrest id hne).trans (h.unknown id hnone)
  all_goals
    dsimp only at hstored
    rw [hrecord] at hstored
    obtain ⟨rfl, rfl⟩ | ⟨hne, hstored⟩ := Table.get_put_eq_some.mp hstored
  . exact hid
  . exact (h.below_next id record hstored).trans_le hnext
  . exact hpaid.trans (if_pos hopened)
  . exact (hrest id hne).trans (h.opened id record hstored hopened)
  . exact hpaid.trans (if_neg hclosed)
  . exact (hrest id hne).trans (h.closed id record hstored hclosed)

theorem Settled.close (h : account.Settled) {ledger : Ledger} {paidAu : Nat → Nat} {disputeId : Nat}
    {dispute : DisputeRecord} (closed : DisputeRecord)
    (hstored : account.ledger.disputes.record.get disputeId = some dispute)
    (hopened : dispute.status = .opened) (hstatus : closed.status ≠ .opened)
    (hdeposit : closed.depositAu = dispute.depositAu)
    (hrecord : ledger.disputes.record = account.ledger.disputes.record.put disputeId closed)
    (hnext : ledger.disputes.next = account.ledger.disputes.next)
    (hpaid : paidAu disputeId = account.paidAu disputeId + dispute.depositAu)
    (hrest : ∀ id, id ≠ disputeId → paidAu id = account.paidAu id) : Settled ⟨ledger, paidAu⟩ := by
  refine h.put hrecord (by rw [hnext]) ?_ ?_ hrest
  . rw [hnext]
    exact h.below_next disputeId dispute hstored
  . rw [if_neg hstatus, hpaid, h.opened disputeId dispute hstored hopened, hdeposit, Nat.zero_add]

theorem Settled.step {host : ReputationHost} {account' : BondAccount} (h : account.Settled)
    (hstep : DisputeStep host DisputeOp.Unstoppable account account') : account'.Settled := by
  cases hstep with
  | other ledger hdisputes => exact h.congr (by rw [hdisputes]) (by rw [hdisputes]) fun _ => rfl
  | op op hsafe =>
    cases op
    all_goals dsimp only [after, DisputeOp.apply]
    case file sender value =>
      rcases account.ledger.dispute_cases sender value with
        hstays | ⟨_, hid, hopened, hrecord, hnext⟩
      . exact h.congr (by rw [hstays]) (by rw [hstays]) fun _ => rfl
      . refine h.put hrecord ?_ ?_ ?_ fun _ _ => rfl
        . rw [hnext, Option.getD_some, hid]
          exact Nat.le_succ _
        . rw [hnext]
          exact Nat.lt_succ_self _
        . -- the id of the new dispute has not been used
          rw [if_pos hopened]
          apply h.unknown
          rw [Option.eq_none_iff_forall_ne_some]
          intro dispute hstored
          exact Nat.lt_irrefl _ (hid ▸ h.below_next _ _ hstored)
    case resolve sender tx value =>
      cases hprepare : account.ledger.prepareDisputeResolve sender value with
      | error =>
        have hstays : (account.ledger.disputeResolve host sender tx value).1 = account.ledger := by
          unfold Ledger.disputeResolve
          rw [hprepare]
        rw [hstays]
        exact h.congr rfl rfl fun id => by
          rw [DisputeOp.paidAu_resolve_of_error hprepare, Nat.add_zero]
      | ok verdict =>
        have hjudge := Ledger.prepareDisputeResolve_eq_ok hprepare
        have hpaid := DisputeOp.paidAu_resolve_of_ok tx hprepare
        have hrest : ∀ id ≠ value.disputeId,
          (DisputeOp.resolve sender tx value).paidAu account.ledger id = 0 :=
          fun id => DisputeOp.paidAu_resolve_of_ne
        rcases Ledger.disputeResolve_cases host tx hprepare (hsafe _ hprepare) with
          ⟨hpay, hstays⟩ | ⟨hbond, hrecord, hnext⟩
        . rw [hpay, Ledger.bondPaidAu_self] at hpaid
          rw [hstays]
          refine h.congr rfl rfl fun id => ?_
          by_cases heq : id = value.disputeId
          . rw [heq, hpaid, Nat.add_zero]
          . rw [hrest id heq, Nat.add_zero]
        . apply h.close (Ledger.resolved verdict) hjudge.stored hjudge.opened
          . exact DisputeStatus.noConfusion
          . rfl
          . exact hrecord
          . exact hnext
          . rw [hpaid, hbond]
          . intro id hne
            rw [hrest id hne, Nat.add_zero]
    case expire value =>
      rcases Ledger.disputeExpire_cases (s := account.ledger) value with
        hstays | ⟨dispute, hstored, hopened, hbond, hrecord, hnext⟩
      . refine h.congr (by rw [hstays]) (by rw [hstays]) fun id => ?_
        rw [DisputeOp.paidAu_expire_of_stays hstays, Nat.add_zero]
      . apply h.close (Ledger.expired dispute) hstored hopened
        . exact DisputeStatus.noConfusion
        . rfl
        . exact hrecord
        . exact hnext
        . rw [DisputeOp.paidAu_expire_of_opened hstored hopened, hbond]
        . intro id hne
          rw [DisputeOp.paidAu_expire_of_ne hne, Nat.add_zero]

end BondAccount

/--
In every run in which no prepared resolution can be stopped after its first write, at most the bond
is paid on account of a dispute, and all of it once the dispute is closed.
-/
theorem bond_paid_once {host : ReputationHost} {start : Ledger} {account : BondAccount}
    (hstart : ∀ id, start.disputes.record.get id = none)
    (hrun : Relation.ReflTransGen (DisputeStep host DisputeOp.Unstoppable)
      ⟨start, fun _ => 0⟩ account) {disputeId : Nat} {dispute : DisputeRecord}
    (hstored : account.ledger.disputes.record.get disputeId = some dispute) :
    account.paidAu disputeId ≤ dispute.depositAu ∧
      (dispute.status ≠ .opened → account.paidAu disputeId = dispute.depositAu) := by
  have hempty : BondAccount.Settled ⟨start, fun _ => 0⟩ := by
    refine ⟨fun _ _ => rfl, ?_, ?_, ?_⟩
    all_goals
      intro id record hrecord
      rw [hstart id] at hrecord
      cases hrecord
  have hsettled := Run.invariant BondAccount.Settled hempty (fun _ _ h hstep => h.step hstep) hrun
  by_cases hopened : dispute.status = .opened
  . rw [hsettled.opened _ _ hstored hopened]
    exact ⟨Nat.zero_le _, fun hne => absurd hopened hne⟩
  . have hall := hsettled.closed _ _ hstored hopened
    exact ⟨Nat.le_of_eq hall, fun _ => hall⟩

/-! A dispute -/

namespace Ledger

def plainReputationHost : ReputationHost where
  decayPico _ := reputationDecayPicoScale
  weightNano _ := .ok 0
  eventHead _ event := event.time

def grievanceLedger (reputation : Reputation) : Ledger :=
  { talkLedger with
    registry := { talkLedger.registry with
      consents := Table.empty.put 20 ⟨1, 0⟩
      payments := some ⟨.admin, some ⟨1, 50⟩, 10, 1, 51, none⟩ }
    accounts := { talkLedger.accounts with
      balance := Table.empty.put (20, .tnk) ⟨1000000000000000000, 0, none⟩ }
    epochs := { talkLedger.epochs with
      applyState := some { talkLedger.applyState with updatedEpoch := 1 } }
    disputes := { talkLedger.disputes with
      epochHold := Table.empty.put (20, .tnk, 1)
        ⟨500, [spendSession plainHost (talkReserve 0 500)]⟩ }
    reputation := reputation }

def grievance : DisputeOp := .file 20 ⟨.tnk, 100, "no-answer", 30, none, 40, none, 0, none⟩

def verdictOnGrievance : DisputeOp :=
  .resolve 10 7 ⟨1, some .providerFault, some .refund, "r", 0, true, none⟩

def filedAccount (reputation : Reputation) : BondAccount :=
  BondAccount.after plainReputationHost ⟨grievanceLedger reputation, fun _ => 0⟩ grievance

def filedDispute : DisputeRecord :=
  ⟨1, .opened, .tnk, 20, 100, 30, 30, 40, 1, 1000000000000000000, 168, 169, none⟩

def slashReadable (s : Ledger) (rail : Rail) : Bool :=
  match s.earningRecord 30 rail, s.balanceRecord 20 rail, s.feeCumRecord rail with
  | .ok earning, .ok balance, .ok fee =>
    guardianValidateEarningRecord earning rail = .ok () ∧
      guardianValidateBalanceRecord balance rail = .ok () ∧
      guardianValidateFeeRecord fee rail = .ok () ∧
        (rail = .tap → balance.scope.isSome ∧ fee.scope.isSome)
  | _, _, _ => false

theorem slashReadable_sound {s : Ledger} {request : SlashRequest} {rail : Rail}
    (hprovider : request.provider = 30) (hbeneficiary : request.beneficiary = some 20)
    (h : slashReadable s rail = true) : SlashReadable s request rail := by
  unfold slashReadable at h
  split at h
  . next earning balance fee hearning hbalance hfee =>
    rw [decide_eq_true_eq] at h
    obtain ⟨hearningValid, hbalanceValid, hfeeValid, hscope⟩ := h
    refine ⟨⟨earning, by rw [hprovider, hearning], hearningValid⟩, ?_, fee, hfee, hfeeValid,
      fun htap => (hscope htap).2⟩
    intro beneficiary hsome
    obtain rfl := Option.some.inj (hbeneficiary.symm.trans hsome)
    exact ⟨balance, hbalance, hbalanceValid, fun htap => (hscope htap).1⟩
  . cases h

theorem filedAccount_unstoppable :
    verdictOnGrievance.Unstoppable (filedAccount Ledger.empty.reputation).ledger := by
  obtain ⟨s, hs⟩ : ∃ s, s = (filedAccount Ledger.empty.reputation).ledger := ⟨_, rfl⟩
  have hfacts : s.disputes.record.get 1 = some filedDispute ∧
    s.disputes.openerOpenCount.get 20 = some 1 ∧
      s.oversight.providerOpenDisputes.get 30 = some 1 ∧
      (s.reputation.event.get (30, "dispute-1-lost")).isNone = true ∧
      (s.reputation.fold.get 30).isNone = true ∧
        s.registry.activeParamAt 0 .disputeLostSlashBps = 2000 ∧
      providerAcceptedRailOrder.all (slashReadable s) = true := by
    rw [hs]
    decide +kernel
  rw [← hs]
  obtain ⟨hrecord, hopener, hprovider, hevent, hfold, hbps, hreadable⟩ := hfacts
  rw [Option.isNone_iff_eq_none] at hevent hfold
  rw [List.all_eq_true] at hreadable
  intro verdict hprepare
  have hdispute := hrecord.symm.trans (prepareDisputeResolve_eq_ok hprepare).stored
  rw [← Option.some.inj hdispute]
  constructor
  . decide
  . intro h
    cases h
  . exact fun _ => by decide
  . exact fun _ => hevent
  . exact fun _ => by decide
  . intro _ fold h
    rw [filedDispute, hfold] at h
    cases h
  . exact fun _ => by rw [hbps]; decide
  . exact fun _ rail => slashReadable_sound rfl rfl
      (hreadable rail rail.mem_providerAcceptedRailOrder)
  . exact ⟨1, hopener, by decide, by decide⟩
  . exact ⟨1, hprovider, by decide, by decide⟩

theorem bond_paid_once_on_fault :
    ∃ account dispute, Relation.ReflTransGen (DisputeStep plainReputationHost DisputeOp.Unstoppable)
        ⟨grievanceLedger Ledger.empty.reputation, fun _ => 0⟩ account ∧
      account.ledger.disputes.record.get 1 = some dispute ∧ dispute.status = .resolved ∧
      account.paidAu 1 = dispute.depositAu ∧ 0 < dispute.depositAu := by
  have hstart : ∀ id, (grievanceLedger Ledger.empty.reputation).disputes.record.get id = none :=
    fun _ => rfl
  have hfiled : Relation.ReflTransGen (DisputeStep plainReputationHost DisputeOp.Unstoppable)
      ⟨grievanceLedger Ledger.empty.reputation, fun _ => 0⟩
        (filedAccount Ledger.empty.reputation) :=
    .single (.op _ grievance trivial)
  have hrun := hfiled.tail (.op _ verdictOnGrievance filedAccount_unstoppable)
  generalize haccount : BondAccount.after plainReputationHost (filedAccount Ledger.empty.reputation)
    verdictOnGrievance = account at hrun
  have hstored : account.ledger.disputes.record.get 1 = some { filedDispute with
      status := .resolved
      closed := some ⟨.providerFault, .refund, 1000000000000000000, 0⟩ } := by
    rw [← haccount]
    decide +kernel
  have honce := bond_paid_once hstart hrun hstored
  exact ⟨account, _, hrun, hstored, rfl, honce.2 DisputeStatus.noConfusion, by decide⟩

def usedReputation : Reputation :=
  { Ledger.empty.reputation with
    event := Table.empty.put (30, "dispute-1-lost")
      (⟨30, "dispute-1-lost", .uptimeTick, 1, 0, none, none, none, 6, 10⟩, 0) }

/--
A resolution that is stopped by the reputation has already paid the bond, and pays it again when it
is repeated.
-/
theorem stopped_resolution_pays_twice :
    (∀ id, (grievanceLedger usedReputation).disputes.record.get id = none) ∧
      ∃ account dispute, Relation.ReflTransGen (DisputeStep plainReputationHost fun _ _ => True)
        ⟨grievanceLedger usedReputation, fun _ => 0⟩ account ∧
        account.ledger.disputes.record.get 1 = some dispute ∧ dispute.status = .opened ∧
        account.paidAu 1 = 2 * dispute.depositAu ∧ 0 < dispute.depositAu := by
  have hfiled : Relation.ReflTransGen (DisputeStep plainReputationHost fun _ _ => True)
      ⟨grievanceLedger usedReputation, fun _ => 0⟩ (filedAccount usedReputation) :=
    .single (.op _ grievance trivial)
  have hrun := (hfiled.tail (.op _ verdictOnGrievance trivial)).tail
    (.op _ verdictOnGrievance trivial)
  generalize haccount : BondAccount.after plainReputationHost (BondAccount.after plainReputationHost
    (filedAccount usedReputation) verdictOnGrievance) verdictOnGrievance = account at hrun
  have hfacts : account.ledger.disputes.record.get 1 = some filedDispute ∧
      account.paidAu 1 = 2 * filedDispute.depositAu := by
    rw [← haccount]
    decide +kernel
  exact ⟨fun _ => rfl, account, filedDispute, hrun, hfacts.1, rfl, hfacts.2, by decide⟩

end Ledger

end Mayhem
