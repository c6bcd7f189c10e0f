import Mayhem.Lib.Lock
import Mayhem.Payout.Accepted
import Mayhem.Payout.Ops

namespace Mayhem

namespace FiatAttempt

def idempotencyKeys (attempt : FiatAttempt) : List Digest := [attempt.preparation.idempotencyKeyHash]

def quoteIds (attempt : FiatAttempt) : List String :=
  attempt.preparation.request.fxQuote.toList.map FxQuote.id

def effectIds (attempt : FiatAttempt) : List String :=
  (attempt.result.bind fun result => result.evidence.transfer).toList.map StripeTransfer.ref

end FiatAttempt

namespace Ledger

variable {host : PayoutCrypto} {s s' : Ledger}

variable {sender : PublicKey} {key : Digest}

theorem prepareFiatAttempt_eq_true {value : FiatAttemptValue}
    (h : s.prepareFiatAttempt host sender key value = .ok true) :
    s.payouts.attempt.get (value.economicOpId, value.attemptId) = none ∧
    attemptRenewable (s.payouts.attemptTail.get value.economicOpId) value.attemptNo = true ∧
    s.payouts.attemptIdempotency.get value.idempotencyKeyHash = none ∧
    ∀ quote ∈ value.request.fxQuote, s.payouts.attemptQuote.get quote.id = none := by
  unfold prepareFiatAttempt at h
  cases hexisting : s.payouts.attempt.get (value.economicOpId, value.attemptId) with
  | some => simp [hexisting] at h
  | none =>
    simp only [hexisting, checks_iff] at h
    obtain ⟨-, -, -, _, -, _, -, -, _, -, -, -, hrenew, hkey, hquote, -⟩ := h
    refine ⟨rfl, by simpa using hrenew, by simpa using hkey, ?_⟩
    intro quote hmem
    by_contra hused
    exact hquote ⟨quote, hmem, Option.isSome_iff_ne_none.mpr hused⟩

theorem prepareFiatAttemptResult_eq_some {value : AttemptResultValue} {attempt : FiatAttempt}
    {effect : Option String}
    (h : s.prepareFiatAttemptResult host sender key value = .ok (some (attempt, effect))) :
    s.payouts.attempt.get (value.economicOpId, value.attemptId) = some attempt ∧
    attempt.status = .prepared ∧ effect = value.evidence.transfer.map StripeTransfer.ref ∧
    ∀ ref ∈ effect, s.payouts.attemptEffect.get ref = none := by
  simp only [prepareFiatAttemptResult, checks_iff] at h
  obtain ⟨-, -, -, _, hfound, -, h⟩ := h
  split at h
  case isTrue _ => simp at h
  case isFalse hprepared =>
    cases hevidence : value.evidence with
    | expiredPreEffect =>
      simp only [hevidence, checks_iff, Option.some.injEq, Prod.mk.injEq] at h
      obtain ⟨-, rfl, rfl⟩ := h
      exact ⟨hfound, not_not.mp hprepared, rfl, by simp⟩
    | succeeded transfer =>
      simp only [hevidence, checks_iff, Option.some.injEq, Prod.mk.injEq] at h
      obtain ⟨-, hnew, rfl, rfl⟩ := h
      refine ⟨hfound, not_not.mp hprepared, rfl, ?_⟩
      intro ref href
      obtain rfl : transfer.ref = ref := by simpa using href
      simpa using hnew

theorem prepareFiatOutput_eq_some {value : FiatOutputValue} {plan : OutputPlan} {attempt : FiatAttempt}
    {effect : AttemptEffect}
    (h : s.prepareFiatOutput host sender key value = .ok (some (plan, attempt, effect))) :
    s.payouts.output.get (.fiat, value.epoch, value.economicOpId) = none ∧
    plan.output.economicOpId = value.economicOpId ∧
    s.payouts.attempt.get (value.economicOpId, value.attemptId) = some attempt ∧
    attempt.status = .succeeded ∧ attempt.consumed = false := by
  unfold prepareFiatOutput at h
  cases hexisting : s.payouts.output.get (.fiat, value.epoch, value.economicOpId) with
  | some => simp [hexisting] at h
  | none =>
    simp only [hexisting, checks_iff, Option.some.injEq, Prod.mk.injEq] at h
    obtain ⟨-, -, -, output, houtput, _, -, ⟨_, _⟩, hattempt, planned, hplanned, rfl, rfl, rfl⟩ := h
    refine ⟨rfl, ?_, ?_⟩
    . have hsame : planned.output = output := by
        simp only [planOutput, checks_iff] at hplanned
        obtain ⟨_, -, hplanned⟩ := hplanned
        cases hsettlement : output.settlement with
        | some settlement =>
          simp only [hsettlement, checks_iff] at hplanned
          obtain ⟨_, -, rfl⟩ := hplanned
          rfl
        | none =>
          simp only [hsettlement, checks_iff] at hplanned
          obtain ⟨_, -, rfl⟩ := hplanned
          rfl
      rw [hsame]
      exact plannedOutput_economicOpId houtput
    . simp only [validateFiatTransfer, checks_iff, not_or, not_not, ne_eq, Prod.mk.injEq,
        Bool.not_eq_true] at hattempt
      obtain ⟨_, hget, ⟨hstatus, hconsumed, -⟩, _, -, -, -, rfl, rfl⟩ := hattempt
      exact ⟨hget, hstatus, hconsumed⟩

end Ledger

def FiatAttempt.Follows (attempt : FiatAttempt) (tail : AttemptTail) : Prop :=
  (attempt.preparation.attemptNo = tail.attemptNo ∧ attempt.status = tail.status) ∨
    (attempt.preparation.attemptNo < tail.attemptNo ∧ attempt.status = .expiredPreEffect)

structure AttemptsSound (payouts : Payouts) : Prop where
  idempotency : payouts.attempt.Locked payouts.attemptIdempotency FiatAttempt.idempotencyKeys
  quotes : payouts.attempt.Locked payouts.attemptQuote FiatAttempt.quoteIds
  effects : payouts.attempt.Locked payouts.attemptEffect FiatAttempt.effectIds
  tailed : ∀ op id attempt, payouts.attempt.get (op, id) = some attempt →
    ∃ tail, payouts.attemptTail.get op = some tail ∧ attempt.Follows tail
  numbered : ∀ op id id' attempt attempt', payouts.attempt.get (op, id) = some attempt →
    payouts.attempt.get (op, id') = some attempt' →
    attempt.preparation.attemptNo = attempt'.preparation.attemptNo → id = id'
  unfinished : ∀ op id attempt, payouts.attempt.get (op, id) = some attempt → attempt.status = .prepared →
    attempt.result = none
  settled : ∀ epoch op output, payouts.output.get (.fiat, epoch, op) = some output →
    ∃ value attempt, output = .fiat value ∧ payouts.attempt.get (op, value.attemptId) = some attempt ∧
      attempt.consumed = true
  consumed : ∀ op id attempt, payouts.attempt.get (op, id) = some attempt → attempt.consumed = true →
    attempt.status = .succeeded ∧ ∃ epoch value,
      payouts.output.get (.fiat, epoch, op) = some (.fiat value) ∧ value.attemptId = id
  settled_once : ∀ epoch epoch' op output output', payouts.output.get (.fiat, epoch, op) = some output →
    payouts.output.get (.fiat, epoch', op) = some output' → epoch = epoch'

namespace AttemptsSound

variable {payouts : Payouts}

theorem empty : AttemptsSound .empty where
  idempotency := .empty
  quotes := .empty
  effects := .empty
  tailed op id attempt h := by simp [Payouts.empty] at h
  numbered op id id' attempt attempt' h := by simp [Payouts.empty] at h
  unfinished op id attempt h := by simp [Payouts.empty] at h
  settled epoch op output h := by simp [Payouts.empty] at h
  consumed op id attempt h := by simp [Payouts.empty] at h
  settled_once epoch epoch' op output output' h := by simp [Payouts.empty] at h

variable {attempt : FiatAttempt}

theorem effective_unique (h : AttemptsSound payouts) {op id id' : Digest} {attempt' : FiatAttempt}
    (hget : payouts.attempt.get (op, id) = some attempt)
    (hget' : payouts.attempt.get (op, id') = some attempt') (heffective : attempt.status ≠ .expiredPreEffect)
    (heffective' : attempt'.status ≠ .expiredPreEffect) : id = id' := by
  obtain ⟨_, htail, hfollows⟩ := h.tailed op id attempt hget
  obtain ⟨_, htail', hfollows'⟩ := h.tailed op id' attempt' hget'
  rw [htail, Option.some.injEq] at htail'
  subst htail'
  apply h.numbered op id id' attempt attempt' hget hget'
  rcases hfollows with ⟨hno, -⟩ | ⟨-, hexpired⟩
  . rcases hfollows' with ⟨hno', -⟩ | ⟨-, hexpired'⟩
    . rw [hno, hno']
    . exact absurd hexpired' heffective'
  . exact absurd hexpired heffective

theorem expired_of_renewable (h : AttemptsSound payouts) {op id : Digest} {attemptNo : Nat}
    (hrenew : attemptRenewable (payouts.attemptTail.get op) attemptNo = true)
    (hget : payouts.attempt.get (op, id) = some attempt) :
    attempt.status = .expiredPreEffect ∧ attempt.preparation.attemptNo < attemptNo := by
  obtain ⟨_, htail, hfollows⟩ := h.tailed op id attempt hget
  simp only [attemptRenewable, htail, Bool.decide_and, Bool.and_eq_true, decide_eq_true_eq] at hrenew
  obtain ⟨hstatus, _⟩ := hrenew
  rcases hfollows with ⟨_, hlast⟩ | ⟨_, hexpired⟩
  . exact ⟨hlast.trans hstatus, by omega⟩
  . exact ⟨hexpired, by omega⟩

theorem numbered_update (h : AttemptsSound payouts) {op id : Digest} {updated : FiatAttempt}
    (hget : payouts.attempt.get (op, id) = some attempt) (hkept : updated.preparation = attempt.preparation)
    (op' id₁ id₂ : Digest) (first second : FiatAttempt)
    (hfirst : (payouts.attempt.put (op, id) updated).get (op', id₁) = some first)
    (hsecond : (payouts.attempt.put (op, id) updated).get (op', id₂) = some second)
    (hno : first.preparation.attemptNo = second.preparation.attemptNo) : id₁ = id₂ := by
  obtain ⟨⟨⟩, rfl⟩ | ⟨-, hfirst⟩ := Table.get_put_eq_some.mp hfirst
  . obtain ⟨⟨⟩, rfl⟩ | ⟨-, hsecond⟩ := Table.get_put_eq_some.mp hsecond
    . rfl
    . exact h.numbered _ _ _ _ _ hget hsecond (by rw [← hno, hkept])
  . obtain ⟨⟨⟩, rfl⟩ | ⟨-, hsecond⟩ := Table.get_put_eq_some.mp hsecond
    . exact h.numbered _ _ _ _ _ hfirst hget (by rw [hno, hkept])
    . exact h.numbered _ _ _ _ _ hfirst hsecond hno

variable {host : PayoutCrypto} {s : Ledger} {sender : PublicKey} {key : Digest}

theorem writeFiatAttempt {value : FiatAttemptValue} (h : AttemptsSound s.payouts)
    (hprepare : s.prepareFiatAttempt host sender key value = .ok true) :
    AttemptsSound (s.writeFiatAttempt value).payouts := by
  obtain ⟨hnew, hrenew, hkey, hquote⟩ := Ledger.prepareFiatAttempt_eq_true hprepare
  have hkept : ∀ {op id attempt}, s.payouts.attempt.get (op, id) = some attempt →
      (s.writeFiatAttempt value).payouts.attempt.get (op, id) = some attempt := by
    intro op id attempt hget
    refine (Table.get_put_of_ne _ _ ?_).trans hget
    intro heq
    rw [heq, hnew] at hget
    cases hget
  constructor
  case idempotency =>
    apply h.idempotency.put
    . intro l hl
      obtain rfl : l = value.idempotencyKeyHash := by simpa [FiatAttempt.idempotencyKeys] using hl
      exact .inr hkey
    . exact fun l => Table.isSome_get_put
    . intro l hl
      obtain rfl : l = value.idempotencyKeyHash := by simpa [FiatAttempt.idempotencyKeys] using hl
      simp [Ledger.writeFiatAttempt]
  case quotes =>
    have huses : ∀ l ∈ FiatAttempt.quoteIds ⟨value, .prepared, none, false⟩,
        ∃ quote ∈ value.request.fxQuote, quote.id = l := by
      intro l hl
      simpa [FiatAttempt.quoteIds] using hl
    apply h.quotes.put
    . intro l hl
      obtain ⟨quote, hmem, rfl⟩ := huses l hl
      exact .inr (hquote quote hmem)
    . exact fun l => Table.isSome_get_putAll _ _
    . intro l hl
      obtain ⟨quote, hmem, rfl⟩ := huses l hl
      apply Table.isSome_get_putAll_of_mem
      rw [List.map_map]
      exact List.mem_map_of_mem (f := Prod.fst ∘ fun quote : FxQuote => (quote.id, value.attemptId))
        (Option.mem_toList.mpr hmem)
  case effects =>
    apply h.effects.put
    . simp [FiatAttempt.effectIds]
    . exact fun l hl => hl
    . simp [FiatAttempt.effectIds]
  case tailed =>
    intro op id attempt hget
    obtain ⟨⟨⟩, rfl⟩ | ⟨-, hget⟩ := Table.get_put_eq_some.mp hget
    . exact ⟨_, Table.get_put_self _ _ _, .inl ⟨rfl, rfl⟩⟩
    . by_cases hop : op = value.economicOpId
      . subst hop
        obtain ⟨hexpired, hlt⟩ := h.expired_of_renewable hrenew hget
        exact ⟨_, Table.get_put_self _ _ _, .inr ⟨hlt, hexpired⟩⟩
      . rw [Ledger.writeFiatAttempt, Table.get_put_of_ne _ _ hop]
        exact h.tailed op id attempt hget
  case numbered =>
    intro op id id' attempt attempt' hget hget' hno
    -- the number of the new attempt is above all others
    obtain ⟨⟨⟩, rfl⟩ | ⟨-, hget⟩ := Table.get_put_eq_some.mp hget
    . obtain ⟨⟨⟩, rfl⟩ | ⟨-, hget'⟩ := Table.get_put_eq_some.mp hget'
      . rfl
      . exact absurd hno.symm (h.expired_of_renewable hrenew hget').2.ne
    . obtain ⟨⟨⟩, rfl⟩ | ⟨-, hget'⟩ := Table.get_put_eq_some.mp hget'
      . exact absurd hno (h.expired_of_renewable hrenew hget).2.ne
      . exact h.numbered op id id' attempt attempt' hget hget' hno
  case unfinished =>
    intro op id attempt hget hstatus
    obtain ⟨-, rfl⟩ | ⟨-, hget⟩ := Table.get_put_eq_some.mp hget
    . rfl
    . exact h.unfinished op id attempt hget hstatus
  case settled =>
    intro epoch op output houtput
    obtain ⟨settlement, attempt, rfl, hget, hconsumed⟩ := h.settled epoch op output houtput
    exact ⟨settlement, attempt, rfl, hkept hget, hconsumed⟩
  case consumed =>
    intro op id attempt hget hconsumed
    obtain ⟨-, rfl⟩ | ⟨-, hget⟩ := Table.get_put_eq_some.mp hget
    . cases hconsumed
    . exact h.consumed op id attempt hget hconsumed
  case settled_once => exact h.settled_once

theorem writeFiatAttemptResult {value : AttemptResultValue} {effect : Option String}
    (h : AttemptsSound s.payouts)
    (hprepare : s.prepareFiatAttemptResult host sender key value = .ok (some (attempt, effect))) :
    AttemptsSound (s.writeFiatAttemptResult value attempt effect).payouts := by
  obtain ⟨hget, hprepared, rfl, hnew⟩ := Ledger.prepareFiatAttemptResult_eq_some hprepare
  have hopen : ¬ attempt.consumed = true := by
    intro hconsumed
    have hsucceeded := (h.consumed _ _ _ hget hconsumed).1
    rw [hprepared] at hsucceeded
    cases hsucceeded
  have hdone : value.evidence.status ≠ .prepared := by
    cases value.evidence <;> simp [AttemptEvidence.status]
  constructor
  case idempotency => exact h.idempotency.update hget fun l hl => hl
  case quotes => exact h.quotes.update hget fun l hl => hl
  case effects =>
    apply h.effects.put
    . intro l hl
      exact .inr (hnew l (by simpa [FiatAttempt.effectIds] using hl))
    . exact fun l => Table.isSome_get_putAll _ _
    . intro l hl
      apply Table.isSome_get_putAll_of_mem
      simpa [FiatAttempt.effectIds] using hl
  case tailed =>
    intro op id other hother
    obtain ⟨⟨⟩, rfl⟩ | ⟨hne, hother⟩ := Table.get_put_eq_some.mp hother
    . exact ⟨_, Table.get_put_self _ _ _, .inl ⟨rfl, rfl⟩⟩
    . by_cases hop : op = value.economicOpId
      . -- the attempt was the last one, so the others had no effect
        subst hop
        obtain ⟨tail, htail, hfollows⟩ := h.tailed _ _ _ hget
        obtain ⟨_, htail', hfollows'⟩ := h.tailed _ _ _ hother
        rw [htail, Option.some.injEq] at htail'
        subst htail'
        have hlast : attempt.preparation.attemptNo = tail.attemptNo := by
          rcases hfollows with ⟨hno, -⟩ | ⟨-, hexpired⟩
          . exact hno
          . rw [hprepared] at hexpired
            cases hexpired
        refine ⟨_, Table.get_put_self _ _ _, .inr ?_⟩
        rcases hfollows' with ⟨hno', -⟩ | ⟨hlt, hexpired⟩
        . have hid := h.numbered _ _ _ _ _ hother hget (hno'.trans hlast.symm)
          exact absurd (by rw [hid]) hne
        . exact ⟨hlt.trans_eq hlast.symm, hexpired⟩
      . rw [Ledger.writeFiatAttemptResult, Table.get_put_of_ne _ _ hop]
        exact h.tailed op id other hother
  case numbered => exact h.numbered_update hget rfl
  case unfinished =>
    intro op id other hother hstatus
    obtain ⟨-, rfl⟩ | ⟨-, hother⟩ := Table.get_put_eq_some.mp hother
    . exact absurd hstatus hdone
    . exact h.unfinished op id other hother hstatus
  case settled =>
    intro epoch op output houtput
    obtain ⟨settlement, other, rfl, hother, hconsumed⟩ := h.settled epoch op output houtput
    refine ⟨settlement, other, rfl, (Table.get_put_of_ne _ _ ?_).trans hother, hconsumed⟩
    intro heq
    rw [heq, hget, Option.some.injEq] at hother
    subst hother
    exact hopen hconsumed
  case consumed =>
    intro op id other hother hconsumed
    obtain ⟨-, rfl⟩ | ⟨-, hother⟩ := Table.get_put_eq_some.mp hother
    . exact absurd hconsumed hopen
    . exact h.consumed op id other hother hconsumed
  case settled_once => exact h.settled_once

theorem writeFiatOutput {value : FiatOutputValue} {plan : OutputPlan} {effect : AttemptEffect}
    (h : AttemptsSound s.payouts)
    (hprepare : s.prepareFiatOutput host sender key value = .ok (some (plan, attempt, effect))) :
    AttemptsSound (s.writeFiatOutput value plan attempt effect).payouts := by
  obtain ⟨hunsettled, hop, hget, hsucceeded, hopen⟩ := Ledger.prepareFiatOutput_eq_some hprepare
  -- no other epoch has settled the output, since that consumed the attempt
  have hfirst : ∀ epoch output, s.payouts.output.get (.fiat, epoch, value.economicOpId) ≠ some output := by
    intro epoch output houtput
    obtain ⟨settlement, other, -, hother, hconsumed⟩ := h.settled _ _ _ houtput
    have hstatus := (h.consumed _ _ _ hother hconsumed).1
    have hid := h.effective_unique hother hget (by simp [hstatus]) (by simp [hsucceeded])
    rw [hid, hget, Option.some.injEq] at hother
    subst hother
    rw [hopen] at hconsumed
    cases hconsumed
  have houtputs : ∀ epoch op,
    (s.writeFiatOutput value plan attempt effect).payouts.output.get (.fiat, epoch, op) =
      if epoch = value.epoch ∧ op = value.economicOpId then some (.fiat value)
      else s.payouts.output.get (.fiat, epoch, op) := by
    intro epoch op
    simp only [Ledger.writeFiatOutput, Ledger.writeOutput, Payouts.writeConsumption, hop, Table.get_put,
      Prod.mk.injEq, true_and]
  constructor
  case idempotency => exact h.idempotency.update hget fun l hl => hl
  case quotes => exact h.quotes.update hget fun l hl => hl
  case effects =>
    have hupdated : s.payouts.attempt.put (value.economicOpId, value.attemptId) { attempt with consumed := true }
        |>.Locked s.payouts.attemptEffect FiatAttempt.effectIds := h.effects.update hget fun l hl => hl
    exact hupdated.mono fun l => Table.isSome_get_put
  case tailed =>
    intro op id other hother
    obtain ⟨⟨⟩, rfl⟩ | ⟨-, hother⟩ := Table.get_put_eq_some.mp hother
    . exact h.tailed _ _ attempt hget
    . exact h.tailed op id other hother
  case numbered => exact h.numbered_update hget rfl
  case unfinished =>
    intro op id other hother hstatus
    obtain ⟨-, rfl⟩ | ⟨-, hother⟩ := Table.get_put_eq_some.mp hother
    . exact h.unfinished _ _ attempt hget hstatus
    . exact h.unfinished op id other hother hstatus
  case settled =>
    intro epoch op output houtput
    rw [houtputs] at houtput
    simp only [Ledger.writeFiatOutput, Table.get_put]
    split at houtput
    case isTrue hself =>
      obtain ⟨rfl, rfl⟩ := hself
      cases houtput
      exact ⟨value, _, rfl, if_pos rfl, rfl⟩
    case isFalse hne =>
      obtain ⟨settlement, other, rfl, hother, hconsumed⟩ := h.settled epoch op output houtput
      by_cases hself : (op, settlement.attemptId) = (value.economicOpId, value.attemptId)
      . exact ⟨settlement, _, rfl, if_pos hself, rfl⟩
      . exact ⟨settlement, other, rfl, (if_neg hself).trans hother, hconsumed⟩
  case consumed =>
    intro op id other hother hconsumed
    obtain ⟨⟨⟩, rfl⟩ | ⟨-, hother⟩ := Table.get_put_eq_some.mp hother
    . refine ⟨hsucceeded, value.epoch, value, ?_, rfl⟩
      rw [houtputs, if_pos ⟨rfl, rfl⟩]
    . obtain ⟨hstatus, epoch, settlement, houtput, hid⟩ := h.consumed op id other hother hconsumed
      refine ⟨hstatus, epoch, settlement, ?_, hid⟩
      rw [houtputs, if_neg]
      . exact houtput
      . rintro ⟨rfl, rfl⟩
        rw [hunsettled] at houtput
        cases houtput
  case settled_once =>
    intro epoch epoch' op output output' houtput houtput'
    rw [houtputs] at houtput houtput'
    split at houtput
    case isTrue hself =>
      obtain ⟨rfl, rfl⟩ := hself
      split at houtput'
      case isTrue hself' => exact hself'.1.symm
      case isFalse hne' => exact absurd houtput' (hfirst epoch' output')
    case isFalse hne =>
      split at houtput'
      case isTrue hself' =>
        obtain ⟨rfl, rfl⟩ := hself'
        exact absurd houtput (hfirst epoch output)
      case isFalse hne' => exact h.settled_once epoch epoch' op output output' houtput houtput'

end AttemptsSound

structure SameFiatRecords (s s' : Ledger) : Prop where
  attempt_eq : s'.payouts.attempt = s.payouts.attempt
  attemptTail_eq : s'.payouts.attemptTail = s.payouts.attemptTail
  attemptIdempotency_eq : s'.payouts.attemptIdempotency = s.payouts.attemptIdempotency
  attemptQuote_eq : s'.payouts.attemptQuote = s.payouts.attemptQuote
  attemptEffect_eq : s'.payouts.attemptEffect = s.payouts.attemptEffect
  output_eq : ∀ epoch op, s'.payouts.output.get (.fiat, epoch, op) = s.payouts.output.get (.fiat, epoch, op)

theorem AttemptsSound.of_same {s s' : Ledger} (h : AttemptsSound s.payouts) (hsame : SameFiatRecords s s') :
    AttemptsSound s'.payouts := by
  obtain ⟨hattempt, htail, hidempotency, hquote, heffect, houtput⟩ := hsame
  constructor <;> simp only [hattempt, htail, hidempotency, hquote, heffect, houtput]
  case idempotency => exact h.idempotency
  case quotes => exact h.quotes
  case effects => exact h.effects
  case tailed => exact h.tailed
  case numbered => exact h.numbered
  case unfinished => exact h.unfinished
  case settled => exact h.settled
  case consumed => exact h.consumed
  case settled_once => exact h.settled_once

namespace Ledger

inductive FiatStep (crypto : Crypto) (host : PayoutCrypto) : Ledger → Ledger → Prop where
  | op (s : Ledger) (op : PayoutOp) : FiatStep crypto host s (op.exec crypto host s)
  | other {s s' : Ledger} : SameFiatRecords s s' → FiatStep crypto host s s'

variable {crypto : Crypto} {payoutOp : PayoutOp}

theorem PayoutChange.attemptsSound (hchange : PayoutChange crypto host s payoutOp s')
    (h : AttemptsSound s.payouts) : AttemptsSound s'.payouts := by
  cases hchange with
  | attemptOpened hprepare => exact h.writeFiatAttempt hprepare
  | attemptEnded hprepare => exact h.writeFiatAttemptResult hprepare
  | fiatSettled hprepare => exact h.writeFiatOutput hprepare
  | tnkSettled hprepare =>
    exact h.of_same ⟨rfl, rfl, rfl, rfl, rfl, fun epoch op => Table.get_put_of_ne _ _ (by simp)⟩
  | none op => exact h
  | planned | prepared | closed | tapSettled | tapCut => exact h.of_same ⟨rfl, rfl, rfl, rfl, rfl, fun _ _ => rfl⟩

theorem FiatStep.attemptsSound (hstep : FiatStep crypto host s s') (h : AttemptsSound s.payouts) :
    AttemptsSound s'.payouts := by
  cases hstep with
  | op op => exact (op.change crypto host s).attemptsSound h
  | other hsame => exact h.of_same hsame

theorem FiatStep.succeeded_stays (hstep : FiatStep crypto host s s') {op id : Digest} {attempt : FiatAttempt}
    (hget : s.payouts.attempt.get (op, id) = some attempt) (hsucceeded : attempt.status = .succeeded) :
    ∃ attempt', s'.payouts.attempt.get (op, id) = some attempt' ∧ attempt'.status = .succeeded := by
  cases hstep with
  | op op =>
    have hchange := op.change crypto host s
    generalize op.exec crypto host s = s' at hchange ⊢
    cases hchange with
    | attemptOpened hprepare =>
      have hnew := (prepareFiatAttempt_eq_true hprepare).1
      refine ⟨attempt, (Table.get_put_of_ne _ _ ?_).trans hget, hsucceeded⟩
      intro heq
      rw [heq, hnew] at hget
      cases hget
    | attemptEnded hprepare =>
      obtain ⟨hfound, hprepared, -⟩ := prepareFiatAttemptResult_eq_some hprepare
      refine ⟨attempt, (Table.get_put_of_ne _ _ ?_).trans hget, hsucceeded⟩
      intro heq
      rw [heq, hfound, Option.some.injEq] at hget
      rw [← hget, hprepared] at hsucceeded
      cases hsucceeded
    | fiatSettled hprepare =>
      obtain ⟨-, -, hfound, hstatus, -⟩ := prepareFiatOutput_eq_some hprepare
      simp only [writeFiatOutput, Table.get_put]
      split
      . exact ⟨_, rfl, hstatus⟩
      . exact ⟨attempt, hget, hsucceeded⟩
    | none | planned | prepared | tnkSettled | closed | tapSettled | tapCut => exact ⟨attempt, hget, hsucceeded⟩
  | other hsame => exact ⟨attempt, by rw [hsame.attempt_eq, hget], hsucceeded⟩

end Ledger

structure SentOnce (payouts : Payouts) : Prop where
  live_unique : ∀ op id id' attempt attempt', payouts.attempt.get (op, id) = some attempt →
    payouts.attempt.get (op, id') = some attempt' → attempt.status = .prepared →
    attempt'.status = .prepared → id = id'
  idempotencyKey_unique : ∀ key key' attempt attempt', payouts.attempt.get key = some attempt →
    payouts.attempt.get key' = some attempt' →
    attempt.preparation.idempotencyKeyHash = attempt'.preparation.idempotencyKeyHash → key = key'
  quote_unique : ∀ key key' attempt attempt', payouts.attempt.get key = some attempt →
    payouts.attempt.get key' = some attempt' →
    ∀ quote ∈ attempt.quoteIds, quote ∈ attempt'.quoteIds → key = key'
  effect_unique : ∀ key key' attempt attempt', payouts.attempt.get key = some attempt →
    payouts.attempt.get key' = some attempt' →
    ∀ effect ∈ attempt.effectIds, effect ∈ attempt'.effectIds → key = key'
  settled_by : ∀ epoch op output, payouts.output.get (.fiat, epoch, op) = some output →
    ∃ value attempt, output = .fiat value ∧ payouts.attempt.get (op, value.attemptId) = some attempt ∧
      attempt.status = .succeeded ∧ attempt.consumed = true
  consumed_by : ∀ op id attempt, payouts.attempt.get (op, id) = some attempt → attempt.consumed = true →
    ∃ epoch value, payouts.output.get (.fiat, epoch, op) = some (.fiat value) ∧ value.attemptId = id ∧
      ∀ epoch' output, payouts.output.get (.fiat, epoch', op) = some output → epoch' = epoch

theorem AttemptsSound.sentOnce {payouts : Payouts} (h : AttemptsSound payouts) : SentOnce payouts where
  live_unique op id id' attempt attempt' hget hget' hlive hlive' :=
    h.effective_unique hget hget' (by simp [hlive]) (by simp [hlive'])
  idempotencyKey_unique key key' attempt attempt' hget hget' heq :=
    h.idempotency.apart key key' attempt attempt' hget hget' attempt.preparation.idempotencyKeyHash
      (by simp [FiatAttempt.idempotencyKeys]) (by simp [FiatAttempt.idempotencyKeys, heq])
  quote_unique := h.quotes.apart
  effect_unique := h.effects.apart
  settled_by epoch op output houtput := by
    obtain ⟨value, attempt, hvalue, hget, hconsumed⟩ := h.settled epoch op output houtput
    exact ⟨value, attempt, hvalue, hget, (h.consumed _ _ _ hget hconsumed).1, hconsumed⟩
  consumed_by op id attempt hget hconsumed := by
    obtain ⟨-, epoch, value, houtput, hid⟩ := h.consumed op id attempt hget hconsumed
    refine ⟨epoch, value, houtput, hid, ?_⟩
    intro epoch' output houtput'
    exact h.settled_once epoch' epoch op output _ houtput' houtput

namespace Ledger

variable {crypto : Crypto} {host : PayoutCrypto} {s₀ s : Ledger}

/--
A fiat payout is sent at most once: an output has at most one live attempt, a new one is only opened after all
before it expired without effect, and at most one ever succeeds.
-/
theorem fiat_payout_sent_once (hstart : s₀.payouts = .empty)
    (hrun : Relation.ReflTransGen (FiatStep crypto host) s₀ s) :
    SentOnce s.payouts ∧
    (∀ sender key value, (s.applyTargetedFiatAttemptFeature host sender key value).2 = .ok false →
      ∀ id attempt, s.payouts.attempt.get (value.economicOpId, id) = some attempt →
        attempt.status = .expiredPreEffect) ∧
    ∀ s', Relation.ReflTransGen (FiatStep crypto host) s s' → ∀ op id id' attempt attempt',
      s.payouts.attempt.get (op, id) = some attempt → attempt.status = .succeeded →
      s'.payouts.attempt.get (op, id') = some attempt' → attempt'.status = .succeeded → id = id' := by
  have hsound : ∀ t, Relation.ReflTransGen (FiatStep crypto host) s₀ t → AttemptsSound t.payouts := by
    intro t ht
    refine Run.invariant (fun t : Ledger => AttemptsSound t.payouts) ?_ ?_ ht
    . rw [hstart]
      exact .empty
    . exact fun _ _ h hstep => hstep.attemptsSound h
  refine ⟨(hsound s hrun).sentOnce, ?_, ?_⟩
  . intro sender key value haccepted id attempt hget
    unfold applyTargetedFiatAttemptFeature at haccepted
    split at haccepted
    . cases haccepted
    . cases haccepted
    case h_3 hprepare =>
      exact ((hsound s hrun).expired_of_renewable (prepareFiatAttempt_eq_true hprepare).2.1 hget).1
  . intro s' hlater op id id' attempt attempt' hget hsucceeded hget' hsucceeded'
    -- the first success is still there at the end
    have hstays : ∃ kept, s'.payouts.attempt.get (op, id) = some kept ∧ kept.status = .succeeded := by
      refine Run.invariant (fun t : Ledger => ∃ kept, t.payouts.attempt.get (op, id) = some kept ∧
        kept.status = .succeeded) ⟨attempt, hget, hsucceeded⟩ ?_ hlater
      rintro t _ ⟨kept, hkept, hstatus⟩ hstep
      exact hstep.succeeded_stays hkept hstatus
    obtain ⟨kept, hkept, hstatus⟩ := hstays
    exact (hsound s' (hrun.trans hlater)).effective_unique hkept hget' (by simp [hstatus])
      (by simp [hsucceeded'])

def quoteHost : PayoutCrypto :=
  { plainPayoutHost with transferGroup := fun _ _ => "mayhem_fiat_epoch_1_0123456789abcdef" }

def quoteOutput : PlanOutput :=
  ⟨7, 0, "acct_1", some ⟨30, 4, 0, 0⟩, .fiat ⟨100, 100, 0, 0, "usd", 1, some ⟨"eur", 1, 2⟩⟩⟩

def quotePlan : PlanValue :=
  ⟨contractVersion, .fiat, 1, 3600, 0, 1, .payouts, [quoteOutput], [], 0, 0, 0, 10, 0⟩

def quotePreparation : PreparationValue where
  contractVersion := contractVersion
  economicOpId := 7
  rail := .fiat
  epoch := 1
  epochApplyHash := 0
  preparedAt := 3600
  kind := .liability
  outputIndex := 0
  payloadHash := 0
  payload := .fiat 0 quoteOutput "usd"
  liability := payoutPreparationLiabilityForOutput quoteOutput
  externalEffectIds := []
  admin := 10
  adminSig := 0

def quotePrepared : Ledger :=
  { talkLedger with payouts := { Payouts.empty with
    plan := Table.empty.put (.fiat, 1) quotePlan
    preparation := Table.empty.put (.fiat, 7) ⟨quotePreparation, false, 0⟩ } }

def quoteAttempt (attemptNo : Nat) (quote : String) : FiatAttemptValue where
  contractVersion := contractVersion
  epoch := 1
  epochApplyHash := 0
  planRoot := 0
  economicOpId := 7
  outputIndex := 0
  attemptId := 7 + attemptNo
  attemptNo := attemptNo
  preparedAt := 3600
  quoteExpiresAt := some 3700
  idempotencyKeyHash := 7 + attemptNo
  requestHash := 7 + attemptNo
  request := ⟨.stripeTransfer, "acct_1", "usd", 1, some ⟨"eur", 1, 2⟩, some ⟨quote, 0⟩,
    some "mayhem_fiat_epoch_1_0123456789abcdef", 0⟩
  admin := 10
  adminSig := 0

def quoteResult (attemptId : Digest) (evidence : AttemptEvidence) : AttemptResultValue :=
  ⟨contractVersion, 1, 7, attemptId, 3700, evidence, 10, 0⟩

def quoteTransfer : StripeTransfer :=
  ⟨.stripeTransfer, 9, "tr_1", "acct_1", "usd", 1, some ⟨"eur", 1, "py_1"⟩, some ⟨"fxq_2", 0⟩,
    some "mayhem_fiat_epoch_1_0123456789abcdef"⟩

def quoteOpened : Ledger :=
  (quotePrepared.applyTargetedFiatAttemptFeature quoteHost 10 0 (quoteAttempt 1 "fxq_1")).1

def quoteExpired : Ledger :=
  (quoteOpened.applyFinalizeTargetedFiatAttemptFeature quoteHost 10 0
    (quoteResult 8 (.expiredPreEffect ⟨"fxq_1", 0⟩ 3700))).1

def quoteRenewed : Ledger :=
  (quoteExpired.applyTargetedFiatAttemptFeature quoteHost 10 0 (quoteAttempt 2 "fxq_2")).1

def quotePaid : Ledger :=
  (quoteRenewed.applyFinalizeTargetedFiatAttemptFeature quoteHost 10 0
    (quoteResult 9 (.succeeded quoteTransfer))).1

theorem fiat_payout_sent_once_quote :
    (quotePaid.payouts.attempt.get (7, 8)).map FiatAttempt.status = some .expiredPreEffect ∧
    (quotePaid.payouts.attempt.get (7, 9)).map FiatAttempt.status = some .succeeded ∧
    SentOnce quotePaid.payouts := by
  have hprepared : FiatStep plainHost quoteHost talkLedger quotePrepared :=
    .other ⟨rfl, rfl, rfl, rfl, rfl, fun _ _ => rfl⟩
  have hopened : FiatStep plainHost quoteHost quotePrepared quoteOpened :=
    .op _ (.fiatAttempt 10 0 (quoteAttempt 1 "fxq_1"))
  have hexpired : FiatStep plainHost quoteHost quoteOpened quoteExpired :=
    .op _ (.fiatAttemptResult 10 0 (quoteResult 8 (.expiredPreEffect ⟨"fxq_1", 0⟩ 3700)))
  have hrenewed : FiatStep plainHost quoteHost quoteExpired quoteRenewed :=
    .op _ (.fiatAttempt 10 0 (quoteAttempt 2 "fxq_2"))
  have hpaid : FiatStep plainHost quoteHost quoteRenewed quotePaid :=
    .op _ (.fiatAttemptResult 10 0 (quoteResult 9 (.succeeded quoteTransfer)))
  have hrun : Relation.ReflTransGen (FiatStep plainHost quoteHost) talkLedger quotePaid :=
    ((((Relation.ReflTransGen.single hprepared).tail hopened).tail hexpired).tail hrenewed).tail hpaid
  exact ⟨by decide +kernel, by decide +kernel, (fiat_payout_sent_once rfl hrun).1⟩

end Ledger

end Mayhem
