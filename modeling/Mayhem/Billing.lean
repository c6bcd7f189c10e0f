import Mayhem.Lib.Run
import Mayhem.Outstanding

namespace Mayhem

/-! Usage -/

def Counts.Le (usage usage' : Counts) : Prop := ∀ unit, usage.get unit ≤ usage'.get unit

namespace Counts.Le

variable {usage usage' usage'' : Counts}

theorem refl (usage : Counts) : Counts.Le usage usage := fun _ => Nat.le_refl _

theorem trans (h : Counts.Le usage usage') (h' : Counts.Le usage' usage'') : Counts.Le usage usage'' :=
  fun unit => Nat.le_trans (h unit) (h' unit)

theorem of_listed (h : ∀ entry ∈ usage, usage.get entry.1 = entry.2 → entry.2 ≤ usage'.get entry.1) :
    Counts.Le usage usage' := by
  intro unit
  cases hfound : usage.lookup unit with
  | none =>
    rw [Counts.get, hfound]
    exact Nat.zero_le _
  | some count =>
    have hget : usage.get unit = count := by rw [Counts.get, hfound, Option.getD_some]
    rw [hget]
    have hmem : (unit, count) ∈ usage := by
      obtain ⟨_, _, hsplit, -⟩ := List.lookup_eq_some_iff.mp hfound
      rw [hsplit]
      exact List.mem_append_right _ List.mem_cons_self
    exact h _ hmem hget

end Counts.Le

theorem receiptUsageIsMonotonic_le {usage usage' : Counts}
    (h : receiptUsageIsMonotonic usage usage' = true) : Counts.Le usage usage' := by
  apply Counts.Le.of_listed
  intro entry hentry hget
  have hle := List.all_eq_true.mp h entry (List.mem_append_left _ hentry)
  rw [decide_eq_true_eq, hget] at hle
  exact hle.2.2

theorem receiptUsageDelta_le {usage usage' delta : Counts}
    (h : receiptUsageDelta usage usage' = .ok delta) : Counts.Le usage usage' := by
  simp only [receiptUsageDelta, checks_iff, not_exists, not_and, not_lt] at h
  apply Counts.Le.of_listed
  intro entry hentry _
  exact h.1 entry hentry

theorem baseline_of_validateReceiptBody {reg : Registry} {body : ReceiptBody}
    (h : validateReceiptBody reg body = .ok ()) :
    Counts.Le body.billingPriorUsage body.usage ∧
      (body.billingAttempt = 0 → body.billingPriorUsage = [] ∧ body.billingPriorAuOwedCum = 0) := by
  constructor
  . have hamount := auOwedCum_of_receiptBody h
    simp only [logicalCumulativeAuForLockedTerms, checks_iff] at hamount
    obtain ⟨_, hdelta, -⟩ := hamount
    exact receiptUsageDelta_le hdelta
  . intro hzero
    simp only [validateReceiptBody, validateReceiptAttempt, checks_iff, not_not] at h
    obtain ⟨-, ⟨-, -, -, -, -, _, -, rfl, hbaseline, -⟩, -⟩ := h
    simpa [hzero] using hbaseline

/-! What happens to sessions -/

def Holds.SessionsKept (holds holds' : Holds) : Prop :=
  ∀ key session', holds'.session.get key = some session' → ∃ session,
    holds.session.get key = some session ∧ session'.attempt = session.attempt ∧
    session'.billingPriorUsage = session.billingPriorUsage ∧
    session'.billingPriorAuOwedCum = session.billingPriorAuOwedCum ∧
    session'.maxSpendAu ≤ session.maxSpendAu

namespace Holds.SessionsKept

variable {holds holds' holds'' : Holds}

theorem of_eq (h : holds'.session = holds.session) : SessionsKept holds holds' := by
  intro _ session hsession
  rw [h] at hsession
  exact ⟨session, hsession, rfl, rfl, rfl, Nat.le_refl _⟩

theorem of_del {key : PublicKey × Rail × Digest} (h : holds'.session = holds.session.del key) :
    SessionsKept holds holds' := by
  intro _ session hsession
  rw [h, Table.get_del] at hsession
  split at hsession
  . cases hsession
  . exact ⟨session, hsession, rfl, rfl, rfl, Nat.le_refl _⟩

end Holds.SessionsKept

namespace Ledger

variable {crypto : Crypto} {s s' : Ledger} {key : Digest} {history : List HoldEvent}

theorem Closing.sessionsKept {plan : ClosePlan} {reservation : ReservationRecord}
    (h : s.Closing key plan reservation) :
    s.holds.SessionsKept (s.writeClosePlan plan reservation).holds := by
  obtain ⟨_, -, ⟨_, hhold⟩, hkept⟩ := h.closure_eq
  cases hhead : plan.head with
  | none =>
    rw [hhead, Option.map_none] at hkept
    apply Holds.SessionsKept.of_del
    rw [writeClosePlan, Holds.writeClosure, hhold, hkept]
  | some =>
    have hle := h.retained_le
    rw [hhead, Option.map_some] at hkept hle
    intro _ session' hsession
    rw [writeClosePlan, Holds.writeClosure, hhold, hkept] at hsession
    dsimp only at hsession
    rw [Table.get_put] at hsession
    split at hsession
    . next heq =>
      subst heq
      obtain rfl := Option.some.inj hsession
      exact ⟨plan.session, h.session_eq, rfl, rfl, rfl, hle⟩
    . exact ⟨session', hsession, rfl, rfl, rfl, Nat.le_refl _⟩

/-! What happens to receipts -/

structure ReceiptsSame (receipts receipts' : Receipts) : Prop where
  billing_eq : receipts'.billing = receipts.billing
  forward : ∀ attempt head, receipts.head.get attempt = some head →
    ∃ head', receipts'.head.get attempt = some head' ∧ head'.SameReceipt head
  backward : ∀ attempt head', receipts'.head.get attempt = some head' →
    ∃ head, receipts.head.get attempt = some head ∧ head'.SameReceipt head

variable {receipts receipts' : Receipts}

theorem ReceiptsSame.of_eq (hbilling : receipts'.billing = receipts.billing)
    (hhead : receipts'.head = receipts.head) : ReceiptsSame receipts receipts' where
  billing_eq := hbilling
  forward attempt head h := ⟨head, by rw [hhead]; exact h, rfl, rfl, rfl, rfl⟩
  backward attempt head h := ⟨head, by rw [← hhead]; exact h, rfl, rfl, rfl, rfl⟩

variable {head : ReceiptHead}

theorem ReceiptsSame.of_put {attempt : BillingAttempt} {existing : ReceiptHead}
    (hbilling : receipts'.billing = receipts.billing)
    (hhead : receipts'.head = receipts.head.put attempt head)
    (hexisting : receipts.head.get attempt = some existing) (hsame : head.SameReceipt existing) :
    ReceiptsSame receipts receipts' where
  billing_eq := hbilling
  forward other found hfound := by
    rw [hhead, Table.get_put]
    split
    . next heq =>
      subst heq
      obtain rfl := Option.some.inj (hexisting.symm.trans hfound)
      exact ⟨head, rfl, hsame⟩
    . exact ⟨found, hfound, rfl, rfl, rfl, rfl⟩
  backward other found hfound := by
    rw [hhead, Table.get_put] at hfound
    split at hfound
    . next heq =>
      subst heq
      obtain rfl := Option.some.inj hfound
      exact ⟨existing, hexisting, hsame⟩
    . exact ⟨found, hfound, rfl, rfl, rfl, rfl⟩

inductive BillingChange (s : Ledger) : Ledger → Option SpendReserveValue → Prop
  | kept (s' : Ledger) (hsessions : s.holds.SessionsKept s'.holds)
      (hreceipts : ReceiptsSame s.receipts s'.receipts) : BillingChange s s' none
  | reserved (value : SpendReserveValue) (plan : ReservePlan) (hnew : s.NewReservation value plan) :
      BillingChange s (s.writeReservation plan) (some value)
  | recorded (s' : Ledger) (body : ReceiptBody) (head : ReceiptHead) (hnew : s.NewReceipt body head)
      (hsessions : s.holds.SessionsKept s'.holds) (hbilling : s'.receipts.billing = s.receipts.billing)
      (hhead : s'.receipts.head = s.receipts.head.put body.attempt head) : BillingChange s s' none

def HoldOp.reservation : HoldOp → Option SpendReserveValue
  | .reserve _ value => some value
  | _ => none

theorem PageOutcome.billingChange {sender : PublicKey} {value : TargetedEpochValue}
    {transition : Option CommitTransition} {outcome : Outcome ApplyResult}
    (houtcome : PageOutcome crypto s sender key value transition outcome)
    (hlegacy : ∀ account, s.holds.hold.get account = none) : BillingChange s outcome.1 none := by
  have hkept : s.holds.SessionsKept outcome.1.holds := by
    refine houtcome.holds_invariant hlegacy s.holds.SessionsKept (.of_eq rfl) ?_
    intro holds _ _ _ _ hkept hconsumed other session' hsession'
    rw [hconsumed.next_eq] at hsession'
    dsimp only at hsession'
    rw [Table.get_del] at hsession'
    split at hsession'
    . cases hsession'
    . exact hkept other session' hsession'
  cases houtcome with
  | rejected | replayed | stopped | settled => exact .kept _ hkept (.of_eq rfl rfl)

theorem writeClosePlan_billing (plan : ClosePlan) (reservation : ReservationRecord) :
    (s.writeClosePlan plan reservation).receipts.billing = s.receipts.billing := by
  dsimp only [writeClosePlan, Receipts.writeClosePlan]
  split <;> rfl

theorem writeClosePlan_head {plan : ClosePlan} {append : IndexAppend} {metadata : ReceiptEpochIndex}
    (hhead : plan.head = some (head, append, metadata)) (reservation : ReservationRecord) :
    (s.writeClosePlan plan reservation).receipts.head = s.receipts.head.put plan.session.attempt head := by
  dsimp only [writeClosePlan, Receipts.writeClosePlan]
  rw [hhead]
  rfl

theorem HoldOp.Effect.billingChange {op : HoldOp} {events : List HoldEvent}
    (heffect : op.Effect crypto s s' events) (hlegacy : ∀ account, s.holds.hold.get account = none) :
    ∃ reserved, BillingChange s s' reserved ∧ ∀ value ∈ reserved,
      op.reservation = some value ∧ .accepted (HoldsMatch.reservedOf value) ∈ events := by
  cases heffect with
  | reserved plan hprepare hnew =>
    refine ⟨_, .reserved _ plan hnew, ?_⟩
    rintro _ ⟨⟩
    exact ⟨rfl, List.mem_singleton_self _⟩
  | advanced head hprepare hexisting _ hnew =>
    exact ⟨none, .recorded _ _ head hnew (.of_eq rfl) rfl rfl, by simp⟩
  | final plan reservation hprepare hclosing _ hhead hnew =>
    -- a final receipt closes its reservation with itself as the head
    obtain ⟨⟨head, append, metadata⟩, hfound, -⟩ := Option.map_eq_some_iff.mp hhead
    obtain ⟨hattempt, hnew⟩ := hnew head append metadata hfound
    refine ⟨none, .recorded _ _ head hnew hclosing.sessionsKept
      (writeClosePlan_billing plan reservation) ?_, by simp⟩
    rw [← hattempt]
    exact writeClosePlan_head hfound reservation
  | closed plan reservation hprepare hclosed =>
    refine ⟨none, .kept _ hclosed.toClosing.sessionsKept ?_, by simp⟩
    cases hhead : plan.head with
    | none =>
      refine .of_eq (writeClosePlan_billing plan reservation) ?_
      dsimp only [writeClosePlan, Receipts.writeClosePlan]
      rw [hhead]
    | some entry =>
      obtain ⟨head, append, metadata⟩ := entry
      obtain ⟨_, hexisting, hsame⟩ := hclosed.head_same head append metadata hhead
      exact .of_put (writeClosePlan_billing plan reservation) (writeClosePlan_head hhead reservation)
        hexisting hsame
  | page earnings transition houtcome | pageZero earnings transition houtcome =>
    exact ⟨none, houtcome.billingChange hlegacy, by simp⟩
  | _ => exact ⟨none, .kept _ (.of_eq rfl) (.of_eq rfl rfl), by simp⟩

/-! The chain of attempts -/

/--
The recorded receipt of an attempt continues from where the attempt before it ended, and stays within a
reservation that was accepted for the attempt.
-/
structure ChainedHead (receipts : Receipts) (history : List HoldEvent) (attempt : BillingAttempt)
    (head : ReceiptHead) : Prop where
  au_eq : head.receipt.body.billingPriorAuOwedCum + head.incrementalAu = head.receipt.body.auOwedCum
  usage_le : Counts.Le head.receipt.body.billingPriorUsage head.receipt.body.usage
  first : attempt.2 = 0 → head.receipt.body.billingPriorUsage = [] ∧ head.receipt.body.billingPriorAuOwedCum = 0
  later : ∀ n, attempt.2 = n + 1 → ∃ prior, receipts.head.get (attempt.1, n) = some prior ∧
    head.receipt.body.billingPriorUsage = prior.receipt.body.usage ∧
    head.receipt.body.billingPriorAuOwedCum = prior.receipt.body.auOwedCum
  limit : ∃ r, .accepted r ∈ history ∧ r.reservationId = head.reservationId ∧ r.attempt = attempt ∧
    head.incrementalAu ≤ r.maxSpendAu

structure ChainedSession (receipts : Receipts) (history : List HoldEvent) (reservationId : Digest)
    (session : SpendSession) : Prop where
  anchored : ∃ anchor, receipts.billing.get session.attempt.1 = some anchor ∧
    session.attempt.2 ≤ anchor.latestAttempt
  later : ∀ n, session.attempt.2 = n + 1 → ∃ prior, receipts.head.get (session.attempt.1, n) = some prior ∧
    session.billingPriorUsage = prior.receipt.body.usage ∧
    session.billingPriorAuOwedCum = prior.receipt.body.auOwedCum
  limit : ∃ r, .accepted r ∈ history ∧ r.reservationId = reservationId ∧ r.attempt = session.attempt ∧
    session.maxSpendAu ≤ r.maxSpendAu

structure BillingSound (s : Ledger) (history : List HoldEvent) : Prop where
  session_ok : ∀ user rail reservationId session, s.holds.session.get (user, rail, reservationId) = some session →
      ChainedSession s.receipts history reservationId session
  head_ok : ∀ attempt head, s.receipts.head.get attempt = some head → ChainedHead s.receipts history attempt head
  anchored : ∀ attempt head, s.receipts.head.get attempt = some head →
    ∃ anchor, s.receipts.billing.get attempt.1 = some anchor ∧ attempt.2 ≤ anchor.latestAttempt
  full : ∀ billingId anchor, s.receipts.billing.get billingId = some anchor →
    ∀ n < anchor.latestAttempt, (s.receipts.head.get (billingId, n)).isSome = true

theorem BillingSound.empty : BillingSound Ledger.empty [] where
  session_ok := by rintro _ _ _ _ ⟨⟩
  head_ok := by rintro _ _ ⟨⟩
  anchored := by rintro _ _ ⟨⟩
  full := by rintro _ _ ⟨⟩

variable {value : SpendReserveValue} {plan : ReservePlan}

theorem NewReservation.latestAttempt_eq (h : s.NewReservation value plan) :
    plan.anchor.latestAttempt = value.attempt.2 := by
  cases h.anchor_step with
  | first hanchor hlatest => exact hlatest
  | again anchor hanchor hlatest hnext => exact hnext
  | advance anchor hanchor hlatest hnext => exact hnext

theorem NewReservation.latestAttempt_cases {anchor : BillingAnchor} (h : s.NewReservation value plan)
    (hanchor : s.receipts.billing.get value.attempt.1 = some anchor) :
    anchor.latestAttempt = value.attempt.2 ∨ anchor.latestAttempt + 1 = value.attempt.2 := by
  cases h.anchor_step with
  | first hnone hlatest => cases hnone.symm.trans hanchor
  | again found hfound hlatest hnext =>
    obtain rfl := Option.some.inj (hfound.symm.trans hanchor)
    exact .inl hlatest
  | advance found hfound hlatest hnext =>
    obtain rfl := Option.some.inj (hfound.symm.trans hanchor)
    exact .inr hlatest

def HoldOp.KeepsBaseline (s : Ledger) : HoldOp → Prop
  | .reserve _ value =>
    ∀ anchor ∈ s.receipts.billing.get value.attempt.1, anchor.latestAttempt = value.attempt.2 →
      ∀ n, value.attempt.2 = n + 1 → ∀ prior ∈ s.receipts.head.get (value.attempt.1, n),
        value.voucher.ContinuesFrom prior
  | _ => True

variable {n : Nat}

theorem NewReservation.continues (hnew : s.NewReservation value plan) (h : BillingSound s history)
    (hbaseline : (HoldOp.reserve key value).KeepsBaseline s) (hn : value.attempt.2 = n + 1) :
    ∃ prior, s.receipts.head.get (value.attempt.1, n) = some prior ∧ value.voucher.ContinuesFrom prior := by
  cases hbilling : s.receipts.billing.get value.attempt.1 with
  | none =>
    have hzero := hnew.baseline.first hbilling
    omega
  | some anchor =>
    rcases hnew.latestAttempt_cases hbilling with hsame | _
    . have hsome := h.full _ _ hbilling n (by omega)
      obtain ⟨prior, hprior⟩ := Option.isSome_iff_exists.mp hsome
      exact ⟨prior, hprior, hbaseline anchor hbilling hsame n hn prior hprior⟩
    . have hlatest : anchor.latestAttempt = n := by omega
      obtain ⟨prior, hprior, hchained⟩ := hnew.baseline.later anchor hbilling (by omega)
      rw [hlatest] at hprior
      exact ⟨prior, hprior, hchained⟩

namespace BillingSound

variable {history' : List HoldEvent}

theorem kept (h : BillingSound s history) (hsub : history ⊆ history')
    (hsessions : s.holds.SessionsKept s'.holds) (hreceipts : ReceiptsSame s.receipts s'.receipts) :
    BillingSound s' history' := by
  constructor
  case session_ok =>
    intro _ _ _ _ hsession'
    obtain ⟨_, hsession, hattempt, husage, hau, hle⟩ := hsessions _ _ hsession'
    obtain ⟨hanchored, hlater, r, hr, hid, hsame, hlimit⟩ := h.session_ok _ _ _ _ hsession
    rw [← hattempt] at hanchored hlater hsame
    refine ⟨by rw [hreceipts.billing_eq]; exact hanchored, ?_, r, hsub hr, hid, hsame, hle.trans hlimit⟩
    intro n hn
    obtain ⟨prior, hprior, hpriorUsage, hpriorAu⟩ := hlater n hn
    obtain ⟨prior', hprior', hreceipt, -⟩ := hreceipts.forward _ _ hprior
    exact ⟨prior', hprior', by rw [husage, hreceipt, hpriorUsage], by rw [hau, hreceipt, hpriorAu]⟩
  case head_ok =>
    intro attempt head' hhead'
    obtain ⟨head, hhead, hreceipt, hincrement, hid, -⟩ := hreceipts.backward _ _ hhead'
    obtain ⟨hau, husage, hfirst, hlater, r, hr, hreservation, hsame, hlimit⟩ := h.head_ok _ _ hhead
    rw [← hreceipt] at hau husage hfirst hlater
    rw [← hincrement] at hau hlimit
    refine ⟨hau, husage, hfirst, ?_, r, hsub hr, hreservation.trans hid.symm, hsame, hlimit⟩
    intro n hn
    obtain ⟨prior, hprior, hpriorUsage, hpriorAu⟩ := hlater n hn
    obtain ⟨prior', hprior', hpriorReceipt, -⟩ := hreceipts.forward _ _ hprior
    exact ⟨prior', hprior', by rw [hpriorReceipt, hpriorUsage], by rw [hpriorReceipt, hpriorAu]⟩
  case anchored =>
    intro attempt head' hhead'
    obtain ⟨head, hhead, -⟩ := hreceipts.backward _ _ hhead'
    rw [hreceipts.billing_eq]
    exact h.anchored _ _ hhead
  case full =>
    intro _ _ hanchor n hn
    rw [hreceipts.billing_eq] at hanchor
    obtain ⟨head, hhead⟩ := Option.isSome_iff_exists.mp (h.full _ _ hanchor n hn)
    obtain ⟨head', hhead', -⟩ := hreceipts.forward _ _ hhead
    exact Option.isSome_iff_exists.mpr ⟨head', hhead'⟩

theorem anchor_of_new (hnew : s.NewReservation value plan) {billingId : Digest} {anchor : BillingAnchor}
    (hanchor : s.receipts.billing.get billingId = some anchor) :
    ∃ next, (s.writeReservation plan).receipts.billing.get billingId = some next ∧
      anchor.latestAttempt ≤ next.latestAttempt := by
  have hattempt := hnew.attempt_eq
  rw [SpendSession.attempt, SpendReserveValue.attempt, Prod.mk.injEq] at hattempt
  dsimp only [writeReservation]
  rw [hattempt.1, Table.get_put]
  split
  . next heq =>
    subst heq
    refine ⟨plan.anchor, rfl, ?_⟩
    rw [hnew.latestAttempt_eq]
    rcases hnew.latestAttempt_cases hanchor with hsame | _
    . exact hsame.le
    . omega
  . exact ⟨anchor, hanchor, Nat.le_refl _⟩

theorem reserved (h : BillingSound s history) (hsub : history ⊆ history') (hnew : s.NewReservation value plan)
    (hbaseline : (HoldOp.reserve key value).KeepsBaseline s)
    (haccepted : .accepted (HoldsMatch.reservedOf value) ∈ history') :
    BillingSound (s.writeReservation plan) history' := by
  have hattempt := hnew.attempt_eq
  rw [SpendSession.attempt, SpendReserveValue.attempt, Prod.mk.injEq] at hattempt
  have hstored : (s.writeReservation plan).receipts.billing.get value.attempt.1 = some plan.anchor := by
    dsimp only [writeReservation]
    rw [hattempt.1]
    exact Table.get_put_self ..
  constructor
  case session_ok =>
    intro user rail reservationId _ hsession
    dsimp only [writeReservation] at hsession
    rw [hnew.user_eq, hnew.rail_eq, hnew.reservationId_eq, Table.get_put] at hsession
    split at hsession
    . next heq =>
      obtain rfl := Option.some.inj hsession
      obtain ⟨rfl, rfl, rfl⟩ : user = value.user ∧ rail = value.rail ∧
          reservationId = value.reservationId := by simpa using heq
      refine ⟨?_, ?_, HoldsMatch.reservedOf value, haccepted, rfl, hnew.attempt_eq.symm, hnew.maxSpendAu_eq.le⟩
      . rw [hnew.attempt_eq]
        exact ⟨plan.anchor, hstored, hnew.latestAttempt_eq.ge⟩
      . intro n hn
        rw [hnew.attempt_eq] at hn ⊢
        rw [hnew.priorUsage_eq, hnew.priorAu_eq]
        exact hnew.continues h hbaseline hn
    . obtain ⟨⟨anchor, hanchor, hle⟩, hlater, r, hr, hrest⟩ := h.session_ok _ _ _ _ hsession
      obtain ⟨next, hnext, hmono⟩ := anchor_of_new hnew hanchor
      exact ⟨⟨next, hnext, hle.trans hmono⟩, hlater, r, hsub hr, hrest⟩
  case head_ok =>
    intro attempt head hhead
    obtain ⟨hau, husage, hfirst, hlater, r, hr, hrest⟩ := h.head_ok _ _ hhead
    exact ⟨hau, husage, hfirst, hlater, r, hsub hr, hrest⟩
  case anchored =>
    intro attempt head hhead
    obtain ⟨anchor, hanchor, hle⟩ := h.anchored _ _ hhead
    obtain ⟨next, hnext, hmono⟩ := anchor_of_new hnew hanchor
    exact ⟨next, hnext, hle.trans hmono⟩
  case full =>
    intro _ anchor hanchor n hn
    dsimp only [writeReservation] at hanchor
    rw [hattempt.1, Table.get_put] at hanchor
    split at hanchor
    . next heq =>
      subst heq
      obtain rfl := Option.some.inj hanchor
      rw [hnew.latestAttempt_eq] at hn
      -- the attempt before the new one has a receipt to continue from, those before it had theirs already
      by_cases hlast : value.attempt.2 = n + 1
      . obtain ⟨prior, hprior, -⟩ := hnew.continues h hbaseline hlast
        exact Option.isSome_iff_exists.mpr ⟨prior, hprior⟩
      . cases hbilling : s.receipts.billing.get value.attempt.1 with
        | none =>
          have hzero := hnew.baseline.first hbilling
          omega
        | some =>
          refine h.full _ _ hbilling n ?_
          rcases hnew.latestAttempt_cases hbilling with _ | _
          . omega
          . omega
    . exact h.full _ _ hanchor n hn

theorem recorded {body : ReceiptBody} (h : BillingSound s history) (hsub : history ⊆ history')
    (hnew : s.NewReceipt body head) (hsessions : s.holds.SessionsKept s'.holds)
    (hbilling : s'.receipts.billing = s.receipts.billing)
    (hhead : s'.receipts.head = s.receipts.head.put body.attempt head) : BillingSound s' history' := by
  obtain ⟨latest, hlatest, hattempt⟩ := hnew.latest
  -- the receipt is that of the latest attempt, so nothing starts from it yet
  have hkept : ∀ billingId n anchor, s.receipts.billing.get billingId = some anchor → n < anchor.latestAttempt →
        s'.receipts.head.get (billingId, n) = s.receipts.head.get (billingId, n) := by
    intro billingId n anchor hanchor hn
    rw [hhead, Table.get_put_of_ne]
    intro heq
    obtain ⟨rfl, rfl⟩ := Prod.mk.inj heq
    obtain rfl := Option.some.inj (hlatest.symm.trans hanchor)
    omega
  obtain ⟨_, hsession, hsame, husage, hau, hle⟩ := hnew.session_ok
  have hchained := h.session_ok _ _ _ _ hsession
  constructor
  case session_ok =>
    intro _ _ _ _ hfound'
    obtain ⟨found, hfound, hattempt', husage', hau', hle'⟩ := hsessions _ _ hfound'
    obtain ⟨⟨anchor, hanchor, hbefore⟩, hlater, r, hr, hid, hr_attempt, hlimit⟩ := h.session_ok _ _ _ _ hfound
    rw [← hattempt'] at hanchor hbefore hlater hr_attempt
    refine ⟨⟨anchor, by rw [hbilling]; exact hanchor, hbefore⟩, ?_, r, hsub hr, hid, hr_attempt,
      hle'.trans hlimit⟩
    intro n hn
    rw [husage', hau', hkept _ n anchor hanchor (by omega)]
    exact hlater n hn
  case head_ok =>
    intro attempt found hfound
    rw [hhead, Table.get_put] at hfound
    split at hfound
    . next heq =>
      subst heq
      obtain rfl := Option.some.inj hfound
      obtain ⟨hbaseline, hzero⟩ := baseline_of_validateReceiptBody hnew.valid
      obtain ⟨r, hr, hid, hr_attempt, hlimit⟩ := hchained.limit
      constructor
      case au_eq => rw [hnew.body_eq]; exact hnew.incrementalAu_eq
      case usage_le => rw [hnew.body_eq]; exact hbaseline
      case first => rw [hnew.body_eq]; exact hzero
      case later =>
        intro n hn
        obtain ⟨anchor, hanchor, hbefore⟩ := hchained.anchored
        have hprior := hchained.later
        rw [hsame] at hanchor hbefore hprior
        rw [hnew.body_eq, ← husage, ← hau, hkept _ n anchor hanchor (by omega)]
        exact hprior n hn
      case limit =>
        refine ⟨r, hsub hr, ?_, hr_attempt.trans hsame, hle.trans hlimit⟩
        rw [hid, hnew.reservationId_eq]
    . obtain ⟨hau', husage', hfirst, hlater, r, hr, hrest⟩ := h.head_ok _ _ hfound
      obtain ⟨anchor, hanchor, hbefore⟩ := h.anchored _ _ hfound
      refine ⟨hau', husage', hfirst, ?_, r, hsub hr, hrest⟩
      intro n hn
      rw [hkept _ n anchor hanchor (by omega)]
      exact hlater n hn
  case anchored =>
    intro attempt found hfound
    rw [hbilling]
    rw [hhead, Table.get_put] at hfound
    split at hfound
    . next heq =>
      subst heq
      exact ⟨latest, hlatest, hattempt.ge⟩
    . exact h.anchored _ _ hfound
  case full =>
    intro billingId anchor hanchor n hn
    rw [hbilling] at hanchor
    rw [hkept _ n anchor hanchor hn]
    exact h.full _ _ hanchor n hn

end BillingSound

def ReceiptsGrow (receipts receipts' : Receipts) : Prop :=
  ∀ attempt head, receipts.head.get attempt = some head → ∃ head', receipts'.head.get attempt = some head' ∧
    Counts.Le head.receipt.body.usage head'.receipt.body.usage ∧
    head.receipt.body.auOwedCum ≤ head'.receipt.body.auOwedCum

theorem ReceiptsGrow.refl (receipts : Receipts) : ReceiptsGrow receipts receipts :=
  fun _ head hhead => ⟨head, hhead, .refl _, Nat.le_refl _⟩

theorem ReceiptsGrow.trans {receipts'' : Receipts} (h : ReceiptsGrow receipts receipts')
    (h' : ReceiptsGrow receipts' receipts'') : ReceiptsGrow receipts receipts'' := by
  intro attempt head hhead
  obtain ⟨head', hhead', husage, hau⟩ := h attempt head hhead
  obtain ⟨head'', hhead'', husage', hau'⟩ := h' attempt head' hhead'
  exact ⟨head'', hhead'', husage.trans husage', hau.trans hau'⟩

theorem BillingChange.receiptsGrow {reserved : Option SpendReserveValue} (h : BillingChange s s' reserved) :
    ReceiptsGrow s.receipts s'.receipts := by
  cases h with
  | kept _ hsessions hreceipts =>
    intro attempt head hhead
    obtain ⟨head', hhead', hreceipt, -⟩ := hreceipts.forward _ _ hhead
    refine ⟨head', hhead', ?_, ?_⟩
    . rw [hreceipt]
      exact .refl _
    . rw [hreceipt]
  | reserved _ _ hnew => exact .refl _
  | recorded _ _ head hnew hsessions _ hhead =>
    intro attempt found hfound
    rw [hhead, Table.get_put]
    split
    . next heq =>
      subst heq
      obtain ⟨husage, hau⟩ := hnew.monotonic found hfound
      refine ⟨head, rfl, ?_, ?_⟩
      . rw [hnew.body_eq]
        exact receiptUsageIsMonotonic_le husage
      . rw [hnew.body_eq]
        exact hau
    . exact ⟨found, hfound, .refl _, Nat.le_refl _⟩

/-! Runs -/

inductive BillingStep (crypto : Crypto) : Ledger × List HoldEvent → Ledger × List HoldEvent → Prop
  | op (s : Ledger) (history : List HoldEvent) (op : HoldOp) (hbaseline : op.KeepsBaseline s) :
      BillingStep crypto (s, history) (op.run crypto s, history ++ op.events crypto s)
  | other (s s' : Ledger) (history : List HoldEvent) (hholds : s'.holds = s.holds)
      (hreservation : s'.receipts.reservation = s.receipts.reservation)
      (hbilling : s'.receipts.billing = s.receipts.billing) (hhead : s'.receipts.head = s.receipts.head) :
      BillingStep crypto (s, history) (s', history)

def BillingRun (crypto : Crypto) : Ledger × List HoldEvent → Ledger × List HoldEvent → Prop :=
  Relation.ReflTransGen (BillingStep crypto)

structure BillingInv (crypto : Crypto) (s : Ledger) (history : List HoldEvent) : Prop where
  reached : HoldRun crypto s history
  sound : BillingSound s history

theorem BillingStep.inv {history' : List HoldEvent}
    (hstep : BillingStep crypto (s, history) (s', history')) (h : BillingInv crypto s history) :
    BillingInv crypto s' history' ∧ ReceiptsGrow s.receipts s'.receipts := by
  cases hstep with
  | op _ _ op hbaseline =>
    have hlegacy := h.reached.holdsMatch.noLegacy
    obtain ⟨reserved, hchange, haccepted⟩ := (@HoldOp.effect crypto s op hlegacy).billingChange hlegacy
    refine ⟨⟨.op op h.reached, ?_⟩, hchange.receiptsGrow⟩
    have hsub : history ⊆ history ++ op.events crypto s := List.subset_append_left _ _
    generalize hnext : op.run crypto s = next at hchange
    cases hchange with
    | kept _ hsessions hreceipts => exact h.sound.kept hsub hsessions hreceipts
    | reserved value _ hnew =>
      obtain ⟨hvalue, hevent⟩ := haccepted value rfl
      cases op with
      | reserve =>
        obtain rfl := Option.some.inj hvalue
        exact h.sound.reserved hsub hnew hbaseline (List.mem_append_right _ hevent)
      | record | close | page | pageZero => cases hvalue
    | recorded _ _ _ hnew hsessions hbilling hhead =>
      exact h.sound.recorded hsub hnew hsessions hbilling hhead
  | other _ _ _ hholds hreservation hbilling hhead =>
    have hreceipts := ReceiptsSame.of_eq hbilling hhead
    refine ⟨⟨.other h.reached hholds hreservation hbilling, ?_⟩, ?_⟩
    . exact h.sound.kept (List.Subset.refl _) (.of_eq (by rw [hholds])) hreceipts
    . exact (BillingChange.kept _ (.of_eq (by rw [hholds])) hreceipts).receiptsGrow

theorem BillingRun.inv {history' : List HoldEvent} (h : BillingInv crypto s history)
    (hrun : BillingRun crypto (s, history) (s', history')) :
    BillingInv crypto s' history' ∧ ReceiptsGrow s.receipts s'.receipts := by
  refine Run.invariant_log (fun t events => BillingInv crypto t events ∧ ReceiptsGrow s.receipts t.receipts)
    ⟨h, .refl _⟩ ?_ hrun
  intro t events _ _ hinv hstep
  obtain ⟨hnext, hgrow⟩ := hstep.inv hinv.1
  exact ⟨hnext, hinv.2.trans hgrow⟩

/-! The sum of a chain -/

def incrementAu (receipts : Receipts) (billingId : Digest) (n : Nat) : Nat :=
  ((receipts.head.get (billingId, n)).map ReceiptHead.incrementalAu).getD 0

theorem BillingSound.sum_incrementAu (h : BillingSound s history) {billingId : Digest} {n : Nat}
    {head : ReceiptHead} (hhead : s.receipts.head.get (billingId, n) = some head) :
    ∑ m ∈ Finset.range (n + 1), incrementAu s.receipts billingId m = head.receipt.body.auOwedCum := by
  have hincrement : incrementAu s.receipts billingId n = head.incrementalAu := by
    rw [incrementAu, hhead, Option.map_some, Option.getD_some]
  have hchained := h.head_ok _ _ hhead
  rw [Finset.sum_range_succ, hincrement, ← hchained.au_eq]
  congr 1
  cases n with
  | zero => rw [(hchained.first rfl).2, Finset.sum_range_zero]
  | succ n =>
    obtain ⟨_, hprior, -, hau⟩ := hchained.later n rfl
    rw [hau]
    exact h.sum_incrementAu hprior

theorem BillingSound.count (h : BillingSound s history) (billingId : Digest) :
    ∃ count, ∀ n, (s.receipts.head.get (billingId, n)).isSome = true ↔ n < count := by
  cases hbilling : s.receipts.billing.get billingId with
  | none =>
    refine ⟨0, fun n => ?_⟩
    constructor
    . intro hsome
      obtain ⟨head, hhead⟩ := Option.isSome_iff_exists.mp hsome
      obtain ⟨anchor, hanchor, -⟩ := h.anchored _ _ hhead
      cases hbilling.symm.trans hanchor
    . intro hlt
      omega
  | some anchor =>
    have hle : ∀ n, (s.receipts.head.get (billingId, n)).isSome = true → n ≤ anchor.latestAttempt := by
      intro n hsome
      obtain ⟨head, hhead⟩ := Option.isSome_iff_exists.mp hsome
      obtain ⟨_, hfound, hle⟩ := h.anchored _ _ hhead
      obtain rfl := Option.some.inj (hbilling.symm.trans hfound)
      exact hle
    by_cases hlatest : (s.receipts.head.get (billingId, anchor.latestAttempt)).isSome = true
    . refine ⟨anchor.latestAttempt + 1, fun n => ⟨fun hsome => Nat.lt_succ_of_le (hle n hsome), ?_⟩⟩
      intro hlt
      obtain rfl | hlt := Nat.eq_or_lt_of_le (Nat.le_of_lt_succ hlt)
      . exact hlatest
      . exact h.full _ _ hbilling n hlt
    . refine ⟨anchor.latestAttempt, fun n => ⟨fun hsome => ?_, h.full _ _ hbilling n⟩⟩
      obtain rfl | hlt := Nat.eq_or_lt_of_le (hle n hsome)
      . exact absurd hsome hlatest
      . exact hlt

/--
The amounts of a billing id's attempts add up to what its last receipt owes, every attempt starts where the one
before it ended and stays within its reservation, and nothing ever decreases.
-/
theorem billing_telescopes (hrun : BillingRun crypto (Ledger.empty, []) (s, history)) (billingId : Digest) :
    (∃ count, (∀ n, (s.receipts.head.get (billingId, n)).isSome = true ↔ n < count) ∧
      ∀ n head, n + 1 = count → s.receipts.head.get (billingId, n) = some head →
        ∑ m ∈ Finset.range count, incrementAu s.receipts billingId m = head.receipt.body.auOwedCum) ∧
    (∀ n head, s.receipts.head.get (billingId, n) = some head →
      ChainedHead s.receipts history (billingId, n) head) ∧
    ∀ s' history', BillingRun crypto (s, history) (s', history') → ReceiptsGrow s.receipts s'.receipts := by
  have hinv := (BillingRun.inv ⟨.start, .empty⟩ hrun).1
  refine ⟨?_, fun n head => hinv.sound.head_ok (billingId, n) head, ?_⟩
  . obtain ⟨count, hcount⟩ := hinv.sound.count billingId
    refine ⟨count, hcount, ?_⟩
    rintro n head rfl hhead
    exact hinv.sound.sum_incrementAu hhead
  . intro s' history' hnext
    exact (BillingRun.inv hinv hnext).2

/-! A repeated attempt -/

def retryReserve (n : Nat) (priorUsage : Counts) (priorAu : Nat) : SpendReserveValue :=
  { talkReserve 0 300 with
    sessionId := 110 + n
    reservationId := 310 + n
    voucher := { talkVoucher 0 300 with
      sessionId := 110 + n
      reservationId := 310 + n
      billingAttempt := 1
      billingPriorUsage := priorUsage
      billingPriorAuOwedCum := priorAu } }

def retryReceipt (n : Nat) (priorUsage : Counts) (priorAu seconds : Nat) : RecordReceiptValue :=
  let talk := talkReceipt 0 seconds
  { talk with
    receipt := { talk.receipt with
      body := { talk.receipt.body with
        sessionId := 110 + n
        reservationId := 310 + n
        billingAttempt := 1
        billingPriorUsage := priorUsage
        billingPriorAuOwedCum := priorAu } } }

def retryClose (n : Nat) : CloseReservationValue where
  contractVersion := contractVersion
  billingEpoch := 1
  reservationId := 310 + n
  reservationExpiresAfterEpoch := 25
  reservationReceiptGraceEpochs := 6
  billingId := 200
  billingAttempt := 1
  sessionId := 110 + n
  user := 20
  rail := .tnk
  provider := 30
  payoutRevision := 4
  latestReceiptSeq := none
  latestReceiptHash := none
  time := 0
  reason := "unserved"
  actor := 30
  actorRole := .provider
  actorSig := 0

def retryReserved : Ledger := (HoldOp.reserve 310 (retryReserve 0 [("audio_second", 4)] 4)).run plainHost
  talkRecorded

def retryClosed : Ledger := (HoldOp.close 310 (retryClose 0) false).run plainHost retryReserved

def retryAgain (priorUsage : Counts) (priorAu : Nat) : Ledger :=
  (HoldOp.reserve 311 (retryReserve 1 priorUsage priorAu)).run plainHost retryClosed

def retryRecorded (priorUsage : Counts) (priorAu seconds : Nat) : Ledger :=
  (HoldOp.record 1 (retryReceipt 1 priorUsage priorAu seconds)).run plainHost
    (retryAgain priorUsage priorAu)

theorem keepsBaseline_of_prior (hattempt : value.attempt.2 = n + 1)
    (hprior : (s.receipts.head.get (value.attempt.1, n)).map (fun head =>
      (head.receipt.body.usage, head.receipt.body.auOwedCum)) =
        some (value.voucher.billingPriorUsage, value.voucher.billingPriorAuOwedCum)) :
    (HoldOp.reserve key value).KeepsBaseline s := by
  intro _ _ _ m _ _ hfound
  obtain rfl : n = m := by omega
  rw [Option.mem_def.mp hfound, Option.map_some] at hprior
  obtain ⟨husage, hau⟩ := Prod.mk.inj (Option.some.inj hprior)
  exact ⟨husage.symm, hau.symm⟩

/--
The repeated attempt starts where the first one ended.
-/
theorem billing_telescopes_retry : ∃ s history, BillingRun plainHost (Ledger.empty, []) (s, history) ∧
    ∑ m ∈ Finset.range 2, incrementAu s.receipts 200 m = 9 ∧
    ∀ n head, s.receipts.head.get (200, n) = some head → ChainedHead s.receipts history (200, n) head := by
  have hledger : BillingRun plainHost (Ledger.empty, []) (talkLedger, []) :=
    .single (.other _ _ _ rfl rfl rfl rfl)
  have hfirst : (HoldOp.reserve 300 (talkReserve 0 500)).KeepsBaseline talkLedger := by
    rintro _ ⟨⟩
  have htalk := (hledger.tail (.op _ _ _ hfirst)).tail (.op _ _ (.record 1 (talkReceipt 0 4)) trivial)
  have hsecond : (HoldOp.reserve 310 (retryReserve 0 [("audio_second", 4)] 4)).KeepsBaseline
      talkRecorded := keepsBaseline_of_prior (n := 0) rfl (by decide +kernel)
  have hclosed := (htalk.tail (.op _ _ _ hsecond)).tail (.op _ _ (.close 310 (retryClose 0) false) trivial)
  have hagain : (HoldOp.reserve 311 (retryReserve 1 [("audio_second", 4)] 4)).KeepsBaseline
      retryClosed := keepsBaseline_of_prior (n := 0) rfl (by decide +kernel)
  have hrun := (hclosed.tail (.op _ _ _ hagain)).tail
    (.op _ _ (.record 1 (retryReceipt 1 [("audio_second", 4)] 4 9)) trivial)
  have hfacts : incrementAu (retryRecorded [("audio_second", 4)] 4 9).receipts 200 0 = 4 ∧
      incrementAu (retryRecorded [("audio_second", 4)] 4 9).receipts 200 1 = 5 := by decide +kernel
  have hsum : ∑ m ∈ Finset.range 2, incrementAu (retryRecorded [("audio_second", 4)] 4 9).receipts 200 m = 9 := by
    rw [Finset.sum_range_succ, Finset.sum_range_one, hfacts.1, hfacts.2]
  exact ⟨_, _, hrun, hsum, (billing_telescopes hrun 200).2.1⟩

/--
The repeated attempt starts from nothing: its receipt owes less than the one before it, and less than the two
attempts add up to.
-/
theorem repeated_attempt_breaks_chain : ∃ s history, HoldRun plainHost s history ∧
    incrementAu s.receipts 200 0 = 4 ∧ incrementAu s.receipts 200 1 = 3 ∧
    (s.receipts.head.get (200, 0)).map (fun head => head.receipt.body.auOwedCum) = some 4 ∧
    (s.receipts.head.get (200, 1)).map (fun head => head.receipt.body.auOwedCum) = some 3 := by
  have hrun := HoldRun.op (.record 1 (retryReceipt 1 [] 0 3)) (.op (.reserve 311 (retryReserve 1 [] 0))
    (.op (.close 310 (retryClose 0) false)
      (.op (.reserve 310 (retryReserve 0 [("audio_second", 4)] 4)) talkRecorded_run)))
  refine ⟨retryRecorded [] 0 3, _, hrun, ?_⟩
  decide +kernel

end Ledger
end Mayhem
