import Mayhem.Lib.Reversal
import Mayhem.Partition
import Mayhem.Books

namespace Mayhem

open Reversal (Sums)

inductive DepositRef where
  | fiat (extRefHash : String)
  | tap (identity : TapDepositIdentity)
deriving DecidableEq

def DepositRef.rail : DepositRef → Rail
  | fiat _ => .fiat
  | tap _ => .tap

inductive ReversalRef where
  | chargeback (extRefHash disputeRefHash : String)
  | tapReversal (identity : TapDepositIdentity)
deriving DecidableEq

namespace ReversalRef

def deposit : ReversalRef → DepositRef
  | chargeback extRefHash _ => .fiat extRefHash
  | tapReversal identity => .tap identity

def freezes : ReversalRef → Sums → Bool
  | chargeback _ _, _ => true
  | tapReversal _, sums => sums.absorbedAu ≠ 0

theorem freezes_tapReversal_iff {identity : TapDepositIdentity} {sums : Sums} :
    freezes (tapReversal identity) sums = true ↔ sums.absorbedAu ≠ 0 :=
  decide_eq_true_iff

end ReversalRef

abbrev DepositEvent := Reversal.Event PublicKey DepositRef ReversalRef

def FiatDepositSeen.deposit (seen : FiatDepositSeen) : Reversal.Deposit PublicKey :=
  ⟨seen.who, seen.au, seen.disputedAuCum, seen.chargebackAuCum, seen.networkAbsorbedAuCum⟩

def TapReversalSeen.sums (seen : TapReversalSeen) : Sums := ⟨seen.au, seen.clawbackAu, seen.networkAbsorbedAu⟩

def FiatChargebackSeen.sums (seen : FiatChargebackSeen) : Sums :=
  ⟨seen.au, seen.clawbackAu, seen.networkAbsorbedAu⟩

def TapDepositSeen.deposit (seen : TapDepositSeen) (reversal : Option TapReversalSeen) :
    Reversal.Deposit PublicKey :=
  ⟨seen.who, seen.au, (reversal.map TapReversalSeen.sums).getD .zero⟩

def FreezeRecord.totals (record : FreezeRecord) : Nat × Sums :=
  (record.disputeCount, ⟨record.disputedAuCum, record.clawbackAuCum, record.networkAbsorbedAuCum⟩)

namespace Ledger

variable {host : DepositHost} {crypto : Crypto} {s s' : Ledger}

def depositBook (s : Ledger) : Reversal.Book PublicKey DepositRef ReversalRef where
  deposit
    | .fiat extRefHash => (s.deposits.fiat.get extRefHash).map FiatDepositSeen.deposit
    | .tap identity => (s.deposits.tap.get identity).map fun seen =>
        seen.deposit (s.deposits.tapReversal.get identity)
  taken
    | .chargeback extRefHash disputeRefHash => (s.deposits.fiatChargeback.get (extRefHash, disputeRefHash)).isSome
    | .tapReversal identity => (s.deposits.tapReversal.get identity).isSome
  frozen user := (s.deposits.freeze.get user).map FreezeRecord.totals

def DepositOp.event (host : DepositHost) (s : Ledger) : DepositOp → Option DepositEvent
  | .tnk _ _ => none
  | .tap sender value =>
    match s.prepareTapDeposit host sender value with
    | .ok (.inr plan) => some (.credit (.tap plan.identity) plan.seen.who plan.seen.au)
    | _ => none
  | .tapReversal sender value =>
    match s.prepareTapDepositReversal host sender value with
    | .ok (.inr plan) => some (.takeBack (.tapReversal plan.identity) plan.seen.who plan.seen.sums)
    | _ => none
  | .fiat sender value =>
    match s.prepareFiatDeposit host sender value with
    | .ok (.inr plan) => some (.credit (.fiat plan.extRefHash) plan.seen.who plan.seen.au)
    | _ => none
  | .chargeback sender value =>
    match s.prepareFiatChargeback host sender value with
    | .ok (.inr plan) =>
      some (.takeBack (.chargeback plan.extRefHash plan.disputeRefHash) plan.seen.who plan.seen.sums)
    | _ => none

variable {sender : PublicKey}

theorem prepareTapDeposit_new {value : TapDepositValue} {plan : TapCreditPlan}
    (h : s.prepareTapDeposit host sender value = .ok (.inr plan)) :
    s.deposits.tap.get plan.identity = none := by
  unfold prepareTapDeposit at h
  cases hseen : s.deposits.tap.get value.identity with
  | some => simp [hseen] at h
  | none =>
    simp only [hseen, checks_iff, Sum.inr.injEq] at h
    obtain ⟨-, -, -, _, -, -, -, _, -, _, -, -, rfl⟩ := h
    exact hseen

theorem prepareFiatDeposit_new {value : FiatDepositValue} {plan : FiatCreditPlan}
    (h : s.prepareFiatDeposit host sender value = .ok (.inr plan)) :
    s.deposits.fiat.get plan.extRefHash = none ∧ plan.seen.deposit = ⟨plan.seen.who, plan.seen.au, .zero⟩ := by
  unfold prepareFiatDeposit at h
  cases hseen : s.deposits.fiat.get value.extRefHash with
  | some seen => simp [hseen] at h
  | none =>
    simp only [hseen, checks_iff, Sum.inr.injEq] at h
    obtain ⟨-, -, -, _, -, -, _, -, -, rfl⟩ := h
    exact ⟨hseen, rfl⟩

theorem nextFreezeRecord_totals (s : Ledger) (user : PublicKey) (reason : FreezeReason) (rail : Rail)
    (sums : Sums) (epoch time : Nat) :
    (s.nextFreezeRecord user reason rail sums.disputedAu sums.clawbackAu sums.absorbedAu epoch time).totals =
      Reversal.addFrozen (s.depositBook.frozen user) sums := by
  simp only [nextFreezeRecord, depositBook]
  cases s.deposits.freeze.get user with
  | none | some => rfl

structure TapReversalFound (s : Ledger) (plan : TapReversalPlan) : Prop where
  new : s.deposits.tapReversal.get plan.identity = none
  found : s.deposits.tap.get plan.identity = some plan.credited
  who_eq : plan.seen.who = plan.credited.who
  au_eq : plan.seen.au = plan.credited.au
  freeze_eq : plan.freeze.map FreezeRecord.totals =
    if ReversalRef.freezes (.tapReversal plan.identity) plan.seen.sums then
      some (Reversal.addFrozen (s.depositBook.frozen plan.seen.who) plan.seen.sums)
    else none

theorem prepareTapDepositReversal_found {value : TapDepositReversalValue} {plan : TapReversalPlan}
    (h : s.prepareTapDepositReversal host sender value = .ok (.inr plan)) : s.TapReversalFound plan := by
  unfold prepareTapDepositReversal at h
  cases hseen : s.deposits.tapReversal.get value.identity with
  | some => simp [hseen] at h
  | none =>
    simp only [hseen, checks_iff, Sum.inr.injEq] at h
    obtain ⟨-, -, -, credited, hcredited, -, -, -, balance, -, -, rfl⟩ := h
    refine ⟨hseen, hcredited, rfl, rfl, ?_⟩
    dsimp only
    by_cases habsorbed : (clawback balance credited.au value.epoch).2.2 ≠ 0
    . rw [if_pos habsorbed, if_pos (ReversalRef.freezes_tapReversal_iff.mpr habsorbed), Option.map_some]
      exact congrArg some (nextFreezeRecord_totals s credited.who _ _ ⟨credited.au, _, _⟩ value.epoch value.time)
    . rw [if_neg habsorbed, if_neg (ReversalRef.freezes_tapReversal_iff.not.mpr habsorbed), Option.map_none]

structure ChargebackFound (s : Ledger) (plan : ChargebackPlan) (credited : FiatDepositSeen) : Prop where
  new : s.deposits.fiatChargeback.get (plan.extRefHash, plan.disputeRefHash) = none
  found : s.deposits.fiat.get plan.extRefHash = some credited
  who_eq : plan.seen.who = credited.who
  disputed_le : credited.deposit.sums.disputedAu + plan.seen.sums.disputedAu ≤ credited.au
  credited_eq : plan.credited.deposit = { credited.deposit with sums := credited.deposit.sums.add plan.seen.sums }
  freeze_eq : plan.freeze.totals = Reversal.addFrozen (s.depositBook.frozen plan.seen.who) plan.seen.sums

theorem prepareFiatChargeback_found {value : FiatChargebackValue} {plan : ChargebackPlan}
    (h : s.prepareFiatChargeback host sender value = .ok (.inr plan)) :
    ∃ credited, s.ChargebackFound plan credited := by
  unfold prepareFiatChargeback at h
  cases hseen : s.deposits.fiatChargeback.get (value.extRefHash, value.disputeRefHash) with
  | some => simp [hseen] at h
  | none =>
    simp only [hseen, checks_iff, not_not, ne_eq, Sum.inr.injEq] at h
    obtain ⟨-, -, -, -, _, -, -, credited, hcredited, hwho, -, hle, _, -, -, rfl⟩ := h
    refine ⟨credited, hseen, hcredited, hwho.symm, Nat.le_of_not_lt hle, rfl, ?_⟩
    exact nextFreezeRecord_totals s value.who .fiatChargeback .fiat ⟨_, _, _⟩ value.epoch value.time

theorem depositBook_congr (hdeposits : s'.deposits = s.deposits) : s'.depositBook = s.depositBook := by
  simp [depositBook, hdeposits]

theorem depositBook_writeTapDeposit {plan : TapCreditPlan}
    (hunreversed : s.deposits.tapReversal.get plan.identity = none) :
    (s.writeTapDeposit plan).depositBook =
      { s.depositBook with
        deposit := Function.update s.depositBook.deposit (.tap plan.identity)
          (some ⟨plan.seen.who, plan.seen.au, .zero⟩) } := by
  apply Reversal.Book.ext
  . funext ref
    cases ref with
    | fiat => rfl
    | tap identity =>
      by_cases heq : identity = plan.identity
      . subst heq
        simp [depositBook, writeTapDeposit, putDepositRoot, putBalance, TapDepositSeen.deposit, hunreversed]
      . simp [depositBook, writeTapDeposit, putDepositRoot, putBalance, heq]
  . rfl
  . rfl

theorem depositBook_writeFiatDeposit {plan : FiatCreditPlan}
    (hseen : plan.seen.deposit = ⟨plan.seen.who, plan.seen.au, .zero⟩) :
    (s.writeFiatDeposit plan).depositBook =
      { s.depositBook with
        deposit := Function.update s.depositBook.deposit (.fiat plan.extRefHash)
          (some ⟨plan.seen.who, plan.seen.au, .zero⟩) } := by
  apply Reversal.Book.ext
  . funext ref
    cases ref with
    | fiat extRefHash =>
      by_cases heq : extRefHash = plan.extRefHash
      . subst heq
        simp [depositBook, writeFiatDeposit, putDepositRoot, putBalance, hseen]
      . simp [depositBook, writeFiatDeposit, putDepositRoot, putBalance, heq]
    | tap => rfl
  . rfl
  . rfl

theorem TapReversalFound.depositBook_write {plan : TapReversalPlan} (h : s.TapReversalFound plan) :
    (s.writeTapDepositReversal plan).depositBook =
      { deposit := Function.update s.depositBook.deposit (.tap plan.identity)
          (some { plan.credited.deposit none with sums := Sums.zero.add plan.seen.sums })
        taken := Function.update s.depositBook.taken (.tapReversal plan.identity) true
        frozen :=
          if ReversalRef.freezes (.tapReversal plan.identity) plan.seen.sums then
            Function.update s.depositBook.frozen plan.seen.who
              (some (Reversal.addFrozen (s.depositBook.frozen plan.seen.who) plan.seen.sums))
          else s.depositBook.frozen } := by
  have hdeposits : (s.writeTapDepositReversal plan).deposits.tap =
        s.deposits.tap.put plan.identity { plan.credited with reversed := true } ∧
      (s.writeTapDepositReversal plan).deposits.tapReversal = s.deposits.tapReversal.put plan.identity plan.seen ∧
      (s.writeTapDepositReversal plan).deposits.fiat = s.deposits.fiat ∧
      (s.writeTapDepositReversal plan).deposits.fiatChargeback = s.deposits.fiatChargeback := by
    unfold writeTapDepositReversal
    split
    . exact ⟨rfl, rfl, rfl, rfl⟩
    . exact ⟨rfl, rfl, rfl, rfl⟩
  obtain ⟨htap, hreversal, hfiat, hchargeback⟩ := hdeposits
  apply Reversal.Book.ext
  . funext ref
    cases ref with
    | fiat extRefHash => simp [depositBook, hfiat]
    | tap identity =>
      by_cases heq : identity = plan.identity
      . subst heq
        simp [depositBook, htap, hreversal, TapDepositSeen.deposit, TapReversalSeen.sums, Sums.add, Sums.zero]
      . simp [depositBook, htap, hreversal, heq]
  . funext ref
    cases ref with
    | chargeback extRefHash => simp [depositBook, hchargeback]
    | tapReversal identity =>
      by_cases heq : identity = plan.identity
      . subst heq
        simp [depositBook, hreversal]
      . simp [depositBook, hreversal, heq]
  . funext user
    have hfreeze := h.freeze_eq
    dsimp only
    by_cases hfreezes : ReversalRef.freezes (.tapReversal plan.identity) plan.seen.sums = true
    . rw [if_pos hfreezes] at hfreeze ⊢
      obtain ⟨_, hrecord, htotals⟩ := Option.map_eq_some_iff.mp hfreeze
      rw [← htotals]
      by_cases heq : user = plan.seen.who
      . subst heq
        simp [depositBook, writeTapDepositReversal, hrecord, freezeAccount]
      . simp [depositBook, writeTapDepositReversal, hrecord, freezeAccount, putDepositRoot, putBalance, heq]
    . rw [if_neg hfreezes] at hfreeze ⊢
      have hnone := Option.map_eq_none_iff.mp hfreeze
      simp [depositBook, writeTapDepositReversal, hnone, putDepositRoot, putBalance]

theorem ChargebackFound.depositBook_write {plan : ChargebackPlan} {credited : FiatDepositSeen}
    (h : s.ChargebackFound plan credited) :
    (s.writeFiatChargeback plan).depositBook =
      { deposit := Function.update s.depositBook.deposit (.fiat plan.extRefHash)
          (some { credited.deposit with sums := credited.deposit.sums.add plan.seen.sums })
        taken := Function.update s.depositBook.taken (.chargeback plan.extRefHash plan.disputeRefHash) true
        frozen :=
          if ReversalRef.freezes (.chargeback plan.extRefHash plan.disputeRefHash) plan.seen.sums then
            Function.update s.depositBook.frozen plan.seen.who
              (some (Reversal.addFrozen (s.depositBook.frozen plan.seen.who) plan.seen.sums))
          else s.depositBook.frozen } := by
  rw [← h.credited_eq, ← h.freeze_eq]
  apply Reversal.Book.ext
  . funext ref
    cases ref with
    | fiat extRefHash =>
      by_cases heq : extRefHash = plan.extRefHash
      . subst heq
        simp [depositBook, writeFiatChargeback, freezeAccount]
      . simp [depositBook, writeFiatChargeback, freezeAccount, putDepositRoot, putBalance, heq]
    | tap identity => rfl
  . funext ref
    cases ref with
    | chargeback extRefHash disputeRefHash =>
      by_cases heq : (extRefHash, disputeRefHash) = (plan.extRefHash, plan.disputeRefHash)
      . obtain ⟨rfl, rfl⟩ := Prod.mk.inj heq
        simp [depositBook, writeFiatChargeback, freezeAccount]
      . have hne : ReversalRef.chargeback extRefHash disputeRefHash ≠
            .chargeback plan.extRefHash plan.disputeRefHash := by
          intro hsame
          obtain ⟨hext, hdispute⟩ := ReversalRef.chargeback.inj hsame
          exact heq (Prod.ext hext hdispute)
        simp [Function.update_of_ne hne, depositBook, writeFiatChargeback, freezeAccount,
          Table.get_put_of_ne _ _ heq]
    | tapReversal identity => rfl
  . funext user
    show _ = Function.update s.depositBook.frozen plan.seen.who (some plan.freeze.totals) user
    by_cases heq : user = plan.seen.who
    . subst heq
      simp [depositBook, writeFiatChargeback, freezeAccount]
    . simp [depositBook, writeFiatChargeback, freezeAccount, putDepositRoot, putBalance, heq]

theorem DepositOp.event_eq_none {op : DepositOp} (h : op.recorded host s = none) : op.event host s = none := by
  cases op with
  | tnk => rfl
  | _ =>
    simp only [recorded, event] at h ⊢
    split
    . next _ hplan => simp [hplan] at h
    . rfl

theorem DepositOp.Effect.step {op : DepositOp} {recorded : Option (Nat × EvidenceEntry)}
    (h : op.Effect host s s' recorded) (hcredited : ∀ ref, s.depositBook.taken ref = true →
      (s.depositBook.deposit ref.deposit).isSome) :
    Reversal.Step ReversalRef.deposit ReversalRef.freezes s.depositBook (op.event host s) s'.depositBook := by
  cases h with
  | kept hnone =>
    rw [event_eq_none hnone]
    exact .keep
  | tnk plan hplan => exact .keep
  | tap plan hplan =>
    have hnew := prepareTapDeposit_new hplan
    -- An event that was not credited was not reversed either.
    have hunreversed : s.deposits.tapReversal.get plan.identity = none := by
      cases hreversal : s.deposits.tapReversal.get plan.identity with
      | none => rfl
      | some seen =>
        have hsome := hcredited (.tapReversal plan.identity) (by simp [depositBook, hreversal])
        simp [ReversalRef.deposit, depositBook, hnew] at hsome
    simp only [event, hplan]
    rw [depositBook_writeTapDeposit hunreversed]
    exact .credit _ _ _ (by simp [depositBook, hnew])
  | fiat plan hplan =>
    obtain ⟨hnew, hseen⟩ := prepareFiatDeposit_new hplan
    simp only [event, hplan]
    rw [depositBook_writeFiatDeposit hseen]
    exact .credit _ _ _ (by simp [depositBook, hnew])
  | tapReversal plan hplan =>
    obtain ⟨-, hsplit, -, -⟩ := prepareTapDepositReversal_eq_ok hplan
    have hfound := prepareTapDepositReversal_found hplan
    simp only [event, hplan]
    rw [hfound.depositBook_write, hfound.who_eq]
    refine Reversal.Step.takeBack (ReversalRef.tapReversal plan.identity) (plan.credited.deposit none)
      plan.seen.sums ?_ ?_ ?_ hsplit
    . simp [depositBook, hfound.new]
    . simp [ReversalRef.deposit, depositBook, hfound.new, hfound.found]
    . simp [TapDepositSeen.deposit, TapReversalSeen.sums, Sums.zero, hfound.au_eq]
  | chargeback plan hplan =>
    obtain ⟨-, hsplit, -, -⟩ := prepareFiatChargeback_eq_ok hplan
    obtain ⟨credited, hfound⟩ := prepareFiatChargeback_found hplan
    simp only [event, hplan]
    rw [hfound.depositBook_write, hfound.who_eq]
    refine Reversal.Step.takeBack (ReversalRef.chargeback plan.extRefHash plan.disputeRefHash) credited.deposit
      plan.seen.sums ?_ ?_ hfound.disputed_le hsplit
    . simp [depositBook, hfound.new]
    . simp [ReversalRef.deposit, depositBook, hfound.found]

def FrozenMarked (s : Ledger) : Prop :=
  ∀ user, s.registry.frozen.get user = some true ↔ (s.deposits.freeze.get user).isSome

theorem FrozenMarked.congr (h : s.FrozenMarked) (hfrozen : s'.registry.frozen = s.registry.frozen)
    (hfreeze : s'.deposits.freeze = s.deposits.freeze) : s'.FrozenMarked := by
  intro user
  rw [hfrozen, hfreeze]
  exact h user

theorem FrozenMarked.freezeAccount (h : s.FrozenMarked) (user : PublicKey) (record : FreezeRecord) :
    (s.freezeAccount user record).FrozenMarked := by
  intro other
  by_cases heq : other = user
  . subst heq
    simp [Ledger.freezeAccount]
  . simpa [Ledger.freezeAccount, heq] using h other

theorem FrozenMarked.effect (h : s.FrozenMarked) {op : DepositOp} {recorded : Option (Nat × EvidenceEntry)}
    (heffect : op.Effect host s s' recorded) : s'.FrozenMarked := by
  cases heffect with
  | kept => exact h
  | tnk plan hplan | tap plan hplan | fiat plan hplan => exact h.congr rfl rfl
  | tapReversal plan hplan =>
    unfold writeTapDepositReversal
    split
    . exact FrozenMarked.freezeAccount (h.congr rfl rfl) _ _
    . exact h.congr rfl rfl
  | chargeback plan hplan => exact FrozenMarked.freezeAccount (h.congr rfl rfl) _ _

def givenTo (user : PublicKey) (rail : Rail) : DepositEvent → Nat
  | .credit ref account au => if (user, rail) = (account, ref.rail) then au else 0
  | .takeBack _ _ _ => 0

def takenFrom (user : PublicKey) (rail : Rail) : DepositEvent → Nat
  | .credit _ _ _ => 0
  | .takeBack ref account sums => if (user, rail) = (account, ref.deposit.rail) then sums.clawbackAu else 0

theorem balanceAu_of_putBalance {user : PublicKey} {r : Rail} {next : BalanceRecord} {given taken : Nat}
    (hsame : SameBooks (s.putBalance user r next) s') (h : s.Adjusts user r next taken given) (other : PublicKey)
    (rail : Rail) :
    s'.balanceAu other rail + (if (other, rail) = (user, r) then taken else 0) =
      s.balanceAu other rail + (if (other, rail) = (user, r) then given else 0) := by
  obtain ⟨_, hread, hscope, hau⟩ := h
  have hafter : s'.balanceAu other rail = (s.putBalance user r next).balanceAu other rail :=
    balanceAu_congr hsame.payments (by rw [hsame.accounts])
  rw [hafter]
  by_cases hkey : (other, rail) = (user, r)
  . obtain ⟨rfl, rfl⟩ := Prod.mk.inj hkey
    have hstored : (s.putBalance other rail next).balanceRecord other rail = .ok next :=
      balanceRecord_of_stored (putBalance_payments _ _ _ _) hread (Table.get_put_self _ _ _) hscope
    rw [balanceAu_of_read hstored, balanceAu_of_read hread, if_pos rfl, if_pos rfl]
    exact hau
  . have hother : (s.putBalance user r next).balanceAu other rail = s.balanceAu other rail :=
      balanceAu_congr (putBalance_payments _ _ _ _) (Table.get_put_of_ne _ _ hkey)
    rw [hother, if_neg hkey, if_neg hkey]

theorem DepositOp.Effect.balanceAu {op : DepositOp} {recorded : Option (Nat × EvidenceEntry)}
    (h : op.Effect host s s' recorded) :
    (∀ event ∈ op.event host s, ∀ user rail,
      s'.balanceAu user rail + takenFrom user rail event = s.balanceAu user rail + givenTo user rail event) ∧
    (op.event host s = none → ∀ user rail, s.balanceAu user rail ≤ s'.balanceAu user rail) := by
  cases h with
  | kept hnone => simp [event_eq_none hnone]
  | tnk plan hplan =>
    refine ⟨by simp [event], fun _ user rail => ?_⟩
    have hadd := @balanceAu_of_putBalance _ (s.writeTnkDeposit plan) _ _ _ _ _ ⟨rfl, rfl, rfl⟩
      (prepareTnkDeposit_eq_ok hplan).2 user rail
    simp only [ite_self, Nat.add_zero] at hadd
    omega
  | tap plan hplan =>
    simpa [event, hplan, takenFrom, givenTo, DepositRef.rail] using
      @balanceAu_of_putBalance _ (s.writeTapDeposit plan) _ _ _ _ _ ⟨rfl, rfl, rfl⟩
        (prepareTapDeposit_eq_ok hplan).2
  | fiat plan hplan =>
    simpa [event, hplan, takenFrom, givenTo, DepositRef.rail] using
      @balanceAu_of_putBalance _ (s.writeFiatDeposit plan) _ _ _ _ _ ⟨rfl, rfl, rfl⟩
        (prepareFiatDeposit_eq_ok hplan).2
  | tapReversal plan hplan =>
    obtain ⟨-, -, -, hadjusts⟩ := prepareTapDepositReversal_eq_ok hplan
    simpa [event, hplan, takenFrom, givenTo, DepositRef.rail, ReversalRef.deposit, TapReversalSeen.sums] using
      balanceAu_of_putBalance (writeTapDepositReversal_sameBooks s plan) hadjusts
  | chargeback plan hplan =>
    obtain ⟨-, -, -, hadjusts⟩ := prepareFiatChargeback_eq_ok hplan
    simpa [event, hplan, takenFrom, givenTo, DepositRef.rail, ReversalRef.deposit, FiatChargebackSeen.sums] using
      @balanceAu_of_putBalance _ (s.writeFiatChargeback plan) _ _ _ _ _ ⟨rfl, rfl, rfl⟩ hadjusts

section Pages

variable {sender : PublicKey} {key : Digest} {value : TargetedEpochValue} {transition : Option CommitTransition}
  {outcome : Outcome ApplyResult}

theorem PageOutcome.deposits_eq (h : PageOutcome crypto s sender key value transition outcome) :
    outcome.1.deposits = s.deposits ∧ outcome.1.registry.frozen = s.registry.frozen := by
  cases h with
  | rejected | replayed | stopped => exact ⟨rfl, rfl⟩
  | settled feature plan market =>
    obtain ⟨_, hregistry⟩ := settled_registry (s := s) plan feature market
    refine ⟨rfl, ?_⟩
    rw [hregistry]

theorem PageOutcome.balanceAu_add (h : PageOutcome crypto s sender key value transition outcome) :
    (∀ user rail, outcome.1.balanceAu user rail = s.balanceAu user rail) ∨
      ∀ user rail, outcome.1.balanceAu user rail +
        Tally.amount (value.allocations.map Allocation.debit) (rail, user) = s.balanceAu user rail := by
  cases h with
  | rejected | replayed => exact .inl fun _ _ => rfl
  | stopped feature plan _ hfeature hplan hmarket =>
    obtain ⟨page⟩ := appliedPage_of_settled hfeature hplan
    exact .inr fun user rail => page.balanceAu_add user rfl rfl
  | settled feature plan market hfeature hplan hmarket =>
    obtain ⟨page⟩ := appliedPage_of_settled hfeature hplan
    exact .inr fun user rail => page.balanceAu_add user (settled_railScope plan feature market rail) rfl

end Pages

inductive DepositHistory (host : DepositHost) (crypto : Crypto) (s₀ : Ledger) :
    Ledger → List DepositEvent → Prop where
  | start : DepositHistory host crypto s₀ s₀ []
  | op {s : Ledger} {history : List DepositEvent} (op : DepositOp) : DepositHistory host crypto s₀ s history →
    DepositHistory host crypto s₀ (op.exec host s) (history ++ (op.event host s).toList)
  | page {s : Ledger} {history : List DepositEvent} (sender : PublicKey) (key : Digest)
    (value : TargetedEpochValue) :
    DepositHistory host crypto s₀ s history →
    DepositHistory host crypto s₀ (s.applyTargetedEpochFeature crypto sender key value).1 history
  | pageZero {s : Ledger} {history : List DepositEvent} (sender : PublicKey) (key : Digest)
    (value : CommitPageZeroValue) :
    DepositHistory host crypto s₀ s history →
    DepositHistory host crypto s₀ (s.applyCommitTargetedEpochPageZeroFeature crypto sender key value).1 history
  | other {s s' : Ledger} {history : List DepositEvent} : DepositHistory host crypto s₀ s history →
    s'.deposits = s.deposits → s'.registry.frozen = s.registry.frozen →
    DepositHistory host crypto s₀ s' history

theorem DepositHistory.explains {s₀ : Ledger} {history : List DepositEvent}
    (hempty : s₀.depositBook = .empty) (hmarked : s₀.FrozenMarked)
    (hrun : DepositHistory host crypto s₀ s history) :
    Reversal.Explains ReversalRef.deposit ReversalRef.freezes history s.depositBook ∧ s.FrozenMarked := by
  induction hrun with
  | start =>
    rw [hempty]
    exact ⟨.empty, hmarked⟩
  | @op s _ op _ ih =>
    have heffect := op.effect host s
    exact ⟨ih.1.step (heffect.step ih.1.taken_credited), ih.2.effect heffect⟩
  | @page s history sender key value _ ih =>
    obtain ⟨_, houtcome⟩ := page_outcome crypto s sender key value
    obtain ⟨hdeposits, hfrozen⟩ := houtcome.deposits_eq
    rw [depositBook_congr hdeposits]
    exact ⟨ih.1, ih.2.congr hfrozen (by rw [hdeposits])⟩
  | @pageZero s history sender key value _ ih =>
    obtain ⟨_, _, houtcome⟩ := pageZero_outcome crypto s sender key value
    obtain ⟨hdeposits, hfrozen⟩ := houtcome.deposits_eq
    rw [depositBook_congr hdeposits]
    exact ⟨ih.1, ih.2.congr hfrozen (by rw [hdeposits])⟩
  | other _ hdeposits hfrozen ih =>
    rw [depositBook_congr hdeposits]
    exact ⟨ih.1, ih.2.congr hfrozen (by rw [hdeposits])⟩

structure BalancesCovered (host : DepositHost) (crypto : Crypto) (s : Ledger) : Prop where
  deposits : ∀ op : DepositOp, (∀ event ∈ op.event host s, ∀ user rail,
      (op.exec host s).balanceAu user rail + takenFrom user rail event =
        s.balanceAu user rail + givenTo user rail event) ∧
    (op.event host s = none → ∀ user rail, s.balanceAu user rail ≤ (op.exec host s).balanceAu user rail)
  pages : ∀ sender key value, (∀ user rail,
      (s.applyTargetedEpochFeature crypto sender key value).1.balanceAu user rail = s.balanceAu user rail) ∨
    ∀ user rail, (s.applyTargetedEpochFeature crypto sender key value).1.balanceAu user rail +
      Tally.amount (value.allocations.map Allocation.debit) (rail, user) = s.balanceAu user rail
  firstPages : ∀ sender key value, (∀ user rail,
      (s.applyCommitTargetedEpochPageZeroFeature crypto sender key value).1.balanceAu user rail =
        s.balanceAu user rail) ∨
    ∀ user rail, (s.applyCommitTargetedEpochPageZeroFeature crypto sender key value).1.balanceAu user rail +
      Tally.amount (value.allocations.map Allocation.debit) (rail, user) = s.balanceAu user rail

theorem balancesCovered (host : DepositHost) (crypto : Crypto) (s : Ledger) : s.BalancesCovered host crypto where
  deposits op := (op.effect host s).balanceAu
  pages sender key value := by
    obtain ⟨_, houtcome⟩ := page_outcome crypto s sender key value
    exact houtcome.balanceAu_add
  firstPages sender key value := by
    obtain ⟨_, _, houtcome⟩ := pageZero_outcome crypto s sender key value
    exact houtcome.balanceAu_add

/--
Each reference is used at most once, no more is disputed of a deposit than it is, each frozen account has on
record what it was frozen for, and no balance is charged with more than it has.
-/
theorem deposits_reversals_balance {s₀ : Ledger} {history : List DepositEvent}
    (hempty : s₀.depositBook = .empty) (hmarked : s₀.FrozenMarked)
    (hrun : DepositHistory host crypto s₀ s history) :
    Reversal.Explains ReversalRef.deposit ReversalRef.freezes history s.depositBook ∧ s.FrozenMarked ∧
      s.BalancesCovered host crypto := by
  obtain ⟨hexplains, hmarks⟩ := hrun.explains hempty hmarked
  exact ⟨hexplains, hmarks, s.balancesCovered host crypto⟩

def chargedBackTwice : List DepositOp :=
  [.fiat 10 cardDeposit, .chargeback 10 cardChargeback, .chargeback 10 cardChargeback]

def runEvents (host : DepositHost) (s : Ledger) (history : List DepositEvent) :
    List DepositOp → Ledger × List DepositEvent
  | [] => (s, history)
  | op :: rest => runEvents host (op.exec host s) (history ++ (op.event host s).toList) rest

theorem DepositHistory.runEvents {s₀ : Ledger} {history : List DepositEvent} (ops : List DepositOp)
    (hrun : DepositHistory host crypto s₀ s history) :
    DepositHistory host crypto s₀ (runEvents host s history ops).1 (runEvents host s history ops).2 := by
  induction ops generalizing s history with
  | nil => exact hrun
  | cons op _ ih => exact ih (.op op hrun)

theorem talkLedger_unfrozen : talkLedger.FrozenMarked := by
  intro user
  have hfrozen : talkLedger.registry.frozen.get user = none := rfl
  have hfreeze : talkLedger.deposits.freeze.get user = none := rfl
  simp [hfrozen, hfreeze]

theorem deposits_reversals_balance_twice :
    (runEvents plainDepositHost talkLedger [] chargedBackTwice).1.depositBook.frozen 20 = some (1, ⟨40, 40, 0⟩) ∧
    Reversal.Explains ReversalRef.deposit ReversalRef.freezes
      (runEvents plainDepositHost talkLedger [] chargedBackTwice).2
      (runEvents plainDepositHost talkLedger [] chargedBackTwice).1.depositBook := by
  have hempty : talkLedger.depositBook = .empty := by
    apply Reversal.Book.ext
    . funext ref
      cases ref with
      | fiat | tap => rfl
    . funext ref
      cases ref with
      | chargeback | tapReversal => rfl
    . rfl
  refine ⟨by decide +kernel, ?_⟩
  have hrun : DepositHistory plainDepositHost plainHost talkLedger _ _ :=
    DepositHistory.start.runEvents chargedBackTwice
  exact (deposits_reversals_balance hempty talkLedger_unfrozen hrun).1

end Ledger

end Mayhem
