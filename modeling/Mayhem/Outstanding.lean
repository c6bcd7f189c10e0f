import Mayhem.Lib.Keyed
import Mayhem.Settlement.Facts
import Mayhem.Host

namespace Mayhem

/-! Histories -/

structure Reserved where
  reservationId : Digest
  attempt : BillingAttempt
  user : PublicKey
  rail : Rail
  maxSpendAu : Nat
  receiptAu : Option Nat

namespace Reserved

def heldAu (r : Reserved) : Nat := r.receiptAu.getD r.maxSpendAu

def isFor (r : Reserved) (user : PublicKey) (rail : Rail) : Bool :=
  decide (r.user = user ∧ r.rail = rail)

def heldFor (user : PublicKey) (rail : Rail) (r : Reserved) : Nat :=
  if r.isFor user rail then r.heldAu else 0

def retain (receiptAu : Nat) (r : Reserved) : Reserved := { r with receiptAu := some receiptAu }

def openAu (reserved : List Reserved) (user : PublicKey) (rail : Rail) : Nat :=
  ((reserved.filter fun r => r.isFor user rail && r.receiptAu.isNone).map Reserved.maxSpendAu).sum

def owedAu (reserved : List Reserved) (user : PublicKey) (rail : Rail) : Nat :=
  ((reserved.filter fun r => r.isFor user rail).filterMap Reserved.receiptAu).sum

theorem sum_heldFor (reserved : List Reserved) (user : PublicKey) (rail : Rail) :
    (reserved.map (heldFor user rail)).sum = openAu reserved user rail + owedAu reserved user rail := by
  induction reserved with
  | nil => rfl
  | cons r reserved ih =>
    rw [List.map_cons, List.sum_cons, ih, openAu, openAu, owedAu, owedAu, heldFor, heldAu]
    cases hfor : r.isFor user rail with
    | false => simp [hfor]
    | true =>
      cases hreceipt : r.receiptAu with
      | none => simp [hfor, hreceipt, Nat.add_assoc]
      | some receiptAu =>
        simp [hfor, hreceipt]
        omega

end Reserved

inductive HoldEvent where
  | accepted (reservation : Reserved)
  | closed (reservationId : Digest) (receiptAu : Option Nat)
  | consumed (attempt : BillingAttempt)

def HoldEvent.apply (reserved : List Reserved) : HoldEvent → List Reserved
  | .accepted reservation => reservation :: reserved
  | .closed reservationId none => Keyed.erase Reserved.reservationId reservationId reserved
  | .closed reservationId (some receiptAu) =>
    Keyed.modify Reserved.reservationId reservationId (Reserved.retain receiptAu) reserved
  | .consumed attempt => Keyed.erase Reserved.attempt attempt reserved

def outstanding (history : List HoldEvent) : List Reserved := history.foldl HoldEvent.apply []

/-! The records of outstanding reservations -/

structure HoldsMatch (holds : Holds) (receipts : Receipts) (reserved : List Reserved) : Prop where
  noLegacy : ∀ account, holds.hold.get account = none
  ids_nodup : (reserved.map Reserved.reservationId).Nodup
  attempts_nodup : (reserved.map Reserved.attempt).Nodup
  of_session : ∀ user rail reservationId session, holds.session.get (user, rail, reservationId) = some session →
      ∃ r ∈ reserved, r.user = user ∧ r.rail = rail ∧ r.reservationId = reservationId ∧
        r.attempt = session.attempt ∧ r.heldAu = session.maxSpendAu
  recorded : ∀ r ∈ reserved, (receipts.reservation.get r.reservationId).isSome
  anchored : ∀ r ∈ reserved, ∃ anchor, receipts.billing.get r.attempt.1 = some anchor ∧
    anchor.user = r.user ∧ anchor.rail = r.rail ∧ r.attempt.2 ≤ anchor.latestAttempt
  indexed : ∀ r ∈ reserved, (holds.billingAttempt.get (r.user, r.rail, r.attempt.1, r.attempt.2)).isSome
  reserved_eq : ∀ user rail, (holds.targetedSpendSummary user rail).reservedAu =
    (reserved.map (Reserved.heldFor user rail)).sum

namespace HoldsMatch

variable {holds holds' : Holds} {receipts receipts' : Receipts} {reserved : List Reserved}
  {r : Reserved}

theorem empty : HoldsMatch Ledger.empty.holds Ledger.empty.receipts [] where
  noLegacy _ := rfl
  ids_nodup := List.nodup_nil
  attempts_nodup := List.nodup_nil
  of_session _ _ _ _ h := by cases h
  recorded := by simp
  anchored := by simp
  indexed := by simp
  reserved_eq _ _ := rfl

theorem erase (h : HoldsMatch holds receipts reserved) (hr : r ∈ reserved) (hhold : holds'.hold = holds.hold)
    (hsession : holds'.session = holds.session.del (r.user, r.rail, r.reservationId))
    (hattempt : holds'.billingAttempt = holds.billingAttempt.del (r.user, r.rail, r.attempt.1, r.attempt.2))
    (hsummary : ∀ user rail, r.heldFor user rail + (holds'.targetedSpendSummary user rail).reservedAu =
      (holds.targetedSpendSummary user rail).reservedAu)
    (hreservation : ∀ id, (receipts.reservation.get id).isSome → (receipts'.reservation.get id).isSome)
    (hbilling : receipts'.billing = receipts.billing) :
    HoldsMatch holds' receipts' (Keyed.erase Reserved.reservationId r.reservationId reserved) where
  noLegacy account := by rw [hhold]; exact h.noLegacy account
  ids_nodup := h.ids_nodup.sublist (Keyed.erase_sublist.map _)
  attempts_nodup := h.attempts_nodup.sublist (Keyed.erase_sublist.map _)
  of_session user rail reservationId session hget := by
    rw [hsession, Table.get_del] at hget
    split at hget
    . cases hget
    . next hne =>
      obtain ⟨found, hfound, rfl, rfl, rfl, hrest⟩ := h.of_session _ _ _ _ hget
      refine ⟨found, Keyed.mem_erase.mpr ⟨hfound, fun heq => hne ?_⟩, rfl, rfl, rfl, hrest⟩
      rw [List.inj_on_of_nodup_map h.ids_nodup hfound hr heq]
  recorded found hfound := hreservation _ (h.recorded found (Keyed.mem_erase.mp hfound).1)
  anchored found hfound := by rw [hbilling]; exact h.anchored found (Keyed.mem_erase.mp hfound).1
  indexed found hfound := by
    obtain ⟨hfound, hne⟩ := Keyed.mem_erase.mp hfound
    rw [hattempt, Table.get_del_of_ne]
    . exact h.indexed found hfound
    . intro heq
      simp only [Prod.mk.injEq] at heq
      have hsame : found.attempt = r.attempt := Prod.ext heq.2.2.1 heq.2.2.2
      exact hne (congrArg Reserved.reservationId
        (List.inj_on_of_nodup_map h.attempts_nodup hfound hr hsame))
  reserved_eq user rail := by
    have hsum := Keyed.sum_erase h.ids_nodup hr (Reserved.heldFor user rail)
    rw [← h.reserved_eq, ← hsummary] at hsum
    omega

theorem retain (h : HoldsMatch holds receipts reserved) (hr : r ∈ reserved) {receiptAu : Nat}
    {session : SpendSession} (hhold : holds'.hold = holds.hold)
    (hsession : holds'.session = holds.session.put (r.user, r.rail, r.reservationId) session)
    (hkept : r.attempt = session.attempt ∧ receiptAu = session.maxSpendAu)
    (hattempt : holds'.billingAttempt = holds.billingAttempt)
    (hsummary : ∀ user rail, r.heldFor user rail + (holds'.targetedSpendSummary user rail).reservedAu =
      (r.retain receiptAu).heldFor user rail + (holds.targetedSpendSummary user rail).reservedAu)
    (hreservation : ∀ id, (receipts.reservation.get id).isSome → (receipts'.reservation.get id).isSome)
    (hbilling : receipts'.billing = receipts.billing) :
    HoldsMatch holds' receipts'
      (Keyed.modify Reserved.reservationId r.reservationId (Reserved.retain receiptAu) reserved) := by
  -- what a changed reservation keeps is inherited from the reservation it was
  have hmem : ∀ found ∈ Keyed.modify Reserved.reservationId r.reservationId
      (Reserved.retain receiptAu) reserved, ∃ old ∈ reserved, found.reservationId = old.reservationId ∧
        found.attempt = old.attempt ∧ found.user = old.user ∧ found.rail = old.rail := by
    intro found hfound
    obtain ⟨old, hold, rfl⟩ := List.mem_map.mp hfound
    refine ⟨old, hold, ?_⟩
    split <;> exact ⟨rfl, rfl, rfl, rfl⟩
  constructor
  case noLegacy =>
    intro account
    rw [hhold]
    exact h.noLegacy account
  case ids_nodup =>
    have hids : ∀ old : Reserved, (old.retain receiptAu).reservationId = old.reservationId := fun _ => rfl
    rw [Keyed.map_modify hids]
    exact h.ids_nodup
  case attempts_nodup =>
    have hattempts : ∀ old : Reserved, (old.retain receiptAu).attempt = old.attempt := fun _ => rfl
    rw [Keyed.map_modify hattempts]
    exact h.attempts_nodup
  case of_session =>
    intro user rail reservationId found hget
    rw [hsession] at hget
    obtain ⟨⟨⟩, rfl⟩ | ⟨hne, hget⟩ := Table.get_put_eq_some.mp hget
    . exact ⟨r.retain receiptAu, Keyed.mem_modify_of_mem hr rfl, rfl, rfl, rfl, hkept.1, hkept.2⟩
    . obtain ⟨old, hold, rfl, rfl, rfl, hrest⟩ := h.of_session _ _ _ _ hget
      refine ⟨old, List.mem_map.mpr ⟨old, hold, ?_⟩, rfl, rfl, rfl, hrest⟩
      rw [if_neg]
      intro heq
      exact hne (by rw [List.inj_on_of_nodup_map h.ids_nodup hold hr heq])
  case recorded =>
    intro found hfound
    obtain ⟨old, hold, hid, -⟩ := hmem found hfound
    rw [hid]
    exact hreservation _ (h.recorded old hold)
  case anchored =>
    intro found hfound
    obtain ⟨old, hold, -, hattempt, huser, hrail⟩ := hmem found hfound
    rw [hbilling, hattempt, huser, hrail]
    exact h.anchored old hold
  case indexed =>
    intro found hfound
    obtain ⟨old, hold, -, hattempt', huser, hrail⟩ := hmem found hfound
    rw [hattempt, hattempt', huser, hrail]
    exact h.indexed old hold
  case reserved_eq =>
    intro user rail
    have hsum := Keyed.sum_modify h.ids_nodup hr (g := Reserved.retain receiptAu) (fun _ => rfl)
      (Reserved.heldFor user rail)
    have hdiff := hsummary user rail
    rw [h.reserved_eq] at hdiff
    omega

/-! What the operations do to them -/

def reservedOf (value : SpendReserveValue) : Reserved :=
  ⟨value.reservationId, value.attempt, value.user, value.rail, value.maxSpendAu, none⟩

variable {s : Ledger}

theorem attempt_ne_of_new {value : SpendReserveValue} {plan : ReservePlan}
    (h : HoldsMatch s.holds s.receipts reserved) (hnew : s.NewReservation value plan) :
    ∀ r ∈ reserved, r.attempt ≠ value.attempt := by
  intro r hr heq
  obtain ⟨anchor, hanchor, huser, hrail, hlatest⟩ := h.anchored r hr
  rw [heq] at hanchor hlatest
  have howner := hnew.anchor_owner anchor hanchor
  rcases hnew.anchor_step with ⟨hnone, -⟩ | ⟨found, hfound, -, -, -, hopen⟩ | ⟨found, hfound, _, -⟩
  . rw [hnone] at hanchor
    cases hanchor
  . have hindexed := h.indexed r hr
    rw [heq, ← huser, ← hrail, howner.1, howner.2, hopen] at hindexed
    cases hindexed
  . obtain rfl := Option.some.inj (hfound.symm.trans hanchor)
    omega

theorem accept {value : SpendReserveValue} {plan : ReservePlan} (h : HoldsMatch s.holds s.receipts reserved)
    (hnew : s.NewReservation value plan) :
    HoldsMatch (s.writeReservation plan).holds (s.writeReservation plan).receipts
      (reservedOf value :: reserved) := by
  have hattempt := hnew.attempt_eq
  rw [SpendSession.attempt, SpendReserveValue.attempt, Prod.mk.injEq] at hattempt
  have hid : ∀ r ∈ reserved, r.reservationId ≠ value.reservationId := by
    intro r hr heq
    have hrecorded := h.recorded r hr
    rw [heq, hnew.reservation_none] at hrecorded
    cases hrecorded
  have hnext : plan.anchor.latestAttempt = value.attempt.2 := by
    rcases hnew.anchor_step with ⟨-, hnext⟩ | ⟨-, -, -, hnext, -, -⟩ | ⟨-, -, -, hnext⟩ <;> exact hnext
  constructor
  case noLegacy => exact h.noLegacy
  case ids_nodup =>
    refine List.nodup_cons.mpr ⟨?_, h.ids_nodup⟩
    rw [List.mem_map]
    rintro ⟨r, hr, heq⟩
    exact hid r hr heq
  case attempts_nodup =>
    refine List.nodup_cons.mpr ⟨?_, h.attempts_nodup⟩
    rw [List.mem_map]
    rintro ⟨r, hr, heq⟩
    exact h.attempt_ne_of_new hnew r hr heq
  case of_session =>
    intro user rail reservationId _ hget
    dsimp only [Ledger.writeReservation] at hget
    rw [hnew.user_eq, hnew.rail_eq, hnew.reservationId_eq] at hget
    obtain ⟨⟨⟩, rfl⟩ | ⟨-, hget⟩ := Table.get_put_eq_some.mp hget
    . exact ⟨reservedOf value, List.mem_cons_self, rfl, rfl, rfl, hnew.attempt_eq.symm, hnew.maxSpendAu_eq.symm⟩
    . obtain ⟨r, hr, hrest⟩ := h.of_session _ _ _ _ hget
      exact ⟨r, List.mem_cons_of_mem _ hr, hrest⟩
  case recorded =>
    dsimp only [Ledger.writeReservation]
    rw [hnew.reservationId_eq, List.forall_mem_cons]
    refine ⟨?_, fun r hr => ?_⟩
    . rw [reservedOf, Table.get_put_self, Option.isSome_some]
    . rw [Table.get_put_of_ne _ _ (hid r hr)]
      exact h.recorded r hr
  case anchored =>
    dsimp only [Ledger.writeReservation]
    rw [hattempt.1, List.forall_mem_cons]
    refine ⟨⟨plan.anchor, Table.get_put_self .., hnew.anchor_user, hnew.anchor_rail,
      Nat.le_of_eq hnext.symm⟩, fun r hr => ?_⟩
    obtain ⟨anchor, hanchor, huser, hrail, hlatest⟩ := h.anchored r hr
    by_cases hbilling : r.attempt.1 = value.voucher.billingId
    . rw [hbilling] at hanchor ⊢
      have howner := hnew.anchor_owner anchor hanchor
      refine ⟨plan.anchor, Table.get_put_self .., ?_, ?_, ?_⟩
      . rw [hnew.anchor_user, ← howner.1, huser]
      . rw [hnew.anchor_rail, ← howner.2, hrail]
      . rcases hnew.anchor_step with ⟨hnone, -⟩ | ⟨_, hfound, hsame, -⟩ | ⟨_, hfound, hsame, -⟩
        . cases hnone.symm.trans hanchor
        all_goals
          obtain rfl := Option.some.inj (hfound.symm.trans hanchor)
          omega
    . rw [Table.get_put_of_ne _ _ hbilling]
      exact ⟨anchor, hanchor, huser, hrail, hlatest⟩
  case indexed =>
    dsimp only [Ledger.writeReservation]
    rw [hnew.user_eq, hnew.rail_eq, hattempt.1, hattempt.2, List.forall_mem_cons]
    refine ⟨?_, fun r hr => ?_⟩
    . exact Option.isSome_iff_exists.mpr ⟨_, Table.get_put_self ..⟩
    . rw [Table.get_put_of_ne]
      . exact h.indexed r hr
      . intro heq
        simp only [Prod.mk.injEq] at heq
        exact h.attempt_ne_of_new hnew r hr (Prod.ext heq.2.2.1 heq.2.2.2)
  case reserved_eq =>
    intro user rail
    rw [List.map_cons, List.sum_cons, ← h.reserved_eq]
    dsimp only [Ledger.writeReservation, Holds.targetedSpendSummary]
    rw [hnew.user_eq, hnew.rail_eq, Table.get_put]
    by_cases hfor : value.user = user ∧ value.rail = rail
    . obtain ⟨rfl, rfl⟩ := hfor
      rw [if_pos rfl, Option.getD_some, hnew.reservedAu_eq]
      simp only [Reserved.heldFor, Reserved.isFor, reservedOf, Reserved.heldAu, and_self, decide_true,
        if_true, Option.getD_none, Holds.targetedSpendSummary]
      omega
    . rw [if_neg (by simpa [eq_comm] using hfor)]
      simp [Reserved.heldFor, Reserved.isFor, reservedOf, hfor]

theorem heldFor_eq {owner : PublicKey} {ownerRail : Rail} (huser : r.user = owner)
    (hrail : r.rail = ownerRail) (user : PublicKey) (rail : Rail) :
    r.heldFor user rail = if (user, rail) = (owner, ownerRail) then r.heldAu else 0 := by
  have hiff : (owner = user ∧ ownerRail = rail) ↔ (user, rail) = (owner, ownerRail) := by
    rw [Prod.mk.injEq]
    exact and_congr eq_comm eq_comm
  rw [Reserved.heldFor, Reserved.isFor, huser, hrail]
  simp [hiff]

theorem heldFor_add_put {owner : PublicKey} {ownerRail : Rail} {summary : SpendSummary} (keptAu : Nat)
    (huser : r.user = owner) (hrail : r.rail = ownerRail)
    (hput : holds'.summary = holds.summary.put (owner, ownerRail) summary)
    (hsum : r.heldAu + summary.reservedAu =
      keptAu + (holds.targetedSpendSummary owner ownerRail).reservedAu) (user : PublicKey) (rail : Rail) :
    r.heldFor user rail + (holds'.targetedSpendSummary user rail).reservedAu =
      (if (user, rail) = (owner, ownerRail) then keptAu else 0) +
        (holds.targetedSpendSummary user rail).reservedAu := by
  rw [heldFor_eq huser hrail, Holds.targetedSpendSummary, hput, Table.get_put]
  split
  . next heq =>
    obtain ⟨rfl, rfl⟩ := Prod.mk.inj heq
    exact hsum
  . rfl

theorem close {key : Digest} {plan : ClosePlan} {reservation : ReservationRecord}
    (h : HoldsMatch s.holds s.receipts reserved) (hclosing : s.Closing key plan reservation) :
    HoldsMatch (s.writeClosePlan plan reservation).holds (s.writeClosePlan plan reservation).receipts
      (HoldEvent.apply reserved (.closed plan.session.reservationId
        (plan.head.map fun entry => entry.1.incrementalAu))) := by
  obtain ⟨r, hr, huser, hrail, hid, hattempt, hheld⟩ := h.of_session _ _ _ _ hclosing.session_eq
  obtain ⟨reservedAu, hreserved, ⟨balance, hhold⟩, hkept⟩ := hclosing.closure_eq
  have hle := hclosing.retained_le
  have hrecorded : ∀ id, (s.receipts.reservation.get id).isSome →
      ((s.writeClosePlan plan reservation).receipts.reservation.get id).isSome := by
    intro id hsome
    apply Table.isSome_get_put
    split <;> exact hsome
  have hbilling : (s.writeClosePlan plan reservation).receipts.billing = s.receipts.billing := by
    dsimp only [Ledger.writeClosePlan, Receipts.writeClosePlan]
    split <;> rfl
  cases hhead : plan.head with
  | none =>
    rw [hhead] at hreserved hkept hle
    have hholds : (s.writeClosePlan plan reservation).holds = { s.holds with
        summary := s.holds.summary.put (plan.session.user, plan.session.rail) ⟨reservedAu, balance⟩
        session := s.holds.session.del
          (plan.session.user, plan.session.rail, plan.session.reservationId)
        sessionIndex := s.holds.sessionIndex.del
          (plan.session.user, plan.session.rail, plan.session.sessionId)
        billingAttempt := s.holds.billingAttempt.del (plan.session.user, plan.session.rail,
          plan.session.billingId, plan.session.billingAttempt) } := by
      rw [Ledger.writeClosePlan, Holds.writeClosure, hhold, hkept]
      rfl
    dsimp only [HoldEvent.apply, Option.map_none]
    rw [← hid]
    refine h.erase hr (by rw [hholds]) ?_ ?_ ?_ hrecorded hbilling
    . rw [hholds, huser, hrail, hid]
    . rw [hholds, huser, hrail, hattempt]
      rfl
    . intro user rail
      dsimp only [Option.map_none, Option.getD_none] at hreserved
      rw [heldFor_add_put 0 huser hrail (by rw [hholds]), ite_self, Nat.zero_add]
      dsimp only
      omega
  | some entry =>
    rw [hhead] at hreserved hkept hle
    have hholds : (s.writeClosePlan plan reservation).holds = { s.holds with
        summary := s.holds.summary.put (plan.session.user, plan.session.rail) ⟨reservedAu, balance⟩
        session := s.holds.session.put
          (plan.session.user, plan.session.rail, plan.session.reservationId)
          (plan.session.retain entry.1.incrementalAu) } := by
      rw [Ledger.writeClosePlan, Holds.writeClosure, hhold, hkept]
      rfl
    have hsession : (s.writeClosePlan plan reservation).holds.session = s.holds.session.put
        (r.user, r.rail, r.reservationId) (plan.session.retain entry.1.incrementalAu) := by
      rw [hholds, huser, hrail, hid]
    dsimp only [HoldEvent.apply, Option.map_some]
    rw [← hid]
    refine h.retain hr (by rw [hholds]) hsession ⟨hattempt, rfl⟩ (by rw [hholds]) ?_ hrecorded hbilling
    . intro user rail
      dsimp only [Option.map_some, Option.getD_some] at hreserved hle
      rw [heldFor_eq (r := r.retain _) huser hrail]
      apply heldFor_add_put _ huser hrail (by rw [hholds])
      dsimp only [Reserved.retain, Reserved.heldAu, Option.getD_some]
      dsimp only [Reserved.heldAu] at hheld
      omega

theorem consume {next : Holds} {current : List Reserved} {head : ReceiptHead} {a : Allocation}
    {session : SpendSession} (hstored : HoldsMatch s.holds s.receipts reserved)
    (h : HoldsMatch holds s.receipts current) (hleft : ∀ r ∈ reserved, r.attempt = a.attempt → r ∈ current)
    (hconsumed : ConsumedReservation s.holds holds head a session next) :
    HoldsMatch next s.receipts (HoldEvent.apply current (.consumed a.attempt)) := by
  obtain ⟨r, hr, huser, hrail, hid, hattempt, hheld⟩ := hstored.of_session _ _ _ _ hconsumed.session_eq
  rw [hconsumed.attempt_eq] at hattempt
  rw [hconsumed.maxSpendAu_eq] at hheld
  have hcurrent := hleft r hr hattempt
  dsimp only [HoldEvent.apply]
  rw [← hattempt, Keyed.erase_eq_erase h.attempts_nodup h.ids_nodup hcurrent]
  have hle := hconsumed.reserved_le
  refine h.erase hcurrent ?_ ?_ ?_ ?_ (fun _ hsome => hsome) rfl
  . rw [hconsumed.next_eq]
  . rw [hconsumed.next_eq, huser, hrail, hid]
  . rw [hconsumed.next_eq, huser, hrail, hattempt]
    rfl
  . intro _ _
    rw [heldFor_add_put 0 huser hrail (by rw [hconsumed.next_eq]), ite_self, Nat.zero_add]
    dsimp only
    omega

theorem bindAllocations {epoch : Nat} {key : Digest} {allocations : List Allocation}
    {bindings next : Bindings} {current : List Reserved} (hstored : HoldsMatch s.holds s.receipts reserved)
    (h : HoldsMatch bindings.holds s.receipts current)
    (hleft : ∀ r ∈ reserved, r.attempt ∉ bindings.attempts → r ∈ current)
    (hfresh : ∀ a ∈ allocations, s.receipts.consumed.get a.attempt = none)
    (hbind : allocations.foldlM (bindAllocation s epoch key) bindings = .ok next) :
    HoldsMatch next.holds s.receipts
      ((allocations.map fun a => HoldEvent.consumed a.attempt).foldl HoldEvent.apply current) := by
  induction allocations generalizing bindings current with
  | nil =>
    rw [List.foldlM_nil, Except.pure_accepts_iff] at hbind
    subst hbind
    exact h
  | cons a allocations ih =>
    rw [List.foldlM_cons, Except.bind_accepts_iff] at hbind
    obtain ⟨bound, hbound, hbind⟩ := hbind
    obtain ⟨_, hbound⟩ := bindAllocation_eq_ok hbound
    obtain ⟨_, hconsumed⟩ := consumeReservation_eq_ok (hstored.noLegacy _)
      (hbound.holds_ok (hfresh a List.mem_cons_self))
    have hkept : HoldsMatch bound.holds s.receipts (HoldEvent.apply current (.consumed a.attempt)) := by
      apply hstored.consume h _ hconsumed
      intro r hr heq
      exact hleft r hr (heq ▸ hbound.attempt_fresh)
    refine ih hkept ?_ (fun b hb => hfresh b (List.mem_cons_of_mem _ hb)) hbind
    intro r hr hnot
    rw [hbound.attempts_eq, List.mem_cons, not_or] at hnot
    exact Keyed.mem_erase.mpr ⟨hleft r hr hnot.2, hnot.1⟩

end HoldsMatch

namespace Ledger

variable {crypto : Crypto} {s : Ledger} {reserved : List Reserved}

inductive HoldOp where
  | reserve (key : Digest) (value : SpendReserveValue)
  | record (key : Digest) (value : RecordReceiptValue)
  | close (key : Digest) (value : CloseReservationValue) (expiry : Bool)
  | page (sender : PublicKey) (key : Digest) (value : TargetedEpochValue)
  | pageZero (sender : PublicKey) (key : Digest) (value : CommitPageZeroValue)

def pageEvents (outcome : Outcome ApplyResult) (allocations : List Allocation) : List HoldEvent :=
  match outcome.2 with
  | .error _ => []
  | .ok result => if result.idempotent then [] else allocations.map fun a => .consumed a.attempt

namespace HoldOp

def run (crypto : Crypto) (s : Ledger) : HoldOp → Ledger
  | .reserve key value => (s.applyTargetedSpendReserveFeature crypto key value).1
  | .record key value => (s.applyRecordUsageReceiptFeature crypto key value).1
  | .close key value expiry => (s.applyCloseUsageReservationFeature crypto key value expiry).1
  | .page sender key value => (s.applyTargetedEpochFeature crypto sender key value).1
  | .pageZero sender key value =>
    (s.applyCommitTargetedEpochPageZeroFeature crypto sender key value).1

def events (crypto : Crypto) (s : Ledger) : HoldOp → List HoldEvent
  | .reserve key value =>
    match (s.applyTargetedSpendReserveFeature crypto key value).2 with
    | .error _ => []
    | .ok result => if result.idempotent then [] else [.accepted (HoldsMatch.reservedOf value)]
  | .record key value =>
    match (s.applyRecordUsageReceiptFeature crypto key value).2 with
    | .error _ => []
    | .ok result =>
      let body := value.receipt.body
      if result.idempotent ∨ ¬ body.final then []
      else [.closed body.reservationId (some (body.auOwedCum - body.billingPriorAuOwedCum))]
  | .close key value expiry =>
    match (s.applyCloseUsageReservationFeature crypto key value expiry).2 with
    | .error _ => []
    | .ok result =>
      if result.idempotent then []
      else [.closed value.reservationId
        ((s.receipts.head.get value.attempt).map ReceiptHead.incrementalAu)]
  | .page sender key value =>
    pageEvents (s.applyTargetedEpochFeature crypto sender key value) value.allocations
  | .pageZero sender key value =>
    pageEvents (s.applyCommitTargetedEpochPageZeroFeature crypto sender key value) value.allocations

end HoldOp

inductive HoldOp.Effect (crypto : Crypto) (s : Ledger) : HoldOp → Ledger → List HoldEvent → Prop
  | reserveRejected {key value message} (hprepare : s.prepareReserve crypto key value = .error message) :
      Effect crypto s (.reserve key value) s []
  | reserveRepeated {key value result} (hprepare : s.prepareReserve crypto key value = .ok (.inl result)) :
      Effect crypto s (.reserve key value) s []
  | reserved {key value} (plan : ReservePlan) (hprepare : s.prepareReserve crypto key value = .ok (.inr plan))
      (hnew : NewReservation s value plan) :
      Effect crypto s (.reserve key value) (s.writeReservation plan) [.accepted (HoldsMatch.reservedOf value)]
  | recordRejected {key value message} (hprepare : s.prepareRecord crypto key value = .error message) :
      Effect crypto s (.record key value) s []
  | recordRepeated {key value result}
      (hprepare : s.prepareRecord crypto key value = .ok (.repeated, result)) :
      Effect crypto s (.record key value) s []
  | advanced {key value result} (head : ReceiptHead)
      (hprepare : s.prepareRecord crypto key value = .ok (.advance value.receipt.body.attempt head, result))
      (hexisting : ∀ existing ∈ s.receipts.head.get value.receipt.body.attempt, existing.settlementReady = false)
      (hready : head.settlementReady = false) (hnew : NewReceipt s value.receipt.body head) :
      Effect crypto s (.record key value)
        { s with receipts := s.receipts.writeHead value.receipt.body.attempt head } []
  | final {key value result} (plan : ClosePlan) (reservation : ReservationRecord)
      (hprepare : s.prepareRecord crypto key value = .ok (.final plan reservation, result))
      (hclosing : Closing s key plan reservation)
      (hid : plan.session.reservationId = value.receipt.body.reservationId)
      (hhead : (plan.head.map fun entry => entry.1.incrementalAu) =
        some (value.receipt.body.auOwedCum - value.receipt.body.billingPriorAuOwedCum))
      (hnew : ∀ head append metadata, plan.head = some (head, append, metadata) →
        plan.session.attempt = value.receipt.body.attempt ∧ NewReceipt s value.receipt.body head) :
      Effect crypto s (.record key value) (s.writeClosePlan plan reservation)
        [.closed value.receipt.body.reservationId
          (some (value.receipt.body.auOwedCum - value.receipt.body.billingPriorAuOwedCum))]
  | closeRejected {key value expiry message}
      (hprepare : s.prepareClose crypto key value expiry = .error message) :
      Effect crypto s (.close key value expiry) s []
  | closeRepeated {key value expiry result}
      (hprepare : s.prepareClose crypto key value expiry = .ok (none, result)) :
      Effect crypto s (.close key value expiry) s []
  | closed {key value expiry result} (plan : ClosePlan) (reservation : ReservationRecord)
      (hprepare : s.prepareClose crypto key value expiry = .ok (some (plan, reservation), result))
      (hclosed : ClosedReservation s key value plan reservation) :
      Effect crypto s (.close key value expiry) (s.writeClosePlan plan reservation)
        [.closed value.reservationId ((s.receipts.head.get value.attempt).map ReceiptHead.incrementalAu)]
  | page {sender key value} (earnings : List TargetedEarning) (transition : Option CommitTransition)
      (houtcome : PageOutcome crypto s sender key { value with earnings := earnings } transition
        (s.applyTargetedEpochFeature crypto sender key value)) :
      Effect crypto s (.page sender key value) (s.applyTargetedEpochFeature crypto sender key value).1
        (pageEvents (s.applyTargetedEpochFeature crypto sender key value) value.allocations)
  | pageZero {sender key value} (earnings : List TargetedEarning) (transition : Option CommitTransition)
      (houtcome : PageOutcome crypto s sender key { value.targetedValue with earnings := earnings } transition
        (s.applyCommitTargetedEpochPageZeroFeature crypto sender key value)) :
      Effect crypto s (.pageZero sender key value)
        (s.applyCommitTargetedEpochPageZeroFeature crypto sender key value).1
        (pageEvents (s.applyCommitTargetedEpochPageZeroFeature crypto sender key value) value.allocations)

theorem HoldOp.effect (op : HoldOp) (hlegacy : ∀ account, s.holds.hold.get account = none) :
    op.Effect crypto s (op.run crypto s) (op.events crypto s) := by
  cases op with
  | reserve key value =>
    dsimp only [run, events, applyTargetedSpendReserveFeature]
    cases hprepare : s.prepareReserve crypto key value with
    | error message => exact .reserveRejected hprepare
    | ok found =>
      obtain ⟨result, rfl, hidempotent⟩ | ⟨plan, rfl, hnew⟩ := prepareReserve_eq_ok (hlegacy _) hprepare
      . dsimp only
        rw [hidempotent]
        exact .reserveRepeated hprepare
      . obtain ⟨result, hresult, hidempotent⟩ := prepareReserve_result hprepare
        dsimp only
        rw [hresult]
        dsimp only
        rw [hidempotent]
        exact .reserved plan hprepare hnew
  | record key value =>
    dsimp only [run, events, applyRecordUsageReceiptFeature]
    cases hprepare : s.prepareRecord crypto key value with
    | error message => exact .recordRejected hprepare
    | ok answer =>
      obtain ⟨plan, result⟩ := answer
      have hrecorded := prepareRecord_eq_ok (hlegacy _) hprepare
      dsimp only
      generalize hidempotent : result.idempotent = idempotent at hrecorded ⊢
      cases hrecorded with
      | repeated => exact .recordRepeated hprepare
      | advance head hfinal hexisting hready hnew =>
        rw [if_pos (.inr (by simp [hfinal]))]
        exact .advanced head hprepare hexisting hready hnew
      | final plan reservation hfinal hclosing hid hhead hnew =>
        rw [if_neg (by simp [hfinal])]
        exact .final plan reservation hprepare hclosing hid hhead hnew
  | close key value expiry =>
    dsimp only [run, events, applyCloseUsageReservationFeature]
    cases hprepare : s.prepareClose crypto key value expiry with
    | error message => exact .closeRejected hprepare
    | ok answer =>
      obtain ⟨found, result⟩ := answer
      obtain ⟨rfl, hidempotent⟩ | ⟨plan, reservation, rfl, hidempotent, hclosed⟩ :=
        prepareClose_eq_ok (hlegacy _) hprepare
      . dsimp only
        rw [hidempotent]
        exact .closeRepeated hprepare
      . dsimp only
        rw [hidempotent]
        exact .closed plan reservation hprepare hclosed
  | page sender key value =>
    obtain ⟨earnings, houtcome⟩ := page_outcome crypto s sender key value
    exact .page earnings none houtcome
  | pageZero sender key value =>
    obtain ⟨earnings, transition, houtcome⟩ := pageZero_outcome crypto s sender key value
    exact .pageZero earnings transition houtcome

theorem PageOutcome.holds_invariant {sender : PublicKey} {key : Digest} {value : TargetedEpochValue}
    {transition : Option CommitTransition} {outcome : Outcome ApplyResult}
    (houtcome : PageOutcome crypto s sender key value transition outcome)
    (hlegacy : ∀ account, s.holds.hold.get account = none) (inv : Holds → Prop) (hstart : inv s.holds)
    (hstep : ∀ holds head a session next, inv holds → ConsumedReservation s.holds holds head a session next →
      inv next) : inv outcome.1.holds := by
  cases houtcome with
  | rejected | replayed | stopped => exact hstart
  | settled _ _ _ hfeature hplan =>
    have hfresh := consumed_none_of_settled hfeature hplan
    obtain ⟨bindings, hbound⟩ := reservationBindings_eq_ok (prepareFeature_eq_ok hfeature).bindings_ok
    have hlast : inv bindings.holds := by
      refine Except.foldlM_invariant (fun b => inv b.holds) ?_ hstart hbound.bind_ok
      intro b a _ ha hinv hbound
      obtain ⟨head, hbound⟩ := bindAllocation_eq_ok hbound
      obtain ⟨session, hconsumed⟩ := consumeReservation_eq_ok (hlegacy _) (hbound.holds_ok (hfresh a ha))
      exact hstep _ _ _ _ _ hinv hconsumed
    rw [← hbound.holds_eq] at hlast
    exact hlast

theorem PageOutcome.holdsMatch {sender : PublicKey} {key : Digest} {value : TargetedEpochValue}
    {transition : Option CommitTransition} {outcome : Outcome ApplyResult}
    (houtcome : PageOutcome crypto s sender key value transition outcome)
    (h : HoldsMatch s.holds s.receipts reserved) :
    HoldsMatch outcome.1.holds outcome.1.receipts
      ((pageEvents outcome value.allocations).foldl HoldEvent.apply reserved) := by
  cases houtcome with
  | rejected | replayed | stopped => exact h
  | settled _ _ _ hfeature hplan =>
    obtain ⟨page⟩ := newPage_of_plan hplan
    have hfresh := consumed_none_of_settled hfeature hplan
    obtain ⟨_, hbound⟩ := reservationBindings_eq_ok (prepareFeature_eq_ok hfeature).bindings_ok
    have hmatch := h.bindAllocations h (fun r hr _ => hr) hfresh hbound.bind_ok
    dsimp only [pageEvents]
    rw [page.not_idempotent]
    rw [← hbound.holds_eq] at hmatch
    exact ⟨hmatch.noLegacy, hmatch.ids_nodup, hmatch.attempts_nodup, hmatch.of_session, hmatch.recorded,
      hmatch.anchored, hmatch.indexed, hmatch.reserved_eq⟩

theorem HoldOp.Effect.holdsMatch {op : HoldOp} {s' : Ledger} {events : List HoldEvent}
    (heffect : op.Effect crypto s s' events) (h : HoldsMatch s.holds s.receipts reserved) :
    HoldsMatch s'.holds s'.receipts (events.foldl HoldEvent.apply reserved) := by
  cases heffect with
  | reserved plan hprepare hnew => exact h.accept hnew
  | advanced _ hprepare _ _ hnew =>
    exact ⟨h.noLegacy, h.ids_nodup, h.attempts_nodup, h.of_session, h.recorded, h.anchored, h.indexed,
      h.reserved_eq⟩
  | final plan reservation hprepare hclosing hid hhead hnew =>
    rw [← hid, ← hhead]
    exact h.close hclosing
  | closed plan reservation hprepare hclosed =>
    rw [← hclosed.reservationId_eq, ← hclosed.head_eq]
    exact h.close hclosed.toClosing
  | page earnings transition houtcome | pageZero earnings transition houtcome => exact houtcome.holdsMatch h
  | _ => exact h

/-! Runs -/

/--
The runs of these operations, accepted or not, between which anything may happen that leaves their records alone.
-/
inductive HoldRun (crypto : Crypto) : Ledger → List HoldEvent → Prop
  | start : HoldRun crypto Ledger.empty []
  | op {s : Ledger} {history : List HoldEvent} (op : HoldOp) (hs : HoldRun crypto s history) :
      HoldRun crypto (op.run crypto s) (history ++ op.events crypto s)
  | other {s s' : Ledger} {history : List HoldEvent} (hs : HoldRun crypto s history)
      (hholds : s'.holds = s.holds) (hreservation : s'.receipts.reservation = s.receipts.reservation)
      (hbilling : s'.receipts.billing = s.receipts.billing) : HoldRun crypto s' history

theorem HoldRun.holdsMatch {history : List HoldEvent} (h : HoldRun crypto s history) :
    HoldsMatch s.holds s.receipts (outstanding history) := by
  induction h with
  | start => exact HoldsMatch.empty
  | op op _ ih =>
    rw [outstanding, List.foldl_append]
    exact (op.effect ih.noLegacy).holdsMatch ih
  | other _ hholds hreservation hbilling ih =>
    rw [hholds]
    refine { ih with recorded := ?_, anchored := ?_ }
    . rw [hreservation]
      exact ih.recorded
    . rw [hbilling]
      exact ih.anchored

/--
The reserved amount of an account is what its open reservations may spend and what the receipts of its
closed ones owe that are not settled yet.
-/
theorem reservedAu_eq_outstanding {history : List HoldEvent} (hrun : HoldRun crypto s history)
    (user : PublicKey) (rail : Rail) :
    (s.holds.targetedSpendSummary user rail).reservedAu = Reserved.openAu (outstanding history) user rail +
        Reserved.owedAu (outstanding history) user rail := by
  rw [hrun.holdsMatch.reserved_eq, Reserved.sum_heldFor]

def talkPrice : PriceRecord where
  enclaveId := 40
  modelId := "m"
  ver := 1
  terms := ⟨[⟨"audio_second", 1, 1⟩], 0, 0⟩
  effectiveAt := 0
  setBy := 10
  setByRole := .admin
  ctxBracket := none
  ctxBracketTableVer := none
  seed := none
  market := none

def talkLedger : Ledger :=
  { Ledger.empty with
    registry := { Registry.empty with
      admin := some 10
      rules := some ⟨1, 0⟩
      providers := Table.empty.put 30 ⟨.active, [.tnk], [40], 0⟩
      enclaves := Table.empty.put 40 ⟨.active, .admin, "m", some .stt, 0, [.audio], [30]⟩
      serves := Table.empty.put (30, 40) ⟨.active, 0, [.audio], [], none, none⟩
      payoutBindings := Table.empty.put (.tnk, 30, 4) ⟨true, 30, .tnk, 4, 1, "t", none, none, none⟩
      payoutPointers := Table.empty.put (30, .tnk) ⟨4, none, 0⟩ }
    market := { Ledger.empty.market with
      schedule := Table.empty.put (40, none) ⟨some talkPrice, none⟩
      record := Table.empty.put ((40, none), 1) talkPrice
      modelRef := Table.empty.put "m" ⟨some .stt, [⟨"audio_second", 1, 1⟩], none, some 1⟩ }
    accounts := { Ledger.empty.accounts with
      balance := Table.empty.put (20, .tnk) ⟨1000, 0, none⟩ } }

def talkVoucher (n maxSpendAu : Nat) : SpendVoucher where
  schemaVersion := spendVoucherSchemaVersion
  sessionId := 100 + n
  billingId := 200 + n
  billingAttempt := 0
  billingPriorUsage := []
  billingPriorAuOwedCum := 0
  billingEpoch := 1
  reservationId := 300 + n
  reservationExpiresAfterEpoch := 25
  reservationReceiptGraceEpochs := 6
  user := 20
  provider := 30
  payoutRevision := 4
  rail := .tnk
  enclaveId := 40
  modelId := "m"
  priceVer := 1
  lockedRateMap := [⟨"audio_second", 1, 1⟩]
  lockedPerReqAu := 0
  lockedMinSessionAu := 0
  servedCtx := 0
  requiredModalities := [.audio]
  requiredSpecialities := []
  workflow := none
  ctxBracket := none
  ctxBracketTableVer := none
  rulesVer := 1
  maxSpendAu := maxSpendAu
  checkpointTokens := 1
  checkpointMs := 1

def talkReserve (n maxSpendAu : Nat) : SpendReserveValue where
  payoutRevision := 4
  contractVersion := contractVersion
  sessionId := 100 + n
  reservationId := 300 + n
  reservationExpiresAfterEpoch := 25
  reservationReceiptGraceEpochs := 6
  epoch := 1
  time := 0
  rail := .tnk
  user := 20
  provider := 30
  enclaveId := 40
  enclavePubkey := 41
  modelId := "m"
  priceVer := 1
  rulesVer := 1
  servedCtx := 0
  requiredModalities := [.audio]
  requiredSpecialities := []
  workflow := none
  ctxBracket := none
  ctxBracketTableVer := none
  maxSpendAu := maxSpendAu
  voucher := talkVoucher n maxSpendAu
  userSig := 0
  providerSig := 0

def talkReceipt (n seconds : Nat) : RecordReceiptValue where
  contractVersion := contractVersion
  epoch := 1
  payoutRevision := 4
  receipt := plainReceipt n .tnk ⟨"audio_second", 1, 1⟩ seconds
  providerSig := 0

def talkReserved : Ledger := (HoldOp.reserve 300 (talkReserve 0 500)).run plainHost talkLedger

def talkRecorded : Ledger := (HoldOp.record 1 (talkReceipt 0 4)).run plainHost talkReserved

def talkHistory : List HoldEvent :=
  (HoldOp.reserve 300 (talkReserve 0 500)).events plainHost talkLedger ++
    (HoldOp.record 1 (talkReceipt 0 4)).events plainHost talkReserved

theorem talkRecorded_run : HoldRun plainHost talkRecorded talkHistory := by
  have hledger : HoldRun plainHost talkLedger [] := .other .start rfl rfl rfl
  exact .op _ (.op _ hledger)

theorem reservedAu_eq_outstanding_talk : ∃ s history, HoldRun plainHost s history ∧
      Reserved.openAu (outstanding history) 20 .tnk = 300 ∧
      Reserved.owedAu (outstanding history) 20 .tnk = 4 ∧
      (s.holds.targetedSpendSummary 20 .tnk).reservedAu = 300 + 4 := by
  have hrun := HoldRun.op (.reserve 301 (talkReserve 1 300)) talkRecorded_run
  refine ⟨_, _, hrun, by decide +kernel, by decide +kernel, ?_⟩
  rw [reservedAu_eq_outstanding hrun]
  decide +kernel

/--
The final receipt has closed the only reservation, and its amount is still reserved.
-/
theorem reservedAu_after_close : ∃ s history, HoldRun plainHost s history ∧
      Reserved.openAu (outstanding history) 20 .tnk = 0 ∧
      (s.holds.targetedSpendSummary 20 .tnk).reservedAu = 4 :=
  ⟨talkRecorded, talkHistory, talkRecorded_run, by decide +kernel, by decide +kernel⟩

end Ledger

end Mayhem
