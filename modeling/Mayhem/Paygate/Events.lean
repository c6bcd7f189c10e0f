import Mayhem.Lib.Reject
import Mayhem.Lib.Run
import Mayhem.Lib.Table

def Table.putSome {K V : Type} [DecidableEq K] (t : Table K V) (key : Option K) (v : V) : Table K V :=
  match key with
  | some k => t.put k v
  | none => t

theorem Table.exists_get_putSome {K V : Type} [DecidableEq K] {t : Table K V} {f : V → Option K} {k : K} {v : V}
    (h : k ∈ f v ∨ ∃ w ∈ t.get k, f w = some k) : ∃ w ∈ (t.putSome (f v) v).get k, f w = some k := by
  rcases hkey : f v with _ | k'
  . rw [hkey] at h
    exact h.resolve_left (Option.not_mem_none k)
  . by_cases heq : k = k'
    . subst heq
      exact ⟨v, Table.get_put_self t k v, hkey⟩
    . rw [hkey] at h
      obtain ⟨w, hw, hown⟩ := h.resolve_left fun hmem => heq (Option.some.inj hmem).symm
      exact ⟨w, (Table.get_put_of_ne t v heq).trans hw, hown⟩

namespace Mayhem

namespace Paygate

inductive PaygateError where
  | io
  | json
  | invalidConfig (message : String)
deriving DecidableEq

inductive RecordKind where
  | deposit
  | chargeback
  | unsupported
deriving DecidableEq

structure StripeEventRecord where
  kind : RecordKind
  eventId : String
  paymentIntent : Option String
  charge : Option String
  au : Nat
  amountMinor : Option Nat
  extRefHash : String
deriving DecidableEq

structure StripeChargebackTotals where
  amountMinor : Nat
  au : Nat

structure StripeEventStore where
  seen : Finset String
  processing : Finset String
  depositsByPaymentIntent : Table String StripeEventRecord
  depositsByCharge : Table String StripeEventRecord
  chargebacksByDeposit : Table String StripeChargebackTotals
  processingChargebackSources : Table String String

inductive StripeEventBegin where
  | started
  | duplicate
deriving DecidableEq

namespace StripeEventStore

def empty : StripeEventStore := ⟨∅, ∅, .empty, .empty, .empty, .empty⟩

def begin (store : StripeEventStore) (eventId : String) : StripeEventStore × StripeEventBegin :=
  if eventId ∈ store.seen ∨ eventId ∈ store.processing then (store, .duplicate)
  else ({ store with processing := insert eventId store.processing }, .started)

def fail (store : StripeEventStore) (eventId : String) : StripeEventStore :=
  { store with
    processing := store.processing.erase eventId
    processingChargebackSources := store.processingChargebackSources.del eventId }

def lookupDeposit (store : StripeEventStore) (paymentIntent charge : Option String) : Option StripeEventRecord :=
  (paymentIntent.bind store.depositsByPaymentIntent.get).or (charge.bind store.depositsByCharge.get)

def chargebackTotals (store : StripeEventStore) (extRefHash : String) : StripeChargebackTotals :=
  (store.chargebacksByDeposit.get extRefHash).getD ⟨0, 0⟩

def putTotals (store : StripeEventStore) (extRefHash : String) (amountMinor au : Nat) : StripeEventStore :=
  { store with chargebacksByDeposit := store.chargebacksByDeposit.put extRefHash ⟨amountMinor, au⟩ }

def indexRecord (store : StripeEventStore) (record : StripeEventRecord) :
    StripeEventStore × Except PaygateError Unit :=
  match record.kind with
  | .deposit =>
    ({ store with
      depositsByPaymentIntent := store.depositsByPaymentIntent.putSome record.paymentIntent record
      depositsByCharge := store.depositsByCharge.putSome record.charge record }, .ok ())
  | .chargeback =>
    match record.amountMinor with
    | none => (store, .error (.invalidConfig "Stripe chargeback record has no integration amount"))
    | some amountMinor =>
      let totals := store.chargebackTotals record.extRefHash
      -- the entry is made before the sums are checked, and the first sum is stored before the second
      if 2 ^ 64 ≤ totals.amountMinor + amountMinor then
        (store.putTotals record.extRefHash totals.amountMinor totals.au,
          .error (.invalidConfig "Stripe chargeback integration amount overflow"))
      else if 2 ^ 128 ≤ totals.au + record.au then
        (store.putTotals record.extRefHash (totals.amountMinor + amountMinor) totals.au,
          .error (.invalidConfig "Stripe chargeback AU overflow"))
      else (store.putTotals record.extRefHash (totals.amountMinor + amountMinor) (totals.au + record.au), .ok ())
  | .unsupported => (store, .error (.invalidConfig "Stripe event record has an unsupported kind"))

def see (store : StripeEventStore) (eventId : String) : StripeEventStore :=
  { store with seen := insert eventId store.seen }

end StripeEventStore

/--
What one append leaves in the file: a whole line, the text of a record without its line end, or a part of it.
-/
inductive Chunk where
  | line (record : StripeEventRecord)
  | text (record : StripeEventRecord)
  | torn

inductive WriteResult where
  | notWritten
  | torn
  | unterminated
  | unflushed
  | written
deriving DecidableEq

def WriteResult.chunks (record : StripeEventRecord) : WriteResult → List Chunk
  | .notWritten => []
  | .torn => [.torn]
  | .unterminated => [.text record]
  | .unflushed | .written => [.line record]

/--
The records of the lines, up to the first line that holds anything else than one record.
-/
def fileLines : List Chunk → List (Option StripeEventRecord)
  | [] => []
  | .line record :: chunks => some record :: fileLines chunks
  | [.text record] => [some record]
  | _ => [none]

def loadLine (store : StripeEventStore) : Option StripeEventRecord → Except PaygateError StripeEventStore
  | none => .error .json
  | some record =>
    let indexed := (store.see record.eventId).indexRecord record
    indexed.2.map fun _ => indexed.1

def load (file : List Chunk) : Except PaygateError StripeEventStore :=
  (fileLines file).foldlM loadLine .empty

structure StripeEvents where
  store : StripeEventStore
  file : List Chunk

def StripeEvents.complete (s : StripeEvents) (record : StripeEventRecord) (write : WriteResult) :
    StripeEvents × Except PaygateError Unit :=
  let store := s.store.fail record.eventId
  if record.eventId ∈ store.seen then (⟨store, s.file⟩, .ok ())
  else
    let store := store.see record.eventId
    let file := s.file ++ write.chunks record
    if write = .written then
      let (store, result) := store.indexRecord record
      (⟨store, file⟩, result)
    else (⟨store, file⟩, .error .io)

inductive StoreCall where
  | begin (eventId : String)
  | fail (eventId : String)
  | complete (record : StripeEventRecord) (write : WriteResult)
  | reopen

inductive StoreStep (s : StripeEvents) : StoreCall → StripeEvents → Prop
  | begin (eventId : String) : StoreStep s (.begin eventId) { s with store := (s.store.begin eventId).1 }
  | fail (eventId : String) : StoreStep s (.fail eventId) { s with store := s.store.fail eventId }
  | complete (record : StripeEventRecord) (write : WriteResult) :
      StoreStep s (.complete record write) (s.complete record write).1
  | reopen {store : StripeEventStore} (hload : load s.file = .ok store) : StoreStep s .reopen ⟨store, s.file⟩

namespace StripeEventStore

variable {store store' : StripeEventStore} {record other : StripeEventRecord}

/--
A dispute of a deposit finds a deposit of its payment intent and of its charge, and a chargeback is in the
totals of its deposit.
-/
def Indexed (store : StripeEventStore) (record : StripeEventRecord) : Prop :=
  match record.kind with
  | .deposit =>
    (∀ paymentIntent ∈ record.paymentIntent, ∀ charge,
      ∃ found ∈ store.lookupDeposit (some paymentIntent) charge, found.paymentIntent = some paymentIntent) ∧
    ∀ charge ∈ record.charge, ∃ found ∈ store.lookupDeposit none (some charge), found.charge = some charge
  | .chargeback =>
    ∃ amountMinor ∈ record.amountMinor, amountMinor ≤ (store.chargebackTotals record.extRefHash).amountMinor ∧
      record.au ≤ (store.chargebackTotals record.extRefHash).au
  | .unsupported => False

def Indexable (store : StripeEventStore) (record : StripeEventRecord) : Prop :=
  match record.kind with
  | .deposit => True
  | .chargeback =>
    ∃ amountMinor ∈ record.amountMinor, (store.chargebackTotals record.extRefHash).amountMinor +
      amountMinor < 2 ^ 64 ∧
      (store.chargebackTotals record.extRefHash).au + record.au < 2 ^ 128
  | .unsupported => False

theorem forall_lookupDeposit_iff {paymentIntent : String} {P : StripeEventRecord → Prop} :
    (∀ charge, ∃ found ∈ store.lookupDeposit (some paymentIntent) charge, P found) ↔
      ∃ found ∈ store.depositsByPaymentIntent.get paymentIntent, P found := by
  constructor
  . intro h
    simpa [lookupDeposit] using h none
  . rintro ⟨found, hfound, hp⟩ charge
    exact ⟨found, by simp [lookupDeposit, Option.mem_def.mp hfound], hp⟩

theorem indexRecord_of_indexable (h : store.Indexable record) : (store.indexRecord record).2 = .ok () := by
  unfold Indexable at h
  unfold indexRecord
  cases hkind : record.kind with
  | deposit => rfl
  | chargeback =>
    simp only [hkind] at h ⊢
    obtain ⟨_, hamount, hminor, hau⟩ := h
    rw [Option.mem_def.mp hamount]
    dsimp only
    rw [if_neg (Nat.not_le.mpr hminor), if_neg (Nat.not_le.mpr hau)]
  | unsupported =>
    rw [hkind] at h
    cases h

theorem seen_indexRecord : (store.indexRecord record).1.seen = store.seen := by
  unfold indexRecord
  split
  . rfl
  . split
    . rfl
    . dsimp only
      split_ifs <;> rfl
  . rfl

structure Grows (store store' : StripeEventStore) : Prop where
  paymentIntent : ∀ k, (∃ found ∈ store.depositsByPaymentIntent.get k, found.paymentIntent = some k) →
    ∃ found ∈ store'.depositsByPaymentIntent.get k, found.paymentIntent = some k
  charge : ∀ k, (∃ found ∈ store.depositsByCharge.get k, found.charge = some k) →
    ∃ found ∈ store'.depositsByCharge.get k, found.charge = some k
  totals : ∀ ref, (store.chargebackTotals ref).amountMinor ≤ (store'.chargebackTotals ref).amountMinor ∧
    (store.chargebackTotals ref).au ≤ (store'.chargebackTotals ref).au

theorem Indexed.of_grows (h : store.Indexed record) (hgrows : store.Grows store') : store'.Indexed record := by
  unfold Indexed at h ⊢
  cases hkind : record.kind with
  | deposit =>
    simp only [hkind, forall_lookupDeposit_iff] at h ⊢
    exact ⟨fun k hk => hgrows.paymentIntent k (h.1 k hk), fun k hk => hgrows.charge k (h.2 k hk)⟩
  | chargeback =>
    simp only [hkind] at h ⊢
    obtain ⟨amountMinor, hmem, hminor, hau⟩ := h
    exact ⟨amountMinor, hmem, hminor.trans (hgrows.totals _).1, hau.trans (hgrows.totals _).2⟩
  | unsupported =>
    rw [hkind] at h
    cases h

theorem indexRecord_grows (hok : (store.indexRecord record).2 = .ok ()) :
    store.Grows (store.indexRecord record).1 ∧ (store.indexRecord record).1.Indexed record := by
  unfold indexRecord at hok ⊢
  unfold Indexed
  cases hkind : record.kind with
  | deposit =>
    simp only [forall_lookupDeposit_iff]
    constructor
    . exact ⟨fun _ h => Table.exists_get_putSome (.inr h), fun _ h => Table.exists_get_putSome (.inr h),
        fun _ => ⟨Nat.le_refl _, Nat.le_refl _⟩⟩
    . exact ⟨fun _ hk => Table.exists_get_putSome (.inl hk), fun _ hk => Table.exists_get_putSome (.inl hk)⟩
  | chargeback =>
    simp only [hkind] at hok ⊢
    cases hamount : record.amountMinor with
    | none =>
      rw [hamount] at hok
      cases hok
    | some amountMinor =>
      simp only [hamount] at hok ⊢
      split_ifs at hok ⊢
      simp only [chargebackTotals, putTotals]
      refine ⟨⟨fun _ h => h, fun _ h => h, fun ref => ?_⟩, amountMinor, rfl, ?_⟩
      . simp only [chargebackTotals, Table.get_put]
        split
        . next heq =>
          rw [heq]
          exact ⟨Nat.le_add_right _ _, Nat.le_add_right _ _⟩
        . exact ⟨Nat.le_refl _, Nat.le_refl _⟩
      . rw [Table.get_put_self]
        exact ⟨Nat.le_add_left _ _, Nat.le_add_left _ _⟩
  | unsupported =>
    rw [hkind] at hok
    cases hok

end StripeEventStore

structure Recorded (store : StripeEventStore) (records : List StripeEventRecord) : Prop where
  of_seen : ∀ eventId ∈ store.seen, ∃ record ∈ records, record.eventId = eventId
  indexed : ∀ record ∈ records, store.Indexed record

namespace Recorded

variable {store store' : StripeEventStore} {record : StripeEventRecord} {records more : List StripeEventRecord}

theorem empty : Recorded .empty [] := ⟨by simp [StripeEventStore.empty], by simp⟩

theorem indexRecord (h : Recorded store records)
    (hok : ((store.see record.eventId).indexRecord record).2 = .ok ()) :
    Recorded ((store.see record.eventId).indexRecord record).1 (records ++ [record]) := by
  obtain ⟨hgrows, hindexed⟩ := StripeEventStore.indexRecord_grows hok
  constructor
  . intro eventId hseen
    rw [StripeEventStore.seen_indexRecord, StripeEventStore.see, Finset.mem_insert] at hseen
    rcases hseen with rfl | hseen
    . exact ⟨record, by simp, rfl⟩
    . obtain ⟨found, hfound, hid⟩ := h.of_seen eventId hseen
      exact ⟨found, List.mem_append_left _ hfound, hid⟩
  . intro found hfound
    rcases List.mem_append.mp hfound with hfound | hfound
    . have hkept : (store.see record.eventId).Indexed found := h.indexed found hfound
      exact hkept.of_grows hgrows
    . rw [List.mem_singleton.mp hfound]
      exact hindexed

theorem load (h : Recorded store records) (hload : (more.map some).foldlM loadLine store = .ok store') :
    Recorded store' (records ++ more) := by
  induction more generalizing store records with
  | nil =>
    cases hload
    rw [List.append_nil]
    exact h
  | cons record more ih =>
    rw [List.map_cons, List.foldlM_cons, Except.bind_accepts_iff] at hload
    obtain ⟨_, hnext, hload⟩ := hload
    dsimp only [loadLine] at hnext
    cases hok : ((store.see record.eventId).indexRecord record).2 with
    | error =>
      rw [hok] at hnext
      cases hnext
    | ok =>
      rw [hok] at hnext
      cases hnext
      have hrecorded := ih (h.indexRecord hok) hload
      rw [List.append_assoc] at hrecorded
      exact hrecorded

end Recorded

theorem fileLines_map_line (records : List StripeEventRecord) :
    fileLines (records.map .line) = records.map some := by
  induction records with
  | nil => rfl
  | cons _ records ih => rw [List.map_cons, fileLines, ih, List.map_cons]

namespace StripeEvents

variable {s s' : StripeEvents}

def empty : StripeEvents := ⟨.empty, []⟩

def Findable (s : StripeEvents) (eventId : String) : Prop :=
  eventId ∈ s.store.processing ∨ ∃ record, .line record ∈ s.file ∧ record.eventId = eventId ∧
    s.store.Indexed record

/--
A completion of an event that was not seen before writes its line, and its record can be indexed.
-/
def Completes (s : StripeEvents) : StoreCall → Prop
  | .complete record write =>
    record.eventId ∈ s.store.seen ∨ write = .written ∧ s.store.Indexable record
  | .begin _ | .fail _ | .reopen => True

def Sound (s : StripeEvents) : Prop :=
  ∃ records, s.file = records.map .line ∧ Recorded s.store records

theorem Sound.step {call : StoreCall} (h : s.Sound) (hcompletes : s.Completes call)
    (hstep : StoreStep s call s') : s'.Sound := by
  obtain ⟨records, hfile, hrecorded⟩ := h
  cases hstep with
  | begin eventId =>
    refine ⟨records, hfile, ?_⟩
    dsimp only [StripeEventStore.begin]
    split
    . exact hrecorded
    . exact ⟨hrecorded.of_seen, hrecorded.indexed⟩
  | fail eventId => exact ⟨records, hfile, hrecorded.of_seen, hrecorded.indexed⟩
  | complete record =>
    have hfail : Recorded (s.store.fail record.eventId) records := ⟨hrecorded.of_seen, hrecorded.indexed⟩
    dsimp only [complete]
    split
    . exact ⟨records, hfile, hfail⟩
    . next hnew =>
      obtain ⟨rfl, hindexable⟩ := hcompletes.resolve_left hnew
      rw [if_pos rfl]
      have hok : (((s.store.fail record.eventId).see record.eventId).indexRecord record).2 = .ok () :=
        StripeEventStore.indexRecord_of_indexable hindexable
      refine ⟨records ++ [record], ?_, hfail.indexRecord hok⟩
      rw [hfile, List.map_append]
      rfl
  | reopen hload =>
    refine ⟨records, hfile, ?_⟩
    rw [load, hfile, fileLines_map_line] at hload
    exact Recorded.load .empty hload

theorem duplicate_findable
    (hrun : Relation.ReflTransGen (fun s s' => ∃ call, s.Completes call ∧ StoreStep s call s') empty s)
    {eventId : String} (hduplicate : (s.store.begin eventId).2 = .duplicate) : s.Findable eventId := by
  have hsound : s.Sound := by
    refine Run.invariant Sound ⟨[], rfl, .empty⟩ ?_ hrun
    rintro s s' h ⟨call, hcompletes, hstep⟩
    exact h.step hcompletes hstep
  obtain ⟨_, hfile, hrecorded⟩ := hsound
  rw [StripeEventStore.begin] at hduplicate
  split at hduplicate
  . next hknown =>
    rcases hknown with hseen | hprocessing
    . obtain ⟨record, hrecord, hid⟩ := hrecorded.of_seen eventId hseen
      exact .inr ⟨record, hfile ▸ List.mem_map_of_mem hrecord, hid, hrecorded.indexed record hrecord⟩
    . exact .inl hprocessing
  . cases hduplicate

def cardDeposit : StripeEventRecord := ⟨.deposit, "evt_1", some "pi_1", some "ch_1", 10, some 100, "ref_1"⟩

def completed (write : WriteResult) : StripeEvents :=
  (StripeEvents.complete { empty with store := (empty.store.begin "evt_1").1 } cardDeposit write).1

theorem duplicate_findable_completed : (completed .written).Findable "evt_1" :=
  duplicate_findable (.tail (.single ⟨.begin "evt_1", trivial, .begin "evt_1"⟩)
    ⟨.complete cardDeposit .written, Or.inr ⟨rfl, trivial⟩, .complete cardDeposit .written⟩) (by decide)

/--
After a write that failed the event is a duplicate, and its deposit is neither on disk nor found.
-/
theorem duplicate_not_findable :
    Relation.ReflTransGen (fun s s' => ∃ call, StoreStep s call s') empty (completed .notWritten) ∧
      ((completed .notWritten).store.begin "evt_1").2 = .duplicate ∧
      ¬ (completed .notWritten).Findable "evt_1" ∧
      (completed .notWritten).store.lookupDeposit (some "pi_1") (some "ch_1") = none := by
  refine ⟨.tail (.single ⟨_, .begin "evt_1"⟩) ⟨_, .complete cardDeposit .notWritten⟩, by decide, ?_, rfl⟩
  rintro (hprocessing | ⟨_, hline, -⟩)
  . exact absurd hprocessing (by decide)
  . cases hline

end StripeEvents

namespace StripeEventStore

def persistent (store : StripeEventStore) : StripeEventStore :=
  { store with processing := ∅, processingChargebackSources := .empty }

theorem indexRecord_persistent (store : StripeEventStore) (record : StripeEventRecord) :
    store.persistent.indexRecord record =
      ((store.indexRecord record).1.persistent, (store.indexRecord record).2) := by
  unfold indexRecord
  cases record.kind with
  | deposit | unsupported => rfl
  | chargeback =>
    cases record.amountMinor with
    | none => rfl
    | some amountMinor =>
      dsimp only [persistent, chargebackTotals, putTotals]
      split_ifs <;> rfl

end StripeEventStore

namespace StripeEvents

theorem load_step {call : StoreCall} (hsound : s.Sound) (h : load s.file = .ok s.store.persistent)
    (hcompletes : s.Completes call) (hstep : StoreStep s call s') : load s'.file = .ok s'.store.persistent := by
  cases hstep with
  | begin eventId =>
    dsimp only [StripeEventStore.begin]
    split_ifs <;> exact h
  | fail eventId => exact h
  | reopen hload =>
    obtain rfl := Except.ok.inj (h.symm.trans hload)
    exact h
  | complete record write =>
    dsimp only [complete]
    split
    . exact h
    . next hnew =>
      obtain ⟨rfl, hindexable⟩ := hcompletes.resolve_left hnew
      obtain ⟨records, hfile, -⟩ := hsound
      have happended : s.file ++ WriteResult.written.chunks record = (records ++ [record]).map .line := by
        rw [hfile, List.map_append]
        rfl
      rw [load, hfile, fileLines_map_line] at h
      -- the line is read into what the store had indexed before
      have hseen : s.store.persistent.see record.eventId =
        ((s.store.fail record.eventId).see record.eventId).persistent := rfl
      have hok : (((s.store.fail record.eventId).see record.eventId).indexRecord record).2 = .ok () :=
        StripeEventStore.indexRecord_of_indexable hindexable
      rw [if_pos rfl, happended, load, fileLines_map_line, List.map_append, List.foldlM_append, h]
      simp only [List.map_cons, List.map_nil, List.foldlM_cons, List.foldlM_nil, bind_pure, Except.bind_of_ok,
        loadLine, hseen, StripeEventStore.indexRecord_persistent, hok]
      rfl

/--
A restart finds in the file all that the store has indexed, and nothing else.
-/
theorem reload_restores
    (hrun : Relation.ReflTransGen (fun s s' => ∃ call, s.Completes call ∧ StoreStep s call s') empty s) :
    load s.file = .ok s.store.persistent := by
  have h : s.Sound ∧ load s.file = .ok s.store.persistent := by
    refine Run.invariant (fun s => s.Sound ∧ load s.file = .ok s.store.persistent)
      ⟨⟨[], rfl, .empty⟩, rfl⟩ ?_ hrun
    rintro s s' ⟨hsound, h⟩ ⟨call, hcompletes, hstep⟩
    exact ⟨hsound.step hcompletes hstep, load_step hsound h hcompletes hstep⟩
  exact h.2

theorem reload_restores_completed : load (completed .written).file = .ok (completed .written).store.persistent :=
  reload_restores (.tail (.single ⟨.begin "evt_1", trivial, .begin "evt_1"⟩)
    ⟨.complete cardDeposit .written, Or.inr ⟨rfl, trivial⟩, .complete cardDeposit .written⟩)

end StripeEvents

end Paygate

end Mayhem
