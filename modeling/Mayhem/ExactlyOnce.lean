import Mayhem.Lib.Run
import Mayhem.Outstanding

namespace Mayhem

def Receipts.ListedAt (receipts : Receipts) (attempt : BillingAttempt) (epoch page offset : Nat) : Prop :=
  ∃ identities, receipts.epochPage.get (epoch, page) = some identities ∧ identities[offset]? = some attempt

def Receipts.ReadyIn (receipts : Receipts) (attempt : BillingAttempt) (epoch : Nat)
    (position : Option Nat) : Prop :=
  ∃ head, receipts.head.get attempt = some head ∧ head.settlementReady = true ∧
    head.settlementEpoch = some epoch ∧ ∀ n ∈ position, head.indexPosition = some n

def HeadsKept (receipts receipts' : Receipts) : Prop :=
  ∀ attempt head, receipts.head.get attempt = some head → head.settlementReady = true →
    receipts'.head.get attempt = some head

theorem HeadsKept.refl (receipts : Receipts) : HeadsKept receipts receipts := fun _ _ h _ => h

variable {receipts receipts' : Receipts}

theorem HeadsKept.trans {receipts'' : Receipts} (h : HeadsKept receipts receipts')
    (h' : HeadsKept receipts' receipts'') : HeadsKept receipts receipts'' :=
  fun attempt head hhead hready => h' attempt head (h attempt head hhead hready) hready

variable {attempt : BillingAttempt}

theorem HeadsKept.readyIn (h : HeadsKept receipts receipts') {epoch : Nat} {position : Option Nat}
    (hready : receipts.ReadyIn attempt epoch position) : receipts'.ReadyIn attempt epoch position := by
  obtain ⟨head, hhead, hready, hrest⟩ := hready
  exact ⟨head, h attempt head hhead hready, hready, hrest⟩

theorem headsKept_put {head : ReceiptHead} (hput : receipts'.head = receipts.head.put attempt head)
    (hexisting : ∀ existing ∈ receipts.head.get attempt, existing.settlementReady = false) :
    HeadsKept receipts receipts' := by
  intro _ found hfound hready
  rw [hput, Table.get_put_of_ne]
  . exact hfound
  . rintro rfl
    rw [hexisting found hfound] at hready
    cases hready

theorem nextReceiptEpochIndex_page {epochs : Epochs} {epoch : Nat} {append : IndexAppend}
    (h : nextReceiptEpochIndex epochs receipts epoch attempt = .ok append) :
    ∃ identities, (receipts.epochPage.get (append.epoch, append.page)).getD [] = identities ∧
      append.identities = identities ++ [attempt] ∧ identities.length < receiptEpochIndexPageSize ∧
      append.position = append.page * receiptEpochIndexPageSize + identities.length := by
  simp only [nextReceiptEpochIndex, checks_iff, not_or, not_not] at h
  obtain ⟨-, _, -, -, ⟨hlength, hroom⟩, -, rfl⟩ := h
  refine ⟨_, rfl, rfl, Nat.lt_of_not_le hroom, ?_⟩
  dsimp only
  rw [hlength, Nat.mul_comm]
  exact (Nat.div_add_mod _ _).symm

structure Consumption where
  attempt : BillingAttempt
  epoch : Nat
  page : Nat

structure ReceiptsSound (receipts : Receipts) (log : List Consumption) : Prop where
  listed : ∀ attempt epoch page offset, receipts.ListedAt attempt epoch page offset →
    offset < receiptEpochIndexPageSize ∧
      receipts.ReadyIn attempt epoch (some (page * receiptEpochIndexPageSize + offset))
  consumed : ∀ c ∈ log, (∃ a key, receipts.consumed.get c.attempt = some ⟨c.epoch, a, key⟩) ∧
    receipts.ReadyIn c.attempt c.epoch none
  logged : ∀ attempt record, receipts.consumed.get attempt = some record →
    ∃ c ∈ log, c.attempt = attempt ∧ c.epoch = record.epoch
  nodup : (log.map Consumption.attempt).Nodup

namespace ReceiptsSound

variable {receipts receipts' : Receipts} {log : List Consumption}

theorem empty : ReceiptsSound Ledger.empty.receipts [] where
  listed := by rintro _ _ _ _ ⟨_, hnone, -⟩; cases hnone
  consumed := by simp
  logged _ _ h := by cases h
  nodup := List.nodup_nil

theorem of_headsKept (h : ReceiptsSound receipts log) (hkept : HeadsKept receipts receipts')
    (hconsumed : receipts'.consumed = receipts.consumed)
    (hlisted : ∀ attempt epoch page offset, receipts'.ListedAt attempt epoch page offset →
      receipts.ListedAt attempt epoch page offset ∨ offset < receiptEpochIndexPageSize ∧
        receipts'.ReadyIn attempt epoch (some (page * receiptEpochIndexPageSize + offset))) :
    ReceiptsSound receipts' log where
  listed attempt epoch page offset hat := by
    rcases hlisted attempt epoch page offset hat with hold | hnew
    . obtain ⟨hoffset, hready⟩ := h.listed attempt epoch page offset hold
      exact ⟨hoffset, hkept.readyIn hready⟩
    . exact hnew
  consumed c hc := by
    rw [hconsumed]
    obtain ⟨hrecord, hready⟩ := h.consumed c hc
    exact ⟨hrecord, hkept.readyIn hready⟩
  logged := by rw [hconsumed]; exact h.logged
  nodup := h.nodup

theorem listed_unique (h : ReceiptsSound receipts log) {epoch page offset epoch' page' offset' : Nat}
    (hat : receipts.ListedAt attempt epoch page offset)
    (hat' : receipts.ListedAt attempt epoch' page' offset') :
    epoch = epoch' ∧ page = page' ∧ offset = offset' := by
  obtain ⟨hoffset, _, hhead, -, hepoch, hposition⟩ := h.listed _ _ _ _ hat
  obtain ⟨hoffset', _, hhead', -, hepoch', hposition'⟩ := h.listed _ _ _ _ hat'
  obtain rfl := Option.some.inj (hhead.symm.trans hhead')
  have hplace := Option.some.inj ((hposition _ rfl).symm.trans (hposition' _ rfl))
  have hepochs := Option.some.inj (hepoch.symm.trans hepoch')
  unfold receiptEpochIndexPageSize at hoffset hoffset' hplace
  omega

theorem advance (h : ReceiptsSound receipts log) {head : ReceiptHead}
    (hexisting : ∀ existing ∈ receipts.head.get attempt, existing.settlementReady = false) :
    ReceiptsSound (receipts.writeHead attempt head) log :=
  h.of_headsKept (headsKept_put rfl hexisting) rfl fun _ _ _ _ hat => .inl hat

end ReceiptsSound

theorem writeClosePlan_headsKept {s : Ledger} {key : Digest} {plan : ClosePlan}
    {reservation : ReservationRecord} (hclosing : s.Closing key plan reservation) :
    HeadsKept s.receipts (s.receipts.writeClosePlan plan reservation) := by
  unfold Receipts.writeClosePlan
  cases hhead : plan.head with
  | none => exact HeadsKept.refl _
  | some entry =>
    obtain ⟨head, append, metadata⟩ := entry
    exact headsKept_put rfl (hclosing.head_ok head append metadata hhead).existing

theorem ReceiptsSound.close {s : Ledger} {key : Digest} {plan : ClosePlan} {log : List Consumption}
    {reservation : ReservationRecord} (h : ReceiptsSound s.receipts log)
    (hclosing : s.Closing key plan reservation) :
    ReceiptsSound (s.receipts.writeClosePlan plan reservation) log := by
  have hkept := writeClosePlan_headsKept hclosing
  unfold Receipts.writeClosePlan at hkept ⊢
  cases hhead : plan.head with
  | none => exact h.of_headsKept (HeadsKept.refl _) rfl fun _ _ _ _ hat => .inl hat
  | some entry =>
    obtain ⟨head, append, metadata⟩ := entry
    have hsettled := hclosing.head_ok head append metadata hhead
    rw [hhead] at hkept
    refine h.of_headsKept hkept rfl ?_
    intro _ epoch page offset hat
    obtain ⟨identities, hpage, hget⟩ := hat
    dsimp only [Receipts.writeIndex, Receipts.writeHead] at hpage
    rw [Table.get_put] at hpage
    split at hpage
    . next heq =>
      obtain ⟨rfl, rfl⟩ := Prod.mk.inj heq
      obtain rfl := Option.some.inj hpage
      obtain ⟨old, hold, hidentities, hroom, hposition⟩ := nextReceiptEpochIndex_page hsettled.append_ok
      rw [hidentities] at hget
      -- the page keeps its entries and gets one more
      by_cases hlt : offset < old.length
      . rw [List.getElem?_append_left hlt] at hget
        left
        cases hstored : s.receipts.epochPage.get (append.epoch, append.page) with
        | none =>
          rw [hstored] at hold
          subst hold
          simp at hlt
        | some stored =>
          rw [hstored, Option.getD_some] at hold
          exact ⟨stored, hstored, hold ▸ hget⟩
      . right
        rw [List.getElem?_append_right (Nat.le_of_not_lt hlt), List.getElem?_singleton] at hget
        split at hget
        . next _ =>
          obtain rfl := Option.some.inj hget
          have hoffset : offset = old.length := by omega
          rw [hoffset]
          refine ⟨hroom, head, Table.get_put_self .., hsettled.ready, hsettled.settlementEpoch_eq, ?_⟩
          rintro _ ⟨⟩
          rw [hsettled.indexPosition_eq, hposition]
        . cases hget
    . exact .inl ⟨identities, hpage, hget⟩

namespace Ledger

variable {crypto : Crypto} {s : Ledger} {log : List Consumption}

structure PageAnswer where
  answer : Except String ApplyResult
  epoch : Nat
  page : Nat
  allocations : List Allocation

def PageAnswer.consumptions (answer : PageAnswer) : List Consumption :=
  match answer.answer with
  | .error _ => []
  | .ok result =>
    if result.idempotent then []
    else answer.allocations.map fun a => ⟨a.attempt, answer.epoch, answer.page⟩

def HoldOp.pageAnswer (crypto : Crypto) (s : Ledger) : HoldOp → Option PageAnswer
  | .page sender key value =>
    some ⟨(s.applyTargetedEpochFeature crypto sender key value).2, value.epoch, value.page, value.allocations⟩
  | .pageZero sender key value =>
    some ⟨(s.applyCommitTargetedEpochPageZeroFeature crypto sender key value).2, value.epoch, 0,
      value.allocations⟩
  | _ => none

def HoldOp.consumptions (crypto : Crypto) (s : Ledger) (op : HoldOp) : List Consumption :=
  match op.pageAnswer crypto s with
  | some answer => answer.consumptions
  | none => []

variable {key : Digest} {value : TargetedEpochValue}

theorem receiptsSound_consume {bindings : Bindings} {holds : Holds} {markets : List MarketTally}
    (h : ReceiptsSound s.receipts log) (hbound : BoundPage s value key holds markets bindings)
    (hfresh : ∀ a ∈ value.allocations, s.receipts.consumed.get a.attempt = none) :
    ReceiptsSound
      { s.receipts with
        consumed := s.receipts.consumed.putAll (value.allocations.map fun a =>
          (a.attempt, (⟨value.epoch, a, key⟩ : ReceiptConsumption))) }
      (log ++ value.allocations.map fun a => ⟨a.attempt, value.epoch, value.page⟩) := by
  obtain ⟨hnodup, hheads⟩ := bindAllocations_heads hbound.bind_ok
  have hkeys : (value.allocations.map fun a =>
      (a.attempt, (⟨value.epoch, a, key⟩ : ReceiptConsumption))).map Prod.fst =
        value.allocations.map Allocation.attempt := by
    rw [List.map_map]
    rfl
  have hstored : ∀ a ∈ value.allocations, (s.receipts.consumed.putAll (value.allocations.map fun a =>
      (a.attempt, (⟨value.epoch, a, key⟩ : ReceiptConsumption)))).get a.attempt = some ⟨value.epoch, a, key⟩ :=
    fun a ha => Table.get_putAll_of_mem _ _ (hkeys ▸ hnodup) (List.mem_map.mpr ⟨a, ha, rfl⟩)
  have hlog : ∀ c ∈ log, c.attempt ∉ value.allocations.map Allocation.attempt := by
    intro c hc hmem
    obtain ⟨a, ha, heq⟩ := List.mem_map.mp hmem
    obtain ⟨⟨_, _, hrecord⟩, -⟩ := h.consumed c hc
    rw [← heq, hfresh a ha] at hrecord
    cases hrecord
  constructor
  case listed => exact h.listed
  case consumed =>
    intro c hc
    rcases List.mem_append.mp hc with hc | hc
    . rw [Table.get_putAll_of_not_mem _ _ _ (hkeys ▸ hlog c hc)]
      exact h.consumed c hc
    . obtain ⟨a, ha, rfl⟩ := List.mem_map.mp hc
      obtain ⟨-, head, hhead, hmatches⟩ := hheads a ha
      simp only [ReceiptHead.matchesAllocation, decide_eq_true_eq] at hmatches
      exact ⟨⟨a, key, hstored a ha⟩, head, hhead, hmatches.2.2.2.1, hmatches.2.1, by simp⟩
  case logged =>
    intro attempt record hrecord
    by_cases hmem : attempt ∈ value.allocations.map Allocation.attempt
    . obtain ⟨a, ha, rfl⟩ := List.mem_map.mp hmem
      obtain rfl := Option.some.inj ((hstored a ha).symm.trans hrecord)
      exact ⟨_, List.mem_append_right _ (List.mem_map.mpr ⟨a, ha, rfl⟩), rfl, rfl⟩
    . rw [Table.get_putAll_of_not_mem _ _ _ (hkeys ▸ hmem)] at hrecord
      obtain ⟨c, hc, hrest⟩ := h.logged attempt record hrecord
      exact ⟨c, List.mem_append_left _ hc, hrest⟩
  case nodup =>
    rw [List.map_append, List.map_map, List.nodup_append]
    refine ⟨h.nodup, hnodup, ?_⟩
    rintro _ hleft attempt hright rfl
    obtain ⟨c, hc, rfl⟩ := List.mem_map.mp hleft
    exact hlog c hc hright

variable {sender : PublicKey} {transition : Option CommitTransition} {outcome : Outcome ApplyResult}

theorem PageOutcome.headsKept (houtcome : PageOutcome crypto s sender key value transition outcome) :
    HeadsKept s.receipts outcome.1.receipts := by
  cases houtcome <;> exact HeadsKept.refl _

theorem PageOutcome.receiptsSound (houtcome : PageOutcome crypto s sender key value transition outcome)
    (h : ReceiptsSound s.receipts log) :
    ReceiptsSound outcome.1.receipts (log ++
      (PageAnswer.mk outcome.2 value.epoch value.page value.allocations).consumptions) := by
  cases houtcome with
  | replayed feature hfeature =>
    dsimp only [PageAnswer.consumptions, idempotentResult]
    rw [if_pos rfl, List.append_nil]
    exact h
  | rejected | stopped =>
    dsimp only [PageAnswer.consumptions]
    rw [List.append_nil]
    exact h
  | settled feature _ _ hfeature hplan =>
    obtain ⟨page⟩ := newPage_of_plan hplan
    have hprepared := prepareFeature_eq_ok hfeature
    obtain ⟨_, hbound⟩ := reservationBindings_eq_ok hprepared.bindings_ok
    have hsound := receiptsSound_consume h hbound (consumed_none_of_settled hfeature hplan)
    dsimp only [PageAnswer.consumptions, Ledger.settled, writeFeature, writeApply]
    rw [page.not_idempotent, hprepared.consumptions_eq, if_neg Bool.false_ne_true]
    exact hsound

theorem PageOutcome.replay {result : ApplyResult}
    (houtcome : PageOutcome crypto s sender key value transition outcome) (h : ReceiptsSound s.receipts log)
    (hresult : outcome.2 = .ok result) (hidempotent : result.idempotent = true) :
    outcome.1 = s ∧ ∀ a ∈ value.allocations, ∃ c ∈ log, c.attempt = a.attempt ∧ c.epoch = value.epoch := by
  cases houtcome with
  | replayed feature hfeature hreplay =>
    refine ⟨rfl, fun a ha => ?_⟩
    simp only [validateReplay, checks_iff] at hreplay
    obtain ⟨-, -, -, hconsumed⟩ := hreplay
    rw [(prepareFeature_eq_ok hfeature).consumptions_eq] at hconsumed
    simp only [missing, not_exists, not_and, not_not] at hconsumed
    exact h.logged _ _ (hconsumed _ (List.mem_map.mpr ⟨a, ha, rfl⟩))
  | rejected | stopped => cases hresult
  | settled feature _ _ hfeature hplan =>
    obtain ⟨page⟩ := newPage_of_plan hplan
    obtain rfl := Except.ok.inj hresult
    rw [page.not_idempotent] at hidempotent
    cases hidempotent

theorem HoldOp.Effect.receiptsSound {op : HoldOp} {s' : Ledger} {events : List HoldEvent}
    (heffect : op.Effect crypto s s' events) (h : ReceiptsSound s.receipts log) :
    HeadsKept s.receipts s'.receipts ∧ ReceiptsSound s'.receipts (log ++ op.consumptions crypto s) := by
  have hnil {receipts : Receipts} (h : ReceiptsSound receipts log) : ReceiptsSound receipts (log ++ []) := by
    rwa [List.append_nil]
  cases heffect with
  | reserved plan hprepare hnew =>
    exact ⟨HeadsKept.refl _, hnil ⟨h.listed, h.consumed, h.logged, h.nodup⟩⟩
  | advanced _ hprepare hexisting _ hnew =>
    exact ⟨headsKept_put rfl hexisting, hnil (h.advance hexisting)⟩
  | final plan reservation hprepare hclosing _ _ hnew =>
    exact ⟨writeClosePlan_headsKept hclosing, hnil (h.close hclosing)⟩
  | closed plan reservation hprepare hclosed =>
    exact ⟨writeClosePlan_headsKept hclosed.toClosing, hnil (h.close hclosed.toClosing)⟩
  | page earnings transition houtcome | pageZero earnings transition houtcome =>
    exact ⟨houtcome.headsKept, houtcome.receiptsSound h⟩
  | _ => exact ⟨HeadsKept.refl _, hnil h⟩

theorem HoldOp.replay (op : HoldOp) (h : ReceiptsSound s.receipts log) {answer : PageAnswer}
    {result : ApplyResult} (hanswer : op.pageAnswer crypto s = some answer)
    (hresult : answer.answer = .ok result) (hidempotent : result.idempotent = true) :
    op.run crypto s = s ∧ ∀ a ∈ answer.allocations, ∃ c ∈ log, c.attempt = a.attempt ∧
      c.epoch = answer.epoch := by
  cases op with
  | reserve | record | close => cases hanswer
  | page sender key value =>
    obtain rfl := Option.some.inj hanswer
    obtain ⟨_, houtcome⟩ := page_outcome crypto s sender key value
    exact houtcome.replay h hresult hidempotent
  | pageZero sender key value =>
    obtain rfl := Option.some.inj hanswer
    obtain ⟨_, _, houtcome⟩ := pageZero_outcome crypto s sender key value
    exact houtcome.replay h hresult hidempotent

inductive SettlementStep (crypto : Crypto) : Ledger × List Consumption → Ledger × List Consumption → Prop
  | op (s : Ledger) (log : List Consumption) (op : HoldOp) :
      SettlementStep crypto (s, log) (op.run crypto s, log ++ op.consumptions crypto s)
  | freeze (s : Ledger) (log : List Consumption) (sender : PublicKey) (epoch time : Nat) :
      SettlementStep crypto (s, log) ((s.epochFreeze crypto sender epoch time).1, log)
  | other (s s' : Ledger) (log : List Consumption) (hholds : s'.holds = s.holds)
      (hreceipts : s'.receipts = s.receipts) : SettlementStep crypto (s, log) (s', log)

def SettlementRun (crypto : Crypto) : Ledger × List Consumption → Ledger × List Consumption → Prop :=
  Relation.ReflTransGen (SettlementStep crypto)

structure SettlementInv (crypto : Crypto) (s : Ledger) (log : List Consumption) : Prop where
  holds : ∃ history, HoldRun crypto s history
  receipts : ReceiptsSound s.receipts log

theorem epochFreeze_receipts (crypto : Crypto) (s : Ledger) (sender : PublicKey) (epoch time : Nat) :
    (s.epochFreeze crypto sender epoch time).1.holds = s.holds ∧ ∃ ingress,
      (s.epochFreeze crypto sender epoch time).1.receipts = { s.receipts with ingress := ingress } := by
  unfold epochFreeze
  split
  . exact ⟨rfl, s.receipts.ingress, rfl⟩
  . exact ⟨rfl, s.receipts.ingress, rfl⟩
  . exact ⟨rfl, _, rfl⟩

theorem SettlementStep.inv {s' : Ledger} {log' : List Consumption}
    (hstep : SettlementStep crypto (s, log) (s', log')) (h : SettlementInv crypto s log) :
    HeadsKept s.receipts s'.receipts ∧ SettlementInv crypto s' log' := by
  obtain ⟨⟨history, hrun⟩, hsound⟩ := h
  cases hstep with
  | op _ _ op =>
    obtain ⟨hkept, hnext⟩ := (op.effect hrun.holdsMatch.noLegacy).receiptsSound hsound
    exact ⟨hkept, ⟨_, .op op hrun⟩, hnext⟩
  | freeze _ _ sender epoch time =>
    obtain ⟨hholds, _, hreceipts⟩ := epochFreeze_receipts crypto s sender epoch time
    refine ⟨?_, ⟨history, .other hrun hholds ?_ ?_⟩, ?_⟩
    . rw [hreceipts]
      exact fun _ _ hhead _ => hhead
    . rw [hreceipts]
    . rw [hreceipts]
    . rw [hreceipts]
      exact ⟨hsound.listed, hsound.consumed, hsound.logged, hsound.nodup⟩
  | other _ _ _ hholds hreceipts =>
    refine ⟨?_, ⟨history, .other hrun hholds ?_ ?_⟩, ?_⟩
    . rw [hreceipts]
      exact HeadsKept.refl _
    . rw [hreceipts]
    . rw [hreceipts]
    . rw [hreceipts]
      exact hsound

theorem SettlementRun.inv {s' : Ledger} {log' : List Consumption} (h : SettlementInv crypto s log)
    (hrun : SettlementRun crypto (s, log) (s', log')) :
    SettlementInv crypto s' log' ∧ HeadsKept s.receipts s'.receipts := by
  refine Run.invariant_log (fun t seen => SettlementInv crypto t seen ∧ HeadsKept s.receipts t.receipts)
    ⟨h, .refl _⟩ ?_ hrun
  intro t seen _ _ hinv hstep
  obtain ⟨hkept, hnext⟩ := hstep.inv hinv.1
  exact ⟨hnext, hinv.2.trans hkept⟩

/--
Every attempt has one place in the indexes of all epochs and is consumed by one page, a repeated page
consumes nothing, and the receipt of a consumed attempt stays as it is.
-/
theorem settled_exactly_once {s : Ledger} (hrun : SettlementRun crypto (Ledger.empty, []) (s, log)) :
    (∀ attempt epoch page offset epoch' page' offset',
      s.receipts.ListedAt attempt epoch page offset → s.receipts.ListedAt attempt epoch' page' offset' →
        epoch = epoch' ∧ page = page' ∧ offset = offset') ∧
    (log.map Consumption.attempt).Nodup ∧
    (∀ attempt, (s.receipts.consumed.get attempt).isSome ↔ attempt ∈ log.map Consumption.attempt) ∧
    (∀ (op : HoldOp) (answer : PageAnswer) (result : ApplyResult),
      op.pageAnswer crypto s = some answer → answer.answer = .ok result → result.idempotent = true →
        op.run crypto s = s ∧ ∀ a ∈ answer.allocations, ∃ c ∈ log, c.attempt = a.attempt ∧
          c.epoch = answer.epoch) ∧
    ∀ c ∈ log, ∃ head, s.receipts.head.get c.attempt = some head ∧
      ∀ s' log', SettlementRun crypto (s, log) (s', log') → s'.receipts.head.get c.attempt = some head := by
  have hinv := (SettlementRun.inv ⟨⟨[], .start⟩, .empty⟩ hrun).1
  have hsound := hinv.receipts
  refine ⟨?_, hsound.nodup, ?_, ?_, ?_⟩
  . intro attempt epoch page offset epoch' page' offset' hat hat'
    exact hsound.listed_unique hat hat'
  . intro attempt
    rw [Option.isSome_iff_exists, List.mem_map]
    constructor
    . rintro ⟨record, hrecord⟩
      obtain ⟨c, hc, heq, -⟩ := hsound.logged attempt record hrecord
      exact ⟨c, hc, heq⟩
    . rintro ⟨c, hc, rfl⟩
      obtain ⟨⟨a, _, hrecord⟩, -⟩ := hsound.consumed c hc
      exact ⟨_, hrecord⟩
  . intro op answer result hanswer hresult hidempotent
    exact op.replay hsound hanswer hresult hidempotent
  . intro c hc
    obtain ⟨-, head, hhead, hready, -⟩ := hsound.consumed c hc
    exact ⟨head, hhead, fun s' log' hnext => (SettlementRun.inv hinv hnext).2 _ _ hhead hready⟩

def talkAllocation (n seconds : Nat) : Allocation where
  sessionId := 100 + n
  billingId := 200 + n
  billingAttempt := 0
  billingEpoch := 1
  receiptSeq := 1
  receiptHash := 1
  user := 20
  rail := .tnk
  provider := 30
  payoutRevision := 4
  au := seconds

def talkFrozen : Ledger := (talkRecorded.epochFreeze plainHost 10 1 3600).1

def talkPageZero : CommitPageZeroValue where
  epoch := 1
  time := 3600
  epochCommitHash := 77
  receiptIndex := ⟨1, 1, 1, some 1⟩
  debits := [⟨.tnk, 20, 4⟩]
  earnings := [⟨.tnk, 30, 4, 4⟩]
  allocations := [talkAllocation 0 4]
  lastPage := true
  marketUsage := some [⟨⟨40, none, none⟩, 4, 1, 1⟩]
  earningFinals := some [⟨.tnk, 30, 4, 4, 4⟩]
  roots := ⟨0, 77, 30, 0, 0⟩
  totals := ⟨0, 0, 1, 4, 1, 4, 0, 0, 0, 0, 0⟩
  supersedesCommitHash := none

def talkSettled : Ledger := (HoldOp.pageZero 10 1 talkPageZero).run plainHost talkFrozen

def talkConsumptions : List Consumption :=
  (HoldOp.pageZero 10 1 talkPageZero).consumptions plainHost talkFrozen

theorem talkSettled_run : SettlementRun plainHost (Ledger.empty, []) (talkSettled, talkConsumptions) := by
  have hledger : SettlementRun plainHost (Ledger.empty, []) (talkLedger, []) := .single (.other _ _ _ rfl rfl)
  have hreserved : SettlementRun plainHost (Ledger.empty, []) (talkReserved, []) :=
    hledger.tail (.op talkLedger [] (.reserve 300 (talkReserve 0 500)))
  have hrecorded : SettlementRun plainHost (Ledger.empty, []) (talkRecorded, []) :=
    hreserved.tail (.op talkReserved [] (.record 1 (talkReceipt 0 4)))
  have hfrozen : SettlementRun plainHost (Ledger.empty, []) (talkFrozen, []) :=
    hrecorded.tail (.freeze talkRecorded [] 10 1 3600)
  exact hfrozen.tail (.op talkFrozen [] (.pageZero 10 1 talkPageZero))

/--
The receipt of the talk is consumed and keeps its head whatever happens next.
-/
theorem settled_exactly_once_talk : ∃ s log, SettlementRun plainHost (Ledger.empty, []) (s, log) ∧
      log.map Consumption.attempt = [(200, 0)] ∧ s.receipts.ListedAt (200, 0) 1 0 0 ∧
      ∃ head, ∀ s' log', SettlementRun plainHost (s, log) (s', log') →
        s'.receipts.head.get (200, 0) = some head := by
  have hattempts : talkConsumptions.map Consumption.attempt = [(200, 0)] := by decide +kernel
  have hlisted : talkSettled.receipts.epochPage.get (1, 0) = some [(200, 0)] := by decide +kernel
  have hrun := talkSettled_run
  generalize talkSettled = s, talkConsumptions = log at hattempts hlisted hrun
  obtain ⟨-, -, -, -, hheads⟩ := settled_exactly_once hrun
  have hmem : (200, 0) ∈ log.map Consumption.attempt := by rw [hattempts]; exact List.mem_singleton_self _
  obtain ⟨c, hc, heq⟩ := List.mem_map.mp hmem
  obtain ⟨head, -, hkept⟩ := hheads c hc
  rw [heq] at hkept
  exact ⟨s, log, hrun, hattempts, ⟨_, hlisted, rfl⟩, head, hkept⟩

end Ledger

end Mayhem
