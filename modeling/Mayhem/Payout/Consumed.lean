import Mayhem.Earnings
import Mayhem.Lib.Lock
import Mayhem.Payout.Atomic
import Mayhem.Payout.Ops

namespace Mayhem

/-! Preparations and settlements -/

namespace Preparation

variable (preparation : Preparation)

def key : Rail × Digest := (preparation.value.rail, preparation.value.economicOpId)

def payment : Option ((PublicKey × Rail × Digest) × Nat) :=
  preparation.value.liability.map fun liability =>
    ((liability.provider, preparation.value.rail, liability.payoutRevision), liability.paidAu)

def consume : Preparation := { preparation with consumed := true }

@[simp]
theorem key_consume : preparation.consume.key = preparation.key := rfl

end Preparation

inductive SettlementId where
  | output (rail : Rail) (epoch : Nat) (economicOpId : Digest)
  | tap (epoch : Nat)
deriving DecidableEq

structure SettlementUse where
  preparations : List (Rail × Digest)
  evidence : List RailSeen

def OutputValue.use : OutputValue → SettlementUse
  | .tnk value => ⟨[(.tnk, value.preparationId)], [Ledger.msbTransferSeenKey value.msbTransfer]⟩
  | .fiat value => ⟨[(.fiat, value.preparationId)], Ledger.stripeSeenKeys value.stripeTransfer⟩

def TapSettlementValue.use (value : TapSettlementValue) : SettlementUse :=
  ⟨(value.outputs.zip value.preparationIds).map (fun entry => (.tap, entry.2)) ++
    [(.tap, value.rootPreparationId)], tapSeenKeys value⟩

namespace Payouts

def settlements (payouts : Payouts) : Table SettlementId SettlementUse
  | .output rail epoch economicOpId => (payouts.output.get (rail, epoch, economicOpId)).map OutputValue.use
  | .tap epoch => (payouts.tapSettlement.get epoch).map fun record => record.1.use

def consumedPreparation (payouts : Payouts) : Table (Rail × Digest) Preparation := fun key =>
  (payouts.preparation.get key).filter Preparation.consumed

variable {payouts payouts' : Payouts}

theorem get_consumedPreparation {key : Rail × Digest} {preparation : Preparation} :
    payouts.consumedPreparation.get key = some preparation ↔
      payouts.preparation.get key = some preparation ∧ preparation.consumed = true :=
  Option.filter_eq_some_iff

theorem settlements_output (rail : Rail) (epoch : Nat) (economicOpId : Digest) :
    payouts.settlements.get (.output rail epoch economicOpId) =
      (payouts.output.get (rail, epoch, economicOpId)).map OutputValue.use := rfl

theorem settlements_tap (epoch : Nat) : payouts.settlements.get (.tap epoch) =
      (payouts.tapSettlement.get epoch).map fun record => record.1.use := rfl

theorem settlements_put_output {rail : Rail} {epoch : Nat} {economicOpId : Digest} {value : OutputValue}
    (houtput : payouts'.output = payouts.output.put (rail, epoch, economicOpId) value)
    (htap : payouts'.tapSettlement = payouts.tapSettlement) :
    payouts'.settlements = payouts.settlements.put (.output rail epoch economicOpId) value.use := by
  ext1 id
  cases id with
  | tap => rw [Table.get_put_of_ne _ _ (by simp), settlements_tap, settlements_tap, htap]
  | output =>
    rw [Table.get_put, settlements_output, settlements_output, houtput, Table.get_put]
    simp only [SettlementId.output.injEq, Prod.mk.injEq]
    split <;> rfl

theorem settlements_put_tap {epoch : Nat} {value : TapSettlementValue} {sender : PublicKey}
    (htap : payouts'.tapSettlement = payouts.tapSettlement.put epoch (value, sender))
    (houtput : payouts'.output = payouts.output) :
    payouts'.settlements = payouts.settlements.put (.tap epoch) value.use := by
  ext1 id
  cases id with
  | output _ epoch =>
    rw [Table.get_put_of_ne _ _ (by simp), settlements_output, settlements_output, houtput]
  | tap =>
    rw [Table.get_put, settlements_tap, settlements_tap, htap, Table.get_put]
    simp only [SettlementId.tap.injEq]
    split <;> rfl

theorem settlements_eq (houtput : payouts'.output = payouts.output)
    (htap : payouts'.tapSettlement = payouts.tapSettlement) : payouts'.settlements = payouts.settlements := by
  ext1 id
  cases id with
  | output _ epoch => rw [settlements_output, settlements_output, houtput]
  | tap epoch => rw [settlements_tap, settlements_tap, htap]

end Payouts

/-! What has been paid -/

structure Payouts.ConsumedLog (payouts : Payouts) (log : List Preparation) : Prop where
  nodup : (log.map Preparation.key).Nodup
  mem_iff : ∀ preparation, preparation ∈ log ↔
    payouts.consumedPreparation.get preparation.key = some preparation

structure PayoutsSound (s : Ledger) : Prop where
  keyed : ∀ key preparation, s.payouts.preparation.get key = some preparation → preparation.key = key
  matched : ∀ key preparation planRoot output, s.payouts.preparation.get key = some preparation →
    key.1 ≠ .tap → preparation.value.payload.planned = some (planRoot, output) →
    preparation.value.liability = payoutPreparationLiabilityForOutput output
  preparations : s.payouts.settlements.Locked s.payouts.consumedPreparation SettlementUse.preparations
  evidence : s.payouts.settlements.Locked s.payouts.railSeen SettlementUse.evidence
  accounted : ∀ key preparation, s.payouts.consumedPreparation.get key = some preparation →
    ∃ id use, s.payouts.settlements.get id = some use ∧ key ∈ use.preparations
  paid : ∃ log, s.payouts.ConsumedLog log ∧
    ∀ key, (s.liabilityEarned key).paidCumAu = Tally.amount (log.filterMap Preparation.payment) key

variable {s : Ledger}

theorem PayoutsSound.empty (hpayouts : s.payouts = .empty)
    (hunpaid : ∀ key, (s.liabilityEarned key).paidCumAu = 0) : PayoutsSound s := by
  constructor
  all_goals rw [hpayouts]
  case keyed | accounted => exact fun _ _ h => by cases h
  case matched => exact fun _ _ _ _ h => by cases h
  case preparations | evidence =>
    constructor
    . rintro (⟨_, _, _⟩ | _) use h <;> cases h
    . rintro (⟨_, _, _⟩ | _) _ use _ h <;> cases h
  case paid => exact ⟨[], ⟨List.nodup_nil, by simp [Payouts.get_consumedPreparation, Payouts.empty]⟩, hunpaid⟩

/-! A settlement -/

structure Settles (s s' : Ledger) (id : SettlementId) (use : SettlementUse) (consumed : List Preparation) :
    Prop where
  unsettled : s.payouts.settlements.get id = none
  settlements_eq : s'.payouts.settlements = s.payouts.settlements.put id use
  keys_eq : use.preparations = consumed.map Preparation.key
  nodup : (consumed.map Preparation.key).Nodup
  unconsumed : ∀ preparation ∈ consumed, preparation.consumed = false ∧
    s.payouts.preparation.get preparation.key = some preparation
  preparation_eq : s'.payouts.preparation = s.payouts.preparation.putAll
    (consumed.map fun preparation => (preparation.key, preparation.consume))
  unused : ∀ seen ∈ use.evidence, s.payouts.railSeen.get seen = none
  railSeen_eq : s'.payouts.railSeen = s.payouts.railSeen.putAll (use.evidence.map fun seen => (seen, ()))
  paid_eq : ∀ key, (s'.liabilityEarned key).paidCumAu =
    (s.liabilityEarned key).paidCumAu + Tally.amount (consumed.filterMap Preparation.payment) key

namespace Settles

variable {s s' : Ledger} {id : SettlementId} {use : SettlementUse} {consumed : List Preparation}

variable (h : Settles s s' id use consumed)

include h

theorem written_keys : (consumed.map fun preparation => (preparation.key, preparation.consume)).map Prod.fst =
      use.preparations := by
  rw [List.map_map, h.keys_eq]
  rfl

variable {preparation : Preparation}

theorem get_consumed (hmem : preparation ∈ consumed) :
    s'.payouts.preparation.get preparation.key = some preparation.consume := by
  rw [h.preparation_eq]
  apply Table.get_putAll_of_mem
  . rw [h.written_keys, h.keys_eq]
    exact h.nodup
  . exact List.mem_map_of_mem hmem

variable {key : Rail × Digest}

theorem get_other (hkey : key ∉ use.preparations) :
    s'.payouts.preparation.get key = s.payouts.preparation.get key := by
  rw [h.preparation_eq]
  apply Table.get_putAll_of_not_mem
  rw [h.written_keys]
  exact hkey

theorem get_cases (hget : s'.payouts.preparation.get key = some preparation) :
    (key ∉ use.preparations ∧ s.payouts.preparation.get key = some preparation) ∨
      ∃ before ∈ consumed, before.key = key ∧ preparation = before.consume := by
  by_cases hkey : key ∈ use.preparations
  . rw [h.keys_eq, List.mem_map] at hkey
    obtain ⟨before, hbefore, rfl⟩ := hkey
    rw [h.get_consumed hbefore, Option.some.injEq] at hget
    exact .inr ⟨before, hbefore, rfl, hget.symm⟩
  . rw [h.get_other hkey] at hget
    exact .inl ⟨hkey, hget⟩

theorem unconsumed_before (hkey : key ∈ use.preparations) : s.payouts.consumedPreparation.get key = none := by
  rw [h.keys_eq, List.mem_map] at hkey
  obtain ⟨preparation, hmem, rfl⟩ := hkey
  obtain ⟨hfresh, hget⟩ := h.unconsumed preparation hmem
  change (s.payouts.preparation.get preparation.key).filter _ = none
  rw [hget, Option.filter_some, hfresh]
  rfl

theorem consumed_stays (hget : s.payouts.consumedPreparation.get key = some preparation) :
    s'.payouts.consumedPreparation.get key = some preparation := by
  have hkey : key ∉ use.preparations := by
    intro hmem
    rw [h.unconsumed_before hmem] at hget
    cases hget
  rw [Payouts.get_consumedPreparation] at hget ⊢
  rw [h.get_other hkey]
  exact hget

theorem settlement_stays {other : SettlementId} {used : SettlementUse}
    (hget : s.payouts.settlements.get other = some used) : s'.payouts.settlements.get other = some used := by
  rw [h.settlements_eq, Table.get_put_of_ne]
  . exact hget
  . intro heq
    rw [heq, h.unsettled] at hget
    cases hget

theorem consumed_of_mem (hmem : preparation ∈ consumed) :
    s'.payouts.consumedPreparation.get preparation.key = some preparation.consume := by
  rw [Payouts.get_consumedPreparation]
  exact ⟨h.get_consumed hmem, rfl⟩

theorem consumedLog {log : List Preparation} (hlog : s.payouts.ConsumedLog log) :
    s'.payouts.ConsumedLog (log ++ consumed.map Preparation.consume) := by
  have hkeys : (consumed.map Preparation.consume).map Preparation.key = use.preparations := by
    rw [List.map_map, h.keys_eq]
    rfl
  constructor
  . rw [List.map_append, hkeys, List.nodup_append']
    refine ⟨hlog.nodup, h.keys_eq ▸ h.nodup, ?_⟩
    intro key hold hnew
    obtain ⟨preparation, hmem, rfl⟩ := List.mem_map.mp hold
    have hget := (hlog.mem_iff preparation).mp hmem
    rw [h.unconsumed_before hnew] at hget
    cases hget
  . intro preparation
    rw [List.mem_append]
    constructor
    . rintro (hold | hnew)
      . exact h.consumed_stays ((hlog.mem_iff preparation).mp hold)
      . obtain ⟨before, hbefore, rfl⟩ := List.mem_map.mp hnew
        rw [Preparation.key_consume]
        exact h.consumed_of_mem hbefore
    . intro hget
      obtain ⟨hpreparation, hconsumed⟩ := Payouts.get_consumedPreparation.mp hget
      rcases h.get_cases hpreparation with ⟨-, hold⟩ | ⟨before, hbefore, -, heq⟩
      . exact .inl ((hlog.mem_iff preparation).mpr (Payouts.get_consumedPreparation.mpr ⟨hold, hconsumed⟩))
      . exact .inr (heq ▸ List.mem_map_of_mem hbefore)

theorem sound (hs : PayoutsSound s) : PayoutsSound s' where
  keyed := by
    intro key preparation hget
    rcases h.get_cases hget with ⟨-, hold⟩ | ⟨before, -, rfl, rfl⟩
    . exact hs.keyed key preparation hold
    . rfl
  matched := by
    intro key preparation planRoot output hget hrail hplanned
    rcases h.get_cases hget with ⟨-, hold⟩ | ⟨before, hbefore, rfl, rfl⟩
    . exact hs.matched key preparation planRoot output hold hrail hplanned
    . exact hs.matched _ before planRoot output (h.unconsumed before hbefore).2 hrail hplanned
  preparations := by
    rw [h.settlements_eq]
    refine hs.preparations.put (fun key hkey => .inr (h.unconsumed_before hkey)) ?_ ?_
    . intro key hsome
      obtain ⟨preparation, hget⟩ := Option.isSome_iff_exists.mp hsome
      rw [h.consumed_stays hget]
      rfl
    . intro key hkey
      rw [h.keys_eq, List.mem_map] at hkey
      obtain ⟨preparation, hmem, rfl⟩ := hkey
      rw [h.consumed_of_mem hmem]
      rfl
  evidence := by
    rw [h.settlements_eq, h.railSeen_eq]
    refine hs.evidence.put (fun seen hseen => .inr (h.unused seen hseen))
      (fun seen => Table.isSome_get_putAll _ _) ?_
    intro seen hseen
    apply Table.isSome_get_putAll_of_mem
    rw [List.map_map]
    exact List.mem_map.mpr ⟨seen, hseen, rfl⟩
  accounted := by
    intro key preparation hget
    obtain ⟨hpreparation, hconsumed⟩ := Payouts.get_consumedPreparation.mp hget
    rcases h.get_cases hpreparation with ⟨-, hold⟩ | ⟨before, hbefore, rfl, -⟩
    . obtain ⟨other, used, hused, hmem⟩ :=
        hs.accounted key preparation (Payouts.get_consumedPreparation.mpr ⟨hold, hconsumed⟩)
      exact ⟨other, used, h.settlement_stays hused, hmem⟩
    . refine ⟨id, use, ?_, ?_⟩
      . rw [h.settlements_eq, Table.get_put_self]
      . rw [h.keys_eq]
        exact List.mem_map_of_mem hbefore
  paid := by
    obtain ⟨log, hlog, hpaid⟩ := hs.paid
    refine ⟨log ++ consumed.map Preparation.consume, h.consumedLog hlog, ?_⟩
    intro key
    have hsame : (consumed.map Preparation.consume).filterMap Preparation.payment =
        consumed.filterMap Preparation.payment := by
      rw [List.filterMap_map]
      rfl
    rw [h.paid_eq, hpaid, List.filterMap_append, Tally.amount_append, hsame]

end Settles

/-! Paid liabilities -/

def SettlementOutput.payment (rail : Rail) (output : SettlementOutput) : (PublicKey × Rail × Digest) × Nat :=
  ((output.party.provider, rail, output.party.payoutRevision), output.settledAu)

namespace Ledger

variable {s s' : Ledger} {rail : Rail}

theorem PaidUpdates.paid_eq {outputs : List SettlementOutput} {updates : SettlementUpdates}
    {paid : List ProviderPaid} (h : PaidUpdates s rail outputs updates paid)
    (hnodup : (outputs.map fun output => (output.payment rail).1).Nodup)
    (hliability : s'.accounts.liability = s.accounts.liability.putAll updates.liabilities)
    (key : PublicKey × Rail × Digest) :
    (s'.liabilityEarned key).paidCumAu = (s.liabilityEarned key).paidCumAu +
      Tally.amount (outputs.map (SettlementOutput.payment rail)) key := by
  have hkeys : updates.liabilities.map Prod.fst = outputs.map fun output => (output.payment rail).1 := by
    rw [← List.forall₂_eq_eq_eq, List.forall₂_map_left_iff, List.forall₂_map_right_iff]
    exact h.liabilities.flip.imp fun _ _ howed => howed.key_eq
  have hpayments : ((outputs.map (SettlementOutput.payment rail)).map Prod.fst) =
      outputs.map fun output => (output.payment rail).1 := by
    rw [List.map_map]
    rfl
  by_cases hmem : key ∈ outputs.map fun output => (output.payment rail).1
  . obtain ⟨output, houtput, hkey⟩ := List.mem_map.mp hmem
    obtain ⟨⟨found, liability⟩, hentry, howed⟩ := List.Forall₂.exists_of_mem_left h.liabilities houtput
    obtain rfl : found = key := howed.key_eq.trans hkey
    have hstored : s'.accounts.liability.get found = some liability := by
      rw [hliability]
      exact Table.get_putAll_of_mem _ _ (hkeys ▸ hnodup) hentry
    have hamount : Tally.amount (outputs.map (SettlementOutput.payment rail)) found = output.settledAu :=
      Tally.amount_of_mem (hpayments ▸ hnodup) (List.mem_map.mpr ⟨output, houtput, Prod.ext hkey rfl⟩)
    rw [liabilityEarned_of_stored hstored, hamount]
    exact howed.paid_eq
  . have hkept : s'.accounts.liability.get key = s.accounts.liability.get key := by
      rw [hliability]
      exact Table.get_putAll_of_not_mem _ _ _ (hkeys ▸ hmem)
    rw [liabilityEarned_congr hkept, Tally.amount_of_not_mem (hpayments ▸ hmem), Nat.add_zero]

/-! Planned outputs -/

theorem planOutput_paid {epoch time : Nat} {output : PlanOutput} {preparation : Preparation} {mismatch : String}
    {plan : OutputPlan} (h : s.planOutput rail epoch time output preparation mismatch = .ok plan)
    (hliability : s'.accounts.liability = s.accounts.liability.putAll plan.updates.liabilities) :
    plan.output = output ∧ plan.preparation = preparation ∧
      ∀ key, (s'.liabilityEarned key).paidCumAu = (s.liabilityEarned key).paidCumAu +
        Tally.amount (output.settlement.toList.map (SettlementOutput.payment rail)) key := by
  simp only [planOutput, checks_iff] at h
  obtain ⟨_, -, h⟩ := h
  cases hsettlement : output.settlement with
  | some settlement =>
    simp only [hsettlement, checks_iff] at h
    obtain ⟨updates, hupdates, rfl⟩ := h
    obtain ⟨_, hpaid⟩ := settlementUpdates_eq_ok hupdates
    exact ⟨rfl, rfl, hpaid.paid_eq (List.nodup_singleton _) hliability⟩
  | none =>
    simp only [hsettlement, checks_iff] at h
    obtain ⟨_, -, rfl⟩ := h
    refine ⟨rfl, rfl, ?_⟩
    intro key
    rw [liabilityEarned_congr (congrArg (fun table => Table.get table key) hliability)]
    rfl

end Ledger

theorem payment_of_matched {preparation : Preparation} {output : PlanOutput}
    (h : preparation.value.liability = payoutPreparationLiabilityForOutput output) :
    preparation.payment.toList = output.settlement.toList.map
      (SettlementOutput.payment preparation.value.rail) := by
  rw [Preparation.payment, h, payoutPreparationLiabilityForOutput, PlanOutput.settlement, PlanOutput.paidAu]
  cases output.party with
  | none => rfl
  | some party => cases output.amount <;> rfl

namespace Ledger

variable {crypto : Crypto} {host : PayoutCrypto} {s s' : Ledger} {rail : Rail}

variable {output : PlanOutput} {preparation : Preparation} {plan : OutputPlan}

theorem settles_planned {ref : OutputReference} {epoch time : Nat} {mismatch : String} {value : OutputValue}
    {seen : List RailSeen} (hs : PayoutsSound s) (hrail : rail ≠ .tap)
    (hpreparation : s.targetedPayoutPreparationForOutput rail ref output = .ok preparation)
    (hplan : s.planOutput rail epoch time output preparation mismatch = .ok plan)
    (hunsettled : s.payouts.output.get (rail, epoch, output.economicOpId) = none)
    (huse : value.use = ⟨[(rail, ref.preparationId)], seen⟩)
    (hunused : ∀ key ∈ seen, s.payouts.railSeen.get key = none)
    (houtput' : s'.payouts.output = s.payouts.output.put (rail, epoch, plan.output.economicOpId) value)
    (htap' : s'.payouts.tapSettlement = s.payouts.tapSettlement)
    (hpreparation' : s'.payouts.preparation =
      (s.payouts.writeConsumption [plan.preparation] plan.tails).preparation)
    (hseen' : s'.payouts.railSeen = s.payouts.railSeen.putAll (seen.map fun key => (key, ())))
    (hliability' : s'.accounts.liability = s.accounts.liability.putAll plan.updates.liabilities) :
    Settles s s' (.output rail epoch output.economicOpId) value.use [preparation] := by
  obtain ⟨houtput, hsame, hpaid⟩ := planOutput_paid hplan hliability'
  simp only [targetedPayoutPreparationForOutput, checks_iff, not_or, not_not, ne_eq, Bool.not_eq_true]
    at hpreparation
  obtain ⟨preparation, hget, ⟨hfresh, -, -, -, -, hplanned⟩, rfl⟩ := hpreparation
  have hkey := hs.keyed _ preparation hget
  have hliability := hs.matched _ preparation _ _ hget hrail hplanned
  have hpayment := payment_of_matched hliability
  rw [show preparation.value.rail = rail from congrArg Prod.fst hkey] at hpayment
  rw [huse]
  refine ⟨?_, ?_, ?_, List.nodup_singleton _, ?_, ?_, hunused, hseen', ?_⟩
  . rw [Payouts.settlements_output, hunsettled, Option.map_none]
  . rw [← huse, ← houtput]
    exact Payouts.settlements_put_output houtput' htap'
  . rw [List.map_singleton, hkey]
  . intro _ hmem
    obtain rfl := List.mem_singleton.mp hmem
    rw [hkey]
    exact ⟨hfresh, hget⟩
  . rw [hpreparation', hsame]
    rfl
  . intro key
    rw [hpaid, ← hpayment]
    cases hcase : preparation.payment <;> simp [hcase]

variable {sender : PublicKey} {key : Digest}

theorem prepareTnkOutput_settles {value : TnkOutputValue} (hs : PayoutsSound s)
    (h : s.prepareTnkOutput host sender key value = .ok (some plan)) :
    ∃ id use consumed, Settles s
      (s.writeOutput .tnk value.epoch (.tnk value) [msbTransferSeenKey value.msbTransfer] plan) id use
      consumed := by
  unfold prepareTnkOutput at h
  cases hexisting : s.payouts.output.get (.tnk, value.epoch, value.economicOpId) with
  | some => simp [hexisting] at h
  | none =>
    simp only [hexisting, checks_iff, Option.some.injEq] at h
    obtain ⟨-, -, -, output, houtput, _, hpreparation, htransfer, _, hplan, rfl⟩ := h
    have hop : output.economicOpId = value.economicOpId := plannedOutput_economicOpId houtput
    have hunused : s.payouts.railSeen.get (msbTransferSeenKey value.msbTransfer) = none := by
      unfold validateTnkTransfer at htransfer
      split at htransfer
      . simp only [checks_iff] at htransfer
        obtain ⟨-, -, _, -, -, hunused⟩ := htransfer
        simpa using hunused
      . cases htransfer
    refine ⟨_, _, _, settles_planned hs (by simp) hpreparation hplan (hop ▸ hexisting) rfl ?_ rfl rfl rfl rfl rfl⟩
    intro key hkey
    obtain rfl := List.mem_singleton.mp hkey
    exact hunused

theorem prepareFiatOutput_settles {value : FiatOutputValue} {attempt : FiatAttempt} {effect : AttemptEffect}
    (hs : PayoutsSound s) (h : s.prepareFiatOutput host sender key value = .ok (some (plan, attempt, effect))) :
    ∃ id use consumed, Settles s (s.writeFiatOutput value plan attempt effect) id use consumed := by
  unfold prepareFiatOutput at h
  cases hexisting : s.payouts.output.get (.fiat, value.epoch, value.economicOpId) with
  | some => simp [hexisting] at h
  | none =>
    simp only [hexisting, checks_iff, Option.some.injEq, Prod.mk.injEq] at h
    obtain ⟨-, -, -, output, houtput, _, hpreparation, ⟨_, _⟩, htransfer, _, hplan, rfl, -, -⟩ := h
    have hop : output.economicOpId = value.economicOpId := plannedOutput_economicOpId houtput
    refine ⟨_, _, _, settles_planned hs (by simp) hpreparation hplan (hop ▸ hexisting) rfl ?_ rfl rfl rfl rfl rfl⟩
    intro seen hseen
    simp only [validateFiatTransfer, checks_iff] at htransfer
    obtain ⟨_, -, -, _, -, -, hunused, -⟩ := htransfer
    by_contra hused
    exact hunused ⟨seen, hseen, Option.isSome_iff_ne_none.mpr hused⟩

/-! TAP settlements -/

structure FitsExpected (payouts : Payouts) (rail : Rail) (expected : ExpectedPreparation)
    (preparation : Preparation) : Prop where
  get_eq : payouts.preparation.get (rail, expected.economicOpId) = some preparation
  key_eq : preparation.key = (rail, expected.economicOpId)
  unconsumed : preparation.consumed = false
  kind_eq : preparation.value.kind = expected.kind
  payment_eq : preparation.payment = expected.liability.map fun liability =>
    ((liability.provider, rail, liability.payoutRevision), liability.paidAu)

theorem preparationRecord_fits {expected : ExpectedPreparation}
    (h : s.validatePayoutPreparationRecord host rail expected = .ok preparation) :
    FitsExpected s.payouts rail expected preparation := by
  simp only [validatePayoutPreparationRecord, checks_iff, not_or, not_not, ne_eq, Bool.not_eq_true] at h
  obtain ⟨_, hget, ⟨hid, hrail, -, -, hkind, -, hconsumed, -, hliability, -⟩, -, -, -, rfl⟩ := h
  refine ⟨hget, ?_, hconsumed, hkind, ?_⟩
  . rw [Preparation.key, hid, hrail]
  . rw [Preparation.payment, hliability, hrail]

theorem tapOutputPreparation_fits {value : TapSettlementValue} {entry : TapOutput × Nat}
    (h : s.tapOutputPreparation host value entry = .ok preparation) :
    ∃ economicOpId, FitsExpected s.payouts .tap (value.expectedOutput economicOpId entry.1 entry.2)
      preparation := by
  simp only [tapOutputPreparation, checks_iff] at h
  obtain ⟨economicOpId, -, hrecord⟩ := h
  exact ⟨economicOpId, preparationRecord_fits hrecord⟩

theorem map_snd_zip_sublist {α β : Type} (xs : List α) (ys : List β) : ((xs.zip ys).map Prod.snd).Sublist ys := by
  induction xs generalizing ys with
  | nil => exact List.nil_sublist ys
  | cons _ xs ih =>
    cases ys with
    | nil => exact List.nil_sublist []
    | cons y ys => exact (ih ys).cons_cons y

section

variable {value : TapSettlementValue} {preparations : List Preparation}

section

variable (h : s.payoutPreparationsForSettlement host value = .ok preparations)
include h

theorem fits_of_mem
    (hmem : preparation ∈ preparations) : ∃ expected, FitsExpected s.payouts .tap expected preparation := by
  simp only [payoutPreparationsForSettlement, checks_iff] at h
  obtain ⟨_, hfound, _, hroot, rfl⟩ := h
  rcases List.mem_append.mp hmem with houtput | hlast
  . obtain ⟨_, -, hentry⟩ := Except.exists_of_mem_mapM_result hfound houtput
    obtain ⟨_, hfits⟩ := tapOutputPreparation_fits hentry
    exact ⟨_, hfits⟩
  . obtain rfl := List.mem_singleton.mp hlast
    exact ⟨_, preparationRecord_fits hroot⟩

theorem tapPreparation_keys : preparations.map Preparation.key = value.use.preparations := by
  have hkeys : preparations.map Preparation.key =
      (preparations.map Preparation.link).map fun link => (Rail.tap, link.2) := by
    rw [List.map_map]
    refine List.map_congr_left fun preparation hmem => ?_
    obtain ⟨_, hfits⟩ := fits_of_mem h hmem
    have hrail : preparation.value.rail = .tap := congrArg Prod.fst hfits.key_eq
    rw [Preparation.key, hrail]
    rfl
  rw [hkeys, payoutPreparationsForSettlement_links h, List.map_append, List.map_map]
  rfl

theorem tapPreparation_nodup
    (hids : value.preparationIds.Nodup) : (preparations.map Preparation.key).Nodup := by
  have hsplit := tapPreparation_keys h
  simp only [payoutPreparationsForSettlement, checks_iff] at h
  obtain ⟨_, hfound, _, hroot, rfl⟩ := h
  have hroot := preparationRecord_fits hroot
  rw [List.map_append, List.map_singleton, hroot.key_eq, TapSettlementValue.use] at hsplit
  have hfirst := List.append_inj_left' hsplit rfl
  rw [List.map_append, List.map_singleton, hroot.key_eq, List.nodup_append']
  refine ⟨?_, List.nodup_singleton _, ?_⟩
  . have hzip : (value.outputs.zip value.preparationIds).map (fun entry => (Rail.tap, entry.2)) =
        ((value.outputs.zip value.preparationIds).map Prod.snd).map (Prod.mk Rail.tap) := by
      rw [List.map_map]
      rfl
    rw [hfirst, hzip]
    exact (hids.sublist (map_snd_zip_sublist _ _)).map (Prod.mk_right_injective Rail.tap)
  . intro key houtput hlast
    obtain rfl := List.mem_singleton.mp hlast
    obtain ⟨_, hmem, hkey⟩ := List.mem_map.mp houtput
    obtain ⟨entry, -, hentry⟩ := Except.exists_of_mem_mapM_result hfound hmem
    obtain ⟨_, hfits⟩ := tapOutputPreparation_fits hentry
    have hget := hfits.get_eq
    rw [← hfits.key_eq, hkey, hroot.get_eq, Option.some.injEq] at hget
    have hkind := hfits.kind_eq
    rw [← hget, hroot.kind_eq] at hkind
    cases hkind

theorem tapPreparation_payments : preparations.filterMap Preparation.payment =
      (value.outputs.map TapOutput.settlement).map (SettlementOutput.payment .tap) := by
  simp only [payoutPreparationsForSettlement, checks_iff] at h
  obtain ⟨found, hfound, root, hroot, rfl⟩ := h
  have houtputs : found.map Preparation.payment =
      value.outputs.zipIdx.map fun entry => some (entry.1.settlement.payment .tap) := by
    refine Except.map_eq_of_mapM hfound fun entry preparation hentry => ?_
    obtain ⟨_, hfits⟩ := tapOutputPreparation_fits hentry
    rw [hfits.payment_eq]
    rfl
  have hroot : root.payment = none := (preparationRecord_fits hroot).payment_eq
  have hfirst : found.filterMap Preparation.payment =
      value.outputs.zipIdx.map fun entry => entry.1.settlement.payment .tap := by
    have hid := congrArg (List.filterMap id) houtputs
    rw [List.filterMap_map, List.filterMap_map] at hid
    rw [← List.filterMap_eq_map']
    exact hid
  rw [List.filterMap_append, hfirst, List.filterMap_cons_none hroot, List.filterMap_nil,
    List.append_nil, List.map_map]
  have hfst := congrArg (List.map fun output : TapOutput => output.settlement.payment .tap)
    (List.zipIdx_map_fst 0 value.outputs)
  rw [List.map_map] at hfst
  exact hfst

end

theorem prepareTapSettlement_settles {plan : TapPlan} {tails : List ((Rail × PublicKey) × PreparationTail)}
    (h : s.prepareTapSettlement crypto host sender key value = .ok (some plan)) :
    Settles s (s.writeTapSettlement sender value plan tails) (.tap value.epoch) value.use
      plan.preparations := by
  obtain ⟨hvalue, hunsettled, _, hplan⟩ := prepareTapSettlement_planned h
  simp only [normalizeTargetedTapSettlementValue, checks_iff, not_or, not_not] at hvalue
  obtain ⟨-, -, ⟨hids, -⟩, -, -, houtputs⟩ := hvalue
  simp only [normalizeTapOutputs, checks_iff, not_not] at houtputs
  obtain ⟨-, -, hkeys, -⟩ := houtputs
  simp only [planTapSettlement, checks_iff] at hplan
  obtain ⟨-, preparations, hpreparations, _, hstate, _, -, -, -, _, -, _, hupdates, rfl⟩ := hplan
  simp only [validateTapState, checks_iff, Option.isSome_iff_ne_none, not_not, ne_eq] at hstate
  obtain ⟨hroot, hproposal, hexecution, -⟩ := hstate
  obtain ⟨_, hpaid⟩ := settlementUpdates_eq_ok hupdates
  have hnodup : ((value.outputs.map TapOutput.settlement).map fun output => (output.payment .tap).1).Nodup := by
    have hmap : (value.outputs.map TapOutput.settlement).map (fun output => (output.payment .tap).1) =
        (value.outputs.map TapOutput.key).map fun entry => (entry.1, Rail.tap, entry.2) := by
      rw [List.map_map, List.map_map]
      rfl
    rw [hmap]
    refine hkeys.map fun a b heq => ?_
    simp only [Prod.mk.injEq, true_and] at heq
    exact Prod.ext heq.1 heq.2
  refine ⟨?_, Payouts.settlements_put_tap rfl rfl, (tapPreparation_keys hpreparations).symm,
    tapPreparation_nodup hpreparations hids, ?_, rfl, ?_, rfl, ?_⟩
  . rw [Payouts.settlements_tap, hunsettled, Option.map_none]
  . intro _ hmem
    obtain ⟨_, hfits⟩ := fits_of_mem hpreparations hmem
    rw [hfits.key_eq]
    exact ⟨hfits.unconsumed, hfits.get_eq⟩
  . intro _ hseen
    simp only [TapSettlementValue.use, tapSeenKeys, List.mem_cons, List.not_mem_nil, or_false] at hseen
    rcases hseen with rfl | rfl | rfl
    . exact hroot
    . exact hproposal
    . exact hexecution
  . intro key
    rw [tapPreparation_payments hpreparations]
    exact hpaid.paid_eq hnodup rfl key

end

/-! New preparations -/

theorem liability_of_kindMatches {kind : PreparationKind} {liability : Option PreparationLiability}
    (h : kindMatches kind output liability = true) :
    liability = payoutPreparationLiabilityForOutput output := by
  cases kind with
  | liability =>
    simp only [kindMatches, Bool.and_eq_true, beq_iff_eq] at h
    exact h.2
  | fee =>
    simp only [kindMatches, Bool.and_eq_true, Option.isNone_iff_eq_none] at h
    rw [h.2, payoutPreparationLiabilityForOutput, h.1, Option.map_none]
  | tapRoot => cases h

theorem normalizePreparationPayload_matched {value : PreparationValue}
    (h : normalizePreparationPayload value = .ok ()) (hrail : value.rail ≠ .tap) {planRoot : Digest}
    (hplanned : value.payload.planned = some (planRoot, output)) :
    value.liability = payoutPreparationLiabilityForOutput output := by
  unfold normalizePreparationPayload at h
  split at h
  case h_1 _ _ _ planned _ hpayload =>
    rw [hpayload] at hplanned
    cases hplanned
    simp only [normalizeTargetedFiatPreparationPayload, checks_iff, not_not] at h
    exact liability_of_kindMatches h.2.2.2
  case h_3 _ _ payload hpayload =>
    rw [hpayload] at hplanned
    cases hplanned
    simp only [normalizeTargetedTnkPreparationPayload, checks_iff, not_not] at h
    exact liability_of_kindMatches h.2.2.2.2
  case h_5 htap => exact absurd htap hrail
  all_goals cases h

theorem preparePreparation_new {tx : Digest} {value : PreparationValue} {lock : Option LiabilityLock}
    (h : s.preparePreparation crypto host sender tx key value = .ok (some lock)) :
    s.payouts.preparation.get (value.rail, value.economicOpId) = none ∧
      normalizePreparationPayload value = .ok () := by
  unfold preparePreparation at h
  cases hexisting : s.payouts.preparation.get (value.rail, value.economicOpId) with
  | some => simp [hexisting] at h
  | none =>
    simp only [hexisting, checks_iff] at h
    obtain ⟨hvalue, -⟩ := h
    simp only [normalizeTargetedPayoutPreparationValue, checks_iff] at hvalue
    obtain ⟨-, -, -, -, hvalue⟩ := hvalue
    split at hvalue
    . simp only [checks_iff] at hvalue
      exact ⟨rfl, hvalue.2.1⟩
    . cases hvalue
    . cases hvalue
    . simp only [checks_iff] at hvalue
      exact ⟨rfl, hvalue.2.1⟩

theorem consumedPreparation_put {payouts : Payouts} (hnew : payouts.preparation.get preparation.key = none)
    (hconsumed : preparation.consumed = false) :
    ({ payouts with
      preparation := payouts.preparation.put preparation.key preparation } : Payouts).consumedPreparation =
      payouts.consumedPreparation := by
  ext1 key
  change ((payouts.preparation.put _ _).get key).filter _ = (payouts.preparation.get key).filter _
  rw [Table.get_put]
  split
  case isTrue heq => rw [heq, hnew, Option.filter_some, hconsumed]; rfl
  case isFalse => rfl

end Ledger

theorem PayoutsSound.writePreparation {crypto : Crypto} {host : PayoutCrypto} {sender : PublicKey}
    {tx key : Digest} {value : PreparationValue} {lock : Option LiabilityLock} (hs : PayoutsSound s)
    (h : s.preparePreparation crypto host sender tx key value = .ok (some lock)) :
    PayoutsSound (s.writePreparation tx value lock) := by
  obtain ⟨hnew, hpayload⟩ := Ledger.preparePreparation_new h
  have hconsumed : (s.writePreparation tx value lock).payouts.consumedPreparation =
    s.payouts.consumedPreparation :=
    @Ledger.consumedPreparation_put ⟨value, false, tx⟩ s.payouts hnew rfl
  constructor
  case keyed =>
    intro key preparation hpreparation
    obtain ⟨rfl, rfl⟩ | ⟨-, hold⟩ := Table.get_put_eq_some.mp hpreparation
    . rfl
    . exact hs.keyed key preparation hold
  case matched =>
    intro key preparation planRoot output hpreparation hrail hplanned
    obtain ⟨rfl, rfl⟩ | ⟨-, hold⟩ := Table.get_put_eq_some.mp hpreparation
    . exact Ledger.normalizePreparationPayload_matched hpayload hrail hplanned
    . exact hs.matched key preparation planRoot output hold hrail hplanned
  case preparations =>
    rw [hconsumed]
    exact hs.preparations
  case evidence => exact hs.evidence
  case accounted =>
    rw [hconsumed]
    exact hs.accounted
  case paid =>
    obtain ⟨log, hlog, hpaid⟩ := hs.paid
    refine ⟨log, ⟨hlog.nodup, ?_⟩, hpaid⟩
    rw [hconsumed]
    exact hlog.mem_iff

/-! Runs -/

structure SamePayouts (s s' : Ledger) : Prop where
  preparation_eq : s'.payouts.preparation = s.payouts.preparation
  output_eq : s'.payouts.output = s.payouts.output
  tapSettlement_eq : s'.payouts.tapSettlement = s.payouts.tapSettlement
  railSeen_grows : ∀ seen, (s.payouts.railSeen.get seen).isSome → (s'.payouts.railSeen.get seen).isSome
  paid_eq : ∀ key, (s'.liabilityEarned key).paidCumAu = (s.liabilityEarned key).paidCumAu

theorem SamePayouts.refl (s : Ledger) : SamePayouts s s := ⟨rfl, rfl, rfl, fun _ h => h, fun _ => rfl⟩

theorem PayoutsSound.of_same {s' : Ledger} (hs : PayoutsSound s) (h : SamePayouts s s') : PayoutsSound s' := by
  have hsettlements := Payouts.settlements_eq h.output_eq h.tapSettlement_eq
  have hconsumed : s'.payouts.consumedPreparation = s.payouts.consumedPreparation := by
    unfold Payouts.consumedPreparation
    rw [h.preparation_eq]
  constructor
  case keyed =>
    rw [h.preparation_eq]
    exact hs.keyed
  case matched =>
    rw [h.preparation_eq]
    exact hs.matched
  case preparations =>
    rw [hsettlements, hconsumed]
    exact hs.preparations
  case evidence =>
    rw [hsettlements]
    exact hs.evidence.mono h.railSeen_grows
  case accounted =>
    rw [hsettlements, hconsumed]
    exact hs.accounted
  case paid =>
    obtain ⟨log, hlog, hpaid⟩ := hs.paid
    refine ⟨log, ⟨hlog.nodup, ?_⟩, fun key => (h.paid_eq key).trans (hpaid key)⟩
    rw [hconsumed]
    exact hlog.mem_iff

namespace Ledger

variable {crypto : Crypto} {host : PayoutCrypto} {s s' : Ledger}

inductive PayoutStep (crypto : Crypto) (host : PayoutCrypto) : Ledger → Ledger → Prop where
  | op (s : Ledger) (op : PayoutOp) : op.Whole crypto host s → PayoutStep crypto host s (op.exec crypto host s)
  | other {s s' : Ledger} : SamePayouts s s' → PayoutStep crypto host s s'

theorem PayoutStep.sound (hstep : PayoutStep crypto host s s') (hs : PayoutsSound s) :
    PayoutsSound s' ∧ ∀ id use, s.payouts.settlements.get id = some use →
      s'.payouts.settlements.get id = some use := by
  -- all but the settlements keep the records of settlements as they are
  have hkeep {t : Ledger} (hsame : SamePayouts s t) : PayoutsSound t ∧ ∀ id use,
      s.payouts.settlements.get id = some use → t.payouts.settlements.get id = some use := by
    refine ⟨hs.of_same hsame, ?_⟩
    rw [Payouts.settlements_eq hsame.output_eq hsame.tapSettlement_eq]
    exact fun _ _ h => h
  have hsettle {t : Ledger} {id : SettlementId} {use : SettlementUse} {consumed : List Preparation}
      (h : Settles s t id use consumed) : PayoutsSound t ∧ ∀ id use,
      s.payouts.settlements.get id = some use → t.payouts.settlements.get id = some use :=
    ⟨h.sound hs, fun _ _ => h.settlement_stays⟩
  cases hstep with
  | other hsame => exact hkeep hsame
  | op op hwhole =>
    have hchange := op.change crypto host s
    generalize op.exec crypto host s = t at hchange
    cases hchange with
    | tnkSettled hprepare =>
      obtain ⟨_, _, _, h⟩ := prepareTnkOutput_settles hs hprepare
      exact hsettle h
    | fiatSettled hprepare =>
      obtain ⟨_, _, _, h⟩ := prepareFiatOutput_settles hs hprepare
      exact hsettle h
    | tapSettled hprepare => exact hsettle (prepareTapSettlement_settles hprepare)
    | tapCut hprepare hcut =>
      rw [hwhole.writeTapPlan_eq hcut]
      exact hkeep (.refl s)
    | prepared hprepare => exact ⟨hs.writePreparation hprepare, fun _ _ h => h⟩
    | none op => exact hkeep (.refl s)
    | planned | attemptOpened | attemptEnded | closed => exact hkeep ⟨rfl, rfl, rfl, fun _ h => h, fun _ => rfl⟩

theorem payoutsSound_of_run (hs : PayoutsSound s) (hrun : Relation.ReflTransGen (PayoutStep crypto host) s s') :
    PayoutsSound s' ∧ ∀ id use, s.payouts.settlements.get id = some use →
      s'.payouts.settlements.get id = some use := by
  refine Run.invariant (fun t => PayoutsSound t ∧ ∀ id use, s.payouts.settlements.get id = some use →
    t.payouts.settlements.get id = some use) ⟨hs, fun _ _ h => h⟩ ?_ hrun
  rintro t _ ⟨hsound, hkept⟩ hstep
  obtain ⟨hnext, hstays⟩ := hstep.sound hsound
  exact ⟨hnext, fun id use h => hstays id use (hkept id use h)⟩

end Ledger

/--
A preparation is consumed exactly if a settlement names it, and then only one does. Evidence serves one
settlement only, and a liability has been paid what its consumed preparations say.
-/
structure PaidExactlyOnce (s : Ledger) : Prop where
  consumed_iff : ∀ key, (s.payouts.consumedPreparation.get key).isSome ↔
    ∃ id use, s.payouts.settlements.get id = some use ∧ key ∈ use.preparations
  consumed_once : ∀ id id' use use' key, s.payouts.settlements.get id = some use →
    s.payouts.settlements.get id' = some use' → key ∈ use.preparations → key ∈ use'.preparations → id = id'
  evidence_once : ∀ id id' use use' seen, s.payouts.settlements.get id = some use →
    s.payouts.settlements.get id' = some use' → seen ∈ use.evidence → seen ∈ use'.evidence → id = id'
  paid : ∃ log, s.payouts.ConsumedLog log ∧
    ∀ key, (s.liabilityEarned key).paidCumAu = Tally.amount (log.filterMap Preparation.payment) key

theorem PayoutsSound.paidExactlyOnce (hs : PayoutsSound s) : PaidExactlyOnce s where
  consumed_iff := by
    intro key
    constructor
    . intro hsome
      obtain ⟨preparation, hget⟩ := Option.isSome_iff_exists.mp hsome
      exact hs.accounted key preparation hget
    . rintro ⟨id, use, hget, hmem⟩
      exact hs.preparations.held id use hget key hmem
  consumed_once := by
    intro id id' use use' key hget hget' hmem hmem'
    exact hs.preparations.apart id id' use use' hget hget' key hmem hmem'
  evidence_once := by
    intro id id' use use' seen hget hget' hmem hmem'
    exact hs.evidence.apart id id' use use' hget hget' seen hmem hmem'
  paid := hs.paid

namespace Ledger

variable {crypto : Crypto} {host : PayoutCrypto} {s s' : Ledger}

/--
Over a run of payout operations, no TAP settlement of which is rejected halfway, and of anything else, payouts
take effect exactly once. No settlement is forgotten.
-/
theorem payouts_exactly_once {start : Ledger} (hpayouts : start.payouts = .empty)
    (hunpaid : ∀ key, (start.liabilityEarned key).paidCumAu = 0)
    (hrun : Relation.ReflTransGen (PayoutStep crypto host) start s)
    (hlater : Relation.ReflTransGen (PayoutStep crypto host) s s') :
    PaidExactlyOnce s ∧ ∀ id use, s.payouts.settlements.get id = some use →
      s'.payouts.settlements.get id = some use := by
  have hs := (payoutsSound_of_run (.empty hpayouts hunpaid) hrun).1
  exact ⟨hs.paidExactlyOnce, (payoutsSound_of_run hs hlater).2⟩

/-! One root for two payouts -/

def twinRevisions : List Digest := [4, 5]

def unpaidTwin (earned : Ledger) : Ledger :=
  { earned with
    accounts := { earned.accounts with
      liability := Table.empty.putAll (twinRevisions.filterMap fun revision =>
        (earned.accounts.liability.get (30, .tap, revision)).map fun liability =>
          ((30, .tap, revision), liability)) }
    payouts := .empty }

theorem unpaidTwin_paidCumAu {earned : Ledger}
    (h : ∀ revision ∈ twinRevisions, (earned.accounts.liability.get (30, .tap, revision)).all
      (fun liability => liability.earned.paidCumAu == 0) = true) (key : PublicKey × Rail × Digest) :
    ((unpaidTwin earned).liabilityEarned key).paidCumAu = 0 := by
  cases hget : (unpaidTwin earned).accounts.liability.get key with
  | none =>
    rw [liabilityEarned, hget]
    rfl
  | some liability =>
    rw [liabilityEarned_of_stored hget]
    rcases Table.get_putAll_cases .empty _ key with hempty | ⟨_, hmem, hfound⟩
    . cases hempty.symm.trans hget
    . obtain rfl := Option.some.inj (hfound.symm.trans hget)
      obtain ⟨revision, hrevision, hentry⟩ := List.mem_filterMap.mp hmem
      obtain ⟨_, hstored, heq⟩ := Option.map_eq_some_iff.mp hentry
      obtain ⟨-, rfl⟩ := Prod.mk.inj heq
      have hunpaid := h revision hrevision
      rw [hstored] at hunpaid
      simpa using hunpaid

def twinRate (s : Ledger) : Ledger :=
  { s with payouts := { s.payouts with rate := s.payouts.rate.put 21600 tapRate } }

theorem twinRate_same (s : Ledger) : SamePayouts s (twinRate s) := ⟨rfl, rfl, rfl, fun _ h => h, fun _ => rfl⟩

def twinStart : Ledger := unpaidTwin (revisedLedger .tap)

def twinValue : TapSettlementValue :=
  { tapSettlementValue with
    preparationIds := [4, 5]
    cumulativeSpentWei := 80
    providerCumulativeClaimedWei := 60
    providerCount := 2
    providerPaidAu := 60
    providerTapWei := 60
    providerEntries := [⟨stintTarget .tap 4, 30⟩, ⟨stintTarget .tap 5, 30⟩]
    entries := [⟨stintTarget .tap 4, 30⟩, ⟨stintTarget .tap 5, 30⟩]
    outputs := [tapOutput 4 0, tapOutput 5 30] }

def twinPrepared : Ledger :=
  prepareTap (twinValue.expectedRoot plainPayoutHost)
    (prepareTap (twinValue.expectedOutput 5 (tapOutput 5 30) 1)
      (prepareTap (twinValue.expectedOutput 4 (tapOutput 4 0) 0) (twinRate twinStart)))

def twinSettled : Ledger :=
  (PayoutOp.tapSettlement 10 6 twinValue).exec stintHost plainPayoutHost twinPrepared

theorem twin_accepted :
    (twinPrepared.applyTargetedTapSettlementFeature stintHost plainPayoutHost 10 6 twinValue).2.toOption =
      some false ∧
    (twinSettled.liabilityEarned (30, .tap, 4)).paidCumAu = 30 ∧
    (twinSettled.liabilityEarned (30, .tap, 5)).paidCumAu = 30 ∧
    ∀ revision ∈ twinRevisions, ((revisedLedger .tap).accounts.liability.get (30, .tap, revision)).all
        (fun liability => liability.earned.paidCumAu == 0) = true := by
  decide +kernel

theorem twinSettled_of_run : Relation.ReflTransGen (PayoutStep stintHost plainPayoutHost) twinStart
    twinSettled := by
  have hprepare (expected : ExpectedPreparation) (s : Ledger) :
      PayoutStep stintHost plainPayoutHost s (prepareTap expected s) :=
    .op s (.prepare 10 1 expected.economicOpId (tapPreparation expected)) trivial
  have hprepared : Relation.ReflTransGen (PayoutStep stintHost plainPayoutHost) twinStart twinPrepared :=
    .tail (.tail (.tail (.single (.other (twinRate_same _))) (hprepare _ _)) (hprepare _ _)) (hprepare _ _)
  exact hprepared.tail (.op twinPrepared (.tapSettlement 10 6 twinValue) (whole_of_accepted twin_accepted.1))

/--
The root and the transactions of a TAP settlement are the evidence of all its outputs.
-/
theorem root_serves_two_outputs :
    Relation.ReflTransGen (PayoutStep stintHost plainPayoutHost) twinStart twinSettled ∧
      (twinPrepared.applyTargetedTapSettlementFeature stintHost plainPayoutHost 10 6 twinValue).2.toOption =
        some false ∧
      twinValue.outputs = [tapOutput 4 0, tapOutput 5 30] ∧ tapOutput 4 0 ≠ tapOutput 5 30 ∧
      (twinSettled.liabilityEarned (30, .tap, 4)).paidCumAu = 30 ∧
      (twinSettled.liabilityEarned (30, .tap, 5)).paidCumAu = 30 :=
  ⟨twinSettled_of_run, twin_accepted.1, rfl, by decide, twin_accepted.2.1, twin_accepted.2.2.1⟩

theorem payouts_exactly_once_twin : PaidExactlyOnce twinSettled :=
  (payouts_exactly_once rfl (unpaidTwin_paidCumAu twin_accepted.2.2.2) twinSettled_of_run .refl).1

end Ledger

end Mayhem
