import Mayhem.Payout.Accepted
import Mayhem.Payout.Tap

namespace Mayhem

structure SameTapRecords (s s' : Ledger) : Prop where
  earning_eq : s'.accounts.earning = s.accounts.earning
  liability_eq : s'.accounts.liability = s.accounts.liability
  tapClaim_eq : s'.payouts.tapClaim = s.payouts.tapClaim
  tapRefund_eq : s'.payouts.tapRefund = s.payouts.tapRefund
  tapState_eq : s'.payouts.tapState = s.payouts.tapState

theorem SameTapRecords.refl (s : Ledger) : SameTapRecords s s := ⟨rfl, rfl, rfl, rfl, rfl⟩

namespace TapSettlementValue

def lastPreparationId (value : TapSettlementValue) (provider : PublicKey) : Option Digest :=
  ((value.outputs.zip value.preparationIds).filter fun entry => entry.1.provider = provider).getLast?.map
    Prod.snd

/--
For every provider of the settlement the last preparation that was accepted is its last one here, and it is
not consumed.
-/
def EndsAtTails (value : TapSettlementValue) (payouts : Payouts) : Prop :=
  ∀ output ∈ value.outputs, ∃ tail, payouts.tail.get (.tap, output.provider) = some tail ∧
    tail.consumed = false ∧ value.lastPreparationId output.provider = some tail.economicOpId

end TapSettlementValue

def Preparation.link (preparation : Preparation) : Option (Rail × PublicKey) × Digest :=
  (preparation.tailKey, preparation.value.economicOpId)

namespace Ledger

variable {host : PayoutCrypto} {s : Ledger} {value : TapSettlementValue}

theorem validatePayoutPreparationRecord_link {rail : Rail} {expected : ExpectedPreparation}
    {preparation : Preparation} (h : s.validatePayoutPreparationRecord host rail expected = .ok preparation) :
    preparation.link = (expected.liability.map fun liability => (rail, liability.provider),
      expected.economicOpId) := by
  simp only [validatePayoutPreparationRecord, checks_iff, not_or, not_not, ne_eq] at h
  obtain ⟨_, -, ⟨hid, hrail, -, -, -, -, -, -, hliability, -⟩, -, -, -, rfl⟩ := h
  rw [Preparation.link, Preparation.tailKey, hliability, hrail, hid]

theorem tapOutputPreparations_links {outputs : List TapOutput} {first : Nat} {found : List Preparation}
    (h : (outputs.zipIdx first).mapM (s.tapOutputPreparation host value) = .ok found) :
    found.map Preparation.link = (outputs.zip (value.preparationIds.drop first)).map fun entry =>
      (some (Rail.tap, entry.1.provider), entry.2) := by
  induction outputs generalizing first found with
  | nil =>
    rw [List.zipIdx_nil, List.mapM_nil, Except.pure_accepts_iff] at h
    rw [← h]
    rfl
  | cons _ outputs ih =>
    simp only [List.zipIdx_cons, List.mapM_cons, checks_iff] at h
    obtain ⟨_, hpreparation, _, hrest, rfl⟩ := h
    simp only [tapOutputPreparation, checks_iff] at hpreparation
    obtain ⟨economicOpId, hid, hrecord⟩ := hpreparation
    have hdrop : value.preparationIds.drop first =
        economicOpId :: value.preparationIds.drop (first + 1) := List.drop_eq_getElem?_toList_append.trans (by
      rw [hid]; rfl)
    rw [hdrop, List.map_cons, List.zip_cons_cons, List.map_cons, ih hrest,
      validatePayoutPreparationRecord_link hrecord]
    rfl

variable {preparations : List Preparation}

theorem payoutPreparationsForSettlement_links
    (h : s.payoutPreparationsForSettlement host value = .ok preparations) :
    preparations.map Preparation.link = ((value.outputs.zip value.preparationIds).map fun entry =>
        (some (Rail.tap, entry.1.provider), entry.2)) ++ [(none, value.rootPreparationId)] := by
  simp only [payoutPreparationsForSettlement, checks_iff] at h
  obtain ⟨_, hfound, _, hroot, rfl⟩ := h
  rw [List.map_append, tapOutputPreparations_links hfound, List.drop_zero, List.map_singleton,
    validatePayoutPreparationRecord_link hroot]
  rfl

theorem length_outputs_le (h : s.payoutPreparationsForSettlement host value = .ok preparations) :
    value.outputs.length ≤ value.preparationIds.length := by
  simp only [payoutPreparationsForSettlement, checks_iff] at h
  obtain ⟨_, hfound, -, -, -⟩ := h
  have hlength := congrArg List.length (tapOutputPreparations_links hfound)
  have hsame := ((Except.mapM_accepts_iff _ _ _).mp hfound).length_eq
  rw [List.length_zipIdx] at hsame
  rw [List.length_map, List.length_map, List.length_zip, List.drop_zero, ← hsame] at hlength
  omega

theorem lastPreparation_link (preparations : List Preparation) (key : Rail × PublicKey) :
    (lastPreparation preparations key).map (fun preparation => preparation.value.economicOpId) =
      ((preparations.map Preparation.link).filter fun link => link.1 = some key).getLast?.map Prod.snd := by
  rw [List.filter_map, List.getLast?_map, Option.map_map]
  rfl

theorem consumable_iff_endsAtTails {payouts : Payouts}
    (h : s.payoutPreparationsForSettlement host value = .ok preparations) :
    (∃ tails, payouts.validatePayoutPreparationConsumption preparations = .ok tails) ↔
      value.EndsAtTails payouts := by
  have hlinks := payoutPreparationsForSettlement_links h
  have hkeys : ∀ key, key ∈ (preparations.filterMap Preparation.tailKey).eraseDups ↔
      ∃ output ∈ value.outputs, (Rail.tap, output.provider) = key := by
    intro key
    have hfst : preparations.map Preparation.tailKey =
        value.outputs.map (fun output => some (Rail.tap, output.provider)) ++ [none] := by
      have hmap := congrArg (List.map Prod.fst) hlinks
      rw [List.map_map, List.map_append, List.map_map] at hmap
      have houtputs := congrArg (List.map fun output : TapOutput => some (Rail.tap, output.provider))
        (List.map_fst_zip (length_outputs_le h))
      rw [List.map_map] at houtputs
      rw [← houtputs]
      exact hmap
    rw [List.mem_eraseDups, List.mem_filterMap]
    have hmem : (∃ preparation ∈ preparations, preparation.tailKey = some key) ↔
        some key ∈ preparations.map Preparation.tailKey := List.mem_map.symm
    rw [hmem, hfst, List.mem_append, List.mem_map]
    simp
  have hlast (provider : PublicKey) : (lastPreparation preparations (.tap, provider)).map
          (fun preparation => preparation.value.economicOpId) = value.lastPreparationId provider := by
    rw [lastPreparation_link, hlinks, List.filter_append, TapSettlementValue.lastPreparationId]
    have hfilter : (value.outputs.zip value.preparationIds).filter ((fun link : Option (Rail × PublicKey) ×
        Digest => decide (link.1 = some (Rail.tap, provider))) ∘ fun entry =>
          (some (Rail.tap, entry.1.provider), entry.2)) =
        (value.outputs.zip value.preparationIds).filter fun entry => entry.1.provider = provider := by
      refine List.filter_congr fun entry _ => ?_
      simp
    rw [List.filter_map, hfilter]
    simp only [List.filter_cons, List.filter_nil, reduceCtorEq, decide_false, Bool.false_eq_true, if_false,
      List.append_nil, List.getLast?_map, Option.map_map]
    rfl
  unfold Payouts.validatePayoutPreparationConsumption
  rw [Except.exists_mapM_iff]
  simp only [hkeys]
  constructor
  . intro hall output houtput
    obtain ⟨entry, hentry⟩ := hall _ ⟨output, houtput, rfl⟩
    simp only [Payouts.consumableTail, checks_iff, not_or, not_not, ne_eq, Bool.not_eq_true] at hentry
    obtain ⟨preparation, hpreparation, tail, htail, ⟨hid, hconsumed⟩, -⟩ := hentry
    refine ⟨tail, htail, hconsumed, ?_⟩
    rw [← hlast, hpreparation, Option.map_some, hid]
  . rintro hall _ ⟨output, houtput, rfl⟩
    obtain ⟨tail, htail, hconsumed, hid⟩ := hall output houtput
    rw [← hlast, Option.map_eq_some_iff] at hid
    obtain ⟨preparation, hpreparation, hid⟩ := hid
    refine ⟨((.tap, output.provider), tail), ?_⟩
    simp only [Payouts.consumableTail, checks_iff, not_or, not_not, ne_eq, Bool.not_eq_true]
    exact ⟨preparation, hpreparation, tail, htail, ⟨hid.symm, hconsumed⟩, rfl⟩

theorem prepareTapSettlement_eq_some {crypto : Crypto} {sender : PublicKey} {key : Digest} {plan : TapPlan}
    (h : s.prepareTapSettlement crypto host sender key value = .ok (some plan)) :
    s.payoutPreparationsForSettlement host value = .ok plan.preparations ∧ plan.state.lastEpoch = value.epoch ∧
      ∀ state, s.payouts.tapState.get value.payment.scope = some state → state.lastEpoch < value.epoch := by
  obtain ⟨-, -, _, hplan⟩ := prepareTapSettlement_planned h
  simp only [planTapSettlement, checks_iff] at hplan
  obtain ⟨-, preparations, hpreparations, state, hstate, -, -, -, -, -, -, -, -, rfl⟩ := hplan
  refine ⟨hpreparations, rfl, ?_⟩
  intro _ hstored
  simp only [validateTapState, checks_iff, not_le] at hstate
  obtain ⟨-, -, -, -, hepoch, -⟩ := hstate
  rw [Payouts.tapStateFor, hstored, Option.getD_some] at hepoch
  exact hepoch

/--
A rejected settlement changes none of its records exactly if it failed an earlier check or ended at the tails of
its providers.
-/
theorem tap_settlement_atomic_iff (crypto : Crypto) (host : PayoutCrypto) (s : Ledger) (sender : PublicKey)
    (key : Digest) (value : TapSettlementValue) :
    (∀ message, (s.applyTargetedTapSettlementFeature crypto host sender key value).2 = .error message →
        SameTapRecords s (s.applyTargetedTapSettlementFeature crypto host sender key value).1) ↔
      ∀ plan, s.prepareTapSettlement crypto host sender key value = .ok (some plan) →
        value.EndsAtTails s.payouts := by
  unfold applyTargetedTapSettlementFeature
  cases hprepare : s.prepareTapSettlement crypto host sender key value with
  | error message =>
    constructor
    . intro _ plan hplan
      cases hplan
    . intro _ message _
      exact SameTapRecords.refl s
  | ok found =>
    cases found with
    | none =>
      constructor
      . intro _ plan hplan
        cases hplan
      . intro _ message hmessage
        cases hmessage
    | some plan =>
      obtain ⟨hpreparations, _, hstored⟩ := prepareTapSettlement_eq_some hprepare
      have hconsumable : (∃ tails, (s.writeTapPlan value plan).payouts.validatePayoutPreparationConsumption
          plan.preparations = .ok tails) ↔ value.EndsAtTails s.payouts :=
        consumable_iff_endsAtTails hpreparations
      dsimp only [targetedTapSettlement]
      constructor
      . intro hsame _ _
        rw [← hconsumable]
        by_contra hnot
        -- the state has moved to the epoch of the settlement by the time the tails are looked at
        have herror : ∃ message, (s.writeTapPlan value plan).payouts.consumePayoutPreparations
            plan.preparations = .error message := by
          unfold Payouts.consumePayoutPreparations
          cases htails : (s.writeTapPlan value plan).payouts.validatePayoutPreparationConsumption
            plan.preparations with
          | error message => exact ⟨message, rfl⟩
          | ok tails => exact absurd ⟨tails, htails⟩ hnot
        obtain ⟨message, herror⟩ := herror
        rw [herror] at hsame
        have hstate := congrArg (fun table => table.get value.payment.scope)
          (hsame message rfl).tapState_eq
        have hwritten : (s.writeTapPlan value plan).payouts.tapState.get value.payment.scope =
          some plan.state := Table.get_put_self _ _ _
        have hlt := hstored plan.state (hstate.symm.trans hwritten)
        omega
      . intro hends message hmessage
        obtain ⟨tails, htails⟩ := hconsumable.mpr (hends plan rfl)
        rw [Payouts.consumePayoutPreparations, htails] at hmessage
        cases hmessage

def tapPayment : TapPaymentScope := ⟨⟨1, 8⟩, 7, 1⟩

def tapSplit : TapSplit := ⟨1500, 1000, 7500⟩

def tapRateLock : TapRateLock := ⟨6, 0, 1000000000000000000, "gate-spot", 21600, 21600, 10, tapPayment⟩

def tapRate : RateRecord := ⟨⟨.tapUsdAu, 1000000000000000000, "gate-spot", 21600⟩, 21600, 10, .admin⟩

def tapOutput (revision : Digest) (aggregatePaidCumAuBefore : Nat) : TapOutput :=
  ⟨30, revision, stintTarget .tap revision, 0, aggregatePaidCumAuBefore, 30, 30, 0, 30⟩

def tapEntries : List TapEntry := [⟨stintTarget .tap 4, 30⟩]

def tapSettlementValue : TapSettlementValue where
  epoch := 6
  time := 21600
  payment := tapPayment
  epochApplyHash := 0
  preparationIds := [4]
  rootPreparationId := 100
  externalEffectIds := [101, 102]
  rateLock := tapRateLock
  root := 0
  rootConfirmed := true
  proposalTx := 101
  proposalBlockNumber := 1
  executionTx := 102
  executionStatus := 1
  executionBlockNumber := 2
  finalizedBlockNumber := 20
  confirmationDepth := 18
  confirmationPolicy := .finalizedTag
  cumulativeSpentWei := 40
  providerCumulativeClaimedWei := 30
  buyerRefundWei := 0
  split := tapSplit
  providerCount := 1
  providerPaidAu := 30
  providerTapWei := 30
  providerEntries := tapEntries
  refunds := []
  entries := tapEntries
  outputs := [tapOutput 4 0]

def tapPreparation (expected : ExpectedPreparation) : PreparationValue where
  contractVersion := contractVersion
  economicOpId := expected.economicOpId
  rail := .tap
  epoch := expected.epoch
  epochApplyHash := expected.epochApplyHash
  preparedAt := 21600
  kind := expected.kind
  outputIndex := expected.outputIndex
  payloadHash := 0
  payload := expected.payload
  liability := expected.liability
  externalEffectIds := expected.externalEffectIds
  admin := 10
  adminSig := 0

def prepareTap (expected : ExpectedPreparation) (s : Ledger) : Ledger :=
  (s.applyTargetedPayoutPreparationFeature stintHost plainPayoutHost 10 1 expected.economicOpId
    (tapPreparation expected)).1

def tapPrepared : Ledger :=
  let earned := revisedLedger .tap
  let rated := { earned with payouts := { earned.payouts with
    rate := earned.payouts.rate.put 21600 tapRate } }
  prepareTap (tapSettlementValue.expectedRoot plainPayoutHost)
    (prepareTap (tapSettlementValue.expectedOutput 4 (tapOutput 4 0) 0) rated)

def tapOvertaken : Ledger := prepareTap (tapSettlementValue.expectedOutput 5 (tapOutput 5 30) 1) tapPrepared

def paidAu (s : Ledger) : Nat × Nat :=
  (((s.accounts.earning.get (30, .tap)).map fun record => record.earned.paidCumAu).getD 0,
    ((s.accounts.liability.get (30, .tap, 4)).map fun record => record.earned.paidCumAu).getD 0)

/--
The settlement is rejected with the provider paid, and cannot be sent again.
-/
theorem overtaken_settlement_half_written :
    ∃ s', tapOvertaken.applyTargetedTapSettlementFeature stintHost plainPayoutHost 10 6 tapSettlementValue =
        (s', .error "Targeted payout preparation aggregate tail mismatch.") ∧
      paidAu tapOvertaken = (0, 0) ∧ paidAu s' = (30, 30) ∧
      (tapOvertaken.payouts.tapClaim.get (⟨1, 8⟩, stintTarget .tap 4)).isNone ∧
      (s'.payouts.tapClaim.get (⟨1, 8⟩, stintTarget .tap 4)).map TapCumulative.cumulativeWei = some 30 ∧
      (tapOvertaken.payouts.tapState.get ⟨1, 8⟩).isNone ∧
      (s'.payouts.tapState.get ⟨1, 8⟩).map TapSettlementState.lastEpoch = some 6 ∧
      (s'.applyTargetedTapSettlementFeature stintHost plainPayoutHost 10 6 tapSettlementValue).2.message =
        some "Targeted TAP settlement root was already consumed." := by
  generalize houtcome : tapOvertaken.applyTargetedTapSettlementFeature stintHost plainPayoutHost 10 6
    tapSettlementValue = outcome
  refine ⟨outcome.1, Prod.ext rfl (Except.message_eq_some_iff.mp ?_), ?_⟩
  all_goals
    rw [← houtcome]
    decide +kernel

end Ledger

end Mayhem
