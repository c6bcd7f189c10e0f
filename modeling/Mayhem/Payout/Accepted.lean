import Mayhem.Payout.Refresh
import Mayhem.Payout.Prepare
import Mayhem.ExactlyOnce
import Mayhem.Price

namespace Mayhem

namespace Ledger

/-! The steps of the completeness check -/

structure PlannedOutput (s : Ledger) (value : PlanValue) (param : ParamKey → Nat)
    (cursors : Table PublicKey Nat) (entry : PublicKey × Digest) (output : PlanOutput)
    (party : PayoutParty) (liability : PayoutLiability) (record : ProviderRecord)
    (binding : PayoutBinding) (refreshed : Earned) : Prop where
  output_eq : value.outputOf entry = some output
  party_eq : output.party = some party
  liability_eq : s.accounts.liability.get (entry.1, value.rail, entry.2) = some liability
  valid : guardianValidatePayoutLiabilityRecord liability value.rail = .ok ()
  record_eq : s.registry.providers.get entry.1 = some record
  binding_eq : ∀ message, s.registry.payoutBindingFor value.rail entry.1 entry.2 value.epoch message = .ok binding
  binding_target : binding.target = liability.target
  binding_currency : binding.currency = liability.currency
  binding_chainId : binding.chainId = liability.chainId
  refreshed_eq : s.refreshForPayout value.epoch param entry.1 record liability.earned = .ok refreshed
  heldAu_add : refreshed.heldAu + refreshed.paidCumAu ≤ refreshed.totalAu
  covers : output.amount.covers (refreshed.totalAu - refreshed.paidCumAu - refreshed.heldAu) binding
  target_eq : output.target = binding.target
  paidCumAu_eq : party.paidCumAuBefore = refreshed.paidCumAu
  cursor_eq : s.planCursor value param entry.1 record (cursors.get entry.1) = .ok party.aggregatePaidCumAuBefore

inductive PlanStep (s : Ledger) (value : PlanValue) (param : ParamKey → Nat) (progress : PlanProgress)
    (entry : PublicKey × Digest) : PlanProgress → Prop
  | settled (houtput : value.outputOf entry = none) (hcarry : value.carryOf entry = none) :
      PlanStep s value param progress entry progress
  | carried (carry : PayoutCarry) (houtput : value.outputOf entry = none)
      (hcarry : value.carryOf entry = some carry) :
      PlanStep s value param progress entry ⟨entry :: progress.classified, progress.cursors⟩
  | paid (output : PlanOutput) (party : PayoutParty) (liability : PayoutLiability)
      (record : ProviderRecord) (binding : PayoutBinding) (refreshed : Earned)
      (h : PlannedOutput s value param progress.cursors entry output party liability record binding
        refreshed) :
      PlanStep s value param progress entry ⟨entry :: progress.classified,
        progress.cursors.put entry.1 (party.aggregatePaidCumAuBefore + output.paidAu)⟩

theorem planLiability_eq_ok {s : Ledger} {value : PlanValue} {param : ParamKey → Nat}
    {progress next : PlanProgress} {entry : PublicKey × Digest}
    (h : s.planLiability value param progress entry = .ok next) :
    PlanStep s value param progress entry next := by
  simp only [planLiability, checks_iff, Except.mapError_accepts_iff, safeSubAu] at h
  obtain ⟨liability, hliability, -, hvalid, record, hrecord, _, binding, hbinding, _, refreshed,
    hrefreshed, _, ⟨_, houtstanding⟩, _, ⟨_, hpayable⟩, h⟩ := h
  split at h
  . simp only [checks_iff, not_or, Bool.not_eq_true, Option.isSome_eq_false_iff, Option.isNone_iff_eq_none] at h
    obtain ⟨⟨houtput, hcarry⟩, rfl⟩ := h
    exact .settled houtput hcarry
  . split at h
    . simp only [planCarried, checks_iff, not_or, Bool.not_eq_true, Option.isSome_eq_false_iff,
        Option.isNone_iff_eq_none, ne_eq, not_not] at h
      obtain ⟨⟨houtput, hcarry⟩, rfl⟩ := h
      exact .carried _ houtput hcarry
    . simp only [planPayable, checks_iff, not_or, ne_eq, not_not] at h
      obtain ⟨output, houtput, party, hparty, ⟨-, htarget, hbefore, hcovers⟩, _, hcursor, haggregate, rfl⟩ := h
      subst haggregate
      refine .paid output party liability record binding refreshed ⟨houtput, hparty, hliability, hvalid,
        hrecord, ?_, ?_, ?_, ?_, hrefreshed, ?_, ?_, htarget, hbefore, hcursor⟩
      . intro _
        simp only [Registry.payoutBindingFor, checks_iff] at hbinding ⊢
        exact hbinding
      . tauto
      . tauto
      . tauto
      . omega
      . rw [houtstanding, hpayable]
        exact hcovers

/-! The order of liabilities -/

theorem liabilityEntryLe_iff (a b : PublicKey × Digest) : liabilityEntryLe a b ↔ a.1 < b.1 ∨ a.1 = b.1 ∧
    a.2 ≤ b.2 := by
  have hlt : [b.1, b.2] < [a.1, a.2] ↔ b.1 < a.1 ∨ b.1 = a.1 ∧ b.2 < a.2 := by
    simp only [List.cons_lt_cons_iff, List.not_lt_nil, and_false, or_false]
  unfold liabilityEntryLe
  rw [← not_lt, hlt, not_or, not_and, not_lt]
  constructor
  . rintro ⟨hle, himp⟩
    rcases Nat.lt_or_eq_of_le hle with hlt | heq
    . exact .inl hlt
    . exact .inr ⟨heq, Nat.le_of_not_lt (himp heq.symm)⟩
  . rintro (hlt | ⟨heq, hle⟩)
    . exact ⟨Nat.le_of_lt hlt, fun heq => absurd heq (Nat.ne_of_gt hlt)⟩
    . exact ⟨Nat.le_of_eq heq, fun _ => Nat.not_lt_of_le hle⟩

instance : Std.Total liabilityEntryLe := ⟨fun a b => le_total [a.1, a.2] [b.1, b.2]⟩

instance : IsTrans (PublicKey × Digest) liabilityEntryLe := ⟨fun _ _ _ => le_trans⟩

theorem providerPayoutLiabilityIndex_sorted {accounts : Accounts} {rail : Rail} {index : LiabilityIndex}
    (h : providerPayoutLiabilityIndex accounts rail = .ok index) :
    index.entries.Nodup ∧ index.entries.Pairwise liabilityEntryLe := by
  unfold providerPayoutLiabilityIndex at h
  split at h
  . rw [Except.pure_accepts_iff] at h
    rw [← h]
    exact ⟨List.nodup_nil, List.Pairwise.nil⟩
  . simp only [checks_iff, not_or, not_not, ne_eq] at h
    obtain ⟨-, ⟨hnodup, hsorted⟩, rfl⟩ := h
    refine ⟨hnodup, ?_⟩
    rw [← hsorted]
    exact List.pairwise_insertionSort _ _

theorem before_trans {a b c : PlanOutput} (hab : a.before b = true) (hbc : b.before c = true) :
    a.before c = true := by
  unfold PlanOutput.before at *
  cases ha : a.party with
  | none =>
    cases hb : b.party with
    | none =>
      cases hc : c.party with
      | none =>
        simp only [ha, hb, hc, decide_eq_true_eq] at *
        exact Nat.lt_trans hab hbc
      | some r => simp [hb, hc] at hbc
    | some m => simp [ha, hb] at hab
  | some =>
    cases hc : c.party with
    | none => rfl
    | some r =>
      cases hb : b.party with
      | none => simp [hb, hc] at hbc
      | some m =>
        simp only [ha, hb, hc, decide_eq_true_eq] at *
        rcases hab with hab | ⟨hab, hab'⟩
        . rcases hbc with hbc | ⟨hbc, -⟩
          . exact .inl (Nat.lt_trans hab hbc)
          . exact .inl (hbc ▸ hab)
        . rcases hbc with hbc | ⟨hbc, hbc'⟩
          . exact .inl (hab ▸ hbc)
          . exact .inr ⟨hab.trans hbc, Nat.lt_trans hab' hbc'⟩

instance : Trans (fun a b : PlanOutput => a.before b = true) (fun a b : PlanOutput => a.before b = true)
    (fun a b : PlanOutput => a.before b = true) := ⟨before_trans⟩

theorem liabilityKey_of_party {output : PlanOutput} {party : PayoutParty} (h : output.party = some party) :
    output.liabilityKey = some (party.provider, party.payoutRevision) := by
  rw [PlanOutput.liabilityKey, h]
  rfl

/-! Accepted plans -/

structure AcceptedPlan (s : Ledger) (value : PlanValue) : Prop where
  not_tap : value.rail ≠ .tap
  outputs_ok : ∀ output ∈ value.outputs, ∃ index,
    normalizeTargetedPayoutPlanOutput value.rail output index = .ok ()
  ordered : value.outputs.Pairwise fun left right => left.before right = true
  complete : s.validateTargetedPayoutEpochCompleteness value (s.registry.activeParamAt value.time) = .ok ()

theorem acceptedPlan_of_apply {crypto : Crypto} {host : PayoutCrypto} {s s' : Ledger} {sender : PublicKey}
    {key : Digest} {value : PlanValue}
    (h : s.applyTargetedPayoutEpochFeature crypto host sender key value = (s', .ok false)) :
    AcceptedPlan s value ∧ s' = s.writePlan value := by
  unfold applyTargetedPayoutEpochFeature at h
  split at h
  . cases h
  . next hprepare =>
    obtain rfl := (Prod.mk.inj h).1
    refine ⟨?_, rfl⟩
    simp only [preparePayoutEpoch, checks_iff] at hprepare
    obtain ⟨hnormal, -, -, -, hplan⟩ := hprepare
    simp only [normalizeTargetedPayoutEpochValue, checks_iff, not_or, not_not, not_exists, not_and,
      ne_eq] at hnormal
    obtain ⟨hshape, _, hanswers, -, -, hchain, -⟩ := hnormal
    split at hplan
    . simp at hplan
    . simp only [validatePayoutEpochPlan, checks_iff] at hplan
      obtain ⟨⟨-, -, hcomplete⟩, -⟩ := hplan
      refine ⟨hshape.2.1, ?_, hchain.pairwise, hcomplete⟩
      intro output houtput
      obtain ⟨index, hindex⟩ := List.mem_iff_getElem?.mp houtput
      have hentry : (output, index) ∈ value.outputs.zipIdx := List.mem_zipIdx_iff_getElem?.mpr hindex
      obtain ⟨_, -, hanswer⟩ := Except.exists_of_mem_mapM hanswers hentry
      exact ⟨index, hanswer⟩
  . cases h

namespace AcceptedPlan

variable {s : Ledger} {value : PlanValue}

theorem outputOf_eq (h : AcceptedPlan s value) {output : PlanOutput} {entry : PublicKey × Digest}
    (houtput : output ∈ value.outputs) (hkey : output.liabilityKey = some entry) :
    value.outputOf entry = some output := by
  obtain ⟨earlier, later, heq⟩ := List.append_of_mem houtput
  refine List.find?_eq_some_iff_append.mpr ⟨by simp [hkey], earlier, later, heq, ?_⟩
  intro other hother
  have hordered := h.ordered
  rw [heq, List.pairwise_append] at hordered
  have hbefore := hordered.2.2 other hother output List.mem_cons_self
  rw [Bool.not_eq_true', decide_eq_false_iff_not]
  intro hsame
  obtain ⟨_, hl, rfl⟩ := Option.map_eq_some_iff.mp hsame
  obtain ⟨_, hr, heq⟩ := Option.map_eq_some_iff.mp hkey
  rw [Prod.mk.injEq] at heq
  simp [PlanOutput.before, hl, hr, heq.1, heq.2] at hbefore

theorem first_before (h : AcceptedPlan s value) {first output : PlanOutput}
    (hfirst : value.outputs.find? (fun output => output.party.isSome) = some first)
    (houtput : output ∈ value.outputs) (hparty : output.party.isSome = true) :
    output = first ∨ first.before output = true := by
  obtain ⟨_, _, _, heq, hnone⟩ := List.find?_eq_some_iff_append.mp hfirst
  have hordered := h.ordered
  rw [heq, List.pairwise_append, List.pairwise_cons] at hordered
  rw [heq, List.mem_append, List.mem_cons] at houtput
  rcases houtput with houtput | rfl | houtput
  . have hparty' := hnone output houtput
    simp [hparty] at hparty'
  . exact .inl rfl
  . exact .inr (hordered.2.1.1 output houtput)

end AcceptedPlan

/-! The whole check -/

section Completeness

variable {s : Ledger} {value : PlanValue} {param : ParamKey → Nat}

theorem planLiabilities_classified {entries : List (PublicKey × Digest)} {progress next : PlanProgress}
    (h : entries.foldlM (s.planLiability value param) progress = .ok next) :
    ∃ named, next.classified = named ++ progress.classified ∧ named.reverse.Sublist entries ∧
      ∀ entry ∈ named, (value.outputOf entry).isSome ∨ (value.carryOf entry).isSome := by
  induction entries generalizing progress with
  | nil =>
    rw [List.foldlM_nil, Except.pure_accepts_iff] at h
    exact ⟨[], by rw [h]; rfl, List.Sublist.refl _, by simp⟩
  | cons entry entries ih =>
    rw [List.foldlM_cons, Except.bind_accepts_iff] at h
    obtain ⟨middle, hmiddle, h⟩ := h
    obtain ⟨named, hnamed, hsub, hsome⟩ := ih h
    -- an entry is either passed over or put in front of those classified so far
    have hadd (hentry : (value.outputOf entry).isSome ∨ (value.carryOf entry).isSome)
        (hmiddle : middle.classified = entry :: progress.classified) :
        ∃ named, next.classified = named ++ progress.classified ∧ named.reverse.Sublist (entry :: entries) ∧
          ∀ entry ∈ named, (value.outputOf entry).isSome ∨ (value.carryOf entry).isSome := by
      refine ⟨named ++ [entry], ?_, ?_, ?_⟩
      . rw [hnamed, hmiddle, List.append_assoc, List.singleton_append]
      . rw [List.reverse_append, List.reverse_singleton, List.singleton_append]
        exact hsub.cons_cons entry
      . intro other hother
        rcases List.mem_append.mp hother with hother | hother
        . exact hsome other hother
        . rw [List.mem_singleton.mp hother]
          exact hentry
    cases planLiability_eq_ok hmiddle with
    | settled houtput hcarry => exact ⟨named, hnamed, hsub.cons entry, hsome⟩
    | carried _ houtput hcarry => exact hadd (.inr (by rw [hcarry]; rfl)) rfl
    | paid _ _ _ _ _ _ hplanned =>
      exact hadd (.inl (by rw [hplanned.output_eq]; rfl)) rfl

theorem planLiabilities_cursors {entries : List (PublicKey × Digest)} {progress next : PlanProgress}
    {provider : PublicKey} (h : entries.foldlM (s.planLiability value param) progress = .ok next)
    (hnone : ∀ entry ∈ entries, entry.1 = provider → value.outputOf entry = none) :
    next.cursors.get provider = progress.cursors.get provider := by
  refine Except.foldlM_invariant (fun p => p.cursors.get provider = progress.cursors.get provider) ?_ rfl h
  intro _ entry next hentry hcurrent hnext
  cases planLiability_eq_ok hnext with
  | settled | carried => exact hcurrent
  | paid _ _ _ _ _ _ hplanned =>
    refine (Table.get_put_of_ne _ _ ?_).trans hcurrent
    intro heq
    cases (hnone entry hentry heq.symm).symm.trans hplanned.output_eq

end Completeness

namespace AcceptedPlan

variable {s : Ledger} {value : PlanValue}

theorem length_liabilityKeys (outputs : List PlanOutput) : (outputs.filterMap PlanOutput.liabilityKey).length =
      (outputs.filter fun output => output.party.isSome).length := by
  rw [List.length_filterMap_eq_countP, List.countP_eq_length_filter]
  simp [PlanOutput.liabilityKey, Option.isSome_map]

theorem exists_planned (h : AcceptedPlan s value) {output : PlanOutput} {party : PayoutParty}
    (houtput : output ∈ value.outputs) (hparty : output.party = some party) :
    ∃ index earlier later progress liability record binding refreshed,
      providerPayoutLiabilityIndex s.accounts value.rail = .ok index ∧
      index.entries = earlier ++ (party.provider, party.payoutRevision) :: later ∧
      earlier.foldlM (s.planLiability value (s.registry.activeParamAt value.time)) ⟨[], .empty⟩ = .ok progress ∧
      PlannedOutput s value (s.registry.activeParamAt value.time) progress.cursors
        (party.provider, party.payoutRevision) output party liability record binding refreshed := by
  have hkey := liabilityKey_of_party hparty
  have hcomplete := h.complete
  simp only [validateTargetedPayoutEpochCompleteness, checks_iff, ne_eq, not_not] at hcomplete
  obtain ⟨index, hindex, progress, hprogress, hlength, -⟩ := hcomplete
  obtain ⟨named, hnamed, hsub, hsome⟩ := planLiabilities_classified hprogress
  rw [List.append_nil] at hnamed
  rw [hnamed] at hlength
  have hnodup : named.Nodup := List.nodup_reverse.mp (hsub.nodup (providerPayoutLiabilityIndex_sorted hindex).1)
  have hsubset : named ⊆ value.outputs.filterMap PlanOutput.liabilityKey ++ value.carry.map PayoutCarry.key := by
    intro entry hentry
    rw [List.mem_append]
    rcases hsome entry hentry with hout | hcarry
    . obtain ⟨found, hfound⟩ := Option.isSome_iff_exists.mp hout
      refine .inl (List.mem_filterMap.mpr ⟨found, List.mem_of_find?_eq_some hfound, ?_⟩)
      simpa using List.find?_some hfound
    . obtain ⟨found, hfound⟩ := Option.isSome_iff_exists.mp hcarry
      refine .inr (List.mem_map.mpr ⟨found, List.mem_of_find?_eq_some hfound, ?_⟩)
      simpa using List.find?_some hfound
  have hperm := (hnodup.subperm hsubset).perm_of_length_le (by
    rw [List.length_append, List.length_map, length_liabilityKeys, hlength]
    omega)
  have hmem : (party.provider, party.payoutRevision) ∈ index.entries := by
    refine hsub.subset (List.mem_reverse.mpr (hperm.mem_iff.mpr (List.mem_append_left _ ?_)))
    exact List.mem_filterMap.mpr ⟨output, houtput, hkey⟩
  obtain ⟨earlier, later, hsplit⟩ := List.append_of_mem hmem
  rw [hsplit, List.foldlM_append, Except.bind_accepts_iff] at hprogress
  obtain ⟨before, hbefore, hrest⟩ := hprogress
  rw [List.foldlM_cons, Except.bind_accepts_iff] at hrest
  obtain ⟨_, hafter, -⟩ := hrest
  have hfind := h.outputOf_eq houtput hkey
  cases planLiability_eq_ok hafter with
  | settled hnone | carried _ hnone => cases hfind.symm.trans hnone
  | paid _ _ liability record binding refreshed hplanned =>
    have heq := hplanned.output_eq
    rw [hfind, Option.some.injEq] at heq
    subst heq
    have heq := hplanned.party_eq
    rw [hparty, Option.some.injEq] at heq
    subst heq
    exact ⟨index, earlier, later, before, liability, record, binding, refreshed, hindex, hsplit,
      hbefore, hplanned⟩

theorem exists_planned_first (h : AcceptedPlan s value) {output : PlanOutput} {party : PayoutParty}
    (hfirst : value.outputs.find? (fun output => output.party.isSome) = some output)
    (hparty : output.party = some party) :
    ∃ cursors liability record binding refreshed earning,
      PlannedOutput s value (s.registry.activeParamAt value.time) cursors
        (party.provider, party.payoutRevision) output party liability record binding refreshed ∧
      s.earningRecord party.provider value.rail = .ok earning ∧
      party.aggregatePaidCumAuBefore = earning.earned.paidCumAu := by
  obtain ⟨_, _, _, progress, liability, record, binding, refreshed, hindex, hsplit, hearlier,
    hplanned⟩ := h.exists_planned (List.mem_of_find?_eq_some hfirst) hparty
  obtain ⟨hnodup, hsorted⟩ := providerPayoutLiabilityIndex_sorted hindex
  rw [hsplit] at hnodup hsorted
  -- an earlier entry of the provider with an output of its own would come before the first output
  have hnone : progress.cursors.get party.provider = none := by
    rw [planLiabilities_cursors hearlier]
    . rfl
    . intro entry hentry hprovider
      by_contra hsome
      obtain ⟨other, hother⟩ := Option.ne_none_iff_exists'.mp hsome
      have hkey : other.liabilityKey = some entry := by simpa using List.find?_some hother
      obtain ⟨_, hparty', heq⟩ := Option.map_eq_some_iff.mp hkey
      have hle := (List.pairwise_append.mp hsorted).2.2 entry hentry _ List.mem_cons_self
      have hne : entry ≠ (party.provider, party.payoutRevision) :=
        (List.nodup_append.mp hnodup).2.2 entry hentry _ List.mem_cons_self
      rcases h.first_before hfirst (List.mem_of_find?_eq_some hother) (by rw [hparty']; rfl) with
        rfl | hbefore
      . rw [liabilityKey_of_party hparty, Option.some.injEq] at hkey
        exact hne hkey.symm
      . simp only [PlanOutput.before, hparty, hparty', decide_eq_true_eq] at hbefore
        subst heq
        rw [liabilityEntryLe_iff] at hle
        dsimp only at hle hprovider hbefore
        rcases hbefore with hbefore | ⟨-, hbefore⟩
        . rw [hprovider] at hbefore
          exact Nat.lt_irrefl _ hbefore
        . rcases hle with hle | ⟨-, hle⟩
          . rw [hprovider] at hle
            exact Nat.lt_irrefl _ hle
          . exact Nat.not_lt_of_le hle hbefore
  have hcursor := hplanned.cursor_eq
  rw [hnone] at hcursor
  simp only [planCursor, checks_iff] at hcursor
  obtain ⟨earning, hearning, -, _, hrefresh, hpaid⟩ := hcursor
  rw [refreshForPayout_paidCumAu hrefresh] at hpaid
  exact ⟨_, liability, record, binding, refreshed, earning, hplanned, hearning, hpaid.symm⟩

end AcceptedPlan

/-! The first preparation -/

section Preparation

variable {s : Ledger} {value : PlanValue} {param : ParamKey → Nat} {cursors : Table PublicKey Nat}
variable {entry : PublicKey × Digest} {output : PlanOutput} {party : PayoutParty}
variable {liability : PayoutLiability} {record : ProviderRecord} {binding : PayoutBinding}
variable {refreshed : Earned}

theorem guardianLiabilityRecord_eq_ok {rail : Rail}
    (h : guardianValidatePayoutLiabilityRecord liability rail = .ok ()) :
    guardianValidateLiabilityScope liability rail = .ok () ∧
      liability.earned.heldAu + liability.earned.paidCumAu ≤ liability.earned.totalAu ∧
      ∃ message, guardianValidateBuckets liability.earned message = .ok () := by
  simp only [guardianValidatePayoutLiabilityRecord, guardianValidateEarned, safeSubAu, checks_iff,
    Except.mapError_accepts_iff, not_or, not_lt] at h
  obtain ⟨-, hscope, -, ⟨_, ⟨_, rfl⟩, -, _⟩, hbuckets⟩ := h
  exact ⟨hscope, by omega, _, hbuckets⟩

theorem PlannedOutput.liabilityAu_eq
    (h : PlannedOutput s value param cursors entry output party liability record binding refreshed) :
    output.liabilityAu = refreshed.totalAu - refreshed.paidCumAu - refreshed.heldAu := by
  have hcovers := h.covers
  unfold PayoutAmount.covers at hcovers
  unfold PlanOutput.liabilityAu
  cases hamount : output.amount with
  | tnk => simpa [hamount] using hcovers
  | fiat =>
    simp only [hamount, decide_eq_true_eq] at hcovers
    exact hcovers.1

theorem PlannedOutput.scope_eq (hplan : AcceptedPlan s value) (houtput : output ∈ value.outputs)
    (h : PlannedOutput s value param cursors entry output party liability record binding refreshed) :
    binding.currency = output.destinationCurrency ∧ binding.chainId = none := by
  obtain ⟨_, hnormal⟩ := hplan.outputs_ok output houtput
  have hscope := (guardianLiabilityRecord_eq_ok h.valid).1
  have hcovers := h.covers
  unfold normalizeTargetedPayoutPlanOutput at hnormal
  simp only [checks_iff] at hnormal
  rw [h.binding_chainId]
  unfold guardianValidateLiabilityScope at hscope
  unfold PayoutAmount.covers at hcovers
  unfold PlanOutput.destinationCurrency
  cases hrail : value.rail with
  | tap => exact absurd hrail hplan.not_tap
  | tnk =>
    cases hamount : output.amount with
    | fiat terms => simp [hrail, hamount] at hnormal
    | tnk au amountE18 =>
      simp only [hrail, checks_iff, not_or, Bool.not_eq_true, Option.isSome_eq_false_iff,
        Option.isNone_iff_eq_none] at hscope
      rw [h.binding_currency]
      exact hscope
  | fiat =>
    cases hamount : output.amount with
    | tnk au amountE18 => simp [hrail, hamount] at hnormal
    | fiat terms =>
      simp only [hrail, checks_iff, not_or, not_not, Bool.not_eq_true, Option.isSome_eq_false_iff,
        Option.isNone_iff_eq_none] at hscope
      simp only [hamount, decide_eq_true_eq] at hcovers
      exact ⟨hcovers.2.symm, hscope.2⟩

theorem validatePayoutPreparationLiability_accepts_iff {preparation : PreparationValue}
    {prepared : PreparationLiability} :
    (∃ lock, s.validatePayoutPreparationLiability preparation prepared = .ok lock) ↔
      ∃ binding current earning, (s.registry.payoutBindingFor preparation.rail prepared.provider
        prepared.payoutRevision
          preparation.epoch "Targeted payout preparation requires its immutable payout binding." = .ok binding ∧
          binding.target = prepared.target ∧ binding.currency = prepared.currency ∧
          binding.chainId = prepared.chainId) ∧
        (s.accounts.liability.get (prepared.provider, preparation.rail, prepared.payoutRevision) = some current ∧
          current.target = prepared.target ∧ current.currency = prepared.currency ∧
          current.chainId = prepared.chainId ∧ current.earned.paidCumAu = prepared.paidCumAuBefore) ∧
        current.earned.heldAu + current.earned.paidCumAu + prepared.liabilityAu ≤ current.earned.totalAu ∧
        (current.earned.heldAu ≤ current.earned.totalAu ∧
          current.earned.paidCumAu ≤ current.earned.totalAu - current.earned.heldAu) ∧
        s.earningRecord prepared.provider preparation.rail = .ok earning ∧
        expectedAggregateBefore (s.payouts.tail.get (preparation.rail, prepared.provider))
          earning.earned.paidCumAu = .ok prepared.aggregatePaidCumAuBefore := by
  simp only [validatePayoutPreparationLiability, checks_iff, safeSubAu, not_or, not_not, ne_eq, not_lt]
  constructor
  . rintro ⟨lock, binding, hbinding, hsame, current, hcurrent, hmatch, _, ⟨hheld, rfl⟩, _,
      ⟨hpaid, rfl⟩, hle, earning, hearning, before, hbefore, rfl, -⟩
    exact ⟨binding, current, earning, ⟨hbinding, hsame⟩, ⟨hcurrent, hmatch⟩, by omega, ⟨hheld, hpaid⟩,
      hearning, hbefore⟩
  . rintro ⟨binding, current, earning, ⟨hbinding, hsame⟩, ⟨hcurrent, hmatch⟩, hle, ⟨hheld, hpaid⟩,
      hearning, hbefore⟩
    exact ⟨_, binding, hbinding, hsame, current, hcurrent, hmatch, _, ⟨hheld, rfl⟩, _, ⟨hpaid, rfl⟩,
      by omega, earning, hearning, _, hbefore, rfl, rfl⟩

theorem expectedAggregateBefore_eq_iff {tail : Option PreparationTail} {paidCumAu : Nat} :
    expectedAggregateBefore tail paidCumAu = .ok paidCumAu ↔
      ∀ last, tail = some last → last.paidCumAuAfter = paidCumAu := by
  unfold expectedAggregateBefore
  cases tail with
  | none => simp
  | some last =>
    dsimp only
    split
    . simp
    . simp

/--
The liability check passes exactly if nothing has matured since the record was written, and the preparations so
far have left the earnings where they are.
-/
theorem first_output_preparable_iff {crypto : Crypto} {host : PayoutCrypto} {s' : Ledger}
    {sender : PublicKey} {key : Digest} {preparation : PreparationValue} {prepared : PreparationLiability}
    (haccepted : s.applyTargetedPayoutEpochFeature crypto host sender key value = (s', .ok false))
    (hfirst : value.outputs.find? (fun output => output.party.isSome) = some output)
    (hrail : preparation.rail = value.rail) (hepoch : preparation.epoch = value.epoch)
    (hprepared : payoutPreparationLiabilityForOutput output = some prepared) :
    (∃ lock, s'.validatePayoutPreparationLiability preparation prepared = .ok lock) ↔
      (∀ stored, s.accounts.liability.get (prepared.provider, value.rail, prepared.payoutRevision) = some stored →
        s.NothingMatures value.epoch (s.registry.activeParamAt value.time) prepared.provider
          stored.earned) ∧
      ∀ tail earning, s.payouts.tail.get (value.rail, prepared.provider) = some tail →
        s.earningRecord prepared.provider value.rail = .ok earning →
          tail.paidCumAuAfter = earning.earned.paidCumAu := by
  obtain ⟨hplan, rfl⟩ := acceptedPlan_of_apply haccepted
  obtain ⟨party, hparty, rfl⟩ := Option.map_eq_some_iff.mp hprepared
  obtain ⟨_, liability, _, binding, _, earning, hplanned, hearning, haggregate⟩ :=
    hplan.exists_planned_first hfirst hparty
  obtain ⟨hcurrency, hchain⟩ := hplanned.scope_eq hplan (List.mem_of_find?_eq_some hfirst)
  obtain ⟨-, _, _, hbuckets⟩ := guardianLiabilityRecord_eq_ok hplanned.valid
  have hle := refreshForPayout_heldAu_le hplanned.refreshed_eq hbuckets
  have hmatures := refreshForPayout_heldAu_eq_iff hplanned.refreshed_eq hplanned.record_eq hbuckets
  have htotal := refreshForPayout_totalAu hplanned.refreshed_eq
  have hpaid := refreshForPayout_paidCumAu hplanned.refreshed_eq
  have hamount := hplanned.liabilityAu_eq
  rw [validatePayoutPreparationLiability_accepts_iff, hrail, hepoch]
  constructor
  . rintro ⟨_, current, earning', -, ⟨hcurrent, -⟩, hle', -, hearning', hbefore⟩
    have hsame : current = liability := Option.some.inj (hcurrent.symm.trans hplanned.liability_eq)
    have hsame' : earning' = earning := Except.ok.inj (hearning'.symm.trans hearning)
    subst hsame hsame'
    refine ⟨?_, ?_⟩
    . intro stored hstored
      obtain rfl := Option.some.inj (hstored.symm.trans hplanned.liability_eq)
      refine hmatures.mp ?_
      dsimp only at hle'
      omega
    . intro tail _ htail hearning''
      obtain rfl := Except.ok.inj (hearning''.symm.trans hearning)
      rw [haggregate] at hbefore
      exact expectedAggregateBefore_eq_iff.mp hbefore tail htail
  . rintro ⟨hnothing, htails⟩
    have hheld := hmatures.mpr (hnothing liability hplanned.liability_eq)
    refine ⟨binding, liability, earning, ⟨hplanned.binding_eq _, hplanned.target_eq.symm, hcurrency, hchain⟩,
      ⟨hplanned.liability_eq, ?_, ?_, ?_, ?_⟩, ?_, ⟨?_, ?_⟩, hearning, ?_⟩
    . rw [← hplanned.binding_target, hplanned.target_eq]
    . rw [← hplanned.binding_currency, hcurrency]
    . rw [← hplanned.binding_chainId, hchain]
    . rw [hplanned.paidCumAu_eq, hpaid]
    . have hadd := hplanned.heldAu_add
      dsimp only
      omega
    . omega
    . omega
    . dsimp only
      rw [haggregate]
      exact expectedAggregateBefore_eq_iff.mpr fun tail htail => htails tail earning htail hearning

end Preparation

/-! A provider that changes its payout revision -/

def stintTarget (rail : Rail) (revision : Digest) : String :=
  match rail, revision with
  | .tap, 4 => "0x0000000000000000000000000000000000000004"
  | .tap, _ => "0x0000000000000000000000000000000000000005"
  | _, 4 => "t4"
  | _, _ => "t5"

def stintScope (rail : Rail) : Option TapScope := if rail = .tap then some ⟨1, 8⟩ else none

def stintBinding (rail : Rail) (revision : Digest) (epoch : Nat) : PayoutBinding :=
  ⟨true, 30, rail, revision, epoch, stintTarget rail revision, none, (stintScope rail).map TapScope.chainId, none⟩

def steadyParam (value : Nat) : ParamRecord := ⟨⟨value, 0, 0, 0, none, none⟩, none⟩

def stintLedger (rail : Rail) : Ledger :=
  { talkLedger with
    registry := { talkLedger.registry with
      payments := some ⟨.admin, some ⟨1, 8⟩, 10, 1, 7, some ⟨"mainnet", "treasury"⟩⟩
      providers := Table.empty.put 30 ⟨.active, [rail], [40], 0⟩
      params := Table.empty.putAll [(.holdbackEpochs, steadyParam 1), (.challengeEpochs, steadyParam 1),
        (.newProviderHoldbackEpochs, steadyParam 3), (.payoutMinAu, steadyParam 1)]
      payoutBindings := Table.empty.putAll [((rail, 30, 4), stintBinding rail 4 1),
        ((rail, 30, 5), stintBinding rail 5 5)]
      payoutPointers := Table.empty.put (30, rail) ⟨4, some 5, 5⟩ }
    accounts := { Ledger.empty.accounts with
      balance := Table.empty.put (20, rail) ⟨1000, 0, stintScope rail⟩ } }

def stintReserve (rail : Rail) (revision : Digest) (epoch : Nat) : SpendReserveValue :=
  { talkReserve epoch 40 with
    rail := rail
    epoch := epoch
    payoutRevision := revision
    reservationExpiresAfterEpoch := 24 + epoch
    voucher := { talkVoucher epoch 40 with
      rail := rail
      billingEpoch := epoch
      payoutRevision := revision
      reservationExpiresAfterEpoch := 24 + epoch } }

def stintReceipt (rail : Rail) (revision : Digest) (epoch : Nat) : RecordReceiptValue :=
  { talkReceipt epoch 40 with
    epoch := epoch
    payoutRevision := revision
    receipt := { (talkReceipt epoch 40).receipt with
      body := { (talkReceipt epoch 40).receipt.body with
        rail := rail
        billingEpoch := epoch
        payoutRevision := revision
        reservationExpiresAfterEpoch := 24 + epoch } } }

def stintAllocation (rail : Rail) (revision : Digest) (epoch : Nat) : Allocation :=
  { talkAllocation epoch 40 with rail := rail, billingEpoch := epoch, payoutRevision := revision }

def stintPage (rail : Rail) (revision : Digest) (epoch count : Nat) : CommitPageZeroValue :=
  let burnAu := if rail = .tap then 4 else 0
  let netAu := 34 - burnAu
  { talkPageZero with
    epoch := epoch
    time := 3600 * epoch
    epochCommitHash := epoch
    debits := [⟨rail, 20, 40⟩]
    earnings := [⟨rail, 30, 40, revision⟩]
    allocations := [stintAllocation rail revision epoch]
    marketUsage := some [⟨⟨40, none, none⟩, 40, 1, 1⟩]
    earningFinals := some [⟨rail, 30, 40, netAu, netAu * count⟩]
    roots := ⟨0, 77, 30, 6, 0⟩
    totals := ⟨0, 0, 1, 40, 1, netAu * count, 6, 6 * count, burnAu, burnAu * count, 0⟩ }

def stintHost : Crypto := { plainHost with epochCommitHash := fun value => value.epoch }

def stintEpoch (rail : Rail) (revision : Digest) (epoch count : Nat) (s : Ledger) : Ledger :=
  let reserved := (HoldOp.reserve (300 + epoch) (stintReserve rail revision epoch)).run stintHost s
  let recorded := (HoldOp.record 1 (stintReceipt rail revision epoch)).run stintHost reserved
  let frozen := (recorded.epochFreeze stintHost 10 epoch (3600 * epoch)).1
  (HoldOp.pageZero 10 epoch (stintPage rail revision epoch count)).run stintHost frozen

def idleEpoch (epoch : Nat) (s : Ledger) : Ledger :=
  ((s.epochFreeze stintHost 10 epoch (3600 * epoch)).1.epochSealEmpty stintHost 10 epoch epoch
    (3600 * epoch) 0).1

def plainPayoutHost : PayoutCrypto where
  controlKey _ := 0
  verifyControl _ _ := true
  outputsRoot _ _ _ := 0
  carryRoot _ _ _ := 0
  planRoot _ _ _ _ _ _ _ _ := 0
  preparationKey value := value.economicOpId
  verifyPreparation _ _ := true
  payloadHash _ _ _ _ _ _ _ := 0
  payloadBytes _ := 0
  attemptId economicOpId attemptNo _ := economicOpId + attemptNo
  attemptIdempotencyKeyHash attemptId := attemptId
  attemptRequestHash _ attemptId _ _ := attemptId
  transferGroup _ _ := ""
  tapSettlementKey value := value.epoch
  tapSettlementRoot _ := .ok 0
  tapEntriesHash _ := 0
  tapProviderEntriesHash _ := 0
  tapRefundsHash _ := 0
  tapOutputsHash _ := 0
  rateFeatureKey value := value.ts

def stintOutput (revision : Digest) (index au aggregatePaidCumAuBefore : Nat) : PlanOutput :=
  ⟨revision, index, stintTarget .tnk revision, some ⟨30, revision, 0, aggregatePaidCumAuBefore⟩, .tnk au au⟩

def stintFeeOutput (index au : Nat) : PlanOutput := ⟨99, index, "treasury", none, .tnk au au⟩

def stintPlan (epoch : Nat) (epochApplyHash : Digest) (outputs : List PlanOutput) : PlanValue :=
  ⟨contractVersion, .tnk, epoch, 3600 * epoch, epochApplyHash, 1, .payouts, outputs, [], 0, 0, 0, 10, 0⟩

def stintPayload (epoch : Nat) (output : PlanOutput) : TnkPayload where
  planRoot := 0
  output := output
  network := "mainnet"
  treasuryFrom := "treasury"
  rateTnkUsdAu := 1000000000000000000
  rateSource := "gate-spot"
  rateTs := 3600 * epoch
  msbTxHash := 500 + output.economicOpId
  msbPayload := ⟨13, "treasury", 500 + output.economicOpId, 0, output.target, output.paidAu, 0, 0⟩

def stintPreparation (epoch : Nat) (epochApplyHash : Digest) (output : PlanOutput) : PreparationValue where
  contractVersion := contractVersion
  economicOpId := output.economicOpId
  rail := .tnk
  epoch := epoch
  epochApplyHash := epochApplyHash
  preparedAt := 3600 * epoch
  kind := if output.party.isSome then .liability else .fee
  outputIndex := output.outputIndex
  payloadHash := 0
  payload := .tnk (stintPayload epoch output)
  liability := payoutPreparationLiabilityForOutput output
  externalEffectIds := [500 + output.economicOpId]
  admin := 10
  adminSig := 0

def revisedLedger (rail : Rail) : Ledger :=
  let first := stintEpoch rail 4 1 1 (stintLedger rail)
  let probation := stintEpoch rail 4 4 2 (idleEpoch 3 (idleEpoch 2 first))
  let known := { probation with registry := { probation.registry with
    providers := Table.empty.put 30 ⟨.active, [rail], [40], 50⟩ } }
  stintEpoch rail 5 6 4 (stintEpoch rail 5 5 3 known)

def revisedPlan : PlanValue :=
  stintPlan 6 0 [stintOutput 4 0 34 0, stintOutput 5 1 34 34, stintFeeOutput 2 24]

/--
The provider was credited in the epoch of the plan, so that the stored records are up to date.
-/
theorem first_output_preparable_revised :
    ∃ s', (revisedLedger .tnk).applyTargetedPayoutEpochFeature stintHost plainPayoutHost 10 0 revisedPlan =
        (s', .ok false) ∧
      ((∃ lock, s'.validatePayoutPreparationLiability (stintPreparation 6 0 (stintOutput 4 0 34 0))
          ⟨30, 4, "t4", none, none, 0, 0, 34, 34⟩ = .ok lock) ↔
        (∀ stored, (revisedLedger .tnk).accounts.liability.get (30, .tnk, 4) = some stored →
          (revisedLedger .tnk).NothingMatures 6
            ((revisedLedger .tnk).registry.activeParamAt (3600 * 6)) 30 stored.earned) ∧
        ∀ tail earning, (revisedLedger .tnk).payouts.tail.get (.tnk, 30) = some tail →
          (revisedLedger .tnk).earningRecord 30 .tnk = .ok earning →
            tail.paidCumAuAfter = earning.earned.paidCumAu) := by
  have hplan : (revisedLedger .tnk).preparePayoutEpoch stintHost plainPayoutHost 10 0 revisedPlan =
      .ok true := by decide +kernel
  have haccepted : (revisedLedger .tnk).applyTargetedPayoutEpochFeature stintHost plainPayoutHost 10 0
      revisedPlan = ((revisedLedger .tnk).writePlan revisedPlan, .ok false) := by
    rw [applyTargetedPayoutEpochFeature, hplan]
  have hfirst : revisedPlan.outputs.find? (fun output => output.party.isSome) = some (stintOutput 4 0 34 0) := rfl
  have hrail : (stintPreparation 6 0 (stintOutput 4 0 34 0)).rail = revisedPlan.rail := rfl
  have hepoch : (stintPreparation 6 0 (stintOutput 4 0 34 0)).epoch = revisedPlan.epoch := rfl
  have hprepared : payoutPreparationLiabilityForOutput (stintOutput 4 0 34 0) =
      some ⟨30, 4, "t4", none, none, 0, 0, 34, 34⟩ := rfl
  clear hplan
  generalize revisedLedger .tnk = s at haccepted ⊢
  exact ⟨_, haccepted, first_output_preparable_iff haccepted hfirst hrail hepoch hprepared⟩

def idleLedger : Ledger := idleEpoch 4 (idleEpoch 3 (idleEpoch 2 (stintEpoch .tnk 4 1 1 (stintLedger .tnk))))

def idlePlan : PlanValue := stintPlan 4 4 [stintOutput 4 0 34 0, stintFeeOutput 1 6]

/--
The holdback has matured, so that the plan has to pay all of the liability, but the stored record still holds
it back.
-/
theorem matured_liability_not_preparable :
    ∃ s', idleLedger.applyTargetedPayoutEpochFeature stintHost plainPayoutHost 10 0 idlePlan = (s', .ok false) ∧
      idlePlan.outputs.find? (fun output => output.party.isSome) = some (stintOutput 4 0 34 0) ∧
      payoutPreparationLiabilityForOutput (stintOutput 4 0 34 0) = some ⟨30, 4, "t4", none, none, 0, 0, 34, 34⟩ ∧
      s'.validatePayoutPreparationLiability (stintPreparation 4 4 (stintOutput 4 0 34 0))
          ⟨30, 4, "t4", none, none, 0, 0, 34, 34⟩ =
        .error "Targeted payout preparation exceeds revision liability." ∧
      s'.preparePreparation stintHost plainPayoutHost 10 1 4
          (stintPreparation 4 4 (stintOutput 4 0 34 0)) =
        .error "Targeted payout preparation exceeds revision liability." := by
  have hplan : idleLedger.preparePayoutEpoch stintHost plainPayoutHost 10 0 idlePlan = .ok true := by
    decide +kernel
  refine ⟨idleLedger.writePlan idlePlan, ?_, rfl, rfl, ?_⟩
  . rw [applyTargetedPayoutEpochFeature, hplan]
  . refine ⟨Except.message_eq_some_iff.mp ?_, Except.message_eq_some_iff.mp ?_⟩
    . decide +kernel
    . decide +kernel

end Ledger

end Mayhem
