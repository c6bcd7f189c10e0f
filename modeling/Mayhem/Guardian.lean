import Mayhem.Holdback

namespace Mayhem

structure Earned.Valid (earned : Earned) : Prop where
  covered : earned.heldAu + earned.paidCumAu ≤ earned.totalAu
  sound : ∀ stored ∈ earned.holdbacks, ∀ b ∈ stored, b.Sound
  buckets_eq : earned.bucketsAu = earned.heldAu

variable {earned : Earned}

theorem guardianValidateEarned_accepts_iff {message : String} : guardianValidateEarned earned message = .ok () ↔
      earned.heldAu + earned.paidCumAu ≤ earned.totalAu := by
  simp only [guardianValidateEarned, checks_iff, safeSubAu_eq_ok]
  constructor
  . rintro ⟨_, ⟨_, rfl⟩, h⟩
    omega
  . intro h
    exact ⟨_, ⟨by omega, rfl⟩, by omega⟩

theorem guardianValidateBuckets_accepts_iff {message : String} : guardianValidateBuckets earned message = .ok () ↔
      (∀ stored ∈ earned.holdbacks, ∀ b ∈ stored, b.Sound) ∧ earned.bucketsAu = earned.heldAu := by
  simp only [guardianValidateBuckets, checks_iff, not_not, ne_eq]
  constructor
  . rintro ⟨buckets, hbuckets, heq⟩
    obtain ⟨hsound, -, htotal⟩ := normalizeHoldbackBuckets_eq_ok hbuckets
    exact ⟨hsound, htotal ▸ heq⟩
  . rintro ⟨hsound, heq⟩
    obtain ⟨buckets, hbuckets⟩ := normalizeHoldbackBuckets_accepts hsound
    obtain ⟨-, -, htotal⟩ := normalizeHoldbackBuckets_eq_ok hbuckets
    exact ⟨buckets, hbuckets, htotal.trans heq⟩

def TapScopeValid (scope : Option TapScope) (amounts : List Nat) : Prop :=
  match scope with
  | none => ∀ au ∈ amounts, au = 0
  | some tap => isSafeInteger tap.chainId ∧ 1 ≤ tap.chainId

theorem guardianValidateTapScope_accepts_iff {scope : Option TapScope} {amounts : List Nat} {label : String} :
    guardianValidateTapScope scope amounts label = .ok () ↔ TapScopeValid scope amounts := by
  cases scope with
  | none => simp [guardianValidateTapScope, TapScopeValid]
  | some =>
    simp only [guardianValidateTapScope, TapScopeValid, checks_iff]
    omega

variable {rail : Rail}

theorem tapCheck_accepts_iff {scope : Option TapScope} {amounts : List Nat} (label : String) :
    (if rail = .tap then guardianValidateTapScope scope amounts label else pure ()) = .ok () ↔
      (rail = .tap → TapScopeValid scope amounts) := by
  split
  . next htap =>
    rw [guardianValidateTapScope_accepts_iff]
    exact ⟨fun h _ => h, fun h => h htap⟩
  . next htap => exact ⟨fun _ h => absurd h htap, fun _ => rfl⟩

theorem guardianValidateBuckets_of_none (h : earned.holdbacks = none) (message : String) :
    guardianValidateBuckets earned message = .ok () := by
  rw [guardianValidateBuckets_accepts_iff]
  simp [Earned.bucketsAu, h]

theorem guardianValidateEarningRecord_accepts_iff {record : EarningRecord} :
    guardianValidateEarningRecord record rail = .ok () ↔
      isSafeInteger record.earned.updatedEpoch ∧ record.earned.Valid ∧
      (rail = .tap → TapScopeValid record.scope
        [record.earned.totalAu, record.earned.heldAu, record.earned.paidCumAu]) := by
  have hstored : record.earned.holdbacks.isSome = false →
      guardianValidateBuckets record.earned "Guardian earnings conservation invariant failed." = .ok () :=
    fun h => guardianValidateBuckets_of_none (by simpa using h) _
  have hvalid : record.earned.Valid ↔
      guardianValidateEarned record.earned "Guardian earnings conservation invariant failed." = .ok () ∧
      guardianValidateBuckets record.earned "Guardian earnings conservation invariant failed." = .ok () := by
    rw [guardianValidateEarned_accepts_iff, guardianValidateBuckets_accepts_iff]
    exact ⟨fun h => ⟨h.covered, h.sound, h.buckets_eq⟩, fun h => ⟨h.1, h.2.1, h.2.2⟩⟩
  rw [hvalid, ← tapCheck_accepts_iff "earning"]
  unfold guardianValidateEarningRecord
  cases hsome : record.earned.holdbacks.isSome with
  | true =>
    simp only [checks_iff, not_not, and_assoc, if_true]
  | false =>
    simp only [checks_iff, not_not, hstored hsome, and_true, Bool.false_eq_true, if_false]

theorem guardianValidateBalanceRecord_accepts_iff {record : BalanceRecord} :
    guardianValidateBalanceRecord record rail = .ok () ↔
      isSafeInteger record.updatedEpoch ∧ (rail = .tap → TapScopeValid record.scope [record.au]) := by
  rw [← tapCheck_accepts_iff "balance"]
  simp only [guardianValidateBalanceRecord, checks_iff, not_not]

theorem guardianValidateFeeRecord_accepts_iff {record : FeeRecord} :
    guardianValidateFeeRecord record rail = .ok () ↔
      isSafeInteger record.updatedEpoch ∧ record.sweptCumAu ≤ record.cumAu ∧
      record.cumAu ≤ record.settledCumAu.getD record.cumAu ∧
      (rail = .tap → TapScopeValid record.scope
        [record.cumAu, record.sweptCumAu, record.settledCumAu.getD 0]) := by
  rw [← tapCheck_accepts_iff "fee"]
  simp only [guardianValidateFeeRecord, checks_iff, not_not, not_lt]

theorem earned_valid_of_liability {liability : PayoutLiability}
    (h : guardianValidatePayoutLiabilityRecord liability rail = .ok ()) : liability.earned.Valid := by
  simp only [guardianValidatePayoutLiabilityRecord, checks_iff, Except.mapError_accepts_iff,
    guardianValidateEarned_accepts_iff, guardianValidateBuckets_accepts_iff] at h
  obtain ⟨-, -, -, hcovered, hsound, hbuckets⟩ := h
  exact ⟨hcovered, hsound, hbuckets⟩

end Mayhem
