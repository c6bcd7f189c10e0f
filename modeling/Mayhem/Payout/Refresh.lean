import Mayhem.Holdback
import Mayhem.Payout.Plan

namespace Mayhem

namespace Ledger

variable {s : Ledger} {epoch : Nat} {param : ParamKey → Nat} {provider : PublicKey}
variable {record : ProviderRecord} {earned refreshed : Earned}

def NothingMatures (s : Ledger) (epoch : Nat) (param : ParamKey → Nat) (provider : PublicKey)
    (earned : Earned) : Prop :=
  ∀ record probeGate buckets, s.registry.providers.get provider = some record →
    probeGateForEarning s.oversight provider earned param = .ok probeGate →
    normalizeHoldbackBuckets earned = .ok buckets → ∀ bucket ∈ buckets, bucket.StaysHeld epoch
        (lockedEarningEpochs record.successfulSessions (payoutParam param)) probeGate
        (0 < (s.oversight.providerOpenDisputes.get provider).getD 0)

variable (h : s.refreshForPayout epoch param provider record earned = .ok refreshed)

include h

theorem refreshForPayout_eq_ok :
    ∃ probeGate buckets kept, probeGateForEarning s.oversight provider earned param = .ok probeGate ∧
      normalizeHoldbackBuckets earned = .ok buckets ∧
      kept = buckets.filterMap (refreshBucket epoch
        (lockedEarningEpochs record.successfulSessions (payoutParam param)) probeGate
        (decide ((s.oversight.providerOpenDisputes.get provider).getD 0 > 0))) ∧
      refreshed = { earned with heldAu := holdbackBucketTotal kept, holdbacks := some kept } := by
  simp only [refreshForPayout, providerLockedEarningEpochs, providerHasOpenDispute, checks_iff] at h
  obtain ⟨probeGate, hgate, _, ⟨-, rfl⟩, _, ⟨-, rfl⟩, h⟩ := h
  obtain ⟨buckets, hbuckets, rfl⟩ := refreshEarningHoldback_eq_ok h
  exact ⟨probeGate, buckets, _, hgate, hbuckets, rfl, rfl⟩

theorem refreshForPayout_totalAu : refreshed.totalAu = earned.totalAu := by
  obtain ⟨_, _, _, -, -, -, rfl⟩ := refreshForPayout_eq_ok h
  rfl

theorem refreshForPayout_paidCumAu : refreshed.paidCumAu = earned.paidCumAu := by
  obtain ⟨_, _, _, -, -, -, rfl⟩ := refreshForPayout_eq_ok h
  rfl

theorem refreshForPayout_heldAu_le {message : String}
    (hvalid : guardianValidateBuckets earned message = .ok ()) : refreshed.heldAu ≤ earned.heldAu := by
  obtain ⟨_, buckets, _, hgate, hbuckets, rfl, rfl⟩ := refreshForPayout_eq_ok h
  simp only [guardianValidateBuckets, hbuckets, Except.bind_of_ok, checks_iff, ne_eq, not_not] at hvalid
  rw [← hvalid]
  exact holdbackBucketTotal_refresh_le _ _ _ (probeGateForEarning_bps hgate) buckets

theorem refreshForPayout_heldAu_eq_iff {message : String}
    (hrecord : s.registry.providers.get provider = some record)
    (hvalid : guardianValidateBuckets earned message = .ok ()) :
    refreshed.heldAu = earned.heldAu ↔ s.NothingMatures epoch param provider earned := by
  obtain ⟨probeGate, buckets, _, hgate, hbuckets, rfl, rfl⟩ := refreshForPayout_eq_ok h
  simp only [guardianValidateBuckets, hbuckets, Except.bind_of_ok, checks_iff, ne_eq, not_not] at hvalid
  rw [← hvalid]
  dsimp only
  rw [holdbackBucketTotal_refresh_eq_iff _ _ _ (probeGateForEarning_bps hgate)
    (normalBuckets_pos hbuckets)]
  unfold NothingMatures
  simp only [hrecord, hgate, hbuckets, Option.some.injEq, Except.ok.injEq, decide_eq_true_eq]
  constructor
  . rintro hall _ _ _ rfl rfl rfl
    exact hall
  . intro hall
    exact hall record probeGate buckets rfl rfl rfl

end Ledger

end Mayhem
