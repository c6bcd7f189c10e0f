import Mayhem.Holdback
import Mayhem.Settlement.Progress

namespace Mayhem

def operatorFeeBpsMax : Nat := 1500

def Crosses (bps priorGrossAu grossAu : Nat) : Prop := 10000 ≤ priorGrossAu * bps % 10000 + grossAu * bps

instance (bps priorGrossAu grossAu : Nat) : Decidable (Crosses bps priorGrossAu grossAu) :=
  inferInstanceAs (Decidable (_ ≤ _))

def crossings (grossAu priorGrossAu : Nat) (rail : Rail) (feeBps : Nat) : Nat :=
  (if Crosses feeBps priorGrossAu grossAu then 1 else 0) +
    (if Crosses (Ledger.railBurnBps rail) priorGrossAu grossAu then 1 else 0)

def LeavesShare (grossAu priorGrossAu : Nat) (rail : Rail) (feeBps : Nat) : Prop :=
  3 ≤ grossAu ∨ crossings grossAu priorGrossAu rail feeBps < grossAu

theorem Ledger.railBurnBps_le (rail : Rail) : Ledger.railBurnBps rail ≤ Ledger.tapBurnBps := by
  unfold Ledger.railBurnBps
  split
  . exact Nat.le_refl _
  . exact Nat.zero_le _

theorem safeMulDivAu_add (priorGrossAu grossAu bps : Nat) : safeMulDivAu (priorGrossAu + grossAu) bps 10000 =
      safeMulDivAu priorGrossAu bps 10000 + (priorGrossAu * bps % 10000 + grossAu * bps) / 10000 := by
  unfold safeMulDivAu
  rw [Nat.add_mul]
  generalize priorGrossAu * bps = prior
  generalize grossAu * bps = added
  omega

theorem providerSettlementPageDelta_eq_ok_iff {grossAu priorGrossAu feeBps : Nat} {rail : Rail}
    {delta : SettlementDelta} :
    providerSettlementPageDelta grossAu priorGrossAu rail feeBps = .ok delta ↔
      delta.feeAu = (priorGrossAu * feeBps % 10000 + grossAu * feeBps) / 10000 ∧
      delta.burnAu = (priorGrossAu * Ledger.railBurnBps rail % 10000 + grossAu * Ledger.railBurnBps rail) /
        10000 ∧
      delta.feeAu + delta.burnAu + delta.providerAu = grossAu := by
  simp only [providerSettlementPageDelta, safeMulDivAu_add, checks_iff, safeSubAu_eq_ok]
  generalize (priorGrossAu * feeBps % 10000 + grossAu * feeBps) / 10000 = fee
  generalize (priorGrossAu * Ledger.railBurnBps rail % 10000 + grossAu * Ledger.railBurnBps rail) / 10000 = burn
  constructor
  . rintro ⟨_, ⟨-, rfl⟩, _, ⟨-, rfl⟩, _, ⟨_, rfl⟩, _, ⟨_, rfl⟩, rfl⟩
    dsimp only
    omega
  . obtain ⟨feeAu, burnAu, providerAu⟩ := delta
    dsimp only
    rintro ⟨rfl, rfl, _⟩
    refine ⟨_, ⟨Nat.le_add_right _ _, rfl⟩, _, ⟨Nat.le_add_right _ _, rfl⟩, _, ⟨?_, rfl⟩, _, ⟨?_, rfl⟩, ?_⟩
    . omega
    . omega
    . rw [SettlementDelta.mk.injEq]
      omega

theorem appendHoldbackBucket_accepts_iff {buckets : List Holdback} {epoch au lockedEpochs : Nat}
    (hbuckets : ∀ b ∈ buckets, b.Sound) (hepoch : isSafeInteger epoch) (hlocked : isSafeInteger lockedEpochs) :
    (∃ next, appendHoldbackBucket buckets epoch au lockedEpochs = .ok next) ↔ au ≠ 0 := by
  obtain ⟨normalized, hnormalized⟩ := addHoldbackBuckets_accepts hbuckets []
  simp only [appendHoldbackBucket, checks_iff, hnormalized]
  constructor
  . rintro ⟨_, -, hau, -⟩
    exact hau
  . intro hau
    exact ⟨_, not_not_intro hepoch, hau, not_not_intro hlocked, normalized, rfl, rfl⟩

theorem shares_lt_iff {grossAu priorGrossAu feeBps : Nat} {rail : Rail} (hgross : 0 < grossAu)
    (hfee : feeBps ≤ operatorFeeBpsMax) :
    (priorGrossAu * feeBps % 10000 + grossAu * feeBps) / 10000 +
        (priorGrossAu * Ledger.railBurnBps rail % 10000 + grossAu * Ledger.railBurnBps rail) / 10000 < grossAu ↔
      LeavesShare grossAu priorGrossAu rail feeBps := by
  have hfeeAu : grossAu * feeBps ≤ grossAu * 1500 := Nat.mul_le_mul_left _ hfee
  have hburnAu : grossAu * Ledger.railBurnBps rail ≤ grossAu * 1000 :=
    Nat.mul_le_mul_left _ (Ledger.railBurnBps_le rail)
  have hfeeLeft := Nat.mod_lt (priorGrossAu * feeBps) (show 0 < 10000 by decide)
  have hburnLeft := Nat.mod_lt (priorGrossAu * Ledger.railBurnBps rail) (show 0 < 10000 by decide)
  unfold LeavesShare crossings
  -- whether each of the shares crosses decides all cases of one and two units
  split
  . next hfeeCrosses =>
    unfold Crosses at hfeeCrosses
    split
    . next hburnCrosses =>
      unfold Crosses at hburnCrosses
      omega
    . next hburnCrosses =>
      unfold Crosses at hburnCrosses
      omega
  . next hfeeCrosses =>
    unfold Crosses at hfeeCrosses
    split
    . next hburnCrosses =>
      unfold Crosses at hburnCrosses
      omega
    . next hburnCrosses =>
      unfold Crosses at hburnCrosses
      omega

/--
The shares of a page add up to it and leave the provider something to hold back exactly if it is large enough.
-/
theorem page_split_total_iff {grossAu priorGrossAu feeBps : Nat} {rail : Rail} (hgross : 0 < grossAu)
    (hfee : feeBps ≤ operatorFeeBpsMax) :
    (∃ delta, providerSettlementPageDelta grossAu priorGrossAu rail feeBps = .ok delta ∧
        delta.feeAu + delta.burnAu + delta.providerAu = grossAu ∧
        ∀ buckets epoch lockedEpochs, (∀ b ∈ buckets, b.Sound) → isSafeInteger epoch →
          isSafeInteger lockedEpochs →
            ∃ next, appendHoldbackBucket buckets epoch delta.providerAu lockedEpochs = .ok next) ↔
      LeavesShare grossAu priorGrossAu rail feeBps := by
  rw [← shares_lt_iff hgross hfee]
  constructor
  . rintro ⟨delta, hdelta, -, happend⟩
    obtain ⟨hfeeAu, hburnAu, hsum⟩ := providerSettlementPageDelta_eq_ok_iff.mp hdelta
    have hzero : isSafeInteger 0 := Nat.zero_le _
    have hprovider := (appendHoldbackBucket_accepts_iff (by simp) hzero hzero).mp
      (happend [] 0 0 (by simp) hzero hzero)
    omega
  . intro hlt
    generalize hfeeAu : (priorGrossAu * feeBps % 10000 + grossAu * feeBps) / 10000 = feeAu at hlt
    generalize hburnAu : (priorGrossAu * Ledger.railBurnBps rail % 10000 +
      grossAu * Ledger.railBurnBps rail) / 10000 = burnAu at hlt
    have hsum : feeAu + burnAu + (grossAu - feeAu - burnAu) = grossAu := by omega
    refine ⟨⟨feeAu, burnAu, grossAu - feeAu - burnAu⟩, ?_, hsum, ?_⟩
    . rw [providerSettlementPageDelta_eq_ok_iff]
      exact ⟨hfeeAu.symm, hburnAu.symm, hsum⟩
    . intro buckets epoch lockedEpochs hbuckets hepoch hlocked
      rw [appendHoldbackBucket_accepts_iff hbuckets hepoch hlocked]
      dsimp only
      omega

/--
The second page of ten units on the TAP rail.
-/
theorem page_split_total_ten : ∃ delta, providerSettlementPageDelta 10 10 .tap 1500 = .ok delta ∧
    delta.feeAu + delta.burnAu + delta.providerAu = 10 ∧
    ∃ next, appendHoldbackBucket [] 1 delta.providerAu 24 = .ok next := by
  have htotal := @page_split_total_iff 10 10 1500 .tap (by decide) (by decide)
  obtain ⟨delta, hdelta, hsum, happend⟩ := htotal.mpr (Or.inl (by decide))
  exact ⟨delta, hdelta, hsum, happend [] 1 24 (by simp) (by decide) (by decide)⟩

/--
A page of one unit that completes a unit of the fee and one of the burn has no split.
-/
theorem small_page_has_no_split : providerSettlementPageDelta 1 19 .tap 1500 = .error "au value underflow." ∧
    providerSettlementPageDelta 1 6 .fiat 1500 = .ok ⟨1, 0, 0⟩ ∧
    appendHoldbackBucket [] 1 0 24 = .error "Guardian non-negative earnings invariant failed." := by
  exact ⟨rfl, rfl, rfl⟩

end Mayhem
