import Mayhem.Account

namespace Mayhem

def Holdback.Sound (bucket : Holdback) : Prop :=
  isSafeInteger bucket.epoch ∧ 0 < bucket.au ∧ ∀ n ∈ bucket.lockedEpochs, isSafeInteger n

theorem holdbackBucketTotal_cons (bucket : Holdback) (buckets : List Holdback) :
    holdbackBucketTotal (bucket :: buckets) = bucket.au + holdbackBucketTotal buckets := rfl

variable {buckets : List Holdback}

theorem insertBucket_sound {bucket : Holdback} (hbucket : bucket.Sound) (h : ∀ b ∈ buckets, b.Sound) :
    ∀ b ∈ insertBucket bucket buckets, b.Sound := by
  induction buckets with
  | nil =>
    intro b hb
    rw [insertBucket, List.mem_singleton] at hb
    rw [hb]
    exact hbucket
  | cons first _ ih =>
    have hfirst := h first List.mem_cons_self
    have hrest := fun b hb => h b (List.mem_cons_of_mem _ hb)
    unfold insertBucket
    split
    . intro b hb
      rcases List.mem_cons.mp hb with rfl | hb
      . exact ⟨hfirst.1, Nat.lt_of_lt_of_le hfirst.2.1 (Nat.le_add_right _ _), hfirst.2.2⟩
      . exact hrest b hb
    . split
      . intro b hb
        rcases List.mem_cons.mp hb with rfl | hb
        . exact hbucket
        . exact h b hb
      . intro b hb
        rcases List.mem_cons.mp hb with rfl | hb
        . exact hfirst
        . exact ih hrest b hb

theorem holdbackBucketTotal_insertBucket (bucket : Holdback) (buckets : List Holdback) :
    holdbackBucketTotal (insertBucket bucket buckets) = holdbackBucketTotal buckets + bucket.au := by
  induction buckets with
  | nil => exact Nat.add_comm _ _
  | cons _ _ ih =>
    unfold insertBucket
    split
    . simp only [holdbackBucketTotal_cons]
      omega
    . split
      . simp only [holdbackBucketTotal_cons]
        omega
      . simp only [holdbackBucketTotal_cons, ih]
        omega

variable {next : List Holdback}

theorem addHoldbackBucket_accepts_iff {bucket : Holdback} : addHoldbackBucket buckets bucket = .ok next ↔
      bucket.Sound ∧ insertBucket bucket buckets = next := by
  simp only [addHoldbackBucket, checks_iff, Holdback.Sound, not_not, not_exists, not_and, Nat.pos_iff_ne_zero]
  constructor
  . rintro ⟨hepoch, hau, hlock, hnext⟩
    exact ⟨⟨hepoch, hau, hlock⟩, hnext⟩
  . rintro ⟨⟨hepoch, hau, hlock⟩, hnext⟩
    exact ⟨hepoch, hau, hlock, hnext⟩

theorem addHoldbackBuckets_eq_ok {added : List Holdback} (h : ∀ b ∈ buckets, b.Sound)
    (hadd : added.foldlM addHoldbackBucket buckets = .ok next) :
    (∀ b ∈ added, b.Sound) ∧ (∀ b ∈ next, b.Sound) ∧
      holdbackBucketTotal next = holdbackBucketTotal buckets + holdbackBucketTotal added := by
  induction added generalizing buckets with
  | nil =>
    rw [List.foldlM_nil, Except.pure_accepts_iff] at hadd
    subst hadd
    exact ⟨by simp, h, rfl⟩
  | cons _ added ih =>
    simp only [List.foldlM_cons, checks_iff, addHoldbackBucket_accepts_iff] at hadd
    obtain ⟨_, ⟨hbucket, rfl⟩, hadd⟩ := hadd
    obtain ⟨hadded, hnext, htotal⟩ := ih (insertBucket_sound hbucket h) hadd
    refine ⟨List.forall_mem_cons.mpr ⟨hbucket, hadded⟩, hnext, ?_⟩
    rw [htotal, holdbackBucketTotal_insertBucket, holdbackBucketTotal_cons]
    omega

theorem addHoldbackBuckets_accepts {added : List Holdback} (h : ∀ b ∈ added, b.Sound)
    (buckets : List Holdback) : ∃ next, added.foldlM addHoldbackBucket buckets = .ok next := by
  induction added generalizing buckets with
  | nil => exact ⟨buckets, rfl⟩
  | cons bucket added ih =>
    rw [List.forall_mem_cons] at h
    obtain ⟨next, hnext⟩ := ih h.2 (insertBucket bucket buckets)
    refine ⟨next, ?_⟩
    rw [List.foldlM_cons, addHoldbackBucket_accepts_iff.mpr ⟨h.1, rfl⟩, Except.bind_of_ok, hnext]

def Earned.bucketsAu (earned : Earned) : Nat :=
  match earned.holdbacks with
  | none => earned.heldAu
  | some buckets => holdbackBucketTotal buckets

variable {earned : Earned}

theorem normalizeHoldbackBuckets_eq_ok (h : normalizeHoldbackBuckets earned = .ok buckets) :
    (∀ stored ∈ earned.holdbacks, ∀ b ∈ stored, b.Sound) ∧ (∀ b ∈ buckets, b.Sound) ∧
      holdbackBucketTotal buckets = earned.bucketsAu := by
  unfold normalizeHoldbackBuckets at h
  unfold Earned.bucketsAu
  cases hstored : earned.holdbacks with
  | none =>
    rw [hstored, Except.ok.injEq] at h
    refine ⟨by simp, ?_⟩
    rw [← h]
    split
    . next hheld => exact ⟨by simp, hheld.symm⟩
    . next hheld =>
      refine ⟨?_, by simp [holdbackBucketTotal]⟩
      intro b hb
      rw [List.mem_singleton] at hb
      rw [hb]
      refine ⟨?_, Nat.pos_of_ne_zero hheld, by simp⟩
      dsimp only
      split
      . assumption
      . exact Nat.zero_le _
  | some stored =>
    rw [hstored] at h
    obtain ⟨hall, hbuckets, htotal⟩ := addHoldbackBuckets_eq_ok (by simp) h
    refine ⟨?_, hbuckets, ?_⟩
    . intro _ hmem
      cases hmem
      exact hall
    . rw [htotal]
      exact Nat.zero_add _

theorem normalizeHoldbackBuckets_accepts (h : ∀ stored ∈ earned.holdbacks, ∀ b ∈ stored, b.Sound) :
    ∃ buckets, normalizeHoldbackBuckets earned = .ok buckets := by
  unfold normalizeHoldbackBuckets
  cases hstored : earned.holdbacks with
  | none => exact ⟨_, rfl⟩
  | some stored => exact addHoldbackBuckets_accepts (h stored hstored) []

theorem normalBuckets_pos (h : normalizeHoldbackBuckets earned = .ok buckets) : ∀ b ∈ buckets, 0 < b.au :=
  fun b hb => ((normalizeHoldbackBuckets_eq_ok h).2.1 b hb).2.1

theorem slashNewestFirst_spec (buckets : List Holdback) (remaining : Nat) :
    holdbackBucketTotal (slashNewestFirst buckets remaining).1 = holdbackBucketTotal buckets - remaining ∧
      (slashNewestFirst buckets remaining).2 = remaining - holdbackBucketTotal buckets ∧
      ((∀ b ∈ buckets, b.Sound) → ∀ b ∈ (slashNewestFirst buckets remaining).1, b.Sound) := by
  induction buckets generalizing remaining with
  | nil => simp [slashNewestFirst, holdbackBucketTotal]
  | cons bucket _ ih =>
    rw [holdbackBucketTotal_cons]
    unfold slashNewestFirst
    split
    . next hzero =>
      rw [holdbackBucketTotal_cons]
      refine ⟨by omega, by omega, id⟩
    . split
      . next hle =>
        obtain ⟨_, _, hsound⟩ := ih (remaining - bucket.au)
        refine ⟨by omega, by omega, fun h => ?_⟩
        rw [List.forall_mem_cons] at h
        exact hsound h.2
      . next hzero hle =>
        rw [holdbackBucketTotal_cons]
        refine ⟨by dsimp only; omega, by omega, fun h => ?_⟩
        rw [List.forall_mem_cons] at h ⊢
        exact ⟨⟨h.1.1, by dsimp only; omega, h.1.2.2⟩, h.2⟩

theorem holdbackBucketTotal_reverse (buckets : List Holdback) :
    holdbackBucketTotal buckets.reverse = holdbackBucketTotal buckets := by
  unfold holdbackBucketTotal
  rw [List.map_reverse, List.sum_reverse]

theorem slashHoldbackBuckets_eq_ok {slashAu : Nat} (h : slashHoldbackBuckets buckets slashAu = .ok next) :
    holdbackBucketTotal next = holdbackBucketTotal buckets - slashAu ∧
      ((∀ b ∈ buckets, b.Sound) → ∀ b ∈ next, b.Sound) := by
  obtain ⟨htotal, -, hsound⟩ := slashNewestFirst_spec buckets.reverse slashAu
  rw [holdbackBucketTotal_reverse] at htotal
  simp only [slashHoldbackBuckets, checks_iff, not_not, ne_eq] at h
  obtain ⟨_, rfl⟩ := h
  refine ⟨by rw [holdbackBucketTotal_reverse]; exact htotal, fun h b hb => ?_⟩
  exact hsound (fun b hb => h b (List.mem_reverse.mp hb)) b (List.mem_reverse.mp hb)

theorem slashHoldbackBuckets_accepts {slashAu : Nat} (h : slashAu ≤ holdbackBucketTotal buckets) :
    ∃ next, slashHoldbackBuckets buckets slashAu = .ok next := by
  obtain ⟨-, hleft, -⟩ := slashNewestFirst_spec buckets.reverse slashAu
  rw [holdbackBucketTotal_reverse] at hleft
  unfold slashHoldbackBuckets
  dsimp only
  rw [rejectIf_of_not (by omega)]
  exact ⟨_, rfl⟩

def Holdback.StaysHeld (bucket : Holdback) (currentEpoch lockedEpochs : Nat) (probeGate : Option ProbeGate)
    (disputeGate : Prop) : Prop :=
  disputeGate ∨ bucket.epoch + bucket.lockedEpochs.getD lockedEpochs > currentEpoch ∨
    ∃ gate ∈ probeGate, bucket.epoch ∉ gate.passedEpochs ∧ (bucket.probeGate ∨ gate.holdbackBps = 10000)

def keptAu (kept : Option Holdback) : Nat := (kept.map Holdback.au).getD 0

theorem holdbackBucketTotal_filterMap (f : Holdback → Option Holdback) (buckets : List Holdback) :
    holdbackBucketTotal (buckets.filterMap f) = (buckets.map fun b => keptAu (f b)).sum := by
  unfold holdbackBucketTotal
  induction buckets with
  | nil => rfl
  | cons bucket _ ih =>
    rw [List.filterMap_cons, List.map_cons, List.sum_cons, ← ih]
    cases f bucket with
    | none | some => simp [keptAu]

section Refresh

variable (currentEpoch lockedEpochs : Nat) (disputeGate : Bool) {probeGate : Option ProbeGate}

theorem keptAu_refreshBucket_le (hgate : ∀ gate ∈ probeGate, gate.holdbackBps ≤ 10000) (bucket : Holdback) :
    keptAu (refreshBucket currentEpoch lockedEpochs probeGate disputeGate bucket) ≤ bucket.au := by
  unfold refreshBucket
  split
  . exact Nat.le_refl _
  . cases probeGate with
    | none => exact Nat.zero_le _
    | some gate =>
      dsimp only
      split
      . exact Nat.zero_le _
      . split
        . exact Nat.le_refl _
        . split
          . -- the gated part is a floored share of the bucket
            have hshare := Nat.mul_le_mul_left bucket.au (hgate gate rfl)
            exact Nat.div_le_of_le_mul (by rw [Nat.mul_comm 10000]; exact hshare)
          . exact Nat.zero_le _

theorem refreshBucket_sound {bucket kept : Holdback} (hbucket : bucket.Sound)
    (h : refreshBucket currentEpoch lockedEpochs probeGate disputeGate bucket = some kept) : kept.Sound := by
  unfold refreshBucket at h
  split at h
  . cases h
    exact hbucket
  . cases probeGate with
    | none => cases h
    | some =>
      dsimp only at h
      split at h
      . cases h
      . split at h
        . cases h
          exact hbucket
        . split at h
          . next hpos =>
            cases h
            exact ⟨hbucket.1, hpos, hbucket.2.2⟩
          . cases h

theorem keptAu_refreshBucket_eq_iff (hgate : ∀ gate ∈ probeGate, gate.holdbackBps ≤ 10000)
    {bucket : Holdback} (hpos : 0 < bucket.au) :
    keptAu (refreshBucket currentEpoch lockedEpochs probeGate disputeGate bucket) = bucket.au ↔
      bucket.StaysHeld currentEpoch lockedEpochs probeGate (disputeGate = true) := by
  unfold refreshBucket Holdback.StaysHeld
  split
  . next hlocked =>
    refine ⟨fun _ => ?_, fun _ => rfl⟩
    exact hlocked.imp_right Or.inl
  . next hlocked =>
    rw [not_or] at hlocked
    obtain ⟨hdispute, hlock⟩ := hlocked
    cases probeGate with
    | none =>
      refine ⟨fun h => ?_, ?_⟩
      . exact absurd h (Nat.ne_of_lt hpos)
      . rintro (h | h | ⟨gate, ⟨⟩, -⟩)
        . exact absurd h hdispute
        . exact absurd h hlock
    | some gate =>
      simp only [Option.mem_some_iff, exists_eq_left']
      split
      . next hpassed =>
        refine ⟨fun h => absurd h (Nat.ne_of_lt hpos), ?_⟩
        rintro (h | h | h)
        . exact absurd h hdispute
        . exact absurd h hlock
        . exact absurd hpassed h.1
      . next hpassed =>
        split
        . next hgated => simp [keptAu, hpassed, hgated]
        . next hgated =>
          have hbps := hgate gate rfl
          simp only [hdispute, hlock, hpassed, hgated, not_false_eq_true, true_and, false_or, Bool.false_eq_true]
          unfold safeMulDivAu
          constructor
          . intro h
            -- a share of less than everything loses at least one unit of a positive amount
            by_contra hne
            have hless : gate.holdbackBps + 1 ≤ 10000 := by omega
            have hshare := Nat.mul_le_mul_left bucket.au hless
            split at h
            . have hdiv : bucket.au * 10000 ≤ bucket.au * gate.holdbackBps := by
                have hle : bucket.au ≤ bucket.au * gate.holdbackBps / 10000 := Nat.le_of_eq h.symm
                exact (Nat.le_div_iff_mul_le (by decide)).mp hle
              rw [Nat.mul_add, Nat.mul_one] at hshare
              omega
            . exact absurd h (Nat.ne_of_lt hpos)
          . intro h
            rw [h, Nat.mul_div_cancel _ (by decide), if_pos hpos]
            rfl

theorem holdbackBucketTotal_refresh_le (hgate : ∀ gate ∈ probeGate, gate.holdbackBps ≤ 10000)
    (buckets : List Holdback) :
    holdbackBucketTotal
      (buckets.filterMap (refreshBucket currentEpoch lockedEpochs probeGate disputeGate)) ≤
        holdbackBucketTotal buckets := by
  rw [holdbackBucketTotal_filterMap]
  exact List.sum_le_sum fun bucket _ => keptAu_refreshBucket_le currentEpoch lockedEpochs disputeGate hgate bucket

theorem holdbackBucketTotal_refresh_eq_iff (hgate : ∀ gate ∈ probeGate, gate.holdbackBps ≤ 10000)
    (hpos : ∀ b ∈ buckets, 0 < b.au) :
    holdbackBucketTotal
      (buckets.filterMap (refreshBucket currentEpoch lockedEpochs probeGate disputeGate)) =
        holdbackBucketTotal buckets ↔
      ∀ b ∈ buckets, b.StaysHeld currentEpoch lockedEpochs probeGate (disputeGate = true) := by
  rw [holdbackBucketTotal_filterMap]
  unfold holdbackBucketTotal
  induction buckets with
  | nil => simp
  | cons bucket rest ih =>
    have hrest := ih fun b hb => hpos b (List.mem_cons_of_mem _ hb)
    have hfirst := keptAu_refreshBucket_eq_iff currentEpoch lockedEpochs disputeGate hgate
      (hpos bucket List.mem_cons_self)
    have hle := keptAu_refreshBucket_le currentEpoch lockedEpochs disputeGate hgate bucket
    have hsum : (rest.map fun b =>
        keptAu (refreshBucket currentEpoch lockedEpochs probeGate disputeGate b)).sum ≤
          (rest.map Holdback.au).sum :=
      List.sum_le_sum fun b _ => keptAu_refreshBucket_le currentEpoch lockedEpochs disputeGate hgate b
    rw [List.forall_mem_cons, ← hfirst, ← hrest]
    simp only [List.map_cons, List.sum_cons]
    omega

end Refresh

theorem probeGateForEarning_bps {oversight : Oversight} {provider : PublicKey} {param : ParamKey → Nat}
    {probeGate : Option ProbeGate} (h : probeGateForEarning oversight provider earned param = .ok probeGate) :
    ∀ gate ∈ probeGate, gate.holdbackBps ≤ 10000 := by
  unfold probeGateForEarning at h
  dsimp only at h
  split at h
  . rw [Except.pure_accepts_iff] at h
    rw [← h]
    intro gate hgate
    cases hgate
  . simp only [checks_iff, not_lt] at h
    obtain ⟨hbps, -, -, -, rfl⟩ := h
    intro gate hgate
    cases hgate
    exact hbps

theorem refreshEarningHoldback_eq_ok {next : Earned} {currentEpoch lockedEpochs : Nat}
    {probeGate : Option ProbeGate} {disputeGate : Bool}
    (h : refreshEarningHoldback earned currentEpoch lockedEpochs probeGate disputeGate = .ok next) :
    ∃ buckets, normalizeHoldbackBuckets earned = .ok buckets ∧ next = { earned with
        heldAu := holdbackBucketTotal
          (buckets.filterMap (refreshBucket currentEpoch lockedEpochs probeGate disputeGate))
        holdbacks := some
          (buckets.filterMap (refreshBucket currentEpoch lockedEpochs probeGate disputeGate)) } := by
  simp only [refreshEarningHoldback, checks_iff] at h
  obtain ⟨-, -, buckets, hbuckets, rfl⟩ := h
  exact ⟨buckets, hbuckets, rfl⟩

end Mayhem
