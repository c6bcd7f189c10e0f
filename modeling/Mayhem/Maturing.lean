import Mayhem.Holdback
import Mayhem.Lib.Tally

namespace Mayhem

def Holdback.slot (bucket : Holdback) : Nat × Option Nat × Bool :=
  (bucket.epoch, bucket.lockedEpochs, bucket.probeGate)

def slotAu (buckets : List Holdback) (slot : Nat × Option Nat × Bool) : Nat :=
  Tally.amount (buckets.map fun bucket => (bucket.slot, bucket.au)) slot

def InOrder (buckets : List Holdback) : Prop := buckets.Pairwise fun a b => a.before b = true

@[simp]
theorem slotAu_nil (slot : Nat × Option Nat × Bool) : slotAu [] slot = 0 := rfl

theorem slotAu_cons (bucket : Holdback) (buckets : List Holdback) (slot : Nat × Option Nat × Bool) :
    slotAu (bucket :: buckets) slot = (if bucket.slot = slot then bucket.au else 0) + slotAu buckets slot :=
  Tally.amount_cons _ _ _

theorem sameSlot_iff (a b : Holdback) : a.sameSlot b = true ↔ a.slot = b.slot := by
  simp [Holdback.sameSlot, Holdback.slot]

theorem lockRank_injective {a b : Option Nat} (h : lockRank a = lockRank b) : a = b := by
  cases a <;> cases b <;> simp_all [lockRank]

theorem before_iff (a b : Holdback) : a.before b = true ↔ a.epoch < b.epoch ∨ a.epoch = b.epoch ∧
    (lockRank a.lockedEpochs < lockRank b.lockedEpochs ∨
      a.lockedEpochs = b.lockedEpochs ∧ a.probeGate = false ∧ b.probeGate = true) := by
  simp [Holdback.before, and_assoc]

variable {a b : Holdback}

theorem before_trans {c : Holdback} (hab : a.before b = true) (hbc : b.before c = true) : a.before c = true := by
  rw [before_iff] at *
  grind

theorem not_before_of_slot_eq (h : a.slot = b.slot) : ¬ a.before b = true := by
  simp only [Holdback.slot, Prod.mk.injEq] at h
  rw [before_iff]
  grind

theorem before_of_not_before (hslot : a.slot ≠ b.slot) (h : ¬ a.before b = true) : b.before a = true := by
  rw [before_iff] at *
  have hlock := @lockRank_injective a.lockedEpochs b.lockedEpochs
  simp only [Holdback.slot, ne_eq, Prod.mk.injEq] at hslot
  cases ha : a.probeGate <;> cases hb : b.probeGate <;> grind

variable {buckets : List Holdback}

theorem slot_injOn_of_inOrder (h : InOrder buckets) : (buckets.map Holdback.slot).Nodup := by
  rw [List.Nodup, List.pairwise_map]
  apply h.imp
  intro _ _ hbefore hslot
  exact not_before_of_slot_eq hslot hbefore

theorem slotAu_insertBucket (bucket : Holdback) (buckets : List Holdback) (slot : Nat × Option Nat × Bool) :
    slotAu (insertBucket bucket buckets) slot =
      (if bucket.slot = slot then bucket.au else 0) + slotAu buckets slot := by
  induction buckets with
  | nil => exact slotAu_cons bucket [] slot
  | cons first _ ih =>
    unfold insertBucket
    split
    . next hsame =>
      rw [sameSlot_iff] at hsame
      have hfirst : Holdback.slot { first with au := first.au + bucket.au } = first.slot := rfl
      rw [slotAu_cons, slotAu_cons, hfirst, hsame]
      by_cases hslot : first.slot = slot
      . simp only [hslot, if_true]
        omega
      . simp [hslot]
    . split
      . rw [slotAu_cons]
      . rw [slotAu_cons, slotAu_cons, ih]
        omega

theorem mem_insertBucket {bucket : Holdback} (h : b ∈ insertBucket bucket buckets) :
    b.slot = bucket.slot ∨ ∃ b' ∈ buckets, b.slot = b'.slot := by
  induction buckets with
  | nil =>
    rw [insertBucket, List.mem_singleton] at h
    rw [h]
    exact Or.inl rfl
  | cons first _ ih =>
    unfold insertBucket at h
    split at h
    . rcases List.mem_cons.mp h with rfl | h
      . exact Or.inr ⟨first, List.mem_cons_self, rfl⟩
      . exact Or.inr ⟨b, List.mem_cons_of_mem _ h, rfl⟩
    . split at h
      . rcases List.mem_cons.mp h with rfl | h
        . exact Or.inl rfl
        . exact Or.inr ⟨b, h, rfl⟩
      . rcases List.mem_cons.mp h with rfl | h
        . exact Or.inr ⟨b, List.mem_cons_self, rfl⟩
        . rcases ih h with hslot | ⟨b', hb', hslot⟩
          . exact Or.inl hslot
          . exact Or.inr ⟨b', List.mem_cons_of_mem _ hb', hslot⟩

theorem before_congr {c : Holdback} (h : b.slot = c.slot) : a.before b = a.before c := by
  simp only [Holdback.slot, Prod.mk.injEq] at h
  unfold Holdback.before
  rw [h.1, h.2.1, h.2.2]

theorem inOrder_insertBucket (bucket : Holdback) (h : InOrder buckets) :
    InOrder (insertBucket bucket buckets) := by
  induction buckets with
  | nil => exact List.pairwise_singleton _ _
  | cons _ _ ih =>
    obtain ⟨hfirst, hrest⟩ := List.pairwise_cons.mp h
    unfold insertBucket
    split
    . exact List.pairwise_cons.mpr ⟨hfirst, hrest⟩
    . next hslot =>
      rw [sameSlot_iff] at hslot
      split
      . next hbefore =>
        refine List.pairwise_cons.mpr ⟨?_, h⟩
        intro b hb
        rcases List.mem_cons.mp hb with rfl | hb
        . exact hbefore
        . exact before_trans hbefore (hfirst b hb)
      . next hbefore =>
        refine List.pairwise_cons.mpr ⟨?_, ih hrest⟩
        intro b hb
        rcases mem_insertBucket hb with hslot' | ⟨b', hb', hslot'⟩
        . rw [before_congr hslot']
          exact before_of_not_before hslot hbefore
        . rw [before_congr hslot']
          exact hfirst b' hb'

theorem addHoldbackBuckets_inOrder {added next : List Holdback} (h : InOrder buckets)
    (hadd : added.foldlM addHoldbackBucket buckets = .ok next) :
    InOrder next ∧ ∀ slot, slotAu next slot = slotAu buckets slot + slotAu added slot := by
  induction added generalizing buckets with
  | nil =>
    rw [List.foldlM_nil, Except.pure_accepts_iff] at hadd
    subst hadd
    exact ⟨h, fun _ => rfl⟩
  | cons bucket added ih =>
    simp only [List.foldlM_cons, checks_iff, addHoldbackBucket_accepts_iff] at hadd
    obtain ⟨_, ⟨-, rfl⟩, hadd⟩ := hadd
    obtain ⟨hnext, hslots⟩ := ih (inOrder_insertBucket bucket h) hadd
    refine ⟨hnext, ?_⟩
    intro slot
    rw [hslots, slotAu_insertBucket, slotAu_cons]
    omega

theorem mem_iff_slotAu (horder : InOrder buckets) (hpos : ∀ b ∈ buckets, 0 < b.au) (bucket : Holdback) :
    bucket ∈ buckets ↔ 0 < bucket.au ∧ slotAu buckets bucket.slot = bucket.au := by
  have hkeys : ((buckets.map fun b => (b.slot, b.au)).map Prod.fst).Nodup := by
    rw [List.map_map]
    exact slot_injOn_of_inOrder horder
  have hamount {b : Holdback} (hb : b ∈ buckets) : slotAu buckets b.slot = b.au :=
    Tally.amount_of_mem hkeys (List.mem_map.mpr ⟨b, hb, rfl⟩)
  constructor
  . intro hb
    exact ⟨hpos bucket hb, hamount hb⟩
  . rintro ⟨_, hau⟩
    have hslot : bucket.slot ∈ (buckets.map fun b => (b.slot, b.au)).map Prod.fst := by
      by_contra hnot
      have hzero : slotAu buckets bucket.slot = 0 := Tally.amount_of_not_mem hnot
      omega
    rw [List.map_map, List.mem_map] at hslot
    obtain ⟨b, hb, hslot⟩ := hslot
    have hsame : b.slot = bucket.slot := hslot
    have hb' := hamount hb
    rw [hsame, hau] at hb'
    simp only [Holdback.slot, Prod.mk.injEq] at hsame
    have heq : bucket = b := by
      cases b
      cases bucket
      simp_all
    rw [heq]
    exact hb

theorem eq_of_slotAu_eq {buckets' : List Holdback} (horder : InOrder buckets) (hpos : ∀ b ∈ buckets, 0 < b.au)
    (horder' : InOrder buckets') (hpos' : ∀ b ∈ buckets', 0 < b.au)
    (h : ∀ slot, slotAu buckets slot = slotAu buckets' slot) : buckets = buckets' := by
  have hperm : buckets.Perm buckets' := by
    rw [List.perm_ext_iff_of_nodup (slot_injOn_of_inOrder horder).of_map (slot_injOn_of_inOrder horder').of_map]
    intro _
    rw [mem_iff_slotAu horder hpos, mem_iff_slotAu horder' hpos', h]
  refine List.Perm.eq_of_pairwise ?_ horder horder' hperm
  intro _ b _ _ hab hba
  exact absurd (before_trans hab hba) (not_before_of_slot_eq rfl)

def maturedAu (currentEpoch lockedEpochs : Nat) (probeGate : Option ProbeGate)
    (au : Nat × Option Nat × Bool → Nat) (slot : Nat × Option Nat × Bool) : Nat :=
  if slot.1 + slot.2.1.getD lockedEpochs > currentEpoch then au slot
  else
    match probeGate with
    | none => 0
    | some gate =>
      if slot.1 ∈ gate.passedEpochs ∨ slot.2.2 = false then 0
      else au slot + safeMulDivAu (au (slot.1, slot.2.1, false)) gate.holdbackBps 10000

theorem safeMulDivAu_zero (bps : Nat) : safeMulDivAu 0 bps 10000 = 0 := by
  simp [safeMulDivAu]

section Refresh

variable (currentEpoch lockedEpochs : Nat) (probeGate : Option ProbeGate)

theorem maturedAu_of_zero {au : Nat × Option Nat × Bool → Nat} {slot : Nat × Option Nat × Bool}
    (h : ∀ gated, au (slot.1, slot.2.1, gated) = 0) :
    maturedAu currentEpoch lockedEpochs probeGate au slot = 0 := by
  have hslot : au slot = 0 := h slot.2.2
  unfold maturedAu
  simp only [hslot, h false, safeMulDivAu_zero]
  grind

theorem refreshBucket_place {bucket kept : Holdback}
    (h : refreshBucket currentEpoch lockedEpochs probeGate false bucket = some kept) :
    kept.epoch = bucket.epoch ∧ kept.lockedEpochs = bucket.lockedEpochs := by
  unfold refreshBucket at h
  grind

theorem slotAu_of_place {bucket : Holdback} {epoch : Nat} {lock : Option Nat} (gated : Bool)
    (h : ¬ (bucket.epoch = epoch ∧ bucket.lockedEpochs = lock)) : slotAu [bucket] (epoch, lock, gated) = 0 := by
  rw [slotAu_cons, if_neg, slotAu_nil]
  simp only [Holdback.slot, Prod.mk.injEq]
  exact fun hslot => h ⟨hslot.1, hslot.2.1⟩

theorem slotAu_at_place (bucket : Holdback) (gated : Bool) :
    slotAu [bucket] (bucket.epoch, bucket.lockedEpochs, gated) =
      if bucket.probeGate = gated then bucket.au else 0 := by
  simp [slotAu_cons, Holdback.slot]

theorem slotAu_refreshBucket (bucket : Holdback) (slot : Nat × Option Nat × Bool) :
    slotAu (refreshBucket currentEpoch lockedEpochs probeGate false bucket).toList slot =
      maturedAu currentEpoch lockedEpochs probeGate (slotAu [bucket]) slot := by
  obtain ⟨epoch, lock, gated⟩ := slot
  by_cases hplace : bucket.epoch = epoch ∧ bucket.lockedEpochs = lock
  . obtain ⟨rfl, rfl⟩ := hplace
    unfold refreshBucket maturedAu
    dsimp only
    simp only [Bool.false_eq_true, false_or]
    split
    . rfl
    . cases probeGate with
      | none => rfl
      | some gate =>
        dsimp only
        by_cases hpassed : bucket.epoch ∈ gate.passedEpochs
        . simp [hpassed]
        . simp only [hpassed, if_false, false_or, slotAu_at_place]
          -- a gated bucket stays, and the share of one that was not is gated from here on
          cases hgate : bucket.probeGate with
          | false =>
            cases gated with
            | false =>
              simp only [Bool.false_eq_true, if_false, if_true]
              split <;> simp [slotAu_cons, Holdback.slot]
            | true =>
              simp only [Bool.false_eq_true, if_false, if_true, Nat.zero_add]
              split
              . simp [slotAu_cons, Holdback.slot]
              . next hzero => simp at hzero ⊢; omega
          | true =>
            simp only [if_true, Option.toList_some, slotAu_at_place, hgate, Bool.true_eq_false, if_false,
              safeMulDivAu_zero, Nat.add_zero]
            cases gated <;> simp
  . -- neither the bucket nor what is left of it is in this place
    rw [maturedAu_of_zero _ _ _ fun gated => slotAu_of_place gated hplace]
    cases hkept : refreshBucket currentEpoch lockedEpochs probeGate false bucket with
    | none => rfl
    | some =>
      obtain ⟨hepoch, hlock⟩ := refreshBucket_place _ _ _ hkept
      rw [← hepoch, ← hlock] at hplace
      exact slotAu_of_place gated hplace

theorem maturedAu_add {au au' : Nat × Option Nat × Bool → Nat} (h : ∀ slot, au slot = 0 ∨ au' slot = 0)
    (slot : Nat × Option Nat × Bool) :
    maturedAu currentEpoch lockedEpochs probeGate (fun slot => au slot + au' slot) slot =
      maturedAu currentEpoch lockedEpochs probeGate au slot +
        maturedAu currentEpoch lockedEpochs probeGate au' slot := by
  unfold maturedAu
  split
  . rfl
  . cases probeGate with
    | none => rfl
    | some =>
      dsimp only
      split
      . rfl
      . rcases h (slot.1, slot.2.1, false) with hzero | hzero
        . rw [hzero, Nat.zero_add, safeMulDivAu_zero]
          omega
        . rw [hzero, Nat.add_zero, safeMulDivAu_zero]
          omega

theorem slotAu_refresh (h : InOrder buckets) (slot : Nat × Option Nat × Bool) :
    slotAu (buckets.filterMap (refreshBucket currentEpoch lockedEpochs probeGate false)) slot =
      maturedAu currentEpoch lockedEpochs probeGate (slotAu buckets) slot := by
  induction buckets with
  | nil => exact (maturedAu_of_zero _ _ _ fun _ => rfl).symm
  | cons bucket rest ih =>
    obtain ⟨hbefore, hrest⟩ := List.pairwise_cons.mp h
    have hdisjoint (slot : Nat × Option Nat × Bool) : slotAu [bucket] slot = 0 ∨ slotAu rest slot = 0 := by
      by_cases hslot : bucket.slot = slot
      . right
        apply Tally.amount_of_not_mem
        rw [List.map_map, List.mem_map]
        rintro ⟨b, hb, hsame⟩
        exact not_before_of_slot_eq (hslot.trans hsame.symm) (hbefore b hb)
      . left
        rw [slotAu_cons, if_neg hslot, slotAu_nil]
    have hcons : slotAu (bucket :: rest) = fun slot => slotAu [bucket] slot + slotAu rest slot := by
      funext slot
      rw [slotAu_cons, slotAu_cons, slotAu_nil, Nat.add_zero]
    rw [hcons, maturedAu_add _ _ _ hdisjoint, ← slotAu_refreshBucket, ← ih hrest, List.filterMap_cons]
    cases refreshBucket currentEpoch lockedEpochs probeGate false bucket with
    | none => exact (Nat.zero_add _).symm
    | some => rw [Option.toList_some, slotAu_cons, slotAu_cons, slotAu_nil, Nat.add_zero]

end Refresh

inductive GateGrows : Option ProbeGate → Option ProbeGate → Prop
  | absent : GateGrows none none
  | grows {holdbackBps : Nat} {passed passed' : List Nat} (hbps : holdbackBps ≤ 10000)
      (hpassed : passed ⊆ passed') :
      GateGrows (some ⟨holdbackBps, passed⟩) (some ⟨holdbackBps, passed'⟩)

theorem GateGrows.bps_le {gate gate' : Option ProbeGate} (h : GateGrows gate gate') :
    (∀ g ∈ gate, g.holdbackBps ≤ 10000) ∧ ∀ g ∈ gate', g.holdbackBps ≤ 10000 := by
  cases h with
  | absent => simp
  | grows hbps => simp [hbps]

theorem maturedAu_maturedAu {epoch epoch' lockedEpochs : Nat} {gate gate' : Option ProbeGate}
    (hle : epoch ≤ epoch') (hgate : GateGrows gate gate') (au : Nat × Option Nat × Bool → Nat)
    (slot : Nat × Option Nat × Bool) :
    maturedAu epoch' lockedEpochs gate' (maturedAu epoch lockedEpochs gate au) slot =
      maturedAu epoch' lockedEpochs gate' au slot := by
  unfold maturedAu
  split
  . next hlocked => rw [if_pos (Nat.lt_of_le_of_lt hle hlocked)]
  . next _ =>
    cases hgate with
    | absent => rfl
    | @grows holdbackBps passed passed' hbps hpassed =>
      dsimp only
      split
      . rfl
      . next hkept =>
        rw [not_or] at hkept
        have hnot : slot.1 ∉ passed := fun hmem => hkept.1 (hpassed hmem)
        by_cases hlocked : slot.1 + slot.2.1.getD lockedEpochs > epoch
        . simp [if_pos hlocked]
        . -- the share was gated the first time, and nothing is left to be gated again
          simp [if_neg hlocked, hnot, hkept.2, safeMulDivAu_zero]

/--
Records that hold the same amount in the same buckets, once the buckets of one slot are added up.
-/
def SameHeld (a b : Earned) : Prop :=
  a.heldAu = b.heldAu ∧ normalizeHoldbackBuckets a = normalizeHoldbackBuckets b

theorem normalBuckets_inOrder {earned : Earned} (h : normalizeHoldbackBuckets earned = .ok buckets) :
    InOrder buckets := by
  unfold normalizeHoldbackBuckets at h
  cases hstored : earned.holdbacks with
  | none =>
    rw [hstored, Except.ok.injEq] at h
    rw [← h]
    split
    . exact List.Pairwise.nil
    . exact List.pairwise_singleton _ _
  | some =>
    rw [hstored] at h
    exact (addHoldbackBuckets_inOrder List.Pairwise.nil h).1

section Closure

variable {earned first second once : Earned} {epoch epoch' lockedEpochs : Nat} {gate gate' : Option ProbeGate}

theorem refreshEarningHoldback_slots (hbuckets : normalizeHoldbackBuckets earned = .ok buckets)
    (h : refreshEarningHoldback earned epoch lockedEpochs gate false = .ok first) :
    first.heldAu = first.bucketsAu ∧ ∃ buckets', normalizeHoldbackBuckets first = .ok buckets' ∧
      ∀ slot, slotAu buckets' slot = maturedAu epoch lockedEpochs gate (slotAu buckets) slot := by
  obtain ⟨_, hnormal, rfl⟩ := refreshEarningHoldback_eq_ok h
  rw [hbuckets, Except.ok.injEq] at hnormal
  subst hnormal
  have hsound : ∀ b ∈ buckets.filterMap (refreshBucket epoch lockedEpochs gate false), b.Sound := by
    intro _ hkept
    obtain ⟨b, hb, hkept⟩ := List.mem_filterMap.mp hkept
    exact refreshBucket_sound _ _ _ ((normalizeHoldbackBuckets_eq_ok hbuckets).2.1 b hb) hkept
  obtain ⟨buckets', hbuckets'⟩ := addHoldbackBuckets_accepts hsound []
  refine ⟨rfl, buckets', hbuckets', ?_⟩
  intro slot
  rw [(addHoldbackBuckets_inOrder List.Pairwise.nil hbuckets').2, slotAu_nil, Nat.zero_add,
    slotAu_refresh _ _ _ (normalBuckets_inOrder hbuckets)]

theorem refreshEarningHoldback_accepts (hbuckets : normalizeHoldbackBuckets earned = .ok buckets)
    (hepoch : isSafeInteger epoch) (hlocked : isSafeInteger lockedEpochs) :
    ∃ next, refreshEarningHoldback earned epoch lockedEpochs gate false = .ok next := by
  simp only [refreshEarningHoldback, checks_iff, hbuckets]
  exact ⟨_, not_not_intro hepoch, not_not_intro hlocked, buckets, rfl, rfl⟩

theorem refreshEarningHoldback_error {message : String}
    (hbuckets : normalizeHoldbackBuckets earned = .error message) (hepoch : isSafeInteger epoch)
    (hlocked : isSafeInteger lockedEpochs) :
    refreshEarningHoldback earned epoch lockedEpochs gate false = .error message := by
  unfold refreshEarningHoldback
  rw [rejectIf_of_not (not_not_intro hepoch), rejectIf_of_not (not_not_intro hlocked), hbuckets]
  rfl

theorem refreshEarningHoldback_le (hgate : ∀ g ∈ gate, g.holdbackBps ≤ 10000)
    (h : refreshEarningHoldback earned epoch lockedEpochs gate false = .ok first) :
    first.heldAu ≤ earned.bucketsAu := by
  obtain ⟨buckets, hbuckets, rfl⟩ := refreshEarningHoldback_eq_ok h
  rw [← (normalizeHoldbackBuckets_eq_ok hbuckets).2.2]
  exact holdbackBucketTotal_refresh_le _ _ _ hgate buckets

theorem sameHeld_of_slots {a b : Earned} {buckets' : List Holdback} (ha : a.heldAu = a.bucketsAu)
    (hb : b.heldAu = b.bucketsAu) (hbuckets : normalizeHoldbackBuckets a = .ok buckets)
    (hbuckets' : normalizeHoldbackBuckets b = .ok buckets')
    (h : ∀ slot, slotAu buckets slot = slotAu buckets' slot) : SameHeld a b := by
  have heq : buckets = buckets' := eq_of_slotAu_eq (normalBuckets_inOrder hbuckets)
    (normalBuckets_pos hbuckets) (normalBuckets_inOrder hbuckets')
    (normalBuckets_pos hbuckets') h
  subst heq
  refine ⟨?_, hbuckets.trans hbuckets'.symm⟩
  rw [ha, hb, ← (normalizeHoldbackBuckets_eq_ok hbuckets).2.2, ← (normalizeHoldbackBuckets_eq_ok hbuckets').2.2]

theorem sameHeld_of_refresh (hle : epoch ≤ epoch') (hgate : GateGrows gate gate')
    (hfirst : refreshEarningHoldback earned epoch lockedEpochs gate false = .ok first)
    (hsecond : refreshEarningHoldback first epoch' lockedEpochs gate' false = .ok second)
    (honce : refreshEarningHoldback earned epoch' lockedEpochs gate' false = .ok once) :
    SameHeld second once := by
  obtain ⟨_, hbuckets, -⟩ := refreshEarningHoldback_eq_ok hfirst
  obtain ⟨-, _, hfirstBuckets, hfirstSlots⟩ := refreshEarningHoldback_slots hbuckets hfirst
  obtain ⟨hheld, _, hsecondBuckets, hsecondSlots⟩ := refreshEarningHoldback_slots hfirstBuckets hsecond
  obtain ⟨hheld', _, honceBuckets, honceSlots⟩ := refreshEarningHoldback_slots hbuckets honce
  apply sameHeld_of_slots hheld hheld' hsecondBuckets honceBuckets
  intro _
  rw [hsecondSlots, honceSlots, funext hfirstSlots, maturedAu_maturedAu hle hgate]

theorem mem_refreshed_of_locked (hbuckets : normalizeHoldbackBuckets earned = .ok buckets)
    (h : refreshEarningHoldback earned epoch lockedEpochs gate false = .ok first) {bucket : Holdback}
    (hmem : bucket ∈ buckets) (hlocked : epoch < bucket.epoch + bucket.lockedEpochs.getD lockedEpochs) :
    ∃ kept ∈ first.holdbacks, bucket ∈ kept := by
  obtain ⟨_, hnormal, rfl⟩ := refreshEarningHoldback_eq_ok h
  rw [hbuckets, Except.ok.injEq] at hnormal
  subst hnormal
  refine ⟨_, rfl, List.mem_filterMap.mpr ⟨bucket, hmem, ?_⟩⟩
  unfold refreshBucket
  rw [if_pos (Or.inr hlocked)]

/--
Buckets that are not valid are refused at every epoch. All others can be refreshed, in one or in two steps,
nothing is held that was not held before, and no bucket is touched while it is locked.
-/
theorem refresh_closure (earned : Earned) {epoch epoch' lockedEpochs : Nat} {gate gate' : Option ProbeGate}
    (hle : epoch ≤ epoch') (hepoch : isSafeInteger epoch') (hlocked : isSafeInteger lockedEpochs)
    (hgate : GateGrows gate gate') :
    (∃ message, ∀ current, isSafeInteger current → ∀ g,
      refreshEarningHoldback earned current lockedEpochs g false = .error message) ∨
    ∃ first second once again, refreshEarningHoldback earned epoch lockedEpochs gate false = .ok first ∧
      refreshEarningHoldback first epoch' lockedEpochs gate' false = .ok second ∧
      refreshEarningHoldback earned epoch' lockedEpochs gate' false = .ok once ∧
      refreshEarningHoldback once epoch' lockedEpochs gate' false = .ok again ∧
      SameHeld second once ∧ SameHeld again once ∧
      first.heldAu ≤ earned.bucketsAu ∧ second.heldAu ≤ first.heldAu ∧
      ∀ buckets, normalizeHoldbackBuckets earned = .ok buckets → ∀ bucket ∈ buckets,
        epoch' < bucket.epoch + bucket.lockedEpochs.getD lockedEpochs →
          ∃ kept ∈ once.holdbacks, bucket ∈ kept := by
  have hepoch₁ : isSafeInteger epoch := Nat.le_trans hle hepoch
  cases hbuckets : normalizeHoldbackBuckets earned with
  | error message =>
    left
    refine ⟨message, ?_⟩
    intro current hcurrent g
    exact refreshEarningHoldback_error hbuckets hcurrent hlocked
  | ok buckets =>
    right
    obtain ⟨first, hfirst⟩ := @refreshEarningHoldback_accepts _ _ _ _ gate hbuckets hepoch₁ hlocked
    obtain ⟨hheld, _, hfirstBuckets, -⟩ := refreshEarningHoldback_slots hbuckets hfirst
    obtain ⟨second, hsecond⟩ := @refreshEarningHoldback_accepts _ _ _ _ gate' hfirstBuckets hepoch hlocked
    obtain ⟨once, honce⟩ := @refreshEarningHoldback_accepts _ _ _ _ gate' hbuckets hepoch hlocked
    obtain ⟨-, _, honceBuckets, -⟩ := refreshEarningHoldback_slots hbuckets honce
    obtain ⟨again, hagain⟩ := @refreshEarningHoldback_accepts _ _ _ _ gate' honceBuckets hepoch hlocked
    have hgate' : GateGrows gate' gate' := by
      cases hgate with
      | absent => exact .absent
      | grows hbps => exact .grows hbps (List.Subset.refl _)
    refine ⟨first, second, once, again, hfirst, hsecond, honce, hagain, ?_, ?_, ?_, ?_, ?_⟩
    . exact sameHeld_of_refresh hle hgate hfirst hsecond honce
    . exact sameHeld_of_refresh (Nat.le_refl _) hgate' honce hagain honce
    . exact refreshEarningHoldback_le hgate.bps_le.1 hfirst
    . rw [hheld]
      exact refreshEarningHoldback_le hgate.bps_le.2 hsecond
    . rintro _ ⟨⟩ bucket hmem hlock
      exact mem_refreshed_of_locked hbuckets honce hmem hlock

end Closure

def mixedEarned : Earned := ⟨15, 15, 0, some [⟨1, 10, some 2, false⟩, ⟨1, 5, some 2, true⟩], 1⟩

def halfGate : Option ProbeGate := some ⟨5000, []⟩

/--
The bucket that is not gated matures at the third epoch.
-/
theorem refresh_closure_mixed :
    ∃ first second once, refreshEarningHoldback mixedEarned 2 2 halfGate false = .ok first ∧
    refreshEarningHoldback first 3 2 halfGate false = .ok second ∧
    refreshEarningHoldback mixedEarned 3 2 halfGate false = .ok once ∧
    SameHeld second once ∧ first.heldAu = 15 ∧ second.heldAu ≤ first.heldAu := by
  have hgate : GateGrows halfGate halfGate := .grows (by decide) (List.Subset.refl _)
  have hclosure := refresh_closure mixedEarned (show 2 ≤ 3 by decide) (by decide)
    (show isSafeInteger 2 by decide) hgate
  rcases hclosure with ⟨_, herror⟩ | ⟨first, second, once, _, hfirst, hsecond, honce, -, hsame, -, -, hheld, -⟩
  . cases herror 2 (by decide) halfGate
  . refine ⟨first, second, once, hfirst, hsecond, honce, hsame, ?_, hheld⟩
    cases hfirst
    rfl

/--
Refreshing twice at one epoch adds up the two buckets that the first time has left in one slot.
-/
theorem refresh_twice_merges : ∃ once again, refreshEarningHoldback mixedEarned 3 2 halfGate false = .ok once ∧
    refreshEarningHoldback once 3 2 halfGate false = .ok again ∧
    once.holdbacks = some [⟨1, 5, some 2, true⟩, ⟨1, 5, some 2, true⟩] ∧
    again.holdbacks = some [⟨1, 10, some 2, true⟩] :=
  ⟨_, _, rfl, rfl, rfl, rfl⟩

end Mayhem
