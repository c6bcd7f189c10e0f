import Mayhem.Host
import Mayhem.Market

namespace Mayhem

/--
What may become of a rate: it stays within its bounds, moves by no more than a step and not past its
target, is not lost, and follows the momentum.
-/
structure PriceMove (current next momentum maxStepBps lower upper : Nat) : Prop where
  ge_lower : lower ≤ next
  le_upper : next ≤ upper
  rise_le : next ≤ current + max 1 (current * maxStepBps / 10000)
  fall_le : current ≤ next + max 1 (current * maxStepBps / 10000)
  ge_target : min current (scalePriceTerm current momentum) ≤ next
  le_target : next ≤ max current (scalePriceTerm current momentum)
  pos : 0 < current → 0 < next
  not_fall : 10000 < momentum → current ≤ next
  not_rise : momentum < 10000 → next ≤ current
  hold : momentum = 10000 → next = current

variable {current : Nat}

theorem scalePriceTerm_pos (momentum : Nat) (h : 0 < current) :
    0 < scalePriceTerm current momentum := by
  unfold scalePriceTerm
  rw [if_neg (Nat.ne_of_gt h)]
  exact Nat.lt_of_lt_of_le Nat.one_pos (Nat.le_max_right _ _)

theorem le_scalePriceTerm (current : Nat) {momentum : Nat} (h : 10000 ≤ momentum) :
    current ≤ scalePriceTerm current momentum := by
  unfold scalePriceTerm
  split
  . omega
  . have hmul := Nat.mul_le_mul_left current h
    omega

theorem scalePriceTerm_le (current : Nat) {momentum : Nat} (h : momentum ≤ 10000) :
    scalePriceTerm current momentum ≤ current := by
  unfold scalePriceTerm
  split
  . omega
  . -- half a unit is added before the division, which cannot complete another unit
    have hmul := Nat.mul_le_mul_left current h
    omega

variable {constants : MarketConstants}

theorem stepPriceTerm_between (hgain : constants.gainBps ≤ 10000) (current desired : Nat) :
    min current desired ≤ stepPriceTerm current desired constants ∧
      stepPriceTerm current desired constants ≤ max current desired := by
  have hgained (delta : Nat) : delta * constants.gainBps / 10000 ≤ delta := by
    have hmul := Nat.mul_le_mul_left delta hgain
    omega
  unfold stepPriceTerm
  split
  . omega
  . split
    . omega
    . dsimp only
      split
      . next _ =>
        have hle := hgained (desired - current)
        rw [if_neg (by omega)]
        omega
      . next _ _ _ =>
        have hle := hgained (current - desired)
        rw [if_pos (by omega)]
        omega

theorem stepPriceTerm_bounded (hpos : 0 < current) (desired : Nat) :
    stepPriceTerm current desired constants ≤
      current + max 1 (current * constants.maxStepBps / 10000) ∧
      current ≤ stepPriceTerm current desired constants +
        max 1 (current * constants.maxStepBps / 10000) := by
  unfold stepPriceTerm
  generalize current * constants.maxStepBps / 10000 = maxStep
  split
  . omega
  . rw [if_neg (by omega)]
    dsimp only
    split <;> omega

theorem priceMove_of_clamp (hgain : constants.gainBps ≤ 10000) {lower upper : Nat}
    (hlower : lower ≤ current) (hupper : current ≤ upper) (momentum : Nat) :
    PriceMove current
      (max lower (min (stepPriceTerm current (scalePriceTerm current momentum) constants) upper))
      momentum constants.maxStepBps lower upper := by
  obtain ⟨_, _⟩ := stepPriceTerm_between hgain current (scalePriceTerm current momentum)
  have hbounded : stepPriceTerm current (scalePriceTerm current momentum) constants ≤
        current + max 1 (current * constants.maxStepBps / 10000) ∧
      current ≤ stepPriceTerm current (scalePriceTerm current momentum) constants +
        max 1 (current * constants.maxStepBps / 10000) := by
    rcases Nat.eq_zero_or_pos current with rfl | hpos
    . simp [scalePriceTerm, stepPriceTerm]
    . exact stepPriceTerm_bounded hpos _
  have htarget := @scalePriceTerm_pos current momentum
  have hup := @le_scalePriceTerm current momentum
  have hdown := @scalePriceTerm_le current momentum
  generalize stepPriceTerm current (scalePriceTerm current momentum) constants = stepped at *
  generalize hscaled : scalePriceTerm current momentum = scaled at *
  -- the bounds hold for the current term, so clamping only takes the step back towards it
  constructor
  case ge_lower => omega
  case le_upper => omega
  case rise_le => omega
  case fall_le => omega
  case ge_target => rw [hscaled]; omega
  case le_target => rw [hscaled]; omega
  case pos => omega
  case not_fall => omega
  case not_rise => omega
  case hold => omega

variable {rateMap : List RateEntry} {entry : RateEntry}

theorem rateMapByUnit_eq_some {unit : String} (h : rateMapByUnit rateMap unit = some entry) :
    entry ∈ rateMap ∧ entry.unit = unit := by
  unfold rateMapByUnit at h
  have hunit := List.find?_some h
  exact ⟨List.mem_reverse.mp (List.mem_of_find?_eq_some h), by simpa using hunit⟩

theorem rateMapByUnit_of_mem (hnodup : (rateMap.map RateEntry.unit).Nodup) (h : entry ∈ rateMap) :
    rateMapByUnit rateMap entry.unit = some entry := by
  cases hfound : rateMapByUnit rateMap entry.unit with
  | none =>
    have hnone := List.find?_eq_none.mp hfound entry (List.mem_reverse.mpr h)
    simp at hnone
  | some =>
    obtain ⟨hmem, hunit⟩ := rateMapByUnit_eq_some hfound
    rw [List.inj_on_of_nodup_map hnodup hmem h hunit]

theorem insertRate_perm (entry : RateEntry) (rateMap : List RateEntry) :
    (insertRate entry rateMap).Perm (entry :: rateMap) := by
  induction rateMap with
  | nil => exact List.Perm.refl _
  | cons first _ ih =>
    unfold insertRate
    split
    . exact List.Perm.refl _
    . exact (ih.cons first).trans (List.Perm.swap _ _ _)

theorem normalizeRateMap_perm (rateMap : List RateEntry) :
    (normalizeRateMap rateMap).Perm rateMap := by
  have hfold (sorted : List RateEntry) :
    (rateMap.foldl (fun sorted entry => insertRate entry sorted) sorted).Perm
      (sorted ++ rateMap) := by
    induction rateMap generalizing sorted with
    | nil => simp
    | cons entry rest ih =>
      rw [List.foldl_cons]
      refine (ih _).trans ?_
      exact ((insertRate_perm entry sorted).append_right rest).trans List.perm_middle.symm
  exact hfold []

def lowerRate (ref : RateEntry) (granularity minBps : Nat) : Nat :=
  (ref.perUnitAu * granularity * max 2500 minBps + ref.granularity * 10000 - 1) /
    (ref.granularity * 10000)

def upperRate (ref : RateEntry) (granularity maxBps : Nat) : Nat :=
  ref.perUnitAu * granularity * min 40000 maxBps / (ref.granularity * 10000)

variable {minBps maxBps : Nat}

theorem rateWithinBounds_iff {price ref : RateEntry} :
    rateWithinBounds price ref minBps maxBps = true ↔
      (ref.perUnitAu ≠ 0 ∧ isSafeInteger ref.granularity ∧ ref.granularity ≠ 0 ∧
        isSafeInteger price.granularity ∧ price.granularity ≠ 0) ∧
      lowerRate ref price.granularity minBps ≤ price.perUnitAu ∧
      price.perUnitAu ≤ upperRate ref price.granularity maxBps := by
  unfold rateWithinBounds lowerRate upperRate
  rw [decide_eq_true_iff]
  generalize ref.perUnitAu * price.granularity * max 2500 minBps = low
  generalize ref.perUnitAu * price.granularity * min 40000 maxBps = high
  constructor
  . rintro ⟨hprice, hsafe, hgran, hsafe', hgran', hlow, hhigh⟩
    refine ⟨⟨hprice, hsafe, hgran, hsafe', hgran'⟩, ?_, ?_⟩
    . rw [Nat.mul_assoc] at hlow
      rw [← Nat.lt_succ_iff, Nat.div_lt_iff_lt_mul (by omega), Nat.succ_mul]
      omega
    . rw [Nat.mul_assoc] at hhigh
      rw [Nat.le_div_iff_mul_le (by omega)]
      exact hhigh
  . rintro ⟨⟨hprice, hsafe, hgran, hsafe', hgran'⟩, hlow, hhigh⟩
    rw [Nat.mul_assoc]
    refine ⟨hprice, hsafe, hgran, hsafe', hgran', ?_, ?_⟩
    . rw [← Nat.lt_succ_iff, Nat.div_lt_iff_lt_mul (by omega), Nat.succ_mul] at hlow
      omega
    . rw [Nat.le_div_iff_mul_le (by omega)] at hhigh
      exact hhigh

theorem eraseDups_nodup (units : List String) : units.eraseDups.Nodup := by
  induction hlength : units.length using Nat.strongRecOn generalizing units with
  | ind _ ih =>
    cases units with
    | nil => exact List.nodup_nil
    | cons =>
      rw [List.eraseDups_cons, List.nodup_cons]
      constructor
      . rw [List.mem_eraseDups]
        simp
      . refine ih _ ?_ _ rfl
        rw [← hlength, List.length_cons]
        exact Nat.lt_succ_of_le (List.length_filter_le _ _)

theorem rateMapUnits_length {other : List RateEntry}
    (h : (rateMap.map RateEntry.unit).Perm (other.map RateEntry.unit)) :
    (rateMapUnits rateMap).length = (rateMapUnits other).length := by
  have hperm : (rateMapUnits rateMap).Perm (rateMapUnits other) := by
    unfold rateMapUnits
    rw [List.perm_ext_iff_of_nodup (eraseDups_nodup _) (eraseDups_nodup _)]
    intro unit
    rw [List.mem_eraseDups, List.mem_eraseDups, h.mem_iff]
  exact hperm.length_eq

theorem validateRateMapBounds_accepts_iff {price reference : List RateEntry} :
    validateRateMapBounds price reference minBps maxBps = .ok () ↔
      (rateMapUnits price).length = (rateMapUnits reference).length ∧
      ∀ unit ∈ rateMapUnits reference, ∃ found, rateMapByUnit price unit = some found ∧
        ∃ ref ∈ rateMapByUnit reference unit, rateWithinBounds found ref minBps maxBps = true := by
  simp only [validateRateMapBounds, checks_iff, not_not, ne_eq, Except.forM_accepts_iff]

theorem validateRateMapBounds_mem {price reference : List RateEntry}
    (hnodup : (price.map RateEntry.unit).Nodup)
    (h : validateRateMapBounds price reference minBps maxBps = .ok ()) (hentry : entry ∈ price) :
    ∃ ref, rateMapByUnit reference entry.unit = some ref ∧
      rateWithinBounds entry ref minBps maxBps = true := by
  obtain ⟨hlength, hunits⟩ := validateRateMapBounds_accepts_iff.mp h
  -- as many units as the reference, and all of its units: no others
  have hsubset : rateMapUnits reference ⊆ rateMapUnits price := by
    intro unit hunit
    obtain ⟨found, hfound, -⟩ := hunits unit hunit
    obtain ⟨hmem, rfl⟩ := rateMapByUnit_eq_some hfound
    exact List.mem_eraseDups.mpr (List.mem_map_of_mem hmem)
  have hperm : (rateMapUnits reference).Perm (rateMapUnits price) :=
    (List.subperm_of_subset (eraseDups_nodup _) hsubset).perm_of_length_le (Nat.le_of_eq hlength)
  have hunit : entry.unit ∈ rateMapUnits reference :=
    hperm.mem_iff.mpr (List.mem_eraseDups.mpr (List.mem_map_of_mem hentry))
  obtain ⟨found, hfound, hbounds⟩ := hunits _ hunit
  rw [rateMapByUnit_of_mem hnodup hentry, Option.some.injEq] at hfound
  subst hfound
  exact hbounds

def PriceTerms.scale (terms : PriceTerms) (momentum : Nat) : PriceTerms :=
  ⟨scaleRateMap terms.rateMap momentum, scalePriceTerm terms.perReqAu momentum,
    scalePriceTerm terms.minSessionAu momentum⟩

structure PriceTerms.WithinBounds (terms : PriceTerms) (seed : PriceSeed)
    (reference : List RateEntry) (minBps maxBps : Nat) : Prop where
  units_nodup : (terms.rateMap.map RateEntry.unit).Nodup
  rates_ok : validateRateMapBounds terms.rateMap reference minBps maxBps = .ok ()
  perReq_ge : scalePriceTerm seed.terms.perReqAu 2500 ≤ terms.perReqAu
  perReq_le : terms.perReqAu ≤ scalePriceTerm seed.terms.perReqAu 40000
  minSession_ge : scalePriceTerm seed.terms.minSessionAu 2500 ≤ terms.minSessionAu
  minSession_le : terms.minSessionAu ≤ scalePriceTerm seed.terms.minSessionAu 40000

section Next

variable {constants : MarketConstants} {rateMap reference : List RateEntry} {minBps maxBps : Nat}

def stepEntry (constants : MarketConstants) (momentum : Nat) (entry : RateEntry) : RateEntry :=
  { entry with
    perUnitAu := stepPriceTerm entry.perUnitAu (scalePriceTerm entry.perUnitAu momentum) constants }

theorem stepRateMap_scale (hnodup : (rateMap.map RateEntry.unit).Nodup) (momentum : Nat) :
    stepRateMap rateMap (scaleRateMap rateMap momentum) constants =
      .ok (normalizeRateMap (rateMap.map (stepEntry constants momentum))) := by
  have hscaled : ((scaleRateMap rateMap momentum).map RateEntry.unit).Nodup := by
    rw [scaleRateMap, ((normalizeRateMap_perm _).map RateEntry.unit).nodup_iff, List.map_map]
    exact hnodup
  have htarget : ∀ entry ∈ rateMap, rateMapByUnit (scaleRateMap rateMap momentum) entry.unit =
      some { entry with perUnitAu := scalePriceTerm entry.perUnitAu momentum } := by
    intro entry hentry
    have hmem : { entry with perUnitAu := scalePriceTerm entry.perUnitAu momentum } ∈
        scaleRateMap rateMap momentum :=
      (normalizeRateMap_perm _).mem_iff.mpr (List.mem_map.mpr ⟨entry, hentry, rfl⟩)
    exact rateMapByUnit_of_mem hscaled hmem
  simp only [stepRateMap, checks_iff, Except.mapM_accepts_iff]
  refine ⟨rateMap.map (stepEntry constants momentum), ?_, rfl⟩
  rw [List.forall₂_map_right_iff, List.forall₂_same]
  intro entry hentry
  refine ⟨{ entry with perUnitAu := scalePriceTerm entry.perUnitAu momentum }, ?_, rfl⟩
  rw [htarget entry hentry]
  simp

theorem clampRate_stepEntry {ref : RateEntry} (momentum : Nat)
    (href : rateMapByUnit reference entry.unit = some ref)
    (hbounds : rateWithinBounds entry ref minBps maxBps = true) :
    clampRate reference minBps maxBps (stepEntry constants momentum entry) = .ok { entry with
      perUnitAu := max (lowerRate ref entry.granularity minBps)
        (min (stepPriceTerm entry.perUnitAu (scalePriceTerm entry.perUnitAu momentum) constants)
          (upperRate ref entry.granularity maxBps)) } := by
  obtain ⟨⟨hprice, hsafe, hgran, hsafe', hgran'⟩, hlow, hhigh⟩ := rateWithinBounds_iff.mp hbounds
  have hle : lowerRate ref entry.granularity minBps ≤ upperRate ref entry.granularity maxBps :=
    Nat.le_trans hlow hhigh
  simp only [clampRate, checks_iff, not_or, not_not]
  exact ⟨ref, href, ⟨hprice, hsafe', hgran', hsafe, hgran⟩, Nat.not_lt.mpr hle, rfl⟩

theorem clampRate_unit {rate : RateEntry} (h : clampRate reference minBps maxBps entry = .ok rate) :
    rate.unit = entry.unit := by
  simp only [clampRate, checks_iff] at h
  obtain ⟨_, -, -, -, rfl⟩ := h
  rfl

theorem clampRateMapBounds_step (hnodup : (rateMap.map RateEntry.unit).Nodup)
    (hrates : validateRateMapBounds rateMap reference minBps maxBps = .ok ())
    (hgain : constants.gainBps ≤ 10000) (momentum : Nat) :
    ∃ next, clampRateMapBounds (normalizeRateMap (rateMap.map (stepEntry constants momentum)))
        reference minBps maxBps = .ok next ∧
      (next.map RateEntry.unit).Perm (rateMap.map RateEntry.unit) ∧
      ∀ rate ∈ next, ∃ current ∈ rateMap, ∃ ref ∈ rateMapByUnit reference rate.unit,
        current.unit = rate.unit ∧ current.granularity = rate.granularity ∧
        PriceMove current.perUnitAu rate.perUnitAu momentum constants.maxStepBps
          (lowerRate ref rate.granularity minBps) (upperRate ref rate.granularity maxBps) := by
  have hperm := normalizeRateMap_perm (rateMap.map (stepEntry constants momentum))
  have hunits : ((normalizeRateMap (rateMap.map (stepEntry constants momentum))).map
      RateEntry.unit).Perm (rateMap.map RateEntry.unit) := by
    have hmap := hperm.map RateEntry.unit
    rw [List.map_map] at hmap
    exact hmap
  have hclamp : ∀ rate ∈ normalizeRateMap (rateMap.map (stepEntry constants momentum)),
      ∃ current ∈ rateMap, ∃ ref, rateMapByUnit reference current.unit = some ref ∧
        rateWithinBounds current ref minBps maxBps = true ∧
          rate = stepEntry constants momentum current := by
    intro rate hrate
    obtain ⟨current, hcurrent, rfl⟩ := List.mem_map.mp (hperm.mem_iff.mp hrate)
    obtain ⟨ref, href, hbounds⟩ := validateRateMapBounds_mem hnodup hrates hcurrent
    exact ⟨current, hcurrent, ref, href, hbounds, rfl⟩
  obtain ⟨bounded, hbounded⟩ : ∃ bounded,
    (normalizeRateMap (rateMap.map (stepEntry constants momentum))).mapM
      (clampRate reference minBps maxBps) = .ok bounded := by
    rw [Except.exists_mapM_iff]
    intro rate hrate
    obtain ⟨current, -, ref, href, hbounds, rfl⟩ := hclamp rate hrate
    exact ⟨_, clampRate_stepEntry momentum href hbounds⟩
  refine ⟨normalizeRateMap bounded, ?_, ?_, ?_⟩
  . simp only [clampRateMapBounds, checks_iff, not_not, hbounded]
    exact ⟨(rateMapUnits_length hunits).trans (validateRateMapBounds_accepts_iff.mp hrates).1,
      bounded, rfl, rfl⟩
  . refine ((normalizeRateMap_perm bounded).map RateEntry.unit).trans ?_
    rw [Except.map_eq_of_mapM hbounded fun _ _ => clampRate_unit]
    exact hunits
  . intro rate hrate
    rw [(normalizeRateMap_perm _).mem_iff] at hrate
    obtain ⟨stepped, hstepped, hrate⟩ := Except.exists_of_mem_mapM_result hbounded hrate
    obtain ⟨current, hcurrent, ref, href, hbounds, rfl⟩ := hclamp stepped hstepped
    rw [clampRate_stepEntry momentum href hbounds, Except.ok.injEq] at hrate
    subst hrate
    obtain ⟨-, hlow, hhigh⟩ := rateWithinBounds_iff.mp hbounds
    exact ⟨current, hcurrent, ref, href, rfl, rfl, priceMove_of_clamp hgain hlow hhigh momentum⟩

/--
What may become of the terms of a price: the units stay, and every term has moved as it may.
-/
structure PriceTerms.Moved (current next : PriceTerms) (momentum maxStepBps : Nat)
    (seed : PriceSeed) (reference : List RateEntry) (minBps maxBps : Nat) : Prop where
  units : (next.rateMap.map RateEntry.unit).Perm (current.rateMap.map RateEntry.unit)
  rates : ∀ rate ∈ next.rateMap, ∃ before ∈ current.rateMap,
    ∃ ref ∈ rateMapByUnit reference rate.unit,
    before.unit = rate.unit ∧ before.granularity = rate.granularity ∧
    PriceMove before.perUnitAu rate.perUnitAu momentum maxStepBps
      (lowerRate ref rate.granularity minBps) (upperRate ref rate.granularity maxBps)
  perReq : PriceMove current.perReqAu next.perReqAu momentum maxStepBps
    (scalePriceTerm seed.terms.perReqAu 2500) (scalePriceTerm seed.terms.perReqAu 40000)
  minSession : PriceMove current.minSessionAu next.minSessionAu momentum maxStepBps
    (scalePriceTerm seed.terms.minSessionAu 2500) (scalePriceTerm seed.terms.minSessionAu 40000)

theorem nextPriceTerms_moved {activity : MarketActivity} {seed : PriceSeed} {momentum : Nat}
    (hgain : activity.constants.gainBps ≤ 10000)
    (hbounds : activity.previous.WithinBounds seed reference minBps maxBps)
    (htarget : activity.desired = activity.previous.scale momentum) :
    ∃ next, nextPriceTerms activity seed reference minBps maxBps = .ok next ∧
      activity.previous.Moved next momentum activity.constants.maxStepBps seed reference
        minBps maxBps := by
  obtain ⟨rateMap, hrateMap, hunits, hrates⟩ :=
    clampRateMapBounds_step hbounds.units_nodup hbounds.rates_ok hgain momentum
  simp only [nextPriceTerms, htarget, PriceTerms.scale, stepRateMap_scale hbounds.units_nodup,
    Except.bind_of_ok, hrateMap, checks_iff]
  refine ⟨_, rfl, hunits, hrates, ?_, ?_⟩
  . exact priceMove_of_clamp hgain hbounds.perReq_ge hbounds.perReq_le momentum
  . exact priceMove_of_clamp hgain hbounds.minSession_ge hbounds.minSession_le momentum

end Next

/--
The momentum that the evidence in an activity record stands for.
-/
def MarketActivity.settledMomentum (activity : MarketActivity) : Nat :=
  if activity.frozenReason.isSome then 10000
  else match activity.activityBasis with
    | .calibratedWork => marketActivityMomentum (activity.activityRate.getD 0)
        (activity.previousActivityRate.getD 0) activity.constants
    | .relativeDimensionVector => marketVectorMomentum (activity.activityVector.getD [])
        (activity.previousActivityVector.getD []) activity.constants

section Controller

variable {crypto : Crypto} {reg : Registry} {market : Market} {ctx : MarketContext}

theorem marketActivity_target {constants : MarketConstants} {current : PriceRecord}
    {seed : PriceSeed} {modelRef : ModelRef} {usage : MarketUsage}
    {canonical : Option CanonicalActivity} {activity : MarketActivity}
    (h : marketActivity crypto ctx constants current seed modelRef usage canonical = .ok activity) :
    activity.constants = constants ∧ activity.previous = current.terms ∧
      activity.momentumBps = activity.settledMomentum ∧
      activity.desired = activity.previous.scale activity.momentumBps := by
  unfold marketActivity at h
  cases hcalibration : modelRef.activityCalibration <;>
    rcases canonical with _ | ⟨settled, _ | totals⟩ <;>
    simp only [hcalibration, Option.map_some, Option.map_none, Option.bind_some, Option.bind_none,
      Except.map_accepts_iff, checks_iff] at h
  case' none.none => obtain ⟨work, -, rfl⟩ := h
  case' none.some.none => obtain ⟨work, -, rfl⟩ := h
  case' none.some.some => obtain ⟨work, -, -, rfl⟩ := h
  case' some.none => obtain ⟨-, work, -, rfl⟩ := h
  case' some.some.none => obtain ⟨-, work, -, rfl⟩ := h
  case' some.some.some => obtain ⟨-, work, -, -, rfl⟩ := h
  all_goals
    refine ⟨rfl, rfl, ?_⟩
    dsimp only [MarketActivity.settledMomentum, PriceTerms.scale]
    -- without settled usage or an epoch before it nothing is compared, and the price is held
    generalize activityContinues _ _ _ _ = previous
    cases previous <;> cases work <;> exact ⟨rfl, rfl⟩

theorem PriceSchedule.priceActiveEntry_priceScheduleAt (schedule : PriceSchedule) (time : Nat) :
    (schedule.priceScheduleAt time).priceActiveEntry time = schedule.priceActiveEntry time := by
  rcases schedule with ⟨_, _ | pending⟩
  . rfl
  . unfold priceScheduleAt
    dsimp only
    split
    . next hdue => simp [priceActiveEntry, hdue]
    . rfl

/--
The recorded price is the one in force, moved by the momentum that the activity recorded with it
stands for.
-/
def PriceUpdate.Lawful (reg : Registry) (market : Market) (ctx : MarketContext)
    (update : PriceUpdate) : Prop :=
  ∃ enclave current modelRef activity, reg.enclaves.get update.row.enclaveId = some enclave ∧
    (market.priceSchedule update.scheduleKey).priceActiveEntry ctx.time = some current ∧
    market.modelRef.get enclave.modelId = some modelRef ∧ update.record.market = some activity ∧
    activity.momentumBps = activity.settledMomentum ∧
    (current.terms.WithinBounds current.priceSeedEntry modelRef.rateMap
        (reg.activeParamAt ctx.time .priceMinBps) (reg.activeParamAt ctx.time .priceMaxBps) →
      current.terms.Moved update.record.terms activity.momentumBps
        (reg.activeParamAt ctx.time .marketMaxStepBps)
        current.priceSeedEntry modelRef.rateMap (reg.activeParamAt ctx.time .priceMinBps)
        (reg.activeParamAt ctx.time .priceMaxBps))

theorem nextPriceTerms_of_marketActivity {current : PriceRecord} {seed : PriceSeed}
    {modelRef : ModelRef} {usage : MarketUsage} {canonical : Option CanonicalActivity}
    {activity : MarketActivity} {minBps maxBps : Nat}
    (hgain : reg.activeParamAt ctx.time .marketGainBps ≤ 10000)
    (hactivity : marketActivity crypto ctx (marketPriceConstants (reg.activeParamAt ctx.time))
      current seed modelRef usage canonical = .ok activity)
    (hbounds : current.terms.WithinBounds seed modelRef.rateMap minBps maxBps) :
    ∃ next, nextPriceTerms activity seed modelRef.rateMap minBps maxBps = .ok next ∧
      current.terms.Moved next activity.settledMomentum
        (reg.activeParamAt ctx.time .marketMaxStepBps) seed modelRef.rateMap minBps maxBps := by
  obtain ⟨hconstants, hprevious, hmomentum, htarget⟩ := marketActivity_target hactivity
  have hmoved := @nextPriceTerms_moved modelRef.rateMap minBps maxBps activity seed
    activity.settledMomentum
  rw [hconstants, hprevious, ← hmomentum] at hmoved
  rw [← hmomentum]
  exact hmoved hgain hbounds (hprevious ▸ htarget)

theorem marketPriceUpdate_lawful {entry : ActivityEntry} {update : PriceUpdate}
    (hgain : reg.activeParamAt ctx.time .marketGainBps ≤ 10000)
    (h : marketPriceUpdate crypto reg market ctx entry = .ok (some update)) :
    update.Lawful reg market ctx := by
  unfold marketPriceUpdate at h
  dsimp only at h
  split at h
  . simp at h
  . next enclave henclave =>
    split at h
    . split at h <;> simp at h
    . split at h
      . simp at h
      . simp only [checks_iff, Option.some.injEq, PriceSchedule.priceActiveEntry_priceScheduleAt]
          at h
        obtain ⟨current, hcurrent, -, modelRef, hmodelRef, -, activity, hactivity, terms,
          hterms, rfl⟩ := h
        have hmomentum := (marketActivity_target hactivity).2.2.1
        refine ⟨enclave, current, modelRef, activity,
          (Option.filter_eq_some_iff.mp henclave).1, hcurrent,
          hmodelRef, rfl, hmomentum, ?_⟩
        intro hbounds
        obtain ⟨next, hnext, hmoved⟩ := nextPriceTerms_of_marketActivity hgain hactivity hbounds
        obtain rfl := Except.ok.inj (hnext.symm.trans hterms)
        rw [hmomentum]
        exact hmoved

/--
Every price that the controller records is lawful, and a settled activity never fails to give one.
-/
theorem market_repricing_law (hgain : reg.activeParamAt ctx.time .marketGainBps ≤ 10000) :
    (∀ usage updates, computeMarketPriceUpdates crypto reg market ctx usage = .ok updates →
      ∀ update ∈ updates, update.Lawful reg market ctx) ∧
    ∀ current seed modelRef usage canonical activity minBps maxBps,
      marketActivity crypto ctx (marketPriceConstants (reg.activeParamAt ctx.time)) current seed
        modelRef usage canonical = .ok activity →
      current.terms.WithinBounds seed modelRef.rateMap minBps maxBps →
      ∃ next, nextPriceTerms activity seed modelRef.rateMap minBps maxBps = .ok next ∧
        current.terms.Moved next activity.settledMomentum
          (reg.activeParamAt ctx.time .marketMaxStepBps) seed modelRef.rateMap minBps maxBps := by
  constructor
  . intro usage updates hupdates update hupdate
    simp only [computeMarketPriceUpdates, checks_iff] at hupdates
    obtain ⟨-, entries, -, found, hfound, rfl⟩ := hupdates
    rw [List.reduceOption_mem_iff] at hupdate
    obtain ⟨entry, -, hentry⟩ := Except.exists_of_mem_mapM_result hfound hupdate
    exact marketPriceUpdate_lawful hgain hentry
  . intro _ _ _ _ _ _ _ _ hactivity hbounds
    exact nextPriceTerms_of_marketActivity hgain hactivity hbounds

end Controller

def speechTerms : PriceTerms := ⟨[⟨"audio_second", 100, 1⟩], 10, 0⟩

def speechRegistry : Registry :=
  { Registry.empty with
    enclaves := Table.empty.put 40 ⟨.active, .admin, "m", some .stt, 0, [.audio], []⟩ }

def quietMarket : Market :=
  { Ledger.empty.market with
    schedule := Table.empty.put (40, none)
      ⟨some ⟨40, "m", 1, speechTerms, 0, 10, .admin, none, none, none, none⟩, none⟩
    modelRef := Table.empty.put "m" ⟨some .stt, speechTerms.rateMap, none, some 1⟩ }

def speechUpdates (market : Market) (epoch seconds : Nat) : Except String (List PriceUpdate) :=
  computeMarketPriceUpdates plainHost speechRegistry market
    ⟨epoch, 0, 3600, fun _ => some ⟨[("audio_second", seconds)], none⟩, false⟩
      [⟨⟨40, none, none⟩, 400, 1, 1⟩]

def busyMarket : Market :=
  quietMarket.writePriceUpdates ((speechUpdates quietMarket 1 2).toOption.getD [])

/--
Twice the seconds of the epoch before would double the price, which rises by the largest step.
-/
theorem market_repricing_law_busy : ∃ update activity, speechUpdates busyMarket 2 4 = .ok [update] ∧
    update.record.market = some activity ∧ activity.momentumBps = 20000 ∧
    ∀ rate ∈ update.record.terms.rateMap, 100 ≤ rate.perUnitAu ∧ rate.perUnitAu ≤ 110 := by
  have hfacts : (speechUpdates busyMarket 2 4).map (List.map fun update =>
      (update.row.enclaveId, update.scheduleKey,
        update.record.market.map MarketActivity.momentumBps)) =
      .ok [(40, (40, none), some 20000)] := by decide +kernel
  obtain ⟨updates, hupdates, hmapped⟩ := (Except.map_accepts_iff _ _ _).mp hfacts
  obtain ⟨update, rfl, hupdate⟩ := List.map_eq_singleton_iff.mp hmapped
  simp only [Prod.mk.injEq] at hupdate
  obtain ⟨hrow, hkey, hmomentum⟩ := hupdate
  have hgain : speechRegistry.activeParamAt 0 .marketGainBps ≤ 10000 := by decide +kernel
  have hlaw := (market_repricing_law hgain).1 _ _ hupdates update (List.mem_singleton.mpr rfl)
  obtain ⟨enclave, current, modelRef, activity, henclave, hcurrent, hmodelRef, hactivity, -,
    hmoved⟩ := hlaw
  rw [hactivity] at hmomentum
  replace hmomentum := Option.some.inj hmomentum
  rw [hrow] at henclave
  obtain rfl := Option.some.inj henclave
  obtain rfl := Option.some.inj hmodelRef
  have hterms : ((busyMarket.priceSchedule (40, none)).priceActiveEntry 0).map (fun record =>
      (record.terms, record.priceSeedEntry.terms)) =
        some (speechTerms, speechTerms) := by decide +kernel
  rw [hkey] at hcurrent
  rw [hcurrent] at hterms
  obtain ⟨hterms, hseed⟩ := Prod.mk.inj (Option.some.inj hterms)
  have hbounds :
      speechTerms.WithinBounds current.priceSeedEntry speechTerms.rateMap 2500 40000 := by
    refine ⟨by decide, rfl, ?_, ?_, ?_, ?_⟩ <;> rw [hseed] <;> decide
  rw [hterms, hmomentum] at hmoved
  refine ⟨update, activity, hupdates, hactivity, hmomentum, ?_⟩
  intro rate hrate
  obtain ⟨_, hbefore, _, -, -, -, hmove⟩ := (hmoved hbounds).rates rate hrate
  obtain rfl := List.mem_singleton.mp hbefore
  exact ⟨hmove.not_fall (by decide), hmove.rise_le⟩

end Mayhem
