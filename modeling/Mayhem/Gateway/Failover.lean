import Mayhem.Lib.Tally
import Mayhem.Gateway.Pricing

/-!
This module contains the session of the gateway that moves from provider to provider, and its price.
-/

namespace Mayhem

namespace Gateway

def saturatedAu (entry : PricedUsage) : Nat := saturatingMul entry.count entry.perUnitAu

def saturatedRoundedAu (entry : PricedUsage) : Nat := ceilDivU128 (saturatedAu entry) entry.granularity

theorem ceilDivU128_le_iff {value divisor k : Nat} (h : 0 < divisor) :
    ceilDivU128 value divisor ≤ k ↔ value ≤ k * divisor := by
  unfold ceilDivU128
  split
  . next _ =>
    obtain rfl : value = 0 := by omega
    simp
  . rw [Nat.div_le_iff_le_mul_add_pred h, Nat.mul_comm divisor k]
    omega

theorem ceilDivU128_mono {value value' divisor : Nat} (hpos : 0 < divisor) (h : value ≤ value') :
    ceilDivU128 value divisor ≤ ceilDivU128 value' divisor :=
  (ceilDivU128_le_iff hpos).mpr (h.trans ((ceilDivU128_le_iff hpos).mp (Nat.le_refl _)))

theorem ceilDivU128_le_self {value divisor : Nat} (hpos : 0 < divisor) : ceilDivU128 value divisor ≤ value :=
  (ceilDivU128_le_iff hpos).mpr (Nat.le_mul_of_pos_right value hpos)

theorem ceilDivU128_add_le {a b divisor : Nat} (hpos : 0 < divisor) :
    ceilDivU128 (a + b) divisor ≤ ceilDivU128 a divisor + ceilDivU128 b divisor := by
  rw [ceilDivU128_le_iff hpos, Nat.add_mul]
  exact Nat.add_le_add ((ceilDivU128_le_iff hpos).mp (Nat.le_refl _))
    ((ceilDivU128_le_iff hpos).mp (Nat.le_refl _))

variable {rateMap : List RateEntry} {counts : Counts} {smaller larger : ReceiptUsage}

theorem usageUnitsAu_of_one (hone : OneGranularity (pricedUnits rateMap counts)) {entry : PricedUsage}
    (hentry : entry ∈ pricedUnits rateMap counts) :
    usageUnitsAu rateMap counts =
      ceilDivU128 (min ((pricedUnits rateMap counts).map saturatedAu).sum u128Max) entry.granularity := by
  unfold usageUnitsAu
  generalize pricedUnits rateMap counts = priced at *
  cases priced with
  | nil => cases hentry
  | cons first rest =>
    have hsum := foldl_saturatingAdd saturatedAu (first :: rest) (Nat.zero_le _)
    simp only [saturatedAu, Nat.zero_add] at hsum
    rw [← hone first List.mem_cons_self entry hentry]
    simp only [if_pos (oneGranularity_cons_iff.mp hone), hsum]

theorem usageUnitsAu_of_many (hmany : ¬ OneGranularity (pricedUnits rateMap counts)) :
    usageUnitsAu rateMap counts = min ((pricedUnits rateMap counts).map saturatedRoundedAu).sum u128Max := by
  unfold usageUnitsAu
  generalize pricedUnits rateMap counts = priced at *
  cases priced with
  | nil => simp
  | cons first rest =>
    rw [oneGranularity_cons_iff] at hmany
    have hsum := foldl_saturatingAdd saturatedRoundedAu (first :: rest) (Nat.zero_le _)
    simp only [saturatedRoundedAu, saturatedAu, Nat.zero_add] at hsum
    simp only [if_neg hmany, hsum]

theorem sum_pricedUnits (rateMap : List RateEntry) (counts : Counts) (f : PricedUsage → Nat) :
    ((pricedUnits rateMap counts).map f).sum =
      (counts.map fun entry => ((pricedUnit rateMap entry).map f).getD 0).sum := by
  rw [pricedUnits, ((List.perm_insertionSort _ _).map f).sum_nat]
  induction counts with
  | nil => rfl
  | cons entry counts ih =>
    rw [List.filterMap_cons, List.map_cons, List.sum_cons, ← ih]
    cases pricedUnit rateMap entry with
    | none => simp
    | some => rw [List.map_cons, List.sum_cons]; rfl

namespace ReceiptUsage

theorem distinct (usage : ReceiptUsage) : (usage.units.map Prod.fst).Nodup := by
  apply usage.sorted.imp
  rintro unit _ hlt rfl
  exact String.lt_irrefl unit hlt

def Extends (larger smaller : ReceiptUsage) : Prop :=
  ∀ entry ∈ smaller.units, ∃ entry' ∈ larger.units, entry'.1 = entry.1 ∧ entry.2 ≤ entry'.2

theorem lookup_of_mem {usage : ReceiptUsage} {entry : String × Nat} (h : entry ∈ usage.units) :
    usage.units.lookup entry.1 = some entry.2 := by
  have hdistinct := usage.distinct
  generalize usage.units = units at h hdistinct
  induction units with
  | nil => cases h
  | cons first units ih =>
    rw [List.map_cons, List.nodup_cons] at hdistinct
    rcases List.mem_cons.mp h with rfl | hmem
    . rw [List.lookup_cons, beq_self_eq_true]
    . have hne : entry.1 ≠ first.1 := fun heq => hdistinct.1 (heq ▸ List.mem_map_of_mem hmem)
      rw [List.lookup_cons, beq_eq_false_iff_ne.mpr hne]
      exact ih hmem hdistinct.2

theorem isMonotonicFrom_iff {larger smaller : ReceiptUsage} :
    larger.isMonotonicFrom smaller = true ↔ larger.Extends smaller := by
  simp only [isMonotonicFrom, List.all_eq_true, decide_eq_true_eq, Extends]
  refine forall₂_congr fun entry hentry => ?_
  rw [get_of_canonical (smaller.canonical entry hentry), Counts.get]
  constructor
  . intro hle
    have hpos := (smaller.counted entry hentry).1
    cases hfound : larger.units.lookup entry.1 with
    | none =>
      rw [hfound] at hle
      exact absurd hpos (Nat.not_lt.mpr hle)
    | some count =>
      rw [hfound] at hle
      exact ⟨(entry.1, count), Tally.mem_of_lookup hfound, rfl, hle⟩
  . rintro ⟨_, hentry', hunit, hle⟩
    rw [← hunit, lookup_of_mem hentry']
    exact hle

theorem Extends.trans {a b c : ReceiptUsage} (h : c.Extends b) (h' : b.Extends a) : c.Extends a := by
  intro entry hentry
  obtain ⟨entry', hentry', hunit, hle⟩ := h' entry hentry
  obtain ⟨last, hlast, hsame, hbound⟩ := h entry' hentry'
  exact ⟨last, hlast, hsame.trans hunit, hle.trans hbound⟩

theorem Extends.saturatingDelta {larger smaller : ReceiptUsage} (h : larger.Extends smaller)
    (prior : ReceiptUsage) : (prior.saturatingDelta larger).Extends (prior.saturatingDelta smaller) := by
  intro _ hentry
  simp only [ReceiptUsage.saturatingDelta, deltaUnits, List.mem_filter, List.mem_map, decide_eq_true_eq]
    at hentry ⊢
  obtain ⟨⟨whole, hwhole, rfl⟩, hpos⟩ := hentry
  obtain ⟨whole', hwhole', hunit, _⟩ := h whole hwhole
  dsimp only at hpos
  refine ⟨_, ⟨⟨whole', hwhole', rfl⟩, ?_⟩, hunit, ?_⟩
  all_goals
    dsimp only
    rw [hunit]
    omega

end ReceiptUsage

theorem pricedUnit_mono {entry entry' : String × Nat} (hunit : entry'.1 = entry.1) (hle : entry.2 ≤ entry'.2)
    {priced : PricedUsage} (h : pricedUnit rateMap entry = some priced) :
    ∃ count, priced.count ≤ count ∧ pricedUnit rateMap entry' = some { priced with count := count } := by
  simp only [pricedUnit, Option.bind_eq_bind, Option.bind_eq_some_iff] at h ⊢
  obtain ⟨rate, hrate, h⟩ := h
  split at h
  . cases h
  . cases h
    refine ⟨entry'.2, hle, rate, by rw [hunit]; exact hrate, ?_⟩
    rw [if_neg (by omega)]
    rfl

theorem mem_pricedUnits {entry : PricedUsage} :
    entry ∈ pricedUnits rateMap counts ↔ ∃ count ∈ counts, pricedUnit rateMap count = some entry := by
  rw [pricedUnits, (List.perm_insertionSort _ _).mem_iff, List.mem_filterMap]

theorem exists_mem_pricedUnits (h : larger.Extends smaller) {entry : PricedUsage}
    (hentry : entry ∈ pricedUnits rateMap smaller.units) :
    ∃ entry' ∈ pricedUnits rateMap larger.units, entry'.granularity = entry.granularity := by
  obtain ⟨count, hcount, hpriced⟩ := mem_pricedUnits.mp hentry
  obtain ⟨count', hcount', hunit, hle⟩ := h count hcount
  obtain ⟨_, -, hpriced'⟩ := pricedUnit_mono hunit hle hpriced
  exact ⟨_, mem_pricedUnits.mpr ⟨count', hcount', hpriced'⟩, rfl⟩

theorem sum_pricedUnits_mono (h : larger.Extends smaller) {f : PricedUsage → Nat}
    (hf : ∀ entry count, 0 < entry.granularity → entry.count ≤ count →
      f entry ≤ f { entry with count := count }) :
    ((pricedUnits rateMap smaller.units).map f).sum ≤ ((pricedUnits rateMap larger.units).map f).sum := by
  rw [sum_pricedUnits, sum_pricedUnits]
  apply Keyed.sum_le_sum smaller.distinct larger.distinct
  intro entry hentry
  obtain ⟨entry', hentry', hunit, hle⟩ := h entry hentry
  refine ⟨entry', hentry', hunit, ?_⟩
  cases hpriced : pricedUnit rateMap entry with
  | none => exact Nat.zero_le _
  | some priced =>
    obtain ⟨count, hcount, hpriced'⟩ := pricedUnit_mono hunit hle hpriced
    rw [hpriced']
    exact hf priced count (pricedUnits_granularity_pos (mem_pricedUnits.mpr ⟨entry, hentry, hpriced⟩)) hcount

theorem saturatedAu_mono {entry : PricedUsage} {count : Nat} (h : entry.count ≤ count) :
    saturatedAu entry ≤ saturatedAu { entry with count := count } :=
  min_le_min_right _ (Nat.mul_le_mul_right _ h)

theorem ceilDivU128_sum_le {priced : List PricedUsage} {granularity : Nat} (hpos : 0 < granularity)
    (hone : ∀ entry ∈ priced, entry.granularity = granularity) :
    ceilDivU128 (priced.map saturatedAu).sum granularity ≤ (priced.map saturatedRoundedAu).sum := by
  induction priced with
  | nil => simp [ceilDivU128]
  | cons entry priced ih =>
    have hrest := ih fun other hother => hone other (List.mem_cons_of_mem entry hother)
    have hfirst : saturatedRoundedAu entry = ceilDivU128 (saturatedAu entry) granularity := by
      rw [saturatedRoundedAu, hone entry List.mem_cons_self]
    rw [List.map_cons, List.sum_cons, List.map_cons, List.sum_cons, hfirst]
    exact (ceilDivU128_add_le hpos).trans (Nat.add_le_add_left hrest _)

theorem usageMapAu_mono (h : larger.Extends smaller) :
    usageMapAu rateMap smaller ≤ usageMapAu rateMap larger := by
  have htogether := @sum_pricedUnits_mono rateMap _ _ h saturatedAu fun _ _ _ hcount => saturatedAu_mono hcount
  have hapart := @sum_pricedUnits_mono rateMap _ _ h saturatedRoundedAu fun _ _ hpos hcount =>
    ceilDivU128_mono hpos (saturatedAu_mono hcount)
  unfold usageMapAu
  by_cases hone : OneGranularity (pricedUnits rateMap smaller.units)
  . cases hpriced : pricedUnits rateMap smaller.units with
    | nil =>
      have hzero : usageUnitsAu rateMap smaller.units = 0 := by rw [usageUnitsAu, hpriced]
      rw [hzero]
      exact Nat.zero_le _
    | cons first =>
      have hfirst : first ∈ pricedUnits rateMap smaller.units := by rw [hpriced]; exact List.mem_cons_self
      have hpos := pricedUnits_granularity_pos hfirst
      rw [usageUnitsAu_of_one hone hfirst]
      by_cases hone' : OneGranularity (pricedUnits rateMap larger.units)
      . obtain ⟨entry, hentry, hsame⟩ := exists_mem_pricedUnits h hfirst
        rw [usageUnitsAu_of_one hone' hentry, hsame]
        exact ceilDivU128_mono hpos (min_le_min_right _ htogether)
      . -- a unit of another granularity has come in, and every part is rounded by itself now
        have hround := ceilDivU128_sum_le hpos fun entry hentry => hone entry hentry first hfirst
        rw [usageUnitsAu_of_many hone']
        apply Nat.le_min.mpr
        constructor
        . exact (ceilDivU128_mono hpos (Nat.min_le_left _ _)).trans (hround.trans hapart)
        . exact (ceilDivU128_le_self hpos).trans (Nat.min_le_right _ _)
  . have hmany : ¬ OneGranularity (pricedUnits rateMap larger.units) := by
      intro hone'
      apply hone
      intro _ ha _ hb
      obtain ⟨a', ha', hsame⟩ := exists_mem_pricedUnits h ha
      obtain ⟨b', hb', hsame'⟩ := exists_mem_pricedUnits h hb
      rw [← hsame, ← hsame', hone' a' ha' b' hb']
    rw [usageUnitsAu_of_many hone, usageUnitsAu_of_many hmany]
    exact min_le_min_right _ hapart

theorem pricedUsageAu_mono (h : larger.Extends smaller) (perReqAu minSessionAu : Nat) :
    pricedUsageAu rateMap perReqAu minSessionAu smaller ≤ pricedUsageAu rateMap perReqAu minSessionAu larger := by
  have hle := @usageMapAu_mono rateMap _ _ h
  exact max_le_max_right _ (min_le_min_right _ (Nat.add_le_add_right hle _))

def incrementAu (rateMap : List RateEntry) (perReqAu minSessionAu priorAuOwedCum : Nat)
    (increment : ReceiptUsage) : Nat :=
  if priorAuOwedCum = 0 then pricedUsageAu rateMap perReqAu minSessionAu increment
    else usageMapAu rateMap increment

theorem logicalCumulativePricedUsageAu_mono (h : larger.Extends smaller) {perReqAu minSessionAu : Nat}
    {prior : ReceiptUsage} {priorAuOwedCum au : Nat}
    (hprice :
      logicalCumulativePricedUsageAu rateMap perReqAu minSessionAu prior priorAuOwedCum smaller = some au) :
    (∃ au', au ≤ au' ∧
        logicalCumulativePricedUsageAu rateMap perReqAu minSessionAu prior priorAuOwedCum larger = some au') ∨
      u128Max < priorAuOwedCum +
        incrementAu rateMap perReqAu minSessionAu priorAuOwedCum (prior.saturatingDelta larger) := by
  have hincrement : incrementAu rateMap perReqAu minSessionAu priorAuOwedCum (prior.saturatingDelta smaller) ≤
      incrementAu rateMap perReqAu minSessionAu priorAuOwedCum (prior.saturatingDelta larger) := by
    unfold incrementAu
    split
    . exact pricedUsageAu_mono (h.saturatingDelta prior) _ _
    . exact usageMapAu_mono (h.saturatingDelta prior)
  unfold logicalCumulativePricedUsageAu at hprice ⊢
  split at hprice
  . cases hprice
  . next hback =>
    have hextends := ReceiptUsage.isMonotonicFrom_iff.mp (not_not.mp hback)
    rw [if_neg (not_not.mpr (ReceiptUsage.isMonotonicFrom_iff.mpr (h.trans hextends)))]
    split at hprice
    . cases hprice
    . next hbaseline =>
      rw [if_neg hbaseline]
      change checkedAdd priorAuOwedCum (incrementAu _ _ _ _ _) = some au at hprice
      change (∃ au', au ≤ au' ∧ checkedAdd priorAuOwedCum (incrementAu _ _ _ _ _) = some au') ∨ _
      unfold checkedAdd at hprice ⊢
      split at hprice
      . obtain rfl := Option.some.inj hprice
        split
        . exact .inl ⟨_, Nat.add_le_add_left hincrement _, rfl⟩
        . next hover => exact .inr (Nat.lt_of_not_le hover)
      . cases hprice

abbrev U64 := Fin (2 ^ 64)

namespace U64

def saturatingAdd (a b : U64) : U64 := ⟨min (a.val + b.val) (2 ^ 64 - 1), by omega⟩

def saturatingSub (a b : U64) : U64 := ⟨a.val - b.val, by omega⟩

end U64

def ReceiptUsage.text (inTokens outTokens : U64) : ReceiptUsage where
  units := [("input_token", inTokens.val), ("output_token", outTokens.val)].filter fun entry => entry.2 ≠ 0
  sorted := by
    have hboth : ["input_token", "output_token"].Pairwise (· < ·) := by decide
    exact hboth.sublist (List.filter_sublist.map Prod.fst)
  canonical := by
    intro entry hentry
    have hunit := List.mem_of_mem_filter hentry
    simp only [List.mem_cons, List.not_mem_nil, or_false] at hunit
    rcases hunit with rfl | rfl
    . rfl
    . rfl
  counted := by
    intro entry hentry
    obtain ⟨hunit, hne⟩ := List.mem_filter.mp hentry
    simp only [List.mem_cons, List.not_mem_nil, or_false] at hunit
    simp only [decide_eq_true_eq] at hne
    rcases hunit with rfl | rfl
    . exact ⟨Nat.pos_of_ne_zero hne, inTokens.isLt⟩
    . exact ⟨Nat.pos_of_ne_zero hne, outTokens.isLt⟩

structure ProviderKey where
  provider : String
  enclaveId : String
  roomId : String
deriving DecidableEq

structure CheckpointPolicy where
  tokens : U64
  ms : U64

structure FailoverPolicy where
  openTimeoutMillis : U64
  maxOpenAttempts : Fin (2 ^ 8)
  providerCooloffMillis : U64
  stallTimeoutMillis : Option U64
  checkpointEvery : CheckpointPolicy

structure OpenAttempt where
  provider : ProviderKey
  attempt : Fin (2 ^ 8)
  startedAtMillis : U64
  deadlineAtMillis : U64

inductive OpenRetryDecision where
  | retry (nextAttempt : Fin (2 ^ 8)) (cooledUntilMillis : U64)
  | exhausted (cooledUntilMillis : U64)

structure ReceiptCheckpoint where
  seq : U64
  finalReceipt : Bool
  usage : ReceiptUsage
  auOwedCum : Nat
  uncheckpointedUsage : ReceiptUsage
  reason : String
  tsMillis : U64

structure RedispatchPlan where
  stalledProvider : ProviderKey
  cooledUntilMillis : U64
  partialReceipt : ReceiptCheckpoint

inductive FailoverError where
  | openAttemptsExhausted
  | providerInCooloff (untilMillis : U64)
  | noActiveProvider
  | nonActiveProvider
  | unexpectedReceiptSeq (expected actual : U64)
  | receiptUsageRegression
  | receiptMuRegression

structure SessionFailoverState where
  policy : FailoverPolicy
  rateMap : List RateEntry
  inputTokens : U64
  deliveredOutputTokens : U64
  lastReceiptedUsage : ReceiptUsage
  lastReceiptedAu : Nat
  nextReceiptSeq : U64
  openAttempts : Fin (2 ^ 8)
  cooloffs : Table ProviderKey U64
  activeProvider : Option ProviderKey
  lastDeltaAtMillis : Option U64
  lastReceiptAtMillis : U64

namespace SessionFailoverState

variable (s : SessionFailoverState)

def new (policy : FailoverPolicy) (rateMap : List RateEntry) (inputTokens startedAtMillis : U64) :
    SessionFailoverState where
  policy := policy
  rateMap := rateMap
  inputTokens := inputTokens
  deliveredOutputTokens := 0
  lastReceiptedUsage := noUsage
  lastReceiptedAu := 0
  nextReceiptSeq := 1
  openAttempts := 0
  cooloffs := Table.empty
  activeProvider := none
  lastDeltaAtMillis := none
  lastReceiptAtMillis := startedAtMillis

def currentUsage : ReceiptUsage := .text s.inputTokens s.deliveredOutputTokens

def startOpenAttempt (provider : ProviderKey) (nowMillis : U64) :
    Except FailoverError (SessionFailoverState × OpenAttempt) :=
  if s.policy.maxOpenAttempts ≤ s.openAttempts then
    .error .openAttemptsExhausted
  else
    match (s.cooloffs.get provider).filter fun untilMillis => nowMillis < untilMillis with
    | some untilMillis => .error (.providerInCooloff untilMillis)
    | none =>
      let attempts : Fin (2 ^ 8) := ⟨min (s.openAttempts.val + 1) (2 ^ 8 - 1), by omega⟩
      .ok ({ s with openAttempts := attempts, activeProvider := some provider },
        ⟨provider, attempts, nowMillis, nowMillis.saturatingAdd s.policy.openTimeoutMillis⟩)

def coolProvider (provider : ProviderKey) (nowMillis : U64) : SessionFailoverState × U64 :=
  let cooledUntilMillis := nowMillis.saturatingAdd s.policy.providerCooloffMillis
  ({ s with cooloffs := s.cooloffs.put provider cooledUntilMillis }, cooledUntilMillis)

def recordOpenTimeout (provider : ProviderKey) (nowMillis : U64) : SessionFailoverState × OpenRetryDecision :=
  let (cooled, cooledUntilMillis) := s.coolProvider provider nowMillis
  let next := if cooled.activeProvider = some provider then { cooled with activeProvider := none } else cooled
  (next,
    if next.openAttempts < next.policy.maxOpenAttempts then
      .retry ⟨min (next.openAttempts.val + 1) (2 ^ 8 - 1), by omega⟩ cooledUntilMillis
    else .exhausted cooledUntilMillis)

def recordOpenSuccess (provider : ProviderKey) (nowMillis : U64) : SessionFailoverState :=
  { s with activeProvider := some provider, lastDeltaAtMillis := some nowMillis }

def requireActiveProvider (provider : ProviderKey) : Except FailoverError Unit :=
  match s.activeProvider with
  | some active => if active = provider then .ok () else .error .nonActiveProvider
  | none => .error .noActiveProvider

def checkpointDue (nowMillis : U64) : Bool :=
  let outputDelta := s.currentUsage.get "output_token" - s.lastReceiptedUsage.get "output_token"
  let inputDelta := s.currentUsage.get "input_token" - s.lastReceiptedUsage.get "input_token"
  if outputDelta = 0 ∧ inputDelta = 0 then
    false
  else
    let outputTokensDue := 0 < outputDelta ∧
      (s.policy.checkpointEvery.tokens = 0 ∨ s.policy.checkpointEvery.tokens.val ≤ outputDelta)
    let timeDue := s.policy.checkpointEvery.ms = 0 ∨
      s.policy.checkpointEvery.ms ≤ nowMillis.saturatingSub s.lastReceiptAtMillis
    decide (outputTokensDue ∨ timeDue)

def receiptCheckpoint (finalReceipt : Bool) (reason : String) (nowMillis : U64) : ReceiptCheckpoint where
  seq := s.nextReceiptSeq
  finalReceipt := finalReceipt
  usage := s.currentUsage
  auOwedCum := usageMapAu s.rateMap s.currentUsage
  uncheckpointedUsage := s.lastReceiptedUsage.saturatingDelta s.currentUsage
  reason := reason
  tsMillis := nowMillis

def recordDelta (provider : ProviderKey) (outputTokens nowMillis : U64) :
    Except FailoverError (SessionFailoverState × Option ReceiptCheckpoint) := do
  s.requireActiveProvider provider
  let next := { s with
    deliveredOutputTokens := s.deliveredOutputTokens.saturatingAdd outputTokens
    lastDeltaAtMillis := some nowMillis }
  return (next, if next.checkpointDue nowMillis then some (next.receiptCheckpoint false "checkpoint" nowMillis)
    else none)

def recordReceiptCosigned (checkpoint : ReceiptCheckpoint) (nowMillis : U64) :
    Except FailoverError SessionFailoverState :=
  if checkpoint.seq ≠ s.nextReceiptSeq then
    .error (.unexpectedReceiptSeq s.nextReceiptSeq checkpoint.seq)
  else if ¬ checkpoint.usage.isMonotonicFrom s.lastReceiptedUsage then
    .error .receiptUsageRegression
  else if checkpoint.auOwedCum < s.lastReceiptedAu then
    .error .receiptMuRegression
  else
    .ok { s with
      lastReceiptedUsage := checkpoint.usage
      lastReceiptedAu := checkpoint.auOwedCum
      lastReceiptAtMillis := nowMillis
      nextReceiptSeq := s.nextReceiptSeq.saturatingAdd 1 }

def midstreamStalled (nowMillis : U64) : Bool :=
  s.policy.stallTimeoutMillis.any fun timeout =>
    s.lastDeltaAtMillis.any fun lastDelta => timeout < nowMillis.saturatingSub lastDelta

def recordMidstreamStall (nowMillis : U64) : Option (SessionFailoverState × RedispatchPlan) := do
  guard (s.midstreamStalled nowMillis)
  let stalledProvider ← s.activeProvider
  let (cooled, cooledUntilMillis) := s.coolProvider stalledProvider nowMillis
  let next := { cooled with activeProvider := none }
  return (next, ⟨stalledProvider, cooledUntilMillis, next.receiptCheckpoint false "mid_stream_stall" nowMillis⟩)

end SessionFailoverState

inductive SessionOp where
  | startOpenAttempt (provider : ProviderKey) (nowMillis : U64)
  | openTimeout (provider : ProviderKey) (nowMillis : U64)
  | openSuccess (provider : ProviderKey) (nowMillis : U64)
  | delta (provider : ProviderKey) (outputTokens nowMillis : U64)
  | checkpoint (finalReceipt : Bool) (reason : String) (nowMillis : U64)
  | stall (nowMillis : U64)

def SessionOp.run (s : SessionFailoverState) : SessionOp → SessionFailoverState × Option ReceiptCheckpoint
  | .startOpenAttempt provider now => (((s.startOpenAttempt provider now).toOption.map Prod.fst).getD s, none)
  | .openTimeout provider now => ((s.recordOpenTimeout provider now).1, none)
  | .openSuccess provider now => (s.recordOpenSuccess provider now, none)
  | .delta provider outputTokens now => (s.recordDelta provider outputTokens now).toOption.getD (s, none)
  | .checkpoint finalReceipt reason now => (s, some (s.receiptCheckpoint finalReceipt reason now))
  | .stall now =>
    ((s.recordMidstreamStall now).map fun plan => (plan.1, some plan.2.partialReceipt)).getD (s, none)

/--
The runs of a session in which checkpoints of its own are cosigned, be they the latest or not. The fresh ones were
issued after the last one that was accepted.
-/
inductive SessionRun (start : SessionFailoverState) :
    SessionFailoverState → List ReceiptCheckpoint → List ReceiptCheckpoint → Prop
  | start : SessionRun start start [] []
  | op {s : SessionFailoverState} {stale fresh : List ReceiptCheckpoint} (op : SessionOp)
      (hrun : SessionRun start s stale fresh) :
      SessionRun start (op.run s).1 stale ((op.run s).2.toList ++ fresh)
  | accepted {s s' : SessionFailoverState} {stale fresh : List ReceiptCheckpoint} {checkpoint : ReceiptCheckpoint}
      {nowMillis : U64} (hown : checkpoint ∈ fresh ++ stale) (hrun : SessionRun start s stale fresh)
      (hcosigned : s.recordReceiptCosigned checkpoint nowMillis = .ok s') :
      SessionRun start s' (fresh ++ stale) []
  | rejected {s : SessionFailoverState} {stale fresh : List ReceiptCheckpoint} {checkpoint : ReceiptCheckpoint}
      {nowMillis : U64} {error : FailoverError} (hrun : SessionRun start s stale fresh)
      (hcosigned : s.recordReceiptCosigned checkpoint nowMillis = .error error) :
      SessionRun start s stale fresh

variable {s s' : SessionFailoverState} {stale fresh : List ReceiptCheckpoint} {checkpoint : ReceiptCheckpoint}

theorem text_extends (inTokens : U64) {outTokens outTokens' : U64} (h : outTokens ≤ outTokens') :
    (ReceiptUsage.text inTokens outTokens').Extends (.text inTokens outTokens) := by
  intro _ hentry
  obtain ⟨hunit, hne⟩ := List.mem_filter.mp hentry
  simp only [List.mem_cons, List.not_mem_nil, or_false] at hunit
  simp only [decide_eq_true_eq] at hne
  rcases hunit with rfl | rfl
  . exact ⟨_, List.mem_filter.mpr ⟨List.mem_cons_self, by simpa using hne⟩, rfl, Nat.le_refl _⟩
  . have hle : outTokens.val ≤ outTokens'.val := h
    refine ⟨("output_token", outTokens'.val), List.mem_filter.mpr ⟨by simp, ?_⟩, rfl, hle⟩
    simp only [decide_eq_true_eq]
    omega

namespace SessionFailoverState

structure SameReceipts (s s' : SessionFailoverState) : Prop where
  rateMap_eq : s'.rateMap = s.rateMap
  inputTokens_eq : s'.inputTokens = s.inputTokens
  usage_eq : s'.lastReceiptedUsage = s.lastReceiptedUsage
  au_eq : s'.lastReceiptedAu = s.lastReceiptedAu
  seq_eq : s'.nextReceiptSeq = s.nextReceiptSeq
  delivered_le : s.deliveredOutputTokens ≤ s'.deliveredOutputTokens

theorem SameReceipts.refl (s : SessionFailoverState) : s.SameReceipts s := ⟨rfl, rfl, rfl, rfl, rfl, le_refl _⟩

theorem run_sameReceipts (s : SessionFailoverState) (op : SessionOp) :
    s.SameReceipts (op.run s).1 ∧ ∀ checkpoint ∈ (op.run s).2, ∃ finalReceipt reason nowMillis,
      checkpoint = (op.run s).1.receiptCheckpoint finalReceipt reason nowMillis := by
  cases op with
  | startOpenAttempt provider now =>
    refine ⟨?_, by simp [SessionOp.run]⟩
    dsimp only [SessionOp.run, startOpenAttempt]
    split
    . exact .refl s
    . split
      . exact .refl s
      . exact ⟨rfl, rfl, rfl, rfl, rfl, le_refl _⟩
  | openTimeout provider now =>
    refine ⟨?_, by simp [SessionOp.run]⟩
    dsimp only [SessionOp.run, recordOpenTimeout]
    split
    . exact ⟨rfl, rfl, rfl, rfl, rfl, le_refl _⟩
    . exact ⟨rfl, rfl, rfl, rfl, rfl, le_refl _⟩
  | openSuccess provider now => exact ⟨⟨rfl, rfl, rfl, rfl, rfl, le_refl _⟩, by simp [SessionOp.run]⟩
  | delta provider outputTokens now =>
    dsimp only [SessionOp.run, recordDelta]
    cases s.requireActiveProvider provider with
    | error error => exact ⟨.refl s, by simp [bind, Except.bind, Except.toOption]⟩
    | ok _ =>
      have hle : s.deliveredOutputTokens ≤ s.deliveredOutputTokens.saturatingAdd outputTokens := by
        rw [Fin.le_def, U64.saturatingAdd]
        dsimp only
        omega
      refine ⟨⟨rfl, rfl, rfl, rfl, rfl, hle⟩, ?_⟩
      simp only [bind, Except.bind, pure, Except.pure, Except.toOption, Option.getD_some]
      split
      . rintro _ ⟨⟩
        exact ⟨_, _, _, rfl⟩
      . simp
  | checkpoint finalReceipt reason now =>
    refine ⟨.refl s, ?_⟩
    rintro _ ⟨⟩
    exact ⟨_, _, _, rfl⟩
  | stall now =>
    dsimp only [SessionOp.run]
    cases hplan : s.recordMidstreamStall now with
    | none => exact ⟨.refl s, by simp⟩
    | some =>
      simp only [recordMidstreamStall, coolProvider, Option.bind_eq_bind, Option.bind_eq_some_iff,
        Option.pure_def, Option.some.injEq] at hplan
      obtain ⟨_, -, _, -, rfl⟩ := hplan
      refine ⟨⟨rfl, rfl, rfl, rfl, rfl, le_refl _⟩, ?_⟩
      rintro _ ⟨⟩
      exact ⟨_, _, _, rfl⟩

structure Sound (s : SessionFailoverState) (stale fresh : List ReceiptCheckpoint) : Prop where
  issued : ∀ checkpoint ∈ fresh ++ stale, checkpoint.auOwedCum = usageMapAu s.rateMap checkpoint.usage ∧
    ∃ outTokens ≤ s.deliveredOutputTokens, checkpoint.usage = .text s.inputTokens outTokens
  last_extended : s.currentUsage.Extends s.lastReceiptedUsage
  last_priced : s.lastReceiptedAu = usageMapAu s.rateMap s.lastReceiptedUsage
  next : ∀ checkpoint ∈ fresh, checkpoint.seq = s.nextReceiptSeq ∧ checkpoint.usage.Extends s.lastReceiptedUsage

theorem Sound.run (h : s.Sound stale fresh) (op : SessionOp) :
    (op.run s).1.Sound stale ((op.run s).2.toList ++ fresh) := by
  obtain ⟨hsame, hissued⟩ := s.run_sameReceipts op
  generalize op.run s = next at hsame hissued
  have hcurrent : next.1.currentUsage.Extends next.1.lastReceiptedUsage := by
    rw [hsame.usage_eq, currentUsage, hsame.inputTokens_eq]
    exact (text_extends _ hsame.delivered_le).trans h.last_extended
  constructor
  case issued =>
    intro checkpoint hmem
    rw [List.append_assoc, List.mem_append, Option.mem_toList] at hmem
    rcases hmem with hnew | hmem
    . obtain ⟨_, _, _, rfl⟩ := hissued checkpoint hnew
      exact ⟨rfl, _, le_refl _, rfl⟩
    . obtain ⟨hau, outTokens, hle, husage⟩ := h.issued checkpoint hmem
      rw [hsame.inputTokens_eq, hsame.rateMap_eq]
      exact ⟨hau, outTokens, hle.trans hsame.delivered_le, husage⟩
  case last_extended => exact hcurrent
  case last_priced => rw [hsame.au_eq, hsame.rateMap_eq, hsame.usage_eq, h.last_priced]
  case next =>
    intro checkpoint hmem
    rw [List.mem_append, Option.mem_toList] at hmem
    rcases hmem with hnew | hmem
    . obtain ⟨_, _, _, rfl⟩ := hissued checkpoint hnew
      exact ⟨rfl, hcurrent⟩
    . rw [hsame.seq_eq, hsame.usage_eq]
      exact h.next checkpoint hmem

theorem Sound.cosigned (h : s.Sound stale fresh) {nowMillis : U64} (hown : checkpoint ∈ fresh ++ stale)
    (hcosigned : s.recordReceiptCosigned checkpoint nowMillis = .ok s') : s'.Sound (fresh ++ stale) [] := by
  unfold recordReceiptCosigned at hcosigned
  split_ifs at hcosigned
  obtain rfl := Except.ok.inj hcosigned
  obtain ⟨hau, _, hle, husage⟩ := h.issued checkpoint hown
  refine ⟨h.issued, ?_, hau, by simp⟩
  dsimp only
  rw [husage]
  exact text_extends _ hle

theorem Sound.accepts (h : s.Sound stale fresh) (hfresh : checkpoint ∈ fresh) (nowMillis : U64) :
    ∃ next, s.recordReceiptCosigned checkpoint nowMillis = .ok next := by
  obtain ⟨hseq, hextends⟩ := h.next checkpoint hfresh
  have hau : s.lastReceiptedAu ≤ checkpoint.auOwedCum := by
    rw [h.last_priced, (h.issued checkpoint (List.mem_append_left _ hfresh)).1]
    exact usageMapAu_mono hextends
  unfold recordReceiptCosigned
  rw [if_neg (not_not.mpr hseq), if_neg (not_not.mpr (ReceiptUsage.isMonotonicFrom_iff.mpr hextends)),
    if_neg (Nat.not_lt.mpr hau)]
  exact ⟨_, rfl⟩

end SessionFailoverState

theorem SessionRun.sound {policy : FailoverPolicy} {inputTokens startedAtMillis : U64}
    (hrun : SessionRun (.new policy rateMap inputTokens startedAtMillis) s stale fresh) :
    s.Sound stale fresh := by
  induction hrun with
  | start => exact ⟨by simp, by simp [ReceiptUsage.Extends, SessionFailoverState.new, noUsage], rfl, by simp⟩
  | op op _ ih => exact ih.run op
  | accepted hown _ hcosigned ih => exact ih.cosigned hown hcosigned
  | rejected _ _ ih => exact ih

/--
The price never falls while usage grows, and is only missing where its sum leaves the 128-bit range. The session
accepts each of its checkpoints that is cosigned before any other.
-/
theorem price_monotone (rateMap : List RateEntry) (perReqAu minSessionAu priorAuOwedCum : Nat)
    (prior smaller larger : ReceiptUsage) (hextends : larger.isMonotonicFrom smaller = true)
    (policy : FailoverPolicy) (inputTokens startedAtMillis : U64) (s : SessionFailoverState)
    (stale fresh : List ReceiptCheckpoint)
    (hrun : SessionRun (.new policy rateMap inputTokens startedAtMillis) s stale fresh) :
    usageMapAu rateMap smaller ≤ usageMapAu rateMap larger ∧
    pricedUsageAu rateMap perReqAu minSessionAu smaller ≤ pricedUsageAu rateMap perReqAu minSessionAu larger ∧
    (∀ au ∈ logicalCumulativePricedUsageAu rateMap perReqAu minSessionAu prior priorAuOwedCum smaller,
      (∃ au', au ≤ au' ∧
        logicalCumulativePricedUsageAu rateMap perReqAu minSessionAu prior priorAuOwedCum larger = some au') ∨
      u128Max < priorAuOwedCum +
        incrementAu rateMap perReqAu minSessionAu priorAuOwedCum (prior.saturatingDelta larger)) ∧
    ∀ checkpoint ∈ fresh, ∀ nowMillis, ∃ next, s.recordReceiptCosigned checkpoint nowMillis = .ok next := by
  have h := ReceiptUsage.isMonotonicFrom_iff.mp hextends
  refine ⟨usageMapAu_mono h, pricedUsageAu_mono h _ _, ?_, ?_⟩
  . intro au hau
    exact logicalCumulativePricedUsageAu_mono h hau
  . intro checkpoint hfresh nowMillis
    exact hrun.sound.accepts hfresh nowMillis

def tightPolicy : FailoverPolicy := ⟨90000, 4, 30000, none, ⟨1, 0⟩⟩

def firstProvider : ProviderKey := ⟨"p", "e", "r"⟩

def paidSession : SessionFailoverState := .new tightPolicy twoRates 1500 0

def openedSession : SessionFailoverState := paidSession.recordOpenSuccess firstProvider 1

/--
From one image to two with tokens beside them, and a session whose first checkpoint is due with its first delta.
-/
theorem price_monotone_imagesAndTokens : imagesAndTokens.isMonotonicFrom oneImage = true ∧
      usageMapAu twoRates oneImage = 7 ∧ usageMapAu twoRates imagesAndTokens = 22 ∧
      usageMapAu twoRates oneImage ≤ usageMapAu twoRates imagesAndTokens ∧
      ∃ checkpoint ∈ ((SessionOp.delta firstProvider 5 2).run openedSession).2, ∃ next,
        ((SessionOp.delta firstProvider 5 2).run openedSession).1.recordReceiptCosigned checkpoint 3 =
          .ok next := by
  have hextends : imagesAndTokens.isMonotonicFrom oneImage = true := by decide
  have hrun : SessionRun paidSession ((SessionOp.delta firstProvider 5 2).run openedSession).1 []
      (((SessionOp.delta firstProvider 5 2).run openedSession).2.toList ++ []) :=
    .op (.delta firstProvider 5 2) (.op (.openSuccess firstProvider 1) .start)
  obtain ⟨hle, -, -, hcosigned⟩ :=
    price_monotone twoRates 0 0 0 noUsage oneImage imagesAndTokens hextends tightPolicy
    1500 0 _ _ _ hrun
  refine ⟨hextends, by decide +kernel, by decide +kernel, hle, _, rfl, hcosigned _ ?_ 3⟩
  exact List.mem_append_left _ (Option.mem_toList.mpr rfl)

end Gateway

end Mayhem
