import Mayhem.Lib.Keyed
import Mayhem.Repricing

namespace Mayhem

namespace PricedUsage

def rawAu (entry : PricedUsage) : Nat := entry.count * entry.perUnitAu

def roundedAu (entry : PricedUsage) : Nat := ceilDivBigInt entry.rawAu entry.granularity

end PricedUsage

def OneGranularity (priced : List PricedUsage) : Prop :=
  ∀ a ∈ priced, ∀ b ∈ priced, a.granularity = b.granularity

instance (priced : List PricedUsage) : Decidable (OneGranularity priced) :=
  inferInstanceAs (Decidable (∀ a ∈ priced, ∀ b ∈ priced, a.granularity = b.granularity))

def pricedAu : List PricedUsage → Nat
  | [] => 0
  | first :: rest =>
    if (first :: rest).all fun entry => entry.granularity = first.granularity then
      ceilDivBigInt ((first :: rest).map PricedUsage.rawAu).sum first.granularity
    else
      ((first :: rest).map PricedUsage.roundedAu).sum

theorem oneGranularity_cons_iff {first : PricedUsage} {rest : List PricedUsage} : OneGranularity (first :: rest) ↔
      ((first :: rest).all fun entry => entry.granularity = first.granularity) = true := by
  simp only [List.all_eq_true, decide_eq_true_eq]
  constructor
  . intro h entry hentry
    apply h entry hentry first List.mem_cons_self
  . intro h a ha b hb
    rw [h a ha, h b hb]

variable {priced : List PricedUsage}

theorem pricedAu_of_one (hone : OneGranularity priced) {entry : PricedUsage} (hentry : entry ∈ priced) :
    pricedAu priced = ceilDivBigInt (priced.map PricedUsage.rawAu).sum entry.granularity := by
  cases priced with
  | nil => simp at hentry
  | cons first =>
    rw [pricedAu, if_pos (oneGranularity_cons_iff.mp hone), hone first List.mem_cons_self entry hentry]

theorem pricedAu_of_many (hmany : ¬ OneGranularity priced) :
    pricedAu priced = (priced.map PricedUsage.roundedAu).sum := by
  cases priced with
  | nil => rfl
  | cons =>
    rw [oneGranularity_cons_iff] at hmany
    rw [pricedAu, if_neg hmany]

theorem OneGranularity.perm {sorted : List PricedUsage} (hperm : priced.Perm sorted)
    (hone : OneGranularity priced) : OneGranularity sorted := by
  intro a ha b hb
  apply hone a (hperm.mem_iff.mpr ha) b (hperm.mem_iff.mpr hb)

theorem pricedAu_perm {sorted : List PricedUsage} (hperm : priced.Perm sorted) :
    pricedAu priced = pricedAu sorted := by
  by_cases hone : OneGranularity priced
  . cases priced with
    | nil => rw [List.nil_perm.mp hperm]
    | cons first =>
      have hfirst : first ∈ sorted := hperm.mem_iff.mp List.mem_cons_self
      rw [pricedAu_of_one hone List.mem_cons_self, pricedAu_of_one (hone.perm hperm) hfirst]
      rw [(hperm.map PricedUsage.rawAu).sum_nat]
  . have hmany : ¬ OneGranularity sorted := fun h => hone (h.perm hperm.symm)
    rw [pricedAu_of_many hone, pricedAu_of_many hmany, (hperm.map PricedUsage.roundedAu).sum_nat]

theorem usageAuForRateMap_of_priced {rateMap : List RateEntry} {usage : Counts}
    (h : usage.foldlM (addPricedUsage rateMap) [] = .ok priced) :
    usageAuForRateMap rateMap usage = .ok (pricedAu priced) := by
  unfold usageAuForRateMap
  rw [h, Except.bind_of_ok]
  cases priced with
  | nil => rfl
  | cons =>
    simp only [pricedAu]
    split
    . rfl
    . rfl

structure LockedRates (rateMap : List RateEntry) : Prop where
  distinct : (rateMap.map RateEntry.unit).Nodup
  price_pos : ∀ rate ∈ rateMap, 0 < rate.perUnitAu
  granularity_pos : ∀ rate ∈ rateMap, 0 < rate.granularity
  granularity_safe : ∀ rate ∈ rateMap, isSafeInteger rate.granularity

namespace Gateway

def u128Max : Nat := 2 ^ 128 - 1

def saturatingAdd (a b : Nat) : Nat := min (a + b) u128Max

def saturatingMul (a b : Nat) : Nat := min (a * b) u128Max

def checkedAdd (a b : Nat) : Option Nat := if a + b ≤ u128Max then some (a + b) else none

def ceilDivU128 (value divisor : Nat) : Nat :=
  if value = 0 ∨ divisor = 0 then 0 else (value + divisor - 1) / divisor

theorem saturatingAdd_of_le {a b : Nat} (h : a + b ≤ u128Max) : saturatingAdd a b = a + b := Nat.min_eq_left h

theorem saturatingMul_of_le {a b : Nat} (h : a * b ≤ u128Max) : saturatingMul a b = a * b := Nat.min_eq_left h

theorem ceilDivU128_of_pos {value divisor : Nat} (h : 0 < divisor) :
    ceilDivU128 value divisor = ceilDivBigInt value divisor := by
  have hne : divisor ≠ 0 := by omega
  simp [ceilDivU128, ceilDivBigInt, hne]

theorem foldl_saturatingAdd {α : Type} (f : α → Nat) (l : List α) {acc : Nat} (hacc : acc ≤ u128Max) :
    l.foldl (fun sum a => saturatingAdd sum (f a)) acc = min (acc + (l.map f).sum) u128Max := by
  induction l generalizing acc with
  | nil => simp [hacc]
  | cons a _ ih =>
    have hle : saturatingAdd acc (f a) ≤ u128Max := Nat.min_le_right _ _
    rw [List.foldl_cons, ih hle, List.map_cons, List.sum_cons, saturatingAdd]
    omega

def canonicalUsageUnit (unit : String) : Option String :=
  if unit ∈ ["in", "in_tokens", "input", "input_tokens", "prompt_tokens", "input_token"] then
    some "input_token"
  else if unit ∈ ["cached_input", "cached_inputs", "cached_input_tokens", "cached_prompt_tokens",
      "cached_tokens", "cached_input_token"] then
    some "cached_input_token"
  else if unit ∈ ["out", "out_tokens", "output", "output_tokens", "completion_tokens", "output_token"] then
    some "output_token"
  else if unit ∈ ["images", "image"] then
    some "image"
  else if unit ∈ ["steps", "step"] then
    some "step"
  else if unit ∈ ["input_char", "input_chars", "input_character", "input_characters"] then
    some "input_character"
  else if unit ∈ ["audio_seconds", "audio_second"] then
    some "audio_second"
  else
    none

structure ReceiptUsage where
  units : Counts
  sorted : (units.map Prod.fst).Pairwise (· < ·)
  canonical : ∀ entry ∈ units, (canonicalUsageUnit entry.1).getD entry.1 = entry.1
  counted : ∀ entry ∈ units, 0 < entry.2 ∧ entry.2 < 2 ^ 64

namespace ReceiptUsage

def get (usage : ReceiptUsage) (unit : String) : Nat :=
  ((canonicalUsageUnit unit).bind fun name => usage.units.lookup name).getD ((usage.units.lookup unit).getD 0)

theorem get_of_canonical {usage : ReceiptUsage} {unit : String}
    (h : (canonicalUsageUnit unit).getD unit = unit) : usage.get unit = usage.units.get unit := by
  unfold get Counts.get
  cases hunit : canonicalUsageUnit unit with
  | none => rfl
  | some name =>
    have hname : name = unit := by simpa [hunit] using h
    subst hname
    rw [Option.bind_some]
    cases usage.units.lookup name with
    | none | some => rfl

def isMonotonicFrom (current previous : ReceiptUsage) : Bool :=
  previous.units.all fun entry => entry.2 ≤ current.get entry.1

def deltaUnits (previous current : ReceiptUsage) : Counts :=
  (current.units.map fun entry => (entry.1, entry.2 - previous.get entry.1)).filter
    fun entry => entry.2 > 0

theorem exists_of_mem_deltaUnits {previous current : ReceiptUsage} {entry : String × Nat}
    (h : entry ∈ deltaUnits previous current) :
    ∃ whole ∈ current.units, whole.1 = entry.1 ∧ entry.2 ≤ whole.2 ∧ 0 < entry.2 := by
  simp only [deltaUnits, List.mem_filter, List.mem_map, decide_eq_true_eq] at h
  obtain ⟨⟨whole, hwhole, rfl⟩, hpos⟩ := h
  refine ⟨whole, hwhole, rfl, Nat.sub_le _ _, hpos⟩

def saturatingDelta (previous current : ReceiptUsage) : ReceiptUsage where
  units := deltaUnits previous current
  sorted := by
    have hsub : ((deltaUnits previous current).map Prod.fst).Sublist
        (current.units.map Prod.fst) := by
      have := (List.filter_sublist (p := fun entry : String × Nat => decide (entry.2 > 0))
        (l := current.units.map fun entry => (entry.1, entry.2 - previous.get entry.1))).map Prod.fst
      simpa [deltaUnits, List.map_map, Function.comp_def] using this
    apply current.sorted.sublist hsub
  canonical := by
    intro entry hentry
    obtain ⟨whole, hwhole, hunit, -⟩ := exists_of_mem_deltaUnits hentry
    rw [← hunit]
    apply current.canonical whole hwhole
  counted := by
    intro entry hentry
    obtain ⟨whole, hwhole, -, hle, hpos⟩ := exists_of_mem_deltaUnits hentry
    have := current.counted whole hwhole
    omega

theorem receiptUsageDelta_eq (previous current : ReceiptUsage) :
    (receiptUsageDelta previous.units current.units).toOption =
      if current.isMonotonicFrom previous then some (saturatingDelta previous current).units
      else none := by
  have hmono : current.isMonotonicFrom previous = true ↔
      ¬ ∃ entry ∈ previous.units, current.units.get entry.1 < entry.2 := by
    simp only [isMonotonicFrom, List.all_eq_true, decide_eq_true_eq, not_exists, not_and, Nat.not_lt]
    apply forall_congr'
    intro entry
    apply forall_congr'
    intro hentry
    rw [get_of_canonical (previous.canonical entry hentry)]
  have hdelta : (current.units.map fun entry => (entry.1, entry.2 - previous.units.get entry.1)) =
      current.units.map fun entry => (entry.1, entry.2 - previous.get entry.1) := by
    apply List.map_congr_left
    intro entry hentry
    rw [get_of_canonical (current.canonical entry hentry)]
  by_cases hback : ∃ entry ∈ previous.units, current.units.get entry.1 < entry.2
  . have hno : ¬ current.isMonotonicFrom previous = true := fun h => hmono.mp h hback
    rw [if_neg hno]
    simp only [receiptUsageDelta, rejectIf, if_pos hback]
    rfl
  . rw [if_pos (hmono.mpr hback)]
    simp only [receiptUsageDelta, rejectIf, if_neg hback, hdelta]
    rfl

end ReceiptUsage

def rateForUnit (rateMap : List RateEntry) (unit : String) : Option RateEntry :=
  rateMap.find? fun entry => entry.unit = unit

def pricedUnit (rateMap : List RateEntry) (entry : String × Nat) : Option PricedUsage := do
  let rate ← rateForUnit rateMap entry.1
  if entry.2 = 0 ∨ rate.perUnitAu = 0 ∨ rate.granularity = 0 then
    none
  else
    return ⟨entry.2, rate.perUnitAu, rate.granularity⟩

def pricedUnits (rateMap : List RateEntry) (counts : Counts) : List PricedUsage :=
  (counts.filterMap (pricedUnit rateMap)).insertionSort fun a b => a.granularity ≤ b.granularity

def usageUnitsAu (rateMap : List RateEntry) (counts : Counts) : Nat :=
  match pricedUnits rateMap counts with
  | [] => 0
  | first :: rest =>
    if (first :: rest).all fun entry => entry.granularity = first.granularity then
      let raw := (first :: rest).foldl
        (fun acc entry => saturatingAdd acc (saturatingMul entry.count entry.perUnitAu)) 0
      ceilDivU128 raw first.granularity
    else
      (first :: rest).foldl (fun acc entry => saturatingAdd acc
        (ceilDivU128 (saturatingMul entry.count entry.perUnitAu) entry.granularity)) 0

def usageMapAu (rateMap : List RateEntry) (usage : ReceiptUsage) : Nat :=
  usageUnitsAu rateMap usage.units

def pricedUsageAu (rateMap : List RateEntry) (perReqAu minSessionAu : Nat) (usage : ReceiptUsage) : Nat :=
  max (saturatingAdd (usageMapAu rateMap usage) perReqAu) minSessionAu

def logicalCumulativePricedUsageAu (rateMap : List RateEntry) (perReqAu minSessionAu : Nat)
    (priorUsage : ReceiptUsage) (priorAuOwedCum : Nat) (currentUsage : ReceiptUsage) : Option Nat :=
  if ¬ currentUsage.isMonotonicFrom priorUsage then
    none
  else if priorAuOwedCum = 0 ∧ priorUsage.units ≠ [] then
    none
  else
    let increment := ReceiptUsage.saturatingDelta priorUsage currentUsage
    let incrementAu :=
      if priorAuOwedCum = 0 then pricedUsageAu rateMap perReqAu minSessionAu increment
      else usageMapAu rateMap increment
    checkedAdd priorAuOwedCum incrementAu

structure NoOverflow (priced : List PricedUsage) (perReqAu minSessionAu priorAuOwedCum : Nat) :
    Prop where
  raw : ∀ entry ∈ priced, entry.rawAu ≤ u128Max
  together : OneGranularity priced → (priced.map PricedUsage.rawAu).sum ≤ u128Max
  apart : ¬ OneGranularity priced → (priced.map PricedUsage.roundedAu).sum ≤ u128Max
  opening : priorAuOwedCum = 0 → max (pricedAu priced + perReqAu) minSessionAu ≤ u128Max
  later : priorAuOwedCum ≠ 0 → priorAuOwedCum + pricedAu priced ≤ u128Max

theorem usageUnitsAu_of_noOverflow {rateMap : List RateEntry} {counts : Counts}
    {perReqAu minSessionAu priorAuOwedCum : Nat}
    (hrates : ∀ entry ∈ pricedUnits rateMap counts, 0 < entry.granularity)
    (hfits : NoOverflow (pricedUnits rateMap counts) perReqAu minSessionAu priorAuOwedCum) :
    usageUnitsAu rateMap counts = pricedAu (pricedUnits rateMap counts) := by
  have hraw : ∀ entry ∈ pricedUnits rateMap counts, saturatingMul entry.count entry.perUnitAu = entry.rawAu := by
    intro entry hentry
    exact saturatingMul_of_le (hfits.raw entry hentry)
  have hrounded : ∀ entry ∈ pricedUnits rateMap counts,
      ceilDivU128 (saturatingMul entry.count entry.perUnitAu) entry.granularity = entry.roundedAu := by
    intro entry hentry
    rw [hraw entry hentry, ceilDivU128_of_pos (hrates entry hentry)]
    rfl
  have htogether := hfits.together
  have hapart := hfits.apart
  unfold usageUnitsAu
  generalize pricedUnits rateMap counts = priced at *
  cases priced with
  | nil => rfl
  | cons first =>
    simp only [pricedAu]
    rw [oneGranularity_cons_iff] at htogether hapart
    split
    case isTrue hone =>
      rw [foldl_saturatingAdd _ _ (Nat.zero_le _), List.map_congr_left hraw, Nat.zero_add,
        Nat.min_eq_left (htogether hone), ceilDivU128_of_pos (hrates first List.mem_cons_self)]
    case isFalse hmany =>
      rw [foldl_saturatingAdd _ _ (Nat.zero_le _), List.map_congr_left hrounded, Nat.zero_add,
        Nat.min_eq_left (hapart hmany)]

theorem rateForUnit_of_mem {rateMap : List RateEntry} (hnodup : (rateMap.map RateEntry.unit).Nodup)
    {rate : RateEntry} (h : rate ∈ rateMap) : rateForUnit rateMap rate.unit = some rate :=
  Keyed.find?_eq_some hnodup h

section

variable {rateMap : List RateEntry} {perReqAu minSessionAu priorAuOwedCum : Nat}
variable {counts : Counts}

def Priceable (rateMap : List RateEntry) (counts : Counts) : Prop :=
  ∀ entry ∈ counts, (isSafeInteger entry.2 ∧ 0 < entry.2) ∧ ∃ rate ∈ rateMap, rate.unit = entry.1

theorem foldlM_addPricedUsage (hlocked : LockedRates rateMap) (hcounts : Priceable rateMap counts)
    (acc : List PricedUsage) :
    counts.foldlM (addPricedUsage rateMap) acc = .ok (acc ++ counts.filterMap (pricedUnit rateMap)) := by
  induction counts generalizing acc with
  | nil => simp [pure, Except.pure]
  | cons entry rest ih =>
    obtain ⟨⟨hsafe, _⟩, rate, hrate, hunit⟩ := hcounts entry List.mem_cons_self
    have hprice := hlocked.price_pos rate hrate
    have hgranularity := hlocked.granularity_pos rate hrate
    have hzero : ¬ (entry.2 = 0 ∨ rate.perUnitAu = 0 ∨ rate.granularity = 0) := by omega
    have hgateway : pricedUnit rateMap entry = some ⟨entry.2, rate.perUnitAu, rate.granularity⟩ := by
      simp only [pricedUnit, ← hunit, rateForUnit_of_mem hlocked.distinct hrate,
        Option.bind_eq_bind, Option.bind_some, if_neg hzero]
      rfl
    have hledger : addPricedUsage rateMap acc entry =
      .ok (acc ++ [⟨entry.2, rate.perUnitAu, rate.granularity⟩]) := by
      have hne : entry.2 ≠ 0 := by omega
      have hgood : ¬ (¬ isSafeInteger rate.granularity ∨ rate.granularity = 0) := by
        simp only [not_or, not_not]
        exact ⟨hlocked.granularity_safe rate hrate, by omega⟩
      simp only [addPricedUsage, checks_iff, if_neg hne]
      have hfound : rateMapByUnit rateMap entry.1 = some rate := by
        rw [← hunit, rateMapByUnit_of_mem hlocked.distinct hrate]
      exact ⟨not_not.mpr hsafe, rate, hfound, by omega, hgood, rfl⟩
    have hrest : Priceable rateMap rest := fun e he => hcounts e (List.mem_cons_of_mem entry he)
    rw [List.foldlM_cons, hledger, Except.bind_of_ok, ih hrest, List.filterMap_cons_some hgateway,
      List.append_assoc]
    rfl

theorem usageAuForRateMap_eq (hlocked : LockedRates rateMap) (hcounts : Priceable rateMap counts) :
    usageAuForRateMap rateMap counts = .ok (pricedAu (pricedUnits rateMap counts)) := by
  have hperm : (counts.filterMap (pricedUnit rateMap)).Perm (pricedUnits rateMap counts) :=
    (List.perm_insertionSort _ _).symm
  rw [usageAuForRateMap_of_priced (foldlM_addPricedUsage hlocked hcounts []), List.nil_append,
    pricedAu_perm hperm]

theorem pricedUnits_granularity_pos {entry : PricedUsage}
    (h : entry ∈ pricedUnits rateMap counts) : 0 < entry.granularity := by
  rw [pricedUnits, (List.perm_insertionSort _ _).mem_iff, List.mem_filterMap] at h
  obtain ⟨_, -, hprice⟩ := h
  simp only [pricedUnit, Option.bind_eq_bind, Option.bind_eq_some_iff] at hprice
  obtain ⟨_, -, hentry⟩ := hprice
  split at hentry
  . cases hentry
  . cases hentry
    dsimp only
    omega

theorem priceable_saturatingDelta {previous current : ReceiptUsage}
    (hcounts : ∀ entry ∈ current.units, isSafeInteger entry.2)
    (hpriced : ∀ entry ∈ current.units, ∃ rate ∈ rateMap, rate.unit = entry.1) :
    Priceable rateMap (ReceiptUsage.saturatingDelta previous current).units := by
  intro entry hentry
  obtain ⟨whole, hwhole, hunit, hle, hpos⟩ := ReceiptUsage.exists_of_mem_deltaUnits hentry
  have hsafe := hcounts whole hwhole
  rw [← hunit]
  exact ⟨⟨Nat.le_trans hle hsafe, hpos⟩, hpriced whole hwhole⟩

end

/--
The gateway and the ledger agree on the amount owed and on refusing usage that steps back.
-/
theorem logicalCumulativePricedUsageAu_eq (rateMap : List RateEntry)
    (perReqAu minSessionAu priorAuOwedCum : Nat) (prior current : ReceiptUsage)
    (hlocked : LockedRates rateMap) (hbaseline : priorAuOwedCum = 0 → prior.units = [])
    (hpriced : ∀ entry ∈ current.units, ∃ rate ∈ rateMap, rate.unit = entry.1)
    (hcounts : ∀ entry ∈ current.units, isSafeInteger entry.2) (hfits : NoOverflow
      (pricedUnits rateMap (ReceiptUsage.saturatingDelta prior current).units)
      perReqAu minSessionAu priorAuOwedCum) :
    logicalCumulativePricedUsageAu rateMap perReqAu minSessionAu prior priorAuOwedCum current =
      (logicalCumulativeAuForLockedTerms rateMap perReqAu minSessionAu prior.units priorAuOwedCum
        current.units).toOption := by
  have hdelta := ReceiptUsage.receiptUsageDelta_eq prior current
  unfold logicalCumulativePricedUsageAu logicalCumulativeAuForLockedTerms
  cases hledger : receiptUsageDelta prior.units current.units with
  | error =>
    rw [hledger] at hdelta
    have hback : ¬ current.isMonotonicFrom prior = true := by
      intro hmono
      rw [if_pos hmono] at hdelta
      simp [Except.toOption] at hdelta
    rw [if_pos hback]
    rfl
  | ok delta =>
    rw [hledger] at hdelta
    have hmono : current.isMonotonicFrom prior = true := by
      by_contra hback
      rw [if_neg hback] at hdelta
      simp [Except.toOption] at hdelta
    rw [if_pos hmono] at hdelta
    have hunits : delta = (ReceiptUsage.saturatingDelta prior current).units := by
      simpa [Except.toOption] using hdelta
    have hnew : ¬ (priorAuOwedCum = 0 ∧ prior.units ≠ []) := fun h => h.2 (hbaseline h.1)
    rw [if_neg (not_not.mpr hmono), if_neg hnew, Except.bind_of_ok, hunits]
    -- from here on both sides price one and the same increment
    have hpriceable := @priceable_saturatingDelta rateMap prior current hcounts hpriced
    have hprice := usageAuForRateMap_eq hlocked hpriceable
    have hgateway := usageUnitsAu_of_noOverflow (fun _ => pricedUnits_granularity_pos) hfits
    have hopening := hfits.opening
    have hlater := hfits.later
    simp only [usageAuForLockedTerms, pricedUsageAu, usageMapAu, hprice, hgateway]
    generalize pricedAu (pricedUnits rateMap
      (ReceiptUsage.saturatingDelta prior current).units) = usageAu at *
    rcases Nat.eq_zero_or_pos priorAuOwedCum with rfl | _
    . specialize hopening rfl
      rw [if_pos rfl, if_pos rfl, saturatingAdd_of_le (by omega), checkedAdd, if_pos (by omega)]
      rfl
    . specialize hlater (by omega)
      rw [if_neg (by omega), if_neg (by omega), checkedAdd, if_pos hlater]
      rfl

def twoRates : List RateEntry := [⟨"image", 7, 1⟩, ⟨"input_token", 5, 1000⟩]

theorem twoRates_locked : LockedRates twoRates := by
  constructor <;> decide

def oneImage : ReceiptUsage where
  units := [("image", 1)]
  sorted := by simp
  canonical := by decide
  counted := by decide

def imagesAndTokens : ReceiptUsage where
  units := [("image", 2), ("input_token", 1500)]
  sorted := by decide
  canonical := by decide
  counted := by decide

theorem noOverflow_imagesAndTokens : NoOverflow
    (pricedUnits twoRates (ReceiptUsage.saturatingDelta oneImage imagesAndTokens).units) 3 4 7 := by
  constructor <;> decide +kernel

theorem logicalCumulativePricedUsageAu_imagesAndTokens :
    logicalCumulativePricedUsageAu twoRates 3 4 oneImage 7 imagesAndTokens = some 22 ∧
      logicalCumulativePricedUsageAu twoRates 3 4 oneImage 7 imagesAndTokens =
        (logicalCumulativeAuForLockedTerms twoRates 3 4 oneImage.units 7
          imagesAndTokens.units).toOption :=
  ⟨by decide +kernel, logicalCumulativePricedUsageAu_eq twoRates 3 4 7 oneImage imagesAndTokens twoRates_locked
      (by decide) (by decide) (by decide) noOverflow_imagesAndTokens⟩

def noUsage : ReceiptUsage where
  units := []
  sorted := List.Pairwise.nil
  canonical := by simp
  counted := by simp

def manyImages : ReceiptUsage where
  units := [("image", 2 ^ 53)]
  sorted := by simp
  canonical := by decide
  counted := by decide

/--
A 64-bit count that is not a safe integer has a price at the gateway and none on the ledger.
-/
theorem manyImages_priced_apart :
    NoOverflow (pricedUnits twoRates (ReceiptUsage.saturatingDelta noUsage manyImages).units) 0 0 0 ∧
      logicalCumulativePricedUsageAu twoRates 0 0 noUsage 0 manyImages = some (7 * 2 ^ 53) ∧
      (logicalCumulativeAuForLockedTerms twoRates 0 0 noUsage.units 0 manyImages.units).message =
        some "Invalid receipt usage count." := by
  refine ⟨?_, by decide +kernel, by decide +kernel⟩
  constructor <;> decide +kernel

end Gateway

end Mayhem
