import Mayhem.ParamUpdate

namespace Mayhem

namespace Registry

variable {reg after : Registry} {sender : PublicKey} {tx : Digest} {value : SetParamsValue} {ver : Nat}

variable {key : ParamKey}

theorem activeParamAt_of_pending {pending : ParamEntry}
    (hpending : (reg.paramRecord key).pending = some pending) (time : Nat) :
    reg.activeParamAt time key =
      if pending.effectiveAt ≤ time then pending.value else (reg.paramRecord key).current.value := by
  simp only [activeParamAt, paramActiveEntry, hpending]
  split
  . rfl
  . rfl

theorem activeParamAt_of_none (hpending : (reg.paramRecord key).pending = none) (time : Nat) :
    reg.activeParamAt time key = (reg.paramRecord key).current.value := by
  simp [activeParamAt, paramActiveEntry, hpending]

theorem activeParamAt_of_not_awaits {submittedAt time : Nat} (hfree : ¬reg.AwaitsChange submittedAt key)
    (hle : submittedAt ≤ time) : reg.activeParamAt time key = reg.activeParamAt submittedAt key := by
  cases hpending : (reg.paramRecord key).pending with
  | none => rw [activeParamAt_of_none hpending, activeParamAt_of_none hpending]
  | some pending =>
    have hpast : pending.effectiveAt ≤ submittedAt := by
      apply Nat.le_of_not_lt
      intro hahead
      exact hfree ⟨pending, hpending, hahead⟩
    rw [activeParamAt_of_pending hpending, activeParamAt_of_pending hpending, if_pos hpast,
      if_pos (hpast.trans hle)]

theorem paramRecord_safe (hkey : key = .priceMinBps ∨ key = .priceMaxBps) :
    safeMarketBound (reg.paramRecord key).current = true ∧
      ∀ pending ∈ (reg.paramRecord key).pending, safeMarketBound pending = true := by
  have hnot : ¬(key ≠ .priceMinBps ∧ key ≠ .priceMaxBps) := by
    rcases hkey with rfl | rfl
    . simp
    . simp
  unfold paramRecord
  split
  . next _ _ =>
    rw [sanitizeMarketBoundRecord, if_neg hnot]
    refine ⟨?_, ?_⟩
    . dsimp only
      split
      . assumption
      . rcases hkey with rfl | rfl
        . rfl
        . rfl
    . intro pending hpending
      exact (Option.filter_eq_some_iff.mp hpending).2
  . refine ⟨?_, by simp⟩
    rcases hkey with rfl | rfl
    . rfl
    . rfl

theorem paramActiveEntry_safe (hkey : key = .priceMinBps ∨ key = .priceMaxBps) (time : Nat) :
    safeMarketBound (paramActiveEntry (reg.paramRecord key) time) = true := by
  obtain ⟨hcurrent, hpendings⟩ := @paramRecord_safe reg key hkey
  unfold paramActiveEntry
  split
  . next pending hpending =>
    split
    . exact hpendings pending hpending
    . exact hcurrent
  . exact hcurrent

theorem sanitizeMarketBoundRecord_of_safe {record : ParamRecord}
    (hcurrent : safeMarketBound record.current = true)
    (hpending : ∀ pending ∈ record.pending, safeMarketBound pending = true) :
    sanitizeMarketBoundRecord key record = record := by
  unfold sanitizeMarketBoundRecord
  split
  . rfl
  . obtain ⟨current, pending⟩ := record
    dsimp only at hcurrent hpending ⊢
    cases pending with
    | none => rfl
    | some pending => simp [hpending pending rfl]

theorem paramRecord_of_get {record : ParamRecord} (hget : reg.params.get key = some record) :
    reg.paramRecord key = sanitizeMarketBoundRecord key record := by
  simp [paramRecord, hget]

theorem paramRecord_congr (hget : after.params.get key = reg.params.get key) :
    after.paramRecord key = reg.paramRecord key := by
  simp [paramRecord, hget]

theorem activeParamAt_named {amount : Nat} (hkey : key = .priceMinBps ∨ key = .priceMaxBps)
    (hsafe : 2500 ≤ amount ∧ amount ≤ 40000)
    (hget : after.params.get key = some (reg.changeRecord sender tx value ver (key, amount))) (time : Nat) :
    after.activeParamAt time key =
      if value.effectiveAt ≤ time then amount else reg.activeParamAt value.submittedAt key := by
  have hrecord : after.paramRecord key = reg.changeRecord sender tx value ver (key, amount) := by
    rw [paramRecord_of_get hget]
    apply sanitizeMarketBoundRecord_of_safe
    . exact paramActiveEntry_safe hkey value.submittedAt
    . intro pending hpending
      obtain rfl := Option.some.inj hpending
      exact decide_eq_true hsafe
  have hpending : (after.paramRecord key).pending = some (scheduledEntry sender tx value ver amount) := by
    rw [hrecord]
    rfl
  rw [activeParamAt_of_pending hpending, hrecord]
  rfl

def BoundAfter (reg : Registry) (value : SetParamsValue) (after : Registry) (key : ParamKey) : Option Nat → Prop
  | some amount => ¬reg.AwaitsChange value.submittedAt key ∧ ∀ time, after.activeParamAt time key =
      if value.effectiveAt ≤ time then amount else reg.activeParamAt value.submittedAt key
  | none => after.paramRecord key = reg.paramRecord key

theorem setParams_bounds (h : reg.setParams sender tx value = (after, .ok ver)) :
    ∃ values, validateParamValues value.values = .ok values ∧ value.submittedAt ≤ value.effectiveAt ∧
      (values.lookup .priceMinBps).getD (reg.activeParamAt value.effectiveAt .priceMinBps) ≤
        (values.lookup .priceMaxBps).getD (reg.activeParamAt value.effectiveAt .priceMaxBps) ∧
      ∀ key, key = .priceMinBps ∨ key = .priceMaxBps → reg.BoundAfter value after key (values.lookup key) := by
  rcases reg.setParams_cases sender tx value with
    ⟨message, -, heq⟩ | ⟨changes, hprepare, ⟨message, -, heq⟩ | ⟨hfree, heq⟩⟩
  . rw [heq] at h
    cases h
  . rw [heq] at h
    cases h
  . rw [heq] at h
    obtain ⟨rfl, _⟩ := Prod.mk.inj h
    obtain ⟨values, hvalues, hperm, hle, hbounds⟩ := prepareSetParams_eq_ok hprepare
    obtain ⟨_, hallowed⟩ := validateParamValues_eq_ok hvalues
    refine ⟨values, hvalues, hle, hbounds, ?_⟩
    intro key hkey
    have hnodup := @freeChanges_nodup reg sender tx value reg.nextParamVer changes
      (prepareSetParams_nodup hprepare)
    rw [freeChanges_eq_self hfree] at hnodup
    cases hlookup : values.lookup key with
    | none =>
      apply paramRecord_congr
      apply Table.get_putAll_of_not_mem
      rw [List.map_map, (hperm.map _).mem_iff, List.mem_map]
      rintro ⟨change, hmem, rfl⟩
      have hne := List.lookup_eq_none_iff.mp hlookup change hmem
      simp at hne
    | some amount =>
      have hmem : (key, amount) ∈ values := by
        obtain ⟨_, _, rfl, -⟩ := List.lookup_eq_some_iff.mp hlookup
        simp
      have hchange := hperm.mem_iff.mpr hmem
      refine ⟨hfree _ hchange, ?_⟩
      apply @activeParamAt_named reg _ sender tx value reg.nextParamVer key amount hkey
      . obtain ⟨hmin, hmax⟩ := hallowed _ hmem
        rcases hkey with rfl | rfl
        . exact ⟨hmin, hmax _ rfl⟩
        . exact ⟨hmin, hmax _ rfl⟩
      . exact Table.get_putAll_of_mem _ _ hnodup (List.mem_map_of_mem hchange)

def PricesOrdered (reg : Registry) : Prop :=
  ∀ time, reg.activeParamAt time .priceMinBps ≤ reg.activeParamAt time .priceMaxBps

def Agrees (inOrder : Nat → Nat → Prop) (reg : Registry) (value : SetParamsValue) (named other : ParamKey)
    (amount : Nat) : Prop :=
  ∀ pending ∈ (reg.paramRecord other).pending,
    (value.effectiveAt < pending.effectiveAt → inOrder amount pending.value) ∧
    (0 < pending.effectiveAt → pending.effectiveAt ≤ value.submittedAt →
      inOrder (reg.activeParamAt value.submittedAt named) (reg.paramRecord other).current.value)

/--
An update that names both bounds is in order at once; one that names a single bound has to
agree with the other one.
-/
def KeepsOrder (reg : Registry) (value : SetParamsValue) : Prop :=
  ∀ values, validateParamValues value.values = .ok values →
    match values.lookup .priceMinBps, values.lookup .priceMaxBps with
    | some amount, none => Agrees (· ≤ ·) reg value .priceMinBps .priceMaxBps amount
    | none, some amount => Agrees (· ≥ ·) reg value .priceMaxBps .priceMinBps amount
    | _, _ => True

theorem agrees_iff {inOrder : Nat → Nat → Prop} {named other : ParamKey} {amount : Nat}
    (hordered : ∀ time, inOrder (reg.activeParamAt time named) (reg.activeParamAt time other))
    (hle : value.submittedAt ≤ value.effectiveAt)
    (hchecked : inOrder amount (reg.activeParamAt value.effectiveAt other))
    (hfree : ¬reg.AwaitsChange value.submittedAt named) :
    (∀ time, inOrder (if value.effectiveAt ≤ time then amount else reg.activeParamAt value.submittedAt named)
        (reg.activeParamAt time other)) ↔
      Agrees inOrder reg value named other amount := by
  cases hpending : (reg.paramRecord other).pending with
  | none =>
    simp only [Agrees, hpending, Option.not_mem_none, false_implies, implies_true, iff_true]
    intro time
    rw [activeParamAt_of_none hpending]
    split
    . rwa [activeParamAt_of_none hpending] at hchecked
    . have hsubmitted := hordered value.submittedAt
      rwa [activeParamAt_of_none hpending] at hsubmitted
  | some pending =>
    simp only [Agrees, hpending, Option.mem_some_iff, forall_eq']
    constructor
    . intro hafter
      constructor
      . intro hahead
        have htime := hafter pending.effectiveAt
        rwa [activeParamAt_of_pending hpending, if_pos hahead.le, if_pos (Nat.le_refl _)] at htime
      . intro _ hpast
        have htime := hafter 0
        rwa [activeParamAt_of_pending hpending, if_neg (by omega), if_neg (by omega)] at htime
    . rintro ⟨hahead, hpast⟩ time
      by_cases heffective : value.effectiveAt ≤ time
      . -- From the effective time on the other bound has its value of then, until its own change.
        rw [if_pos heffective]
        by_cases hlate : value.effectiveAt < pending.effectiveAt
        . rw [activeParamAt_of_pending hpending] at hchecked ⊢
          rw [if_neg (by omega)] at hchecked
          split
          . exact hahead hlate
          . exact hchecked
        . rw [activeParamAt_of_pending hpending] at hchecked ⊢
          rw [if_pos (by omega)] at hchecked
          rwa [if_pos (by omega)]
      . rw [if_neg heffective]
        by_cases hsubmitted : value.submittedAt ≤ time
        . rw [← activeParamAt_of_not_awaits hfree hsubmitted]
          exact hordered time
        . -- Before the submission the named bound now reads as at the submission.
          have horder := hordered value.submittedAt
          rw [activeParamAt_of_pending hpending value.submittedAt] at horder
          rw [activeParamAt_of_pending hpending]
          by_cases hdone : pending.effectiveAt ≤ value.submittedAt
          . rw [if_pos hdone] at horder
            split
            . exact horder
            . exact hpast (by omega) hdone
          . rw [if_neg hdone] at horder
            rwa [if_neg (by omega)]

theorem setParams_pricesOrdered_iff (hordered : reg.PricesOrdered)
    (h : reg.setParams sender tx value = (after, .ok ver)) : after.PricesOrdered ↔ reg.KeepsOrder value := by
  obtain ⟨values, hvalues, hle, hchecked, hbounds⟩ := setParams_bounds h
  have hmin := hbounds .priceMinBps (.inl rfl)
  have hmax := hbounds .priceMaxBps (.inr rfl)
  simp only [KeepsOrder, hvalues, Except.ok.injEq, forall_eq', PricesOrdered]
  cases hlookupMin : values.lookup .priceMinBps with
  | none =>
    cases hlookupMax : values.lookup .priceMaxBps with
    | none =>
      rw [hlookupMin] at hmin
      rw [hlookupMax] at hmax
      simp only [activeParamAt, show after.paramRecord _ = _ from hmin,
        show after.paramRecord _ = _ from hmax, iff_true]
      exact hordered
    | some amount =>
      rw [hlookupMin] at hmin hchecked
      rw [hlookupMax] at hmax hchecked
      simp only [hmax.2]
      rw [← @agrees_iff reg value (· ≥ ·) .priceMaxBps .priceMinBps amount
        (fun time => hordered time) hle hchecked
        hmax.1]
      simp [activeParamAt, show after.paramRecord _ = _ from hmin]
  | some least =>
    cases hlookupMax : values.lookup .priceMaxBps with
    | none =>
      rw [hlookupMin] at hmin hchecked
      rw [hlookupMax] at hmax hchecked
      simp only [hmin.2]
      rw [← @agrees_iff reg value (· ≤ ·) .priceMinBps .priceMaxBps least (fun time => hordered time) hle hchecked
        hmin.1]
      simp [activeParamAt, show after.paramRecord _ = _ from hmax]
    | some =>
      rw [hlookupMin] at hmin hchecked
      rw [hlookupMax] at hmax hchecked
      simp only [hmin.2, hmax.2, iff_true]
      intro time
      split
      . exact hchecked
      . exact hordered value.submittedAt

inductive AgreedStep (reg after : Registry) : Prop
  | update (sender : PublicKey) (tx : Digest) (value : SetParamsValue) (ver : Nat)
      (haccepted : reg.setParams sender tx value = (after, .ok ver)) (hkeeps : reg.KeepsOrder value)
  | other (hparams : after.params = reg.params)

theorem pricesOrdered_congr (hparams : after.params = reg.params) : after.PricesOrdered ↔ reg.PricesOrdered := by
  simp [PricesOrdered, activeParamAt, paramRecord, hparams]

theorem AgreedStep.pricesOrdered (h : reg.AgreedStep after) (hordered : reg.PricesOrdered) :
    after.PricesOrdered := by
  cases h with
  | update _ _ _ _ haccepted hkeeps =>
    exact (setParams_pricesOrdered_iff hordered haccepted).mpr hkeeps
  | other hparams => exact (pricesOrdered_congr hparams).mpr hordered

theorem empty_pricesOrdered : empty.PricesOrdered := by
  intro _
  show 2500 ≤ 40000
  omega

/--
As long as the updates agree the bounds are in order at every time, and an update that does not agree ends this.
-/
theorem price_bounds_ordered {start : Registry} (hstart : start.params = Table.empty)
    (hrun : Relation.ReflTransGen AgreedStep start reg) :
    reg.PricesOrdered ∧ ∀ sender tx value after ver, reg.setParams sender tx value = (after, .ok ver) →
      (after.PricesOrdered ↔ reg.KeepsOrder value) := by
  have hordered : reg.PricesOrdered := by
    apply Run.invariant PricesOrdered _ _ hrun
    . exact (pricesOrdered_congr hstart).mpr empty_pricesOrdered
    . intro _ _ hs hstep
      exact hstep.pricesOrdered hs
  refine ⟨hordered, ?_⟩
  intro sender tx value after ver haccepted
  exact setParams_pricesOrdered_iff hordered haccepted

theorem greatestPrice_agrees : (governed 9).KeepsOrder greatestPrice := by
  intro values hvalues
  obtain rfl : [(.priceMaxBps, 30000)] = values := Except.ok.inj hvalues
  intro _ hpending
  cases hpending

theorem price_bounds_ordered_after_update : ((governed 9).setParams 9 1 greatestPrice).1.PricesOrdered ∧
      ∀ sender tx value after ver, ((governed 9).setParams 9 1 greatestPrice).1.setParams sender tx value =
          (after, .ok ver) →
        (after.PricesOrdered ↔ ((governed 9).setParams 9 1 greatestPrice).1.KeepsOrder value) := by
  apply price_bounds_ordered (rfl : (governed 9).params = Table.empty)
  apply Relation.ReflTransGen.single
  exact .update 9 1 greatestPrice 1 rfl greatestPrice_agrees

def leastPriceLater : SetParamsValue where
  submittedAt := 0
  effectiveAt := 200000
  values := some ⟨[("price_min_bps", .integer 35000)], by decide⟩

/--
The least price is to rise to 35000 at 200000. The greatest price is then lowered to 30000 at 100000, at which
time the least price is still 2500.
-/
theorem price_bounds_crossed :
    let scheduled := ((governed 9).setParams 9 1 leastPriceLater).1
    let crossed := (scheduled.setParams 9 2 greatestPrice).1
    ((governed 9).setParams 9 1 leastPriceLater).2.toOption = some 1 ∧
      (scheduled.setParams 9 2 greatestPrice).2.toOption = some 2 ∧
      (crossed.activeParamAt 200000 .priceMinBps = 35000 ∧ crossed.activeParamAt 200000 .priceMaxBps = 30000) ∧
      ¬crossed.PricesOrdered := by
  intro scheduled crossed
  have hread : crossed.activeParamAt 200000 .priceMinBps = 35000 ∧
    crossed.activeParamAt 200000 .priceMaxBps = 30000 := by
    decide +kernel
  refine ⟨by decide +kernel, by decide +kernel, hread, ?_⟩
  intro hordered
  have htime := hordered 200000
  omega

def Allows (key : ParamKey) (amount : Nat) : Prop :=
  key.bounds.min ≤ amount ∧ ∀ max ∈ key.bounds.max, amount ≤ max

theorem default_allowed (key : ParamKey) : Allows key key.default := by
  unfold Allows
  cases key <;> decide

def WithinBounds (key : ParamKey) (record : ParamRecord) : Prop :=
  Allows key record.current.value ∧ ∀ pending ∈ record.pending, Allows key pending.value

namespace WithinBounds

variable {record : ParamRecord}

theorem sanitize (h : WithinBounds key record) : WithinBounds key (sanitizeMarketBoundRecord key record) := by
  unfold sanitizeMarketBoundRecord
  split
  . exact h
  . refine ⟨?_, fun pending hpending => h.2 pending (Option.filter_eq_some_iff.mp hpending).1⟩
    dsimp only
    split
    . exact h.1
    . exact default_allowed key

theorem active (h : WithinBounds key record) (time : Nat) : Allows key (paramActiveEntry record time).value := by
  unfold paramActiveEntry
  split
  . next pending hpending =>
    split
    . exact h.2 pending hpending
    . exact h.1
  . exact h.1

theorem schedule {changes : List (ParamKey × Nat)} (h : ∀ key, WithinBounds key (reg.paramRecord key))
    (hchanges : ∀ change ∈ changes, Allows change.1 change.2) :
    WithinBounds key ((reg.scheduleParams sender tx value ver changes).1.paramRecord key) := by
  induction changes generalizing reg with
  | nil => exact h key
  | cons change rest ih =>
    obtain ⟨named, amount⟩ := change
    rw [List.forall_mem_cons] at hchanges
    unfold scheduleParams
    split
    . exact h key
    . apply ih _ hchanges.2
      intro other
      by_cases hother : other = named
      . subst hother
        rw [paramRecord_of_get (Table.get_put_self _ _ _)]
        apply sanitize
        refine ⟨(h other).active value.submittedAt, ?_⟩
        rintro _ ⟨⟩
        exact hchanges.1
      . rw [paramRecord_put_of_ne hother]
        exact h other

end WithinBounds

/--
Whatever updates are submitted, also those rejected half-way, every parameter is within its bounds at every time.
-/
theorem params_within_bounds {start : Registry} (hstart : start.params = Table.empty)
    (hrun : Relation.ReflTransGen (fun reg after => (∀ key, after.paramRecord key = reg.paramRecord key) ∨
      ∃ sender tx value, after = (reg.setParams sender tx value).1) start reg) (time : Nat) (key : ParamKey) :
    key.bounds.min ≤ reg.activeParamAt time key ∧ ∀ max ∈ key.bounds.max, reg.activeParamAt time key ≤ max := by
  have h : ∀ key, WithinBounds key (reg.paramRecord key) := by
    apply Run.invariant (fun reg => ∀ key, WithinBounds key (reg.paramRecord key)) _ _ hrun
    . intro key
      rw [paramRecord, hstart]
      exact ⟨default_allowed key, by simp⟩
    . rintro reg after h (hsame | ⟨sender, tx, value, rfl⟩) key
      . exact hsame key ▸ h key
      . unfold setParams
        split
        . exact h key
        . next changes hprepare =>
          obtain ⟨_, hvalues, hperm, -⟩ := prepareSetParams_eq_ok hprepare
          have hwritten := @WithinBounds.schedule reg sender tx value reg.nextParamVer key changes h
            fun change hmem =>
            (validateParamValues_eq_ok hvalues).2 change (hperm.mem_iff.mp hmem)
          dsimp only
          split
          . next hloop => rwa [hloop] at hwritten
          . next hloop => rwa [hloop] at hwritten
  exact (h key).active time

theorem params_within_bounds_half_written :
    let scheduled := ((governed 9).setParams 9 1 greatestPrice).1
    (scheduled.setParams 9 2 feeAndGreatestPrice).1.activeParamAt 200000 .feeBps = 1000 ∧
      ∀ time, (scheduled.setParams 9 2 feeAndGreatestPrice).1.activeParamAt time .feeBps ≤ 1500 := by
  have hwithin := @params_within_bounds _ (governed 9) rfl
    (.tail (.single (.inr ⟨9, 1, greatestPrice, rfl⟩)) (.inr ⟨9, 2, feeAndGreatestPrice, rfl⟩))
  exact ⟨by decide +kernel, fun time => (hwithin time .feeBps).2 1500 rfl⟩

end Registry

end Mayhem
