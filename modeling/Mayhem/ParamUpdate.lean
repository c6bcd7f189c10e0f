import Mayhem.Lib.Run
import Mayhem.Params

namespace Mayhem

theorem ParamKey.ofName_eq_some {text : String} {key : ParamKey} (h : ofName text = some key) :
    key.name = text := by
  simpa using List.find?_some h

theorem validateParamKeys_eq_ok {names : List String} {keys : List ParamKey}
    (h : validateParamKeys names = .ok keys) : keys.map ParamKey.name = names := by
  simp only [validateParamKeys, checks_iff] at h
  have hnames := Except.map_eq_of_mapM h.2 (p := ParamKey.name) (q := id) fun text key hkey =>
    ParamKey.ofName_eq_some (requireSome_accepts_iff.mp hkey)
  rwa [List.map_id] at hnames

theorem validateParamValue_eq_ok {key : ParamKey} {input : ParamInput} {amount : Nat}
    (h : validateParamValue key input = .ok amount) :
    key.bounds.min ≤ amount ∧ ∀ max ∈ key.bounds.max, amount ≤ max := by
  simp only [validateParamValue, checks_iff] at h
  obtain ⟨-, h⟩ := h
  split at h
  . next hmax =>
    simp only [checks_iff] at h
    obtain ⟨_, -, hmin, rfl⟩ := h
    rw [hmax]
    exact ⟨Nat.le_of_not_lt hmin, by simp⟩
  . next max hmax =>
    split at h
    . simp only [checks_iff, not_or] at h
      obtain ⟨⟨hmin, _⟩, rfl⟩ := h
      rw [hmax]
      refine ⟨by omega, ?_⟩
      intro _ hbound
      obtain rfl := Option.some.inj hbound
      omega
    . cases h

theorem validateParamValues_eq_ok {values : Option ParamValues} {changes : List (ParamKey × Nat)}
    (h : validateParamValues values = .ok changes) :
    (changes.map Prod.fst).Nodup ∧
      ∀ change ∈ changes, change.1.bounds.min ≤ change.2 ∧ ∀ max ∈ change.1.bounds.max, change.2 ≤ max := by
  simp only [validateParamValues, checks_iff] at h
  obtain ⟨values, -, _, keys, hkeys, h⟩ := h
  have hnames := validateParamKeys_eq_ok hkeys
  have hlength : keys.length = values.entries.length := by
    rw [← List.length_map (f := ParamKey.name), hnames, List.length_map]
  have hfst : changes.map Prod.fst = keys := by
    have hzip := Except.map_eq_of_mapM h (p := Prod.fst) (q := Prod.fst) fun pair change hchange => by
      obtain ⟨key, input⟩ := pair
      simp only [checks_iff] at hchange
      obtain ⟨_, -, rfl⟩ := hchange
      rfl
    rw [hzip, List.map_fst_zip]
    rw [List.length_map]
    omega
  refine ⟨?_, ?_⟩
  . rw [hfst]
    apply List.Nodup.of_map ParamKey.name
    rw [hnames]
    exact values.nodup
  . intro change hmem
    obtain ⟨⟨key, input⟩, -, hchange⟩ := Except.exists_of_mem_mapM_result h hmem
    simp only [checks_iff] at hchange
    obtain ⟨_, hamount, rfl⟩ := hchange
    exact validateParamValue_eq_ok hamount

namespace Registry

variable {reg : Registry} {sender : PublicKey} {tx : Digest} {value : SetParamsValue} {ver : Nat}

def freeChanges (reg : Registry) (value : SetParamsValue) (changes : List (ParamKey × Nat)) :
    List (ParamKey × Nat) :=
  changes.takeWhile fun change => ¬reg.AwaitsChange value.submittedAt change.1

def changeRecord (reg : Registry) (sender : PublicKey) (tx : Digest) (value : SetParamsValue) (ver : Nat)
    (change : ParamKey × Nat) : ParamRecord :=
  reg.scheduledRecord value change.1 (scheduledEntry sender tx value ver change.2)

variable {key : ParamKey}

theorem paramRecord_put_of_ne {other : ParamKey} (hne : other ≠ key) (record : ParamRecord) :
    { reg with params := reg.params.put key record }.paramRecord other = reg.paramRecord other := by
  simp [paramRecord, Table.get_put_of_ne _ _ hne]

theorem awaitsChange_put_of_ne {other : ParamKey} (hne : other ≠ key) (record : ParamRecord) (time : Nat) :
    { reg with params := reg.params.put key record }.AwaitsChange time other ↔ reg.AwaitsChange time other := by
  simp [AwaitsChange, paramRecord_put_of_ne hne]

variable {changes : List (ParamKey × Nat)}

theorem freeChanges_put {record : ParamRecord} (hother : ∀ change ∈ changes, change.1 ≠ key) :
    { reg with params := reg.params.put key record }.freeChanges value changes =
      reg.freeChanges value changes := by
  induction changes with
  | nil => rfl
  | cons change _ ih =>
    rw [List.forall_mem_cons] at hother
    have hrest := ih hother.2
    unfold freeChanges at hrest ⊢
    rw [List.takeWhile_cons, List.takeWhile_cons, hrest]
    simp [awaitsChange_put_of_ne hother.1]

theorem scheduleParams_eq (hnodup : (changes.map Prod.fst).Nodup) :
    (reg.scheduleParams sender tx value ver changes).1 =
        { reg with
          params := reg.params.putAll
            ((reg.freeChanges value changes).map fun change =>
              (change.1, reg.changeRecord sender tx value ver change)) } ∧
      ((reg.scheduleParams sender tx value ver changes).2 = .ok () ↔
        ∀ change ∈ changes, ¬reg.AwaitsChange value.submittedAt change.1) := by
  induction changes generalizing reg with
  | nil => exact ⟨rfl, by simp [scheduleParams]⟩
  | cons change rest ih =>
    obtain ⟨key, amount⟩ := change
    rw [List.map_cons, List.nodup_cons] at hnodup
    unfold scheduleParams
    split
    . next hawaits =>
      simp [freeChanges, hawaits]
    . next hfree =>
      -- The rest of the loop reads no record that this turn has written.
      have hother : ∀ change ∈ rest, change.1 ≠ key := by
        intro change hmem heq
        apply hnodup.1
        exact List.mem_map.mpr ⟨change, hmem, heq⟩
      obtain ⟨hparams, hok⟩ := @ih { reg with
        params := reg.params.put key (reg.scheduledRecord value key (scheduledEntry sender tx value ver amount)) }
        hnodup.2
      constructor
      . rw [hparams, freeChanges_put hother, freeChanges, freeChanges, List.takeWhile_cons,
          if_pos (by simpa using hfree), List.map_cons, Table.putAll_cons]
        congr 2
        apply List.map_congr_left
        intro change hmem
        have hne := hother change (List.takeWhile_sublist _ |>.mem hmem)
        simp [changeRecord, scheduledRecord, paramRecord_put_of_ne hne]
      . rw [hok, List.forall_mem_cons, and_iff_right hfree]
        apply forall₂_congr
        intro change hmem
        rw [awaitsChange_put_of_ne (hother change hmem)]

theorem prepareSetParams_eq_ok (h : reg.prepareSetParams sender value = .ok changes) :
    ∃ values, validateParamValues value.values = .ok values ∧ changes.Perm values ∧
      value.submittedAt ≤ value.effectiveAt ∧
      (values.lookup .priceMinBps).getD (reg.activeParamAt value.effectiveAt .priceMinBps) ≤
        (values.lookup .priceMaxBps).getD (reg.activeParamAt value.effectiveAt .priceMaxBps) := by
  simp only [prepareSetParams, validateParamBounds, requireAdmin, checks_iff] at h
  obtain ⟨-, _, values, hvalues, _, rfl⟩ := h
  refine ⟨values, hvalues, List.perm_insertionSort _ values, ?_, ?_⟩
  . omega
  . omega

theorem prepareSetParams_nodup (h : reg.prepareSetParams sender value = .ok changes) :
    (changes.map Prod.fst).Nodup := by
  obtain ⟨_, hvalues, hperm, -⟩ := prepareSetParams_eq_ok h
  rw [(hperm.map Prod.fst).nodup_iff]
  exact (validateParamValues_eq_ok hvalues).1

/--
Either the update is accepted, and then each named parameter has its new entry and the version is on record, or it
is rejected, and then no parameter's record has changed.
-/
def AllOrNothing (reg : Registry) (sender : PublicKey) (tx : Digest) (value : SetParamsValue) : Prop :=
  match reg.setParams sender tx value with
  | (after, .ok ver) =>
    (∃ changes, validateParamValues value.values = .ok changes ∧ ∀ change ∈ changes,
      ∃ record, after.params.get change.1 = some record ∧
        record.pending = some (scheduledEntry sender tx value ver change.2)) ∧
    (after.paramMeta.map ParamMeta.ver = some ver ∧ (after.paramUpdates.get ver).isSome)
  | (after, .error _) => after.params = reg.params

/--
The changes before the first parameter that still waits for one find the records they would write.
-/
def WaitsFirst (reg : Registry) (sender : PublicKey) (tx : Digest) (value : SetParamsValue) : Prop :=
  ∀ changes, reg.prepareSetParams sender value = .ok changes →
    (∃ change ∈ changes, reg.AwaitsChange value.submittedAt change.1) → ∀ change ∈ reg.freeChanges value changes,
        reg.params.get change.1 = some (reg.changeRecord sender tx value reg.nextParamVer change)

def FreshTx (reg : Registry) (tx : Digest) : Prop :=
  ∀ key record, reg.params.get key = some record → ∀ pending ∈ record.pending, pending.setAt ≠ some tx

def NoneOrFirstWaits (reg : Registry) (sender : PublicKey) (value : SetParamsValue) : Prop :=
  ∀ changes, reg.prepareSetParams sender value = .ok changes →
    (∀ change ∈ changes, ¬reg.AwaitsChange value.submittedAt change.1) ∨
      ∃ first ∈ changes.head?, reg.AwaitsChange value.submittedAt first.1

theorem waitsFirst_iff_of_freshTx (hfresh : reg.FreshTx tx) :
    reg.WaitsFirst sender tx value ↔ reg.NoneOrFirstWaits sender value := by
  apply forall₂_congr
  intro changes _
  cases changes with
  | nil => simp
  | cons first rest =>
    simp only [List.head?_cons, Option.mem_some_iff, exists_eq_left']
    constructor
    . intro hstored
      rw [or_iff_not_imp_right]
      intro hfree change hmem hawaits
      have hfirst : first ∈ reg.freeChanges value (first :: rest) := by
        simp [freeChanges, hfree]
      exact hfresh _ _ (hstored ⟨change, hmem, hawaits⟩ first hfirst) _ rfl rfl
    . rintro (hnone | hfirst) ⟨waiting, hwaiting, hawaits⟩ change hmem
      . exact absurd hawaits (hnone waiting hwaiting)
      . simp [freeChanges, hfirst] at hmem

theorem freeChanges_nodup (hnodup : (changes.map Prod.fst).Nodup) :
    (((reg.freeChanges value changes).map fun change =>
      (change.1, reg.changeRecord sender tx value ver change)).map Prod.fst).Nodup := by
  rw [List.map_map]
  exact hnodup.sublist ((List.takeWhile_sublist _).map Prod.fst)

theorem freeChanges_eq_self (hfree : ∀ change ∈ changes, ¬reg.AwaitsChange value.submittedAt change.1) :
    reg.freeChanges value changes = changes := by
  rw [freeChanges, List.takeWhile_eq_self_iff]
  intro change hmem
  exact decide_eq_true (hfree change hmem)

theorem setParams_cases (reg : Registry) (sender : PublicKey) (tx : Digest) (value : SetParamsValue) :
    (∃ message, reg.prepareSetParams sender value = .error message ∧
      reg.setParams sender tx value = (reg, .error message)) ∨
    ∃ changes, reg.prepareSetParams sender value = .ok changes ∧
      ((∃ message, (∃ change ∈ changes, reg.AwaitsChange value.submittedAt change.1) ∧
        reg.setParams sender tx value = ({ reg with
            params := reg.params.putAll ((reg.freeChanges value changes).map fun change =>
              (change.1, reg.changeRecord sender tx value reg.nextParamVer change)) }, .error message)) ∨
      ((∀ change ∈ changes, ¬reg.AwaitsChange value.submittedAt change.1) ∧
        reg.setParams sender tx value = ({ reg with
            params := reg.params.putAll (changes.map fun change =>
              (change.1, reg.changeRecord sender tx value reg.nextParamVer change))
            paramUpdates := reg.paramUpdates.put reg.nextParamVer
              ⟨reg.nextParamVer, changes, value.submittedAt, value.effectiveAt, sender, tx⟩
            paramMeta := some ⟨reg.nextParamVer, changes.map Prod.fst, sender, tx, value.effectiveAt⟩ },
            .ok reg.nextParamVer))) := by
  cases hprepare : reg.prepareSetParams sender value with
  | error message =>
    left
    refine ⟨message, rfl, ?_⟩
    simp [setParams, hprepare]
  | ok changes =>
    right
    refine ⟨changes, rfl, ?_⟩
    obtain ⟨hwritten, hok⟩ := @scheduleParams_eq reg sender tx value reg.nextParamVer changes
      (prepareSetParams_nodup hprepare)
    simp only [setParams, hprepare]
    cases hloop : reg.scheduleParams sender tx value reg.nextParamVer changes with
    | mk _ result =>
      rw [hloop] at hwritten hok
      dsimp only at hwritten hok ⊢
      subst hwritten
      cases result with
      | error message =>
        left
        refine ⟨message, ?_, rfl⟩
        by_contra hnone
        push Not at hnone
        cases hok.mpr hnone
      | ok result =>
        right
        have hfree := hok.mp rfl
        rw [freeChanges_eq_self hfree]
        exact ⟨hfree, rfl⟩

theorem setParams_allOrNothing_iff (reg : Registry) (sender : PublicKey) (tx : Digest) (value : SetParamsValue) :
    (reg.AllOrNothing sender tx value ↔ reg.WaitsFirst sender tx value) ∧
      (reg.FreshTx tx → (reg.AllOrNothing sender tx value ↔ reg.NoneOrFirstWaits sender value)) := by
  suffices hiff : reg.AllOrNothing sender tx value ↔ reg.WaitsFirst sender tx value from
    ⟨hiff, fun hfresh => hiff.trans (waitsFirst_iff_of_freshTx hfresh)⟩
  rcases reg.setParams_cases sender tx value with
    ⟨message, hprepare, heq⟩ | ⟨changes, hprepare, ⟨message, hawaits, heq⟩ | ⟨hfree, heq⟩⟩
  . -- Rejected by a check: nothing is written, and the condition speaks of no changes.
    simp [AllOrNothing, WaitsFirst, heq, hprepare]
  . simp only [AllOrNothing, WaitsFirst, heq, hprepare, Except.ok.injEq, forall_eq', hawaits, forall_const]
    rw [Table.putAll_eq_self_iff (freeChanges_nodup (prepareSetParams_nodup hprepare)), List.forall_mem_map]
  . have hnot : ¬∃ change ∈ changes, reg.AwaitsChange value.submittedAt change.1 := by
      rintro ⟨change, hmem, hawaits⟩
      exact hfree change hmem hawaits
    simp only [AllOrNothing, WaitsFirst, heq, hprepare, Except.ok.injEq, forall_eq', hnot,
      false_implies, iff_true]
    obtain ⟨values, hvalues, hperm, -⟩ := prepareSetParams_eq_ok hprepare
    refine ⟨⟨values, hvalues, ?_⟩, rfl, by simp⟩
    intro change hmem
    refine ⟨reg.changeRecord sender tx value reg.nextParamVer change, ?_, rfl⟩
    have hnodup := @freeChanges_nodup reg sender tx value reg.nextParamVer changes
      (prepareSetParams_nodup hprepare)
    rw [freeChanges_eq_self hfree] at hnodup
    apply Table.get_putAll_of_mem _ _ hnodup
    exact List.mem_map_of_mem (hperm.mem_iff.mpr hmem)

def governed (admin : PublicKey) : Registry := { empty with admin := some admin }

def greatestPrice : SetParamsValue where
  submittedAt := 0
  effectiveAt := 100000
  values := some ⟨[("price_max_bps", .integer 30000)], by decide⟩

def feeAndGreatestPrice : SetParamsValue where
  submittedAt := 1000
  effectiveAt := 200000
  values := some ⟨[("price_max_bps", .integer 20000), ("fee_bps", .integer 1000)], by decide⟩

/--
The second update names a parameter that waits, and another one before it in the order of the names.
-/
theorem fee_changed_by_rejected_update :
    let scheduled := ((governed 9).setParams 9 1 greatestPrice).1
    (scheduled.setParams 9 2 feeAndGreatestPrice).2.message =
        some "Pending parameter change already scheduled for price_max_bps." ∧
      ((scheduled.setParams 9 2 feeAndGreatestPrice).1.activeParamAt 200000 .feeBps = 1000 ∧
        scheduled.activeParamAt 200000 .feeBps = 1500) ∧
      ¬scheduled.AllOrNothing 9 2 feeAndGreatestPrice := by
  intro scheduled
  have hmessage : (scheduled.setParams 9 2 feeAndGreatestPrice).2.message =
      some "Pending parameter change already scheduled for price_max_bps." := by
    decide +kernel
  have hfee : (scheduled.setParams 9 2 feeAndGreatestPrice).1.activeParamAt 200000 .feeBps = 1000 ∧
      scheduled.activeParamAt 200000 .feeBps = 1500 := by
    decide +kernel
  refine ⟨hmessage, hfee, ?_⟩
  generalize scheduled = reg at hmessage hfee
  unfold AllOrNothing
  cases hset : reg.setParams 9 2 feeAndGreatestPrice with
  | mk after result =>
    rw [hset] at hmessage hfee
    cases result with
    | ok => cases hmessage
    | error message =>
      intro hsame
      have hread : after.activeParamAt 200000 .feeBps = reg.activeParamAt 200000 .feeBps := by
        simp [activeParamAt, paramRecord, show after.params = reg.params from hsame]
      dsimp only at hfee
      omega

end Registry

end Mayhem
