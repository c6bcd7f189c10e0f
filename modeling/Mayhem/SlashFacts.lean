import Mayhem.Guardian
import Mayhem.Settlement.Money

namespace Mayhem

namespace Ledger

variable {s : Ledger} {request : SlashRequest} {rail : Rail}

theorem slashedEarning_eq_ok {earning : EarningRecord} {forfeitedAu : Nat} {updated : Option EarningRecord}
    (h : slashedEarning earning rail forfeitedAu = .ok updated) :
    updated = none ∧ earning.earned.totalAu = 0 ∧ forfeitedAu = 0 ∨ ∃ remaining, updated = some { earning with
            earned := { earning.earned with
              totalAu := earning.earned.totalAu - forfeitedAu
              heldAu := earning.earned.heldAu - forfeitedAu
              holdbacks := some remaining }
            slashedCumAu := earning.slashedCumAu + forfeitedAu } ∧
          ∀ next ∈ updated, guardianValidateEarningRecord next rail = .ok () := by
  unfold slashedEarning at h
  simp only [checks_iff, safeSubAu_eq_ok] at h
  obtain ⟨_, -, remaining, -, heldAu, ⟨-, rfl⟩, totalAu, ⟨_, rfl⟩, h⟩ := h
  split at h
  . next hnone =>
    rw [Except.pure_accepts_iff] at h
    exact .inl ⟨h.symm, hnone⟩
  . simp only [Except.bind_accepts_iff, Except.pure_accepts_iff] at h
    obtain ⟨_, hvalid, rfl⟩ := h
    refine .inr ⟨remaining, rfl, ?_⟩
    intro next hnext
    cases hnext
    exact hvalid

theorem slashedEarning_accepts {earning : EarningRecord} {forfeitedAu : Nat}
    (hvalid : guardianValidateEarningRecord earning rail = .ok ())
    (hforfeited : forfeitedAu ≤ earning.earned.heldAu) :
    ∃ updated, slashedEarning earning rail forfeitedAu = .ok updated := by
  rw [guardianValidateEarningRecord_accepts_iff] at hvalid
  obtain ⟨hepoch, hearned, hscope⟩ := hvalid
  have hcovered := hearned.covered
  obtain ⟨_, hbuckets⟩ := normalizeHoldbackBuckets_accepts hearned.sound
  obtain ⟨-, hsound, htotal⟩ := normalizeHoldbackBuckets_eq_ok hbuckets
  rw [hearned.buckets_eq] at htotal
  obtain ⟨remaining, hremaining⟩ :=
    slashHoldbackBuckets_accepts (Nat.le_trans hforfeited (Nat.le_of_eq htotal.symm))
  obtain ⟨hleft, hkept⟩ := slashHoldbackBuckets_eq_ok hremaining
  have hupdated : guardianValidateEarningRecord { earning with
      earned := { earning.earned with
        totalAu := earning.earned.totalAu - forfeitedAu
        heldAu := earning.earned.heldAu - forfeitedAu
        holdbacks := some remaining }
      slashedCumAu := earning.slashedCumAu + forfeitedAu } rail = .ok () := by
    rw [guardianValidateEarningRecord_accepts_iff]
    refine ⟨hepoch, ⟨?_, ?_, ?_⟩, fun htap => ?_⟩
    . dsimp only
      omega
    . intro _ hstored
      cases hstored
      exact hkept hsound
    . exact hleft.trans (by rw [htotal])
    . -- amounts that were zero stay zero
      have hbefore := hscope htap
      cases hpool : earning.scope with
      | some =>
        rw [hpool] at hbefore
        exact hbefore
      | none =>
        rw [hpool] at hbefore
        simp only [TapScopeValid, List.mem_cons, List.not_mem_nil, or_false, forall_eq_or_imp,
          forall_eq] at hbefore ⊢
        omega
  unfold slashedEarning
  rw [hbuckets, Except.bind_of_ok, hremaining, Except.bind_of_ok, safeSubAu_eq_ok.mpr ⟨hforfeited, rfl⟩,
    Except.bind_of_ok, safeSubAu_eq_ok.mpr ⟨by omega, rfl⟩, Except.bind_of_ok]
  dsimp only
  split
  . exact ⟨none, rfl⟩
  . rw [hupdated, Except.bind_of_ok]
    exact ⟨_, rfl⟩

structure RailSlashed (s : Ledger) (request : SlashRequest) (rail : Rail) (entry : RailSlash) : Prop where
  rail_eq : entry.rail = rail
  shares : entry.beneficiaryAu + entry.treasuryAu = entry.forfeitedAu
  earning : ∃ earning, s.earningRecord request.provider rail = .ok earning ∧
    guardianValidateEarningRecord earning rail = .ok () ∧
    slashedEarning earning rail entry.forfeitedAu = .ok entry.earning
  balance : entry.balance = none ∧ entry.beneficiaryAu = 0 ∨
    ∃ beneficiary balance, request.beneficiary = some beneficiary ∧
      s.balanceRecord beneficiary rail = .ok balance ∧
      guardianValidateBalanceRecord balance rail = .ok () ∧
      entry.balance = some { balance with
        au := balance.au + entry.beneficiaryAu
        updatedEpoch := max balance.updatedEpoch request.epoch }
  fee : entry.fee = none ∧ entry.treasuryAu = 0 ∨
    ∃ fee next, s.feeCumRecord rail = .ok fee ∧ entry.fee = some next ∧ next = { fee with
        cumAu := fee.cumAu + entry.treasuryAu
        settledCumAu := some (fee.settledCumAu.getD fee.cumAu + entry.treasuryAu)
        updatedEpoch := max fee.updatedEpoch request.epoch } ∧
      guardianValidateFeeRecord next rail = .ok ()

variable {epoch : Nat}

theorem slashedBalance_eq_ok {beneficiary : Option PublicKey} {beneficiaryAu : Nat}
    {updated : Option BalanceRecord} (h : s.slashedBalance beneficiary rail epoch beneficiaryAu = .ok updated) :
    updated = none ∧ (beneficiary = none ∨ beneficiaryAu = 0) ∨
      ∃ user balance, beneficiary = some user ∧ s.balanceRecord user rail = .ok balance ∧
        guardianValidateBalanceRecord balance rail = .ok () ∧
        updated = some { balance with
          au := balance.au + beneficiaryAu
          updatedEpoch := max balance.updatedEpoch epoch } := by
  cases beneficiary with
  | none =>
    cases h
    exact .inl ⟨rfl, .inl rfl⟩
  | some user =>
    simp only [slashedBalance] at h
    split at h
    . next hzero =>
      rw [Except.pure_accepts_iff] at h
      exact .inl ⟨h.symm, .inr hzero⟩
    . simp only [checks_iff] at h
      obtain ⟨balance, hbalance, hvalid, rfl⟩ := h
      exact .inr ⟨user, balance, rfl, hbalance, hvalid, rfl⟩

theorem slashedFee_eq_ok {treasuryAu : Nat} {updated : Option FeeRecord}
    (h : s.slashedFee rail epoch treasuryAu = .ok updated) :
    updated = none ∧ treasuryAu = 0 ∨ ∃ fee next, s.feeCumRecord rail = .ok fee ∧ updated = some next ∧
        next = { fee with
          cumAu := fee.cumAu + treasuryAu
          settledCumAu := some (fee.settledCumAu.getD fee.cumAu + treasuryAu)
          updatedEpoch := max fee.updatedEpoch epoch } ∧
        guardianValidateFeeRecord next rail = .ok () := by
  unfold slashedFee at h
  split at h
  . next hzero =>
    rw [Except.pure_accepts_iff] at h
    exact .inl ⟨h.symm, hzero⟩
  . simp only [checks_iff] at h
    obtain ⟨fee, hfee, -, hvalid, rfl⟩ := h
    exact .inr ⟨fee, _, hfee, rfl, rfl, hvalid⟩

theorem railSlash_eq_ok {entry : RailSlash} (h : s.railSlash request rail = .ok entry) :
    RailSlashed s request rail entry := by
  simp only [railSlash, checks_iff, safeSubAu_eq_ok] at h
  obtain ⟨earning, hearning, hvalid, _, -, _, ⟨hshare, rfl⟩, _, hupdated, _, hbalance, _, hfee, rfl⟩ := h
  refine ⟨rfl, Nat.add_sub_cancel' hshare, ⟨earning, hearning, hvalid, hupdated⟩, ?_, slashedFee_eq_ok hfee⟩
  rcases slashedBalance_eq_ok hbalance with ⟨hnone, hno⟩ | h
  . refine .inl ⟨hnone, ?_⟩
    dsimp only
    rcases hno with hno | hzero
    . rw [hno]
      rfl
    . exact hzero
  . exact .inr h

theorem slashAmount_eq_ok {heldAu slashBps au : Nat} :
    slashAmount heldAu slashBps = .ok au ↔ slashBps ≤ 10000 ∧ heldAu * slashBps / 10000 = au := by
  simp only [slashAmount, safeMulDivAu, checks_iff, not_lt]

theorem share_le (au bps : Nat) (h : bps ≤ 10000) : au * bps / 10000 ≤ au :=
  Nat.div_le_of_le_mul (by rw [Nat.mul_comm 10000]; exact Nat.mul_le_mul_left au h)

structure SlashReadable (s : Ledger) (request : SlashRequest) (rail : Rail) : Prop where
  earning : ∃ earning, s.earningRecord request.provider rail = .ok earning ∧
    guardianValidateEarningRecord earning rail = .ok ()
  balance : ∀ beneficiary ∈ request.beneficiary, ∃ balance, s.balanceRecord beneficiary rail = .ok balance ∧
    guardianValidateBalanceRecord balance rail = .ok () ∧ (rail = .tap → balance.scope.isSome)
  fee : ∃ fee, s.feeCumRecord rail = .ok fee ∧ guardianValidateFeeRecord fee rail = .ok () ∧
    (rail = .tap → fee.scope.isSome)

theorem slashedFee_accepts (treasuryAu : Nat) (hepoch : isSafeInteger epoch) {fee : FeeRecord}
    (hread : s.feeCumRecord rail = .ok fee) (hvalid : guardianValidateFeeRecord fee rail = .ok ())
    (hscope : rail = .tap → fee.scope.isSome) :
    ∃ updated, s.slashedFee rail epoch treasuryAu = .ok updated := by
  have hfields := guardianValidateFeeRecord_accepts_iff.mp hvalid
  obtain ⟨hupdated, hswept, hsettled, htap⟩ := hfields
  have hnext : guardianValidateFeeRecord { fee with
      cumAu := fee.cumAu + treasuryAu
      settledCumAu := some (fee.settledCumAu.getD fee.cumAu + treasuryAu)
      updatedEpoch := max fee.updatedEpoch epoch } rail = .ok () := by
    rw [guardianValidateFeeRecord_accepts_iff]
    refine ⟨max_le hupdated hepoch, Nat.le_add_right_of_le hswept, ?_, fun h => ?_⟩
    . exact Nat.add_le_add_right hsettled treasuryAu
    . have hpool := htap h
      obtain ⟨_, hpool'⟩ := Option.isSome_iff_exists.mp (hscope h)
      rw [hpool'] at hpool
      dsimp only
      rw [hpool']
      exact hpool
  unfold slashedFee
  split
  . exact ⟨none, rfl⟩
  . rw [hread, Except.bind_of_ok, hvalid, Except.bind_of_ok]
    dsimp only
    rw [hnext]
    exact ⟨_, rfl⟩

theorem railSlash_accepts (h : SlashReadable s request rail) (hbps : request.slashBps ≤ 10000)
    (hepoch : isSafeInteger request.epoch) : ∃ entry, s.railSlash request rail = .ok entry := by
  obtain ⟨earning, hearning, hvalid⟩ := h.earning
  obtain ⟨fee, hfee, hfeeValid, hfeeScope⟩ := h.fee
  have hle := share_le earning.earned.heldAu request.slashBps hbps
  generalize hau : earning.earned.heldAu * request.slashBps / 10000 = forfeitedAu at hle
  obtain ⟨_, hupdated⟩ := slashedEarning_accepts hvalid hle
  have hshare : (if request.beneficiary.isNone then 0 else safeMulDivAu forfeitedAu 1 2) ≤ forfeitedAu := by
    unfold safeMulDivAu
    split
    . exact Nat.zero_le _
    . omega
  generalize hbeneficiary : (if request.beneficiary.isNone then 0 else safeMulDivAu forfeitedAu 1 2) =
    beneficiaryAu at hshare
  have hbalance : ∃ balance, s.slashedBalance request.beneficiary rail request.epoch beneficiaryAu =
    .ok balance := by
    cases hsome : request.beneficiary with
    | none => exact ⟨none, rfl⟩
    | some user =>
      obtain ⟨balance, hread, hbalanceValid, -⟩ := h.balance user hsome
      simp only [slashedBalance]
      split
      . exact ⟨none, rfl⟩
      . rw [hread, Except.bind_of_ok, hbalanceValid]
        exact ⟨_, rfl⟩
  obtain ⟨balance, hbalance⟩ := hbalance
  obtain ⟨_, hfeeUpdate⟩ := slashedFee_accepts (forfeitedAu - beneficiaryAu) hepoch hfee hfeeValid hfeeScope
  unfold railSlash
  rw [hearning, Except.bind_of_ok, hvalid, Except.bind_of_ok, slashAmount_eq_ok.mpr ⟨hbps, hau⟩,
    Except.bind_of_ok]
  dsimp only
  rw [hbeneficiary, safeSubAu_eq_ok.mpr ⟨hshare, rfl⟩, Except.bind_of_ok, hupdated, Except.bind_of_ok,
    hbalance, Except.bind_of_ok, hfeeUpdate]
  exact ⟨_, rfl⟩

end Ledger

namespace Accounts

variable {request : SlashRequest} {accounts : Accounts}

variable {entry : RailSlash} {rail : Rail}

theorem writeRailSlash_of_ne (h : rail ≠ entry.rail) (party : PublicKey) :
    (accounts.writeRailSlash request entry).earning.get (party, rail) = accounts.earning.get (party, rail) ∧
      (accounts.writeRailSlash request entry).balance.get (party, rail) = accounts.balance.get (party, rail) ∧
      (accounts.writeRailSlash request entry).fee.get rail = accounts.fee.get rail := by
  have hkey : ∀ other : PublicKey, (party, rail) ≠ (other, entry.rail) := by
    intro other heq
    exact h (Prod.mk.inj heq).2
  unfold writeRailSlash
  refine ⟨?_, ?_, ?_⟩
  . dsimp only
    split
    . exact Table.get_put_of_ne _ _ (hkey _)
    . rfl
  . dsimp only
    split
    . exact Table.get_put_of_ne _ _ (hkey _)
    . rfl
  . dsimp only
    split
    . exact Table.get_put_of_ne _ _ h
    . rfl

def AgreeOn (accounts accounts' : Accounts) (rail : Rail) : Prop :=
  (∀ party, accounts.earning.get (party, rail) = accounts'.earning.get (party, rail)) ∧
    (∀ party, accounts.balance.get (party, rail) = accounts'.balance.get (party, rail)) ∧
    accounts.fee.get rail = accounts'.fee.get rail

theorem AgreeOn.trans {first second third : Accounts} (h : first.AgreeOn second rail)
    (h' : second.AgreeOn third rail) : first.AgreeOn third rail :=
  ⟨fun party => (h.1 party).trans (h'.1 party), fun party => (h.2.1 party).trans (h'.2.1 party),
    h.2.2.trans h'.2.2⟩

theorem writeRailSlash_agreeOn_of_ne (h : rail ≠ entry.rail) :
    (accounts.writeRailSlash request entry).AgreeOn accounts rail :=
  ⟨fun party => (writeRailSlash_of_ne h party).1, fun party => (writeRailSlash_of_ne h party).2.1,
    (writeRailSlash_of_ne h 0).2.2⟩

theorem writeRailSlash_congr {accounts' : Accounts} (h : accounts.AgreeOn accounts' entry.rail) :
    (accounts.writeRailSlash request entry).AgreeOn (accounts'.writeRailSlash request entry) entry.rail := by
  obtain ⟨hearning, hbalance, hfee⟩ := h
  unfold writeRailSlash
  refine ⟨fun party => ?_, fun party => ?_, ?_⟩
  . dsimp only
    split
    . simp [Table.get_put, hearning]
    . exact hearning party
  . dsimp only
    split
    . simp [Table.get_put, hbalance]
    . exact hbalance party
  . dsimp only
    split
    . simp only [Table.get_put, hfee]
    . exact hfee

theorem writeRailSlashes_agreeOn_of_not_mem {entries : List RailSlash} (h : rail ∉ entries.map RailSlash.rail) :
    (entries.foldl (fun accounts entry => accounts.writeRailSlash request entry) accounts).AgreeOn
      accounts rail := by
  induction entries generalizing accounts with
  | nil => exact ⟨fun _ => rfl, fun _ => rfl, rfl⟩
  | cons entry entries ih =>
    rw [List.map_cons, List.mem_cons, not_or] at h
    rw [List.foldl_cons]
    exact (ih h.2).trans (writeRailSlash_agreeOn_of_ne h.1)

theorem writeRailSlashes_agreeOn (request : SlashRequest) (accounts : Accounts) {entries : List RailSlash}
    (hnodup : (entries.map RailSlash.rail).Nodup) (h : entry ∈ entries) :
    (entries.foldl (fun accounts entry => accounts.writeRailSlash request entry) accounts).AgreeOn
      (accounts.writeRailSlash request entry) entry.rail := by
  induction entries generalizing accounts with
  | nil => cases h
  | cons first entries ih =>
    rw [List.map_cons, List.nodup_cons] at hnodup
    rw [List.foldl_cons]
    rcases List.mem_cons.mp h with rfl | hmem
    . exact writeRailSlashes_agreeOn_of_not_mem hnodup.1
    . have hne : entry.rail ≠ first.rail := by
        intro heq
        exact hnodup.1 (heq ▸ List.mem_map_of_mem hmem)
      exact (ih _ hnodup.2 hmem).trans (writeRailSlash_congr (writeRailSlash_agreeOn_of_ne hne))

theorem writeRailSlashes_frame (request : SlashRequest) (accounts : Accounts) (entries : List RailSlash) :
    let written := entries.foldl (fun accounts entry => accounts.writeRailSlash request entry) accounts
    written.burn = accounts.burn ∧ written.liability = accounts.liability ∧
      written.liabilityIndex = accounts.liabilityIndex := by
  induction entries generalizing accounts with
  | nil => exact ⟨rfl, rfl, rfl⟩
  | cons entry entries ih =>
    rw [List.foldl_cons]
    exact ih _

end Accounts

theorem Registry.tombstoneProviderEnclaves_payments (reg : Registry) (provider : PublicKey)
    (enclaves : List Digest) : (reg.tombstoneProviderEnclaves provider enclaves).payments = reg.payments := by
  unfold tombstoneProviderEnclaves
  induction enclaves generalizing reg with
  | nil => rfl
  | cons _ enclaves ih =>
    rw [List.foldl_cons, ih]
    unfold tombstoneProviderEnclave
    split
    . rfl
    . rfl

theorem Registry.slashProvider_payments (reg : Registry) (request : SlashRequest)
    (provider : ProviderRecord) : (reg.slashProvider request provider).payments = reg.payments := by
  have hown := reg.tombstoneProviderEnclaves_payments request.provider
    (request.enclaveId.filter fun _ => request.tombstoneEnclave).toList
  unfold slashProvider
  dsimp only
  split
  . exact (Registry.tombstoneProviderEnclaves_payments _ _ _).trans hown
  . exact hown

namespace Ledger

variable {s s' : Ledger} {request : SlashRequest} {tx : Digest} {slash : SlashRecord}

structure Slashed (s : Ledger) (request : SlashRequest) (s' : Ledger) : Prop where
  rails : ∀ rail, ∃ entry, RailSlashed s request rail entry ∧
    s'.accounts.AgreeOn (s.accounts.writeRailSlash request entry) rail
  burn_eq : s'.accounts.burn = s.accounts.burn
  liability_eq : s'.accounts.liability = s.accounts.liability
  payments_eq : s'.registry.payments = s.registry.payments
  holds_eq : s'.holds = s.holds
  receipts_eq : s'.receipts = s.receipts
  epochs_eq : s'.epochs = s.epochs
  oversight_eq : s'.oversight = s.oversight
  payouts_eq : s'.payouts = s.payouts
  disputes_eq : s'.disputes = s.disputes
  deposits_eq : s'.deposits = s.deposits

theorem applyProviderSlash_rails (h : s.applyProviderSlash tx request = .ok (s', slash)) (rail : Rail) :
    ∃ entry, s.railSlash request rail = .ok entry ∧
      s'.accounts.AgreeOn (s.accounts.writeRailSlash request entry) rail := by
  simp only [applyProviderSlash, checks_iff] at h
  obtain ⟨_, -, entries, hentries, h⟩ := h
  obtain ⟨rfl, -⟩ := Prod.mk.inj h
  have hrails : entries.map RailSlash.rail = providerAcceptedRailOrder := by
    rw [Except.map_eq_of_mapM hentries (q := id) fun rail entry hentry =>
      (railSlash_eq_ok hentry).rail_eq, List.map_id]
  have hnodup : (entries.map RailSlash.rail).Nodup := by
    rw [hrails]
    decide
  obtain ⟨entry, hmem, hentry⟩ := Except.exists_of_mem_mapM hentries rail.mem_providerAcceptedRailOrder
  have hagree := Accounts.writeRailSlashes_agreeOn request s.accounts hnodup hmem
  rw [(railSlash_eq_ok hentry).rail_eq] at hagree
  exact ⟨entry, hentry, hagree⟩

theorem applyProviderSlash_eq_ok (h : s.applyProviderSlash tx request = .ok (s', slash)) :
    Slashed s request s' := by
  have hrails := applyProviderSlash_rails h
  simp only [applyProviderSlash, checks_iff] at h
  obtain ⟨_, -, entries, -, h⟩ := h
  obtain ⟨rfl, -⟩ := Prod.mk.inj h
  obtain ⟨hburn, hliability, -⟩ := Accounts.writeRailSlashes_frame request s.accounts entries
  refine ⟨fun rail => ?_, hburn, hliability, Registry.slashProvider_payments _ _ _, rfl, rfl, rfl, rfl,
    rfl, rfl, rfl⟩
  obtain ⟨entry, hentry, hagree⟩ := hrails rail
  exact ⟨entry, railSlash_eq_ok hentry, hagree⟩

theorem applyProviderSlash_accepts (tx : Digest)
    (hprovider : (s.registry.providers.get request.provider).isSome)
    (hreadable : ∀ rail, SlashReadable s request rail) (hbps : request.slashBps ≤ 10000)
    (hepoch : isSafeInteger request.epoch) : ∃ result, s.applyProviderSlash tx request = .ok result := by
  obtain ⟨provider, hprovider⟩ := Option.isSome_iff_exists.mp hprovider
  obtain ⟨_, hentries⟩ := Except.exists_mapM_iff.mpr
    fun rail (_ : rail ∈ providerAcceptedRailOrder) => railSlash_accepts (hreadable rail) hbps hepoch
  unfold applyProviderSlash
  rw [hprovider, requireSome, Except.bind_of_ok, hentries]
  exact ⟨_, rfl⟩

end Ledger

end Mayhem
