import Mayhem.Maturing
import Mayhem.SlashFacts
import Mayhem.Movement

namespace Mayhem

variable {buckets : List Holdback}

theorem normalizeHoldbackBuckets_of_inOrder {earned : Earned} (hstored : earned.holdbacks = some buckets)
    (hsound : ∀ b ∈ buckets, b.Sound) (h : InOrder buckets) :
    normalizeHoldbackBuckets earned = .ok buckets := by
  obtain ⟨next, hnext⟩ := addHoldbackBuckets_accepts hsound []
  obtain ⟨horder, hslots⟩ := addHoldbackBuckets_inOrder List.Pairwise.nil hnext
  obtain ⟨-, hnextSound, -⟩ := addHoldbackBuckets_eq_ok (by simp) hnext
  have heq : next = buckets := by
    apply eq_of_slotAu_eq horder (fun b hb => (hnextSound b hb).2.1) h (fun b hb => (hsound b hb).2.1)
    intro _
    rw [hslots, slotAu_nil, Nat.zero_add]
  unfold normalizeHoldbackBuckets
  rw [hstored, ← heq]
  exact heq ▸ hnext

def TakenNewestFirst (buckets : List Holdback) (au : Nat) (left : List Holdback) : Prop :=
  ∃ kept taken, buckets = kept ++ taken ∧ (holdbackBucketTotal taken = au ∧ left = kept ∨
      ∃ older bucket cutAu, kept = older ++ [bucket] ∧ 0 < cutAu ∧ cutAu < bucket.au ∧
        holdbackBucketTotal taken + cutAu = au ∧ left = older ++ [{ bucket with au := bucket.au - cutAu }])

theorem slashNewestFirst_taken {remaining : Nat} (h : (slashNewestFirst buckets remaining).2 = 0) :
    ∃ taken kept, buckets = taken ++ kept ∧
      (holdbackBucketTotal taken = remaining ∧ (slashNewestFirst buckets remaining).1 = kept ∨
        ∃ bucket older cutAu, kept = bucket :: older ∧ 0 < cutAu ∧ cutAu < bucket.au ∧
          holdbackBucketTotal taken + cutAu = remaining ∧
          (slashNewestFirst buckets remaining).1 = { bucket with au := bucket.au - cutAu } :: older) := by
  induction buckets generalizing remaining with
  | nil => exact ⟨[], [], rfl, .inl ⟨h.symm, rfl⟩⟩
  | cons bucket rest ih =>
    unfold slashNewestFirst at h ⊢
    split
    . next hzero => exact ⟨[], bucket :: rest, rfl, .inl ⟨hzero.symm, rfl⟩⟩
    . next hpos =>
      rw [if_neg hpos] at h
      split
      . next hle =>
        rw [if_pos hle] at h
        obtain ⟨taken, kept, rfl, hcases⟩ := ih h
        refine ⟨bucket :: taken, kept, rfl, ?_⟩
        rw [holdbackBucketTotal_cons]
        rcases hcases with ⟨htotal, hkept⟩ | ⟨cut, older, cutAu, hkept, hcutPos, hcut, htotal, hleft⟩
        . exact .inl ⟨by omega, hkept⟩
        . exact .inr ⟨cut, older, cutAu, hkept, hcutPos, hcut, by omega, hleft⟩
      . next _ =>
        refine ⟨[], bucket :: rest, rfl, .inr ⟨bucket, rest, remaining, rfl, ?_, ?_, ?_, rfl⟩⟩
        . omega
        . omega
        . exact Nat.zero_add _

theorem slashHoldbackBuckets_taken {left : List Holdback} {au : Nat}
    (h : slashHoldbackBuckets buckets au = .ok left) : TakenNewestFirst buckets au left := by
  simp only [slashHoldbackBuckets, checks_iff, not_not, ne_eq] at h
  obtain ⟨hzero, rfl⟩ := h
  obtain ⟨taken, kept, hsplit, hcases⟩ := slashNewestFirst_taken hzero
  have hbuckets : buckets = kept.reverse ++ taken.reverse := by
    rw [← List.reverse_append, ← hsplit, List.reverse_reverse]
  refine ⟨kept.reverse, taken.reverse, hbuckets, ?_⟩
  rw [holdbackBucketTotal_reverse]
  rcases hcases with ⟨htotal, hkept⟩ | ⟨bucket, older, cutAu, rfl, hpos, hcut, htotal, hleft⟩
  . exact .inl ⟨htotal, by rw [hkept]⟩
  . refine .inr ⟨older.reverse, bucket, cutAu, List.reverse_cons, hpos, hcut, htotal, ?_⟩
    rw [hleft, List.reverse_cons]

theorem slashHoldbackBuckets_zero (buckets : List Holdback) : slashHoldbackBuckets buckets 0 = .ok buckets := by
  have hzero : slashNewestFirst buckets.reverse 0 = (buckets.reverse, 0) := by
    cases buckets.reverse with
    | nil | cons => rfl
  unfold slashHoldbackBuckets
  rw [hzero]
  dsimp only
  rw [rejectIf_of_not (by simp), Except.bind_of_ok, List.reverse_reverse]
  rfl

theorem TakenNewestFirst.inOrder {left : List Holdback} {au : Nat} (h : TakenNewestFirst buckets au left)
    (horder : InOrder buckets) : InOrder left := by
  obtain ⟨_, _, rfl, ⟨-, rfl⟩ | ⟨_, bucket, _, rfl, -, -, -, rfl⟩⟩ := h
  . exact (List.pairwise_append.mp horder).1
  . -- a bucket that was cut keeps its slot
    have hkept := (List.pairwise_append.mp horder).1
    rw [List.pairwise_append] at hkept
    refine List.pairwise_append.mpr ⟨hkept.1, List.pairwise_singleton _ _, ?_⟩
    intro a ha _ hb
    rw [List.mem_singleton] at hb
    rw [hb]
    exact hkept.2.2 a ha bucket (List.mem_singleton_self bucket)

namespace Ledger

variable {s s' : Ledger} {request : SlashRequest} {rail : Rail}

structure Forfeited (s s' : Ledger) (request : SlashRequest) (rail : Rail) (before after : EarningRecord)
    (forfeitedAu beneficiaryAu treasuryAu : Nat) : Prop where
  before_read : s.earningRecord request.provider rail = .ok before
  after_read : s'.earningRecord request.provider rail = .ok after
  share : forfeitedAu = before.earned.heldAu * request.slashBps / 10000
  total : after.earned.totalAu + forfeitedAu = before.earned.totalAu
  held : after.earned.heldAu + forfeitedAu = before.earned.heldAu
  buckets : ∃ buckets left, normalizeHoldbackBuckets before.earned = .ok buckets ∧
    normalizeHoldbackBuckets after.earned = .ok left ∧ InOrder buckets ∧
    TakenNewestFirst buckets forfeitedAu left ∧ holdbackBucketTotal left = after.earned.heldAu ∧
    ∀ bucket ∈ left, 0 < bucket.au
  others : ∀ provider, provider ≠ request.provider → s'.earnedAu provider rail = s.earnedAu provider rail
  beneficiary : ∀ user, s'.balanceAu user rail =
    s.balanceAu user rail + if request.beneficiary = some user then beneficiaryAu else 0
  treasury : s'.feeCumAu rail = s.feeCumAu rail + treasuryAu
  shares : beneficiaryAu + treasuryAu = forfeitedAu

section Records

variable {entry : RailSlash} (h : RailSlashed s request rail entry)
  (hagree : s'.accounts.AgreeOn (s.accounts.writeRailSlash request entry) rail)
  (hpayments : s'.registry.payments = s.registry.payments)
include h hagree hpayments

theorem RailSlashed.balanceAu_eq (user : PublicKey) : s'.balanceAu user rail =
    s.balanceAu user rail + if request.beneficiary = some user then entry.beneficiaryAu else 0 := by
  obtain rfl := h.rail_eq
  have hstored := hagree.2.1 user
  rcases h.balance with ⟨hnone, hzero⟩ | ⟨beneficiary, balance, hto, hread, -, hsome⟩
  . have hsame : (s.accounts.writeRailSlash request entry).balance = s.accounts.balance := by
      simp only [Accounts.writeRailSlash, hnone]
      cases request.beneficiary <;> rfl
    rw [hsame] at hstored
    rw [balanceAu, balanceRecord_congr hpayments hstored, hzero, ite_self]
    rfl
  . simp only [Accounts.writeRailSlash, hto, hsome] at hstored
    rw [hto]
    by_cases huser : user = beneficiary
    . subst huser
      rw [Table.get_put_self] at hstored
      rw [balanceAu_of_read hread, balanceAu_of_read (balanceRecord_of_stored hpayments hread hstored rfl),
        if_pos rfl]
    . rw [Table.get_put_of_ne _ _ (by simp [huser])] at hstored
      rw [balanceAu, balanceRecord_congr hpayments hstored, if_neg (by simp [Ne.symm huser])]
      rfl

theorem RailSlashed.feeCumAu_eq : s'.feeCumAu rail = s.feeCumAu rail + entry.treasuryAu := by
  obtain rfl := h.rail_eq
  have hstored := hagree.2.2
  rcases h.fee with ⟨hnone, hzero⟩ | ⟨fee, _, hread, hsome, hnext, -⟩
  . simp only [Accounts.writeRailSlash, hnone] at hstored
    rw [feeCumAu, feeCumRecord_congr hpayments hstored, hzero]
    rfl
  . simp only [Accounts.writeRailSlash, hsome, Table.get_put_self] at hstored
    have hafter := feeCumRecord_of_stored hpayments hread hstored (by rw [hnext])
    rw [feeCumAu_of_read hread, feeCumAu_of_read hafter, hnext]

theorem RailSlashed.earningRecord_of_ne {provider : PublicKey} (hne : provider ≠ request.provider) :
    s'.earningRecord provider rail = s.earningRecord provider rail := by
  obtain rfl := h.rail_eq
  apply earningRecord_congr hpayments
  rw [hagree.1 provider]
  cases hentry : entry.earning with
  | none => simp [Accounts.writeRailSlash, hentry]
  | some => simp only [Accounts.writeRailSlash, hentry, Table.get_put_of_ne _ _ (by simp [hne] : (provider,
      entry.rail) ≠ (request.provider, entry.rail))]

theorem RailSlashed.earningRecord_eq {before after : EarningRecord}
    (hread : s.earningRecord request.provider rail = .ok before) (hafter : entry.earning.getD before = after)
    (hscope : after.scope = before.scope) : s'.earningRecord request.provider rail = .ok after := by
  obtain rfl := h.rail_eq
  have hstored := hagree.1 request.provider
  cases hentry : entry.earning with
  | none =>
    rw [hentry] at hafter
    simp only [Accounts.writeRailSlash, hentry] at hstored
    rw [earningRecord_congr hpayments hstored, hread]
    exact congrArg _ hafter
  | some =>
    rw [hentry] at hafter
    obtain rfl := hafter
    simp only [Accounts.writeRailSlash, hentry, Table.get_put_self] at hstored
    exact earningRecord_of_stored hpayments hread hstored hscope

end Records

theorem railSlash_forfeitedAu {entry : RailSlash} {before : EarningRecord}
    (h : s.railSlash request rail = .ok entry) (hread : s.earningRecord request.provider rail = .ok before) :
    entry.forfeitedAu = before.earned.heldAu * request.slashBps / 10000 := by
  simp only [railSlash, checks_iff, slashAmount_eq_ok] at h
  obtain ⟨_, hearning, -, forfeitedAu, ⟨-, hshare⟩, _, -, _, -, _, -, _, -, rfl⟩ := h
  obtain rfl := Except.ok.inj (hread.symm.trans hearning)
  exact hshare.symm

theorem slashedEarning_taken {before : EarningRecord} {forfeitedAu : Nat} {updated : Option EarningRecord}
    (hvalid : guardianValidateEarningRecord before rail = .ok ())
    (h : slashedEarning before rail forfeitedAu = .ok updated) :
    ∃ after, updated.getD before = after ∧ after.scope = before.scope ∧
      after.earned.totalAu + forfeitedAu = before.earned.totalAu ∧
      after.earned.heldAu + forfeitedAu = before.earned.heldAu ∧
      ∃ buckets left, normalizeHoldbackBuckets before.earned = .ok buckets ∧
        normalizeHoldbackBuckets after.earned = .ok left ∧ InOrder buckets ∧
        TakenNewestFirst buckets forfeitedAu left ∧ holdbackBucketTotal left = after.earned.heldAu ∧
        ∀ bucket ∈ left, 0 < bucket.au := by
  obtain ⟨-, hearned, -⟩ := guardianValidateEarningRecord_accepts_iff.mp hvalid
  simp only [slashedEarning, checks_iff, safeSubAu_eq_ok] at h
  obtain ⟨buckets, hbuckets, left, hleft, _, ⟨hheld, rfl⟩, _, ⟨htotal, rfl⟩, h⟩ := h
  obtain ⟨-, hsound, hsum⟩ := normalizeHoldbackBuckets_eq_ok hbuckets
  have horder := normalBuckets_inOrder hbuckets
  have htaken := slashHoldbackBuckets_taken hleft
  obtain ⟨hrest, hkept⟩ := slashHoldbackBuckets_eq_ok hleft
  rw [hearned.buckets_eq] at hsum
  split at h
  . next hnone =>
    rw [Except.pure_accepts_iff] at h
    subst h
    obtain ⟨-, rfl⟩ := hnone
    obtain rfl := Except.ok.inj ((slashHoldbackBuckets_zero buckets).symm.trans hleft)
    exact ⟨before, rfl, rfl, rfl, rfl, buckets, buckets, hbuckets, hbuckets, horder, htaken, hsum,
      fun bucket hmem => (hsound bucket hmem).2.1⟩
  . simp only [checks_iff] at h
    obtain ⟨_, -, rfl⟩ := h
    refine ⟨_, rfl, rfl, Nat.sub_add_cancel htotal, Nat.sub_add_cancel hheld, buckets, left, hbuckets, ?_, horder,
      htaken, ?_, fun bucket hmem => (hkept hsound bucket hmem).2.1⟩
    . exact normalizeHoldbackBuckets_of_inOrder rfl (hkept hsound) (htaken.inOrder horder)
    . rw [hrest, hsum, Option.getD_some]

/--
A slash takes its share from what is held on every rail, newest buckets first, and gives it to the beneficiary and
the operator. It is accepted for every known provider with valid records.
-/
theorem slash_takes_share (s : Ledger) (tx : Digest) (request : SlashRequest) :
    (∀ s' slash, s.applyProviderSlash tx request = .ok (s', slash) → ∀ rail, ∃ before after forfeitedAu
      beneficiaryAu treasuryAu, Forfeited s s' request rail before after forfeitedAu beneficiaryAu treasuryAu) ∧
    ((s.registry.providers.get request.provider).isSome → (∀ rail, SlashReadable s request rail) →
      request.slashBps ≤ 10000 → isSafeInteger request.epoch →
        ∃ result, s.applyProviderSlash tx request = .ok result) := by
  constructor
  . intro s' slash h rail
    have hpayments := (applyProviderSlash_eq_ok h).payments_eq
    obtain ⟨entry, hentry, hagree⟩ := applyProviderSlash_rails h rail
    have hslashed := railSlash_eq_ok hentry
    obtain ⟨before, hread, hvalid, hupdated⟩ := hslashed.earning
    obtain ⟨after, hafter, hscope, htotal, hheld, hbuckets⟩ := slashedEarning_taken hvalid hupdated
    refine ⟨before, after, entry.forfeitedAu, entry.beneficiaryAu, entry.treasuryAu, hread, ?_, ?_, htotal, hheld,
      hbuckets, ?_, hslashed.balanceAu_eq hagree hpayments, hslashed.feeCumAu_eq hagree hpayments,
      hslashed.shares⟩
    . exact hslashed.earningRecord_eq hagree hpayments hread hafter hscope
    . exact railSlash_forfeitedAu hentry hread
    . intro provider hne
      rw [earnedAu, hslashed.earningRecord_of_ne hagree hpayments hne]
      rfl
  . exact fun hprovider hreadable hbps hepoch => applyProviderSlash_accepts tx hprovider hreadable hbps hepoch

def heldLedger : Ledger :=
  { Ledger.empty with
    registry := { Registry.empty with
      payments := some ⟨.admin, some ⟨1, 50⟩, 10, 1, 51, none⟩
      providers := Table.empty.put 30 ⟨.active, [.tnk], [40], 0⟩ }
    accounts := { Ledger.empty.accounts with
      earning := Table.empty.put (30, .tnk) ⟨⟨200, 150, 0, some [⟨1, 100, none, false⟩, ⟨2, 50, none, false⟩], 2⟩,
        0, none, 0⟩ } }

def heldSlash : SlashRequest := ⟨30, 2, 4000, some 20, some 40, false, false⟩

/--
Two fifths of the held amount: all of the newer bucket and a part of the older one.
-/
theorem slash_takes_share_of_two_buckets : ∃ s' slash before after forfeitedAu beneficiaryAu treasuryAu,
      heldLedger.applyProviderSlash 7 heldSlash = .ok (s', slash) ∧
      Forfeited heldLedger s' heldSlash .tnk before after forfeitedAu beneficiaryAu treasuryAu ∧
      forfeitedAu = 60 ∧ after.earned.heldAu = 90 := by
  have haccepted : (heldLedger.applyProviderSlash 7 heldSlash).message = none := by decide +kernel
  obtain ⟨⟨s', slash⟩, hslash⟩ := Except.message_eq_none_iff.mp haccepted
  obtain ⟨before, after, forfeitedAu, beneficiaryAu, treasuryAu, hforfeited⟩ :=
    (slash_takes_share heldLedger 7 heldSlash).1 s' slash hslash .tnk
  have hread : heldLedger.earningRecord 30 .tnk =
      .ok ⟨⟨200, 150, 0, some [⟨1, 100, none, false⟩, ⟨2, 50, none, false⟩], 2⟩, 0, none, 0⟩ := rfl
  obtain rfl := Except.ok.inj (hread.symm.trans hforfeited.before_read)
  have hshare : forfeitedAu = 60 := hforfeited.share
  have hheld : after.earned.heldAu + forfeitedAu = 150 := hforfeited.held
  exact ⟨s', slash, _, after, forfeitedAu, beneficiaryAu, treasuryAu, hslash, hforfeited, hshare, by omega⟩

end Ledger

end Mayhem
