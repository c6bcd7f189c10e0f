import Mayhem.Lib.Census
import Mayhem.Dispute.Accepted

namespace Mayhem

namespace DisputeOp

def applyWhole (host : ReputationHost) (s : Ledger) (op : DisputeOp) : Ledger :=
  match op.message host s with
  | none => op.apply host s
  | some _ => s

end DisputeOp

namespace Ledger

variable {s t : Ledger}

def OpenedBy (user : PublicKey) (dispute : DisputeRecord) : Prop :=
  dispute.status = .opened ∧ dispute.openedBy = user

def OpenAgainst (provider : PublicKey) (dispute : DisputeRecord) : Prop :=
  dispute.status = .opened ∧ dispute.provider = provider

def openerOpenCount (s : Ledger) (user : PublicKey) : Nat := (s.disputes.openerOpenCount.get user).getD 0

def providerOpenCount (s : Ledger) (provider : PublicKey) : Nat :=
  (s.oversight.providerOpenDisputes.get provider).getD 0

structure DisputesCounted (s : Ledger) : Prop where
  numbered : s.DisputesNumbered
  opener : ∀ user, s.disputes.record.census (OpenedBy user) = s.openerOpenCount user
  provider : ∀ provider, s.disputes.record.census (OpenAgainst provider) = s.providerOpenCount provider

variable {dispute : DisputeRecord} {id : Nat}

theorem census_put_opened {record : Table Nat DisputeRecord} {field : DisputeRecord → PublicKey}
    {counts : Table PublicKey Nat} {count : Nat}
    (h : ∀ key, record.census (fun d => d.status = .opened ∧ field d = key) = ((counts.get key).getD 0 : Nat))
    (hnew : record.get id = none) (hopened : dispute.status = .opened)
    (hcount : disputeOpenCount counts (field dispute) = .ok count) (key : PublicKey) :
    (record.put id dispute).census (fun d => d.status = .opened ∧ field d = key) =
      (((counts.put (field dispute) (count + 1)).get key).getD 0 : Nat) := by
  obtain ⟨hstored, -⟩ := disputeOpenCount_eq_ok.mp hcount
  by_cases hkey : key = field dispute
  . subst hkey
    rw [Table.census_put_of_enters (Table.not_mem_holders hnew) ⟨hopened, rfl⟩, h, Table.get_put_self, hstored]
    rfl
  . rw [Table.census_put_of_stays (Table.not_mem_holders hnew) (fun hin => hkey hin.2.symm), h,
      Table.get_put_of_ne _ _ hkey]

theorem census_put_closed {record : Table Nat DisputeRecord} {closed : DisputeRecord}
    {field : DisputeRecord → PublicKey} {counts : Table PublicKey Nat} {count : Nat}
    (h : ∀ key, record.census (fun d => d.status = .opened ∧ field d = key) = ((counts.get key).getD 0 : Nat))
    (hold : record.get id = some dispute) (hopened : dispute.status = .opened)
    (hclosed : closed.status ≠ .opened) (hcount : disputeOpenCount counts (field dispute) = .ok count)
    (hpos : 1 ≤ count) (key : PublicKey) :
    (record.put id closed).census (fun d => d.status = .opened ∧ field d = key) =
      (((counts.put (field dispute) (count - 1)).get key).getD 0 : Nat) := by
  obtain ⟨hstored, -⟩ := disputeOpenCount_eq_ok.mp hcount
  by_cases hkey : key = field dispute
  . subst hkey
    have hin : id ∈ record.holders (fun d => d.status = .opened ∧ field d = field dispute) :=
      (Table.mem_holders_iff hold).mpr ⟨hopened, rfl⟩
    have hless := Table.census_put_of_leaves (v := closed) hin (fun hin => hclosed hin.1)
    rw [h, hstored] at hless
    rw [Table.get_put_self, Option.getD_some]
    apply (ENat.add_left_injective_of_ne_top (n := 1) (by simp))
    dsimp only
    rw [hless]
    norm_cast
    omega
  . rw [Table.census_put_of_stays (fun hin => hkey ((Table.mem_holders_iff hold).mp hin).2.symm)
      (fun hin => hclosed hin.1), h, Table.get_put_of_ne _ _ hkey]

theorem closeDisputeCounts_counts {counted : Ledger} (h : s.closeDisputeCounts dispute = .ok counted) :
    ∃ openerCount providerCount, disputeOpenCount s.disputes.openerOpenCount dispute.openedBy = .ok openerCount ∧
      disputeOpenCount s.oversight.providerOpenDisputes dispute.provider = .ok providerCount ∧
      1 ≤ openerCount ∧ 1 ≤ providerCount ∧
      counted = { s with
        disputes := { s.disputes with
          openerOpenCount := s.disputes.openerOpenCount.put dispute.openedBy (openerCount - 1) }
        oversight := { s.oversight with
          providerOpenDisputes :=
            s.oversight.providerOpenDisputes.put dispute.provider (providerCount - 1) } } := by
  simp only [closeDisputeCounts, checks_iff, not_or, Nat.not_lt] at h
  obtain ⟨openerCount, hopener, providerCount, hprovider, ⟨hopenerPos, hproviderPos⟩, rfl⟩ := h
  exact ⟨openerCount, providerCount, hopener, hprovider, hopenerPos, hproviderPos, rfl⟩

theorem DisputesNumbered.writeDispute {sender : PublicKey} {value : DisputeValue} {plan : DisputePlan}
    (h : s.DisputesNumbered) (hplan : Fileable s sender value plan) : (s.writeDispute plan).DisputesNumbered := by
  intro disputeId dispute hstored
  show disputeId < plan.record.disputeId + 1
  by_cases hid : disputeId = plan.record.disputeId
  . omega
  . have hlt := h disputeId dispute ((Table.get_put_of_ne _ _ hid).symm.trans hstored)
    have := hplan.disputeId_eq
    omega

theorem DisputesNumbered.congr (h : s.DisputesNumbered) (heq : t.disputes = s.disputes) : t.DisputesNumbered := by
  unfold DisputesNumbered
  rw [heq]
  exact h

theorem DisputesNumbered.mark {closed : DisputeRecord} (h : s.DisputesNumbered)
    (hstored : s.disputes.record.get id = some dispute)
    (hrecord : t.disputes.record = s.disputes.record.put id closed)
    (hnext : t.disputes.next = s.disputes.next) : t.DisputesNumbered := by
  intro disputeId dispute' hget
  rw [hnext]
  rw [hrecord] at hget
  by_cases hid : disputeId = id
  . exact h disputeId dispute (hid ▸ hstored)
  . exact h disputeId dispute' ((Table.get_put_of_ne _ _ hid).symm.trans hget)

/-! What operations do that write everything or nothing -/

inductive DisputeEffect (host : ReputationHost) (s : Ledger) : Ledger → Prop
  | kept : DisputeEffect host s s
  | filed {sender : PublicKey} {value : DisputeValue} {plan : DisputePlan}
    (hplan : Fileable s sender value plan) :
      DisputeEffect host s (s.writeDispute plan)
  | judged {sender : PublicKey} {tx : Digest} {value : DisputeResolveValue} {t : Ledger}
      (hresolved : Resolved s host sender tx value t) : DisputeEffect host s t
  | lapsed {value : DisputeExpireValue} {t : Ledger} (hexpired : Expired s value t) : DisputeEffect host s t

theorem DisputeOp.effect (host : ReputationHost) (s : Ledger) (op : DisputeOp) :
    DisputeEffect host s (op.applyWhole host s) := by
  unfold DisputeOp.applyWhole
  split
  . next haccepted =>
    cases op with
    | file sender value =>
      obtain ⟨record, hok⟩ := Except.message_eq_none_iff.mp haccepted
      obtain ⟨_, hplan, -, hwrite⟩ := dispute_eq_ok hok
      dsimp only [DisputeOp.apply]
      rw [hwrite]
      exact .filed hplan
    | resolve sender _ value =>
      obtain ⟨_, hok⟩ := Except.message_eq_none_iff.mp haccepted
      obtain ⟨hresolved⟩ := disputeResolve_eq_ok hok
      exact .judged hresolved
    | expire value =>
      obtain ⟨record, hok⟩ := Except.message_eq_none_iff.mp haccepted
      obtain ⟨hexpired⟩ := disputeExpire_eq_ok hok
      exact .lapsed hexpired
  . exact .kept

theorem DisputesNumbered.after {host : ReputationHost} (h : s.DisputesNumbered)
    (heffect : DisputeEffect host s t) : t.DisputesNumbered := by
  cases heffect with
  | kept => exact h
  | filed hplan => exact h.writeDispute hplan
  | judged hresolved => exact h.mark hresolved.judgeable.stored hresolved.marks.1 hresolved.marks.2
  | lapsed hexpired => exact h.mark hexpired.stored hexpired.marks.1 hexpired.marks.2

namespace DisputesCounted

theorem congr (h : s.DisputesCounted) (hdisputes : t.disputes = s.disputes)
    (hcounts : t.oversight.providerOpenDisputes = s.oversight.providerOpenDisputes) : t.DisputesCounted := by
  refine ⟨?_, ?_, ?_⟩
  . intro disputeId dispute
    rw [hdisputes]
    exact h.numbered disputeId dispute
  . intro user
    rw [openerOpenCount, hdisputes]
    exact h.opener user
  . intro provider
    rw [providerOpenCount, hdisputes, hcounts]
    exact h.provider provider

theorem writeDispute {sender : PublicKey} {value : DisputeValue} {plan : DisputePlan} (h : s.DisputesCounted)
    (hplan : Fileable s sender value plan) : (s.writeDispute plan).DisputesCounted := by
  have hnew : s.disputes.record.get plan.record.disputeId = none := by
    rw [hplan.disputeId_eq, Option.eq_none_iff_forall_ne_some]
    intro dispute hstored
    exact Nat.lt_irrefl _ (h.numbered _ dispute hstored)
  exact ⟨h.numbered.writeDispute hplan, census_put_opened h.opener hnew hplan.opened hplan.openerCount_eq,
    census_put_opened h.provider hnew hplan.opened hplan.providerCount_eq⟩

theorem close {judged counted : Ledger} {closed : DisputeRecord} (h : s.DisputesCounted)
    (hdisputes : judged.disputes = s.disputes) (hoversight : judged.oversight = s.oversight)
    (hstored : s.disputes.record.get id = some dispute) (hopened : dispute.status = .opened)
    (hclosed : closed.status ≠ .opened) (hcount : judged.closeDisputeCounts dispute = .ok counted)
    (ht : t.disputes = { counted.disputes with record := counted.disputes.record.put id closed })
    (hcounts : t.oversight = counted.oversight) : t.DisputesCounted := by
  obtain ⟨_, _, hopener, hprovider, hopenerPos, hproviderPos, rfl⟩ := closeDisputeCounts_counts hcount
  rw [hdisputes] at hopener ht
  rw [hoversight] at hprovider hcounts
  refine ⟨h.numbered.mark hstored (by rw [ht]) (by rw [ht]), ?_, ?_⟩
  . intro user
    rw [openerOpenCount, ht]
    exact census_put_closed h.opener hstored hopened hclosed hopener hopenerPos user
  . intro provider
    rw [providerOpenCount, ht, hcounts]
    exact census_put_closed h.provider hstored hopened hclosed hprovider hproviderPos provider

theorem after {host : ReputationHost} (h : s.DisputesCounted) (heffect : DisputeEffect host s t) :
    t.DisputesCounted := by
  cases heffect with
  | kept => exact h
  | filed hplan => exact h.writeDispute hplan
  | judged hresolved =>
    have hframe := hresolved.frame
    obtain ⟨verdict, _, judged, _, counted, hjudge, _, _, hcount, rfl⟩ := hresolved
    have hclosed : (resolved verdict).status ≠ .opened := DisputeStatus.noConfusion
    exact h.close hframe.1 hframe.2 hjudge.stored hjudge.opened hclosed hcount rfl rfl
  | lapsed hexpired =>
    obtain ⟨dispute, _, _, counted, hstored, hopened, -, -, -, hcount, rfl⟩ := hexpired
    have hclosed : (expired dispute).status ≠ .opened := DisputeStatus.noConfusion
    exact h.close rfl rfl hstored hopened hclosed hcount rfl rfl

end DisputesCounted

inductive CountedStep (host : ReputationHost) : Ledger → Ledger → Prop
  | op (s : Ledger) (op : DisputeOp) : CountedStep host s (op.applyWhole host s)
  | other (s t : Ledger) (hdisputes : t.disputes = s.disputes)
    (hcounts : t.oversight.providerOpenDisputes = s.oversight.providerOpenDisputes) : CountedStep host s t

theorem DisputesCounted.of_run {host : ReputationHost} (h : s.DisputesCounted)
    (hrun : Relation.ReflTransGen (CountedStep host) s t) : t.DisputesCounted := by
  refine Run.invariant DisputesCounted h ?_ hrun
  intro u _ hu hstep
  cases hstep with
  | op op => exact hu.after (DisputeOp.effect host u op)
  | other _ hdisputes hcounts => exact hu.congr hdisputes hcounts

structure WithoutDisputes (s : Ledger) : Prop where
  record : s.disputes.record = Table.empty
  openerOpenCount : s.disputes.openerOpenCount = Table.empty
  providerOpenDisputes : s.oversight.providerOpenDisputes = Table.empty

theorem WithoutDisputes.counted (h : s.WithoutDisputes) : s.DisputesCounted := by
  refine ⟨?_, ?_, ?_⟩
  . intro _ _ hstored
    rw [h.record] at hstored
    cases hstored
  . intro _
    rw [Ledger.openerOpenCount, h.record, h.openerOpenCount, Table.census_empty]
    rfl
  . intro _
    rw [providerOpenCount, h.record, h.providerOpenDisputes, Table.census_empty]
    rfl

/--
The stored counts are the numbers of open disputes, and earnings of a provider are released as those of a disputed
one exactly while there is one against it.
-/
theorem open_counts_exact {host : ReputationHost} (hstart : s.WithoutDisputes)
    (hrun : Relation.ReflTransGen (CountedStep host) s t) :
    (∀ user, t.disputes.record.census (OpenedBy user) = t.openerOpenCount user) ∧
    ∀ provider, t.disputes.record.census (OpenAgainst provider) = t.providerOpenCount provider ∧
      (providerHasOpenDispute t.oversight provider = .ok false ↔
        t.disputes.record.census (OpenAgainst provider) = 0) ∧
      (isSafeInteger (t.providerOpenCount provider) → (providerHasOpenDispute t.oversight provider = .ok true ↔
          0 < t.disputes.record.census (OpenAgainst provider))) := by
  have hcounted := hstart.counted.of_run hrun
  refine ⟨hcounted.opener, fun provider => ⟨hcounted.provider provider, ?_, ?_⟩⟩
  . rw [hcounted.provider provider]
    simp only [providerHasOpenDispute, checks_iff, not_not, decide_eq_false_iff_not, providerOpenCount,
      Nat.cast_eq_zero]
    constructor
    . intro h
      omega
    . intro h
      rw [h]
      exact ⟨Nat.zero_le _, Nat.lt_irrefl 0⟩
  . intro hsafe
    rw [hcounted.provider provider]
    simp only [providerHasOpenDispute, checks_iff, not_not, decide_eq_true_eq, providerOpenCount,
      pos_iff_ne_zero, ne_eq, Nat.cast_eq_zero]
    constructor
    . intro h
      exact h.2
    . intro h
      exact ⟨hsafe, h⟩

/--
A dispute is filed against a provider and then resolved: its earnings are gated in between.
-/
theorem open_counts_exact_on_grievance : (∃ filed, Relation.ReflTransGen (CountedStep plainReputationHost)
        (grievanceLedger Ledger.empty.reputation) filed ∧
      filed.disputes.record.census (OpenAgainst 30) = 1 ∧
      providerHasOpenDispute filed.oversight 30 = .ok true) ∧
    ∃ judged, Relation.ReflTransGen (CountedStep plainReputationHost)
        (grievanceLedger Ledger.empty.reputation) judged ∧
      judged.disputes.record.census (OpenAgainst 30) = 0 ∧ (judged.disputes.record.get 1).isSome ∧
      providerHasOpenDispute judged.oversight 30 = .ok false := by
  have hstart : (grievanceLedger Ledger.empty.reputation).WithoutDisputes := ⟨rfl, rfl, rfl⟩
  obtain ⟨filed, hfiled⟩ : ∃ filed, filed = grievance.applyWhole plainReputationHost
    (grievanceLedger Ledger.empty.reputation) := ⟨_, rfl⟩
  obtain ⟨judged, hjudged⟩ : ∃ judged, judged = verdictOnGrievance.applyWhole plainReputationHost filed :=
    ⟨_, rfl⟩
  have hfacts : filed.providerOpenCount 30 = 1 ∧ judged.providerOpenCount 30 = 0 ∧
      (judged.disputes.record.get 1).isSome := by
    rw [hjudged, hfiled]
    decide +kernel
  obtain ⟨hfiledCount, hjudgedCount, hkept⟩ := hfacts
  have hfiled := Relation.ReflTransGen.single
    (hfiled ▸ CountedStep.op (grievanceLedger Ledger.empty.reputation) grievance)
  have hjudged := hfiled.tail (hjudged ▸ CountedStep.op filed verdictOnGrievance)
  obtain ⟨hcensus, -, hgate⟩ := (open_counts_exact hstart hfiled).2 30
  obtain ⟨hcensus', hfree, -⟩ := (open_counts_exact hstart hjudged).2 30
  rw [hfiledCount] at hcensus hgate
  rw [hjudgedCount] at hcensus'
  refine ⟨⟨filed, hfiled, hcensus, (hgate (by decide)).mpr ?_⟩, judged, hjudged, hcensus', hkept,
    hfree.mpr hcensus'⟩
  rw [hcensus]
  exact zero_lt_one

end Ledger

end Mayhem
