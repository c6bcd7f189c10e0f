import Mayhem.Lib.Run
import Mayhem.Host
import Mayhem.Settlement.Facts
import Mayhem.Price

namespace Mayhem
namespace Ledger

variable {crypto : Crypto} {s : Ledger}

theorem auOwedCum_unique {reg reg' : Registry} {body : ReceiptBody} {au : Nat}
    (h : validateReceiptBody reg body = .ok ())
    (h' : validateReceiptBody reg' { body with auOwedCum := au } = .ok ()) : au = body.auOwedCum := by
  have hau := auOwedCum_of_receiptBody h
  have hau' := auOwedCum_of_receiptBody h'
  exact Except.ok.inj (hau'.symm.trans hau)

structure OverCredited (crypto : Crypto) (commit : EpochCommit) (proofEpoch : Nat)
    (receipt : ReceiptEnvelope) (claimed : Nat) : Prop where
  in_window : proofEpoch ≤ commit.provisionalUntilEpoch
  exceeds : receipt.body.auOwedCum < claimed
  root : commit.roots.use = crypto.usageLeaf { receipt with body := { receipt.body with auOwedCum := claimed } }

variable {commit : EpochCommit}

theorem overCredited_of_validate {proofEpoch : Nat} {receipt : ReceiptEnvelope} {claimed previous : Nat}
    {proof : OverCreditProof}
    (h : validateOverCreditFraudProof crypto commit proofEpoch receipt claimed previous = .ok proof) :
    OverCredited crypto commit proofEpoch receipt claimed := by
  simp only [validateOverCreditFraudProof, checks_iff, safeSubAu_eq_ok] at h
  obtain ⟨-, _, -, -, _, ⟨_, rfl⟩, _, ⟨_, rfl⟩, _, -, hroot, -⟩ := h
  exact ⟨by omega, by omega, not_not.mp hroot⟩

theorem not_overCredited_of_honest (hleaf : Function.Injective crypto.usageLeafHash) {reg reg' : Registry}
    {proofEpoch : Nat} {honest receipt : ReceiptEnvelope} {claimed : Nat}
    (hhonest : validateReceiptBody reg honest.body = .ok ())
    (hroot : commit.roots.use = crypto.usageLeaf honest)
    (hreceipt : validateReceiptBody reg' receipt.body = .ok ()) :
    ¬ OverCredited crypto commit proofEpoch receipt claimed := by
  intro hover
  have hleaves := hleaf (hroot.symm.trans hover.root)
  have hbody : honest.body = { receipt.body with auOwedCum := claimed } := congrArg ReceiptLeaf.body hleaves
  rw [hbody] at hhonest
  exact hover.exceeds.ne' (auOwedCum_unique hreceipt hhonest)

inductive ChallengeStep (crypto : Crypto) : Ledger → Ledger → Prop
  | epochCommit (s : Ledger) (sender : PublicKey) (epoch time : Nat) (roots : EpochRoots)
      (totals : EpochTotals) :
      ChallengeStep crypto s (s.epochCommit crypto sender epoch time roots totals).1
  | fraudProof (s : Ledger) (sender : PublicKey) (tx : Digest) (value : FraudProofValue) :
      ChallengeStep crypto s (s.fraudProof crypto sender tx value).1
  | page (s : Ledger) (sender : PublicKey) (key : Digest) (value : TargetedEpochValue) :
      ChallengeStep crypto s (s.applyTargetedEpochFeature crypto sender key value).1
  | pageZero (s : Ledger) (sender : PublicKey) (key : Digest) (value : CommitPageZeroValue) :
      ChallengeStep crypto s (s.applyCommitTargetedEpochPageZeroFeature crypto sender key value).1
  | other {s s' : Ledger} (hcommit : s'.epochs.commit = s.epochs.commit)
      (hfraud : s'.epochs.fraud = s.epochs.fraud) : ChallengeStep crypto s s'

def ChallengeReachable (crypto : Crypto) : Ledger → Prop :=
  Relation.ReflTransGen (ChallengeStep crypto) Ledger.empty

structure KeepsChallenges (s s' : Ledger) : Prop where
  void_stays : ∀ epoch commit, s.epochs.commit.get epoch = some commit → commit.status = .void →
    s'.epochs.commit.get epoch = some commit
  fraud_eq : s'.epochs.fraud = s.epochs.fraud

theorem KeepsChallenges.refl (s : Ledger) : KeepsChallenges s s := ⟨fun _ _ h _ => h, rfl⟩

variable {s' : Ledger}

theorem KeepsChallenges.of_eq (hcommit : s'.epochs.commit = s.epochs.commit)
    (hfraud : s'.epochs.fraud = s.epochs.fraud) : KeepsChallenges s s' :=
  ⟨fun _ _ h _ => hcommit ▸ h, hfraud⟩

theorem KeepsChallenges.of_put {epoch : Nat} (hcommit : s'.epochs.commit = s.epochs.commit.put epoch commit)
    (hfraud : s'.epochs.fraud = s.epochs.fraud)
    (hfree : ∀ existing, s.epochs.commit.get epoch = some existing → existing.status ≠ .void) :
    KeepsChallenges s s' := by
  refine ⟨fun epoch' existing hexisting hvoid => ?_, hfraud⟩
  have hne : epoch' ≠ epoch := by
    rintro rfl
    exact hfree existing hexisting hvoid
  rw [hcommit, Table.get_put_of_ne _ _ hne, hexisting]

theorem epochCommit_keepsChallenges (s : Ledger) (sender : PublicKey) (epoch time : Nat)
    (roots : EpochRoots) (totals : EpochTotals) :
    KeepsChallenges s (s.epochCommit crypto sender epoch time roots totals).1 := by
  unfold epochCommit
  cases hprepare : s.prepareCommit crypto sender epoch time roots totals with
  | error => exact .refl s
  | ok found =>
    obtain ⟨written, _⟩ := found
    cases written with
    | none => exact .refl s
    | some =>
      refine .of_put rfl rfl fun existing hexisting => ?_
      -- a new commit is only written where there was none
      simp only [prepareCommit, hexisting, checks_iff, Prod.mk.injEq, reduceCtorEq, false_and, and_false,
        exists_false] at hprepare

variable {sender : PublicKey}

theorem transition_not_void {value : CommitPageZeroValue} {transition : CommitTransition}
    {existing : EpochCommit} (h : s.prepareTargetedEpochCommitTransition crypto sender value = .ok transition)
    (hexisting : s.epochs.commit.get value.epoch = some existing) : existing.status ≠ .void := by
  simp only [prepareTargetedEpochCommitTransition, hexisting, checks_iff] at h
  obtain ⟨_, -, _, -, -, -, -, h⟩ := h
  split at h
  . simp only [checks_iff, not_or] at h
    rw [not_not.mp h.1.1]
    decide
  . simp only [validateSupersession, checks_iff, not_or] at h
    rw [not_not.mp h.1.1.1]
    decide

theorem writeApply_keepsChallenges {plan : ApplyPlan}
    (hfree : ∀ transition existing, plan.commit = some transition →
      s.epochs.commit.get plan.epoch = some existing → existing.status ≠ .void) :
    KeepsChallenges s (s.writeApply plan) := by
  cases hnew : plan.newCommit with
  | none =>
    refine .of_eq ?_ rfl
    simp [writeApply, Epochs.writeApply, hnew]
  | some transition =>
    have hcommit : plan.commit = some transition := (Option.filter_eq_some_iff.mp hnew).1
    have hwritten : (s.writeApply plan).epochs.commit = s.epochs.commit.put plan.epoch transition.record := by
      simp [writeApply, Epochs.writeApply, hnew]
    exact .of_put hwritten rfl fun existing => hfree transition existing hcommit

theorem PageOutcome.keepsChallenges {key : Digest} {value : TargetedEpochValue}
    {transition : Option CommitTransition} {outcome : Outcome ApplyResult}
    (houtcome : PageOutcome crypto s sender key value transition outcome)
    (hfree : ∀ found existing, transition = some found →
      s.epochs.commit.get value.epoch = some existing → existing.status ≠ .void) :
    KeepsChallenges s outcome.1 := by
  have hwrite : ∀ feature plan, s.prepareFeature key value transition = .ok feature →
      s.prepareApply crypto sender key value feature.options = .ok (some plan) →
      KeepsChallenges s (s.writeApply plan) := by
    intro feature plan hfeature hplan
    obtain ⟨page⟩ := newPage_of_plan hplan
    refine writeApply_keepsChallenges fun found existing hfound hexisting => ?_
    rw [page.plan_commit_eq, (prepareFeature_eq_ok hfeature).transition_eq] at hfound
    exact hfree found existing hfound (page.epoch_eq ▸ hexisting)
  cases houtcome with
  | rejected | replayed => exact .refl s
  | stopped feature plan _ hfeature hplan => exact hwrite feature plan hfeature hplan
  | settled feature plan _ hfeature hplan =>
    have hkeeps := hwrite feature plan hfeature hplan
    exact ⟨hkeeps.void_stays, hkeeps.fraud_eq⟩

def Justifies (crypto : Crypto) (commit : EpochCommit) : FraudProofPayload → Prop
  | .overCredit _ proofEpoch receipt claimed _ =>
    (∃ reg, validateReceiptBody reg receipt.body = .ok ()) ∧ OverCredited crypto commit proofEpoch receipt claimed
  | .priceDerivation _ _ _ _ _ _ => True

def ProofsJustified (crypto : Crypto) (s : Ledger) : Prop :=
  ∀ epoch proofHash, (s.epochs.fraud.get (epoch, proofHash)).isSome →
    ∃ commit payload, s.epochs.commit.get epoch = some commit ∧ commit.status = .void ∧
      crypto.fraudProofHash payload = proofHash ∧ Justifies crypto commit payload

theorem KeepsChallenges.proofsJustified (hkeeps : KeepsChallenges s s') (hs : ProofsJustified crypto s) :
    ProofsJustified crypto s' := by
  intro epoch proofHash hproof
  rw [hkeeps.fraud_eq] at hproof
  obtain ⟨commit, payload, hcommit, hvoid, hhash, hjust⟩ := hs epoch proofHash hproof
  exact ⟨commit, payload, hkeeps.void_stays epoch commit hcommit hvoid, hvoid, hhash, hjust⟩

variable {value : FraudProofValue} {proofHash : Digest} {finding : Option FraudFinding}

theorem overCreditFinding_eq_ok (h : s.overCreditFinding crypto commit value = .ok (proofHash, finding)) :
    ∃ receipt claimed previous, validateReceiptBody s.registry receipt.body = .ok () ∧
      proofHash = crypto.fraudProofHash
        (.overCredit value.epoch value.proofEpoch receipt claimed previous) ∧
      match finding with
      | none => (s.epochs.fraud.get (value.epoch, proofHash)).isSome
      | some found => found.proofHash = proofHash ∧
        OverCredited crypto commit value.proofEpoch receipt claimed := by
  simp only [overCreditFinding, checks_iff] at h
  obtain ⟨source, -, claimed, -, receipt, hreceipt, -, h⟩ := h
  obtain ⟨hbody, rfl⟩ := normalizeReceiptEnvelope_eq_ok.mp hreceipt
  refine ⟨source, claimed, value.previousAuOwedCum.getD 0, hbody, ?_⟩
  split at h
  . next hstored =>
    simp only [checks_iff, Prod.mk.injEq] at h
    obtain ⟨rfl, rfl⟩ := h
    exact ⟨rfl, hstored⟩
  . simp only [checks_iff, Prod.mk.injEq] at h
    obtain ⟨_, hproof, rfl, rfl⟩ := h
    exact ⟨rfl, rfl, overCredited_of_validate hproof⟩

theorem priceDerivationFinding_eq_ok
    (h : s.priceDerivationFinding crypto commit value = .ok (proofHash, finding)) :
    value.proofEpoch ≤ commit.provisionalUntilEpoch ∧
      (∃ usage expected derivation, proofHash = crypto.fraudProofHash (.priceDerivation value.epoch
        value.proofEpoch usage expected commit.roots.price derivation)) ∧
      ∀ found, finding = some found → found.proofHash = proofHash := by
  simp only [priceDerivationFinding, checks_iff] at h
  obtain ⟨usage, -, _, hproof, h⟩ := h
  simp only [validatePriceDerivationFraudProof, checks_iff] at hproof
  refine ⟨not_lt.mp hproof.2.1, ?_⟩
  split at h
  . simp only [checks_iff, Prod.mk.injEq] at h
    obtain ⟨rfl, rfl⟩ := h
    exact ⟨⟨_, _, _, rfl⟩, fun _ hfound => by cases hfound⟩
  . simp only [checks_iff, Prod.mk.injEq] at h
    obtain ⟨rfl, rfl⟩ := h
    exact ⟨⟨_, _, _, rfl⟩, fun _ hfound => by cases hfound; rfl⟩

theorem prepareFraudProof_eq_ok (h : s.prepareFraudProof crypto value = .ok (commit, proofHash, finding)) :
    ∃ reason, value.reason = some reason ∧ s.epochs.commit.get value.epoch = some commit ∧
      s.fraudFinding crypto commit value reason = .ok (proofHash, finding) ∧
      validateChallenge commit value.proofEpoch finding = .ok () := by
  simp only [prepareFraudProof, checks_iff, Prod.exists, Prod.mk.injEq] at h
  obtain ⟨reason, hreason, -, _, hcommit, _, _, hfinding, hchallenge, rfl, rfl, rfl⟩ := h
  exact ⟨reason, hreason, hcommit, hfinding, hchallenge⟩

theorem prepareFraudProof_eq_some {finding : FraudFinding}
    (h : s.prepareFraudProof crypto value = .ok (commit, proofHash, some finding)) :
    s.epochs.commit.get value.epoch = some commit ∧ commit.status ≠ .void ∧
      ∃ payload, crypto.fraudProofHash payload = finding.proofHash ∧ Justifies crypto commit payload := by
  obtain ⟨reason, -, hcommit, hfinding, hchallenge⟩ := prepareFraudProof_eq_ok h
  simp only [validateChallenge, checks_iff] at hchallenge
  refine ⟨hcommit, hchallenge.1, ?_⟩
  cases reason with
  | overCredit =>
    obtain ⟨_, _, _, hbody, hhash, hfound, hover⟩ := overCreditFinding_eq_ok hfinding
    exact ⟨_, hhash.symm.trans hfound.symm, ⟨s.registry, hbody⟩, hover⟩
  | priceDerivation =>
    obtain ⟨-, ⟨_, _, _, hhash⟩, hfound⟩ := priceDerivationFinding_eq_ok hfinding
    exact ⟨_, hhash.symm.trans (hfound finding rfl).symm, trivial⟩

variable {tx : Digest}

theorem fraudSlash_epochs {finding : FraudFinding} {next : Ledger} {slash : Option SlashRecord}
    (h : s.fraudSlash sender tx value commit finding = .ok (next, slash)) : next.epochs = s.epochs := by
  unfold fraudSlash at h
  split at h
  . simp only [checks_iff, Prod.mk.injEq] at h
    rw [h.1]
  . simp only [applyProviderSlash, checks_iff, Prod.exists, Prod.mk.injEq] at h
    obtain ⟨_, _, ⟨_, -, _, -, rfl, -⟩, rfl, -⟩ := h
    rfl

theorem fraudProof_proofsJustified (hs : ProofsJustified crypto s) :
    ProofsJustified crypto (s.fraudProof crypto sender tx value).1 := by
  unfold fraudProof
  split
  . exact hs
  . exact hs
  . next commit proofHash finding hprepare =>
    split
    . exact hs
    . next _ _ hslash =>
      obtain ⟨hcommit, hopen, payload, hhash, hjust⟩ := prepareFraudProof_eq_some hprepare
      have hepochs := fraudSlash_epochs hslash
      intro epoch hash hproof
      simp only [writeFraud, hepochs, Table.get_put] at hproof ⊢
      by_cases hnew : (epoch, hash) = (value.epoch, finding.proofHash)
      . obtain ⟨rfl, rfl⟩ := Prod.mk.inj hnew
        refine ⟨{ commit with status := .void }, payload, by simp, rfl, hhash, ?_⟩
        cases payload with
        | overCredit _ _ _ _ _ => exact ⟨hjust.1, hjust.2.in_window, hjust.2.exceeds, hjust.2.root⟩
        | priceDerivation _ _ _ _ _ _ => trivial
      . rw [if_neg hnew] at hproof
        obtain ⟨old, payload', hold, hvoid, hrest⟩ := hs epoch hash hproof
        have hne : epoch ≠ value.epoch := by
          rintro rfl
          exact hopen (Option.some.inj (hcommit.symm.trans hold) ▸ hvoid)
        exact ⟨old, payload', by rw [if_neg hne, hold], hvoid, hrest⟩

theorem proofsJustified_of_reachable (hs : ChallengeReachable crypto s) : ProofsJustified crypto s := by
  refine Run.invariant (ProofsJustified crypto) ?_ ?_ hs
  . intro epoch _ hproof
    simp [Ledger.empty] at hproof
  . intro s _ hinv hstep
    cases hstep with
    | epochCommit sender epoch =>
      exact (epochCommit_keepsChallenges ..).proofsJustified hinv
    | fraudProof sender _ value => exact fraudProof_proofsJustified hinv
    | page sender key value =>
      obtain ⟨_, houtcome⟩ := page_outcome crypto s sender key value
      exact (houtcome.keepsChallenges fun _ _ h => nomatch h).proofsJustified hinv
    | pageZero sender key value =>
      rcases pageZero_cases crypto s sender key value with
        ⟨message, heq⟩ | ⟨_, transition, -, htransition, houtcome⟩
      . rw [heq]
        exact hinv
      . refine (houtcome.keepsChallenges fun _ existing _ hexisting => ?_).proofsJustified hinv
        exact transition_not_void htransition hexisting
    | other hcommit hfraud => exact (KeepsChallenges.of_eq hcommit hfraud).proofsJustified hinv

theorem overCredited_of_prepare (hproof : Function.Injective crypto.fraudProofHash)
    (hs : ProofsJustified crypto s) (hreason : value.reason = some .overCredit)
    (h : s.prepareFraudProof crypto value = .ok (commit, proofHash, finding)) :
    ∃ reg receipt claimed, validateReceiptBody reg receipt.body = .ok () ∧
      OverCredited crypto commit value.proofEpoch receipt claimed := by
  obtain ⟨reason, hreason', hcommit, hfinding, -⟩ := prepareFraudProof_eq_ok h
  obtain rfl : reason = .overCredit := Option.some.inj (hreason'.symm.trans hreason)
  obtain ⟨receipt, claimed, _, hbody, hhash, hfound⟩ := overCreditFinding_eq_ok hfinding
  cases finding with
  | some => exact ⟨s.registry, receipt, claimed, hbody, hfound.2⟩
  | none =>
    obtain ⟨_, _, hcommit', -, hpayload, hjust⟩ := hs _ _ hfound
    obtain rfl := hproof (hpayload.trans hhash)
    obtain rfl := Option.some.inj (hcommit'.symm.trans hcommit)
    obtain ⟨⟨reg, hreg⟩, hover⟩ := hjust
    exact ⟨reg, receipt, claimed, hreg, hover⟩

theorem fraudProof_of_prepare_error (h : ∀ found, s.prepareFraudProof crypto value ≠ .ok found) :
    ∃ message, s.fraudProof crypto sender tx value = (s, .error message) := by
  unfold fraudProof
  cases hprepare : s.prepareFraudProof crypto value with
  | error message => exact ⟨message, rfl⟩
  | ok found => exact absurd hprepare (h found)

/--
No over-credit proof succeeds against the commit of an accepted receipt.
-/
theorem fraudProof_rejects_honest_commit (hleaf : Function.Injective crypto.usageLeafHash)
    (hproof : Function.Injective crypto.fraudProofHash) (hs : ChallengeReachable crypto s)
    {reg : Registry} {honest : ReceiptEnvelope} {commit : EpochCommit} {value : FraudProofValue}
    (hhonest : normalizeReceiptEnvelope reg honest = .ok honest)
    (hcommit : s.epochs.commit.get value.epoch = some commit)
    (hroot : commit.roots.use = crypto.usageLeaf honest)
    (hreason : value.reason = some .overCredit) (sender : PublicKey) (tx : Digest) :
    ∃ message, s.fraudProof crypto sender tx value = (s, .error message) := by
  refine fraudProof_of_prepare_error fun ⟨found, proofHash, finding⟩ hprepare => ?_
  obtain ⟨_, -, hfound, -⟩ := prepareFraudProof_eq_ok hprepare
  obtain rfl := Option.some.inj (hfound.symm.trans hcommit)
  obtain ⟨_, _, _, hbody, hover⟩ :=
    overCredited_of_prepare hproof (proofsJustified_of_reachable hs) hreason hprepare
  exact not_overCredited_of_honest hleaf (normalizeReceiptEnvelope_eq_ok.mp hhonest).1 hroot hbody
    hover

def imageReceipt : ReceiptEnvelope := plainReceipt 0 .tnk ⟨"image", 5, 1⟩ 2

def imageRegistry : Registry :=
  { Registry.empty with
    enclaves := Table.empty.put 40 ⟨.active, .admin, "m", some .imageGeneration, 0, [.image], []⟩ }

def imageCommitRoots (crypto : Crypto) (receipt : ReceiptEnvelope) : EpochRoots :=
  ⟨0, crypto.usageLeaf receipt, 0, 0, 0⟩

def imageCommitTotals (useAu : Nat) : EpochTotals := ⟨0, 0, 1, useAu, 1, 0, 0, 0, 0, 0, 0⟩

def imageLedger : Ledger :=
  { Ledger.empty with registry := { imageRegistry with admin := some 10 } }

def imageCommitted (crypto : Crypto) (receipt : ReceiptEnvelope) : Ledger :=
  (imageLedger.epochCommit crypto 50 1 0 (imageCommitRoots crypto receipt) (imageCommitTotals 12)).1

def imageCommit (crypto : Crypto) (receipt : ReceiptEnvelope) : EpochCommit where
  epochSeconds := 3600
  targetedReceiptPages := false
  roots := imageCommitRoots crypto receipt
  totals := imageCommitTotals 12
  status := .provisional
  provisionalUntilEpoch := 7
  commitHash := crypto.epochCommitHash
    ⟨1, 3600, imageCommitRoots crypto receipt, imageCommitTotals 12⟩
  submittedBy := 50
  time := 0
  replacementCount := 0
  expectedActivityEvidence := none

theorem imageCommitted_commit (crypto : Crypto) (receipt : ReceiptEnvelope) :
    (imageCommitted crypto receipt).epochs.commit.get 1 = some (imageCommit crypto receipt) := rfl

theorem imageCommitted_reachable (crypto : Crypto) (receipt : ReceiptEnvelope) :
    ChallengeReachable crypto (imageCommitted crypto receipt) := by
  have hsetup : ChallengeStep crypto Ledger.empty imageLedger := .other rfl rfl
  exact .tail (.single hsetup) (.epochCommit ..)

def imageOverCreditProof (proofEpoch : Nat) : FraudProofValue :=
  ⟨1, proofEpoch, 0, some .overCredit, some imageReceipt, some 12, none, none⟩

theorem fraudProof_rejects_honest_image_commit :
    ∃ message, (imageCommitted collisionFreeHost imageReceipt).fraudProof collisionFreeHost 60 61
      (imageOverCreditProof 1) = (imageCommitted collisionFreeHost imageReceipt, .error message) := by
  have hhonest : normalizeReceiptEnvelope imageRegistry imageReceipt = .ok imageReceipt := rfl
  exact fraudProof_rejects_honest_commit (digestOf_injective ReceiptLeaf)
    (digestOf_injective FraudProofPayload) (imageCommitted_reachable ..) hhonest
    (imageCommitted_commit ..) rfl rfl 60 61

/--
The ledger in which the window of the commit is open at the epoch that the proof names.
-/
def windowOpen (s : Ledger) (commit : EpochCommit) (value : FraudProofValue) : Ledger :=
  let opened := { commit with provisionalUntilEpoch := value.proofEpoch }
  { s with epochs := { s.epochs with commit := s.epochs.commit.put value.epoch opened } }

theorem prepareFraudProof_windowOpen (hcommit : s.epochs.commit.get value.epoch = some commit)
    (hopen : value.proofEpoch ≤ commit.provisionalUntilEpoch) :
    (∃ found, (s.windowOpen commit value).prepareFraudProof crypto value = .ok found) ↔
      ∃ found, s.prepareFraudProof crypto value = .ok found := by
  have hget : (s.windowOpen commit value).epochs.commit.get value.epoch =
      some { commit with provisionalUntilEpoch := value.proofEpoch } := Table.get_put_self _ _ _
  have hfinding (reason : FraudReason) : (s.windowOpen commit value).fraudFinding crypto
      { commit with provisionalUntilEpoch := value.proofEpoch } value reason =
        s.fraudFinding crypto commit value reason := by
    cases reason <;> simp only [fraudFinding, overCreditFinding, priceDerivationFinding,
      validateOverCreditFraudProof, validatePriceDerivationFraudProof, rejectIf, gt_iff_lt, lt_irrefl,
      hopen.not_gt, if_false] <;> rfl
  have hchallenge (finding : Option FraudFinding) :
      validateChallenge { commit with provisionalUntilEpoch := value.proofEpoch } value.proofEpoch finding =
        validateChallenge commit value.proofEpoch finding := by
    cases finding <;> simp [validateChallenge, rejectIf, hopen.not_gt]
  simp only [prepareFraudProof, hget, hcommit, checks_iff, Option.some.injEq, exists_eq_left',
    hfinding, hchallenge]
  constructor <;> rintro ⟨_, reason, hreason, hbytes, found, hfound, hok, -⟩ <;>
    exact ⟨_, reason, hreason, hbytes, found, hfound, hok, rfl⟩

/--
A proof that names an epoch after the window of its commit is rejected, and the window rejects no other. The
ledger's own progress does not enter: the window is only compared with the epoch the proof names.
-/
theorem fraudProof_rejects_after_window (hproof : Function.Injective crypto.fraudProofHash)
    (hs : ChallengeReachable crypto s) {commit : EpochCommit} {value : FraudProofValue}
    (hcommit : s.epochs.commit.get value.epoch = some commit) (sender : PublicKey) (tx : Digest) :
    (commit.provisionalUntilEpoch < value.proofEpoch →
      ∃ message, s.fraudProof crypto sender tx value = (s, .error message)) ∧
    (value.proofEpoch ≤ commit.provisionalUntilEpoch →
      ((∃ found, (s.windowOpen commit value).prepareFraudProof crypto value = .ok found) ↔
        ∃ found, s.prepareFraudProof crypto value = .ok found)) := by
  refine ⟨fun hdated => fraudProof_of_prepare_error ?_, prepareFraudProof_windowOpen hcommit⟩
  rintro ⟨found, proofHash, finding⟩ hprepare
  obtain ⟨reason, hreason, hfound, hfinding, -⟩ := prepareFraudProof_eq_ok hprepare
  obtain rfl := Option.some.inj (hfound.symm.trans hcommit)
  cases reason with
  | overCredit =>
    obtain ⟨_, _, _, -, hover⟩ := overCredited_of_prepare hproof (proofsJustified_of_reachable hs)
      hreason hprepare
    exact absurd hover.in_window (not_le.mpr hdated)
  | priceDerivation =>
    exact absurd (priceDerivationFinding_eq_ok hfinding).1 (not_le.mpr hdated)

def sealEpochs (crypto : Crypto) (s : Ledger) : Nat → Ledger
  | 0 => s
  | n + 1 => ((sealEpochs crypto s n).epochSealEmpty crypto 10 n (n + 1) ((n + 1) * 3600) 0).1

theorem epochSealEmpty_challenges (crypto : Crypto) (s : Ledger) (sender : PublicKey) (tx : Digest)
    (epoch time : Nat) (reasonHash : Digest) :
    (s.epochSealEmpty crypto sender tx epoch time reasonHash).1.epochs.commit = s.epochs.commit ∧
      (s.epochSealEmpty crypto sender tx epoch time reasonHash).1.epochs.fraud = s.epochs.fraud := by
  unfold epochSealEmpty
  split
  . exact ⟨rfl, rfl⟩
  . exact ⟨rfl, rfl⟩
  . dsimp only
    split <;> exact ⟨rfl, rfl⟩

theorem sealEpochs_reachable (hs : ChallengeReachable crypto s) (n : Nat) :
    ChallengeReachable crypto (sealEpochs crypto s n) := by
  induction n with
  | zero => exact hs
  | succ n ih =>
    have hkeeps := epochSealEmpty_challenges crypto (sealEpochs crypto s n) 10 n (n + 1)
      ((n + 1) * 3600) 0
    exact .tail ih (.other hkeeps.1 hkeeps.2)

theorem sealEpochs_commit (crypto : Crypto) (s : Ledger) (n : Nat) :
    (sealEpochs crypto s n).epochs.commit = s.epochs.commit := by
  induction n with
  | zero => rfl
  | succ n ih => exact (epochSealEmpty_challenges ..).1.trans ih

def imageSealed (crypto : Crypto) (receipt : ReceiptEnvelope) : Ledger :=
  sealEpochs crypto (imageCommitted crypto receipt) 8

theorem imageSealed_reachable (crypto : Crypto) (receipt : ReceiptEnvelope) :
    ChallengeReachable crypto (imageSealed crypto receipt) :=
  sealEpochs_reachable (imageCommitted_reachable crypto receipt) 8

theorem imageSealed_commit (crypto : Crypto) (receipt : ReceiptEnvelope) :
    (imageSealed crypto receipt).epochs.commit.get 1 = some (imageCommit crypto receipt) := by
  rw [imageSealed, sealEpochs_commit, imageCommitted_commit]

theorem fraudProof_rejects_image_after_window :
    (imageSealed collisionFreeHost imageReceipt).applyState.updatedEpoch = 8 ∧
    ∃ message, (imageSealed collisionFreeHost imageReceipt).fraudProof collisionFreeHost 60 61
      (imageOverCreditProof 8) = (imageSealed collisionFreeHost imageReceipt, .error message) := by
  have hreach := imageSealed_reachable collisionFreeHost imageReceipt
  have hcommit := imageSealed_commit collisionFreeHost imageReceipt
  have hdated : (imageCommit collisionFreeHost imageReceipt).provisionalUntilEpoch <
      (imageOverCreditProof 8).proofEpoch := by
    decide
  refine ⟨by decide +kernel, ?_⟩
  -- the theorem needs these facts only, and unification must not run the eight seals
  generalize imageSealed collisionFreeHost imageReceipt = s at hreach hcommit ⊢
  exact (fraudProof_rejects_after_window (digestOf_injective FraudProofPayload) hreach hcommit 60 61).1 hdated

def forgedImageReceipt : ReceiptEnvelope :=
  { imageReceipt with body := { imageReceipt.body with auOwedCum := 12 } }

/--
Eight epochs are settled and the window of the commit ended with the seventh. A proof that names the
first epoch still voids it.
-/
theorem fraudProof_voids_after_window :
    ∃ s commit, ChallengeReachable plainHost s ∧ s.epochs.commit.get 1 = some commit ∧
      commit.status = .provisional ∧ commit.provisionalUntilEpoch < s.applyState.updatedEpoch ∧
      ((s.fraudProof plainHost 60 61 (imageOverCreditProof 1)).1.epochs.commit.get 1).map
        EpochCommit.status = some .void := by
  refine ⟨imageSealed plainHost forgedImageReceipt, imageCommit plainHost forgedImageReceipt,
    imageSealed_reachable .., imageSealed_commit .., rfl, ?_, ?_⟩
  . decide +kernel
  . decide +kernel

end Ledger
end Mayhem
