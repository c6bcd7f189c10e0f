import Mayhem.Reputation
import Mayhem.Slash

namespace Mayhem

structure ReputationEventValue where
  provider : PublicKey
  eventId : String
  kind : ReputationKind
  epoch : Nat
  time : Nat
  paidAu : Option Nat
  maxSpendAu : Option Nat
  evidenceHash : Option String
  beneficiary : Option PublicKey
  enclaveId : Option Digest

def validateReputationEvent (value : ReputationEventValue) : Except String Unit := do
  rejectIf (¬ isSafeKeyPart value.eventId) "Invalid reputation event id."
  rejectIf ((value.kind = .sessionOk ∨ value.kind = .sessionPartial) ∧ value.paidAu.isNone)
    "Reputation event requires paid_au."
  rejectIf (value.kind = .sessionFail ∧ value.maxSpendAu.isNone) "Reputation event requires max_spend_au."

def ReputationEventValue.event (value : ReputationEventValue) (sender : PublicKey) (tx : Digest) :
    ReputationEvent where
  provider := value.provider
  eventId := value.eventId
  kind := value.kind
  epoch := value.epoch
  time := value.time
  paidAu := value.paidAu
  maxSpendAu := value.maxSpendAu
  evidenceHash := value.evidenceHash
  recordedAt := tx
  recordedBy := sender

namespace Ledger

def prepareReputationEvent (s : Ledger) (host : ReputationHost) (sender : PublicKey) (tx : Digest)
    (value : ReputationEventValue) : Except String Reputation := do
  s.registry.requireAdmin sender
  validateReputationEvent value
  rejectIf ((s.registry.providers.get value.provider).isNone) "Provider not found."
  s.reputation.appendReputationEvent host (value.event sender tx)

def reputationSlashRequest (s : Ledger) (value : ReputationEventValue) : SlashRequest where
  provider := value.provider
  epoch := value.epoch
  slashBps := s.registry.activeParamAt value.time .disputeLostSlashBps
  beneficiary := value.beneficiary
  enclaveId := value.enclaveId
  banProvider := false
  tombstoneEnclave := false

def recordReputationEvent (s : Ledger) (host : ReputationHost) (sender : PublicKey) (tx : Digest)
    (value : ReputationEventValue) : Outcome (Option SlashRecord) :=
  match s.prepareReputationEvent host sender tx value with
  | .error message => (s, .error message)
  | .ok reputation =>
    let noted := { s with reputation := reputation }
    if value.kind = .disputeLost then
      match noted.applyProviderSlash tx (noted.reputationSlashRequest value) with
      | .error message => (noted, .error message)
      | .ok (slashed, slash) => (slashed, .ok (some slash))
    else (noted, .ok none)

end Ledger

inductive ProbeKind where
  | uptimeTick
  | canary
deriving DecidableEq

structure ProbeValue where
  probeId : Digest
  kind : ProbeKind
  provider : PublicKey
  enclaveId : Option Digest
  epoch : Nat
  time : Nat
  matchBps : Option Nat
  pass : Option Bool
  evidenceHash : Option String

structure CanaryHost where
  requireBoundCanaryProbe : Ledger → ProbeValue → PublicKey → Except String Unit

def validateProbeResult (value : ProbeValue) : Except String Unit := do
  rejectIf (value.kind = .canary ∧ value.enclaveId.isNone) "Canary probe requires enclave_id."
  rejectIf (value.kind = .canary ∧ value.matchBps.isNone) "Canary probe requires match_bps."
  rejectIf (value.kind = .canary ∧ value.pass.isNone) "Canary probe requires pass."
  rejectIf (value.kind = .canary ∧ value.evidenceHash.isNone) "Canary probe requires evidence_hash."

def probePass (value : ProbeValue) (param : ParamKey → Nat) : Bool :=
  match value.kind with
  | .uptimeTick => true
  | .canary => param .canaryMatchMinBps ≤ value.matchBps.getD 0

def probeEvent (sender : PublicKey) (tx : Digest) (value : ProbeValue) (pass : Bool) : ReputationEvent where
  provider := value.provider
  eventId := "probe-" ++ toString value.probeId
  kind :=
    match value.kind with
    | .uptimeTick => .uptimeTick
    | .canary => if pass then .probeOk else .probeFail
  epoch := value.epoch
  time := value.time
  paidAu := none
  maxSpendAu := none
  evidenceHash := value.evidenceHash
  recordedAt := tx
  recordedBy := sender

def violationEvent (sender : PublicKey) (tx : Digest) (value : ProbeValue) : ReputationEvent :=
  { probeEvent sender tx value false with
    eventId := "probe-" ++ toString value.probeId ++ "-violation"
    kind := .provenanceViolation }

namespace Ledger

def probePassAuditors (s : Ledger) (value : ProbeValue) : List PublicKey :=
  (s.oversight.probePass.get (value.provider, value.epoch)).getD []

def prepareProbe (s : Ledger) (canary : CanaryHost) (sender : PublicKey) (value : ProbeValue) :
    Except String Bool := do
  rejectIf (s.oversight.auditorActive.get sender ≠ some true) "Auditor registration required."
  rejectIf ((s.registry.providers.get sender).isSome) "Provider keys cannot submit auditor probes."
  validateProbeResult value
  rejectIf ((s.oversight.probe.get value.probeId).isSome) "Probe result already recorded."
  rejectIf ((s.registry.providers.get value.provider).isNone) "Provider not found."
  if value.kind = .canary then canary.requireBoundCanaryProbe s value sender else pure ()
  let pass := probePass value (s.registry.activeParamAt value.time)
  rejectIf (∃ flag ∈ value.pass, flag ≠ pass) "Probe pass flag does not match contract threshold."
  rejectIf (value.kind = .canary ∧ pass ∧ sender ∈ s.probePassAuditors value)
    "Auditor already supplied a canary pass for this provider epoch."
  return pass

def probeSlashRequest (s : Ledger) (sender : PublicKey) (value : ProbeValue) : SlashRequest where
  provider := value.provider
  epoch := value.epoch
  slashBps := s.registry.activeParamAt value.time .fraudSlashBps
  beneficiary := some sender
  enclaveId := value.enclaveId
  banProvider := true
  tombstoneEnclave := true

def recordProbe (s : Ledger) (sender : PublicKey) (value : ProbeValue) (pass : Bool) : Ledger :=
  { s with oversight := { s.oversight with
      probe := s.oversight.probe.put value.probeId pass
      probePass :=
        if value.kind = .canary ∧ pass then
          s.oversight.probePass.put (value.provider, value.epoch)
            ((s.probePassAuditors value ++ [sender]).insertionSort (· ≤ ·))
        else s.oversight.probePass } }

def probeResult (s : Ledger) (host : ReputationHost) (canary : CanaryHost) (sender : PublicKey)
    (tx : Digest) (value : ProbeValue) : Outcome Bool :=
  match s.prepareProbe canary sender value with
  | .error message => (s, .error message)
  | .ok pass =>
    match s.reputation.appendReputationEvent host (probeEvent sender tx value pass) with
    | .error message => (s, .error message)
    | .ok reputation =>
      let noted := { s with reputation := reputation }
      if value.kind = .canary ∧ pass = false then
        match reputation.appendReputationEvent host (violationEvent sender tx value) with
        | .error message => (noted, .error message)
        | .ok reputation =>
          let violated := { noted with reputation := reputation }
          match violated.applyProviderSlash tx (violated.probeSlashRequest sender value) with
          | .error message => (violated, .error message)
          | .ok (slashed, _) => (slashed.recordProbe sender value pass, .ok pass)
      else (noted.recordProbe sender value pass, .ok pass)

end Ledger

end Mayhem
