import Mayhem.Ledger

namespace Mayhem

/--
The floating point functions of the contract's host and the hash that chains the events. `decayPico` is the part
of a score that is left after a number of seconds.
-/
structure ReputationHost where
  decayPico : Nat → Nat
  weightNano : Nat → Except String Nat
  eventHead : Option Digest → ReputationEvent → Digest

def reputationDecayPicoScale : Nat := 1000000000000

def roundSignedRatio (value : Int) (divisor : Nat) : Int :=
  let rounded : Int := ((value.natAbs + divisor / 2) / divisor : Nat)
  if value < 0 then -rounded else rounded

namespace ReputationHost

variable (host : ReputationHost)

def decayReputationRawNano (rawNano : Int) (fromSeconds toSeconds : Nat) : Except String Int := do
  rejectIf (¬ isSafeInteger fromSeconds ∨ ¬ isSafeInteger toSeconds ∨ toSeconds < fromSeconds)
    "Invalid reputation decay range."
  return if fromSeconds = toSeconds ∨ rawNano = 0 then rawNano
    else roundSignedRatio (rawNano * host.decayPico (toSeconds - fromSeconds)) reputationDecayPicoScale

def sessionRawNano (scoreQuarters : Int) (weightedAu : Option Nat) : Except String Int := do
  let amount ← requireSome weightedAu "reputation weighted amount must be a canonical decimal string."
  let weightNano ← host.weightNano amount
  return roundSignedRatio (weightNano * scoreQuarters) 4

def reputationEventRawNano (event : ReputationEvent) : Except String Int :=
  match event.kind with
  | .sessionOk => host.sessionRawNano 4 event.paidAu
  | .sessionPartial => host.sessionRawNano 1 event.paidAu
  | .sessionFail => host.sessionRawNano (-16) event.maxSpendAu
  | .probeOk => .ok 500000000
  | .probeFail => .ok (-6000000000)
  | .uptimeTick => .ok 100000000
  | .underdelivery => .ok (-6000000000)
  | .disputeLost => .ok (-20000000000)
  | .provenanceViolation => .ok 0

def startFold (time : Nat) : ReputationFold := ⟨0, time, 0, 0, false, 0, 0⟩

def currentFold (current : Option ReputationFold) (time : Nat) : Except String ReputationFold :=
  match current with
  | none => .ok (startFold time)
  | some fold => do
    rejectIf (¬ isSafeInteger fold.time ∨ ¬ isSafeInteger fold.successfulSessions ∨
      ¬ isSafeInteger fold.eventCount ∨ ¬ isSafeInteger fold.maxEpoch) "Invalid reputation fold state."
    let rawNano ← host.decayReputationRawNano fold.rawNano fold.time (max fold.time time)
    return { fold with rawNano := rawNano, time := max fold.time time }

def advanceReputationFold (current : Option ReputationFold) (event : ReputationEvent)
    (eventsHead : Digest) : Except String ReputationFold := do
  rejectIf (¬ isSafeInteger event.time) "Invalid reputation event time."
  rejectIf (¬ isSafeInteger event.epoch) "Invalid reputation event epoch."
  let fold ← host.currentFold current event.time
  let score ← host.reputationEventRawNano event
  let contribution ← host.decayReputationRawNano score event.time fold.time
  let successfulSessions ← safeAddCount fold.successfulSessions (if event.kind = .sessionOk then 1 else 0)
    "successful reputation session count"
  let eventCount ← safeAddCount fold.eventCount 1 "reputation event count"
  return {
    rawNano := fold.rawNano + contribution
    time := fold.time
    maxEpoch := max fold.maxEpoch event.epoch
    successfulSessions := successfulSessions
    provenanceViolation := fold.provenanceViolation || event.kind = .provenanceViolation
    eventCount := eventCount
    eventsHead := eventsHead }

end ReputationHost

namespace Reputation

def appendReputationEvent (reputation : Reputation) (host : ReputationHost) (event : ReputationEvent) :
    Except String Reputation := do
  rejectIf (¬ isSafeKeyPart event.eventId) "Invalid reputation event id."
  rejectIf ((reputation.event.get (event.provider, event.eventId)).isSome)
    "Reputation event already recorded."
  let current := reputation.head.get event.provider
  let head := host.eventHead (current.map ReputationHead.head) event
  let fold ← host.advanceReputationFold (reputation.fold.get event.provider) event head
  return {
    event := reputation.event.put (event.provider, event.eventId) (event, head)
    head := reputation.head.put event.provider
      ⟨head, (current.map ReputationHead.count).getD 0 + 1⟩
    fold := reputation.fold.put event.provider fold }

end Reputation

end Mayhem
