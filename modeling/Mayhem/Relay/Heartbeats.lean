import Mayhem.Basic

namespace Mayhem.Relay

structure HeartbeatLimits where
  freshnessMs : Nat
  maxRetentionMs : Nat
  maxFutureSkewMs : Nat

structure HeartbeatRecord where
  ts : Nat
  expiresAt : Nat

inductive Remembered where
  | invalid
  | duplicate
  | resourceRejected
  | remembered
  deriving DecidableEq

def heartbeatTiming (limits : HeartbeatLimits) (ts now : Nat) : Option Nat :=
  let signedAgeMs := now - ts
  let expiresAt := now + min (limits.freshnessMs - signedAgeMs) limits.maxRetentionMs
  if ¬ isSafeInteger ts ∨ ¬ isSafeInteger now then none
  else if ts > now ∧ ts - now > limits.maxFutureSkewMs then none
  else if signedAgeMs ≥ limits.freshnessMs then none
  else if ¬ isSafeInteger expiresAt ∨ expiresAt ≤ now then none
  else some expiresAt

def expireHeartbeat (now : Nat) (record : Option HeartbeatRecord) : Option HeartbeatRecord :=
  record.filter (now < ·.expiresAt)

/--
`admitted` is the verdict of the quotas on entries and bytes, which read the other keys and the queues too.
-/
def rememberHeartbeat (limits : HeartbeatLimits) (record : Option HeartbeatRecord) (ts : Nat) (admitted : Bool)
    (now : Nat) : Remembered × Option HeartbeatRecord :=
  match heartbeatTiming limits ts now with
  | none => (.invalid, record)
  | some expiresAt =>
    let current := expireHeartbeat now record
    if ∃ r ∈ current, r.ts ≥ ts then (.duplicate, current)
    else if admitted then (.remembered, some ⟨ts, expiresAt⟩)
    else (.resourceRejected, current)

/--
What reaches the record of a key: an `hb.event` frame, where `relayed` says that its sender is a relay and its
room is subscribed to, a heartbeat that is published or observed otherwise, and a sweep.
-/
inductive Input where
  | event (relayed : Bool) (ts : Nat) (admitted : Bool)
  | observed (ts : Nat) (admitted : Bool)
  | sweep

def Input.ts? : Input → Option Nat
  | .event _ ts _ | .observed ts _ => some ts
  | .sweep => none

def step (limits : HeartbeatLimits) (record : Option HeartbeatRecord) (now : Nat) :
    Input → Option HeartbeatRecord × Option Nat
  | .event relayed ts admitted =>
    let answer := rememberHeartbeat limits record ts admitted now
    if relayed = false then (record, none)
    else (answer.2, if answer.1 = .remembered then some ts else none)
  | .observed ts admitted => ((rememberHeartbeat limits record ts admitted now).2, none)
  | .sweep => (expireHeartbeat now record, none)

def handed (limits : HeartbeatLimits) (record : Option HeartbeatRecord) : List (Nat × Input) → List Nat
  | [] => []
  | (now, input) :: inputs =>
    let answer := step limits record now input
    answer.2.toList ++ handed limits answer.1 inputs

variable {limits : HeartbeatLimits} {record : Option HeartbeatRecord} {input : Nat × Input} {ts : Nat}

theorem heartbeatTiming_eq_some {expiresAt now : Nat} (h : heartbeatTiming limits ts now = some expiresAt) :
    now < ts + limits.freshnessMs ∧
      expiresAt = now + min (limits.freshnessMs - (now - ts)) limits.maxRetentionMs := by
  simp only [heartbeatTiming] at h
  split_ifs at h
  cases h
  exact ⟨by omega, rfl⟩

inductive Effect (limits : HeartbeatLimits) (input : Nat × Input) (record : Option HeartbeatRecord) :
    Option HeartbeatRecord × Option Nat → Prop
  | aged (after : Option HeartbeatRecord) (hsub : ∀ r ∈ after, r ∈ record)
      (h : ∀ r ∈ record, r ∈ after ∨ r.expiresAt ≤ input.1) : Effect limits input record (after, none)
  | renewed (new : HeartbeatRecord) (sent : Option Nat) (hsent : ∀ ts ∈ sent, ts = new.ts)
      (hts : input.2.ts? = some new.ts)
      (htiming : heartbeatTiming limits new.ts input.1 = some new.expiresAt)
      (h : ∀ r ∈ record, r.expiresAt ≤ input.1 ∨ r.ts < new.ts) : Effect limits input record (some new, sent)

theorem Effect.kept : Effect limits input record (record, none) := .aged record (fun _ h => h) fun _ => .inl

theorem Effect.expired : Effect limits input record (expireHeartbeat input.1 record, none) := by
  refine .aged _ (fun r hr => (Option.mem_filter_iff.mp hr).1) fun r hr => ?_
  by_cases hlive : input.1 < r.expiresAt
  . exact .inl (Option.mem_filter_iff.mpr ⟨hr, by simpa using hlive⟩)
  . exact .inr (not_lt.mp hlive)

theorem Effect.silent {answer : Option HeartbeatRecord × Option Nat} (h : Effect limits input record answer) :
    Effect limits input record (answer.1, none) := by
  cases h with
  | aged after hsub h => exact .aged after hsub h
  | renewed new _ _ hts htiming h => exact .renewed new none (fun _ h => nomatch h) hts htiming h

theorem rememberHeartbeat_effect {admitted : Bool} (hts : input.2.ts? = some ts) :
    let answer := rememberHeartbeat limits record ts admitted input.1
    Effect limits input record (answer.2, if answer.1 = .remembered then some ts else none) := by
  dsimp only [rememberHeartbeat]
  cases htiming : heartbeatTiming limits ts input.1 with
  | none => exact .kept
  | some expiresAt =>
    dsimp only
    split
    . exact .expired
    . next hnewer =>
      split
      . refine .renewed ⟨ts, expiresAt⟩ (some ts) (by simp) hts htiming fun r hr => ?_
        by_contra! hlive
        exact hnewer ⟨r, Option.mem_filter_iff.mpr ⟨hr, by simpa using hlive.1⟩, hlive.2⟩
      . exact .expired

theorem step_effect (input : Nat × Input) : Effect limits input record (step limits record input.1 input.2) := by
  obtain ⟨now, input⟩ := input
  cases input with
  | event =>
    dsimp only [step]
    split
    . exact .kept
    . exact rememberHeartbeat_effect rfl
  | observed => exact (rememberHeartbeat_effect rfl).silent
  | sweep => exact .expired

def ComesStale (limits : HeartbeatLimits) (input : Nat × Input) (ts : Nat) : Prop :=
  ∀ ts' ∈ input.2.ts?, ts' ≤ ts → ts' + limits.freshnessMs ≤ input.1

/--
A heartbeat that is not newer than an earlier one comes while that one is on record, or when
it is not fresh itself.
-/
def OutsideGap (limits : HeartbeatLimits) (earlier later : Nat × Input) : Prop :=
  ∀ ts ∈ earlier.2.ts?, later.1 < min ts earlier.1 + limits.freshnessMs ∨ ComesStale limits later ts

def Lasting (limits : HeartbeatLimits) (inputs : List (Nat × Input)) (record : Option HeartbeatRecord) : Prop :=
  ∀ r ∈ record, ∀ input ∈ inputs, input.1 < r.expiresAt ∨ ComesStale limits input r.ts

def Passed (limits : HeartbeatLimits) (inputs : List (Nat × Input)) (ts : Nat)
    (record : Option HeartbeatRecord) : Prop :=
  (∃ r ∈ record, ts ≤ r.ts) ∨ ∀ input ∈ inputs, ComesStale limits input ts

variable {inputs : List (Nat × Input)}

namespace Effect

variable {after : Option HeartbeatRecord} {sent : Option Nat}

theorem lasting (h : Effect limits input record (after, sent))
    (hlasting : Lasting limits (input :: inputs) record) (hgap : ∀ later ∈ inputs, OutsideGap limits input later)
    (hretention : limits.freshnessMs ≤ limits.maxRetentionMs) :
    Lasting limits inputs after ∧ ∀ t ∈ sent, Passed limits inputs t after := by
  cases h with
  | aged _ hsub _ =>
    exact ⟨fun r hr later hlater => hlasting r (hsub r hr) later (List.mem_cons_of_mem _ hlater),
      fun _ h => nomatch h⟩
  | renewed new _ hsent hts htiming _ =>
    refine ⟨?_, fun t ht => .inl ⟨new, rfl, (hsent t ht).le⟩⟩
    rintro _ ⟨⟩ later hlater
    have := heartbeatTiming_eq_some htiming
    apply (hgap later hlater new.ts hts).imp_left
    omega

theorem passed (h : Effect limits input record (after, sent)) (hlasting : Lasting limits (input :: inputs) record)
    (hclock : ∀ later ∈ inputs, input.1 ≤ later.1) (hpassed : Passed limits (input :: inputs) ts record) :
    Passed limits inputs ts after ∧ ∀ t ∈ sent, ts < t := by
  cases h with
  | aged _ _ haged =>
    refine ⟨?_, fun _ h => nomatch h⟩
    rcases hpassed with ⟨old, hold, hle⟩ | hpast
    . rcases haged old hold with hkept | hgone
      . exact .inl ⟨old, hkept, hle⟩
      . right
        intro later hlater ts' hts' hle'
        have hdead := Nat.not_lt.mpr (hgone.trans (hclock later hlater))
        have hstale := (hlasting old hold later (List.mem_cons_of_mem _ hlater)).resolve_left hdead
        exact hstale ts' hts' (hle'.trans hle)
    . exact .inr fun later hlater => hpast later (List.mem_cons_of_mem _ hlater)
  | renewed new _ hsent hts htiming hnewer =>
    have hfresh := (heartbeatTiming_eq_some htiming).1
    have hlt : ts < new.ts := by
      by_contra! hnot
      rcases hpassed with ⟨old, hold, hle⟩ | hpast
      . rcases hnewer old hold with hgone | hlt
        . have hstale := (hlasting old hold input List.mem_cons_self).resolve_left (Nat.not_lt.mpr hgone)
          exact absurd (hstale new.ts hts (hnot.trans hle)) (Nat.not_le.mpr hfresh)
        . omega
      . exact absurd (hpast input List.mem_cons_self new.ts hts hnot) (Nat.not_le.mpr hfresh)
    exact ⟨.inl ⟨new, rfl, hlt.le⟩, fun t ht => hsent t ht ▸ hlt⟩

end Effect

theorem handed_increasing (hretention : limits.freshnessMs ≤ limits.maxRetentionMs)
    (hlasting : Lasting limits inputs record) {sent : List Nat} (hsent : sent.Pairwise (· < ·))
    (hpassed : ∀ t ∈ sent, Passed limits inputs t record) (hclock : (inputs.map Prod.fst).Pairwise (· ≤ ·))
    (hgap : inputs.Pairwise (OutsideGap limits)) :
    (sent ++ handed limits record inputs).Pairwise (· < ·) := by
  induction inputs generalizing record sent with
  | nil => simpa [handed] using hsent
  | cons input inputs ih =>
    rw [List.map_cons, List.pairwise_cons, List.forall_mem_map] at hclock
    rw [List.pairwise_cons] at hgap
    have heffect := @step_effect limits record input
    obtain ⟨hlast, hnew⟩ := heffect.lasting hlasting hgap.1 hretention
    have hstep t ht := heffect.passed hlasting hclock.1 (hpassed t ht)
    rw [handed, ← List.append_assoc]
    refine ih hlast ?_ ?_ hclock.2 hgap.2
    . refine List.pairwise_append.mpr ⟨hsent, ?_, fun t ht t' ht' => (hstep t ht).2 t' (Option.mem_toList.mp ht')⟩
      cases (step limits record input.1 input.2).2 with
      | none | some => simp
    . intro t ht
      rcases List.mem_append.mp ht with ht | ht
      . exact (hstep t ht).1
      . exact hnew t (Option.mem_toList.mp ht)

/--
From an empty cache on, if no heartbeat comes after the record of a newer one is dropped and before it is stale,
as none does if none is dated in the future.
-/
theorem relayed_in_order (limits : HeartbeatLimits) (inputs : List (Nat × Input))
    (hretention : limits.freshnessMs ≤ limits.maxRetentionMs) (hclock : (inputs.map Prod.fst).Pairwise (· ≤ ·)) :
    (inputs.Pairwise (OutsideGap limits) → (handed limits none inputs).Pairwise (· < ·)) ∧
      ((∀ input ∈ inputs, ∀ ts ∈ input.2.ts?, ts ≤ input.1) → inputs.Pairwise (OutsideGap limits)) := by
  refine ⟨@handed_increasing limits none inputs hretention (fun _ h => nomatch h)
    [] .nil (fun _ h => nomatch h) hclock, fun hdated => List.pairwise_of_forall_mem_list ?_⟩
  intro earlier hearlier later _ ts hts
  rw [min_eq_left (hdated earlier hearlier ts hts), or_iff_not_imp_left]
  intro _ ts' _ _
  omega

def replayedHeartbeats : List (Nat × Input) :=
  [(5, .event true 15 true), (20, .event true 15 true), (75, .event true 15 true), (76, .event true 70 true)]

theorem relayed_in_order_replayed : handed ⟨60, 60, 10⟩ none replayedHeartbeats = [15, 70] ∧
    (handed ⟨60, 60, 10⟩ none replayedHeartbeats).Pairwise (· < ·) :=
  ⟨by decide, (relayed_in_order ⟨60, 60, 10⟩ replayedHeartbeats (by decide) (by decide)).1
    (by simp [replayedHeartbeats, OutsideGap, ComesStale, Input.ts?])⟩

/--
The record of a heartbeat dated after its receipt is dropped while the heartbeat is still fresh.
-/
theorem future_heartbeat_handed_twice :
    handed ⟨60, 60, 10⟩ none [(5, .event true 15 true), (65, .event true 15 true)] = [15, 15] := by
  decide

end Mayhem.Relay
