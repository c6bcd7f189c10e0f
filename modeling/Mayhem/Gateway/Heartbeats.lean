import Mayhem.Basic

namespace Mayhem.Gateway

def heartbeatSchemaVersion : Nat := 4

def executionModeHeartbeatSchemaVersion : Nat := 5

/--
`Binding` is the execution mode, `Body` what the receiver reads nowhere but in `validateHeartbeatFields`.
-/
structure ProviderHeartbeat (Binding Body : Type) where
  t : String
  v : Nat
  contractVersion : Nat
  provider : String
  executionMode : Option Binding
  ts : Nat
  nonce : String
  sig : String
  body : Body

/--
The JSON reader, the checks of the fields and the Ed25519 check of the raw message, with the texts of their
errors.
-/
structure HeartbeatHost (Value Binding Body : Type) where
  fromValue : Value → Except String (ProviderHeartbeat Binding Body)
  getStr : Value → String → Option String
  validateBinding : Binding → Except String Unit
  validateHeartbeatFields : ProviderHeartbeat Binding Body → Except String Unit
  verifyHeartbeatSignature : Value → String → String → Except String Unit

structure HeartbeatDrop where
  provider : Option String
  roomId : Option String
  nonce : Option String
  reason : String

/--
The set `seen` of the source is the set of the members of `order`.
-/
structure HeartbeatReplayCache where
  capacity : Nat
  order : List String

def HeartbeatReplayCache.new (capacity : Nat) : HeartbeatReplayCache := ⟨max capacity 1, []⟩

def HeartbeatReplayCache.remember (cache : HeartbeatReplayCache) (nonce : String) : Bool × HeartbeatReplayCache :=
  if nonce ∈ cache.order then (false, cache)
  else
    let order := cache.order ++ [nonce]
    (true, { cache with order := order.drop (order.length - cache.capacity) })

structure HeartbeatLimits where
  maxAgeMillis : Nat
  maxClockSkewMillis : Nat

structure HeartbeatReceiver where
  replayCache : HeartbeatReplayCache
  drops : List HeartbeatDrop
  limits : HeartbeatLimits

def HeartbeatReceiver.withLimits (limits : HeartbeatLimits) : HeartbeatReceiver := ⟨.new 5000, [], limits⟩

def validateHeartbeatTime (ts nowMillis maxAgeMillis maxClockSkewMillis : Nat) : Except String Unit :=
  let skew := ts - nowMillis
  let age := nowMillis - ts
  if ts > nowMillis then
    rejectIf (skew > maxClockSkewMillis)
      s!"heartbeat timestamp is too far in the future: skew {skew}ms exceeds {maxClockSkewMillis}ms"
  else
    rejectIf (age > maxAgeMillis) s!"heartbeat is stale: age {age}ms exceeds {maxAgeMillis}ms"

variable {Value Binding Body : Type} (host : HeartbeatHost Value Binding Body)

/--
`validate_provider_heartbeat` up to the replay cache.
-/
def checkHeartbeat (limits : HeartbeatLimits) (raw : Value) (nowMillis : Nat) :
    Except String (ProviderHeartbeat Binding Body) := do
  let schema := "heartbeat must have t=\"hb\" and a supported schema/execution_mode combination (baseline v=4)"
  let heartbeat ← (host.fromValue raw).mapError ("heartbeat JSON error: " ++ ·)
  rejectIf (heartbeat.t ≠ "hb") schema
  match heartbeat.executionMode with
  | none => rejectIf (heartbeat.v ≠ heartbeatSchemaVersion) schema
  | some binding =>
    rejectIf (heartbeat.v ≠ executionModeHeartbeatSchemaVersion) schema
    (host.validateBinding binding).mapError ("heartbeat field execution_mode is invalid: " ++ ·)
  let actual := heartbeat.contractVersion
  rejectIf (actual ≠ contractVersion)
    s!"contract upgrade required: expected CONTRACT_VERSION {contractVersion}, got {actual}"
  host.validateHeartbeatFields heartbeat
  validateHeartbeatTime heartbeat.ts nowMillis limits.maxAgeMillis limits.maxClockSkewMillis
  host.verifyHeartbeatSignature raw heartbeat.provider heartbeat.sig
  return heartbeat

def validateProviderHeartbeat (receiver : HeartbeatReceiver) (raw : Value) (nowMillis : Nat) :
    Except String (ProviderHeartbeat Binding Body) × HeartbeatReplayCache :=
  match checkHeartbeat host receiver.limits raw nowMillis with
  | .error reason => (.error reason, receiver.replayCache)
  | .ok heartbeat =>
    let remembered := receiver.replayCache.remember heartbeat.nonce
    (if remembered.1 then .ok heartbeat else .error ("heartbeat nonce was already seen: " ++ heartbeat.nonce),
      remembered.2)

def HeartbeatReceiver.receive (receiver : HeartbeatReceiver) (raw : Value) (nowMillis : Nat) :
    Option (ProviderHeartbeat Binding Body) × HeartbeatReceiver :=
  let validated := validateProviderHeartbeat host receiver raw nowMillis
  match validated.1 with
  | .ok heartbeat => (some heartbeat, { receiver with replayCache := validated.2 })
  | .error reason =>
    let drop := ⟨host.getStr raw "provider", host.getStr raw "room_id", host.getStr raw "nonce", reason⟩
    (none, { receiver with replayCache := validated.2, drops := receiver.drops ++ [drop] })

def HeartbeatReceiver.receiveAll (receiver : HeartbeatReceiver) (messages : List (Value × Nat)) :
    HeartbeatReceiver :=
  messages.foldl (fun receiver message => (receiver.receive host message.1 message.2).2) receiver

theorem HeartbeatReplayCache.remember_fst (cache : HeartbeatReplayCache) (nonce : String) :
    (cache.remember nonce).1 = true ↔ nonce ∉ cache.order := by
  unfold remember
  split
  . next h => simp [h]
  . next h => simp [h]

theorem HeartbeatReplayCache.mem_remember {cache : HeartbeatReplayCache} {nonce other : String}
    (h : other ∈ (cache.remember nonce).2.order) : other ∈ cache.order ∨ other = nonce := by
  unfold remember at h
  split at h
  . exact .inl h
  . simpa using List.mem_of_mem_drop h

namespace HeartbeatReplayCache

variable {cache : HeartbeatReplayCache} {nonce : String} {more : Nat}

def Holds (cache : HeartbeatReplayCache) (nonce : String) (more : Nat) : Prop :=
  ∃ before after, cache.order = before ++ nonce :: after ∧ after.length + more < cache.capacity

theorem remember_holds (hnew : nonce ∉ cache.order) (hmore : more < cache.capacity) :
    (cache.remember nonce).2.Holds nonce more := by
  rw [remember, if_neg hnew]
  refine ⟨_, [], List.drop_append_of_le_length ?_, by simpa⟩
  simp
  omega

theorem Holds.remember (h : cache.Holds nonce (more + 1)) (other : String) :
    (cache.remember other).2.Holds nonce more := by
  obtain ⟨before, after, horder, hroom⟩ := h
  unfold HeartbeatReplayCache.remember
  split
  . exact ⟨before, after, horder, Nat.lt_of_succ_lt hroom⟩
  . -- what is dropped for the new nonce came before this one
    dsimp only
    rw [horder, List.append_assoc]
    refine ⟨_, after ++ [other], List.drop_append_of_le_length ?_, ?_⟩
    . simp
      omega
    . simp
      omega

end HeartbeatReplayCache

namespace HeartbeatReceiver

variable {host} {receiver : HeartbeatReceiver} {raw : Value} {nowMillis : Nat}
  {heartbeat : ProviderHeartbeat Binding Body} {nonce : String}

theorem receive_eq_some : (receiver.receive host raw nowMillis).1 = some heartbeat ↔
      checkHeartbeat host receiver.limits raw nowMillis = .ok heartbeat ∧
        heartbeat.nonce ∉ receiver.replayCache.order := by
  unfold receive validateProviderHeartbeat
  cases hcheck : checkHeartbeat host receiver.limits raw nowMillis with
  | error => simp
  | ok checked =>
    have hremember := receiver.replayCache.remember_fst checked.nonce
    by_cases hseen : checked.nonce ∈ receiver.replayCache.order
    . grind
    . grind

theorem receive_snd : (receiver.receive host raw nowMillis).2.limits = receiver.limits ∧
    (receiver.receive host raw nowMillis).2.replayCache =
      (validateProviderHeartbeat host receiver raw nowMillis).2 := by
  dsimp only [receive]
  split
  . exact ⟨rfl, rfl⟩
  . exact ⟨rfl, rfl⟩

theorem mem_receive (h : nonce ∈ (receiver.receive host raw nowMillis).2.replayCache.order) :
    nonce ∈ receiver.replayCache.order ∨ ∃ received, checkHeartbeat host receiver.limits raw nowMillis =
        .ok received ∧ received.nonce = nonce := by
  rw [receive_snd.2] at h
  unfold validateProviderHeartbeat at h
  split at h
  . exact .inl h
  . next received hcheck =>
    rcases HeartbeatReplayCache.mem_remember h with hold | rfl
    . exact .inl hold
    . exact .inr ⟨received, hcheck, rfl⟩

variable {messages : List (Value × Nat)}

theorem receiveAll_limits (host : HeartbeatHost Value Binding Body) :
    (receiver.receiveAll host messages).limits = receiver.limits := by
  induction messages generalizing receiver with
  | nil => rfl
  | cons message messages ih => exact ih.trans receive_snd.1

theorem mem_receiveAll (h : nonce ∈ (receiver.receiveAll host messages).replayCache.order) :
    nonce ∈ receiver.replayCache.order ∨ ∃ message ∈ messages, ∃ received, checkHeartbeat host receiver.limits
        message.1 message.2 = .ok received ∧ received.nonce = nonce := by
  induction messages generalizing receiver with
  | nil => exact .inl h
  | cons message messages ih =>
    rcases ih h with hfirst | ⟨later, hlater, received, hcheck, hnonce⟩
    . rcases mem_receive hfirst with hold | hreceived
      . exact .inl hold
      . exact .inr ⟨message, List.mem_cons_self, hreceived⟩
    . rw [receive_snd.1] at hcheck
      exact .inr ⟨later, List.mem_cons_of_mem _ hlater, received, hcheck, hnonce⟩

theorem receiveAll_holds (h : receiver.replayCache.Holds nonce
      (messages.countP fun message => (checkHeartbeat host receiver.limits message.1 message.2).isOk)) :
    (receiver.receiveAll host messages).replayCache.Holds nonce 0 := by
  induction messages generalizing receiver with
  | nil => exact h
  | cons message messages ih =>
    apply ih
    rw [receive_snd.1, receive_snd.2, validateProviderHeartbeat]
    cases hcheck : checkHeartbeat host receiver.limits message.1 message.2 with
    | error =>
      rw [List.countP_cons_of_neg (by simp [hcheck, Except.isOk, Except.toBool])] at h
      exact h
    | ok =>
      rw [List.countP_cons_of_pos (by simp [hcheck, Except.isOk, Except.toBool])] at h
      exact h.remember _

/--
The nonce of an accepted heartbeat is refused until as many other valid heartbeats have come
as the cache has room for.
-/
theorem replay_refused (host : HeartbeatHost Value Binding Body) (receiver : HeartbeatReceiver)
    {raw again : Value} {nowMillis later : Nat} {heartbeat replayed : ProviderHeartbeat Binding Body}
    (haccepted : (receiver.receive host raw nowMillis).1 = some heartbeat)
    (hroom : messages.countP (fun message => (checkHeartbeat host receiver.limits message.1 message.2).isOk) <
      receiver.replayCache.capacity)
    (hagain : (((receiver.receive host raw nowMillis).2.receiveAll host messages).receive host again later).1 =
      some replayed) : replayed.nonce ≠ heartbeat.nonce := by
  rw [receive_eq_some] at haccepted hagain
  have hheld : ((receiver.receive host raw nowMillis).2.receiveAll host messages).replayCache.Holds
    heartbeat.nonce 0 := by
    apply receiveAll_holds
    rw [receive_snd.1, receive_snd.2, validateProviderHeartbeat, haccepted.1]
    exact HeartbeatReplayCache.remember_holds haccepted.2 hroom
  obtain ⟨_, _, horder, -⟩ := hheld
  intro hnonce
  apply hagain.2
  simp [horder, hnonce]

def ofProvider (host : HeartbeatHost Value Binding Body) (provider : String) (message : Value × Nat) : Bool :=
  ((host.fromValue message.1).toOption.map (·.provider)) == some provider

/--
What is accepted when only the heartbeats of its provider are received is accepted among those of the others
exactly when its nonce is not in the cache then, and so when no checked heartbeat before it had the nonce.
-/
theorem accepted_among_others (host : HeartbeatHost Value Binding Body) (limits : HeartbeatLimits)
    (messages : List (Value × Nat)) (raw : Value) (nowMillis : Nat) (heartbeat : ProviderHeartbeat Binding Body)
    (halone : (((withLimits limits).receiveAll host
      (messages.filter (ofProvider host heartbeat.provider))).receive host raw nowMillis).1 = some heartbeat) :
    let among := (withLimits limits).receiveAll host messages
    ((among.receive host raw nowMillis).1 = some heartbeat ↔ heartbeat.nonce ∉ among.replayCache.order) ∧
      ((∀ message ∈ messages, ∀ received, checkHeartbeat host limits message.1 message.2 = .ok received →
        received.nonce ≠ heartbeat.nonce) → (among.receive host raw nowMillis).1 = some heartbeat) := by
  intro among
  rw [receive_eq_some, receiveAll_limits host] at halone ⊢
  rw [and_iff_right halone.1]
  refine ⟨Iff.rfl, fun hfresh hseen => ?_⟩
  rcases mem_receiveAll hseen with hstart | ⟨message, hmessage, received, hcheck, hnonce⟩
  . cases hstart
  . exact hfresh message hmessage received hcheck hnonce

def plainHost : HeartbeatHost (ProviderHeartbeat Unit Unit) Unit Unit where
  fromValue heartbeat := .ok heartbeat
  getStr _ _ := none
  validateBinding _ := .ok ()
  validateHeartbeatFields _ := .ok ()
  verifyHeartbeatSignature _ _ _ := .ok ()

def plainHeartbeat (provider nonce : String) : ProviderHeartbeat Unit Unit :=
  ⟨"hb", 4, contractVersion, provider, none, 0, nonce, "", ()⟩

theorem replay_refused_plain : (((((withLimits ⟨0, 0⟩).receive plainHost (plainHeartbeat "a" "1") 0).2.receiveAll
    plainHost [(plainHeartbeat "b" "2", 0)]).receive plainHost (plainHeartbeat "a" "1") 0).1 ≠
      some (plainHeartbeat "a" "1")) :=
  fun hagain => replay_refused plainHost (withLimits ⟨0, 0⟩) rfl (by decide) hagain rfl

theorem accepted_among_others_plain :
    (((withLimits ⟨0, 0⟩).receiveAll plainHost [(plainHeartbeat "b" "2", 0)]).receive plainHost
      (plainHeartbeat "a" "1") 0).1 = some (plainHeartbeat "a" "1") :=
  (accepted_among_others plainHost ⟨0, 0⟩ _ _ 0 _ rfl).2 fun message hmessage received hcheck => by
    obtain rfl := List.mem_singleton.mp hmessage
    cases hcheck
    decide

/--
A heartbeat of another provider that carries the same nonce silences the provider.
-/
theorem silenced_by_nonce :
    ((withLimits ⟨0, 0⟩).receive plainHost (plainHeartbeat "a" "1") 0).1 = some (plainHeartbeat "a" "1") ∧
      (((withLimits ⟨0, 0⟩).receiveAll plainHost [(plainHeartbeat "b" "1", 0)]).receive plainHost
        (plainHeartbeat "a" "1") 0).1 = none :=
  ⟨rfl, rfl⟩

end HeartbeatReceiver

end Mayhem.Gateway
