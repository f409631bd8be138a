import Mqttium.Protocol.Engine

/-! Runs of the engine: calls in any order, and the frames that leave on the
current connection. A call that raises keeps the state it was left in. -/

namespace Mqttium.Protocol

open Codec Library Packets Persistence

/-- The engine that `Engine.create` hydrates. -/
def Engine.started (config : EngineConfig) (store : Store)
    (recovered : Finset Nat × Nat × List Nat) : Engine :=
  { Engine.blank config store with
    inbound := { (Engine.blank config store).inbound with
      recoveredMids := recovered.1
      pendingBytes := recovered.2.1
      storedInbound := recovered.1.card
      manualQos1Order := if config.manualAck then recovered.2.2 else [] } }

theorem create_ok {config : EngineConfig} {store : Store} {engine : Engine}
    (created : Engine.create config store = .ok engine) :
    ∃ recovered, loadRecoveredState store = .ok recovered ∧
      Outbound.hydrate (Engine.started config store recovered) = .ok ⟨⟩ engine := by
  unfold Engine.create at created
  obtain ⟨⟨mids, bytes, qos1⟩, loaded, created⟩ := except_bind_ok.mp created
  refine ⟨⟨mids, bytes, qos1⟩, loaded, ?_⟩
  dsimp only at created
  split at created
  · next hydrated =>
    cases created
    exact hydrated
  · cases created

/-- One call of the engine's owner. -/
inductive Command where
  | beginConnect
  | queuePublish (choice : Nat) (call : Outbound.PublishCall)
  /-- The owner's QoS 0 path beside the effects; `admitted` is the writer's answer. -/
  | tryDirectQos0Publish (call : Outbound.PublishCall) (admitted : Bool)
  | queueSubscribe (choice : Nat) (subscriptions : List Subscription)
      (properties : Option Properties)
  | queueUnsubscribe (choice : Nat) (topics : List Text)
  | queuePing
  | beginDisconnect (reasonCode : Nat) (properties : Option Properties)
  | notifyTransportClosed
  | handleRaw (raw : RawPacket)
  | sealPublications (mids : List Nat)
  | continueInboundReplay
  | markInboundDelivered (mid : Nat) (token : Option Token)
  | ack (mid : Nat) (message : Option Message)
  | respondAuth (challenge : Option Nat) (reasonCode : Nat) (properties : Option Properties)
  | queueAuth (reasonCode : Nat) (properties : Option Properties)
  | takeEffects

/-- Hand a QoS 0 PUBLISH to the writer directly. It is declined while effects are
pending, and the alias it sets counts from the writer's admission on. -/
def tryDirectQos0Publish (call : Outbound.PublishCall) (admitted : Bool) : EngineM (Option WriteItem) := do
  let engine ← get
  if engine.state ≠ .connected ∨ engine.effects ≠ [] then return none
  else do
    let item ← Outbound.prepareQos0 call
    if admitted then do
      onlyIf (call.properties.bind (·.get .topicAlias)).isSome
        (Outbound.commitTopicAlias call.topic call.properties)
      return some item
    else return none

namespace Command

/-- The call itself. Its answer is the frame the owner writes without an effect. -/
def run : Command → EngineM (Option WriteItem)
  | beginConnect => (fun wire => some (.contiguous wire)) <$> Protocol.beginConnect
  | queuePublish choice call => (fun _ => none) <$> Outbound.queuePublish choice call
  | tryDirectQos0Publish call admitted => Protocol.tryDirectQos0Publish call admitted
  | queueSubscribe choice subscriptions properties =>
    (fun _ => none) <$> Protocol.queueSubscribe choice subscriptions properties
  | queueUnsubscribe choice topics => (fun _ => none) <$> Protocol.queueUnsubscribe choice topics
  | queuePing => (fun _ => none) <$> Protocol.queuePing
  | beginDisconnect reasonCode properties =>
    (fun wire => some (.contiguous wire)) <$> Protocol.beginDisconnect reasonCode properties
  | notifyTransportClosed => (fun _ => none) <$> Protocol.notifyTransportClosed
  | handleRaw raw => (fun _ => none) <$> Protocol.handleRaw raw
  | sealPublications mids => (fun _ => none) <$> Protocol.sealPublications mids
  | continueInboundReplay => (fun _ => none) <$> Protocol.continueInboundReplay
  | markInboundDelivered mid token => (fun _ => none) <$> Protocol.markInboundDelivered mid token
  | ack mid message => (fun _ => none) <$> Protocol.ack mid message
  | respondAuth challenge reasonCode properties =>
    (fun _ => none) <$> Protocol.respondAuth challenge reasonCode properties
  | queueAuth reasonCode properties => (fun _ => none) <$> Protocol.queueAuth reasonCode properties
  | takeEffects => (fun _ => none) <$> Protocol.takeEffects

end Command

/-- The frame an effect sends. -/
def Effect.frame? : Effect → Option WriteItem
  | .send item => some item
  | .sendAck frame => some (.contiguous frame)
  | _ => none

/-- The frames of the effects that a call added. -/
def emitted (before after : Engine) : List WriteItem :=
  (after.effects.drop before.effects.length).filterMap Effect.frame?

theorem emitted_self (engine : Engine) : emitted engine engine = [] := by
  simp [emitted]

/-- The engine and the frames of its current connection, in the order it gave them out. -/
structure Session where
  engine : Engine
  sent : List WriteItem := []

namespace Session

/-- Apply one call. A CONNECT starts a connection. -/
def step (session : Session) (command : Command) : Session :=
  match command.run session.engine with
  | .ok returned after =>
    match command with
    | .beginConnect => { engine := after, sent := returned.toList }
    | _ =>
      { engine := after, sent := session.sent ++ emitted session.engine after ++ returned.toList }
  | .error _ after => { engine := after, sent := session.sent ++ emitted session.engine after }

section

variable {session : Session} {command : Command} {returned : Option WriteItem} {after : Engine}

theorem step_connect (ended : Command.beginConnect.run session.engine = .ok returned after) :
    session.step .beginConnect = { engine := after, sent := returned.toList } := by
  simp only [step, ended]

theorem step_ok (ended : command.run session.engine = .ok returned after)
    (other : command ≠ .beginConnect) :
    session.step command =
      { engine := after
        sent := session.sent ++ emitted session.engine after ++ returned.toList } := by
  simp only [step, ended]

theorem step_error {failure : Failure} (ended : command.run session.engine = .error failure after) :
    session.step command =
      { engine := after, sent := session.sent ++ emitted session.engine after } := by
  simp only [step, ended]

theorem step_engine (ended : command.run session.engine = .ok returned after) :
    (session.step command).engine = after := by
  by_cases connects : command = .beginConnect
  · subst connects
    rw [step_connect ended]
  · rw [step_ok ended connects]

/-- What holds however the call ends holds of the engine it leaves. -/
theorem step_sat {post : Engine → Prop}
    (runs : Sat command.run session.engine (fun _ => post) fun _ => post) :
    post (session.step command).engine := by
  cases ended : command.run session.engine with
  | ok returned after =>
    rw [step_engine ended]
    exact runs.ok ended
  | error failure after =>
    rw [step_error ended]
    exact runs.error ended

end

def run (session : Session) (commands : List Command) : Session := commands.foldl step session

@[simp] theorem run_nil (session : Session) : session.run [] = session := rfl

@[simp] theorem run_concat (session : Session) (commands : List Command) (command : Command) :
    session.run (commands ++ [command]) = (session.run commands).step command := by
  simp [run]

/-- What one call preserves holds after any run. -/
theorem run_induction {property : Session → Prop} {session : Session} (start : property session)
    (step : ∀ current command, property current → property (current.step command))
    (commands : List Command) : property (session.run commands) := by
  induction commands using List.reverseRecOn with
  | nil => exact start
  | append_singleton commands command ih =>
    rw [run_concat]
    exact step _ command ih

end Session

end Mqttium.Protocol
