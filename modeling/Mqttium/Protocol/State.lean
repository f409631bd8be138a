import Mqttium.Library.Raising
import Mqttium.Persistence.Store
import Mqttium.Protocol.Config
import Mqttium.Protocol.FlowControl
import Mqttium.Protocol.PacketIds

/-! The engine's state, and the operations both directions share: emitting an
effect, calling the store and tearing the connection down. -/

namespace Mqttium.Protocol

open Codec Library Packets Persistence

/-- An entry of the outbound queue: the admitted record itself, or the
payload-free summary a replay put there. -/
inductive QueueEntry where
  | message (stored : OutboundMessage)
  | summary (stored : OutboundMessageSummary)
  deriving DecidableEq, Repr

namespace QueueEntry

def mid : QueueEntry → Nat
  | message stored => stored.mid
  | summary stored => stored.mid

def state : QueueEntry → OutboundQoSState
  | message stored => stored.state
  | summary stored => stored.state

def logicalSize : QueueEntry → Nat
  | message stored => stored.logicalSize
  | summary stored => stored.logicalSize

end QueueEntry

structure OutboundSession where
  flow : FlowControl
  packetIds : PacketIdPool := .clear
  queued : List QueueEntry := []
  parked : Finset Nat := ∅
  /-- Publications this client already failed to its caller; the value says
  whether the PUBLISH may have been sent. -/
  sealed : Dict Nat Bool := .empty
  pendingMessages : Nat := 0
  pendingBytes : Nat := 0
  topicAliases : Dict Nat Text := .empty

/-- Bounded replay page iterator with one-message pushback. `groups` are the
identifiers of the pages not yet hydrated. -/
structure InboundReplayCursor where
  groups : List (List Nat)
  pageMessages : Option (List InRow) := none
  pending : Option InRow := none
  remaining : Int

structure InboundSession where
  aliases : Dict Nat Text := .empty
  topicAliasMaximum : Nat
  receiveMaximum : Nat
  currentPersistedMids : Finset Nat := ∅
  exchangeTokens : Dict Nat Token := .empty
  /-- The next exchange identity. -/
  nextToken : Token := 0
  pendingCompletions : Dict Nat InboundQoSState := .empty
  autoackHandoffRequired : Bool := false
  pendingAutoQos1Mids : Finset Nat := ∅
  pendingPubcomps : Finset Nat := ∅
  pendingPubcompSlots : Nat := 0
  pendingManualQos1Acks : Finset Nat := ∅
  replay : Option InboundReplayCursor := none
  recoveredMids : Finset Nat := ∅
  pendingBytes : Nat := 0
  manualQos1Order : List Nat := []
  storedInbound : Nat := 0

structure Engine where
  config : EngineConfig
  store : Store
  state : ConnectionState := .new
  sessionPresent : Bool := false
  negotiated : NegotiatedSettings := {}
  effects : List Effect := []
  outbound : OutboundSession
  inbound : InboundSession
  preferSessionResume : Bool := false
  sessionClientId : Option Text := none
  sentClientId : Text
  sentCleanStart : Bool := false
  sentSessionExpiryInterval : Option Nat := none
  sentMaximumPacketSize : Option Nat := none
  sentRequestProblemInformation : Nat := 1
  sentRequestResponseInformation : Nat := 0
  authMethod : Option Text := none
  reauthInProgress : Bool := false
  authChallenges : Nat := 0
  authResponseDue : Option Nat := none
  pendingSubRequests : Dict Nat (PacketType × Nat) := .empty

def Engine.codec (engine : Engine) : CodecBindings := bindCodec engine.config.protocol

def Engine.isV5 (engine : Engine) : Bool := engine.codec.isMqtt5

abbrev EngineM := EStateM Failure Engine

def modifyOutbound (change : OutboundSession → OutboundSession) : EngineM PUnit :=
  modify fun engine => { engine with outbound := change engine.outbound }

def modifyInbound (change : InboundSession → InboundSession) : EngineM PUnit :=
  modify fun engine => { engine with inbound := change engine.inbound }

def emit (effect : Effect) : EngineM PUnit :=
  modify fun engine => { engine with effects := engine.effects ++ [effect] }

def send (item : WriteItem) : EngineM PUnit := emit (.send item)

/-- Emit a success acknowledgement without making the writer rediscover its type. -/
def sendAck (frame : Bytes) : EngineM PUnit := emit (.sendAck frame)

/-- Run one call of the store. A faulty call raises before or after its effect. -/
def storeCall {Value : Type} (call : StoreCall) (run : Store → Value × Store) : EngineM Value := do
  let engine ← get
  match engine.store.nextFault call with
  | (none, store) =>
    set { engine with store := (run store).2 }
    return (run store).1
  | (some .beforeEffect, store) =>
    set { engine with store }
    throw .backend
  | (some .afterEffect, store) =>
    set { engine with store := (run store).2 }
    throw .backend

/-- A store call that only reads. -/
def storeRead {Value : Type} (call : StoreCall) (read : Store → Value) : EngineM Value :=
  storeCall call fun store => (read store, store)

def checkOutboundSize (item : WriteItem) : EngineM PUnit := do
  let engine ← get
  match engine.negotiated.maximumPacketSize with
  | none => return ⟨⟩
  | some limit =>
    raiseIf (limit < item.size) (.packetTooLarge
      s!"Encoded packet size {item.size} exceeds broker maximum_packet_size {limit}")

/-- End the connection's state machine and any AUTH exchange on it. -/
def enterDisconnected : EngineM PUnit :=
  modify fun engine =>
    { engine with reauthInProgress := false, authResponseDue := none, state := .disconnected }

/-- Whether any publication, sealed ones included, owns an identifier. -/
def OutboundSession.holdsPacketIds (outbound : OutboundSession) : Bool :=
  0 < outbound.pendingMessages ∨ ¬ outbound.sealed.isEmpty

/-- Release the connection-scoped SUBSCRIBE and UNSUBSCRIBE identifiers. -/
def releasePendingSubscriptionRequests : EngineM PUnit := do
  let engine ← get
  onlyIf (engine.pendingSubRequests.isEmpty = false) do
    if engine.outbound.holdsPacketIds then
      modifyOutbound fun outbound =>
        { outbound with
          packetIds := engine.pendingSubRequests.keys.foldl PacketIdPool.release outbound.packetIds }
    else
      modifyOutbound fun outbound => { outbound with packetIds := .clear }
    modify fun engine => { engine with pendingSubRequests := .empty }

/-- Tear the connection down, announcing why when the version allows it. A peer
limit can make even the error packet impossible to send. -/
def protocolDisconnect (reasonCode : Nat) : EngineM PUnit := do
  let engine ← get
  onlyIf engine.codec.isMqtt5 do
    let packet ← fromExcept (engine.codec.encodeDisconnect reasonCode none)
    let fits ← tryCatch (do checkOutboundSize (.contiguous packet); return true) fun failure =>
      match failure with
      | .packetTooLarge _ => return false
      | other => throw other
    onlyIf fits (send (.contiguous packet))
  enterDisconnected
  releasePendingSubscriptionRequests
  emit (.disconnected reasonCode none false)

/-- The Request Problem Information obligation negotiated in CONNECT. -/
def validateInboundProblemInformation (packetType : PacketType) (properties : Option Properties) :
    EngineM PUnit := do
  let engine ← get
  let informs := properties.any fun table =>
    (table.get .reasonString).isSome || (table.get .userProperty).isSome
  onlyIf (engine.codec.isMqtt5 ∧ engine.sentRequestProblemInformation = 0 ∧ informs) do
    protocolDisconnect 0x82
    throw (.protocol
      s!"{packetType.name} includes problem information after Request Problem Information=0")

end Mqttium.Protocol
