import Mqttium.Packets.Ack
import Mqttium.Packets.Publish

/-! CONNECT, CONNACK, SUBSCRIBE and its answers, DISCONNECT and AUTH, and the
table that binds one routine of each kind to a protocol version. -/

namespace Mqttium.Packets

open Codec

def connackV311Reasons : List Nat := [0, 1, 2, 3, 4, 5]

def connackV5Reasons : List Nat :=
  [0x00, 0x80, 0x81, 0x82, 0x83, 0x84, 0x85, 0x86, 0x87, 0x88, 0x89, 0x8A, 0x8C, 0x90, 0x95,
   0x97, 0x99, 0x9A, 0x9B, 0x9C, 0x9D, 0x9F]

abbrev DecodedConnack := Bool × Nat × Option Properties

private def octetOf (remaining : Bytes) (index : Nat) : Nat := (remaining.getD index 0).toNat

private def connackFlags (remaining : Bytes) : Except Failure Bool :=
  if remaining.length < 2 then .error (.malformedPacket "CONNACK too short")
  else if octetOf remaining 0 = 0 then .ok false
  else if octetOf remaining 0 = 1 then .ok true
  else .error (.malformedPacket "CONNACK contains invalid acknowledge flags")

private def refuseSessionOnFailure (sessionPresent : Bool) (reason : Nat) : Except Failure Unit :=
  if reason ≠ 0 ∧ sessionPresent then
    .error (.malformedPacket "CONNACK Session Present must be 0 when connection is refused")
  else .ok ()

def decodeConnackV311 (remaining : Bytes) : Except Failure DecodedConnack := do
  let sessionPresent ← connackFlags remaining
  let reason := octetOf remaining 1
  requireReasonCode reason connackV311Reasons "CONNACK"
  requireEnd 2 remaining.length "CONNACK"
  refuseSessionOnFailure sessionPresent reason
  return (sessionPresent, reason, none)

def decodeConnackV5 (remaining : Bytes) : Except Failure DecodedConnack := do
  let sessionPresent ← connackFlags remaining
  let reason := octetOf remaining 1
  requireReasonCode reason connackV5Reasons "CONNACK"
  let (properties, pos) ← decodeProperties remaining 2 .connack
  requireEnd pos remaining.length "CONNACK"
  refuseSessionOnFailure sessionPresent reason
  return (sessionPresent, reason, some properties)

abbrev DecodedSuback := Nat × List Nat × Option Properties

private def requireReasonCodes (allowed : List Nat) (what : String) : List Nat → Except Failure Unit
  | [] => .ok ()
  | reason :: rest => do
    requireReasonCode reason allowed what
    requireReasonCodes allowed what rest

def subackV311Reasons : List Nat := [0x00, 0x01, 0x02, 0x80]

def subackV5Reasons : List Nat :=
  [0x00, 0x01, 0x02, 0x80, 0x83, 0x87, 0x8F, 0x91, 0x97, 0x9E, 0xA1, 0xA2]

def unsubackReasons : List Nat := [0x00, 0x11, 0x80, 0x83, 0x87, 0x8F, 0x91]

def decodeSubackV311 (remaining : Bytes) : Except Failure DecodedSuback := do
  if remaining.length < 3 then .error (.malformedPacket "SUBACK too short")
  else
    let (mid, pos) ← unpackU16 remaining 0
    requireNonzeroMid mid "SUBACK"
    let reasonCodes := (remaining.drop pos).map UInt8.toNat
    requireReasonCodes subackV311Reasons "SUBACK" reasonCodes
    return (mid, reasonCodes, none)

def decodeUnsubackV311 (remaining : Bytes) : Except Failure DecodedSuback := do
  if remaining.length < 2 then .error (.malformedPacket "UNSUBACK too short")
  else
    let (mid, pos) ← unpackU16 remaining 0
    requireNonzeroMid mid "UNSUBACK"
    requireEnd pos remaining.length "UNSUBACK"
    return (mid, [], none)

/-- SUBACK and UNSUBACK of MQTT 5 differ in the shortest body and the reason codes. -/
private def decodeAnswerV5 (context : PropertyContext) (shortest : Nat) (allowed : List Nat)
    (remaining : Bytes) : Except Failure DecodedSuback := do
  if remaining.length < shortest then .error (.malformedPacket s!"{context.name} too short")
  else
    let (mid, tablePos) ← unpackU16 remaining 0
    requireNonzeroMid mid context.name
    let (properties, pos) ← decodeProperties remaining tablePos context
    if remaining.length ≤ pos then
      .error (.malformedPacket s!"{context.name} missing reason codes")
    else
      let reasonCodes := (remaining.drop pos).map UInt8.toNat
      requireReasonCodes allowed context.name reasonCodes
      return (mid, reasonCodes, some properties)

def decodeSubackV5 := decodeAnswerV5 .suback 3 subackV5Reasons

def decodeUnsubackV5 := decodeAnswerV5 .unsuback 2 unsubackReasons

structure SubscribeOptions where
  qos : QoS := .atMostOnce
  noLocal : Bool := false
  retainAsPublished : Bool := false
  retainHandling : Nat := 0
  deriving DecidableEq, Repr

def SubscribeOptions.encodeByte (options : SubscribeOptions) (protocol : ProtocolVersion) :
    Except Failure UInt8 :=
  if protocol ≠ .mqttv5 then
    if options.noLocal ∨ options.retainAsPublished ∨ options.retainHandling ≠ 0 then
      .error (.protocol "SubscribeOptions v5 flags require MQTT 5")
    else .ok (byte options.qos.level)
  else if 2 < options.retainHandling then .error (.value "retain_handling must be 0, 1, or 2")
  else
    .ok (byte (options.qos.level + (if options.noLocal then 4 else 0) +
      (if options.retainAsPublished then 8 else 0) + options.retainHandling * 16))

structure Subscription where
  topic : Text
  options : SubscribeOptions := {}
  deriving DecidableEq, Repr

private def encodeSubscriptions (protocol : ProtocolVersion) :
    List Subscription → Except Failure Bytes
  | [] => .ok []
  | subscription :: rest => do
    let topic ← packUtf8 subscription.topic
    let options ← subscription.options.encodeByte protocol
    return topic ++ options :: (← encodeSubscriptions protocol rest)

private def encodeFilters : List Text → Except Failure Bytes
  | [] => .ok []
  | topic :: rest => do
    return (← packUtf8 topic) ++ (← encodeFilters rest)

/-- The property table of a request: MQTT 3.1.1 has none. -/
def requestTable (protocol : ProtocolVersion) (properties : Option Properties)
    (context : PropertyContext) : Except Failure Bytes :=
  if protocol = .mqttv5 then encodeProperties properties context else .ok []

def encodeSubscribe (protocol : ProtocolVersion) (mid : Nat) (subscriptions : List Subscription)
    (properties : Option Properties) : Except Failure Bytes := do
  if subscriptions = [] then .error (.protocol "SUBSCRIBE requires at least one filter")
  else
    requireOutboundMid mid "SUBSCRIBE"
    let table ← requestTable protocol properties .subscribe
    let filters ← encodeSubscriptions protocol subscriptions
    encodeFrame .subscribe 0x02 ((← packU16 mid) ++ table ++ filters)

def encodeUnsubscribe (protocol : ProtocolVersion) (mid : Nat) (topics : List Text)
    (properties : Option Properties) : Except Failure Bytes := do
  if topics = [] then .error (.protocol "UNSUBSCRIBE requires at least one filter")
  else
    requireOutboundMid mid "UNSUBSCRIBE"
    let table ← requestTable protocol properties .unsubscribe
    let filters ← encodeFilters topics
    encodeFrame .unsubscribe 0x02 ((← packU16 mid) ++ table ++ filters)

def pingreqFrame : Bytes := [0xC0, 0x00]

def disconnectFrame : Bytes := [0xE0, 0x00]

def disconnectReasons : List Nat :=
  [0x00, 0x04, 0x80, 0x81, 0x82, 0x83, 0x87, 0x89, 0x8B, 0x8C, 0x8D, 0x8E, 0x8F, 0x90, 0x93,
   0x94, 0x95, 0x96, 0x97, 0x98, 0x99, 0x9A, 0x9B, 0x9C, 0x9D, 0x9E, 0x9F, 0xA0, 0xA1, 0xA2]

def clientDisconnectReasons : List Nat :=
  [0x00, 0x04, 0x80, 0x81, 0x82, 0x83, 0x90, 0x93, 0x94, 0x95, 0x96, 0x97, 0x98, 0x99]

/-- "Disconnect with Will Message" is client-only. -/
def serverDisconnectReasons : List Nat := disconnectReasons.filter (· ≠ 0x04)

def authReasons : List Nat := [0x00, 0x18, 0x19]

abbrev DecodedControl := Nat × Option Properties

private def decodeControlV5 (context : PropertyContext) (allowed : List Nat) (remaining : Bytes) :
    Except Failure DecodedControl := do
  if remaining = [] then return (0, some .empty)
  else
    let reason := octetOf remaining 0
    requireReasonCode reason allowed context.name
    if remaining.length = 1 then return (reason, some .empty)
    else
      let (properties, pos) ← decodeProperties remaining 1 context
      requireEnd pos remaining.length context.name
      return (reason, some properties)

def decodeDisconnectV311 (remaining : Bytes) : Except Failure DecodedControl := do
  requireEnd 0 remaining.length "DISCONNECT"
  .error (.protocol "Server DISCONNECT is not valid before MQTT 5")

def decodeDisconnectV5 := decodeControlV5 .disconnect serverDisconnectReasons

def decodeAuthV5 := decodeControlV5 .auth authReasons

def encodeAuthV5 (reasonCode : Nat) (properties : Option Properties) : Except Failure Bytes := do
  requireOutboundReason reasonCode authReasons "AUTH"
  let table ← encodeProperties properties .auth
  encodeFrame .auth 0 (byte reasonCode :: table)

def encodeDisconnectV311 (reasonCode : Nat) (properties : Option Properties) :
    Except Failure Bytes :=
  if reasonCode ≠ 0 ∨ hasProperties properties then
    .error (.protocol "DISCONNECT reason/properties require MQTT 5")
  else .ok disconnectFrame

def encodeDisconnectV5 (reasonCode : Nat) (properties : Option Properties) :
    Except Failure Bytes := do
  requireOutboundReason reasonCode clientDisconnectReasons "DISCONNECT"
  if (properties.bind fun table => table.get .serverReference).isSome then
    .error (.protocol "DISCONNECT server_reference is Server-only and cannot be sent by a Client")
  else if reasonCode = 0 ∧ ¬ hasProperties properties then return disconnectFrame
  else
    let table ← encodeProperties properties .disconnect
    encodeFrame .disconnect 0 (byte reasonCode :: table)

structure ConnectPacket where
  clientId : Text
  cleanStart : Bool := true
  keepalive : Nat := 60
  username : Option Text := none
  password : Option Bytes := none
  willTopic : Option Text := none
  willPayload : Bytes := []
  willQos : QoS := .atMostOnce
  willRetain : Bool := false
  willProperties : Option Properties := none
  protocol : ProtocolVersion := .mqttv311
  properties : Option Properties := none
  deriving DecidableEq, Repr

namespace ConnectPacket

/-- `_validate_connect`: the wire contract, before any byte is assembled. -/
def validate (packet : ConnectPacket) : Except Failure Unit := do
  let v5 := packet.protocol = .mqttv5
  if 65535 < packet.keepalive then .error (.protocol "keepalive must be in 0..65535")
  else if ¬ v5 ∧ hasProperties packet.properties then
    .error (.protocol "CONNECT properties require MQTT 5")
  else if ¬ v5 ∧ hasProperties packet.willProperties then
    .error (.protocol "Will properties require MQTT 5")
  else if packet.willTopic = none ∧ (packet.willQos ≠ .atMostOnce ∨ packet.willRetain) then
    .error (.protocol "Will QoS/retain require a Will topic")
  else if packet.willTopic = none ∧
      (packet.willPayload ≠ [] ∨ hasProperties packet.willProperties) then
    .error (.protocol "Will payload/properties require a Will topic")
  else if 65535 < (packet.password.getD []).length then
    .error (.protocol "Password exceeds MQTT binary-data limit")
  else if 65535 < packet.willPayload.length then
    .error (.protocol "Will payload exceeds MQTT binary-data limit")
  else
    if v5 then validatePayloadFormat packet.willPayload packet.willProperties else .ok ()
    if v5 ∧ (packet.properties.bind (·.get .authenticationData)).isSome ∧
        (packet.properties.bind (·.get .authenticationMethod)) = none then
      .error (.protocol "CONNECT authentication_data requires authentication_method")
    else .ok ()

def flags (packet : ConnectPacket) : Nat :=
  (if packet.cleanStart then 0x02 else 0) +
  (if packet.willTopic.isSome then
    0x04 + packet.willQos.level * 8 + (if packet.willRetain then 0x20 else 0) else 0) +
  (if packet.password.isSome then 0x40 else 0) +
  (if packet.username.isSome then 0x80 else 0)

def protocolPrefix : ProtocolVersion → Bytes
  | .mqttv311 => [0, 4, 77, 81, 84, 84, 4]
  | .mqttv5 => [0, 4, 77, 81, 84, 84, 5]

def willBytes (packet : ConnectPacket) : Except Failure Bytes :=
  match packet.willTopic with
  | none => .ok []
  | some topic => do
    let table ←
      if packet.protocol = .mqttv5 then encodeProperties packet.willProperties .will else .ok []
    let encoded ← packUtf8 topic
    return table ++ encoded ++ (← packU16 packet.willPayload.length) ++ packet.willPayload

def usernameBytes (packet : ConnectPacket) : Except Failure Bytes :=
  match packet.username with
  | none => .ok []
  | some name => packUtf8 name

def passwordBytes (packet : ConnectPacket) : Except Failure Bytes :=
  match packet.password with
  | none => .ok []
  | some secret => do
    return (← packU16 secret.length) ++ secret

def encode (packet : ConnectPacket) : Except Failure Bytes := do
  packet.validate
  let keepalive ← packU16 packet.keepalive
  let table ← requestTable packet.protocol packet.properties .connect
  let clientId ← packUtf8 packet.clientId
  let will ← packet.willBytes
  let username ← packet.usernameBytes
  let password ← packet.passwordBytes
  encodeFrame .connect 0 (protocolPrefix packet.protocol ++ byte packet.flags :: keepalive ++
    table ++ clientId ++ will ++ username ++ password)

end ConnectPacket

/-- One closed set of encode and decode routines for a protocol version. -/
structure CodecBindings where
  protocol : ProtocolVersion
  isMqtt5 : Bool
  decodePuback : Bytes → Except Failure DecodedAck
  decodePubrec : Bytes → Except Failure DecodedAck
  decodePubrel : Bytes → Except Failure DecodedAck
  decodePubcomp : Bytes → Except Failure DecodedAck
  encodePubrel : Nat → Nat → Option Properties → Except Failure Bytes
  decodeConnack : Bytes → Except Failure DecodedConnack
  decodeSuback : Bytes → Except Failure DecodedSuback
  decodeUnsuback : Bytes → Except Failure DecodedSuback
  decodeDisconnect : Bytes → Except Failure DecodedControl
  decodeAuth : Bytes → Except Failure DecodedControl
  encodeDisconnect : Nat → Option Properties → Except Failure Bytes
  encodePublishItem : PublishRequest → Except Failure WriteItem

def bindCodec : ProtocolVersion → CodecBindings
  | .mqttv5 => {
      protocol := .mqttv5
      isMqtt5 := true
      decodePuback := decodePubackV5
      decodePubrec := decodePubrecV5
      decodePubrel := decodePubrelV5
      decodePubcomp := decodePubcompV5
      encodePubrel := encodePubrelV5
      decodeConnack := decodeConnackV5
      decodeSuback := decodeSubackV5
      decodeUnsuback := decodeUnsubackV5
      decodeDisconnect := decodeDisconnectV5
      decodeAuth := decodeAuthV5
      encodeDisconnect := encodeDisconnectV5
      encodePublishItem := encodePublishItemV5 }
  | .mqttv311 => {
      protocol := .mqttv311
      isMqtt5 := false
      decodePuback := decodePubackV311
      decodePubrec := decodePubrecV311
      decodePubrel := decodePubrelV311
      decodePubcomp := decodePubcompV311
      encodePubrel := encodePubrelV311
      decodeConnack := decodeConnackV311
      decodeSuback := decodeSubackV311
      decodeUnsuback := decodeUnsubackV311
      decodeDisconnect := decodeDisconnectV311
      decodeAuth := fun _ => .error (.protocol "AUTH requires MQTT 5")
      encodeDisconnect := encodeDisconnectV311
      encodePublishItem := encodePublishItemV311 }

end Mqttium.Packets
