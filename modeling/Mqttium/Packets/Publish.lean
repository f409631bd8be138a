import Mqttium.Packets.Common

/-! PUBLISH encode and decode, one routine per protocol version. -/

namespace Mqttium.Packets

open Codec

/-- The fields of a decoded QoS 1/2 PUBLISH. -/
structure PublishFields where
  topic : Text
  payload : Bytes
  mid : Nat
  retain : Bool
  dup : Bool
  properties : Option Properties
  propertyWireSize : Option Nat
  deriving DecidableEq, Repr

def decodeQos0MessageV311 (raw : RawPacket) : Except Failure Message := do
  if raw.dupFlag then .error (.malformedPacket "QoS 0 PUBLISH must not set DUP")
  else
    let (topic, pos) ← unpackUtf8 raw.remaining 0
    if topic = [] then .error (.malformedPacket "PUBLISH topic must not be empty")
    else
      validateReceivedPublishTopic topic
      return { topic, payload := raw.remaining.drop pos, qos := .atMostOnce,
               retain := raw.retainFlag, dup := false, mid := none, properties := none,
               ackToken := none }

def decodeQos0MessageV5 (raw : RawPacket) : Except Failure (Message × Nat) := do
  if raw.dupFlag then .error (.malformedPacket "QoS 0 PUBLISH must not set DUP")
  else
    let (topic, tablePos) ← unpackUtf8 raw.remaining 0
    let (properties, pos) ← decodeProperties raw.remaining tablePos .publish
    validateReceivedPublishTopic topic
    return ({ topic, payload := raw.remaining.drop pos, qos := .atMostOnce,
              retain := raw.retainFlag, dup := false, mid := none,
              properties := some properties, ackToken := none }, pos - tablePos)

def decodeQos12FieldsV311 (raw : RawPacket) : Except Failure PublishFields := do
  let (topic, midPos) ← unpackUtf8 raw.remaining 0
  if topic = [] then .error (.malformedPacket "PUBLISH topic must not be empty")
  else
    validateReceivedPublishTopic topic
    let (mid, pos) ← unpackU16 raw.remaining midPos
    requireNonzeroMid mid "PUBLISH"
    return { topic, payload := raw.remaining.drop pos, mid, retain := raw.retainFlag,
             dup := raw.dupFlag, properties := none, propertyWireSize := none }

/-- `decode_publish_fields_v5` for QoS 1 and 2, where it reads a packet identifier. -/
def decodePublishFieldsV5 (raw : RawPacket) : Except Failure PublishFields := do
  let (topic, midPos) ← unpackUtf8 raw.remaining 0
  let (mid, tablePos) ← unpackU16 raw.remaining midPos
  requireNonzeroMid mid "PUBLISH"
  let (properties, pos) ← decodeProperties raw.remaining tablePos .publish
  -- A non-empty topic is validated before it can establish an alias.
  validateReceivedPublishTopic topic
  return { topic, payload := raw.remaining.drop pos, mid, retain := raw.retainFlag,
           dup := raw.dupFlag, properties := some properties,
           propertyWireSize := some (pos - tablePos) }

/-- What `encode_publish_item` takes; the last two fields are encodings the caller
already has. -/
structure PublishRequest where
  topic : Text
  payload : Bytes
  qos : QoS
  retain : Bool
  dup : Bool
  mid : Option Nat
  properties : Option Properties
  topicBytes : Option Bytes := none
  propertyBytes : Option Bytes := none
  deriving DecidableEq, Repr

namespace PublishRequest

def flags (request : PublishRequest) : Nat :=
  request.qos.level * 2 + (if request.retain then 1 else 0) + (if request.dup then 8 else 0)

/-- The packet identifier rules of each QoS level. -/
def checkMid (request : PublishRequest) : Except Failure Unit :=
  match request.qos, request.mid with
  | .atMostOnce, none =>
    if request.dup then .error (.protocol "QoS 0 PUBLISH must not set DUP") else .ok ()
  | .atMostOnce, some _ =>
    .error (.protocol "QoS 0 PUBLISH must not carry a packet identifier")
  | _, none => .error (.protocol "QoS > 0 PUBLISH requires a packet identifier")
  | _, some mid => requireOutboundMid mid "PUBLISH"

def midBytes (request : PublishRequest) : Bytes :=
  match request.mid with
  | some mid => [byte (mid / 256 % 256), byte (mid % 256)]
  | none => []

/-- Assemble the frame around an encoded topic and property table. -/
def assemble (request : PublishRequest) (topicBytes table : Bytes) : Except Failure WriteItem := do
  let remainingLength :=
    2 + topicBytes.length + request.midBytes.length + table.length + request.payload.length
  if maxVbi < remainingLength then
    .error (.packetTooLarge
      s!"PUBLISH remaining length {remainingLength} exceeds MQTT wire maximum {maxVbi}")
  else
    let start ← appendVbi [byte (PacketType.publish.code + request.flags)] remainingLength
    let header := start ++
      [byte (topicBytes.length / 256 % 256), byte (topicBytes.length % 256)] ++
      topicBytes ++ request.midBytes ++ table
    if segmentThreshold ≤ request.payload.length then
      return .segmented header request.payload
    else
      return .contiguous (header ++ request.payload)

def encodedTopic (request : PublishRequest) : Except Failure Bytes :=
  match request.topicBytes with
  | some encoded => .ok encoded
  | none => encodeUtf8 request.topic

def encodedTable (request : PublishRequest) : Except Failure Bytes :=
  match request.propertyBytes with
  | some encoded => .ok encoded
  | none =>
    if hasProperties request.properties then do
      validatePayloadFormat request.payload request.properties
      encodeProperties request.properties .publish
    else .ok [0]

end PublishRequest

def encodePublishItemV311 (request : PublishRequest) : Except Failure WriteItem := do
  request.checkMid
  request.assemble (← request.encodedTopic) []

def encodePublishItemV5 (request : PublishRequest) : Except Failure WriteItem := do
  request.checkMid
  let topicBytes ← request.encodedTopic
  request.assemble topicBytes (← request.encodedTable)

end Mqttium.Packets
