import Mqttium.Codec.Roundtrip
import Mqttium.Library.Grammar
import Mqttium.Packets.Common

/-! The grammar of CONNECT, read off the wire format and independent of the encoders: a
server that knows nothing of this client reads the packet this way. -/

namespace Mqttium.Packets.Grammar

open Codec Library Reader

/-! Primitive fields -/

def readOctet : Reader UInt8 Nat := do return (← next).toNat

def readU16 : Reader UInt8 Nat := do
  let high ← readOctet
  let low ← readOctet
  return high * 256 + low

def readU32 : Reader UInt8 Nat := do
  let high ← readU16
  let low ← readU16
  return high * 65536 + low

/-- The digits behind the first; the last one of a shortest form is not zero. -/
def readVbiRest : Nat → Reader UInt8 Nat
  | 0 => failure
  | left + 1 => do
    let digit ← readOctet
    if digit < 128 then do
      guard (digit ≠ 0)
      return digit
    else do
      let rest ← readVbiRest left
      return digit - 128 + 128 * rest

def readVbi : Reader UInt8 Nat := do
  let digit ← readOctet
  if digit < 128 then return digit
  else do
    let rest ← readVbiRest 3
    return digit - 128 + 128 * rest

def readBinary : Reader UInt8 Bytes := do
  let size ← readU16
  take size

/-- Well-formed UTF-8 without U+0000. -/
def readText : Reader UInt8 Text := do
  let data ← readBinary
  match decodeUtf8 data with
  | some text => do
    guard (hasNull text = false)
    return text
  | none => failure

def readItem : PropType → Reader UInt8 PropertyItem
  | .byte => do
    let value ← readOctet
    return .scalar (.int value)
  | .u16 => do
    let value ← readU16
    return .scalar (.int value)
  | .u32 => do
    let value ← readU32
    return .scalar (.int value)
  | .vbi => do
    let value ← readVbi
    return .scalar (.int value)
  | .string => do
    let value ← readText
    return .scalar (.text value)
  | .stringPair => do
    let key ← readText
    let value ← readText
    return .tuple [.text key, .text value]
  | .binary => do
    let value ← readBinary
    return .scalar (.bytes value)

/-! Property tables -/

/-- The properties as they stand on the wire, one by one. -/
abbrev Listing := List (PropertyName × PropertyItem)

abbrev Known := Nat → Option (PropertyName × PropType)

def connectProperty : Known
  | 0x11 => some (.sessionExpiryInterval, .u32)
  | 0x15 => some (.authenticationMethod, .string)
  | 0x16 => some (.authenticationData, .binary)
  | 0x17 => some (.requestProblemInformation, .byte)
  | 0x19 => some (.requestResponseInformation, .byte)
  | 0x21 => some (.receiveMaximum, .u16)
  | 0x22 => some (.topicAliasMaximum, .u16)
  | 0x26 => some (.userProperty, .stringPair)
  | 0x27 => some (.maximumPacketSize, .u32)
  | _ => none

def willProperty : Known
  | 0x01 => some (.payloadFormatIndicator, .byte)
  | 0x02 => some (.messageExpiryInterval, .u32)
  | 0x03 => some (.contentType, .string)
  | 0x08 => some (.responseTopic, .string)
  | 0x09 => some (.correlationData, .binary)
  | 0x18 => some (.willDelayInterval, .u32)
  | 0x26 => some (.userProperty, .stringPair)
  | _ => none

def switches : List PropertyName :=
  [.payloadFormatIndicator, .requestProblemInformation, .requestResponseInformation]

def limits : List PropertyName := [.receiveMaximum, .maximumPacketSize]

def isTopicName (topic : Text) : Bool := topic ≠ [] && !hasWildcard topic

def legalTopic : PropertyItem → Bool
  | .scalar (.text topic) => isTopicName topic
  | _ => true

def legalValue (name : PropertyName) (item : PropertyItem) : Bool :=
  (name ∉ switches || isInt 0 item || isInt 1 item) &&
  (name ∉ limits || !isInt 0 item) &&
  (name ≠ .responseTopic || legalTopic item)

def readProperty (known : Known) : Reader UInt8 (PropertyName × PropertyItem) := do
  let id ← readVbi
  match known id with
  | some (name, type) => do
    let item ← readItem type
    guard (legalValue name item)
    return (name, item)
  | none => failure

/-- The names that may stand once only. -/
def singles (listing : Listing) : List PropertyName :=
  (listing.map Prod.fst).filter (· ≠ .userProperty)

def readProperties (known : Known) : Reader UInt8 Listing := do
  let size ← readVbi
  let listing ← block size (many (readProperty known))
  guard (singles listing).Nodup
  return listing

/-- A property table stands in MQTT 5 only. -/
def readTable (protocol : ProtocolVersion) (known : Known) : Reader UInt8 Listing :=
  if protocol = .mqttv5 then readProperties known else return []

/-! The packet -/

structure ConnectFlags where
  cleanStart : Bool
  will : Bool
  willQos : QoS
  willRetain : Bool
  password : Bool
  username : Bool
  deriving DecidableEq, Repr

structure WillFields where
  qos : QoS
  retain : Bool
  properties : Listing
  topic : Text
  payload : Bytes
  deriving DecidableEq, Repr

structure ConnectFields where
  protocol : ProtocolVersion
  flags : ConnectFlags
  keepalive : Nat
  properties : Listing
  clientId : Text
  will : Option WillFields
  username : Option Text
  password : Option Bytes
  deriving DecidableEq, Repr

/-- The reserved bit is zero, a Will QoS and Will Retain need a Will, and before MQTT 5 a
password needs a user name. -/
def readFlags (protocol : ProtocolVersion) : Reader UInt8 ConnectFlags := do
  let bits ← readOctet
  guard (bits.testBit 0 = false)
  match QoS.ofLevel? (bits / 8 % 4) with
  | some willQos => do
    let flags := {
      cleanStart := bits.testBit 1, will := bits.testBit 2, willQos, willRetain := bits.testBit 5,
      password := bits.testBit 6, username := bits.testBit 7 : ConnectFlags }
    guard (flags.will = false → flags.willQos = .atMostOnce ∧ flags.willRetain = false)
    guard (protocol = .mqttv311 → flags.password = true → flags.username = true)
    return flags
  | none => failure

def readWhen (present : Bool) {Value : Type} (reader : Reader UInt8 Value) :
    Reader UInt8 (Option Value) :=
  if present then do
    let value ← reader
    return some value
  else return none

/-- A payload that is announced as text has to be text. -/
def payloadFormat (properties : Listing) (payload : Bytes) : Prop :=
  (.payloadFormatIndicator, .scalar (.int 1)) ∈ properties → (decodeUtf8 payload).isSome

instance (properties : Listing) (payload : Bytes) : Decidable (payloadFormat properties payload) :=
  inferInstanceAs (Decidable (_ → _))

def readWill (protocol : ProtocolVersion) (flags : ConnectFlags) : Reader UInt8 WillFields := do
  let properties ← readTable protocol willProperty
  let topic ← readText
  guard (isTopicName topic)
  let payload ← readBinary
  guard (payloadFormat properties payload)
  return { qos := flags.willQos, retain := flags.willRetain, properties, topic, payload }

def readProtocol : Reader UInt8 ProtocolVersion := do
  let name ← readText
  guard (name = Text.ofString "MQTT")
  let level ← readOctet
  match level with
  | 4 => return .mqttv311
  | 5 => return .mqttv5
  | _ => failure

/-- Authentication data belongs to a method. -/
def authenticated (properties : Listing) : Prop :=
  .authenticationData ∈ properties.map Prod.fst → .authenticationMethod ∈ properties.map Prod.fst

instance (properties : Listing) : Decidable (authenticated properties) :=
  inferInstanceAs (Decidable (_ → _))

def readBody : Reader UInt8 ConnectFields := do
  let protocol ← readProtocol
  let flags ← readFlags protocol
  let keepalive ← readU16
  let properties ← readTable protocol connectProperty
  guard (authenticated properties)
  let clientId ← readText
  let will ← readWhen flags.will (readWill protocol flags)
  let username ← readWhen flags.username readText
  let password ← readWhen flags.password readBinary
  return { protocol, flags, keepalive, properties, clientId, will, username, password }

/-- One CONNECT: its type, zero flags and a Remaining Length that its body fills. -/
def readConnect : Reader UInt8 ConnectFields := do
  let first ← readOctet
  guard (first / 16 = 1 ∧ first % 16 = 0)
  let remaining ← readVbi
  block remaining readBody

/-- The CONNECT that makes up all of the bytes. -/
def parseConnect (packet : Bytes) : Option ConnectFields := readConnect.whole packet

end Mqttium.Packets.Grammar
