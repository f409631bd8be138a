import Mqttium.Enums
import Mqttium.Codec.Text
import Mqttium.Library.Dict

namespace Mqttium

open Codec Library

/-- The property names of the MQTT 5 table; any other name a caller passes. -/
inductive PropertyName where
  | payloadFormatIndicator | messageExpiryInterval | contentType | responseTopic | correlationData
  | subscriptionIdentifier | sessionExpiryInterval | assignedClientIdentifier | serverKeepAlive
  | authenticationMethod | authenticationData | requestProblemInformation | willDelayInterval
  | requestResponseInformation | responseInformation | serverReference | reasonString
  | receiveMaximum | topicAliasMaximum | topicAlias | maximumQos | retainAvailable | userProperty
  | maximumPacketSize | wildcardSubscriptionAvailable | subscriptionIdentifierAvailable
  | sharedSubscriptionAvailable
  | other (name : String)
  deriving DecidableEq, Repr

inductive Scalar where
  | int (value : Int)
  | text (value : Text)
  | bytes (value : Bytes)
  | none
  deriving DecidableEq, Repr

/-- One value of a repeatable property: a scalar or, for user properties, a tuple. -/
inductive PropertyItem where
  | scalar (value : Scalar)
  | tuple (parts : List Scalar)
  deriving DecidableEq, Repr

inductive PropertyValue where
  | scalar (value : Scalar)
  | tuple (items : List PropertyItem)
  deriving DecidableEq, Repr

/-- Owned, immutable MQTT 5 properties in the order they were given. -/
structure Properties where
  values : Dict PropertyName PropertyValue
  deriving DecidableEq, Repr

namespace Properties

/-- An absent value and a stored `None` read the same. -/
def get (properties : Properties) (name : PropertyName) : Option PropertyValue :=
  match properties.values.get? name with
  | some (.scalar .none) => none
  | found => found

/-- A single integer value. -/
def int? (properties : Properties) (name : PropertyName) : Option Int :=
  match properties.get name with
  | some (.scalar (.int value)) => some value
  | _ => none

def isEmpty (properties : Properties) : Bool := properties.values.isEmpty

def empty : Properties := ⟨Dict.empty⟩

instance : Inhabited Properties := ⟨empty⟩

end Properties

/-- Absent and empty tables are both falsy. -/
def hasProperties : Option Properties → Bool
  | some properties => !properties.isEmpty
  | none => false

/-- `_properties_without_topic_alias`: an alias names a mapping of one connection only. -/
def propertiesWithoutTopicAlias : Option Properties → Option Properties
  | some properties =>
    if properties.get .topicAlias = none then some properties
    else some ⟨properties.values.erase .topicAlias⟩
  | none => none

/-- Identity of one inbound exchange, compared by identity in the runtime. -/
abbrev Token := Nat

/-- Application message handed to the client. -/
structure Message where
  topic : Text
  payload : Bytes
  qos : QoS
  retain : Bool
  dup : Bool
  mid : Option Nat
  properties : Option Properties
  ackToken : Option Token
  deriving DecidableEq, Repr

/-- One socket write: contiguous bytes, or a header and a shared payload. -/
inductive WriteItem where
  | contiguous (frame : Bytes)
  | segmented (header payload : Bytes)
  deriving DecidableEq, Repr

def segmentThreshold : Nat := 128 * 1024

namespace WriteItem

def size : WriteItem → Nat
  | contiguous frame => frame.length
  | segmented header payload => header.length + payload.length

/-- The bytes that start the frame; every header field lies in them. -/
def header : WriteItem → Bytes
  | contiguous frame => frame
  | segmented header _ => header

/-- What goes on the wire, in one buffer or two. -/
def bytes : WriteItem → Bytes
  | contiguous frame => frame
  | segmented header payload => header ++ payload

@[simp] theorem length_bytes (item : WriteItem) : item.bytes.length = item.size := by
  cases item <;> simp [bytes, size]

end WriteItem

structure OutboundMessage where
  mid : Nat
  topic : Text
  payload : Bytes
  qos : QoS
  retain : Bool
  state : OutboundQoSState
  dup : Bool := false
  properties : Option Properties := none
  encodedPublish : Option WriteItem := none
  encodedPubrel : Option Bytes := none
  logicalSize : Nat := 0
  deriving DecidableEq, Repr

/-- Payload-free durable outbound metadata used for lazy replay queues. -/
structure OutboundMessageSummary where
  mid : Nat
  topic : Text
  payloadSize : Nat
  qos : QoS
  retain : Bool
  state : OutboundQoSState
  dup : Bool := false
  properties : Option Properties := none
  logicalSize : Nat := 0
  deriving DecidableEq, Repr

def OutboundMessageSummary.fromMessage (message : OutboundMessage) : OutboundMessageSummary where
  mid := message.mid
  topic := message.topic
  payloadSize := message.payload.length
  qos := message.qos
  retain := message.retain
  state := message.state
  dup := message.dup
  properties := message.properties
  logicalSize := message.logicalSize

structure OutboundRecordMeta where
  mid : Nat
  state : OutboundQoSState
  logicalSize : Nat
  deriving DecidableEq, Repr

structure InboundRecordMeta where
  mid : Nat
  state : InboundQoSState
  userAcked : Bool
  delivered : Bool := false
  logicalSize : Nat := 0
  deriving DecidableEq, Repr

structure InboundMessage where
  mid : Nat
  topic : Text
  payload : Bytes
  qos : QoS
  retain : Bool
  state : InboundQoSState
  delivered : Bool := false
  properties : Option Properties := none
  userAcked : Bool := false
  logicalSize : Nat := 0
  deriving DecidableEq, Repr

end Mqttium
