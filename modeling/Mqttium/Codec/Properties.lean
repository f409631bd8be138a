import Mqttium.Codec.Primitives
import Mqttium.Library.Raising

/-! MQTT 5 property tables: the per-packet specification and the codec. -/

namespace Mqttium.Codec

open Library

inductive PropType where
  | byte | u16 | u32 | vbi | string | stringPair | binary
  deriving DecidableEq, Repr

/-- The packet, or the Will of a CONNECT, that a property table stands in. -/
inductive PropertyContext where
  | connect | connack | publish | puback | pubrec | pubrel | pubcomp | subscribe | suback
  | unsubscribe | unsuback | disconnect | auth | will
  deriving DecidableEq, Repr

def PropertyContext.name : PropertyContext → String
  | connect => "CONNECT"
  | connack => "CONNACK"
  | publish => "PUBLISH"
  | puback => "PUBACK"
  | pubrec => "PUBREC"
  | pubrel => "PUBREL"
  | pubcomp => "PUBCOMP"
  | subscribe => "SUBSCRIBE"
  | suback => "SUBACK"
  | unsubscribe => "UNSUBSCRIBE"
  | unsuback => "UNSUBACK"
  | disconnect => "DISCONNECT"
  | auth => "AUTH"
  | will => "WILL"

def allPackets : List PropertyContext :=
  [.connect, .connack, .publish, .puback, .pubrec, .pubrel, .pubcomp, .subscribe, .suback,
   .unsubscribe, .unsuback, .disconnect, .auth, .will]

structure PropertySpec where
  id : UInt8
  name : PropertyName
  type : PropType
  packets : List PropertyContext
  multiple : Bool := false
  nonzero : Bool := false
  zeroOne : Bool := false
  topicValue : Bool := false
  subscribeSingleton : Bool := false

def specs : List PropertySpec :=
  [{ id := 0x01, name := .payloadFormatIndicator, type := .byte, packets := [.publish, .will],
     zeroOne := true },
   { id := 0x02, name := .messageExpiryInterval, type := .u32, packets := [.publish, .will] },
   { id := 0x03, name := .contentType, type := .string, packets := [.publish, .will] },
   { id := 0x08, name := .responseTopic, type := .string, packets := [.publish, .will],
     topicValue := true },
   { id := 0x09, name := .correlationData, type := .binary, packets := [.publish, .will] },
   { id := 0x0B, name := .subscriptionIdentifier, type := .vbi,
     packets := [.publish, .subscribe], multiple := true, nonzero := true,
     subscribeSingleton := true },
   { id := 0x11, name := .sessionExpiryInterval, type := .u32,
     packets := [.connect, .connack, .disconnect] },
   { id := 0x12, name := .assignedClientIdentifier, type := .string, packets := [.connack] },
   { id := 0x13, name := .serverKeepAlive, type := .u16, packets := [.connack] },
   { id := 0x15, name := .authenticationMethod, type := .string,
     packets := [.connect, .connack, .auth] },
   { id := 0x16, name := .authenticationData, type := .binary,
     packets := [.connect, .connack, .auth] },
   { id := 0x17, name := .requestProblemInformation, type := .byte, packets := [.connect],
     zeroOne := true },
   { id := 0x18, name := .willDelayInterval, type := .u32, packets := [.will] },
   { id := 0x19, name := .requestResponseInformation, type := .byte, packets := [.connect],
     zeroOne := true },
   { id := 0x1A, name := .responseInformation, type := .string, packets := [.connack] },
   { id := 0x1C, name := .serverReference, type := .string, packets := [.connack, .disconnect] },
   { id := 0x1F, name := .reasonString, type := .string,
     packets := [.connack, .puback, .pubrec, .pubrel, .pubcomp, .suback, .unsuback, .disconnect,
       .auth] },
   { id := 0x21, name := .receiveMaximum, type := .u16, packets := [.connect, .connack],
     nonzero := true },
   { id := 0x22, name := .topicAliasMaximum, type := .u16, packets := [.connect, .connack] },
   { id := 0x23, name := .topicAlias, type := .u16, packets := [.publish], nonzero := true },
   { id := 0x24, name := .maximumQos, type := .byte, packets := [.connack], zeroOne := true },
   { id := 0x25, name := .retainAvailable, type := .byte, packets := [.connack], zeroOne := true },
   { id := 0x26, name := .userProperty, type := .stringPair, packets := allPackets,
     multiple := true },
   { id := 0x27, name := .maximumPacketSize, type := .u32, packets := [.connect, .connack],
     nonzero := true },
   { id := 0x28, name := .wildcardSubscriptionAvailable, type := .byte, packets := [.connack],
     zeroOne := true },
   { id := 0x29, name := .subscriptionIdentifierAvailable, type := .byte, packets := [.connack],
     zeroOne := true },
   { id := 0x2A, name := .sharedSubscriptionAvailable, type := .byte, packets := [.connack],
     zeroOne := true }]

def byId (id : UInt8) : Option PropertySpec := specs.find? fun spec => spec.id == id

def byName (name : PropertyName) : Option PropertySpec := specs.find? fun spec => spec.name == name

/-- The source spelling of a property name, as error texts quote it. -/
def propertyText : PropertyName → String
  | .payloadFormatIndicator => "payload_format_indicator"
  | .messageExpiryInterval => "message_expiry_interval"
  | .contentType => "content_type"
  | .responseTopic => "response_topic"
  | .correlationData => "correlation_data"
  | .subscriptionIdentifier => "subscription_identifier"
  | .sessionExpiryInterval => "session_expiry_interval"
  | .assignedClientIdentifier => "assigned_client_identifier"
  | .serverKeepAlive => "server_keep_alive"
  | .authenticationMethod => "authentication_method"
  | .authenticationData => "authentication_data"
  | .requestProblemInformation => "request_problem_information"
  | .willDelayInterval => "will_delay_interval"
  | .requestResponseInformation => "request_response_information"
  | .responseInformation => "response_information"
  | .serverReference => "server_reference"
  | .reasonString => "reason_string"
  | .receiveMaximum => "receive_maximum"
  | .topicAliasMaximum => "topic_alias_maximum"
  | .topicAlias => "topic_alias"
  | .maximumQos => "maximum_qos"
  | .retainAvailable => "retain_available"
  | .userProperty => "user_property"
  | .maximumPacketSize => "maximum_packet_size"
  | .wildcardSubscriptionAvailable => "wildcard_subscription_available"
  | .subscriptionIdentifierAvailable => "subscription_identifier_available"
  | .sharedSubscriptionAvailable => "shared_subscription_available"
  | .other name => name

def plus : CodePoint := 43

def hash : CodePoint := 35

def slash : CodePoint := 47

def hasWildcard (text : Text) : Bool := text.any fun point => point == plus || point == hash

/-- An integer in range, as the byte, two-byte, four-byte and VBI encoders take it. -/
def boundedInt (kind : String) (bound : Nat) : PropertyItem → Except Failure Nat
  | .scalar (.int value) =>
    if 0 ≤ value ∧ value ≤ bound then .ok value.toNat
    else .error (.protocol s!"Invalid {kind} property value: {value}")
  | item => .error (.protocol s!"Invalid {kind} property value: {item.repr}")

def packText : Scalar → Except Failure Bytes
  | .text value => packUtf8 value
  | _ => .error (.protocol "MQTT UTF-8 value must be str")

/-- The value codecs attached to each property type. -/
def encodeValue (type : PropType) (item : PropertyItem) : Except Failure Bytes :=
  match type with
  | .byte => do return [byte (← boundedInt "byte" 255 item)]
  | .u16 => do packU16 (← boundedInt "uint16" 65535 item)
  | .u32 => do packU32 (← boundedInt "uint32" 0xFFFFFFFF item)
  | .vbi => do encodeVbi (← boundedInt "VBI" 268435455 item)
  | .string =>
    match item with
    | .scalar (.text value) => packUtf8 value
    | _ => .error (.protocol s!"Invalid string property value: {item.repr}")
  | .stringPair =>
    match item with
    | .tuple [key, value] => do return (← packText key) ++ (← packText value)
    | _ => .error (.protocol s!"Invalid string-pair property value: {item.repr}")
  | .binary =>
    match item with
    | .scalar (.bytes value) =>
      match packBinary value with
      | .ok packed => .ok packed
      | .error failure => .error (.protocol s!"Invalid binary property value: {failure.text}")
    | _ => .error (.protocol s!"Invalid binary property value: {item.repr}")

def decodeValue (type : PropType) (buffer : Bytes) (offset : Nat) :
    Except Failure (PropertyItem × Nat) :=
  match type with
  | .byte =>
    if buffer.length ≤ offset then .error (.malformedPacket "Incomplete byte property")
    else .ok (.scalar (.int (buffer.getD offset 0).toNat), offset + 1)
  | .u16 => do
    let (value, pos) ← unpackU16 buffer offset
    return (.scalar (.int value), pos)
  | .u32 => do
    let (value, pos) ← unpackU32 buffer offset
    return (.scalar (.int value), pos)
  | .vbi => do
    let (value, pos) ← decodeVbi buffer offset
    return (.scalar (.int value), pos)
  | .string => do
    let (value, pos) ← unpackUtf8 buffer offset
    return (.scalar (.text value), pos)
  | .stringPair => do
    let (key, middle) ← unpackUtf8 buffer offset
    let (value, pos) ← unpackUtf8 buffer middle
    return (.tuple [.text key, .text value], pos)
  | .binary => do
    let (value, pos) ← unpackBinary buffer offset
    return (.scalar (.bytes value), pos)

/-- `_validate_response_topic`; the exception class is the caller's. -/
def validateResponseTopic (raised : String → Failure) : PropertyItem → Except Failure Unit
  | .scalar (.text value) =>
    if value = [] then .error (raised "Property 'response_topic' must not be empty")
    else if hasWildcard value then
      .error (raised "Property 'response_topic' must not contain wildcards")
    else .ok ()
  | _ => .ok ()

def isInt (expected : Int) : PropertyItem → Bool
  | .scalar (.int value) => value == expected
  | _ => false

/-- The constraints a specification puts on one value. -/
def checkValue (raised : String → Failure) (quoted : String) (spec : PropertySpec)
    (item : PropertyItem) : Except Failure Unit :=
  if spec.nonzero ∧ isInt 0 item then .error (raised s!"Property {quoted} must not be zero")
  else if spec.zeroOne ∧ ¬ (isInt 0 item ∨ isInt 1 item) then
    .error (raised s!"Property {quoted} must be 0 or 1")
  else if spec.topicValue then validateResponseTopic raised item
  else .ok ()

def PropertyValue.items : PropertyValue → List PropertyItem
  | .scalar value => [.scalar value]
  | .tuple items => items

/-- The values an entry puts on the wire, after the repetition rules. -/
def valuesOf (spec : PropertySpec) (context : PropertyContext) (value : PropertyValue) :
    Except Failure (List PropertyItem) :=
  match value with
  | .scalar single => .ok [.scalar single]
  | .tuple items =>
    if spec.multiple then
      if spec.subscribeSingleton ∧ context = .subscribe ∧ items.length ≠ 1 then
        .error (.protocol "SUBSCRIBE allows one subscription_identifier")
      else .ok items
    else .error (.protocol s!"Property '{propertyText spec.name}' is not repeatable")

def encodeItems (spec : PropertySpec) : List PropertyItem → Except Failure Bytes
  | [] => .ok []
  | item :: rest => do
    checkValue .protocol s!"'{propertyText spec.name}'" spec item
    let encoded ← encodeValue spec.type item
    return spec.id :: encoded ++ (← encodeItems spec rest)

def encodeEntries (context : PropertyContext) :
    List (PropertyName × PropertyValue) → Except Failure Bytes
  | [] => .ok []
  | (name, value) :: rest =>
    match byName name with
    | none =>
      .error (.protocol s!"Unknown property name {(Text.ofString (propertyText name)).repr}")
    | some spec =>
      if context ∉ spec.packets then
        .error (.protocol s!"Property '{propertyText name}' not allowed on {context.name}")
      else do
        let encoded ← encodeItems spec (← valuesOf spec context value)
        return encoded ++ (← encodeEntries context rest)

/-- Encode a property table with its length; an absent or empty one is a zero byte. -/
def encodeProperties (properties : Option Properties) (context : PropertyContext) :
    Except Failure Bytes :=
  match properties with
  | none => .ok [0]
  | some table =>
    if table.isEmpty then .ok [0]
    else do
      let body ← encodeEntries context table.values.entries
      return (← encodeVbi body.length) ++ body

private theorem encodeEntries_filter {context : PropertyContext}
    (keep : PropertyName × PropertyValue → Bool) {entries : List (PropertyName × PropertyValue)} {body : Bytes}
    (ok : encodeEntries context entries = .ok body) :
    ∃ shorter, encodeEntries context (entries.filter keep) = .ok shorter ∧
      shorter.length ≤ body.length := by
  induction entries generalizing body with
  | nil => exact ⟨body, ok, Nat.le_refl _⟩
  | cons entry rest ih =>
    obtain ⟨name, value⟩ := entry
    simp only [encodeEntries] at ok
    cases known : byName name with
    | none => simp [known] at ok
    | some spec =>
      by_cases refused : context ∉ spec.packets
      · simp [known, refused] at ok
      · simp only [known, refused, ↓reduceIte] at ok
        obtain ⟨values, listed, ok⟩ := except_bind_ok.mp ok
        obtain ⟨head, encoded, ok⟩ := except_bind_ok.mp ok
        obtain ⟨tail, more, ok⟩ := except_bind_ok.mp ok
        cases ok
        obtain ⟨shorter, kept, bound⟩ := ih more
        by_cases stays : keep (name, value) = true
        · refine ⟨head ++ shorter, ?_, by simpa using bound⟩
          simp only [List.filter_cons_of_pos stays, encodeEntries, known, refused, ↓reduceIte]
          exact except_bind_ok.mpr ⟨values, listed, except_bind_ok.mpr ⟨head, encoded,
            except_bind_ok.mpr ⟨shorter, kept, rfl⟩⟩⟩
        · refine ⟨shorter, by rw [List.filter_cons_of_neg stays]; exact kept, ?_⟩
          simp only [List.length_append]
          omega

/-- A table that encodes still does so without one of its properties. -/
theorem encodeProperties_erase {table : Properties} {context : PropertyContext} {data : Bytes}
    (name : PropertyName) (ok : encodeProperties (some table) context = .ok data) :
    ∃ shorter, encodeProperties (some ⟨table.values.erase name⟩) context = .ok shorter := by
  by_cases empty : ({ values := table.values.erase name } : Properties).isEmpty = true
  · exact ⟨[0], by simp [encodeProperties, empty]⟩
  · have filled : table.isEmpty = false := by
      by_contra blank
      apply empty
      simp_all [Properties.isEmpty, Dict.isEmpty, Dict.erase]
    simp only [encodeProperties, filled, empty, Bool.false_eq_true, ↓reduceIte] at ok ⊢
    obtain ⟨body, encoded, ok⟩ := except_bind_ok.mp ok
    obtain ⟨length, sized, _⟩ := except_bind_ok.mp ok
    obtain ⟨shorter, kept, bound⟩ :=
      encodeEntries_filter (fun entry => entry.1 ≠ name) encoded
    have fits : ¬ maxVbi < shorter.length := by
      intro long
      have : maxVbi < body.length := by omega
      simp [encodeVbi, this] at sized
    exact ⟨vbiDigits 4 shorter.length ++ shorter, except_bind_ok.mpr ⟨shorter, kept,
      except_bind_ok.mpr ⟨vbiDigits 4 shorter.length, if_neg fits, rfl⟩⟩⟩

private theorem encodeItems_member {spec : PropertySpec} {items : List PropertyItem} {body : Bytes}
    (ok : encodeItems spec items = .ok body) {item : PropertyItem} (member : item ∈ items) :
    ∃ encoded, encodeValue spec.type item = .ok encoded := by
  induction items generalizing body with
  | nil => cases member
  | cons head rest ih =>
    simp only [encodeItems] at ok
    obtain ⟨_, _, ok⟩ := except_bind_ok.mp ok
    obtain ⟨encoded, first, ok⟩ := except_bind_ok.mp ok
    obtain ⟨tail, more, _⟩ := except_bind_ok.mp ok
    rcases List.mem_cons.mp member with same | later
    · exact ⟨encoded, same ▸ first⟩
    · exact ih more later

private theorem encodeEntries_member {context : PropertyContext}
    {entries : List (PropertyName × PropertyValue)} {body : Bytes}
    (ok : encodeEntries context entries = .ok body) {entry : PropertyName × PropertyValue}
    (member : entry ∈ entries) :
    ∃ spec, byName entry.1 = some spec ∧ ∃ values, valuesOf spec context entry.2 = .ok values ∧
      ∀ item ∈ values, ∃ encoded, encodeValue spec.type item = .ok encoded := by
  induction entries generalizing body with
  | nil => cases member
  | cons head rest ih =>
    obtain ⟨name, value⟩ := head
    simp only [encodeEntries] at ok
    cases known : byName name with
    | none => simp [known] at ok
    | some spec =>
      by_cases refused : context ∉ spec.packets
      · simp [known, refused] at ok
      · simp only [known, refused, ↓reduceIte] at ok
        obtain ⟨values, listed, ok⟩ := except_bind_ok.mp ok
        obtain ⟨first, encoded, ok⟩ := except_bind_ok.mp ok
        obtain ⟨tail, more, _⟩ := except_bind_ok.mp ok
        rcases List.mem_cons.mp member with same | later
        · subst same
          exact ⟨spec, known, values, listed, fun _ => encodeItems_member encoded⟩
        · exact ih more later

/-- A table that encodes holds known names only, with values of their types. -/
theorem encodeProperties_member {table : Properties} {context : PropertyContext} {data : Bytes}
    (ok : encodeProperties (some table) context = .ok data)
    {entry : PropertyName × PropertyValue} (member : entry ∈ table.values.entries) :
    ∃ spec, byName entry.1 = some spec ∧ ∃ values, valuesOf spec context entry.2 = .ok values ∧
      ∀ item ∈ values, ∃ encoded, encodeValue spec.type item = .ok encoded := by
  have filled : table.isEmpty = false := by
    cases listed : table.values.entries with
    | nil => simp [listed] at member
    | cons head rest => simp [Properties.isEmpty, Dict.isEmpty, listed]
  simp only [encodeProperties, filled, Bool.false_eq_true, ↓reduceIte] at ok
  obtain ⟨body, encoded, _⟩ := except_bind_ok.mp ok
  exact encodeEntries_member encoded member

def maxRepeatableProperties : Nat := 1024

def appendItem (value : Option PropertyValue) (item : PropertyItem) : PropertyValue :=
  match value with
  | some present => .tuple (PropertyValue.items present ++ [item])
  | none => .tuple [item]

def scalarOf : PropertyItem → PropertyValue
  | .scalar value => .scalar value
  | .tuple parts => .tuple [.tuple parts]

/-- The loop of `decode_properties`. Each round consumes at least the identifier, so
`fuel` of the table's length is never used up early. -/
def decodeEntries (buffer : Bytes) (stop : Nat) (context : PropertyContext) :
    Nat → Nat → Nat → Dict PropertyName PropertyValue →
      Except Failure (Dict PropertyName PropertyValue × Nat)
  | 0, pos, _, seen => .ok (seen, pos)
  | fuel + 1, pos, repeated, seen =>
    if stop ≤ pos then .ok (seen, pos)
    else
      let id := buffer.getD pos 0
      match byId id with
      | none => .error (.malformedPacket s!"Unknown property id 0x{hex02 id.toNat}")
      | some spec =>
        let name := propertyText spec.name
        if context ∉ spec.packets then
          .error (.malformedPacket s!"Property {name} not allowed on {context.name}")
        else if spec.multiple ∧ maxRepeatableProperties < repeated + 1 then
          .error (.protocol
            s!"Repeated MQTT 5 properties exceed the {maxRepeatableProperties}-value decode budget")
        else do
          let (item, next) ← decodeValue spec.type buffer (pos + 1)
          checkValue .malformedPacket name spec item
          if spec.multiple then
            if spec.subscribeSingleton ∧ context = .subscribe then
              if seen.contains spec.name then
                .error (.malformedPacket "Duplicate subscription_identifier on SUBSCRIBE")
              else
                decodeEntries buffer stop context fuel next (repeated + 1)
                  (seen.insert spec.name (scalarOf item))
            else
              decodeEntries buffer stop context fuel next (repeated + 1)
                (seen.insert spec.name (appendItem (seen.get? spec.name) item))
          else if seen.contains spec.name then
            .error (.malformedPacket s!"Duplicate property {name}")
          else
            decodeEntries buffer stop context fuel next repeated
              (seen.insert spec.name (scalarOf item))

def decodeProperties (buffer : Bytes) (offset : Nat) (context : PropertyContext) :
    Except Failure (Properties × Nat) :=
  if buffer.length ≤ offset then .error (.malformedPacket "Missing properties length")
  else if buffer.getD offset 0 = 0 then .ok (.empty, offset + 1)
  else do
    let (length, pos) ← decodeVbi buffer offset
    let stop := pos + length
    if buffer.length < stop then
      .error (.malformedPacket "Properties length exceeds remaining data")
    else
      let (seen, last) ← decodeEntries buffer stop context length pos 0 .empty
      if last ≠ stop then
        .error (.malformedPacket "Properties length does not match consumed bytes")
      else .ok (⟨seen⟩, stop)

end Mqttium.Codec
