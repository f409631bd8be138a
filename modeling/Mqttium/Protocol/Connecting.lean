import Mqttium.Packets.Connect
import Mqttium.Protocol.Engine

/-! The CONNECT of `begin_connect`: the request, what its encoder accepts, and that the
grammar reads every field of it back. -/

namespace Mqttium.Packets

open Codec Library

namespace ConnectPacket

/-- The fields a packet is to carry. -/
def fields (packet : ConnectPacket) : Grammar.ConnectFields where
  protocol := packet.protocol
  flags := {
    cleanStart := packet.cleanStart
    will := packet.willTopic.isSome
    willQos := packet.willQos
    willRetain := packet.willRetain
    password := packet.password.isSome
    username := packet.username.isSome }
  keepalive := packet.keepalive
  properties := Grammar.listing packet.properties
  clientId := packet.clientId
  will := packet.willTopic.map fun topic => {
    qos := packet.willQos
    retain := packet.willRetain
    properties := Grammar.listing packet.willProperties
    topic := topic
    payload := packet.willPayload }
  username := packet.username
  password := packet.password

/-- What `begin_connect` checks before it encodes a packet. -/
structure Admitted (packet : ConnectPacket) : Prop where
  named : packet.protocol = .mqttv311 → packet.password.isSome = true → packet.username.isSome = true
  topic : ∀ topic, packet.willTopic = some topic → ∃ size, validatePublishTopic topic = .ok size

/-- What the encoder checks before it assembles a byte. -/
structure Accepted (packet : ConnectPacket) : Prop where
  table : packet.protocol ≠ .mqttv5 → hasProperties packet.properties = false
  willTable : packet.protocol ≠ .mqttv5 → hasProperties packet.willProperties = false
  flags : packet.willTopic = none → packet.willQos = .atMostOnce ∧ packet.willRetain = false
  format : packet.protocol = .mqttv5 →
    validatePayloadFormat packet.willPayload packet.willProperties = .ok ()
  authentication : packet.protocol = .mqttv5 →
    (packet.properties.bind (·.get .authenticationData)).isSome = true →
    packet.properties.bind (·.get .authenticationMethod) ≠ none

theorem accepted_validate {packet : ConnectPacket} (ok : packet.validate = .ok ()) :
    packet.Accepted := by
  obtain ⟨_, ok⟩ := except_guard_ok.mp ok
  obtain ⟨table, ok⟩ := except_guard_ok.mp ok
  obtain ⟨willTable, ok⟩ := except_guard_ok.mp ok
  obtain ⟨flags, ok⟩ := except_guard_ok.mp ok
  obtain ⟨_, ok⟩ := except_guard_ok.mp ok
  obtain ⟨_, ok⟩ := except_guard_ok.mp ok
  obtain ⟨_, ok⟩ := except_guard_ok.mp ok
  have checked : packet.protocol = .mqttv5 →
      validatePayloadFormat packet.willPayload packet.willProperties = .ok () ∧
        ((packet.properties.bind (·.get .authenticationData)).isSome = true →
          packet.properties.bind (·.get .authenticationMethod) ≠ none) := by
    intro five
    rw [if_pos five] at ok
    obtain ⟨_, format, ok⟩ := except_bind_ok.mp ok
    refine ⟨format, fun data missing => ?_⟩
    simp [five, data, missing] at ok
  refine ⟨?_, ?_, ?_, fun five => (checked five).1, fun five => (checked five).2⟩
  · intro other
    by_contra present
    exact table ⟨other, by simpa using present⟩
  · intro other
    by_contra present
    exact willTable ⟨other, by simpa using present⟩
  · intro absent
    by_contra set
    apply flags
    refine ⟨absent, ?_⟩
    by_cases qos : packet.willQos = .atMostOnce
    · exact .inr (by simpa [qos] using set)
    · exact .inl qos

/-- The parts of an encoded packet, in the order of the wire. -/
theorem encode_parts {packet : ConnectPacket} {wire : Bytes} (ok : packet.encode = .ok wire) :
    packet.Accepted ∧ ∃ keepalive table clientId will username password length body,
      packU16 packet.keepalive = .ok keepalive ∧
      requestTable packet.protocol packet.properties .connect = .ok table ∧
      packUtf8 packet.clientId = .ok clientId ∧
      packet.willBytes = .ok will ∧
      packet.usernameBytes = .ok username ∧
      packet.passwordBytes = .ok password ∧
      body = protocolPrefix packet.protocol ++ ([byte packet.flags] ++ (keepalive ++ (table ++
        (clientId ++ (will ++ (username ++ password)))))) ∧
      encodeVbi body.length = .ok length ∧
      wire = [byte 0x10] ++ (length ++ body) := by
  obtain ⟨_, validated, ok⟩ := except_bind_ok.mp ok
  obtain ⟨keepalive, packed, ok⟩ := except_bind_ok.mp ok
  obtain ⟨table, tabled, ok⟩ := except_bind_ok.mp ok
  obtain ⟨clientId, identified, ok⟩ := except_bind_ok.mp ok
  obtain ⟨will, willed, ok⟩ := except_bind_ok.mp ok
  obtain ⟨username, named, ok⟩ := except_bind_ok.mp ok
  obtain ⟨password, sealed, ok⟩ := except_bind_ok.mp ok
  rw [encodeFrame, if_neg (by decide), appendVbi] at ok
  obtain ⟨header, begun, ok⟩ := except_bind_ok.mp ok
  obtain ⟨length, sized, begun⟩ := except_bind_ok.mp begun
  cases begun
  cases ok
  refine ⟨accepted_validate validated, keepalive, table, clientId, will, username, password, length,
    _, packed, tabled, identified, willed, named, sealed, rfl, ?_, ?_⟩
  · rw [← sized]
    congr 1
    simp only [List.length_append, List.length_cons, List.length_nil]
    omega
  · simp [PacketType.code]

end ConnectPacket

namespace Grammar

open Reader

def level : ProtocolVersion → UInt8
  | .mqttv311 => 4
  | .mqttv5 => 5

theorem prefix_level (protocol : ProtocolVersion) :
    ConnectPacket.protocolPrefix protocol = [0, 4, 77, 81, 84, 84] ++ ([level protocol] ++ []) := by
  cases protocol <;> rfl

theorem reads_protocol (protocol : ProtocolVersion) :
    Reads readProtocol (ConnectPacket.protocolPrefix protocol) protocol := by
  have name : packUtf8 (Text.ofString "MQTT") = .ok [0, 4, 77, 81, 84, 84] := by rfl
  rw [prefix_level]
  refine (reads_text name).bind ?_
  refine (Reads.check rfl).step ?_
  refine (reads_octet (level protocol)).bind ?_
  cases protocol with
  | mqttv311 => exact .pure _
  | mqttv5 => exact .pure _

theorem reads_when {Value : Type} {reader : Reader UInt8 Value} {data : Bytes}
    {value : Option Value} (absent : value = none → data = [])
    (present : ∀ found, value = some found → Reads reader data found) :
    Reads (readWhen value.isSome reader) data value := by
  cases value with
  | none =>
    rw [absent rfl]
    exact .pure none
  | some found => exact (present found rfl).yield

/-- The flags byte as the packet assembles it. -/
def flagBits (flags : ConnectFlags) : Nat :=
  (if flags.cleanStart then 0x02 else 0) +
  (if flags.will then 0x04 + flags.willQos.level * 8 + (if flags.willRetain then 0x20 else 0) else 0) +
  (if flags.password then 0x40 else 0) +
  (if flags.username then 0x80 else 0)

theorem flags_bits (packet : ConnectPacket) : packet.flags = flagBits packet.fields.flags := rfl

/-- Every bit of the flags byte says what it is for. -/
theorem flagBits_spec (flags : ConnectFlags)
    (plain : flags.will = false → flags.willQos = .atMostOnce ∧ flags.willRetain = false) :
    flagBits flags < 256 ∧ (flagBits flags).testBit 0 = false ∧
    (flagBits flags).testBit 1 = flags.cleanStart ∧ (flagBits flags).testBit 2 = flags.will ∧
    QoS.ofLevel? (flagBits flags / 8 % 4) = some flags.willQos ∧
    (flagBits flags).testBit 5 = flags.willRetain ∧ (flagBits flags).testBit 6 = flags.password ∧
    (flagBits flags).testBit 7 = flags.username := by
  obtain ⟨cleanStart, will, willQos, willRetain, password, username⟩ := flags
  cases will with
  | false =>
    obtain ⟨rfl, rfl⟩ := plain rfl
    revert cleanStart password username
    decide
  | true =>
    cases willQos with
    | atMostOnce =>
      clear plain
      revert cleanStart willRetain password username
      decide
    | atLeastOnce =>
      clear plain
      revert cleanStart willRetain password username
      decide
    | exactlyOnce =>
      clear plain
      revert cleanStart willRetain password username
      decide

theorem reads_flags {protocol : ProtocolVersion} {flags : ConnectFlags}
    (plain : flags.will = false → flags.willQos = .atMostOnce ∧ flags.willRetain = false)
    (named : protocol = .mqttv311 → flags.password = true → flags.username = true) :
    Reads (readFlags protocol) [byte (flagBits flags)] flags := by
  obtain ⟨small, reserved, cleanStart, will, qos, retain, password, username⟩ :=
    flagBits_spec flags plain
  rw [← List.append_nil [byte _]]
  refine (reads_byte small).bind ?_
  refine (Reads.check reserved).step ?_
  simp only [cleanStart, will, qos, retain, password, username]
  refine (Reads.check plain).step ?_
  exact (Reads.check named).step (.pure flags)

theorem topicName_validated {topic : Text} {size : Nat} (ok : validatePublishTopic topic = .ok size) :
    isTopicName topic = true := by
  unfold validatePublishTopic at ok
  by_cases empty : topic = []
  · simp [empty] at ok
  · rw [if_neg empty] at ok
    obtain ⟨_, _, ok⟩ := except_bind_ok.mp ok
    cases wild : hasWildcard topic with
    | true => simp [wild] at ok
    | false => simp [isTopicName, empty, wild]

/-- The Will's table announces text only where the payload is text. -/
theorem payloadFormat_validated {properties : Option Properties} {payload data : Bytes}
    (ok : encodeProperties properties .will = .ok data)
    (validated : validatePayloadFormat payload properties = .ok ()) :
    payloadFormat (listing properties) payload := by
  intro member
  obtain ⟨table, value, rfl, present, among⟩ := listing_key member
  obtain ⟨scalar, rfl, _⟩ := key_listing ok (by rfl) (by rfl) present
  have same : scalar = .int 1 := by simpa [PropertyValue.items, eq_comm] using among
  subst same
  have announced : table.int? .payloadFormatIndicator = some 1 := by
    simp [Properties.int?, Properties.get, present]
  by_contra malformed
  simp [validatePayloadFormat, announced, Option.not_isSome_iff_eq_none.mp malformed] at validated

theorem reads_will {packet : ConnectPacket} {topic : Text} {data : Bytes}
    (admitted : packet.Admitted) (accepted : packet.Accepted) (will : packet.willTopic = some topic)
    (ok : packet.willBytes = .ok data) :
    Reads (readWill packet.protocol packet.fields.flags) data {
      qos := packet.willQos, retain := packet.willRetain,
      properties := listing packet.willProperties, topic, payload := packet.willPayload } := by
  obtain ⟨size, valid⟩ := admitted.topic topic will
  simp only [ConnectPacket.willBytes, will] at ok
  obtain ⟨table, tabled, ok⟩ : ∃ table,
      (if packet.protocol = .mqttv5 then encodeProperties packet.willProperties .will
        else .ok []) = .ok table ∧
      (do
        let encoded ← packUtf8 topic
        return table ++ encoded ++ (← packU16 packet.willPayload.length) ++ packet.willPayload) =
          .ok data := by
    split at ok
    · next five =>
      obtain ⟨table, tabled, ok⟩ := except_bind_ok.mp ok
      exact ⟨table, by rwa [if_pos five], ok⟩
    · next other => exact ⟨[], if_neg other, ok⟩
  obtain ⟨encoded, packed, ok⟩ := except_bind_ok.mp ok
  obtain ⟨length, sized, ok⟩ := except_bind_ok.mp ok
  cases ok
  have format : payloadFormat (listing packet.willProperties) packet.willPayload := by
    by_cases five : packet.protocol = .mqttv5
    · rw [if_pos five] at tabled
      exact payloadFormat_validated tabled (accepted.format five)
    · intro member
      rw [listing_none (accepted.willTable five)] at member
      cases member
  rw [show table ++ encoded ++ length ++ packet.willPayload =
    table ++ (encoded ++ ((length ++ packet.willPayload) ++ [])) by simp]
  refine (reads_table describes_will accepted.willTable tabled).bind ?_
  refine (reads_text packed).bind ?_
  refine (Reads.check (topicName_validated valid)).step ?_
  refine (reads_sized sized).bind ?_
  exact (Reads.check format).step (.pure _)

theorem reads_optionalWill {packet : ConnectPacket} {data : Bytes} (admitted : packet.Admitted)
    (accepted : packet.Accepted) (ok : packet.willBytes = .ok data) :
    Reads (readWhen packet.fields.flags.will (readWill packet.protocol packet.fields.flags)) data
      packet.fields.will := by
  cases will : packet.willTopic with
  | none =>
    rw [ConnectPacket.willBytes, will] at ok
    cases ok
    simp only [ConnectPacket.fields, will]
    exact .pure none
  | some topic =>
    have present : packet.fields.flags.will = true := by simp [ConnectPacket.fields, will]
    have carried : packet.fields.will = some {
        qos := packet.willQos, retain := packet.willRetain,
        properties := listing packet.willProperties, topic, payload := packet.willPayload } := by
      simp [ConnectPacket.fields, will]
    rw [present, carried]
    exact (reads_will admitted accepted will ok).yield

theorem reads_username {packet : ConnectPacket} {data : Bytes}
    (ok : packet.usernameBytes = .ok data) :
    Reads (readWhen packet.username.isSome readText) data packet.username := by
  refine reads_when ?_ ?_
  · intro absent
    rw [ConnectPacket.usernameBytes, absent] at ok
    cases ok
    rfl
  · intro name present
    rw [ConnectPacket.usernameBytes, present] at ok
    exact reads_text ok

theorem reads_password {packet : ConnectPacket} {data : Bytes}
    (ok : packet.passwordBytes = .ok data) :
    Reads (readWhen packet.password.isSome readBinary) data packet.password := by
  refine reads_when ?_ ?_
  · intro absent
    rw [ConnectPacket.passwordBytes, absent] at ok
    cases ok
    rfl
  · intro secret present
    simp only [ConnectPacket.passwordBytes, present] at ok
    obtain ⟨length, sized, ok⟩ := except_bind_ok.mp ok
    cases ok
    exact reads_sized sized

theorem authenticated_accepted {packet : ConnectPacket} {table : Bytes}
    (accepted : packet.Accepted)
    (ok : requestTable packet.protocol packet.properties .connect = .ok table) :
    authenticated (listing packet.properties) := by
  intro data
  obtain ⟨⟨name, item⟩, member, rfl⟩ := List.mem_map.mp data
  obtain ⟨given, value, same, present, among⟩ := listing_key member
  have five : packet.protocol = .mqttv5 := by
    by_contra other
    rw [listing_none (accepted.table other)] at member
    cases member
  rw [requestTable, if_pos five, same] at ok
  have sent : (given.get .authenticationData).isSome = true := by
    obtain ⟨scalar, rfl, _, data, encoded⟩ := key_listing ok (by rfl) (by rfl) present
    cases scalar with
    | bytes value => simp [Properties.get, present]
    | int value => cases encoded
    | text value => cases encoded
    | none => cases encoded
  have method : given.get .authenticationMethod ≠ none := by
    have required := accepted.authentication five
    simp only [same, Option.bind_some] at required
    exact required sent
  obtain ⟨named, found⟩ : ∃ named, given.values.get? .authenticationMethod = some named := by
    cases found : given.values.get? .authenticationMethod with
    | none => exact absurd (by simp [Properties.get, found]) method
    | some named => exact ⟨named, rfl⟩
  obtain ⟨scalar, rfl, member, _⟩ := key_listing ok (by rfl) (by rfl) found
  rw [same]
  exact List.mem_map.mpr ⟨_, member, rfl⟩

/-- The fields of a packet are read off the bytes that encode it, and nothing is left. -/
theorem parseConnect_encode {packet : ConnectPacket} {wire : Bytes} (admitted : packet.Admitted)
    (ok : packet.encode = .ok wire) : parseConnect wire = some packet.fields := by
  obtain ⟨accepted, keepalive, table, clientId, will, username, password, length, body, packed,
    tabled, identified, willed, named, sealed, parts, sized, rfl⟩ := ConnectPacket.encode_parts ok
  have plain : packet.fields.flags.will = false →
      packet.fields.flags.willQos = .atMostOnce ∧ packet.fields.flags.willRetain = false :=
    fun absent => accepted.flags (Option.isSome_eq_false_iff.mp absent |> Option.isNone_iff_eq_none.mp)
  have fields : Reads readBody body packet.fields := by
    rw [parts, flags_bits]
    refine (reads_protocol packet.protocol).bind ?_
    refine (reads_flags plain admitted.named).bind ?_
    refine (reads_u16 packed).bind ?_
    refine (reads_table describes_connect accepted.table tabled).bind ?_
    refine (Reads.check (authenticated_accepted accepted tabled)).step ?_
    refine (reads_text identified).bind ?_
    refine (reads_optionalWill admitted accepted willed).bind ?_
    refine (reads_username named).bind ?_
    exact (reads_password sealed).yield
  have complete : Reads readConnect ([byte 0x10] ++ (length ++ body)) packet.fields := by
    refine (reads_octet (byte 0x10)).bind ?_
    refine (Reads.check (by decide)).step ?_
    refine (reads_vbi sized).bind ?_
    exact Reads.block fields.whole
  exact complete.whole

end Grammar

end Mqttium.Packets

namespace Mqttium.Protocol

open Codec Library Packets

/-- The CONNECT that `begin_connect` assembles from the configuration. -/
def connectRequest (config : EngineConfig) (clientId : Text) (cleanStart : Bool) : ConnectPacket where
  clientId := clientId
  cleanStart := cleanStart
  keepalive := config.keepalive
  username := config.username
  password := config.password
  willTopic := config.will.map Message.topic
  willPayload := (config.will.map Message.payload).getD []
  willQos := (config.will.map Message.qos).getD .atMostOnce
  willRetain := (config.will.map Message.retain).getD false
  willProperties := config.willProperties
  protocol := config.protocol
  properties := connectProperties config

/-- A prepared CONNECT has passed every check and is the encoded request. -/
theorem prepareConnect_ok {engine : Engine} {cleanStart : Bool} {clientId : Text} {wire : Bytes}
    (ok : prepareConnect engine cleanStart = .ok (clientId, wire)) :
    clientIdForConnect engine cleanStart = .ok clientId ∧
      (connectRequest engine.config clientId cleanStart).Admitted ∧
      (connectRequest engine.config clientId cleanStart).encode = .ok wire := by
  obtain ⟨chosen, identified, ok⟩ := except_bind_ok.mp ok
  split at ok
  · cases ok
  next named =>
  split at ok
  · cases ok
  split at ok
  · cases ok
  have topic : ∀ will, engine.config.will = some will →
      ∃ size, validatePublishTopic will.topic = .ok size := by
    intro will present
    rw [present] at ok
    obtain ⟨_, checked, _⟩ := except_bind_ok.mp ok
    exact except_discard_ok.mp checked
  have last : (do
      let encoded ← (connectRequest engine.config chosen cleanStart).encode
      return (chosen, encoded)) = Except.ok (clientId, wire) := by
    split at ok
    · obtain ⟨_, _, ok⟩ := except_bind_ok.mp ok
      exact ok
    · exact ok
  obtain ⟨encoded, built, same⟩ := except_bind_ok.mp last
  cases same
  refine ⟨identified, ⟨?_, ?_⟩, built⟩
  · intro old secret
    by_contra anonymous
    exact named ⟨old, secret, by simpa [connectRequest] using anonymous⟩
  · intro given present
    obtain ⟨will, configured, rfl⟩ := Option.map_eq_some_iff.mp present
    exact topic will configured

/-- A CONNECT that `begin_connect` returned is the encoded request of its session. -/
theorem beginConnect_ok {engine after : Engine} {wire : Bytes}
    (ok : beginConnect engine = .ok wire after) :
    (connectRequest engine.config after.sentClientId after.sentCleanStart).Admitted ∧
      (connectRequest engine.config after.sentClientId after.sentCleanStart).encode = .ok wire := by
  have sat : Sat beginConnect engine (fun wire after =>
      (connectRequest engine.config after.sentClientId after.sentCleanStart).Admitted ∧
        (connectRequest engine.config after.sentClientId after.sentCleanStart).encode = .ok wire)
      fun _ _ => True := by
    simp only [beginConnect, Inbound.startConnection, modifyInbound, sat_bind, sat_get,
      sat_raiseIf, sat_fromExcept, sat_modify, sat_pure, implies_true, true_and, and_true]
    rintro _ ⟨clientId, wire⟩ prepared
    exact (prepareConnect_ok prepared).2
  exact sat.ok ok

/-- Encoding is refused, or the grammar reads the packet to its last byte and finds every
field, with the flags of the parts that are there; `begin_connect` encodes admitted
requests only, and its CONNECT carries what the configuration and the session gave. -/
theorem connect_encoding :
    (∀ packet : ConnectPacket, packet.Admitted →
      (∃ failure, packet.encode = .error failure) ∨
      ∃ wire, packet.encode = .ok wire ∧ Grammar.parseConnect wire = some packet.fields) ∧
    ∀ (engine after : Engine) (wire : Bytes), beginConnect engine = .ok wire after →
      (connectRequest engine.config after.sentClientId after.sentCleanStart).Admitted ∧
      Grammar.parseConnect wire =
        some (connectRequest engine.config after.sentClientId after.sentCleanStart).fields := by
  refine ⟨?_, ?_⟩
  · intro packet admitted
    cases built : packet.encode with
    | error failure => exact .inl ⟨failure, rfl⟩
    | ok wire => exact .inr ⟨wire, rfl, Grammar.parseConnect_encode admitted built⟩
  · intro engine after wire ok
    obtain ⟨admitted, built⟩ := beginConnect_ok ok
    exact ⟨admitted, Grammar.parseConnect_encode admitted built⟩

/-- A Will with an empty payload and a password without a user name, under MQTT 5. -/
def mournfulPacket : ConnectPacket where
  clientId := [99]
  keepalive := 30
  password := some []
  willTopic := some [119]
  willQos := .exactlyOnce
  willRetain := true
  willProperties := some ⟨⟨[(.willDelayInterval, .scalar (.int 5))], by decide⟩⟩
  protocol := .mqttv5
  properties := some ⟨⟨[(.receiveMaximum, .scalar (.int 20)),
    (.userProperty, .tuple [.tuple [.text [97], .text []], .tuple [.text [97], .text []]])],
    by decide⟩⟩

theorem mournful_admitted : mournfulPacket.Admitted where
  named old := nomatch old
  topic topic will := by
    cases will
    exact ⟨1, rfl⟩

theorem connect_encoding_mournful :
    ∃ wire, mournfulPacket.encode = .ok wire ∧
      Grammar.parseConnect wire = some mournfulPacket.fields := by
  have encoding := connect_encoding.1 mournfulPacket mournful_admitted
  refine encoding.resolve_left ?_
  rintro ⟨failure, refused⟩
  cases refused

end Mqttium.Protocol
