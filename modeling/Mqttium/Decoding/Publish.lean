import Mqttium.Codec.Roundtrip
import Mqttium.Decoding.Sessions
import Mqttium.Protocol.Outbound

/-! A PUBLISH from the encoder through the frame decoder to the reader of its fields. -/

namespace Mqttium

open Codec Library Packets Protocol

namespace Packets

/-- The reader of each protocol version and QoS, its fields under the encoder's names. -/
def decodePublish (protocol : ProtocolVersion) (qos : QoS) (raw : RawPacket) :
    Except Failure PublishRequest :=
  match protocol, qos with
  | .mqttv311, .atMostOnce => do
    let message ← decodeQos0MessageV311 raw
    return { topic := message.topic, payload := message.payload, qos := message.qos,
             retain := message.retain, dup := message.dup, mid := message.mid,
             properties := message.properties }
  | .mqttv5, .atMostOnce => do
    let (message, _) ← decodeQos0MessageV5 raw
    return { topic := message.topic, payload := message.payload, qos := message.qos,
             retain := message.retain, dup := message.dup, mid := message.mid,
             properties := message.properties }
  | .mqttv311, qos => do
    let fields ← decodeQos12FieldsV311 raw
    return { topic := fields.topic, payload := fields.payload, qos, retain := fields.retain,
             dup := fields.dup, mid := some fields.mid, properties := fields.properties }
  | .mqttv5, qos => do
    let fields ← decodePublishFieldsV5 raw
    return { topic := fields.topic, payload := fields.payload, qos, retain := fields.retain,
             dup := fields.dup, mid := some fields.mid, properties := fields.properties }

/-- The request as its receiver reads it. -/
def PublishRequest.asRead (request : PublishRequest) (protocol : ProtocolVersion) :
    PublishRequest :=
  { topic := request.topic, payload := request.payload, qos := request.qos,
    retain := request.retain, dup := request.dup, mid := request.mid
    properties := match protocol with
      | .mqttv311 => none
      | .mqttv5 => some (normalForm .publish (request.properties.getD .empty)) }

/-- The encodings a caller hands in are those of the topic and the properties. -/
structure PublishRequest.Faithful (request : PublishRequest) : Prop where
  topic : ∀ encoded, request.topicBytes = some encoded → encodeUtf8 request.topic = .ok encoded
  properties : ∀ encoded, request.propertyBytes = some encoded →
    encodeProperties request.properties .publish = .ok encoded

/-- What follows the fixed header. -/
def PublishRequest.body (request : PublishRequest) (topicBytes table : Bytes) : Bytes :=
  ([byte (topicBytes.length / 256), byte (topicBytes.length % 256)] ++ topicBytes) ++
    (request.midBytes ++ (table ++ request.payload))

section

variable {request : PublishRequest} {topicBytes table : Bytes} {item : WriteItem}

theorem assemble_bytes (ok : request.assemble topicBytes table = .ok item)
    (short : topicBytes.length < 65536) :
    (request.body topicBytes table).length ≤ maxVbi ∧
      item.bytes = byte (PacketType.publish.code + request.flags) ::
        (vbiDigits 4 (request.body topicBytes table).length ++ request.body topicBytes table) := by
  have length : (request.body topicBytes table).length = 2 + topicBytes.length +
      request.midBytes.length + table.length + request.payload.length := by
    simp only [PublishRequest.body, List.length_append, List.length_cons, List.length_nil]
    omega
  have high : topicBytes.length / 256 % 256 = topicBytes.length / 256 := by omega
  rw [length]
  simp only [PublishRequest.assemble] at ok
  split at ok
  · cases ok
  · next fits =>
    obtain ⟨start, appended, ok⟩ := except_bind_ok.mp ok
    obtain ⟨digits, encoded, appended⟩ := except_bind_ok.mp appended
    cases appended
    rw [encodeVbi, if_neg fits] at encoded
    cases encoded
    refine ⟨Nat.le_of_not_lt fits, ?_⟩
    split at ok
    · cases ok
      simp [WriteItem.bytes, PublishRequest.body, high]
    · cases ok
      simp [WriteItem.bytes, PublishRequest.body, high]

/-- The digits of a length are read back, whatever follows them. -/
theorem remainingLength_encoded {value : Nat} (small : value ≤ maxVbi) (more : Bytes) :
    remainingLength 4 1 0 (vbiDigits 4 value ++ more) =
      .known value (vbiDigits 4 value).length := by
  have encoded : encodeVbi value = .ok (vbiDigits 4 value) := if_neg (by omega)
  have read := recovers_vbi encoded (LiesAt.here (vbiDigits 4 value) [] more)
  have reported := @decodeVbi_reported (vbiDigits 4 value ++ more) 0 _ (Nat.le_refl _)
  have whole : slice (vbiDigits 4 value ++ more) 0 (vbiDigits 4 value ++ more).length =
      vbiDigits 4 value ++ more := by simp [slice]
  have bounded : decodeVbi (vbiDigits 4 value ++ more) 0
      (some (vbiDigits 4 value ++ more).length) =
      .ok (value, (vbiDigits 4 value).length) := by
    simpa [decodeVbi] using read
  rw [whole, bounded] at reported
  cases found : remainingLength 4 1 0 (vbiDigits 4 value ++ more) with
  | unfinished => simp [found, RemainingLength.Reported] at reported
  | malformed => simp [found, RemainingLength.Reported] at reported
  | known total count =>
    simp only [found, RemainingLength.Reported, Except.ok.injEq, Prod.mk.injEq, Nat.zero_add]
      at reported
    rw [← reported.1, ← reported.2]

/-- The flags of the first byte are those of the request. -/
theorem flags_fields (request : PublishRequest) :
    (byte (PacketType.publish.code + request.flags)).toNat = 48 + request.flags ∧
      request.flags < 16 ∧ request.flags / 2 % 4 = request.qos.level ∧
      (request.flags % 2 == 1) = request.retain ∧ (request.flags / 8 % 2 == 1) = request.dup := by
  obtain ⟨topic, payload, qos, retain, dup, mid, properties, topicBytes, propertyBytes⟩ := request
  rw [toNat_byte]
  cases qos <;> cases dup <;> cases retain <;>
    simp [PublishRequest.flags, PacketType.code, QoS.level]

/-- The frame decoder cuts off exactly the assembled frame. -/
theorem frame_assembled {limit : Nat} (ok : request.assemble topicBytes table = .ok item)
    (short : topicBytes.length < 65536) (admitted : item.size ≤ limit) (rest : Bytes) :
    frame limit (item.bytes ++ rest) =
      .packet ⟨.publish, request.flags, request.body topicBytes table⟩ rest := by
  obtain ⟨small, shape⟩ := assemble_bytes ok short
  obtain ⟨first, flags, _⟩ := flags_fields request
  have size := congrArg List.length shape
  simp only [WriteItem.length_bytes, List.length_cons, List.length_append] at size
  have complete : Complete limit
      (vbiDigits 4 (request.body topicBytes table).length ++ request.body topicBytes table ++ rest)
      (request.body topicBytes table).length
      (vbiDigits 4 (request.body topicBytes table).length).length := by
    refine ⟨?_, by omega, by simp only [List.length_append]; omega⟩
    rw [List.append_assoc]
    exact remainingLength_encoded small _
  rw [shape, List.cons_append, complete.frame_eq, first]
  have kind : PacketType.fromByte (48 + request.flags) = .ok .publish := by
    have : (48 + request.flags) / 16 = 3 := by omega
    simp [PacketType.fromByte, this]
  have nibble : (48 + request.flags) % 16 = request.flags := by omega
  simp only [kind, nibble, List.append_assoc, List.drop_left, List.take_left]
  rw [← List.append_assoc, ← List.length_append, List.drop_left]

theorem flags_dup (request : PublishRequest) :
    ({ request with dup := true } : PublishRequest).flags =
      if request.dup then request.flags else request.flags + 8 := by
  unfold PublishRequest.flags
  by_cases given : request.dup = true <;> simp [given]

theorem withDup_flags (request : PublishRequest) :
    Outbound.withDup (byte (PacketType.publish.code + request.flags)) =
      byte (PacketType.publish.code + ({ request with dup := true } : PublishRequest).flags) := by
  obtain ⟨first, small, _, _, dup⟩ := flags_fields request
  have marked := (flags_fields { request with dup := true }).1
  apply UInt8.toNat_inj.mp
  rw [flags_dup] at marked ⊢
  rw [marked, Outbound.withDup, first]
  by_cases given : request.dup = true
  · simp only [given, beq_iff_eq] at dup
    rw [if_pos (by omega), if_pos given, first]
  · simp only [given, beq_eq_false_iff_ne] at dup
    rw [if_neg (by omega), if_neg given, UInt8.toNat_add, first]
    have : (8 : UInt8).toNat = 8 := rfl
    omega

/-- Setting the flag in the frame is encoding with the flag set. -/
theorem assemble_dup (ok : request.assemble topicBytes table = .ok item) :
    ({ request with dup := true } : PublishRequest).assemble topicBytes table =
      .ok (Outbound.markPublishDup item) := by
  have marked := withDup_flags request
  simp only [PublishRequest.assemble] at ok ⊢
  split at ok
  · cases ok
  · next fits =>
    obtain ⟨start, appended, ok⟩ := except_bind_ok.mp ok
    obtain ⟨digits, encoded, appended⟩ := except_bind_ok.mp appended
    cases appended
    have fits' : ¬ maxVbi < 2 + topicBytes.length +
        ({ request with dup := true } : PublishRequest).midBytes.length + table.length +
        request.payload.length := fits
    rw [if_neg fits']
    refine except_bind_ok.mpr ⟨_, except_bind_ok.mpr ⟨digits, encoded, rfl⟩, ?_⟩
    split at ok
    · next large =>
      cases ok
      rw [if_pos large]
      simp [Outbound.markPublishDup, Outbound.markFrame, marked, PublishRequest.midBytes, pure,
        Except.pure]
    · next small =>
      cases ok
      rw [if_neg small]
      simp [Outbound.markPublishDup, Outbound.markFrame, marked, PublishRequest.midBytes, pure,
        Except.pure]

/-! The fields in the body -/

theorem recovers_topic (encoded : encodeUtf8 request.topic = .ok topicBytes) :
    Recovers unpackUtf8
      ([byte (topicBytes.length / 256), byte (topicBytes.length % 256)] ++ topicBytes)
      request.topic := by
  have short := (encodeUtf8_ok encoded).2
  exact recovers_utf8 (except_bind_ok.mpr ⟨topicBytes, encoded, except_bind_ok.mpr
    ⟨_, if_pos short, rfl⟩⟩)

theorem recovers_mid {mid : Nat} (given : request.mid = some mid) (small : mid < 65536) :
    Recovers unpackU16 request.midBytes mid := by
  have packed : packU16 mid = .ok request.midBytes := by
    have high : mid / 256 % 256 = mid / 256 := by omega
    simp [packU16, small, PublishRequest.midBytes, given, high]
  exact recovers_u16 packed

theorem lies_body (request : PublishRequest) (topicBytes table : Bytes) :
    LiesAt (request.body topicBytes table) (request.body topicBytes table) 0 :=
  ⟨[], [], by simp, rfl⟩

/-- Behind the fields, the payload is all that is left. -/
theorem drop_body (request : PublishRequest) (topicBytes table : Bytes) :
    (request.body topicBytes table).drop (0 +
      ([byte (topicBytes.length / 256), byte (topicBytes.length % 256)] ++ topicBytes).length +
        request.midBytes.length + table.length) = request.payload :=
  (lies_body request topicBytes table).right.right.right.drop (by
    simp only [PublishRequest.body, List.length_append]
    omega)

theorem hasWildcard_valid {topic : Text} {allowEmpty : Bool} {size : Nat}
    (valid : validatePublishTopic topic allowEmpty = .ok size) :
    validateReceivedPublishTopic topic = .ok () := by
  unfold validatePublishTopic at valid
  unfold validateReceivedPublishTopic
  split at valid
  · next empty => rw [if_pos empty]
  · next filled =>
    rw [if_neg filled]
    obtain ⟨_, _, valid⟩ := except_bind_ok.mp valid
    split at valid
    · cases valid
    · next plain => rw [if_neg plain]

theorem checkMid_qos0 (ok : request.checkMid = .ok ()) (quality : request.qos = .atMostOnce) :
    request.mid = none ∧ request.dup = false := by
  unfold PublishRequest.checkMid at ok
  split at ok <;> simp_all

theorem checkMid_acknowledged (ok : request.checkMid = .ok ())
    (quality : request.qos ≠ .atMostOnce) :
    ∃ mid, request.mid = some mid ∧ mid ≠ 0 ∧ mid < 65536 := by
  unfold PublishRequest.checkMid at ok
  cases given : request.mid with
  | none =>
    cases same : request.qos <;> simp_all
  | some mid =>
    cases same : request.qos with
    | atMostOnce => exact absurd same quality
    | atLeastOnce =>
      simp only [same, given, requireOutboundMid] at ok
      split at ok
      · exact ⟨mid, rfl, by omega, by omega⟩
      · cases ok
    | exactlyOnce =>
      simp only [same, given, requireOutboundMid] at ok
      split at ok
      · exact ⟨mid, rfl, by omega, by omega⟩
      · cases ok

theorem midBytes_none (unnamed : request.mid = none) : request.midBytes = [] := by
  rw [PublishRequest.midBytes, unnamed]

theorem decodePublish_acknowledged_v311 {qos : QoS} (acknowledged : qos ≠ .atMostOnce)
    {raw : RawPacket} {fields : PublishFields} (decoded : decodeQos12FieldsV311 raw = .ok fields) :
    decodePublish .mqttv311 qos raw =
      .ok { topic := fields.topic, payload := fields.payload, qos, retain := fields.retain,
            dup := fields.dup, mid := some fields.mid, properties := fields.properties } := by
  cases qos with
  | atMostOnce => exact absurd rfl acknowledged
  | atLeastOnce => exact except_bind_ok.mpr ⟨fields, decoded, rfl⟩
  | exactlyOnce => exact except_bind_ok.mpr ⟨fields, decoded, rfl⟩

theorem decodePublish_acknowledged_v5 {qos : QoS} (acknowledged : qos ≠ .atMostOnce)
    {raw : RawPacket} {fields : PublishFields} (decoded : decodePublishFieldsV5 raw = .ok fields) :
    decodePublish .mqttv5 qos raw =
      .ok { topic := fields.topic, payload := fields.payload, qos, retain := fields.retain,
            dup := fields.dup, mid := some fields.mid, properties := fields.properties } := by
  cases qos with
  | atMostOnce => exact absurd rfl acknowledged
  | atLeastOnce => exact except_bind_ok.mpr ⟨fields, decoded, rfl⟩
  | exactlyOnce => exact except_bind_ok.mpr ⟨fields, decoded, rfl⟩

theorem decodePublish_v311 (encoded : encodeUtf8 request.topic = .ok topicBytes)
    (checked : request.checkMid = .ok ()) {size : Nat}
    (valid : validatePublishTopic request.topic = .ok size) :
    decodePublish .mqttv311 request.qos ⟨.publish, request.flags, request.body topicBytes []⟩ =
      .ok (request.asRead .mqttv311) := by
  obtain ⟨_, _, _, retain, dup⟩ := flags_fields request
  have lies := lies_body request topicBytes []
  have topic := recovers_topic encoded lies.left
  have payload := drop_body request topicBytes []
  have received := hasWildcard_valid valid
  have filled : request.topic ≠ [] := by
    intro empty
    simp [validatePublishTopic, empty] at valid
  simp only [List.length_nil, Nat.add_zero] at payload
  by_cases quality : request.qos = .atMostOnce
  · obtain ⟨unnamed, fresh⟩ := checkMid_qos0 checked quality
    rw [fresh] at dup
    rw [midBytes_none unnamed, List.length_nil, Nat.add_zero] at payload
    simp only [quality, decodePublish, decodeQos0MessageV311, RawPacket.dupFlag, dup,
      RawPacket.retainFlag, retain, topic, filled, received, payload, bind, Except.bind, pure,
      Except.pure, Bool.false_eq_true, ↓reduceIte, PublishRequest.asRead, unnamed, fresh]
  · obtain ⟨mid, given, nonzero, small⟩ := checkMid_acknowledged checked quality
    have named := recovers_mid given small lies.right.left
    have nonzero : requireNonzeroMid mid "PUBLISH" = .ok () := if_neg nonzero
    have decoded : decodeQos12FieldsV311
        ⟨.publish, request.flags, request.body topicBytes []⟩ =
        .ok ⟨request.topic, request.payload, mid, request.retain, request.dup, none, none⟩ := by
      simp only [decodeQos12FieldsV311, RawPacket.dupFlag, dup, RawPacket.retainFlag, retain,
        topic, filled, received, named, nonzero, payload, bind, Except.bind, pure, Except.pure,
        ↓reduceIte]
    rw [decodePublish_acknowledged_v311 quality decoded, PublishRequest.asRead, given]

theorem decodePublish_v5 (encoded : encodeUtf8 request.topic = .ok topicBytes)
    (checked : request.checkMid = .ok ()) {size : Nat}
    (valid : validatePublishTopic request.topic true = .ok size)
    (tabled : encodeProperties request.properties .publish = .ok table)
    (budget : repeatedValues (request.properties.getD .empty) ≤ maxRepeatableProperties) :
    decodePublish .mqttv5 request.qos ⟨.publish, request.flags, request.body topicBytes table⟩ =
      .ok (request.asRead .mqttv5) := by
  obtain ⟨_, _, _, retain, dup⟩ := flags_fields request
  have lies := lies_body request topicBytes table
  have topic := recovers_topic encoded lies.left
  have payload := drop_body request topicBytes table
  have properties := recovers_properties tabled budget lies.right.right.left
  have received := hasWildcard_valid valid
  by_cases quality : request.qos = .atMostOnce
  · obtain ⟨unnamed, fresh⟩ := checkMid_qos0 checked quality
    rw [fresh] at dup
    rw [midBytes_none unnamed, List.length_nil, Nat.add_zero] at payload properties
    simp only [quality, decodePublish, decodeQos0MessageV5, RawPacket.dupFlag, dup,
      RawPacket.retainFlag, retain, topic, received, properties, payload, bind, Except.bind, pure,
      Except.pure, Bool.false_eq_true, ↓reduceIte, PublishRequest.asRead, unnamed, fresh]
  · obtain ⟨mid, given, nonzero, small⟩ := checkMid_acknowledged checked quality
    have named := recovers_mid given small lies.right.left
    have nonzero : requireNonzeroMid mid "PUBLISH" = .ok () := if_neg nonzero
    have decoded : ∃ size, decodePublishFieldsV5
        ⟨.publish, request.flags, request.body topicBytes table⟩ =
        .ok ⟨request.topic, request.payload, mid, request.retain, request.dup,
          some (normalForm .publish (request.properties.getD .empty)), some size⟩ := by
      simp only [decodePublishFieldsV5, RawPacket.dupFlag, dup, RawPacket.retainFlag, retain,
        topic, received, named, nonzero, properties, payload, bind, Except.bind, pure, Except.pure]
      exact ⟨_, rfl⟩
    obtain ⟨size, decoded⟩ := decoded
    rw [decodePublish_acknowledged_v5 quality decoded, PublishRequest.asRead, given]

/-- The table on the wire is the encoding of the properties. -/
theorem encodedTable_ok (faithful : request.Faithful) (ok : request.encodedTable = .ok table) :
    encodeProperties request.properties .publish = .ok table := by
  unfold PublishRequest.encodedTable at ok
  split at ok
  · next given =>
    cases ok
    exact faithful.properties _ given
  · split at ok
    · obtain ⟨_, _, ok⟩ := except_bind_ok.mp ok
      exact ok
    · next blank =>
      cases ok
      cases given : request.properties with
      | none => rfl
      | some properties =>
        have empty : properties.isEmpty = true := by simpa [hasProperties, given] using blank
        simp [encodeProperties, empty]

theorem encodedTopic_ok (faithful : request.Faithful)
    (ok : request.encodedTopic = .ok topicBytes) : encodeUtf8 request.topic = .ok topicBytes := by
  unfold PublishRequest.encodedTopic at ok
  split at ok
  · next given =>
    cases ok
    exact faithful.topic _ given
  · exact ok

end

/-- Any frame decoder that admits the frame cuts off exactly its bytes, and the reader of
the version and QoS takes back what was encoded. -/
def PublishRequest.RoundTrips (request : PublishRequest) (protocol : ProtocolVersion)
    (item : WriteItem) : Prop :=
  ∀ (limit : Nat) (fresh : IncrementalDecoder) (calls : List Call) (session : Codec.Session)
    (rest : Bytes), IncrementalDecoder.create limit = .ok fresh →
    Codec.Session.run { decoder := fresh } calls = .ok session →
    session.decoder.pending = item.bytes ++ rest → item.size ≤ limit →
    ∃ raw after, session.perform .nextPacket = .ok after ∧
      after.answers = session.answers ++ [.ok raw] ∧ after.decoder.pending = rest ∧
      raw.packetType = .publish ∧ raw.qosBits = request.qos.level ∧
      decodePublish protocol request.qos raw = .ok (request.asRead protocol)

/-- What a decoder answers when its unread bytes start with an assembled frame. -/
theorem framed_assembled {request : PublishRequest} {topicBytes table : Bytes} {item : WriteItem}
    (ok : request.assemble topicBytes table = .ok item) (short : topicBytes.length < 65536)
    {limit : Nat} {fresh : IncrementalDecoder} {calls : List Call} {session : Codec.Session}
    {rest : Bytes} (created : IncrementalDecoder.create limit = .ok fresh)
    (ran : Codec.Session.run { decoder := fresh } calls = .ok session)
    (unread : session.decoder.pending = item.bytes ++ rest) (admitted : item.size ≤ limit) :
    ∃ after, session.perform .nextPacket = .ok after ∧
      after.answers = session.answers ++
        [.ok ⟨.publish, request.flags, request.body topicBytes table⟩] ∧
      after.decoder.pending = rest := by
  obtain ⟨reached, again, sound⟩ := (Session.fresh_sound created).run calls
  rw [ran] at again
  cases again
  obtain ⟨after, performed, _, _, asked⟩ := sound.next
  have framed := frame_assembled ok short admitted rest
  rw [← unread] at framed
  cases asked with
  | waiting verdict same => simp [verdict] at framed
  | refused verdict named pending answers => simp [verdict] at framed
  | packet verdict pending answers =>
    rw [framed] at verdict
    cases verdict
    exact ⟨after, performed, answers, pending⟩

/-- DUP plays no part in the rules for the packet identifier of an acknowledged PUBLISH. -/
theorem checkMid_dup {request : PublishRequest} (acknowledged : request.qos ≠ .atMostOnce) :
    ({ request with dup := true } : PublishRequest).checkMid = request.checkMid := by
  obtain ⟨topic, payload, qos, retain, dup, mid, properties, topicBytes, propertyBytes⟩ := request
  cases qos with
  | atMostOnce => exact absurd rfl acknowledged
  | atLeastOnce => cases mid <;> rfl
  | exactlyOnce => cases mid <;> rfl

/-- A PUBLISH comes back as it was encoded, and with DUP set it is the frame of the same
publication sent again. -/
theorem publish_round_trip {protocol : ProtocolVersion} {request : PublishRequest}
    {item : WriteItem} (encoded : (bindCodec protocol).encodePublishItem request = .ok item)
    (faithful : request.Faithful) {size : Nat}
    (valid : validatePublishTopic request.topic (protocol = .mqttv5) = .ok size)
    (budget : protocol = .mqttv5 →
      repeatedValues (request.properties.getD .empty) ≤ maxRepeatableProperties) :
    request.RoundTrips protocol item ∧
    (request.qos ≠ .atMostOnce → (bindCodec protocol).encodePublishItem
      { request with dup := true } = .ok (Outbound.markPublishDup item)) := by
  have quality : request.flags / 2 % 4 = request.qos.level := (flags_fields request).2.2.1
  cases protocol with
  | mqttv311 =>
    obtain ⟨_, checked, ok⟩ := except_bind_ok.mp encoded
    obtain ⟨topicBytes, topical, assembled⟩ := except_bind_ok.mp ok
    have topic := encodedTopic_ok faithful topical
    have short := (encodeUtf8_ok topic).2
    refine ⟨fun limit fresh calls session rest created ran unread admitted => ?_,
      fun acknowledged => ?_⟩
    · obtain ⟨after, performed, answers, pending⟩ :=
        framed_assembled assembled short created ran unread admitted
      exact ⟨_, after, performed, answers, pending, rfl, quality,
        decodePublish_v311 topic checked valid⟩
    · exact except_bind_ok.mpr ⟨_, (checkMid_dup acknowledged).trans checked,
        except_bind_ok.mpr ⟨topicBytes, topical, assemble_dup assembled⟩⟩
  | mqttv5 =>
    obtain ⟨_, checked, ok⟩ := except_bind_ok.mp encoded
    obtain ⟨topicBytes, topical, ok⟩ := except_bind_ok.mp ok
    obtain ⟨table, tabled, assembled⟩ := except_bind_ok.mp ok
    have topic := encodedTopic_ok faithful topical
    have short := (encodeUtf8_ok topic).2
    refine ⟨fun limit fresh calls session rest created ran unread admitted => ?_,
      fun acknowledged => ?_⟩
    · obtain ⟨after, performed, answers, pending⟩ :=
        framed_assembled assembled short created ran unread admitted
      exact ⟨_, after, performed, answers, pending, rfl, quality,
        decodePublish_v5 topic checked valid (encodedTable_ok faithful tabled) (budget rfl)⟩
    · exact except_bind_ok.mpr ⟨_, (checkMid_dup acknowledged).trans checked,
        except_bind_ok.mpr ⟨topicBytes, topical,
          except_bind_ok.mpr ⟨table, tabled, assemble_dup assembled⟩⟩⟩

def noticeRequest : PublishRequest where
  topic := [97, 47, 98]
  payload := [104, 105]
  qos := .atLeastOnce
  retain := true
  dup := false
  mid := some 7
  properties := some ⟨⟨[(.userProperty, .tuple [.tuple [.text [107], .text [118]]])], by decide⟩⟩

def noticeFrame (first : UInt8) : WriteItem :=
  .contiguous [first, 17, 0, 3, 97, 47, 98, 0, 7, 7, 38, 0, 1, 107, 0, 1, 118, 104, 105]

theorem publish_round_trip_notice :
    noticeRequest.RoundTrips .mqttv5 (noticeFrame 51) ∧
    encodePublishItemV5 { noticeRequest with dup := true } = .ok (noticeFrame 59) := by
  have encoded : (bindCodec .mqttv5).encodePublishItem noticeRequest = .ok (noticeFrame 51) := by
    decide
  have valid : validatePublishTopic noticeRequest.topic (ProtocolVersion.mqttv5 = .mqttv5) =
      .ok 3 := rfl
  obtain ⟨reads, again⟩ := publish_round_trip encoded ⟨nofun, nofun⟩ valid (fun _ => by decide)
  exact ⟨reads, again (by decide)⟩

/-! Beyond the budget -/

theorem decodePublish_over {request : PublishRequest} {topicBytes table : Bytes}
    {properties : Properties} (encoded : encodeUtf8 request.topic = .ok topicBytes)
    (checked : request.checkMid = .ok ())
    (tabled : encodeProperties (some properties) .publish = .ok table)
    (exceeds : maxRepeatableProperties < repeatedValues properties) :
    decodePublish .mqttv5 request.qos ⟨.publish, request.flags, request.body topicBytes table⟩ =
      .error overBudget := by
  obtain ⟨_, _, _, retain, dup⟩ := flags_fields request
  have lies := lies_body request topicBytes table
  have topic := recovers_topic encoded lies.left
  have refused := decodeProperties_over tabled exceeds lies.right.right.left
  by_cases quality : request.qos = .atMostOnce
  · obtain ⟨unnamed, fresh⟩ := checkMid_qos0 checked quality
    rw [fresh] at dup
    rw [midBytes_none unnamed, List.length_nil, Nat.add_zero] at refused
    simp only [quality, decodePublish, decodeQos0MessageV5, RawPacket.dupFlag, dup, topic, refused,
      bind, Except.bind, Bool.false_eq_true, ↓reduceIte]
  · obtain ⟨mid, given, nonzero, small⟩ := checkMid_acknowledged checked quality
    have named := recovers_mid given small lies.right.left
    have nonzero : requireNonzeroMid mid "PUBLISH" = .ok () := if_neg nonzero
    have decoded : decodePublishFieldsV5
        ⟨.publish, request.flags, request.body topicBytes table⟩ = .error overBudget := by
      simp only [decodePublishFieldsV5, topic, named, nonzero, refused, bind, Except.bind]
    cases level : request.qos with
    | atMostOnce => exact absurd level quality
    | atLeastOnce => exact except_bind_error.mpr (.inl decoded)
    | exactlyOnce => exact except_bind_error.mpr (.inl decoded)

/-- A frame handed to a fresh decoder is its whole backlog. -/
theorem fed_session {limit : Nat} (positive : 0 < limit) (data : Bytes) :
    ∃ fresh session, IncrementalDecoder.create limit = .ok fresh ∧
      Codec.Session.run { decoder := fresh } [.feed data] = .ok session ∧
      session.decoder.pending = data := by
  have created : IncrementalDecoder.create limit = .ok { maxPacketSize := limit } :=
    if_neg (by omega)
  have sat := IncrementalDecoder.feed_sat (Session.fresh_sound created).decoder data
  unfold Sat at sat
  cases ended : IncrementalDecoder.feed data { maxPacketSize := limit } with
  | error failure decoder => simp [ended] at sat
  | ok _ decoder =>
    simp only [ended] at sat
    refine ⟨_, Codec.Session.accept { decoder := { maxPacketSize := limit } } decoder data, created,
      ?_, ?_⟩
    · simp only [Codec.Session.run, List.foldlM_cons, List.foldlM_nil, Codec.Session.perform, ended]
      rfl
    · rw [Codec.Session.accept, sat.1.pending]
      rfl

/-- The encoder takes a table with more values, which the reader refuses. -/
theorem publish_over_budget {request : PublishRequest} {item : WriteItem} {properties : Properties}
    (encoded : (bindCodec .mqttv5).encodePublishItem request = .ok item)
    (faithful : request.Faithful) (given : request.properties = some properties)
    (exceeds : maxRepeatableProperties < repeatedValues properties) :
    ¬ request.RoundTrips .mqttv5 item := by
  intro reads
  obtain ⟨_, checked, ok⟩ := except_bind_ok.mp encoded
  obtain ⟨topicBytes, topical, ok⟩ := except_bind_ok.mp ok
  obtain ⟨table, tabled, assembled⟩ := except_bind_ok.mp ok
  have topic := encodedTopic_ok faithful topical
  have tabled := encodedTable_ok faithful tabled
  rw [given] at tabled
  have short := (encodeUtf8_ok topic).2
  have positive : 0 < item.size := by
    rw [← WriteItem.length_bytes, (assemble_bytes assembled short).2]
    simp
  obtain ⟨fresh, session, created, ran, pending⟩ := fed_session positive item.bytes
  have unread : session.decoder.pending = item.bytes ++ [] := by rw [pending, List.append_nil]
  obtain ⟨after, performed, answers, _⟩ :=
    framed_assembled assembled short created ran unread (Nat.le_refl _)
  obtain ⟨raw, also, again, told, _, _, _, decoded⟩ :=
    reads item.size fresh _ session [] created ran unread (Nat.le_refl _)
  rw [performed] at again
  cases again
  rw [answers] at told
  simp only [List.append_cancel_left_eq, List.cons.injEq, Except.ok.injEq, and_true] at told
  subst told
  rw [decodePublish_over topic checked tabled exceeds] at decoded
  cases decoded

theorem assemble_fits {request : PublishRequest} {topicBytes table : Bytes}
    (fits : 2 + topicBytes.length + request.midBytes.length + table.length +
      request.payload.length ≤ maxVbi) :
    ∃ item, request.assemble topicBytes table = .ok item := by
  simp only [PublishRequest.assemble]
  rw [if_neg (by omega)]
  simp only [appendVbi, encodeVbi]
  rw [if_neg (by omega)]
  by_cases large : segmentThreshold ≤ request.payload.length
  · exact ⟨_, if_pos large⟩
  · exact ⟨_, if_neg large⟩

theorem encodeItems_replicate {spec : PropertySpec} {item : PropertyItem} {data : Bytes}
    (checked : checkValue .protocol s!"'{propertyText spec.name}'" spec item = .ok ())
    (encoded : encodeValue spec.type item = .ok data) (count : Nat) :
    ∃ body, encodeItems spec (List.replicate count item) = .ok body ∧
      body.length = count * (data.length + 1) := by
  induction count with
  | zero => exact ⟨[], rfl, by simp⟩
  | succ count ih =>
    obtain ⟨body, rest, length⟩ := ih
    refine ⟨spec.id :: data ++ body, except_bind_ok.mpr ⟨(), checked, except_bind_ok.mpr
      ⟨data, encoded, except_bind_ok.mpr ⟨body, rest, rfl⟩⟩⟩, ?_⟩
    rw [List.length_append, length, List.length_cons, Nat.succ_mul, Nat.add_comm]

def identifierSpec : PropertySpec where
  id := 0x0B
  name := .subscriptionIdentifier
  type := .vbi
  packets := [.publish, .subscribe]
  multiple := true
  nonzero := true
  subscribeSingleton := true

/-- A publication that carries one subscription identifier many times. -/
def crowdedRequest (count : Nat) : PublishRequest where
  topic := [97]
  payload := []
  qos := .atMostOnce
  retain := false
  dup := false
  mid := none
  properties := some ⟨⟨[(.subscriptionIdentifier, .tuple (List.replicate count (.scalar (.int 1))))],
    List.nodup_singleton _⟩⟩

theorem crowded_encodes {count : Nat} (fits : count ≤ 100000) :
    ∃ item, (bindCodec .mqttv5).encodePublishItem (crowdedRequest count) = .ok item := by
  obtain ⟨body, listed, length⟩ := @encodeItems_replicate identifierSpec (.scalar (.int 1)) [1]
    (by decide) (by decide) count
  simp only [List.length_singleton] at length
  have known : byName .subscriptionIdentifier = some identifierSpec := rfl
  have entries : encodeEntries .publish [(.subscriptionIdentifier,
      .tuple (List.replicate count (.scalar (.int 1))))] = .ok (body ++ []) := by
    simp only [encodeEntries, known]
    rw [if_neg (by decide)]
    exact except_bind_ok.mpr ⟨List.replicate count (.scalar (.int 1)), rfl,
      except_bind_ok.mpr ⟨body, listed, except_bind_ok.mpr ⟨[], rfl, rfl⟩⟩⟩
  rw [List.append_nil] at entries
  have small : body.length ≤ maxVbi := by
    unfold maxVbi
    omega
  have digits := length_vbiDigits 4 body.length
  have table : (crowdedRequest count).encodedTable =
      .ok (vbiDigits 4 body.length ++ body) :=
    except_bind_ok.mpr ⟨(), rfl, except_bind_ok.mpr ⟨body, entries,
      except_bind_ok.mpr ⟨_, if_neg (by omega), rfl⟩⟩⟩
  obtain ⟨item, assembled⟩ := @assemble_fits (crowdedRequest count) [97]
    (vbiDigits 4 body.length ++ body) (by
      simp only [crowdedRequest, PublishRequest.midBytes, List.length_append, List.length_cons,
        List.length_nil, maxVbi]
      omega)
  exact ⟨item, except_bind_ok.mpr ⟨(), rfl, except_bind_ok.mpr ⟨[97], rfl,
    except_bind_ok.mpr ⟨_, table, assembled⟩⟩⟩⟩

theorem crowded_values (count : Nat) :
    repeatedValues ⟨⟨[(.subscriptionIdentifier, .tuple (List.replicate count (.scalar (.int 1))))],
      List.nodup_singleton _⟩⟩ = count := by
  have known : byName .subscriptionIdentifier = some identifierSpec := rfl
  simp only [repeatedValues, Dict.sumBy, List.map_cons, List.map_nil, List.sum_cons, List.sum_nil,
    repeatedIn, known, Nat.add_zero]
  exact List.length_replicate

theorem publish_round_trip_crowded :
    ∃ item, (bindCodec .mqttv5).encodePublishItem (crowdedRequest 1025) = .ok item ∧
      validatePublishTopic (crowdedRequest 1025).topic true = .ok 1 ∧
      (crowdedRequest 1025).Faithful ∧ ¬ (crowdedRequest 1025).RoundTrips .mqttv5 item := by
  obtain ⟨item, encoded⟩ := crowded_encodes (show 1025 ≤ 100000 by decide)
  exact ⟨item, encoded, rfl, ⟨nofun, nofun⟩,
    publish_over_budget encoded ⟨nofun, nofun⟩ rfl
      ((crowded_values 1025).symm ▸ by decide)⟩

end Packets

end Mqttium
