import Mqttium.Decoding.Publish

/-! The size of a PUBLISH computed without encoding it, against the frame the encoder builds. -/

namespace Mqttium.Protocol.Outbound

open Codec Library Packets

theorem topicSize_encoded {topic : Text} {data : Bytes} (encoded : encodeUtf8 topic = .ok data) :
    topicSize topic = .ok data.length := by
  obtain ⟨encodes, _, _⟩ := encodeUtf8_ok_iff.mp encoded
  unfold topicSize
  by_cases ascii : isAscii topic = true
  · obtain ⟨same, again, length⟩ := encodeUtf8_ascii ascii
    rw [encodes] at again
    cases again
    rw [if_pos ascii, length]
  · rw [if_neg ascii, encodes]

/-- The parts that the sizes are read off are those of the encoded table. -/
theorem propertyParts_encoded {properties : Option Properties} {table : Bytes}
    (encoded : encodeProperties properties .publish = .ok table) :
    ∃ logical, propertyParts true properties = .ok (table.length, logical, some table) := by
  unfold propertyParts
  by_cases filled : hasProperties properties = true
  · exact ⟨table.length, by simp [filled, encoded, bind, Except.bind, pure, Except.pure]⟩
  · have blank : hasProperties properties = false := by simpa using filled
    have zero : table = [0] := by
      cases properties with
      | none => simpa [encodeProperties] using encoded.symm
      | some given =>
        have empty : given.isEmpty = true := by simpa [hasProperties] using blank
        simpa [encodeProperties, empty] using encoded.symm
    subst zero
    exact ⟨0, by simp [blank]⟩

theorem midBytes_length {request : PublishRequest} (checked : request.checkMid = .ok ()) :
    request.midBytes.length = if request.qos = .atMostOnce then 0 else 2 := by
  by_cases quality : request.qos = .atMostOnce
  · rw [if_pos quality, midBytes_none (checkMid_qos0 checked quality).1]
    rfl
  · obtain ⟨mid, given, _⟩ := checkMid_acknowledged checked quality
    rw [if_neg quality, PublishRequest.midBytes, given]
    rfl

/-- Measuring the parts ends as assembling the frame does, with the size of the frame. -/
theorem publishWireSizeFromParts_assemble {request : PublishRequest}
    (checked : request.checkMid = .ok ()) (topicBytes table : Bytes) :
    publishWireSizeFromParts topicBytes.length table.length request.payload.length request.qos =
      (request.assemble topicBytes table).map WriteItem.size := by
  have same : 2 + topicBytes.length + (if request.qos = .atMostOnce then 0 else 2) + table.length +
      request.payload.length =
      2 + topicBytes.length + request.midBytes.length + table.length + request.payload.length := by
    rw [midBytes_length checked]
  rw [publishWireSizeFromParts, same, PublishRequest.assemble]
  generalize remaining : 2 + topicBytes.length + request.midBytes.length + table.length +
    request.payload.length = length
  by_cases large : maxVbi < length
  · simp [large, Except.map]
  · have digits := vbiLen_digits (Nat.le_of_not_lt large)
    simp only [large, if_false, digits, appendVbi, encodeVbi, bind, Except.bind, pure, Except.pure]
    by_cases segmented : segmentThreshold ≤ request.payload.length
    · simp only [segmented, if_true, Except.map, WriteItem.size, List.length_append,
        List.length_cons, List.length_nil, Except.ok.injEq]
      omega
    · simp only [segmented, if_false, Except.map, WriteItem.size, List.length_append,
        List.length_cons, List.length_nil, Except.ok.injEq]
      omega

/-- The table behind the topic: MQTT 3.1.1 has none. -/
def wireTable (protocol : ProtocolVersion) (request : PublishRequest) : Except Failure Bytes :=
  match protocol with
  | .mqttv311 => .ok []
  | .mqttv5 => request.encodedTable

theorem encodePublishItem_eq (protocol : ProtocolVersion) (request : PublishRequest) :
    (bindCodec protocol).encodePublishItem request = (do
      request.checkMid
      let topicBytes ← request.encodedTopic
      request.assemble topicBytes (← wireTable protocol request)) := by
  cases protocol <;> rfl

section

variable {protocol : ProtocolVersion} {request : PublishRequest} {topicBytes table : Bytes}

/-- Both sizes come from the encodings that the frame is built of. -/
theorem parts_encoded (faithful : request.Faithful)
    (topical : request.encodedTopic = .ok topicBytes) (tabled : wireTable protocol request = .ok table) :
    topicSize request.topic = .ok topicBytes.length ∧
      ∃ more, propertyParts (protocol = .mqttv5) request.properties = .ok (table.length, more) := by
  refine ⟨topicSize_encoded (encodedTopic_ok faithful topical), ?_⟩
  cases protocol with
  | mqttv311 =>
    cases tabled
    exact ⟨(0, none), rfl⟩
  | mqttv5 =>
    obtain ⟨logical, parts⟩ := propertyParts_encoded (encodedTable_ok faithful tabled)
    exact ⟨(logical, some table), parts⟩

theorem sizeParts_encoded (faithful : request.Faithful)
    (topical : request.encodedTopic = .ok topicBytes) (tabled : wireTable protocol request = .ok table)
    {known : Option Nat} (measured : ∀ size, known = some size → size = topicBytes.length) :
    ∃ more, sizeParts (protocol = .mqttv5) request.topic request.properties known =
      .ok (topicBytes.length, table.length, more) := by
  obtain ⟨sized, more, parts⟩ := parts_encoded faithful topical tabled
  have topic : known.elim (topicSize request.topic) .ok = .ok topicBytes.length := by
    cases known with
    | none => exact sized
    | some size => rw [Option.elim_some, measured size rfl]
  exact ⟨more, except_bind_ok.mpr ⟨_, topic, except_bind_ok.mpr ⟨_, parts, rfl⟩⟩⟩

theorem publishWireSize_encoded (faithful : request.Faithful) (checked : request.checkMid = .ok ())
    (topical : request.encodedTopic = .ok topicBytes)
    (tabled : wireTable protocol request = .ok table) :
    publishWireSize (protocol = .mqttv5) request.topic request.payload.length request.qos
        request.properties =
      ((bindCodec protocol).encodePublishItem request).map WriteItem.size := by
  obtain ⟨more, parts⟩ := @sizeParts_encoded protocol request topicBytes table faithful topical
    tabled none nofun
  rw [encodePublishItem_eq, checked, topical, tabled, publishWireSize, parts]
  exact publishWireSizeFromParts_assemble checked topicBytes table

/-- The properties a version can send with this payload. -/
def ValidProperties (protocol : ProtocolVersion) (payload : Bytes) (properties : Option Properties) :
    Prop :=
  protocol = .mqttv5 → validatePayloadFormat payload properties = .ok () ∧
    ∃ table, encodeProperties properties .publish = .ok table

theorem encodedTopic_valid (faithful : request.Faithful) {allowEmpty : Bool} {size : Nat}
    (valid : validatePublishTopic request.topic allowEmpty = .ok size) :
    ∃ topicBytes, request.encodedTopic = .ok topicBytes ∧ topicBytes.length = size := by
  obtain ⟨data, encoded, length⟩ := validatePublishTopic_ok_iff.mp valid
  have topic := encodeValidatedPublishTopic_topic encoded
  unfold PublishRequest.encodedTopic
  cases given : request.topicBytes with
  | none => exact ⟨data, topic, length⟩
  | some bytes =>
    have same := faithful.topic bytes given
    rw [topic] at same
    cases same
    exact ⟨data, rfl, length⟩

theorem wireTable_valid
    (valid : ValidProperties protocol request.payload request.properties) :
    ∃ table, wireTable protocol request = .ok table := by
  cases protocol with
  | mqttv311 => exact ⟨[], rfl⟩
  | mqttv5 =>
    obtain ⟨format, table, encoded⟩ := valid rfl
    unfold wireTable PublishRequest.encodedTable
    cases request.propertyBytes with
    | some bytes => exact ⟨bytes, rfl⟩
    | none =>
      simp only
      split
      · exact ⟨table, except_bind_ok.mpr ⟨(), format, encoded⟩⟩
      · exact ⟨[0], rfl⟩

end

theorem checkMid_refused {request : PublishRequest} {failure : Failure}
    (refused : request.checkMid = .error failure) (text : String) :
    failure ≠ .packetTooLarge text := by
  unfold PublishRequest.checkMid at refused
  split at refused
  · split at refused
    · cases refused
      nofun
    · cases refused
  · cases refused
    nofun
  · cases refused
    nofun
  · unfold requireOutboundMid at refused
    split at refused
    · cases refused
    · cases refused
      nofun

/-- What the previews answer for a request whose frame is `item`. -/
structure Previews (protocol : ProtocolVersion) (request : PublishRequest) (item : WriteItem) :
    Prop where
  wireSize : publishWireSize (protocol = .mqttv5) request.topic request.payload.length request.qos
    request.properties = .ok item.bytes.length
  /-- Also when admission passes the size that validating the topic gave it. -/
  parts : ∀ known, (∀ size, known = some size →
      ∃ allowEmpty, validatePublishTopic request.topic allowEmpty = .ok size) →
    ∃ topicBytes wirePropertyBytes more,
      sizeParts (protocol = .mqttv5) request.topic request.properties known =
        .ok (topicBytes, wirePropertyBytes, more) ∧
      publishWireSizeFromParts topicBytes wirePropertyBytes request.payload.length request.qos =
        .ok item.bytes.length
  /-- The check against the broker's limit is that of the frame. -/
  limit : ∀ negotiated, checkPublishSize (protocol = .mqttv5) negotiated request.topic
      request.payload.length request.qos request.properties = .ok () ↔
    checkSize negotiated item = .ok ()

theorem previews_accepted {protocol : ProtocolVersion} {request : PublishRequest}
    {item : WriteItem} (faithful : request.Faithful)
    (accepted : (bindCodec protocol).encodePublishItem request = .ok item) :
    Previews protocol request item := by
  have accepts := accepted
  rw [encodePublishItem_eq] at accepts
  obtain ⟨_, checked, accepts⟩ := except_bind_ok.mp accepts
  obtain ⟨topicBytes, topical, accepts⟩ := except_bind_ok.mp accepts
  obtain ⟨table, tabled, assembled⟩ := except_bind_ok.mp accepts
  have sized := publishWireSizeFromParts_assemble checked topicBytes table
  rw [assembled] at sized
  constructor
  · rw [publishWireSize_encoded faithful checked topical tabled, accepted, WriteItem.length_bytes]
    rfl
  · intro known measured
    have agrees (size : Nat) (given : known = some size) : size = topicBytes.length := by
      obtain ⟨allowEmpty, valid⟩ := measured size given
      obtain ⟨same, again, length⟩ := encodedTopic_valid faithful valid
      rw [topical] at again
      cases again
      exact length.symm
    obtain ⟨more, parts⟩ := sizeParts_encoded faithful topical tabled agrees
    exact ⟨_, _, more, parts, by rw [sized, WriteItem.length_bytes]; rfl⟩
  · intro negotiated
    obtain ⟨topic, more, parts⟩ := parts_encoded faithful topical tabled
    simp only [checkPublishSize, topic, parts, bind, Except.bind, checkPublishWireSize, checkSize,
      sized, Except.map]

/-- The size preview is exact: it measures every frame the encoder builds, it refuses a valid
publication for its size when the encoder does, and validating a topic measures its encoding. -/
theorem size_preview (protocol : ProtocolVersion) :
    (∀ (request : PublishRequest) (item : WriteItem), request.Faithful →
      (bindCodec protocol).encodePublishItem request = .ok item →
        Previews protocol request item) ∧
    (∀ (request : PublishRequest) (allowEmpty : Bool) (size : Nat), request.Faithful →
      validatePublishTopic request.topic allowEmpty = .ok size →
      ValidProperties protocol request.payload request.properties →
      ∀ text, (bindCodec protocol).encodePublishItem request = .error (.packetTooLarge text) ↔
        request.checkMid = .ok () ∧
        publishWireSize (protocol = .mqttv5) request.topic request.payload.length request.qos
          request.properties = .error (.packetTooLarge text)) ∧
    ∀ (topic : Text) (allowEmpty : Bool) (size : Nat),
      validatePublishTopic topic allowEmpty = .ok size ↔
        ∃ data, encodeValidatedPublishTopic topic allowEmpty = .ok data ∧ data.length = size := by
  refine ⟨fun _ _ faithful accepted => previews_accepted faithful accepted, ?_,
    fun _ _ _ => validatePublishTopic_ok_iff⟩
  intro request allowEmpty size faithful topical properties text
  obtain ⟨topicBytes, encoded, _⟩ := encodedTopic_valid faithful topical
  obtain ⟨table, tabled⟩ := wireTable_valid properties
  cases checked : request.checkMid with
  | error failure =>
    have refused := checkMid_refused checked
    rw [encodePublishItem_eq, checked]
    simp [bind, Except.bind, refused]
  | ok _ =>
    rw [publishWireSize_encoded faithful checked encoded tabled]
    cases (bindCodec protocol).encodePublishItem request with
    | ok item => simp [Except.map]
    | error failure => simp [Except.map]

/-- A request whose Remaining Length is six more than its payload. -/
def brimRequest (size : Nat) : PublishRequest where
  topic := [97]
  payload := List.replicate size 0
  qos := .atLeastOnce
  retain := false
  dup := false
  mid := some 1
  properties := none

set_option maxRecDepth 2048 in
theorem size_preview_width :
    publishWireSize true [97] 121 .atLeastOnce none = .ok 129 ∧
    publishWireSize true [97] 122 .atLeastOnce none = .ok 131 := by
  obtain ⟨exact, _, _⟩ := size_preview .mqttv5
  have narrow := (exact (brimRequest 121) (.contiguous (50 :: 127 :: 0 :: 1 :: 97 :: 0 :: 1 :: 0 ::
    List.replicate 121 0)) ⟨nofun, nofun⟩ rfl).wireSize
  have wide := (exact (brimRequest 122) (.contiguous (50 :: 128 :: 1 :: 0 :: 1 :: 97 :: 0 :: 1 ::
    0 :: List.replicate 122 0)) ⟨nofun, nofun⟩ rfl).wireSize
  exact ⟨narrow, wide⟩

end Mqttium.Protocol.Outbound
