import Mqttium.Packets.Publish

/-! The general PUBLISH decoder, and the specialised ones beside it. -/

namespace Mqttium.Packets

open Codec Library

structure PublishPacket where
  topic : Text
  payload : Bytes
  qos : QoS
  retain : Bool
  dup : Bool
  mid : Option Nat := none
  properties : Option Properties := none
  deriving DecidableEq, Repr

/-- A QoS 1 or 2 PUBLISH carries a packet identifier. -/
def readMid (qos : QoS) (remaining : Bytes) (pos : Nat) : Except Failure (Option Nat × Nat) :=
  if qos = .atMostOnce then .ok (none, pos)
  else do
    let (mid, pos) ← unpackU16 remaining pos
    requireNonzeroMid mid "PUBLISH"
    return (some mid, pos)

/-- An MQTT 5 PUBLISH carries a property table. -/
def readProperties (protocol : ProtocolVersion) (remaining : Bytes) (pos : Nat) :
    Except Failure (Option Properties × Nat) :=
  if protocol = .mqttv5 then do
    let (properties, pos) ← decodeProperties remaining pos .publish
    return (some properties, pos)
  else .ok (none, pos)

/-- `PublishPacket.decode`. -/
def PublishPacket.decode (flags : Nat) (remaining : Bytes) (protocol : ProtocolVersion) :
    Except Failure PublishPacket :=
  let dup := flags / 8 % 2 == 1
  match QoS.ofLevel? (flags / 2 % 4) with
  | none => .error (.malformedPacket "Invalid PUBLISH QoS 3")
  | some qos =>
    if qos = .atMostOnce ∧ dup then .error (.malformedPacket "QoS 0 PUBLISH must not set DUP")
    else do
      let retain := flags % 2 == 1
      let (topic, pos) ← unpackUtf8 remaining 0
      let (mid, pos) ← readMid qos remaining pos
      let (properties, pos) ← readProperties protocol remaining pos
      -- Only MQTT 5 may leave an empty topic to an alias.
      validateReceivedPublishTopic topic
      if protocol ≠ .mqttv5 ∧ topic = [] then
        .error (.malformedPacket "PUBLISH topic must not be empty")
      else return { topic, payload := remaining.drop pos, qos, retain, dup, mid, properties }

/-- A specialised decoder's message as the general one names its fields. -/
def Message.asPacket (message : Message) : PublishPacket :=
  { topic := message.topic, payload := message.payload, qos := message.qos
    retain := message.retain, dup := message.dup, mid := message.mid
    properties := message.properties }

def PublishFields.asPacket (qos : QoS) (fields : PublishFields) : PublishPacket :=
  { topic := fields.topic, payload := fields.payload, qos, retain := fields.retain
    dup := fields.dup, mid := some fields.mid, properties := fields.properties }

/-- The same failure, or two of the class `MalformedPacketError`. -/
def SameClass (failure other : Failure) : Prop :=
  failure = other ∨
    ∃ message text, failure = .malformedPacket message ∧ other = .malformedPacket text

/-- One result, or failures of one class. -/
def Agree {Value : Type} : Except Failure Value → Except Failure Value → Prop
  | .ok value, .ok other => value = other
  | .error failure, .error other => SameClass failure other
  | _, _ => False

theorem Agree.of_eq {Value : Type} {result other : Except Failure Value} (same : result = other) :
    Agree result other := by
  subst same
  cases result with
  | ok value => rfl
  | error failure => exact Or.inl rfl

theorem Agree.malformed {Value : Type} (message text : String) :
    @Agree Value (.error (.malformedPacket message)) (.error (.malformedPacket text)) :=
  Or.inr ⟨message, text, rfl, rfl⟩

variable {raw : RawPacket}

theorem decodeQos0MessageV311_eq (quality : raw.qosBits = 0) :
    (decodeQos0MessageV311 raw).map Message.asPacket =
      PublishPacket.decode raw.flags raw.remaining .mqttv311 := by
  have bits : raw.flags / 2 % 4 = 0 := quality
  unfold decodeQos0MessageV311 PublishPacket.decode RawPacket.dupFlag RawPacket.retainFlag
  simp only [bits, QoS.ofLevel?]
  by_cases dup : (raw.flags / 8 % 2 == 1) = true
  · simp [dup, Except.map]
  · simp only [dup]
    cases unpackUtf8 raw.remaining 0 with
    | error failure => rfl
    | ok read =>
      obtain ⟨topic, pos⟩ := read
      by_cases empty : topic = []
      · simp [readMid, readProperties, validateReceivedPublishTopic, empty, bind, Except.bind,
          Except.map]
      · cases checked : validateReceivedPublishTopic topic with
        | error failure => simp [readMid, readProperties, empty, checked, bind, Except.bind, Except.map]
        | ok done =>
          simp [readMid, readProperties, empty, checked, bind, Except.bind, Except.map, pure,
            Except.pure, Message.asPacket]

theorem decodeQos0MessageV5_eq (quality : raw.qosBits = 0) :
    (decodeQos0MessageV5 raw).map (Message.asPacket ∘ Prod.fst) =
      PublishPacket.decode raw.flags raw.remaining .mqttv5 := by
  have bits : raw.flags / 2 % 4 = 0 := quality
  unfold decodeQos0MessageV5 PublishPacket.decode RawPacket.dupFlag RawPacket.retainFlag
  simp only [bits, QoS.ofLevel?]
  by_cases dup : (raw.flags / 8 % 2 == 1) = true
  · simp [dup, Except.map]
  · simp only [dup]
    cases unpackUtf8 raw.remaining 0 with
    | error failure => rfl
    | ok read =>
      obtain ⟨topic, tablePos⟩ := read
      cases table : decodeProperties raw.remaining tablePos .publish with
      | error failure => simp [readMid, readProperties, table, bind, Except.bind, Except.map]
      | ok read =>
        obtain ⟨properties, pos⟩ := read
        cases checked : validateReceivedPublishTopic topic with
        | error failure =>
          simp [readMid, readProperties, table, checked, bind, Except.bind, Except.map, pure,
            Except.pure]
        | ok done =>
          simp [readMid, readProperties, table, checked, bind, Except.bind, Except.map, pure,
            Except.pure, Message.asPacket]

theorem decodePublishFieldsV5_eq {qos : QoS} (quality : QoS.ofLevel? raw.qosBits = some qos)
    (acknowledged : qos ≠ .atMostOnce) :
    (decodePublishFieldsV5 raw).map (PublishFields.asPacket qos) =
      PublishPacket.decode raw.flags raw.remaining .mqttv5 := by
  have bits : QoS.ofLevel? (raw.flags / 2 % 4) = some qos := quality
  unfold decodePublishFieldsV5 PublishPacket.decode RawPacket.dupFlag RawPacket.retainFlag
  simp only [bits, acknowledged, false_and, ↓reduceIte]
  cases unpackUtf8 raw.remaining 0 with
  | error failure => rfl
  | ok read =>
    obtain ⟨topic, midPos⟩ := read
    cases identifier : unpackU16 raw.remaining midPos with
    | error failure =>
      simp [readMid, acknowledged, identifier, bind, Except.bind, Except.map]
    | ok read =>
      obtain ⟨mid, tablePos⟩ := read
      cases nonzero : requireNonzeroMid mid "PUBLISH" with
      | error failure =>
        simp [readMid, acknowledged, identifier, nonzero, bind, Except.bind, Except.map]
      | ok done =>
        cases table : decodeProperties raw.remaining tablePos .publish with
        | error failure =>
          simp [readMid, readProperties, acknowledged, identifier, nonzero, table, bind,
            Except.bind, Except.map, pure, Except.pure]
        | ok read =>
          obtain ⟨properties, pos⟩ := read
          cases checked : validateReceivedPublishTopic topic with
          | error failure =>
            simp [readMid, readProperties, acknowledged, identifier, nonzero, table, checked, bind,
              Except.bind, Except.map, pure, Except.pure]
          | ok done =>
            simp [readMid, readProperties, acknowledged, identifier, nonzero, table, checked, bind,
              Except.bind, Except.map, pure, Except.pure, PublishFields.asPacket]

theorem validateReceivedPublishTopic_error {topic : Text} {failure : Failure}
    (failed : validateReceivedPublishTopic topic = .error failure) :
    failure = .malformedPacket "PUBLISH topic must not contain wildcards" := by
  unfold validateReceivedPublishTopic at failed
  split at failed
  · cases failed
  · split at failed
    · cases failed
      rfl
    · cases failed

theorem unpackU16_error {remaining : Bytes} {pos : Nat} {failure : Failure}
    (failed : unpackU16 remaining pos = .error failure) :
    failure = .malformedPacket "Incomplete uint16" := by
  unfold unpackU16 at failed
  split at failed
  · cases failed
    rfl
  · cases failed

theorem requireNonzeroMid_error {mid : Nat} {what : String} {failure : Failure}
    (failed : requireNonzeroMid mid what = .error failure) :
    failure = .malformedPacket s!"{what} packet identifier must not be 0" := by
  unfold requireNonzeroMid at failed
  split at failed
  · cases failed
    rfl
  · cases failed

/-- Here the topic is checked before the packet identifier, not after it. -/
theorem decodeQos12FieldsV311_agrees {qos : QoS} (quality : QoS.ofLevel? raw.qosBits = some qos)
    (acknowledged : qos ≠ .atMostOnce) :
    Agree ((decodeQos12FieldsV311 raw).map (PublishFields.asPacket qos))
      (PublishPacket.decode raw.flags raw.remaining .mqttv311) := by
  have bits : QoS.ofLevel? (raw.flags / 2 % 4) = some qos := quality
  have blank : validateReceivedPublishTopic [] = .ok () := rfl
  unfold decodeQos12FieldsV311 PublishPacket.decode RawPacket.dupFlag RawPacket.retainFlag
  simp only [bits, acknowledged, false_and, ↓reduceIte]
  cases unpackUtf8 raw.remaining 0 with
  | error failure => exact Or.inl rfl
  | ok read =>
    obtain ⟨topic, midPos⟩ := read
    -- Each decoder stops at the first check that fails, and all of them fail alike.
    cases identifier : unpackU16 raw.remaining midPos with
    | error failure =>
      rw [unpackU16_error identifier] at identifier
      by_cases empty : topic = []
      · simp [readMid, acknowledged, identifier, empty, bind, Except.bind, Except.map,
          Agree.malformed]
      · cases checked : validateReceivedPublishTopic topic with
        | error failure =>
          rw [validateReceivedPublishTopic_error checked] at checked
          simp [readMid, acknowledged, identifier, empty, checked, bind, Except.bind, Except.map,
            Agree.malformed]
        | ok done =>
          simp [readMid, acknowledged, identifier, empty, checked, bind, Except.bind, Except.map,
            Agree.malformed]
    | ok read =>
      obtain ⟨mid, pos⟩ := read
      cases nonzero : requireNonzeroMid mid "PUBLISH" with
      | error failure =>
        rw [requireNonzeroMid_error nonzero] at nonzero
        by_cases empty : topic = []
        · simp [readMid, acknowledged, identifier, nonzero, empty, bind, Except.bind, Except.map,
            Agree.malformed]
        · cases checked : validateReceivedPublishTopic topic with
          | error failure =>
            rw [validateReceivedPublishTopic_error checked] at checked
            simp [readMid, acknowledged, identifier, nonzero, empty, checked, bind, Except.bind,
              Except.map, Agree.malformed]
          | ok done =>
            simp [readMid, acknowledged, identifier, nonzero, empty, checked, bind, Except.bind,
              Except.map, Agree.malformed]
      | ok done =>
        by_cases empty : topic = []
        · simp [readMid, readProperties, acknowledged, identifier, nonzero, empty, blank, bind,
            Except.bind, Except.map, pure, Except.pure, Agree.malformed]
        · cases checked : validateReceivedPublishTopic topic with
          | error failure =>
            rw [validateReceivedPublishTopic_error checked] at checked
            simp [readMid, readProperties, acknowledged, identifier, nonzero, empty, checked, bind,
              Except.bind, Except.map, pure, Except.pure, Agree.malformed]
          | ok done =>
            refine .of_eq ?_
            simp [readMid, readProperties, acknowledged, identifier, nonzero, empty, checked, bind,
              Except.bind, Except.map, pure, Except.pure, PublishFields.asPacket]

/-- Every specialised PUBLISH decoder, on the QoS it is for, gives what the general one
gives, and fails with its class of error exactly when it fails. -/
theorem publish_decoders_agree (raw : RawPacket) :
    match QoS.ofLevel? raw.qosBits with
    | none => ∀ protocol, PublishPacket.decode raw.flags raw.remaining protocol =
        .error (.malformedPacket "Invalid PUBLISH QoS 3")
    | some .atMostOnce =>
      Agree ((decodeQos0MessageV311 raw).map Message.asPacket)
          (PublishPacket.decode raw.flags raw.remaining .mqttv311) ∧
        Agree ((decodeQos0MessageV5 raw).map (Message.asPacket ∘ Prod.fst))
          (PublishPacket.decode raw.flags raw.remaining .mqttv5)
    | some qos =>
      Agree ((decodeQos12FieldsV311 raw).map (PublishFields.asPacket qos))
          (PublishPacket.decode raw.flags raw.remaining .mqttv311) ∧
        Agree ((decodePublishFieldsV5 raw).map (PublishFields.asPacket qos))
          (PublishPacket.decode raw.flags raw.remaining .mqttv5) := by
  cases quality : QoS.ofLevel? raw.qosBits with
  | none =>
    intro protocol
    have bits : QoS.ofLevel? (raw.flags / 2 % 4) = none := quality
    unfold PublishPacket.decode
    rw [bits]
  | some qos =>
    cases qos with
    | atMostOnce =>
      have bits : raw.qosBits = 0 := by
        unfold QoS.ofLevel? at quality
        split at quality <;> cases quality
        assumption
      exact ⟨.of_eq (decodeQos0MessageV311_eq bits), .of_eq (decodeQos0MessageV5_eq bits)⟩
    | atLeastOnce =>
      exact ⟨decodeQos12FieldsV311_agrees quality nofun, .of_eq (decodePublishFieldsV5_eq quality nofun)⟩
    | exactlyOnce =>
      exact ⟨decodeQos12FieldsV311_agrees quality nofun, .of_eq (decodePublishFieldsV5_eq quality nofun)⟩

end Mqttium.Packets
