import Mqttium.Library.Raising
import Mqttium.Packets.Control

/-! What a reader of the wire sees of the outbound exchanges: the identifier and
the DUP flag of a QoS 1/2 PUBLISH, and the identifier of a PUBREL. Every other
frame the client sends is neither. -/

namespace Mqttium.Packets

open Codec Library

inductive Seen where
  | publish (mid : Nat) (dup : Bool)
  | pubrel (mid : Nat)
  deriving DecidableEq, Repr

/-- Skip the Remaining Length. -/
def skipVbi : Nat → Bytes → Option Bytes
  | 0, _ => none
  | _ + 1, [] => none
  | fuel + 1, digit :: rest => if digit.toNat < 128 then some rest else skipVbi fuel rest

private def leadingU16 : Bytes → Option (Nat × Bytes)
  | high :: low :: rest => some (high.toNat * 256 + low.toNat, rest)
  | _ => none

/-- Read the start of a frame. -/
def seen : Bytes → Option Seen
  | [] => none
  | first :: rest => do
    let body ← skipVbi 4 rest
    if first.toNat / 16 = 3 ∧ first.toNat / 2 % 4 ≠ 0 then
      let (topicLength, after) ← leadingU16 body
      let (mid, _) ← leadingU16 (after.drop topicLength)
      return .publish mid (first.toNat / 8 % 2 = 1)
    else if first.toNat / 16 = 6 then
      let (mid, _) ← leadingU16 body
      return .pubrel mid
    else none

theorem skipVbi_digits (fuel value : Nat) (rest : Bytes) (small : value < 128 ^ (fuel + 1)) :
    skipVbi (fuel + 1) (vbiDigits (fuel + 1) value ++ rest) = some rest := by
  induction fuel generalizing value with
  | zero =>
    have last : value / 128 = 0 := by omega
    simp only [vbiDigits, last, ↓reduceIte, List.cons_append, List.nil_append, skipVbi, toNat_byte]
    rw [if_pos (by omega)]
  | succ fuel ih =>
    rw [vbiDigits]
    split
    · simp only [List.cons_append, List.nil_append, skipVbi, toNat_byte]
      rw [if_pos (by omega)]
    · simp only [List.cons_append, skipVbi, toNat_byte]
      rw [if_neg (by omega)]
      apply ih
      rw [pow_succ] at small
      omega

theorem appendVbi_ok {start frame : Bytes} {value : Nat} (ok : appendVbi start value = .ok frame) :
    value ≤ maxVbi ∧ frame = start ++ vbiDigits 4 value := by
  unfold appendVbi encodeVbi at ok
  split at ok
  · cases ok
  · cases ok
    exact ⟨by omega, rfl⟩

theorem skipVbi_appended {value : Nat} (bound : value ≤ maxVbi) (rest : Bytes) :
    skipVbi 4 (vbiDigits 4 value ++ rest) = some rest := by
  apply skipVbi_digits 3
  simp only [maxVbi] at bound
  omega

/-- The packet type in the first byte of a frame, as `PacketType.code` numbers it. -/
def frameCode (frame : Bytes) : Option Nat := frame.head?.map fun first => first.toNat / 16 * 16

theorem frameCode_byte (packetType : PacketType) {flags : Nat} (nibble : flags < 16)
    (rest : Bytes) : frameCode (byte (packetType.code + flags) :: rest) = some packetType.code := by
  simp only [frameCode, List.head?_cons, Option.map_some, toNat_byte, Option.some.injEq]
  cases packetType <;> simp only [PacketType.code] <;> omega

/-- The first byte tells every other packet type apart. -/
theorem seen_other {frame : Bytes} (unpublished : frameCode frame ≠ some PacketType.publish.code)
    (unreleased : frameCode frame ≠ some PacketType.pubrel.code) : seen frame = none := by
  cases frame with
  | nil => rfl
  | cons first rest =>
    simp only [frameCode, List.head?_cons, Option.map_some, PacketType.code, ne_eq,
      Option.some.injEq] at unpublished unreleased
    have notPublish : first.toNat / 16 ≠ 3 := by omega
    have notPubrel : first.toNat / 16 ≠ 6 := by omega
    simp only [seen, notPublish, notPubrel, false_and, ↓reduceIte]
    cases skipVbi 4 rest <;> rfl

theorem seen_of_code {frame : Bytes} {packetType : PacketType}
    (coded : frameCode frame = some packetType.code) (unpublished : packetType ≠ .publish)
    (unreleased : packetType ≠ .pubrel) : seen frame = none := by
  apply seen_other
  · rw [coded]
    cases packetType <;> simp_all [PacketType.code]
  · rw [coded]
    cases packetType <;> simp_all [PacketType.code]

theorem frameCode_encodeFrame {packetType : PacketType} {flags : Nat} {body frame : Bytes}
    (ok : encodeFrame packetType flags body = .ok frame) :
    frameCode frame = some packetType.code := by
  unfold encodeFrame at ok
  split at ok
  · cases ok
  · rename_i fits
    obtain ⟨header, appended, result⟩ := except_bind_ok.mp ok
    obtain ⟨_, rfl⟩ := appendVbi_ok appended
    cases result
    exact frameCode_byte packetType (by omega) _

theorem frameCode_encodeSubscribe {protocol : ProtocolVersion} {mid : Nat}
    {subscriptions : List Subscription} {properties : Option Properties} {frame : Bytes}
    (ok : encodeSubscribe protocol mid subscriptions properties = .ok frame) :
    frameCode frame = some PacketType.subscribe.code := by
  unfold encodeSubscribe at ok
  split at ok
  · cases ok
  · obtain ⟨_, _, ok⟩ := except_bind_ok.mp ok
    obtain ⟨_, _, ok⟩ := except_bind_ok.mp ok
    obtain ⟨_, _, ok⟩ := except_bind_ok.mp ok
    obtain ⟨_, _, ok⟩ := except_bind_ok.mp ok
    exact frameCode_encodeFrame ok

theorem frameCode_encodeUnsubscribe {protocol : ProtocolVersion} {mid : Nat} {topics : List Text}
    {properties : Option Properties} {frame : Bytes}
    (ok : encodeUnsubscribe protocol mid topics properties = .ok frame) :
    frameCode frame = some PacketType.unsubscribe.code := by
  unfold encodeUnsubscribe at ok
  split at ok
  · cases ok
  · obtain ⟨_, _, ok⟩ := except_bind_ok.mp ok
    obtain ⟨_, _, ok⟩ := except_bind_ok.mp ok
    obtain ⟨_, _, ok⟩ := except_bind_ok.mp ok
    obtain ⟨_, _, ok⟩ := except_bind_ok.mp ok
    exact frameCode_encodeFrame ok

theorem frameCode_connect {packet : ConnectPacket} {frame : Bytes}
    (ok : packet.encode = .ok frame) : frameCode frame = some PacketType.connect.code := by
  unfold ConnectPacket.encode at ok
  obtain ⟨_, _, ok⟩ := except_bind_ok.mp ok
  obtain ⟨_, _, ok⟩ := except_bind_ok.mp ok
  obtain ⟨_, _, ok⟩ := except_bind_ok.mp ok
  obtain ⟨_, _, ok⟩ := except_bind_ok.mp ok
  obtain ⟨_, _, ok⟩ := except_bind_ok.mp ok
  obtain ⟨_, _, ok⟩ := except_bind_ok.mp ok
  obtain ⟨_, _, ok⟩ := except_bind_ok.mp ok
  exact frameCode_encodeFrame ok

theorem frameCode_encodeAuthV5 {reasonCode : Nat} {properties : Option Properties} {frame : Bytes}
    (ok : encodeAuthV5 reasonCode properties = .ok frame) :
    frameCode frame = some PacketType.auth.code := by
  obtain ⟨_, _, ok⟩ := except_bind_ok.mp ok
  obtain ⟨_, _, ok⟩ := except_bind_ok.mp ok
  exact frameCode_encodeFrame ok

theorem frameCode_encodeDisconnect {protocol : ProtocolVersion} {reasonCode : Nat}
    {properties : Option Properties} {frame : Bytes}
    (ok : (bindCodec protocol).encodeDisconnect reasonCode properties = .ok frame) :
    frameCode frame = some PacketType.disconnect.code := by
  cases protocol with
  | mqttv311 =>
    simp only [bindCodec, encodeDisconnectV311] at ok
    split at ok
    · cases ok
    · cases ok
      decide
  | mqttv5 =>
    obtain ⟨_, _, ok⟩ := except_bind_ok.mp ok
    split at ok
    · cases ok
    · split at ok
      · cases ok
        decide
      · obtain ⟨_, _, ok⟩ := except_bind_ok.mp ok
        exact frameCode_encodeFrame ok

theorem frameCode_pingreq : frameCode pingreqFrame = some PacketType.pingreq.code := by decide

/-! Acknowledgements -/

theorem frameCode_encodePubackSuccess (mid : Nat) :
    frameCode (encodePubackSuccess mid) = some PacketType.puback.code :=
  frameCode_byte .puback (by decide : 0 < 16) _

theorem frameCode_encodePubrecSuccess (mid : Nat) :
    frameCode (encodePubrecSuccess mid) = some PacketType.pubrec.code :=
  frameCode_byte .pubrec (by decide : 0 < 16) _

theorem frameCode_encodePubcompSuccess (mid : Nat) :
    frameCode (encodePubcompSuccess mid) = some PacketType.pubcomp.code :=
  frameCode_byte .pubcomp (by decide : 0 < 16) _

theorem frameCode_encodePubrelSuccess (mid : Nat) :
    frameCode (encodePubrelSuccess mid) = some PacketType.pubrel.code :=
  frameCode_byte .pubrel (by decide : 2 < 16) _

/-- What is read as a publication's packet has its packet type. -/
theorem frameCode_of_seen {frame : Bytes} {shown : Seen} (read : seen frame = some shown) :
    frameCode frame = some PacketType.publish.code ∨ frameCode frame = some PacketType.pubrel.code := by
  by_contra other
  rw [not_or] at other
  rw [seen_other other.1 other.2] at read
  cases read

private theorem seen_pubrel {mid : Nat} (small : mid < 65536) {length : UInt8} {rest : Bytes}
    (short : length.toNat < 128) :
    seen (byte 0x62 :: length :: byte (mid / 256) :: byte (mid % 256) :: rest) =
      some (.pubrel mid) := by
  have value : mid / 256 % 256 * 256 + mid % 256 = mid := by omega
  simp [seen, skipVbi, short, leadingU16, value]

theorem encodePubrelSuccess_eq (mid : Nat) :
    encodePubrelSuccess mid = [byte 0x62, 2, byte (mid / 256), byte (mid % 256)] := rfl

theorem seen_encodePubrelSuccess {mid : Nat} (small : mid < 65536) :
    seen (encodePubrelSuccess mid) = some (.pubrel mid) := by
  rw [encodePubrelSuccess_eq]
  exact seen_pubrel small (by decide)

/-- The PUBREL that answers a PUBREC without a row. -/
theorem seen_encodePubrel {protocol : ProtocolVersion} {mid reasonCode : Nat} {frame : Bytes}
    (ok : (bindCodec protocol).encodePubrel mid reasonCode none = .ok frame) :
    seen frame = some (.pubrel mid) := by
  cases protocol with
  | mqttv311 =>
    simp only [bindCodec, encodePubrelV311, encodeAckV311] at ok
    split at ok
    · cases ok
    · rename_i inRange
      split at ok
      · cases ok
      · cases ok
        exact seen_pubrel (by omega) (by decide)
  | mqttv5 =>
    simp only [bindCodec, encodePubrelV5, encodeAckV5, hasProperties, Bool.false_eq_true,
      not_false_eq_true, and_true, ↓reduceIte] at ok
    split at ok
    · cases ok
    · rename_i inRange
      split at ok
      · cases ok
        exact seen_pubrel (by omega) (by decide)
      · split at ok
        · cases ok
        · cases ok
          exact seen_pubrel (by omega) (by decide)

/-- A PUBREC that is decoded can always be answered. -/
theorem encodePubrel_decoded {protocol : ProtocolVersion} {remaining : Bytes} {mid reasonCode : Nat}
    {properties : Option Properties}
    (decoded : (bindCodec protocol).decodePubrec remaining = .ok (mid, reasonCode, properties)) :
    ∃ wire, (bindCodec protocol).encodePubrel mid
      (if (bindCodec protocol).isMqtt5 then 0x92 else 0) none = .ok wire := by
  cases protocol with
  | mqttv311 =>
    have range := decodePubrecV311_mid decoded
    simp [bindCodec, encodePubrelV311, encodeAckV311, hasProperties, range]
  | mqttv5 =>
    have range := decodePubrecV5_mid decoded
    simp [bindCodec, encodePubrelV5, encodeAckV5, hasProperties, pubrelReasons, range]

/-! PUBLISH -/

/-- A first byte with the same type and QoS changes the DUP flag only. -/
theorem seen_publish_first {first other : UInt8} {rest : Bytes} {mid : Nat} {dup : Bool}
    (shown : seen (first :: rest) = some (.publish mid dup))
    (kind : other.toNat / 16 = first.toNat / 16)
    (quality : other.toNat / 2 % 4 = first.toNat / 2 % 4) :
    seen (other :: rest) = some (.publish mid (decide (other.toNat / 8 % 2 = 1))) := by
  simp only [seen, kind, quality] at shown ⊢
  cases skipped : skipVbi 4 rest with
  | none => simp [skipped] at shown
  | some body =>
    simp only [skipped, Option.bind_eq_bind, Option.bind_some] at shown ⊢
    split at shown
    · rename_i publishes
      rw [if_pos publishes]
      cases measured : leadingU16 body with
      | none => simp [measured] at shown
      | some topic =>
        simp only [measured, Option.bind_some] at shown ⊢
        cases named : leadingU16 (topic.2.drop topic.1) with
        | none => simp [named] at shown
        | some found =>
          simp only [named, Option.bind_some, Option.pure_def, Option.some.injEq,
            Seen.publish.injEq] at shown ⊢
          exact ⟨shown.1, trivial⟩
    · split at shown
      · cases released : leadingU16 body <;> simp [released] at shown
      · cases shown

private theorem leadingU16_cons {value : Nat} (small : value < 65536) (rest : Bytes) :
    leadingU16 (byte (value / 256 % 256) :: byte (value % 256) :: rest) = some (value, rest) := by
  have total : value / 256 % 256 % 256 * 256 + value % 256 % 256 = value := by omega
  simp only [leadingU16, toNat_byte, total]

private theorem seen_publish {first : UInt8} {length mid : Nat} {topic rest : Bytes}
    (kind : first.toNat / 16 = 3) (acknowledged : first.toNat / 2 % 4 ≠ 0)
    (bound : length ≤ maxVbi) (short : topic.length < 65536) (small : mid < 65536) :
    seen (first :: (vbiDigits 4 length ++ (byte (topic.length / 256 % 256) ::
      byte (topic.length % 256) :: (topic ++ byte (mid / 256 % 256) :: byte (mid % 256) :: rest)))) =
      some (.publish mid (decide (first.toNat / 8 % 2 = 1))) := by
  rw [seen, skipVbi_appended bound]
  simp only [Option.bind_eq_bind, Option.bind_some, kind, acknowledged, ne_eq, not_false_eq_true,
    and_self, ↓reduceIte, leadingU16_cons short, List.drop_left, leadingU16_cons small,
    Option.pure_def]

private theorem flags_bounds (request : PublishRequest) :
    (byte (PacketType.publish.code + request.flags)).toNat = 48 + request.flags ∧
      request.flags / 2 % 4 = request.qos.level ∧
      (request.flags / 8 % 2 = 1 ↔ request.dup = true) ∧ request.flags < 16 := by
  obtain ⟨topic, payload, qos, retain, dup, mid, properties, topicBytes, propertyBytes⟩ := request
  rw [toNat_byte]
  cases qos <;> cases dup <;> cases retain <;>
    simp [PublishRequest.flags, PacketType.code, QoS.level]

/-- The bytes of an assembled frame, up to the payload. -/
private theorem assemble_header {request : PublishRequest} {topic table : Bytes} {item : WriteItem}
    (ok : request.assemble topic table = .ok item) :
    ∃ length rest, length ≤ maxVbi ∧ item.header =
      byte (PacketType.publish.code + request.flags) :: (vbiDigits 4 length ++
        (byte (topic.length / 256 % 256) :: byte (topic.length % 256) ::
          (topic ++ (request.midBytes ++ rest)))) := by
  simp only [PublishRequest.assemble] at ok
  split at ok
  · cases ok
  · obtain ⟨start, appended, ok⟩ := except_bind_ok.mp ok
    obtain ⟨bound, rfl⟩ := appendVbi_ok appended
    split at ok
    · cases ok
      exact ⟨_, table, bound, by simp [WriteItem.header]⟩
    · cases ok
      exact ⟨_, table ++ request.payload, bound, by simp [WriteItem.header]⟩

theorem seen_assemble {request : PublishRequest} {topic table : Bytes} {item : WriteItem}
    {mid : Nat} (ok : request.assemble topic table = .ok item) (short : topic.length < 65536)
    (given : request.mid = some mid) (small : mid < 65536)
    (acknowledged : request.qos ≠ .atMostOnce) :
    seen item.header = some (.publish mid request.dup) := by
  obtain ⟨length, rest, bound, shape⟩ := assemble_header ok
  obtain ⟨first, quality, dup, flags⟩ := flags_bounds request
  have level : request.qos.level ≠ 0 := by
    cases same : request.qos <;> simp_all [QoS.level]
  have marked : decide ((48 + request.flags) / 8 % 2 = 1) = request.dup := by
    rw [Bool.eq_iff_iff, decide_eq_true_eq, ← dup]
    omega
  rw [shape]
  simp only [PublishRequest.midBytes, given, List.cons_append, List.nil_append]
  rw [seen_publish (by omega) (by omega) bound short small, first, marked]

theorem seen_assemble_qos0 {request : PublishRequest} {topic table : Bytes} {item : WriteItem}
    (ok : request.assemble topic table = .ok item) (unacknowledged : request.qos = .atMostOnce) :
    seen item.header = none := by
  obtain ⟨length, rest, bound, shape⟩ := assemble_header ok
  obtain ⟨first, quality, dup, flags⟩ := flags_bounds request
  simp only [unacknowledged, QoS.level] at quality
  have plain : (48 + request.flags) / 2 % 4 = 0 := by omega
  rw [shape, seen, skipVbi_appended bound, first]
  have kind : (48 + request.flags) / 16 ≠ 6 := by omega
  simp [plain, kind]

private theorem encodedTopic_short {request : PublishRequest} {topic : Bytes}
    (ok : request.encodedTopic = .ok topic)
    (short : ∀ bytes, request.topicBytes = some bytes → bytes.length < 65536) :
    topic.length < 65536 := by
  unfold PublishRequest.encodedTopic at ok
  split at ok
  · rename_i encoded given
    cases ok
    exact short _ given
  · exact (encodeUtf8_ok ok).2

private theorem encodePublishItem_parts {protocol : ProtocolVersion} {request : PublishRequest}
    {item : WriteItem} (ok : (bindCodec protocol).encodePublishItem request = .ok item) :
    request.checkMid = .ok () ∧ ∃ topic table, request.encodedTopic = .ok topic ∧
      request.assemble topic table = .ok item := by
  cases protocol with
  | mqttv311 =>
    obtain ⟨_, checked, ok⟩ := except_bind_ok.mp ok
    obtain ⟨topic, encoded, ok⟩ := except_bind_ok.mp ok
    exact ⟨checked, topic, [], encoded, ok⟩
  | mqttv5 =>
    obtain ⟨_, checked, ok⟩ := except_bind_ok.mp ok
    obtain ⟨topic, encoded, ok⟩ := except_bind_ok.mp ok
    obtain ⟨table, _, ok⟩ := except_bind_ok.mp ok
    exact ⟨checked, topic, table, encoded, ok⟩

theorem frameCode_encodePublishItem {protocol : ProtocolVersion} {request : PublishRequest}
    {item : WriteItem} (ok : (bindCodec protocol).encodePublishItem request = .ok item) :
    frameCode item.header = some PacketType.publish.code := by
  obtain ⟨_, topic, table, _, assembled⟩ := encodePublishItem_parts ok
  obtain ⟨length, rest, _, shape⟩ := assemble_header assembled
  rw [shape]
  exact frameCode_byte .publish (flags_bounds request).2.2.2 _

private theorem checkMid_range {request : PublishRequest} {mid : Nat}
    (ok : request.checkMid = .ok ()) (given : request.mid = some mid) :
    mid < 65536 ∧ request.qos ≠ .atMostOnce := by
  unfold PublishRequest.checkMid at ok
  split at ok <;> simp_all [requireOutboundMid]
  omega

theorem seen_encodePublishItem {protocol : ProtocolVersion} {request : PublishRequest}
    {item : WriteItem} {mid : Nat} (ok : (bindCodec protocol).encodePublishItem request = .ok item)
    (short : ∀ bytes, request.topicBytes = some bytes → bytes.length < 65536)
    (given : request.mid = some mid) : seen item.header = some (.publish mid request.dup) := by
  obtain ⟨checked, topic, table, encoded, assembled⟩ := encodePublishItem_parts ok
  obtain ⟨small, acknowledged⟩ := checkMid_range checked given
  exact seen_assemble assembled (encodedTopic_short encoded short) given small acknowledged

theorem seen_encodePublishItem_qos0 {protocol : ProtocolVersion} {request : PublishRequest}
    {item : WriteItem} (ok : (bindCodec protocol).encodePublishItem request = .ok item)
    (unacknowledged : request.qos = .atMostOnce) : seen item.header = none := by
  obtain ⟨_, topic, table, _, assembled⟩ := encodePublishItem_parts ok
  exact seen_assemble_qos0 assembled unacknowledged

end Mqttium.Packets
