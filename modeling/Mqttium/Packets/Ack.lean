import Mqttium.Library.Raising
import Mqttium.Packets.Common

/-! Acknowledgement packets. The source writes each decoder out by hand; they
differ in the packet's name and in the reason codes it admits. -/

namespace Mqttium.Packets

open Codec Library

abbrev DecodedAck := Nat × Nat × Option Properties

private def octetAt (remaining : Bytes) (index : Nat) : Nat := (remaining.getD index 0).toNat

private def midOf (remaining : Bytes) : Nat := octetAt remaining 0 * 256 + octetAt remaining 1

private def decodeAckV311 (packet : String) (remaining : Bytes) : Except Failure DecodedAck :=
  let size := remaining.length
  if size ≠ 2 then
    .error (.malformedPacket
      (if 2 < size then s!"{packet} has {size - 2} unexpected trailing byte(s)"
       else s!"{packet} too short"))
  else if midOf remaining = 0 then
    .error (.malformedPacket s!"{packet} packet identifier must not be 0")
  else .ok (midOf remaining, 0, none)

def decodePubackV311 := decodeAckV311 "PUBACK"

def decodePubrecV311 := decodeAckV311 "PUBREC"

def decodePubrelV311 := decodeAckV311 "PUBREL"

def decodePubcompV311 := decodeAckV311 "PUBCOMP"

def successFrame (first : Nat) (mid : Nat) : Bytes :=
  [byte first, 2, byte (mid / 256), byte (mid % 256)]

def encodePubackSuccess (mid : Nat) : Bytes := successFrame 0x40 mid

def encodePubrecSuccess (mid : Nat) : Bytes := successFrame 0x50 mid

def encodePubrelSuccess (mid : Nat) : Bytes := successFrame 0x62 mid

def encodePubcompSuccess (mid : Nat) : Bytes := successFrame 0x70 mid

def pubackReasons : List Nat := [0x00, 0x10, 0x80, 0x83, 0x87, 0x90, 0x91, 0x97, 0x99]

def pubrecReasons : List Nat := pubackReasons

def pubrelReasons : List Nat := [0x00, 0x92]

def pubcompReasons : List Nat := pubrelReasons

private def decodeAckV5 (context : PropertyContext) (reasons : List Nat) (remaining : Bytes) :
    Except Failure DecodedAck :=
  let packet := context.name
  let size := remaining.length
  let reason := octetAt remaining 2
  if size < 2 then .error (.malformedPacket s!"{packet} too short")
  else if midOf remaining = 0 then
    .error (.malformedPacket s!"{packet} packet identifier must not be 0")
  else if size = 2 then .ok (midOf remaining, 0, none)
  else if reason ∉ reasons then
    .error (.malformedPacket s!"{packet} contains invalid reason code 0x{hex02 reason}")
  else if size = 3 then .ok (midOf remaining, reason, none)
  else do
    let (properties, pos) ← decodeProperties remaining 3 context
    requireEnd pos size packet
    return (midOf remaining, reason, some properties)

def decodePubackV5 := decodeAckV5 .puback pubackReasons

def decodePubrecV5 := decodeAckV5 .pubrec pubrecReasons

def decodePubrelV5 := decodeAckV5 .pubrel pubrelReasons

def decodePubcompV5 := decodeAckV5 .pubcomp pubcompReasons

/-! Decoded identifiers -/

section

variable {remaining : Bytes} {mid reasonCode : Nat} {properties : Option Properties}

private theorem midOf_range (present : midOf remaining ≠ 0) :
    1 ≤ midOf remaining ∧ midOf remaining ≤ 65535 := by
  have high : octetAt remaining 0 < 256 := UInt8.toNat_lt _
  have low : octetAt remaining 1 < 256 := UInt8.toNat_lt _
  unfold midOf at present ⊢
  omega

private theorem decodeAckV311_mid {packet : String}
    (ok : decodeAckV311 packet remaining = .ok (mid, reasonCode, properties)) :
    1 ≤ mid ∧ mid ≤ 65535 := by
  unfold decodeAckV311 at ok
  dsimp only at ok
  split at ok
  · cases ok
  · split at ok
    · cases ok
    · next present =>
      cases ok
      exact midOf_range present

private theorem decodeAckV5_mid {context : PropertyContext} {reasons : List Nat}
    (ok : decodeAckV5 context reasons remaining = .ok (mid, reasonCode, properties)) :
    1 ≤ mid ∧ mid ≤ 65535 := by
  unfold decodeAckV5 at ok
  dsimp only at ok
  split at ok
  · cases ok
  · split at ok
    · cases ok
    · next present =>
      have range := midOf_range present
      split at ok
      · cases ok
        exact range
      · split at ok
        · cases ok
        · split at ok
          · cases ok
            exact range
          · obtain ⟨_, _, ok⟩ := except_bind_ok.mp ok
            obtain ⟨_, _, ok⟩ := except_bind_ok.mp ok
            cases ok
            exact range

theorem decodePubrecV311_mid (ok : decodePubrecV311 remaining = .ok (mid, reasonCode, properties)) :
    1 ≤ mid ∧ mid ≤ 65535 :=
  decodeAckV311_mid ok

theorem decodePubrecV5_mid (ok : decodePubrecV5 remaining = .ok (mid, reasonCode, properties)) :
    1 ≤ mid ∧ mid ≤ 65535 :=
  decodeAckV5_mid ok

end

def encodeAckV311 (first : Nat) (packet : String) (mid reasonCode : Nat)
    (properties : Option Properties) : Except Failure Bytes :=
  if ¬ (1 ≤ mid ∧ mid ≤ 65535) then
    .error (.protocol s!"{packet} packet identifier must be in 1..65535")
  else if reasonCode ≠ 0 ∨ hasProperties properties then
    .error (.protocol s!"{packet} reason/properties require MQTT 5")
  else .ok (successFrame first mid)

/-- The only acknowledgement encoder the sessions reach: PUBREL for an orphan PUBREC. -/
def encodePubrelV311 := encodeAckV311 0x62 "PUBREL"

def encodeAckV5 (first : Nat) (context : PropertyContext) (allowed : List Nat)
    (mid reasonCode : Nat) (properties : Option Properties) : Except Failure Bytes :=
  if ¬ (1 ≤ mid ∧ mid ≤ 65535) then
    .error (.protocol s!"{context.name} packet identifier must be in 1..65535")
  else if reasonCode = 0 ∧ ¬ hasProperties properties then .ok (successFrame first mid)
  else if reasonCode ∉ allowed then
    .error (.protocol s!"{context.name} contains invalid reason code 0x{hex02 reasonCode}")
  else if ¬ hasProperties properties then
    .ok [byte first, 3, byte (mid / 256), byte (mid % 256), byte reasonCode]
  else do
    let table ← encodeProperties properties context
    let body := [byte (mid / 256), byte (mid % 256), byte reasonCode] ++ table
    let header ← appendVbi [byte first] body.length
    return header ++ body

def encodePubrelV5 := encodeAckV5 0x62 .pubrel pubrelReasons

end Mqttium.Packets
