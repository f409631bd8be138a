import Mqttium.Topics

/-! Framing and validation shared by the packet modules. -/

namespace Mqttium.Packets

open Codec

/-- One decoded MQTT frame. -/
structure RawPacket where
  packetType : PacketType
  flags : Nat
  remaining : Bytes
  deriving DecidableEq, Repr

/-- The fixed flags nibble of every packet but PUBLISH. -/
def fixedFlags : PacketType → Nat
  | .pubrel => 0x2
  | .subscribe => 0x2
  | .unsubscribe => 0x2
  | _ => 0x0

def RawPacket.qosBits (raw : RawPacket) : Nat := raw.flags / 2 % 4

def RawPacket.retainFlag (raw : RawPacket) : Bool := raw.flags % 2 == 1

def RawPacket.dupFlag (raw : RawPacket) : Bool := raw.flags / 8 % 2 == 1

/-- A flags nibble in hexadecimal. -/
private def hex (nibble : Nat) : String := String.ofList [Nat.digitChar nibble]

/-- Refuse illegal fixed-header flags. -/
def validateRawPacket (raw : RawPacket) : Except Failure Unit :=
  if raw.packetType = .publish then
    if raw.qosBits = 3 then .error (.malformedPacket "PUBLISH with QoS 3") else .ok ()
  else if raw.flags ≠ fixedFlags raw.packetType then
    .error (.malformedPacket
      s!"{raw.packetType.name} flags 0x{hex raw.flags} != 0x{hex (fixedFlags raw.packetType)}")
  else .ok ()

def requireNonzeroMid (mid : Nat) (what : String) : Except Failure Unit :=
  if mid = 0 then .error (.malformedPacket s!"{what} packet identifier must not be 0") else .ok ()

/-- Require a typed decoder to consume the complete packet body. -/
def requireEnd (pos length : Nat) (what : String) : Except Failure Unit :=
  if pos ≠ length then
    .error (.malformedPacket s!"{what} has {length - pos} unexpected trailing byte(s)")
  else .ok ()

def requireReasonCode (reason : Nat) (allowed : List Nat) (what : String) : Except Failure Unit :=
  if reason ∉ allowed then
    .error (.malformedPacket s!"{what} contains invalid reason code 0x{hex02 reason}")
  else .ok ()

def encodeFrame (packetType : PacketType) (flags : Nat) (remaining : Bytes) :
    Except Failure Bytes :=
  if 16 ≤ flags then .error (.value "flags must fit in low nibble")
  else do
    let header ← appendVbi [byte (packetType.code + flags)] remaining.length
    return header ++ remaining

def requireOutboundMid (mid : Nat) (what : String) : Except Failure Unit :=
  if 1 ≤ mid ∧ mid ≤ 65535 then .ok ()
  else .error (.protocol s!"{what} packet identifier must be in 1..65535")

def requireOutboundReason (reason : Nat) (allowed : List Nat) (what : String) :
    Except Failure Unit :=
  if reason ∉ allowed then
    .error (.protocol s!"{what} contains invalid reason code 0x{hex02 reason}")
  else .ok ()

/-- The sender-side Payload Format Indicator contract. -/
def validatePayloadFormat (payload : Bytes) (properties : Option Properties) :
    Except Failure Unit :=
  match properties with
  | none => .ok ()
  | some table =>
    if table.int? .payloadFormatIndicator = some 1 ∧ decodeUtf8 payload = none then
      .error (.protocol "Payload Format Indicator 1 requires a well-formed UTF-8 payload")
    else .ok ()

end Mqttium.Packets
