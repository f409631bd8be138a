import Mathlib.Algebra.Order.Ring.Nat

namespace Mqttium

/-- MQTT wire-protocol level used for a client connection. -/
inductive ProtocolVersion where
  | mqttv311
  | mqttv5
  deriving DecidableEq, Repr

inductive PacketType where
  | connect | connack | publish | puback | pubrec | pubrel | pubcomp | subscribe | suback
  | unsubscribe | unsuback | pingreq | pingresp | disconnect | auth
  deriving DecidableEq, Repr

namespace PacketType

/-- The high nibble of the fixed header, as the first byte of a frame has it. -/
def code : PacketType → Nat
  | connect => 0x10
  | connack => 0x20
  | publish => 0x30
  | puback => 0x40
  | pubrec => 0x50
  | pubrel => 0x60
  | pubcomp => 0x70
  | subscribe => 0x80
  | suback => 0x90
  | unsubscribe => 0xA0
  | unsuback => 0xB0
  | pingreq => 0xC0
  | pingresp => 0xD0
  | disconnect => 0xE0
  | auth => 0xF0

def name : PacketType → String
  | connect => "CONNECT"
  | connack => "CONNACK"
  | publish => "PUBLISH"
  | puback => "PUBACK"
  | pubrec => "PUBREC"
  | pubrel => "PUBREL"
  | pubcomp => "PUBCOMP"
  | subscribe => "SUBSCRIBE"
  | suback => "SUBACK"
  | unsubscribe => "UNSUBSCRIBE"
  | unsuback => "UNSUBACK"
  | pingreq => "PINGREQ"
  | pingresp => "PINGRESP"
  | disconnect => "DISCONNECT"
  | auth => "AUTH"

end PacketType

inductive QoS where
  | atMostOnce
  | atLeastOnce
  | exactlyOnce
  deriving DecidableEq, Repr

namespace QoS

def level : QoS → Nat
  | atMostOnce => 0
  | atLeastOnce => 1
  | exactlyOnce => 2

/-- `QoS(raw)`; `none` where the enum has no such member. -/
def ofLevel? : Nat → Option QoS
  | 0 => some atMostOnce
  | 1 => some atLeastOnce
  | 2 => some exactlyOnce
  | _ => none

@[simp] theorem ofLevel?_level (qos : QoS) : ofLevel? qos.level = some qos := by
  cases qos <;> rfl

end QoS

/-- Outbound QoS message lifecycle. -/
inductive OutboundQoSState where
  | queued
  | waitPuback
  | waitPubrec
  | waitPubcomp
  | done
  deriving DecidableEq, Repr

namespace OutboundQoSState

def code : OutboundQoSState → Nat
  | queued => 1
  | waitPuback => 2
  | waitPubrec => 3
  | waitPubcomp => 4
  | done => 5

/-- `OutboundQoSState(raw)`. -/
def ofCode? : Nat → Option OutboundQoSState
  | 1 => some queued
  | 2 => some waitPuback
  | 3 => some waitPubrec
  | 4 => some waitPubcomp
  | 5 => some done
  | _ => none

@[simp] theorem ofCode?_code (state : OutboundQoSState) : ofCode? state.code = some state := by
  cases state <;> rfl

end OutboundQoSState

/-- Inbound QoS lifecycle. `waitPuback` and `waitUserAck` belong to manual
acknowledgement; auto acknowledgement uses `waitPuback` for recovered rows only. -/
inductive InboundQoSState where
  | waitPubrel
  | done
  | waitPuback
  | waitUserAck
  deriving DecidableEq, Repr

namespace InboundQoSState

def code : InboundQoSState → Nat
  | waitPubrel => 1
  | done => 2
  | waitPuback => 3
  | waitUserAck => 4

/-- `InboundQoSState(raw)`. -/
def ofCode? : Nat → Option InboundQoSState
  | 1 => some waitPubrel
  | 2 => some done
  | 3 => some waitPuback
  | 4 => some waitUserAck
  | _ => none

@[simp] theorem ofCode?_code (state : InboundQoSState) : ofCode? state.code = some state := by
  cases state <;> rfl

end InboundQoSState

inductive ConnectionState where
  | new
  | connecting
  | connected
  | disconnecting
  | disconnected
  | reconnecting
  deriving DecidableEq, Repr

end Mqttium
