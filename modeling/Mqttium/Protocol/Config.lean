import Mqttium.Packets.Control

namespace Mqttium.Protocol

open Codec Packets

/-- The constructor arguments of the engine configuration. -/
structure EngineOptions where
  clientId : Text := []
  protocol : ProtocolVersion := .mqttv311
  cleanStart : Bool := true
  keepalive : Nat := 60
  username : Option Text := none
  password : Option Bytes := none
  maxInboundInflight : Nat := 65535
  maxInboundInflightBytes : Option Nat := some (64 * 1024 * 1024)
  maxOutboundInflight : Option Nat := none
  maxUnacknowledgedMessages : Option Nat := some 10000
  maxUnacknowledgedBytes : Option Nat := some (64 * 1024 * 1024)
  connectProperties : Option Properties := none
  will : Option Message := none
  willProperties : Option Properties := none
  maximumPacketSize : Option Nat := none
  topicAliasMaximum : Nat := 0
  manualAck : Bool := false
  acceptAuth : Bool := false
  deriving DecidableEq, Repr

namespace EngineOptions

def validateBounds (options : EngineOptions) : Except Failure Unit :=
  if ¬ (1 ≤ options.maxInboundInflight ∧ options.maxInboundInflight ≤ 65535) then
    .error (.value "max_inbound_inflight must be between 1 and 65535")
  else if options.maxOutboundInflight.any fun cap => ¬ (1 ≤ cap ∧ cap ≤ 65535) then
    .error (.value "max_outbound_inflight must be between 1 and 65535")
  else if options.maximumPacketSize.any fun size => ¬ (2 ≤ size ∧ size ≤ 268435460) then
    .error (.value "maximum_packet_size must be between 2 and 268435460")
  else if 65535 < options.topicAliasMaximum then
    .error (.value "topic_alias_maximum must be between 0 and 65535")
  else .ok ()

def refuseMqtt5Options (options : EngineOptions) : Except Failure Unit :=
  if hasProperties options.connectProperties then
    .error (.protocol "CONNECT properties require MQTT 5")
  else if hasProperties options.willProperties then
    .error (.protocol "Will properties require MQTT 5")
  else if options.topicAliasMaximum ≠ 0 then
    .error (.protocol "topic_alias_maximum requires MQTT 5")
  else if options.acceptAuth then
    .error (.protocol "Enhanced authentication requires MQTT 5")
  else .ok ()

/-- Limits that have their own constructor arguments. -/
def reservedProperties : List PropertyName := [.receiveMaximum, .maximumPacketSize, .topicAliasMaximum]

/-- `__post_init__`. -/
def check (options : EngineOptions) : Except Failure Unit := do
  if 65535 < options.keepalive then .error (.value "keepalive must be between 0 and 65535")
  else
    options.validateBounds
    if options.protocol = .mqttv5 then
      if hasProperties options.willProperties then
        discard (encodeProperties options.willProperties .will)
      else .ok ()
    else options.refuseMqtt5Options
    match options.connectProperties with
    | some table =>
      if reservedProperties.any fun name => (table.get name).isSome then
        .error (.protocol "CONNECT limits must use the dedicated constructor arguments")
      else .ok ()
    | none => .ok ()

end EngineOptions

/-- An accepted configuration. -/
structure EngineConfig extends EngineOptions where
  accepted : toEngineOptions.check = .ok ()

namespace EngineConfig

private theorem bounds (config : EngineConfig) :
    config.toEngineOptions.validateBounds = .ok () := by
  have accepted := config.accepted
  unfold EngineOptions.check at accepted
  split at accepted
  · cases accepted
  · cases checked : config.toEngineOptions.validateBounds with
    | ok _ => rfl
    | error failure =>
      rw [checked] at accepted
      cases accepted

/-- The receive window the client advertises is a legal Receive Maximum. -/
theorem inboundInflight_range (config : EngineConfig) :
    1 ≤ config.maxInboundInflight ∧ config.maxInboundInflight ≤ 65535 := by
  by_contra outside
  have checked := config.bounds
  simp only [EngineOptions.validateBounds, outside, not_false_eq_true, ↓reduceIte, reduceCtorEq]
    at checked

theorem outboundInflight_pos (config : EngineConfig) {cap : Nat}
    (capped : config.maxOutboundInflight = some cap) : 1 ≤ cap := by
  have checked := config.bounds
  simp only [EngineOptions.validateBounds, config.inboundInflight_range, and_self, not_true_eq_false,
    ↓reduceIte, capped, Option.any_some] at checked
  by_contra zero
  have refused : ¬ (1 ≤ cap ∧ cap ≤ 65535) := fun inside => zero inside.1
  simp [refused] at checked

end EngineConfig

/-- Effective broker capabilities derived from CONNACK. -/
structure NegotiatedSettings where
  receiveMaximum : Nat := 65535
  maximumPacketSize : Option Nat := none
  maximumQos : Nat := 2
  retainAvailable : Bool := true
  topicAliasMaximum : Nat := 0
  serverKeepAlive : Option Nat := none
  assignedClientIdentifier : Option Text := none
  sessionExpiryInterval : Option Nat := none
  wildcardSubscriptionAvailable : Bool := true
  sharedSubscriptionAvailable : Bool := true
  subscriptionIdentifierAvailable : Bool := true
  deriving DecidableEq, Repr

private def nat? (properties : Option Properties) (name : PropertyName) : Option Nat :=
  (properties.bind (·.int? name)).map Int.toNat

private def text? (properties : Option Properties) (name : PropertyName) : Option Text :=
  match properties.bind (·.get name) with
  | some (.scalar (.text value)) => some value
  | _ => none

def NegotiatedSettings.fromConnack (properties : Option Properties)
    (requestedSessionExpiry : Option Nat) : NegotiatedSettings where
  receiveMaximum := (nat? properties .receiveMaximum).getD 65535
  maximumPacketSize := nat? properties .maximumPacketSize
  maximumQos := (nat? properties .maximumQos).getD 2
  retainAvailable := (nat? properties .retainAvailable).getD 1 ≠ 0
  topicAliasMaximum := (nat? properties .topicAliasMaximum).getD 0
  serverKeepAlive := nat? properties .serverKeepAlive
  assignedClientIdentifier := (text? properties .assignedClientIdentifier).filter (· ≠ [])
  sessionExpiryInterval := (nat? properties .sessionExpiryInterval).or requestedSessionExpiry
  wildcardSubscriptionAvailable := (nat? properties .wildcardSubscriptionAvailable).getD 1 ≠ 0
  sharedSubscriptionAvailable := (nat? properties .sharedSubscriptionAvailable).getD 1 ≠ 0
  subscriptionIdentifierAvailable := (nat? properties .subscriptionIdentifierAvailable).getD 1 ≠ 0

/-- What the engine hands to its runtime adapter; its only output. -/
inductive Effect where
  | send (item : WriteItem)
  | sendAck (frame : Bytes)
  | message (message : Message) (requiresDeliveryMark : Bool) (exchangeToken : Option Token)
  | decodedMessage (message : Message) (requiresDeliveryMark : Bool) (propertyWireSize : Nat)
      (exchangeToken : Option Token)
  | connack (sessionPresent : Bool) (reasonCode : Nat) (properties : Option Properties)
  | publishComplete (mid : Option Nat)
  | publishFailed (mid : Nat) (reason : Failure)
  | suback (mid : Nat) (reasonCodes : List Nat) (properties : Option Properties)
  | unsuback (mid : Nat) (reasonCodes : List Nat) (properties : Option Properties)
  | disconnected (reasonCode : Nat) (properties : Option Properties) (fromBroker : Bool)
  | protocolError (failure : Failure)
  | pingresp
  | auth (reasonCode : Nat) (properties : Option Properties) (challenge : Option Nat)
  | continueInboundReplay
  deriving DecidableEq, Repr

end Mqttium.Protocol
