import Mqttium.Protocol.Inbound

/-! The protocol engine: commands and packets in, effects out. -/

namespace Mqttium.Protocol

open Codec Library Packets Persistence

/-- Identifiers, bytes and QoS 1 order restored from the inbound index. -/
def loadRecoveredState (store : Store) : Except Failure (Finset Nat × Nat × List Nat) :=
  let rows := store.inbound.values.map InRow.message
  if rows.any fun row => row.logicalSize = 0 then
    .error (.value "Persisted inbound logical_size must be positive")
  else
    .ok (store.inbound.keys.toFinset, (rows.map InboundMessage.logicalSize).sum,
      (store.inbound.entries.filter fun entry => entry.2.message.state = .waitPuback).map Prod.fst)

/-- An engine before hydration. -/
def Engine.blank (config : EngineConfig) (store : Store) : Engine where
  config := config
  store := store
  outbound := { flow := .ofLimit config.maxInboundInflight }
  inbound := { topicAliasMaximum := config.topicAliasMaximum
               receiveMaximum := config.maxInboundInflight }
  sessionClientId := if config.clientId = [] then none else some config.clientId
  sentClientId := config.clientId
  sentMaximumPacketSize := config.maximumPacketSize

/-- `ProtocolEngine(config, store)`: both sessions recover from the store. -/
def Engine.create (config : EngineConfig) (store : Store) : Except Failure Engine := do
  let (recovered, bytes, qos1) ← loadRecoveredState store
  let blank := Engine.blank config store
  let started := { blank with
    inbound := { blank.inbound with
      recoveredMids := recovered
      pendingBytes := bytes
      storedInbound := recovered.card
      manualQos1Order := if config.manualAck then qos1 else [] } }
  match Outbound.hydrate started with
  | .ok _ engine => .ok engine
  | .error failure _ => .error failure

/-- Take the pending effects: the ownership-transfer boundary. It also releases the
slots and identifiers that the acknowledgements of the batch held. -/
def takeEffects : EngineM (List Effect) := do
  let engine ← get
  modify fun engine => { engine with effects := [] }
  onlyIf (engine.inbound.pendingAutoQos1Mids ≠ ∅ ∨ engine.inbound.pendingPubcomps ≠ ∅)
    Inbound.releasePendingAcks
  return engine.effects

/-! Connecting -/

/-- The identifier of the next CONNECT. -/
def clientIdForConnect (engine : Engine) (cleanStart : Bool) : Except Failure Text :=
  let configured := engine.config.clientId
  let clientId :=
    if engine.preferSessionResume ∧ configured = [] then engine.sessionClientId.getD configured
    else configured
  if engine.config.protocol = .mqttv5 ∧ clientId = [] ∧ ¬ cleanStart ∧
      (Outbound.hasClientSessionState engine.outbound ∨
        Inbound.hasClientSessionState engine.inbound) then
    .error (.protocol ("Cannot resume persisted MQTT 5 session with an empty ClientID; " ++
      "configure a stable non-empty client_id for process-restart recovery"))
  else .ok clientId

private def textProperty (properties : Option Properties) (name : PropertyName) : Option Text :=
  match properties.bind (·.get name) with
  | some (.scalar (.text value)) => some value
  | _ => none

private def natProperty (properties : Option Properties) (name : PropertyName) : Option Nat :=
  (properties.bind (·.int? name)).map Int.toNat

/-- The CONNECT properties with the limits the configuration announces. -/
def connectProperties (config : EngineConfig) : Option Properties :=
  if config.protocol = .mqttv5 then
    let given := (config.connectProperties.getD .empty).values
    let limited := given.insert .receiveMaximum (.scalar (.int config.maxInboundInflight))
    let sized := match config.maximumPacketSize with
      | some size => limited.insert .maximumPacketSize (.scalar (.int size))
      | none => limited
    let aliased := if config.topicAliasMaximum = 0 then sized
      else sized.insert .topicAliasMaximum (.scalar (.int config.topicAliasMaximum))
    some ⟨aliased⟩
  else config.connectProperties

/-- Everything `begin_connect` checks before it commits: the client identifier and
the encoded CONNECT. -/
def prepareConnect (engine : Engine) (cleanStart : Bool) : Except Failure (Text × Bytes) := do
  let config := engine.config
  let clientId ← clientIdForConnect engine cleanStart
  if config.protocol = .mqttv311 ∧ config.password.isSome ∧ config.username = none then
    .error (.protocol ("MQTT 3.1.1 does not allow a password without a username " ++
      "[MQTT-3.1.2-22]; connect with MQTT 5 or supply a username"))
  else if config.acceptAuth ∧
      ((textProperty config.connectProperties .authenticationMethod).getD []) = [] then
    .error (.protocol "auth_handler requires authentication_method in CONNECT properties")
  else if config.protocol = .mqttv311 ∧ clientId = [] ∧ ¬ cleanStart then
    .error (.protocol ("MQTT 3.1.1 requires clean_start=True with an empty client_id " ++
      "[MQTT-3.1.3-7]; set a client_id or connect with MQTT 5"))
  else
    match config.will with
    | some will => discard (validatePublishTopic will.topic)
    | none => .ok ()
    let wire ← ConnectPacket.encode {
      clientId, cleanStart, keepalive := config.keepalive, username := config.username,
      password := config.password, willTopic := config.will.map Message.topic,
      willPayload := (config.will.map Message.payload).getD [],
      willQos := (config.will.map Message.qos).getD .atMostOnce,
      willRetain := (config.will.map Message.retain).getD false,
      willProperties := config.willProperties, protocol := config.protocol,
      properties := connectProperties config }
    return (clientId, wire)

def beginConnect : EngineM Bytes := do
  let engine ← get
  raiseIf (engine.state = .connected ∨ engine.state = .connecting ∨ engine.state = .disconnecting)
    (.protocol "Already connected, connecting or disconnecting")
  let cleanStart := engine.config.cleanStart && !engine.preferSessionResume
  let (clientId, wire) ← fromExcept (prepareConnect engine cleanStart)
  let properties := connectProperties engine.config
  modify fun engine =>
    { engine with
      authMethod := textProperty engine.config.connectProperties .authenticationMethod
      reauthInProgress := false
      authResponseDue := none
      sentClientId := clientId
      sentCleanStart := cleanStart
      sentSessionExpiryInterval := natProperty properties .sessionExpiryInterval
      sentMaximumPacketSize := engine.config.maximumPacketSize
      sentRequestProblemInformation := (natProperty properties .requestProblemInformation).getD 1
      sentRequestResponseInformation := (natProperty properties .requestResponseInformation).getD 0
      state := .connecting
      outbound := { engine.outbound with topicAliases := .empty } }
  Inbound.startConnection engine.config.maxInboundInflight engine.config.topicAliasMaximum
  modify fun engine => { engine with negotiated := {} }
  return wire

/-! Subscriptions -/

def checkSubscribeCapabilities (engine : Engine) (subscription : Subscription)
    (properties : Option Properties) : Except Failure Unit :=
  let shared := sharePrefix.isPrefixOf subscription.topic
  if shared ∧ subscription.options.noLocal then
    .error (.protocol "No Local must be 0 for a shared subscription")
  else if shared ∧ ¬ engine.negotiated.sharedSubscriptionAvailable then
    .error (.protocol "Broker does not support shared subscriptions")
  else if hasWildcard subscription.topic ∧ ¬ engine.negotiated.wildcardSubscriptionAvailable then
    .error (.protocol "Broker does not support wildcard subscriptions")
  else if (properties.bind (·.get .subscriptionIdentifier)).isSome ∧
      ¬ engine.negotiated.subscriptionIdentifierAvailable then
    .error (.protocol "Broker does not support subscription identifiers")
  else .ok ()

private def checkSubscriptions (engine : Engine) (properties : Option Properties) :
    List Subscription → Except Failure Unit
  | [] => .ok ()
  | subscription :: rest => do
    validateSubscribeFilter subscription.topic
    checkSubscribeCapabilities engine subscription properties
    checkSubscriptions engine properties rest

/-- Validate a SUBSCRIBE without allocating an identifier. -/
def prepareSubscribe (engine : Engine) (subscriptions : List Subscription)
    (properties : Option Properties) : Except Failure Unit :=
  if engine.state ≠ .connected then
    .error (.notConnected "subscribe requires an active connection")
  else if engine.config.protocol ≠ .mqttv5 ∧ hasProperties properties then
    .error (.protocol "SUBSCRIBE properties require MQTT 5")
  else checkSubscriptions engine properties subscriptions

private def checkFilters : List Text → Except Failure Unit
  | [] => .ok ()
  | topic :: rest => do
    validateSubscribeFilter topic
    checkFilters rest

def prepareUnsubscribe (engine : Engine) (topics : List Text) : Except Failure Unit :=
  if engine.state ≠ .connected then
    .error (.notConnected "unsubscribe requires an active connection")
  else if topics = [] then .error (.protocol "unsubscribe requires at least one topic")
  else checkFilters topics

/-- Allocate an identifier, encode and send, registering the expected answer. -/
def sendSubscriptionRequest (choice : Nat) (encode : Nat → Except Failure Bytes)
    (ackType : PacketType) (expectedCount : Nat) : EngineM Nat := do
  let mid ← Outbound.allocateId choice
  let wire ← tryCatch (do
      let wire ← fromExcept (encode mid)
      checkOutboundSize (.contiguous wire)
      return wire) fun failure => do
    Outbound.releaseId mid
    throw failure
  modify fun engine =>
    { engine with
      pendingSubRequests := engine.pendingSubRequests.insert mid (ackType, expectedCount) }
  send (.contiguous wire)
  return mid

def queueSubscribe (choice : Nat) (subscriptions : List Subscription)
    (properties : Option Properties) : EngineM Nat := do
  let engine ← get
  fromExcept (prepareSubscribe engine subscriptions properties)
  sendSubscriptionRequest choice
    (fun mid => encodeSubscribe engine.config.protocol mid subscriptions properties)
    .suback subscriptions.length

def queueUnsubscribe (choice : Nat) (topics : List Text) : EngineM Nat := do
  let engine ← get
  fromExcept (prepareUnsubscribe engine topics)
  sendSubscriptionRequest choice
    (fun mid => encodeUnsubscribe engine.config.protocol mid topics none)
    .unsuback topics.length

def completeSubscriptionRequest (mid : Nat) (ackType : PacketType) (reasonCount : Option Nat) :
    EngineM PUnit := do
  let engine ← get
  match engine.pendingSubRequests.get? mid with
  | none => throw (.protocol s!"{ackType.name} for unknown mid {mid}")
  | some (expectedType, expectedCount) => do
    raiseIf (ackType ≠ expectedType) (.protocol
      s!"Expected {expectedType.name} for mid {mid}, received {ackType.name}")
    raiseIf (reasonCount.any (· ≠ expectedCount)) (.protocol
      (s!"{ackType.name} for mid {mid} has {reasonCount.getD 0} reason codes; " ++
        s!"expected {expectedCount}"))
    modify fun engine =>
      { engine with pendingSubRequests := engine.pendingSubRequests.erase mid }
    Outbound.releaseId mid

def onSuback (raw : RawPacket) : EngineM PUnit := do
  let engine ← get
  let (mid, reasonCodes, properties) ← fromExcept (engine.codec.decodeSuback raw.remaining)
  validateInboundProblemInformation .suback properties
  completeSubscriptionRequest mid .suback (some reasonCodes.length)
  emit (.suback mid reasonCodes properties)

def onUnsuback (raw : RawPacket) : EngineM PUnit := do
  let engine ← get
  let (mid, reasonCodes, properties) ← fromExcept (engine.codec.decodeUnsuback raw.remaining)
  validateInboundProblemInformation .unsuback properties
  completeSubscriptionRequest mid .unsuback
    (if engine.codec.isMqtt5 then some reasonCodes.length else none)
  emit (.unsuback mid reasonCodes properties)

/-! Disconnecting -/

def queuePing : EngineM PUnit := do
  let engine ← get
  raiseIf (engine.state ≠ .connected) (.notConnected "PINGREQ requires an active connection")
  checkOutboundSize (.contiguous pingreqFrame)
  send (.contiguous pingreqFrame)

/-- Refuse extending a session that was never allowed to outlive the connection. -/
def checkDisconnectSessionExpiry (engine : Engine) (properties : Option Properties) :
    Except Failure Unit :=
  if engine.codec.isMqtt5 ∧ (natProperty properties .sessionExpiryInterval).getD 0 ≠ 0 ∧
      engine.sentSessionExpiryInterval.getD 0 = 0 then
    .error (.protocol ("Cannot set a non-zero session_expiry_interval on DISCONNECT when " ++
      "CONNECT declared none (MQTT 5 §3.14.2.2.2); this can make the " ++
      "shutdown ungraceful and publish a configured Will"))
  else .ok ()

def beginDisconnect (reasonCode : Nat) (properties : Option Properties) : EngineM Bytes := do
  let engine ← get
  raiseIf (engine.state ≠ .connecting ∧ engine.state ≠ .connected)
    (.notConnected "disconnect requires an active connection")
  fromExcept (checkDisconnectSessionExpiry engine properties)
  let wire ← fromExcept (engine.codec.encodeDisconnect reasonCode properties)
  checkOutboundSize (.contiguous wire)
  modify fun engine => { engine with state := .disconnecting }
  return wire

def notifyTransportClosed : EngineM PUnit := do
  let engine ← get
  enterDisconnected
  modifyOutbound fun outbound => { outbound with topicAliases := .empty }
  Inbound.transportClosed
  releasePendingSubscriptionRequests
  onlyIf (engine.state ≠ .disconnected) (emit (.disconnected 0 none false))

def onPingresp (raw : RawPacket) : EngineM PUnit := do
  raiseIf (raw.remaining ≠ []) (.malformedPacket "PINGRESP remaining length must be 0")
  emit .pingresp

def onDisconnect (raw : RawPacket) : EngineM PUnit := do
  let engine ← get
  let (reasonCode, properties) ← fromExcept (engine.codec.decodeDisconnect raw.remaining)
  enterDisconnected
  releasePendingSubscriptionRequests
  emit (.disconnected reasonCode properties true)
  raiseIf (engine.codec.isMqtt5 ∧ (properties.bind (·.get .sessionExpiryInterval)).isSome)
    (.protocol "Server must not send Session Expiry Interval in DISCONNECT [MQTT-3.14.2-2]")

/-! CONNACK -/

/-- Announce a protocol error and raise it. -/
def refuse {Value : Type} (message : String) : EngineM Value := do
  protocolDisconnect 0x82
  throw (.protocol message)

/-- The MQTT 5 CONNACK property obligations, before acceptance. -/
def validateConnackV5 (reasonCode : Nat) (properties : Option Properties) : EngineM PUnit := do
  let engine ← get
  let method := textProperty properties .authenticationMethod
  onlyIf (method.isSome ∧ method ≠ engine.authMethod)
    (refuse "CONNACK authentication_method does not match CONNECT")
  onlyIf (reasonCode = 0 ∧ engine.authMethod.isSome ∧ method = none)
    (refuse "Successful CONNACK must repeat CONNECT authentication_method [MQTT-4.12.0-5]")
  onlyIf ((properties.bind (·.get .authenticationData)).isSome ∧ engine.authMethod = none)
    (refuse "CONNACK authentication_data requires authentication_method")
  onlyIf (engine.sentRequestResponseInformation = 0 ∧
      (properties.bind (·.get .responseInformation)).isSome)
    (refuse "CONNACK response_information was not requested [MQTT-3.1.2-28]")

/-- Reject a successful CONNACK whose session claims contradict this client. -/
def validateAcceptedConnack (sessionPresent : Bool) (properties : Option Properties) :
    EngineM PUnit := do
  let engine ← get
  onlyIf (engine.codec.isMqtt5 ∧ engine.sentClientId = [] ∧
      (textProperty properties .assignedClientIdentifier).getD [] = [])
    (refuse ("Successful CONNACK for an empty ClientID requires a non-empty " ++
      "Assigned Client Identifier [MQTT-3.2.2-16]"))
  onlyIf (sessionPresent ∧ engine.sentCleanStart)
    (refuse "CONNACK reports Session Present after Clean Start [MQTT-3.2.2-1/-2]")

/-- Next CONNECT should use Clean Start 0 when the session is durable. -/
def updateSessionResumePreference : EngineM PUnit :=
  modify fun engine =>
    { engine with
      preferSessionResume :=
        if engine.config.protocol = .mqttv5 then
          engine.negotiated.sessionExpiryInterval.getD 0 ≠ 0
        else !engine.config.cleanStart }

/-- Reconcile both directions with the session the broker reported. -/
def reconcileSession (sessionPresent : Bool) (properties : Option Properties) : EngineM PUnit := do
  modify fun engine =>
    { engine with
      reauthInProgress := false, authResponseDue := none, state := .connected, sessionPresent }
  updateSessionResumePreference
  let engine ← get
  if sessionPresent then Outbound.replaySession
  else do
    Outbound.purgeAfterCleanSession (engine.pendingSubRequests.isEmpty = false)
    Inbound.discardSession
    Outbound.resetFlowForConnection
    Outbound.failQueuedViolatingNegotiation
  emit (.connack sessionPresent 0 properties)
  onlyIf sessionPresent Inbound.replaySession
  Outbound.drain

/-- Adopt the negotiated limits; a peer limit below the smallest acknowledgement
ends the connection. -/
def negotiate (properties : Option Properties) : EngineM PUnit := do
  modify fun engine =>
    let negotiated := .fromConnack properties engine.sentSessionExpiryInterval
    { engine with
      negotiated
      sessionClientId :=
        if engine.sentClientId ≠ [] then some engine.sentClientId
        else negotiated.assignedClientIdentifier.or engine.sessionClientId }
  let engine ← get
  match engine.negotiated.maximumPacketSize with
  | some limit =>
    onlyIf (engine.codec.isMqtt5 ∧ limit < 4) do
      enterDisconnected
      throw (.mandatoryResponseTooLarge (s!"Broker maximum_packet_size {limit} is below the " ++
        "4-byte minimum required for mandatory QoS acknowledgements"))
  | none => pure ⟨⟩

def acceptConnack (sessionPresent : Bool) (properties : Option Properties) : EngineM PUnit := do
  validateAcceptedConnack sessionPresent properties
  negotiate properties
  onlyIf sessionPresent (tryCatch Outbound.checkSessionReplayable fun failure =>
    match failure with
    | .sessionReplay _ => do
      enterDisconnected
      throw failure
    | _ => throw failure)
  reconcileSession sessionPresent properties

def onConnack (raw : RawPacket) : EngineM PUnit := do
  let engine ← get
  raiseIf (engine.state ≠ .connecting) (.protocol "Unexpected CONNACK (already negotiated)")
  let (sessionPresent, reasonCode, properties) ←
    fromExcept (engine.codec.decodeConnack raw.remaining)
  onlyIf engine.codec.isMqtt5 (validateConnackV5 reasonCode properties)
  if reasonCode ≠ 0 then do
    enterDisconnected
    emit (.connack sessionPresent reasonCode properties)
    emit (.disconnected reasonCode properties true)
  else acceptConnack sessionPresent properties

/-! AUTH -/

/-- The AUTH rules of the phase the connection is in. -/
def advanceAuth (reasonCode : Nat) : EngineM PUnit := do
  let engine ← get
  if engine.state = .connecting then
    onlyIf (reasonCode ≠ 0x18) (refuse ("Server AUTH during initial authentication must use " ++
      "Continue authentication (0x18) [MQTT-4.12.0-2]"))
  else if engine.state = .connected then
    if engine.reauthInProgress = false then
      refuse "Server AUTH while connected requires Client-initiated re-authentication"
    else if reasonCode = 0x00 then
      modify fun engine => { engine with reauthInProgress := false, authResponseDue := none }
    else onlyIf (reasonCode ≠ 0x18) (refuse "Invalid Server AUTH reason during re-authentication")
  else pure ⟨⟩

/-- Hand the AUTH to the runtime, numbering a challenge. -/
def surfaceAuth (reasonCode : Nat) (properties : Option Properties) : EngineM PUnit := do
  let engine ← get
  if engine.config.acceptAuth = false then protocolDisconnect 0x82
  else if reasonCode = 0x18 then do
    let challenge := engine.authChallenges + 1
    modify fun engine =>
      { engine with authChallenges := challenge, authResponseDue := some challenge }
    emit (.auth reasonCode properties (some challenge))
  else emit (.auth reasonCode properties none)

def onAuth (raw : RawPacket) : EngineM PUnit := do
  let engine ← get
  if engine.codec.isMqtt5 = false then refuse "AUTH is not valid in MQTT 3.1.1"
  else do
    let (reasonCode, properties) ← fromExcept (engine.codec.decodeAuth raw.remaining)
    validateInboundProblemInformation .auth properties
    let method := textProperty properties .authenticationMethod
    onlyIf (engine.authMethod = none)
      (refuse "Broker AUTH is invalid without authentication_method in CONNECT")
    onlyIf (method ≠ engine.authMethod) (refuse
      (if method = none then "AUTH must repeat CONNECT authentication_method [MQTT-4.12.0-5]"
       else "AUTH authentication_method does not match CONNECT"))
    onlyIf (reasonCode = 0x19) (refuse "Broker must not send Re-authenticate AUTH (0x19)")
    advanceAuth reasonCode
    surfaceAuth reasonCode properties

def clientAuthReasonCodes : List Nat := [0x18, 0x19]

/-- Queue a client AUTH: continue or re-authenticate. -/
def queueAuth (reasonCode : Nat) (properties : Option Properties) : EngineM PUnit := do
  let engine ← get
  raiseIf (engine.config.protocol ≠ .mqttv5) (.protocol "AUTH requires MQTT 5")
  raiseIf (engine.state ≠ .connecting ∧ engine.state ≠ .connected)
    (.notConnected "AUTH requires an active or pending connection")
  match engine.authMethod with
  | none => throw (.protocol "AUTH requires authentication_method in CONNECT")
  | some expected => do
    raiseIf (reasonCode ∉ clientAuthReasonCodes) (.protocol
      (s!"AUTH reason_code 0x{(hex02 reasonCode).toUpper} is not one a Client may send; " ++
        "use 0x18 (Continue authentication) or 0x19 (Re-authenticate)"))
    raiseIf (reasonCode = 0x19 ∧ engine.state ≠ .connected)
      (.protocol "Re-authenticate AUTH requires a connected session")
    raiseIf (reasonCode = 0x19 ∧ engine.reauthInProgress)
      (.protocol "Re-authentication is already in progress")
    raiseIf (reasonCode ≠ 0x19 ∧ engine.state = .connected ∧ engine.reauthInProgress = false)
      (.protocol "Continue authentication AUTH requires an active re-authentication")
    let given := (properties.getD .empty).values
    raiseIf ((properties.bind (·.get .authenticationMethod)).any
        fun value => value ≠ .scalar (.text expected))
      (.protocol "AUTH authentication_method does not match CONNECT")
    let table : Properties := ⟨given.insert .authenticationMethod (.scalar (.text expected))⟩
    let wire ← fromExcept (encodeAuthV5 reasonCode (some table))
    checkOutboundSize (.contiguous wire)
    send (.contiguous wire)
    modify fun engine =>
      { engine with
        authResponseDue := none
        reauthInProgress := engine.reauthInProgress || decide (reasonCode = 0x19) }

/-- Answer a server challenge if the exchange still waits on it. -/
def respondAuth (challenge : Option Nat) (reasonCode : Nat) (properties : Option Properties) :
    EngineM Bool := do
  let engine ← get
  if challenge = none ∨ challenge ≠ engine.authResponseDue then return false
  else if engine.state ≠ .connecting ∧ engine.state ≠ .connected then return false
  else do
    queueAuth reasonCode properties
    return true

/-! Dispatch -/

/-- What a state accepts and what handles it. -/
def handlerFor (state : ConnectionState) (packetType : PacketType) :
    Option (RawPacket → EngineM PUnit) :=
  match state, packetType with
  | .connecting, .connack => some onConnack
  | .connecting, .auth => some onAuth
  | .connected, .publish => some Inbound.handlePublish
  | .connected, .puback => some Outbound.onPuback
  | .connected, .pubrec => some Outbound.onPubrec
  | .connected, .pubrel => some Inbound.onPubrel
  | .connected, .pubcomp => some Outbound.onPubcomp
  | .connected, .suback => some onSuback
  | .connected, .unsuback => some onUnsuback
  | .connected, .pingresp => some onPingresp
  | .connected, .disconnect => some onDisconnect
  | .connected, .auth => some onAuth
  | _, _ => none

private def connectionName : ConnectionState → String
  | .new => "NEW"
  | .connecting => "CONNECTING"
  | .connected => "CONNECTED"
  | .disconnecting => "DISCONNECTING"
  | .disconnected => "DISCONNECTED"
  | .reconnecting => "RECONNECTING"

def dispatch (raw : RawPacket) : EngineM PUnit := do
  fromExcept (validateRawPacket raw)
  let engine ← get
  match handlerFor engine.state raw.packetType with
  | none => throw (.protocol
      s!"Unexpected {raw.packetType.name} while state={connectionName engine.state}")
  | some handler => handler raw

/-- The peer errors that become a PROTOCOL_ERROR effect; every other failure is local. -/
def isPeerError : Failure → Bool
  | .mandatoryResponseTooLarge _ => false
  | .malformedPacket _ => true
  | failure => failure.isProtocolError

/-- Apply one packet; the answer is the peer error turned into an effect. -/
def handleRaw (raw : RawPacket) : EngineM (Option Failure) := do
  let engine ← get
  if engine.state = .disconnecting ∨ engine.state = .disconnected then return none
  else
    match ← catching isPeerError (dispatch raw) with
    | none => return none
    | some failure => do
      emit (.protocolError failure)
      return some failure

/-! Facade -/

def sealPublications (mids : List Nat) : EngineM PUnit := Outbound.sealPublications mids

def continueInboundReplay : EngineM PUnit := Inbound.drainReplay

def markInboundDelivered (mid : Nat) (token : Option Token) : EngineM PUnit :=
  Inbound.markDelivered mid token

def ack (mid : Nat) (message : Option Message) : EngineM PUnit := do
  let engine ← get
  raiseIf (engine.state ≠ .connected) (.notConnected "ack requires an active connection")
  Inbound.ack mid message

end Mqttium.Protocol
