import Mqttium.Protocol.State

/-! Client to broker publication: admission, acknowledgements, launching,
retransmission, sealing, hydration and replay. -/

namespace Mqttium.Protocol.Outbound

open Codec Library Packets Persistence

/-- Keep only a segmented frame, whose payload is already shared. -/
def retainPublishItem : WriteItem → Option WriteItem
  | .contiguous _ => none
  | .segmented header payload => some (.segmented header payload)

def withDup (first : UInt8) : UInt8 :=
  if first.toNat / 8 % 2 = 1 then first else first + 8

def markFrame : Bytes → Bytes
  | first :: rest => withDup first :: rest
  | [] => []

/-- Set PUBLISH DUP by replacing only the first header byte. -/
def markPublishDup : WriteItem → WriteItem
  | .contiguous frame => .contiguous (markFrame frame)
  | .segmented header payload => .segmented (markFrame header) payload

/-! Effects and identifiers -/

def fail (mid : Nat) (reason : Failure) : EngineM PUnit := emit (.publishFailed mid reason)

def report (mid : Nat) (failure : Option Failure) : EngineM PUnit :=
  match failure with
  | none => emit (.publishComplete (some mid))
  | some reason => fail mid reason

def allocateId (choice : Nat) : EngineM Nat := do
  let engine ← get
  let (answer, pool) := engine.outbound.packetIds.allocate choice
  modifyOutbound fun outbound => { outbound with packetIds := pool }
  fromExcept answer

def releaseId (mid : Nat) : EngineM PUnit :=
  modifyOutbound fun outbound => { outbound with packetIds := outbound.packetIds.release mid }

/-- Take a send-quota slot; false when the window is full. -/
def tryAcquire (mid : Nat) : EngineM Bool := do
  let engine ← get
  match ← fromExcept (engine.outbound.flow.tryAcquire mid) with
  | some flow =>
    modifyOutbound fun outbound => { outbound with flow }
    return true
  | none => return false

def releaseSlot (mid : Nat) : EngineM PUnit :=
  modifyOutbound fun outbound => { outbound with flow := outbound.flow.release mid }

/-- The alias a property table carries; a value that is no integer does not convert. -/
def topicAlias (properties : Option Properties) : Except Failure (Option Int) :=
  match properties.bind (·.get .topicAlias) with
  | none => .ok none
  | some (.scalar (.int number)) => .ok (some number)
  | some _ => .error (.value "invalid literal for int() with base 10")

/-- Record an explicit mapping after its PUBLISH has writer admission. -/
def commitTopicAlias (topic : Text) (properties : Option Properties) : EngineM PUnit := do
  match ← fromExcept (topicAlias properties) with
  | some number =>
    onlyIf (topic ≠ []) (modifyOutbound fun outbound =>
      { outbound with topicAliases := outbound.topicAliases.insert number.toNat topic })
  | none => return ⟨⟩

/-! Admission budget -/

def reserve (logicalSize : Nat) : EngineM PUnit := do
  let engine ← get
  let outbound := engine.outbound
  raiseIf (engine.config.maxUnacknowledgedMessages.any (· ≤ outbound.pendingMessages))
    (.flowControl "Pending outbound message limit reached")
  -- One oversized publication is admitted into an empty budget.
  raiseIf (engine.config.maxUnacknowledgedBytes.any (· < outbound.pendingBytes + logicalSize) ∧
      outbound.pendingBytes ≠ 0)
    (.flowControl "Pending outbound byte limit reached")
  modifyOutbound fun outbound =>
    { outbound with
      pendingMessages := outbound.pendingMessages + 1
      pendingBytes := outbound.pendingBytes + logicalSize }

def releaseReservation (logicalSize : Nat) : EngineM PUnit := do
  let engine ← get
  raiseIf (engine.outbound.pendingMessages = 0) .assertion
  raiseIf (engine.outbound.pendingBytes < logicalSize) .assertion
  modifyOutbound fun outbound =>
    { outbound with
      pendingMessages := outbound.pendingMessages - 1
      pendingBytes := outbound.pendingBytes - logicalSize }

/-! Sizing -/

/-- `len(topic.encode("utf-8"))`, which a lone surrogate makes raise. -/
def topicSize (topic : Text) : Except Failure Nat :=
  if isAscii topic then .ok topic.length
  else match topic.encodeUtf8 with
    | some data => .ok data.length
    | none => .error .unicodeEncode

/-- Wire property bytes, logical property bytes and the encoded table. -/
def propertyParts (isV5 : Bool) (properties : Option Properties) :
    Except Failure (Nat × Nat × Option Bytes) :=
  if isV5 then
    if hasProperties properties then do
      let encoded ← encodeProperties properties .publish
      return (encoded.length, encoded.length, some encoded)
    else .ok (1, 0, some [0])
  else .ok (0, 0, none)

/-- Topic bytes, wire and logical property bytes and the encoded table; `known` is the
topic's size where validation has already measured it. -/
def sizeParts (isV5 : Bool) (topic : Text) (properties : Option Properties)
    (known : Option Nat := none) : Except Failure (Nat × Nat × Nat × Option Bytes) := do
  let topicBytes ← known.elim (topicSize topic) .ok
  return (topicBytes, ← propertyParts isV5 properties)

def publishWireSizeFromParts (topicBytes wirePropertyBytes payloadSize : Nat) (qos : QoS) :
    Except Failure Nat := do
  let remaining :=
    2 + topicBytes + (if qos = .atMostOnce then 0 else 2) + wirePropertyBytes + payloadSize
  if maxVbi < remaining then
    .error (.packetTooLarge
      s!"PUBLISH remaining length {remaining} exceeds MQTT wire maximum {maxVbi}")
  else return 1 + (← vbiLen remaining) + remaining

/-- The size of the PUBLISH without encoding it. -/
def publishWireSize (isV5 : Bool) (topic : Text) (payloadSize : Nat) (qos : QoS)
    (properties : Option Properties) : Except Failure Nat := do
  let (topicBytes, wirePropertyBytes, _, _) ← sizeParts isV5 topic properties
  publishWireSizeFromParts topicBytes wirePropertyBytes payloadSize qos

/-- The encoded size against the negotiated maximum, before a full encode. -/
def checkPublishWireSize (negotiated : NegotiatedSettings)
    (topicBytes wirePropertyBytes payloadSize : Nat) (qos : QoS) : Except Failure Unit :=
  match negotiated.maximumPacketSize with
  | none => .ok ()
  | some limit => do
    let size ← publishWireSizeFromParts topicBytes wirePropertyBytes payloadSize qos
    if limit < size then
      .error (.packetTooLarge
        s!"Encoded packet size {size} exceeds broker maximum_packet_size {limit}")
    else .ok ()

def checkPublishSize (isV5 : Bool) (negotiated : NegotiatedSettings) (topic : Text)
    (payloadSize : Nat) (qos : QoS) (properties : Option Properties) : Except Failure Unit := do
  let topicBytes ← topicSize topic
  let (wirePropertyBytes, _, _) ← propertyParts isV5 properties
  checkPublishWireSize negotiated topicBytes wirePropertyBytes payloadSize qos

/-! Preparing a publication -/

private def exceedsAliasMaximum (number : Int) (maximum : Nat) : Failure :=
  .protocol s!"topic_alias {number} exceeds broker topic_alias_maximum {maximum}"

/-- Resolve a topic alias to the canonical topic; an empty topic reads the mapping. -/
def resolveOutboundAlias (engine : Engine) (topic : Text) (number : Int) : Except Failure Text :=
  if number = 0 then .error (.protocol "topic_alias 0 is invalid")
  else if topic ≠ [] then .ok topic
  else if engine.state ≠ .connected then
    .error (.protocol s!"Unknown outbound topic alias {number} on this connection")
  else if (engine.negotiated.topicAliasMaximum : Int) < number then
    .error (exceedsAliasMaximum number engine.negotiated.topicAliasMaximum)
  else match engine.outbound.topicAliases.get? number.toNat with
    | some canonical =>
      if 0 < number ∧ canonical ≠ [] then .ok canonical
      else .error (.protocol s!"Unknown outbound topic alias {number} on this connection")
    | none => .error (.protocol s!"Unknown outbound topic alias {number} on this connection")

/-- The direction and version rules on an outbound property table. -/
def checkOutboundProperties (isV5 : Bool) (properties : Option Properties) :
    Except Failure Unit :=
  if ¬ isV5 ∧ hasProperties properties then .error (.protocol "PUBLISH properties require MQTT 5")
  else if isV5 ∧ (properties.bind (·.get .subscriptionIdentifier)).isSome then
    .error (.protocol
      "subscription_identifier is not allowed on an outbound PUBLISH [MQTT-3.3.4-6]")
  else .ok ()

/-- A publication the caller asks for. -/
structure PublishCall where
  topic : Text
  payload : Bytes := []
  qos : QoS := .atMostOnce
  retain : Bool := false
  properties : Option Properties := none
  deriving DecidableEq, Repr

structure PreparedPublish where
  topicBytes : Option Bytes
  canonicalTopic : Text
  propertyBytes : Option Bytes
  logicalSize : Nat

/-- The alias of a request and the canonical topic it stands for. -/
def aliasAndTopic (engine : Engine) (call : PublishCall) : Except Failure (Option Int × Text) := do
  match ← (if engine.isV5 then topicAlias call.properties else .ok none) with
  | some number => return (some number, ← resolveOutboundAlias engine call.topic number)
  | none => return (none, call.topic)

def checkAliasMaximum (engine : Engine) (number : Option Int) : Except Failure Unit :=
  match number with
  | some number =>
    if (engine.negotiated.topicAliasMaximum : Int) < number then
      .error (exceedsAliasMaximum number engine.negotiated.topicAliasMaximum)
    else .ok ()
  | none => .ok ()

/-- What the broker of the current connection admits. -/
def checkCapabilities (engine : Engine) (call : PublishCall) (number : Option Int) :
    Except Failure Unit :=
  if engine.state = .connected then
    if engine.negotiated.maximumQos < call.qos.level then
      .error (.protocol
        s!"QoS {call.qos.level} exceeds broker maximum_qos {engine.negotiated.maximumQos}")
    else if call.retain ∧ ¬ engine.negotiated.retainAvailable then
      .error (.protocol "Broker does not support retain")
    else checkAliasMaximum engine number
  else .ok ()

def checkPayloadFormat (engine : Engine) (call : PublishCall) : Except Failure Unit :=
  if engine.isV5 then validatePayloadFormat call.payload call.properties else .ok ()

/-- The size of the topic; also its encoding, when the publication may leave at once. -/
def measureTopic (engine : Engine) (topic : Text) (allowEmpty : Bool) :
    Except Failure (Option Bytes × Nat) :=
  if engine.state = .connected ∧ 0 < engine.outbound.flow.available then do
    let encoded ← encodeValidatedPublishTopic topic allowEmpty
    return (some encoded, encoded.length)
  else do
    let size ← validatePublishTopic topic allowEmpty
    return (none, size)

def logicalTopicSize (topic canonicalTopic : Text) (size : Nat) : Except Failure Nat :=
  if canonicalTopic ≠ topic then topicSize canonicalTopic else .ok size

/-- Validate and size one QoS 1/2 PUBLISH without acquiring outbound state. -/
def preparePublishRequest (engine : Engine) (call : PublishCall) :
    Except Failure PreparedPublish := do
  checkOutboundProperties engine.isV5 call.properties
  checkPayloadFormat engine call
  let (number, canonicalTopic) ← aliasAndTopic engine call
  let (topicBytes, size) ←
    measureTopic engine call.topic (number.isSome && call.topic.isEmpty)
  checkCapabilities engine call number
  let (wirePropertyBytes, logicalPropertyBytes, propertyBytes) ←
    propertyParts engine.isV5 call.properties
  checkPublishWireSize engine.negotiated size wirePropertyBytes call.payload.length call.qos
  let topicLength ← logicalTopicSize call.topic canonicalTopic size
  return { topicBytes, canonicalTopic, propertyBytes,
           logicalSize := call.payload.length + topicLength + logicalPropertyBytes }

/-- Validate and encode one QoS 0 PUBLISH. -/
def prepareQos0 (call : PublishCall) : EngineM WriteItem := do
  let engine ← get
  fromExcept (checkOutboundProperties engine.isV5 call.properties)
  let (number, _) ← fromExcept (aliasAndTopic engine call)
  let allowEmpty := number.isSome && call.topic.isEmpty
  let topicBytes ← fromExcept (encodeValidatedPublishTopic call.topic allowEmpty)
  raiseIf (engine.state ≠ .connected) (.notConnected "Cannot publish QoS 0 while disconnected")
  raiseIf (call.retain ∧ ¬ engine.negotiated.retainAvailable)
    (.protocol "Broker does not support retain")
  fromExcept (checkAliasMaximum engine number)
  let item ← fromExcept (engine.codec.encodePublishItem {
    topic := call.topic, payload := call.payload, qos := .atMostOnce, retain := call.retain,
    dup := false, mid := none, properties := call.properties, topicBytes := some topicBytes })
  checkOutboundSize item
  return item

/-- Send one QoS 0 PUBLISH; its completion names no identifier. -/
def publishQos0 (call : PublishCall) : EngineM PUnit := do
  let item ← prepareQos0 call
  send item
  commitTopicAlias call.topic call.properties
  emit (.publishComplete none)

/-! Launching -/

/-- What a first launch already knows about the frame. -/
structure LaunchHints where
  propertyBytes : Option Bytes := none
  topicBytes : Option Bytes := none
  wireTopic : Option Text := none

def targetState (qos : QoS) : OutboundQoSState :=
  if qos = .atLeastOnce then .waitPuback else .waitPubrec

/-- The frame to launch: the one cached on the record, or a new encoding. -/
def launchFrame (engine : Engine) (message : OutboundMessage) (hints : LaunchHints) :
    Except Failure WriteItem :=
  match message.encodedPublish with
  | some item => .ok item
  | none => engine.codec.encodePublishItem {
      topic := hints.wireTopic.getD message.topic, payload := message.payload, qos := message.qos,
      retain := message.retain, dup := message.dup, mid := some message.mid,
      properties := message.properties, topicBytes := hints.topicBytes,
      propertyBytes := hints.propertyBytes }

/-- The record after its launch. An alias-only wire form is valid on this
connection only, so it is not retained. -/
def launchedRecord (message : OutboundMessage) (hints : LaunchHints) (wire : WriteItem) :
    OutboundMessage :=
  { message with
    state := targetState message.qos
    encodedPublish :=
      if hints.wireTopic.getD message.topic = message.topic then retainPublishItem wire else none }

def storeLaunched (launched : OutboundMessage) (persisted : Bool) : EngineM PUnit := do
  if persisted then
    match ← storeCall .transitionOut fun store =>
      store.transitionOut launched.mid .queued launched.state with
    | none => throw (.runtime
        s!"Outbound mid={launched.mid} changed while launching queued publish")
    | some _ => modify fun engine => { engine with store := engine.store.assignOut launched }
  else
    raiseIf (launched.logicalSize = 0) (.value "logical_size must be positive")
    storeCall .putOut fun store => (PUnit.unit, store.putOut launched)

def launch (message : OutboundMessage) (persisted : Bool) (hints : LaunchHints) :
    EngineM PUnit := do
  let engine ← get
  let wire ← fromExcept (launchFrame engine message hints)
  checkOutboundSize wire
  storeLaunched (launchedRecord message hints wire) persisted
  send wire
  commitTopicAlias (hints.wireTopic.getD message.topic) message.properties

/-- First launch of an admitted publication; false when the window is full. -/
def tryLaunch (message : OutboundMessage) (hints : LaunchHints) : EngineM Bool := do
  if ← tryAcquire message.mid then
    tryCatch (do launch message false hints; return true) fun failure => do
      releaseSlot message.mid
      throw failure
  else return false

/-! Store records -/

def storedLogicalSize (size : Nat) : Except Failure Nat :=
  if size = 0 then .error (.value "Persisted outbound logical_size must be positive") else .ok size

/-- Discard durable ownership; the deletion comes before the reservation is released. -/
def discardRecord (mid : Nat) (logicalSize : Nat) : EngineM PUnit := do
  storeCall .deleteOut fun store => (PUnit.unit, store.deleteOut mid)
  releaseReservation (← fromExcept (storedLogicalSize logicalSize))

/-- Remove the row of a publication whose admission failed. A row that cannot be
deleted is sealed, so that this client never sends it. -/
def deleteFailedAdmission (mid : Nat) : EngineM Bool := do
  match ← catching (fun _ => true)
      (storeCall .deleteOut fun store => (PUnit.unit, store.deleteOut mid)) with
  | none => return true
  | some _ =>
    let stored ← tryCatch (do return (← storeRead .outMeta (·.outMeta mid)).isSome) fun _ =>
      return true
    if stored then
      modifyOutbound fun outbound => { outbound with sealed := outbound.sealed.insert mid true }
      return false
    else return true

/-- Unwind what one failed publication acquired. -/
def rollback (messagesStart bytesStart : Nat) (mid : Option Nat) : EngineM PUnit := do
  match mid with
  | some mid => do
    releaseSlot mid
    let freed ← deleteFailedAdmission mid
    onlyIf freed (releaseId mid)
  | none => pure ⟨⟩
  modifyOutbound fun outbound =>
    { outbound with pendingMessages := messagesStart, pendingBytes := bytesStart }

/-! Publishing -/

def newRecord (call : PublishCall) (prepared : PreparedPublish) (mid : Nat) : OutboundMessage where
  mid := mid
  topic := prepared.canonicalTopic
  payload := call.payload
  qos := call.qos
  retain := call.retain
  state := .queued
  properties := call.properties
  logicalSize := prepared.logicalSize

/-- Store a publication that cannot leave yet and line it up. -/
def storeQueued (message : OutboundMessage) : EngineM PUnit := do
  raiseIf (message.logicalSize = 0) (.value "logical_size must be positive")
  storeCall .putOut fun store => (PUnit.unit, store.putOut message)
  modifyOutbound fun outbound => { outbound with queued := outbound.queued ++ [.message message] }

/-- Admit a prepared publication under a fresh identifier: launch it or queue it. -/
def admitPrepared (call : PublishCall) (prepared : PreparedPublish) (mid : Nat) : EngineM PUnit := do
  let message := newRecord call prepared mid
  let engine ← get
  let launched ←
    if engine.state = .connected then
      tryLaunch message { propertyBytes := prepared.propertyBytes,
                          topicBytes := prepared.topicBytes, wireTopic := some call.topic }
    else pure false
  onlyIf (launched = false) (storeQueued message)

/-- Queue one publication. `choice` is the identifier the pool's set picks when
several are free. The answer is the packet identifier, none for QoS 0. -/
def queuePublish (choice : Nat) (call : PublishCall) : EngineM (Option Nat) := do
  let engine ← get
  raiseIf (engine.state = .disconnecting)
    (.notConnected "publish is not allowed while disconnecting")
  if call.qos = .atMostOnce then
    publishQos0 call
    return none
  else
    let prepared ← fromExcept (preparePublishRequest engine call)
    let messagesStart := engine.outbound.pendingMessages
    let bytesStart := engine.outbound.pendingBytes
    reserve prepared.logicalSize
    let mid ← tryCatch (allocateId choice) fun failure => do
      rollback messagesStart bytesStart none
      throw failure
    tryCatch (do admitPrepared call prepared mid; return some mid) fun failure => do
      rollback messagesStart bytesStart (some mid)
      throw failure

/-! Retransmission -/

private def stateName : OutboundQoSState → String
  | .queued => "QUEUED"
  | .waitPuback => "WAIT_PUBACK"
  | .waitPubrec => "WAIT_PUBREC"
  | .waitPubcomp => "WAIT_PUBCOMP"
  | .done => "DONE"

private def stateRepr : OutboundQoSState → String
  | .queued => "<OutboundQoSState.QUEUED: 1>"
  | .waitPuback => "<OutboundQoSState.WAIT_PUBACK: 2>"
  | .waitPubrec => "<OutboundQoSState.WAIT_PUBREC: 3>"
  | .waitPubcomp => "<OutboundQoSState.WAIT_PUBCOMP: 4>"
  | .done => "<OutboundQoSState.DONE: 5>"

/-- Assigning to a record the store returned. -/
def assign (message : OutboundMessage) : EngineM PUnit :=
  modify fun engine => { engine with store := engine.store.assignOut message }

/-- The record of a resend: DUP is set and the connection-scoped alias dropped, which
also makes a cached frame useless. -/
def markedRecord (message : OutboundMessage) : OutboundMessage :=
  let properties := propertiesWithoutTopicAlias message.properties
  { message with
    dup := true
    properties
    encodedPublish := if properties ≠ message.properties then none else message.encodedPublish }

/-- The frame of a resend: the cached one with DUP patched in, or a new encoding. -/
def resendFrame (engine : Engine) (marked : OutboundMessage) : Except Failure WriteItem :=
  match marked.encodedPublish with
  | some retained => .ok (markPublishDup retained)
  | none => engine.codec.encodePublishItem {
      topic := marked.topic, payload := marked.payload, qos := marked.qos,
      retain := marked.retain, dup := true, mid := some marked.mid,
      properties := marked.properties }

/-- Send a PUBLISH again with DUP set and without the connection-scoped alias. -/
def resendPublish (message : OutboundMessage) : EngineM PUnit := do
  let engine ← get
  let marked := markedRecord message
  assign marked
  let wire ← fromExcept (resendFrame engine marked)
  checkOutboundSize wire
  assign { marked with encodedPublish := retainPublishItem wire }
  send wire
  commitTopicAlias marked.topic marked.properties

/-- Send a PUBREL again. -/
def resendPubrel (message : OutboundMessage) : EngineM PUnit := do
  match message.encodedPubrel with
  | some frame => send (.contiguous frame)
  | none => do
    let frame := encodePubrelSuccess message.mid
    assign { message with encodedPubrel := some frame }
    checkOutboundSize (.contiguous frame)
    send (.contiguous frame)

def retransmit (message : OutboundMessage) : EngineM PUnit :=
  match message.state with
  | .waitPuback => resendPublish message
  | .waitPubrec => resendPublish message
  | .waitPubcomp => resendPubrel message
  | state => throw (.protocol s!"Cannot retransmit outbound state {stateRepr state}")

/-- The full record of a queue entry. -/
def materialize (entry : QueueEntry) : EngineM OutboundMessage := do
  match entry with
  | .message stored => return stored
  | .summary stored =>
    match ← storeRead .getOut (·.getOut stored.mid) with
    | some message => return message
    | none => throw (.runtime s!"Missing durable outbound record mid={stored.mid}")

/-- Launch or resend the publication of a queue entry that has its slot. -/
def launchEntry (entry : QueueEntry) : EngineM PUnit := do
  let message ← materialize entry
  if message.state = .queued then
    if message.dup then
      -- Requeued after its session was discarded: it leaves as a first attempt.
      let fresh := { message with dup := false, encodedPublish := none }
      assign fresh
      launch fresh true {}
    else launch message true {}
  else retransmit message

def popQueue : EngineM PUnit :=
  modifyOutbound fun outbound => { outbound with queued := outbound.queued.tail }

def discardParked (mid : Nat) : EngineM PUnit :=
  modifyOutbound fun outbound => { outbound with parked := outbound.parked.erase mid }

/-- The loop of `drain`: each round removes the head of the queue, so `fuel` of the
queue's length suffices. -/
def drainFor : Nat → EngineM PUnit
  | 0 => pure ⟨⟩
  | fuel + 1 => do
    let engine ← get
    match engine.outbound.queued with
    | [] => pure ⟨⟩
    | entry :: _ => do
      let mid := entry.mid
      if ← tryAcquire mid then
        match ← catching (fun _ => true) (launchEntry entry) with
        | some failure => do
          releaseSlot mid
          discardRecord mid entry.logicalSize
          popQueue
          discardParked mid
          releaseId mid
          fail mid failure
        | none => do
          popQueue
          discardParked mid
        drainFor fuel
      else pure ⟨⟩

def drain : EngineM PUnit := do
  let engine ← get
  drainFor engine.outbound.queued.length

/-! Broker acknowledgements -/

/-- Drop the replay-parked queue entry of `mid`, if it has one. -/
def unpark (mid : Nat) : EngineM PUnit := do
  let engine ← get
  onlyIf (mid ∈ engine.outbound.parked) do
    discardParked mid
    if engine.outbound.queued.any fun entry => entry.mid == mid then
      modifyOutbound fun outbound =>
        { outbound with queued := outbound.queued.eraseP fun entry => entry.mid == mid }
    else throw .assertion

/-- Settle one exchange on its terminal acknowledgement. An acknowledgement that
matches no row in `expected` changes nothing. -/
def finish (mid : Nat) (expected : OutboundQoSState) (failure : Option Failure) :
    EngineM PUnit := do
  let completed ← tryCatch (storeCall .completeOut fun store => store.completeOut mid expected)
    fun raised => do
      report mid failure
      throw raised
  match completed with
  | none => pure ⟨⟩
  | some settled => do
    let engine ← get
    if engine.outbound.sealed.contains mid then
      modifyOutbound fun outbound => { outbound with sealed := outbound.sealed.erase mid }
    else do
      releaseReservation settled.logicalSize
      unpark mid
      releaseSlot mid
    report mid failure
    releaseId mid
    drain

private def rejection (packet : PacketType) (reasonCode : Nat) (properties : Option Properties) :
    Option Failure :=
  if reasonCode < 128 then none else some (.publishRejected packet reasonCode properties)

def validateAckProperties (packet : PacketType) (properties : Option Properties) : EngineM PUnit :=
  onlyIf properties.isSome (validateInboundProblemInformation packet properties)

def onPuback (raw : RawPacket) : EngineM PUnit := do
  let engine ← get
  let (mid, reasonCode, properties) ← fromExcept (engine.codec.decodePuback raw.remaining)
  validateAckProperties .puback properties
  finish mid .waitPuback (rejection .puback reasonCode properties)

/-- Fail locally when a mandatory PUBREL cannot fit the peer limit. -/
def requirePubrelCapacity (size : Nat) : EngineM PUnit := do
  let engine ← get
  match engine.negotiated.maximumPacketSize with
  | none => return ⟨⟩
  | some limit =>
    raiseIf (limit < size) (.mandatoryResponseTooLarge
      s!"Mandatory PUBREL size {size} exceeds broker maximum_packet_size {limit}")

/-- Answer a PUBREC with no matching record: PUBREL, with 0x92 in MQTT 5. -/
def sendOrphanPubrel (mid : Nat) : EngineM PUnit := do
  let engine ← get
  let reason := if engine.codec.isMqtt5 then 0x92 else 0
  let wire ← fromExcept (engine.codec.encodePubrel mid reason none)
  requirePubrelCapacity wire.length
  send (.contiguous wire)

/-- The PUBREC of a peer whose limit admits no PUBREL. -/
def refusePubrec (mid : Nat) : EngineM PUnit := do
  match ← storeRead .outMeta (·.outMeta mid) with
  | none => sendOrphanPubrel mid
  | some record =>
    onlyIf (record.state = .waitPubrec ∨ record.state = .waitPubcomp) (requirePubrelCapacity 4)

/-- Advance an exchange on a successful PUBREC, or answer one that matches none. -/
def advanceOnPubrec (mid : Nat) : EngineM PUnit := do
  let changed ← storeCall .transitionOut fun store =>
    store.transitionOut mid .waitPubrec .waitPubcomp true
  match changed with
  | some _ => do
    -- PUBREL needs no send quota: a parked entry just leaves the queue.
    unpark mid
    send (.contiguous (encodePubrelSuccess mid))
  | none => do
    match ← storeRead .outMeta (·.outMeta mid) with
    | none => sendOrphanPubrel mid
    | some record =>
      onlyIf (record.state = .waitPubcomp) (send (.contiguous (encodePubrelSuccess mid)))

def onPubrec (raw : RawPacket) : EngineM PUnit := do
  let engine ← get
  let (mid, reasonCode, properties) ← fromExcept (engine.codec.decodePubrec raw.remaining)
  validateAckProperties .pubrec properties
  if 128 ≤ reasonCode then
    finish mid .waitPubrec (some (.publishRejected .pubrec reasonCode properties))
  else do
    let engine ← get
    if engine.negotiated.maximumPacketSize.any (· < 4) then refusePubrec mid
    else advanceOnPubrec mid

def onPubcomp (raw : RawPacket) : EngineM PUnit := do
  let engine ← get
  let (mid, reasonCode, properties) ← fromExcept (engine.codec.decodePubcomp raw.remaining)
  validateAckProperties .pubcomp properties
  finish mid .waitPubcomp (rejection .pubcomp reasonCode properties)

/-! Sealing -/

/-- Seal one publication; returns whether it was newly sealed. -/
def sealOne (mid : Nat) : EngineM Bool := do
  let engine ← get
  if engine.outbound.sealed.contains mid then return false
  else
    match ← storeRead .outMeta (·.outMeta mid) with
    | none => return false
    | some record => do
      modifyOutbound fun outbound =>
        { outbound with sealed := outbound.sealed.insert mid (decide (record.state ≠ .queued)) }
      releaseReservation record.logicalSize
      releaseSlot mid
      return true

def sealEach : List Nat → Finset Nat → EngineM (Finset Nat)
  | [], newly => return newly
  | mid :: rest, newly => do
    let fresh ← sealOne mid
    sealEach rest (if fresh then insert mid newly else newly)

/-- Never send again the publications whose receipts failed. -/
def sealPublications (mids : List Nat) : EngineM PUnit := do
  let newly ← sealEach mids ∅
  let engine ← get
  onlyIf (newly ≠ ∅ ∧ engine.outbound.queued ≠ []) (modifyOutbound fun outbound =>
    { outbound with
      queued := outbound.queued.filter fun entry => entry.mid ∉ newly
      parked := outbound.parked \ newly })

/-! Hydration, replay and negotiation -/

def foldPage {Value : Type} (body : OutboundMessageSummary → Value → EngineM Value) :
    List OutboundMessageSummary → Value → EngineM Value
  | [], value => return value
  | stored :: rest, value => do foldPage body rest (← body stored value)

def foldPages {Value : Type} (body : OutboundMessageSummary → Value → EngineM Value) :
    List (List Nat) → Value → EngineM Value
  | [], value => return value
  | mids :: rest, value => do
    let page ← storeRead .outSummaryPage (·.outSummaryPage mids)
    foldPages body rest (← foldPage body page value)

/-- Visit every stored publication, page by page. Identifiers are fixed at the
start; a row deleted since then is skipped. -/
def foldSummaries {Value : Type} (body : OutboundMessageSummary → Value → EngineM Value)
    (value : Value) : EngineM Value := do
  let engine ← get
  foldPages body engine.store.outPages value

def forEachSummary (body : OutboundMessageSummary → EngineM PUnit) : EngineM PUnit :=
  foldSummaries (fun stored _ => body stored) ⟨⟩

def hydrateMessage (stored : OutboundMessageSummary) : EngineM PUnit := do
  let engine ← get
  let pool ← fromExcept (engine.outbound.packetIds.reserve stored.mid)
  modifyOutbound fun outbound => { outbound with packetIds := pool }
  let size ← fromExcept (storedLogicalSize stored.logicalSize)
  modifyOutbound fun outbound =>
    { outbound with
      pendingMessages := outbound.pendingMessages + 1
      pendingBytes := outbound.pendingBytes + size }
  match stored.state with
  | .queued =>
    modifyOutbound fun outbound => { outbound with queued := outbound.queued ++ [.summary stored] }
  | .done => pure ⟨⟩
  | _ => discard (tryAcquire stored.mid)

/-- Recover packet identifiers and the offline queue from a durable store. -/
def hydrate : EngineM PUnit := forEachSummary hydrateMessage

def hasClientSessionState (outbound : OutboundSession) : Bool :=
  0 < outbound.flow.inflight || outbound.sealed.values.any id

/-- The fields of a queue entry that the negotiated limits constrain. -/
structure Constrained where
  mid : Nat
  topic : Text
  payloadSize : Nat
  qos : QoS
  retain : Bool
  state : OutboundQoSState
  properties : Option Properties
  encodedPublish : Option WriteItem
  encodedPubrel : Option Bytes

def constrained : QueueEntry → Constrained
  | .message stored =>
    { stored with payloadSize := stored.payload.length }
  | .summary stored => { stored with encodedPublish := none, encodedPubrel := none }

def checkSize (negotiated : NegotiatedSettings) (item : WriteItem) : Except Failure Unit :=
  match negotiated.maximumPacketSize with
  | none => .ok ()
  | some limit =>
    if limit < item.size then
      .error (.packetTooLarge
        s!"Encoded packet size {item.size} exceeds broker maximum_packet_size {limit}")
    else .ok ()

/-- A replayed PUBLISH leaves without its alias. -/
def replayedProperties (fields : Constrained) : Option Properties :=
  if fields.state = .waitPuback ∨ fields.state = .waitPubrec then
    propertiesWithoutTopicAlias fields.properties
  else fields.properties

def checkNegotiatedAlias (negotiated : NegotiatedSettings) (properties : Option Properties) :
    Except Failure Unit := do
  match ← topicAlias properties with
  | some number =>
    if number = 0 ∨ (negotiated.topicAliasMaximum : Int) < number then
      .error (exceedsAliasMaximum number negotiated.topicAliasMaximum)
    else .ok ()
  | none => .ok ()

/-- A cached frame is measured itself, unless the alias it carries goes. -/
def checkNegotiatedSize (engine : Engine) (fields : Constrained) : Except Failure Unit :=
  let properties := replayedProperties fields
  match (if properties = fields.properties then fields.encodedPublish else none) with
  | some item => checkSize engine.negotiated item
  | none =>
    checkPublishSize engine.isV5 engine.negotiated fields.topic fields.payloadSize fields.qos
      properties

def validateAgainstNegotiated (engine : Engine) (entry : QueueEntry) : Except Failure Unit :=
  let negotiated := engine.negotiated
  let fields := constrained entry
  if fields.state = .waitPubcomp then
    checkSize negotiated (.contiguous (fields.encodedPubrel.getD (encodePubrelSuccess fields.mid)))
  else if negotiated.maximumQos < fields.qos.level then
    .error (.protocol
      s!"QoS {fields.qos.level} exceeds broker maximum_qos {negotiated.maximumQos}")
  else if fields.retain ∧ ¬ negotiated.retainAvailable then
    .error (.protocol "Broker does not support retain")
  else do
    checkNegotiatedAlias negotiated (replayedProperties fields)
    checkNegotiatedSize engine fields

/-- Refuse to resume a session whose mandatory replay is now forbidden. -/
def checkSessionReplayable : EngineM PUnit := do
  let engine ← get
  let negotiated := engine.negotiated
  if 2 ≤ negotiated.maximumQos ∧ negotiated.retainAvailable ∧ negotiated.maximumPacketSize = none
  then pure ⟨⟩
  else forEachSummary fun stored => do
    let engine ← get
    onlyIf (stored.state ≠ .queued ∧ engine.outbound.sealed.contains stored.mid = false) do
      match validateAgainstNegotiated engine (.summary stored) with
      | .ok _ => pure ⟨⟩
      | .error failure =>
        if failure.isProtocolError then
          throw (.sessionReplay (s!"Resumed session must resend mid {stored.mid} " ++
            s!"({stateName stored.state}), which the new CONNACK forbids: {failure.text}"))
        else throw failure

/-- Discard one publication, free its identifier and report the failure. -/
def dropRecord (mid logicalSize : Nat) (failure : Failure) : EngineM PUnit := do
  discardRecord mid logicalSize
  releaseId mid
  fail mid failure

def enqueue (entry : QueueEntry) : EngineM PUnit :=
  modifyOutbound fun outbound => { outbound with queued := outbound.queued ++ [entry] }

def replayMessage (stored : OutboundMessageSummary) : EngineM PUnit := do
  let engine ← get
  let mid := stored.mid
  if engine.outbound.sealed.contains mid then pure ⟨⟩
  else if stored.state = .queued then
    -- Never sent: not part of the broker session, so it may fail alone.
    match validateAgainstNegotiated engine (.summary stored) with
    | .ok _ => enqueue (.summary stored)
    | .error failure =>
      if failure.isProtocolError then dropRecord mid stored.logicalSize failure
      else throw failure
  else if stored.state = .waitPubcomp then
    -- A PUBREL consumes no send quota.
    match ← catching (fun _ => true) (do retransmit (← materialize (.summary stored))) with
    | none => pure ⟨⟩
    | some failure => dropRecord mid stored.logicalSize failure
  else if ← tryAcquire mid then
    match ← catching (fun _ => true) (do retransmit (← materialize (.summary stored))) with
    | none => pure ⟨⟩
    | some failure => do
      releaseSlot mid
      dropRecord mid stored.logicalSize failure
  else do
    -- Parked until a slot frees; the exchange stays live.
    modifyOutbound fun outbound => { outbound with parked := insert mid outbound.parked }
    enqueue (.summary stored)

/-- Restart the window from the CONNACK-negotiated limit. -/
def resetFlowForConnection : EngineM PUnit :=
  modify fun engine =>
    { engine with
      outbound := { engine.outbound with
        flow := engine.outbound.flow.reset.applyBrokerReceiveMaximum
          engine.negotiated.receiveMaximum engine.config.maxOutboundInflight } }

def replaySession : EngineM PUnit := do
  resetFlowForConnection
  modifyOutbound fun outbound => { outbound with queued := [], parked := ∅ }
  forEachSummary replayMessage
  drain

/-- Settle one row when the broker dropped the session. The lists collect the
entries to send again and the identifiers to release. -/
def purgeMessage (stored : OutboundMessageSummary)
    (collected : List QueueEntry × List Nat) : EngineM (List QueueEntry × List Nat) := do
  let (resent, released) := collected
  let engine ← get
  let mid := stored.mid
  if stored.state = .queued then return (resent, released)
  else if engine.outbound.sealed.contains mid then do
    modifyOutbound fun outbound => { outbound with sealed := outbound.sealed.erase mid }
    storeCall .deleteOut fun store => (PUnit.unit, store.deleteOut mid)
    return (resent, released ++ [mid])
  else if stored.state = .waitPuback then
    match ← storeCall .transitionOut fun store => store.transitionOut mid .waitPuback .queued with
    | none => throw (.runtime s!"Outbound mid={mid} changed while being requeued")
    | some _ => return (resent ++ [.summary { stored with state := .queued }], released)
  else do
    discardRecord mid stored.logicalSize
    fail mid (.sessionDiscarded "Publish lost: clean session replaced the previous one")
    return (resent, released ++ [mid])

/-- Settle every unacknowledged publication: the broker dropped the session. QoS 1
work goes back to the head of the queue, QoS 2 exchanges fail. -/
def purgeAfterCleanSession (subMidsPending : Bool) : EngineM PUnit := do
  modifyOutbound fun outbound =>
    { outbound with
      queued := outbound.queued.filter fun entry => entry.state = .queued
      parked := ∅ }
  let (resent, released) ← foldSummaries purgeMessage ([], [])
  modifyOutbound fun outbound => { outbound with queued := resent ++ outbound.queued }
  let engine ← get
  -- A sealed, never-sent row keeps its identifier, so the pool is reset only without one.
  if engine.outbound.queued = [] ∧ subMidsPending = false ∧ engine.outbound.sealed.values.all id then
    modifyOutbound fun outbound => { outbound with packetIds := .clear }
  else
    modifyOutbound fun outbound =>
      { outbound with packetIds := released.foldl PacketIdPool.release outbound.packetIds }

/-- The loop of `fail_queued_violating_negotiation`; each round takes one entry off
the queue. -/
def failQueuedFor : Nat → List QueueEntry → EngineM PUnit
  | 0, kept => modifyOutbound fun outbound => { outbound with queued := kept }
  | fuel + 1, kept => do
    let engine ← get
    match engine.outbound.queued with
    | [] => modifyOutbound fun outbound => { outbound with queued := kept }
    | entry :: _ =>
      match validateAgainstNegotiated engine entry with
      | .ok _ => do
        popQueue
        failQueuedFor fuel (kept ++ [entry])
      | .error failure =>
        if failure.isProtocolError then do
          discardRecord entry.mid entry.logicalSize
          popQueue
          releaseId entry.mid
          fail entry.mid failure
          failQueuedFor fuel kept
        else throw failure

def failQueuedViolatingNegotiation : EngineM PUnit := do
  let engine ← get
  failQueuedFor engine.outbound.queued.length []

end Mqttium.Protocol.Outbound
