import Mqttium.Protocol.Outbound

/-! Broker to client publication: aliases, QoS state, the receive window and
restart redelivery. -/

namespace Mqttium.Protocol.Inbound

open Codec Library Packets Persistence

def replayBatchMessages : Nat := 64

def replayBatchBytes : Nat := 2 ^ 20

/-! Store calls. The memory backend hands the replay cursor the stored objects
themselves, so a change to a row shows in the copies the cursor still holds. -/

/-- Show a changed row in the cursor's copies of it. -/
def shareRow (kind : StoreKind) (row : InRow) (cursor : InboundReplayCursor) :
    InboundReplayCursor :=
  let refresh (held : InRow) : InRow := if held.seq = row.seq then row else held
  match kind with
  | .memory =>
    { cursor with
      pageMessages := cursor.pageMessages.map (List.map refresh)
      pending := cursor.pending.map refresh }
  | .sqlite => cursor

/-- Refresh the cursor after a call that may have changed the row of `mid`. -/
def shareAfter (mid : Nat) : EngineM PUnit :=
  modify fun engine =>
    match engine.store.inbound.get? mid with
    | some row =>
      { engine with
        inbound := { engine.inbound with
          replay := engine.inbound.replay.map (shareRow engine.store.kind row) } }
    | none => engine

def markRowDelivered (mid : Nat) : EngineM PUnit := do
  discard (storeCall .markInDelivered fun store => store.markInDelivered mid)
  shareAfter mid

def transitionRow (mid : Nat) (expected next : InboundQoSState) (userAcked : Option Bool := none) :
    EngineM (Option InboundRecordMeta) := do
  let changed ← storeCall .transitionIn fun store => store.transitionIn mid expected next userAcked
  shareAfter mid
  return changed

/-! Lifecycle -/

/-- Reset the state scoped to one network connection before CONNECT. -/
def startConnection (receiveMaximum topicAliasMaximum : Nat) : EngineM PUnit :=
  modifyInbound fun inbound =>
    { inbound with
      aliases := .empty
      receiveMaximum
      topicAliasMaximum
      currentPersistedMids := ∅
      autoackHandoffRequired := false
      pendingAutoQos1Mids := ∅
      pendingPubcomps := ∅
      pendingPubcompSlots := 0
      pendingManualQos1Acks := ∅
      replay := none }

/-- Free what acknowledgements in the engine batch still owned. -/
def releasePendingAcks : EngineM PUnit :=
  modifyInbound fun inbound =>
    { inbound with
      autoackHandoffRequired := false
      pendingAutoQos1Mids := ∅
      pendingPubcomps := ∅
      pendingPubcompSlots := if inbound.pendingPubcomps = ∅ then inbound.pendingPubcompSlots else 0 }

def transportClosed : EngineM PUnit := do
  modifyInbound fun inbound =>
    { inbound with
      aliases := .empty
      currentPersistedMids := ∅
      -- The broker resends PUBREL, or the QoS 1 PUBLISH, after a reconnect.
      pendingCompletions := .empty
      pendingManualQos1Acks := ∅ }
  releasePendingAcks
  modifyInbound fun inbound => { inbound with replay := none }

/-- Drop inbound state after CONNACK reports no previous session. -/
def discardSession : EngineM PUnit := do
  storeCall .clearIn fun store => (PUnit.unit, store.clearIn)
  modifyInbound fun inbound =>
    { inbound with
      recoveredMids := ∅
      replay := none
      currentPersistedMids := ∅
      exchangeTokens := .empty
      pendingCompletions := .empty
      pendingBytes := 0
      storedInbound := 0
      autoackHandoffRequired := false
      pendingAutoQos1Mids := ∅
      pendingPubcomps := ∅
      pendingPubcompSlots := 0
      pendingManualQos1Acks := ∅
      manualQos1Order := [] }

/-- Receive Maximum slots owned on this connection. -/
def inflight (inbound : InboundSession) : Nat :=
  inbound.currentPersistedMids.card + inbound.pendingAutoQos1Mids.card + inbound.pendingPubcompSlots

def hasClientSessionState (inbound : InboundSession) : Bool := 0 < inbound.storedInbound

/-- Stored metadata, without probing an empty store. -/
def lookupStoredInbound (mid : Nat) : EngineM (Option InboundRecordMeta) := do
  let engine ← get
  if engine.inbound.storedInbound = 0 then return none
  else storeRead .inMeta (·.inMeta mid)

def rememberInbound : EngineM PUnit :=
  modifyInbound fun inbound => { inbound with storedInbound := inbound.storedInbound + 1 }

def forgetInbound : EngineM PUnit := do
  let engine ← get
  raiseIf (engine.inbound.storedInbound = 0) .assertion
  modifyInbound fun inbound => { inbound with storedInbound := inbound.storedInbound - 1 }

/-- Conditionally delete one record and return its logical size. -/
def completeStoredInbound (mid : Nat) (expected : InboundQoSState) (action : String) :
    EngineM Nat := do
  match ← storeCall .completeIn fun store => store.completeIn mid expected with
  | none => throw (.runtime s!"Inbound mid={mid} changed while {action}")
  | some completed => do
    modifyInbound fun inbound =>
      { inbound with
        exchangeTokens := inbound.exchangeTokens.erase mid
        pendingCompletions := inbound.pendingCompletions.erase mid }
    return completed.logicalSize

/-- Give `mid` a new exchange identity. -/
def freshToken (mid : Nat) : EngineM Token := do
  let engine ← get
  let token := engine.inbound.nextToken
  modifyInbound fun inbound =>
    { inbound with
      exchangeTokens := inbound.exchangeTokens.insert mid token
      nextToken := token + 1 }
  return token

/-- Identity of the persisted exchange currently owning `mid`. -/
def exchangeToken (mid : Nat) : EngineM Token := do
  let engine ← get
  match engine.inbound.exchangeTokens.get? mid with
  | some token => return token
  | none => freshToken mid

/-! Receive Maximum and bytes -/

def rejectPacketIdCollision {Value : Type} (mid : Nat) (arriving held : String) :
    EngineM Value := do
  protocolDisconnect 0x82
  throw (.protocol
    s!"Inbound {arriving} PUBLISH reuses mid={mid}, still held by an unfinished {held} exchange")

/-- Admit one more slot and reserve `logicalSize` bytes; the caller records the owner. -/
def acquireSlot (logicalSize : Option Nat := none) : EngineM Nat := do
  let engine ← get
  let inbound := engine.inbound
  let occupied := inflight inbound
  onlyIf (inbound.receiveMaximum ≤ occupied) do
    protocolDisconnect 0x93
    throw (.protocol "Receive Maximum exceeded")
  onlyIf (engine.config.maxInboundInflightBytes.any fun limit =>
      logicalSize.any fun size => limit < inbound.pendingBytes + size) do
    protocolDisconnect 0x97
    throw (.protocol "Pending inbound byte limit reached")
  modifyInbound fun inbound =>
    { inbound with
      autoackHandoffRequired := inbound.autoackHandoffRequired ||
        decide (inbound.receiveMaximum ≤ occupied + 1 ∧
          (inbound.pendingAutoQos1Mids ≠ ∅ ∨ inbound.pendingPubcomps ≠ ∅))
      pendingBytes := inbound.pendingBytes + logicalSize.getD 0 }
  return occupied + 1

def releasePendingBytes (logicalSize : Nat) : EngineM PUnit := do
  let engine ← get
  raiseIf (logicalSize = 0 ∨ engine.inbound.pendingBytes < logicalSize) .assertion
  modifyInbound fun inbound => { inbound with pendingBytes := inbound.pendingBytes - logicalSize }

/-- Release the durable bytes and the current-connection quota owned by `mid`. -/
def releasePersistedSlot (mid logicalSize : Nat) : EngineM PUnit := do
  modifyInbound fun inbound =>
    { inbound with currentPersistedMids := inbound.currentPersistedMids.erase mid }
  releasePendingBytes logicalSize

/-- Keep a completed QoS 2 exchange's slot and identifier until its PUBCOMP leaves. -/
def holdUntilPubcompHandoff (mid logicalSize : Nat) : EngineM PUnit := do
  releasePendingBytes logicalSize
  let engine ← get
  let current := engine.inbound.currentPersistedMids
  modifyInbound fun inbound =>
    { inbound with pendingPubcomps := insert mid inbound.pendingPubcomps }
  onlyIf (mid ∈ current) (modifyInbound fun inbound =>
    let moved := { inbound with
      currentPersistedMids := inbound.currentPersistedMids.erase mid
      pendingPubcompSlots := inbound.pendingPubcompSlots + 1 }
    { moved with
      autoackHandoffRequired := moved.autoackHandoffRequired ||
        decide (moved.receiveMaximum ≤ inflight moved) })

def logicalSize (isV5 : Bool) (topic : Text) (payload : Bytes) (properties : Option Properties)
    (propertyWireSize : Option Nat) : Except Failure Nat := do
  let propertyBytes ←
    if isV5 ∧ hasProperties properties then
      match propertyWireSize with
      | some size => .ok size
      | none => List.length <$> encodeProperties properties .publish
    else .ok 0
  return payload.length + (← Outbound.topicSize topic) + propertyBytes

/-! Delivering -/

/-- Emit a delivery, as the effect kind its decode-time table size selects. -/
def emitDelivery (message : Message) (requiresDeliveryMark : Bool) (propertyWireSize : Option Nat)
    (token : Option Token) : EngineM PUnit :=
  match propertyWireSize with
  | some size => emit (.decodedMessage message requiresDeliveryMark size token)
  | none => emit (.message message requiresDeliveryMark token)

/-- In manual acknowledgement a message carries its exchange identity. -/
def bindAckToken (mid : Nat) (message : Message) : EngineM Message := do
  let engine ← get
  if engine.config.manualAck then
    let token ← exchangeToken mid
    return { message with ackToken := some token }
  else return message

/-- The fields a PUBLISH handler gets. -/
structure Arrival where
  topic : Text
  payload : Bytes
  mid : Nat
  retain : Bool
  dup : Bool
  properties : Option Properties
  propertyWireSize : Option Nat
  deriving DecidableEq, Repr

def Arrival.message (arrival : Arrival) (qos : QoS) : Message where
  topic := arrival.topic
  payload := arrival.payload
  qos := qos
  retain := arrival.retain
  dup := arrival.dup
  mid := some arrival.mid
  properties := arrival.properties
  ackToken := none

/-- Redeliver a stored message. -/
def emitMessage (stored : InboundMessage) (dup : Bool) : EngineM PUnit := do
  let message ← bindAckToken stored.mid
    { topic := stored.topic, payload := stored.payload, qos := stored.qos, retain := stored.retain,
      dup, mid := some stored.mid, properties := stored.properties, ackToken := none }
  let token ← exchangeToken stored.mid
  emit (.message message true (some token))

/-- Store a fresh exchange: slot, bytes, row and identity. -/
def admitRow (arrival : Arrival) (qos : QoS) (state : InboundQoSState) : EngineM Token := do
  let engine ← get
  let size ← fromExcept (logicalSize engine.isV5 arrival.topic arrival.payload arrival.properties
    arrival.propertyWireSize)
  discard (acquireSlot (some size))
  let stored : InboundMessage :=
    { mid := arrival.mid, topic := arrival.topic, payload := arrival.payload, qos,
      retain := arrival.retain, state, properties := arrival.properties, logicalSize := size }
  tryCatch (do
    raiseIf (size = 0) (.value "logical_size must be positive")
    storeCall .putIn fun store => (PUnit.unit, store.putIn stored)) fun failure => do
      releasePendingBytes size
      throw failure
  modifyInbound fun inbound =>
    { inbound with currentPersistedMids := insert arrival.mid inbound.currentPersistedMids }
  let token ← freshToken arrival.mid
  rememberInbound
  return token

/-- Take the slot of a stored exchange whose PUBLISH is seen again on this connection. -/
def holdSlot (mid : Nat) : EngineM PUnit := do
  let engine ← get
  onlyIf (mid ∉ engine.inbound.currentPersistedMids) do
    discard acquireSlot
    modifyInbound fun inbound =>
      { inbound with currentPersistedMids := insert mid inbound.currentPersistedMids }

/-! PUBLISH handlers -/

private def stateRepr : InboundQoSState → String
  | .waitPubrel => "<InboundQoSState.WAIT_PUBREL: 1>"
  | .done => "<InboundQoSState.DONE: 2>"
  | .waitPuback => "<InboundQoSState.WAIT_PUBACK: 3>"
  | .waitUserAck => "<InboundQoSState.WAIT_USER_ACK: 4>"

/-- A QoS 2 PUBLISH under an identifier that has a row. -/
def onQos2Stored (mid : Nat) (state : InboundQoSState) : EngineM PUnit := do
  let engine ← get
  if state = .waitPuback then rejectPacketIdCollision mid "QoS 2" "QoS 1"
  else if state = .waitUserAck ∨ engine.inbound.pendingCompletions.contains mid then do
    -- PUBREL was received, including one whose completion waits for delivery.
    protocolDisconnect 0x82
    throw (.protocol s!"QoS 2 PUBLISH for mid={mid} received after PUBREL")
  else if state ≠ .waitPubrel then
    throw (.runtime s!"Inbound mid={mid} is in unexpected state {stateRepr state}")
  else do
    holdSlot mid
    sendAck (encodePubrecSuccess mid)

/-- A QoS 2 PUBLISH that starts an exchange. -/
def onQos2Fresh (arrival : Arrival) : EngineM PUnit := do
  let engine ← get
  let mid := arrival.mid
  if mid ∈ engine.inbound.pendingPubcomps then
    rejectPacketIdCollision mid "QoS 2" "QoS 2 awaiting PUBCOMP handoff"
  else if mid ∈ engine.inbound.pendingAutoQos1Mids then do
    protocolDisconnect 0x82
    throw (.protocol
      s!"Inbound packet identifier {mid} reused by QoS 2 while QoS 1 PUBACK is pending")
  else do
    let token ← admitRow arrival .exactlyOnce .waitPubrel
    sendAck (encodePubrecSuccess mid)
    let message ← bindAckToken mid (arrival.message .exactlyOnce)
    emitDelivery message true arrival.propertyWireSize (some token)

def onQos2 (arrival : Arrival) : EngineM PUnit := do
  match ← lookupStoredInbound arrival.mid with
  | some existing => onQos2Stored arrival.mid existing.state
  | none => onQos2Fresh arrival

/-- Settle a durable QoS 1 row redelivered into an auto-acknowledging session. The
PUBACK retires the last copy, so it waits until the application owns the message. -/
def completeRecoveredQos1Auto (mid : Nat) : EngineM PUnit := do
  let engine ← get
  if engine.inbound.pendingCompletions.contains mid then pure ⟨⟩
  else do
    let record ← lookupStoredInbound mid
    if record.any fun stored => stored.delivered = false then do
      holdSlot mid
      modifyInbound fun inbound =>
        { inbound with pendingCompletions := inbound.pendingCompletions.insert mid .waitPuback }
    else do
      let occupied ← acquireSlot
      let size ← completeStoredInbound mid .waitPuback "acknowledging"
      forgetInbound
      sendAck (encodePubackSuccess mid)
      releasePendingBytes size
      modifyInbound fun inbound =>
        { inbound with
          pendingAutoQos1Mids := insert mid inbound.pendingAutoQos1Mids
          autoackHandoffRequired := inbound.autoackHandoffRequired ||
            decide (inbound.receiveMaximum ≤ occupied) }

/-- A QoS 1 PUBLISH under a free identifier, acknowledged at once. -/
def onQos1AutoFresh (arrival : Arrival) : EngineM PUnit := do
  let engine ← get
  let mid := arrival.mid
  if mid ∈ engine.inbound.pendingPubcomps then
    rejectPacketIdCollision mid "QoS 1" "QoS 2 awaiting PUBCOMP handoff"
  else do
    let retransmission := decide (mid ∈ engine.inbound.pendingAutoQos1Mids)
    let occupied ← if retransmission then pure 0 else acquireSlot
    sendAck (encodePubackSuccess mid)
    emitDelivery (arrival.message .atLeastOnce) false arrival.propertyWireSize none
    onlyIf (retransmission = false) (modifyInbound fun inbound =>
      { inbound with
        pendingAutoQos1Mids := insert mid inbound.pendingAutoQos1Mids
        autoackHandoffRequired := inbound.autoackHandoffRequired ||
          decide (inbound.receiveMaximum ≤ occupied) })

def onQos1Auto (arrival : Arrival) : EngineM PUnit := do
  match ← lookupStoredInbound arrival.mid with
  | some existing =>
    if existing.state = .waitPuback then completeRecoveredQos1Auto arrival.mid
    else rejectPacketIdCollision arrival.mid "QoS 1" "QoS 2"
  | none => onQos1AutoFresh arrival

/-! Completion -/

/-- Retire a QoS 2 row in `state` and answer PUBCOMP. -/
def completeQos2 (mid : Nat) (state : InboundQoSState) (action : String := "completing PUBREL") :
    EngineM PUnit := do
  let size ← completeStoredInbound mid state action
  forgetInbound
  sendAck (encodePubcompSuccess mid)
  holdUntilPubcompHandoff mid size

/-- Retire a persisted QoS 1 row and answer PUBACK. -/
def completeQos1 (mid : Nat) : EngineM PUnit := do
  let size ← completeStoredInbound mid .waitPuback "acknowledging"
  forgetInbound
  sendAck (encodePubackSuccess mid)
  releasePersistedSlot mid size

/-- The loop of `_drain_manual_qos1_acks`: the ready prefix in arrival order. -/
def drainManualFor : Nat → EngineM PUnit
  | 0 => pure ⟨⟩
  | fuel + 1 => do
    let engine ← get
    match engine.inbound.manualQos1Order with
    | [] => pure ⟨⟩
    | mid :: _ =>
      onlyIf (mid ∈ engine.inbound.pendingManualQos1Acks ∧
          mid ∈ engine.inbound.currentPersistedMids) do
        let record ← lookupStoredInbound mid
        raiseIf (record.all fun stored => stored.state ≠ .waitPuback)
          (.protocol s!"Inbound QoS 1 order lost pending mid={mid}")
        completeQos1 mid
        modifyInbound fun inbound =>
          { inbound with
            manualQos1Order := inbound.manualQos1Order.tail
            pendingManualQos1Acks := inbound.pendingManualQos1Acks.erase mid }
        drainManualFor fuel

def drainManualQos1Acks : EngineM PUnit := do
  let engine ← get
  drainManualFor engine.inbound.manualQos1Order.length

/-- A duplicate QoS 1 PUBLISH under manual acknowledgement: it is surfaced again,
unless the application acknowledged it already. -/
def onQos1ManualStored (mid : Nat) : EngineM PUnit := do
  let engine ← get
  let acquired := decide (mid ∉ engine.inbound.currentPersistedMids)
  holdSlot mid
  if mid ∈ engine.inbound.pendingManualQos1Acks then drainManualQos1Acks
  else
    match ← storeRead .getIn (·.getIn mid) with
    | some stored => emitMessage stored true
    | none => do
      onlyIf acquired (modifyInbound fun inbound =>
        { inbound with currentPersistedMids := inbound.currentPersistedMids.erase mid })
      throw (.runtime s!"Inbound mid={mid} disappeared while redelivering")

def onQos1ManualFresh (arrival : Arrival) : EngineM PUnit := do
  let engine ← get
  let mid := arrival.mid
  if mid ∈ engine.inbound.pendingPubcomps then
    rejectPacketIdCollision mid "QoS 1" "QoS 2 awaiting PUBCOMP handoff"
  else do
    let token ← admitRow arrival .atLeastOnce .waitPuback
    modifyInbound fun inbound =>
      { inbound with manualQos1Order := inbound.manualQos1Order ++ [mid] }
    let message ← bindAckToken mid (arrival.message .atLeastOnce)
    emitDelivery message true arrival.propertyWireSize (some token)

def onQos1Manual (arrival : Arrival) : EngineM PUnit := do
  match ← lookupStoredInbound arrival.mid with
  | some existing =>
    if existing.state = .waitPuback then onQos1ManualStored arrival.mid
    else rejectPacketIdCollision arrival.mid "QoS 1" "QoS 2"
  | none => onQos1ManualFresh arrival

/-- QoS 1 ingress, bound to the acknowledgement mode at construction. -/
def onQos1 (arrival : Arrival) : EngineM PUnit := do
  let engine ← get
  if engine.config.manualAck then onQos1Manual arrival else onQos1Auto arrival

/-! PUBLISH decoding -/

/-- Resolve an MQTT 5 topic alias. -/
def resolveTopicFields (topic : Text) (properties : Option Properties) : EngineM Text := do
  let engine ← get
  match properties.bind (·.int? .topicAlias) with
  | none =>
    if topic = [] then do
      protocolDisconnect 0x82
      throw (.protocol "PUBLISH with empty topic and no topic alias")
    else return topic
  | some number =>
    if number = 0 ∨ (engine.inbound.topicAliasMaximum : Int) < number then do
      protocolDisconnect 0x94
      throw (.protocol s!"Invalid topic alias {number}")
    else if topic ≠ [] then do
      modifyInbound fun inbound =>
        { inbound with aliases := inbound.aliases.insert number.toNat topic }
      return topic
    else
      match engine.inbound.aliases.get? number.toNat with
      | some known => return known
      | none => do
        protocolDisconnect 0x94
        throw (.protocol s!"Unknown topic alias {number}")

/-- The alias is connection state: resolve it, and size the stripped table anew. -/
def resolveArrival (topic : Text) (properties : Option Properties) (wireSize : Nat) :
    EngineM (Text × Option Properties × Option Nat) := do
  if topic = [] ∨ (properties.bind (·.get .topicAlias)).isSome then do
    let resolved ← resolveTopicFields topic properties
    return (resolved, propertiesWithoutTopicAlias properties, none)
  else
    return (topic, properties,
      if wireSize ≠ 0 ∧ hasProperties properties then some wireSize else none)

def dispatchQos (qosBits : Nat) (arrival : Arrival) : EngineM PUnit :=
  if qosBits = 1 then onQos1 arrival else onQos2 arrival

def onPublishV311 (raw : RawPacket) : EngineM PUnit := do
  if raw.qosBits = 0 then do
    let message ← fromExcept (decodeQos0MessageV311 raw)
    emit (.message message false none)
  else if raw.qosBits = 3 then throw (.malformedPacket "Invalid PUBLISH QoS 3")
  else do
    let fields ← fromExcept (decodeQos12FieldsV311 raw)
    dispatchQos raw.qosBits
      { topic := fields.topic, payload := fields.payload, mid := fields.mid,
        retain := fields.retain, dup := fields.dup, properties := none, propertyWireSize := none }

def onPublishV5 (raw : RawPacket) : EngineM PUnit := do
  if raw.qosBits = 0 then do
    let (message, wireSize) ← fromExcept (decodeQos0MessageV5 raw)
    let (topic, properties, propertyWireSize) ←
      resolveArrival message.topic message.properties wireSize
    emitDelivery { message with topic, properties } false propertyWireSize none
  else if raw.qosBits = 3 then throw (.malformedPacket "Invalid PUBLISH QoS 3")
  else do
    let fields ← fromExcept (decodePublishFieldsV5 raw)
    let (topic, properties, propertyWireSize) ←
      resolveArrival fields.topic fields.properties (fields.propertyWireSize.getD 0)
    dispatchQos raw.qosBits
      { topic, payload := fields.payload, mid := fields.mid, retain := fields.retain,
        dup := fields.dup, properties, propertyWireSize }

def handlePublish (raw : RawPacket) : EngineM PUnit := do
  let engine ← get
  if engine.isV5 then onPublishV5 raw else onPublishV311 raw

/-! PUBREL, delivery marks and acknowledgements -/

/-- A PUBREL under an identifier that has a row. -/
def onPubrelStored (mid : Nat) (record : InboundRecordMeta) : EngineM PUnit := do
  let engine ← get
  let manual := engine.config.manualAck
  if record.state = .waitUserAck ∧ manual then pure ⟨⟩
  else if record.state ≠ .waitUserAck ∧ record.state ≠ .waitPubrel then
    throw (.protocol s!"PUBREL for inbound mid={mid} in invalid state {stateRepr record.state}")
  else if record.state = .waitPubrel ∧ manual ∧ record.userAcked = false then
    match ← transitionRow mid .waitPubrel .waitUserAck with
    | some _ => pure ⟨⟩
    | none => throw (.runtime s!"Inbound mid={mid} changed while processing PUBREL")
  else if record.delivered = false ∧ record.userAcked = false then
    -- The application must own the message before PUBCOMP ends the broker's ownership.
    modifyInbound fun inbound =>
      { inbound with pendingCompletions := inbound.pendingCompletions.insert mid record.state }
  else completeQos2 mid record.state

def onPubrel (raw : RawPacket) : EngineM PUnit := do
  let engine ← get
  let (mid, _, properties) ← fromExcept (engine.codec.decodePubrel raw.remaining)
  Outbound.validateAckProperties .pubrel properties
  match ← lookupStoredInbound mid with
  | none => sendAck (encodePubcompSuccess mid)
  | some record => onPubrelStored mid record

/-- Record application ownership of `mid`, then run a waiting completion. A token of
an exchange that is no longer current is ignored. -/
def markDelivered (mid : Nat) (token : Option Token) : EngineM PUnit := do
  let engine ← get
  if token.isSome ∧ engine.inbound.exchangeTokens.get? mid ≠ token then pure ⟨⟩
  else do
    modifyInbound fun inbound =>
      { inbound with pendingCompletions := inbound.pendingCompletions.erase mid }
    match engine.inbound.pendingCompletions.get? mid with
    | none => onlyIf (engine.inbound.storedInbound ≠ 0) (markRowDelivered mid)
    | some .waitPuback => completeQos1 mid
    | some waiting => completeQos2 mid waiting

/-- Complete a deferred PUBACK or PUBCOMP in manual-ack mode. -/
def ack (mid : Nat) (message : Option Message) : EngineM PUnit := do
  let engine ← get
  raiseIf (engine.config.manualAck = false) (.protocol "manual_ack is disabled")
  raiseIf (message.any fun bound => bound.mid ≠ some mid ∨ bound.ackToken = none ∨
      engine.inbound.exchangeTokens.get? mid ≠ bound.ackToken)
    (.protocol s!"Message is not an active inbound acknowledgement for mid={mid}")
  match ← lookupStoredInbound mid with
  | none => throw (.protocol s!"No pending inbound ack for mid={mid}")
  | some record =>
    match record.state with
    | .waitPubrel =>
      match ← transitionRow mid .waitPubrel .waitPubrel (some true) with
      | some _ => pure ⟨⟩
      | none => throw (.protocol s!"Inbound mid={mid} changed while acknowledging")
    | .waitPuback => do
      checkOutboundSize (.contiguous (encodePubackSuccess mid))
      modifyInbound fun inbound =>
        { inbound with pendingManualQos1Acks := insert mid inbound.pendingManualQos1Acks }
      drainManualQos1Acks
    | .waitUserAck => do
      checkOutboundSize (.contiguous (encodePubcompSuccess mid))
      completeQos2 mid .waitUserAck "acknowledging"
    | .done => throw (.protocol
        s!"Inbound mid={mid} is not awaiting ack (state={stateRepr record.state})")

/-! Replay -/

/-- Hydrate the next page that has rows; `none` when the pages are used up. -/
def nextPage : List (List Nat) → EngineM (Option (List InRow × List (List Nat)))
  | [] => return none
  | mids :: rest => do
    match ← storeRead .inReplayPage (·.hydratePage mids) with
    | [] => nextPage rest
    | page => return some (page, rest)

/-- Make sure the cursor has a page; false when the pages are used up. -/
def beginPage (cursor : InboundReplayCursor) : EngineM (Bool × InboundReplayCursor) := do
  if cursor.pending.isSome ∨ cursor.pageMessages.isSome then return (true, cursor)
  else do
    -- The pages are a generator, and one that raises is finished: the cursor stays without them.
    modifyInbound fun inbound => { inbound with replay := some { cursor with groups := [] } }
    match ← nextPage cursor.groups with
    | none => return (false, { cursor with groups := [] })
    | some (page, groups) =>
      return (true, { cursor with
        groups, pageMessages := some page, remaining := cursor.remaining - page.length })

def nextPageMessage (cursor : InboundReplayCursor) : Option InRow × InboundReplayCursor :=
  match cursor.pending with
  | some row => (some row, { cursor with pending := none })
  | none =>
    match cursor.pageMessages with
    | none => (none, cursor)
    | some [] => (none, { cursor with pageMessages := none })
    | some (row :: rest) =>
      (some row, { cursor with pageMessages := if rest = [] then none else some rest })

def boundedComplete (cursor : InboundReplayCursor) : Bool :=
  cursor.remaining = 0 && cursor.pending.isNone && cursor.pageMessages.isNone

def shouldRedeliver (manual : Bool) (recovered : Finset Nat) (stored : InboundMessage) : Bool :=
  if stored.delivered = false then true
  else if stored.mid ∉ recovered ∨ ¬ manual then false
  else match stored.state with
    | .waitPuback => true
    | .waitUserAck => true
    | .waitPubrel => !stored.userAcked
    | .done => false

/-- The messages one batch can still visit. -/
def cursorFuel (cursor : InboundReplayCursor) : Nat :=
  cursor.pending.toList.length + (cursor.pageMessages.getD []).length

/-- The loop of `drain_replay`. Each round takes one message of the page. -/
def replayFor : Nat → InboundReplayCursor → Nat → Nat → EngineM InboundReplayCursor
  | 0, cursor, _, _ => return cursor
  | fuel + 1, cursor, emitted, emittedBytes => do
    if replayBatchMessages ≤ emitted ∨ replayBatchBytes ≤ emittedBytes then return cursor
    else
      match nextPageMessage cursor with
      | (none, rest) => return rest
      | (some row, rest) => do
        let engine ← get
        if shouldRedeliver engine.config.manualAck engine.inbound.recoveredMids row.message = false
        then replayFor fuel rest emitted emittedBytes
        else if emitted ≠ 0 ∧ replayBatchBytes < emittedBytes + row.message.logicalSize then
          return { rest with pending := some row }
        else do
          emitMessage row.message true
          replayFor fuel rest (emitted + 1) (emittedBytes + row.message.logicalSize)

def endReplay : EngineM PUnit :=
  modifyInbound fun inbound => { inbound with replay := none, recoveredMids := ∅ }

/-- Emit one bounded replay batch. -/
def drainReplay : EngineM PUnit := do
  let engine ← get
  match engine.inbound.replay with
  | none => pure ⟨⟩
  | some cursor => do
    let (begun, cursor) ← beginPage cursor
    if begun then do
      let after ← replayFor (cursorFuel cursor + 1) cursor 0 0
      modifyInbound fun inbound => { inbound with replay := some after }
      if boundedComplete after then endReplay
      else emit .continueInboundReplay
    else endReplay

/-- Restore durable state without carrying connection quota across a reconnect. -/
def replaySession : EngineM PUnit := do
  let persisted ← storeRead .inCount (·.inCount)
  modifyInbound fun inbound => { inbound with currentPersistedMids := ∅ }
  if persisted = 0 then
    modifyInbound fun inbound => { inbound with recoveredMids := ∅ }
  else do
    let engine ← get
    let groups := engine.store.inReplayGroups replayBatchMessages replayBatchBytes
    modifyInbound fun inbound =>
      { inbound with replay := some { groups, remaining := persisted } }
    drainReplay

end Mqttium.Protocol.Inbound
