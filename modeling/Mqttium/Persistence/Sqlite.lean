import Mqttium.Library.Raising
import Mqttium.Library.Table
import Mqttium.Persistence.Operations

/-! The SQLite backend: one table each way, written and read through the
statements of the store. Every mutation outside a batch commits by itself. -/

namespace Mqttium.Persistence

open Library Codec

/-- What `json` works on. The members of an object are named as properties are. -/
inductive Json where
  | null
  | int (value : Int)
  | str (value : Text)
  | list (values : List Json)
  | object (members : List (PropertyName × Json))

/-- `json` and `base64`. -/
structure TextCodecs where
  dumps : Json → Text
  loads : Text → Except Failure Json
  b64encode : Bytes → Text
  b64decode : Text → Except Failure Bytes

def bytesMarker : PropertyName := .other "__mqttium_bytes__"

section Properties

variable (codecs : TextCodecs)

def sanitizeScalar : Scalar → Json
  | .none => .null
  | .int value => .int value
  | .text value => .str value
  | .bytes value => .object [(bytesMarker, .str (codecs.b64encode value))]

def sanitizeItem : PropertyItem → Json
  | .scalar value => sanitizeScalar codecs value
  | .tuple parts => .list (parts.map (sanitizeScalar codecs))

def sanitizeValue : PropertyValue → Json
  | .scalar value => sanitizeScalar codecs value
  | .tuple items => .list (items.map (sanitizeItem codecs))

/-- `_json_sanitize` of a property table. -/
def jsonSanitize (table : Properties) : Json :=
  .object (table.values.entries.map fun entry => (entry.1, sanitizeValue codecs entry.2))

def invalidByteMarker : Failure := .value "Invalid persisted properties byte marker"

def invalidProperties : Failure := .value "Invalid persisted properties value"

/-- A value that is not a list. An object that is not a byte marker is refused when
the table is built. -/
def reviveScalar : Json → Except Failure Scalar
  | .null => .ok .none
  | .int value => .ok (.int value)
  | .str value => .ok (.text value)
  | .object [(name, encoded)] =>
    if name = bytesMarker then
      match encoded with
      | .str text =>
        match codecs.b64decode text with
        | .ok value => .ok (.bytes value)
        | .error _ => .error invalidByteMarker
      | _ => .error invalidByteMarker
    else .error invalidProperties
  | _ => .error invalidProperties

def reviveItem : Json → Except Failure PropertyItem
  | .list parts => do return .tuple (← parts.mapM (reviveScalar codecs))
  | json => do return .scalar (← reviveScalar codecs json)

def reviveValue : Json → Except Failure PropertyValue
  | .list items => do return .tuple (← items.mapM (reviveItem codecs))
  | json => do return .scalar (← reviveScalar codecs json)

/-- `Properties.__post_init__`: one user property pair becomes a tuple of one pair. -/
def frozenValue (name : PropertyName) (value : PropertyValue) : PropertyValue :=
  match name, value with
  | .userProperty, .tuple [.scalar (.text key), .scalar (.text text)] =>
    .tuple [.tuple [.text key, .text text]]
  | _, value => value

def reviveMembers : List (PropertyName × Json) → Dict PropertyName PropertyValue →
    Except Failure (Dict PropertyName PropertyValue)
  | [], built => .ok built
  | (name, json) :: rest, built => do
    let value ← reviveValue codecs json
    reviveMembers rest (built.insert name (frozenValue name value))

def propsToJson : Option Properties → Option Text
  | none => none
  | some table => if table.isEmpty then none else some (codecs.dumps (jsonSanitize codecs table))

def propsFromJson : Option Text → Except Failure (Option Properties)
  | none => .ok none
  | some raw => do
    match ← codecs.loads raw with
    | .object [(name, json)] =>
      if name = bytesMarker then .error (.value "Invalid properties JSON payload")
      else return some ⟨← reviveMembers codecs [(name, json)] .empty⟩
    | .object members => return some ⟨← reviveMembers codecs members .empty⟩
    | _ => .error (.value "Invalid properties JSON payload")

end Properties

structure OutboundColumns where
  qos : Nat
  retain : Nat
  state : Nat
  dup : Nat
  logicalSize : Nat
  topic : Text
  properties : Option Text
  payload : Bytes

structure InboundColumns where
  qos : Nat
  retain : Nat
  state : Nat
  delivered : Nat
  userAcked : Nat
  logicalSize : Nat
  topic : Text
  properties : Option Text
  payload : Bytes

structure SqliteInflightStore where
  outbound : Table OutboundColumns := []
  inbound : Table InboundColumns := []
  outSeq : Nat := 0
  inSeq : Nat := 0

abbrev SqliteM := EStateM Failure SqliteInflightStore

/-- The most identifiers one `IN` list holds. -/
def maxSqlVariables : Nat := 900

/-- A text parameter travels as UTF-8. -/
def bindText (text : Text) : Except Failure Text :=
  if text.encodeUtf8.isSome then .ok text else .error .unicodeEncode

def storedBool (column : String) (value : Nat) : Except Failure Bool :=
  if value = 0 then .ok false
  else if value = 1 then .ok true
  else .error (.value s!"Invalid persisted {column}: expected 0 or 1, got {value}")

def storedLogicalSize (size : Nat) : Except Failure Nat :=
  if size = 0 then
    .error (.value "Invalid persisted logical_size: expected a positive integer")
  else .ok size

def storedMid (mid : Nat) : Except Failure Nat :=
  if 1 ≤ mid ∧ mid ≤ 65535 then .ok mid
  else .error (.value s!"Invalid persisted mid: expected 1..65535, got {mid}")

/-- The enumerations raise on a number that is no member. -/
def storedMember {Member : Type} (found : Option Member) (message : String) :
    Except Failure Member :=
  match found with
  | some member => .ok member
  | none => .error (.value message)

def storedQos (value : Nat) : Except Failure QoS :=
  storedMember (QoS.ofLevel? value) s!"{value} is not a valid QoS"

def storedOutState (value : Nat) : Except Failure OutboundQoSState :=
  storedMember (OutboundQoSState.ofCode? value) s!"{value} is not a valid OutboundQoSState"

def storedInState (value : Nat) : Except Failure InboundQoSState :=
  storedMember (InboundQoSState.ofCode? value) s!"{value} is not a valid InboundQoSState"

section Rows

variable (codecs : TextCodecs)

def rowToOut (row : Row OutboundColumns) : Except Failure OutboundMessage := do
  let mid ← storedMid row.key
  let qos ← storedQos row.columns.qos
  let retain ← storedBool "retain" row.columns.retain
  let state ← storedOutState row.columns.state
  let dup ← storedBool "dup" row.columns.dup
  let properties ← propsFromJson codecs row.columns.properties
  let logicalSize ← storedLogicalSize row.columns.logicalSize
  return {
    mid, topic := row.columns.topic, payload := row.columns.payload, qos, retain, state, dup
    properties, logicalSize }

def rowToOutSummary (row : Row OutboundColumns) : Except Failure OutboundMessageSummary := do
  let mid ← storedMid row.key
  let qos ← storedQos row.columns.qos
  let retain ← storedBool "retain" row.columns.retain
  let state ← storedOutState row.columns.state
  let dup ← storedBool "dup" row.columns.dup
  let properties ← propsFromJson codecs row.columns.properties
  let logicalSize ← storedLogicalSize row.columns.logicalSize
  return {
    mid, topic := row.columns.topic, payloadSize := row.columns.payload.length, qos, retain, state
    dup, properties, logicalSize }

def rowToInMeta (row : Row InboundColumns) : Except Failure InboundRecordMeta := do
  let mid ← storedMid row.key
  let state ← storedInState row.columns.state
  let userAcked ← storedBool "user_acked" row.columns.userAcked
  let delivered ← storedBool "delivered" row.columns.delivered
  let logicalSize ← storedLogicalSize row.columns.logicalSize
  return { mid, state, userAcked, delivered, logicalSize }

def rowToIn (row : Row InboundColumns) : Except Failure InboundMessage := do
  let mid ← storedMid row.key
  let qos ← storedQos row.columns.qos
  let retain ← storedBool "retain" row.columns.retain
  let state ← storedInState row.columns.state
  let delivered ← storedBool "delivered" row.columns.delivered
  let properties ← propsFromJson codecs row.columns.properties
  let userAcked ← storedBool "user_acked" row.columns.userAcked
  let logicalSize ← storedLogicalSize row.columns.logicalSize
  return {
    mid, topic := row.columns.topic, payload := row.columns.payload, qos, retain, state
    delivered, properties, userAcked, logicalSize }

end Rows

/-- `_stored_out_transition`. -/
def storedOutTransition (row : Row OutboundColumns) :
    Except Failure (OutboundQoSState × Nat × Nat) := do
  let state ← storedOutState row.columns.state
  let logicalSize ← storedLogicalSize row.columns.logicalSize
  return (state, logicalSize, row.seq)

/-- `_stored_in_transition`. -/
def storedInTransition (row : Row InboundColumns) :
    Except Failure (InboundQoSState × Bool × Bool × Nat × Nat) := do
  let state ← storedInState row.columns.state
  let userAcked ← storedBool "user_acked" row.columns.userAcked
  let delivered ← storedBool "delivered" row.columns.delivered
  let logicalSize ← storedLogicalSize row.columns.logicalSize
  return (state, userAcked, delivered, logicalSize, row.seq)

/-- Add the rows of one `IN` query. -/
def collectRows {Columns : Type} :
    Table Columns → Dict Nat (Row Columns) → Except Failure (Dict Nat (Row Columns))
  | [], byMid => .ok byMid
  | row :: rest, byMid => do
    let mid ← storedMid row.key
    collectRows rest (byMid.insert mid row)

/-- Read a set of identifiers back in the order they were given, a bounded number of
them in each query. -/
def fetchByMids {Columns Record : Type} (table : Table Columns) (mids : List Nat)
    (build : Row Columns → Except Failure Record) : Except Failure (List Record) := do
  let byMid ← (pagesOf maxSqlVariables mids.length mids).foldlM
    (fun byMid sub => collectRows (table.fetchAll sub) byMid) .empty
  (mids.filterMap byMid.get?).mapM build

/-- Identifiers in insertion order. -/
def orderedMids {Columns : Type} (table : Table Columns) : Except Failure (List Nat) :=
  table.orderBySeq.mapM fun row => storedMid row.key

/-- Read the pages of identifiers; a page without records is not listed. -/
def hydratePages {Columns Record : Type} (table : Table Columns)
    (build : Row Columns → Except Failure Record) (groups : List (List Nat)) :
    Except Failure (List (List Record)) := do
  let listed ← groups.mapM fun mids => fetchByMids table mids build
  return listed.filter (!List.isEmpty ·)

/-- `_pages`. -/
def tablePages {Columns Record : Type} (table : Table Columns) (pageSize : Int)
    (build : Row Columns → Except Failure Record) : Except Failure (List (List Record)) :=
  if pageSize ≤ 0 then .error invalidPageSize
  else do
    let mids ← orderedMids table
    hydratePages table build (pagesOf pageSize.toNat mids.length mids)

namespace SqliteInflightStore

variable (codecs : TextCodecs)

def outColumns (message : OutboundMessage) : OutboundColumns where
  qos := message.qos.level
  retain := message.retain.toNat
  state := message.state.code
  dup := message.dup.toNat
  logicalSize := message.logicalSize
  topic := message.topic
  properties := propsToJson codecs message.properties
  payload := message.payload

def inColumns (message : InboundMessage) : InboundColumns where
  qos := message.qos.level
  retain := message.retain.toNat
  state := message.state.code
  delivered := message.delivered.toNat
  userAcked := message.userAcked.toNat
  logicalSize := message.logicalSize
  topic := message.topic
  properties := propsToJson codecs message.properties
  payload := message.payload

def putOut (message : OutboundMessage) : SqliteM PUnit := do
  raiseIf (message.logicalSize = 0) invalidLogicalSize
  modify fun store => { store with outSeq := store.outSeq + 1 }
  let _ ← fromExcept (bindText message.topic)
  modify fun store =>
    { store with
      outbound := store.outbound.upsert message.mid store.outSeq (outColumns codecs message) }

def getOut (mid : Nat) : SqliteM (Option OutboundMessage) := do
  match (← get).outbound.fetchOne mid with
  | none => return none
  | some row => do return some (← fromExcept (rowToOut codecs row))

def deleteOut (mid : Nat) : SqliteM Bool := do
  let (rowcount, outbound) := (← get).outbound.deleteWhere fun row => row.key = mid
  modify fun store => { store with outbound }
  return decide (0 < rowcount)

def outSummaryPages (pageSize : Int) : SqliteM (List (List OutboundMessageSummary)) := do
  fromExcept (tablePages (← get).outbound pageSize (rowToOutSummary codecs))

def outMeta (mid : Nat) : SqliteM (Option OutboundRecordMeta) := do
  match (← get).outbound.fetchOne mid with
  | none => return none
  | some row => do
    let (state, logicalSize, _) ← fromExcept (storedOutTransition row)
    return some { mid, state, logicalSize }

def completeOut (mid : Nat) (expected : OutboundQoSState) :
    SqliteM (Option OutboundRecordMeta) := do
  match (← get).outbound.fetchOne mid with
  | none => return none
  | some row => do
    let (state, logicalSize, seq) ← fromExcept (storedOutTransition row)
    if state ≠ expected then return none
    else do
      let (rowcount, outbound) := (← get).outbound.deleteWhere fun row =>
        row.key = mid ∧ row.columns.state = expected.code ∧ row.seq = seq
      modify fun store => { store with outbound }
      if rowcount = 0 then return none
      else return some { mid, state := expected, logicalSize }

/-- The `SET` clause of `transition_out`. -/
def assignedOut (next : OutboundQoSState) (compact : Bool) (columns : OutboundColumns) :
    OutboundColumns :=
  if compact then
    { columns with state := next.code, topic := [], properties := none, payload := [] }
  else { columns with state := next.code }

def transitionOut (mid : Nat) (expected next : OutboundQoSState) (compact : Bool) :
    SqliteM (Option OutboundRecordMeta) := do
  match (← get).outbound.fetchOne mid with
  | none => return none
  | some row => do
    let (state, logicalSize, seq) ← fromExcept (storedOutTransition row)
    if state ≠ expected then return none
    else do
      let (rowcount, outbound) := (← get).outbound.updateWhere
        (fun row => row.key = mid ∧ row.columns.state = expected.code ∧ row.seq = seq)
        (assignedOut next compact)
      modify fun store => { store with outbound }
      if rowcount = 0 then return none
      else return some { mid, state := next, logicalSize }

def putIn (message : InboundMessage) : SqliteM PUnit := do
  raiseIf (message.logicalSize = 0) invalidLogicalSize
  modify fun store => { store with inSeq := store.inSeq + 1 }
  let _ ← fromExcept (bindText message.topic)
  modify fun store =>
    { store with
      inbound := store.inbound.upsert message.mid store.inSeq (inColumns codecs message) }

def getIn (mid : Nat) : SqliteM (Option InboundMessage) := do
  match (← get).inbound.fetchOne mid with
  | none => return none
  | some row => do return some (← fromExcept (rowToIn codecs row))

/-- `_IN_REPLAY_INDEX_SQL`. -/
def replayIndex (table : Table InboundColumns) : Except Failure (List (Nat × Nat)) :=
  table.orderBySeq.mapM fun row => do return (← storedMid row.key, row.columns.logicalSize)

def inReplayPages (maxMessages maxBytes : Int) : SqliteM (List (List InboundMessage)) := do
  fromExcept (checkReplayLimits maxMessages maxBytes)
  let store ← get
  let index ← fromExcept (replayIndex store.inbound)
  fromExcept (hydratePages store.inbound (rowToIn codecs)
    (Store.replayGroups maxMessages.toNat maxBytes.toNat index [] 0))

def inMeta (mid : Nat) : SqliteM (Option InboundRecordMeta) := do
  match (← get).inbound.fetchOne mid with
  | none => return none
  | some row => do
    let (state, userAcked, delivered, logicalSize, _) ← fromExcept (storedInTransition row)
    return some { mid, state, userAcked, delivered, logicalSize }

def inIndexPages (pageSize : Int) : SqliteM (List (List InboundRecordMeta)) := do
  fromExcept (tablePages (← get).inbound pageSize rowToInMeta)

def markInDelivered (mid : Nat) : SqliteM Bool := do
  let (rowcount, inbound) := (← get).inbound.updateWhere
    (fun row => row.key = mid ∧ row.columns.delivered = 0)
    fun columns => { columns with delivered := 1 }
  modify fun store => { store with inbound }
  return decide (0 < rowcount)

/-- The `SET` clause of `transition_in`. -/
def assignedIn (next : InboundQoSState) (userAcked : Option Bool) (columns : InboundColumns) :
    InboundColumns :=
  match userAcked with
  | none => { columns with state := next.code }
  | some acked => { columns with state := next.code, userAcked := acked.toNat }

def transitionIn (mid : Nat) (expected next : InboundQoSState) (userAcked : Option Bool) :
    SqliteM (Option InboundRecordMeta) := do
  match (← get).inbound.fetchOne mid with
  | none => return none
  | some row => do
    let (state, oldUserAcked, delivered, logicalSize, seq) ← fromExcept (storedInTransition row)
    if state ≠ expected then return none
    else do
      let (rowcount, inbound) := (← get).inbound.updateWhere
        (fun row => row.key = mid ∧ row.columns.state = expected.code ∧
          row.columns.userAcked = oldUserAcked.toNat ∧ row.seq = seq)
        (assignedIn next userAcked)
      modify fun store => { store with inbound }
      if rowcount = 0 then return none
      else
        return some {
          mid, state := next, userAcked := userAcked.getD oldUserAcked, delivered, logicalSize }

def completeIn (mid : Nat) (expected : InboundQoSState) : SqliteM (Option InboundRecordMeta) := do
  match (← get).inbound.fetchOne mid with
  | none => return none
  | some row => do
    let (state, oldUserAcked, delivered, logicalSize, seq) ← fromExcept (storedInTransition row)
    if state ≠ expected then return none
    else do
      let (rowcount, inbound) := (← get).inbound.deleteWhere fun row =>
        row.key = mid ∧ row.columns.state = expected.code ∧
          row.columns.userAcked = oldUserAcked.toNat ∧ row.seq = seq
      modify fun store => { store with inbound }
      if rowcount = 0 then return none
      else
        return some { mid, state := expected, userAcked := oldUserAcked, delivered, logicalSize }

def perform : Operation → SqliteM Response
  | .putOut message => do putOut codecs message; return .none
  | .getOut mid => do return .outMessage (← getOut codecs mid)
  | .deleteOut mid => do return .flag (← deleteOut mid)
  | .outSummaryPages pageSize => do return .outSummaries (← outSummaryPages codecs pageSize)
  | .outMeta mid => do return .outMeta (← outMeta mid)
  | .completeOut mid expected => do return .outMeta (← completeOut mid expected)
  | .transitionOut mid expected next compact => do
    return .outMeta (← transitionOut mid expected next compact)
  | .clearOut => do
    modify fun store => { store with outbound := (store.outbound.deleteWhere fun _ => true).2 }
    return .none
  | .putIn message => do putIn codecs message; return .none
  | .getIn mid => do return .inMessage (← getIn codecs mid)
  | .inCount => do return .count (← get).inbound.length
  | .inReplayPages maxMessages maxBytes => do
    return .inMessages (← inReplayPages codecs maxMessages maxBytes)
  | .inMeta mid => do return .inMeta (← inMeta mid)
  | .inIndexPages pageSize => do return .inMetas (← inIndexPages pageSize)
  | .markInDelivered mid => do return .flag (← markInDelivered mid)
  | .transitionIn mid expected next userAcked => do
    return .inMeta (← transitionIn mid expected next userAcked)
  | .completeIn mid expected => do return .inMeta (← completeIn mid expected)
  | .clearIn => do
    modify fun store => { store with inbound := (store.inbound.deleteWhere fun _ => true).2 }
    return .none

end SqliteInflightStore

end Mqttium.Persistence
