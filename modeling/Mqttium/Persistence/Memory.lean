import Mqttium.Library.Raising
import Mqttium.Persistence.Operations

/-! The in-memory backend: two insertion-ordered dictionaries. -/

namespace Mqttium.Persistence

open Library

/-- Insertion order is retransmission order. -/
structure MemoryInflightStore where
  out : Dict Nat OutboundMessage := .empty
  inbound : Dict Nat InboundMessage := .empty

abbrev MemoryM := EStateM Failure MemoryInflightStore

namespace MemoryInflightStore

def putOut (message : OutboundMessage) : MemoryM PUnit := do
  raiseIf (message.logicalSize = 0) invalidLogicalSize
  modify fun store => { store with out := store.out.insert message.mid message }

def deleteOut (mid : Nat) : MemoryM Bool := do
  let store ← get
  modify fun store => { store with out := store.out.erase mid }
  return (store.out.get? mid).isSome

/-- Page a record table: the identifiers first, the records of a page when it is
read, no page without records. -/
def pages {Record : Type} (records : Dict Nat Record) (pageSize : Int) :
    Except Failure (List (List Record)) :=
  if pageSize ≤ 0 then .error invalidPageSize
  else
    .ok (((pagesOf pageSize.toNat records.keys.length records.keys).map fun page =>
      page.filterMap records.get?).filter (!List.isEmpty ·))

def outSummaryPages (pageSize : Int) : MemoryM (List (List OutboundMessageSummary)) := do
  let store ← get
  let listed ← fromExcept (pages store.out pageSize)
  return listed.map (List.map OutboundMessageSummary.fromMessage)

def outMeta (mid : Nat) : MemoryM (Option OutboundRecordMeta) := do
  let store ← get
  return (store.out.get? mid).map fun message =>
    { mid, state := message.state, logicalSize := message.logicalSize }

def completeOut (mid : Nat) (expected : OutboundQoSState) :
    MemoryM (Option OutboundRecordMeta) := do
  match (← get).out.get? mid with
  | none => return none
  | some message =>
    if message.state = expected then do
      let _ ← deleteOut mid
      return some { mid, state := expected, logicalSize := message.logicalSize }
    else return none

/-- The record after a transition; `compact` ends the PUBLISH phase. -/
def movedOut (next : OutboundQoSState) (compact : Bool) (message : OutboundMessage) :
    OutboundMessage :=
  let moved := { message with state := next }
  if compact then Store.compacted moved else moved

def transitionOut (mid : Nat) (expected next : OutboundQoSState) (compact : Bool) :
    MemoryM (Option OutboundRecordMeta) := do
  match (← get).out.get? mid with
  | none => return none
  | some message =>
    if message.state = expected then do
      modify fun store => { store with out := store.out.modify mid (movedOut next compact) }
      return some { mid, state := next, logicalSize := message.logicalSize }
    else return none

def putIn (message : InboundMessage) : MemoryM PUnit := do
  raiseIf (message.logicalSize = 0) invalidLogicalSize
  modify fun store => { store with inbound := store.inbound.insert message.mid message }

/-- The replay index: identifiers and sizes in insertion order. -/
def replayIndex (records : Dict Nat InboundMessage) : List (Nat × Nat) :=
  records.values.map fun message => (message.mid, message.logicalSize)

def inReplayPages (maxMessages maxBytes : Int) : MemoryM (List (List InboundMessage)) := do
  fromExcept (checkReplayLimits maxMessages maxBytes)
  let store ← get
  let groups :=
    Store.replayGroups maxMessages.toNat maxBytes.toNat (replayIndex store.inbound) [] 0
  return (groups.map fun page => page.filterMap store.inbound.get?).filter (!List.isEmpty ·)

def metaFor (mid : Nat) (message : InboundMessage) : InboundRecordMeta where
  mid
  state := message.state
  userAcked := message.userAcked
  delivered := message.delivered
  logicalSize := message.logicalSize

def inMeta (mid : Nat) : MemoryM (Option InboundRecordMeta) := do
  return ((← get).inbound.get? mid).map (metaFor mid)

def inIndexPages (pageSize : Int) : MemoryM (List (List InboundRecordMeta)) := do
  let store ← get
  raiseIf (pageSize ≤ 0) invalidPageSize
  return ((pagesOf pageSize.toNat store.inbound.keys.length store.inbound.keys).map fun page =>
    page.filterMap fun mid => (store.inbound.get? mid).map (metaFor mid)).filter (!List.isEmpty ·)

def markInDelivered (mid : Nat) : MemoryM Bool := do
  match (← get).inbound.get? mid with
  | none => return false
  | some message =>
    if message.delivered then return false
    else do
      modify fun store =>
        { store with
          inbound := store.inbound.modify mid fun message => { message with delivered := true } }
      return true

def movedIn (next : InboundQoSState) (userAcked : Option Bool) (message : InboundMessage) :
    InboundMessage :=
  { message with state := next, userAcked := userAcked.getD message.userAcked }

def transitionIn (mid : Nat) (expected next : InboundQoSState) (userAcked : Option Bool) :
    MemoryM (Option InboundRecordMeta) := do
  match (← get).inbound.get? mid with
  | none => return none
  | some message =>
    if message.state = expected then do
      modify fun store =>
        { store with inbound := store.inbound.modify mid (movedIn next userAcked) }
      return some (metaFor mid (movedIn next userAcked message))
    else return none

def completeIn (mid : Nat) (expected : InboundQoSState) : MemoryM (Option InboundRecordMeta) := do
  match (← get).inbound.get? mid with
  | none => return none
  | some message =>
    if message.state = expected then do
      modify fun store => { store with inbound := store.inbound.erase mid }
      return some (metaFor mid message)
    else return none

def perform : Operation → MemoryM Response
  | .putOut message => do putOut message; return .none
  | .getOut mid => do return .outMessage ((← get).out.get? mid)
  | .deleteOut mid => do return .flag (← deleteOut mid)
  | .outSummaryPages pageSize => do return .outSummaries (← outSummaryPages pageSize)
  | .outMeta mid => do return .outMeta (← outMeta mid)
  | .completeOut mid expected => do return .outMeta (← completeOut mid expected)
  | .transitionOut mid expected next compact => do
    return .outMeta (← transitionOut mid expected next compact)
  | .clearOut => do
    modify fun store => { store with out := .empty }
    return .none
  | .putIn message => do putIn message; return .none
  | .getIn mid => do return .inMessage ((← get).inbound.get? mid)
  | .inCount => do return .count (← get).inbound.size
  | .inReplayPages maxMessages maxBytes => do
    return .inMessages (← inReplayPages maxMessages maxBytes)
  | .inMeta mid => do return .inMeta (← inMeta mid)
  | .inIndexPages pageSize => do return .inMetas (← inIndexPages pageSize)
  | .markInDelivered mid => do return .flag (← markInDelivered mid)
  | .transitionIn mid expected next userAcked => do
    return .inMeta (← transitionIn mid expected next userAcked)
  | .completeIn mid expected => do return .inMeta (← completeIn mid expected)
  | .clearIn => do
    modify fun store => { store with inbound := .empty }
    return .none

end MemoryInflightStore

end Mqttium.Persistence
