import Mqttium.Errors

/-! The inflight store. Both backends keep rows in insertion order under unique
packet identifiers; they differ in what a reader gets back. The memory backend
hands out the stored object itself, with the encodings cached on it; SQLite
builds a fresh record from the columns, which hold no encodings and no empty
property table. -/

namespace Mqttium.Persistence

open Library

inductive StoreKind where
  | memory
  | sqlite
  deriving DecidableEq, Repr

/-- A stored publication. `seq` numbers the insertions and is never reused; a
replaced row keeps its number and its place. -/
structure OutRow where
  seq : Nat
  message : OutboundMessage
  deriving DecidableEq, Repr

structure InRow where
  seq : Nat
  message : InboundMessage
  deriving DecidableEq, Repr

/-- The calls of the store contract that can fail. -/
inductive StoreCall where
  | putOut | getOut | deleteOut | outSummaryPage | outMeta | completeOut | transitionOut
  | putIn | getIn | inCount | inReplayPage | inMeta | markInDelivered | transitionIn | completeIn
  | clearIn
  deriving DecidableEq, Repr

/-- A failing call raises before or after it took effect. -/
inductive Fault where
  | beforeEffect
  | afterEffect
  deriving DecidableEq, Repr

structure Store where
  kind : StoreKind
  out : Dict Nat OutRow := .empty
  outSeq : Nat := 0
  inbound : Dict Nat InRow := .empty
  inSeq : Nat := 0
  /-- What each call will do, one entry consumed per call; an exhausted list no longer fails. -/
  faults : StoreCall → List (Option Fault) := fun _ => []

/-- Cut a list into pages of `size`; `fuel` bounds their number. -/
def pagesOf {Item : Type} (size : Nat) : Nat → List Item → List (List Item)
  | 0, _ => []
  | _ + 1, [] => []
  | fuel + 1, items => items.take size :: pagesOf size fuel (items.drop size)

theorem flatten_pagesOf {Item : Type} {size : Nat} (positive : 0 < size) (fuel : Nat)
    (items : List Item) (enough : items.length ≤ fuel) :
    (pagesOf size fuel items).flatten = items := by
  induction fuel generalizing items with
  | zero =>
    cases items with
    | nil => rfl
    | cons head rest => simp at enough
  | succ fuel ih =>
    cases items with
    | nil => rfl
    | cons head rest =>
      have shorter : ((head :: rest).drop size).length ≤ fuel := by
        simp only [List.length_drop, List.length_cons] at enough ⊢
        omega
      simp only [pagesOf, List.flatten_cons, ih _ shorter, List.take_append_drop]

namespace Store

/-- No call of the store fails. -/
def Reliable (store : Store) : Prop := ∀ call, store.faults call = []

/-- The fault of the next call, and the store with that entry consumed. -/
def nextFault (store : Store) (call : StoreCall) : Option Fault × Store :=
  match store.faults call with
  | [] => (none, store)
  | fault :: rest => (fault, { store with faults := Function.update store.faults call rest })

def outMessage? (store : Store) (mid : Nat) : Option OutboundMessage :=
  (store.out.get? mid).map OutRow.message

def inMessage? (store : Store) (mid : Nat) : Option InboundMessage :=
  (store.inbound.get? mid).map InRow.message

/-! Outbound rows -/

def putOut (store : Store) (message : OutboundMessage) : Store :=
  match store.out.get? message.mid with
  | some row =>
    { store with
      out := store.out.insert message.mid { row with message }
      outSeq := store.outSeq + 1 }
  | none =>
    { store with
      out := store.out.insert message.mid { seq := store.outSeq + 1, message }
      outSeq := store.outSeq + 1 }

/-- What `get_out` returns for a row. -/
def readOut (kind : StoreKind) (message : OutboundMessage) : OutboundMessage :=
  match kind with
  | .memory => message
  | .sqlite =>
    { message with
      encodedPublish := none
      encodedPubrel := none
      properties := if hasProperties message.properties then message.properties else none }

def getOut (store : Store) (mid : Nat) : Option OutboundMessage :=
  (store.outMessage? mid).map (readOut store.kind)

def deleteOut (store : Store) (mid : Nat) : Store := { store with out := store.out.erase mid }

def summaryOf (kind : StoreKind) (message : OutboundMessage) : OutboundMessageSummary :=
  .fromMessage (readOut kind message)

/-- The pages of `out_summary_pages`, as identifiers. -/
def outPages (store : Store) : List (List Nat) :=
  pagesOf 256 store.out.keys.length store.out.keys

/-- One page of `out_summary_pages`: the identifiers that still have a row. -/
def outSummaryPage (store : Store) (mids : List Nat) : List OutboundMessageSummary :=
  mids.filterMap fun mid => (store.outMessage? mid).map (summaryOf store.kind)

def outMeta (store : Store) (mid : Nat) : Option OutboundRecordMeta :=
  (store.outMessage? mid).map fun message =>
    { mid, state := message.state, logicalSize := message.logicalSize }

def completeOut (store : Store) (mid : Nat) (expected : OutboundQoSState) :
    Option OutboundRecordMeta × Store :=
  match store.outMessage? mid with
  | some message =>
    if message.state = expected then
      (some { mid, state := expected, logicalSize := message.logicalSize }, store.deleteOut mid)
    else (none, store)
  | none => (none, store)

/-- `compact` drops the application data: after PUBREC only the identifier is needed. -/
def compacted (message : OutboundMessage) : OutboundMessage :=
  { message with topic := [], payload := [], properties := none, encodedPublish := none }

def setOut (store : Store) (mid : Nat) (change : OutboundMessage → OutboundMessage) : Store :=
  { store with
    out := store.out.modify mid fun row => { row with message := change row.message } }

def transitionOut (store : Store) (mid : Nat) (expected next : OutboundQoSState)
    (compact : Bool := false) : Option OutboundRecordMeta × Store :=
  match store.outMessage? mid with
  | some message =>
    if message.state = expected then
      (some { mid, state := next, logicalSize := message.logicalSize },
        store.setOut mid fun stored =>
          let moved := { stored with state := next }
          if compact then compacted moved else moved)
    else (none, store)
  | none => (none, store)

/-- Assigning to a record that `get_out` returned: the memory backend shares it
with the row, SQLite does not. -/
def assignOut (store : Store) (message : OutboundMessage) : Store :=
  match store.kind with
  | .memory => store.setOut message.mid fun _ => message
  | .sqlite => store

/-! Inbound rows -/

def putIn (store : Store) (message : InboundMessage) : Store :=
  match store.inbound.get? message.mid with
  | some row =>
    { store with
      inbound := store.inbound.insert message.mid { row with message }
      inSeq := store.inSeq + 1 }
  | none =>
    { store with
      inbound := store.inbound.insert message.mid { seq := store.inSeq + 1, message }
      inSeq := store.inSeq + 1 }

def readIn (kind : StoreKind) (message : InboundMessage) : InboundMessage :=
  match kind with
  | .memory => message
  | .sqlite =>
    { message with
      properties := if hasProperties message.properties then message.properties else none }

def getIn (store : Store) (mid : Nat) : Option InboundMessage :=
  (store.inMessage? mid).map (readIn store.kind)

def inCount (store : Store) : Nat := store.inbound.size

def metaOf (message : InboundMessage) : InboundRecordMeta where
  mid := message.mid
  state := message.state
  userAcked := message.userAcked
  delivered := message.delivered
  logicalSize := message.logicalSize

def inMeta (store : Store) (mid : Nat) : Option InboundRecordMeta :=
  (store.inMessage? mid).map fun message => { metaOf message with mid }

/-- The replay index cut into pages of at most `maxMessages` identifiers and, but
for a single larger row, at most `maxBytes` of stored size. -/
def replayGroups (maxMessages maxBytes : Nat) :
    List (Nat × Nat) → List Nat → Nat → List (List Nat)
  | [], mids, _ => if mids = [] then [] else [mids]
  | (mid, size) :: rest, mids, bytes =>
    let full := mids ≠ [] ∧ (maxMessages ≤ mids.length ∨ maxBytes < bytes + size)
    let flushed := if full then [mids] else []
    let mids := (if full then [] else mids) ++ [mid]
    let bytes := (if full then 0 else bytes) + size
    if maxMessages ≤ mids.length ∨ maxBytes ≤ bytes then
      flushed ++ mids :: replayGroups maxMessages maxBytes rest [] 0
    else
      flushed ++ replayGroups maxMessages maxBytes rest mids bytes

/-- `in_replay_pages`, before any page is hydrated. -/
def inReplayGroups (store : Store) (maxMessages maxBytes : Nat) : List (List Nat) :=
  replayGroups maxMessages maxBytes
    (store.inbound.entries.map fun entry => (entry.1, entry.2.message.logicalSize)) [] 0

/-- Hydrate a page: the identifiers that still have a row, each with its row number. -/
def hydratePage (store : Store) (mids : List Nat) : List InRow :=
  mids.filterMap fun mid => (store.inbound.get? mid).map fun row =>
    { row with message := readIn store.kind row.message }

def setIn (store : Store) (mid : Nat) (change : InboundMessage → InboundMessage) : Store :=
  { store with
    inbound := store.inbound.modify mid fun row => { row with message := change row.message } }

def markInDelivered (store : Store) (mid : Nat) : Bool × Store :=
  match store.inMessage? mid with
  | some message =>
    if message.delivered then (false, store)
    else (true, store.setIn mid fun stored => { stored with delivered := true })
  | none => (false, store)

def transitionIn (store : Store) (mid : Nat) (expected next : InboundQoSState)
    (userAcked : Option Bool := none) : Option InboundRecordMeta × Store :=
  match store.inMessage? mid with
  | some message =>
    if message.state = expected then
      let moved := { message with state := next, userAcked := userAcked.getD message.userAcked }
      (some { metaOf moved with mid }, store.setIn mid fun _ => moved)
    else (none, store)
  | none => (none, store)

def completeIn (store : Store) (mid : Nat) (expected : InboundQoSState) :
    Option InboundRecordMeta × Store :=
  match store.inMessage? mid with
  | some message =>
    if message.state = expected then
      (some { metaOf message with mid }, { store with inbound := store.inbound.erase mid })
    else (none, store)
  | none => (none, store)

def clearIn (store : Store) : Store := { store with inbound := .empty }

end Store

end Mqttium.Persistence
