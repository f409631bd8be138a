import Mqttium.Library.Database
import Mqttium.Persistence.Sqlite

/-! The transactions of the SQLite backend: what each mutation does on the connection,
and the nested batches that share one transaction. -/

namespace Mqttium.Persistence

open Library

structure Tables where
  outbound : Table OutboundColumns := []
  inbound : Table InboundColumns := []

/-- A mutation with the insertion counters it was given. -/
structure Write where
  operation : Operation
  outSeq : Nat
  inSeq : Nat

/-- The store as an owner of a connection; the tables are the connection's. -/
structure DurableStore where
  database : Database Tables := { durable := {} }
  outSeq : Nat := 0
  inSeq : Nat := 0
  batchDepth : Nat := 0
  transactionStarted : Bool := false
  rollbackOnly : Bool := false
  closed : Bool := false
  -- The source stores none of what follows: the calls answered so far, the mutations that
  -- succeeded in the outermost batch, whether a failing call took any of them back, and
  -- how many times an exception has crossed the boundary of a batch.
  calls : Nat := 0
  writes : List Write := []
  lost : Bool := false
  crossings : Nat := 0

abbrev DurableM := EStateM Failure DurableStore

section Statements

variable (codecs : TextCodecs)

/-- The statement of a mutation. -/
def Write.statement (write : Write) (tables : Tables) : Except Failure (Response × Tables) :=
  match SqliteInflightStore.perform codecs write.operation
      { outbound := tables.outbound, inbound := tables.inbound
        outSeq := write.outSeq, inSeq := write.inSeq } with
  | .ok response after =>
    .ok (response, { outbound := after.outbound, inbound := after.inbound })
  | .error failure _ => .error failure

def Write.apply (write : Write) (tables : Tables) : Tables :=
  match write.statement codecs tables with
  | .ok (_, next) => next
  | .error _ => tables

/-- The mutations one after another. -/
def replay (writes : List Write) (tables : Tables) : Tables :=
  writes.foldl (fun tables write => write.apply codecs tables) tables

end Statements

/-- The calls that read rows first. -/
def Operation.selects : Operation → Bool
  | .putOut _ | .deleteOut _ | .clearOut | .putIn _ | .markInDelivered _ | .clearIn => false
  | _ => true

/-- Whether the call gets as far as a statement that writes, or returns or raises before. -/
def Operation.mutates (store : SqliteInflightStore) : Operation → Bool
  | .putOut message => message.logicalSize ≠ 0
  | .putIn message => message.logicalSize ≠ 0
  | .deleteOut _ | .clearOut | .markInDelivered _ | .clearIn => true
  | .completeOut mid expected | .transitionOut mid expected _ _ =>
    match store.outbound.fetchOne mid with
    | none => false
    | some row =>
      match storedOutTransition row with
      | .ok (state, _) => state = expected
      | .error _ => false
  | .completeIn mid expected | .transitionIn mid expected _ _ =>
    match store.inbound.fetchOne mid with
    | none => false
    | some row =>
      match storedInTransition row with
      | .ok (state, _) => state = expected
      | .error _ => false
  | _ => false

namespace DurableStore

/-- What a read sees: the open transaction, if there is one. -/
def contents (store : DurableStore) : SqliteInflightStore where
  outbound := store.database.view.outbound
  inbound := store.database.view.inbound
  outSeq := store.outSeq
  inSeq := store.inSeq

/-- The insertion counter advances before the statement runs. -/
def number (operation : Operation) (store : DurableStore) : DurableStore :=
  match operation with
  | .putOut _ => { store with outSeq := store.outSeq + 1 }
  | .putIn _ => { store with inSeq := store.inSeq + 1 }
  | _ => store

section

variable (codecs : TextCodecs) (replies : Nat → Reply)

/-- The connection has answered a call. -/
def answered (store : DurableStore) (database : Database Tables) : DurableStore :=
  { store with
    database
    calls := store.calls + 1
    lost := store.lost || (replies store.calls = .rolledBack && store.database.working.isSome &&
      !store.writes.isEmpty) }

def call {Value : Type} (program : Reply → EStateM Failure (Database Tables) Value) :
    DurableM Value := fun store =>
  match program (replies store.calls) store.database with
  | .ok value database => .ok value (store.answered replies database)
  | .error failure database => .error failure (store.answered replies database)

/-- Open the batch transaction on its first actual mutation. -/
def ensureWriteTransaction : DurableM PUnit := do
  let store ← get
  onlyIf (store.batchDepth ≠ 0 ∧ store.transactionStarted = false) do
    call replies (Database.beginImmediate .backend)
    modify fun store => { store with transactionStarted := true }

/-- Roll back after a failure, or close the store if that also fails. -/
def rollbackOrClose : DurableM PUnit := do
  match ← attempt (call replies (Database.rollback .backend)) with
  | .ok _ => return ⟨⟩
  | .error _ => modify fun store => { store with database := store.database.close, closed := true }

def commit : DurableM PUnit := do
  match ← attempt (call replies (Database.commit .backend)) with
  | .ok _ => return ⟨⟩
  | .error failure => do
    rollbackOrClose replies
    throw failure

def commitIfNeeded : DurableM PUnit := do
  onlyIf ((← get).batchDepth = 0) (commit replies)

/-- A call whose reads, if it has any, have been answered. -/
def mutate (operation : Operation) : DurableM Response := do
  let store ← get
  if operation.mutates store.contents = true then do
    ensureWriteTransaction replies
    modify (number operation)
    let write : Write := { operation, outSeq := store.outSeq, inSeq := store.inSeq }
    let response ← call replies fun reply =>
      Database.execute .backend reply (write.statement codecs)
    modify fun store => { store with writes := store.writes ++ [write] }
    commitIfNeeded replies
    return response
  else
    match SqliteInflightStore.perform codecs operation store.contents with
    | .ok response _ => return response
    | .error failure _ => throw failure

/-- One call of the store. -/
def perform (operation : Operation) : DurableM Response := do
  onlyIf (operation.selects = true) (call replies (Database.select .backend))
  mutate codecs replies operation

def nestedBatchFailure : Failure := .runtime "Cannot commit SQLite batch after nested batch failure"

/-- Go into a batch. -/
def enter (store : DurableStore) : DurableStore :=
  if store.batchDepth = 0 then
    { store with batchDepth := 1, rollbackOnly := false, writes := [], lost := false }
  else { store with batchDepth := store.batchDepth + 1 }

/-- An exception crosses the boundary of the batch. -/
def cross (outermost : Prop) [Decidable outermost] : DurableM PUnit := do
  modify fun store =>
    { store with
      batchDepth := store.batchDepth - 1, rollbackOnly := true, crossings := store.crossings + 1 }
  onlyIf outermost do
    onlyIf ((← get).transactionStarted = true) (rollbackOrClose replies)
    modify fun store => { store with transactionStarted := false, rollbackOnly := false }

/-- The outermost batch is left normally. -/
def conclude : DurableM PUnit := do
  if (← get).rollbackOnly = false then do
    let committed ← attempt (onlyIf ((← get).transactionStarted = true) (commit replies))
    modify fun store => { store with transactionStarted := false }
    fromExcept committed
  else do
    onlyIf ((← get).transactionStarted = true) (rollbackOrClose replies)
    modify fun store => { store with transactionStarted := false, rollbackOnly := false }
    throw nestedBatchFailure

/-- Leave a batch whose block has ended so. -/
def leave (outermost : Prop) [Decidable outermost] : Except Failure PUnit → DurableM PUnit
  | .error failure => do
    cross replies outermost
    throw failure
  | .ok _ => do
    modify fun store => { store with batchDepth := store.batchDepth - 1 }
    onlyIf outermost (conclude replies)

/-- Group mutations into one durable transaction. -/
def batch (block : DurableM PUnit) : DurableM PUnit := do
  let outermost := (← get).batchDepth = 0
  modify enter
  leave replies outermost (← attempt block)

end

end DurableStore

/-- A program that uses the store: it sees how every call and every block ended, and goes
on, ends or raises as it likes. -/
inductive Program where
  | done (outcome : Except Failure PUnit)
  | call (operation : Operation) (next : Except Failure Response → Program)
  | batch (block : Program) (next : Except Failure PUnit → Program)

namespace Program

variable (codecs : TextCodecs) (replies : Nat → Reply)

def run : Program → DurableM PUnit
  | .done outcome => fromExcept outcome
  | .call operation next => do
    let answer ← attempt (DurableStore.perform codecs replies operation)
    (next answer).run
  | .batch block next => do
    let outcome ← attempt (DurableStore.batch replies block.run)
    (next outcome).run

end Program

end Mqttium.Persistence
