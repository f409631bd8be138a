import Mqttium.Library.Statements
import Mqttium.Persistence.Transactions

/-! Two stores on one database. Each numbers the rows it inserts by a counter of its own,
which starts at the highest number of the table when the store is opened. A conditional
transition reads the row first; between the read and its statement the other store may
commit. -/

namespace Mqttium.Persistence

open Library

structure Counters where
  outSeq : Nat := 0
  inSeq : Nat := 0

inductive Party where
  | own
  | other
  deriving DecidableEq, Repr

/-- The database file and the store of each party. -/
structure Shared where
  tables : Tables := {}
  counters : Party → Counters := fun _ => {}

inductive Event where
  | call (operation : Operation)
  | reopen

/-- `SELECT COALESCE(MAX(seq), 0)`. -/
def maxSeq {Columns : Type} (table : Table Columns) : Nat :=
  table.foldl (fun highest row => max highest row.seq) 0

namespace Shared

variable (codecs : TextCodecs)

/-- The store of a party. -/
def store (shared : Shared) (party : Party) : SqliteInflightStore where
  outbound := shared.tables.outbound
  inbound := shared.tables.inbound
  outSeq := (shared.counters party).outSeq
  inSeq := (shared.counters party).inSeq

/-- What a party does and commits. -/
def step (shared : Shared) (party : Party) : Event → Shared
  | .call operation =>
    let after := (ended (SqliteInflightStore.perform codecs operation) (shared.store party)).2
    { tables := { outbound := after.outbound, inbound := after.inbound }
      counters := Function.update shared.counters party
        { outSeq := after.outSeq, inSeq := after.inSeq } }
  | .reopen =>
    { shared with
      counters := Function.update shared.counters party
        { outSeq := maxSeq shared.tables.outbound, inSeq := maxSeq shared.tables.inbound } }

def run (shared : Shared) (events : List (Party × Event)) : Shared :=
  events.foldl (fun shared event => shared.step codecs event.1 event.2) shared

/-- The other party acts alone. -/
def interfere (shared : Shared) (events : List Event) : Shared :=
  shared.run codecs (events.map fun event => (.other, event))

end Shared

/-- The conditional transitions of the store. -/
inductive Transition where
  | completeOut (mid : Nat) (expected : OutboundQoSState)
  | transitionOut (mid : Nat) (expected next : OutboundQoSState) (compact : Bool)
  | transitionIn (mid : Nat) (expected next : InboundQoSState) (userAcked : Option Bool)
  | completeIn (mid : Nat) (expected : InboundQoSState)

/-- What the metadata read found in a row of the expected state. -/
structure Observed where
  userAcked : Bool := false
  delivered : Bool := false
  logicalSize : Nat
  seq : Nat
  deriving DecidableEq, Repr

namespace Transition

def operation : Transition → Operation
  | completeOut mid expected => .completeOut mid expected
  | transitionOut mid expected next compact => .transitionOut mid expected next compact
  | transitionIn mid expected next userAcked => .transitionIn mid expected next userAcked
  | completeIn mid expected => .completeIn mid expected

/-- What the call returns when it changes nothing. -/
def nothing : Transition → Response
  | completeOut _ _ => .outMeta none
  | transitionOut _ _ _ _ => .outMeta none
  | transitionIn _ _ _ _ => .inMeta none
  | completeIn _ _ => .inMeta none

/-- `_out_transition_row`, up to the comparison with the expected state. -/
def readOut (tables : Tables) (mid : Nat) (expected : OutboundQoSState) :
    Except Failure (Option Observed) :=
  match tables.outbound.fetchOne mid with
  | none => .ok none
  | some row => do
    let (state, logicalSize, seq) ← storedOutTransition row
    return if state ≠ expected then none else some { logicalSize, seq }

/-- `_in_transition_row`, up to the comparison with the expected state. -/
def readIn (tables : Tables) (mid : Nat) (expected : InboundQoSState) :
    Except Failure (Option Observed) :=
  match tables.inbound.fetchOne mid with
  | none => .ok none
  | some row => do
    let (state, userAcked, delivered, logicalSize, seq) ← storedInTransition row
    return if state ≠ expected then none else some { userAcked, delivered, logicalSize, seq }

/-- The first half of the call: `none` when it returns without a statement. -/
def read (tables : Tables) : Transition → Except Failure (Option Observed)
  | completeOut mid expected => readOut tables mid expected
  | transitionOut mid expected _ _ => readOut tables mid expected
  | transitionIn mid expected _ _ => readIn tables mid expected
  | completeIn mid expected => readIn tables mid expected

/-- The second half: the statement repeats what was read, and a row count of zero is refused. -/
def mutate (tables : Tables) (seen : Observed) : Transition → Response × Tables
  | completeOut mid expected =>
    let (rowcount, outbound) := tables.outbound.deleteWhere fun row =>
      row.key = mid ∧ row.columns.state = expected.code ∧ row.seq = seen.seq
    (.outMeta (if rowcount = 0 then none
      else some { mid, state := expected, logicalSize := seen.logicalSize }),
      { tables with outbound })
  | transitionOut mid expected next compact =>
    let (rowcount, outbound) := tables.outbound.updateWhere
      (fun row => row.key = mid ∧ row.columns.state = expected.code ∧ row.seq = seen.seq)
      (SqliteInflightStore.assignedOut next compact)
    (.outMeta (if rowcount = 0 then none
      else some { mid, state := next, logicalSize := seen.logicalSize }),
      { tables with outbound })
  | transitionIn mid expected next userAcked =>
    let (rowcount, inbound) := tables.inbound.updateWhere
      (fun row => row.key = mid ∧ row.columns.state = expected.code ∧
        row.columns.userAcked = seen.userAcked.toNat ∧ row.seq = seen.seq)
      (SqliteInflightStore.assignedIn next userAcked)
    (.inMeta (if rowcount = 0 then none
      else some { mid, state := next, userAcked := userAcked.getD seen.userAcked
                  delivered := seen.delivered, logicalSize := seen.logicalSize }),
      { tables with inbound })
  | completeIn mid expected =>
    let (rowcount, inbound) := tables.inbound.deleteWhere fun row =>
      row.key = mid ∧ row.columns.state = expected.code ∧
        row.columns.userAcked = seen.userAcked.toNat ∧ row.seq = seen.seq
    (.inMeta (if rowcount = 0 then none
      else some { mid, state := expected, userAcked := seen.userAcked
                  delivered := seen.delivered, logicalSize := seen.logicalSize }),
      { tables with inbound })

end Transition

/-- How a call went: the tables its statement met, what it returned and what it left. -/
structure Attempt where
  met : Tables
  outcome : Response
  left : Tables

/-- One call, with what the other party commits between its read and its statement. -/
def Transition.attempt (codecs : TextCodecs) (transition : Transition) (shared : Shared)
    (between : List Event) : Except Failure Attempt := do
  match ← transition.read shared.tables with
  | none => return { met := shared.tables, outcome := transition.nothing, left := shared.tables }
  | some seen =>
    let met := (shared.interfere codecs between).tables
    let (outcome, left) := transition.mutate met seen
    return { met, outcome, left }

/-- The whole call in one step. -/
def Transition.atomically (codecs : TextCodecs) (transition : Transition) (tables : Tables) :
    Except Failure (Response × Tables) :=
  Write.statement codecs { operation := transition.operation, outSeq := 0, inSeq := 0 } tables

/-- The event puts a row in the place of the one the call is about. -/
def Event.replaces (transition : Transition) : Event → Prop
  | .call (.putOut message) =>
    match transition with
    | .completeOut mid _ | .transitionOut mid _ _ _ =>
      message.mid = mid ∧ message.logicalSize ≠ 0 ∧ message.topic.encodeUtf8.isSome = true
    | _ => False
  | .call (.putIn message) =>
    match transition with
    | .transitionIn mid _ _ _ | .completeIn mid _ =>
      message.mid = mid ∧ message.logicalSize ≠ 0 ∧ message.topic.encodeUtf8.isSome = true
    | _ => False
  | _ => False

/-- The call changes nothing, or it is one step on the tables as they were right before its
statement; and it settles no row that came in between. -/
structure Attempt.Atomic (codecs : TextCodecs) (transition : Transition) (between : List Event)
    (attempt : Attempt) : Prop where
  step : (attempt.outcome = transition.nothing ∧ attempt.left = attempt.met) ∨
    transition.atomically codecs attempt.met = .ok (attempt.outcome, attempt.left)
  stale : attempt.outcome ≠ transition.nothing → ∀ event ∈ between, ¬ event.replaces transition

/-- A row that passes for the one that was read is that one, with the flags it had. -/
def Transition.Recognised (transition : Transition) (before met : Tables) (between : List Event) :
    Prop :=
  ∀ seen current, transition.read before = .ok (some seen) →
    transition.read met = .ok (some current) → current.seq = seen.seq →
    current.userAcked = seen.userAcked →
    current.delivered = seen.delivered ∧ ∀ event ∈ between, ¬ event.replaces transition

end Mqttium.Persistence
