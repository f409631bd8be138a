import Mathlib.Data.Finset.Card
import Mathlib.Data.Finset.Dedup
import Mqttium.Enums
import Mqttium.Library.Dict

/-! What the outbound direction is for, without its packets: a ledger of
publications, the moves that change it and what an observer of the client sees.
Packet identifiers name the publications of the moment; the store's row number
names a publication for ever. -/

namespace Mqttium

open Library

/-- What the accounting needs of a stored publication. -/
structure Entry where
  seq : Nat
  state : OutboundQoSState
  size : Nat
  deriving DecidableEq, Repr

/-- The packets a publication sends. -/
inductive Sent where
  | publish (dup : Bool)
  | pubrel
  deriving DecidableEq, Repr

/-- What is seen of the publications, named by their row numbers. -/
inductive Event where
  /-- A row found in the store; `sent` when an earlier process sent its PUBLISH. -/
  | recovered (seq mid : Nat) (sent : Bool)
  | admitted (seq mid : Nat)
  /-- An accepted CONNACK: session present and the broker's Receive Maximum. -/
  | session (present : Bool) (receiveMaximum : Nat)
  | sent (seq : Nat) (packet : Sent)
  /-- A successful PUBREC of an open exchange. -/
  | advanced (seq : Nat)
  /-- The terminal acknowledgement: PUBACK, PUBCOMP or a negative PUBREC. -/
  | answered (seq : Nat)
  | reported (seq : Nat)
  | sealed (seq : Nat)
  /-- A PUBLISH or a report under an identifier that names no publication. -/
  | foreign
  deriving DecidableEq, Repr

/-- What is seen under an identifier that names a publication, or nobody. -/
def Event.of (name : Option Nat) (event : Nat → Event) : Event := (name.map event).getD .foreign

@[simp] theorem Event.of_some (seq : Nat) (event : Nat → Event) : Event.of (some seq) event = event seq :=
  rfl

/-- What an observer of the events remembers. -/
structure Observer where
  /-- Exchanges whose PUBLISH left on this connection, in order. -/
  published : List Nat := []
  /-- Exchanges terminally answered on this connection. -/
  answered : List Nat := []
  /-- Exchanges whose PUBLISH left within this broker session. -/
  sessionSent : List Nat := []
  receiveMaximum : Nat := 0
  /-- A connection was accepted and nothing was sealed since. -/
  intact : Bool := false
  deriving DecidableEq, Repr

namespace Observer

def see (observer : Observer) : Event → Observer
  | .recovered seq _ true => { observer with sessionSent := observer.sessionSent ++ [seq] }
  | .session present receiveMaximum =>
    { published := [], answered := [], receiveMaximum, intact := true
      sessionSent := if present then observer.sessionSent else [] }
  | .sent seq (.publish _) =>
    { observer with
      published := observer.published ++ [seq]
      sessionSent := observer.sessionSent ++ [seq] }
  | .answered seq => { observer with answered := observer.answered ++ [seq] }
  | .sealed _ => { observer with intact := false }
  | _ => observer

/-- The publications of this connection that are not terminally answered on it. -/
def outstanding (observer : Observer) : Finset Nat :=
  observer.published.toFinset \ observer.answered.toFinset

end Observer

/-- What the observer remembers after the events of a log, oldest first. -/
def observe (log : List Event) : Observer := log.foldl Observer.see {}

@[simp] theorem observe_nil : observe [] = {} := rfl

@[simp] theorem observe_append (log : List Event) (event : Event) :
    observe (log ++ [event]) = (observe log).see event := by
  simp [observe, List.foldl_append]

structure Ledger where
  rows : Dict Nat Entry := .empty
  /-- The number of the last insertion. -/
  lastSeq : Nat := 0
  sealed : Dict Nat Bool := .empty
  /-- Identifiers the pool has given out, and those of subscription requests. -/
  used : Finset Nat := ∅
  subs : Finset Nat := ∅
  messages : Nat := 0
  bytes : Nat := 0
  queue : List Nat := []
  parked : Finset Nat := ∅
  holders : Finset Nat := ∅
  limit : Nat := 1
  /-- The local bound on the window. -/
  cap : Option Nat := none
  /-- A discarded session is being settled: in-flight rows may be left over. -/
  settling : Bool := false
  log : List Event := []

namespace OutboundQoSState

/-- The PUBLISH was sent and waits for its first acknowledgement. -/
def waiting (state : OutboundQoSState) : Bool :=
  state == .waitPuback || state == .waitPubrec

end OutboundQoSState

namespace Ledger

def isSealed (ledger : Ledger) (mid : Nat) : Bool := ledger.sealed.contains mid

def note (ledger : Ledger) (event : Event) : Ledger := { ledger with log := ledger.log ++ [event] }

/-- Take `mid` out of the queue and of the parked set. -/
def unqueue (ledger : Ledger) (mid : Nat) : Ledger :=
  { ledger with queue := ledger.queue.erase mid, parked := ledger.parked.erase mid }

def setState (ledger : Ledger) (mid : Nat) (state : OutboundQoSState) : Ledger :=
  { ledger with rows := ledger.rows.modify mid fun entry => { entry with state } }

def acquire (ledger : Ledger) (mid : Nat) : Ledger :=
  { ledger with holders := insert mid ledger.holders }

def releaseSlot (ledger : Ledger) (mid : Nat) : Ledger :=
  { ledger with holders := ledger.holders.erase mid }

/-- Delete a row and free its identifier. -/
def forget (ledger : Ledger) (mid : Nat) : Ledger :=
  { ledger with rows := ledger.rows.erase mid, used := ledger.used.erase mid }

/-- Give back the budget of one publication. -/
def refund (ledger : Ledger) (size : Nat) : Ledger :=
  { ledger with messages := ledger.messages - 1, bytes := ledger.bytes - size }

def clearSeal (ledger : Ledger) (mid : Nat) : Ledger :=
  { ledger with sealed := ledger.sealed.erase mid }

/-- Store a new publication under a free identifier. -/
def store (ledger : Ledger) (mid : Nat) (state : OutboundQoSState) (size : Nat) : Ledger :=
  { ledger with
    rows := ledger.rows.insert mid { seq := ledger.lastSeq + 1, state, size }
    lastSeq := ledger.lastSeq + 1
    used := insert mid ledger.used
    messages := ledger.messages + 1
    bytes := ledger.bytes + size
    log := ledger.log ++ [.admitted (ledger.lastSeq + 1) mid] }

/-- Admission to the queue. -/
def admitQueued (ledger : Ledger) (mid size : Nat) : Ledger :=
  let stored := ledger.store mid .queued size
  { stored with queue := stored.queue ++ [mid] }

/-- Admission straight to the wire. -/
def admitLaunched (ledger : Ledger) (mid size : Nat) (target : OutboundQoSState) : Ledger :=
  ((ledger.store mid target size).acquire mid).note (.sent (ledger.lastSeq + 1) (.publish false))

def launch (ledger : Ledger) (mid : Nat) (entry : Entry) (target : OutboundQoSState) : Ledger :=
  (((ledger.setState mid target).unqueue mid).acquire mid).note (.sent entry.seq (.publish false))

def resend (ledger : Ledger) (mid : Nat) (entry : Entry) : Ledger :=
  ((ledger.unqueue mid).acquire mid).note (.sent entry.seq (.publish true))

/-- Give a publication up and report it. -/
def drop (ledger : Ledger) (mid : Nat) (entry : Entry) : Ledger :=
  (((ledger.forget mid).refund entry.size).unqueue mid).note (.reported entry.seq)

/-- The terminal acknowledgement of a live publication. -/
def settle (ledger : Ledger) (mid : Nat) (entry : Entry) : Ledger :=
  ((((((ledger.note (.answered entry.seq)).forget mid).refund entry.size).unqueue mid).releaseSlot
    mid).note (.reported entry.seq))

/-- The terminal acknowledgement of a sealed publication. -/
def settleSealed (ledger : Ledger) (mid : Nat) (entry : Entry) : Ledger :=
  ((((ledger.note (.answered entry.seq)).forget mid).clearSeal mid).note (.reported entry.seq))

/-- The end of a sealed publication whose session is gone. -/
def dropSealed (ledger : Ledger) (mid : Nat) : Ledger := (ledger.forget mid).clearSeal mid

/-- A successful PUBREC, answered by PUBREL. -/
def advance (ledger : Ledger) (mid : Nat) (entry : Entry) : Ledger :=
  ((((ledger.note (.advanced entry.seq)).setState mid .waitPubcomp).unqueue mid).note
    (.sent entry.seq .pubrel))

def sealRow (ledger : Ledger) (mid : Nat) (entry : Entry) : Ledger :=
  let sealed : Ledger := { ledger with
    sealed := ledger.sealed.insert mid (decide (entry.state ≠ OutboundQoSState.queued)) }
  ((((sealed.refund entry.size).unqueue mid).releaseSlot mid).note (.sealed entry.seq))

def subscribe (ledger : Ledger) (mid : Nat) : Ledger :=
  { ledger with used := insert mid ledger.used, subs := insert mid ledger.subs }

def unsubscribe (ledger : Ledger) (mid : Nat) : Ledger :=
  { ledger with used := ledger.used.erase mid, subs := ledger.subs.erase mid }

/-- Connection-scoped requests end with the connection. -/
def endSubs (ledger : Ledger) : Ledger :=
  { ledger with used := ledger.used \ ledger.subs, subs := ∅ }

/-- The identifiers of the live rows in a kind of state, in store order. -/
def live (ledger : Ledger) (kind : OutboundQoSState → Bool) : List Nat :=
  (ledger.rows.entries.filter fun row => !ledger.isSealed row.1 && kind row.2.state).map Prod.fst

/-- A resumed session: whatever the broker has not acknowledged lines up again,
never sent and sent alike, the latter parked until they get a slot. -/
def resume (ledger : Ledger) (receiveMaximum limit : Nat) : Ledger :=
  { ledger with
    queue := ledger.live fun state => state == .queued || state.waiting
    parked := (ledger.live OutboundQoSState.waiting).toFinset
    holders := ∅
    limit
    log := ledger.log ++ [.session true receiveMaximum] }

/-- A live QoS 1 exchange of a lost session counts as never sent. -/
def requeue (ledger : Ledger) (mid : Nat) (entry : Entry) : Entry :=
  if ledger.isSealed mid = false ∧ entry.state = .waitPuback then { entry with state := .queued }
  else entry

/-- A discarded session: live QoS 1 work goes back before the queue as never sent. -/
def restart (ledger : Ledger) (receiveMaximum limit : Nat) : Ledger :=
  let requeued := ledger.live (· == .waitPuback)
  { ledger with
    rows := ledger.rows.mapEntries ledger.requeue
    queue := requeued ++ ledger.queue.filter (· ∉ ledger.parked)
    parked := ∅
    holders := ∅
    limit
    settling := true
    log := ledger.log ++ [.session false receiveMaximum] }

/-- A row found in the store at start, with the slot it takes when one is free. -/
def recover (ledger : Ledger) (mid : Nat) (entry : Entry) (held : Bool) : Ledger :=
  { ledger with
    rows := ledger.rows.insert mid entry
    used := insert mid ledger.used
    messages := ledger.messages + 1
    bytes := ledger.bytes + entry.size
    queue := if entry.state = .queued then ledger.queue ++ [mid] else ledger.queue
    holders := if held then insert mid ledger.holders else ledger.holders
    log := ledger.log ++ [.recovered entry.seq mid (decide (entry.state ≠ .queued))] }

/-- The window of a connection keeps to the broker's Receive Maximum and to the local cap. -/
def Fits (cap : Option Nat) (receiveMaximum limit : Nat) : Prop :=
  limit ≤ receiveMaximum ∧ ∀ bound, cap = some bound → limit ≤ bound

/-- A slot of the send quota is free. -/
def hasSlot (ledger : Ledger) : Prop := ledger.holders.card < ledger.limit

/-- A row can be recovered: nothing but earlier rows has been recovered before it. -/
structure Recoverable (ledger : Ledger) (mid : Nat) (entry : Entry) (held : Bool) : Prop where
  free : mid ∉ ledger.used
  later : ∀ other stored, ledger.rows.get? other = some stored → stored.seq < entry.seq
  early : ∀ event ∈ ledger.log, ∃ seq mid sent, event = .recovered seq mid sent ∧ seq < entry.seq
  known : entry.seq ≤ ledger.lastSeq
  positive : 0 < entry.size
  unfinished : entry.state ≠ .done
  slot : held = true → ledger.hasSlot ∧ entry.state ≠ .queued

/-- A publication can be admitted straight to the wire. -/
structure Launchable (ledger : Ledger) (mid size : Nat) (target : OutboundQoSState) : Prop where
  free : mid ∉ ledger.used
  positive : 0 < size
  waits : target.waiting = true
  slot : ledger.hasSlot
  calm : ledger.settling = false

/-- The moves inside calls. Each names what the program has checked before it. -/
inductive Move : Ledger → Ledger → Prop where
  | admitQueued {ledger : Ledger} {mid size : Nat} (free : mid ∉ ledger.used) (positive : 0 < size) :
      Move ledger (ledger.admitQueued mid size)
  | launch {ledger : Ledger} {mid : Nat} {entry : Entry} {target : OutboundQoSState}
      {rest : List Nat} (head : ledger.queue = mid :: rest)
      (found : ledger.rows.get? mid = some entry) (queued : entry.state = .queued)
      (waits : target.waiting = true) (slot : ledger.hasSlot) (calm : ledger.settling = false) :
      Move ledger (ledger.launch mid entry target)
  | resend {ledger : Ledger} {mid : Nat} {entry : Entry} {earlier later : List Nat}
      (place : ledger.queue = earlier ++ mid :: later)
      (unsent : ∀ other ∈ earlier, other ∉ ledger.parked)
      (parked : mid ∈ ledger.parked) (found : ledger.rows.get? mid = some entry)
      (slot : ledger.hasSlot) (calm : ledger.settling = false) :
      Move ledger (ledger.resend mid entry)
  | drop {ledger : Ledger} {mid : Nat} {entry : Entry} (found : ledger.rows.get? mid = some entry)
      (live : ledger.isSealed mid = false) (idle : mid ∉ ledger.holders) :
      Move ledger (ledger.drop mid entry)
  | settle {ledger : Ledger} {mid : Nat} {entry : Entry} (found : ledger.rows.get? mid = some entry)
      (live : ledger.isSealed mid = false) : Move ledger (ledger.settle mid entry)
  | settleSealed {ledger : Ledger} {mid : Nat} {entry : Entry}
      (found : ledger.rows.get? mid = some entry) (dead : ledger.isSealed mid = true) :
      Move ledger (ledger.settleSealed mid entry)
  | dropSealed {ledger : Ledger} {mid : Nat} (dead : ledger.isSealed mid = true) :
      Move ledger (ledger.dropSealed mid)
  | advance {ledger : Ledger} {mid : Nat} {entry : Entry}
      (found : ledger.rows.get? mid = some entry) (expected : entry.state = .waitPubrec) :
      Move ledger (ledger.advance mid entry)
  | release {ledger : Ledger} {mid : Nat} {entry : Entry}
      (found : ledger.rows.get? mid = some entry) (expected : entry.state = .waitPubcomp) :
      Move ledger (ledger.note (.sent entry.seq .pubrel))
  | sealRow {ledger : Ledger} {mid : Nat} {entry : Entry} (found : ledger.rows.get? mid = some entry)
      (live : ledger.isSealed mid = false) : Move ledger (ledger.sealRow mid entry)
  | subscribe {ledger : Ledger} {mid : Nat} (free : mid ∉ ledger.used) :
      Move ledger (ledger.subscribe mid)
  | unsubscribe {ledger : Ledger} {mid : Nat} (pending : mid ∈ ledger.subs) :
      Move ledger (ledger.unsubscribe mid)
  | endSubs {ledger : Ledger} : Move ledger ledger.endSubs
  | resume {ledger : Ledger} {receiveMaximum limit : Nat} (calm : ledger.settling = false)
      (fits : Fits ledger.cap receiveMaximum limit) :
      Move ledger (ledger.resume receiveMaximum limit)
  | restart {ledger : Ledger} {receiveMaximum limit : Nat} (calm : ledger.settling = false)
      (fits : Fits ledger.cap receiveMaximum limit) :
      Move ledger (ledger.restart receiveMaximum limit)
  | settled {ledger : Ledger}
      (clear : ∀ mid entry, ledger.rows.get? mid = some entry → entry.state = .queued) :
      Move ledger { ledger with settling := false }

end Ledger

end Mqttium
