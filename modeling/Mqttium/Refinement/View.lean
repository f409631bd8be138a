import Mathlib.Logic.Relation
import Mqttium.Ledger.Order
import Mqttium.Packets.Frames
import Mqttium.Protocol.Engine

/-! The engine seen as a ledger. The log of the ledger is what the effects of a
call show: the frames it sends are read back from their bytes. -/

namespace Mqttium

open Codec Library Packets Persistence Protocol

/-- The event one effect shows, when `who` names the exchange of an identifier. -/
def effectEvent (who : Nat → Option Nat) : Effect → Option Event
  | .send item =>
    match seen item.header with
    | some (.publish mid dup) => some (.of (who mid) fun seq => .sent seq (.publish dup))
    | some (.pubrel mid) => (who mid).map fun seq => .sent seq .pubrel
    | none => none
  | .sendAck frame =>
    match seen frame with
    | some (.publish mid dup) => some (.of (who mid) fun seq => .sent seq (.publish dup))
    | some (.pubrel mid) => (who mid).map fun seq => .sent seq .pubrel
    | none => none
  | .publishComplete (some mid) => some (.of (who mid) .reported)
  | .publishFailed mid _ => some (.of (who mid) .reported)
  | _ => none

/-- What the observer of one call starts from: the effects already pending, the
log so far and the exchange that each identifier names. -/
structure Watch where
  base : Nat
  past : List Event
  who : Nat → Option Nat

namespace Watch

def log (watch : Watch) (effects : List Effect) : List Event :=
  watch.past ++ (effects.drop watch.base).filterMap (effectEvent watch.who)

theorem log_emit (watch : Watch) {effects : List Effect} (later : watch.base ≤ effects.length)
    (effect : Effect) : watch.log (effects ++ [effect]) =
      watch.log effects ++ (effectEvent watch.who effect).toList := by
  simp only [log, List.drop_append_of_le_length later, List.filterMap_append, List.append_assoc]
  cases shown : effectEvent watch.who effect <;> simp [shown]

end Watch

def entryOf (row : OutRow) : Entry where
  seq := row.seq
  state := row.message.state
  size := row.message.logicalSize

@[simp] theorem entryOf_seq (row : OutRow) : (entryOf row).seq = row.seq := rfl

@[simp] theorem entryOf_state (row : OutRow) : (entryOf row).state = row.message.state := rfl

@[simp] theorem entryOf_size (row : OutRow) : (entryOf row).size = row.message.logicalSize := rfl

/-- The ledger an engine keeps. -/
def view (watch : Watch) (engine : Engine) : Ledger where
  rows := engine.store.out.mapValues entryOf
  lastSeq := engine.store.outSeq
  sealed := engine.outbound.sealed
  used := engine.outbound.packetIds.used
  subs := engine.pendingSubRequests.keys.toFinset
  messages := engine.outbound.pendingMessages
  bytes := engine.outbound.pendingBytes
  queue := engine.outbound.queued.map QueueEntry.mid
  parked := engine.outbound.parked
  holders := engine.outbound.flow.holders
  limit := engine.outbound.flow.limit
  cap := engine.config.maxOutboundInflight
  settling := false
  log := watch.log engine.effects

/-- A property table whose encoding can only be refused as a protocol error. -/
structure TableOk (properties : Option Properties) : Prop where
  number : ∃ number, Outbound.topicAlias properties = .ok number
  refused : ∀ failure, encodeProperties properties .publish = .error failure →
    failure.isProtocolError = true

/-- A record the client could have written. -/
structure Storable (message : OutboundMessage) : Prop where
  topic : ∃ size, Outbound.topicSize message.topic = .ok size
  table : TableOk message.properties
  stripped : TableOk (propertiesWithoutTopicAlias message.properties)

/-- The encodings cached on a record are its own. -/
structure Cached (message : OutboundMessage) : Prop where
  publish : ∀ item, message.encodedPublish = some item →
    seen item.header = some (.publish message.mid message.dup)
  pubrel : ∀ frame, message.encodedPubrel = some frame → seen frame = some (.pubrel message.mid)

/-- A queue entry is a copy of its row. -/
def Protocol.QueueEntry.Matches (kind : StoreKind) (message : OutboundMessage) : QueueEntry → Prop
  | .message stored => stored = message
  | .summary stored => stored = Store.summaryOf kind message

/-- What a row must be for the client to work with it. -/
structure RowOk (mid : Nat) (message : OutboundMessage) : Prop where
  named : message.mid = mid
  storable : Storable message
  cached : Cached message

structure Coherent (engine : Engine) : Prop where
  reliable : engine.store.Reliable
  rows : ∀ mid row, engine.store.out.get? mid = some row → RowOk mid row.message

/-- Queue entries are copies of their rows. -/
def Aligned (engine : Engine) (entries : List QueueEntry) : Prop :=
  ∀ entry ∈ entries, ∃ row, engine.store.out.get? entry.mid = some row ∧
    entry.Matches engine.store.kind row.message

/-- The observer of a call names every stored row. -/
structure Tracking (watch : Watch) (engine : Engine) : Prop where
  coherent : Coherent engine
  later : watch.base ≤ engine.effects.length
  names : ∀ mid row, engine.store.out.get? mid = some row → watch.who mid = some row.seq

/-- Some moves lead from one ledger to another. -/
abbrev Steps := Relation.ReflTransGen Ledger.Move

namespace Ledger

theorem Sound.steps {before after : Ledger} (sound : Sound before) (steps : Steps before after) :
    Sound after := by
  induction steps with
  | refl => exact sound
  | tail _ move ih => exact ih.move move

theorem Order.steps {before after : Ledger} (order : Order before) (sound : Sound before)
    (steps : Steps before after) : Order after := by
  induction steps with
  | refl => exact order
  | tail steps move ih => exact ih.move (sound.steps steps) move

end Ledger

/-! Store calls that do not fail -/

theorem sat_storeCall {Value : Type} {call : StoreCall} {run : Store → Value × Store}
    {engine : Engine} {returned : Value → Engine → Prop} {raised : Failure → Engine → Prop}
    (reliable : engine.store.Reliable) :
    Sat (storeCall call run) engine returned raised ↔
      returned (run engine.store).1 { engine with store := (run engine.store).2 } := by
  have quiet : engine.store.nextFault call = (none, engine.store) := by
    simp [Store.nextFault, reliable call]
  simp only [storeCall, sat_bind, sat_get, quiet]
  exact Iff.rfl

theorem sat_storeRead {Value : Type} {call : StoreCall} {read : Store → Value} {engine : Engine}
    {returned : Value → Engine → Prop} {raised : Failure → Engine → Prop}
    (reliable : engine.store.Reliable) :
    Sat (storeRead call read) engine returned raised ↔ returned (read engine.store) engine :=
  sat_storeCall reliable

@[simp] theorem sat_modifyOutbound {change : OutboundSession → OutboundSession} {engine : Engine}
    {returned : PUnit → Engine → Prop} {raised : Failure → Engine → Prop} :
    Sat (modifyOutbound change) engine returned raised ↔
      returned ⟨⟩ { engine with outbound := change engine.outbound } :=
  Iff.rfl

@[simp] theorem sat_modifyInbound {change : InboundSession → InboundSession} {engine : Engine}
    {returned : PUnit → Engine → Prop} {raised : Failure → Engine → Prop} :
    Sat (modifyInbound change) engine returned raised ↔
      returned ⟨⟩ { engine with inbound := change engine.inbound } :=
  Iff.rfl

@[simp] theorem sat_emit {effect : Effect} {engine : Engine} {returned : PUnit → Engine → Prop}
    {raised : Failure → Engine → Prop} :
    Sat (emit effect) engine returned raised ↔
      returned ⟨⟩ { engine with effects := engine.effects ++ [effect] } :=
  Iff.rfl

/-! Rewriting and deleting one row -/

namespace Protocol.Engine

/-- The engine with another message in the row of `mid`. -/
def rewrite (engine : Engine) (mid : Nat) (row : OutRow) (message : OutboundMessage) : Engine :=
  { engine with
    store := { engine.store with out := engine.store.out.insert mid { row with message } } }

end Protocol.Engine

section

variable {engine : Engine} {mid : Nat} {row : OutRow} {message : OutboundMessage} {watch : Watch}

theorem setOut_eq (found : engine.store.out.get? mid = some row)
    (change : OutboundMessage → OutboundMessage) :
    engine.store.setOut mid change =
      { engine.store with
        out := engine.store.out.insert mid { row with message := change row.message } } := by
  simp [Store.setOut, Dict.modify_of_get? found]

@[simp] theorem view_row : (view watch engine).rows.get? mid =
    (engine.store.out.get? mid).map entryOf := by
  simp [view]

theorem Aligned.rewrite {entries : List QueueEntry} (aligned : Aligned engine entries)
    (elsewhere : ∀ entry ∈ entries, entry.mid ≠ mid) :
    Aligned (engine.rewrite mid row message) entries := by
  intro entry member
  obtain ⟨stored, found, same⟩ := aligned entry member
  refine ⟨stored, ?_, same⟩
  simpa [Engine.rewrite, Dict.get?_insert_of_ne _ (elsewhere entry member)] using found

theorem Aligned.tail {entries : List QueueEntry} (aligned : Aligned engine entries) :
    Aligned engine entries.tail :=
  fun entry member => aligned entry (List.mem_of_mem_tail member)

theorem Coherent.rewrite (coherent : Coherent engine) (ok : RowOk mid message) :
    Coherent (engine.rewrite mid row message) := by
  refine ⟨coherent.reliable, ?_⟩
  intro other stored found
  simp only [Engine.rewrite, Dict.get?_insert] at found
  split at found
  · rename_i same
    cases found
    exact same ▸ ok
  · exact coherent.rows other stored found

end

end Mqttium
