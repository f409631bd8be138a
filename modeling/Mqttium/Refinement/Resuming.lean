import Mqttium.Refinement.Settling
import Mqttium.Refinement.Visiting

/-! Replaying a resumed session. Between the rounds of the loop the ledger has the
rows still to come lined up behind the engine's queue. -/

namespace Mqttium

open Codec Library Packets Persistence Protocol

/-! What the negotiated limits can refuse -/

section

variable {failure : Failure}

private theorem checkSize_refused {negotiated : NegotiatedSettings} {item : WriteItem}
    (refused : Outbound.checkSize negotiated item = .error failure) :
    failure.isProtocolError = true := by
  unfold Outbound.checkSize at refused
  split at refused
  · cases refused
  · split at refused
    · cases refused
      rfl
    · cases refused

private theorem propertyParts_refused {isV5 : Bool} {properties : Option Properties}
    (table : TableOk properties)
    (refused : Outbound.propertyParts isV5 properties = .error failure) :
    failure.isProtocolError = true := by
  unfold Outbound.propertyParts at refused
  split at refused
  · split at refused
    · rcases except_bind_error.mp refused with refused | ⟨_, _, refused⟩
      · exact table.refused failure refused
      · cases refused
    · cases refused
  · cases refused

private theorem wireSize_refused {topicBytes propertyBytes payloadSize : Nat} {qos : QoS}
    (refused : Outbound.publishWireSizeFromParts topicBytes propertyBytes payloadSize qos =
      .error failure) : failure.isProtocolError = true := by
  simp only [Outbound.publishWireSizeFromParts] at refused
  generalize 2 + topicBytes + (if qos = .atMostOnce then 0 else 2) + propertyBytes + payloadSize =
    remaining at refused
  split at refused
  · cases refused
    rfl
  · rename_i fits
    rcases except_bind_error.mp refused with refused | ⟨_, _, refused⟩
    · unfold vbiLen at refused
      rw [if_neg fits] at refused
      split at refused
      · cases refused
      · split at refused
        · cases refused
        · split at refused <;> cases refused
    · cases refused

private theorem checkPublishSize_refused {isV5 : Bool} {negotiated : NegotiatedSettings}
    {topic : Text} {payloadSize : Nat} {qos : QoS} {properties : Option Properties}
    (sized : ∃ size, Outbound.topicSize topic = .ok size) (table : TableOk properties)
    (refused : Outbound.checkPublishSize isV5 negotiated topic payloadSize qos properties =
      .error failure) : failure.isProtocolError = true := by
  obtain ⟨size, sized⟩ := sized
  unfold Outbound.checkPublishSize at refused
  rcases except_bind_error.mp refused with refused | ⟨_, _, refused⟩
  · rw [sized] at refused
    cases refused
  rcases except_bind_error.mp refused with refused | ⟨⟨_, _, _⟩, _, refused⟩
  · exact propertyParts_refused table refused
  simp only [Outbound.checkPublishWireSize] at refused
  split at refused
  · cases refused
  · rcases except_bind_error.mp refused with refused | ⟨_, _, refused⟩
    · exact wireSize_refused refused
    · split at refused
      · cases refused
        rfl
      · cases refused

private theorem checkNegotiatedAlias_refused {negotiated : NegotiatedSettings}
    {properties : Option Properties} (table : TableOk properties)
    (refused : Outbound.checkNegotiatedAlias negotiated properties = .error failure) :
    failure.isProtocolError = true := by
  obtain ⟨number, given⟩ := table.number
  rcases except_bind_error.mp refused with refused | ⟨value, _, refused⟩
  · rw [given] at refused
    cases refused
  · cases value with
    | none => cases refused
    | some number =>
      simp only at refused
      split at refused
      · cases refused
        rfl
      · cases refused

/-- The fields of a queue entry are those of its row, whose tables are good. -/
private theorem constrained_ok {kind : StoreKind} {entry : QueueEntry} {mid : Nat}
    {message : OutboundMessage} (ok : RowOk mid message) (matching : entry.Matches kind message) :
    (∃ size, Outbound.topicSize (Outbound.constrained entry).topic = .ok size) ∧
      TableOk (Outbound.constrained entry).properties ∧
      TableOk (propertiesWithoutTopicAlias (Outbound.constrained entry).properties) := by
  cases entry with
  | message stored =>
    cases matching
    exact ⟨ok.storable.topic, ok.storable.table, ok.storable.stripped⟩
  | summary stored =>
    cases matching
    have read := readOut_ok ok kind
    exact ⟨read.storable.topic, read.storable.table, read.storable.stripped⟩

/-- The negotiated limits refuse a stored publication only as a protocol error. -/
theorem validate_refused {engine : Engine} {kind : StoreKind} {entry : QueueEntry} {mid : Nat}
    {message : OutboundMessage} (ok : RowOk mid message) (matching : entry.Matches kind message)
    (refused : Outbound.validateAgainstNegotiated engine entry = .error failure) :
    failure.isProtocolError = true := by
  obtain ⟨sized, table, stripped⟩ := constrained_ok ok matching
  have replayed : TableOk (Outbound.replayedProperties (Outbound.constrained entry)) := by
    unfold Outbound.replayedProperties
    split
    · exact stripped
    · exact table
  simp only [Outbound.validateAgainstNegotiated] at refused
  split at refused
  · exact checkSize_refused refused
  split at refused
  · cases refused
    rfl
  split at refused
  · cases refused
    rfl
  rcases except_bind_error.mp refused with refused | ⟨_, _, refused⟩
  · exact checkNegotiatedAlias_refused replayed refused
  · simp only [Outbound.checkNegotiatedSize] at refused
    split at refused
    · exact checkSize_refused refused
    · exact checkPublishSize_refused sized replayed refused

end

/-! The loop -/

/-- The identifiers of the live rows in a kind of state, in order. -/
def lineup (sealed : Dict Nat Bool) (kind : OutboundQoSState → Bool)
    (rows : List (Nat × OutRow)) : List Nat :=
  (rows.filter fun row => !sealed.contains row.1 && kind row.2.message.state).map Prod.fst

def unacknowledged (state : OutboundQoSState) : Bool := state == .queued || state.waiting

/-- The ledger of an engine that has yet to replay some rows. -/
def resumeView (watch : Watch) (engine : Engine) (todo : List (Nat × OutRow)) : Ledger :=
  { view watch engine with
    queue := engine.outbound.queued.map QueueEntry.mid ++
      lineup engine.outbound.sealed unacknowledged todo
    parked := engine.outbound.parked ∪
      (lineup engine.outbound.sealed OutboundQoSState.waiting todo).toFinset }

structure Replaying (watch : Watch) (start : Ledger) (kind : StoreKind)
    (todo : List (Nat × OutRow)) (engine : Engine) : Prop where
  awaits : Awaits kind todo engine
  once : (todo.map Prod.fst).Nodup
  tracking : Tracking watch engine
  aligned : Aligned engine engine.outbound.queued
  apart : ∀ entry ∈ todo, entry.1 ∉ engine.outbound.queued.map QueueEntry.mid ∧
    entry.1 ∉ engine.outbound.parked ∧ entry.1 ∉ engine.outbound.flow.holders
  /-- Once a row had to wait for a slot, none is left in this loop. -/
  full : engine.outbound.parked ≠ ∅ →
    engine.outbound.flow.limit ≤ engine.outbound.flow.holders.card
  steps : Steps start (resumeView watch engine todo)

/-- The engine without a publication that was given up. -/
def Protocol.Engine.dropped (engine : Engine) (mid size : Nat) (failure : Failure) : Engine :=
  { engine with
    store := engine.store.deleteOut mid
    outbound := { engine.outbound with
      pendingMessages := engine.outbound.pendingMessages - 1
      pendingBytes := engine.outbound.pendingBytes - size
      packetIds := engine.outbound.packetIds.release mid }
    effects := engine.effects ++ [.publishFailed mid failure] }

section

variable {engine : Engine} {mid : Nat} {row : OutRow} {watch : Watch} {start : Ledger}
  {kind : StoreKind} {todo : List (Nat × OutRow)}

theorem lineup_cons {sealed : Dict Nat Bool} {sort : OutboundQoSState → Bool} :
    lineup sealed sort ((mid, row) :: todo) =
      (if sealed.contains mid = false ∧ sort row.message.state = true then [mid] else []) ++
        lineup sealed sort todo := by
  simp only [lineup, List.filter_cons]
  cases sealed.contains mid <;> cases sort row.message.state <;> simp

theorem lineup_subset {sealed : Dict Nat Bool} {sort : OutboundQoSState → Bool} {other : Nat}
    (member : other ∈ lineup sealed sort todo) : other ∈ todo.map Prod.fst := by
  simp only [lineup, List.mem_map, List.mem_filter] at member ⊢
  obtain ⟨entry, ⟨member, _⟩, same⟩ := member
  exact ⟨entry, member, same⟩

theorem Replaying.found (replaying : Replaying watch start kind ((mid, row) :: todo) engine) :
    engine.store.out.get? mid = some row :=
  replaying.awaits.rows (mid, row) (by simp)

/-- The first row leaves the line. -/
theorem Replaying.unqueue (replaying : Replaying watch start kind ((mid, row) :: todo) engine) :
    (resumeView watch engine ((mid, row) :: todo)).unqueue mid = resumeView watch engine todo := by
  have once := replaying.once
  simp only [List.map_cons, List.nodup_cons] at once
  have gone : ∀ sort, mid ∉ lineup engine.outbound.sealed sort todo :=
    fun sort member => once.1 (lineup_subset member)
  obtain ⟨unqueued, unparked, idle⟩ := replaying.apart (mid, row) (by simp)
  have queue : (engine.outbound.queued.map QueueEntry.mid ++
      lineup engine.outbound.sealed unacknowledged ((mid, row) :: todo)).erase mid =
      engine.outbound.queued.map QueueEntry.mid ++
        lineup engine.outbound.sealed unacknowledged todo := by
    rw [List.erase_append_right _ unqueued, lineup_cons]
    split
    · simp
    · rw [List.nil_append, List.erase_of_not_mem (gone _)]
  have parked : (engine.outbound.parked ∪ (lineup engine.outbound.sealed
      OutboundQoSState.waiting ((mid, row) :: todo)).toFinset).erase mid =
      engine.outbound.parked ∪
        (lineup engine.outbound.sealed OutboundQoSState.waiting todo).toFinset := by
    have rest := gone OutboundQoSState.waiting
    rw [lineup_cons]
    ext other
    by_cases same : other = mid
    · subst same
      simp [unparked, rest]
    · split <;> simp [same]
  simp only [resumeView, Ledger.unqueue, queue, parked]

/-- A live row is given up. -/
theorem Replaying.dropped {failure : Failure}
    (replaying : Replaying watch start kind ((mid, row) :: todo) engine)
    (live : engine.outbound.sealed.contains mid = false) :
    Replaying watch start kind todo (engine.dropped mid row.message.logicalSize failure) := by
  have found := replaying.found
  obtain ⟨unqueued, _, idle⟩ := replaying.apart (mid, row) (by simp)
  have erased : ∀ other, other ≠ mid →
      (engine.store.out.erase mid).get? other = engine.store.out.get? other :=
    fun _ different => Dict.get?_erase_of_ne different
  refine ⟨replaying.awaits.others replaying.once replaying.awaits.reliable rfl erased, replaying.once.of_cons,
    replaying.tracking.erased rfl rfl (by simp), ?_, ?_, replaying.full, ?_⟩
  · refine replaying.aligned.erased rfl rfl fun entry member same => ?_
    exact unqueued (List.mem_map.mpr ⟨entry, member, same⟩)
  · exact fun entry member => replaying.apart entry (List.mem_cons_of_mem _ member)
  · refine replaying.steps.tail ?_
    have entry : (resumeView watch engine ((mid, row) :: todo)).rows.get? mid =
        some (entryOf row) := by
      simp [resumeView, view, found]
    have event : effectEvent watch.who (.publishFailed mid failure) =
        some (.reported row.seq) := by
      simp [effectEvent, replaying.tracking.names _ _ found]
    convert Ledger.Move.drop entry live idle using 1
    have queue := congrArg Ledger.queue replaying.unqueue
    have parked := congrArg Ledger.parked replaying.unqueue
    simp only [resumeView, Ledger.unqueue] at queue parked
    simp [resumeView, view, Engine.dropped, Ledger.drop, Ledger.note, Ledger.unqueue, Ledger.refund,
      Ledger.forget, Store.deleteOut, queue, parked, watch.log_emit replaying.tracking.later, event,
      entryOf]

/-- Sealed rows are not replayed. -/
theorem Replaying.skip (replaying : Replaying watch start kind ((mid, row) :: todo) engine)
    (dead : engine.outbound.sealed.contains mid = true) :
    Replaying watch start kind todo engine := by
  refine ⟨replaying.awaits.others replaying.once replaying.awaits.reliable rfl fun _ _ => rfl, replaying.once.of_cons,
    replaying.tracking, replaying.aligned, ?_, replaying.full, ?_⟩
  · exact fun entry member => replaying.apart entry (List.mem_cons_of_mem _ member)
  · have steps := replaying.steps
    simp only [resumeView, lineup_cons, dead, Bool.true_eq_false, false_and, ↓reduceIte,
      List.nil_append] at steps
    exact steps

theorem summary_mid {message : OutboundMessage} (named : message.mid = mid) :
    (QueueEntry.summary (Store.summaryOf kind message)).mid = mid :=
  (readOut_fields kind message).2.2.2.trans named

/-- A row that waits for its turn, parked when it was sent before. -/
theorem Replaying.enqueued {parked : Finset Nat}
    (replaying : Replaying watch start kind ((mid, row) :: todo) engine)
    (live : engine.outbound.sealed.contains mid = false)
    (waits : unacknowledged row.message.state = true)
    (held : parked = engine.outbound.parked ∪
      if row.message.state.waiting = true then {mid} else ∅)
    (full : parked ≠ ∅ → engine.outbound.flow.limit ≤ engine.outbound.flow.holders.card) :
    Replaying watch start kind todo
      { engine with
        outbound := { engine.outbound with
          queued := engine.outbound.queued ++ [.summary (Store.summaryOf kind row.message)]
          parked } } := by
  have found := replaying.found
  have once := replaying.once
  simp only [List.map_cons, List.nodup_cons] at once
  have named := (replaying.tracking.coherent.rows mid row found).named
  refine ⟨replaying.awaits.others replaying.once replaying.awaits.reliable rfl fun _ _ => rfl, once.2,
    ⟨⟨replaying.tracking.coherent.reliable, replaying.tracking.coherent.rows⟩,
      replaying.tracking.later, replaying.tracking.names⟩, ?_, ?_, full, ?_⟩
  · intro entry member
    rcases List.mem_append.mp member with old | new
    · exact replaying.aligned entry old
    · rw [List.mem_singleton] at new
      subst new
      refine ⟨row, by rw [summary_mid named]; exact found, ?_⟩
      rw [replaying.awaits.kind]
      rfl
  · intro entry member
    obtain ⟨unqueued, unparked, idle⟩ := replaying.apart entry (List.mem_cons_of_mem _ member)
    have different : entry.1 ≠ mid := by
      rintro rfl
      exact once.1 (List.mem_map_of_mem member)
    refine ⟨?_, ?_, idle⟩
    · simp only [List.map_append, List.mem_append, List.map_cons, List.map_nil, List.mem_singleton,
        summary_mid named, not_or]
      exact ⟨unqueued, different⟩
    · simp only [held, Finset.mem_union, not_or]
      refine ⟨unparked, ?_⟩
      split <;> simp [different]
  · have steps := replaying.steps
    convert steps using 1
    simp only [resumeView, lineup_cons, live, waits, and_self, ↓reduceIte, view, List.map_append,
      List.map_cons, List.map_nil, summary_mid named, List.append_assoc, true_and, held]
    congr 1
    ext other
    split <;> simp

/-- A row resent at once, with its slot. -/
theorem Replaying.resent {after : Engine}
    (replaying : Replaying watch start kind ((mid, row) :: todo) engine)
    (live : engine.outbound.sealed.contains mid = false)
    (waits : row.message.state.waiting = true)
    (room : engine.outbound.flow.holders.card < engine.outbound.flow.limit)
    (left : Left (engine.acquired mid) after mid row row.message.state true) :
    Replaying watch start kind todo after := by
  have found := replaying.found
  have once := replaying.once
  simp only [List.map_cons, List.nodup_cons] at once
  obtain ⟨unqueued, unparked, idle⟩ := replaying.apart (mid, row) (by simp)
  have none : engine.outbound.parked = ∅ := by
    by_contra parked
    have := replaying.full parked
    omega
  obtain ⟨tracking, shown⟩ := left.view (replaying.tracking.acquired mid) found
  have held : (engine.acquired mid).store.out.get? mid = some row := found
  rw [setState_same held] at shown
  obtain ⟨stored, aliases, wire, _, _, _, _, rfl⟩ := left.shape
  have others : ∀ other, other ≠ mid →
      (engine.store.out.insert mid { row with message := stored }).get? other =
        engine.store.out.get? other :=
    fun _ different => Dict.get?_insert_of_ne _ different
  refine ⟨replaying.awaits.others replaying.once replaying.awaits.reliable rfl others, once.2, tracking, ?_, ?_,
    fun parked => absurd none parked, ?_⟩
  · have elsewhere : ∀ entry ∈ engine.outbound.queued, entry.mid ≠ mid :=
      fun entry member same => unqueued (List.mem_map.mpr ⟨entry, member, same⟩)
    have rewritten : Aligned (engine.rewrite mid row stored) engine.outbound.queued :=
      replaying.aligned.rewrite elsewhere
    exact rewritten
  · intro entry member
    obtain ⟨unlined, notparked, other⟩ := replaying.apart entry (List.mem_cons_of_mem _ member)
    have different : entry.1 ≠ mid := by
      rintro rfl
      exact once.1 (List.mem_map_of_mem member)
    exact ⟨unlined, notparked, by simp [Engine.acquired, different, other]⟩
  · refine replaying.steps.tail ?_
    have place : (resumeView watch engine ((mid, row) :: todo)).queue =
        engine.outbound.queued.map QueueEntry.mid ++
          mid :: lineup engine.outbound.sealed unacknowledged todo := by
      simp [resumeView, lineup_cons, live, unacknowledged, waits]
    have member : mid ∈ (resumeView watch engine ((mid, row) :: todo)).parked := by
      simp [resumeView, lineup_cons, live, waits]
    have unsent : ∀ other ∈ engine.outbound.queued.map QueueEntry.mid,
        other ∉ (resumeView watch engine ((mid, row) :: todo)).parked := by
      intro other lined parked
      simp only [resumeView, none, Finset.empty_union, List.mem_toFinset] at parked
      obtain ⟨entry, todo', rfl⟩ := List.mem_map.mp (lineup_subset parked)
      exact (replaying.apart entry todo').1 lined
    have entry : (resumeView watch engine ((mid, row) :: todo)).rows.get? mid =
        some (entryOf row) := by
      simp [resumeView, view, found]
    convert Ledger.Move.resend place unsent member entry room rfl using 1
    have queue := congrArg Ledger.queue replaying.unqueue
    have parked := congrArg Ledger.parked replaying.unqueue
    have rows := congrArg Ledger.rows shown
    have log := congrArg Ledger.log shown
    simp only [resumeView, Ledger.unqueue] at queue parked
    simp only [view, Ledger.note, Engine.acquired, Engine.rewrite, Dict.mapValues_insert] at rows log
    simp [resumeView, view, Ledger.resend, Ledger.note, Ledger.acquire, Ledger.unqueue, queue, parked,
      rows, log, Engine.acquired, Engine.rewrite]

/-- The PUBREL of a row sent again. -/
theorem Replaying.released {stored : OutboundMessage} {wire : Bytes}
    (replaying : Replaying watch start kind ((mid, row) :: todo) engine)
    (waits : row.message.state = .waitPubcomp) (ok : RowOk mid stored)
    (state : stored.state = row.message.state)
    (size : stored.logicalSize = row.message.logicalSize)
    (shown : seen wire = some (.pubrel mid)) :
    Replaying watch start kind todo
      { engine.rewrite mid row stored with
        effects := engine.effects ++ [.send (.contiguous wire)] } := by
  have found := replaying.found
  obtain ⟨unqueued, _, _⟩ := replaying.apart (mid, row) (by simp)
  have event : effectEvent watch.who (.send (.contiguous wire)) =
      some (.sent row.seq .pubrel) := by
    simp [effectEvent, WriteItem.header, shown, replaying.tracking.names _ _ found]
  have others : ∀ other, other ≠ mid →
      (engine.store.out.insert mid { row with message := stored }).get? other =
        engine.store.out.get? other :=
    fun _ different => Dict.get?_insert_of_ne _ different
  refine ⟨replaying.awaits.others replaying.once replaying.awaits.reliable rfl others, replaying.once.of_cons,
    replaying.tracking.rewritten found ok (by simp), ?_, ?_, replaying.full, ?_⟩
  · have elsewhere : ∀ entry ∈ engine.outbound.queued, entry.mid ≠ mid :=
      fun entry member same => unqueued (List.mem_map.mpr ⟨entry, member, same⟩)
    have rewritten : Aligned (engine.rewrite mid row stored) engine.outbound.queued :=
      replaying.aligned.rewrite elsewhere
    exact rewritten
  · exact fun entry member => replaying.apart entry (List.mem_cons_of_mem _ member)
  · refine replaying.steps.tail ?_
    have entry : (resumeView watch engine ((mid, row) :: todo)).rows.get? mid =
        some (entryOf row) := by
      simp [resumeView, view, found]
    convert Ledger.Move.release entry waits using 1
    have rows : (engine.store.out.mapValues entryOf).insert mid
        (entryOf { row with message := stored }) = engine.store.out.mapValues entryOf := by
      rw [show entryOf { row with message := stored } = entryOf row by simp [entryOf, state, size]]
      exact Dict.insert_of_get? (by simp [found])
    simp [resumeView, view, Ledger.note, lineup_cons, waits, unacknowledged,
      OutboundQoSState.waiting, Engine.rewrite, rows,
      watch.log_emit replaying.tracking.later, event]

variable {returned : PUnit → Engine → Prop} {raised : Failure → Engine → Prop}

theorem dropRecord_sat {size : Nat} {failure : Failure} (reliable : engine.store.Reliable)
    (sized : 0 < size) (messages : 1 ≤ engine.outbound.pendingMessages)
    (bytes : size ≤ engine.outbound.pendingBytes)
    (done : returned ⟨⟩ (engine.dropped mid size failure)) :
    Sat (Outbound.dropRecord mid size failure) engine returned raised := by
  simp only [Outbound.dropRecord, sat_bind]
  refine discardRecord_sat reliable sized messages bytes ?_
  exact done

/-- A row whose replay changed nothing but itself is given up all the same. -/
theorem dropped_rewrite {stored : OutboundMessage} {failure : Failure} {size : Nat}
    (found : engine.store.out.get? mid = some row) :
    (engine.rewrite mid row stored).dropped mid size failure = engine.dropped mid size failure := by
  simp [Engine.dropped, Engine.rewrite, Store.deleteOut, Dict.erase_insert_of_get? _ found]

theorem acquired_rewrite_release {stored : OutboundMessage}
    (idle : mid ∉ engine.outbound.flow.holders) :
    { (engine.acquired mid).rewrite mid row stored with
      outbound := { ((engine.acquired mid).rewrite mid row stored).outbound with
        flow := ((engine.acquired mid).rewrite mid row stored).outbound.flow.release mid } } =
      engine.rewrite mid row stored := by
  simp [Engine.rewrite, Engine.acquired, FlowControl.release, Finset.erase_insert idle]

/-- The budget of a live row, and the width of its identifier. -/
theorem Replaying.budget (sound : Ledger.Sound start)
    (replaying : Replaying watch start kind ((mid, row) :: todo) engine)
    (live : engine.outbound.sealed.contains mid = false) :
    0 < row.message.logicalSize ∧ 1 ≤ engine.outbound.pendingMessages ∧
      row.message.logicalSize ≤ engine.outbound.pendingBytes ∧ mid < 65536 ∧
      row.message.state ≠ .done := by
  have accounts := (sound.steps replaying.steps).accounts
  have entry : (resumeView watch engine ((mid, row) :: todo)).rows.get? mid =
      some (entryOf row) := by
    simp [resumeView, view, replaying.found]
  obtain ⟨positive, counted, paid⟩ := accounts.budget entry live
  have used : mid ∈ engine.outbound.packetIds.used :=
    (accounts.owned mid).mpr (.inl (by simp [entry]))
  have bound := (PacketIdPool.used_range used).2
  simp only [maxPacketId] at bound
  exact ⟨positive, counted, paid, by omega, accounts.unfinished mid _ entry⟩

theorem replayMessage_sat (sound : Ledger.Sound start)
    (replaying : Replaying watch start kind ((mid, row) :: todo) engine) :
    Sat (Outbound.replayMessage (Store.summaryOf kind row.message)) engine
      (fun _ => Replaying watch start kind todo) (fun _ _ => False) := by
  have found := replaying.found
  have coherent := replaying.tracking.coherent
  have ok := coherent.rows mid row found
  obtain ⟨stateEq, sizeEq, _, midEq⟩ := readOut_fields kind row.message
  have named : (Store.summaryOf kind row.message).mid = mid := midEq.trans ok.named
  have state : (Store.summaryOf kind row.message).state = row.message.state := stateEq
  have size : (Store.summaryOf kind row.message).logicalSize = row.message.logicalSize := sizeEq
  have matching : (QueueEntry.summary (Store.summaryOf kind row.message)).Matches
      engine.store.kind row.message := by
    rw [replaying.awaits.kind]
    rfl
  simp only [Outbound.replayMessage, sat_bind, sat_get, named, state, size]
  cases dead : engine.outbound.sealed.contains mid with
  | true =>
    simp only [↓reduceIte, sat_pure]
    exact replaying.skip dead
  | false =>
    obtain ⟨positive, counted, paid, small, unfinished⟩ := replaying.budget sound dead
    simp only [Bool.false_eq_true, ↓reduceIte]
    have drops : ∀ failure, Sat (Outbound.dropRecord mid row.message.logicalSize failure) engine
        (fun _ => Replaying watch start kind todo) (fun _ _ => False) := fun failure =>
      dropRecord_sat coherent.reliable positive counted paid (replaying.dropped dead)
    by_cases queued : row.message.state = .queued
    · -- Never sent: it lines up again, or fails alone.
      simp only [queued, ↓reduceIte]
      cases checked : Outbound.validateAgainstNegotiated engine
          (.summary (Store.summaryOf kind row.message)) with
      | ok _ =>
        refine replaying.enqueued dead (by simp [unacknowledged, queued]) ?_ replaying.full
        simp [queued, OutboundQoSState.waiting]
      | error failure =>
        simp only [validate_refused ok matching checked, ↓reduceIte]
        exact drops failure
    by_cases advanced : row.message.state = .waitPubcomp
    · simp only [advanced, reduceCtorEq, ↓reduceIte, sat_bind, sat_catching]
      have present : engine.store.out.get?
          (QueueEntry.summary (Store.summaryOf kind row.message)).mid = some row := by
        rw [summary_mid ok.named]
        exact found
      refine materialize_sat coherent present matching ?_
      rw [summary_mid ok.named]
      intro message good messageState messageSize _
      rw [show Outbound.retransmit message = Outbound.resendPubrel message by
        simp [Outbound.retransmit, messageState, advanced]]
      refine resendPubrel_sat found good small messageState messageSize ok ?_ ?_
      · intro stored wire fine storedState storedSize shown
        exact replaying.released advanced fine storedState storedSize shown
      · intro failure stored _ _
        refine ⟨fun _ => ?_, (by rintro ⟨⟩)⟩
        refine dropRecord_sat coherent.reliable positive counted paid ?_
        rw [dropped_rewrite found]
        exact replaying.dropped dead
    · have waits : row.message.state.waiting = true := by
        cases stage : row.message.state <;> simp_all [OutboundQoSState.waiting]
      obtain ⟨_, _, idle⟩ := replaying.apart (mid, row) (by simp)
      simp only [queued, advanced, ↓reduceIte, sat_bind]
      apply tryAcquire_sat idle
      · -- Parked until a slot frees; the exchange stays live.
        intro full
        simp only [Bool.false_eq_true, ↓reduceIte, sat_bind, sat_modifyOutbound, Outbound.enqueue]
        refine replaying.enqueued dead (by simp [unacknowledged, waits]) ?_ fun _ => full
        simp only [waits, ↓reduceIte]
        ext other
        simp
      · intro room
        simp only [↓reduceIte, sat_bind, sat_catching]
        have present : (engine.acquired mid).store.out.get?
            (QueueEntry.summary (Store.summaryOf kind row.message)).mid = some row := by
          rw [summary_mid ok.named]
          exact found
        refine materialize_sat ⟨coherent.reliable, coherent.rows⟩ present matching ?_
        rw [summary_mid ok.named]
        intro message good messageState messageSize _
        rw [retransmit_waiting (by rw [messageState]; exact waits)]
        have there : (engine.acquired mid).store.out.get? mid = some row := found
        refine resendPublish_sat ⟨coherent.reliable, coherent.rows⟩ there good messageState
          messageSize ?_ ?_
        · intro after left
          exact replaying.resent dead waits room left
        · intro failure stored _ _
          refine ⟨fun _ => ?_, (by rintro ⟨⟩)⟩
          simp only [Outbound.releaseSlot, sat_modifyOutbound]
          rw [acquired_rewrite_release idle]
          refine dropRecord_sat coherent.reliable positive counted paid ?_
          rw [dropped_rewrite found]
          exact replaying.dropped dead

/-- The window of a connection keeps to what the broker grants and to the local cap. -/
theorem brokerLimit_fits {config : EngineConfig} {receiveMaximum : Nat} (granted : 1 ≤ receiveMaximum) :
    Ledger.Fits config.maxOutboundInflight receiveMaximum
      (FlowControl.brokerLimit receiveMaximum config.maxOutboundInflight) := by
  unfold FlowControl.brokerLimit Ledger.Fits
  cases capped : config.maxOutboundInflight with
  | none => simpa using granted
  | some cap =>
    have positive := config.outboundInflight_pos capped
    simp only [Option.some.injEq, forall_eq']
    omega

/-- The start of the loop: the whole session lines up. -/
theorem Ready.replaying (ready : Ready watch engine) (receiveMaximum : Nat) (limited : FlowControl)
    (start : engine.effects.length = watch.base) (reset : limited.holders = ∅) :
    Replaying (watch.learn [.session true receiveMaximum])
      ((view watch engine).resume receiveMaximum limited.limit) engine.store.kind
      engine.store.out.entries
      { engine with
        outbound := { engine.outbound with flow := limited, queued := [], parked := ∅ } } := by
  refine ⟨⟨ready.tracking.coherent.reliable, rfl, ?_⟩, engine.store.out.nodup, ?_, ?_, ?_, nofun, ?_⟩
  · exact fun entry member => Dict.get?_eq_some_iff.mpr member
  · exact ⟨⟨ready.tracking.coherent.reliable, ready.tracking.coherent.rows⟩, ready.tracking.later,
      ready.tracking.names⟩
  · intro entry member
    cases member
  · simp [reset]
  · have lines : ∀ sort, (view watch engine).live sort =
        lineup engine.outbound.sealed sort engine.store.out.entries := by
      intro sort
      simp [Ledger.live, lineup, view, Dict.mapValues, List.filter_map, Function.comp_def,
        Ledger.isSealed]
    have same : resumeView (watch.learn [.session true receiveMaximum])
        { engine with
          outbound := { engine.outbound with flow := limited, queued := [], parked := ∅ } }
        engine.store.out.entries = (view watch engine).resume receiveMaximum limited.limit := by
      simp only [resumeView, Ledger.resume, lines]
      simp only [view, List.map_nil, List.nil_append, Finset.empty_union, reset, log_learn start]
      rfl
    exact same ▸ .refl

/-- Replaying a resumed session: the session is resumed, then rows are resent,
released, dropped or left in the queue. -/
theorem replaySession_sat (ready : Ready watch engine)
    (start : engine.effects.length = watch.base)
    (granted : 1 ≤ engine.negotiated.receiveMaximum) :
    Sat Outbound.replaySession engine
      (fun _ after => Progress watch
        (watch.learn [.session true engine.negotiated.receiveMaximum]) engine after ∧ NoIdle after)
      (fun _ _ => False) := by
  have fits : Ledger.Fits (view watch engine).cap engine.negotiated.receiveMaximum
      (FlowControl.brokerLimit engine.negotiated.receiveMaximum
        engine.config.maxOutboundInflight) := brokerLimit_fits granted
  have calm : (view watch engine).settling = false := rfl
  have resumed := Relation.ReflTransGen.single (Ledger.Move.resume calm fits)
  have sound := ready.sound.steps resumed
  simp only [Outbound.replaySession, Outbound.resetFlowForConnection, sat_bind, sat_modify,
    sat_modifyOutbound, Outbound.forEachSummary]
  have began := ready.replaying engine.negotiated.receiveMaximum
    (engine.outbound.flow.reset.applyBrokerReceiveMaximum
      engine.negotiated.receiveMaximum engine.config.maxOutboundInflight) start rfl
  refine (sat_foldSummaries (fun _ => Replaying _ _ engine.store.kind)
    (fun _ _ _ replaying => replaying.awaits)
    (fun _ _ _ _ _ replaying => replayMessage_sat sound replaying) began).mono ?_ (by simp)
  intro _ after replayed
  have same : resumeView (watch.learn [.session true engine.negotiated.receiveMaximum]) after [] =
      view (watch.learn [.session true engine.negotiated.receiveMaximum]) after := by
    simp [resumeView, view, lineup]
  have steps := resumed.trans (same ▸ replayed.steps)
  have progress : Progress watch (watch.learn [.session true engine.negotiated.receiveMaximum])
      engine after := ⟨replayed.tracking, replayed.aligned, steps⟩
  refine (drain_sat (ready.progress progress)).mono ?_ (by simp)
  rintro _ last ⟨more, full⟩
  exact ⟨progress.trans more, full⟩

end

end Mqttium
