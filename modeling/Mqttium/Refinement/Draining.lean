import Mqttium.Refinement.Launching

/-! Draining the queue is a run of launches, resends and drops. -/

namespace Mqttium

open Codec Library Packets Persistence Protocol

/-- The engine with a slot taken. -/
def Protocol.Engine.acquired (engine : Engine) (mid : Nat) : Engine :=
  { engine with
    outbound := { engine.outbound with
      flow := { engine.outbound.flow with holders := insert mid engine.outbound.flow.holders } } }

section

variable {engine after : Engine} {mid : Nat} {row : OutRow} {watch : Watch}

/-- Giving the slot back undoes it. -/
theorem acquired_release (idle : mid ∉ engine.outbound.flow.holders) :
    { engine.acquired mid with
      outbound := { (engine.acquired mid).outbound with
        flow := (engine.acquired mid).outbound.flow.release mid } } = engine := by
  simp [Engine.acquired, FlowControl.release, Finset.erase_insert idle]

theorem Tracking.acquired (tracking : Tracking watch engine) (mid : Nat) :
    Tracking watch (engine.acquired mid) :=
  ⟨⟨tracking.coherent.reliable, tracking.coherent.rows⟩, tracking.later, tracking.names⟩

/-- What rewriting a row keeps. -/
theorem Tracking.rewritten {message : OutboundMessage} {outbound : OutboundSession}
    {effects : List Effect} (tracking : Tracking watch engine)
    (found : engine.store.out.get? mid = some row) (ok : RowOk mid message)
    (longer : engine.effects.length ≤ effects.length) :
    Tracking watch { engine.rewrite mid row message with outbound, effects } := by
  refine ⟨⟨tracking.coherent.reliable, (tracking.coherent.rewrite ok).rows⟩,
    tracking.later.trans longer, ?_⟩
  intro other next present
  simp only [Engine.rewrite, Dict.get?_insert] at present
  split at present
  · rename_i same
    cases present
    exact same ▸ tracking.names mid row found
  · exact tracking.names other next present

/-- What one launch or resend does to the ledger. -/
theorem Left.view {state : OutboundQoSState} {dup : Bool} (tracking : Tracking watch engine)
    (found : engine.store.out.get? mid = some row) (left : Left engine after mid row state dup) :
    Tracking watch after ∧ Mqttium.view watch after =
      ((Mqttium.view watch engine).setState mid state).note (.sent row.seq (.publish dup)) := by
  obtain ⟨stored, aliases, wire, ok, stage, size, shown, rfl⟩ := left.shape
  have event : effectEvent watch.who (.send wire) = some (.sent row.seq (.publish dup)) := by
    simp [effectEvent, shown, tracking.names mid row found]
  have entry : (engine.store.out.mapValues entryOf).get? mid = some (entryOf row) := by
    simp [found]
  refine ⟨tracking.rewritten found ok (by simp), ?_⟩
  simp only [Mqttium.view, Engine.rewrite, Ledger.note, Ledger.setState,
    Dict.mapValues_insert, watch.log_emit tracking.later, event, Option.toList_some]
  rw [Dict.modify_of_get? entry]
  simp [entryOf, stage, size]

variable {returned : PUnit → Engine → Prop} {raised : Failure → Engine → Prop}

theorem tryAcquire_sat {returned : Bool → Engine → Prop} (idle : mid ∉ engine.outbound.flow.holders)
    (full : engine.outbound.flow.limit ≤ engine.outbound.flow.holders.card → returned false engine)
    (taken : engine.outbound.flow.holders.card < engine.outbound.flow.limit →
      returned true (engine.acquired mid)) :
    Sat (Outbound.tryAcquire mid) engine returned raised := by
  simp only [Outbound.tryAcquire, sat_bind, sat_get, FlowControl.tryAcquire]
  by_cases room : engine.outbound.flow.limit ≤ engine.outbound.flow.holders.card
  · simp only [room, ↓reduceIte, fromExcept, sat_pure]
    exact full room
  · simp only [room, ↓reduceIte, idle, fromExcept, sat_pure, sat_bind, sat_modifyOutbound]
    exact taken (by omega)

theorem discardRecord_sat {size : Nat} (reliable : engine.store.Reliable) (sized : 0 < size)
    (messages : 1 ≤ engine.outbound.pendingMessages) (bytes : size ≤ engine.outbound.pendingBytes)
    (done : returned ⟨⟩
      { engine with
        store := engine.store.deleteOut mid
        outbound := { engine.outbound with
          pendingMessages := engine.outbound.pendingMessages - 1
          pendingBytes := engine.outbound.pendingBytes - size } }) :
    Sat (Outbound.discardRecord mid size) engine returned raised := by
  have positive : size ≠ 0 := by omega
  have counted : engine.outbound.pendingMessages ≠ 0 := by omega
  have enough : ¬ engine.outbound.pendingBytes < size := by omega
  simp only [Outbound.discardRecord, sat_bind, sat_storeCall reliable, Outbound.storedLogicalSize,
    positive, ↓reduceIte, fromExcept, sat_pure, Outbound.releaseReservation, sat_get, sat_raiseIf,
    counted, enough, sat_modifyOutbound, false_implies, not_false_eq_true, forall_const, true_and]
  exact done

/-- The budget a live row holds. -/
theorem Ledger.Accounts.budget {ledger : Ledger} (valid : Ledger.Accounts ledger) {entry : Entry}
    (found : ledger.rows.get? mid = some entry) (live : ledger.isSealed mid = false) :
    0 < entry.size ∧ 1 ≤ ledger.messages ∧ entry.size ≤ ledger.bytes := by
  refine ⟨valid.positive mid entry found, ?_, ?_⟩
  · rw [valid.messages]
    exact Ledger.one_le_tally found live
  · rw [valid.bytes]
    exact Ledger.size_le_tally found live

/-- What deleting a row leaves coherent. -/
theorem Tracking.erased {store : Store} {outbound : OutboundSession} {effects : List Effect}
    (tracking : Tracking watch engine) (reliable : store.faults = engine.store.faults)
    (rows : store.out = engine.store.out.erase mid)
    (longer : engine.effects.length ≤ effects.length) :
    Tracking watch { engine with store, outbound, effects } := by
  have kept : ∀ other next, store.out.get? other = some next →
      engine.store.out.get? other = some next := by
    intro other next present
    rw [rows, Dict.get?_erase] at present
    split at present
    · cases present
    · exact present
  refine ⟨⟨?_, ?_⟩, ?_, ?_⟩
  · intro call
    rw [show (store.faults call) = engine.store.faults call by rw [reliable]]
    exact tracking.coherent.reliable call
  · exact fun other next present => tracking.coherent.rows other next (kept other next present)
  · exact tracking.later.trans longer
  · exact fun other next present => tracking.names other next (kept other next present)

theorem Aligned.erased {store : Store} {outbound : OutboundSession} {effects : List Effect}
    {entries : List QueueEntry} (aligned : Aligned engine entries)
    (kind : store.kind = engine.store.kind) (rows : store.out = engine.store.out.erase mid)
    (elsewhere : ∀ entry ∈ entries, entry.mid ≠ mid) :
    Aligned { engine with store, outbound, effects } entries := by
  intro entry member
  obtain ⟨stored, found, same⟩ := aligned entry member
  refine ⟨stored, ?_, ?_⟩
  · simpa [rows, Dict.get?_erase_of_ne (elsewhere entry member)] using found
  · simpa [kind] using same

/-- The engine can go on with its queue. -/
structure Ready (watch : Watch) (engine : Engine) : Prop where
  tracking : Tracking watch engine
  aligned : Aligned engine engine.outbound.queued
  sound : Ledger.Sound (Mqttium.view watch engine)

/-- Between two engines of one call lie moves of the ledger. The observer may have
learnt of an input on the way. -/
structure Progress (watch later : Watch) (before after : Engine) : Prop where
  tracking : Tracking later after
  aligned : Aligned after after.outbound.queued
  steps : Steps (Mqttium.view watch before) (Mqttium.view later after)

theorem Ready.progress {later : Watch} (ready : Ready watch engine)
    (progress : Progress watch later engine after) : Ready later after :=
  ⟨progress.tracking, progress.aligned, ready.sound.steps progress.steps⟩

theorem Ready.refl (ready : Ready watch engine) : Progress watch watch engine engine :=
  ⟨ready.tracking, ready.aligned, .refl⟩

theorem Progress.trans {later latest : Watch} {last : Engine}
    (left : Progress watch later engine after) (right : Progress later latest after last) :
    Progress watch latest engine last :=
  ⟨right.tracking, right.aligned, left.steps.trans right.steps⟩

/-- A stored identifier fits its field on the wire. -/
theorem Ready.small (ready : Ready watch engine) (found : engine.store.out.get? mid = some row) :
    mid < 65536 := by
  have used : mid ∈ (view watch engine).used :=
    (ready.sound.accounts.owned mid).mpr (.inl (by simp [found]))
  have bound := (PacketIdPool.used_range used).2
  simp only [maxPacketId] at bound
  omega

/-- Nothing waits for a slot that is free. -/
def NoIdle (engine : Engine) : Prop :=
  engine.outbound.queued = [] ∨ engine.outbound.flow.limit ≤ engine.outbound.flow.holders.card

theorem Protocol.QueueEntry.Matches.fields {entry : QueueEntry} {kind : StoreKind}
    {message : OutboundMessage} (same : entry.Matches kind message) :
    entry.mid = message.mid ∧ entry.state = message.state ∧
      entry.logicalSize = message.logicalSize := by
  cases entry with
  | message stored =>
    cases same
    exact ⟨rfl, rfl, rfl⟩
  | summary stored =>
    obtain ⟨state, size, _, named⟩ := readOut_fields kind message
    cases same
    exact ⟨named, state, size⟩

/-- What the head of the queue is. -/
theorem Ready.head {entry : QueueEntry} {rest : List QueueEntry} (ready : Ready watch engine)
    (head : engine.outbound.queued = entry :: rest) :
    ∃ row, engine.store.out.get? entry.mid = some row ∧
      entry.Matches engine.store.kind row.message ∧
      entry.mid ∉ engine.outbound.flow.holders ∧
      (Mqttium.view watch engine).isSealed entry.mid = false ∧
      (row.message.state = .queued ∨ row.message.state.waiting = true ∧
        entry.mid ∈ engine.outbound.parked) ∧
      ∀ other ∈ rest, other.mid ≠ entry.mid := by
  have valid := ready.sound.accounts
  obtain ⟨row, found, same⟩ := ready.aligned entry (by simp [head])
  have member : entry.mid ∈ (Mqttium.view watch engine).queue := by
    simp [Mqttium.view, head]
  have state : (Mqttium.view watch engine).stateOf entry.mid = some row.message.state := by
    simp [Ledger.stateOf, found, entryOf]
  have lined := (valid.lineup entry.mid).mp member
  refine ⟨row, found, same, ?_, valid.live_of_mem_queue member, ?_, ?_⟩
  · intro held
    have owner := valid.heldRow entry.mid held
    rcases lined with ⟨queued, _⟩ | parked
    · exact owner.2.2.1 queued
    · exact owner.2.2.2 parked
  · rcases lined with ⟨queued, _⟩ | parked
    · exact .inl (by simpa [state] using queued)
    · refine .inr ⟨?_, parked⟩
      have waits := (valid.parkedRow entry.mid parked).2
      simp only [state, Option.some.injEq] at waits
      rcases waits with waits | waits <;> simp [waits, OutboundQoSState.waiting]
  · have once := valid.once
    simp only [Mqttium.view, head, List.map_cons, List.nodup_cons, List.mem_map, not_exists,
      not_and] at once
    exact once.1

/-- The head of the queue leaves it, sent for the first time or again. -/
private theorem Ready.launched {entry : QueueEntry} {rest : List QueueEntry} {row : OutRow}
    {state : OutboundQoSState} {dup : Bool} (ready : Ready watch engine)
    (head : engine.outbound.queued = entry :: rest)
    (found : engine.store.out.get? entry.mid = some row)
    (left : Left (engine.acquired entry.mid) after entry.mid row state dup)
    (move : Ledger.Move (view watch engine)
      (((((view watch engine).setState entry.mid state).unqueue entry.mid).acquire entry.mid).note
        (.sent row.seq (.publish dup)))) :
    Progress watch watch engine
      { after with
        outbound := { after.outbound with
          queued := after.outbound.queued.tail
          parked := after.outbound.parked.erase entry.mid } } := by
  obtain ⟨_, _, _, _, _, _, elsewhere⟩ := ready.head head
  obtain ⟨tracking, shown⟩ := left.view (ready.tracking.acquired entry.mid) found
  obtain ⟨stored, aliases, wire, _, _, _, _, rfl⟩ := left.shape
  refine ⟨⟨⟨tracking.coherent.reliable, tracking.coherent.rows⟩, tracking.later, tracking.names⟩,
    ?_, ?_⟩
  · intro other member
    simp only [Engine.acquired, Engine.rewrite, head, List.tail_cons] at member ⊢
    obtain ⟨next, present, same⟩ := ready.aligned other (by simp [head, member])
    exact ⟨next, by simpa [Dict.get?_insert_of_ne _ (elsewhere other member)] using present, same⟩
  · refine .single ?_
    convert move using 1
    have rows := congrArg Ledger.rows shown
    have log := congrArg Ledger.log shown
    simp only [Mqttium.view, Ledger.note, Ledger.setState, Engine.acquired, Engine.rewrite, Dict.mapValues_insert]
      at rows log
    simp [Mqttium.view, Ledger.note, Ledger.acquire, Ledger.unqueue, Ledger.setState, rows, log,
      Engine.acquired, Engine.rewrite, head]

/-- The head of the queue is given up. -/
private theorem Ready.dropped {entry : QueueEntry} {rest : List QueueEntry} {row : OutRow}
    (ready : Ready watch engine) (failure : Failure) (stored : OutboundMessage)
    (head : engine.outbound.queued = entry :: rest)
    (found : engine.store.out.get? entry.mid = some row) :
    Progress watch watch engine
      { engine with
        store := { engine.store with
          out := (engine.store.out.insert entry.mid { row with message := stored }).erase entry.mid }
        outbound := { engine.outbound with
          flow := { engine.outbound.flow with
            holders := (insert entry.mid engine.outbound.flow.holders).erase entry.mid }
          pendingMessages := engine.outbound.pendingMessages - 1
          pendingBytes := engine.outbound.pendingBytes - entry.logicalSize
          queued := engine.outbound.queued.tail
          parked := engine.outbound.parked.erase entry.mid
          packetIds := engine.outbound.packetIds.release entry.mid }
        effects := engine.effects ++ [.publishFailed entry.mid failure] } := by
  obtain ⟨same, present, matching, idle, live, _, elsewhere⟩ := ready.head head
  obtain rfl : row = same := by simpa [found] using present
  have rows : (engine.store.out.insert entry.mid { row with message := stored }).erase entry.mid =
      engine.store.out.erase entry.mid := Dict.erase_insert_of_get? _ found
  have event : effectEvent watch.who (.publishFailed entry.mid failure) =
      some (.reported row.seq) := by
    simp [effectEvent, ready.tracking.names _ _ found]
  have entryFound : (Mqttium.view watch engine).rows.get? entry.mid = some (entryOf row) := by
    simp [found]
  refine ⟨ready.tracking.erased rfl rows (by simp), ?_, ?_⟩
  · intro other member
    simp only [head, List.tail_cons] at member
    obtain ⟨next, there, also⟩ := ready.aligned other (by simp [head, member])
    refine ⟨next, ?_, also⟩
    simpa [rows, Dict.get?_erase_of_ne (elsewhere other member)] using there
  · refine .single ?_
    convert Ledger.Move.drop entryFound live idle using 1
    simp [Mqttium.view, Ledger.drop, Ledger.note, Ledger.unqueue, Ledger.refund, Ledger.forget,
      rows, head, Finset.erase_insert idle, watch.log_emit ready.tracking.later, event,
      matching.fields.2.2, entryOf]

theorem setState_same (found : engine.store.out.get? mid = some row) :
    (view watch engine).setState mid row.message.state = view watch engine := by
  have entry : (view watch engine).rows.get? mid = some (entryOf row) := by
    simp [found]
  simp only [Ledger.setState, Dict.modify_of_get? entry]
  rw [show ({ entryOf row with state := row.message.state } : Entry) = entryOf row from rfl,
    Dict.insert_of_get? entry]

/-- The moves of a launch and of a resend agree with the engine's step. -/
private theorem launch_move {entry : QueueEntry} {rest : List QueueEntry} {row : OutRow}
    (head : engine.outbound.queued = entry :: rest)
    (found : engine.store.out.get? entry.mid = some row)
    (room : engine.outbound.flow.holders.card < engine.outbound.flow.limit)
    (queued : row.message.state = .queued) :
    Ledger.Move (view watch engine)
      (((((view watch engine).setState entry.mid (Outbound.targetState row.message.qos)).unqueue
        entry.mid).acquire entry.mid).note (.sent row.seq (.publish false))) := by
  have place : (view watch engine).queue = entry.mid :: rest.map QueueEntry.mid := by
    simp [Mqttium.view, head]
  have stored : (view watch engine).rows.get? entry.mid = some (entryOf row) := by
    simp [found]
  exact .launch place stored queued (waiting_target _) room rfl

private theorem resend_move {entry : QueueEntry} {rest : List QueueEntry} {row : OutRow}
    (head : engine.outbound.queued = entry :: rest)
    (found : engine.store.out.get? entry.mid = some row)
    (room : engine.outbound.flow.holders.card < engine.outbound.flow.limit)
    (parked : entry.mid ∈ engine.outbound.parked) :
    Ledger.Move (view watch engine)
      (((((view watch engine).setState entry.mid row.message.state).unqueue
        entry.mid).acquire entry.mid).note (.sent row.seq (.publish true))) := by
  rw [setState_same found]
  have place : (view watch engine).queue = [] ++ entry.mid :: rest.map QueueEntry.mid := by
    simp [Mqttium.view, head]
  have stored : (view watch engine).rows.get? entry.mid = some (entryOf row) := by
    simp [found]
  exact .resend place (by simp) parked stored room rfl

theorem drainFor_sat {fuel : Nat} (ready : Ready watch engine)
    (enough : engine.outbound.queued.length ≤ fuel) :
    Sat (Outbound.drainFor fuel) engine
      (fun _ after => Progress watch watch engine after ∧ NoIdle after) (fun _ _ => False) := by
  induction fuel generalizing engine with
  | zero =>
    have empty : engine.outbound.queued = [] := List.length_eq_zero_iff.mp (by omega)
    exact ⟨ready.refl, .inl empty⟩
  | succ fuel ih =>
    simp only [Outbound.drainFor, sat_bind, sat_get]
    cases head : engine.outbound.queued with
    | nil => exact ⟨ready.refl, .inl head⟩
    | cons entry rest =>
      obtain ⟨row, found, matching, idle, live, stage, elsewhere⟩ := ready.head head
      obtain ⟨positive, counted, paid⟩ := ready.sound.accounts.budget
        (show (Mqttium.view watch engine).rows.get? entry.mid = some (entryOf row) by simp [found])
        live
      have shorter : rest.length ≤ fuel := by
        simpa [head] using enough
      -- What is left of the loop after the head is gone.
      have go : ∀ after, Progress watch watch engine after → after.outbound.queued = rest →
          Sat (Outbound.drainFor fuel) after
            (fun _ last => Progress watch watch engine last ∧ NoIdle last) (fun _ _ => False) := by
        intro after progress left
        refine (ih (ready.progress progress) (by rw [left]; exact shorter)).mono ?_ (by simp)
        rintro _ last ⟨more, full⟩
        exact ⟨progress.trans more, full⟩
      simp only [sat_bind]
      apply tryAcquire_sat idle
      · intro full
        exact ⟨ready.refl, .inr full⟩
      · intro room
        simp only [↓reduceIte, sat_bind, sat_catching]
        have present : (engine.acquired entry.mid).store.out.get? entry.mid = some row := found
        refine launchEntry_sat ?_ present matching ?_ ?_ (stage.imp id And.left) ?_
        · exact ⟨ready.tracking.coherent.reliable, ready.tracking.coherent.rows⟩
        · intro queued after left
          exact go _ (ready.launched head found left (launch_move head found room queued))
            (by obtain ⟨_, _, _, _, _, _, _, rfl⟩ := left.shape; simp [Engine.acquired, head])
        · intro waits after left
          have parked : entry.mid ∈ engine.outbound.parked := by
            rcases stage with queued | ⟨_, parked⟩
            · simp [queued, OutboundQoSState.waiting] at waits
            · exact parked
          exact go _ (ready.launched head found left (resend_move head found room parked))
            (by obtain ⟨_, _, _, _, _, _, _, rfl⟩ := left.shape; simp [Engine.acquired, head])
        · intro failure stored _ _
          refine ⟨fun _ => ?_, by simp⟩
          simp only [Outbound.releaseSlot, sat_modifyOutbound]
          refine discardRecord_sat ready.tracking.coherent.reliable
            (matching.fields.2.2 ▸ positive) counted (matching.fields.2.2 ▸ paid) ?_
          exact go _ (ready.dropped failure stored head found)
            (by simp [Engine.acquired, Engine.rewrite, head])

theorem drain_sat (ready : Ready watch engine) :
    Sat Outbound.drain engine (fun _ after => Progress watch watch engine after ∧ NoIdle after)
      (fun _ _ => False) := by
  simp only [Outbound.drain, sat_bind, sat_get]
  exact drainFor_sat ready le_rfl

end

end Mqttium
