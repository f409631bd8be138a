import Mqttium.Refinement.Accepting

/-! Hydration. Between the rounds of the loop the ledger shows the rows visited so far. -/

namespace Mqttium

open Codec Library Packets Persistence Protocol

/-- The rows of a store are those a client wrote, in the order of their insertion. -/
structure Persistence.Store.Written (store : Store) : Prop where
  reliable : store.Reliable
  rows : ∀ mid row, store.out.get? mid = some row → RowOk mid row.message
  unfinished : ∀ mid row, store.out.get? mid = some row → row.message.state ≠ .done
  ordered : store.out.entries.Pairwise fun left right => left.2.seq < right.2.seq
  numbered : ∀ mid row, store.out.get? mid = some row → row.seq ≤ store.outSeq

/-- No publication that was never sent precedes one that waits for its first acknowledgement. -/
def Persistence.Store.FlyingFirst (store : Store) : Prop :=
  store.out.entries.Pairwise fun left right =>
    left.2.message.state = .queued → right.2.message.state.waiting = false

/-- What an observer is told of the rows found at start. -/
def recoveredEvents (rows : List (Nat × OutRow)) : List Event :=
  rows.map fun entry =>
    .recovered entry.2.seq entry.1 (decide (entry.2.message.state ≠ .queued))

/-- The ledger of an engine that has hydrated the rows of `done`. -/
def hydrateView (engine : Engine) (done : Dict Nat OutRow) (log : List Event) : Ledger :=
  { view ⟨0, [], fun _ => none⟩ engine with rows := done.mapValues entryOf, log }

structure Hydrating (store : Store) (done : Dict Nat OutRow) (log : List Event)
    (todo : List (Nat × OutRow)) (engine : Engine) : Prop where
  stored : engine.store = store
  fresh : engine.effects = []
  unopened : engine.state = .new
  alone : engine.pendingSubRequests = .empty
  parts : done.entries ++ todo = store.out.entries
  told : log = recoveredEvents done.entries
  aligned : Aligned engine engine.outbound.queued
  sound : Ledger.Sound (hydrateView engine done log)
  covered : Ledger.Covered (hydrateView engine done log)
  order : store.FlyingFirst → Ledger.Order (hydrateView engine done log)

section

variable {store : Store} {done : Dict Nat OutRow} {log : List Event} {todo : List (Nat × OutRow)}
  {engine : Engine} {mid : Nat} {row : OutRow}

theorem Hydrating.member (hydrating : Hydrating store done log todo engine) {entry : Nat × OutRow}
    (member : entry ∈ todo) : store.out.get? entry.1 = some entry.2 := by
  apply Dict.get?_eq_some_iff.mpr
  rw [← hydrating.parts]
  exact List.mem_append_right _ member

theorem Hydrating.found (hydrating : Hydrating store done log todo engine) {event : Event}
    (member : event ∈ log) :
    ∃ mid row sent, event = .recovered row.seq mid sent ∧ (mid, row) ∈ done.entries := by
  rw [hydrating.told] at member
  obtain ⟨⟨mid, row⟩, visited, rfl⟩ := List.mem_map.mp member
  exact ⟨mid, row, _, rfl, visited⟩

/-- The row of the round has not been visited. -/
theorem Hydrating.absent (hydrating : Hydrating store done log ((mid, row) :: todo) engine) :
    mid ∉ done.keys := by
  have once := store.out.nodup
  rw [← hydrating.parts, List.map_append, List.map_cons] at once
  intro visited
  exact (List.nodup_append.mp once).2.2 mid visited mid List.mem_cons_self rfl

/-- The row of the round can be recovered. -/
theorem Hydrating.recoverable (written : store.Written)
    (hydrating : Hydrating store done log ((mid, row) :: todo) engine)
    (sized : 0 < row.message.logicalSize) {held : Bool}
    (slot : held = true → (hydrateView engine done log).hasSlot ∧ row.message.state ≠ .queued) :
    Ledger.Recoverable (hydrateView engine done log) mid (entryOf row) held := by
  have found : store.out.get? mid = some row := hydrating.member List.mem_cons_self
  have absent : done.get? mid = none := Dict.get?_eq_none_iff.mpr hydrating.absent
  have earlier {other : Nat} {stored : OutRow} (visited : (other, stored) ∈ done.entries) :
      stored.seq < row.seq := by
    have order := written.ordered
    rw [← hydrating.parts] at order
    exact (List.pairwise_append.mp order).2.2 _ visited _ List.mem_cons_self
  refine ⟨?_, ?_, ?_, ?_, sized, written.unfinished mid row found, slot⟩
  · intro used
    rcases (hydrating.sound.accounts.owned mid).mp used with stored | pending
    · simp [hydrateView, absent] at stored
    · simp [hydrateView, view, hydrating.alone, Dict.keys, Dict.empty] at pending
  · intro other stored present
    obtain ⟨visited, there, rfl⟩ : ∃ visited, done.get? other = some visited ∧
        entryOf visited = stored := by
      simpa [hydrateView] using present
    exact earlier (Dict.get?_eq_some_iff.mp there)
  · intro event member
    obtain ⟨other, stored, sent, rfl, visited⟩ := hydrating.found member
    exact ⟨_, other, sent, rfl, earlier visited⟩
  · have numbered := written.numbered mid row found
    simpa [hydrateView, view, hydrating.stored] using numbered

theorem Hydrating.recovered {outbound : OutboundSession} (held : Bool) (written : store.Written)
    (hydrating : Hydrating store done log ((mid, row) :: todo) engine)
    (sized : 0 < row.message.logicalSize)
    (slot : held = true → (hydrateView engine done log).hasSlot ∧ row.message.state ≠ .queued)
    (full : row.message.state.inFlight = true → held = false →
      engine.outbound.flow.limit ≤ engine.outbound.flow.holders.card)
    (changed : outbound =
      { engine.outbound with
        packetIds := outbound.packetIds
        pendingMessages := engine.outbound.pendingMessages + 1
        pendingBytes := engine.outbound.pendingBytes + row.message.logicalSize
        queued := engine.outbound.queued ++
          if row.message.state = .queued then [.summary (Store.summaryOf store.kind row.message)] else []
        flow := { engine.outbound.flow with
          holders := if held then insert mid engine.outbound.flow.holders
            else engine.outbound.flow.holders } })
    (reserved : outbound.packetIds.used = insert mid engine.outbound.packetIds.used) :
    ∃ visited later, Hydrating store visited later todo { engine with outbound } := by
  have found : store.out.get? mid = some row := hydrating.member List.mem_cons_self
  have named := (written.rows mid row found).named
  have entries := Dict.entries_insert_of_not_mem row hydrating.absent
  have shown : hydrateView { engine with outbound } (done.insert mid row)
      (log ++ [.recovered row.seq mid (decide (row.message.state ≠ .queued))]) =
      (hydrateView engine done log).recover mid (entryOf row) held := by
    rw [changed]
    simp only [hydrateView, view, Ledger.recover, Dict.mapValues_insert, reserved]
    by_cases queued : row.message.state = .queued
    · simp [queued, summary_mid named, entryOf]
    · simp [queued, entryOf]
  refine ⟨done.insert mid row, log ++ [.recovered row.seq mid (decide (row.message.state ≠ .queued))],
    hydrating.stored, hydrating.fresh, hydrating.unopened, hydrating.alone, ?_, ?_, ?_, ?_, ?_, ?_⟩
  · rw [entries, List.append_assoc]
    exact hydrating.parts
  · rw [entries, hydrating.told]
    simp [recoveredEvents]
  · intro entry member
    have queued := congrArg OutboundSession.queued changed
    rw [queued] at member
    rcases List.mem_append.mp member with old | new
    · exact hydrating.aligned entry old
    · split at new
      · rw [List.mem_singleton] at new
        subst new
        refine ⟨row, ?_, ?_⟩
        · rw [summary_mid named, hydrating.stored]
          exact found
        · rw [hydrating.stored]
          rfl
      · cases new
  · rw [shown]
    exact hydrating.sound.recover (hydrating.recoverable written sized slot)
  · rw [shown]
    exact hydrating.covered.recover full
  · intro flyingFirst
    rw [shown]
    refine (hydrating.order flyingFirst).recover hydrating.sound.accounts
      (hydrating.recoverable written sized slot) ?_
    intro waits other stored present queued
    obtain ⟨visited, there, rfl⟩ : ∃ visited, done.get? other = some visited ∧
        entryOf visited = stored := by
      simpa [hydrateView] using present
    unfold Store.FlyingFirst at flyingFirst
    rw [← hydrating.parts] at flyingFirst
    have behind := (List.pairwise_append.mp flyingFirst).2.2 _ (Dict.get?_eq_some_iff.mp there) _
      List.mem_cons_self queued
    simp only [entryOf_state] at waits
    simp [waits] at behind

theorem hydrateMessage_sat (written : store.Written)
    (hydrating : Hydrating store done log ((mid, row) :: todo) engine) :
    Sat (Outbound.hydrateMessage (Store.summaryOf store.kind row.message)) engine
      (fun _ after => ∃ visited later, Hydrating store visited later todo after)
      (fun _ _ => True) := by
  have found : store.out.get? mid = some row := hydrating.member List.mem_cons_self
  obtain ⟨stateEq, sizeEq, _, midEq⟩ := readOut_fields store.kind row.message
  have named : (Store.summaryOf store.kind row.message).mid = mid :=
    midEq.trans (written.rows mid row found).named
  have state : (Store.summaryOf store.kind row.message).state = row.message.state := stateEq
  have size : (Store.summaryOf store.kind row.message).logicalSize = row.message.logicalSize := sizeEq
  have unfinished := written.unfinished mid row found
  have idle : mid ∉ engine.outbound.flow.holders := by
    intro held
    have owner := (hydrating.sound.accounts.heldRow mid held).2.1
    simp [hydrateView, Dict.get?_eq_none_iff.mpr hydrating.absent] at owner
  simp only [Outbound.hydrateMessage, sat_bind, sat_get, sat_fromExcept, named, state, size]
  refine ⟨fun pool reserved => ?_, fun _ _ => trivial⟩
  have used : pool.used = insert mid engine.outbound.packetIds.used := by
    by_cases inside : 1 ≤ mid ∧ mid ≤ maxPacketId
    · obtain ⟨grown, done, used⟩ := PacketIdPool.used_reserve inside.1 inside.2
      cases reserved.symm.trans done
      exact used
    · simp [PacketIdPool.reserve, inside] at reserved
  simp only [sat_modifyOutbound]
  refine ⟨fun bytes counted => ?_, fun _ _ => trivial⟩
  obtain ⟨sized, rfl⟩ : 0 < row.message.logicalSize ∧ row.message.logicalSize = bytes := by
    unfold Outbound.storedLogicalSize at counted
    split at counted
    · cases counted
    · next positive =>
      cases counted
      exact ⟨Nat.pos_of_ne_zero positive, rfl⟩
  have acquires (sent : row.message.state ≠ .queued) :
      Sat (discard (Outbound.tryAcquire mid))
        { engine with
          outbound := { engine.outbound with
            packetIds := pool
            pendingMessages := engine.outbound.pendingMessages + 1
            pendingBytes := engine.outbound.pendingBytes + row.message.logicalSize } }
        (fun _ after => ∃ visited later, Hydrating store visited later todo after)
        (fun _ _ => True) := by
    rw [sat_discard]
    refine tryAcquire_sat (by exact idle) ?_ ?_
    · intro full
      exact hydrating.recovered false written sized (by simp) (fun _ _ => full)
        (by simp [sent]) used
    · intro room
      change ∃ visited later, Hydrating store visited later todo
        { engine with
          outbound := { engine.outbound with
            packetIds := pool
            pendingMessages := engine.outbound.pendingMessages + 1
            pendingBytes := engine.outbound.pendingBytes + row.message.logicalSize
            flow := { engine.outbound.flow with
              holders := insert mid engine.outbound.flow.holders } } }
      exact hydrating.recovered true written sized (fun _ => ⟨room, sent⟩) (by simp) (by simp [sent]) used
  cases stage : row.message.state with
  | queued =>
    simp only [sat_modifyOutbound]
    refine hydrating.recovered false written sized (by simp) ?_ (by simp [stage]) used
    simp [stage, OutboundQoSState.inFlight, OutboundQoSState.waiting]
  | done => exact absurd stage unfinished
  | waitPuback => exact acquires (by simp [stage])
  | waitPubrec => exact acquires (by simp [stage])
  | waitPubcomp => exact acquires (by simp [stage])

/-- What an observer knows of a client that has hydrated its store. -/
def hydratedWatch (store : Store) : Watch where
  base := 0
  past := recoveredEvents store.out.entries
  who := fun mid => (store.out.get? mid).map OutRow.seq

/-- Hydration finishes with every row in the ledger. -/
theorem Hydrating.shown (hydrating : Hydrating store done log [] engine) :
    view (hydratedWatch store) engine = hydrateView engine done log := by
  have whole : done = store.out := Dict.ext_entries (by simpa using hydrating.parts)
  simp [view, hydrateView, hydratedWatch, Watch.log, hydrating.fresh, hydrating.stored,
    hydrating.told, whole]

theorem Hydrating.ready (written : store.Written) (hydrating : Hydrating store done log [] engine) :
    Ready (hydratedWatch store) engine := by
  refine ⟨⟨?_, Nat.zero_le _, ?_⟩, hydrating.aligned, hydrating.shown ▸ hydrating.sound⟩
  · rw [← hydrating.stored] at written
    exact ⟨written.reliable, written.rows⟩
  · intro mid row found
    rw [hydrating.stored] at found
    simp [hydratedWatch, found]

theorem Hydrating.attended (written : store.Written) (hydrating : Hydrating store done log [] engine) :
    Attended engine := by
  have shown := hydrating.shown
  have unaccepted : ¬ (view (hydratedWatch store) engine).accepted := by
    rintro ⟨accepts, _⟩
    obtain ⟨event, member, accepts⟩ := List.any_eq_true.mp accepts
    rw [shown] at member
    obtain ⟨_, _, _, rfl, _⟩ := hydrating.found member
    cases accepts
  refine ⟨hydratedWatch store, ⟨hydrating.ready written, ?_, ?_,
    fun joined => absurd joined unaccepted, fun joined => absurd joined unaccepted,
    shown ▸ hydrating.covered, ?_⟩⟩
  · rw [hydrating.fresh]
    rfl
  · intro mid absent
    rw [hydrating.stored] at absent
    simp [hydratedWatch, absent]
  · intro connected
    simp [hydrating.unopened] at connected

/-- Whatever the rows, every one of them is hydrated. -/
theorem create_hydrating {config : EngineConfig} (created : Engine.create config store = .ok engine)
    (written : store.Written) : ∃ done log, Hydrating store done log [] engine := by
  obtain ⟨recovered, _, hydrated⟩ := create_ok created
  have start : Hydrating store .empty [] store.out.entries (Engine.started config store recovered) := by
    refine ⟨rfl, rfl, rfl, rfl, rfl, rfl, ?_, ?_, ?_, fun _ => ?_⟩
    · intro mid queued
      cases queued
    · exact Ledger.sound_blank store.outSeq (max 1 config.maxInboundInflight)
        config.maxOutboundInflight
    · intro mid entry found
      cases found
    · exact Ledger.order_blank store.outSeq (max 1 config.maxInboundInflight)
        config.maxOutboundInflight
  have awaits (value : PUnit) (todo : List (Nat × OutRow)) (current : Engine)
      (hydrates : ∃ visited later, Hydrating store visited later todo current) :
      Awaits store.kind todo current := by
    obtain ⟨visited, later, hydrating⟩ := hydrates
    refine ⟨?_, by rw [hydrating.stored], fun entry member => ?_⟩
    · rw [hydrating.stored]
      exact written.reliable
    · rw [hydrating.stored]
      exact hydrating.member member
  have loop : Sat Outbound.hydrate (Engine.started config store recovered)
      (fun _ after => ∃ visited later, Hydrating store visited later [] after) (fun _ _ => True) := by
    refine sat_foldSummaries
      (fun _ todo current => ∃ visited later, Hydrating store visited later todo current)
      awaits ?_ ⟨_, _, start⟩
    rintro _ mid row todo current ⟨visited, later, hydrating⟩
    exact hydrateMessage_sat written hydrating
  exact loop.ok hydrated

theorem create_attended {config : EngineConfig} (created : Engine.create config store = .ok engine)
    (written : store.Written) : Attended engine := by
  obtain ⟨done, log, hydrating⟩ := create_hydrating created written
  exact hydrating.attended written

/-- The store of such an engine can be hydrated again. -/
theorem Attended.written (attended : Attended engine) : engine.store.Written := by
  obtain ⟨watch, attending⟩ := attended
  have coherent := attending.ready.tracking.coherent
  have valid := attending.ready.sound.accounts
  have shown {mid : Nat} {row : OutRow} (found : engine.store.out.get? mid = some row) :
      (view watch engine).rows.get? mid = some (entryOf row) := by
    simp [found]
  refine ⟨coherent.reliable, coherent.rows, ?_, ?_, ?_⟩
  · exact fun mid row found => valid.unfinished mid _ (shown found)
  · have ordered := valid.ordered
    simpa only [view, Dict.mapValues, List.pairwise_map, entryOf_seq] using ordered
  · exact fun mid row found => valid.numbered mid _ (shown found)

end

end Mqttium
