import Mqttium.Refinement.Resuming

/-! Starting over after a lost session. Between the rounds of the purge the ledger
shows live QoS 1 rows as requeued already, and the window as reset. -/

namespace Mqttium

open Codec Library Packets Persistence Protocol

/-- The window of the connection that an engine has negotiated. -/
def Protocol.Engine.window (engine : Engine) : Nat :=
  FlowControl.brokerLimit engine.negotiated.receiveMaximum engine.config.maxOutboundInflight

/-- The ledger of an engine that has yet to purge some rows. -/
def purgeView (watch : Watch) (engine : Engine) (collected : List QueueEntry × List Nat)
    (todo : List (Nat × OutRow)) : Ledger :=
  { view watch engine with
    rows := (view watch engine).rows.mapEntries (view watch engine).requeue
    used := engine.outbound.packetIds.used \ collected.2.toFinset
    queue := collected.1.map QueueEntry.mid ++
      (lineup engine.outbound.sealed (· == .waitPuback) todo ++
        engine.outbound.queued.map QueueEntry.mid)
    parked := ∅
    holders := ∅
    limit := engine.window
    settling := true }

structure Purging (watch : Watch) (start : Ledger) (before : Engine)
    (collected : List QueueEntry × List Nat) (todo : List (Nat × OutRow)) (engine : Engine) :
    Prop where
  awaits : Awaits before.store.kind todo engine
  once : (todo.map Prod.fst).Nodup
  tracking : Tracking watch engine
  aligned : Aligned engine (collected.1 ++ engine.outbound.queued)
  settled : ∀ mid row, engine.store.out.get? mid = some row →
    row.message.state = .queued ∨ mid ∈ todo.map Prod.fst
  subs : engine.pendingSubRequests = before.pendingSubRequests
  unparked : engine.outbound.parked = ∅
  steps : Steps start (purgeView watch engine collected todo)

section

variable {engine before : Engine} {mid : Nat} {row : OutRow} {watch : Watch} {start : Ledger}
  {todo : List (Nat × OutRow)} {collected : List QueueEntry × List Nat}

theorem Purging.found (purging : Purging watch start before collected ((mid, row) :: todo) engine) :
    engine.store.out.get? mid = some row :=
  purging.awaits.rows (mid, row) (by simp)

/-- Only the first row was left to settle. -/
private theorem Purging.rest
    (purging : Purging watch start before collected ((mid, row) :: todo) engine) {other : Nat}
    {stored : OutRow} (found : engine.store.out.get? other = some stored) (different : other ≠ mid) :
    stored.message.state = .queued ∨ other ∈ todo.map Prod.fst := by
  rcases purging.settled other stored found with queued | member
  · exact .inl queued
  · simp only [List.map_cons, List.mem_cons, different, false_or] at member
    exact .inr member

/-- The row of the round, as the ledger shows it. -/
theorem purgeView_row (watch : Watch) (collected : List QueueEntry × List Nat)
    (todo : List (Nat × OutRow)) (found : engine.store.out.get? mid = some row) :
    (purgeView watch engine collected todo).rows.get? mid =
      some ((view watch engine).requeue mid (entryOf row)) := by
  simp [purgeView, view, found]

/-- The row of the round waits in no line unless it is requeued. -/
private theorem Purging.unlined (sound : Ledger.Sound start)
    (purging : Purging watch start before collected ((mid, row) :: todo) engine)
    (flying : row.message.state ≠ .queued)
    (kept : engine.outbound.sealed.contains mid = true ∨ row.message.state ≠ .waitPuback) :
    mid ∉ (purgeView watch engine collected todo).queue := by
  have valid := (sound.steps purging.steps).accounts
  have same : (purgeView watch engine collected ((mid, row) :: todo)).queue =
      (purgeView watch engine collected todo).queue := by
    rcases kept with dead | other
    · simp [purgeView, lineup_cons, dead]
    · simp [purgeView, lineup_cons, other]
  rw [← same, valid.lineup]
  rintro (⟨queued, live⟩ | parked)
  · have here := purgeView_row watch collected ((mid, row) :: todo) purging.found
    rw [Ledger.stateOf, here, Option.map_some, Option.some.injEq, Ledger.requeue] at queued
    split at queued
    · rename_i requeued
      rcases kept with dead | other
      · exact absurd (requeued.1.symm.trans dead) (by simp)
      · exact other requeued.2
    · exact flying queued
  · simp [purgeView] at parked

/-- A row that was never sent stays. -/
theorem Purging.skip (purging : Purging watch start before collected ((mid, row) :: todo) engine)
    (queued : row.message.state = .queued) : Purging watch start before collected todo engine := by
  refine ⟨purging.awaits.others purging.once purging.awaits.reliable rfl fun _ _ => rfl, purging.once.of_cons,
    purging.tracking, purging.aligned, ?_, purging.subs, purging.unparked, ?_⟩
  · intro other stored found
    by_cases same : other = mid
    · subst same
      cases purging.found.symm.trans found
      exact .inl queued
    · exact purging.rest found same
  · have steps := purging.steps
    simpa [purgeView, lineup_cons, queued] using steps

private theorem Purging.elsewhere
    (unlined : mid ∉ (purgeView watch engine collected todo).queue) :
    ∀ entry ∈ collected.1 ++ engine.outbound.queued, entry.mid ≠ mid := by
  intro entry member same
  refine unlined ?_
  simp only [purgeView, List.mem_append, List.mem_map]
  rcases List.mem_append.mp member with resent | kept
  · exact .inl ⟨entry, resent, same⟩
  · exact .inr (.inr ⟨entry, kept, same⟩)

private theorem sdiff_released (used : Finset Nat) (released : List Nat) :
    used \ (released ++ [mid]).toFinset = (used \ released.toFinset).erase mid := by
  ext other
  simp only [List.toFinset_append, Finset.mem_sdiff, Finset.mem_union, Finset.mem_erase,
    List.mem_toFinset, List.mem_singleton]
  tauto

/-- The rows after the round's own one is gone. -/
private theorem Purging.erased
    (purging : Purging watch start before collected ((mid, row) :: todo) engine) :
    ∀ other stored, (engine.store.out.erase mid).get? other = some stored →
      stored.message.state = .queued ∨ other ∈ todo.map Prod.fst := by
  intro other stored found
  rw [Dict.get?_erase] at found
  split at found
  · cases found
  · exact purging.rest found ‹_›

/-- A sealed row that was sent leaves with its session. -/
theorem Purging.buried (sound : Ledger.Sound start)
    (purging : Purging watch start before collected ((mid, row) :: todo) engine)
    (flying : row.message.state ≠ .queued) (dead : engine.outbound.sealed.contains mid = true) :
    Purging watch start before (collected.1, collected.2 ++ [mid]) todo
      { engine with
        outbound := { engine.outbound with sealed := engine.outbound.sealed.erase mid }
        store := engine.store.deleteOut mid } := by
  have unlined := purging.unlined sound flying (.inl dead)
  have once := purging.once
  simp only [List.map_cons, List.nodup_cons] at once
  have sealedRest : ∀ other, other ≠ mid → (engine.outbound.sealed.erase mid).contains other =
      engine.outbound.sealed.contains other := by
    intro other different
    simp [Dict.contains, Dict.get?_erase_of_ne different]
  refine ⟨purging.awaits.others purging.once purging.awaits.reliable rfl
      fun _ different => Dict.get?_erase_of_ne different, once.2,
    purging.tracking.erased rfl rfl le_rfl, ?_, purging.erased, purging.subs, purging.unparked, ?_⟩
  · exact purging.aligned.erased rfl rfl (Purging.elsewhere unlined)
  · refine purging.steps.tail ?_
    convert Ledger.Move.dropSealed (show
      (purgeView watch engine collected ((mid, row) :: todo)).isSealed mid = true from dead) using 1
    have lines : lineup (engine.outbound.sealed.erase mid) (· == .waitPuback) todo =
        lineup engine.outbound.sealed (· == .waitPuback) todo := by
      unfold lineup
      congr 1
      apply List.filter_congr
      rintro ⟨other, stored⟩ member
      rw [sealedRest]
      rintro rfl
      exact once.1 (List.mem_map_of_mem member)
    have rows : ((engine.store.out.mapValues entryOf).erase mid).mapEntries
        (view watch { engine with
          outbound := { engine.outbound with sealed := engine.outbound.sealed.erase mid }
          store := engine.store.deleteOut mid }).requeue =
        ((engine.store.out.mapValues entryOf).mapEntries (view watch engine).requeue).erase mid := by
      rw [← Dict.mapEntries_erase]
      apply Dict.mapEntries_congr
      intro other entry found
      rw [Dict.get?_erase] at found
      split at found
      · cases found
      · exact Ledger.requeue_congr (sealedRest other ‹_›)
    have shown : (view watch { engine with
        outbound := { engine.outbound with sealed := engine.outbound.sealed.erase mid }
        store := engine.store.deleteOut mid }).rows = (engine.store.out.mapValues entryOf).erase mid :=
      Dict.mapValues_erase _ _ _
    simp only [purgeView, shown, rows, sdiff_released, lines, Ledger.dropSealed, Ledger.clearSeal,
      Ledger.forget, lineup_cons, dead, Bool.true_eq_false, false_and, ↓reduceIte, List.nil_append]
    rfl

/-- A live QoS 1 row is sent again as a new one. -/
theorem Purging.requeued (sound : Ledger.Sound start)
    (purging : Purging watch start before collected ((mid, row) :: todo) engine)
    (live : engine.outbound.sealed.contains mid = false)
    (waits : row.message.state = .waitPuback) :
    Purging watch start before
      (collected.1 ++ [.summary { Store.summaryOf before.store.kind row.message with
        state := .queued }], collected.2) todo
      (engine.rewrite mid row { row.message with state := .queued }) := by
  have found := purging.found
  have ok := purging.tracking.coherent.rows mid row found
  have once := purging.once
  simp only [List.map_cons, List.nodup_cons] at once
  have renamed : (QueueEntry.summary { Store.summaryOf before.store.kind row.message with
      state := .queued }).mid = mid := summary_mid ok.named
  -- The row is in line once already, so it is nowhere else in the queue.
  have elsewhere : ∀ entry ∈ collected.1 ++ engine.outbound.queued, entry.mid ≠ mid := by
    have nodup := (sound.steps purging.steps).accounts.once
    simp only [purgeView, lineup_cons, live, waits, beq_self_eq_true, and_self, ↓reduceIte,
      List.cons_append, List.nil_append, List.nodup_middle, List.nodup_cons, List.mem_append,
      List.mem_map, not_or, not_exists, not_and] at nodup
    intro entry member
    rcases List.mem_append.mp member with resent | kept
    · exact nodup.1.1 entry resent
    · exact nodup.1.2.2 entry kept
  refine ⟨purging.awaits.others purging.once purging.awaits.reliable rfl
      fun _ different => Dict.get?_insert_of_ne _ different, once.2,
    purging.tracking.rewritten found (ok.withState .queued) le_rfl, ?_, ?_, purging.subs, purging.unparked, ?_⟩
  · intro entry member
    simp only [List.append_assoc, List.mem_append, List.mem_singleton] at member
    have cases : entry ∈ collected.1 ++ engine.outbound.queued ∨ entry = .summary
        { Store.summaryOf before.store.kind row.message with state := .queued } := by
      simp only [List.mem_append]
      tauto
    rcases cases with old | new
    · exact purging.aligned.rewrite elsewhere entry old
    · subst new
      refine ⟨{ row with message := { row.message with state := .queued } }, ?_, ?_⟩
      · simp only [Engine.rewrite, renamed, Dict.get?_insert_self]
      · have kind : (engine.rewrite mid row { row.message with state := .queued }).store.kind =
            before.store.kind := purging.awaits.kind
        rw [kind]
        cases before.store.kind <;> rfl
  · intro other stored present
    simp only [Engine.rewrite, Dict.get?_insert] at present
    split at present
    · cases present
      exact .inl rfl
    · exact purging.rest present ‹_›
  · have steps := purging.steps
    convert steps using 1
    have entry : (engine.store.out.mapValues entryOf).get? mid = some (entryOf row) := by
      simp [found]
    have rows : ((engine.store.out.mapValues entryOf).insert mid
          (entryOf { row with message := { row.message with state := .queued } })).mapEntries
          (view watch engine).requeue =
        (engine.store.out.mapValues entryOf).mapEntries (view watch engine).requeue := by
      apply Dict.mapEntries_insert_of_get? entry
      have open' : (view watch engine).isSealed mid = false := live
      simp [Ledger.requeue, open', waits, entryOf]
    have shown : (view watch (engine.rewrite mid row { row.message with state := .queued })).rows =
        (engine.store.out.mapValues entryOf).insert mid
          (entryOf { row with message := { row.message with state := .queued } }) :=
      Dict.mapValues_insert _ _ _ _
    have requeue : (view watch (engine.rewrite mid row
        { row.message with state := .queued })).requeue = (view watch engine).requeue := rfl
    simp only [purgeView, shown, requeue, rows, lineup_cons, live, waits, beq_self_eq_true, and_self,
      ↓reduceIte, List.map_append, List.map_cons, List.map_nil, renamed, List.append_assoc]
    rfl

/-- A live QoS 2 exchange is lost with its session. -/
theorem Purging.lost {failure : Failure} (sound : Ledger.Sound start)
    (purging : Purging watch start before collected ((mid, row) :: todo) engine)
    (live : engine.outbound.sealed.contains mid = false) (flying : row.message.state ≠ .queued)
    (other : row.message.state ≠ .waitPuback) :
    Purging watch start before (collected.1, collected.2 ++ [mid]) todo
      { engine with
        store := engine.store.deleteOut mid
        outbound := { engine.outbound with
          pendingMessages := engine.outbound.pendingMessages - 1
          pendingBytes := engine.outbound.pendingBytes - row.message.logicalSize }
        effects := engine.effects ++ [.publishFailed mid failure] } := by
  have found := purging.found
  have unlined := purging.unlined sound flying (.inr other)
  have once := purging.once
  simp only [List.map_cons, List.nodup_cons] at once
  refine ⟨purging.awaits.others purging.once purging.awaits.reliable rfl
      fun _ different => Dict.get?_erase_of_ne different, once.2,
    purging.tracking.erased rfl rfl (by simp), ?_, purging.erased, purging.subs, purging.unparked, ?_⟩
  · exact purging.aligned.erased rfl rfl (Purging.elsewhere unlined)
  · refine purging.steps.tail ?_
    have entry : (purgeView watch engine collected ((mid, row) :: todo)).rows.get? mid =
        some (entryOf row) := by
      rw [purgeView_row _ _ _ found, Ledger.requeue, if_neg (fun both => other both.2)]
    have event : effectEvent watch.who (.publishFailed mid failure) =
        some (.reported row.seq) := by
      simp [effectEvent, purging.tracking.names _ _ found]
    convert Ledger.Move.drop entry live (by simp [purgeView]) using 1
    have same : purgeView watch engine collected ((mid, row) :: todo) =
        purgeView watch engine collected todo := by
      simp [purgeView, lineup_cons, other]
    have queue := List.erase_of_not_mem unlined
    rw [same]
    simp only [purgeView] at queue
    simp only [purgeView, Ledger.drop, Ledger.note, Ledger.unqueue, Ledger.refund, Ledger.forget,
      queue, sdiff_released, ← Dict.mapEntries_erase]
    simp only [view, Store.deleteOut, Dict.mapValues_erase, watch.log_emit purging.tracking.later,
      event, Option.toList_some, entryOf]
    rfl

theorem purgeMessage_sat (sound : Ledger.Sound start)
    (purging : Purging watch start before collected ((mid, row) :: todo) engine) :
    Sat (Outbound.purgeMessage (Store.summaryOf before.store.kind row.message) collected) engine
      (fun next => Purging watch start before next todo) (fun _ _ => False) := by
  have found := purging.found
  have reliable := purging.awaits.reliable
  obtain ⟨state, size, _, named⟩ := readOut_fields before.store.kind row.message
  have named : (Store.summaryOf before.store.kind row.message).mid = mid :=
    named.trans (purging.tracking.coherent.rows mid row found).named
  have state : (Store.summaryOf before.store.kind row.message).state = row.message.state := state
  have size : (Store.summaryOf before.store.kind row.message).logicalSize =
    row.message.logicalSize := size
  obtain ⟨resent, released⟩ := collected
  simp only [Outbound.purgeMessage, sat_bind, sat_get, sat_ite, named, state, size]
  refine ⟨fun queued => purging.skip queued, fun flying => ⟨fun dead => ?_, fun live => ?_⟩⟩
  · simp only [sat_modifyOutbound]
    rw [sat_storeCall (by exact reliable)]
    exact purging.buried sound flying dead
  · have live : engine.outbound.sealed.contains mid = false := by simpa using live
    refine ⟨fun waits => ?_, fun other => ?_⟩
    · have stored : engine.store.outMessage? mid = some row.message := by
        simp [Store.outMessage?, found]
      simp only [sat_storeCall reliable, Store.transitionOut, stored, waits, ↓reduceIte,
        sat_pure, setOut_eq found]
      have requeued := purging.requeued sound live waits
      simp only [named, size] at requeued
      exact requeued
    · have entry : (purgeView watch engine (resent, released) ((mid, row) :: todo)).rows.get? mid =
          some (entryOf row) := by
        rw [purgeView_row _ _ _ found, Ledger.requeue, if_neg (fun both => other both.2)]
      obtain ⟨positive, counted, paid⟩ := (sound.steps purging.steps).accounts.budget entry live
      refine discardRecord_sat reliable positive counted paid ?_
      exact purging.lost sound live flying other

/-- What was never sent is what is not parked. -/
private theorem Ready.unsent (ready : Ready watch engine) :
    (engine.outbound.queued.filter fun entry => entry.state = .queued).map QueueEntry.mid =
      (engine.outbound.queued.map QueueEntry.mid).filter (· ∉ engine.outbound.parked) := by
  have valid := ready.sound.accounts
  rw [List.filter_map]
  congr 1
  apply List.filter_congr
  intro entry member
  obtain ⟨row, found, same⟩ := ready.aligned entry member
  have state : (view watch engine).stateOf entry.mid = some entry.state := by
    simp [Ledger.stateOf, found, entryOf, same.fields.2.1]
  have lined := (valid.lineup entry.mid).mp (List.mem_map_of_mem member)
  simp only [Function.comp_apply, decide_eq_decide]
  constructor
  · intro queued parked
    have waits := (valid.parkedRow entry.mid parked).2
    simp [state, queued] at waits
  · intro unparked
    rcases lined with ⟨queued, _⟩ | parked
    · simpa [state] using queued
    · exact absurd parked unparked

/-- The start of the purge: live QoS 1 work goes back before the queue. -/
theorem Ready.purging {receiveMaximum : Nat} (ready : Ready watch engine)
    (start : engine.effects.length = watch.base) :
    Purging (watch.learn [.session false receiveMaximum])
      ((view watch engine).restart receiveMaximum engine.window) engine ([], [])
      engine.store.out.entries
      { engine with
        outbound := { engine.outbound with
          queued := engine.outbound.queued.filter fun entry => entry.state = .queued
          parked := ∅ } } := by
  refine ⟨⟨ready.tracking.coherent.reliable, rfl, ?_⟩, engine.store.out.nodup, ?_, ?_, ?_, rfl, rfl, ?_⟩
  · exact fun entry member => Dict.get?_eq_some_iff.mpr member
  · exact ⟨⟨ready.tracking.coherent.reliable, ready.tracking.coherent.rows⟩, ready.tracking.later,
      ready.tracking.names⟩
  · intro entry member
    exact ready.aligned entry (List.mem_of_mem_filter member)
  · intro mid row found
    exact .inr (Dict.mem_keys_of_get? found)
  · have lines : (view watch engine).live (· == .waitPuback) =
        lineup engine.outbound.sealed (· == .waitPuback) engine.store.out.entries := by
      simp [Ledger.live, lineup, view, Dict.mapValues, List.filter_map, Function.comp_def,
        Ledger.isSealed]
    have same : purgeView (watch.learn [.session false receiveMaximum])
        { engine with
          outbound := { engine.outbound with
            queued := engine.outbound.queued.filter fun entry => entry.state = .queued
            parked := ∅ } } ([], []) engine.store.out.entries =
        (view watch engine).restart receiveMaximum engine.window := by
      simp only [purgeView, Ledger.restart, lines, ready.unsent]
      simp only [view, List.map_nil, List.nil_append, List.toFinset_nil, Finset.sdiff_empty,
        log_learn start]
      rfl
    exact same ▸ .refl

/-- The rows of a lost session are settled; only the window is still the old one. -/
structure Purged (watch later : Watch) (before after : Engine) : Prop where
  tracking : Tracking later after
  aligned : Aligned after after.outbound.queued
  unparked : after.outbound.parked = ∅
  steps : Steps (view watch before) { view later after with holders := ∅, limit := after.window }

/-- The end of the purge, with the identifiers of the rows that left freed. -/
theorem Purging.purged {later : Watch} {pool : PacketIdPool}
    (restarted : Steps (view watch before) start)
    (purging : Purging later start before collected [] engine)
    (freed : pool.used = engine.outbound.packetIds.used \ collected.2.toFinset) :
    Purged watch later before
      { engine with
        outbound := { engine.outbound with
          queued := collected.1 ++ engine.outbound.queued
          packetIds := pool } } := by
  have queued : ∀ mid entry, (purgeView later engine collected []).rows.get? mid = some entry →
      entry.state = .queued := by
    intro mid entry found
    simp only [purgeView, view, Dict.get?_mapEntries, Dict.get?_mapValues, Option.map_map,
      Option.map_eq_some_iff, Function.comp_apply] at found
    obtain ⟨row, present, rfl⟩ := found
    rcases purging.settled mid row present with queued | member
    · unfold Ledger.requeue
      split
      · rfl
      · exact queued
    · cases member
  have rows : (view later engine).rows.mapEntries (view later engine).requeue =
      (view later engine).rows := by
    apply Dict.mapEntries_id
    intro mid entry found
    obtain ⟨row, present, rfl⟩ := Option.map_eq_some_iff.mp (view_row.symm.trans found)
    rcases purging.settled mid row present with queued | member
    · rw [Ledger.requeue, if_neg]
      simp [queued]
    · cases member
  refine ⟨⟨⟨purging.tracking.coherent.reliable, purging.tracking.coherent.rows⟩,
    purging.tracking.later, purging.tracking.names⟩, purging.aligned, purging.unparked, ?_⟩
  refine restarted.trans (purging.steps.tail ?_)
  convert Ledger.Move.settled queued using 1
  simp only [purgeView, rows, ← freed, lineup, List.filter_nil, List.map_nil, List.nil_append]
  simp [view, purging.unparked]
  rfl

/-- When nothing is left to own an identifier, all of them are free. -/
private theorem Purging.all_freed {later : Watch} (sound : Ledger.Sound start)
    (purging : Purging later start before collected [] engine)
    (idle : collected.1 ++ engine.outbound.queued = [])
    (subs : before.pendingSubRequests.isEmpty = true)
    (sealed : engine.outbound.sealed.values.all id = true) :
    engine.outbound.packetIds.used \ collected.2.toFinset = ∅ := by
  have valid := (sound.steps purging.steps).accounts
  obtain ⟨none, empty⟩ := List.append_eq_nil_iff.mp idle
  apply Finset.eq_empty_of_forall_notMem
  intro mid used
  rcases (valid.owned mid).mp used with stored | pending
  · obtain ⟨entry, found⟩ := Option.isSome_iff_exists.mp stored
    obtain ⟨row, present, rfl⟩ : ∃ row, engine.store.out.get? mid = some row ∧
        (view later engine).requeue mid (entryOf row) = entry := by
      simpa [purgeView] using found
    have queued : row.message.state = .queued := by
      rcases purging.settled mid row present with queued | member
      · exact queued
      · cases member
    have state : (purgeView later engine collected []).stateOf mid = some .queued := by
      rw [Ledger.stateOf, found, Option.map_some, Ledger.requeue, if_neg (by simp [queued])]
      simp [queued]
    cases dead : engine.outbound.sealed.get? mid with
    | none =>
      have lined : mid ∈ (purgeView later engine collected []).queue :=
        (valid.lineup mid).mpr (.inl ⟨state, Ledger.isSealed_eq_false.mpr dead⟩)
      simp [purgeView, none, empty, lineup] at lined
    | some sent =>
      have flag : sent = true := List.all_eq_true.mp sealed sent
        (List.mem_map.mpr ⟨_, Dict.get?_eq_some_iff.mp dead, rfl⟩)
      exact ((valid.sealedRow mid sent dead).2.mp flag) state
  · have keys := Dict.isEmpty_iff.mp subs
    simp [purgeView, view, purging.subs, keys] at pending

/-- The rounds of the purge, over all rows. -/
private theorem purgeRounds_sat {receiveMaximum : Nat} (ready : Ready watch engine)
    (start : engine.effects.length = watch.base)
    (fits : Ledger.Fits engine.config.maxOutboundInflight receiveMaximum engine.window) :
    Sat (Outbound.foldSummaries Outbound.purgeMessage ([], []))
      { engine with
        outbound := { engine.outbound with
          queued := engine.outbound.queued.filter fun entry => entry.state = .queued
          parked := ∅ } }
      (fun collected last => Purging (watch.learn [.session false receiveMaximum])
        ((view watch engine).restart receiveMaximum engine.window) engine collected [] last)
      (fun _ _ => False) := by
  have restarted := Relation.ReflTransGen.single (Ledger.Move.restart rfl fits :
    Ledger.Move (view watch engine) ((view watch engine).restart receiveMaximum engine.window))
  have sound := ready.sound.steps restarted
  exact sat_foldSummaries (Purging _ _ engine)
    (fun _ _ _ purging => purging.awaits)
    (fun _ _ _ _ _ purging => purgeMessage_sat sound purging)
    (ready.purging start)

theorem purgeAfterCleanSession_sat {receiveMaximum : Nat} (ready : Ready watch engine)
    (start : engine.effects.length = watch.base)
    (fits : Ledger.Fits engine.config.maxOutboundInflight receiveMaximum engine.window) :
    Sat (Outbound.purgeAfterCleanSession (engine.pendingSubRequests.isEmpty = false)) engine
      (fun _ after => Purged watch (watch.learn [.session false receiveMaximum]) engine after)
      (fun _ _ => False) := by
  have restarted := Relation.ReflTransGen.single (Ledger.Move.restart rfl fits :
    Ledger.Move (view watch engine) ((view watch engine).restart receiveMaximum engine.window))
  have sound := ready.sound.steps restarted
  simp only [Outbound.purgeAfterCleanSession, sat_bind, sat_modifyOutbound]
  refine (purgeRounds_sat ready start fits).mono ?_ (by simp)
  rintro ⟨resent, released⟩ last purging
  simp only [sat_get, sat_ite, sat_modifyOutbound]
  refine ⟨fun nothing => ?_, fun _ => ?_⟩
  · obtain ⟨idle, alone, dead⟩ := nothing
    refine purging.purged restarted ?_
    rw [purging.all_freed sound idle (by simpa using alone) dead]
    exact PoolState.used_clear
  · exact purging.purged restarted (foldl_release _ _)

/-- The purge leaves nothing that was sent. -/
theorem purgeAfterCleanSession_unsent {receiveMaximum : Nat} (ready : Ready watch engine)
    (start : engine.effects.length = watch.base)
    (fits : Ledger.Fits engine.config.maxOutboundInflight receiveMaximum engine.window)
    (pending : Bool) :
    Sat (Outbound.purgeAfterCleanSession pending) engine
      (fun _ after => ∀ mid row, after.store.out.get? mid = some row → row.message.state = .queued)
      (fun _ _ => False) := by
  simp only [Outbound.purgeAfterCleanSession, sat_bind, sat_modifyOutbound]
  refine (purgeRounds_sat ready start fits).mono ?_ (by simp)
  rintro ⟨resent, released⟩ last purging
  have settled : ∀ mid row, last.store.out.get? mid = some row → row.message.state = .queued := by
    intro mid row found
    simpa using purging.settled mid row found
  simp only [sat_get, sat_ite, sat_modifyOutbound]
  exact ⟨fun _ => settled, fun _ => settled⟩

/-- The end of the old session leaves the inbound direction empty. -/
theorem discardSession_sat {later : Watch} (purged : Purged watch later before engine) :
    Sat Inbound.discardSession engine (fun _ after => Purged watch later before after)
      (fun _ _ => False) := by
  simp only [Inbound.discardSession, sat_bind]
  rw [sat_storeCall purged.tracking.coherent.reliable]
  exact ⟨⟨⟨purged.tracking.coherent.reliable, purged.tracking.coherent.rows⟩,
    purged.tracking.later, purged.tracking.names⟩, purged.aligned, purged.unparked, purged.steps⟩

/-- The new window completes the restart. -/
theorem Purged.progress {later : Watch} (purged : Purged watch later before engine) :
    Sat Outbound.resetFlowForConnection engine
      (fun _ after => Progress watch later before after ∧ after.outbound.parked = ∅)
      (fun _ _ => False) := by
  simp only [Outbound.resetFlowForConnection, sat_modify]
  exact ⟨⟨⟨⟨purged.tracking.coherent.reliable, purged.tracking.coherent.rows⟩,
    purged.tracking.later, purged.tracking.names⟩, purged.aligned, purged.steps⟩, purged.unparked⟩

/-- The engine with entries put back before its queue. -/
def Protocol.Engine.putBack (engine : Engine) (kept : List QueueEntry) : Engine :=
  { engine with
    outbound := { engine.outbound with queued := kept ++ engine.outbound.queued } }

/-- A queued entry is given up, wherever it stands in the line. -/
private theorem Ready.refused {entry : QueueEntry} {kept rest : List QueueEntry} (failure : Failure)
    (ready : Ready watch (engine.putBack kept)) (head : engine.outbound.queued = entry :: rest)
    (unparked : engine.outbound.parked = ∅) :
    Progress watch watch (engine.putBack kept)
      (({ engine with
        store := engine.store.deleteOut entry.mid
        outbound := { engine.outbound with
          pendingMessages := engine.outbound.pendingMessages - 1
          pendingBytes := engine.outbound.pendingBytes - entry.logicalSize
          queued := engine.outbound.queued.tail
          packetIds := engine.outbound.packetIds.release entry.mid }
        effects := engine.effects ++ [.publishFailed entry.mid failure] } : Engine).putBack kept) := by
  have valid := ready.sound.accounts
  obtain ⟨row, found, same⟩ := ready.aligned entry (by simp [Engine.putBack, head])
  have member : entry.mid ∈ (view watch (engine.putBack kept)).queue := by
    simp [view, Engine.putBack, head]
  have live := valid.live_of_mem_queue member
  have idle : entry.mid ∉ engine.outbound.flow.holders := by
    intro held
    obtain ⟨_, _, flying, unparked⟩ := valid.heldRow entry.mid held
    rcases (valid.lineup entry.mid).mp member with ⟨queued, _⟩ | parked
    · exact flying queued
    · exact unparked parked
  have once := valid.once
  simp only [view, Engine.putBack, head, List.map_append, List.map_cons, List.nodup_middle,
    List.nodup_cons, List.mem_append, List.mem_map, not_or, not_exists, not_and] at once
  have event : effectEvent watch.who (.publishFailed entry.mid failure) =
      some (.reported row.seq) := by
    simp [effectEvent, ready.tracking.names _ _ found]
  refine ⟨ready.tracking.erased rfl rfl (by simp [Engine.putBack]), ?_, ?_⟩
  · intro other present
    simp only [Engine.putBack, head, List.tail_cons, List.mem_append] at present
    obtain ⟨next, there, also⟩ := ready.aligned other (by
      simp only [Engine.putBack, head, List.mem_append, List.mem_cons]
      tauto)
    have different : other.mid ≠ entry.mid := by
      rcases present with before | after
      · exact once.1.1 other before
      · exact once.1.2 other after
    exact ⟨next, (Dict.get?_erase_of_ne different).trans there, also⟩
  · refine .single ?_
    convert Ledger.Move.drop
      (show (view watch (engine.putBack kept)).rows.get? entry.mid = some (entryOf row) by
        simp [found]) live idle using 1
    have queue : (kept.map QueueEntry.mid ++ entry.mid :: rest.map QueueEntry.mid).erase entry.mid =
        kept.map QueueEntry.mid ++ rest.map QueueEntry.mid := by
      rw [List.erase_append_right _ (by simpa using once.1.1)]
      simp
    have later : watch.base ≤ engine.effects.length := ready.tracking.later
    simp [view, Engine.putBack, Ledger.drop, Ledger.note, Ledger.unqueue, Ledger.refund,
      Ledger.forget, Store.deleteOut, head, queue, unparked, watch.log_emit later, event, entryOf,
      same.fields.2.2]

theorem failQueuedFor_sat {fuel : Nat} (kept : List QueueEntry)
    (ready : Ready watch (engine.putBack kept)) (unparked : engine.outbound.parked = ∅)
    (enough : engine.outbound.queued.length ≤ fuel) :
    Sat (Outbound.failQueuedFor fuel kept) engine
      (fun _ after => Progress watch watch (engine.putBack kept) after) (fun _ _ => False) := by
  induction fuel generalizing engine kept with
  | zero =>
    have empty : engine.outbound.queued = [] := List.length_eq_zero_iff.mp (by omega)
    have whole := ready.refl
    simpa [Outbound.failQueuedFor, Engine.putBack, empty] using whole
  | succ fuel ih =>
    simp only [Outbound.failQueuedFor, sat_bind, sat_get]
    cases head : engine.outbound.queued with
    | nil =>
      have whole := ready.refl
      simpa [Engine.putBack, head] using whole
    | cons entry rest =>
      have shorter : rest.length ≤ fuel := by
        simpa [head] using enough
      obtain ⟨row, found, matching⟩ := ready.aligned entry (by simp [Engine.putBack, head])
      dsimp only
      cases verdict : Outbound.validateAgainstNegotiated engine entry with
      | ok _ =>
        simp only [sat_bind, Outbound.popQueue, sat_modifyOutbound]
        have same : ({ engine with
            outbound := { engine.outbound with
              queued := engine.outbound.queued.tail } } : Engine).putBack (kept ++ [entry]) =
            engine.putBack kept := by
          simp [Engine.putBack, head]
        rw [← same] at ready ⊢
        exact ih _ ready unparked (by simpa [head] using shorter)
      | error failure =>
        have refused := validate_refused
          (ready.tracking.coherent.rows entry.mid row found) matching verdict
        have lined : entry.mid ∈ (view watch (engine.putBack kept)).queue := by
          simp [view, Engine.putBack, head]
        have live := ready.sound.accounts.live_of_mem_queue lined
        obtain ⟨positive, counted, paid⟩ := ready.sound.accounts.budget
          (show (view watch (engine.putBack kept)).rows.get? entry.mid = some (entryOf row) by
            simp [found]) live
        simp only [refused, ↓reduceIte, sat_bind]
        refine discardRecord_sat ready.tracking.coherent.reliable
          (matching.fields.2.2 ▸ positive) counted (matching.fields.2.2 ▸ paid) ?_
        have progress := ready.refused failure head unparked
        refine (ih _ (ready.progress progress) unparked (by simpa [head] using shorter)).mono ?_ (by simp)
        exact fun _ _ more => progress.trans more

theorem failQueued_sat (ready : Ready watch engine) (unparked : engine.outbound.parked = ∅) :
    Sat Outbound.failQueuedViolatingNegotiation engine
      (fun _ after => Progress watch watch engine after) (fun _ _ => False) := by
  simp only [Outbound.failQueuedViolatingNegotiation, sat_bind, sat_get]
  exact failQueuedFor_sat [] ready unparked le_rfl

end

end Mqttium
