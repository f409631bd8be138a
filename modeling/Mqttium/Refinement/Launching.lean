import Mqttium.Refinement.View

/-! Launching and resending one publication of the queue. -/

namespace Mqttium

open Codec Library Packets Persistence Protocol

theorem waiting_target (qos : QoS) : (Outbound.targetState qos).waiting = true := by
  cases qos <;> rfl

section

variable {engine : Engine} {mid : Nat} {row : OutRow} {message : OutboundMessage}
  {returned : PUnit → Engine → Prop} {raised : Failure → Engine → Prop}

/-- Checking a size changes nothing. -/
theorem sat_checkOutboundSize {item : WriteItem} (fits : returned ⟨⟩ engine)
    (refused : ∀ failure, raised failure engine) :
    Sat (checkOutboundSize item) engine returned raised := by
  simp only [checkOutboundSize, sat_bind, sat_get]
  split
  · exact fits
  · exact (sat_raiseIf _ _ _ _).mpr ⟨fun _ => refused _, fun _ => fits⟩

theorem sat_commitTopicAlias {topic : Text} {properties : Option Properties}
    (number : ∃ number, Outbound.topicAlias properties = .ok number)
    (done : ∀ aliases, returned ⟨⟩
      { engine with outbound := { engine.outbound with topicAliases := aliases } }) :
    Sat (Outbound.commitTopicAlias topic properties) engine returned raised := by
  obtain ⟨number, ok⟩ := number
  have same := done engine.outbound.topicAliases
  simp only [Outbound.commitTopicAlias, ok, fromExcept, pure_bind]
  cases number with
  | none => exact same
  | some number =>
    refine (sat_onlyIf _ _ _ _).mpr ⟨fun _ => done _, fun _ => same⟩

private theorem withDup_bits (first : UInt8) :
    (Outbound.withDup first).toNat / 16 = first.toNat / 16 ∧
      (Outbound.withDup first).toNat / 2 % 4 = first.toNat / 2 % 4 ∧
      (Outbound.withDup first).toNat / 8 % 2 = 1 := by
  have small := first.toNat_lt
  unfold Outbound.withDup
  split
  · exact ⟨rfl, rfl, by assumption⟩
  · have sum : (first + 8).toNat = first.toNat + 8 := by
      rw [UInt8.toNat_add]
      have : (8 : UInt8).toNat = 8 := rfl
      omega
    omega

theorem seen_markPublishDup {item : WriteItem} {dup : Bool}
    (shown : seen item.header = some (.publish mid dup)) :
    seen (Outbound.markPublishDup item).header = some (.publish mid true) := by
  have marked : (Outbound.markPublishDup item).header = Outbound.markFrame item.header := by
    cases item <;> rfl
  rw [marked]
  cases frame : item.header with
  | nil => simp [frame, seen] at shown
  | cons first rest =>
    rw [frame] at shown
    obtain ⟨kind, quality, flag⟩ := withDup_bits first
    have changed := seen_publish_first shown kind quality
    simpa [Outbound.markFrame, flag] using changed

theorem seen_launchFrame {hints : Outbound.LaunchHints} {item : WriteItem}
    (cached : Cached message) (ok : Outbound.launchFrame engine message hints = .ok item)
    (short : ∀ bytes, hints.topicBytes = some bytes → bytes.length < 65536) :
    seen item.header = some (.publish message.mid message.dup) := by
  unfold Outbound.launchFrame at ok
  split at ok
  · rename_i retained
    cases ok
    exact cached.publish _ retained
  · exact seen_encodePublishItem ok short rfl

/-- What a launched or resent publication leaves behind: its row rewritten, the
frame among the effects, perhaps a topic alias. -/
structure Left (engine after : Engine) (mid : Nat) (row : OutRow) (state : OutboundQoSState)
    (dup : Bool) : Prop where
  shape : ∃ stored aliases wire, RowOk mid stored ∧ stored.state = state ∧
    stored.logicalSize = row.message.logicalSize ∧
    seen wire.header = some (.publish mid dup) ∧
    after = { engine.rewrite mid row stored with
      outbound := { engine.outbound with topicAliases := aliases }
      effects := engine.effects ++ [.send wire] }

theorem RowOk.withState (ok : RowOk mid message) (state : OutboundQoSState) :
    RowOk mid { message with state } :=
  ⟨ok.named, ⟨ok.storable.topic, ok.storable.table, ok.storable.stripped⟩,
    ⟨ok.cached.publish, ok.cached.pubrel⟩⟩

private theorem retained_shown {wire item : WriteItem} {shown : Option Seen}
    (kept : Outbound.retainPublishItem wire = some item) (read : seen wire.header = shown) :
    seen item.header = shown := by
  cases wire with
  | contiguous frame => simp [Outbound.retainPublishItem] at kept
  | segmented header payload =>
    simp only [Outbound.retainPublishItem, Option.some.injEq] at kept
    exact kept ▸ read

theorem RowOk.launched (ok : RowOk mid message) (hints : Outbound.LaunchHints) {wire : WriteItem}
    (shown : seen wire.header = some (.publish message.mid message.dup)) :
    RowOk mid (Outbound.launchedRecord message hints wire) := by
  refine ⟨ok.named, ⟨ok.storable.topic, ok.storable.table, ok.storable.stripped⟩, ?_,
    ok.cached.pubrel⟩
  intro item retained
  simp only [Outbound.launchedRecord] at retained ⊢
  split at retained
  · exact retained_shown retained shown
  · cases retained

/-- The row of a publication after `store.transition_out`, and after the record the
backend handed out is assigned to. -/
theorem transitionOut_eq {expected next : OutboundQoSState}
    (found : engine.store.out.get? mid = some row) (matching : row.message.state = expected) :
    engine.store.transitionOut mid expected next =
      (some { mid, state := next, logicalSize := row.message.logicalSize },
        (engine.rewrite mid row { row.message with state := next }).store) := by
  simp [Store.transitionOut, Store.outMessage?, found, matching, setOut_eq found, Engine.rewrite]

/-- The stored record after an assignment to the one the backend handed out. -/
def shared (kind : StoreKind) (assigned stored : OutboundMessage) : OutboundMessage :=
  match kind with
  | .memory => assigned
  | .sqlite => stored

@[simp] theorem shared_shared (kind : StoreKind) (last first stored : OutboundMessage) :
    shared kind last (shared kind first stored) = shared kind last stored := by
  cases kind <;> rfl

/-- What holds of both records holds of the stored one. -/
theorem shared_elim (property : OutboundMessage → Prop) (kind : StoreKind)
    (assigned : OutboundMessage) {stored : OutboundMessage} (new : property assigned) (old : property stored) :
    property (shared kind assigned stored) := by
  cases kind
  · exact new
  · exact old

theorem assignOut_eq (found : engine.store.out.get? mid = some row) (named : message.mid = mid) :
    engine.store.assignOut message =
      (engine.rewrite mid row (shared engine.store.kind message row.message)).store := by
  unfold Store.assignOut
  cases kind : engine.store.kind with
  | memory => simp [named, setOut_eq found, Engine.rewrite, shared]
  | sqlite => simp [Engine.rewrite, Dict.insert_of_get? found, shared]

@[simp] theorem rewrite_rewrite (other : OutboundMessage) :
    (engine.rewrite mid row message).rewrite mid { row with message } other =
      engine.rewrite mid row other := by
  simp [Engine.rewrite]

@[simp] theorem rewrite_get? : (engine.rewrite mid row message).store.out.get? mid =
    some { row with message } := by
  simp [Engine.rewrite]

theorem storeLaunched_sat (reliable : engine.store.Reliable)
    (found : engine.store.out.get? mid = some row) (queued : row.message.state = .queued)
    (named : message.mid = mid)
    (done : returned ⟨⟩ (engine.rewrite mid row
      (shared engine.store.kind message { row.message with state := message.state }))) :
    Sat (Outbound.storeLaunched message true) engine returned raised := by
  simp only [Outbound.storeLaunched, ↓reduceIte, sat_bind, sat_storeCall reliable, named,
    transitionOut_eq found queued, sat_modify]
  rw [assignOut_eq rewrite_get? named]
  simpa [Engine.rewrite] using done

/-- Launching the stored record of the queue's head. Nothing has changed when it
raises. -/
theorem launch_sat (coherent : Coherent engine) (found : engine.store.out.get? mid = some row)
    (queued : row.message.state = .queued) (ok : RowOk mid message) (first : message.dup = false)
    (size : message.logicalSize = row.message.logicalSize) (qos : message.qos = row.message.qos)
    (done : ∀ after, Left engine after mid row (Outbound.targetState row.message.qos) false →
      returned ⟨⟩ after)
    (refused : ∀ failure, raised failure engine) :
    Sat (Outbound.launch message true {}) engine returned raised := by
  simp only [Outbound.launch, sat_bind, sat_get, sat_fromExcept]
  refine ⟨?_, fun failure _ => refused failure⟩
  intro wire framed
  have shown := seen_launchFrame ok.cached framed (by simp)
  have launched := ok.launched {} shown
  apply sat_checkOutboundSize _ refused
  have recordNamed : (Outbound.launchedRecord message {} wire).mid = mid := ok.named
  apply storeLaunched_sat coherent.reliable found queued recordNamed
  simp only [send, sat_emit]
  apply sat_commitTopicAlias ok.storable.table.number
  intro aliases
  apply done
  rw [ok.named, first] at shown
  refine ⟨_, aliases, wire, ?_, ?_, ?_, shown, rfl⟩
  · exact shared_elim _ _ _ launched ((coherent.rows mid row found).withState _)
  · exact shared_elim (fun stored => stored.state = _) _ _
      (by simp [Outbound.launchedRecord, qos]) (by simp [Outbound.launchedRecord, qos])
  · exact shared_elim (fun stored => stored.logicalSize = _) _ _
      (by simp [Outbound.launchedRecord, size]) rfl

theorem sat_assign (message : OutboundMessage) (found : engine.store.out.get? mid = some row) (named : message.mid = mid)
    (done : returned ⟨⟩ (engine.rewrite mid row (shared engine.store.kind message row.message))) :
    Sat (Outbound.assign message) engine returned raised := by
  simp only [Outbound.assign, sat_modify]
  rw [assignOut_eq found named]
  exact done

theorem RowOk.marked (ok : RowOk mid message) : TableOk (Outbound.markedRecord message).properties :=
  ok.storable.stripped

private theorem stripped_twice (properties : Option Properties) :
    propertiesWithoutTopicAlias (propertiesWithoutTopicAlias properties) =
      propertiesWithoutTopicAlias properties := by
  cases properties with
  | none => rfl
  | some table =>
    by_cases absent : table.get .topicAlias = none
    · simp [propertiesWithoutTopicAlias, absent]
    · have erased : ({ values := table.values.erase .topicAlias } : Properties).get .topicAlias =
          none := by
        simp [Properties.get]
      simp [propertiesWithoutTopicAlias, absent, erased]

theorem RowOk.resent (ok : RowOk mid message) {wire : WriteItem}
    (shown : seen wire.header = some (.publish mid true)) :
    RowOk mid { Outbound.markedRecord message with
      encodedPublish := Outbound.retainPublishItem wire } := by
  refine ⟨ok.named, ⟨ok.storable.topic, ok.storable.stripped, ?_⟩, ?_, ok.cached.pubrel⟩
  · simpa [Outbound.markedRecord, stripped_twice] using ok.storable.stripped
  · intro item retained
    have named : (Outbound.markedRecord message).mid = mid := ok.named
    simp only [named]
    exact retained_shown retained shown

theorem seen_resendFrame (ok : RowOk mid message) {wire : WriteItem}
    (framed : Outbound.resendFrame engine (Outbound.markedRecord message) = .ok wire) :
    seen wire.header = some (.publish mid true) := by
  unfold Outbound.resendFrame at framed
  split at framed
  · rename_i retained cached
    cases framed
    simp only [Outbound.markedRecord] at cached
    split at cached
    · cases cached
    · exact seen_markPublishDup (ok.named ▸ ok.cached.publish _ cached)
  · exact seen_encodePublishItem framed (by simp) (congrArg some ok.named)

/-- Resending a publication in flight. A failure leaves its row rewritten. -/
theorem resendPublish_sat (coherent : Coherent engine) (found : engine.store.out.get? mid = some row)
    (ok : RowOk mid message) (state : message.state = row.message.state)
    (size : message.logicalSize = row.message.logicalSize)
    (done : ∀ after, Left engine after mid row row.message.state true → returned ⟨⟩ after)
    (refused : ∀ failure stored, stored.state = row.message.state →
      stored.logicalSize = row.message.logicalSize →
      raised failure (engine.rewrite mid row stored)) :
    Sat (Outbound.resendPublish message) engine returned raised := by
  have fine := coherent.rows mid row found
  simp only [Outbound.resendPublish, sat_bind, sat_get]
  apply sat_assign (Outbound.markedRecord message) found ok.named
  have kept := shared_elim (fun stored => stored.state = row.message.state ∧
    stored.logicalSize = row.message.logicalSize) engine.store.kind
    (Outbound.markedRecord message) ⟨state, size⟩ ⟨rfl, rfl⟩
  simp only [sat_fromExcept]
  refine ⟨?_, fun failure _ => refused failure _ kept.1 kept.2⟩
  intro wire framed
  have shown := seen_resendFrame ok framed
  refine sat_checkOutboundSize ?_ fun failure => refused failure _ kept.1 kept.2
  have named : ({ Outbound.markedRecord message with
    encodedPublish := Outbound.retainPublishItem wire } : OutboundMessage).mid = mid := ok.named
  apply sat_assign _ rewrite_get? named
  rw [rewrite_rewrite]
  simp only [send, sat_emit]
  apply sat_commitTopicAlias ok.marked.number
  intro aliases
  apply done
  refine ⟨_, aliases, wire, ?_, ?_, ?_, shown, rfl⟩
  · simpa [Engine.rewrite] using shared_elim _ engine.store.kind _ (ok.resent shown) fine
  · simpa [Engine.rewrite] using shared_elim
      (fun stored => stored.state = row.message.state) engine.store.kind
      { Outbound.markedRecord message with
        encodedPublish := Outbound.retainPublishItem wire } state rfl
  · simpa [Engine.rewrite] using shared_elim
      (fun stored => stored.logicalSize = row.message.logicalSize) engine.store.kind
      { Outbound.markedRecord message with
        encodedPublish := Outbound.retainPublishItem wire } size rfl

theorem resendPubrel_sat (found : engine.store.out.get? mid = some row) (ok : RowOk mid message)
    (small : mid < 65536) (state : message.state = row.message.state)
    (size : message.logicalSize = row.message.logicalSize)
    (fine : RowOk mid row.message)
    (done : ∀ stored wire, RowOk mid stored → stored.state = row.message.state →
      stored.logicalSize = row.message.logicalSize → seen wire = some (.pubrel mid) →
      returned ⟨⟩ { engine.rewrite mid row stored with
        effects := engine.effects ++ [.send (.contiguous wire)] })
    (refused : ∀ failure stored, stored.state = row.message.state →
      stored.logicalSize = row.message.logicalSize →
      raised failure (engine.rewrite mid row stored)) :
    Sat (Outbound.resendPubrel message) engine returned raised := by
  unfold Outbound.resendPubrel
  cases cached : message.encodedPubrel with
  | some frame =>
    simp only [send, sat_emit]
    have same := done row.message frame fine rfl rfl (ok.named ▸ ok.cached.pubrel frame cached)
    simpa [Engine.rewrite, Dict.insert_of_get? found] using same
  | none =>
    have shown := seen_encodePubrelSuccess small
    simp only [sat_bind, ok.named]
    apply sat_assign _ found rfl
    have kept := shared_elim (fun stored => RowOk mid stored ∧
      stored.state = row.message.state ∧ stored.logicalSize = row.message.logicalSize)
      engine.store.kind
      { message with mid, encodedPubrel := some (encodePubrelSuccess mid) }
      (by
        refine ⟨⟨rfl, ⟨ok.storable.topic, ok.storable.table, ok.storable.stripped⟩, ?_, ?_⟩,
          state, size⟩
        · exact fun item retained => ok.named ▸ ok.cached.publish item retained
        · rintro frame ⟨rfl⟩
          exact shown)
      ⟨fine, rfl, rfl⟩
    refine sat_checkOutboundSize ?_ fun failure => refused failure _ kept.2.1 kept.2.2
    exact done _ _ kept.1 kept.2.1 kept.2.2 shown

theorem readOut_ok (ok : RowOk mid message) (kind : StoreKind) :
    RowOk mid (Store.readOut kind message) := by
  cases kind with
  | memory => exact ok
  | sqlite =>
    have none : TableOk none :=
      ⟨⟨_, rfl⟩, fun failure refused => by cases refused⟩
    refine ⟨ok.named, ⟨ok.storable.topic, ?_, ?_⟩, ?_, ?_⟩
    · simp only [Store.readOut]
      split
      · exact ok.storable.table
      · exact none
    · simp only [Store.readOut]
      split
      · exact ok.storable.stripped
      · exact none
    · intro item retained
      simp [Store.readOut] at retained
    · intro frame retained
      simp [Store.readOut] at retained

theorem readOut_fields (kind : StoreKind) (message : OutboundMessage) :
    (Store.readOut kind message).state = message.state ∧
      (Store.readOut kind message).logicalSize = message.logicalSize ∧
      (Store.readOut kind message).qos = message.qos ∧
      (Store.readOut kind message).mid = message.mid := by
  cases kind <;> exact ⟨rfl, rfl, rfl, rfl⟩

/-- The full record of an entry is a good copy of its row. -/
theorem materialize_sat {entry : QueueEntry} {returned : OutboundMessage → Engine → Prop}
    (coherent : Coherent engine) (found : engine.store.out.get? entry.mid = some row)
    (matching : entry.Matches engine.store.kind row.message)
    (done : ∀ message, RowOk entry.mid message → message.state = row.message.state →
      message.logicalSize = row.message.logicalSize → message.qos = row.message.qos →
      returned message engine) :
    Sat (Outbound.materialize entry) engine returned raised := by
  have ok := coherent.rows entry.mid row found
  cases entry with
  | message stored =>
    cases matching
    exact done _ ok rfl rfl rfl
  | summary stored =>
    have named : stored.mid = row.message.mid := by
      rw [show stored = Store.summaryOf engine.store.kind row.message from matching]
      exact (readOut_fields _ _).2.2.2
    obtain ⟨state, size, qos, _⟩ := readOut_fields engine.store.kind row.message
    simp only [Outbound.materialize, sat_bind, sat_storeRead coherent.reliable, Store.getOut,
      Store.outMessage?]
    have present : engine.store.out.get? stored.mid = some row := found
    simp only [present, Option.map_some]
    exact done _ (readOut_ok ok _) state size qos

private theorem Left.of_rewrite {after : Engine} {state : OutboundQoSState} {dup : Bool}
    (left : Left (engine.rewrite mid row message) after mid { row with message } state dup)
    (size : message.logicalSize = row.message.logicalSize) :
    Left engine after mid row state dup := by
  obtain ⟨stored, aliases, wire, ok, stage, sized, shown, rfl⟩ := left.shape
  rw [rewrite_rewrite]
  exact ⟨stored, aliases, wire, ok, stage, sized.trans size, shown, rfl⟩

/-- A record as never sent. -/
private theorem RowOk.fresh (ok : RowOk mid message) :
    RowOk mid { message with dup := false, encodedPublish := none } :=
  ⟨ok.named, ⟨ok.storable.topic, ok.storable.table, ok.storable.stripped⟩, by simp,
    ok.cached.pubrel⟩

theorem retransmit_waiting (waits : message.state.waiting = true) :
    Outbound.retransmit message = Outbound.resendPublish message := by
  unfold Outbound.retransmit
  cases stage : message.state <;> simp [stage, OutboundQoSState.waiting] at waits ⊢

/-- Launch or resend the entry at the head of the queue. A failure leaves at most
its row rewritten. -/
theorem launchEntry_sat {entry : QueueEntry} (coherent : Coherent engine)
    (found : engine.store.out.get? entry.mid = some row)
    (matching : entry.Matches engine.store.kind row.message)
    (launched : row.message.state = .queued → ∀ after,
      Left engine after entry.mid row (Outbound.targetState row.message.qos) false →
      returned ⟨⟩ after)
    (resent : row.message.state.waiting = true → ∀ after,
      Left engine after entry.mid row row.message.state true → returned ⟨⟩ after)
    (stage : row.message.state = .queued ∨ row.message.state.waiting = true)
    (refused : ∀ failure stored, stored.state = row.message.state →
      stored.logicalSize = row.message.logicalSize →
      raised failure (engine.rewrite entry.mid row stored)) :
    Sat (Outbound.launchEntry entry) engine returned raised := by
  have same : engine.rewrite entry.mid row row.message = engine := by
    simp [Engine.rewrite, Dict.insert_of_get? found]
  simp only [Outbound.launchEntry, sat_bind]
  apply materialize_sat coherent found matching
  intro message ok state size qos
  simp only [sat_ite]
  refine ⟨fun queued => ⟨fun again => ?_, fun first => ?_⟩, fun flying => ?_⟩
  · -- Requeued after its session was discarded: it leaves as a first attempt.
    have queued := state ▸ queued
    have fine := coherent.rows entry.mid row found
    simp only [sat_bind]
    apply sat_assign { message with dup := false, encodedPublish := none } found
      ok.named
    have kept := shared_elim (fun stored => RowOk entry.mid stored ∧
      stored.state = row.message.state ∧ stored.logicalSize = row.message.logicalSize ∧
      stored.qos = row.message.qos) engine.store.kind
      { message with dup := false, encodedPublish := none }
      ⟨ok.fresh, state, size, qos⟩ ⟨fine, rfl, rfl, rfl⟩
    obtain ⟨good, stage', sized, quality⟩ := kept
    refine launch_sat (coherent.rewrite good) rewrite_get? (stage'.trans queued) ok.fresh rfl
      (size.trans sized.symm) (qos.trans quality.symm) ?_ fun failure => refused failure _ stage' sized
    intro after left
    rw [quality] at left
    exact launched queued after (left.of_rewrite sized)
  · have queued := state ▸ queued
    apply launch_sat coherent found queued ok (by simpa using first) size qos (launched queued)
    intro failure
    exact same ▸ refused failure row.message rfl rfl
  · have waits : row.message.state.waiting = true := by
      rcases stage with queued | waits
      · exact absurd (state.trans queued) flying
      · exact waits
    rw [retransmit_waiting (state ▸ waits)]
    exact resendPublish_sat coherent found ok state size (resent waits) refused

end

end Mqttium
