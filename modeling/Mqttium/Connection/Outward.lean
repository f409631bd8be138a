import Mqttium.Connection.Frames
import Mqttium.Refinement.Launching

/-! What the outbound direction does beside the inbound one. Each operation stays
within any relation that its elementary steps stay within. -/

namespace Mqttium

open Codec Library Packets Persistence Protocol

/-- A change of the store that leaves the inbound rows alone. -/
structure LeavesIn (change : Store → Store) : Prop where
  rows : ∀ store, (change store).inbound = store.inbound
  seq : ∀ store, (change store).inSeq = store.inSeq
  kind : ∀ store, (change store).kind = store.kind
  faults : ∀ store, (change store).faults = store.faults

/-- The effect settles a publication. -/
def Protocol.Effect.Reports : Effect → Prop
  | .publishComplete _ => True
  | .publishFailed _ _ => True
  | _ => False

/-- A relation that the elementary steps of the outbound direction stay within, as long
as the frames they keep are good and they send nothing. -/
class Outward (relation : Engine → Engine → Prop) extends IsPreorder Engine relation where
  good : WriteItem → Prop
  facts : Yields (Honest good) relation (get : EngineM Engine)
  session : ∀ {change : OutboundSession → OutboundSession},
    (∀ outbound, (∀ entry ∈ outbound.queued, entry.Caches good) →
      ∀ entry ∈ (change outbound).queued, entry.Caches good) →
    Within relation (modifyOutbound change)
  store : ∀ {Value : Type} {call : StoreCall} {run : Store → Value × Store} {holds : Value → Prop},
    LeavesIn (fun store => (run store).2) →
    (∀ store : Store, store.Caches good → holds (run store).1 ∧ (run store).2.Caches good) →
    Yields holds relation (storeCall call run)
  assign : ∀ {change : Store → Store}, LeavesIn change →
    (∀ store : Store, store.Caches good → (change store).Caches good) →
    Within relation
      (modify fun engine => { engine with store := change engine.store } : EngineM PUnit)
  subs : ∀ change : Dict Nat (PacketType × Nat) → Dict Nat (PacketType × Nat),
    Within relation (modify fun engine =>
      { engine with pendingSubRequests := change engine.pendingSubRequests } : EngineM PUnit)
  report : ∀ {effect}, effect.Reports → Within relation (emit effect)

/-! Cached frames -/

section

variable {good : WriteItem → Prop} {message : OutboundMessage} {store : Store} {mid : Nat}

theorem Caches.of_none (publish : message.encodedPublish = none)
    (pubrel : message.encodedPubrel = none) : Caches good message :=
  ⟨fun _ cached => by simp [publish] at cached, fun _ cached => by simp [pubrel] at cached⟩

theorem Caches.read (caches : Caches good message) (kind : StoreKind) :
    Caches good (Store.readOut kind message) := by
  cases kind with
  | memory => exact caches
  | sqlite => exact Caches.of_none rfl rfl

theorem caches_retained {wire : WriteItem} (sent : good wire) {item : WriteItem}
    (kept : Outbound.retainPublishItem wire = some item) : good item := by
  cases wire with
  | contiguous frame => cases kept
  | segmented header payload =>
    cases kept
    exact sent

theorem Caches.launched (caches : Caches good message) (hints : Outbound.LaunchHints)
    {wire : WriteItem} (sent : good wire) :
    Caches good (Outbound.launchedRecord message hints wire) := by
  refine ⟨?_, caches.pubrel⟩
  intro item cached
  simp only [Outbound.launchedRecord] at cached
  split at cached
  · exact caches_retained sent cached
  · cases cached

theorem Caches.marked (caches : Caches good message) :
    Caches good (Outbound.markedRecord message) := by
  refine ⟨?_, caches.pubrel⟩
  intro item cached
  simp only [Outbound.markedRecord] at cached
  split at cached
  · cases cached
  · exact caches.publish item cached

theorem Caches.resent (caches : Caches good message) {wire : WriteItem} (sent : good wire) :
    Caches good { Outbound.markedRecord message with
      encodedPublish := Outbound.retainPublishItem wire } :=
  ⟨fun _ cached => caches_retained sent cached, caches.pubrel⟩

/-- Replacing one row by another whose frames are good. -/
theorem Persistence.Store.Caches.insert {row : OutRow} (caches : store.Caches good)
    (fine : Mqttium.Caches good row.message) :
    Store.Caches good { store with out := store.out.insert mid row } := by
  intro other stored found
  simp only [Dict.get?_insert] at found
  split at found
  · cases found
    exact fine
  · exact caches other stored found

theorem Persistence.Store.Caches.setOut (caches : store.Caches good)
    {change : OutboundMessage → OutboundMessage}
    (fine : ∀ message, Mqttium.Caches good message → Mqttium.Caches good (change message)) :
    (store.setOut mid change).Caches good := by
  intro other stored found
  simp only [Store.setOut, Dict.get?_modify] at found
  split at found
  · obtain ⟨row, present, rfl⟩ := Option.map_eq_some_iff.mp found
    exact fine _ (caches mid row present)
  · exact caches other stored found

theorem Persistence.Store.Caches.deleteOut (caches : store.Caches good) :
    (store.deleteOut mid).Caches good := by
  intro other stored found
  simp only [Store.deleteOut, Dict.get?_erase] at found
  split at found
  · cases found
  · exact caches other stored found

theorem Persistence.Store.Caches.putOut (caches : store.Caches good)
    (fine : Mqttium.Caches good message) : (store.putOut message).Caches good := by
  unfold Store.putOut
  split
  · exact caches.insert fine
  · exact caches.insert fine

theorem Persistence.Store.Caches.assignOut (caches : store.Caches good)
    (fine : Mqttium.Caches good message) : (store.assignOut message).Caches good := by
  unfold Store.assignOut
  split
  · exact caches.setOut fun _ _ => fine
  · exact caches

theorem Persistence.Store.Caches.transitionOut (caches : store.Caches good)
    (expected next : OutboundQoSState) (compact : Bool) :
    (store.transitionOut mid expected next compact).2.Caches good := by
  unfold Store.transitionOut
  split
  · split
    · refine caches.setOut fun stored fine => ?_
      cases compact with
      | false => exact ⟨fine.publish, fine.pubrel⟩
      | true => exact ⟨nofun, fine.pubrel⟩
    · exact caches
  · exact caches

theorem Persistence.Store.Caches.completeOut (caches : store.Caches good)
    (expected : OutboundQoSState) : (store.completeOut mid expected).2.Caches good := by
  unfold Store.completeOut
  split
  · split
    · exact caches.deleteOut
    · exact caches
  · exact caches

theorem Persistence.Store.Caches.getOut (caches : store.Caches good)
    (found : store.getOut mid = some message) : Mqttium.Caches good message := by
  simp only [Store.getOut, Store.outMessage?, Option.map_map, Option.map_eq_some_iff] at found
  obtain ⟨row, present, rfl⟩ := found
  exact (caches mid row present).read store.kind

end

/-! Store calls -/

theorem leavesIn_deleteOut (mid : Nat) : LeavesIn fun store => store.deleteOut mid :=
  ⟨fun _ => rfl, fun _ => rfl, fun _ => rfl, fun _ => rfl⟩

theorem leavesIn_putOut (message : OutboundMessage) : LeavesIn fun store => store.putOut message := by
  constructor <;> intro store <;> unfold Store.putOut <;> split <;> rfl

theorem leavesIn_assignOut (message : OutboundMessage) :
    LeavesIn fun store => store.assignOut message := by
  constructor <;> intro store <;> simp only [Store.assignOut] <;> split <;> simp_all [Store.setOut]

theorem leavesIn_transitionOut (mid : Nat) (expected next : OutboundQoSState) (compact : Bool) :
    LeavesIn fun store => (store.transitionOut mid expected next compact).2 := by
  constructor <;> intro store <;> unfold Store.transitionOut <;> split <;> try split
  all_goals rfl

theorem leavesIn_completeOut (mid : Nat) (expected : OutboundQoSState) :
    LeavesIn fun store => (store.completeOut mid expected).2 := by
  constructor <;> intro store <;> unfold Store.completeOut <;> split <;> try split
  all_goals rfl

section

variable {relation : Engine → Engine → Prop} [Outward relation] {Value : Type}

theorem outward_storeCall {call : StoreCall} {run : Store → Value × Store}
    (apart : LeavesIn fun store => (run store).2)
    (caches : ∀ store : Store, store.Caches (Outward.good relation) →
      (run store).2.Caches (Outward.good relation)) :
    Within relation (storeCall call run) := by
  have yields : Yields (fun _ => True) relation (storeCall call run) :=
    Outward.store apart fun store fine => ⟨trivial, caches store fine⟩
  exact yields.within

theorem outward_storeRead {call : StoreCall} {read : Store → Value} :
    Within relation (storeRead call read) :=
  outward_storeCall ⟨fun _ => rfl, fun _ => rfl, fun _ => rfl, fun _ => rfl⟩ fun _ fine => fine

theorem outward_deleteOut (mid : Nat) : Within relation
    (storeCall .deleteOut fun store => (PUnit.unit, store.deleteOut mid)) :=
  outward_storeCall (leavesIn_deleteOut mid) fun _ fine => fine.deleteOut

theorem outward_putOut {message : OutboundMessage}
    (caches : Caches (Outward.good relation) message) : Within relation
      (storeCall .putOut fun store => (PUnit.unit, store.putOut message)) :=
  outward_storeCall (leavesIn_putOut message) fun _ fine => fine.putOut caches

theorem outward_transitionOut (mid : Nat) (expected next : OutboundQoSState) (compact : Bool) :
    Within relation
      (storeCall .transitionOut fun store => store.transitionOut mid expected next compact) :=
  outward_storeCall (leavesIn_transitionOut mid expected next compact) fun _ fine =>
    fine.transitionOut expected next compact

theorem outward_completeOut (mid : Nat) (expected : OutboundQoSState) : Within relation
    (storeCall .completeOut fun store => store.completeOut mid expected) :=
  outward_storeCall (leavesIn_completeOut mid expected) fun _ fine => fine.completeOut expected

theorem outward_assign {message : OutboundMessage}
    (caches : Caches (Outward.good relation) message) : Within relation (Outbound.assign message) :=
  Outward.assign (leavesIn_assignOut message) fun _ fine => fine.assignOut caches

/-! Identifiers, slots and the budget -/

/-- Changes that put nothing new in the queue. -/
theorem outward_session {change : OutboundSession → OutboundSession}
    (queued : ∀ outbound, ∀ entry ∈ (change outbound).queued, entry ∈ outbound.queued) :
    Within relation (modifyOutbound change) :=
  Outward.session fun outbound caches entry member => caches entry (queued outbound entry member)

theorem outward_allocateId (choice : Nat) : Within relation (Outbound.allocateId choice) :=
  within_bind within_get fun _ => within_bind (outward_session fun _ _ member => member) fun _ =>
    within_fromExcept

theorem outward_releaseId (mid : Nat) : Within relation (Outbound.releaseId mid) :=
  outward_session fun _ _ member => member

theorem outward_tryAcquire (mid : Nat) : Within relation (Outbound.tryAcquire mid) := by
  refine within_bind within_get fun _ => within_bind within_fromExcept fun taken => ?_
  cases taken with
  | none => exact within_pure _
  | some flow =>
    exact within_bind (outward_session fun _ _ member => member) fun _ => within_pure _

theorem outward_releaseSlot (mid : Nat) : Within relation (Outbound.releaseSlot mid) :=
  outward_session fun _ _ member => member

theorem outward_commitTopicAlias (topic : Text) (properties : Option Properties) :
    Within relation (Outbound.commitTopicAlias topic properties) := by
  refine within_bind within_fromExcept fun number => ?_
  cases number with
  | none => exact within_pure _
  | some number => exact within_onlyIf (outward_session fun _ _ member => member)

theorem outward_reserve (size : Nat) : Within relation (Outbound.reserve size) :=
  within_bind within_get fun _ => within_bind within_raiseIf fun _ =>
    within_bind within_raiseIf fun _ => outward_session fun _ _ member => member

theorem outward_releaseReservation (size : Nat) :
    Within relation (Outbound.releaseReservation size) :=
  within_bind within_get fun _ => within_bind within_raiseIf fun _ =>
    within_bind within_raiseIf fun _ => outward_session fun _ _ member => member

theorem outward_checkOutboundSize {item : WriteItem} :
    Within relation (checkOutboundSize item) := by
  refine within_bind within_get fun engine => ?_
  cases engine.negotiated.maximumPacketSize with
  | none => exact within_pure _
  | some limit => exact within_raiseIf

theorem outward_report (mid : Nat) (failure : Option Failure) :
    Within relation (Outbound.report mid failure) := by
  cases failure with
  | none => exact Outward.report trivial
  | some reason => exact Outward.report trivial

theorem outward_fail (mid : Nat) (reason : Failure) : Within relation (Outbound.fail mid reason) :=
  Outward.report trivial

/-! Launching and resending -/

theorem outward_storeLaunched {launched : OutboundMessage} (persisted : Bool)
    (caches : Caches (Outward.good relation) launched) :
    Within relation (Outbound.storeLaunched launched persisted) := by
  refine within_ite (within_bind (outward_transitionOut _ _ _ _) fun changed => ?_)
    (within_bind within_raiseIf fun _ => outward_putOut caches)
  cases changed with
  | none => exact within_throw _
  | some _ => exact outward_assign caches

/-- The record of a queue entry has good frames. -/
theorem outward_materialize {entry : QueueEntry} (caches : entry.Caches (Outward.good relation)) :
    Yields (Caches (Outward.good relation)) relation (Outbound.materialize entry) := by
  cases entry with
  | message stored => exact yields_pure caches
  | summary stored =>
    have reads : Yields (fun found => ∀ message, found = some message →
        Caches (Outward.good relation) message) relation
        (storeRead .getOut (·.getOut stored.mid)) :=
      Outward.store ⟨fun _ => rfl, fun _ => rfl, fun _ => rfl, fun _ => rfl⟩ fun store fine =>
        ⟨fun message found => fine.getOut found, fine⟩
    refine yields_bind reads fun found given => ?_
    cases found with
    | none => exact yields_throw _
    | some message => exact yields_pure (given message rfl)

/-! The queue -/

theorem outward_discardRecord (mid size : Nat) : Within relation (Outbound.discardRecord mid size) :=
  within_bind (outward_deleteOut mid) fun _ => within_bind within_fromExcept fun _ =>
    outward_releaseReservation _

theorem outward_popQueue : Within relation Outbound.popQueue :=
  outward_session fun _ _ member => List.mem_of_mem_tail member

theorem outward_discardParked (mid : Nat) : Within relation (Outbound.discardParked mid) :=
  outward_session fun _ _ member => member

/-! Admission -/

theorem outward_deleteFailedAdmission (mid : Nat) :
    Within relation (Outbound.deleteFailedAdmission mid) := by
  refine within_bind (within_catching (outward_deleteOut mid)) fun failed => ?_
  cases failed with
  | none => exact within_pure _
  | some _ =>
    exact within_bind (within_tryCatch (within_bind outward_storeRead fun _ => within_pure _)
      fun _ => within_pure _) fun _ => within_ite
      (within_bind (outward_session fun _ _ member => member) fun _ => within_pure _) (within_pure _)

theorem outward_rollback (messages bytes : Nat) (mid : Option Nat) :
    Within relation (Outbound.rollback messages bytes mid) := by
  have restores : Within relation (modifyOutbound fun outbound =>
      { outbound with pendingMessages := messages, pendingBytes := bytes }) :=
    outward_session fun _ _ member => member
  cases mid with
  | none => exact restores
  | some mid =>
    exact within_bind (outward_releaseSlot _) fun _ =>
      within_bind (outward_deleteFailedAdmission _) fun _ =>
      within_bind (within_onlyIf (outward_releaseId _)) fun _ => restores

theorem outward_enqueue {entry : QueueEntry} (caches : entry.Caches (Outward.good relation)) :
    Within relation (Outbound.enqueue entry) := by
  refine Outward.session fun outbound fine other member => ?_
  rcases List.mem_append.mp member with old | new
  · exact fine other old
  · cases List.mem_singleton.mp new
    exact caches

theorem outward_storeQueued {message : OutboundMessage}
    (caches : Caches (Outward.good relation) message) :
    Within relation (Outbound.storeQueued message) :=
  within_bind within_raiseIf fun _ => within_bind (outward_putOut caches) fun _ =>
    outward_enqueue (show QueueEntry.Caches _ (.message message) from caches)

/-! Acknowledgements -/

theorem outward_unpark (mid : Nat) : Within relation (Outbound.unpark mid) :=
  within_bind within_get fun _ => within_onlyIf <| within_bind (outward_discardParked _) fun _ =>
    within_ite (outward_session fun _ _ member => List.mem_of_mem_eraseP member) (within_throw _)

theorem outward_requirePubrelCapacity (size : Nat) :
    Within relation (Outbound.requirePubrelCapacity size) := by
  refine within_bind within_get fun engine => ?_
  cases engine.negotiated.maximumPacketSize with
  | none => exact within_pure _
  | some limit => exact within_raiseIf

/-! Sealing -/

theorem outward_sealOne (mid : Nat) : Within relation (Outbound.sealOne mid) := by
  refine within_bind within_get fun _ => within_ite (within_pure _) <|
    within_bind outward_storeRead fun record => ?_
  cases record with
  | none => exact within_pure _
  | some found =>
    exact within_bind (outward_session fun _ _ member => member) fun _ =>
      within_bind (outward_releaseReservation _) fun _ =>
      within_bind (outward_releaseSlot _) fun _ => within_pure _

theorem outward_sealEach (mids : List Nat) (newly : Finset Nat) :
    Within relation (Outbound.sealEach mids newly) := by
  induction mids generalizing newly with
  | nil => exact within_pure _
  | cons mid rest ih => exact within_bind (outward_sealOne mid) fun _ => ih _

theorem outward_sealPublications (mids : List Nat) :
    Within relation (Outbound.sealPublications mids) :=
  within_bind (outward_sealEach _ _) fun _ => within_bind within_get fun _ =>
    within_onlyIf (outward_session fun _ _ member => List.mem_of_mem_filter member)

/-! Loops over the stored publications -/

theorem outward_foldSummaries {body : OutboundMessageSummary → Value → EngineM Value}
    {holds : Value → Prop}
    (within : ∀ stored value, holds value → Yields holds relation (body stored value))
    {value : Value} (start : holds value) :
    Yields holds relation (Outbound.foldSummaries body value) := by
  have page : ∀ summaries value, holds value →
      Yields holds relation (Outbound.foldPage body summaries value) := by
    intro summaries
    induction summaries with
    | nil => exact fun value given => yields_pure given
    | cons stored rest ih =>
      exact fun value given => yields_bind (within stored value given) ih
  have pages : ∀ groups value, holds value →
      Yields holds relation (Outbound.foldPages body groups value) := by
    intro groups
    induction groups with
    | nil => exact fun value given => yields_pure given
    | cons mids rest ih =>
      exact fun value given => yields_bind outward_storeRead.yields fun _ _ =>
        yields_bind (page _ _ given) ih
  exact yields_bind within_get.yields fun _ _ => pages _ value start

theorem outward_forEachSummary {body : OutboundMessageSummary → EngineM PUnit}
    (within : ∀ stored, Within relation (body stored)) :
    Within relation (Outbound.forEachSummary body) := by
  have loops : Yields (fun _ => True) relation
      (Outbound.foldSummaries (fun stored _ => body stored) ⟨⟩) :=
    outward_foldSummaries (fun stored _ _ => (within stored).yields) trivial
  exact loops.within

theorem outward_hydrateMessage (stored : OutboundMessageSummary) :
    Within relation (Outbound.hydrateMessage stored) := by
  refine within_bind within_get fun _ => within_bind within_fromExcept fun _ =>
    within_bind (outward_session fun _ _ member => member) fun _ =>
    within_bind within_fromExcept fun _ =>
    within_bind (outward_session fun _ _ member => member) fun _ => ?_
  split
  · exact outward_enqueue trivial
  · exact within_pure _
  · exact within_map (outward_tryAcquire _)

theorem outward_hydrate : Within relation Outbound.hydrate :=
  outward_forEachSummary outward_hydrateMessage

theorem outward_dropRecord (mid size : Nat) (failure : Failure) :
    Within relation (Outbound.dropRecord mid size failure) :=
  within_bind (outward_discardRecord _ _) fun _ => within_bind (outward_releaseId _) fun _ =>
    outward_fail _ _

theorem outward_purgeMessage (stored : OutboundMessageSummary)
    (collected : List QueueEntry × List Nat)
    (caches : ∀ entry ∈ collected.1, entry.Caches (Outward.good relation)) :
    Yields (fun next => ∀ entry ∈ next.1, entry.Caches (Outward.good relation)) relation
      (Outbound.purgeMessage stored collected) := by
  refine yields_bind within_get.yields fun _ _ => yields_ite (yields_pure caches) <| yields_ite
    (yields_bind (Within.yields (outward_session fun _ _ member => member)) fun _ _ =>
      yields_bind (outward_deleteOut _).yields fun _ _ => yields_pure caches) <|
    yields_ite (yields_bind (outward_transitionOut _ _ _ _).yields fun changed _ => ?_)
      (yields_bind (outward_discardRecord _ _).yields fun _ _ =>
        yields_bind (outward_fail _ _).yields fun _ _ => yields_pure caches)
  cases changed with
  | none => exact yields_throw _
  | some _ =>
    refine yields_pure fun entry member => ?_
    rcases List.mem_append.mp member with old | new
    · exact caches entry old
    · cases List.mem_singleton.mp new
      exact trivial

theorem outward_purgeAfterCleanSession (pending : Bool) :
    Within relation (Outbound.purgeAfterCleanSession pending) := by
  refine within_bind (outward_session fun _ _ member => List.mem_of_mem_filter member) fun _ =>
    yields_then (outward_foldSummaries outward_purgeMessage (by simp)) fun collected caches => ?_
  refine within_bind (Outward.session fun outbound fine entry member => ?_) fun _ =>
    within_bind within_get fun _ => within_ite (outward_session fun _ _ member => member)
      (outward_session fun _ _ member => member)
  rcases List.mem_append.mp member with resent | old
  · exact caches entry resent
  · exact fine entry old

theorem outward_failQueuedFor (fuel : Nat) (kept : List QueueEntry)
    (caches : ∀ entry ∈ kept, entry.Caches (Outward.good relation)) :
    Within relation (Outbound.failQueuedFor fuel kept) := by
  induction fuel generalizing kept with
  | zero => exact Outward.session fun _ _ => caches
  | succ fuel ih =>
    refine yields_then Outward.facts fun engine honest => ?_
    cases queue : engine.outbound.queued with
    | nil => exact Outward.session fun _ _ => caches
    | cons entry rest =>
      cases checked : Outbound.validateAgainstNegotiated engine entry with
      | ok _ =>
        simp only [checked]
        refine within_bind outward_popQueue fun _ => ih _ fun other member => ?_
        rcases List.mem_append.mp member with old | new
        · exact caches other old
        · cases List.mem_singleton.mp new
          exact honest.queue entry (by simp [queue])
      | error failure =>
        simp only [checked]
        exact within_ite (within_bind (outward_discardRecord _ _) fun _ =>
          within_bind outward_popQueue fun _ => within_bind (outward_releaseId _) fun _ =>
          within_bind (outward_fail _ _) fun _ => ih kept caches) (within_throw _)

theorem outward_failQueuedViolatingNegotiation :
    Within relation Outbound.failQueuedViolatingNegotiation :=
  within_bind within_get fun _ => outward_failQueuedFor _ [] (by simp)

end

/-! Steps that send -/

/-- A relation as above that also good frames stay within. -/
class Sending (relation : Engine → Engine → Prop) extends Outward relation where
  sendable : Sendable good
  send : ∀ {item}, good item → Within relation (send item)

section

variable {relation : Engine → Engine → Prop} [Sending relation]

instance : Sendable (Outward.good relation) := Sending.sendable

/-! Launching and resending -/

theorem outward_sendEncoded {engine : Engine} {request : PublishRequest} {item : WriteItem}
    (encoded : engine.codec.encodePublishItem request = .ok item) : Within relation (send item) :=
  Sending.send (sendable_of_code (frameCode_encodePublishItem encoded) (by decide) (by decide))

theorem outward_publishQos0 (call : Outbound.PublishCall) :
    Within relation (Outbound.publishQos0 call) := by
  simp only [Outbound.publishQos0, Outbound.prepareQos0, bind_assoc, pure_bind]
  exact within_bind within_get fun _ => within_bind within_fromExcept fun _ =>
    within_bind within_fromExcept fun _ => within_bind within_fromExcept fun _ =>
    within_bind within_raiseIf fun _ => within_bind within_raiseIf fun _ =>
    within_bind within_fromExcept fun _ => within_from fun item encoded =>
    within_bind outward_checkOutboundSize fun _ => within_bind (outward_sendEncoded encoded) fun _ =>
    within_bind (outward_commitTopicAlias _ _) fun _ => Outward.report trivial

theorem good_launchFrame {good : WriteItem → Prop} [Sendable good] {engine : Engine}
    {message : OutboundMessage} {hints : Outbound.LaunchHints} {wire : WriteItem}
    (caches : Caches good message) (framed : Outbound.launchFrame engine message hints = .ok wire) :
    good wire := by
  unfold Outbound.launchFrame at framed
  split at framed
  · rename_i item cached
    cases framed
    exact caches.publish _ cached
  · exact sendable_of_code (frameCode_encodePublishItem framed) (by decide) (by decide)

theorem outward_launch {message : OutboundMessage} (persisted : Bool) (hints : Outbound.LaunchHints)
    (caches : Caches (Outward.good relation) message) :
    Within relation (Outbound.launch message persisted hints) := by
  refine within_bind within_get fun engine => within_from fun wire framed => ?_
  have fine := good_launchFrame caches framed
  exact within_bind outward_checkOutboundSize fun _ =>
    within_bind (outward_storeLaunched _ (caches.launched hints fine)) fun _ =>
    within_bind (Sending.send fine) fun _ => outward_commitTopicAlias _ _

theorem outward_tryLaunch {message : OutboundMessage} (hints : Outbound.LaunchHints)
    (caches : Caches (Outward.good relation) message) :
    Within relation (Outbound.tryLaunch message hints) :=
  within_bind (outward_tryAcquire _) fun _ => within_ite
    (within_tryCatch (within_bind (outward_launch _ _ caches) fun _ => within_pure _) fun _ =>
      within_bind (outward_releaseSlot _) fun _ => within_throw _)
    (within_pure _)

theorem outward_resendPublish {message : OutboundMessage}
    (caches : Caches (Outward.good relation) message) :
    Within relation (Outbound.resendPublish message) := by
  refine within_bind within_get fun engine => within_bind (outward_assign caches.marked) fun _ =>
    within_from fun wire framed => ?_
  have fine : Outward.good relation wire := by
    unfold Outbound.resendFrame at framed
    split at framed
    · rename_i retained cached
      cases framed
      exact Sendable.resent (caches.marked.publish _ cached)
    · exact sendable_of_code (frameCode_encodePublishItem framed) (by decide) (by decide)
  exact within_bind outward_checkOutboundSize fun _ =>
    within_bind (outward_assign (caches.resent fine)) fun _ =>
    within_bind (Sending.send fine) fun _ => outward_commitTopicAlias _ _

theorem good_pubrel (good : WriteItem → Prop) [Sendable good] (mid : Nat) :
    good (.contiguous (encodePubrelSuccess mid)) :=
  sendable_of_code (frameCode_encodePubrelSuccess mid) (by decide) (by decide)

theorem outward_resendPubrel {message : OutboundMessage}
    (caches : Caches (Outward.good relation) message) :
    Within relation (Outbound.resendPubrel message) := by
  unfold Outbound.resendPubrel
  cases cached : message.encodedPubrel with
  | some frame => exact Sending.send (caches.pubrel frame cached)
  | none =>
    have fine := good_pubrel (Outward.good relation) message.mid
    refine within_bind (outward_assign ⟨caches.publish, ?_⟩) fun _ =>
      within_bind outward_checkOutboundSize fun _ => Sending.send fine
    intro frame same
    cases same
    exact fine

theorem outward_retransmit {message : OutboundMessage}
    (caches : Caches (Outward.good relation) message) :
    Within relation (Outbound.retransmit message) := by
  unfold Outbound.retransmit
  split
  · exact outward_resendPublish caches
  · exact outward_resendPublish caches
  · exact outward_resendPubrel caches
  · exact within_throw _

theorem outward_launchEntry {entry : QueueEntry} (caches : entry.Caches (Outward.good relation)) :
    Within relation (Outbound.launchEntry entry) :=
  yields_then (outward_materialize caches) fun _ fine => within_ite
    (within_ite
      (within_bind (outward_assign ⟨nofun, fine.pubrel⟩) fun _ =>
        outward_launch _ _ ⟨nofun, fine.pubrel⟩)
      (outward_launch _ _ fine))
    (outward_retransmit fine)

/-! The queue -/

theorem outward_drainFor (fuel : Nat) : Within relation (Outbound.drainFor fuel) := by
  induction fuel with
  | zero => exact within_pure _
  | succ fuel ih =>
    refine yields_then Outward.facts fun engine honest => ?_
    cases queue : engine.outbound.queued with
    | nil => exact within_pure _
    | cons entry rest =>
      have caches := honest.queue entry (by simp [queue])
      refine within_bind (outward_tryAcquire _) fun _ => within_ite
        (within_bind (within_catching (outward_launchEntry caches)) fun failed => ?_) (within_pure _)
      cases failed with
      | none =>
        exact within_bind outward_popQueue fun _ =>
          within_bind (outward_discardParked _) fun _ => ih
      | some failure =>
        exact within_bind (outward_releaseSlot _) fun _ =>
          within_bind (outward_discardRecord _ _) fun _ => within_bind outward_popQueue fun _ =>
          within_bind (outward_discardParked _) fun _ => within_bind (outward_releaseId _) fun _ =>
          within_bind (outward_fail _ _) fun _ => ih

theorem outward_drain : Within relation Outbound.drain :=
  within_bind within_get fun _ => outward_drainFor _

/-! Admission -/

theorem outward_admitPrepared (call : Outbound.PublishCall) (prepared : Outbound.PreparedPublish)
    (mid : Nat) : Within relation (Outbound.admitPrepared call prepared mid) := by
  have fresh : Caches (Outward.good relation) (Outbound.newRecord call prepared mid) :=
    Caches.of_none rfl rfl
  exact within_bind within_get fun _ => within_ite
    (within_bind (outward_tryLaunch _ fresh) fun _ => within_onlyIf (outward_storeQueued fresh))
    (within_bind (within_pure _) fun _ => within_onlyIf (outward_storeQueued fresh))

theorem outward_queuePublish (choice : Nat) (call : Outbound.PublishCall) :
    Within relation (Outbound.queuePublish choice call) :=
  within_bind within_get fun _ => within_bind within_raiseIf fun _ => within_ite
    (within_bind (outward_publishQos0 _) fun _ => within_pure _)
    (within_bind within_fromExcept fun _ => within_bind (outward_reserve _) fun _ =>
      within_bind (within_tryCatch (outward_allocateId _) fun _ =>
        within_bind (outward_rollback _ _ _) fun _ => within_throw _) fun _ =>
      within_tryCatch (within_bind (outward_admitPrepared _ _ _) fun _ => within_pure _) fun _ =>
        within_bind (outward_rollback _ _ _) fun _ => within_throw _)

/-! Acknowledgements -/

theorem outward_finish (mid : Nat) (expected : OutboundQoSState) (failure : Option Failure) :
    Within relation (Outbound.finish mid expected failure) := by
  refine within_bind (within_tryCatch (outward_completeOut mid expected) fun _ =>
    within_bind (outward_report _ _) fun _ => within_throw _) fun completed => ?_
  have settles : Within relation (do
      Outbound.report mid failure
      Outbound.releaseId mid
      Outbound.drain) :=
    within_bind (outward_report _ _) fun _ => within_bind (outward_releaseId _) fun _ => outward_drain
  cases completed with
  | none => exact within_pure _
  | some settled =>
    exact within_bind within_get fun _ => within_ite
      (within_bind (outward_session fun _ _ member => member) fun _ => settles)
      (within_bind (outward_releaseReservation _) fun _ => within_bind (outward_unpark _) fun _ =>
        within_bind (outward_releaseSlot _) fun _ => settles)

theorem outward_sendOrphanPubrel (mid : Nat) : Within relation (Outbound.sendOrphanPubrel mid) := by
  refine within_bind within_get fun engine => within_from fun wire encoded =>
    within_bind (outward_requirePubrelCapacity _) fun _ => Sending.send ?_
  rcases frameCode_of_seen (seen_encodePubrel encoded) with published | released
  · exact sendable_of_code published (by decide) (by decide)
  · exact sendable_of_code released (by decide) (by decide)

theorem outward_refusePubrec (mid : Nat) : Within relation (Outbound.refusePubrec mid) := by
  refine within_bind outward_storeRead fun record => ?_
  cases record with
  | none => exact outward_sendOrphanPubrel mid
  | some found => exact within_onlyIf (outward_requirePubrelCapacity _)

theorem outward_advanceOnPubrec (mid : Nat) : Within relation (Outbound.advanceOnPubrec mid) := by
  have sends : Within relation (send (.contiguous (encodePubrelSuccess mid))) :=
    Sending.send (good_pubrel _ mid)
  refine within_bind (outward_transitionOut _ _ _ _) fun changed => ?_
  cases changed with
  | some _ => exact within_bind (outward_unpark _) fun _ => sends
  | none =>
    refine within_bind outward_storeRead fun record => ?_
    cases record with
    | none => exact outward_sendOrphanPubrel mid
    | some found => exact within_onlyIf sends

theorem outward_replayMessage (stored : OutboundMessageSummary) :
    Within relation (Outbound.replayMessage stored) := by
  have resends : Within relation (do
      Outbound.retransmit (← Outbound.materialize (.summary stored))) :=
    yields_then (outward_materialize trivial) fun _ fine => outward_retransmit fine
  refine within_bind within_get fun engine => within_ite (within_pure _) <| within_ite ?_ <|
    within_ite (within_bind (within_catching resends) fun failed => ?_) <|
    within_bind (outward_tryAcquire _) fun _ => within_ite
      (within_bind (within_catching resends) fun failed => ?_)
      (within_bind (outward_session fun _ _ member => member) fun _ => outward_enqueue trivial)
  · cases Outbound.validateAgainstNegotiated engine (.summary stored) with
    | ok _ => exact outward_enqueue trivial
    | error failure => exact within_ite (outward_dropRecord _ _ _) (within_throw _)
  · cases failed with
    | none => exact within_pure _
    | some failure => exact outward_dropRecord _ _ _
  · cases failed with
    | none => exact within_pure _
    | some failure =>
      exact within_bind (outward_releaseSlot _) fun _ => outward_dropRecord _ _ _

/-! Subscription requests -/

theorem outward_sendSubscriptionRequest {choice count : Nat} {kind : PacketType}
    {encode : Nat → Except Failure Bytes}
    (coded : ∀ mid wire, encode mid = .ok wire → Outward.good relation (.contiguous wire)) :
    Within relation (sendSubscriptionRequest choice encode kind count) := by
  refine within_bind (outward_allocateId choice) fun mid => ?_
  have sends {wire : Bytes} (fine : Outward.good relation (.contiguous wire)) : Within relation (do
      modify fun engine =>
        { engine with pendingSubRequests := engine.pendingSubRequests.insert mid (kind, count) }
      send (.contiguous wire)
      return mid : EngineM Nat) :=
    within_bind (Outward.subs (·.insert mid (kind, count))) fun _ => within_bind (Sending.send fine) fun _ => within_pure _
  intro engine
  have refused (failure : Failure) : Sat (do
      Outbound.releaseId mid
      throw failure : EngineM Nat) engine (fun _ => relation engine) (fun _ => relation engine) :=
    within_bind (outward_releaseId mid) (fun _ => within_throw _) engine
  simp only [sat_bind, sat_tryCatch, sat_fromExcept]
  refine ⟨fun wire encoded => ?_, fun failure _ => by simpa using refused failure⟩
  exact sat_checkOutboundSize (by simpa using sends (coded mid wire encoded) engine)
    fun failure => by simpa using refused failure

theorem outward_queueSubscribe (choice : Nat) (subscriptions : List Subscription)
    (properties : Option Properties) :
    Within relation (queueSubscribe choice subscriptions properties) :=
  within_bind within_get fun _ => within_bind within_fromExcept fun _ =>
    outward_sendSubscriptionRequest fun _ _ encoded =>
      sendable_of_code (frameCode_encodeSubscribe encoded) (by decide) (by decide)

theorem outward_queueUnsubscribe (choice : Nat) (topics : List Text) :
    Within relation (queueUnsubscribe choice topics) :=
  within_bind within_get fun _ => within_bind within_fromExcept fun _ =>
    outward_sendSubscriptionRequest fun _ _ encoded =>
      sendable_of_code (frameCode_encodeUnsubscribe encoded) (by decide) (by decide)

theorem outward_completeSubscriptionRequest (mid : Nat) (kind : PacketType) (count : Option Nat) :
    Within relation (completeSubscriptionRequest mid kind count) := by
  refine within_bind within_get fun engine => ?_
  cases engine.pendingSubRequests.get? mid with
  | none => exact within_throw _
  | some expected =>
    exact within_bind within_raiseIf fun _ => within_bind within_raiseIf fun _ =>
      within_bind (Outward.subs (·.erase mid)) fun _ => outward_releaseId _

end

end Mqttium
