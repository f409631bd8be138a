import Mqttium.Refinement.Settling

/-! Taking identifiers: subscription requests and admitted publications. -/

namespace Mqttium

open Codec Library Packets Persistence Protocol

section

variable {engine after : Engine} {watch : Watch}

/-- A step that the ledger does not see. -/
theorem Ready.unmoved (ready : Ready watch engine) (store : after.store = engine.store)
    (queued : after.outbound.queued = engine.outbound.queued)
    (flow : after.outbound.flow = engine.outbound.flow)
    (longer : engine.effects.length ≤ after.effects.length)
    (state : after.state = engine.state) (same : view watch after = view watch engine) :
    Handled watch watch engine after := by
  refine ⟨⟨⟨⟨store ▸ ready.tracking.coherent.reliable, store ▸ ready.tracking.coherent.rows⟩,
    ready.tracking.later.trans longer, store ▸ ready.tracking.names⟩, ?_, same ▸ .refl⟩, ?_⟩
  · unfold Aligned
    rw [queued, store]
    exact ready.aligned
  · intro busy connected
    have full := busy (state ▸ connected)
    unfold NoIdle at full ⊢
    rwa [queued, flow]

/-- Nothing happened: the generator of identifiers may have moved on, and none is taken. -/
def Protocol.Engine.Untouched (before after : Engine) : Prop :=
  ∃ pool : PacketIdPool, pool.used = before.outbound.packetIds.used ∧
    after = { before with outbound := { before.outbound with packetIds := pool } }

theorem Protocol.Engine.Untouched.refl (engine : Engine) : engine.Untouched engine :=
  ⟨engine.outbound.packetIds, rfl, rfl⟩

theorem Ready.untouched (ready : Ready watch engine) (untouched : engine.Untouched after) :
    Handled watch watch engine after := by
  obtain ⟨pool, same, rfl⟩ := untouched
  exact ready.unmoved rfl rfl rfl le_rfl rfl (by simp [view, same])

variable {returned : Nat → Engine → Prop} {raised : Failure → Engine → Prop}

/-- An identifier is taken out of those that are free, or there is none. -/
theorem allocateId_sat {choice : Nat}
    (taken : ∀ mid pool, engine.outbound.packetIds.allocate choice = (.ok mid, pool) →
      mid ∉ engine.outbound.packetIds.used → 1 ≤ mid → mid ≤ maxPacketId →
      pool.used = insert mid engine.outbound.packetIds.used →
      returned mid { engine with outbound := { engine.outbound with packetIds := pool } })
    (exhausted : ∀ pool, pool.used = engine.outbound.packetIds.used →
      raised (.flowControl "No free MQTT packet identifiers")
        { engine with outbound := { engine.outbound with packetIds := pool } }) :
    Sat (Outbound.allocateId choice) engine returned raised := by
  simp only [Outbound.allocateId, sat_bind, sat_get]
  rcases done : engine.outbound.packetIds.allocate choice with ⟨answer, pool⟩
  simp only [sat_modifyOutbound]
  cases answer with
  | ok mid =>
    obtain ⟨free, low, high, grown⟩ := PacketIdPool.used_allocate done
    exact taken mid pool done free low high grown
  | error failure =>
    obtain ⟨rfl, same⟩ := PacketIdPool.used_allocate_error done
    exact exhausted pool same

/-! Subscription requests -/

theorem aside_sendSubscriptionRequest {choice count : Nat} {encode : Nat → Except Failure Bytes}
    {kind : PacketType} (silent : ∀ mid wire, encode mid = .ok wire → seen wire = none) :
    Within (Aside watch) (sendSubscriptionRequest choice encode kind count) := by
  refine aside_of_ready fun engine ready => ?_
  simp only [sendSubscriptionRequest, sat_bind]
  apply allocateId_sat
  · intro mid pool _ free _ _ grown
    have undone : Handled watch watch engine
        { engine with outbound := { engine.outbound with packetIds := pool.release mid } } :=
      ready.unmoved rfl rfl rfl le_rfl rfl (by simp [view, grown, Finset.erase_insert free])
    simp only [sat_tryCatch, sat_bind, sat_fromExcept, Outbound.releaseId, sat_modifyOutbound,
      sat_throw]
    refine ⟨fun wire encoded => sat_checkOutboundSize ?_ fun _ => undone, fun _ _ => undone⟩
    have shown : effectEvent watch.who (.send (.contiguous wire)) = none := by
      simp [effectEvent, WriteItem.header, silent mid wire encoded]
    have longer := ready.tracking.later
    simp only [sat_pure, sat_modify, send, sat_emit]
    refine ⟨⟨⟨⟨ready.tracking.coherent.reliable, ready.tracking.coherent.rows⟩, ?_,
      ready.tracking.names⟩, ready.aligned, .single ?_⟩, id⟩
    · simp only [List.length_append]
      omega
    · have absent : mid ∉ (view watch engine).used := free
      convert Ledger.Move.subscribe absent using 1
      have keys : (engine.pendingSubRequests.insert mid (kind, count)).keys.toFinset =
          insert mid engine.pendingSubRequests.keys.toFinset := by
        ext other
        simp [Dict.mem_keys_insert]
      simp [view, Ledger.subscribe, grown, keys, watch.log_emit longer, shown]
  · intro pool same
    exact ready.unmoved rfl rfl rfl le_rfl rfl (by simp [view, same])

theorem aside_queueSubscribe (choice : Nat) (subscriptions : List Subscription)
    (properties : Option Properties) :
    Within (Aside watch) (queueSubscribe choice subscriptions properties) :=
  within_bind within_get fun _ => within_bind within_fromExcept fun _ =>
    aside_sendSubscriptionRequest fun _ _ encoded =>
      seen_of_code (frameCode_encodeSubscribe encoded) (by decide) (by decide)

theorem aside_queueUnsubscribe (choice : Nat) (topics : List Text) :
    Within (Aside watch) (queueUnsubscribe choice topics) :=
  within_bind within_get fun _ => within_bind within_fromExcept fun _ =>
    aside_sendSubscriptionRequest fun _ _ encoded =>
      seen_of_code (frameCode_encodeUnsubscribe encoded) (by decide) (by decide)

/-- The answer to a request frees its identifier. -/
theorem aside_completeSubscriptionRequest (mid : Nat) (kind : PacketType) (count : Option Nat) :
    Within (Aside watch) (completeSubscriptionRequest mid kind count) := by
  refine aside_of_ready fun engine ready => ?_
  have kept : Handled watch watch engine engine := ⟨ready.refl, id⟩
  simp only [completeSubscriptionRequest, sat_bind, sat_get]
  cases pending : engine.pendingSubRequests.get? mid with
  | none => exact kept
  | some expected =>
    simp only [sat_bind, sat_raiseIf, sat_modify, Outbound.releaseId, sat_modifyOutbound]
    refine ⟨fun _ => kept, fun _ => ⟨fun _ => kept, fun _ => ?_⟩⟩
    refine ⟨⟨⟨⟨ready.tracking.coherent.reliable, ready.tracking.coherent.rows⟩,
      ready.tracking.later, ready.tracking.names⟩, ready.aligned, .single ?_⟩, id⟩
    have member : mid ∈ (view watch engine).subs := by
      simp [view, Dict.mem_keys_of_get? pending]
    convert Ledger.Move.unsubscribe member using 1
    have keys : (engine.pendingSubRequests.erase mid).keys.toFinset =
        engine.pendingSubRequests.keys.toFinset.erase mid := by
      ext other
      simp [and_comm]
    simp [view, Ledger.unsubscribe, keys]

theorem aside_onSuback (raw : RawPacket) : Within (Aside watch) (onSuback raw) :=
  within_bind within_get fun _ => within_bind within_fromExcept fun _ =>
    within_bind (beside_validateInboundProblemInformation _ _) fun _ =>
    within_bind (aside_completeSubscriptionRequest _ _ _) fun _ => beside_emit trivial

theorem aside_onUnsuback (raw : RawPacket) : Within (Aside watch) (onUnsuback raw) :=
  within_bind within_get fun _ => within_bind within_fromExcept fun _ =>
    within_bind (beside_validateInboundProblemInformation _ _) fun _ =>
    within_bind (aside_completeSubscriptionRequest _ _ _) fun _ => beside_emit trivial

end

/-! What a prepared publication is -/

theorem TableOk.of_encoded {properties : Option Properties} {data : Bytes}
    (number : ∃ number, Outbound.topicAlias properties = .ok number)
    (encoded : encodeProperties properties .publish = .ok data) : TableOk properties := by
  refine ⟨number, fun failure refused => ?_⟩
  rw [encoded] at refused
  cases refused

theorem TableOk.of_stripped {properties : Option Properties} {data : Bytes}
    (encoded : encodeProperties properties .publish = .ok data) :
    TableOk (propertiesWithoutTopicAlias properties) := by
  cases properties with
  | none => exact .of_encoded ⟨none, rfl⟩ encoded
  | some table =>
    by_cases absent : table.get .topicAlias = none
    · simp only [propertiesWithoutTopicAlias, absent, ↓reduceIte]
      exact .of_encoded ⟨none, by simp [Outbound.topicAlias, absent]⟩ encoded
    · obtain ⟨shorter, ok⟩ := encodeProperties_erase .topicAlias encoded
      simp only [propertiesWithoutTopicAlias, absent, ↓reduceIte]
      exact .of_encoded ⟨none, by simp [Outbound.topicAlias, Properties.get]⟩ ok

theorem topicSize_ok {topic : Text}
    (valid : isAscii topic = true ∨ topic.encodeUtf8.isSome = true) :
    ∃ size, Outbound.topicSize topic = .ok size := by
  unfold Outbound.topicSize
  by_cases ascii : isAscii topic = true
  · exact ⟨topic.length, by simp [ascii]⟩
  · obtain ⟨data, encoded⟩ := Option.isSome_iff_exists.mp (valid.resolve_left ascii)
    exact ⟨data.length, by simp [ascii, encoded]⟩

theorem encodeProperties_blank {properties : Option Properties}
    (blank : hasProperties properties = false) : encodeProperties properties .publish = .ok [0] := by
  cases properties with
  | none => rfl
  | some table =>
    have empty : table.isEmpty = true := by simpa [hasProperties] using blank
    simp [encodeProperties, empty]

/-- What the checks of a publication have established. -/
structure Prepared (call : Outbound.PublishCall) (prepared : Outbound.PreparedPublish) : Prop where
  number : ∃ number, Outbound.topicAlias call.properties = .ok number
  encoded : ∃ data, encodeProperties call.properties .publish = .ok data
  topic : ∃ size, Outbound.topicSize prepared.canonicalTopic = .ok size
  short : ∀ data, prepared.topicBytes = some data → data.length < 65536

private theorem topicAlias_blank {properties : Option Properties}
    (blank : hasProperties properties = false) : Outbound.topicAlias properties = .ok none := by
  cases properties with
  | none => rfl
  | some table =>
    have empty : table.values.keys = [] := by
      apply Dict.isEmpty_iff.mp
      simpa [hasProperties, Properties.isEmpty] using blank
    have missing : table.values.get? .topicAlias = none := by
      rw [Dict.get?_eq_none_iff, empty]
      exact List.not_mem_nil
    have absent : table.get .topicAlias = none := by simp [Properties.get, missing]
    simp [Outbound.topicAlias, absent]

private theorem topicAlias_ok {engine : Engine} {call : Outbound.PublishCall}
    {resolved : Option Int × Text}
    (permitted : Outbound.checkOutboundProperties engine.isV5 call.properties = .ok ())
    (ok : Outbound.aliasAndTopic engine call = .ok resolved) :
    ∃ number, Outbound.topicAlias call.properties = .ok number := by
  cases version : engine.isV5 with
  | true =>
    simp only [Outbound.aliasAndTopic, version, ↓reduceIte] at ok
    obtain ⟨number, given, _⟩ := except_bind_ok.mp ok
    exact ⟨number, given⟩
  | false =>
    refine ⟨none, topicAlias_blank ?_⟩
    by_contra present
    simp [Outbound.checkOutboundProperties, version, present] at permitted

private theorem propertyParts_ok {isV5 : Bool} {properties : Option Properties}
    {parts : Nat × Nat × Option Bytes}
    (permitted : Outbound.checkOutboundProperties isV5 properties = .ok ())
    (ok : Outbound.propertyParts isV5 properties = .ok parts) :
    ∃ data, encodeProperties properties .publish = .ok data := by
  cases present : hasProperties properties with
  | false => exact ⟨_, encodeProperties_blank present⟩
  | true =>
    cases isV5 with
    | false => simp [Outbound.checkOutboundProperties, present] at permitted
    | true =>
      simp only [Outbound.propertyParts, present, ↓reduceIte] at ok
      obtain ⟨data, encoded, _⟩ := except_bind_ok.mp ok
      exact ⟨data, encoded⟩

private theorem measureTopic_ok {engine : Engine} {topic : Text} {allowEmpty : Bool}
    {topicBytes : Option Bytes} {size : Nat}
    (ok : Outbound.measureTopic engine topic allowEmpty = .ok (topicBytes, size)) :
    (isAscii topic = true ∨ topic.encodeUtf8.isSome = true) ∧
      ∀ data, topicBytes = some data → data.length < 65536 := by
  unfold Outbound.measureTopic at ok
  split at ok
  · obtain ⟨encoded, given, ok⟩ := except_bind_ok.mp ok
    cases ok
    obtain ⟨valid, short⟩ := encodeValidatedPublishTopic_ok given
    refine ⟨.inr (by simp [valid]), ?_⟩
    rintro data ⟨⟩
    exact short
  · obtain ⟨_, checked, ok⟩ := except_bind_ok.mp ok
    cases ok
    exact ⟨validatePublishTopic_ok checked, nofun⟩

theorem prepared_of_ok {engine : Engine} {call : Outbound.PublishCall}
    {prepared : Outbound.PreparedPublish}
    (ok : Outbound.preparePublishRequest engine call = .ok prepared) : Prepared call prepared := by
  unfold Outbound.preparePublishRequest at ok
  obtain ⟨_, permitted, ok⟩ := except_bind_ok.mp ok
  obtain ⟨_, _, ok⟩ := except_bind_ok.mp ok
  obtain ⟨⟨number, canonicalTopic⟩, resolved, ok⟩ := except_bind_ok.mp ok
  obtain ⟨⟨topicBytes, size⟩, measured, ok⟩ := except_bind_ok.mp ok
  obtain ⟨_, _, ok⟩ := except_bind_ok.mp ok
  obtain ⟨⟨wire, logical, table⟩, parts, ok⟩ := except_bind_ok.mp ok
  obtain ⟨_, _, ok⟩ := except_bind_ok.mp ok
  obtain ⟨length, sized, ok⟩ := except_bind_ok.mp ok
  cases ok
  obtain ⟨valid, short⟩ := measureTopic_ok measured
  refine ⟨topicAlias_ok permitted resolved, propertyParts_ok permitted parts, ?_, short⟩
  by_cases same : canonicalTopic = call.topic
  · exact same ▸ topicSize_ok valid
  · exact ⟨length, by simpa [Outbound.logicalTopicSize, same] using sized⟩

/-! Admission -/

section

variable {engine after : Engine} {mid : Nat} {watch : Watch} {message : OutboundMessage}
  {hints : Outbound.LaunchHints} {returned : PUnit → Engine → Prop}
  {raised : Failure → Engine → Prop}

theorem putOut_new (engine : Engine) (message : OutboundMessage)
    (absent : engine.store.out.get? message.mid = none) :
    engine.store.putOut message =
      { engine.store with
        out := engine.store.out.insert message.mid { seq := engine.store.outSeq + 1, message }
        outSeq := engine.store.outSeq + 1 } := by
  simp [Store.putOut, absent]

/-- First launch of a record that is not stored yet. -/
theorem launchNew_sat (reliable : engine.store.Reliable) (ok : RowOk mid message)
    (first : message.dup = false)
    (short : ∀ data, hints.topicBytes = some data → data.length < 65536)
    (done : ∀ wire aliases, seen wire.header = some (.publish mid false) →
      RowOk mid (Outbound.launchedRecord message hints wire) → 0 < message.logicalSize →
      returned ⟨⟩
        { engine with
          store := engine.store.putOut (Outbound.launchedRecord message hints wire)
          outbound := { engine.outbound with topicAliases := aliases }
          effects := engine.effects ++ [.send wire] })
    (refused : ∀ failure, raised failure engine) :
    Sat (Outbound.launch message false hints) engine returned raised := by
  simp only [Outbound.launch, sat_bind, sat_get, sat_fromExcept]
  refine ⟨?_, fun failure _ => refused failure⟩
  intro wire framed
  have shown := seen_launchFrame ok.cached framed short
  have launched := ok.launched hints shown
  refine sat_checkOutboundSize ?_ refused
  simp only [Outbound.storeLaunched, Bool.false_eq_true, ↓reduceIte, sat_bind, sat_raiseIf,
    sat_storeCall reliable]
  refine ⟨fun _ => refused _, fun sized => ?_⟩
  simp only [send, sat_emit]
  apply sat_commitTopicAlias ok.storable.table.number
  intro aliases
  rw [ok.named, first] at shown
  exact done wire aliases shown launched (Nat.pos_of_ne_zero sized)

/-- What a successful `queue_publish` leaves behind. -/
structure Admitted (watch : Watch) (before after : Engine) (mid : Nat) : Prop where
  tracking : Tracking (watch.learn [.admitted (before.store.outSeq + 1) mid]) after
  aligned : Aligned after after.outbound.queued
  stored : ∃ row, after.store.out.get? mid = some row ∧ row.seq = before.store.outSeq + 1
  fresh : before.store.out.get? mid = none
  step : Ledger.Move (view watch before)
      (view (watch.learn [.admitted (before.store.outSeq + 1) mid]) after) ∨
    before.state = .connected ∧ ∃ size target,
      Ledger.Launchable (view watch before) mid size target ∧
      view (watch.learn [.admitted (before.store.outSeq + 1) mid]) after =
        (view watch before).admitLaunched mid size target
  busy : Busy before → Busy after

/-- The engine once the budget and an identifier are taken. -/
def Protocol.Engine.reserved (engine : Engine) (size : Nat) (pool : PacketIdPool) : Engine :=
  { engine with
    outbound := { engine.outbound with
      pendingMessages := engine.outbound.pendingMessages + 1
      pendingBytes := engine.outbound.pendingBytes + size
      packetIds := pool } }

theorem Tracking.stored {stored : OutboundMessage} {outbound : OutboundSession}
    {effects : List Effect} (tracking : Tracking watch engine)
    (named : watch.who mid = some (engine.store.outSeq + 1)) (ok : RowOk mid stored)
    (absent : engine.store.out.get? mid = none)
    (longer : engine.effects.length ≤ effects.length) :
    Tracking watch { engine with store := engine.store.putOut stored, outbound, effects } := by
  have put := putOut_new engine stored (by rw [ok.named]; exact absent)
  have rows : ∀ other row, (engine.store.putOut stored).out.get? other = some row →
      (other = mid ∧ row = ⟨engine.store.outSeq + 1, stored⟩) ∨
        engine.store.out.get? other = some row := by
    intro other row present
    rw [put, ok.named] at present
    simp only [Dict.get?_insert] at present
    split at present
    · rename_i same
      exact .inl ⟨same, by simpa using present.symm⟩
    · exact .inr present
  refine ⟨⟨?_, ?_⟩, tracking.later.trans longer, ?_⟩
  · rw [put]
    exact tracking.coherent.reliable
  · intro other row present
    rcases rows other row present with ⟨rfl, rfl⟩ | old
    · exact ok
    · exact tracking.coherent.rows other row old
  · intro other row present
    rcases rows other row present with ⟨rfl, rfl⟩ | old
    · exact named
    · exact tracking.names other row old

section

variable {stored : OutboundMessage} {pool : PacketIdPool} (ready : Ready watch engine)
  (start : engine.effects.length = watch.base) (free : mid ∉ engine.outbound.packetIds.used)
  (grown : pool.used = insert mid engine.outbound.packetIds.used)
  (named : watch.who mid = some (engine.store.outSeq + 1)) (ok : RowOk mid stored)
  (sized : 0 < stored.logicalSize)

include ready free in
theorem Ready.absent : engine.store.out.get? mid = none := by
  have none := ready.sound.accounts.absent free
  simpa using none

include ready free in
theorem Ready.idle : mid ∉ engine.outbound.flow.holders := by
  intro held
  have owner := (ready.sound.accounts.heldRow mid held).2.1
  rw [ready.sound.accounts.absent free] at owner
  cases owner

include ready free ok in
private theorem Ready.aligned_put {entries : List QueueEntry} {outbound : OutboundSession}
    {effects : List Effect} (aligned : Aligned engine entries) :
    Aligned { engine with store := engine.store.putOut stored, outbound, effects } entries := by
  have absent := ready.absent free
  have put := putOut_new engine stored (by rw [ok.named]; exact absent)
  intro entry member
  obtain ⟨row, found, same⟩ := aligned entry member
  have different : entry.mid ≠ mid := by
    intro equal
    rw [equal, absent] at found
    cases found
  refine ⟨row, ?_, ?_⟩
  · rw [put, ok.named]
    simpa [Dict.get?_insert_of_ne _ different] using found
  · rw [put]
    exact same

include ready start free grown named ok sized in
private theorem Ready.admittedQueued (queued : stored.state = .queued)
    (full : engine.state = .connected →
      engine.outbound.flow.limit ≤ engine.outbound.flow.holders.card) :
    Admitted watch engine
      { engine with
        store := engine.store.putOut stored
        outbound := { engine.outbound with
          pendingMessages := engine.outbound.pendingMessages + 1
          pendingBytes := engine.outbound.pendingBytes + stored.logicalSize
          packetIds := pool
          queued := engine.outbound.queued ++ [.message stored] } } mid := by
  have absent := ready.absent free
  have put := putOut_new engine stored (by rw [ok.named]; exact absent)
  refine ⟨?_, ?_, ?_, absent, .inl ?_, fun _ connected => .inr (full connected)⟩
  · exact (ready.tracking.learn _).stored named ok absent le_rfl
  · intro entry member
    rcases List.mem_append.mp member with old | new
    · exact ready.aligned_put free ok ready.aligned entry old
    · rw [List.mem_singleton] at new
      subst new
      refine ⟨⟨engine.store.outSeq + 1, stored⟩, ?_, rfl⟩
      simp [put, QueueEntry.mid]
  · exact ⟨⟨engine.store.outSeq + 1, stored⟩, by simp [put, ok.named], rfl⟩
  · have unused : mid ∉ (view watch engine).used := free
    convert Ledger.Move.admitQueued unused sized using 1
    simp [view, put, Ledger.admitQueued, Ledger.store, ok.named, entryOf, queued, grown, QueueEntry.mid,
      log_learn start]

include ready start free grown named ok sized in
private theorem Ready.admittedLaunched {wire : WriteItem} {aliases : Dict Nat Text}
    (connected : engine.state = .connected) (waits : stored.state.waiting = true)
    (room : engine.outbound.flow.holders.card < engine.outbound.flow.limit)
    (shown : seen wire.header = some (.publish mid false)) :
    Admitted watch engine
      { engine with
        store := engine.store.putOut stored
        outbound := { engine.outbound with
          pendingMessages := engine.outbound.pendingMessages + 1
          pendingBytes := engine.outbound.pendingBytes + stored.logicalSize
          packetIds := pool
          flow := { engine.outbound.flow with
            holders := insert mid engine.outbound.flow.holders }
          topicAliases := aliases }
        effects := engine.effects ++ [.send wire] } mid := by
  have absent := ready.absent free
  have put := putOut_new engine stored (by rw [ok.named]; exact absent)
  have event : effectEvent watch.who (.send wire) =
      some (.sent (engine.store.outSeq + 1) (.publish false)) := by
    simp [effectEvent, shown, named]
  refine ⟨?_, ?_, ?_, absent, .inr ⟨connected, stored.logicalSize, stored.state,
    ⟨free, sized, waits, room, rfl⟩, ?_⟩, ?_⟩
  · exact (ready.tracking.learn _).stored named ok absent (by simp)
  · exact ready.aligned_put free ok ready.aligned
  · exact ⟨⟨engine.store.outSeq + 1, stored⟩, by simp [put, ok.named], rfl⟩
  · have later := ready.tracking.later
    simp [view, put, Ledger.admitLaunched, Ledger.store, Ledger.note, Ledger.acquire, ok.named,
      entryOf, grown, log_learn start, event,
      (watch.learn [.admitted (engine.store.outSeq + 1) mid]).log_emit later]
  · intro busy _
    rcases busy connected with empty | full
    · exact .inl empty
    · omega

end

private theorem Prepared.rowOk {call : Outbound.PublishCall} {prepared : Outbound.PreparedPublish}
    (good : Prepared call prepared) (mid : Nat) :
    RowOk mid (Outbound.newRecord call prepared mid) := by
  obtain ⟨data, encoded⟩ := good.encoded
  exact ⟨rfl, ⟨good.topic, .of_encoded good.number encoded, .of_stripped encoded⟩, nofun, nofun⟩

section

variable {call : Outbound.PublishCall} {prepared : Outbound.PreparedPublish} {pool : PacketIdPool}
  (ready : Ready watch engine) (start : engine.effects.length = watch.base)
  (good : Prepared call prepared) (free : mid ∉ engine.outbound.packetIds.used)
  (grown : pool.used = insert mid engine.outbound.packetIds.used)

include ready start good free grown in
/-- The queueing branch, taken offline and when the window is full. -/
private theorem storeQueued_sat (full : engine.state = .connected →
      engine.outbound.flow.limit ≤ engine.outbound.flow.holders.card) :
    Sat (Outbound.storeQueued (Outbound.newRecord call prepared mid))
      (engine.reserved prepared.logicalSize pool)
      (fun _ after => watch.who mid = some (engine.store.outSeq + 1) →
        Admitted watch engine after mid)
      (fun _ after => after = engine.reserved prepared.logicalSize pool) := by
  have reliable : (engine.reserved prepared.logicalSize pool).store.Reliable :=
    ready.tracking.coherent.reliable
  simp only [Outbound.storeQueued, sat_bind, sat_raiseIf, sat_storeCall reliable, sat_modifyOutbound]
  refine ⟨fun _ => trivial, fun sized named => ?_⟩
  exact ready.admittedQueued start free grown named (good.rowOk mid) (Nat.pos_of_ne_zero sized) rfl
    full

include ready start good free grown in
theorem admit_sat :
    Sat (Outbound.admitPrepared call prepared mid) (engine.reserved prepared.logicalSize pool)
      (fun _ after => watch.who mid = some (engine.store.outSeq + 1) →
        Admitted watch engine after mid)
      (fun _ after => after = engine.reserved prepared.logicalSize pool) := by
  have idle : mid ∉ (engine.reserved prepared.logicalSize pool).outbound.flow.holders :=
    ready.idle free
  simp only [Outbound.admitPrepared, sat_bind, sat_get, sat_ite, sat_onlyIf, sat_pure]
  refine ⟨fun connected => ?_, fun offline => ⟨fun _ => ?_, (by simp)⟩⟩
  · have connected : engine.state = .connected := connected
    simp only [Outbound.tryLaunch, sat_bind]
    apply tryAcquire_sat idle
    · intro full
      simp only [Bool.false_eq_true, ↓reduceIte, sat_pure]
      exact ⟨fun _ => storeQueued_sat ready start good free grown fun _ => full, (by simp)⟩
    · intro room
      simp only [↓reduceIte, sat_tryCatch, sat_bind, sat_pure]
      refine launchNew_sat ready.tracking.coherent.reliable (good.rowOk mid) rfl good.short ?_ ?_
      · intro wire aliases shown stored sized
        refine ⟨(by simp), fun _ named => ?_⟩
        exact ready.admittedLaunched start free grown named stored sized connected
          (waiting_target _) room shown
      · intro failure
        exact acquired_release idle
  · exact storeQueued_sat ready start good free grown fun connected => absurd connected offline

end

theorem deleteFailedAdmission_sat {returned : Bool → Engine → Prop}
    (reliable : engine.store.Reliable)
    (done : returned true { engine with store := engine.store.deleteOut mid }) :
    Sat (Outbound.deleteFailedAdmission mid) engine returned raised := by
  simp only [Outbound.deleteFailedAdmission, sat_bind, sat_catching, sat_storeCall reliable]
  exact done

/-- Undoing an admission that failed leaves nothing behind. -/
theorem rollback_sat {pool : PacketIdPool} {size : Nat} (ready : Ready watch engine)
    (free : mid ∉ engine.outbound.packetIds.used)
    (grown : pool.used = insert mid engine.outbound.packetIds.used)
    (done : ∀ after, engine.Untouched after → returned ⟨⟩ after) :
    Sat (Outbound.rollback engine.outbound.pendingMessages engine.outbound.pendingBytes (some mid))
      (engine.reserved size pool) returned raised := by
  have absent := ready.absent free
  have idle := ready.idle free
  have erased : engine.store.out.erase mid = engine.store.out :=
    Dict.erase_of_not_mem (Dict.get?_eq_none_iff.mp absent)
  simp only [Outbound.rollback, Outbound.releaseSlot, Outbound.releaseId, sat_bind,
    sat_modifyOutbound]
  refine deleteFailedAdmission_sat ready.tracking.coherent.reliable ?_
  simp only [sat_onlyIf, true_implies, not_true_eq_false, false_implies, and_true,
    sat_modifyOutbound]
  apply done
  refine ⟨pool.release mid, ?_, ?_⟩
  · simp [grown, Finset.erase_insert free]
  · simp [Engine.reserved, Store.deleteOut, erased, FlowControl.release,
      Finset.erase_eq_of_notMem idle]

theorem reserve_sat {size : Nat} (done : returned ⟨⟩
      (engine.reserved size engine.outbound.packetIds))
    (refused : ∀ failure, raised failure engine) :
    Sat (Outbound.reserve size) engine returned raised := by
  simp only [Outbound.reserve, sat_bind, sat_get, sat_raiseIf, sat_modifyOutbound]
  exact ⟨fun _ => refused _, fun _ => ⟨fun _ => refused _, fun _ => done⟩⟩

/-- What `queue_publish` leaves behind: nothing new for QoS 0, an admitted
publication under the identifier it returns otherwise. -/
def Published (watch : Watch) (before : Engine) : Option Nat → Engine → Prop
  | none, after => Handled watch watch before after
  | some mid, after => watch.who mid = some (before.store.outSeq + 1) →
      Admitted watch before after mid

/-- A QoS 0 publication is checked as a whole before anything is sent. -/
theorem publishQos0_untouched {call : Outbound.PublishCall} :
    Sat (Outbound.publishQos0 call) engine (fun _ _ => True) (fun _ => engine.Untouched) := by
  have kept : engine.Untouched engine := .refl engine
  simp only [Outbound.publishQos0, Outbound.prepareQos0, sat_bind, sat_get, sat_fromExcept,
    sat_raiseIf]
  refine ⟨fun _ permitted => ⟨fun resolved given => ⟨fun topicBytes _ => ⟨fun _ => kept, fun _ =>
    ⟨fun _ => kept, fun _ => ⟨fun _ _ => ⟨fun item _ => ?_, ?_⟩, ?_⟩⟩⟩, ?_⟩, ?_⟩, ?_⟩
  · refine sat_checkOutboundSize ?_ fun _ => kept
    simp only [sat_pure, send, sat_emit]
    exact sat_commitTopicAlias (topicAlias_ok permitted given) fun _ => trivial
  all_goals exact fun _ _ => kept

theorem queuePublish_sat {choice : Nat} {call : Outbound.PublishCall} (ready : Ready watch engine)
    (start : engine.effects.length = watch.base) :
    Sat (Outbound.queuePublish choice call) engine (Published watch engine)
      (fun _ => engine.Untouched) := by
  have kept : engine.Untouched engine := .refl engine
  simp only [Outbound.queuePublish, sat_bind, sat_get, sat_raiseIf, sat_ite, sat_fromExcept]
  refine ⟨fun _ => kept, fun _ => ⟨fun _ => ?_, fun _ => ⟨?_, fun _ _ => kept⟩⟩⟩
  · have publishes : Within (Aside watch) (Outbound.publishQos0 call) := aside_publishQos0 call
    exact ((publishes engine).and publishQos0_untouched).mono
      (fun _ _ parts => parts.1 ready) (fun _ _ parts => parts.2)
  · intro prepared ok
    have good := prepared_of_ok ok
    refine reserve_sat ?_ fun _ => kept
    simp only [sat_tryCatch, sat_bind]
    refine allocateId_sat ?_ ?_
    · intro mid pool _ free _ _ grown
      have free : mid ∉ engine.outbound.packetIds.used := free
      refine (admit_sat ready start good free grown).mono ?_ ?_
      · exact fun _ _ admitted => admitted
      · rintro failure after rfl
        exact rollback_sat ready free grown fun _ untouched => untouched
    · intro pool same
      simp only [Outbound.rollback, sat_bind, sat_pure, sat_modifyOutbound, sat_throw]
      exact ⟨pool, same, rfl⟩

end

end Mqttium
