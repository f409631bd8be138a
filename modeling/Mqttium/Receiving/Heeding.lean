import Mqttium.Receiving.Aliases
import Mqttium.Receiving.Reuse

/-! What the calls of the owner store and deliver, and that they leave the aliases alone. -/

namespace Mqttium

open Codec Library Packets Persistence Protocol Inbound

/-- The message an effect hands over. -/
def Protocol.Effect.delivery? : Effect → Option Message
  | .message content _ _ => some content
  | .decodedMessage content _ _ _ => some content
  | _ => none

/-- The message repeats the row stored under the identifier. -/
def Persistence.Store.Repeats (store : Store) (mid : Nat) (message : Message) : Prop :=
  ∃ row, store.inbound.get? mid = some row ∧ row.message.topic = message.topic ∧
    (Aliasless row.message.properties → Aliasless message.properties)

/-- Every row was there before with the same content, or its topic is `fresh`. -/
def Persistence.Store.Gains (fresh : Text → Prop) (before after : Store) : Prop :=
  ∀ mid row, after.inbound.get? mid = some row →
    (∃ old, before.inbound.get? mid = some old ∧ old.message.topic = row.message.topic ∧
      old.message.properties = row.message.properties) ∨
    fresh row.message.topic ∧ Aliasless row.message.properties

/-- A topic is stored or delivered because it is `fresh`, or because a row has it that is
delivered `again`; a replay delivers what it took from the store. -/
structure Heeds (fresh : Text → Prop) (again : Nat → Prop) (replaying : Prop)
    (before after : Engine) : Prop where
  config : after.config = before.config
  aliases : after.inbound.aliases = before.inbound.aliases
  maximum : after.inbound.topicAliasMaximum = before.inbound.topicAliasMaximum
  rows : before.store.Gains fresh after.store
  effects : ∃ added, after.effects = before.effects ++ added ∧
    ∀ effect ∈ added, ∀ message, effect.delivery? = some message →
      replaying ∨ (∃ mid, again mid ∧ before.store.Repeats mid message) ∨
        fresh message.topic ∧ Aliasless message.properties

section

variable {fresh : Text → Prop} {again : Nat → Prop} {replaying : Prop}
  {before between after engine : Engine} {store : Store} {mid : Nat}

theorem Persistence.Store.Gains.refl (store : Store) : store.Gains fresh store :=
  fun _ row found => .inl ⟨row, found, rfl, rfl⟩

theorem Persistence.Store.Gains.trans {first second third : Store} (early : first.Gains fresh second)
    (late : second.Gains fresh third) : first.Gains fresh third := by
  intro mid row found
  rcases late mid row found with ⟨between, present, topic, properties⟩ | new
  · rcases early mid between present with ⟨old, stored, same, equal⟩ | new
    · exact .inl ⟨old, stored, same.trans topic, equal.trans properties⟩
    · exact .inr (topic ▸ properties ▸ new)
  · exact .inr new

theorem Persistence.Store.Gains.same {first second : Store} (rows : second.inbound = first.inbound) :
    first.Gains fresh second :=
  fun _ row found => .inl ⟨row, rows ▸ found, rfl, rfl⟩

/-- What a later row repeats, an earlier one does, unless it is fresh. -/
theorem Persistence.Store.Gains.repeats {first second : Store} {message : Message}
    (gains : first.Gains fresh second) (repeats : second.Repeats mid message) :
    first.Repeats mid message ∨ fresh message.topic ∧ Aliasless message.properties := by
  obtain ⟨row, found, topic, bare⟩ := repeats
  rcases gains mid row found with ⟨old, stored, same, equal⟩ | ⟨new, clean⟩
  · exact .inl ⟨old, stored, same.trans topic, fun clean => bare (equal ▸ clean)⟩
  · exact .inr ⟨topic ▸ new, bare clean⟩

instance : IsPreorder Engine (Heeds fresh again replaying) where
  refl engine := ⟨rfl, rfl, rfl, .refl engine.store, [], by simp, by simp⟩
  trans before between after first second := by
    obtain ⟨early, grown, allowed⟩ := first.effects
    obtain ⟨late, more, permitted⟩ := second.effects
    refine ⟨second.config.trans first.config, second.aliases.trans first.aliases,
      second.maximum.trans first.maximum, first.rows.trans second.rows, early ++ late,
      by rw [more, grown, List.append_assoc], fun effect member message hands => ?_⟩
    rcases List.mem_append.mp member with sooner | later
    · exact allowed effect sooner message hands
    · rcases permitted effect later message hands with replays | ⟨mid, repeated, repeats⟩ | new
      · exact .inl replays
      · rcases first.rows.repeats repeats with earlier | new
        · exact .inr (.inl ⟨mid, repeated, earlier⟩)
        · exact .inr (.inr new)
      · exact .inr (.inr new)

/-- A step beside the deliveries that keeps the rows. -/
theorem Heeds.quiet (config : after.config = before.config)
    (aliases : after.inbound.aliases = before.inbound.aliases)
    (maximum : after.inbound.topicAliasMaximum = before.inbound.topicAliasMaximum)
    (rows : after.store.inbound = before.store.inbound)
    (effects : ∃ added, after.effects = before.effects ++ added ∧
      ∀ effect ∈ added, replaying ∨ effect.delivery? = none) :
    Heeds fresh again replaying before after := by
  obtain ⟨added, grown, silent⟩ := effects
  refine ⟨config, aliases, maximum, .same rows, added, grown, fun effect member message hands => ?_⟩
  rcases silent effect member with replays | none
  · exact .inl replays
  · rw [none] at hands
    cases hands

theorem Heeds.silent (config : after.config = before.config)
    (aliases : after.inbound.aliases = before.inbound.aliases)
    (maximum : after.inbound.topicAliasMaximum = before.inbound.topicAliasMaximum)
    (rows : after.store.inbound = before.store.inbound) (effects : after.effects = before.effects) :
    Heeds fresh again replaying before after :=
  .quiet config aliases maximum rows ⟨[], by simp [effects], by simp⟩

theorem Parts.heeds (parts : Parts before after) : Heeds fresh again replaying before after := by
  obtain ⟨added, grown, quiet⟩ := parts.effects
  refine .quiet parts.config (by rw [parts.inbound]) (by rw [parts.inbound]) parts.rows
    ⟨added, grown, fun effect member => .inr ?_⟩
  have silent := (quiet effect member).1
  cases effect with
  | message content marked token => exact absurd trivial silent
  | decodedMessage content marked size token => exact absurd trivial silent
  | _ => rfl

/-- A delivery that is allowed. -/
theorem Heeds.emitting {effect : Effect} (allowed : ∀ message, effect.delivery? = some message →
      replaying ∨ (∃ mid, again mid ∧ engine.store.Repeats mid message) ∨
        fresh message.topic ∧ Aliasless message.properties) :
    Heeds fresh again replaying engine { engine with effects := engine.effects ++ [effect] } :=
  ⟨rfl, rfl, rfl, .refl engine.store, [effect], rfl, fun _ member message hands =>
    allowed message (List.mem_singleton.mp member ▸ hands)⟩

theorem heeds_emit {effect : Effect} (silent : replaying ∨ effect.delivery? = none) :
    Within (Heeds fresh again replaying) (emit effect) :=
  fun _ => .quiet rfl rfl rfl rfl ⟨[effect], rfl, by simpa using silent⟩

theorem heeds_sendAck (frame : Bytes) : Within (Heeds fresh again replaying) (sendAck frame) :=
  heeds_emit (.inr rfl)

theorem heeds_modifyInbound {change : InboundSession → InboundSession}
    (aliases : ∀ inbound, (change inbound).aliases = inbound.aliases)
    (maximum : ∀ inbound, (change inbound).topicAliasMaximum = inbound.topicAliasMaximum) :
    Within (Heeds fresh again replaying) (modifyInbound change) :=
  fun engine => .silent rfl (aliases engine.inbound) (maximum engine.inbound) rfl rfl

theorem heeds_protocolDisconnect (reasonCode : Nat) :
    Within (Heeds fresh again replaying) (protocolDisconnect reasonCode) :=
  fun engine => (parts_protocolDisconnect engine reasonCode).mono (fun _ _ parts => parts.heeds)
    fun _ _ parts => parts.heeds

theorem heeds_refusing {Value : Type} (reasonCode : Nat) (failure : Failure) :
    Within (Heeds fresh again replaying)
      (do protocolDisconnect reasonCode; throw failure : EngineM Value) :=
  within_bind (heeds_protocolDisconnect reasonCode) fun _ => within_throw _

/-! The store -/

/-- A call of the store that gains no row but fresh ones. -/
theorem heeds_storeCall {Value : Type} {call : StoreCall} {run : Store → Value × Store}
    {holds : Value → Prop} (given : ∀ store, holds (run store).1)
    (gains : ∀ store : Store, store.Gains fresh (run store).2) :
    Yields holds (Heeds fresh again replaying) (storeCall call run) := by
  refine yields_of_sat fun engine => ?_
  obtain ⟨faults, rest, -⟩ := nextFault_rest engine.store call
  have moves {store : Store} (rows : engine.store.Gains fresh store) :
      Heeds fresh again replaying engine { engine with store } :=
    ⟨rfl, rfl, rfl, rows, [], by simp, by simp⟩
  have scripted : engine.store.Gains fresh { engine.store with faults } := .same rfl
  have ran := scripted.trans (gains { engine.store with faults })
  simp only [storeCall, sat_bind, sat_get]
  cases next : engine.store.nextFault call with
  | mk fault store =>
    rw [next] at rest
    change store = _ at rest
    subst rest
    cases fault with
    | none => exact ⟨given _, moves ran⟩
    | some fault =>
      cases fault with
      | beforeEffect => exact moves scripted
      | afterEffect => exact moves ran

theorem heeds_storeChange {Value : Type} {call : StoreCall} {run : Store → Value × Store}
    (gains : ∀ store : Store, store.Gains fresh (run store).2) :
    Within (Heeds fresh again replaying) (storeCall call run) := by
  have yields : Yields (fun _ => True) (Heeds fresh again replaying) (storeCall call run) :=
    heeds_storeCall (fun _ => trivial) gains
  exact yields.within

theorem heeds_storeRead {Value : Type} {call : StoreCall} {read : Store → Value} :
    Within (Heeds fresh again replaying) (storeRead call read) :=
  heeds_storeChange fun store => .refl store

theorem gains_setIn {change : InboundMessage → InboundMessage}
    (same : ∀ row, store.inbound.get? mid = some row →
      (change row.message).topic = row.message.topic ∧
        (change row.message).properties = row.message.properties) :
    store.Gains fresh (store.setIn mid change) := by
  intro other row found
  rw [Store.setIn, Dict.get?_modify] at found
  split at found
  · next equal =>
    subst equal
    cases stored : store.inbound.get? other with
    | none => simp [stored] at found
    | some old =>
      simp only [stored, Option.map_some, Option.some.injEq] at found
      subst found
      obtain ⟨topic, properties⟩ := same old stored
      exact .inl ⟨old, rfl, topic.symm, properties.symm⟩
  · exact .inl ⟨row, found, rfl, rfl⟩

theorem gains_markInDelivered : store.Gains fresh (store.markInDelivered mid).2 := by
  unfold Store.markInDelivered
  split
  · split
    · exact .refl store
    · exact gains_setIn fun _ _ => ⟨rfl, rfl⟩
  · exact .refl store

theorem gains_transitionIn {expected next : InboundQoSState} {userAcked : Option Bool} :
    store.Gains fresh (store.transitionIn mid expected next userAcked).2 := by
  unfold Store.transitionIn
  cases found : store.inMessage? mid with
  | none => exact .refl store
  | some message =>
    simp only
    split
    · refine gains_setIn fun row stored => ?_
      have read : row.message = message := by simpa [Store.inMessage?, stored] using found
      rw [read]
      exact ⟨rfl, rfl⟩
    · exact .refl store

theorem gains_completeIn {expected : InboundQoSState} :
    store.Gains fresh (store.completeIn mid expected).2 := by
  unfold Store.completeIn
  split
  · split
    · intro other row found
      by_cases same : other = mid
      · subst same
        rw [Dict.get?_erase_self] at found
        cases found
      · rw [Dict.get?_erase_of_ne same] at found
        exact .inl ⟨row, found, rfl, rfl⟩
    · exact .refl store
  · exact .refl store

theorem gains_putIn {message : InboundMessage} (new : fresh message.topic)
    (bare : Aliasless message.properties) : store.Gains fresh (store.putIn message) := by
  have inserted (row : InRow) (same : row.message = message) : store.Gains fresh { store with
      inbound := store.inbound.insert message.mid row, inSeq := store.inSeq + 1 } := by
    intro other found present
    by_cases equal : other = message.mid
    · subst equal
      rw [Dict.get?_insert_self] at present
      cases present
      rw [same]
      exact .inr ⟨new, bare⟩
    · rw [Dict.get?_insert_of_ne _ equal] at present
      exact .inl ⟨found, present, rfl, rfl⟩
  unfold Store.putIn
  split
  · exact inserted _ rfl
  · exact inserted _ rfl

/-! The outbound direction and the connection -/

theorem remote_delivery {effect : Effect} (remote : effect.Remote) : effect.delivery? = none := by
  cases effect with
  | message content marked token => exact remote.elim
  | decodedMessage content marked size token => exact remote.elim
  | _ => rfl

instance : Standby (Heeds fresh again replaying) where
  remote still inbound store := by
    obtain ⟨added, grown, remote⟩ := still.quiet.effects
    exact .quiet still.quiet.config (by rw [inbound]) (by rw [inbound]) (by rw [store])
      ⟨added, grown, fun effect member => .inr (remote_delivery (remote effect member))⟩
  read _ _ := heeds_storeRead
  endSubs _ := sat_releasePendingSubscriptionRequests fun _ _ => .silent rfl rfl rfl rfl rfl

instance : Speaking (Heeds fresh again replaying) where
  speak _ := heeds_emit (.inr rfl)

instance : Outward (Heeds fresh again replaying) where
  good := fun _ => True
  facts _ _ later := fun engine => later engine (honest_any engine) engine
  session _ _ := .silent rfl rfl rfl rfl rfl
  store apart caches := heeds_storeCall (fun store => (caches store (honest_any_store store)).1)
    fun store => .same (apart.rows store)
  assign apart _ _ := .silent rfl rfl rfl (apart.rows _) rfl
  subs _ := within_modify fun _ => .silent rfl rfl rfl rfl rfl
  report {effect} reports := by
    cases effect with
    | message content marked token => exact reports.elim
    | decodedMessage content marked size token => exact reports.elim
    | _ => exact heeds_emit (.inr rfl)

instance : Sending (Heeds fresh again replaying) where
  sendable := inferInstanceAs (Sendable fun _ => True)
  send _ := heeds_emit (.inr rfl)

instance : Parting (Heeds fresh again replaying) (Heeds fresh again replaying) where
  goodbye := heeds_protocolDisconnect

/-! Rows and identities -/

theorem heeds_lookupStoredInbound (mid : Nat) :
    Within (Heeds fresh again replaying) (lookupStoredInbound mid) :=
  within_bind within_get fun _ => within_ite (within_pure _) heeds_storeRead

theorem heeds_shareAfter (mid : Nat) : Within (Heeds fresh again replaying) (shareAfter mid) := by
  refine within_modify fun engine => ?_
  cases engine.store.inbound.get? mid with
  | none => exact Std.Refl.refl engine
  | some row => exact .silent rfl rfl rfl rfl rfl

theorem heeds_markRowDelivered (mid : Nat) :
    Within (Heeds fresh again replaying) (markRowDelivered mid) :=
  within_bind (within_map (heeds_storeChange fun _ => gains_markInDelivered)) fun _ =>
    heeds_shareAfter mid

theorem heeds_transitionRow (mid : Nat) (expected next : InboundQoSState)
    (userAcked : Option Bool) :
    Within (Heeds fresh again replaying) (transitionRow mid expected next userAcked) :=
  within_bind (heeds_storeChange fun _ => gains_transitionIn) fun _ =>
    within_bind (heeds_shareAfter mid) fun _ => within_pure _

theorem heeds_forgetInbound : Within (Heeds fresh again replaying) forgetInbound :=
  within_bind within_get fun _ => within_bind within_raiseIf fun _ =>
    heeds_modifyInbound (fun _ => rfl) fun _ => rfl

theorem heeds_rememberInbound : Within (Heeds fresh again replaying) rememberInbound :=
  heeds_modifyInbound (fun _ => rfl) fun _ => rfl

theorem heeds_releasePendingBytes (size : Nat) :
    Within (Heeds fresh again replaying) (releasePendingBytes size) :=
  within_bind within_get fun _ => within_bind within_raiseIf fun _ =>
    heeds_modifyInbound (fun _ => rfl) fun _ => rfl

theorem heeds_freshToken (mid : Nat) : Within (Heeds fresh again replaying) (freshToken mid) :=
  within_bind within_get fun _ =>
    within_bind (heeds_modifyInbound (fun _ => rfl) fun _ => rfl) fun _ => within_pure _

/-- Naming an exchange keeps the store. -/
theorem sat_exchangeToken_heeds (mid : Nat) :
    Sat (exchangeToken mid) engine
      (fun _ after => after.store = engine.store ∧ Heeds fresh again replaying engine after)
      (fun _ _ => False) := by
  simp only [exchangeToken, sat_bind, sat_get]
  cases engine.inbound.exchangeTokens.get? mid with
  | some token => exact ⟨rfl, Std.Refl.refl engine⟩
  | none =>
    simp only [freshToken, sat_bind, sat_get, sat_modifyInbound, sat_pure]
    exact ⟨trivial, .silent rfl rfl rfl rfl rfl⟩

theorem sat_bindAckToken_heeds (mid : Nat) (message : Message) :
    Sat (bindAckToken mid message) engine
      (fun bound after => bound.topic = message.topic ∧ bound.properties = message.properties ∧
        after.store = engine.store ∧ Heeds fresh again replaying engine after)
      (fun _ _ => False) := by
  rw [bindAckToken, sat_bind, sat_get, sat_ite]
  refine ⟨fun _ => ?_, fun _ => ⟨rfl, rfl, rfl, Std.Refl.refl engine⟩⟩
  rw [sat_bind]
  apply (sat_exchangeToken_heeds mid).mono
  · exact fun _ _ ⟨shelved, heeds⟩ => ⟨rfl, rfl, shelved, heeds⟩
  · exact fun _ _ impossible => impossible

theorem yields_bindAckToken (mid : Nat) (message : Message) :
    Yields (fun bound : Message => bound.topic = message.topic ∧ bound.properties = message.properties)
      (Heeds fresh again replaying) (bindAckToken mid message) :=
  yields_of_sat fun _ => (sat_bindAckToken_heeds mid message).mono
    (fun _ _ ⟨topic, properties, _, heeds⟩ => ⟨⟨topic, properties⟩, heeds⟩)
    fun _ _ impossible => impossible.elim

/-! Deliveries -/

theorem heeds_emitDelivery {message : Message} (marked : Bool) (size : Option Nat)
    (token : Option Token) (new : fresh message.topic) (bare : Aliasless message.properties) :
    Within (Heeds fresh again replaying) (emitDelivery message marked size token) := by
  cases size with
  | none =>
    refine within_modify fun _ => .emitting fun handed hands => ?_
    cases hands
    exact .inr (.inr ⟨new, bare⟩)
  | some size =>
    refine within_modify fun _ => .emitting fun handed hands => ?_
    cases hands
    exact .inr (.inr ⟨new, bare⟩)

/-- What is delivered once more repeats a row, or is replayed. -/
theorem sat_emitMessage_heeds {stored : InboundMessage} (dup : Bool)
    (known : replaying ∨ ∃ mid, again mid ∧ ∀ message : Message, message.topic = stored.topic →
      message.properties = stored.properties → engine.store.Repeats mid message) :
    Sat (emitMessage stored dup) engine (fun _ => Heeds fresh again replaying engine)
      (fun _ => Heeds fresh again replaying engine) := by
  rw [emitMessage, sat_bind]
  apply (@sat_bindAckToken_heeds fresh again replaying engine stored.mid _).mono
  · intro message between ⟨topic, properties, shelved, bound⟩
    rw [sat_bind]
    apply (@sat_exchangeToken_heeds fresh again replaying between stored.mid).mono
    · intro token last ⟨kept, named⟩
      have moved : Heeds fresh again replaying engine last := IsTrans.trans _ _ _ bound named
      refine IsTrans.trans _ _ _ moved (.emitting fun handed hands => ?_)
      cases hands
      rw [kept, shelved]
      exact known.imp id fun ⟨mid, repeated, repeats⟩ =>
        .inl ⟨mid, repeated, repeats message topic properties⟩
    · exact fun _ _ impossible => impossible.elim
  · exact fun _ _ impossible => impossible.elim

theorem heeds_emitMessage (stored : InboundMessage) (dup : Bool) :
    Within (Heeds fresh again True) (emitMessage stored dup) :=
  fun _ => sat_emitMessage_heeds dup (.inl trivial)

/-! Completion -/

theorem heeds_completeStoredInbound (mid : Nat) (expected : InboundQoSState) (action : String) :
    Within (Heeds fresh again replaying) (completeStoredInbound mid expected action) := by
  refine within_bind (heeds_storeChange fun _ => gains_completeIn) fun found => ?_
  cases found with
  | none => exact within_throw _
  | some record =>
    exact within_bind (heeds_modifyInbound (fun _ => rfl) fun _ => rfl) fun _ => within_pure _

theorem heeds_completeQos1 (mid : Nat) : Within (Heeds fresh again replaying) (completeQos1 mid) :=
  within_bind (heeds_completeStoredInbound _ _ _) fun _ => within_bind heeds_forgetInbound fun _ =>
    within_bind (heeds_sendAck _) fun _ =>
    within_bind (heeds_modifyInbound (fun _ => rfl) fun _ => rfl) fun _ => heeds_releasePendingBytes _

theorem heeds_holdUntilPubcompHandoff (mid size : Nat) :
    Within (Heeds fresh again replaying) (holdUntilPubcompHandoff mid size) :=
  within_bind (heeds_releasePendingBytes size) fun _ => within_bind within_get fun _ =>
    within_bind (heeds_modifyInbound (fun _ => rfl) fun _ => rfl) fun _ =>
    within_onlyIf (heeds_modifyInbound (fun _ => rfl) fun _ => rfl)

theorem heeds_completeQos2 (mid : Nat) (state : InboundQoSState) (action : String) :
    Within (Heeds fresh again replaying) (completeQos2 mid state action) :=
  within_bind (heeds_completeStoredInbound _ _ _) fun _ => within_bind heeds_forgetInbound fun _ =>
    within_bind (heeds_sendAck _) fun _ => heeds_holdUntilPubcompHandoff mid _

theorem heeds_drainManualFor (fuel : Nat) :
    Within (Heeds fresh again replaying) (drainManualFor fuel) := by
  induction fuel with
  | zero => exact within_pure _
  | succ fuel ih =>
    refine within_bind within_get fun engine => ?_
    cases engine.inbound.manualQos1Order with
    | nil => exact within_pure _
    | cons mid rest =>
      exact within_onlyIf <| within_bind (heeds_lookupStoredInbound mid) fun _ =>
        within_bind within_raiseIf fun _ => within_bind (heeds_completeQos1 mid) fun _ =>
        within_bind (heeds_modifyInbound (fun _ => rfl) fun _ => rfl) fun _ => ih

theorem heeds_drainManualQos1Acks : Within (Heeds fresh again replaying) drainManualQos1Acks :=
  within_bind within_get fun _ => heeds_drainManualFor _

/-! Slots -/

theorem heeds_acquireSlot (size : Option Nat) :
    Within (Heeds fresh again replaying) (acquireSlot size) :=
  within_bind within_get fun _ => within_bind (within_onlyIf (heeds_refusing _ _)) fun _ =>
    within_bind (within_onlyIf (heeds_refusing _ _)) fun _ =>
    within_bind (heeds_modifyInbound (fun _ => rfl) fun _ => rfl) fun _ => within_pure _

theorem heeds_holdSlot (mid : Nat) : Within (Heeds fresh again replaying) (holdSlot mid) :=
  within_bind within_get fun _ => within_onlyIf <|
    within_bind (within_map (heeds_acquireSlot none)) fun _ =>
    heeds_modifyInbound (fun _ => rfl) fun _ => rfl

theorem heeds_admitRow {arrival : Arrival} (qos : QoS) (state : InboundQoSState)
    (new : fresh arrival.topic) (bare : Aliasless arrival.properties) :
    Within (Heeds fresh again replaying) (admitRow arrival qos state) := by
  refine within_bind within_get fun engine => within_bind within_fromExcept fun size => ?_
  have stores : Within (Heeds fresh again replaying) (storeCall .putIn fun store =>
      (PUnit.unit, store.putIn
        { mid := arrival.mid, topic := arrival.topic, payload := arrival.payload, qos
          retain := arrival.retain, state, properties := arrival.properties, logicalSize := size })) :=
    heeds_storeChange fun _ => gains_putIn new bare
  refine within_bind (within_map (heeds_acquireSlot _)) fun _ => within_bind (within_tryCatch
    (within_bind within_raiseIf fun _ => stores) fun _ =>
      within_bind (heeds_releasePendingBytes size) fun _ => within_throw _) fun _ => ?_
  exact within_bind (heeds_modifyInbound (fun _ => rfl) fun _ => rfl) fun _ =>
    within_bind (heeds_freshToken _) fun _ => within_bind heeds_rememberInbound fun _ => within_pure _

/-! PUBLISH -/

theorem heeds_onQos2Stored (mid : Nat) (state : InboundQoSState) :
    Within (Heeds fresh again replaying) (onQos2Stored mid state) :=
  within_bind within_get fun _ => within_ite (heeds_refusing _ _) <|
    within_ite (heeds_refusing _ _) <| within_ite (within_throw _) <|
    within_bind (heeds_holdSlot mid) fun _ => heeds_sendAck _

/-- What follows the storing of a fresh exchange. -/
theorem heeds_surface {arrival : Arrival} (qos : QoS) (token : Token) (new : fresh arrival.topic)
    (bare : Aliasless arrival.properties) :
    Within (Heeds fresh again replaying) (do
      let message ← bindAckToken arrival.mid (arrival.message qos)
      emitDelivery message true arrival.propertyWireSize (some token)) := by
  refine yields_then (yields_bindAckToken _ _) fun message ⟨topic, properties⟩ => ?_
  exact heeds_emitDelivery _ _ _ (topic ▸ new) (properties ▸ bare)

theorem heeds_onQos2Fresh {arrival : Arrival} (new : fresh arrival.topic)
    (bare : Aliasless arrival.properties) :
    Within (Heeds fresh again replaying) (onQos2Fresh arrival) :=
  within_bind within_get fun _ => within_ite (heeds_refusing _ _) <|
    within_ite (heeds_refusing _ _) <| within_bind (heeds_admitRow _ _ new bare) fun token =>
    within_bind (heeds_sendAck _) fun _ => heeds_surface _ token new bare

theorem heeds_onQos1ManualFresh {arrival : Arrival} (new : fresh arrival.topic)
    (bare : Aliasless arrival.properties) :
    Within (Heeds fresh again replaying) (onQos1ManualFresh arrival) :=
  within_bind within_get fun _ => within_ite (heeds_refusing _ _) <|
    within_bind (heeds_admitRow _ _ new bare) fun token =>
    within_bind (heeds_modifyInbound (fun _ => rfl) fun _ => rfl) fun _ =>
    heeds_surface _ token new bare

theorem readIn_repeats {row : InRow} (found : store.inbound.get? mid = some row)
    {message : Message} (topic : message.topic = (Store.readIn store.kind row.message).topic)
    (properties : message.properties = (Store.readIn store.kind row.message).properties) :
    store.Repeats mid message := by
  refine ⟨row, found, ?_, fun bare => ?_⟩
  · rw [topic]
    cases store.kind <;> rfl
  · rw [properties]
    cases store.kind with
    | memory => exact bare
    | sqlite =>
      simp only [Store.readIn]
      split
      · exact bare
      · rfl

/-- A duplicate is delivered with the content of its row. -/
theorem heeds_onQos1ManualStored (repeated : again mid) :
    Within (Heeds fresh again replaying) (onQos1ManualStored mid) := by
  refine within_bind within_get fun _ => within_bind (heeds_holdSlot mid) fun _ =>
    within_ite heeds_drainManualQos1Acks fun engine => ?_
  rw [sat_bind]
  have scripted (faults : StoreCall → List (Option Fault)) : Heeds fresh again replaying engine
      { engine with store := { engine.store with faults } } := .silent rfl rfl rfl rfl rfl
  apply sat_storeRead_script.mono
  · rintro found _ ⟨faults, rfl, read⟩
    apply Sat.from (scripted faults)
    cases found with
    | none =>
      have gives : Within (Heeds fresh again replaying) (modifyInbound fun inbound =>
          { inbound with currentPersistedMids := inbound.currentPersistedMids.erase mid }) :=
        heeds_modifyInbound (fun _ => rfl) fun _ => rfl
      exact within_bind (within_onlyIf gives) (fun _ => within_throw _) _
    | some stored =>
      obtain ⟨row, present, same⟩ : ∃ row, engine.store.inbound.get? mid = some row ∧
          stored = Store.readIn engine.store.kind row.message := by
        cases present : engine.store.inbound.get? mid with
        | none => simp [Store.getIn, Store.inMessage?, present] at read
        | some row => exact ⟨row, rfl, by simpa [Store.getIn, Store.inMessage?, present] using read⟩
      refine sat_emitMessage_heeds true (.inr ⟨mid, repeated, fun message topic properties => ?_⟩)
      subst same
      exact @readIn_repeats { engine.store with faults } _ _ present _ topic properties
  · rintro _ _ ⟨faults, rfl⟩
    exact scripted faults

theorem heeds_completeRecoveredQos1Auto (mid : Nat) :
    Within (Heeds fresh again replaying) (completeRecoveredQos1Auto mid) := by
  refine within_bind within_get fun _ => within_ite (within_pure _) <|
    within_bind (heeds_lookupStoredInbound mid) fun _ => within_ite ?_ ?_
  · exact within_bind (heeds_holdSlot mid) fun _ => heeds_modifyInbound (fun _ => rfl) fun _ => rfl
  · exact within_bind (heeds_acquireSlot none) fun _ =>
      within_bind (heeds_completeStoredInbound _ _ _) fun _ =>
      within_bind heeds_forgetInbound fun _ => within_bind (heeds_sendAck _) fun _ =>
      within_bind (heeds_releasePendingBytes _) fun _ =>
      heeds_modifyInbound (fun _ => rfl) fun _ => rfl

theorem heeds_onQos1AutoFresh {arrival : Arrival} (new : fresh arrival.topic)
    (bare : Aliasless arrival.properties) :
    Within (Heeds fresh again replaying) (onQos1AutoFresh arrival) := by
  have answers (occupied : Nat) (retransmission : Bool) :
      Within (Heeds fresh again replaying) (do
        sendAck (encodePubackSuccess arrival.mid)
        emitDelivery (arrival.message .atLeastOnce) false arrival.propertyWireSize none
        onlyIf (retransmission = false) (modifyInbound fun inbound =>
          { inbound with
            pendingAutoQos1Mids := insert arrival.mid inbound.pendingAutoQos1Mids
            autoackHandoffRequired := inbound.autoackHandoffRequired ||
              decide (inbound.receiveMaximum ≤ occupied) })) :=
    within_bind (heeds_sendAck _) fun _ => within_bind (heeds_emitDelivery _ _ _ new bare) fun _ =>
      within_onlyIf (heeds_modifyInbound (fun _ => rfl) fun _ => rfl)
  refine within_bind within_get fun engine => within_ite (heeds_refusing _ _) ?_
  by_cases retransmitted : arrival.mid ∈ engine.inbound.pendingAutoQos1Mids
  · simp only [retransmitted, decide_true, ↓reduceIte]
    exact within_bind (within_pure 0) fun occupied => answers occupied _
  · simp only [retransmitted, decide_false, Bool.false_eq_true, ↓reduceIte]
    exact within_bind (heeds_acquireSlot none) fun occupied => answers occupied _

/-- What a PUBLISH with QoS 1 or 2 stores and delivers. -/
theorem heeds_dispatchQos {arrival : Arrival} (qosBits : Nat) (repeated : again arrival.mid)
    (new : fresh arrival.topic) (bare : Aliasless arrival.properties) :
    Within (Heeds fresh again replaying) (dispatchQos qosBits arrival) := by
  refine within_ite (within_bind within_get fun _ => within_ite ?_ ?_) ?_
  · refine within_bind (heeds_lookupStoredInbound _) fun found => ?_
    cases found with
    | none => exact heeds_onQos1ManualFresh new bare
    | some existing => exact within_ite (heeds_onQos1ManualStored repeated) (heeds_refusing _ _)
  · refine within_bind (heeds_lookupStoredInbound _) fun found => ?_
    cases found with
    | none => exact heeds_onQos1AutoFresh new bare
    | some existing => exact within_ite (heeds_completeRecoveredQos1Auto _) (heeds_refusing _ _)
  · refine within_bind (heeds_lookupStoredInbound _) fun found => ?_
    cases found with
    | none => exact heeds_onQos2Fresh new bare
    | some existing => exact heeds_onQos2Stored _ _

/-! PUBREL, delivery marks and acknowledgements -/

theorem heeds_onPubrel (raw : RawPacket) : Within (Heeds fresh again replaying) (onPubrel raw) := by
  have stored (mid : Nat) (record : InboundRecordMeta) :
      Within (Heeds fresh again replaying) (onPubrelStored mid record) := by
    refine within_bind within_get fun engine => within_ite (within_pure _) <|
      within_ite (within_throw _) <| within_ite ?_ <| within_ite ?_ (heeds_completeQos2 _ _ _)
    · refine within_bind (heeds_transitionRow mid _ _ _) fun changed => ?_
      cases changed with
      | none => exact within_throw _
      | some record => exact within_pure _
    · exact heeds_modifyInbound (fun _ => rfl) fun _ => rfl
  have validates (properties : Option Properties) : Within (Heeds fresh again replaying)
      (Outbound.validateAckProperties .pubrel properties) := beside_validateAckProperties _ _
  refine within_bind within_get fun engine => within_bind within_fromExcept fun decoded =>
    within_bind (validates _) fun _ => within_bind (heeds_lookupStoredInbound _) fun record => ?_
  cases record with
  | none => exact heeds_sendAck _
  | some record => exact stored _ record

theorem heeds_markDelivered (mid : Nat) (token : Option Token) :
    Within (Heeds fresh again replaying) (markDelivered mid token) := by
  refine within_bind within_get fun engine => within_ite (within_pure _) <|
    within_bind (heeds_modifyInbound (fun _ => rfl) fun _ => rfl) fun _ => ?_
  cases engine.inbound.pendingCompletions.get? mid with
  | none => exact within_onlyIf (heeds_markRowDelivered mid)
  | some state =>
    cases state with
    | waitPuback => exact heeds_completeQos1 mid
    | _ => exact heeds_completeQos2 mid _ _

theorem heeds_ack (mid : Nat) (message : Option Message) :
    Within (Heeds fresh again replaying) (Inbound.ack mid message) := by
  have sizes (frame : Bytes) :
      Within (Heeds fresh again replaying) (checkOutboundSize (.contiguous frame)) :=
    beside_checkOutboundSize
  refine within_bind within_get fun engine => within_bind within_raiseIf fun _ =>
    within_bind within_raiseIf fun _ => within_bind (heeds_lookupStoredInbound mid) fun record => ?_
  cases record with
  | none => exact within_throw _
  | some record =>
    cases state : record.state with
    | waitPubrel =>
      simp only [state]
      refine within_bind (heeds_transitionRow mid _ _ _) fun changed => ?_
      cases changed with
      | none => exact within_throw _
      | some record => exact within_pure _
    | waitPuback =>
      simp only [state]
      exact within_bind (sizes _) fun _ =>
        within_bind (heeds_modifyInbound (fun _ => rfl) fun _ => rfl) fun _ =>
        heeds_drainManualQos1Acks
    | waitUserAck =>
      simp only [state]
      exact within_bind (sizes _) fun _ => heeds_completeQos2 mid _ _
    | done =>
      simp only [state]
      exact within_throw _

/-! Replay and the start of a session -/

theorem heeds_nextPage (groups : List (List Nat)) :
    Within (Heeds fresh again replaying) (nextPage groups) := by
  induction groups with
  | nil => exact within_pure _
  | cons mids rest ih =>
    refine within_bind heeds_storeRead fun page => ?_
    cases page with
    | nil => exact ih
    | cons row rows => exact within_pure _

theorem heeds_beginPage (cursor : InboundReplayCursor) :
    Within (Heeds fresh again replaying) (beginPage cursor) := by
  refine within_ite (within_pure _) <|
    within_bind (heeds_modifyInbound (fun _ => rfl) fun _ => rfl) fun _ =>
    within_bind (heeds_nextPage _) fun page => ?_
  cases page with
  | none => exact within_pure _
  | some page => exact within_pure _

theorem heeds_replayFor (fuel : Nat) (cursor : InboundReplayCursor) (emitted bytes : Nat) :
    Within (Heeds fresh again True) (replayFor fuel cursor emitted bytes) := by
  induction fuel generalizing cursor emitted bytes with
  | zero => exact within_pure _
  | succ fuel ih =>
    refine within_ite (within_pure _) ?_
    cases nextPageMessage cursor with
    | mk found rest =>
      cases found with
      | none => exact within_pure _
      | some row =>
        exact within_bind within_get fun _ => within_ite (ih _ _ _) <| within_ite (within_pure _) <|
          within_bind (heeds_emitMessage row.message true) fun _ => ih _ _ _

theorem heeds_drainReplay : Within (Heeds fresh again True) drainReplay := by
  refine within_bind within_get fun engine => ?_
  cases engine.inbound.replay with
  | none => exact within_pure _
  | some cursor =>
    have ends : Within (Heeds fresh again True) endReplay :=
      heeds_modifyInbound (fun _ => rfl) fun _ => rfl
    refine within_bind (heeds_beginPage cursor) fun begun => within_ite ?_ ends
    exact within_bind (heeds_replayFor _ _ _ _) fun _ =>
      within_bind (heeds_modifyInbound (fun _ => rfl) fun _ => rfl) fun _ =>
      within_ite ends (heeds_emit (.inr rfl))

theorem gains_clearIn : store.Gains fresh store.clearIn := by
  intro mid row found
  simp [Store.clearIn] at found

instance : Accepting (Heeds fresh again True) where
  own config inbound store _ effects := within_modify fun engine => .silent (config engine)
    (by rw [inbound]) (by rw [inbound]) (by rw [store]) (effects engine)
  announce _ := heeds_emit (.inl trivial)
  discards := within_bind (heeds_storeChange fun _ => gains_clearIn) fun _ =>
    heeds_modifyInbound (fun _ => rfl) fun _ => rfl
  replays := within_bind heeds_storeRead fun _ =>
    within_bind (heeds_modifyInbound (fun _ => rfl) fun _ => rfl) fun _ =>
    within_ite (heeds_modifyInbound (fun _ => rfl) fun _ => rfl) <| within_bind within_get fun _ =>
    within_bind (heeds_modifyInbound (fun _ => rfl) fun _ => rfl) fun _ => heeds_drainReplay

end

end Mqttium
