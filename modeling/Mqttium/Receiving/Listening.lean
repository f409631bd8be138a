import Mqttium.Receiving.Heeding

/-! Topic aliases over whole runs: what the engine stores and delivers has the topic that
the PUBLISHes of the connection give it. -/

namespace Mqttium

open Codec Library Packets Persistence Protocol Inbound

/-! What can be read of a PUBLISH -/

/-- The topic can be matched, and the alias is a number of the wire. -/
structure Naming.Wellformed (naming : Naming) : Prop where
  plain : hasWildcard naming.topic = false
  natural : ∀ number, naming.number = some number → 0 ≤ number

theorem validateReceivedPublishTopic_plain {topic : Text}
    (ok : validateReceivedPublishTopic topic = .ok ()) : hasWildcard topic = false := by
  unfold validateReceivedPublishTopic at ok
  split at ok
  · next empty =>
    subst empty
    rfl
  · split at ok
    · cases ok
    · next plain => exact Bool.eq_false_iff.mpr plain

/-- The identifier of a PUBLISH with QoS 1 or 2. -/
def Packets.RawPacket.identifier? (raw : RawPacket) : Option Nat :=
  if raw.qosBits = 0 then none else (decodePublishFieldsV5 raw).toOption.map (·.mid)

section

variable {raw : RawPacket} {naming : Naming}

theorem decodeQos0MessageV5_wellformed {message : Message} {wireSize : Nat}
    (ok : decodeQos0MessageV5 raw = .ok (message, wireSize)) :
    (namingOf message.topic message.properties).Wellformed := by
  unfold decodeQos0MessageV5 at ok
  split at ok
  · cases ok
  · obtain ⟨⟨topic, tablePos⟩, -, ok⟩ := except_bind_ok.mp ok
    obtain ⟨⟨properties, pos⟩, table, ok⟩ := except_bind_ok.mp ok
    obtain ⟨_, valid, ok⟩ := except_bind_ok.mp ok
    cases ok
    exact ⟨validateReceivedPublishTopic_plain valid, (decodeProperties_natural table).naming⟩

theorem decodePublishFieldsV5_wellformed {fields : PublishFields}
    (ok : decodePublishFieldsV5 raw = .ok fields) :
    (namingOf fields.topic fields.properties).Wellformed := by
  obtain ⟨⟨topic, midPos⟩, -, ok⟩ := except_bind_ok.mp ok
  obtain ⟨⟨mid, tablePos⟩, -, ok⟩ := except_bind_ok.mp ok
  obtain ⟨_, _, ok⟩ := except_bind_ok.mp ok
  obtain ⟨⟨properties, pos⟩, table, ok⟩ := except_bind_ok.mp ok
  obtain ⟨_, valid, ok⟩ := except_bind_ok.mp ok
  cases ok
  exact ⟨validateReceivedPublishTopic_plain valid, (decodeProperties_natural table).naming⟩

theorem naming_wellformed (read : raw.naming? = some naming) : naming.Wellformed := by
  unfold RawPacket.naming? at read
  split at read
  · obtain ⟨⟨message, wireSize⟩, decoded, rfl⟩ := Option.map_eq_some_iff.mp read
    cases ok : decodeQos0MessageV5 raw with
    | error failure => simp [ok, Except.toOption] at decoded
    | ok result =>
      simp only [ok, Except.toOption, Option.some.injEq] at decoded
      subst decoded
      exact decodeQos0MessageV5_wellformed ok
  · split at read
    · cases read
    · obtain ⟨fields, decoded, rfl⟩ := Option.map_eq_some_iff.mp read
      cases ok : decodePublishFieldsV5 raw with
      | error failure => simp [ok, Except.toOption] at decoded
      | ok result =>
        simp only [ok, Except.toOption, Option.some.injEq] at decoded
        subst decoded
        exact decodePublishFieldsV5_wellformed ok

end

/-! One PUBLISH -/

/-- The PUBLISH is taken for one with the topic it means. -/
def Taken (heard : List Naming) (raw : RawPacket) (before after : Engine) : Prop :=
  ∃ naming topic, raw.naming? = some naming ∧
    Naming.meaning before.inbound.topicAliasMaximum heard naming = some topic ∧
    Heeds (fun other => other = topic) (fun mid => raw.identifier? = some mid) False
      (before.hearing naming) after

/-- The PUBLISH means no topic: the failure is the peer's, and the connection ends. -/
structure Declined (heard : List Naming) (raw : RawPacket) (before : Engine) (failure : Failure)
    (after : Engine) : Prop where
  meaningless :
    raw.naming?.bind (Naming.meaning before.inbound.topicAliasMaximum heard) = none
  peer : isPeerError failure = true
  parts : Parts before after
  past : raw.naming?.isSome = true → after.state = .disconnected

section

variable {engine after : Engine} {heard : List Naming} {raw : RawPacket}

theorem Declined.unread {failure : Failure} (unread : raw.naming? = none)
    (peer : isPeerError failure = true) : Declined heard raw engine failure engine where
  meaningless := by simp [unread]
  peer := peer
  parts := parts_refl engine
  past some := by simp [unread] at some

theorem Declined.refused {naming : Naming} {failure : Failure} (read : raw.naming? = some naming)
    (meaningless : Naming.meaning engine.inbound.topicAliasMaximum heard naming = none)
    (peer : isPeerError failure = true) (refused : Refused engine after) :
    Declined heard raw engine failure after where
  meaningless := by simpa [read] using meaningless
  peer := peer
  parts := refused.toParts
  past _ := refused.past

theorem sat_onPublishV5 (attuned : Attuned heard engine) (v5 : engine.isV5 = true) :
    Sat (onPublishV5 raw) engine (fun _ after => Taken heard raw engine after)
      (fun failure after => Taken heard raw engine after ∨
        Declined heard raw engine failure after) := by
  rw [onPublishV5, sat_ite]
  refine ⟨fun zero => ?_, fun positive => ?_⟩
  · rw [sat_bind, sat_fromExcept]
    refine ⟨fun arrival decoded => ?_, fun failure failed => ?_⟩
    · obtain ⟨message, wireSize⟩ := arrival
      have read : raw.naming? = some (namingOf message.topic message.properties) := by
        simp [RawPacket.naming?, zero, decoded, Except.toOption]
      rw [sat_bind]
      apply (resolveArrival_meaning attuned v5 (decodeQos0MessageV5_wellformed decoded).natural).mono
      · rintro ⟨topic, properties, size⟩ _ ⟨means, bare, rfl⟩
        have delivers : Within (Heeds (fun other => other = topic)
            (fun mid => raw.identifier? = some mid) False)
            (emitDelivery { message with topic, properties } false size none) :=
          heeds_emitDelivery false size none rfl bare
        apply (delivers _).mono
        · exact fun _ _ heeds => ⟨_, topic, read, means, heeds⟩
        · exact fun _ _ heeds => .inl ⟨_, topic, read, means, heeds⟩
      · rintro _ _ ⟨meaningless, peer, refused⟩
        exact .inr (.refused read meaningless peer refused)
    · have unread : raw.naming? = none := by
        simp [RawPacket.naming?, zero, failed, Except.toOption]
      exact .inr (.unread unread (decodeQos0MessageV5_refused failed))
  · rw [sat_ite]
    refine ⟨fun three => .inr (.unread ?_ rfl), fun other => ?_⟩
    · rw [RawPacket.naming?, if_neg positive, if_pos three]
    rw [sat_bind, sat_fromExcept]
    refine ⟨fun fields decoded => ?_, fun failure failed => ?_⟩
    · have read : raw.naming? = some (namingOf fields.topic fields.properties) := by
        simp [RawPacket.naming?, positive, other, decoded, Except.toOption]
      have identified : raw.identifier? = some fields.mid := by
        simp [RawPacket.identifier?, positive, decoded, Except.toOption]
      rw [sat_bind]
      apply (resolveArrival_meaning attuned v5 (decodePublishFieldsV5_wellformed decoded).natural).mono
      · rintro ⟨topic, properties, size⟩ _ ⟨means, bare, rfl⟩
        let arrival : Arrival :=
          { topic, payload := fields.payload, mid := fields.mid, retain := fields.retain,
            dup := fields.dup, properties, propertyWireSize := size }
        have dispatches : Within (Heeds (fun other => other = topic)
            (fun mid => raw.identifier? = some mid) False) (dispatchQos raw.qosBits arrival) :=
          heeds_dispatchQos raw.qosBits identified rfl bare
        apply (dispatches _).mono
        · exact fun _ _ heeds => ⟨_, topic, read, means, heeds⟩
        · exact fun _ _ heeds => .inl ⟨_, topic, read, means, heeds⟩
      · rintro _ _ ⟨meaningless, peer, refused⟩
        exact .inr (.refused read meaningless peer refused)
    · have unread : raw.naming? = none := by
        simp [RawPacket.naming?, positive, other, failed, Except.toOption]
      exact .inr (.unread unread (decodePublishFieldsV5_refused failed))

/-- The answer to a PUBLISH that was not taken tells the owner of the peer's failure. -/
def Answered (heard : List Naming) (raw : RawPacket) (before : Engine) (answer : Option Failure)
    (after : Engine) : Prop :=
  ∃ failure between, answer = some failure ∧ Declined heard raw before failure between ∧
    after = { between with effects := between.effects ++ [.protocolError failure] }

theorem Taken.emit (taken : Taken heard raw engine after) (failure : Failure) :
    Taken heard raw engine { after with effects := after.effects ++ [.protocolError failure] } := by
  obtain ⟨naming, topic, read, means, heeds⟩ := taken
  exact ⟨naming, topic, read, means, IsTrans.trans _ _ _ heeds (.emitting fun _ hands => nomatch hands)⟩

theorem sat_handleRaw_publish (attuned : Attuned heard engine) (v5 : engine.isV5 = true)
    (publish : raw.packetType = .publish) (connected : engine.state = .connected) :
    Sat (handleRaw raw) engine
      (fun answer after => Taken heard raw engine after ∨ Answered heard raw engine answer after)
      (fun _ after => Taken heard raw engine after) := by
  have dispatched : Sat (dispatch raw) engine (fun _ after => Taken heard raw engine after)
      (fun failure after => Taken heard raw engine after ∨
        Declined heard raw engine failure after) := by
    rw [dispatch, sat_bind, sat_fromExcept]
    refine ⟨fun _ _ => ?_, fun failure failed => ?_⟩
    · simp only [sat_bind, sat_get, connected, publish, handlerFor, handlePublish, v5, ↓reduceIte]
      exact sat_onPublishV5 attuned v5
    · rw [validateRawPacket, if_pos publish] at failed
      split at failed
      · next three =>
        cases failed
        refine .inr (.unread ?_ rfl)
        rw [RawPacket.naming?, if_neg (by omega), if_pos three]
      · cases failed
  rw [handleRaw, sat_bind, sat_get, sat_ite]
  refine ⟨fun past => ?_, fun _ => ?_⟩
  · rw [connected] at past
    exact absurd past (by simp)
  · rw [sat_bind, sat_catching]
    apply dispatched.mono
    · exact fun _ _ taken => .inl taken
    · rintro failure between ending
      refine ⟨fun _ => ?_, fun home => ?_⟩
      · rcases ending with taken | declined
        · exact .inl (taken.emit failure)
        · exact .inr ⟨failure, between, rfl, declined, rfl⟩
      · rcases ending with taken | declined
        · exact taken
        · rw [declined.peer] at home
          cases home

end

/-! What a call stores and delivers -/

/-- The messages of the effects that a call added. -/
def deliveries (before after : Engine) : List Message :=
  (after.effects.drop before.effects.length).filterMap Effect.delivery?

/-- Where the rows and the deliveries of a call come from. -/
structure Surfaces (fresh : Text → Prop) (again : Nat → Prop) (replaying : Prop)
    (before after : Engine) : Prop where
  stored : before.store.Gains fresh after.store
  delivered : ∀ message ∈ deliveries before after,
    replaying ∨ (∃ mid, again mid ∧ before.store.Repeats mid message) ∨
      fresh message.topic ∧ Aliasless message.properties

section

variable {fresh : Text → Prop} {again : Nat → Prop} {replaying : Prop} {heard : List Naming}
  {before after engine : Engine} {naming : Naming} {raw : RawPacket}

theorem deliveries_grown {added : List Effect} (grown : after.effects = before.effects ++ added) :
    deliveries before after = added.filterMap Effect.delivery? := by
  rw [deliveries, grown, List.drop_left]

theorem Heeds.surfaces (heeds : Heeds fresh again replaying before after) :
    Surfaces fresh again replaying before after := by
  obtain ⟨added, grown, allowed⟩ := heeds.effects
  refine ⟨heeds.rows, fun message member => ?_⟩
  rw [deliveries_grown grown] at member
  obtain ⟨effect, among, hands⟩ := List.mem_filterMap.mp member
  exact allowed effect among message hands

theorem Surfaces.mono {other : Text → Prop} {repeated : Nat → Prop} {replays : Prop}
    (surfaces : Surfaces fresh again replaying before after)
    (fine : ∀ topic, fresh topic → other topic) (same : ∀ mid, again mid → repeated mid)
    (still : replaying → replays) : Surfaces other repeated replays before after := by
  refine ⟨fun mid row found => ?_, fun message member => ?_⟩
  · exact (surfaces.stored mid row found).imp id fun ⟨new, bare⟩ => ⟨fine _ new, bare⟩
  · rcases surfaces.delivered message member with replayed | ⟨mid, repeats⟩ | ⟨new, bare⟩
    · exact .inl (still replayed)
    · exact .inr (.inl ⟨mid, same mid repeats.1, repeats.2⟩)
    · exact .inr (.inr ⟨fine _ new, bare⟩)

theorem Heeds.attuned (heeds : Heeds fresh again replaying before after)
    (attuned : Attuned heard before) : Attuned heard after := by
  intro number admits
  rw [heeds.maximum] at admits ⊢
  rw [Engine.known, heeds.aliases]
  exact attuned number admits

theorem Protocol.Engine.hearing_same (engine : Engine) (naming : Naming) :
    (engine.hearing naming).store = engine.store ∧
      (engine.hearing naming).effects = engine.effects ∧
      (engine.hearing naming).config = engine.config := by
  unfold Engine.hearing
  split
  · exact ⟨rfl, rfl, rfl⟩
  · split
    · exact ⟨rfl, rfl, rfl⟩
    · exact ⟨rfl, rfl, rfl⟩

/-- A PUBLISH that means no topic puts none under an alias. -/
theorem Protocol.Engine.hearing_meaningless
    (meaningless : Naming.meaning engine.inbound.topicAliasMaximum heard naming = none) :
    engine.hearing naming = engine := by
  refine Engine.hearing_silent fun number given puts => ?_
  simp [Naming.meaning, given, puts.1, puts.2] at meaningless

theorem Declined.attuned {failure : Failure} (declined : Declined heard raw before failure after)
    (attuned : Attuned heard before) : Attuned (heard ++ raw.naming?.toList) after := by
  have same : after.inbound = before.inbound := declined.parts.inbound
  have kept : Attuned (heard ++ raw.naming?.toList) before := by
    cases read : raw.naming? with
    | none => simpa using attuned
    | some naming =>
      have meaningless := declined.meaningless
      rw [read, Option.bind_some] at meaningless
      have hears := attuned.hearing naming
      rwa [Engine.hearing_meaningless meaningless] at hears
  intro number admits
  rw [same] at admits ⊢
  rw [Engine.known, same]
  exact kept number admits

theorem Taken.attuned (taken : Taken heard raw before after) (attuned : Attuned heard before) :
    Attuned (heard ++ raw.naming?.toList) after := by
  obtain ⟨naming, topic, read, means, heeds⟩ := taken
  rw [read]
  exact heeds.attuned (attuned.hearing naming)

end

/-! Runs -/

/-- The engine, with the PUBLISHes that were read on the current connection. -/
structure Listening where
  session : Protocol.Session
  heard : List Naming := []

namespace Listening

/-- A connection starts and ends with nothing heard. -/
def hears (listening : Listening) : Command → List Naming
  | .beginConnect =>
    match Protocol.beginConnect listening.session.engine with
    | .ok _ _ => []
    | .error _ _ => listening.heard
  | .notifyTransportClosed => []
  | .handleRaw raw =>
    if raw.packetType = .publish ∧ listening.session.engine.state = .connected then
      listening.heard ++ raw.naming?.toList
    else listening.heard
  | _ => listening.heard

def step (listening : Listening) (command : Command) : Listening where
  session := listening.session.step command
  heard := listening.hears command

def run (listening : Listening) (commands : List Command) : Listening := commands.foldl step listening

/-- The call handles a PUBLISH that means the topic. -/
def Resolves (listening : Listening) (maximum : Nat) (command : Command) (topic : Text) : Prop :=
  ∃ raw naming, command = .handleRaw raw ∧ raw.packetType = .publish ∧
    listening.session.engine.state = .connected ∧ raw.naming? = some naming ∧
    Naming.meaning maximum listening.heard naming = some topic ∧ topic ≠ [] ∧
    hasWildcard topic = false

end Listening

/-- The identifier of the PUBLISH that the call handles. -/
def Protocol.Command.identifier? : Command → Option Nat
  | .handleRaw raw => if raw.packetType = .publish then raw.identifier? else none
  | _ => none

/-- The call may deliver stored messages once more. -/
def Protocol.Command.Redelivers (engine : Engine) : Command → Prop
  | .continueInboundReplay => True
  | .handleRaw raw => raw.packetType = .connack ∧ engine.state = .connecting
  | _ => False

/-- The engine knows the aliases of the connection, and every topic heard can be matched. -/
structure Attentive (config : EngineConfig) (listening : Listening) : Prop where
  configured : listening.session.engine.config = config
  maximum : listening.session.engine.inbound.topicAliasMaximum = config.topicAliasMaximum
  attuned : Attuned listening.heard listening.session.engine
  plain : ∀ naming ∈ listening.heard, hasWildcard naming.topic = false

/-- What a call keeps, and where what it stores and delivers comes from. -/
structure Tunes (listening : Listening) (command : Command) (heard : List Naming)
    (after : Engine) : Prop where
  configured : after.config = listening.session.engine.config
  maximum : after.inbound.topicAliasMaximum = listening.session.engine.config.topicAliasMaximum
  attuned : Attuned heard after
  surfaces : Surfaces (listening.Resolves listening.session.engine.config.topicAliasMaximum command)
    (fun mid => command.identifier? = some mid) (command.Redelivers listening.session.engine)
    listening.session.engine after

section

variable {listening : Listening} {config : EngineConfig} {command : Command} {raw : RawPacket}

theorem Heeds.tunes {replaying : Prop} {after : Engine} (attentive : Attentive config listening)
    (still : replaying → command.Redelivers listening.session.engine)
    (heeds : Heeds (fun _ => False) (fun _ => False) replaying listening.session.engine after) :
    Tunes listening command listening.heard after where
  configured := heeds.config
  maximum := by rw [heeds.maximum, attentive.maximum, attentive.configured]
  attuned := heeds.attuned attentive.attuned
  surfaces := heeds.surfaces.mono (fun _ impossible => impossible.elim)
    (fun _ impossible => impossible.elim) still

theorem Attentive.isV5 (attentive : Attentive config listening) (v5 : config.protocol = .mqttv5) :
    listening.session.engine.isV5 = true := by
  simp only [Engine.isV5, Engine.codec, attentive.configured, v5]
  rfl

/-- Every topic that a PUBLISH of the connection means can be matched. -/
theorem Attentive.meaning_plain (attentive : Attentive config listening) {maximum : Nat}
    {naming : Naming} {topic : Text} (read : raw.naming? = some naming)
    (means : Naming.meaning maximum listening.heard naming = some topic) :
    topic ≠ [] ∧ hasWildcard topic = false := by
  obtain ⟨named, carrier, member, rfl⟩ := Naming.meaning_topic means
  refine ⟨named, ?_⟩
  rcases List.mem_append.mp member with earlier | own
  · exact attentive.plain carrier earlier
  · rw [List.mem_singleton.mp own]
    exact (naming_wellformed read).plain

theorem Taken.tunes {after : Engine} (attentive : Attentive config listening)
    (publish : raw.packetType = .publish) (connected : listening.session.engine.state = .connected)
    (taken : Taken listening.heard raw listening.session.engine after) :
    Tunes listening (.handleRaw raw) (listening.heard ++ raw.naming?.toList) after := by
  have attuned := taken.attuned attentive.attuned
  obtain ⟨naming, topic, read, means, heeds⟩ := taken
  obtain ⟨store, effects, config⟩ := listening.session.engine.hearing_same naming
  have known : listening.session.engine.inbound.topicAliasMaximum =
      listening.session.engine.config.topicAliasMaximum := by
    rw [attentive.maximum, attentive.configured]
  have surfaces : Surfaces (fun other => other = topic) (fun mid => raw.identifier? = some mid)
      False listening.session.engine after := by
    have hearing := heeds.surfaces
    refine ⟨store ▸ hearing.stored, fun message member => ?_⟩
    rw [← store]
    refine hearing.delivered message ?_
    rwa [deliveries, effects]
  refine ⟨heeds.config.trans config, ?_, attuned, surfaces.mono ?_ ?_ (·.elim)⟩
  · rw [heeds.maximum, Engine.hearing_maximum, known]
  · rintro _ rfl
    rw [known] at means
    have plain := attentive.meaning_plain read means
    exact ⟨raw, naming, rfl, publish, connected, read, means, plain⟩
  · intro mid identified
    simp [Command.identifier?, publish, identified]

theorem Answered.heeds {answer : Option Failure} {after before : Engine} {heard : List Naming}
    {fresh : Text → Prop} {again : Nat → Prop} {replaying : Prop}
    (answered : Answered heard raw before answer after) :
    Heeds fresh again replaying before after := by
  obtain ⟨failure, between, -, declined, rfl⟩ := answered
  exact IsTrans.trans _ _ _ declined.parts.heeds (.emitting fun _ hands => nomatch hands)

/-- A PUBLISH that means no topic. -/
theorem handleRaw_meaningless {engine : Engine} {heard : List Naming}
    (attuned : Attuned heard engine) (v5 : engine.isV5 = true)
    (publish : raw.packetType = .publish) (connected : engine.state = .connected)
    (meaningless : raw.naming?.bind (Naming.meaning engine.inbound.topicAliasMaximum heard) = none) :
    ∃ failure after, handleRaw raw engine = .ok (some failure) after ∧ isPeerError failure = true ∧
      after.store.inbound = engine.store.inbound ∧ deliveries engine after = [] ∧
      after.effects.getLast? = some (.protocolError failure) ∧
      (raw.naming?.isSome = true → after.state = .disconnected) := by
  have handled := sat_handleRaw_publish attuned v5 publish connected
  have untaken {after : Engine} (taken : Taken heard raw engine after) : False := by
    obtain ⟨naming, topic, read, means, -⟩ := taken
    simp [read, means] at meaningless
  cases ended : handleRaw raw engine with
  | error failure after => exact (untaken (handled.error ended)).elim
  | ok answer after =>
    rcases handled.ok ended with taken | answered
    · exact (untaken taken).elim
    · have heeds : Heeds (fun _ => False) (fun _ => False) False engine after := answered.heeds
      obtain ⟨failure, between, rfl, declined, rfl⟩ := answered
      refine ⟨failure, _, rfl, declined.peer, declined.parts.rows, ?_, by simp, declined.past⟩
      refine List.eq_nil_iff_forall_not_mem.mpr fun message member => ?_
      simpa using heeds.surfaces.delivered message member

theorem Answered.tunes {answer : Option Failure} {after : Engine}
    (attentive : Attentive config listening)
    (answered : Answered listening.heard raw listening.session.engine answer after) :
    Tunes listening (.handleRaw raw) (listening.heard ++ raw.naming?.toList) after := by
  have heeds : Heeds (fun _ => False) (fun _ => False) False listening.session.engine after :=
    answered.heeds
  have silent : Tunes listening (.handleRaw raw) listening.heard after :=
    heeds.tunes attentive (·.elim)
  obtain ⟨failure, between, -, declined, rfl⟩ := answered
  exact { silent with attuned := declined.attuned attentive.attuned }

/-- Packets other than PUBLISH. -/
theorem heeds_handleRaw (other : ¬ (raw.packetType = .publish ∧
      listening.session.engine.state = .connected)) :
    Sat (handleRaw raw) listening.session.engine
      (fun _ => Heeds (fun _ => False) (fun _ => False)
        ((Command.handleRaw raw).Redelivers listening.session.engine) listening.session.engine)
      (fun _ => Heeds (fun _ => False) (fun _ => False)
        ((Command.handleRaw raw).Redelivers listening.session.engine)
        listening.session.engine) := by
  apply handleRaw_sat (Std.Refl.refl listening.session.engine)
  · exact fun failure after heeds =>
      IsTrans.trans _ _ _ heeds (.emitting fun _ hands => nomatch hands)
  · apply dispatch_sat
    · exact fun _ => ⟨Std.Refl.refl _, fun _ => Std.Refl.refl _⟩
    · intro handler found
      have moves : Within (Heeds (fun _ => False) (fun _ => False)
          ((Command.handleRaw raw).Redelivers listening.session.engine)) (handler raw) := by
        by_cases opens : raw.packetType = .connack
        · obtain ⟨opening, handled⟩ := handler_connack found opens
          have redelivers : (Command.handleRaw raw).Redelivers listening.session.engine =
              True := eq_true ⟨opens, opening⟩
          have accepts : Within (Heeds (fun _ => False) (fun _ => False) True) (onConnack raw) :=
            accepts_onConnack raw
          rw [redelivers, handled]
          exact accepts
        · by_cases publish : raw.packetType = .publish
          · exact absurd ⟨publish, (handler_publish found publish).1⟩ other
          · by_cases releases : raw.packetType = .pubrel
            · rw [(handler_pubrel found releases).2]
              exact heeds_onPubrel raw
            · exact outward_handler (Heeds (fun _ => False) (fun _ => False)
                ((Command.handleRaw raw).Redelivers listening.session.engine)) found opens publish
                releases raw
      exact (moves _).mono (fun _ _ heeds => heeds) fun _ _ heeds => ⟨heeds, fun _ => heeds⟩

/-- The engine knows no alias, and no message was delivered. -/
theorem Tunes.unheard {after : Engine}
    (configured : after.config = listening.session.engine.config)
    (maximum : after.inbound.topicAliasMaximum = listening.session.engine.config.topicAliasMaximum)
    (aliases : after.inbound.aliases = .empty)
    (rows : after.store.inbound = listening.session.engine.store.inbound)
    (silent : deliveries listening.session.engine after = []) :
    Tunes listening command [] after where
  configured := configured
  maximum := maximum
  attuned number _ := by
    rw [Engine.known, aliases]
    rfl
  surfaces := ⟨.same rows, by simp [silent]⟩

theorem tunes_beginConnect (attentive : Attentive config listening) :
    Sat beginConnect listening.session.engine (fun _ => Tunes listening .beginConnect [])
      (fun _ => Tunes listening .beginConnect listening.heard) := by
  have same : Tunes listening .beginConnect listening.heard listening.session.engine :=
    Heeds.tunes attentive False.elim (Std.Refl.refl _)
  simp only [beginConnect, startConnection, sat_bind, sat_get, sat_raiseIf, sat_fromExcept, sat_modify,
    sat_modifyInbound, sat_pure]
  refine ⟨fun _ => same, fun _ => ⟨fun _ _ => ?_, fun _ _ => same⟩⟩
  exact .unheard rfl rfl rfl rfl (by simp [deliveries])

theorem tunes_notifyTransportClosed (attentive : Attentive config listening) :
    Sat notifyTransportClosed listening.session.engine
      (fun _ => Tunes listening .notifyTransportClosed [])
      (fun _ => Tunes listening .notifyTransportClosed []) := by
  have maximum : listening.session.engine.inbound.topicAliasMaximum =
      listening.session.engine.config.topicAliasMaximum := by
    rw [attentive.maximum, attentive.configured]
  simp only [notifyTransportClosed, enterDisconnected, transportClosed, releasePendingAcks, sat_bind,
    sat_get, sat_modify, sat_modifyOutbound, sat_modifyInbound]
  apply sat_releasePendingSubscriptionRequests
  intro pool subs
  rw [sat_onlyIf]
  refine ⟨fun _ => .unheard rfl maximum rfl rfl ?_, fun _ => .unheard rfl maximum rfl rfl ?_⟩
  · simp [deliveries, Effect.delivery?]
  · simp [deliveries]

theorem tunes_takeEffects (attentive : Attentive config listening) :
    Sat takeEffects listening.session.engine
      (fun _ => Tunes listening .takeEffects listening.heard)
      (fun _ => Tunes listening .takeEffects listening.heard) := by
  have maximum : listening.session.engine.inbound.topicAliasMaximum =
      listening.session.engine.config.topicAliasMaximum := by
    rw [attentive.maximum, attentive.configured]
  have taken {after : Engine} (configured : after.config = listening.session.engine.config)
      (aliases : after.inbound.aliases = listening.session.engine.inbound.aliases)
      (same : after.inbound.topicAliasMaximum = listening.session.engine.inbound.topicAliasMaximum)
      (rows : after.store = listening.session.engine.store) (effects : after.effects = []) :
      Tunes listening .takeEffects listening.heard after := by
    refine ⟨configured, same.trans maximum, fun number admits => ?_, .same (by rw [rows]), ?_⟩
    · rw [same] at admits ⊢
      rw [Engine.known, aliases]
      exact attentive.attuned number admits
    · simp [deliveries, effects]
  simp only [takeEffects, releasePendingAcks, sat_bind, sat_get, sat_modify, sat_onlyIf, sat_pure,
    sat_modifyInbound]
  exact ⟨fun _ => taken rfl rfl rfl rfl rfl, fun _ => taken rfl rfl rfl rfl rfl⟩

theorem tunes_handleRaw (attentive : Attentive config listening) (v5 : config.protocol = .mqttv5)
    (raw : RawPacket) :
    Sat (handleRaw raw) listening.session.engine
      (fun _ => Tunes listening (.handleRaw raw) (listening.hears (.handleRaw raw)))
      (fun _ => Tunes listening (.handleRaw raw) (listening.hears (.handleRaw raw))) := by
  by_cases arrives : raw.packetType = .publish ∧ listening.session.engine.state = .connected
  · have hears : listening.hears (.handleRaw raw) = listening.heard ++ raw.naming?.toList :=
      if_pos arrives
    rw [hears]
    apply (sat_handleRaw_publish attentive.attuned (attentive.isV5 v5) arrives.1 arrives.2).mono
    · rintro answer after (taken | answered)
      · exact taken.tunes attentive arrives.1 arrives.2
      · exact answered.tunes attentive
    · exact fun _ _ taken => taken.tunes attentive arrives.1 arrives.2
  · have hears : listening.hears (.handleRaw raw) = listening.heard := if_neg arrives
    rw [hears]
    apply (heeds_handleRaw arrives).mono
    · exact fun _ _ heeds => heeds.tunes attentive id
    · exact fun _ _ heeds => heeds.tunes attentive id

/-- Every call but the start of a connection. -/
theorem tunes_run (attentive : Attentive config listening) (v5 : config.protocol = .mqttv5)
    (other : command ≠ .beginConnect) :
    Sat command.run listening.session.engine
      (fun _ => Tunes listening command (listening.hears command))
      (fun _ => Tunes listening command (listening.hears command)) := by
  have quiet {command : Command}
      (heeds : Within (Heeds (fun _ => False) (fun _ => False) False) command.run) :
      Sat command.run listening.session.engine (fun _ => Tunes listening command listening.heard)
        (fun _ => Tunes listening command listening.heard) :=
    (heeds _).mono (fun _ _ heeds => heeds.tunes attentive (·.elim))
      fun _ _ heeds => heeds.tunes attentive (·.elim)
  cases command with
  | beginConnect => exact absurd rfl other
  | notifyTransportClosed =>
    simp only [Command.run, sat_map]
    exact tunes_notifyTransportClosed attentive
  | takeEffects =>
    simp only [Command.run, sat_map]
    exact tunes_takeEffects attentive
  | handleRaw raw =>
    simp only [Command.run, sat_map]
    exact tunes_handleRaw attentive v5 raw
  | continueInboundReplay =>
    have replays : Within (Heeds (fun _ => False) (fun _ => False) True) continueInboundReplay :=
      heeds_drainReplay
    simp only [Command.run, sat_map]
    apply (replays _).mono
    · exact fun _ _ heeds => heeds.tunes attentive id
    · exact fun _ _ heeds => heeds.tunes attentive id
  | markInboundDelivered mid token => exact quiet (within_map (heeds_markDelivered mid token))
  | ack mid message =>
    exact quiet (within_map (within_bind within_get fun _ => within_bind within_raiseIf fun _ =>
      heeds_ack mid message))
  | _ => exact quiet (outward_run trivial)

theorem tunes_step (attentive : Attentive config listening) (v5 : config.protocol = .mqttv5)
    (command : Command) :
    Tunes listening command (listening.hears command) (listening.step command).session.engine := by
  by_cases connects : command = .beginConnect
  · subst connects
    have begins := tunes_beginConnect attentive
    change Tunes listening .beginConnect (listening.hears .beginConnect)
      (listening.session.step .beginConnect).engine
    cases ended : Protocol.beginConnect listening.session.engine with
    | ok wire after =>
      have ran : Command.beginConnect.run listening.session.engine =
          .ok (some (.contiguous wire)) after := by
        simp [Command.run, Functor.map, EStateM.map, ended]
      rw [Protocol.Session.step_engine ran]
      simpa only [Listening.hears, ended] using begins.ok ended
    | error failure after =>
      have ran : Command.beginConnect.run listening.session.engine = .error failure after := by
        simp [Command.run, Functor.map, EStateM.map, ended]
      rw [Protocol.Session.step_error ran]
      simpa only [Listening.hears, ended] using begins.error ended
  · exact Protocol.Session.step_sat (tunes_run attentive v5 connects)

theorem hears_plain (plain : ∀ naming ∈ listening.heard, hasWildcard naming.topic = false)
    (command : Command) : ∀ naming ∈ listening.hears command, hasWildcard naming.topic = false := by
  intro naming member
  cases command with
  | beginConnect =>
    simp only [Listening.hears] at member
    cases ended : Protocol.beginConnect listening.session.engine with
    | ok wire after => simp [ended] at member
    | error failure after =>
      simp only [ended] at member
      exact plain naming member
  | notifyTransportClosed => simp [Listening.hears] at member
  | handleRaw raw =>
    simp only [Listening.hears] at member
    split at member
    · rcases List.mem_append.mp member with earlier | read
      · exact plain naming earlier
      · exact (naming_wellformed (Option.mem_toList.mp read)).plain
    · exact plain naming member
  | _ => exact plain naming member

theorem Attentive.step (attentive : Attentive config listening) (v5 : config.protocol = .mqttv5)
    (command : Command) : Attentive config (listening.step command) := by
  have tunes := tunes_step attentive v5 command
  refine ⟨tunes.configured.trans attentive.configured, ?_, tunes.attuned,
    hears_plain attentive.plain command⟩
  rw [tunes.maximum, attentive.configured]

theorem Attentive.run (attentive : Attentive config listening) (v5 : config.protocol = .mqttv5)
    (commands : List Command) : Attentive config (listening.run commands) := by
  induction commands generalizing listening with
  | nil => exact attentive
  | cons command rest ih => exact ih (attentive.step v5 command)

theorem create_attentive {store : Store} {engine : Engine}
    (created : Engine.create config store = .ok engine) : Attentive config ⟨⟨engine, []⟩, []⟩ := by
  obtain ⟨recovered, _, hydrated⟩ := create_ok created
  have hydrates : Within (Heeds (fun _ => False) (fun _ => False) False) Outbound.hydrate :=
    outward_hydrate
  have heeds := (hydrates _).ok hydrated
  refine ⟨heeds.config, heeds.maximum, heeds.attuned fun number _ => ?_, by simp⟩
  rfl

end

/-- Whatever calls came before: a row is stored, and a message delivered, for a PUBLISH with the
topic that the aliases of its connection give it, which is not empty and free of wildcards, and
without an alias. Beside that, a duplicate repeats the row under its identifier, and a replay
delivers what was stored. A PUBLISH that means no topic, as with an alias that is unknown, zero
or out of range, or with neither topic nor alias, stores and delivers nothing and is answered
with the peer's failure; where it could be read, the connection is over. -/
theorem topics_resolved {config : EngineConfig} {store : Store} {engine : Engine}
    (created : Engine.create config store = .ok engine) (v5 : config.protocol = .mqttv5)
    (commands : List Command) (command : Command) :
    let listening := Listening.run ⟨⟨engine, []⟩, []⟩ commands
    let before := listening.session.engine
    let after := (listening.step command).session.engine
    before.store.Gains (listening.Resolves config.topicAliasMaximum command) after.store ∧
    (∀ message ∈ deliveries before after,
      command.Redelivers before ∨
      (∃ mid, command.identifier? = some mid ∧ before.store.Repeats mid message) ∨
      listening.Resolves config.topicAliasMaximum command message.topic ∧
        Aliasless message.properties) ∧
    ∀ raw, command = .handleRaw raw → raw.packetType = .publish → before.state = .connected →
      raw.naming?.bind (Naming.meaning config.topicAliasMaximum listening.heard) = none →
      after.store.inbound = before.store.inbound ∧ deliveries before after = [] ∧
      (∃ failure, handleRaw raw before = .ok (some failure) after ∧ isPeerError failure = true ∧
        after.effects.getLast? = some (.protocolError failure)) ∧
      (raw.naming?.isSome = true → after.state = .disconnected) := by
  intro listening before after
  have attentive : Attentive config listening := (create_attentive created).run v5 commands
  have tunes : Tunes listening command (listening.hears command) after :=
    tunes_step attentive v5 command
  have surfaces := tunes.surfaces
  rw [attentive.configured] at surfaces
  refine ⟨surfaces.stored, surfaces.delivered, ?_⟩
  rintro raw rfl publish connected meaningless
  rw [← attentive.maximum] at meaningless
  obtain ⟨failure, last, ended, peer, rows, silent, told, past⟩ :=
    handleRaw_meaningless attentive.attuned (attentive.isV5 v5) publish connected meaningless
  have ran : (Command.handleRaw raw).run before = .ok none last := by
    simp [Command.run, Functor.map, EStateM.map, before, ended]
  have same : after = last := Protocol.Session.step_engine ran
  rw [same]
  exact ⟨rows, silent, ⟨failure, ended, peer, told⟩, past⟩

/-- MQTT 5 with two aliases. -/
def aliasConfig : EngineConfig where
  clientId := [99]
  protocol := .mqttv5
  topicAliasMaximum := 2
  accepted := rfl

def aliasEngine : Engine := Engine.started aliasConfig { kind := .memory } (∅, 0, [])

/-- A PUBLISH to `a` puts the topic under alias 1. -/
def aliasCommands : List Command :=
  [.beginConnect, .handleRaw ⟨.connack, 0, [0, 0, 0]⟩, .takeEffects,
   .handleRaw ⟨.publish, 0, [0, 1, 97, 3, 35, 0, 1]⟩]

set_option maxRecDepth 4000 in
/-- The next PUBLISH has the alias alone, and the one after that an alias nothing was put under. -/
theorem topics_resolved_aliased :
    let listening := Listening.run ⟨⟨aliasEngine, []⟩, []⟩ aliasCommands
    let aliased := Command.handleRaw ⟨.publish, 0, [0, 0, 3, 35, 0, 1]⟩
    let unknown : RawPacket := ⟨.publish, 0, [0, 0, 3, 35, 0, 2]⟩
    (deliveries listening.session.engine (listening.step aliased).session.engine).map
        Message.topic = [[97]] ∧
    listening.Resolves 2 aliased [97] ∧
    (listening.step (.handleRaw unknown)).session.engine.state = .disconnected := by
  intro listening aliased unknown
  have created : Engine.create aliasConfig { kind := .memory } = .ok aliasEngine := rfl
  have delivered : (deliveries listening.session.engine
      (listening.step aliased).session.engine).map Message.topic = [[97]] := by decide
  obtain ⟨_, resolves, _⟩ := topics_resolved created rfl aliasCommands aliased
  obtain ⟨_, _, refuses⟩ := topics_resolved created rfl aliasCommands (.handleRaw unknown)
  refine ⟨delivered, ?_, (refuses unknown rfl rfl (by decide) (by decide)).2.2.2 (by decide)⟩
  obtain ⟨message, member, topic⟩ : ∃ message ∈ deliveries listening.session.engine
      (listening.step aliased).session.engine, message.topic = [97] := by
    rw [← List.mem_map, delivered]
    exact List.mem_singleton_self _
  rcases resolves message member with replayed | ⟨mid, identified, _⟩ | ⟨means, _⟩
  · cases replayed.1
  · cases identified
  · exact topic ▸ means

end Mqttium
