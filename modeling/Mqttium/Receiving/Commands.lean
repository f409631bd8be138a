import Mqttium.Connection.Silence
import Mqttium.Receiving.Turns

/-! What each call of the owner does to the inbound direction. -/

namespace Mqttium

open Codec Library Packets Persistence Protocol Inbound

/-! Cached frames and the connection's state -/

/-- The connection stays as it is or is over. -/
def Stays (before after : Engine) : Prop := after.state = before.state ∨ after.ceased

instance : IsPreorder Engine Stays where
  refl _ := .inl rfl
  trans before between after first second := by
    rcases second with same | ceased
    · rcases first with early | ended
      · exact .inl (same.trans early)
      · refine .inr ?_
        unfold Engine.ceased
        rw [same]
        exact ended
    · exact .inr ceased

/-- The frames kept for later stay good, and the connection as it is or over. -/
abbrev Minds (good : WriteItem → Prop) : Engine → Engine → Prop :=
  Guarded (Honest good) Stays

section

variable {good : WriteItem → Prop} {before after : Engine}

theorem minds_same (rows : after.store.out = before.store.out)
    (queued : after.outbound.queued = before.outbound.queued) (stays : Stays before after) :
    Minds good before after :=
  fun honest => ⟨honest.same rows queued, stays⟩

theorem Still.minds {shows : Effect → Prop} (still : Still shows before after) :
    Minds good before after :=
  minds_same still.quiet.rows (by rw [still.outbound]) still.state

end

section

variable (good : WriteItem → Prop)

instance : Bystander (Minds good) where
  unsent still := still.minds
  still still := still.minds
  store call run apart := by
    have yields : Yields (fun _ => True) (Minds good) (storeCall call run) :=
      yields_storeCall (fun _ _ => .inl rfl) fun store own => ⟨trivial, by
        unfold Store.Caches
        rw [apart.rows store]
        exact own⟩
    exact yields.within
  endSubs _ := sat_releasePendingSubscriptionRequests fun _ _ => minds_same rfl rfl (.inl rfl)

instance : Outward (Minds good) where
  good := good
  facts := yields_guarded_get
  session kept _ := fun honest => ⟨⟨honest.rows, kept _ honest.queue⟩, .inl rfl⟩
  store _ caches := yields_storeCall (fun _ _ => .inl rfl) caches
  assign _ caches _ := fun honest => ⟨⟨caches _ honest.rows, honest.queue⟩, .inl rfl⟩
  subs _ := within_modify fun _ => minds_same rfl rfl (.inl rfl)
  report _ _ := minds_same rfl rfl (.inl rfl)

instance [Sendable good] : Sending (Minds good) where
  sendable := inferInstanceAs (Sendable good)
  send _ _ := minds_same rfl rfl (.inl rfl)

instance : Parting (Minds good) (Minds good) where
  goodbye reasonCode engine := by
    simp only [protocolDisconnect, sat_bind, sat_get]
    apply (announces engine reasonCode).mono
    · rintro _ _ ⟨sent, rfl, _⟩
      simp only [enterDisconnected, sat_modify]
      apply sat_releasePendingSubscriptionRequests
      intro pool subs
      rw [sat_emit]
      exact minds_same rfl rfl (.inr (.inr rfl))
    · rintro _ _ rfl
      exact Std.Refl.refl _

end

/-! Steps that leave the waiting exchanges alone -/

instance : Parting (Sends NoPuback) (Sends NoPuback) where
  goodbye reasonCode engine := by
    simp only [protocolDisconnect, sat_bind, sat_get]
    apply (announces engine reasonCode).mono
    · rintro _ _ ⟨sent, rfl, spoken⟩
      simp only [enterDisconnected, sat_modify]
      apply sat_releasePendingSubscriptionRequests
      intro pool subs
      rw [sat_emit]
      refine sends_same rfl rfl ⟨sent ++ [.disconnected reasonCode none false], by simp, ?_⟩
      rcases spoken with rfl | ⟨item, rfl, closing⟩
      · simp [Effect.frame?]
      · simpa [Effect.frame?] using adds_code closing (by decide)
    · rintro _ _ rfl
      exact Std.Refl.refl _

/-- A step that changes nothing about the exchanges that wait for PUBACK. -/
structure Calm (before after : Engine) : Prop extends Rests before after where
  kept : after.kept
  honest : Honest NoPuback after
  adds : Adds NoPuback before after
  stays : Stays before after

/-- What a step needs of the engine. -/
structure Tended (engine : Engine) : Prop where
  kept : engine.kept
  manual : engine.config.manualAck = true
  reliable : engine.store.Reliable
  honest : Honest NoPuback engine

section

variable {engine : Engine} {Value : Type} {program : EngineM Value}

theorem Tended.calm_of (tended : Tended engine) (rests : Settles Rests program engine)
    (sends : Sat program engine (fun _ => Sends NoPuback engine) fun _ => Sends NoPuback engine)
    (minds : Within (Minds NoPuback) program) :
    Sat program engine (fun _ => Calm engine) (fun _ => Calm engine) := by
  apply ((rests.and sends).and (minds engine)).mono
  · intro _ after ⟨⟨⟨kept, rests⟩, sends⟩, minds⟩
    obtain ⟨honest, adds⟩ := sends tended.honest
    exact ⟨rests, kept, honest, adds, (minds tended.honest).2⟩
  · intro _ after ⟨⟨⟨kept, rests⟩, sends⟩, minds⟩
    obtain ⟨honest, adds⟩ := sends tended.honest
    exact ⟨rests, kept, honest, adds, (minds tended.honest).2⟩

theorem Tended.calm (tended : Tended engine) (rests : Settles Rests program engine)
    (sends : Within (Sends NoPuback) program) (minds : Within (Minds NoPuback) program) :
    Sat program engine (fun _ => Calm engine) (fun _ => Calm engine) :=
  tended.calm_of rests (sends engine) minds

/-- In manual acknowledgement no completion waits for a delivery mark. -/
theorem sends_markDelivered (tended : Tended engine) (mid : Nat) (token : Option Token) :
    Sat (markDelivered mid token) engine (fun _ => Sends NoPuback engine)
      (fun _ => Sends NoPuback engine) := by
  have none : engine.inbound.pendingCompletions.get? mid = .none := by
    rw [Dict.get?_eq_none_iff]
    intro member
    simpa [tended.manual] using (tended.kept.completions mid member).1
  have marks : Within (Sends NoPuback) (do
      modifyInbound fun inbound =>
        { inbound with pendingCompletions := inbound.pendingCompletions.erase mid }
      onlyIf (engine.inbound.storedInbound ≠ 0) (markRowDelivered mid) : EngineM PUnit) :=
    within_bind beside_modifyInbound fun _ => within_onlyIf (beside_markRowDelivered mid)
  have stays : Sends NoPuback engine engine := Std.Refl.refl engine
  simp only [markDelivered, sat_bind, sat_get, sat_ite]
  refine ⟨fun _ => stays, fun _ => ?_⟩
  simpa [none] using marks engine

end

/-! PUBLISH -/

/-- The identifier of a PUBLISH with QoS 1 or 2, as the engine reads it. -/
def publishMid (engine : Engine) (raw : RawPacket) : Option Nat :=
  if engine.isV5 then (decodePublishFieldsV5 raw).toOption.map (·.mid)
  else (decodeQos12FieldsV311 raw).toOption.map (·.mid)

section

variable {engine : Engine} {raw : RawPacket}

/-- The engine after an alias was set. -/
def Protocol.Engine.aliased (engine : Engine) (aliases : Dict Nat Text) : Engine :=
  { engine with inbound := { engine.inbound with aliases } }

theorem resolveTopicFields_sat (engine : Engine) (topic : Text) (properties : Option Properties) :
    Sat (resolveTopicFields topic properties) engine
      (fun _ after => ∃ aliases, after = engine.aliased aliases) (fun _ => Parts engine) := by
  have disconnects (reasonCode : Nat) (failure : Failure) :
      Sat (do protocolDisconnect reasonCode; throw failure : EngineM Text) engine
        (fun _ after => ∃ aliases, after = engine.aliased aliases) (fun _ => Parts engine) := by
    rw [sat_bind]
    apply (parts_protocolDisconnect engine reasonCode).mono
    · exact fun _ _ parts => parts
    · exact fun _ _ parts => parts
  have same : ∃ aliases, engine = engine.aliased aliases := ⟨engine.inbound.aliases, rfl⟩
  rw [resolveTopicFields, sat_bind, sat_get]
  cases properties.bind (·.int? .topicAlias) with
  | none =>
    rw [sat_ite]
    exact ⟨fun _ => disconnects _ _, fun _ => same⟩
  | some number =>
    simp only [sat_ite]
    refine ⟨fun _ => disconnects _ _, fun _ => ⟨fun _ => ⟨_, rfl⟩, fun _ => ?_⟩⟩
    cases engine.inbound.aliases.get? number.toNat with
    | some known => exact same
    | none => exact disconnects _ _

theorem resolveArrival_sat (engine : Engine) (topic : Text) (properties : Option Properties)
    (wireSize : Nat) :
    Sat (resolveArrival topic properties wireSize) engine
      (fun _ after => ∃ aliases, after = engine.aliased aliases) (fun _ => Parts engine) := by
  simp only [resolveArrival, sat_ite, sat_bind]
  refine ⟨fun _ => ?_, fun _ => ⟨engine.inbound.aliases, rfl⟩⟩
  exact (resolveTopicFields_sat engine topic properties).mono (fun _ _ done => done)
    fun _ _ parts => parts

theorem parts_refl (engine : Engine) : Parts engine engine :=
  ⟨Std.Refl.refl engine, [], by simp, by simp⟩

/-- A PUBLISH is refused, delivered with QoS 0, or dispatched under its identifier. -/
theorem handlePublish_sat {post : Engine → Prop} (refused : ∀ after, Parts engine after → post after)
    (delivered : raw.qosBits ≠ 1 → ∀ aliases effect, effect.frame? = none →
      post { engine.aliased aliases with effects := engine.effects ++ [effect] })
    (dispatched : ∀ aliases (arrival : Arrival), publishMid engine raw = some arrival.mid →
      Sat (dispatchQos raw.qosBits arrival) (engine.aliased aliases) (fun _ => post) fun _ => post) :
    Sat (handlePublish raw) engine (fun _ => post) (fun _ => post) := by
  have same : post engine := refused _ (parts_refl engine)
  rw [handlePublish, sat_bind, sat_get, sat_ite]
  refine ⟨fun v5 => ?_, fun v311 => ?_⟩
  · simp only [onPublishV5, sat_ite, sat_bind, sat_fromExcept]
    refine ⟨fun plain => ⟨fun decoded _ => ?_, fun _ _ => same⟩, fun _ =>
      ⟨fun _ => same, fun _ => ⟨fun fields decoded => ?_, fun _ _ => same⟩⟩⟩
    · obtain ⟨message, wireSize⟩ := decoded
      apply (resolveArrival_sat engine _ _ _).mono
      · rintro ⟨topic, properties, propertyWireSize⟩ _ ⟨aliases, rfl⟩
        have other : raw.qosBits ≠ 1 := by omega
        cases propertyWireSize with
        | none => exact delivered other aliases _ rfl
        | some size => exact delivered other aliases _ rfl
      · exact fun _ _ parts => refused _ parts
    · apply (resolveArrival_sat engine _ _ _).mono
      · rintro ⟨topic, properties, propertyWireSize⟩ _ ⟨aliases, rfl⟩
        refine dispatched aliases _ ?_
        simp [publishMid, v5, decoded, Except.toOption]
      · exact fun _ _ parts => refused _ parts
  · simp only [onPublishV311, sat_ite, sat_bind, sat_fromExcept]
    refine ⟨fun plain => ⟨fun message _ => ?_, fun _ _ => same⟩, fun _ =>
      ⟨fun _ => same, fun _ => ⟨fun fields decoded => ?_, fun _ _ => same⟩⟩⟩
    · exact delivered (by omega) engine.inbound.aliases _ rfl
    · have mid : publishMid engine raw = some fields.mid := by
        simp [publishMid, v311, decoded, Except.toOption]
      exact dispatched engine.inbound.aliases _ mid

end

/-! One call in manual acknowledgement -/

/-- The connection is open or being opened. -/
def Protocol.Engine.live (engine : Engine) : Prop :=
  engine.state = .connecting ∨ engine.state = .connected

theorem Protocol.Engine.ceased.not_live {engine : Engine} (ceased : engine.ceased) :
    ¬ engine.live := by
  rintro (opening | open_)
  · exact ceased.not_connecting opening
  · exact ceased.not_connected open_

/-- What a call does to the exchanges that wait for PUBACK. -/
inductive Shift (announced accepted : Option Nat) (before after : Engine) : Prop where
  | turns (done : List (Nat × Nat)) (open_ : before.state = .connected) (stays : Stays before after)
    (turns : Turns announced accepted done before after)
  | opens (opening : before.state = .connecting) (passive : accepted = none)
    (shrinks : Shrinks before after) (adds : Adds NoPuback before after)
  | ends (ended : ¬ after.live) (unannounced : announced = none) (same : after.store.waiting = before.store.waiting)
    (drifts : Drifts before after) (adds : Adds NoPuback before after)

/-- A call that keeps what a step needs. -/
structure Shifted (announced accepted : Option Nat) (before after : Engine) : Prop where
  kept : after.kept
  honest : Honest NoPuback after
  shift : Shift announced accepted before after

section

variable {before after engine : Engine} {announced accepted : Option Nat} {Value : Type}

theorem Shift.drifts (shift : Shift announced accepted before after) : Drifts before after := by
  cases shift with
  | turns done open_ stays turns => exact turns.toDrifts
  | opens opening passive shrinks adds => exact shrinks.toDrifts
  | ends ended unannounced same drifts adds => exact drifts

theorem Stays.not_live (stays : Stays before after) (dead : ¬ before.live) : ¬ after.live := by
  rcases stays with same | ceased
  · unfold Engine.live
    rw [same]
    exact dead
  · exact ceased.not_live

theorem Calm.shifted (calm : Calm before after) : Shifted none none before after := by
  refine ⟨calm.kept, calm.honest, ?_⟩
  by_cases open_ : before.state = .connected
  · exact .turns [] open_ calm.stays (calm.toRests.turns calm.adds nofun)
  · by_cases opening : before.state = .connecting
    · exact .opens opening rfl calm.toRests.shrinks calm.adds
    · have dead : ¬ before.live := fun live => live.elim opening open_
      exact .ends (calm.stays.not_live dead) rfl calm.waiting calm.toDrifts calm.adds

theorem TurnsAt.shifted (turns : TurnsAt announced accepted before after)
    (minds : Honest NoPuback after ∧ Stays before after) (open_ : before.state = .connected) :
    Shifted announced accepted before after := by
  obtain ⟨kept, done, turns⟩ := turns
  exact ⟨kept, minds.1, .turns done open_ minds.2 turns⟩

theorem TurnsAt.of_aliased {aliases : Dict Nat Text}
    (turns : TurnsAt announced accepted (engine.aliased aliases) after) :
    TurnsAt announced accepted engine after := by
  obtain ⟨kept, done, turns⟩ := turns
  exact ⟨kept, done, { turns with }⟩

/-- A PUBLISH on an open connection. -/
theorem handlePublish_shifted (tended : Tended engine) (open_ : engine.state = .connected)
    (raw : RawPacket) :
    Sat (handlePublish raw) engine
      (fun _ => Shifted (if raw.qosBits = 1 then publishMid engine raw else none) none engine)
      (fun _ => Shifted (if raw.qosBits = 1 then publishMid engine raw else none) none engine) := by
  have minds : Within (Minds NoPuback) (handlePublish raw) := beside_handlePublish raw
  have turns : Sat (handlePublish raw) engine
      (fun _ => TurnsAt (if raw.qosBits = 1 then publishMid engine raw else none) none engine)
      (fun _ => TurnsAt (if raw.qosBits = 1 then publishMid engine raw else none) none engine) := by
    apply handlePublish_sat
    · exact fun _ parts => ⟨parts.toApart.kept tended.kept, [], parts.turns⟩
    · intro other aliases effect silent
      rw [if_neg other]
      have rests : Rests engine { engine.aliased aliases with
          effects := engine.effects ++ [effect] } :=
        ⟨⟨rfl, .refl, id⟩, rfl, rfl, fun _ _ => id⟩
      exact ⟨{ tended.kept with }, [], rests.turns ⟨[effect], rfl, by simp [silent]⟩ nofun⟩
    · intro aliases arrival same
      have kept : (engine.aliased aliases).kept := { tended.kept with }
      have manual : (engine.aliased aliases).config.manualAck = true := tended.manual
      by_cases once : raw.qosBits = 1
      · rw [if_pos once, same, once]
        simp only [dispatchQos, onQos1, ↓reduceIte, sat_bind, sat_get]
        rw [if_pos manual]
        apply (onQos1Manual_sat kept manual arrival).mono
        · exact fun _ _ turns => turns.of_aliased
        · exact fun _ _ turns => turns.of_aliased
      · rw [if_neg once, dispatchQos, if_neg once]
        have rests : Within (Keeps Rests) (onQos2 arrival) := keeps_onQos2 arrival
        have speaks : Within (Adds NoPuback) (onQos2 arrival) := beside_onQos2 arrival
        apply ((rests.settles kept).and (speaks _)).mono
        · exact fun _ _ ⟨⟨left, rests⟩, adds⟩ =>
            TurnsAt.of_aliased ⟨left, [], rests.turns adds nofun⟩
        · exact fun _ _ ⟨⟨left, rests⟩, adds⟩ =>
            TurnsAt.of_aliased ⟨left, [], rests.turns adds nofun⟩
  apply (turns.and (minds engine)).mono
  · exact fun _ _ ⟨turns, minds⟩ => turns.shifted (minds tended.honest) open_
  · exact fun _ _ ⟨turns, minds⟩ => turns.shifted (minds tended.honest) open_

end

/-! The connection's own steps -/

section

variable {moves : Engine → Engine → Prop} [Calming moves]

/-- A change of the connection's own fields. -/
theorem keeps_apart {change : Engine → Engine}
    (config : ∀ engine, (change engine).config = engine.config)
    (inbound : ∀ engine, (change engine).inbound = engine.inbound)
    (store : ∀ engine, (change engine).store = engine.store) :
    Within (Keeps moves) (modify change : EngineM PUnit) :=
  within_modify fun engine => Apart.keeps ⟨config engine, inbound engine, by rw [store],
    by rw [store], fun atomic => store engine ▸ atomic.leaves⟩

end

section

variable {moves : Engine → Engine → Prop} [Yielding moves]

instance : Accepting (Keeps moves) where
  own config inbound store _ _ := keeps_apart config inbound store
  announce _ := keeps_emit _
  discards := keeps_discardSession
  replays := keeps_replaySession

theorem keeps_beginConnect : Within (Keeps moves) beginConnect :=
  within_bind within_get fun _ => within_bind within_raiseIf fun _ =>
    within_bind within_fromExcept fun _ =>
    within_bind (keeps_apart (fun _ => rfl) (fun _ => rfl) fun _ => rfl) fun _ =>
    within_bind (keeps_startConnection _ _) fun _ =>
    within_bind (keeps_apart (fun _ => rfl) (fun _ => rfl) fun _ => rfl) fun _ => within_pure _

theorem keeps_notifyTransportClosed : Within (Keeps moves) notifyTransportClosed :=
  within_bind within_get fun _ => within_bind beside_enterDisconnected fun _ =>
    within_bind (outward_session fun _ _ member => member) fun _ =>
    within_bind keeps_transportClosed fun _ => within_bind Standby.endSubs fun _ =>
    within_onlyIf (keeps_emit _)

end

/-! A packet in manual acknowledgement -/

/-- The identifier of a QoS 1 PUBLISH that an open connection brings. -/
def announcedMid (engine : Engine) (raw : RawPacket) : Option Nat :=
  if engine.state = .connected ∧ raw.packetType = .publish ∧ raw.qosBits = 1 ∧
      (validateRawPacket raw).isOk then
    publishMid engine raw
  else none

section

variable {before after engine : Engine} {announced accepted : Option Nat} {raw : RawPacket}

theorem Tended.same (tended : Tended engine) : Calm engine engine :=
  ⟨Std.Refl.refl engine, tended.kept, tended.honest, Std.Refl.refl engine, .inl rfl⟩

/-- An effect that tells the owner of a failure may follow. -/
theorem Shifted.emit (shifted : Shifted announced accepted before after) (failure : Failure) :
    Shifted announced accepted before
      { after with effects := after.effects ++ [.protocolError failure] } := by
  have rests : Rests after { after with effects := after.effects ++ [.protocolError failure] } :=
    ⟨⟨rfl, .refl, id⟩, rfl, rfl, fun _ _ => id⟩
  have adds : Adds NoPuback after
      { after with effects := after.effects ++ [.protocolError failure] } :=
    ⟨[.protocolError failure], rfl, by simp [Effect.frame?]⟩
  refine ⟨{ shifted.kept with }, ⟨shifted.honest.rows, shifted.honest.queue⟩, ?_⟩
  cases shifted.shift with
  | turns done open_ stays turns =>
    obtain ⟨fresh, grown, pubacks, silent⟩ := turns.effects
    refine .turns done open_ stays { turns with effects := ⟨fresh ++ [.protocolError failure], ?_, ?_, ?_⟩ }
    · simp [grown]
    · have silent : [Effect.protocolError failure].filterMap Effect.frame? = [] := rfl
      rw [List.filterMap_append, silent, List.append_nil]
      exact pubacks
    · intro mid named acked effect member
      rcases List.mem_append.mp member with old | new
      · exact silent mid named acked effect old
      · cases List.mem_singleton.mp new
        exact id
  | opens opening passive shrinks more =>
    exact .opens opening passive (IsTrans.trans _ _ _ shrinks rests.shrinks) (IsTrans.trans _ _ _ more adds)
  | ends ended unannounced same drifts more =>
    exact .ends ended unannounced same (drifts.trans rests.toDrifts) (IsTrans.trans _ _ _ more adds)

theorem announcedMid_other (other : raw.packetType ≠ .publish) : announcedMid engine raw = none :=
  if_neg fun given => other given.2.1

theorem announcedMid_closed (closed : engine.state ≠ .connected) : announcedMid engine raw = none :=
  if_neg fun given => closed given.1

theorem dispatch_shifted (tended : Tended engine) (raw : RawPacket) :
    Sat (dispatch raw) engine (fun _ => Shifted (announcedMid engine raw) none engine)
      (fun _ => Shifted (announcedMid engine raw) none engine) := by
  simp only [dispatch, sat_bind, sat_fromExcept, sat_get]
  refine ⟨fun _ valid => ?_, fun _ invalid => ?_⟩
  · cases found : handlerFor engine.state raw.packetType with
    | none =>
      have closed : announcedMid engine raw = none := by
        apply if_neg
        rintro ⟨open_, publish, _⟩
        simp [handlerFor, open_, publish] at found
      rw [closed]
      exact tended.same.shifted
    | some handler =>
      by_cases publish : raw.packetType = .publish
      · obtain ⟨open_, rfl⟩ := handler_publish found publish
        have same : announcedMid engine raw =
            if raw.qosBits = 1 then publishMid engine raw else none := by
          simp [announcedMid, open_, publish, valid, Except.isOk, Except.toBool]
        rw [same]
        exact handlePublish_shifted tended open_ raw
      · rw [announcedMid_other publish]
        by_cases accepts : raw.packetType = .connack
        · obtain ⟨opening, rfl⟩ := handler_connack found accepts
          have shrinks : Within (Keeps Shrinks) (onConnack raw) := accepts_onConnack raw
          have sends : Ends (Sends NoPuback) (Sends NoPuback) (onConnack raw) := accepts_onConnack raw
          apply ((shrinks.settles tended.kept).and (sends engine)).mono
          · rintro _ _ ⟨⟨kept, shrinks⟩, sends⟩
            exact ⟨kept, (sends tended.honest).1,
              .opens opening rfl shrinks (sends tended.honest).2⟩
          · rintro _ _ ⟨⟨kept, shrinks⟩, sends⟩
            exact ⟨kept, (sends tended.honest).1,
              .opens opening rfl shrinks (sends tended.honest).2⟩
        · have calm : Sat (handler raw) engine (fun _ => Calm engine) (fun _ => Calm engine) := by
            by_cases releases : raw.packetType = .pubrel
            · obtain ⟨_, rfl⟩ := handler_pubrel found releases
              have rests : Within (Keeps Rests) (onPubrel raw) := keeps_onPubrel raw
              exact tended.calm (rests.settles tended.kept) (beside_onPubrel raw) (beside_onPubrel raw)
            · have rests : Within (Keeps Rests) (handler raw) :=
                outward_handler (Keeps Rests) found accepts publish releases raw
              exact tended.calm (rests.settles tended.kept)
                (outward_handler (Sends NoPuback) found accepts publish releases raw)
                (outward_handler (Minds NoPuback) found accepts publish releases raw)
          exact calm.mono (fun _ _ calm => calm.shifted) fun _ _ calm => calm.shifted
  · have refused : announcedMid engine raw = none :=
      if_neg fun given => by simp [invalid, Except.isOk, Except.toBool] at given
    rw [refused]
    exact tended.same.shifted

theorem handleRaw_shifted (tended : Tended engine) (raw : RawPacket) :
    Sat (handleRaw raw) engine (fun _ => Shifted (announcedMid engine raw) none engine)
      (fun _ => Shifted (announcedMid engine raw) none engine) := by
  simp only [handleRaw, sat_bind, sat_get, sat_ite]
  refine ⟨fun ceased => ?_, fun _ => ?_⟩
  · have closed : engine.state ≠ .connected := Engine.ceased.not_connected ceased
    rw [announcedMid_closed closed]
    exact tended.same.shifted
  · rw [sat_catching]
    apply (dispatch_shifted tended raw).mono
    · exact fun _ _ shifted => shifted
    · exact fun failure after shifted => ⟨fun _ => shifted.emit failure, fun _ => shifted⟩

/-! A call in manual acknowledgement -/

namespace Protocol.Command

/-- The identifier whose PUBLISH the call brings. -/
def announces (engine : Engine) : Command → Option Nat
  | .handleRaw raw => announcedMid engine raw
  | _ => none

/-- The waiting exchange that the call acknowledges. -/
def accepts (engine : Engine) : Command → Option Nat
  | .ack mid _ => engine.awaited mid
  | _ => none

end Protocol.Command

theorem notifyTransportClosed_shifted (tended : Tended engine) :
    Sat notifyTransportClosed engine (fun _ => Shifted none none engine)
      (fun _ => Shifted none none engine) := by
  have shrinks : Within (Keeps Shrinks) notifyTransportClosed := keeps_notifyTransportClosed
  have sends : Within (Sends NoPuback) notifyTransportClosed := heedless_notifyTransportClosed
  have closes : Sat notifyTransportClosed engine
      (fun _ after => ¬ after.live ∧ after.store.waiting = engine.store.waiting)
      (fun _ after => ¬ after.live ∧ after.store.waiting = engine.store.waiting) := by
    simp only [notifyTransportClosed, enterDisconnected, transportClosed, releasePendingAcks, sat_bind,
      sat_get, sat_modify, sat_modifyOutbound, sat_modifyInbound]
    apply sat_releasePendingSubscriptionRequests
    intro pool subs
    rw [sat_onlyIf]
    refine ⟨fun _ => ⟨?_, rfl⟩, fun _ => ⟨?_, rfl⟩⟩
    · rintro (opening | open_)
      · simp at opening
      · simp at open_
    · rintro (opening | open_)
      · simp at opening
      · simp at open_
  apply (((shrinks.settles tended.kept).and (sends engine)).and closes).mono
  · rintro _ _ ⟨⟨⟨kept, shrinks⟩, sends⟩, dead, same⟩
    exact ⟨kept, (sends tended.honest).1,
      .ends dead rfl same shrinks.toDrifts (sends tended.honest).2⟩
  · rintro _ _ ⟨⟨⟨kept, shrinks⟩, sends⟩, dead, same⟩
    exact ⟨kept, (sends tended.honest).1,
      .ends dead rfl same shrinks.toDrifts (sends tended.honest).2⟩

theorem ack_shifted (tended : Tended engine) (mid : Nat) (message : Option Message) :
    Sat (Protocol.ack mid message) engine (fun _ => Shifted none (engine.awaited mid) engine)
      (fun _ => Shifted none none engine) := by
  have minds : Within (Minds NoPuback) (Protocol.ack mid message) :=
    within_bind within_get fun _ => within_bind within_raiseIf fun _ => beside_ack mid message
  have turns : Sat (Protocol.ack mid message) engine
      (fun _ after => engine.state = .connected ∧ TurnsAt none (engine.awaited mid) engine after)
      (fun _ after => after = engine ∨ engine.state = .connected ∧ TurnsAt none none engine after) := by
    simp only [Protocol.ack, sat_bind, sat_get, sat_raiseIf]
    refine ⟨fun _ => .inl trivial, fun open_ => ?_⟩
    have open_ : engine.state = .connected := not_not.mp open_
    apply (ack_sat tended.kept mid message).mono
    · exact fun _ _ turns => ⟨open_, turns⟩
    · exact fun _ _ turns => .inr ⟨open_, turns tended.reliable⟩
  apply (turns.and (minds engine)).mono
  · exact fun _ _ ⟨⟨open_, turns⟩, minds⟩ => turns.shifted (minds tended.honest) open_
  · rintro _ after ⟨rfl | ⟨open_, turns⟩, minds⟩
    · exact tended.same.shifted
    · exact turns.shifted (minds tended.honest) open_

/-- Every call but the start of a connection and taking the effects away. -/
theorem run_shifted (tended : Tended engine) (command : Command) (connects : command ≠ .beginConnect)
    (takes : command ≠ .takeEffects) :
    Sat command.run engine
      (fun _ => Shifted (command.announces engine) (command.accepts engine) engine)
      (fun _ => Shifted (command.announces engine) none engine) := by
  have calmly (calm : Sat command.run engine (fun _ => Calm engine) fun _ => Calm engine)
      (silent : command.announces engine = none) (passive : command.accepts engine = none) :
      Sat command.run engine
        (fun _ => Shifted (command.announces engine) (command.accepts engine) engine)
        (fun _ => Shifted (command.announces engine) none engine) := by
    rw [silent, passive]
    exact calm.mono (fun _ _ calm => calm.shifted) fun _ _ calm => calm.shifted
  have outgoing (outgoing : command.Outgoing) :
      Sat command.run engine (fun _ => Calm engine) fun _ => Calm engine := by
    have rests : Within (Keeps Rests) command.run := outward_run outgoing
    exact tended.calm (rests.settles tended.kept) (outward_run outgoing) (outward_run outgoing)
  cases command with
  | beginConnect => exact absurd rfl connects
  | takeEffects => exact absurd rfl takes
  | handleRaw raw =>
    simp only [Command.run, sat_map]
    exact handleRaw_shifted tended raw
  | ack mid message =>
    simp only [Command.run, sat_map]
    exact ack_shifted tended mid message
  | notifyTransportClosed =>
    simp only [Command.run, sat_map]
    exact notifyTransportClosed_shifted tended
  | continueInboundReplay =>
    have rests : Within (Keeps Rests) Protocol.continueInboundReplay := keeps_drainReplay
    refine calmly ?_ rfl rfl
    simp only [Command.run, sat_map]
    exact tended.calm (rests.settles tended.kept) beside_drainReplay beside_drainReplay
  | markInboundDelivered mid token =>
    refine calmly ?_ rfl rfl
    simp only [Command.run, sat_map]
    exact tended.calm_of (settles_markDelivered_manual tended.kept tended.manual mid token)
      (sends_markDelivered tended mid token) (beside_markDelivered mid token)
  | _ => exact calmly (outgoing trivial) rfl rfl

end

/-! Construction -/

section

variable {config : EngineConfig} {store : Store} {engine : Engine}

theorem started_kept (arranged : store.Arranged) {recovered : Finset Nat × Nat × List Nat}
    (loaded : loadRecoveredState store = .ok recovered) :
    (Engine.started config store recovered).kept := by
  simp only [loadRecoveredState] at loaded
  split at loaded
  · cases loaded
  rename_i sized
  cases loaded
  refine ⟨arranged, fun {mid row} found => ?_, ?_, ?_, fun manual => ?_, ?_, ?_, ?_⟩
  · by_contra empty
    refine sized (List.any_eq_true.mpr ⟨row.message, ?_, ?_⟩)
    · exact List.mem_map_of_mem (List.mem_map_of_mem (Dict.get?_eq_some_iff.mp found))
    · simpa using Nat.eq_zero_of_not_pos empty
  · change store.inbound.keys.toFinset.card = store.inbound.size
    rw [List.toFinset_card_of_nodup store.inbound.keys_nodup]
    simp [Dict.keys, Dict.size]
  · simp [Engine.started, Engine.blank, Dict.sumBy, Dict.values, Function.comp_def]
  · have manual : config.manualAck = true := manual
    simp [Engine.started, Engine.blank, Store.waiting, manual, Function.comp_def]
  · simp [Engine.started, Engine.blank]
  · simp [Engine.started, Engine.blank]
  · refine ⟨fun {mid number} found => ?_, ?_, ?_⟩
    · obtain ⟨row, present, rfl⟩ := Option.map_eq_some_iff.mp found
      exact arranged.numbered present
    · simp [exchanges, Engine.started, Engine.blank]
    · simp [exchanges, Engine.started, Engine.blank]

theorem create_kept (created : Engine.create config store = .ok engine) (arranged : store.Arranged) :
    ∃ recovered, (Engine.started config store recovered).kept ∧ engine.kept ∧
      Rests (Engine.started config store recovered) engine := by
  obtain ⟨recovered, loaded, hydrated⟩ := create_ok created
  have started := @started_kept config _ arranged _ loaded
  have hydrates : Within (Keeps Rests) Outbound.hydrate := outward_hydrate
  exact ⟨recovered, started, (hydrates.settles started).ok hydrated⟩

end

end Mqttium
