import Mqttium.Connection.Closing

/-! Nothing is sent after DISCONNECT, as long as no delivery mark runs a waiting
completion once the connection is over. -/

namespace Mqttium

open Codec Library Packets Persistence Protocol

/-- Once the connection is over a step leaves it so and sends nothing. -/
abbrev Mute : Engine → Engine → Prop := Guarded Engine.ceased (Adds fun _ => False)

theorem mute_same {before after : Engine} (state : after.state = before.state)
    (effects : after.effects = before.effects) : Mute before after := by
  intro ceased
  refine ⟨?_, adds_nothing effects⟩
  unfold Engine.ceased
  rw [state]
  exact ceased

theorem mute_storeCall {Value : Type} {call : StoreCall} {run : Store → Value × Store}
    {holds : Value → Prop} (given : ∀ store, holds (run store).1) :
    Yields holds Mute (storeCall call run) := by
  refine yields_guarded fun engine ceased => ?_
  simp only [storeCall, sat_bind, sat_get]
  split
  · exact ⟨given _, ceased, adds_nothing rfl⟩
  · exact ⟨ceased, adds_nothing rfl⟩
  · exact ⟨ceased, adds_nothing rfl⟩

instance : Onlooker Mute where
  unsent := by
    intro before after still ceased
    obtain ⟨fresh, grown, unsent⟩ := still.quiet.effects
    refine ⟨?_, fresh, grown, ?_⟩
    · rcases still.state with same | ended
      · unfold Engine.ceased
        rw [same]
        exact ceased
      · exact ended
    · intro effect member item shown
      have silent := unsent effect member
      cases effect <;> first | exact silent.elim | cases shown
  store call run _ := by
    have yields : Yields (fun _ => True) Mute (storeCall call run) := mute_storeCall fun _ => trivial
    exact yields.within
  endSubs _ := sat_releasePendingSubscriptionRequests fun _ _ => mute_same rfl rfl

instance : Outward Mute where
  good := fun _ => True
  facts _ _ later := fun engine => later engine (honest_any engine) engine
  session _ _ := mute_same rfl rfl
  store _ caches := mute_storeCall fun store => (caches store (honest_any_store store)).1
  assign _ _ _ := mute_same rfl rfl
  subs _ := within_modify fun _ => mute_same rfl rfl
  report {effect} reports := within_modify fun engine ceased => by
    refine ⟨ceased, [effect], rfl, ?_⟩
    intro other member item shown
    cases List.mem_singleton.mp member
    cases effect <;> first | exact reports.elim | cases shown

/-! What the calls do once the connection is over -/

theorem Protocol.Engine.ceased.not_connected {engine : Engine} (ceased : engine.ceased) :
    engine.state ≠ .connected := by
  rcases ceased with ending | ended
  · simp [ending]
  · simp [ended]

theorem Protocol.Engine.ceased.not_connecting {engine : Engine} (ceased : engine.ceased) :
    engine.state ≠ .connecting := by
  rcases ceased with ending | ended
  · simp [ending]
  · simp [ended]

theorem mute_publishQos0 (call : Outbound.PublishCall) : Within Mute (Outbound.publishQos0 call) := by
  simp only [Outbound.publishQos0, Outbound.prepareQos0, bind_assoc]
  exact yields_then yields_guarded_get fun engine ceased => within_bind within_fromExcept fun _ =>
    within_bind within_fromExcept fun _ => within_bind within_fromExcept fun _ =>
    within_raised ceased.not_connected

/-- Without a connection a publication is only stored. -/
theorem mute_admitPrepared (call : Outbound.PublishCall) (prepared : Outbound.PreparedPublish)
    (mid : Nat) : Within Mute (Outbound.admitPrepared call prepared mid) := by
  refine yields_then yields_guarded_get fun engine ceased => ?_
  rw [if_neg ceased.not_connected]
  exact within_bind (within_pure _) fun _ =>
    within_onlyIf (outward_storeQueued ⟨fun _ _ => trivial, fun _ _ => trivial⟩)

theorem mute_queuePublish (choice : Nat) (call : Outbound.PublishCall) :
    Within Mute (Outbound.queuePublish choice call) :=
  within_bind within_get fun _ => within_bind within_raiseIf fun _ => within_ite
    (within_bind (mute_publishQos0 _) fun _ => within_pure _)
    (within_bind within_fromExcept fun _ => within_bind (outward_reserve _) fun _ =>
      within_bind (within_tryCatch (outward_allocateId _) fun _ =>
        within_bind (outward_rollback _ _ _) fun _ => within_throw _) fun _ =>
      within_tryCatch (within_bind (mute_admitPrepared _ _ _) fun _ => within_pure _) fun _ =>
        within_bind (outward_rollback _ _ _) fun _ => within_throw _)

theorem mute_queueSubscribe (choice : Nat) (subscriptions : List Subscription)
    (properties : Option Properties) :
    Within Mute (queueSubscribe choice subscriptions properties) := by
  refine yields_then yields_guarded_get fun engine ceased => within_from fun _ accepted => ?_
  rw [prepareSubscribe, if_pos ceased.not_connected] at accepted
  cases accepted

theorem mute_queueUnsubscribe (choice : Nat) (topics : List Text) :
    Within Mute (queueUnsubscribe choice topics) := by
  refine yields_then yields_guarded_get fun engine ceased => within_from fun _ accepted => ?_
  rw [prepareUnsubscribe, if_pos ceased.not_connected] at accepted
  cases accepted

theorem mute_queuePing : Within Mute queuePing :=
  yields_then yields_guarded_get fun _ ceased => within_raised ceased.not_connected

theorem mute_notifyTransportClosed : Within Mute notifyTransportClosed :=
  within_bind within_get fun _ => within_bind beside_enterDisconnected fun _ =>
    within_bind (outward_session fun _ _ member => member) fun _ =>
    within_bind beside_transportClosed fun _ => within_bind Onlooker.endSubs fun _ =>
    within_onlyIf (beside_emit trivial)

theorem mute_handleRaw (raw : RawPacket) : Within Mute (handleRaw raw) := by
  refine yields_then yields_guarded_get fun engine ceased => ?_
  rw [if_pos (show _ ∨ _ from ceased)]
  exact within_pure _

theorem mute_ack (mid : Nat) (message : Option Message) : Within Mute (Protocol.ack mid message) :=
  yields_then yields_guarded_get fun _ ceased => within_raised ceased.not_connected

theorem mute_queueAuth (reasonCode : Nat) (properties : Option Properties) :
    Within Mute (queueAuth reasonCode properties) :=
  yields_then yields_guarded_get fun _ ceased => within_bind within_raiseIf fun _ =>
    within_raised ⟨ceased.not_connecting, ceased.not_connected⟩

theorem mute_respondAuth (challenge : Option Nat) (reasonCode : Nat)
    (properties : Option Properties) :
    Within Mute (respondAuth challenge reasonCode properties) :=
  within_bind within_get fun _ => within_ite (within_pure _) <| within_ite (within_pure _) <|
    within_bind (mute_queueAuth _ _) fun _ => within_pure _

/-- The delivery mark finds the connection alive, or has nothing to complete. -/
def Protocol.Command.Timely (engine : Engine) : Command → Prop
  | .markInboundDelivered mid token =>
    engine.ceased → (token.isSome ∧ engine.inbound.exchangeTokens.get? mid ≠ token) ∨
      engine.inbound.pendingCompletions.get? mid = none
  | _ => True

instance (engine : Engine) (command : Command) : Decidable (command.Timely engine) := by
  cases command with
  | markInboundDelivered mid token =>
    exact inferInstanceAs (Decidable (engine.ceased → _ ∨ _))
  | _ => exact inferInstanceAs (Decidable True)

theorem mute_markDelivered {engine : Engine} {mid : Nat} {token : Option Token}
    (ceased : engine.ceased)
    (timely : (Command.markInboundDelivered mid token).Timely engine) :
    Sat (Inbound.markDelivered mid token) engine (fun _ => Mute engine) (fun _ => Mute engine) := by
  have stays : Mute engine engine := Std.Refl.refl engine
  have marks : Within Mute (do
      modifyInbound fun inbound =>
        { inbound with pendingCompletions := inbound.pendingCompletions.erase mid }
      onlyIf (engine.inbound.storedInbound ≠ 0) (Inbound.markRowDelivered mid) : EngineM PUnit) :=
    within_bind beside_modifyInbound fun _ => within_onlyIf (beside_markRowDelivered mid)
  simp only [Inbound.markDelivered, sat_bind, sat_get, sat_ite]
  refine ⟨fun _ => stays, fun current => ?_⟩
  rcases timely ceased with stale | idle
  · exact absurd stale current
  · simpa [idle] using marks engine

/-- Once the connection is over, a timely call gives out no frame. -/
theorem mute_run {engine : Engine} {command : Command} (ceased : engine.ceased)
    (timely : command.Timely engine) (reconnects : command ≠ .beginConnect)
    (takes : command ≠ .takeEffects) :
    Sat command.run engine (fun returned after => returned = none ∧ Mute engine after)
      (fun _ => Mute engine) := by
  have only {Value : Type} {program : EngineM Value}
      (muted : Sat program engine (fun _ => Mute engine) (fun _ => Mute engine)) :
      Sat ((fun _ => none) <$> program : EngineM (Option WriteItem)) engine
        (fun returned after => returned = none ∧ Mute engine after) (fun _ => Mute engine) := by
    rw [sat_map]
    exact muted.mono (fun _ _ done => ⟨rfl, done⟩) (fun _ _ done => done)
  cases command with
  | beginConnect => exact absurd rfl reconnects
  | takeEffects => exact absurd rfl takes
  | queuePublish choice call => exact only (mute_queuePublish choice call engine)
  | tryDirectQos0Publish call admitted =>
    simp only [Command.run, tryDirectQos0Publish, sat_bind, sat_get, sat_ite]
    exact ⟨fun _ => ⟨rfl, Std.Refl.refl engine⟩,
      fun live => absurd (.inl ceased.not_connected) live⟩
  | queueSubscribe choice subscriptions properties =>
    exact only (mute_queueSubscribe choice subscriptions properties engine)
  | queueUnsubscribe choice topics => exact only (mute_queueUnsubscribe choice topics engine)
  | queuePing => exact only (mute_queuePing engine)
  | beginDisconnect reasonCode properties =>
    simp only [Command.run, beginDisconnect, sat_map, sat_bind, sat_get, sat_raiseIf]
    exact ⟨fun _ => Std.Refl.refl engine,
      fun live => absurd ⟨ceased.not_connecting, ceased.not_connected⟩ live⟩
  | notifyTransportClosed => exact only (mute_notifyTransportClosed engine)
  | handleRaw raw => exact only (mute_handleRaw raw engine)
  | sealPublications mids => exact only (outward_sealPublications mids engine)
  | continueInboundReplay => exact only (beside_drainReplay engine)
  | markInboundDelivered mid token => exact only (mute_markDelivered ceased timely)
  | ack mid message => exact only (mute_ack mid message engine)
  | respondAuth challenge reasonCode properties =>
    exact only (mute_respondAuth challenge reasonCode properties engine)
  | queueAuth reasonCode properties => exact only (mute_queueAuth reasonCode properties engine)

/-! Runs -/

/-- Nothing follows a DISCONNECT. -/
def Concluded (sent : List WriteItem) : Prop :=
  ∀ early item later, sent = early ++ item :: later → IsDisconnect item → later = []

/-- A session whose frames hold no DISCONNECT, or one that is over after its only one. -/
structure Orderly (session : Protocol.Session) : Prop where
  honest : Honest KeepsOpen session.engine
  closes : Closes session.engine.ceased session.sent

theorem Closes.concluded {ceased : Prop} {sent : List WriteItem} (closes : Closes ceased sent) :
    Concluded sent := by
  obtain ⟨early, last, split, stays, ending⟩ := closes
  intro front item rest same closing
  rw [split] at same
  rcases List.eq_nil_or_concat rest with none | ⟨more, final, rfl⟩
  · exact none
  · exfalso
    have inside : item ∈ early := by
      rcases ending with rfl | ⟨_, goodbye, rfl, _⟩
      · rw [List.append_nil] at same
        simp [same]
      · have longer : early ++ [goodbye] = (front ++ item :: more) ++ [final] := by
          simpa using same
        rw [(List.append_inj' longer rfl).1]
        simp
    exact stays item inside closing

theorem closes_returned {ceased : Prop} {item : WriteItem} {packetType : PacketType}
    (coded : frameCode item.header = some packetType.code) (stays : packetType ≠ .disconnect) :
    Closes ceased [item] :=
  closes_open fun other member => by
    cases List.mem_singleton.mp member
    rw [KeepsOpen, IsDisconnect, coded]
    cases packetType <;> simp_all [PacketType.code]

theorem connect_frame {engine : Engine} {cleanStart : Bool} {clientId : Text} {wire : Bytes}
    (prepared : prepareConnect engine cleanStart = .ok (clientId, wire)) :
    frameCode wire = some PacketType.connect.code := by
  unfold prepareConnect at prepared
  obtain ⟨_, _, prepared⟩ := except_bind_ok.mp prepared
  split at prepared
  · cases prepared
  split at prepared
  · cases prepared
  split at prepared
  · cases prepared
  · have encoded : ∃ packet : ConnectPacket, packet.encode = .ok wire := by
      split at prepared
      · obtain ⟨_, _, prepared⟩ := except_bind_ok.mp prepared
        obtain ⟨_, ok, done⟩ := except_bind_ok.mp prepared
        cases done
        exact ⟨_, ok⟩
      · obtain ⟨_, _, prepared⟩ := except_bind_ok.mp prepared
        obtain ⟨_, ok, done⟩ := except_bind_ok.mp prepared
        cases done
        exact ⟨_, ok⟩
    obtain ⟨_, ok⟩ := encoded
    exact frameCode_connect ok

/-- Starting a connection; a refusal changes nothing. -/
theorem beginConnect_sat (engine : Engine) :
    Sat beginConnect engine
      (fun wire _ => frameCode wire = some PacketType.connect.code)
      (fun _ after => after = engine) := by
  simp only [beginConnect, sat_bind, sat_get, sat_raiseIf, sat_fromExcept]
  refine ⟨fun _ => trivial, fun _ => ⟨fun prepared ok => ?_, fun _ _ => trivial⟩⟩
  exact connect_frame ok

theorem returned_beginConnect (engine : Engine) :
    Sat Command.beginConnect.run engine (fun returned after => Closes after.ceased returned.toList)
      (fun _ _ => True) := by
  simp only [Command.run, sat_map]
  exact (beginConnect_sat engine).mono
    (fun wire _ coded => closes_returned coded (by decide)) (fun _ _ _ => trivial)

theorem returned_beginDisconnect (reasonCode : Nat) (properties : Option Properties)
    (engine : Engine) :
    Sat (Command.beginDisconnect reasonCode properties).run engine
      (fun returned after => Closes after.ceased returned.toList) (fun _ _ => True) := by
  simp only [Command.run, beginDisconnect, sat_map, sat_bind, sat_get, sat_raiseIf, sat_fromExcept]
  refine ⟨fun _ => trivial, fun _ => ⟨fun _ _ => ⟨fun wire encoded => ?_, fun _ _ => trivial⟩,
    fun _ _ => trivial⟩⟩
  refine sat_checkOutboundSize ?_ fun _ => trivial
  exact ⟨[], [_], rfl, by simp, .inr ⟨.inl rfl, _, rfl, frameCode_encodeDisconnect encoded⟩⟩

theorem returned_tryDirectQos0Publish (call : Outbound.PublishCall) (admitted : Bool)
    (engine : Engine) :
    Sat (Command.tryDirectQos0Publish call admitted).run engine
      (fun returned after => Closes after.ceased returned.toList) (fun _ _ => True) := by
  have commits (item : WriteItem)
      (coded : frameCode item.header = some PacketType.publish.code) :
      Sat (if admitted then do
          onlyIf (call.properties.bind (·.get .topicAlias)).isSome
            (Outbound.commitTopicAlias call.topic call.properties)
          return some item
        else return none : EngineM (Option WriteItem)) engine
        (fun returned after => Closes after.ceased returned.toList) (fun _ _ => True) := by
    simp only [sat_ite, sat_bind, sat_onlyIf]
    refine ⟨fun _ => ⟨fun _ => ?_, fun _ => closes_returned coded (by decide)⟩,
      fun _ => closes_open (by simp)⟩
    exact Sat.of_forall (fun _ _ => closes_returned coded (by decide)) fun _ _ => trivial
  simp only [Command.run, tryDirectQos0Publish, sat_bind, sat_get, sat_ite]
  refine ⟨fun _ => closes_open (by simp), fun _ => (prepareQos0_sat engine call).mono ?_
    fun _ _ _ => trivial⟩
  rintro item _ ⟨rfl, prepared⟩
  obtain ⟨_, _, _, _, _, _, encoded⟩ := prepared.shape
  simpa using commits item (frameCode_encodePublishItem encoded)

/-- The frame a call returns. -/
theorem returned_closes (command : Command) (engine : Engine) :
    Sat command.run engine (fun returned after => Closes after.ceased returned.toList)
      (fun _ _ => True) := by
  have nothing {Value : Type} (program : EngineM Value) :
      Sat ((fun _ => none) <$> program : EngineM (Option WriteItem)) engine
        (fun returned after => Closes after.ceased returned.toList) (fun _ _ => True) := by
    rw [sat_map]
    exact Sat.of_forall (fun _ _ => closes_open (by simp)) (fun _ _ => trivial)
  cases command with
  | beginConnect => exact returned_beginConnect engine
  | beginDisconnect reasonCode properties => exact returned_beginDisconnect reasonCode properties engine
  | tryDirectQos0Publish call admitted => exact returned_tryDirectQos0Publish call admitted engine
  | _ => exact nothing _

theorem emitted_closes {before after : Engine} (concludes : Concludes before after) :
    Closes after.ceased (emitted before after) := by
  obtain ⟨fresh, grown, closes⟩ := concludes
  simpa [emitted, grown] using closes

theorem emitted_nothing {before after : Engine} (mute : Adds (fun _ => False) before after) :
    emitted before after = [] :=
  List.eq_nil_iff_forall_not_mem.mpr fun item member => adds_frames mute item member

/-- What a call adds to the frames of a live connection. -/
theorem live_run {engine : Engine} (honest : Honest KeepsOpen engine) (command : Command)
    (takes : command ≠ .takeEffects) :
    Sat command.run engine
      (fun returned after => Honest KeepsOpen after ∧
        Closes after.ceased (emitted engine after ++ returned.toList))
      (fun _ after => Honest KeepsOpen after ∧ Closes after.ceased (emitted engine after)) := by
  by_cases handles : ∃ raw, command = .handleRaw raw
  · obtain ⟨raw, rfl⟩ := handles
    simp only [Command.run, sat_map]
    apply (ended_handleRaw raw engine).mono
    · intro _ after ended
      obtain ⟨kept, concludes⟩ := ended honest
      exact ⟨kept, by simpa using emitted_closes concludes⟩
    · intro _ after ended
      obtain ⟨kept, concludes⟩ := ended honest
      exact ⟨kept, emitted_closes concludes⟩
  · have steady := steady_run command takes fun raw same => handles ⟨raw, same⟩
    apply ((steady engine).and (returned_closes command engine)).mono
    · rintro returned after ⟨moved, closes⟩
      obtain ⟨kept, adds⟩ := moved honest
      exact ⟨kept, closes.prepend (adds_frames adds)⟩
    · rintro _ after ⟨moved, _⟩
      obtain ⟨kept, adds⟩ := moved honest
      exact ⟨kept, closes_open (adds_frames adds)⟩

theorem Closes.mono {ceased still : Prop} {frames : List WriteItem} (closes : Closes ceased frames)
    (stays : ceased → still) : Closes still frames := by
  obtain ⟨early, last, split, open_, ending⟩ := closes
  exact ⟨early, last, split, open_, ending.imp id fun goodbye => ⟨stays goodbye.1, goodbye.2⟩⟩

theorem Closes.live {ceased : Prop} {frames : List WriteItem} (closes : Closes ceased frames)
    (alive : ¬ ceased) : ∀ item ∈ frames, KeepsOpen item := by
  obtain ⟨early, last, rfl, open_, ending⟩ := closes
  rcases ending with rfl | goodbye
  · simpa using open_
  · exact absurd goodbye.1 alive

/-- What a call adds to the frames, whatever the connection's state. -/
theorem Orderly.adds {session : Protocol.Session} {command : Command} (orderly : Orderly session)
    (timely : command.Timely session.engine) (takes : command ≠ .takeEffects) :
    Sat command.run session.engine
      (fun returned after => command ≠ .beginConnect →
        Closes after.ceased (session.sent ++ (emitted session.engine after ++ returned.toList)))
      (fun _ after => Closes after.ceased (session.sent ++ emitted session.engine after)) := by
  by_cases ceased : session.engine.ceased
  · by_cases connects : command = .beginConnect
    · subst connects
      simp only [Command.run, sat_map]
      apply (beginConnect_sat session.engine).mono
      · exact fun _ _ _ other => absurd rfl other
      · rintro _ _ rfl
        simpa [emitted_self] using orderly.closes
    · apply (mute_run ceased timely connects takes).mono
      · rintro _ after ⟨rfl, mute⟩ _
        simpa [emitted_nothing (mute ceased).2] using orderly.closes.mono fun _ => (mute ceased).1
      · intro _ after mute
        simpa [emitted_nothing (mute ceased).2] using orderly.closes.mono fun _ => (mute ceased).1
  · have alive := orderly.closes.live ceased
    exact (live_run orderly.honest command takes).mono
      (fun _ _ done _ => done.2.prepend alive) (fun _ _ done => done.2.prepend alive)

theorem Orderly.step {session : Protocol.Session} {command : Command} (orderly : Orderly session)
    (timely : command.Timely session.engine) : Orderly (session.step command) := by
  by_cases takes : command = .takeEffects
  · subst takes
    have taken : Sat Command.takeEffects.run session.engine
        (fun returned after => returned = none ∧ after.effects = [] ∧
          after.state = session.engine.state ∧ Honest KeepsOpen after) (fun _ _ => False) := by
      have kept := orderly.honest
      simp only [Command.run, takeEffects, sat_map, sat_bind, sat_get, sat_modify, sat_onlyIf,
        Inbound.releasePendingAcks, sat_modifyInbound, sat_pure]
      exact ⟨fun _ => ⟨trivial, trivial, trivial, kept.rows, kept.queue⟩,
        fun _ => ⟨trivial, trivial, trivial, kept.rows, kept.queue⟩⟩
    cases ended : Command.takeEffects.run session.engine with
    | error failure after => exact (taken.error ended).elim
    | ok returned after =>
      obtain ⟨rfl, emptied, state, kept⟩ := taken.ok ended
      have nothing : emitted session.engine after = [] := by simp [emitted, emptied]
      rw [Protocol.Session.step_ok ended (by simp), nothing]
      refine ⟨kept, ?_⟩
      have same : after.ceased ↔ session.engine.ceased := by simp [Engine.ceased, state]
      simpa [same] using orderly.closes
  · have live := live_run orderly.honest command takes
    have adds := orderly.adds timely takes
    have closes := returned_closes command session.engine
    cases ended : command.run session.engine with
    | error failure after =>
      rw [Protocol.Session.step_error ended]
      exact ⟨(live.error ended).1, adds.error ended⟩
    | ok returned after =>
      have kept := (live.ok ended).1
      by_cases connects : command = .beginConnect
      · subst connects
        rw [Protocol.Session.step_connect ended]
        exact ⟨kept, closes.ok ended⟩
      · rw [Protocol.Session.step_ok ended connects, List.append_assoc]
        exact ⟨kept, adds.ok ended connects⟩

/-- A store whose cached frames are good gives an engine that keeps good frames. -/
theorem create_honest {config : EngineConfig} {store : Store} {engine : Engine}
    (created : Engine.create config store = .ok engine) (caches : store.Caches KeepsOpen) :
    Honest KeepsOpen engine := by
  obtain ⟨recovered, _, hydrated⟩ := create_ok created
  have hydrates : Within Steady Outbound.hydrate := outward_hydrate
  have moved := (hydrates _).ok hydrated
  exact (moved ⟨caches, by simp [Engine.started, Engine.blank]⟩).1

/-- Every call of the run meets its condition. -/
def Protocol.Session.Timely (session : Protocol.Session) : List Command → Prop
  | [] => True
  | command :: rest => command.Timely session.engine ∧ (session.step command).Timely rest

instance (session : Protocol.Session) (commands : List Command) :
    Decidable (session.Timely commands) := by
  induction commands generalizing session with
  | nil => exact inferInstanceAs (Decidable True)
  | cons command rest ih =>
    have := ih (session.step command)
    exact inferInstanceAs (Decidable (_ ∧ _))

theorem Orderly.run {session : Protocol.Session} {commands : List Command}
    (orderly : Orderly session)
    (timely : session.Timely commands) : Orderly (session.run commands) := by
  induction commands generalizing session with
  | nil => exact orderly
  | cons command rest ih => exact ih (orderly.step timely.1) timely.2

/-- Nothing is sent after DISCONNECT. -/
theorem nothing_after_disconnect {config : EngineConfig} {store : Store} {engine : Engine}
    (created : Engine.create config store = .ok engine) (caches : store.Caches KeepsOpen)
    (commands : List Command) (timely : Protocol.Session.Timely ⟨engine, []⟩ commands) :
    Concluded (Protocol.Session.run ⟨engine, []⟩ commands).sent := by
  have start : Orderly ⟨engine, []⟩ := ⟨create_honest created caches, closes_open (by simp)⟩
  exact (start.run timely).closes.concluded

/-- The default configuration. -/
def plainConfig : EngineConfig := { accepted := rfl }

def plainEngine : Engine := Engine.started plainConfig { kind := .memory } (∅, 0, [])

theorem plainEngine_created :
    Engine.create plainConfig { kind := .memory } = .ok plainEngine := rfl

/-- A QoS 2 message whose PUBREL arrives before the application has taken it. -/
def awaitedRelease : List Command :=
  [.beginConnect, .handleRaw ⟨.connack, 0, [0, 0]⟩, .handleRaw ⟨.publish, 4, [0, 1, 97, 0, 1, 104]⟩,
   .handleRaw ⟨.pubrel, 2, [0, 1]⟩, .takeEffects]

set_option maxRecDepth 4000 in
/-- Taken in time, the message is completed before the DISCONNECT. -/
theorem nothing_after_disconnect_marked :
    (Protocol.Session.run ⟨plainEngine, []⟩ (awaitedRelease ++ [.markInboundDelivered 1 (some 0),
      .beginDisconnect 0 none, .markInboundDelivered 1 (some 0), .queuePing])).sent.drop 1 =
      [.contiguous [80, 2, 0, 1], .contiguous [112, 2, 0, 1], .contiguous [224, 0]] ∧
    Concluded (Protocol.Session.run ⟨plainEngine, []⟩ (awaitedRelease ++ [.markInboundDelivered 1 (some 0),
      .beginDisconnect 0 none, .markInboundDelivered 1 (some 0), .queuePing])).sent :=
  ⟨by decide +kernel, nothing_after_disconnect plainEngine_created
    (by intro mid row found; simp [Library.Dict.get?_empty] at found) _ (by decide +kernel)⟩

set_option maxRecDepth 4000 in
/-- The mark after DISCONNECT emits a PUBCOMP. -/
theorem completion_after_disconnect :
    Engine.create plainConfig { kind := .memory } = .ok plainEngine ∧
    ¬ Concluded (Protocol.Session.run ⟨plainEngine, []⟩
      (awaitedRelease ++ [.beginDisconnect 0 none, .markInboundDelivered 1 (some 0)])).sent := by
  refine ⟨plainEngine_created, fun concluded => ?_⟩
  have split : (Protocol.Session.run ⟨plainEngine, []⟩
      (awaitedRelease ++ [.beginDisconnect 0 none, .markInboundDelivered 1 (some 0)])).sent =
      (Protocol.Session.run ⟨plainEngine, []⟩ awaitedRelease).sent ++
        .contiguous [224, 0] :: [.contiguous [112, 2, 0, 1]] := by
    decide +kernel
  have nothing := concluded _ _ _ split (by decide +kernel)
  cases nothing

end Mqttium
