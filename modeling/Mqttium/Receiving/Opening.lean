import Mqttium.Receiving.Commands

/-! No replay waits while a connection is being opened. -/

namespace Mqttium

open Codec Library Packets Persistence Protocol Inbound

/-- A connection that is being opened was so before, and no replay has begun to wait. -/
def Opening (before after : Engine) : Prop :=
  after.state = .connecting →
    before.state = .connecting ∧ (before.inbound.replay = none → after.inbound.replay = none)

section

variable {before after : Engine}

theorem Opening.same (state : after.state = before.state)
    (replay : after.inbound.replay = before.inbound.replay) : Opening before after :=
  fun opening => ⟨state.symm.trans opening, fun none => replay.trans none⟩

instance : IsPreorder Engine Opening where
  refl _ := .same rfl rfl
  trans _ _ _ first second opening := by
    obtain ⟨between, later⟩ := second opening
    obtain ⟨start, earlier⟩ := first between
    exact ⟨start, fun none => later (earlier none)⟩

theorem Stays.opening (stays : Stays before after) (other : before.state ≠ .connecting) :
    Opening before after := by
  intro opening
  rcases stays with same | ceased
  · exact absurd (same.symm.trans opening) other
  · exact absurd opening ceased.not_connecting

theorem Still.opening {shows : Effect → Prop} (still : Still shows before after)
    (inbound : after.inbound = before.inbound) : Opening before after := by
  intro opening
  rcases still.state with same | ceased
  · exact ⟨same.symm.trans opening, fun none => (congrArg (·.replay) inbound).trans none⟩
  · exact absurd opening ceased.not_connecting

theorem opening_storeCall {Value : Type} {call : StoreCall} {run : Store → Value × Store} :
    Within Opening (storeCall call run) := by
  intro engine
  simp only [storeCall, sat_bind, sat_get]
  split <;> exact .same rfl rfl

theorem opening_storeCall_yields {Value : Type} {call : StoreCall} {run : Store → Value × Store}
    {holds : Value → Prop} (given : ∀ store, holds (run store).1) :
    Yields holds Opening (storeCall call run) := by
  refine yields_of_sat fun engine => ?_
  simp only [storeCall, sat_bind, sat_get]
  split
  · exact ⟨given _, .same rfl rfl⟩
  · exact .same rfl rfl
  · exact .same rfl rfl

theorem opening_emit (effect : Effect) : Within Opening (emit effect) :=
  fun _ => .same rfl rfl

instance : Standby Opening where
  remote still inbound _ := still.opening inbound
  read _ _ := opening_storeCall
  endSubs _ := sat_releasePendingSubscriptionRequests fun _ _ => .same rfl rfl

instance : Speaking Opening where
  speak _ := opening_emit _

instance : Outward Opening where
  good := fun _ => True
  facts _ _ later := fun engine => later engine (honest_any engine) engine
  session _ _ := .same rfl rfl
  store _ caches := opening_storeCall_yields fun store => (caches store (honest_any_store store)).1
  assign _ _ _ := .same rfl rfl
  subs _ := within_modify fun _ => .same rfl rfl
  report _ := opening_emit _

instance : Sending Opening where
  sendable := inferInstanceAs (Sendable fun _ => True)
  send _ := opening_emit _

instance : Parting Opening Opening where
  goodbye reasonCode engine := by
    simp only [protocolDisconnect, sat_bind, sat_get]
    apply (announces engine reasonCode).mono
    · rintro _ _ ⟨sent, rfl, _⟩
      simp only [enterDisconnected, sat_modify]
      apply sat_releasePendingSubscriptionRequests
      intro pool subs
      rw [sat_emit]
      exact nofun
    · rintro _ _ rfl
      exact Std.Refl.refl _

end

/-! What changes the inbound direction -/

theorem opening_modifyInbound {change : InboundSession → InboundSession}
    (replay : ∀ inbound, (change inbound).replay = inbound.replay) :
    Within Opening (modifyInbound change) :=
  fun engine => .same rfl (replay engine.inbound)

/-- A program that keeps an open connection open, and does nothing to one being opened. -/
theorem opening_of_minds {Value : Type} {program : EngineM Value}
    (minds : Within (Minds fun _ => True) program)
    (idle : ∀ engine, engine.state = .connecting →
      Sat program engine (fun _ => Opening engine) (fun _ => Opening engine)) :
    Within Opening program := by
  intro engine
  by_cases opening : engine.state = .connecting
  · exact idle engine opening
  · apply (minds engine).mono
    · exact fun _ _ moved => (moved (honest_any engine)).2.opening opening
    · exact fun _ _ moved => (moved (honest_any engine)).2.opening opening

theorem opening_releasePendingBytes (size : Nat) : Within Opening (releasePendingBytes size) :=
  within_bind within_get fun _ => within_bind within_raiseIf fun _ =>
    opening_modifyInbound fun _ => rfl

theorem opening_forgetInbound : Within Opening forgetInbound :=
  within_bind within_get fun _ => within_bind within_raiseIf fun _ =>
    opening_modifyInbound fun _ => rfl

theorem opening_completeStoredInbound (mid : Nat) (expected : InboundQoSState) (action : String) :
    Within Opening (completeStoredInbound mid expected action) := by
  refine within_bind opening_storeCall fun completed => ?_
  cases completed with
  | none => exact within_throw _
  | some record => exact within_bind (opening_modifyInbound fun _ => rfl) fun _ => within_pure _

theorem opening_completeQos1 (mid : Nat) : Within Opening (completeQos1 mid) :=
  within_bind (opening_completeStoredInbound _ _ _) fun _ => within_bind opening_forgetInbound fun _ =>
    within_bind (opening_emit _) fun _ =>
    within_bind (opening_modifyInbound fun _ => rfl) fun _ => opening_releasePendingBytes _

theorem opening_completeQos2 (mid : Nat) (state : InboundQoSState) (action : String) :
    Within Opening (completeQos2 mid state action) :=
  within_bind (opening_completeStoredInbound _ _ _) fun _ => within_bind opening_forgetInbound fun _ =>
    within_bind (opening_emit _) fun _ => within_bind (opening_releasePendingBytes _) fun _ =>
    within_bind within_get fun _ => within_bind (opening_modifyInbound fun _ => rfl) fun _ =>
    within_onlyIf (opening_modifyInbound fun _ => rfl)

theorem opening_shareAfter (mid : Nat) : Within Opening (shareAfter mid) := by
  refine within_modify fun engine => ?_
  cases engine.store.inbound.get? mid with
  | none => exact .same rfl rfl
  | some row => exact fun opening => ⟨opening, fun none => by simp [none]⟩

theorem opening_markDelivered (mid : Nat) (token : Option Token) :
    Within Opening (markDelivered mid token) := by
  have marks : Within Opening (markRowDelivered mid) :=
    within_bind (within_map opening_storeCall) fun _ => opening_shareAfter mid
  refine within_bind within_get fun engine => within_ite (within_pure _) <|
    within_bind (opening_modifyInbound fun _ => rfl) fun _ => ?_
  cases engine.inbound.pendingCompletions.get? mid with
  | none => exact within_onlyIf marks
  | some state =>
    cases state with
    | waitPuback => exact opening_completeQos1 _
    | _ => exact opening_completeQos2 _ _ _

theorem opening_ack (mid : Nat) (message : Option Message) :
    Within Opening (Protocol.ack mid message) := by
  have minds : Within (Minds fun _ => True) (Protocol.ack mid message) :=
    within_bind within_get fun _ => within_bind within_raiseIf fun _ => beside_ack mid message
  refine opening_of_minds minds fun engine opening => ?_
  have closed : engine.state ≠ .connected := by simp [opening]
  simp only [Protocol.ack, sat_bind, sat_get, sat_raiseIf]
  exact ⟨fun _ => Std.Refl.refl engine, fun passed => absurd closed passed⟩

theorem opening_takeEffects : Within Opening takeEffects :=
  within_bind within_get fun _ => within_bind (within_modify fun _ => .same rfl rfl) fun _ =>
    within_bind (within_onlyIf (opening_modifyInbound fun _ => rfl)) fun _ => within_pure _

theorem opening_notifyTransportClosed : Within Opening notifyTransportClosed := by
  have minds : Within (Minds fun _ => True) notifyTransportClosed :=
    within_bind within_get fun _ => within_bind beside_enterDisconnected fun _ =>
      within_bind (outward_session fun _ _ member => member) fun _ =>
      within_bind beside_transportClosed fun _ => within_bind Standby.endSubs fun _ =>
      within_onlyIf (beside_emit trivial)
  refine opening_of_minds minds fun engine _ => ?_
  simp only [notifyTransportClosed, enterDisconnected, transportClosed, releasePendingAcks, sat_bind,
    sat_get, sat_modify, sat_modifyOutbound, sat_modifyInbound]
  apply sat_releasePendingSubscriptionRequests
  intro pool subs
  rw [sat_onlyIf]
  exact ⟨fun _ => (by rintro ⟨⟩), fun _ => (by rintro ⟨⟩)⟩

/-! CONNACK -/

section

variable {good : WriteItem → Prop}

theorem minds_modify {change : Engine → Engine}
    (rows : ∀ engine, (change engine).store.out = engine.store.out)
    (queued : ∀ engine, (change engine).outbound.queued = engine.outbound.queued)
    (state : ∀ engine, (change engine).state = engine.state) :
    Within (Minds good) (modify change : EngineM PUnit) :=
  fun engine => minds_same (rows engine) (queued engine) (.inl (state engine))

theorem minds_outboundReplay [Sendable good] : Within (Minds good) Outbound.replaySession :=
  within_bind (minds_modify (fun _ => rfl) (fun _ => rfl) fun _ => rfl) fun _ =>
    within_bind (outward_session fun _ _ member => by simp at member) fun _ =>
    within_bind (outward_forEachSummary outward_replayMessage) fun _ => outward_drain

end

/-- Once the session is reconciled the connection is open. -/
theorem opening_reconcileSession (present : Bool) (properties : Option Properties) :
    Within Opening (reconcileSession present properties) := by
  have adopts : Within (Minds fun _ => True) (do
      emit (.connack present 0 properties)
      onlyIf present Inbound.replaySession
      Outbound.drain) :=
    within_bind (beside_emit trivial) fun _ =>
      within_bind (within_onlyIf beside_replaySession) fun _ => outward_drain
  have reconciles : Within (Minds fun _ => True) (do
      updateSessionResumePreference
      let engine ← get
      if present then Outbound.replaySession
      else do
        Outbound.purgeAfterCleanSession (engine.pendingSubRequests.isEmpty = false)
        Inbound.discardSession
        Outbound.resetFlowForConnection
        Outbound.failQueuedViolatingNegotiation
      emit (.connack present 0 properties)
      onlyIf present Inbound.replaySession
      Outbound.drain) :=
    within_bind (minds_modify (fun _ => rfl) (fun _ => rfl) fun _ => rfl) fun _ =>
      within_bind within_get fun _ => within_ite (within_bind minds_outboundReplay fun _ => adopts)
        (within_bind (outward_purgeAfterCleanSession _) fun _ =>
          within_bind beside_discardSession fun _ =>
          within_bind (minds_modify (fun _ => rfl) (fun _ => rfl) fun _ => rfl) fun _ =>
          within_bind outward_failQueuedViolatingNegotiation fun _ => adopts)
  intro engine
  rw [reconcileSession, sat_bind, sat_modify]
  have open_ : ({ engine with
      reauthInProgress := false, authResponseDue := none, state := .connected,
      sessionPresent := present } : Engine).state ≠ .connecting := nofun
  apply (reconciles _).mono
  · intro _ after moved opening
    exact absurd ((moved (honest_any _)).2.opening open_ opening).1 open_
  · intro _ after moved opening
    exact absurd ((moved (honest_any _)).2.opening open_ opening).1 open_

theorem opening_acceptConnack (present : Bool) (properties : Option Properties) :
    Within Opening (acceptConnack present properties) := by
  have checks : Within Opening (tryCatch Outbound.checkSessionReplayable _) := within_replayable
  have negotiates : Within Opening (negotiate properties) := by
    refine within_bind (within_modify fun _ => .same rfl rfl) fun _ =>
      within_bind within_get fun engine => ?_
    cases engine.negotiated.maximumPacketSize with
    | none => exact within_pure _
    | some limit =>
      exact within_onlyIf (within_bind beside_enterDisconnected fun _ => within_throw _)
  have validates : Ends Opening Opening (validateAcceptedConnack present properties) :=
    beside_validateAcceptedConnack _ _
  exact within_bind validates fun _ => within_bind negotiates fun _ =>
    within_bind (within_onlyIf checks) fun _ => opening_reconcileSession _ _

theorem opening_onConnack (raw : RawPacket) : Within Opening (onConnack raw) := by
  have refused (present : Bool) (reasonCode : Nat) (properties : Option Properties) :
      Within Opening (do
        enterDisconnected
        emit (.connack present reasonCode properties)
        emit (.disconnected reasonCode properties true)) :=
    within_bind beside_enterDisconnected fun _ =>
      within_bind (opening_emit _) fun _ => opening_emit _
  have validates (reasonCode : Nat) (properties : Option Properties) :
      Ends Opening Opening (validateConnackV5 reasonCode properties) :=
    beside_validateConnackV5 _ _
  exact within_bind within_get fun _ => within_bind within_raiseIf fun _ =>
    within_bind within_fromExcept fun _ => within_bind (within_onlyIf (validates _ _)) fun _ =>
    within_ite (refused _ _ _) (opening_acceptConnack _ _)

theorem opening_dispatch (raw : RawPacket) : Within Opening (dispatch raw) := by
  intro engine
  simp only [dispatch, sat_bind, sat_fromExcept, sat_get]
  refine ⟨fun _ _ => ?_, fun _ _ => (Std.Refl.refl engine : Opening engine engine)⟩
  cases found : handlerFor engine.state raw.packetType with
  | none => exact (Std.Refl.refl engine : Opening engine engine)
  | some handler =>
    by_cases accepts : raw.packetType = .connack
    · obtain ⟨_, rfl⟩ := handler_connack found accepts
      exact opening_onConnack raw engine
    · by_cases publish : raw.packetType = .publish
      · obtain ⟨open_, rfl⟩ := handler_publish found publish
        have minds : Within (Minds fun _ => True) (handlePublish raw) := beside_handlePublish raw
        have other : engine.state ≠ .connecting := by simp [open_]
        exact (minds engine).mono
          (fun _ _ moved => (moved (honest_any engine)).2.opening other)
          (fun _ _ moved => (moved (honest_any engine)).2.opening other)
      · by_cases releases : raw.packetType = .pubrel
        · obtain ⟨open_, rfl⟩ := handler_pubrel found releases
          have minds : Within (Minds fun _ => True) (onPubrel raw) := beside_onPubrel raw
          have other : engine.state ≠ .connecting := by simp [open_]
          exact (minds engine).mono
            (fun _ _ moved => (moved (honest_any engine)).2.opening other)
            (fun _ _ moved => (moved (honest_any engine)).2.opening other)
        · exact outward_handler Opening found accepts publish releases raw engine

theorem opening_handleRaw (raw : RawPacket) : Within Opening (handleRaw raw) := by
  refine within_bind within_get fun _ => within_ite (within_pure _) <|
    within_bind (within_catching (opening_dispatch raw)) fun failed => ?_
  cases failed with
  | none => exact within_pure _
  | some failure => exact within_bind (opening_emit _) fun _ => within_pure _

/-! Runs -/

/-- While the connection is being opened, no replay waits. -/
def Protocol.Engine.unreplayed (engine : Engine) : Prop :=
  engine.state = .connecting → engine.inbound.replay = none

theorem Opening.unreplayed {before after : Engine} (opening : Opening before after)
    (start : before.unreplayed) : after.unreplayed := by
  intro now
  obtain ⟨opened, kept⟩ := opening now
  exact kept (start opened)

theorem unreplayed_run (command : Command) {engine : Engine} (start : engine.unreplayed) :
    Sat command.run engine (fun _ => Engine.unreplayed) (fun _ => Engine.unreplayed) := by
  have kept (within : Within Opening command.run) :
      Sat command.run engine (fun _ => Engine.unreplayed) (fun _ => Engine.unreplayed) :=
    (within engine).mono (fun _ _ opening => opening.unreplayed start)
      (fun _ _ opening => opening.unreplayed start)
  cases command with
  | beginConnect =>
    simp only [Command.run, beginConnect, startConnection, sat_map, sat_bind, sat_get, sat_raiseIf,
      sat_fromExcept, sat_modify, sat_modifyInbound, sat_pure]
    exact ⟨fun _ => start, fun _ => ⟨fun _ _ _ => rfl, fun _ _ => start⟩⟩
  | handleRaw raw => exact kept (within_map (opening_handleRaw raw))
  | continueInboundReplay =>
    have minds : Within (Minds fun _ => True) drainReplay := beside_drainReplay
    simp only [Command.run, sat_map]
    by_cases opening : engine.state = .connecting
    · simp only [Protocol.continueInboundReplay, drainReplay, sat_bind, sat_get, start opening,
        sat_pure]
      exact start
    · apply (minds engine).mono
      · exact fun _ _ moved => ((moved (honest_any engine)).2.opening opening).unreplayed start
      · exact fun _ _ moved => ((moved (honest_any engine)).2.opening opening).unreplayed start
  | markInboundDelivered mid token => exact kept (within_map (opening_markDelivered mid token))
  | ack mid message => exact kept (within_map (opening_ack mid message))
  | notifyTransportClosed => exact kept (within_map opening_notifyTransportClosed)
  | takeEffects => exact kept (within_map opening_takeEffects)
  | _ => exact kept (outward_run trivial)

theorem unreplayed_step (command : Command) {session : Protocol.Session}
    (start : session.engine.unreplayed) : (session.step command).engine.unreplayed :=
  Protocol.Session.step_sat (unreplayed_run command start)

theorem unreplayed_of_run {config : EngineConfig} {store : Store} {engine : Engine}
    (created : Engine.create config store = .ok engine) (commands : List Command) :
    (Protocol.Session.run ⟨engine, []⟩ commands).engine.unreplayed := by
  obtain ⟨recovered, _, hydrated⟩ := create_ok created
  have hydrates : Within Opening Outbound.hydrate := outward_hydrate
  have fresh : (Engine.started config store recovered).unreplayed := fun _ => rfl
  have start : engine.unreplayed := ((hydrates _).ok hydrated).unreplayed fresh
  exact @Protocol.Session.run_induction (fun session => session.engine.unreplayed) ⟨engine, []⟩ start
    (fun _ command => unreplayed_step command) commands

end Mqttium
