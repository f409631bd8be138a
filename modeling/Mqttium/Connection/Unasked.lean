import Mqttium.Connection.Closing

/-! What has no part in an AUTH exchange: no challenge is handed over, and while the
connection lasts the pending answer stays as it is. -/

namespace Mqttium

open Codec Library Packets Persistence Protocol

/-- The challenge that an effect hands over. -/
def Protocol.Effect.challenge? : Effect → Option Nat
  | .auth _ _ challenge => challenge
  | _ => none

/-- The connection is open or being opened. -/
def Protocol.Engine.underway (engine : Engine) : Bool :=
  engine.state = .connecting ∨ engine.state = .connected

structure Unasked (before after : Engine) : Prop where
  config : after.config = before.config
  challenges : after.authChallenges = before.authChallenges
  effects : ∃ fresh, after.effects = before.effects ++ fresh ∧ fresh.filterMap Effect.challenge? = []
  due : after.underway = true →
    after.state = before.state ∧ after.authResponseDue = before.authResponseDue

section

variable {before after : Engine}

theorem Unasked.same (config : after.config = before.config)
    (challenges : after.authChallenges = before.authChallenges)
    (effects : after.effects = before.effects) (state : after.state = before.state)
    (due : after.authResponseDue = before.authResponseDue) : Unasked before after :=
  ⟨config, challenges, ⟨[], by simp [effects], rfl⟩, fun _ => ⟨state, due⟩⟩

instance : IsPreorder Engine Unasked where
  refl _ := .same rfl rfl rfl rfl rfl
  trans _ _ _ first second := by
    obtain ⟨fresh, grown, silent⟩ := first.effects
    obtain ⟨more, further, quiet⟩ := second.effects
    refine ⟨second.config.trans first.config, second.challenges.trans first.challenges,
      ⟨fresh ++ more, by rw [further, grown, List.append_assoc], by simp [silent, quiet]⟩, ?_⟩
    intro live
    obtain ⟨state, due⟩ := second.due live
    obtain ⟨earlier, pending⟩ := first.due (by simpa [Engine.underway, state] using live)
    exact ⟨state.trans earlier, due.trans pending⟩

theorem unasked_emit {effect : Effect} (silent : effect.challenge? = none) :
    Within Unasked (emit effect) :=
  fun _ => ⟨rfl, rfl, ⟨[effect], rfl, by simp [silent]⟩, fun _ => ⟨rfl, rfl⟩⟩

theorem unasked_storeCall {Value : Type} {call : StoreCall} {run : Store → Value × Store} :
    Within Unasked (storeCall call run) := by
  intro engine
  simp only [storeCall, sat_bind, sat_get]
  split <;> exact .same rfl rfl rfl rfl rfl

theorem unasked_storeCall_yields {Value : Type} {call : StoreCall} {run : Store → Value × Store}
    {holds : Value → Prop} (given : ∀ store, holds (run store).1) :
    Yields holds Unasked (storeCall call run) := by
  refine yields_of_sat fun engine => ?_
  simp only [storeCall, sat_bind, sat_get]
  split
  · exact ⟨given _, .same rfl rfl rfl rfl rfl⟩
  · exact .same rfl rfl rfl rfl rfl
  · exact .same rfl rfl rfl rfl rfl

theorem unasked_enterDisconnected : Within Unasked enterDisconnected :=
  fun _ => ⟨rfl, rfl, ⟨[], by simp, rfl⟩, nofun⟩

theorem unasked_endSubs : Within Unasked releasePendingSubscriptionRequests :=
  fun _ => sat_releasePendingSubscriptionRequests fun _ _ => .same rfl rfl rfl rfl rfl

/-- Announcing a protocol error never fails, and the connection is over. -/
theorem protocolDisconnect_over (engine : Engine) :
    Sat (protocolDisconnect 0x82) engine
      (fun _ after => Unasked engine after ∧ after.underway = false) (fun _ _ => False) := by
  have finish (between : Engine) (moved : Unasked engine between) :
      Sat (do
        enterDisconnected
        releasePendingSubscriptionRequests
        emit (.disconnected 0x82 none false) : EngineM PUnit) between
        (fun _ after => Unasked engine after ∧ after.underway = false) (fun _ _ => False) := by
    simp only [enterDisconnected, sat_bind, sat_modify]
    apply sat_releasePendingSubscriptionRequests
    intro pool subs
    rw [sat_emit]
    obtain ⟨fresh, grown, silent⟩ := moved.effects
    refine ⟨⟨moved.config, moved.challenges, ⟨fresh ++ [.disconnected 0x82 none false], ?_, ?_⟩,
      (by rintro ⟨⟩)⟩, rfl⟩
    · simp [grown]
    · simp [silent, Effect.challenge?]
  have sent (frame : Bytes) : Unasked engine
      { engine with effects := engine.effects ++ [.send (.contiguous frame)] } :=
    ⟨rfl, rfl, ⟨[.send (.contiguous frame)], rfl, rfl⟩, fun _ => ⟨rfl, rfl⟩⟩
  have silent := finish engine (Std.Refl.refl engine)
  simp only [sat_bind] at silent
  simp only [protocolDisconnect, sat_bind, sat_get, sat_onlyIf]
  refine ⟨fun five => ?_, fun _ => silent⟩
  obtain ⟨packet, encoded⟩ : ∃ packet, engine.codec.encodeDisconnect 0x82 none = .ok packet := by
    cases protocol : engine.config.protocol with
    | mqttv311 => simp [Engine.codec, protocol, bindCodec] at five
    | mqttv5 =>
      simp only [Engine.codec, protocol, bindCodec]
      exact ⟨_, rfl⟩
  have spoken := finish _ (sent packet)
  simp only [sat_bind] at spoken
  simp only [encoded, sat_fromExcept_ok, sat_tryCatch, sat_bind, checkOutboundSize, sat_get, send]
  split
  · simp only [sat_pure, sat_emit]
    exact ⟨fun _ => spoken, fun unsent => absurd trivial unsent⟩
  · simp only [sat_raiseIf, sat_pure, sat_emit]
    exact ⟨fun _ => ⟨(by rintro ⟨⟩), fun _ => silent⟩, fun _ => ⟨fun _ => spoken, fun unsent => absurd trivial unsent⟩⟩

theorem unasked_protocolDisconnect (reasonCode : Nat) :
    Within Unasked (protocolDisconnect reasonCode) := by
  intro engine
  simp only [protocolDisconnect, sat_bind, sat_get]
  apply (announces engine reasonCode).mono
  · rintro _ _ ⟨sent, rfl, spoken⟩
    simp only [enterDisconnected, sat_modify]
    apply sat_releasePendingSubscriptionRequests
    intro pool subs
    rw [sat_emit]
    refine ⟨rfl, rfl, ⟨sent ++ [.disconnected reasonCode none false], by simp, ?_⟩, nofun⟩
    rcases spoken with rfl | ⟨item, rfl, _⟩
    · rfl
    · rfl
  · rintro _ _ rfl
    exact Std.Refl.refl _

instance : Inward Unasked where
  inbound alone engine := by
    show Unasked engine _
    rw [alone engine]
    exact .same rfl rfl rfl rfl rfl
  call _ _ _ := unasked_storeCall
  deliver {effect} arrives := unasked_emit (by
    cases effect <;> first | rfl | exact arrives.elim)

instance : Acknowledging Unasked where
  acknowledge _ := unasked_emit rfl

instance : Outward Unasked where
  good := fun _ => True
  facts _ _ later := fun engine => later engine (honest_any engine) engine
  session _ _ := .same rfl rfl rfl rfl rfl
  store _ caches := unasked_storeCall_yields fun store => (caches store (honest_any_store store)).1
  assign _ _ _ := .same rfl rfl rfl rfl rfl
  subs _ := within_modify fun _ => .same rfl rfl rfl rfl rfl
  report {effect} reports := unasked_emit (by
    cases effect <;> first | rfl | exact reports.elim)

instance : Sending Unasked where
  sendable := inferInstanceAs (Sendable fun _ => True)
  send _ := unasked_emit rfl

instance : Leaving Unasked Unasked where
  leave := unasked_protocolDisconnect

end

/-! Packets -/

theorem unasked_onSuback (raw : RawPacket) : Within Unasked (onSuback raw) := by
  have checked (properties : Option Properties) :
      Ends Unasked Unasked (validateInboundProblemInformation .suback properties) :=
    beside_validateInboundProblemInformation _ _
  exact within_bind within_get fun _ => within_bind within_fromExcept fun _ =>
    within_bind (checked _) fun _ =>
    within_bind (outward_completeSubscriptionRequest _ _ _) fun _ => unasked_emit rfl

theorem unasked_onUnsuback (raw : RawPacket) : Within Unasked (onUnsuback raw) := by
  have checked (properties : Option Properties) :
      Ends Unasked Unasked (validateInboundProblemInformation .unsuback properties) :=
    beside_validateInboundProblemInformation _ _
  exact within_bind within_get fun _ => within_bind within_fromExcept fun _ =>
    within_bind (checked _) fun _ =>
    within_bind (outward_completeSubscriptionRequest _ _ _) fun _ => unasked_emit rfl

theorem unasked_onDisconnect (raw : RawPacket) : Within Unasked (onDisconnect raw) :=
  within_bind within_get fun _ => within_bind within_fromExcept fun _ =>
    within_bind unasked_enterDisconnected fun _ => within_bind unasked_endSubs fun _ =>
    within_bind (unasked_emit rfl) fun _ => within_raiseIf

/-- Every packet but AUTH and CONNACK. -/
theorem unasked_handler {state : ConnectionState} {packetType : PacketType}
    {handler : RawPacket → EngineM PUnit} (found : handlerFor state packetType = some handler)
    (accepts : packetType ≠ .connack) (asks : packetType ≠ .auth) (raw : RawPacket) :
    Within Unasked (handler raw) := by
  unfold handlerFor at found
  split at found <;> cases found
  · exact absurd rfl accepts
  · exact absurd rfl asks
  · exact (beside_handlePublish raw : Ends Unasked Unasked _)
  · exact (outward_onPuback raw : Ends Unasked Unasked _)
  · exact (outward_onPubrec raw : Ends Unasked Unasked _)
  · exact (beside_onPubrel raw : Ends Unasked Unasked _)
  · exact (outward_onPubcomp raw : Ends Unasked Unasked _)
  · exact unasked_onSuback raw
  · exact unasked_onUnsuback raw
  · exact within_bind within_raiseIf fun _ => unasked_emit rfl
  · exact unasked_onDisconnect raw
  · exact absurd rfl asks

/-! Commands -/

/-- The calls that have no part in an AUTH exchange, besides handling a packet. -/
def Protocol.Command.Apart : Command → Prop
  | .beginConnect => False
  | .handleRaw _ => False
  | .respondAuth _ _ _ => False
  | .queueAuth _ _ => False
  | .takeEffects => False
  | _ => True

theorem unasked_beginDisconnect (reasonCode : Nat) (properties : Option Properties) :
    Within Unasked (beginDisconnect reasonCode properties) :=
  within_bind within_get fun _ => within_bind within_raiseIf fun _ =>
    within_bind within_fromExcept fun _ => within_bind within_fromExcept fun _ =>
    within_bind outward_checkOutboundSize fun _ =>
    within_bind (within_modify fun _ => ⟨rfl, rfl, ⟨[], by simp, rfl⟩, nofun⟩) fun _ => within_pure _

theorem unasked_notifyTransportClosed : Within Unasked notifyTransportClosed :=
  within_bind within_get fun _ => within_bind unasked_enterDisconnected fun _ =>
    within_bind (outward_session fun _ _ member => member) fun _ =>
    within_bind beside_transportClosed fun _ => within_bind unasked_endSubs fun _ =>
    within_onlyIf (unasked_emit rfl)

theorem unasked_queuePing : Within Unasked queuePing :=
  within_bind within_get fun _ => within_bind within_raiseIf fun _ =>
    within_bind outward_checkOutboundSize fun _ => unasked_emit rfl

theorem unasked_run {command : Command} (apart : command.Apart) : Within Unasked command.run := by
  cases command with
  | queuePublish choice call => exact within_map (outward_queuePublish choice call)
  | tryDirectQos0Publish call admitted => exact outward_tryDirectQos0Publish call admitted
  | queueSubscribe choice subscriptions properties =>
    exact within_map (outward_queueSubscribe choice subscriptions properties)
  | queueUnsubscribe choice topics => exact within_map (outward_queueUnsubscribe choice topics)
  | queuePing => exact within_map unasked_queuePing
  | beginDisconnect reasonCode properties =>
    exact within_map (unasked_beginDisconnect reasonCode properties)
  | sealPublications mids => exact within_map (outward_sealPublications mids)
  | notifyTransportClosed => exact within_map unasked_notifyTransportClosed
  | continueInboundReplay => exact within_map beside_drainReplay
  | markInboundDelivered mid token => exact within_map (beside_markDelivered mid token)
  | ack mid message =>
    exact within_map (within_bind within_get fun _ => within_bind within_raiseIf fun _ =>
      beside_ack mid message)
  | _ => exact apart.elim

/-! CONNACK -/

theorem unasked_checkSessionReplayable : Within Unasked Outbound.checkSessionReplayable := by
  refine within_bind within_get fun _ => within_ite (within_pure _) <|
    outward_forEachSummary fun stored => within_bind within_get fun engine => within_onlyIf ?_
  cases Outbound.validateAgainstNegotiated engine (.summary stored) with
  | ok _ => exact within_pure _
  | error failure => exact within_ite (within_throw _) (within_throw _)

theorem unasked_outboundReplay : Within Unasked Outbound.replaySession :=
  within_bind (within_modify fun _ => .same rfl rfl rfl rfl rfl) fun _ =>
    within_bind (outward_session fun _ _ member => by simp at member) fun _ =>
    within_bind (outward_forEachSummary outward_replayMessage) fun _ => outward_drain

/-- What follows once the connection is open. -/
theorem unasked_reconcile (present : Bool) (properties : Option Properties) :
    Within Unasked (do
      updateSessionResumePreference
      let engine ← get
      if present then Outbound.replaySession
      else do
        Outbound.purgeAfterCleanSession (engine.pendingSubRequests.isEmpty = false)
        Inbound.discardSession
        Outbound.resetFlowForConnection
        Outbound.failQueuedViolatingNegotiation
      emit (.connack present 0 properties)
      onlyIf present Inbound.replaySession
      Outbound.drain : EngineM PUnit) := by
  have adopts : Within Unasked (do
      emit (.connack present 0 properties)
      onlyIf present Inbound.replaySession
      Outbound.drain : EngineM PUnit) :=
    within_bind (unasked_emit rfl) fun _ =>
      within_bind (within_onlyIf beside_replaySession) fun _ => outward_drain
  exact within_bind (within_modify fun _ => .same rfl rfl rfl rfl rfl) fun _ =>
    within_bind within_get fun _ => within_ite (within_bind unasked_outboundReplay fun _ => adopts)
      (within_bind (outward_purgeAfterCleanSession _) fun _ =>
        within_bind beside_discardSession fun _ =>
        within_bind (within_modify fun _ => .same rfl rfl rfl rfl rfl) fun _ =>
        within_bind outward_failQueuedViolatingNegotiation fun _ => adopts)

theorem unasked_negotiate (properties : Option Properties) : Within Unasked (negotiate properties) := by
  refine within_bind (within_modify fun _ => .same rfl rfl rfl rfl rfl) fun _ =>
    within_bind within_get fun engine => ?_
  cases engine.negotiated.maximumPacketSize with
  | none => exact within_pure _
  | some limit =>
    exact within_onlyIf (within_bind unasked_enterDisconnected fun _ => within_throw _)

end Mqttium
