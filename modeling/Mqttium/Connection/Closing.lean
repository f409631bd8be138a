import Mqttium.Connection.Outward
import Mqttium.Refinement.Launching

/-! The end of a connection. A call that meets a live connection gives out at most
one DISCONNECT, as its last frame and only when the connection is over after it. -/

namespace Mqttium

open Codec Library Packets Persistence Protocol

abbrev KeepsOpen (item : WriteItem) : Prop := ¬ IsDisconnect item

/-- A step that keeps and sends good frames only. -/
abbrev Sends (good : WriteItem → Prop) : Engine → Engine → Prop :=
  Guarded (Honest good) (Adds good)

/-- A step that sends no DISCONNECT. -/
abbrev Steady : Engine → Engine → Prop := Sends KeepsOpen

section

variable {before after : Engine}

theorem Honest.same {good : WriteItem → Prop} (honest : Honest good before)
    (rows : after.store.out = before.store.out)
    (queued : after.outbound.queued = before.outbound.queued) : Honest good after := by
  refine ⟨?_, ?_⟩
  · unfold Store.Caches
    rw [rows]
    exact honest.rows
  · rw [queued]
    exact honest.queue

theorem sends_same {good : WriteItem → Prop} (rows : after.store.out = before.store.out)
    (queued : after.outbound.queued = before.outbound.queued)
    (adds : Adds good before after) : Sends good before after :=
  fun honest => ⟨honest.same rows queued, adds⟩

theorem Quiet.sends {shows : Effect → Prop} {good : WriteItem → Prop}
    (quiet : Quiet shows before after)
    (fine : ∀ effect, shows effect → ∀ item, effect.frame? = some item → good item) :
    Sends good before after := by
  refine sends_same quiet.rows (by rw [quiet.outbound]) ?_
  obtain ⟨fresh, grown, shown⟩ := quiet.effects
  exact ⟨fresh, grown, fun effect member => fine effect (shown effect member)⟩

theorem Quiet.steady (quiet : Quiet Effect.Plain before after) : Steady before after :=
  quiet.sends fun _ plain _ shown => plain.stays shown

theorem Protocol.Effect.Unsent.frame {effect : Effect} (unsent : effect.Unsent) :
    effect.frame? = none := by
  cases effect <;> first | rfl | exact unsent.elim

/-- A call of the store whose answer is known and that keeps the cached frames good. -/
theorem yields_storeCall {good : WriteItem → Prop} {moves : Engine → Engine → Prop}
    [IsPreorder Engine moves] {Value : Type} {call : StoreCall} {run : Store → Value × Store}
    {holds : Value → Prop} (moved : ∀ (engine : Engine) store, moves engine { engine with store })
    (caches : ∀ store : Store, store.Caches good → holds (run store).1 ∧ (run store).2.Caches good) :
    Yields holds (Guarded (Honest good) moves) (storeCall call run) := by
  refine yields_guarded fun engine honest => ?_
  have consumed : (engine.store.nextFault call).2.Caches good := by
    unfold Store.nextFault
    split <;> exact honest.rows
  have ran := caches _ consumed
  simp only [storeCall, sat_bind, sat_get]
  split
  · rename_i found
    rw [found] at ran
    exact ⟨ran.1, ⟨ran.2, honest.queue⟩, moved _ _⟩
  · rename_i found
    rw [found] at consumed
    exact ⟨⟨consumed, honest.queue⟩, moved _ _⟩
  · rename_i found
    rw [found] at ran
    exact ⟨⟨ran.2, honest.queue⟩, moved _ _⟩

/-- Freeing the identifiers of subscription requests changes nothing else. -/
theorem sat_releasePendingSubscriptionRequests {engine : Engine}
    {returned : PUnit → Engine → Prop} {raised : Failure → Engine → Prop}
    (done : ∀ pool subs, returned ⟨⟩
      { engine with
        outbound := { engine.outbound with packetIds := pool }
        pendingSubRequests := subs }) :
    Sat releasePendingSubscriptionRequests engine returned raised := by
  simp only [releasePendingSubscriptionRequests, sat_bind, sat_get, sat_onlyIf, sat_ite,
    sat_modifyOutbound, sat_modify]
  exact ⟨fun _ => ⟨fun _ => done _ _, fun _ => done _ _⟩, fun _ => done engine.outbound.packetIds _⟩

end

instance (good : WriteItem → Prop) : Onlooker (Sends good) where
  unsent still := still.quiet.sends fun _ unsent _ shown => by simp [unsent.frame] at shown
  store call run apart := by
    have yields : Yields (fun _ => True) (Sends good) (storeCall call run) :=
      yields_storeCall (fun _ _ => adds_nothing rfl) fun store own => ⟨trivial, by
        unfold Store.Caches
        rw [apart.rows store]
        exact own⟩
    exact yields.within
  endSubs _ := sat_releasePendingSubscriptionRequests fun _ _ =>
    sends_same rfl rfl (adds_nothing rfl)

instance : Bystander Steady where
  still still := still.quiet.steady

instance (good : WriteItem → Prop) : Heedless (Sends good) where
  quiet quiet := quiet.sends fun _ unsent _ shown => by simp [unsent.frame] at shown

section

variable (good : WriteItem → Prop)

theorem sends_emit {effect : Effect}
    (fine : ∀ item, effect.frame? = some item → good item) :
    Within (Sends good) (emit effect) :=
  fun _ => sends_same rfl rfl ⟨[effect], rfl, by simpa using fine⟩

instance : Outward (Sends good) where
  good := good
  facts := yields_guarded_get
  session kept _ := fun honest => ⟨⟨honest.rows, kept _ honest.queue⟩, adds_nothing rfl⟩
  store _ caches := yields_storeCall (fun _ _ => adds_nothing rfl) caches
  assign _ caches _ := fun honest => ⟨⟨caches _ honest.rows, honest.queue⟩, adds_nothing rfl⟩
  subs _ := within_modify fun _ => sends_same rfl rfl (adds_nothing rfl)
  report {effect} reports := sends_emit good fun item shown => by
    cases effect <;> first | exact reports.elim | cases shown

instance [Sendable good] : Sending (Sends good) where
  sendable := inferInstanceAs (Sendable good)
  send {item} fine := sends_emit good fun other shown => by
    cases shown
    exact fine

instance [Sendable good] : Speaking (Sends good) where
  speak {item} coded := sends_emit good fun other shown => by
    cases shown
    rcases coded with ping | auth
    · exact sendable_of_code ping (by decide) (by decide)
    · exact sendable_of_code auth (by decide) (by decide)

instance [Sendable good] : Answering (Sends good) where
  answer {frame} coded := sends_emit good fun other shown => by
    cases shown
    rcases coded with received | completed
    · exact sendable_of_code received (by decide) (by decide)
    · exact sendable_of_code completed (by decide) (by decide)

end

/-! The last frame -/

/-- No frame is a DISCONNECT, but perhaps the last one, and then the connection is over. -/
def Closes (ceased : Prop) (frames : List WriteItem) : Prop :=
  ∃ early last, frames = early ++ last ∧ (∀ item ∈ early, KeepsOpen item) ∧
    (last = [] ∨ ceased ∧ ∃ item, last = [item] ∧ IsDisconnect item)

theorem closes_open {ceased : Prop} {frames : List WriteItem}
    (stays : ∀ item ∈ frames, KeepsOpen item) : Closes ceased frames :=
  ⟨frames, [], by simp, stays, .inl rfl⟩

theorem Closes.prepend {ceased : Prop} {first frames : List WriteItem}
    (stays : ∀ item ∈ first, KeepsOpen item) (closes : Closes ceased frames) :
    Closes ceased (first ++ frames) := by
  obtain ⟨early, last, rfl, open_, ending⟩ := closes
  refine ⟨first ++ early, last, by simp, ?_, ending⟩
  intro item member
  rcases List.mem_append.mp member with old | new
  · exact stays item old
  · exact open_ item new

/-- The effects grow by frames of which only the last may be a DISCONNECT. -/
def Concludes (before after : Engine) : Prop :=
  ∃ fresh, after.effects = before.effects ++ fresh ∧
    Closes after.ceased (fresh.filterMap Effect.frame?)

/-- A step that may end the connection. -/
abbrev Ended : Engine → Engine → Prop := Guarded (Honest KeepsOpen) Concludes

theorem frames_allowed {allowed : WriteItem → Prop} {fresh : List Effect}
    (fine : ∀ effect ∈ fresh, ∀ item, effect.frame? = some item → allowed item) :
    ∀ item ∈ fresh.filterMap Effect.frame?, allowed item := by
  intro item member
  obtain ⟨effect, inside, shown⟩ := List.mem_filterMap.mp member
  exact fine effect inside item shown

theorem Adds.concludes {before after : Engine} (adds : Adds KeepsOpen before after) :
    Concludes before after := by
  obtain ⟨fresh, grown, fine⟩ := adds
  exact ⟨fresh, grown, closes_open (frames_allowed fine)⟩

theorem Adds.then_concludes {before between after : Engine} (adds : Adds KeepsOpen before between)
    (concludes : Concludes between after) : Concludes before after := by
  obtain ⟨first, grown, fine⟩ := adds
  obtain ⟨second, more, closes⟩ := concludes
  refine ⟨first ++ second, by rw [more, grown, List.append_assoc], ?_⟩
  rw [List.filterMap_append]
  exact closes.prepend (frames_allowed fine)

instance : Ending Steady Ended where
  lift moved honest := ⟨(moved honest).1, (moved honest).2.concludes⟩
  after first second honest :=
    have between := first honest
    have ended := second between.1
    ⟨ended.1, between.2.then_concludes ended.2⟩

/-- The announcement: one DISCONNECT, or none where the version or a limit forbids it. -/
theorem announces (engine : Engine) (reasonCode : Nat) :
    Sat (onlyIf engine.codec.isMqtt5 do
        let packet ← fromExcept (engine.codec.encodeDisconnect reasonCode none)
        let fits ← tryCatch (do checkOutboundSize (.contiguous packet); return true) fun failure =>
          match failure with
          | .packetTooLarge _ => return false
          | other => throw other
        onlyIf fits (send (.contiguous packet)) : EngineM PUnit) engine
      (fun _ after => ∃ sent, after = { engine with effects := engine.effects ++ sent } ∧
        (sent = [] ∨ ∃ item, sent = [.send item] ∧ IsDisconnect item))
      (fun _ after => after = engine) := by
  have silent : ∃ sent : List Effect, engine = { engine with effects := engine.effects ++ sent } ∧
      (sent = [] ∨ ∃ item, sent = [.send item] ∧ IsDisconnect item) := ⟨[], by simp, .inl rfl⟩
  simp only [sat_onlyIf, sat_bind, sat_fromExcept, sat_tryCatch]
  refine ⟨fun _ => ⟨fun packet encoded => ?_, fun _ _ => trivial⟩, fun _ => silent⟩
  have spoken : Sat (send (.contiguous packet)) engine (fun _ after => ∃ sent,
      after = { engine with effects := engine.effects ++ sent } ∧
        (sent = [] ∨ ∃ item, sent = [.send item] ∧ IsDisconnect item)) (fun _ after => after = engine) :=
    ⟨[.send (.contiguous packet)], rfl, .inr ⟨_, rfl, frameCode_encodeDisconnect encoded⟩⟩
  apply sat_checkOutboundSize
  · simpa using spoken
  · intro failure
    cases failure with
    | packetTooLarge _ => simpa using silent
    | _ => rfl

theorem ended_protocolDisconnect (reasonCode : Nat) :
    Within Ended (protocolDisconnect reasonCode) := by
  intro engine
  have same : Ended engine engine := fun honest => ⟨honest, (adds_nothing rfl).concludes⟩
  simp only [protocolDisconnect, sat_bind, sat_get]
  apply (announces engine reasonCode).mono
  · rintro _ _ ⟨sent, rfl, spoken⟩
    simp only [enterDisconnected, sat_modify]
    apply sat_releasePendingSubscriptionRequests
    intro pool subs
    rw [sat_emit]
    refine fun honest => ⟨honest.same rfl rfl, ?_⟩
    rcases spoken with rfl | ⟨item, rfl, closing⟩
    · exact Adds.concludes ⟨[.disconnected reasonCode none false], by simp, by simp [Effect.frame?]⟩
    · exact ⟨[.send item, .disconnected reasonCode none false], by simp, [], [item], rfl, by simp,
        .inr ⟨.inr rfl, item, rfl, closing⟩⟩
  · rintro _ _ rfl
    exact same

instance : Parting Steady Ended where
  goodbye := ended_protocolDisconnect

/-! Packets -/

section

variable {relation final : Engine → Engine → Prop} [Sending relation] [Leaving relation final]

theorem outward_onPuback (raw : RawPacket) : Ends relation final (Outbound.onPuback raw) :=
  ends_bind within_get.ends fun _ => ends_bind within_fromExcept.ends fun _ =>
    ends_bind (beside_validateAckProperties _ _) fun _ => (outward_finish _ _ _).ends

theorem outward_onPubrec (raw : RawPacket) : Ends relation final (Outbound.onPubrec raw) :=
  ends_bind within_get.ends fun _ => ends_bind within_fromExcept.ends fun _ =>
    ends_bind (beside_validateAckProperties _ _) fun _ => ends_ite (outward_finish _ _ _).ends <|
    ends_bind within_get.ends fun _ =>
      ends_ite (outward_refusePubrec _).ends (outward_advanceOnPubrec _).ends

theorem outward_onPubcomp (raw : RawPacket) : Ends relation final (Outbound.onPubcomp raw) :=
  ends_bind within_get.ends fun _ => ends_bind within_fromExcept.ends fun _ =>
    ends_bind (beside_validateAckProperties _ _) fun _ => (outward_finish _ _ _).ends

end

section

variable {relation final : Engine → Engine → Prop} [Sending relation] [Parting relation final]

theorem outward_onSuback (raw : RawPacket) : Ends relation final (onSuback raw) :=
  ends_bind within_get.ends fun _ => ends_bind within_fromExcept.ends fun _ =>
    ends_bind (beside_validateInboundProblemInformation _ _) fun _ =>
    ends_bind (outward_completeSubscriptionRequest _ _ _).ends fun _ =>
    Within.ends (beside_announce trivial)

theorem outward_onUnsuback (raw : RawPacket) : Ends relation final (onUnsuback raw) :=
  ends_bind within_get.ends fun _ => ends_bind within_fromExcept.ends fun _ =>
    ends_bind (beside_validateInboundProblemInformation _ _) fun _ =>
    ends_bind (outward_completeSubscriptionRequest _ _ _).ends fun _ =>
    Within.ends (beside_announce trivial)

section

variable {state : ConnectionState} {packetType : PacketType} {handler : RawPacket → EngineM PUnit}

theorem handler_connack (found : handlerFor state packetType = some handler)
    (accepts : packetType = .connack) : state = .connecting ∧ handler = onConnack := by
  subst accepts
  cases state <;> simp_all [handlerFor]

theorem handler_publish (found : handlerFor state packetType = some handler)
    (delivers : packetType = .publish) : state = .connected ∧ handler = Inbound.handlePublish := by
  subst delivers
  cases state <;> simp_all [handlerFor]

theorem handler_pubrel (found : handlerFor state packetType = some handler)
    (releases : packetType = .pubrel) : state = .connected ∧ handler = Inbound.onPubrel := by
  subst releases
  cases state <;> simp_all [handlerFor]

end

/-- Every packet but those of the inbound direction and the CONNACK. -/
theorem outward_handler (relation : Engine → Engine → Prop) [Sending relation]
    [Parting relation final] {state : ConnectionState} {packetType : PacketType}
    {handler : RawPacket → EngineM PUnit} (found : handlerFor state packetType = some handler)
    (accepts : packetType ≠ .connack) (delivers : packetType ≠ .publish)
    (releases : packetType ≠ .pubrel) (raw : RawPacket) : Within final (handler raw) := by
  unfold handlerFor at found
  split at found <;> cases found
  · exact absurd rfl accepts
  · exact beside_onAuth relation raw
  · exact absurd rfl delivers
  · exact ends_last relation (outward_onPuback raw)
  · exact ends_last relation (outward_onPubrec raw)
  · exact absurd rfl releases
  · exact ends_last relation (outward_onPubcomp raw)
  · exact ends_last relation (outward_onSuback raw)
  · exact ends_last relation (outward_onUnsuback raw)
  · exact ends_last relation (beside_onPingresp raw).ends
  · exact ends_last relation (beside_onDisconnect raw).ends
  · exact beside_onAuth relation raw

end

/-! CONNACK -/

/-- A relation that also holds of what only the start of a session does. -/
class Accepting (relation : Engine → Engine → Prop) extends Sending relation, Standby relation where
  /-- The connection's own fields. -/
  own : ∀ {change : Engine → Engine}, (∀ engine, (change engine).config = engine.config) →
    (∀ engine, (change engine).inbound = engine.inbound) →
    (∀ engine, (change engine).store = engine.store) →
    (∀ engine, (change engine).outbound.queued = engine.outbound.queued) →
    (∀ engine, (change engine).effects = engine.effects) →
    Within relation (modify change : EngineM PUnit)
  announce : ∀ {effect : Effect}, effect.frame? = none → Within relation (emit effect)
  discards : Within relation Inbound.discardSession
  replays : Within relation Inbound.replaySession

section

variable {relation final : Engine → Engine → Prop} [Accepting relation] [Parting relation final]

theorem accepts_resetFlowForConnection : Within relation Outbound.resetFlowForConnection :=
  Accepting.own (fun _ => rfl) (fun _ => rfl) (fun _ => rfl) (fun _ => rfl) fun _ => rfl

theorem accepts_replaySession : Within relation Outbound.replaySession :=
  within_bind accepts_resetFlowForConnection fun _ =>
    within_bind (outward_session fun _ _ member => by simp at member) fun _ =>
    within_bind (outward_forEachSummary outward_replayMessage) fun _ => outward_drain

theorem accepts_reconcileSession (present : Bool) (properties : Option Properties) :
    Within relation (reconcileSession present properties) := by
  have adopts : Within relation (do
      emit (.connack present 0 properties)
      onlyIf present Inbound.replaySession
      Outbound.drain) :=
    within_bind (Accepting.announce rfl) fun _ =>
      within_bind (within_onlyIf Accepting.replays) fun _ => outward_drain
  exact within_bind (Accepting.own (fun _ => rfl) (fun _ => rfl) (fun _ => rfl) (fun _ => rfl)
      fun _ => rfl) fun _ =>
    within_bind (Accepting.own (fun _ => rfl) (fun _ => rfl) (fun _ => rfl) (fun _ => rfl)
      fun _ => rfl) fun _ =>
    within_bind within_get fun _ => within_ite (within_bind accepts_replaySession fun _ => adopts)
      (within_bind (outward_purgeAfterCleanSession _) fun _ =>
        within_bind Accepting.discards fun _ =>
        within_bind accepts_resetFlowForConnection fun _ =>
        within_bind outward_failQueuedViolatingNegotiation fun _ => adopts)

theorem accepts_negotiate (properties : Option Properties) : Within relation (negotiate properties) := by
  refine within_bind (Accepting.own (fun _ => rfl) (fun _ => rfl) (fun _ => rfl) (fun _ => rfl)
    fun _ => rfl) fun _ => within_bind within_get fun engine => ?_
  cases engine.negotiated.maximumPacketSize with
  | none => exact within_pure _
  | some limit =>
    exact within_onlyIf (within_bind beside_enterDisconnected fun _ => within_throw _)

/-- The resumed session can be sent again under the new limits. -/
theorem within_replayable {relation : Engine → Engine → Prop} [Standby relation] :
    Within relation (tryCatch Outbound.checkSessionReplayable fun failure =>
      match failure with
      | .sessionReplay _ => do
        enterDisconnected
        throw failure
      | _ => throw failure) := by
  refine within_tryCatch beside_checkSessionReplayable fun failure => ?_
  cases failure with
  | sessionReplay _ => exact within_bind beside_enterDisconnected fun _ => within_throw _
  | _ => exact within_throw _

theorem accepts_acceptConnack (present : Bool) (properties : Option Properties) :
    Ends relation final (acceptConnack present properties) := by
  have checks : Within relation (tryCatch Outbound.checkSessionReplayable _) := within_replayable
  exact ends_bind (beside_validateAcceptedConnack _ _) fun _ =>
    (within_bind (accepts_negotiate _) fun _ => within_bind (within_onlyIf checks) fun _ =>
      accepts_reconcileSession _ _).ends

theorem accepts_onConnack (raw : RawPacket) : Ends relation final (onConnack raw) := by
  have refused (present : Bool) (reasonCode : Nat) (properties : Option Properties) :
      Within relation (do
        enterDisconnected
        emit (.connack present reasonCode properties)
        emit (.disconnected reasonCode properties true)) :=
    within_bind beside_enterDisconnected fun _ =>
      within_bind (Accepting.announce rfl) fun _ => Accepting.announce rfl
  exact ends_bind within_get.ends fun _ => ends_bind within_raiseIf.ends fun _ =>
    ends_bind within_fromExcept.ends fun _ =>
    ends_bind (ends_onlyIf (beside_validateConnackV5 _ _)) fun _ =>
    ends_ite (refused _ _ _).ends (accepts_acceptConnack _ _)

end

instance (good : WriteItem → Prop) [Sendable good] : Accepting (Sends good) where
  own _ _ store queued effects := within_modify fun engine =>
    sends_same (by rw [store]) (queued engine) (adds_nothing (effects engine))
  announce silent := within_modify fun _ =>
    sends_same rfl rfl ⟨[_], rfl, by simp [silent]⟩
  discards := beside_discardSession
  replays := beside_replaySession

theorem ended_dispatch (raw : RawPacket) : Within Ended (dispatch raw) := by
  refine ends_then Steady within_fromExcept.ends fun _ =>
    ends_then Steady within_get.ends fun engine => ?_
  cases found : handlerFor engine.state raw.packetType with
  | none => exact ends_last Steady (within_throw _).ends
  | some handler =>
    by_cases inward : raw.packetType = .connack ∨ raw.packetType = .publish ∨
        raw.packetType = .pubrel
    · unfold handlerFor at found
      split at found <;> cases found <;> simp_all
      · exact ends_last Steady (accepts_onConnack raw)
      · exact ends_last Steady (beside_handlePublish raw)
      · exact ends_last Steady (beside_onPubrel raw)
    · simp only [not_or] at inward
      exact outward_handler Steady found inward.1 inward.2.1 inward.2.2 raw

/-- An effect that sends nothing may still follow. -/
theorem Concludes.emit {before after : Engine} (concludes : Concludes before after)
    {effect : Effect} (silent : effect.frame? = none) :
    Concludes before { after with effects := after.effects ++ [effect] } := by
  obtain ⟨fresh, grown, closes⟩ := concludes
  have same : (fresh ++ [effect]).filterMap Effect.frame? = fresh.filterMap Effect.frame? := by
    simp [silent]
  exact ⟨fresh ++ [effect], by simp [grown], same ▸ closes⟩

theorem ended_handleRaw (raw : RawPacket) : Within Ended (handleRaw raw) := by
  refine ends_then Steady within_get.ends fun engine =>
    within_ite (ends_last Steady (within_pure _).ends) fun before => ?_
  rw [sat_bind, sat_catching]
  apply (ended_dispatch raw before).mono
  · exact fun _ _ done => done
  · intro failure after done
    refine ⟨fun _ => ?_, fun _ => done⟩
    exact fun honest => ⟨⟨(done honest).1.rows, (done honest).1.queue⟩, (done honest).2.emit rfl⟩

/-! Calls -/

/-- The calls of the outbound direction and of the connection alone. -/
def Protocol.Command.Outgoing : Command → Prop
  | .queuePublish _ _ => True
  | .tryDirectQos0Publish _ _ => True
  | .queueSubscribe _ _ _ => True
  | .queueUnsubscribe _ _ => True
  | .queuePing => True
  | .beginDisconnect _ _ => True
  | .sealPublications _ => True
  | .respondAuth _ _ _ => True
  | .queueAuth _ _ => True
  | _ => False

section

variable {relation : Engine → Engine → Prop} [Sending relation]

theorem outward_tryDirectQos0Publish (call : Outbound.PublishCall) (admitted : Bool) :
    Within relation (tryDirectQos0Publish call admitted) := by
  have prepares : Within relation (Outbound.prepareQos0 call) :=
    within_bind within_get fun _ => within_bind within_fromExcept fun _ =>
      within_bind within_fromExcept fun _ => within_bind within_fromExcept fun _ =>
      within_bind within_raiseIf fun _ => within_bind within_raiseIf fun _ =>
      within_bind within_fromExcept fun _ => within_bind within_fromExcept fun _ =>
      within_bind outward_checkOutboundSize fun _ => within_pure _
  exact within_bind within_get fun _ => within_ite (within_pure _) <|
    within_bind prepares fun _ => within_ite
      (within_bind (within_onlyIf (outward_commitTopicAlias _ _)) fun _ => within_pure _)
      (within_pure _)

theorem outward_run [Speaking relation] {command : Command} (outgoing : command.Outgoing) :
    Within relation command.run := by
  cases command with
  | queuePublish choice call => exact within_map (outward_queuePublish choice call)
  | tryDirectQos0Publish call admitted => exact outward_tryDirectQos0Publish call admitted
  | queueSubscribe choice subscriptions properties =>
    exact within_map (outward_queueSubscribe choice subscriptions properties)
  | queueUnsubscribe choice topics => exact within_map (outward_queueUnsubscribe choice topics)
  | queuePing => exact within_map beside_queuePing
  | beginDisconnect reasonCode properties =>
    exact within_map (beside_beginDisconnect reasonCode properties)
  | sealPublications mids => exact within_map (outward_sealPublications mids)
  | respondAuth challenge reasonCode properties =>
    exact within_map (beside_respondAuth challenge reasonCode properties)
  | queueAuth reasonCode properties => exact within_map (beside_queueAuth reasonCode properties)
  | _ => exact outgoing.elim

end

/-- Every call but handling a packet and taking the effects away. -/
theorem steady_run (command : Command) (takes : command ≠ .takeEffects)
    (handles : ∀ raw, command ≠ .handleRaw raw) : Within Steady command.run := by
  cases command with
  | handleRaw raw => exact absurd rfl (handles raw)
  | takeEffects => exact absurd rfl takes
  | beginConnect => exact within_map heedless_beginConnect
  | notifyTransportClosed => exact within_map heedless_notifyTransportClosed
  | continueInboundReplay => exact within_map beside_drainReplay
  | markInboundDelivered mid token => exact within_map (beside_markDelivered mid token)
  | ack mid message =>
    exact within_map (within_bind within_get fun _ => within_bind within_raiseIf fun _ =>
      beside_ack mid message)
  | _ => exact outward_run trivial

end Mqttium
