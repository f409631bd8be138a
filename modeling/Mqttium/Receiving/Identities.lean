import Mqttium.Receiving.Commands
import Mqttium.Receiving.Reuse

/-! In either acknowledgement mode every call moves the exchanges by starting, naming and
finishing them. -/

namespace Mqttium

open Codec Library Packets Persistence Protocol Inbound

section

variable {engine : Engine} {mid : Nat} {row : InRow}

/-! Automatic acknowledgement -/

theorem settles_completeQos1 (kept : engine.kept) (auto : engine.config.manualAck = false)
    (mid : Nat) : Settles Drifts (completeQos1 mid) engine := by
  apply (completeQos1_sat kept mid).mono
  · rintro _ _ ⟨row, faults, inbound, found, _, fine, rfl, frees⟩
    exact frees.drifts kept found fine auto
  · exact fun _ _ failed => failed.1.keeps kept

theorem settles_markDelivered (kept : engine.kept) (mid : Nat) (token : Option Token) :
    Settles Drifts (markDelivered mid token) engine := by
  by_cases manual : engine.config.manualAck = true
  · exact settles_markDelivered_manual kept manual mid token
  · have auto : engine.config.manualAck = false := by simpa using manual
    have sheds := sheds_completion engine.inbound mid
    have still : Engine.kept { engine with inbound := { engine.inbound with
        pendingCompletions := engine.inbound.pendingCompletions.erase mid } } :=
      Kept.sheds kept sheds
    have moved : Drifts engine { engine with inbound := { engine.inbound with
        pendingCompletions := engine.inbound.pendingCompletions.erase mid } } := sheds.drifts
    simp only [markDelivered, Settles, sat_bind, sat_get, sat_ite, sat_modifyInbound]
    refine ⟨fun _ => ⟨kept, Std.Refl.refl _⟩, fun _ => ?_⟩
    cases engine.inbound.pendingCompletions.get? mid with
    | none =>
      have marks : Within (Keeps Drifts) (markRowDelivered mid) := keeps_markRowDelivered mid
      simp only [sat_onlyIf]
      exact ⟨fun _ => (marks.settles still).from moved, fun _ => ⟨still, moved⟩⟩
    | some waiting =>
      by_cases waits : waiting = .waitPuback
      · subst waits
        exact (settles_completeQos1 still auto mid).from moved
      · have completes : Within (Keeps Drifts) (completeQos2 mid waiting) :=
          keeps_completeQos2 waits _
        cases waiting with
        | waitPuback => exact absurd rfl waits
        | _ => exact (completes.settles still).from moved

/-- The engine with another handoff flag and another set of identifiers in it. -/
theorem sheds_handoff (inbound : InboundSession) (flag : Bool) (pending : Finset Nat) :
    Sheds inbound { inbound with autoackHandoffRequired := flag, pendingAutoQos1Mids := pending } :=
  ⟨rfl, rfl, rfl, rfl, rfl, fun _ => id, fun _ => id, fun _ => id⟩

theorem settles_acquireSlot (kept : engine.kept) : Settles Drifts (acquireSlot none) engine := by
  apply (acquireSlot_sat engine none).mono
  · rintro _ _ ⟨flag, rfl⟩
    have sheds := sheds_handoff engine.inbound flag engine.inbound.pendingAutoQos1Mids
    exact ⟨Kept.sheds kept sheds, sheds.drifts⟩
  · exact fun _ _ parts => parts.toApart.keeps kept

/-- The row of a recovered exchange leaves with its PUBACK. -/
theorem settles_retire (kept : engine.kept) (auto : engine.config.manualAck = false) (mid : Nat) :
    Settles Drifts (do
      let occupied ← acquireSlot
      let size ← completeStoredInbound mid .waitPuback "acknowledging"
      forgetInbound
      sendAck (encodePubackSuccess mid)
      releasePendingBytes size
      modifyInbound fun inbound =>
        { inbound with
          pendingAutoQos1Mids := insert mid inbound.pendingAutoQos1Mids
          autoackHandoffRequired := inbound.autoackHandoffRequired ||
            decide (inbound.receiveMaximum ≤ occupied) }) engine := by
  simp only [Settles, sat_bind]
  apply (acquireSlot_sat engine none).mono
  · rintro occupied _ ⟨flag, rfl⟩
    have sheds := sheds_handoff engine.inbound flag engine.inbound.pendingAutoQos1Mids
    have still : Engine.kept { engine with inbound := { engine.inbound with
        autoackHandoffRequired := flag, pendingBytes := engine.inbound.pendingBytes + 0 } } :=
      Kept.sheds kept sheds
    have moved : Drifts engine { engine with inbound := { engine.inbound with
        autoackHandoffRequired := flag, pendingBytes := engine.inbound.pendingBytes + 0 } } :=
      sheds.drifts
    apply (completeStoredInbound_sat still mid .waitPuback "acknowledging").mono
    · rintro _ _ ⟨row, faults, found, _, rfl, fine, rfl⟩
      have found : engine.store.inbound.get? mid = some row := found
      have counted : engine.inbound.storedInbound ≠ 0 := by
        rw [kept.count, Dict.size]
        exact (List.length_pos_of_mem (Dict.get?_eq_some_iff.mp found)).ne'
      have positive := kept.sized found
      have paid := Dict.le_sumBy (fun (_ : Nat) (row : InRow) => row.message.logicalSize) found
      rw [← kept.bytes] at paid
      simp only [forgetInbound, sendAck, releasePendingBytes, sat_bind, sat_get, sat_raiseIf,
        sat_modifyInbound, sat_emit]
      refine ⟨fun none => absurd none counted, fun _ => ⟨fun short => ?_, fun _ => ?_⟩⟩
      · rcases short with zero | less
        · omega
        · have less : engine.inbound.pendingBytes + 0 < row.message.logicalSize := less
          omega
      · have frees : Frees mid row.message.logicalSize engine.inbound { engine.inbound with
            storedInbound := engine.inbound.storedInbound - 1
            pendingBytes := engine.inbound.pendingBytes + 0 - row.message.logicalSize
            exchangeTokens := engine.inbound.exchangeTokens.erase mid
            pendingCompletions := engine.inbound.pendingCompletions.erase mid
            pendingAutoQos1Mids := insert mid engine.inbound.pendingAutoQos1Mids
            autoackHandoffRequired := flag || decide (engine.inbound.receiveMaximum ≤ occupied) } :=
          ⟨rfl, rfl, rfl, rfl, fun _ => id, rfl, rfl, rfl⟩
        exact frees.drifts kept found fine auto
    · exact fun _ _ failed => ⟨failed.1.apart.kept still,
        moved.trans (failed.1.keeps still).2⟩
  · exact fun _ _ parts => parts.toApart.keeps kept

theorem settles_completeRecoveredQos1Auto (kept : engine.kept)
    (auto : engine.config.manualAck = false) (mid : Nat) :
    Settles Drifts (completeRecoveredQos1Auto mid) engine := by
  rw [completeRecoveredQos1Auto, Settles, sat_bind, sat_get, sat_ite]
  refine ⟨fun _ => ⟨kept, Std.Refl.refl _⟩, fun _ => ?_⟩
  refine settles_lookup kept ?_ ?_
  · intro _ between scripted still
    exact settles_retire still (by rw [scripted.config, auto]) mid
  · intro row found between scripted still
    have auto : between.config.manualAck = false := by rw [scripted.config, auto]
    rw [Settles, sat_ite]
    refine ⟨fun _ => ?_, fun _ => settles_retire still auto mid⟩
    rw [sat_bind]
    apply (holdSlot_sat between mid).mono
    · rintro _ _ ⟨flag, rfl⟩
      have held : Engine.kept { between with inbound := { between.inbound with
          autoackHandoffRequired := flag
          currentPersistedMids := insert mid between.inbound.currentPersistedMids } } :=
        { still with }
      have moved : Drifts between { between with inbound := { between.inbound with
          autoackHandoffRequired := flag
          currentPersistedMids := insert mid between.inbound.currentPersistedMids } } :=
        ⟨rfl, .refl, id⟩
      exact Settles.from (settles_await held auto ((scripted.found mid).trans found)) moved
    · exact fun _ _ parts => parts.toApart.keeps still

theorem keeps_onQos1AutoFresh (arrival : Arrival) :
    Within (Keeps Drifts) (onQos1AutoFresh arrival) := by
  have tells (occupied : Nat) (again : Bool) : Within (Keeps Drifts) (do
      sendAck (encodePubackSuccess arrival.mid)
      emitDelivery (arrival.message .atLeastOnce) false arrival.propertyWireSize none
      onlyIf (again = false) (modifyInbound fun inbound =>
        { inbound with
          pendingAutoQos1Mids := insert arrival.mid inbound.pendingAutoQos1Mids
          autoackHandoffRequired := inbound.autoackHandoffRequired ||
            decide (inbound.receiveMaximum ≤ occupied) })) :=
    within_bind (keeps_emit _) fun _ => within_bind (keeps_emitDelivery _ _ _ _) fun _ =>
      within_onlyIf (keeps_give fun inbound => sheds_handoff inbound _ _)
  refine within_bind within_get fun engine => within_ite (beside_disconnecting _ _) ?_
  by_cases again : arrival.mid ∈ engine.inbound.pendingAutoQos1Mids
  · simp only [again, decide_true, ↓reduceIte]
    exact within_bind (within_pure 0) fun occupied => tells occupied _
  · simp only [again, decide_false, Bool.false_eq_true, ↓reduceIte]
    have slot : Within (Keeps Drifts) (acquireSlot none) :=
      keeps_of_settles fun _ kept => settles_acquireSlot kept
    exact within_bind slot fun occupied => tells occupied _

theorem settles_onQos1Auto (kept : engine.kept) (auto : engine.config.manualAck = false)
    (arrival : Arrival) : Settles Drifts (onQos1Auto arrival) engine := by
  refine settles_lookup kept ?_ ?_
  · exact fun _ between _ still => (keeps_onQos1AutoFresh arrival).settles still
  · intro row _ between scripted still
    have reject : Within (Keeps Drifts)
        (rejectPacketIdCollision arrival.mid "QoS 1" "QoS 2" : EngineM PUnit) :=
      beside_disconnecting _ _
    rw [Settles, sat_ite]
    exact ⟨fun _ => settles_completeRecoveredQos1Auto still (by rw [scripted.config, auto]) _,
      fun _ => reject.settles still⟩

/-! Packets and calls in either mode -/

theorem settles_dispatchQos (kept : engine.kept) (qosBits : Nat) (arrival : Arrival) :
    Settles Drifts (dispatchQos qosBits arrival) engine := by
  have exactly : Within (Keeps Drifts) (onQos2 arrival) := keeps_onQos2 arrival
  rw [dispatchQos, Settles, sat_ite]
  refine ⟨fun _ => ?_, fun _ => exactly.settles kept⟩
  rw [onQos1, sat_bind, sat_get, sat_ite]
  refine ⟨fun manual => ?_, fun other => settles_onQos1Auto kept (by simpa using other) arrival⟩
  apply (onQos1Manual_sat kept manual arrival).mono
  · rintro _ _ ⟨left, _, turns⟩
    exact ⟨left, turns.toDrifts⟩
  · rintro _ _ ⟨left, _, turns⟩
    exact ⟨left, turns.toDrifts⟩

theorem settles_handlePublish (kept : engine.kept) (raw : RawPacket) :
    Settles Drifts (handlePublish raw) engine := by
  apply handlePublish_sat
  · exact fun _ parts => parts.toApart.keeps kept
  · exact fun _ _ _ _ => ⟨{ kept with }, rfl, .refl, id⟩
  · intro aliases arrival _
    have still : (engine.aliased aliases).kept := { kept with }
    have moved : Drifts engine (engine.aliased aliases) := ⟨rfl, .refl, id⟩
    exact (settles_dispatchQos still _ arrival).from moved

theorem keeps_handler {packetType : PacketType} {handler : RawPacket → EngineM PUnit}
    {state : ConnectionState} (found : handlerFor state packetType = some handler)
    (raw : RawPacket) : Within (Keeps Drifts) (handler raw) := by
  by_cases opens : packetType = .connack
  · obtain ⟨_, rfl⟩ := handler_connack found opens
    exact accepts_onConnack raw
  · by_cases publish : packetType = .publish
    · obtain ⟨_, rfl⟩ := handler_publish found publish
      exact keeps_of_settles fun _ kept => settles_handlePublish kept raw
    · by_cases releases : packetType = .pubrel
      · obtain ⟨_, rfl⟩ := handler_pubrel found releases
        exact keeps_onPubrel raw
      · exact outward_handler (Keeps Drifts) found opens publish releases raw

theorem settles_handleRaw (kept : engine.kept) (raw : RawPacket) :
    Settles Drifts (handleRaw raw) engine := by
  have same : engine.kept ∧ Drifts engine engine := ⟨kept, Std.Refl.refl _⟩
  apply handleRaw_sat same
  · rintro failure after ⟨left, moved⟩
    exact ⟨{ left with }, moved.trans ⟨rfl, .refl, id⟩⟩
  · apply dispatch_sat
    · exact fun _ => ⟨same, fun _ => same⟩
    · intro handler found
      exact ((keeps_handler found raw).settles kept).mono (fun _ _ done => done)
        fun _ _ done => ⟨done, fun _ => done⟩

/-- An acknowledgement that the store interrupts has ended a prefix of the ready exchanges. -/
theorem settles_acceptance (kept : engine.kept) (manual : engine.config.manualAck = true)
    (waits : mid ∈ engine.store.waiting.map Prod.fst) :
    Settles Drifts (do
      checkOutboundSize (.contiguous (encodePubackSuccess mid))
      modifyInbound fun inbound =>
        { inbound with pendingManualQos1Acks := insert mid inbound.pendingManualQos1Acks }
      drainManualQos1Acks) engine := by
  have accepted : (engine.accepting mid).kept := accepting_kept kept manual waits
  have moved : Drifts engine (engine.accepting mid) := ⟨rfl, .refl, id⟩
  rw [Settles, sat_bind]
  refine sat_checkOutboundSize ?_ fun _ => ⟨kept, Std.Refl.refl _⟩
  rw [sat_bind, sat_modifyInbound]
  apply (drainManualQos1Acks_sat accepted manual).mono
  · rintro _ _ ⟨left, _, drained⟩
    exact ⟨left, moved.trans drained.toDrifts⟩
  · rintro _ _ ⟨⟨left, _, drained⟩, _⟩
    exact ⟨left, moved.trans drained.toDrifts⟩

theorem settles_ack (kept : engine.kept) (mid : Nat) (message : Option Message) :
    Settles Drifts (Protocol.ack mid message) engine := by
  have same : engine.kept ∧ Drifts engine engine := ⟨kept, Std.Refl.refl _⟩
  simp only [Protocol.ack, Inbound.ack, Settles, sat_bind, sat_get, sat_raiseIf]
  refine ⟨fun _ => same, fun _ => ⟨fun _ => same, fun manual => ⟨fun _ => same, fun _ => ?_⟩⟩⟩
  have manual : engine.config.manualAck = true := by simpa using manual
  rw [← sat_bind]
  refine settles_lookup kept ?_ ?_
  · intro _ between _ still
    exact ⟨still, Std.Refl.refl between⟩
  · intro row found between scripted still
    have same : between.config.manualAck = true := by rw [scripted.config, manual]
    have present := (scripted.found mid).trans found
    cases phase : row.message.state with
    | waitPubrel =>
      simp only [Store.metaOf, phase]
      have marks : Within (Keeps Drifts) (transitionRow mid .waitPubrel .waitPubrel (some true)) :=
        keeps_transitionRow (some true) (by simp) (by simp)
      refine Within.settles (within_bind marks fun changed => ?_) still
      cases changed with
      | some _ => exact within_pure _
      | none => exact within_throw _
    | waitPuback =>
      simp only [Store.metaOf, phase]
      exact settles_acceptance still same (mem_waiting_mids.mpr ⟨row, present, phase⟩)
    | waitUserAck =>
      simp only [Store.metaOf, phase]
      have completes : Within (Keeps Drifts) (completeQos2 mid .waitUserAck "acknowledging") :=
        keeps_completeQos2 (by simp) _
      exact Within.settles (within_bind beside_checkOutboundSize fun _ => completes) still
    | done =>
      simp only [Store.metaOf, phase]
      exact ⟨still, Std.Refl.refl between⟩

theorem keeps_takeEffects : Within (Keeps Drifts) takeEffects :=
  within_bind within_get fun _ =>
    within_bind (keeps_apart (fun _ => rfl) (fun _ => rfl) fun _ => rfl) fun _ =>
    within_bind (within_onlyIf keeps_releasePendingAcks) fun _ => within_pure _

theorem settles_run (kept : engine.kept) (command : Command) :
    Settles Drifts command.run engine := by
  have called {Value : Type} {program : EngineM Value} {change : Value → Option WriteItem}
      (settles : Settles Drifts program engine) : Settles Drifts (change <$> program) engine := by
    rw [Settles, sat_map]
    exact settles
  have outgoing (outgoing : command.Outgoing) : Settles Drifts command.run engine := by
    have keeps : Within (Keeps Drifts) command.run := outward_run outgoing
    exact keeps.settles kept
  cases command with
  | beginConnect => exact called (keeps_beginConnect.settles kept)
  | notifyTransportClosed => exact called (keeps_notifyTransportClosed.settles kept)
  | handleRaw raw => exact called (settles_handleRaw kept raw)
  | continueInboundReplay => exact called (keeps_drainReplay.settles kept)
  | markInboundDelivered mid token => exact called (settles_markDelivered kept mid token)
  | ack mid message => exact called (settles_ack kept mid message)
  | takeEffects => exact called (keeps_takeEffects.settles kept)
  | _ => exact outgoing trivial

/-! Runs -/

theorem Protocol.Session.step_drifts {session : Protocol.Session} (kept : session.engine.kept)
    (command : Command) :
    (session.step command).engine.kept ∧ Drifts session.engine (session.step command).engine :=
  @Protocol.Session.step_sat session command
    (fun after => after.kept ∧ Drifts session.engine after) (settles_run kept command)

theorem Protocol.Session.run_drifts {session : Protocol.Session} (kept : session.engine.kept)
    (commands : List Command) :
    (session.run commands).engine.kept ∧ Drifts session.engine (session.run commands).engine := by
  induction commands using List.reverseRecOn with
  | nil => exact ⟨kept, Std.Refl.refl _⟩
  | append_singleton commands command ih =>
    obtain ⟨still, moved⟩ := ih
    obtain ⟨next, more⟩ := Protocol.Session.step_drifts still command
    rw [Protocol.Session.run_concat]
    exact ⟨next, moved.trans more⟩

end

end Mqttium
