import Mqttium.Receiving.Window

/-! Identifiers of the batch stay in use until its effects are taken away. -/

namespace Mqttium

open Codec Library Packets Persistence Protocol Inbound

/-! PUBLISH -/

/-- What a PUBLISH with QoS 1 or 2 carries, its alias resolved. -/
def readArrival (raw : RawPacket) : EngineM Arrival := do
  let engine ← get
  if engine.isV5 then do
    let fields ← fromExcept (decodePublishFieldsV5 raw)
    let (topic, properties, propertyWireSize) ←
      resolveArrival fields.topic fields.properties (fields.propertyWireSize.getD 0)
    return { topic, payload := fields.payload, mid := fields.mid, retain := fields.retain,
             dup := fields.dup, properties, propertyWireSize }
  else do
    let fields ← fromExcept (decodeQos12FieldsV311 raw)
    return { topic := fields.topic, payload := fields.payload, mid := fields.mid,
             retain := fields.retain, dup := fields.dup, properties := none, propertyWireSize := none }

/-- The PUBLISH asks for an acknowledgement. -/
def Packets.RawPacket.Acked (raw : RawPacket) : Prop := raw.qosBits = 1 ∨ raw.qosBits = 2

section

variable {owning : Nat → InboundQoSState → Prop} {holding full : Prop} {engine : Engine}
  {raw : RawPacket}

theorem handlePublish_eq (acked : raw.Acked) :
    handlePublish raw = readArrival raw >>= dispatchQos raw.qosBits := by
  have plain : raw.qosBits ≠ 0 := by
    rcases acked with once | twice <;> omega
  have fine : raw.qosBits ≠ 3 := by
    rcases acked with once | twice <;> omega
  simp only [handlePublish, readArrival, onPublishV5, onPublishV311, plain, fine, ↓reduceIte,
    bind_assoc]
  congr 1
  funext engine
  split
  · simp only [bind_assoc, pure_bind]
  · simp only [bind_assoc, pure_bind]

theorem hands_resolveTopicFields (topic : Text) (properties : Option Properties) :
    Within (Hands owning holding full) (resolveTopicFields topic properties) := by
  refine within_bind within_get fun engine => ?_
  cases properties.bind (·.int? .topicAlias) with
  | none => exact within_ite (hands_refusing 0x82 _ (by decide)) (within_pure _)
  | some number =>
    refine within_ite (hands_refusing 0x94 _ (by decide)) <| within_ite
      (within_bind (hands_modifyInbound fun _ => rfl) fun _ => within_pure _) ?_
    cases engine.inbound.aliases.get? number.toNat with
    | some known => exact within_pure _
    | none => exact hands_refusing 0x94 _ (by decide)

theorem hands_resolveArrival (topic : Text) (properties : Option Properties) (wireSize : Nat) :
    Within (Hands owning holding full) (resolveArrival topic properties wireSize) :=
  within_ite (within_bind (hands_resolveTopicFields _ _) fun _ => within_pure _) (within_pure _)

theorem hands_aliased (aliases : Dict Nat Text) :
    Hands owning holding full engine (engine.aliased aliases) :=
  .silent rfl rfl rfl rfl

theorem sat_readArrival :
    Sat (readArrival raw) engine
      (fun arrival after => (∃ aliases, after = engine.aliased aliases) ∧
        publishMid engine raw = some arrival.mid)
      (fun _ after => Hands owning holding full engine after ∧ Parts engine after) := by
  have same : Hands owning holding full engine engine ∧ Parts engine engine :=
    ⟨Std.Refl.refl engine, parts_refl engine⟩
  rw [readArrival, sat_bind, sat_get, sat_ite]
  refine ⟨fun v5 => ?_, fun v311 => ?_⟩
  · rw [sat_bind, sat_fromExcept]
    refine ⟨fun fields decoded => ?_, fun _ _ => same⟩
    have moves : Within (Hands owning holding full) (resolveArrival fields.topic fields.properties
      (fields.propertyWireSize.getD 0)) := hands_resolveArrival _ _ _
    rw [sat_bind]
    apply ((resolveArrival_sat engine _ _ _).and (moves engine)).mono
    · rintro ⟨topic, properties, propertyWireSize⟩ _ ⟨⟨aliases, rfl⟩, _⟩
      refine ⟨⟨aliases, rfl⟩, ?_⟩
      simp [publishMid, v5, decoded, Except.toOption]
    · rintro _ _ ⟨parts, hands⟩
      exact ⟨hands, parts⟩
  · rw [sat_bind, sat_fromExcept]
    refine ⟨fun fields decoded => ⟨⟨engine.inbound.aliases, rfl⟩, ?_⟩, fun _ _ => same⟩
    simp [publishMid, v311, decoded, Except.toOption]

/-- A PUBLISH that asks for no acknowledgement. -/
theorem hands_handlePublish_plain (plain : ¬ raw.Acked) :
    Within (Hands owning holding full) (handlePublish raw) := by
  have bits : raw.qosBits = 0 ∨ raw.qosBits = 3 := by
    have bounded : raw.qosBits < 4 := Nat.mod_lt _ (by decide)
    unfold RawPacket.Acked at plain
    omega
  have delivers (message : Message) : Within (Hands owning holding full)
      (emit (.message message false none)) := hands_emit nofun
  refine within_bind within_get fun engine => within_ite ?_ ?_
  · rcases bits with zero | three
    · rw [onPublishV5, if_pos zero]
      exact within_bind within_fromExcept fun _ => within_bind (hands_resolveArrival _ _ _) fun _ =>
        hands_emitDelivery _ _ _ _
    · rw [onPublishV5, if_neg (by omega), if_pos three]
      exact within_throw _
  · rcases bits with zero | three
    · rw [onPublishV311, if_pos zero]
      exact within_bind within_fromExcept fun _ => delivers _
    · rw [onPublishV311, if_neg (by omega), if_pos three]
      exact within_throw _

/-- A PUBLISH is refused for Receive Maximum only where the window is full. -/
theorem sat_handlePublish (poised : engine.inbound.receiveMaximum ≤ inflight engine.inbound → full) :
    Sat (handlePublish raw) engine (fun _ => Passes full engine) (fun _ => Passes full engine) := by
  by_cases acked : raw.Acked
  · rw [handlePublish_eq acked, sat_bind]
    apply (@sat_readArrival phased True full engine raw).mono
    · rintro arrival _ ⟨⟨aliases, rfl⟩, _⟩
      have dispatches := @sat_dispatchQos full (engine.aliased aliases) raw.qosBits arrival poised
      apply dispatches.mono
      · rintro _ _ ⟨owning, owns, moved⟩
        exact ⟨owning, owns, IsTrans.trans _ _ _ (hands_aliased aliases) moved⟩
      · rintro _ _ ⟨owning, owns, moved⟩
        exact ⟨owning, owns, IsTrans.trans _ _ _ (hands_aliased aliases) moved⟩
    · exact fun _ _ ⟨moved, _⟩ => moved.passes
  · have delivers : Within (Hands phased True full) (handlePublish raw) :=
      hands_handlePublish_plain acked
    exact (delivers engine).mono (fun _ _ moved => moved.passes) fun _ _ moved => moved.passes

end

/-! PUBREL, delivery marks and acknowledgements -/

/-- What raises is no error of the peer, or keeps the QoS 2 exchanges. -/
def Spared (before : Engine) (failure : Failure) (after : Engine) : Prop :=
  Hands (fun _ _ => False) True True before after ∧
    (isPeerError failure = true → Hands phased True True before after)

/-- A program that keeps the QoS 2 exchanges, unless it fails by itself. -/
def Sparing {Value : Type} (program : EngineM Value) : Prop :=
  ∀ engine, Sat program engine (fun _ => Hands phased True True engine) (Spared engine)

section

variable {Value Result : Type} {program : EngineM Value}

theorem Library.Within.sparing (within : Within (Hands phased True True) program) :
    Sparing program :=
  fun engine => (within engine).mono (fun _ _ moved => moved) fun _ _ moved =>
    ⟨moved.lift, fun _ => moved⟩

theorem sparing_bind {next : Value → EngineM Result} (first : Within (Hands phased True True) program)
    (later : ∀ value, Sparing (next value)) : Sparing (program >>= next) := by
  intro engine
  rw [sat_bind]
  apply (first engine).mono
  · intro value between moved
    apply (later value between).mono
    · exact fun _ _ more => IsTrans.trans _ _ _ moved more
    · exact fun _ _ ⟨more, peer⟩ => ⟨IsTrans.trans _ _ _ moved.lift more, fun error =>
        IsTrans.trans _ _ _ moved (peer error)⟩
  · exact fun _ _ moved => ⟨moved.lift, fun _ => moved⟩

theorem sparing_ite {condition : Prop} [Decidable condition] {other : EngineM Value}
    (yes : Sparing program) (no : Sparing other) :
    Sparing (if condition then program else other) := by
  split
  · exact yes
  · exact no

end

theorem sparing_completeQos2 (mid : Nat) (state : InboundQoSState) (action : String) :
    Sparing (completeQos2 mid state action) := by
  intro engine
  have completes : Ends (Hands phased True True) (Hands (fun _ _ => False) True True)
      (completeQos2 mid state action) := ends_completeQos2 mid state action
  apply ((completes engine).and (local_completeQos2 mid state action)).mono
  · exact fun _ _ ⟨moved, _⟩ => moved
  · exact fun _ _ ⟨moved, home⟩ => ⟨moved, fun peer => by simp [home] at peer⟩

theorem sparing_onPubrelStored (mid : Nat) (record : InboundRecordMeta) :
    Sparing (onPubrelStored mid record) := by
  have waits : Within (Hands phased True True) (modifyInbound fun inbound =>
      { inbound with pendingCompletions := inbound.pendingCompletions.insert mid record.state }) :=
    hands_modifyInbound fun _ => rfl
  refine sparing_bind within_get fun engine => sparing_ite (within_pure PUnit.unit).sparing <|
    sparing_ite (within_throw _).sparing <| sparing_ite (Within.sparing ?_) <|
    sparing_ite waits.sparing (sparing_completeQos2 mid record.state "completing PUBREL")
  refine within_bind (hands_transitionRow mid (by simp [phased])) fun changed => ?_
  cases changed with
  | none => exact within_throw _
  | some record => exact within_pure _

theorem sparing_onPubrel (raw : RawPacket) : Sparing (onPubrel raw) := by
  have validates (properties : Option Properties) : Within (Hands phased True True)
      (Outbound.validateAckProperties .pubrel properties) := beside_validateAckProperties _ _
  refine sparing_bind within_get fun engine => sparing_bind within_fromExcept fun decoded =>
    sparing_bind (validates _) fun _ => sparing_bind (hands_lookupStoredInbound _) fun record => ?_
  cases record with
  | none => exact (hands_sendAck _).sparing
  | some record => exact sparing_onPubrelStored _ record

theorem sparing_markDelivered (mid : Nat) (token : Option Token) :
    Sparing (markDelivered mid token) := by
  have idle : ¬ phased mid .waitPuback := fun waits => waits rfl
  refine sparing_bind within_get fun engine => sparing_ite (within_pure _).sparing <|
    sparing_bind (hands_modifyInbound fun _ => rfl) fun _ => ?_
  cases engine.inbound.pendingCompletions.get? mid with
  | none => exact (within_onlyIf (hands_markRowDelivered mid)).sparing
  | some state =>
    cases state with
    | waitPuback => exact (hands_completeQos1 idle).sparing
    | _ => exact sparing_completeQos2 mid _ _

theorem sparing_ack (mid : Nat) (message : Option Message) : Sparing (Inbound.ack mid message) := by
  have idle (mid : Nat) : ¬ phased mid .waitPuback := fun waits => waits rfl
  have sizes (frame : Bytes) : Within (Hands phased True True) (checkOutboundSize (.contiguous frame)) :=
    beside_checkOutboundSize
  refine sparing_bind within_get fun engine => sparing_bind within_raiseIf fun _ =>
    sparing_bind within_raiseIf fun _ => sparing_bind (hands_lookupStoredInbound mid) fun record => ?_
  cases record with
  | none => exact (within_throw _).sparing
  | some record =>
    cases state : record.state with
    | waitPubrel =>
      simp only [state]
      refine sparing_bind (hands_transitionRow mid nofun) fun changed => ?_
      cases changed with
      | none => exact (within_throw _).sparing
      | some record => exact (within_pure _).sparing
    | waitPuback =>
      simp only [state]
      exact sparing_bind (sizes _) fun _ => sparing_bind (hands_modifyInbound fun _ => rfl) fun _ =>
        (hands_drainManualQos1Acks idle).sparing
    | waitUserAck =>
      simp only [state]
      exact sparing_bind (sizes _) fun _ => sparing_completeQos2 mid _ _
    | done =>
      simp only [state]
      exact (within_throw _).sparing

/-! Replay and the start of a connection -/

section

variable {owning : Nat → InboundQoSState → Prop} {holding full : Prop}

theorem hands_nextPage (groups : List (List Nat)) :
    Within (Hands owning holding full) (nextPage groups) := by
  induction groups with
  | nil => exact within_pure _
  | cons mids rest ih =>
    refine within_bind hands_storeRead fun page => ?_
    cases page with
    | nil => exact ih
    | cons row rows => exact within_pure _

theorem hands_beginPage (cursor : InboundReplayCursor) :
    Within (Hands owning holding full) (beginPage cursor) := by
  refine within_ite (within_pure _) <| within_bind (hands_modifyInbound fun _ => rfl) fun _ =>
    within_bind (hands_nextPage _) fun page => ?_
  cases page with
  | none => exact within_pure _
  | some page => exact within_pure _

theorem hands_replayFor (fuel : Nat) (cursor : InboundReplayCursor) (emitted bytes : Nat) :
    Within (Hands owning holding full) (replayFor fuel cursor emitted bytes) := by
  induction fuel generalizing cursor emitted bytes with
  | zero => exact within_pure _
  | succ fuel ih =>
    refine within_ite (within_pure _) ?_
    cases nextPageMessage cursor with
    | mk found rest =>
      cases found with
      | none => exact within_pure _
      | some row =>
        exact within_bind within_get fun _ => within_ite (ih _ _ _) <| within_ite (within_pure _) <|
          within_bind (hands_emitMessage row.message true) fun _ => ih _ _ _

theorem hands_drainReplay : Within (Hands owning holding full) drainReplay := by
  refine within_bind within_get fun engine => ?_
  cases engine.inbound.replay with
  | none => exact within_pure _
  | some cursor =>
    have ends : Within (Hands owning holding full) endReplay := hands_modifyInbound fun _ => rfl
    refine within_bind (hands_beginPage cursor) fun begun => within_ite ?_ ends
    exact within_bind (hands_replayFor _ _ _ _) fun _ =>
      within_bind (hands_modifyInbound fun _ => rfl) fun _ =>
      within_ite ends (hands_emit nofun)

end

/-- What only keeps the books right. -/
abbrev Books : Engine → Engine → Prop := Hands (fun _ _ => False) False True

section

variable {engine : Engine}

theorem Books.of_handed {after : Engine} (config : after.config = engine.config)
    (handed : Handed engine → Handed after)
    (effects : after.effects = engine.effects) : Books engine after :=
  ⟨config, handed, fun impossible => impossible.elim, fun impossible => impossible.elim,
    [], by simp [effects], by simp⟩

/-- Nothing of the batch owns a slot. -/
theorem Balanced.idle {limit : Nat} {inbound : InboundSession}
    (auto : inbound.pendingAutoQos1Mids = ∅) (slots : inbound.pendingPubcompSlots = 0)
    (flag : inbound.autoackHandoffRequired = false) (announced : inbound.receiveMaximum = limit) :
    Balanced limit inbound where
  slots _ := slots
  room := .inr (.inl ⟨auto, slots⟩)
  raised flagged := by
    rw [flag] at flagged
    cases flagged
  announced := announced

theorem Handed.idle {after : Engine} (auto : after.inbound.pendingAutoQos1Mids = ∅)
    (pubcomps : after.inbound.pendingPubcomps = ∅) (slots : after.inbound.pendingPubcompSlots = 0)
    (flag : after.inbound.autoackHandoffRequired = false)
    (announced : after.inbound.receiveMaximum = after.config.maxInboundInflight) : Handed after :=
  ⟨.idle auto slots flag announced, fun mid member => by simp [pubcomps] at member⟩

theorem Balanced.release {limit : Nat} {inbound : InboundSession} (balanced : Balanced limit inbound) :
    (if inbound.pendingPubcomps = ∅ then inbound.pendingPubcompSlots else 0) = 0 := by
  split
  · rename_i none
    exact balanced.slots none
  · rfl

theorem books_transportClosed : Within Books transportClosed := by
  intro engine
  simp only [transportClosed, releasePendingAcks, sat_bind, sat_modifyInbound]
  exact .of_handed rfl (fun handed => .idle rfl rfl handed.balanced.release rfl handed.balanced.announced) rfl

theorem books_discardSession : Within Books discardSession := by
  intro engine
  have clears : Within Books (storeCall .clearIn fun store => (PUnit.unit, store.clearIn)) := by
    have yields : Yields (fun _ => True) Books
        (storeCall .clearIn fun store => (PUnit.unit, store.clearIn)) :=
      hands_storeCall (fun _ => trivial) fun _ _ => ⟨fun _ _ _ => rfl, fun _ ⟨_, _, impossible⟩ =>
        impossible.elim⟩
    exact yields.within
  rw [discardSession, sat_bind]
  apply (clears engine).mono
  · intro _ between cleared
    rw [sat_modifyInbound]
    refine IsTrans.trans _ _ _ cleared (.of_handed rfl (fun handed => ?_) rfl)
    exact .idle rfl rfl rfl rfl handed.balanced.announced
  · exact fun _ _ cleared => cleared

theorem Balanced.clear {limit : Nat} {inbound : InboundSession} (balanced : Balanced limit inbound) :
    Balanced limit { inbound with currentPersistedMids := ∅ } where
  slots := balanced.slots
  room := by
    rcases balanced.room with flagged | idle | room
    · exact .inl flagged
    · exact .inr (.inl idle)
    · right
      right
      simp only [inflight, Finset.card_empty] at room ⊢
      omega
  raised := balanced.raised
  announced := balanced.announced

theorem books_replaySession : Within Books replaySession := by
  have clears : Within Books (modifyInbound fun inbound =>
      { inbound with currentPersistedMids := ∅ }) :=
    fun engine => .rebalance (fun _ balanced => balanced.clear) rfl
  exact within_bind hands_storeRead fun _ => within_bind clears fun _ =>
    within_ite (hands_modifyInbound fun _ => rfl) <| within_bind within_get fun _ =>
    within_bind (hands_modifyInbound fun _ => rfl) fun _ => hands_drainReplay

instance : Accepting Books where
  own config inbound store _ effects := within_modify fun engine => .silent (config engine)
    (by rw [store]) (by rw [inbound]) (effects engine)
  announce _ := hands_announce _
  discards := books_discardSession
  replays := books_replaySession

end

/-! Packets -/

section

variable {owning : Nat → InboundQoSState → Prop} {holding full : Prop} {before engine : Engine}
  {raw : RawPacket}

theorem Hands.books {after : Engine} (moved : Hands owning holding full before after) :
    Books before after :=
  { moved with
    owned := fun impossible => impossible.elim
    held := fun impossible => impossible.elim
    effects := moved.effects.imp fun _ ⟨grown, _⟩ => ⟨grown, fun _ => trivial⟩ }

theorem Passes.lasts {after : Engine} (passes : Passes full before after) :
    Hands (fun _ _ => False) True full before after := by
  obtain ⟨owning, _, moved⟩ := passes
  exact moved.lift

/-- An effect that tells the owner of a failure may follow. -/
theorem Passes.emit {after : Engine} (passes : Passes full before after) (failure : Failure) :
    Passes full before { after with effects := after.effects ++ [.protocolError failure] } := by
  obtain ⟨owning, owns, moved⟩ := passes
  have tells : Hands owning True full after
      { after with effects := after.effects ++ [.protocolError failure] } :=
    .quiet rfl rfl rfl ⟨_, rfl, fun member => absurd (List.mem_singleton.mp member) nofun⟩
  exact ⟨owning, owns, IsTrans.trans _ _ _ moved tells⟩

/-- What a packet does whether or not its handling ends in an error of the peer. -/
theorem handleRaw_sat {post : Engine → Prop} {raised : Failure → Engine → Prop} (same : post engine)
    (told : ∀ failure after, post after →
      post { after with effects := after.effects ++ [.protocolError failure] })
    (dispatched : Sat (dispatch raw) engine (fun _ => post)
      fun failure after => raised failure after ∧ (isPeerError failure = true → post after)) :
    Sat (handleRaw raw) engine (fun _ => post) raised := by
  rw [handleRaw, sat_bind, sat_get, sat_ite]
  refine ⟨fun _ => same, fun _ => ?_⟩
  rw [sat_bind, sat_catching]
  apply dispatched.mono
  · exact fun _ _ done => done
  · rintro failure after ⟨raised, peer⟩
    exact ⟨fun error => told failure after (peer error), fun _ => raised⟩

theorem dispatch_sat {returned : PUnit → Engine → Prop} {raised : Failure → Engine → Prop}
    (same : ∀ failure, raised failure engine)
    (handled : ∀ handler, handlerFor engine.state raw.packetType = some handler →
      Sat (handler raw) engine returned raised) : Sat (dispatch raw) engine returned raised := by
  rw [dispatch, sat_bind, sat_fromExcept]
  refine ⟨fun _ _ => ?_, fun failure _ => same failure⟩
  rw [sat_bind, sat_get]
  cases found : handlerFor engine.state raw.packetType with
  | none => exact same _
  | some handler => exact handled handler found

theorem passes_refl (engine : Engine) : Passes full engine engine :=
  ⟨phased, fun _ _ other => other, Std.Refl.refl engine⟩

/-- A PUBLISH is refused for Receive Maximum only where the window is full. -/
theorem passes_handleRaw_publish (publish : raw.packetType = .publish)
    (poised : engine.inbound.receiveMaximum ≤ inflight engine.inbound → full) :
    Sat (handleRaw raw) engine (fun _ => Passes full engine) (fun _ => Passes full engine) := by
  apply handleRaw_sat (passes_refl engine) fun failure _ passes => passes.emit failure
  apply dispatch_sat
  · exact fun _ => ⟨passes_refl engine, fun _ => passes_refl engine⟩
  · intro handler found
    obtain ⟨_, rfl⟩ := handler_publish found publish
    exact (sat_handlePublish poised).mono (fun _ _ passes => passes) fun _ _ passes =>
      ⟨passes, fun _ => passes⟩

/-- The QoS 2 exchanges stay, unless the handling of the packet fails by itself. -/
theorem passes_handleRaw (unopened : raw.packetType = .connack → engine.state ≠ .connecting) :
    Sat (handleRaw raw) engine (fun _ => Passes True engine)
      (fun _ => Hands (fun _ _ => False) True True engine) := by
  apply handleRaw_sat (passes_refl engine) fun failure _ passes => passes.emit failure
  apply dispatch_sat
  · exact fun _ => ⟨Std.Refl.refl engine, fun _ => passes_refl engine⟩
  · intro handler found
    by_cases publish : raw.packetType = .publish
    · obtain ⟨_, rfl⟩ := handler_publish found publish
      exact (sat_handlePublish fun _ => trivial).mono (fun _ _ passes => passes)
        fun _ _ passes => ⟨passes.lasts, fun _ => passes⟩
    · by_cases accepts : raw.packetType = .connack
      · exact absurd (handler_connack found accepts).1 (unopened accepts)
      · by_cases releases : raw.packetType = .pubrel
        · obtain ⟨_, rfl⟩ := handler_pubrel found releases
          exact (sparing_onPubrel raw engine).mono (fun _ _ moved => moved.passes)
            (by rintro _ _ ⟨lasts, peer⟩; exact ⟨lasts, fun error => (peer error).passes⟩)
        · have moves : Within (Hands phased True True) (handler raw) :=
            outward_handler (Hands phased True True) found accepts publish releases raw
          exact (moves engine).mono (fun _ _ moved => moved.passes)
            fun _ _ moved => ⟨moved.lift, fun _ => moved.passes⟩

theorem books_handleRaw (raw : RawPacket) : Within Books (handleRaw raw) := by
  intro engine
  by_cases opens : raw.packetType = .connack ∧ engine.state = .connecting
  · have told (failure : Failure) (after : Engine) (moved : Books engine after) :
        Books engine { after with effects := after.effects ++ [.protocolError failure] } :=
      IsTrans.trans _ _ _ moved (hands_announce (.protocolError failure) after)
    apply handleRaw_sat (Std.Refl.refl engine) told
    apply dispatch_sat
    · exact fun _ => ⟨Std.Refl.refl engine, fun _ => Std.Refl.refl engine⟩
    · intro handler found
      have handled : handler = onConnack := by
        rw [opens.1, opens.2] at found
        cases found
        rfl
      subst handled
      have accepts : Within Books (onConnack raw) := accepts_onConnack raw
      exact (accepts engine).mono (fun _ _ moved => moved) fun _ _ moved => ⟨moved, fun _ => moved⟩
  · have unopened : raw.packetType = .connack → engine.state ≠ .connecting :=
      fun accepts opening => opens ⟨accepts, opening⟩
    exact (passes_handleRaw unopened).mono (fun _ _ passes => passes.lasts.books)
      fun _ _ moved => moved.books

end

/-! Calls -/

/-- The call neither takes the effects away nor starts, opens or closes the connection. -/
def Protocol.Command.Continues (engine : Engine) : Command → Prop
  | .beginConnect => False
  | .notifyTransportClosed => False
  | .takeEffects => False
  | .handleRaw raw => raw.packetType = .connack → engine.state ≠ .connecting
  | _ => True

section

variable {engine : Engine} {command : Command}

theorem passes_run (continues : command.Continues engine) :
    Sat command.run engine (fun _ => Passes True engine)
      (fun _ => Hands (fun _ _ => False) True True engine) := by
  have sparing {Value : Type} {program : EngineM Value} {change : Value → Option WriteItem}
      (spares : Sparing program) : Sat (change <$> program) engine (fun _ => Passes True engine)
        (fun _ => Hands (fun _ _ => False) True True engine) := by
    rw [sat_map]
    exact (spares engine).mono (fun _ _ moved => moved.passes) fun _ _ spared => spared.1
  have outgoing (outgoing : command.Outgoing) : Sat command.run engine (fun _ => Passes True engine)
      (fun _ => Hands (fun _ _ => False) True True engine) := by
    have moves : Within (Hands phased True True) command.run := outward_run outgoing
    exact (moves engine).mono (fun _ _ moved => moved.passes) fun _ _ moved => moved.lift
  cases command with
  | beginConnect => exact continues.elim
  | notifyTransportClosed => exact continues.elim
  | takeEffects => exact continues.elim
  | handleRaw raw =>
    simp only [Command.run, sat_map]
    exact passes_handleRaw continues
  | continueInboundReplay => exact sparing hands_drainReplay.sparing
  | markInboundDelivered mid token => exact sparing (sparing_markDelivered mid token)
  | ack mid message =>
    exact sparing (sparing_bind within_get fun _ => sparing_bind within_raiseIf fun _ =>
      sparing_ack mid message)
  | _ => exact outgoing trivial

theorem books_beginConnect : Within Books beginConnect := by
  intro engine
  have same : Books engine engine := Std.Refl.refl engine
  simp only [beginConnect, startConnection, sat_bind, sat_get, sat_raiseIf, sat_fromExcept, sat_modify,
    sat_modifyInbound, sat_pure]
  exact ⟨fun _ => same, fun _ => ⟨fun _ _ => .of_handed rfl (fun _ => .idle rfl rfl rfl rfl rfl) rfl,
    fun _ _ => same⟩⟩

theorem books_notifyTransportClosed : Within Books notifyTransportClosed :=
  within_bind within_get fun _ => within_bind beside_enterDisconnected fun _ =>
    within_bind (outward_session fun _ _ member => member) fun _ =>
    within_bind books_transportClosed fun _ => within_bind Standby.endSubs fun _ =>
    within_onlyIf (hands_announce _)

/-- Whatever a call does, the configuration stays and the window is kept. -/
structure Retains (before after : Engine) : Prop where
  config : after.config = before.config
  handed : Handed before → Handed after

theorem Hands.retains {owning : Nat → InboundQoSState → Prop} {holding full : Prop} {after : Engine}
    (moved : Hands owning holding full engine after) : Retains engine after :=
  ⟨moved.config, moved.handed⟩

theorem retains_takeEffects : Within Retains takeEffects := by
  intro engine
  simp only [takeEffects, releasePendingAcks, sat_bind, sat_get, sat_modify, sat_onlyIf, sat_pure,
    sat_modifyInbound]
  refine ⟨fun _ => ⟨rfl, fun handed => ?_⟩, fun _ => ⟨rfl, fun handed => { handed with }⟩⟩
  exact .idle rfl rfl handed.balanced.release rfl handed.balanced.announced

theorem retains_run (command : Command) : Within Retains command.run := by
  intro engine
  have books {Value : Type} {program : EngineM Value} {change : Value → Option WriteItem}
      (books : Within Books program) :
      Sat (change <$> program) engine (fun _ => Retains engine) (fun _ => Retains engine) := by
    rw [sat_map]
    exact (books engine).mono (fun _ _ moved => moved.retains) fun _ _ moved => moved.retains
  by_cases continues : command.Continues engine
  · exact (passes_run continues).mono (fun _ _ passes => passes.lasts.retains)
      fun _ _ lasts => lasts.retains
  · cases command with
    | beginConnect => exact books books_beginConnect
    | notifyTransportClosed => exact books books_notifyTransportClosed
    | takeEffects =>
      simp only [Command.run, sat_map]
      exact retains_takeEffects engine
    | handleRaw raw => exact books (books_handleRaw raw)
    | _ => exact absurd trivial continues

end

/-! Runs -/

theorem handed_of_run {config : EngineConfig} {store : Store} {created : Engine}
    (begun : Engine.create config store = .ok created) (commands : List Command) :
    Handed (Protocol.Session.run ⟨created, []⟩ commands).engine := by
  obtain ⟨recovered, _, hydrated⟩ := create_ok begun
  have hydrates : Within Books Outbound.hydrate := outward_hydrate
  have fresh : Handed (Engine.started config store recovered) := .idle rfl rfl rfl rfl rfl
  have start : Handed created := ((hydrates _).ok hydrated).handed fresh
  exact @Protocol.Session.run_induction (fun session => Handed session.engine) ⟨created, []⟩ start
    (fun _ command handed => Protocol.Session.step_sat
      ((retains_run command _).mono (fun _ _ moved => moved.handed handed)
        fun _ _ moved => moved.handed handed)) commands

theorem config_of_run {config : EngineConfig} {store : Store} {created : Engine}
    (begun : Engine.create config store = .ok created) (commands : List Command) :
    (Protocol.Session.run ⟨created, []⟩ commands).engine.config = config := by
  obtain ⟨recovered, _, hydrated⟩ := create_ok begun
  have hydrates : Within Books Outbound.hydrate := outward_hydrate
  have start : created.config = config := ((hydrates _).ok hydrated).config
  exact @Protocol.Session.run_induction (fun session => session.engine.config = config)
    ⟨created, []⟩ start (fun _ command same => Protocol.Session.step_sat
      ((retains_run command _).mono (fun _ _ moved => moved.config.trans same)
        fun _ _ moved => moved.config.trans same)) commands

end Mqttium
