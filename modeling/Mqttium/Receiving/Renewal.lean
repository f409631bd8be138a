import Mqttium.Receiving.Redelivery
import Mqttium.Receiving.Reuse

/-! An identifier of the batch is refused, and is free again once the batch was taken away. -/

namespace Mqttium

open Codec Library Packets Persistence Protocol Inbound

/-! Refusing -/

/-- A packet changed nothing of the inbound direction but an alias, delivered nothing and was
answered with nothing but a DISCONNECT. -/
structure Ignored (before after : Engine) : Prop where
  rows : after.store.inbound = before.store.inbound
  inbound : ∃ aliases, after.inbound = { before.inbound with aliases }
  effects : ∃ fresh, after.effects = before.effects ++ fresh ∧
    ∀ effect ∈ fresh, ¬ effect.Delivers ∧ ∀ item, effect.frame? = some item → IsDisconnect item

instance : IsPreorder Engine Ignored where
  refl engine := ⟨rfl, ⟨engine.inbound.aliases, rfl⟩, [], by simp, by simp⟩
  trans _ _ _ first second := by
    obtain ⟨aliases, inbound⟩ := first.inbound
    obtain ⟨final, inboundMore⟩ := second.inbound
    obtain ⟨early, grown, silent⟩ := first.effects
    obtain ⟨late, grownMore, silentMore⟩ := second.effects
    exact {
      rows := second.rows.trans first.rows
      inbound := ⟨final, by rw [inboundMore, inbound]⟩
      effects := ⟨early ++ late, by rw [grownMore, grown, List.append_assoc], fun effect member =>
        (List.mem_append.mp member).elim (silent effect) (silentMore effect)⟩ }

section

variable {engine : Engine} {raw : RawPacket} {mid : Nat}

theorem Parts.ignored {after : Engine} (parts : Parts engine after) : Ignored engine after :=
  ⟨parts.rows, ⟨engine.inbound.aliases, parts.inbound⟩, parts.effects⟩

theorem ignored_rejectPacketIdCollision {Value : Type} (arriving held : String) :
    Sat (rejectPacketIdCollision mid arriving held : EngineM Value) engine (fun _ _ => False)
      (fun _ => Ignored engine) := by
  rw [rejectPacketIdCollision, sat_bind]
  apply (parts_protocolDisconnect engine 0x82).mono
  · exact fun _ _ parts => parts.ignored
  · exact fun _ _ parts => parts.ignored

/-- Under an identifier whose PUBCOMP waits, a PUBLISH starts nothing. -/
theorem ignored_dispatchQos (qosBits : Nat) {arrival : Arrival}
    (parked : arrival.mid ∈ engine.inbound.pendingPubcomps)
    (gone : engine.store.inbound.get? arrival.mid = none) :
    Sat (dispatchQos qosBits arrival) engine (fun _ _ => False) (fun _ => Ignored engine) := by
  have looks {next : Option InboundRecordMeta → EngineM PUnit}
      (rejects : ∀ faults, Sat (next none) { engine with store := { engine.store with faults } }
        (fun _ _ => False) (fun _ => Ignored { engine with store := { engine.store with faults } })) :
      Sat (lookupStoredInbound arrival.mid >>= next) engine (fun _ _ => False)
        (fun _ => Ignored engine) := by
    have scripted (faults : StoreCall → List (Option Fault)) :
        Ignored engine { engine with store := { engine.store with faults } } :=
      ⟨rfl, ⟨engine.inbound.aliases, rfl⟩, [], by simp, by simp⟩
    rw [sat_bind]
    apply (sat_lookupStoredInbound arrival.mid).mono
    · rintro found _ ⟨faults, rfl, missing⟩
      rw [missing gone]
      apply (rejects faults).mono
      · exact fun _ _ impossible => impossible
      · exact fun _ _ ignored => IsTrans.trans _ _ _ (scripted faults) ignored
    · rintro _ _ ⟨faults, rfl⟩
      exact scripted faults
  rw [dispatchQos, sat_ite]
  refine ⟨fun _ => ?_, fun _ => ?_⟩
  · rw [onQos1, sat_bind, sat_get, sat_ite]
    refine ⟨fun _ => looks fun faults => ?_, fun _ => looks fun faults => ?_⟩
    · rw [onQos1ManualFresh, sat_bind, sat_get, if_pos parked]
      exact ignored_rejectPacketIdCollision _ _
    · rw [onQos1AutoFresh, sat_bind, sat_get, if_pos parked]
      exact ignored_rejectPacketIdCollision _ _
  · refine looks fun faults => ?_
    rw [onQos2Fresh, sat_bind, sat_get, if_pos parked]
    exact ignored_rejectPacketIdCollision _ _

/-- A PUBLISH under an identifier whose PUBCOMP waits is refused. -/
theorem ignored_handleRaw (open_ : engine.state = .connected)
    (parked : mid ∈ engine.inbound.pendingPubcomps) (gone : engine.store.inbound.get? mid = none)
    (publish : raw.packetType = .publish) (acked : raw.Acked)
    (named : publishMid engine raw = some mid) :
    Sat (handleRaw raw) engine (fun answer after => answer ≠ none ∧ Ignored engine after)
      (fun _ => Ignored engine) := by
  have dispatches : Sat (dispatch raw) engine (fun _ _ => False) (fun _ => Ignored engine) := by
    apply dispatch_sat
    · exact fun _ => Std.Refl.refl engine
    · intro handler found
      have handled : handler = handlePublish := by
        rw [publish, open_] at found
        cases found
        rfl
      subst handled
      rw [handlePublish_eq acked, sat_bind]
      apply (@sat_readArrival (fun _ _ => False) False True engine raw).mono
      · rintro arrival _ ⟨⟨aliases, rfl⟩, same⟩
        have same : mid = arrival.mid := Option.some.inj (named.symm.trans same)
        subst same
        have rejects := @ignored_dispatchQos (engine.aliased aliases) raw.qosBits arrival parked gone
        have aliased : Ignored engine (engine.aliased aliases) :=
          ⟨rfl, ⟨aliases, rfl⟩, [], by simp [Engine.aliased], by simp⟩
        apply rejects.mono
        · exact fun _ _ impossible => impossible
        · exact fun _ _ ignored => IsTrans.trans _ _ _ aliased ignored
      · rintro _ _ ⟨_, parts⟩
        exact parts.ignored
  rw [handleRaw, sat_bind, sat_get, sat_ite]
  refine ⟨fun ceased => ?_, fun _ => ?_⟩
  · rw [open_] at ceased
    simp at ceased
  · rw [sat_bind, sat_catching]
    apply dispatches.mono
    · exact fun _ _ impossible => impossible.elim
    · intro failure after ignored
      have tells : Ignored after { after with effects := after.effects ++ [.protocolError failure] } :=
        ⟨rfl, ⟨after.inbound.aliases, rfl⟩, _, rfl, by simp [Effect.Delivers, Effect.frame?]⟩
      exact ⟨fun _ => ⟨(by rintro ⟨⟩), IsTrans.trans _ _ _ ignored tells⟩, fun _ => ignored⟩

end

/-! Starting anew -/

/-- Nothing owns the identifier. -/
structure Free (engine : Engine) (mid : Nat) : Prop where
  row : engine.store.inbound.get? mid = none
  auto : mid ∉ engine.inbound.pendingAutoQos1Mids
  pubcomps : mid ∉ engine.inbound.pendingPubcomps

/-- The row of a message that just arrived. -/
def Protocol.Inbound.Arrival.stored (arrival : Arrival) (qos : QoS) (state : InboundQoSState)
    (size : Nat) : InboundMessage where
  mid := arrival.mid
  topic := arrival.topic
  payload := arrival.payload
  qos := qos
  retain := arrival.retain
  state := state
  properties := arrival.properties
  logicalSize := size

/-- The delivery of a message that just arrived. -/
def Protocol.Inbound.Arrival.delivery (arrival : Arrival) (message : Message) (marked : Bool)
    (token : Option Token) : Effect :=
  match arrival.propertyWireSize with
  | some size => .decodedMessage message marked size token
  | none => .message message marked token

/-- A message may be stored: it has a size, within the limit of bytes. -/
def Fits (engine : Engine) (arrival : Arrival) (size : Nat) : Prop :=
  logicalSize engine.isV5 arrival.topic arrival.payload arrival.properties
      arrival.propertyWireSize = .ok size ∧ size ≠ 0 ∧
    ∀ limit ∈ engine.config.maxInboundInflightBytes, engine.inbound.pendingBytes + size ≤ limit

section

variable {engine : Engine} {arrival : Arrival} {size : Nat}

theorem emitDelivery_delivery (message : Message) (marked : Bool) (token : Option Token) :
    emitDelivery message marked arrival.propertyWireSize token =
      emit (arrival.delivery message marked token) := by
  unfold emitDelivery Arrival.delivery
  cases arrival.propertyWireSize with
  | none => rfl
  | some size => rfl

theorem acquireSlot_room (room : inflight engine.inbound < engine.inbound.receiveMaximum)
    {size : Option Nat} (light : ∀ limit ∈ engine.config.maxInboundInflightBytes,
      ∀ bytes ∈ size, engine.inbound.pendingBytes + bytes ≤ limit) :
    Sat (acquireSlot size) engine
      (fun _ after => ∃ flag, after = { engine with inbound := { engine.inbound with
        autoackHandoffRequired := flag
        pendingBytes := engine.inbound.pendingBytes + size.getD 0 } }) (fun _ _ => False) := by
  simp only [acquireSlot, sat_bind, sat_get, sat_onlyIf]
  refine ⟨fun full => absurd full (Nat.not_le_of_lt room), fun _ => ⟨fun heavy => ?_, fun _ => ⟨_, rfl⟩⟩⟩
  cases limited : engine.config.maxInboundInflightBytes with
  | none => simp [limited] at heavy
  | some limit =>
    cases size with
    | none => simp [limited] at heavy
    | some bytes =>
      have fits := light limit limited bytes rfl
      simp only [limited, Option.any_some, decide_eq_true_eq] at heavy
      omega

theorem admitRow_room (reliable : engine.store.Reliable)
    (room : inflight engine.inbound < engine.inbound.receiveMaximum) (fits : Fits engine arrival size)
    (qos : QoS) (state : InboundQoSState) :
    Sat (admitRow arrival qos state) engine
      (fun token after => token = engine.inbound.nextToken ∧ ∃ flag,
        after = engine.with (arrival.stored qos state size) engine.store.faults flag false)
      (fun _ _ => False) := by
  obtain ⟨sized, positive, light⟩ := fits
  simp only [admitRow, sat_bind, sat_get, sized, sat_fromExcept_ok, sat_discard]
  have acquires := @acquireSlot_room engine room (some size) fun limit given bytes same => by
    rw [← Option.some.inj same]
    exact light limit given
  apply acquires.mono
  · rintro _ _ ⟨flag, rfl⟩
    simp only [sat_tryCatch, sat_bind, sat_raiseIf]
    refine ⟨fun zero => absurd zero positive, fun _ => ?_⟩
    refine (sat_storeCall ?_).mpr ?_
    · exact reliable
    simp only [freshToken, rememberInbound, sat_bind, sat_get, sat_modifyInbound, sat_pure]
    exact ⟨trivial, flag, rfl⟩
  · exact fun _ _ impossible => impossible

/-- An exchange that keeps the message begins. -/
structure Begun (qos : QoS) (state : InboundQoSState) (arrival : Arrival) (size : Nat)
    (answer : List Effect) (before after : Engine) : Prop where
  row : ∃ row, after.store.inbound.get? arrival.mid = some row ∧
    row.message = arrival.stored qos state size
  token : after.inbound.exchangeTokens.get? arrival.mid = some before.inbound.nextToken
  effects : after.effects = before.effects ++ answer ++ [arrival.delivery
    { arrival.message qos with
      ackToken := if before.config.manualAck then some before.inbound.nextToken else none }
    true (some before.inbound.nextToken)]

theorem putIn_row (store : Store) (message : InboundMessage) :
    ∃ row, (store.putIn message).inbound.get? message.mid = some row ∧ row.message = message := by
  unfold Store.putIn
  split
  · exact ⟨_, Dict.get?_insert_self _ _ _, rfl⟩
  · exact ⟨_, Dict.get?_insert_self _ _ _, rfl⟩

/-- The message of an exchange that just began is bound to it, and handed over. -/
theorem begun_deliver {between : Engine} {qos : QoS} {state : InboundQoSState} {answer : List Effect}
    (row : ∃ row, between.store.inbound.get? arrival.mid = some row ∧
      row.message = arrival.stored qos state size)
    (token : between.inbound.exchangeTokens.get? arrival.mid = some engine.inbound.nextToken)
    (config : between.config = engine.config)
    (effects : between.effects = engine.effects ++ answer) :
    Sat (do
        let message ← bindAckToken arrival.mid (arrival.message qos)
        emitDelivery message true arrival.propertyWireSize (some engine.inbound.nextToken) :
        EngineM PUnit) between
      (fun _ => Begun qos state arrival size answer engine) (fun _ _ => False) := by
  simp only [bindAckToken, exchangeToken, emitDelivery_delivery, token, sat_bind, sat_get, sat_ite,
    sat_pure, sat_emit]
  refine ⟨fun manual => ⟨row, token, ?_⟩, fun auto => ⟨row, token, ?_⟩⟩
  · rw [config] at manual
    rw [effects, if_pos manual]
  · rw [config] at auto
    rw [effects, if_neg auto]
    rfl

theorem onQos2_free (reliable : engine.store.Reliable) (free : Free engine arrival.mid)
    (room : inflight engine.inbound < engine.inbound.receiveMaximum) (fits : Fits engine arrival size) :
    Sat (onQos2 arrival) engine
      (fun _ => Begun .exactlyOnce .waitPubrel arrival size
        [.sendAck (encodePubrecSuccess arrival.mid)] engine) (fun _ _ => False) := by
  refine lookup_free reliable free.row ?_
  rw [onQos2Fresh, sat_bind, sat_get, if_neg free.pubcomps, if_neg free.auto, sat_bind]
  apply (admitRow_room reliable room fits .exactlyOnce .waitPubrel).mono
  · rintro _ _ ⟨rfl, flag, rfl⟩
    rw [sendAck, sat_bind, sat_emit]
    exact begun_deliver (putIn_row _ _) (Dict.get?_insert_self _ _ _) rfl rfl
  · exact fun _ _ impossible => impossible

theorem onQos1Manual_free (reliable : engine.store.Reliable) (free : Free engine arrival.mid)
    (room : inflight engine.inbound < engine.inbound.receiveMaximum) (fits : Fits engine arrival size) :
    Sat (onQos1Manual arrival) engine
      (fun _ => Begun .atLeastOnce .waitPuback arrival size [] engine) (fun _ _ => False) := by
  refine lookup_free reliable free.row ?_
  rw [onQos1ManualFresh, sat_bind, sat_get, if_neg free.pubcomps, sat_bind]
  apply (admitRow_room reliable room fits .atLeastOnce .waitPuback).mono
  · rintro _ _ ⟨rfl, flag, rfl⟩
    rw [sat_bind, sat_modifyInbound]
    exact begun_deliver (putIn_row _ _) (Dict.get?_insert_self _ _ _) rfl (by simp [Engine.with])
  · exact fun _ _ impossible => impossible

/-- A PUBLISH is acknowledged at once and handed over. -/
structure Passed (arrival : Arrival) (before after : Engine) : Prop where
  auto : arrival.mid ∈ after.inbound.pendingAutoQos1Mids
  effects : after.effects = before.effects ++ [.sendAck (encodePubackSuccess arrival.mid),
    arrival.delivery (arrival.message .atLeastOnce) false none]

theorem onQos1Auto_free (reliable : engine.store.Reliable) (free : Free engine arrival.mid)
    (room : inflight engine.inbound < engine.inbound.receiveMaximum) :
    Sat (onQos1Auto arrival) engine (fun _ => Passed arrival engine) (fun _ _ => False) := by
  refine lookup_free reliable free.row ?_
  rw [onQos1AutoFresh, sat_bind, sat_get, if_neg free.pubcomps]
  simp only [free.auto, decide_false, emitDelivery_delivery, sendAck, sat_bind, sat_ite, sat_emit,
    sat_onlyIf, sat_modifyInbound]
  refine ⟨fun again => absurd again (by simp), fun _ => ?_⟩
  apply (acquireSlot_room room fun _ _ _ given => absurd given (by simp)).mono
  · rintro occupied _ ⟨flag, rfl⟩
    refine ⟨fun _ => ⟨Finset.mem_insert_self _ _, by simp⟩, fun again => absurd trivial again⟩
  · exact fun _ _ impossible => impossible

end

section

variable {engine : Engine} {raw : RawPacket} {arrival : Arrival} {mid : Nat}

/-- What a PUBLISH under a free identifier starts. -/
def Begins (qosBits : Nat) (arrival : Arrival) (before after : Engine) : Prop :=
  if qosBits = 1 then
    if before.config.manualAck then
      ∃ size, Begun .atLeastOnce .waitPuback arrival size [] before after
    else Passed arrival before after
  else
    ∃ size, Begun .exactlyOnce .waitPubrel arrival size [.sendAck (encodePubrecSuccess arrival.mid)]
      before after

/-- A message that has to be stored may be. -/
def Admissible (qosBits : Nat) (arrival : Arrival) (engine : Engine) : Prop :=
  qosBits = 1 ∧ engine.config.manualAck = false ∨ ∃ size, Fits engine arrival size

theorem begins_dispatchQos (reliable : engine.store.Reliable) (free : Free engine arrival.mid)
    (room : inflight engine.inbound < engine.inbound.receiveMaximum) {qosBits : Nat}
    (admissible : Admissible qosBits arrival engine) :
    Sat (dispatchQos qosBits arrival) engine (fun _ => Begins qosBits arrival engine)
      (fun _ _ => False) := by
  rw [dispatchQos, sat_ite]
  refine ⟨fun once => ?_, fun twice => ?_⟩
  · rw [onQos1, sat_bind, sat_get, sat_ite]
    refine ⟨fun manual => ?_, fun auto => ?_⟩
    · rcases admissible with ⟨_, auto⟩ | ⟨size, fits⟩
      · rw [manual] at auto
        cases auto
      · apply (onQos1Manual_free reliable free room fits).mono
        · intro _ after begun
          rw [Begins, if_pos once, if_pos manual]
          exact ⟨size, begun⟩
        · exact fun _ _ impossible => impossible
    · apply (onQos1Auto_free reliable free room).mono
      · intro _ after passed
        rw [Begins, if_pos once, if_neg auto]
        exact passed
      · exact fun _ _ impossible => impossible
  · rcases admissible with ⟨once, _⟩ | ⟨size, fits⟩
    · exact absurd once twice
    · apply (onQos2_free reliable free room fits).mono
      · intro _ after begun
        rw [Begins, if_neg twice]
        exact ⟨size, begun⟩
      · exact fun _ _ impossible => impossible

/-- The aliases are no part of what a PUBLISH starts. -/
theorem Begins.of_aliased {qosBits : Nat} {aliases : Dict Nat Text} {after : Engine}
    (begins : Begins qosBits arrival (engine.aliased aliases) after) :
    Begins qosBits arrival engine after := by
  unfold Begins at *
  split
  · rename_i once
    rw [if_pos once] at begins
    split
    · rename_i manual
      obtain ⟨size, begun⟩ := (if_pos manual).mp begins
      exact ⟨size, { begun with }⟩
    · rename_i auto
      exact { (if_neg auto).mp begins with }
  · rename_i twice
    rw [if_neg twice] at begins
    obtain ⟨size, begun⟩ := begins
    exact ⟨size, { begun with }⟩

theorem begins_handleRaw (open_ : engine.state = .connected) (reliable : engine.store.Reliable)
    (free : Free engine arrival.mid) (room : inflight engine.inbound < engine.inbound.receiveMaximum)
    (publish : raw.packetType = .publish) (acked : raw.Acked)
    (valid : validateRawPacket raw = .ok ⟨⟩) {read : Engine}
    (carries : readArrival raw engine = .ok arrival read)
    (admissible : Admissible raw.qosBits arrival engine) :
    Sat (handleRaw raw) engine
      (fun answer after => answer = none ∧ Begins raw.qosBits arrival engine after)
      (fun _ _ => False) := by
  have reads := @sat_readArrival (fun _ _ => False) False True engine raw
  obtain ⟨⟨aliases, rfl⟩, _⟩ := reads.ok carries
  have dispatches : Sat (dispatchQos raw.qosBits arrival) (engine.aliased aliases)
      (fun _ => Begins raw.qosBits arrival (engine.aliased aliases)) (fun _ _ => False) :=
    @begins_dispatchQos (engine.aliased aliases) arrival reliable
      ⟨free.row, free.auto, free.pubcomps⟩ room raw.qosBits admissible
  have handled : Sat (handlePublish raw) engine (fun _ => Begins raw.qosBits arrival engine)
      (fun _ _ => False) := by
    rw [handlePublish_eq acked, sat_bind]
    exact .of_ok carries (dispatches.mono (fun _ _ begins => begins.of_aliased)
      fun _ _ impossible => impossible)
  have found : handlerFor engine.state raw.packetType = some handlePublish := by
    rw [open_, publish]
    rfl
  have running : ¬ (engine.state = .disconnecting ∨ engine.state = .disconnected) := by simp [open_]
  rw [handleRaw, sat_bind, sat_get, if_neg running, sat_bind, sat_catching, dispatch, valid, sat_bind,
    sat_fromExcept_ok, sat_bind, sat_get, found]
  exact handled.mono (fun _ _ begins => ⟨rfl, begins⟩) fun _ _ impossible => impossible.elim

end

/-! Runs -/

namespace Protocol.Session

/-- The effects are taken away after each call that leaves the handoff required. -/
def Prompt (session : Session) : List Command → Prop
  | [] => True
  | command :: rest =>
    (session.engine.inbound.autoackHandoffRequired = true → command = .takeEffects) ∧
      (session.step command).Prompt rest

/-- Each of the calls goes on with the connection and leaves the effects. -/
def Continuing (session : Session) : List Command → Prop
  | [] => True
  | command :: rest => command.Continues session.engine ∧ (session.step command).Continuing rest

theorem Prompt.last {session : Session} {commands : List Command} {command : Command}
    (prompt : session.Prompt (commands ++ [command]))
    (flagged : (session.run commands).engine.inbound.autoackHandoffRequired = true) :
    command = .takeEffects := by
  induction commands generalizing session with
  | nil => exact prompt.1 flagged
  | cons first rest ih => exact ih prompt.2 flagged

end Protocol.Session

/-- The call completes the QoS 2 exchange of the identifier. -/
structure Completes (command : Command) (before after : Engine) (mid : Nat) : Prop where
  returned : ∃ answer, command.run before = .ok answer after
  stored : ∃ row, before.store.inbound.get? mid = some row ∧ row.message.state ≠ .waitPuback
  gone : after.store.inbound.get? mid = none

/-- A PUBLISH under the identifier is refused. -/
def Refuses (engine : Engine) (mid : Nat) : Prop :=
  ∀ raw : RawPacket, raw.packetType = .publish → raw.Acked → publishMid engine raw = some mid →
    engine.state = .connected →
    Sat (handleRaw raw) engine (fun answer after => answer ≠ none ∧ Ignored engine after)
      (fun _ => Ignored engine)

/-- A PUBLISH under the identifier that fits the window starts an exchange. -/
def Renews (engine : Engine) (mid : Nat) : Prop :=
  ∀ (raw : RawPacket) (arrival : Arrival) (read : Engine), raw.packetType = .publish → raw.Acked →
    validateRawPacket raw = .ok ⟨⟩ → readArrival raw engine = .ok arrival read → arrival.mid = mid →
    engine.state = .connected → engine.store.Reliable →
    engine.inbound.autoackHandoffRequired = false →
    engine.inbound.currentPersistedMids.card < engine.config.maxInboundInflight →
    Admissible raw.qosBits arrival engine →
    ∃ after, handleRaw raw engine = .ok none after ∧ Begins raw.qosBits arrival engine after

section

variable {engine : Engine} {session : Protocol.Session} {mid : Nat} {command : Command}

theorem Completes.parked {after : Engine} (completes : Completes command engine after mid)
    (continues : command.Continues engine) : mid ∈ after.inbound.pendingPubcomps := by
  obtain ⟨answer, ended⟩ := completes.returned
  obtain ⟨row, found, phase⟩ := completes.stored
  obtain ⟨owning, owns, moved⟩ := (passes_run continues).ok ended
  rcases moved.owned trivial mid ⟨row, found, owns mid _ phase⟩ with parked | ⟨row, stored, _⟩
  · exact parked
  · rw [completes.gone] at stored
    cases stored

theorem held_step (continues : command.Continues session.engine)
    (held : mid ∈ session.engine.inbound.pendingPubcomps) :
    mid ∈ (session.step command).engine.inbound.pendingPubcomps := by
  have runs : Sat command.run session.engine
      (fun _ => Hands (fun _ _ => False) True True session.engine)
      (fun _ => Hands (fun _ _ => False) True True session.engine) :=
    (passes_run continues).mono (fun _ _ passes => passes.lasts) fun _ _ lasts => lasts
  exact (Protocol.Session.step_sat runs).held trivial mid held

theorem held_of_continuing {later : List Command} (continuing : session.Continuing later)
    (held : mid ∈ session.engine.inbound.pendingPubcomps) :
    mid ∈ (session.run later).engine.inbound.pendingPubcomps := by
  induction later generalizing session with
  | nil => exact held
  | cons command rest ih => exact ih continuing.2 (held_step continuing.1 held)

theorem Handed.refuses (handed : Handed engine) (parked : mid ∈ engine.inbound.pendingPubcomps) :
    Refuses engine mid :=
  fun _ publish acked named open_ =>
    ignored_handleRaw open_ parked (handed.gone mid parked) publish acked named

theorem Handed.room (handed : Handed engine)
    (unflagged : engine.inbound.autoackHandoffRequired = false)
    (fewer : engine.inbound.currentPersistedMids.card < engine.config.maxInboundInflight) :
    inflight engine.inbound < engine.inbound.receiveMaximum := by
  by_contra full
  exact absurd (handed.balanced.exhausted unflagged (Nat.le_of_not_lt full)) (Nat.not_le_of_lt fewer)

theorem Handed.renews (handed : Handed engine) (free : Free engine mid) : Renews engine mid := by
  rintro raw arrival read publish acked valid carries rfl open_ reliable unflagged fewer admissible
  have begins := begins_handleRaw open_ reliable free (handed.room unflagged fewer) publish acked valid
    carries admissible
  cases ended : handleRaw raw engine with
  | error failure after => exact (begins.error ended).elim
  | ok answer after =>
    obtain ⟨rfl, begun⟩ := begins.ok ended
    exact ⟨after, rfl, begun⟩

/-- A PUBLISH is refused for Receive Maximum only where stored exchanges fill the window. -/
theorem Handed.window (handed : Handed session.engine)
    (unflagged : session.engine.inbound.autoackHandoffRequired = false) {raw : RawPacket}
    (publish : raw.packetType = .publish) {fresh : List Effect}
    (grown : (session.step (.handleRaw raw)).engine.effects = session.engine.effects ++ fresh)
    (refused : refusal ∈ fresh) :
    session.engine.config.maxInboundInflight ≤ session.engine.inbound.currentPersistedMids.card := by
  have runs : Sat (Command.handleRaw raw).run session.engine
      (fun _ => Passes (session.engine.config.maxInboundInflight ≤
        session.engine.inbound.currentPersistedMids.card) session.engine)
      (fun _ => Passes (session.engine.config.maxInboundInflight ≤
        session.engine.inbound.currentPersistedMids.card) session.engine) := by
    rw [Command.run, sat_map]
    exact passes_handleRaw_publish publish (handed.balanced.exhausted unflagged)
  obtain ⟨_, _, moved⟩ := Protocol.Session.step_sat runs
  obtain ⟨added, same, full⟩ := moved.effects
  rw [grown] at same
  exact full (List.append_cancel_left same ▸ refused)

/-- Once the effects are taken away, what their acknowledgements owned is free. -/
theorem Handed.taken (handed : Handed session.engine)
    (parked : mid ∈ session.engine.inbound.pendingPubcomps) :
    Free (session.step .takeEffects).engine mid := by
  have some : session.engine.inbound.pendingPubcomps ≠ ∅ := Finset.ne_empty_of_mem parked
  have takes : Sat Command.takeEffects.run session.engine (fun _ after => Free after mid)
      (fun _ after => Free after mid) := by
    simp only [Command.run, takeEffects, releasePendingAcks, sat_map, sat_bind, sat_get, sat_modify,
      sat_onlyIf, sat_pure, sat_modifyInbound]
    refine ⟨fun _ => ⟨handed.gone mid parked, ?_, ?_⟩, fun idle => absurd (.inr some) idle⟩
    · exact Finset.notMem_empty mid
    · exact Finset.notMem_empty mid
  exact Protocol.Session.step_sat takes

end

/-- If the effects are taken away after each call that leaves the handoff required, a PUBLISH is
refused for Receive Maximum only where stored exchanges fill the window. The identifier of a QoS 2
exchange that was completed stays in use until the effects are taken away, and is free then; a
PUBLISH under a free identifier starts an exchange. -/
theorem handoff_rule {config : EngineConfig} {store : Store} {created : Engine}
    (begun : Engine.create config store = .ok created) (commands : List Command)
    {session : Protocol.Session} (reached : Protocol.Session.run ⟨created, []⟩ commands = session) :
    (∀ (raw : RawPacket) (fresh : List Effect), raw.packetType = .publish →
      Protocol.Session.Prompt ⟨created, []⟩ (commands ++ [.handleRaw raw]) →
      (session.step (.handleRaw raw)).engine.effects = session.engine.effects ++ fresh →
      refusal ∈ fresh →
      session.engine.config.maxInboundInflight ≤ session.engine.inbound.currentPersistedMids.card) ∧
    (∀ (mid : Nat) (command : Command) (after : Engine) (later : List Command),
      Completes command session.engine after mid → command.Continues session.engine →
      (session.step command).Continuing later →
      Refuses ((session.step command).run later).engine mid ∧
        Free (((session.step command).run later).step .takeEffects).engine mid) ∧
    ∀ mid, Free session.engine mid → Renews session.engine mid := by
  have handed (more : List Command) : Handed (session.run more).engine := by
    have run := handed_of_run begun (commands ++ more)
    rw [Protocol.Session.run, List.foldl_append] at run
    rw [← reached]
    exact run
  refine ⟨fun raw fresh publish prompt grown refused => ?_,
    fun mid command after later completes continues continuing => ?_,
    fun mid free => (handed []).renews free⟩
  · refine (handed []).window ?_ publish grown refused
    rw [Protocol.Session.run_nil, ← reached]
    exact Bool.eq_false_iff.mpr fun flagged => absurd (prompt.last flagged) (by rintro ⟨⟩)
  · obtain ⟨answer, ended⟩ := completes.returned
    have parked : mid ∈ (session.step command).engine.inbound.pendingPubcomps := by
      rw [Protocol.Session.step_engine ended]
      exact completes.parked continues
    have held := held_of_continuing continuing parked
    have kept : Handed ((session.step command).run later).engine := handed (command :: later)
    exact ⟨kept.refuses held, kept.taken held⟩

/-- One slot, for one message at a time. -/
def narrowConfig : EngineConfig := { clientId := [97], maxInboundInflight := 1, accepted := rfl }

def narrowEngine : Engine := Engine.started narrowConfig { kind := .memory } (∅, 0, [])

/-- A message with QoS 2 arrives and is handed over. -/
def arrivalCalls : List Command :=
  [.beginConnect, .handleRaw ⟨.connack, 0, [0, 0]⟩, .handleRaw ⟨.publish, 4, [0, 1, 116, 0, 7, 120]⟩,
    .takeEffects, .markInboundDelivered 7 none]

def arrivedSession : Protocol.Session := Protocol.Session.run ⟨narrowEngine, []⟩ arrivalCalls

def releasedSession : Protocol.Session := arrivedSession.step (.handleRaw ⟨.pubrel, 2, [0, 7]⟩)

set_option maxRecDepth 4000 in
theorem pubrel_completes :
    Completes (.handleRaw ⟨.pubrel, 2, [0, 7]⟩) arrivedSession.engine releasedSession.engine 7 :=
  ⟨⟨none, rfl⟩, ⟨_, rfl, nofun⟩, rfl⟩

/-- A second message comes before the first is released. -/
def earlyPublish : RawPacket := ⟨.publish, 4, [0, 1, 116, 0, 8, 120]⟩

theorem early_prompt :
    Protocol.Session.Prompt ⟨narrowEngine, []⟩ (arrivalCalls ++ [.handleRaw earlyPublish]) := by
  refine ⟨?_, ?_, ?_, ?_, ?_, ?_, trivial⟩
  · exact fun flagged => absurd flagged (by decide +kernel)
  · exact fun flagged => absurd flagged (by decide +kernel)
  · exact fun flagged => absurd flagged (by decide +kernel)
  · exact fun _ => rfl
  · exact fun flagged => absurd flagged (by decide +kernel)
  · exact fun flagged => absurd flagged (by decide +kernel)

/-- The second message is refused while the first holds the slot; the identifier of the first is
refused while its PUBCOMP waits, and starts an exchange once the effects are taken away. -/
theorem handoff_rule_pubrel :
    (refusal ∈ (arrivedSession.step (.handleRaw earlyPublish)).engine.effects ∧
      narrowConfig.maxInboundInflight ≤ arrivedSession.engine.inbound.currentPersistedMids.card) ∧
    (Refuses releasedSession.engine 7 ∧ Free (releasedSession.step .takeEffects).engine 7) ∧
    Renews (releasedSession.step .takeEffects).engine 7 := by
  have created : Engine.create narrowConfig { kind := .memory } = .ok narrowEngine := rfl
  have refused : refusal ∈ (arrivedSession.step (.handleRaw earlyPublish)).engine.effects := by
    decide +kernel
  have emptied : arrivedSession.engine.effects = [] := by decide +kernel
  have released : Protocol.Session.run ⟨narrowEngine, []⟩
      (arrivalCalls ++ [.handleRaw ⟨.pubrel, 2, [0, 7]⟩] ++ [.takeEffects]) =
        releasedSession.step .takeEffects := by
    rw [Protocol.Session.run_concat, Protocol.Session.run_concat]
    rfl
  have arrives := handoff_rule created arrivalCalls (rfl : _ = arrivedSession)
  have completed := arrives.2.1 7 (.handleRaw ⟨.pubrel, 2, [0, 7]⟩) releasedSession.engine []
    pubrel_completes nofun trivial
  have renews := (handoff_rule created _ released).2.2 7 completed.2
  have window := arrives.1 earlyPublish _ rfl early_prompt (by rw [emptied, List.nil_append]) refused
  exact ⟨⟨refused, window⟩, completed, renews⟩

end Mqttium
