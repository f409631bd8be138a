import Mqttium.Receiving.Journal
import Mqttium.Receiving.Reuse
import Mqttium.Refinement.Chronicle

/-! Calls that fail: a request that raises leaves the engine as it found it. -/

namespace Mqttium

open Codec Library Packets Persistence Protocol

/-- The calls with which an application or the owner of the engine asks for something. -/
def Protocol.Command.Requests : Command → Prop
  | .beginConnect | .queuePublish _ _ | .queueSubscribe _ _ _ | .queueUnsubscribe _ _ | .queuePing
  | .beginDisconnect _ _ | .queueAuth _ _ | .respondAuth _ _ _ | .ack _ _ => True
  | _ => False

section

variable {engine : Engine} {watch : Watch} {returned : PUnit → Engine → Prop}

theorem beginConnect_untouched :
    Sat beginConnect engine (fun _ _ => True) (fun _ => engine.Untouched) := by
  simp only [beginConnect, Inbound.startConnection, sat_bind, sat_get, sat_raiseIf, sat_fromExcept,
    sat_modify, sat_modifyInbound, sat_pure]
  exact ⟨fun _ => .refl engine, fun _ => ⟨fun _ _ => trivial, fun _ _ => .refl engine⟩⟩

theorem sendSubscriptionRequest_untouched {choice count : Nat} {encode : Nat → Except Failure Bytes}
    {kind : PacketType} :
    Sat (sendSubscriptionRequest choice encode kind count) engine (fun _ _ => True)
      (fun _ => engine.Untouched) := by
  simp only [sendSubscriptionRequest, sat_bind]
  apply allocateId_sat
  · intro mid pool _ free _ _ grown
    have undone : engine.Untouched
        { engine with outbound := { engine.outbound with packetIds := pool.release mid } } :=
      ⟨pool.release mid, by simp [grown, Finset.erase_insert free], rfl⟩
    simp only [sat_tryCatch, sat_bind, sat_fromExcept, Outbound.releaseId, sat_modifyOutbound,
      sat_throw]
    refine ⟨fun wire _ => sat_checkOutboundSize ?_ fun _ => undone, fun _ _ => undone⟩
    simp only [sat_pure, sat_modify, send, sat_emit]
  · exact fun pool same => ⟨pool, same, rfl⟩

theorem queueSubscribe_untouched {choice : Nat} {subscriptions : List Subscription}
    {properties : Option Properties} :
    Sat (queueSubscribe choice subscriptions properties) engine (fun _ _ => True)
      (fun _ => engine.Untouched) := by
  simp only [queueSubscribe, sat_bind, sat_get, sat_fromExcept]
  exact ⟨fun _ _ => sendSubscriptionRequest_untouched, fun _ _ => .refl engine⟩

theorem queueUnsubscribe_untouched {choice : Nat} {topics : List Text} :
    Sat (queueUnsubscribe choice topics) engine (fun _ _ => True) (fun _ => engine.Untouched) := by
  simp only [queueUnsubscribe, sat_bind, sat_get, sat_fromExcept]
  exact ⟨fun _ _ => sendSubscriptionRequest_untouched, fun _ _ => .refl engine⟩

theorem queuePing_untouched :
    Sat queuePing engine (fun _ _ => True) (fun _ => engine.Untouched) := by
  simp only [queuePing, sat_bind, sat_get, sat_raiseIf]
  refine ⟨fun _ => .refl engine, fun _ => sat_checkOutboundSize ?_ fun _ => .refl engine⟩
  simp only [send, sat_emit]

theorem beginDisconnect_untouched {reasonCode : Nat} {properties : Option Properties} :
    Sat (beginDisconnect reasonCode properties) engine (fun _ _ => True)
      (fun _ => engine.Untouched) := by
  simp only [beginDisconnect, sat_bind, sat_get, sat_raiseIf, sat_fromExcept]
  refine ⟨fun _ => .refl engine, fun _ => ⟨fun _ _ => ⟨fun _ _ => ?_, fun _ _ => .refl engine⟩,
    fun _ _ => .refl engine⟩⟩
  refine sat_checkOutboundSize ?_ fun _ => .refl engine
  simp only [sat_modify, sat_pure]

theorem queueAuth_untouched {reasonCode : Nat} {properties : Option Properties} :
    Sat (queueAuth reasonCode properties) engine (fun _ _ => True) (fun _ => engine.Untouched) := by
  have kept : engine.Untouched engine := .refl engine
  simp only [queueAuth, sat_bind, sat_get, sat_raiseIf]
  refine ⟨fun _ => kept, fun _ => ⟨fun _ => kept, fun _ => ?_⟩⟩
  cases engine.authMethod with
  | none => exact kept
  | some expected =>
    simp only [sat_bind, sat_raiseIf, sat_fromExcept]
    refine ⟨fun _ => kept, fun _ => ⟨fun _ => kept, fun _ => ⟨fun _ => kept, fun _ =>
      ⟨fun _ => kept, fun _ => ⟨fun _ => kept, fun _ => ⟨fun _ _ => ?_, fun _ _ => kept⟩⟩⟩⟩⟩⟩
    refine sat_checkOutboundSize ?_ fun _ => kept
    simp only [send, sat_emit, sat_modify]

theorem respondAuth_untouched {challenge : Option Nat} {reasonCode : Nat}
    {properties : Option Properties} :
    Sat (respondAuth challenge reasonCode properties) engine (fun _ _ => True)
      (fun _ => engine.Untouched) := by
  simp only [respondAuth, sat_bind, sat_get, sat_ite, sat_pure]
  refine ⟨fun _ => trivial, fun _ => ⟨fun _ => trivial, fun _ => ?_⟩⟩
  exact queueAuth_untouched.mono (fun _ _ _ => trivial) fun _ _ same => same

/-! Acknowledgements -/

/-- An exchange in the state it is expected in moves on. -/
theorem transitionRow_moves {mid : Nat} {row : InRow} {expected next : InboundQoSState}
    {userAcked : Option Bool} (reliable : engine.store.Reliable)
    (found : engine.store.inbound.get? mid = some row) (phase : row.message.state = expected) :
    Sat (Inbound.transitionRow mid expected next userAcked) engine
      (fun changed _ => changed.isSome = true) (fun _ _ => False) := by
  simp only [Inbound.transitionRow, Inbound.shareAfter, sat_bind, sat_storeCall reliable, sat_modify,
    sat_pure]
  simp [Store.transitionIn, Store.inMessage?, found, phase]

/-- Once an acknowledgement begins to change the session, nothing can fail any more. -/
theorem ackInbound_untouched (kept : engine.config.manualAck = true → engine.kept)
    (reliable : engine.store.Reliable) (mid : Nat) (message : Option Message) :
    Sat (Inbound.ack mid message) engine (fun _ _ => True) (fun _ => engine.Untouched) := by
  have same : engine.Untouched engine := .refl engine
  simp only [Inbound.ack, sat_bind, sat_get, sat_raiseIf]
  refine ⟨fun _ => same, fun manual => ⟨fun _ => same, fun _ => ?_⟩⟩
  have manual : engine.config.manualAck = true := by simpa using manual
  have kept := kept manual
  apply (lookupStoredInbound_sat kept mid).mono
  · rintro record between ⟨scripted, rfl⟩
    cases scripted.same reliable
    cases known : engine.store.inMeta mid with
    | none => exact same
    | some record =>
      obtain ⟨row, found, rfl⟩ := inMeta_row known
      cases phase : row.message.state with
      | waitPubrel =>
        simp only [Store.metaOf, phase]
        rw [sat_bind]
        apply (transitionRow_moves reliable found phase).mono
        · intro changed after moved
          obtain ⟨record, rfl⟩ := Option.isSome_iff_exists.mp moved
          exact trivial
        · exact fun _ _ impossible => impossible.elim
      | waitPuback =>
        have waits : mid ∈ engine.store.waiting.map Prod.fst :=
          mem_waiting_mids.mpr ⟨row, found, phase⟩
        simp only [Store.metaOf, phase]
        rw [sat_bind]
        refine sat_checkOutboundSize ?_ fun _ => same
        rw [sat_bind, sat_modifyInbound]
        apply (drainManualQos1Acks_sat (accepting_kept kept manual waits) manual).mono
        · exact fun _ _ _ => trivial
        · exact fun _ _ failed => absurd reliable failed.2
      | waitUserAck =>
        simp only [Store.metaOf, phase]
        rw [sat_bind]
        refine sat_checkOutboundSize ?_ fun _ => same
        apply (completeQos2_sat kept mid .waitUserAck "acknowledging").mono
        · exact fun _ _ _ => trivial
        · exact fun _ _ failed => absurd phase (failed.2 reliable row found)
      | done =>
        simp only [Store.metaOf, phase]
        exact same
  · exact fun _ _ failed => absurd reliable failed.2

theorem ack_untouched (kept : engine.config.manualAck = true → engine.kept)
    (reliable : engine.store.Reliable) (mid : Nat) (message : Option Message) :
    Sat (Protocol.ack mid message) engine (fun _ _ => True) (fun _ => engine.Untouched) := by
  simp only [Protocol.ack, sat_bind, sat_get, sat_raiseIf]
  exact ⟨fun _ => .refl engine, fun _ => ackInbound_untouched kept reliable mid message⟩

end

/-! Every request -/

section

variable {engine : Engine} {watch : Watch}

theorem request_untouched {request : Command} (requests : request.Requests)
    (ready : Ready watch engine) (start : engine.effects.length = watch.base)
    (kept : engine.config.manualAck = true → engine.kept) :
    Sat request.run engine (fun _ _ => True) (fun _ => engine.Untouched) := by
  have called {Value : Type} {program : EngineM Value} {change : Value → Option WriteItem}
      (untouched : Sat program engine (fun _ _ => True) (fun _ => engine.Untouched)) :
      Sat (change <$> program) engine (fun _ _ => True) (fun _ => engine.Untouched) := by
    rw [sat_map]
    exact untouched
  cases request with
  | beginConnect => exact called beginConnect_untouched
  | queuePublish choice call =>
    exact called ((queuePublish_sat ready start).mono (fun _ _ _ => trivial) fun _ _ same => same)
  | queueSubscribe => exact called queueSubscribe_untouched
  | queueUnsubscribe => exact called queueUnsubscribe_untouched
  | queuePing => exact called queuePing_untouched
  | beginDisconnect => exact called beginDisconnect_untouched
  | queueAuth => exact called queueAuth_untouched
  | respondAuth => exact called respondAuth_untouched
  | ack mid message =>
    exact called (ack_untouched kept ready.tracking.coherent.reliable mid message)
  | _ => exact requests.elim

end

section

variable {config : EngineConfig} {store : Store} {engine : Engine}

/-- No row a client wrote holds a PUBACK. -/
theorem Persistence.Store.Written.caches (written : store.Written) : store.Caches NoPuback := by
  have other {frame : Bytes} {shown : Seen} (read : seen frame = some shown) :
      frameCode frame ≠ some PacketType.puback.code := by
    rcases frameCode_of_seen read with publish | pubrel
    · simp [publish, PacketType.code]
    · simp [pubrel, PacketType.code]
  intro mid row found
  have cached := (written.rows mid row found).cached
  exact ⟨fun item stored => other (cached.publish item stored),
    fun frame stored => other (cached.pubrel frame stored)⟩

theorem Protocol.Session.run_after (session : Protocol.Session) (commands : List Command) :
    (session.run commands).engine = commands.foldl Engine.after session.engine := by
  have step : ∀ (session : Protocol.Session) (command : Command),
      Engine.after session.engine command = (session.step command).engine := by
    intro session command
    cases ended : command.run session.engine with
    | ok returned last => rw [Protocol.Session.step_engine ended, Engine.after_ok ended]
    | error failure last => rw [Protocol.Session.step_error ended, Engine.after_error ended]
  exact (List.foldl_hom Protocol.Session.engine step).symm

/-- The bookkeeping that manual acknowledgement relies on holds in every state reached. -/
theorem create_keeps (written : store.Written) (arranged : store.Arranged)
    (created : Engine.create config store = .ok engine) (commands : List Command)
    (manual : (commands.foldl Engine.after engine).config.manualAck = true) :
    (commands.foldl Engine.after engine).kept := by
  have same := Protocol.Session.run_after ⟨engine, []⟩ commands
  have manual : config.manualAck = true := by
    rwa [← same, config_of_run created commands] at manual
  have fair := (create_fair created manual written.reliable arranged written.caches).run commands
  have kept := fair.tended.kept
  rw [Journal.run_session, same] at kept
  exact kept

/-- Whatever a client has done before, a request that raises leaves it as it was. -/
theorem refused_unchanged (written : store.Written) (arranged : store.Arranged)
    (created : Engine.create config store = .ok engine) (commands : List Command)
    {request : Command} (requests : request.Requests) {failure : Failure} {after : Engine}
    (raised : request.run (commands.foldl Engine.after engine) = .error failure after) :
    (commands.foldl Engine.after engine).Untouched after := by
  have same : ((Chronicle.start engine).run commands).engine = commands.foldl Engine.after engine :=
    (List.foldl_hom Chronicle.engine fun _ _ => rfl).symm
  have recorded := (create_recorded written created).run commands
  have kept := create_keeps written arranged created commands
  rw [← same] at kept raised ⊢
  exact (request_untouched requests recorded rfl kept).error raised

/-- The call raises in this state. -/
def Protocol.Command.raises (engine : Engine) (request : Command) : Bool :=
  match request.run engine with
  | .ok _ _ => false
  | .error _ _ => true

theorem Protocol.Command.error_of_raises {request : Command} (raises : request.raises engine = true) :
    ∃ failure after, request.run engine = .error failure after := by
  cases ended : request.run engine with
  | ok returned after => simp [Command.raises, ended] at raises
  | error failure after => exact ⟨failure, after, rfl⟩

/-- MQTT 5 with manual acknowledgement. -/
def limitedConfig : EngineConfig where
  clientId := [99]
  protocol := .mqttv5
  manualAck := true
  accepted := rfl

def limitedEngine : Engine := Engine.started limitedConfig { kind := .memory } (∅, 0, [])

/-- The broker accepts packets of up to 20 bytes. A publication is on its way to it, and one
from it waits to be acknowledged. -/
def limitedCommands : List Command :=
  [.beginConnect, .handleRaw ⟨.connack, 0, [0, 0, 8, 39, 0, 0, 0, 20, 33, 0, 1]⟩,
   .queuePublish 0 { topic := [116], payload := [1], qos := .atLeastOnce },
   .handleRaw ⟨.publish, 2, [0, 1, 97, 0, 1, 0, 104]⟩]

set_option maxRecDepth 4000 in
/-- A subscription that turns out too large after it took an identifier. -/
theorem refused_unchanged_oversized :
    let engine := limitedCommands.foldl Engine.after limitedEngine
    let request := Command.queueSubscribe 0 [{ topic := .replicate 20 97 }] none
    engine.outbound.packetIds.used = {1} ∧ engine.inbound.manualQos1Order = [1] ∧
    engine.effects.length = 3 ∧
    ∃ failure after, request.run engine = .error failure after ∧ engine.Untouched after := by
  intro engine request
  have created : Engine.create limitedConfig { kind := .memory } = .ok limitedEngine := rfl
  have arranged : Store.Arranged { kind := .memory } :=
    ⟨by simp [Store.Atomic], by simp, by simp [Dict.empty]⟩
  have requests : request.Requests := trivial
  have raises : request.raises engine = true := by decide
  obtain ⟨failure, after, raised⟩ := Command.error_of_raises raises
  exact ⟨by decide, by decide, by decide, failure, after, raised,
    refused_unchanged memory_written arranged created limitedCommands requests raised⟩

end

end Mqttium
