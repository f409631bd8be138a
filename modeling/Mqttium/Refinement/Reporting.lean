import Mqttium.Refinement.Hydrating

/-! What the engine reports of its outbound session, over any calls and restarts. -/

namespace Mqttium

open Codec Library Packets Persistence Protocol

/-- The engine that a call leaves, however it ends. -/
def Protocol.Engine.after (engine : Engine) (command : Command) : Engine :=
  (Session.step ⟨engine, []⟩ command).engine

namespace Protocol.Engine

section

variable {engine last : Engine} {command : Command} {returned : Option WriteItem} {failure : Failure}

theorem after_ok (ended : command.run engine = .ok returned last) : engine.after command = last :=
  Session.step_engine ended

theorem after_error (ended : command.run engine = .error failure last) :
    engine.after command = last := by
  rw [after, Session.step_error ended]

/-- What holds however the call ends holds of the engine it leaves. -/
theorem after_sat {post : Engine → Prop}
    (runs : Sat command.run engine (fun _ after => post after) fun _ after => post after) :
    post (engine.after command) :=
  Session.step_sat runs

end

end Protocol.Engine

/-- Clients come one after the other on a store; each makes calls that `allowed` admits. -/
inductive Reached (allowed : Engine → Command → Prop) : Engine → Prop where
  | start {config : EngineConfig} {store : Store} {engine : Engine} (written : store.Written)
      (created : Engine.create config store = .ok engine) : Reached allowed engine
  | restart {config : EngineConfig} {before engine : Engine} (reached : Reached allowed before)
      (created : Engine.create config before.store = .ok engine) : Reached allowed engine
  | call {engine : Engine} {command : Command} (reached : Reached allowed engine)
      (admitted : allowed engine command) : Reached allowed (engine.after command)

/-- The store holds an exchange that the broker may know. -/
def Persistence.Store.Holds (store : Store) : Prop :=
  ∃ mid row, store.out.get? mid = some row ∧ (row.message.state = .waitPuback ∨
    row.message.state = .waitPubrec ∨ row.message.state = .waitPubcomp)

theorem Attended.after {engine : Engine} {command : Command} (attended : Attended engine)
    (spared : command.strands engine = false) : Attended (engine.after command) :=
  Engine.after_sat (attended_run attended spared)

theorem Reached.attended {engine : Engine}
    (reached : Reached (fun engine command => command.strands engine = false) engine) :
    Attended engine := by
  induction reached with
  | start written created => exact create_attended created written
  | restart _ created before => exact create_attended created (Attended.written before)
  | call _ spared before => exact Attended.after before spared

theorem hasClientSessionState_iff (outbound : OutboundSession) :
    Outbound.hasClientSessionState outbound = true ↔
      0 < outbound.flow.holders.card ∨ ∃ mid, outbound.sealed.get? mid = some true := by
  have marked : true ∈ outbound.sealed.values ↔ ∃ mid, outbound.sealed.get? mid = some true := by
    simp [Dict.values, Dict.get?_eq_some_iff]
  simp [Outbound.hasClientSessionState, FlowControl.inflight, ← marked]

theorem holds_iff (watch : Watch) (engine : Engine) :
    engine.store.Holds ↔ ∃ mid entry, (view watch engine).rows.get? mid = some entry ∧
      entry.state.inFlight = true := by
  have flies (row : OutRow) : (entryOf row).state.inFlight = true ↔
      row.message.state = .waitPuback ∨ row.message.state = .waitPubrec ∨
        row.message.state = .waitPubcomp := by
    cases state : row.message.state <;>
      simp [entryOf, state, OutboundQoSState.inFlight, OutboundQoSState.waiting]
  simp only [Store.Holds, view_row, Option.map_eq_some_iff, ← flies]
  grind

/-- As long as no call strands an exchange in its release phase, the report is exact. -/
theorem session_state_reported {engine : Engine}
    (reached : Reached (fun engine command => command.strands engine = false) engine) :
    Outbound.hasClientSessionState engine.outbound = true ↔ engine.store.Holds := by
  obtain ⟨watch, attending⟩ := reached.attended
  have valid := attending.ready.sound.accounts
  rw [hasClientSessionState_iff, holds_iff watch]
  exact attending.covered.reported valid engine.outbound.flow.limit_pos

theorem durable_accepted :
    ({ clientId := [97], cleanStart := false } : EngineOptions).check = .ok () := rfl

/-- A client that keeps its session. -/
def durableConfig : EngineConfig :=
  { clientId := [97], cleanStart := false, accepted := durable_accepted }

def durableEngine : Engine := Engine.started durableConfig { kind := .memory } (∅, 0, [])

theorem durableEngine_created :
    Engine.create durableConfig { kind := .memory } = .ok durableEngine := rfl

theorem memory_written : Store.Written { kind := .memory } where
  reliable _ := rfl
  rows mid row found := by simp at found
  unfinished mid row found := by simp at found
  ordered := .nil
  numbered mid row found := by simp at found

/-- A QoS 2 publication that the broker has received. -/
def receivedRelease : List Command :=
  [.beginConnect, .handleRaw ⟨.connack, 0, [0, 0]⟩,
   .queuePublish 0 { topic := [116], payload := [1], qos := .exactlyOnce },
   .handleRaw ⟨.pubrec, 0, [0, 1]⟩]

/-- A reconnection that resumes its session. -/
def resumption : List Command :=
  [.notifyTransportClosed, .beginConnect, .handleRaw ⟨.connack, 0, [1, 0]⟩]

theorem Reached.calls {engine : Engine} (reached : Reached (fun _ _ => True) engine)
    (commands : List Command) : Reached (fun _ _ => True) (commands.foldl Engine.after engine) := by
  induction commands generalizing engine with
  | nil => exact reached
  | cons command rest ih => exact ih (reached.call trivial)

set_option maxRecDepth 8000 in
/-- Before the connection is lost the exchange owns the slot of its PUBLISH. -/
theorem session_state_reported_released :
    Outbound.hasClientSessionState (receivedRelease.foldl Engine.after durableEngine).outbound = true ∧
    (Outbound.hasClientSessionState (receivedRelease.foldl Engine.after durableEngine).outbound = true ↔
      (receivedRelease.foldl Engine.after durableEngine).store.Holds) :=
  ⟨by decide +kernel, session_state_reported (.call (.call (.call (.call
    (.start memory_written durableEngine_created) (by decide)) (by decide)) (by decide)) (by decide))⟩

set_option maxRecDepth 8000 in
/-- The PUBREL is sent again without a slot, and nothing reports the exchange. -/
theorem session_state_unreported : ¬ ∀ engine, Reached (fun _ _ => True) engine →
    (Outbound.hasClientSessionState engine.outbound = true ↔ engine.store.Holds) := by
  intro reports
  have start : Reached (fun _ _ => True) durableEngine := .start memory_written durableEngine_created
  have reached := start.calls (receivedRelease ++ resumption)
  have stored : (((receivedRelease ++ resumption).foldl Engine.after durableEngine).store.out.get? 1).map
      (fun row => row.message.state) = some .waitPubcomp := by
    decide +kernel
  obtain ⟨row, found, released⟩ := Option.map_eq_some_iff.mp stored
  have reported := (reports _ reached).mpr ⟨1, row, found, .inr (.inr released)⟩
  have silent : Outbound.hasClientSessionState
      ((receivedRelease ++ resumption).foldl Engine.after durableEngine).outbound = false := by
    decide +kernel
  rw [silent] at reported
  cases reported

end Mqttium
