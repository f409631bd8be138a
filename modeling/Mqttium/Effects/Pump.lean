import Mqttium.Library.Raising
import Mqttium.Protocol.Config

/-! The pump that applies what the engine emits. A step runs from one await to the next;
the pump calls nothing that comes back to it. -/

namespace Mqttium.Effects

open Library Protocol

/-- An effect the engine emitted: which one it is among all it emitted, and in which batch
and on which connection it was collected. -/
structure EngineEffect where
  serial : Nat
  batch : Nat
  connection : Nat
  value : Effect
  deriving DecidableEq, Repr

namespace EngineEffect

def isSend (effect : EngineEffect) : Bool :=
  match effect.value with
  | .send _ | .sendAck _ => true
  | _ => false

def isDelivery (effect : EngineEffect) : Bool :=
  match effect.value with
  | .message _ _ _ | .decodedMessage _ _ _ _ | .continueInboundReplay => true
  | _ => false

/-- The members of `IMMEDIATE_EFFECTS`. -/
def isImmediate (effect : EngineEffect) : Bool :=
  match effect.value with
  | .auth _ _ _ | .connack _ _ _ | .publishComplete _ | .publishFailed _ _ | .suback _ _ _
  | .unsuback _ _ _ | .pingresp => true
  | _ => false

/-- The members of `EARLY_OBSERVATIONS`. -/
def isEarlyObservation (effect : EngineEffect) : Bool :=
  match effect.value with
  | .disconnected _ _ _ | .protocolError _ => true
  | _ => false

/-- The effects that settle a publication. -/
def isTerminal (effect : EngineEffect) : Bool :=
  match effect.value with
  | .publishComplete _ | .publishFailed _ _ => true
  | _ => false

end EngineEffect

structure Partition where
  sends : List EngineEffect := []
  others : List EngineEffect := []
  deliveries : List EngineEffect := []
  observed : List EngineEffect := []
  reordered : Bool := false
  deriving DecidableEq, Repr

def Partition.add (parts : Partition) (effect : EngineEffect) : Partition :=
  if effect.isSend then
    { parts with
      reordered := parts.reordered || !parts.others.isEmpty || !parts.deliveries.isEmpty
      sends := parts.sends ++ [effect] }
  else if effect.isDelivery then { parts with deliveries := parts.deliveries ++ [effect] }
  else if effect.isImmediate then { parts with observed := parts.observed ++ [effect] }
  else
    { parts with
      observed := if effect.isEarlyObservation then parts.observed ++ [effect] else parts.observed
      others := parts.others ++ [effect] }

/-- What of a batch is ordered work, what goes to the reader and what is applied now. -/
def partitionEffects (effects : List EngineEffect) :
    List EngineEffect × List EngineEffect × List EngineEffect :=
  let parts := effects.foldl Partition.add {}
  if parts.reordered || !parts.deliveries.isEmpty || !parts.observed.isEmpty then
    (parts.sends ++ parts.others, parts.deliveries, parts.observed)
  else (effects, parts.deliveries, parts.observed)

/-- What the writer, or the transport that is closed, says to an effect. -/
inductive Answer where
  | took
  /-- Not now. -/
  | busy
  /-- `StaleConnectionEffect`. -/
  | stale
  | raises
  deriving DecidableEq, Repr

inductive EffectFailure where
  | writer
  | transport
  | protocol (failure : Failure)
  | nonProtocolEffect
  deriving DecidableEq, Repr

/-- Where the scheduled flush is. -/
inductive Flusher where
  /-- There is no task, or it is done. -/
  | idle
  /-- The task has not run yet. -/
  | created
  /-- It holds the lock, between two effects. -/
  | looping
  /-- In `_apply_effect`. -/
  | applying (effect : EngineEffect) (epoch : Nat)
  /-- In the close that follows a failure. -/
  | closing
  deriving DecidableEq, Repr

def Flusher.locked : Flusher → Bool
  | idle | created => false
  | looping | applying _ _ | closing => true

/-- Where a call of `drain` is. -/
inductive DrainStage where
  | waiting (woken : Bool)
  | returned
  | raised
  | cancelled
  deriving DecidableEq, Repr

structure Drain where
  target : Nat
  stage : DrainStage
  deriving DecidableEq, Repr

def Drain.wake (drain : Drain) : Drain :=
  match drain.stage with
  | .waiting _ => { drain with stage := .waiting true }
  | _ => drain

/-- What the delivery lane is given at once, with the protocol work it waits for. -/
structure Lot where
  epoch : Nat
  target : Nat
  effects : List EngineEffect
  deriving DecidableEq, Repr

structure EffectPump where
  /-- The owner's connection epoch. -/
  connectionEpoch : Nat := 0
  /-- How many connections the client made, and whether the last one has ended. -/
  connection : Nat := 0
  ended : Bool := true
  pending : List EngineEffect := []
  pendingEpoch : Nat := 0
  enqueued : Nat := 0
  applied : Nat := 0
  batches : Nat := 0
  flusher : Flusher := .idle
  flushRequested : Bool := false
  drainingInline : Bool := false
  failingClose : Bool := false
  drains : List Drain := []
  errorWaiters : List Nat := []
  /-- Every effect collected so far. -/
  emitted : List EngineEffect := []
  /-- What the writer took, in the order it took it. -/
  handed : List EngineEffect := []
  /-- The publications settled, in the order they were. -/
  settled : List EngineEffect := []
  lane : List Lot := []
  discarded : List EngineEffect := []
  /-- Dropped because the epoch, of the client or of the writer, had moved on. -/
  stale : List EngineEffect := []
  /-- Applications that raised. -/
  failed : List EngineEffect := []
  deriving DecidableEq, Repr

abbrev PumpM := EStateM EffectFailure EffectPump

namespace EffectPump

def wakeDrains (pump : EffectPump) : EffectPump :=
  { pump with drains := pump.drains.map Drain.wake }

def complete (pump : EffectPump) : EffectPump :=
  { pump with applied := pump.applied + 1 }.wakeDrains

/-- Take the head of the deque, and count it as applied. -/
def popLeft (pump : EffectPump) : EffectPump :=
  { pump with pending := pump.pending.tail }.complete

def enqueue (pump : EffectPump) (effects : List EngineEffect) (epoch : Nat) : EffectPump :=
  { pump with
    pendingEpoch := if pump.pending = [] then epoch else pump.pendingEpoch
    pending := pump.pending ++ effects
    enqueued := pump.enqueued + effects.length }

def collectLane (pump : EffectPump) (effects : List EngineEffect) (epoch : Nat) : EffectPump :=
  { pump with lane := pump.lane ++ [⟨epoch, pump.enqueued, effects⟩] }

/-- The effects of a batch, as the pump knows them. -/
def stamp (pump : EffectPump) (batch : List Effect) : List EngineEffect :=
  batch.mapIdx fun index value =>
    ⟨pump.emitted.length + index, pump.batches, pump.connection, value⟩

def discardConnectionEffects (pump : EffectPump) (settlePublish : Bool) : EffectPump :=
  let terminal := pump.pending.filter EngineEffect.isTerminal
  let retained := if settlePublish then [] else terminal
  let dropped := pump.pending.filter fun effect => !effect.isTerminal
  { pump with
    pending := retained
    pendingEpoch := if retained = [] then pump.pendingEpoch else pump.connectionEpoch
    applied := pump.applied + (pump.pending.length - retained.length)
    settled := if settlePublish then pump.settled ++ terminal else pump.settled
    discarded := pump.discarded ++ dropped }.wakeDrains

def schedule (pump : EffectPump) : EffectPump :=
  { pump with
    flushRequested := true
    flusher := if pump.flusher = .idle then .created else pump.flusher }

/-- `_apply_effect_inline`; `answer` is what the writer says to a send. -/
def applyEffectInline (answer : Answer) (effect : EngineEffect) (epoch : Nat) : PumpM Bool := do
  let pump ← get
  if epoch ≠ pump.connectionEpoch then
    modify fun pump => { pump with stale := pump.stale ++ [effect] }
    return true
  else
    match effect.value with
    | .send _ | .sendAck _ =>
      match answer with
      | .took =>
        modify fun pump => { pump with handed := pump.handed ++ [effect] }
        return true
      | .busy => return false
      | .stale =>
        modify fun pump => { pump with stale := pump.stale ++ [effect] }
        return true
      | .raises =>
        modify fun pump => { pump with failed := pump.failed ++ [effect] }
        throw .writer
    | .publishComplete _ | .publishFailed _ _ =>
      modify fun pump => { pump with settled := pump.settled ++ [effect] }
      return true
    | .connack _ _ _ | .suback _ _ _ | .unsuback _ _ _ | .pingresp | .auth _ _ _ => return true
    | .protocolError failure => throw (.protocol failure)
    | _ => return false

def applyObservation (effect : EngineEffect) : PumpM Bool := do
  let pump ← get
  if effect.isImmediate then applyEffectInline .busy effect pump.connectionEpoch
  else return false

/-- Handle a batch of one effect without queueing it when possible. -/
def collectSingle (answer : Answer) (effect : EngineEffect) (epoch : Nat) : PumpM Bool := do
  if effect.isDelivery then
    modify fun pump => pump.collectLane [effect] epoch
    return true
  else
    let pump ← get
    let done ← if pump.pending = [] then applyEffectInline answer effect epoch else pure false
    if done then return true
    else if effect.isImmediate || effect.isEarlyObservation then applyObservation effect
    else return false

/-- Queue what is left of a batch after its observations. -/
def collectOrdered (ordered deliveries : List EngineEffect) (epoch : Nat) : PumpM PUnit := do
  modify fun pump => pump.enqueue ordered epoch
  onlyIf (deliveries ≠ []) do modify fun pump => pump.collectLane deliveries epoch

/-- A batch of several effects. -/
def collectMany (effects : List EngineEffect) (epoch : Nat) : PumpM PUnit := do
  let (ordered, deliveries, observed) := partitionEffects effects
  forEach (fun effect => discard (applyObservation effect)) observed
  onlyIf (ordered ≠ [] ∨ deliveries ≠ []) (collectOrdered ordered deliveries epoch)

/-- What happens to a batch once nothing of an earlier epoch is pending. -/
def collectBatch (effects : List EngineEffect) (epoch : Nat) (answer : Answer) : PumpM PUnit := do
  let pump ← get
  if pump.failingClose then
    modify fun pump => (pump.enqueue effects epoch).discardConnectionEffects true
  else
    match effects with
    | [effect] => do
      let done ← collectSingle answer effect epoch
      onlyIf (done = false) (collectOrdered [effect] [] epoch)
    | effects => collectMany effects epoch

def collectFromEngine (batch : List Effect) (answer : Answer) : PumpM PUnit :=
  onlyIf (batch ≠ []) do
    let pump ← get
    let effects := pump.stamp batch
    let epoch := pump.connectionEpoch
    modify fun pump =>
      { pump with
        batches := pump.batches + 1
        emitted := pump.emitted ++ effects }
    onlyIf (pump.pending ≠ [] ∧ pump.pendingEpoch ≠ epoch) do
      modify fun pump => pump.discardConnectionEffects false
    collectBatch effects epoch answer

/-- The loop of `drain_inline` over the deque. -/
def drainPending (answers : Nat → Answer) (target : Option Nat) (epoch : Nat) :
    List EngineEffect → PumpM PUnit
  | [] => pure ⟨⟩
  | effect :: rest => do
    let pump ← get
    onlyIf (target.all (pump.applied < ·) = true) do
      let done ← applyEffectInline (answers effect.serial) effect epoch
      onlyIf (done = true) do
        modify popLeft
        drainPending answers target epoch rest

/-- Drain what is pending under the current epoch, and schedule what is left. -/
def drainCurrent (answers : Nat → Answer) (target : Option Nat) : PumpM PUnit := do
  let pump ← get
  onlyIf (pump.pending ≠ []) do
    modify fun pump => { pump with drainingInline := true }
    let outcome ← attempt (drainPending answers target pump.pendingEpoch pump.pending)
    modify fun pump => { pump with drainingInline := false }
    match outcome with
    | .error error => throw error
    | .ok _ => do
      let pump ← get
      onlyIf (pump.pending ≠ []) (modify schedule)

def drainInline (answers : Nat → Answer) (target : Option Nat) : PumpM PUnit := do
  let pump ← get
  onlyIf (¬ (pump.drainingInline ∨ pump.flusher.locked) ∧ pump.pending ≠ []) do
    onlyIf (pump.pendingEpoch ≠ pump.connectionEpoch) do
      modify fun pump => pump.discardConnectionEffects false
    drainCurrent answers target

/-! The scheduled flush -/

/-- How a run of `_apply_effect` ends, at its next await or for good. -/
inductive Application where
  | done
  | suspended
  | stale
  | failed (error : EffectFailure)
  deriving DecidableEq, Repr

/-- Enqueue a send, from the start or from the wait for capacity. The writer takes nothing
for an epoch that has passed. -/
def applySend (answer : Answer) (effect : EngineEffect) (epoch : Nat) : PumpM Application := do
  let pump ← get
  match (if epoch = pump.connectionEpoch then answer else .stale) with
  | .took =>
    modify fun pump => { pump with handed := pump.handed ++ [effect] }
    return .done
  | .busy => return .suspended
  | .stale =>
    modify fun pump => { pump with stale := pump.stale ++ [effect] }
    return .stale
  | .raises =>
    modify fun pump => { pump with failed := pump.failed ++ [effect] }
    return .failed .writer

/-- `_apply_effect`, from its start or from where it awaits. -/
def applyEffect (answer : Answer) (effect : EngineEffect) (epoch : Nat) : PumpM Application := do
  match effect.value with
  | .send _ | .sendAck _ => applySend answer effect epoch
  | .publishComplete _ | .publishFailed _ _ =>
    modify fun pump => { pump with settled := pump.settled ++ [effect] }
    return .done
  | .connack _ _ _ | .suback _ _ _ | .unsuback _ _ _ | .pingresp | .auth _ _ _ => return .done
  | .disconnected _ _ _ =>
    match answer with
    | .busy => return .suspended
    | .raises => return .failed .transport
    | _ => return .done
  | .protocolError failure => return .failed (.protocol failure)
  | _ => return .failed .nonProtocolEffect

/-- `_fail_connection`, to its await: the drains that wait for the failed effect or for a
later one get its exception, and whatever is pending is settled or dropped. -/
def failConnection (pump : EffectPump) : EffectPump :=
  let owners := (pump.drains.zipIdx.filter fun (drain, _) =>
    (drain.stage == .waiting true || drain.stage == .waiting false) &&
      decide (pump.applied ≤ drain.target)).map Prod.snd
  let told := if owners = [] then pump else { pump with errorWaiters := owners }.wakeDrains
  { told with
    ended := true
    failingClose := true
    flusher := .closing }.discardConnectionEffects true

/-- An effect that is done with leaves the deque, unless it was discarded meanwhile. -/
def leave (effect : EngineEffect) : PumpM PUnit := do
  let pump ← get
  onlyIf (pump.pending.head? = some effect) (modify popLeft)

/-- What the flush does once an application has got somewhere. -/
def afterApplication (effect : EngineEffect) (epoch : Nat) (application : Application) : PumpM PUnit :=
  match application with
  | .suspended => modify fun pump => { pump with flusher := .applying effect epoch }
  | application => do
    leave effect
    match application with
    | .failed _ => modify failConnection
    | _ => modify fun pump => { pump with flusher := .looping }

/-- One turn of the loop of `_run_scheduled`. -/
def flushTurn (answer : Answer) : PumpM PUnit := do
  let pump ← get
  match pump.pending with
  | [] =>
    if pump.flushRequested then modify fun pump => { pump with flushRequested := false }
    else modify fun pump => { pump with flusher := .idle }
  | effect :: _ =>
    if pump.pendingEpoch ≠ pump.connectionEpoch then
      modify fun pump => pump.discardConnectionEffects false
    else
      let application ← applyEffect answer effect pump.pendingEpoch
      afterApplication effect pump.pendingEpoch application

def applyResumes (answer : Answer) (effect : EngineEffect) (epoch : Nat) : PumpM PUnit := do
  let application ← applyEffect answer effect epoch
  afterApplication effect epoch application

/-- The `finally` of `_fail_connection`. -/
def closeEnds (pump : EffectPump) : EffectPump :=
  let dropped := if pump.pending = [] then pump else pump.discardConnectionEffects true
  { dropped with failingClose := false, flusher := .idle }

/-- The client cancels the flush, where it awaits or before it runs. -/
def cancelFlush (pump : EffectPump) : EffectPump :=
  match pump.flusher with
  | .created | .applying _ _ => { pump with flusher := .idle }
  | .closing => pump.closeEnds
  | _ => pump

/-! Drains -/

def drain (answers : Nat → Answer) (nowait : Bool) (target : Option Nat) : PumpM PUnit := do
  drainInline answers target
  let pump ← get
  if nowait then onlyIf (pump.pending ≠ []) (modify schedule)
  else
    onlyIf (pump.applied < target.getD pump.enqueued) do
      modify fun pump =>
        let waiting : Drain := ⟨target.getD pump.enqueued, .waiting false⟩
        { pump with drains := pump.drains ++ [waiting] }.schedule

/-- The `finally` of `drain`. -/
def leaveDrain (pump : EffectPump) (index : Nat) (stage : DrainStage) : EffectPump :=
  { pump with
    drains := pump.drains.modify index fun drain => { drain with stage }
    errorWaiters := pump.errorWaiters.erase index }

/-- A drain looks again once progress woke it. -/
def wakeDrain (pump : EffectPump) (index : Nat) : EffectPump :=
  match pump.drains[index]? with
  | some ⟨target, .waiting true⟩ =>
    if index ∈ pump.errorWaiters then pump.leaveDrain index .raised
    else if target ≤ pump.applied then pump.leaveDrain index .returned
    else
      { pump with
        drains := pump.drains.modify index fun drain =>
          { drain with stage := .waiting false } }.schedule
  | _ => pump

def cancelDrain (pump : EffectPump) (index : Nat) : EffectPump :=
  match pump.drains[index]? with
  | some ⟨_, .waiting _⟩ => pump.leaveDrain index .cancelled
  | _ => pump

/-! The client -/

/-- The connection is retired: its epoch passes, for the writer too. -/
def retireConnectionEpoch (pump : EffectPump) : EffectPump :=
  { pump with connectionEpoch := pump.connectionEpoch + 1, ended := true }

/-- A connection starts: the epoch passes and what is left of earlier ones is dropped. -/
def connect (pump : EffectPump) : EffectPump :=
  { pump.retireConnectionEpoch.discardConnectionEffects false with
    connection := pump.connection + 1
    ended := false
    flushRequested := false }

end EffectPump

/-- What the engine, the client, the flush and the drains do. -/
inductive Step where
  | collectFromEngine (batch : List Effect) (answer : Answer)
  | drainInline (answers : Nat → Answer) (target : Option Nat)
  | schedule
  | drain (answers : Nat → Answer) (nowait : Bool) (target : Option Nat)
  | wakeDrain (index : Nat)
  | cancelDrain (index : Nat)
  | flushStarts
  | flushTurn (answer : Answer)
  | applyResumes (answer : Answer)
  | closeEnds
  | cancelFlush
  /-- The callback of a flush that is done. -/
  | flushDone
  | retireConnectionEpoch
  | discardConnectionEffects (settlePublish : Bool)
  | connect

/-- What the engine emits in a step. -/
def Step.batch : Step → List Effect
  | .collectFromEngine batch _ => batch
  | _ => []

namespace EffectPump

/-- The client discards effects only once their connection has ended, and no send is being
applied that the writer could still take. It connects only once it has joined the flush. -/
def permits (pump : EffectPump) : Step → Prop
  | .discardConnectionEffects _ =>
    pump.ended = true ∧ ∀ effect, effect.isSend →
      pump.flusher ≠ .applying effect pump.connectionEpoch
  | .connect => pump.flusher = .idle
  | _ => True

def perform : Step → PumpM PUnit
  | .collectFromEngine batch answer => collectFromEngine batch answer
  | .drainInline answers target => drainInline answers target
  | .schedule => modify schedule
  | .drain answers nowait target => drain answers nowait target
  | .wakeDrain index => modify fun pump => pump.wakeDrain index
  | .cancelDrain index => modify fun pump => pump.cancelDrain index
  | .flushStarts => do
    let pump ← get
    onlyIf (pump.flusher = .created) do
      modify fun pump => { pump with flushRequested := false, flusher := .looping }
  | .flushTurn answer => do
    let pump ← get
    onlyIf (pump.flusher = .looping) (flushTurn answer)
  | .applyResumes answer => do
    let pump ← get
    match pump.flusher with
    | .applying effect epoch => applyResumes answer effect epoch
    | _ => pure ⟨⟩
  | .closeEnds => do
    let pump ← get
    onlyIf (pump.flusher = .closing) (modify closeEnds)
  | .cancelFlush => modify cancelFlush
  | .flushDone => do
    let pump ← get
    onlyIf (pump.flusher = .idle ∧ pump.flushRequested = true ∧ pump.pending ≠ [])
      (modify schedule)
  | .retireConnectionEpoch => modify retireConnectionEpoch
  | .discardConnectionEffects settlePublish =>
    modify fun pump => pump.discardConnectionEffects settlePublish
  | .connect => modify connect

/-- What a step leaves, however it ends. -/
def after (pump : EffectPump) (step : Step) : EffectPump :=
  (Library.ended (perform step) pump).2

/-- The pump after some steps, each of them one that can happen there. -/
inductive Reaches : List Step → EffectPump → Prop where
  | start : Reaches [] {}
  | step {steps : List Step} {pump : EffectPump} (reaches : Reaches steps pump) (next : Step)
      (permitted : pump.permits next) : Reaches (steps ++ [next]) (pump.after next)

end EffectPump

end Mqttium.Effects
