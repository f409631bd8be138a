import Mathlib.Algebra.Order.Ring.Nat
import Mathlib.Data.List.Basic

/-! The lane between the engine's deliveries and the application, with the reader that
drains it. A step runs from one await of the drain to the next, or is what another
task does meanwhile. -/

namespace Mqttium.Delivery

inductive MessageDelivery where
  | iterator
  | callback
  deriving DecidableEq, Repr

/-- What a client fixes for good. -/
structure Settings where
  mode : MessageDelivery
  maxIteratorMessages : Nat
  maxIteratorBytes : Option Nat
  /-- `iterator_admission_timeout` is set. -/
  hasTimeout : Bool
  deriving DecidableEq, Repr

/-- A delivery effect: a message with its logical size and the identifier its delivery is
marked under, if it needs a mark, or the continuation of the replay. -/
inductive LaneEffect (Body : Type) where
  | message (body : Body) (size : Nat) (mark : Option Nat)
  | continueInboundReplay
  deriving DecidableEq, Repr

def survivesConnection {Body : Type} : LaneEffect Body → Bool
  | .message _ _ none => true
  | _ => false

/-- Where a drain is. -/
inductive Await (Body : Type) where
  /-- In `drain(target)` of the effect pump. -/
  | fence
  /-- Between two effects; nothing is awaited there. -/
  | ready
  /-- In a waiting admission of this generation. -/
  | admission (effect : LaneEffect Body) (body : Body) (size : Nat) (mark : Option Nat)
    (generation : Nat)
  /-- In the fairness yield after this effect's callbacks. -/
  | fairness
  | replay
  deriving DecidableEq, Repr

/-- The lot a drain has taken, less the effects it is past. -/
structure Active (Body : Type) where
  epoch : Nat
  effects : List (LaneEffect Body)
  awaits : Await Body
  deriving DecidableEq, Repr

structure Lot (Body : Type) where
  epoch : Nat
  target : Nat
  effects : List (LaneEffect Body)
  deriving DecidableEq, Repr

/-- What became of an effect. `current` tells whether its connection was still the
client's. -/
inductive Event (Body : Type) where
  | handed (effect : LaneEffect Body) (current : Bool)
  /-- Its own admission raised `MessageDeliveryError`. -/
  | refused (effect : LaneEffect Body)
  | marked (mid : Nat) (current : Bool)
  deriving DecidableEq, Repr

structure DeliveryLane (Body : Type) where
  /-- The owner's connection epoch. -/
  epoch : Nat := 0
  pending : List (Lot Body) := []
  carryover : List (LaneEffect Body) := []
  pendingCount : Int := 0
  activeCount : Int := 0
  enqueued : Int := 0
  applied : Int := 0
  queue : List (Body × Nat) := []
  pendingBytes : Int := 0
  admissionGeneration : Nat := 0
  sinceYield : Nat := 0
  active : Option (Active Body) := none
  /-- The effects put on the lane that outlive their connection. -/
  arrived : List (LaneEffect Body) := []
  log : List (Event Body) := []
  deriving Repr

/-- What the application's callbacks and the engine do at one effect: how many callbacks
ran, whether the last of them raised a cancellation that belongs to the running task,
and whether the engine raised, at the mark or over the completions of a whole lot. -/
structure Outcome where
  ran : Nat
  cancelled : Bool
  raises : Bool
  deriving DecidableEq, Repr

namespace DeliveryLane

variable {Body : Type}

def outstanding (lane : DeliveryLane Body) : Int := lane.pendingCount + lane.activeCount

def collect (lane : DeliveryLane Body) (effects : List (LaneEffect Body)) (target : Nat) :
    DeliveryLane Body :=
  { lane with
    pending := lane.pending ++ [⟨lane.epoch, target, effects⟩]
    pendingCount := lane.pendingCount + effects.length
    enqueued := lane.enqueued + effects.length
    arrived := lane.arrived ++ effects.filter survivesConnection }

/-- The `finally` of a lot: the acknowledged rest goes ahead of the carryover. -/
def unwind (lane : DeliveryLane Body) (effects : List (LaneEffect Body)) : DeliveryLane Body :=
  let survivors := effects.filter survivesConnection
  { lane with
    carryover := survivors ++ lane.carryover
    pendingCount := lane.pendingCount + survivors.length
    applied := lane.applied + (lane.activeCount - survivors.length)
    activeCount := 0
    active := none }

/-- Take the next lot, or leave the loop. -/
def takeLot (lane : DeliveryLane Body) : DeliveryLane Body :=
  match lane.pending with
  | [] => { lane with active := none }
  | lot :: rest =>
    { lane with
      pending := rest
      pendingCount := lane.pendingCount - lot.effects.length
      activeCount := lot.effects.length
      active := some ⟨lot.epoch, lot.effects, if lot.epoch = lane.epoch then .fence else .ready⟩ }

/-- The drain is past an effect. -/
def finish (lane : DeliveryLane Body) (active : Active Body) : DeliveryLane Body :=
  { lane with
    activeCount := lane.activeCount - 1
    applied := lane.applied + 1
    active := some { active with awaits := .ready } }

def record (lane : DeliveryLane Body) (event : Event Body) : DeliveryLane Body :=
  { lane with log := lane.log ++ [event] }

def full (settings : Settings) (lane : DeliveryLane Body) : Bool :=
  0 < settings.maxIteratorMessages && settings.maxIteratorMessages ≤ lane.queue.length

/-- Neither the count nor the bytes leave room. -/
def mustWait (settings : Settings) (lane : DeliveryLane Body) (size : Nat) : Bool :=
  match settings.maxIteratorBytes with
  | none => lane.full settings
  | some limit => limit < lane.pendingBytes + size || lane.full settings

def tooLarge (settings : Settings) (size : Nat) : Bool :=
  settings.maxIteratorBytes.any (· < size)

/-- Put a message in the iterator queue, within its bounds or past them. -/
def enqueue (settings : Settings) (lane : DeliveryLane Body) (body : Body) (size : Nat) :
    DeliveryLane Body :=
  { lane with
    queue := lane.queue ++ [(body, size)]
    pendingBytes :=
      if settings.maxIteratorBytes.isSome then lane.pendingBytes + size else lane.pendingBytes }

/-- The application has the message: mark it if it needs a mark, then go on or pause. -/
def afterHandOver (lane : DeliveryLane Body) (active : Active Body) (mark : Option Nat)
    (markRaises pauses : Bool) : DeliveryLane Body :=
  match mark with
  | none =>
    if pauses then { lane with active := some { active with awaits := .fairness } }
    else lane.finish active
  | some mid =>
    if markRaises then lane.unwind active.effects
    else
      let marked := lane.record (.marked mid (active.epoch == lane.epoch))
      if pauses then { marked with active := some { active with awaits := .fairness } }
      else marked.finish active

def callbackQuantum : Nat := 128

/-- Run a message's callbacks; the budget they use up is charged to the next yield. -/
def acceptCallback (lane : DeliveryLane Body) (active : Active Body) (effect : LaneEffect Body)
    (mark : Option Nat) (outcome : Outcome) : DeliveryLane Body :=
  let charged := lane.sinceYield + outcome.ran
  let ran := { lane with sinceYield := charged }.record
    (.handed effect (active.epoch == lane.epoch))
  if outcome.cancelled then ran.unwind active.effects
  else if callbackQuantum ≤ charged then
    { ran with sinceYield := charged % callbackQuantum }.afterHandOver active mark
      outcome.raises true
  else ran.afterHandOver active mark outcome.raises false

def acceptIterator (settings : Settings) (lane : DeliveryLane Body) (active : Active Body)
    (effect : LaneEffect Body) (body : Body) (size : Nat) (mark : Option Nat)
    (outcome : Outcome) : DeliveryLane Body :=
  if tooLarge settings size then (lane.record (.refused effect)).unwind active.effects
  else if lane.mustWait settings size then
    { lane with
      active := some { active with
        awaits := .admission effect body size mark lane.admissionGeneration } }
  else
    ((lane.enqueue settings body size).record
      (.handed effect (active.epoch == lane.epoch))).afterHandOver active mark outcome.raises
        false

/-- The next turn of the drain, between two effects. -/
def applyNext (settings : Settings) (lane : DeliveryLane Body) (active : Active Body)
    (outcome : Outcome) : DeliveryLane Body :=
  match active.effects with
  | [] => if outcome.raises then lane.unwind [] else (lane.unwind []).takeLot
  | effect :: rest =>
    let active := { active with effects := rest }
    if active.epoch ≠ lane.epoch ∧ survivesConnection effect = false then lane.finish active
    else
      match effect with
      | .continueInboundReplay => { lane with active := some { active with awaits := .replay } }
      | .message body size mark =>
        match settings.mode with
        | .callback => lane.acceptCallback active effect mark outcome
        | .iterator => lane.acceptIterator settings active effect body size mark outcome

/-- A waiting admission looks again. A retired one commits an acknowledged message
anyway and nothing else. -/
def admissionResumes (settings : Settings) (lane : DeliveryLane Body) (active : Active Body)
    (effect : LaneEffect Body) (body : Body) (size : Nat) (mark : Option Nat) (generation : Nat)
    (markRaises : Bool) : DeliveryLane Body :=
  if generation = lane.admissionGeneration then
    if lane.mustWait settings size then lane
    else
      ((lane.enqueue settings body size).record
        (.handed effect (active.epoch == lane.epoch))).afterHandOver active mark markRaises false
  else
    match mark with
    | none =>
      ((lane.enqueue settings body size).record
        (.handed effect (active.epoch == lane.epoch))).finish active
    | some _ => lane.finish active

/-- The drain is cancelled where it awaits. -/
def cancel (lane : DeliveryLane Body) (active : Active Body) : DeliveryLane Body :=
  match active.awaits with
  | .admission effect _ _ _ _ =>
    if survivesConnection effect then lane.unwind (effect :: active.effects)
    else lane.unwind active.effects
  | _ => lane.unwind active.effects

/-- Retire queued lots, keeping their acknowledged messages. -/
def discard (lane : DeliveryLane Body) : DeliveryLane Body :=
  let effects := lane.pending.flatMap Lot.effects
  let kept := effects.filter survivesConnection
  { lane with
    carryover := lane.carryover ++ kept
    applied := lane.applied + (effects.length - kept.length)
    pendingCount := lane.pendingCount - (effects.length - kept.length)
    pending := [] }

def retireConnectionEpoch (lane : DeliveryLane Body) : DeliveryLane Body :=
  let discarded := { lane with epoch := lane.epoch + 1 }.discard
  { discarded with admissionGeneration := discarded.admissionGeneration + 1 }

/-- Hand over acknowledged messages past every bound. -/
def deliverAcknowledged (settings : Settings) (lane : DeliveryLane Body)
    (effect : LaneEffect Body) : DeliveryLane Body :=
  match effect with
  | .continueInboundReplay => lane
  | .message body size _ =>
    match settings.mode with
    | .callback => lane.record (.handed effect false)
    | .iterator => (lane.enqueue settings body size).record (.handed effect false)

/-- Take the carryover and hand it over. In callback mode the loop ends with the message
under `cut`, if the last of its callbacks raises a cancellation of the running task. -/
def flushCarryover (settings : Settings) (lane : DeliveryLane Body) (ran : Nat)
    (cut : Option Nat) : DeliveryLane Body :=
  let carried := lane.carryover
  let taken := { lane with
    carryover := []
    pendingCount := lane.pendingCount - carried.length
    applied := lane.applied + carried.length
    sinceYield := lane.sinceYield + ran }
  let reached := match settings.mode, cut with
    | .callback, some index => carried.take (index + 1)
    | _, _ => carried
  reached.foldl (deliverAcknowledged settings) taken

/-- The application takes a message from its iterator. -/
def takeMessage (settings : Settings) (lane : DeliveryLane Body) : DeliveryLane Body :=
  match lane.queue with
  | [] => lane
  | (_, size) :: rest =>
    { lane with
      queue := rest
      pendingBytes :=
        if settings.maxIteratorBytes.isSome then lane.pendingBytes - size else lane.pendingBytes }

/-- `_reset_message_stream`: unread messages move to the new stream in order. -/
def resetMessageStream (lane : DeliveryLane Body) : DeliveryLane Body :=
  { lane with admissionGeneration := lane.admissionGeneration + 1 }

end DeliveryLane

inductive Step (Body : Type) where
  | collect (effects : List (LaneEffect Body)) (target : Nat)
  | drain
  | fenceReturns
  | fenceRaises
  | applyNext (outcome : Outcome)
  | admissionResumes (markRaises : Bool)
  | admissionTimesOut
  | yieldReturns
  | replayReturns (effects : List (LaneEffect Body)) (target : Nat)
  | replayRaises
  | cancel
  | retireConnectionEpoch
  | flushCarryover (ran : Nat) (cut : Option Nat)
  | takeMessage
  | resetMessageStream
  deriving DecidableEq, Repr

namespace DeliveryLane

variable {Body : Type}

/-- A step that cannot happen leaves the lane as it is. The reader alone collects and
drains, one drain at a time, and stops for good once its epoch is retired; the client
hands the carryover over after that and before another reader starts. -/
def after (settings : Settings) (lane : DeliveryLane Body) : Step Body → DeliveryLane Body
  | .collect effects target =>
    if lane.active.all (·.epoch = lane.epoch) then lane.collect effects target else lane
  | .drain =>
    if lane.active.isNone && lane.carryover.isEmpty then lane.takeLot else lane
  | .flushCarryover ran cut =>
    if lane.active.isNone then lane.flushCarryover settings ran cut else lane
  | .retireConnectionEpoch => lane.retireConnectionEpoch
  | .takeMessage => lane.takeMessage settings
  | .resetMessageStream => lane.resetMessageStream
  | step =>
    match lane.active with
    | none => lane
    | some active =>
      match step, active.awaits with
      | .fenceReturns, .fence => { lane with active := some { active with awaits := .ready } }
      | .fenceRaises, .fence => lane.unwind active.effects
      | .applyNext outcome, .ready => lane.applyNext settings active outcome
      | .admissionResumes markRaises, .admission effect body size mark generation =>
        lane.admissionResumes settings active effect body size mark generation markRaises
      | .admissionTimesOut, .admission effect _ _ _ _ =>
        if settings.hasTimeout then (lane.record (.refused effect)).unwind active.effects else lane
      | .yieldReturns, .fairness => lane.finish active
      | .replayReturns effects target, .replay =>
        if active.epoch ≠ lane.epoch then lane.finish active
        else if effects = [] then lane.finish active
        else (lane.collect effects target).finish active
      | .replayRaises, .replay => lane.unwind active.effects
      | .cancel, .ready => lane
      | .cancel, _ => lane.cancel active
      | _, _ => lane

def runs (settings : Settings) (lane : DeliveryLane Body) (steps : List (Step Body)) :
    DeliveryLane Body :=
  steps.foldl (after settings) lane

end DeliveryLane

end Mqttium.Delivery
