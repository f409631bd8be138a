import Mqttium.Library.Raising
import Mqttium.Types

/-! The bounded ordered transport writer. Each operation runs from one await to the
next: the sections under the pump's condition hold no other await, so its lock is
free whenever a task is suspended and taking it never suspends. -/

namespace Mqttium.Writer

open Library Codec

/-- The limits of the queue; the client takes positive ones only. -/
structure Bounds where
  maxBytes : Nat
  maxMessages : Nat
  bytes_pos : 0 < maxBytes
  messages_pos : 0 < maxMessages

inductive PumpError where
  | staleConnectionEffect
  | flowControl (text : String)
  | alreadyRunning
  /-- What a write of the transport raised. -/
  | transport
  | assertion (text : String)
  /-- `task_done` called once too often. -/
  | taskDone
  deriving DecidableEq, Repr

/-- What a call of `write_nowait` comes to. One that raises may have taken any part. -/
inductive Nowait where
  | accepted
  | declined
  | raised (taken : Nat)
  deriving DecidableEq, Repr

/-- A call the writer task makes of the transport. -/
inductive Call where
  | write (part : Bytes)
  | writeMany (parts : List Bytes)
  deriving DecidableEq, Repr

def Call.bytes : Call → Bytes
  | write part => part
  | writeMany parts => parts.flatten

def writeContiguous (hasWriteMany : Bool) (parts : List Bytes) : List Call :=
  if parts = [] then []
  else if hasWriteMany then [.writeMany parts]
  else parts.map .write

/-- The calls that write a batch, with the contiguous frames not yet written. -/
def writeBatch (hasWriteMany : Bool) : List WriteItem → List Bytes → List Call
  | [], parts => writeContiguous hasWriteMany parts
  | .segmented header payload :: rest, parts =>
    writeContiguous hasWriteMany parts ++ [.write header, .write payload] ++
      writeBatch hasWriteMany rest []
  | .contiguous frame :: rest, parts => writeBatch hasWriteMany rest (parts ++ [frame])

/-- Where the writer task is. -/
inductive Stage where
  /-- There is no task since the last reset. -/
  | absent
  /-- At the top of the loop. -/
  | looping
  /-- Suspended in `queue.get()`. -/
  | getting
  /-- Suspended in a call of the transport, with what that call has not yet handed over. -/
  | writing (batch : List WriteItem) (current : Bytes) (later : List Call)
  | ended
  deriving DecidableEq, Repr

abbrev TaskId := Nat

/-- A producer in `_enqueue_after_wait`. -/
structure Producer where
  item : WriteItem
  size : Nat
  epoch : Nat
  deriving DecidableEq, Repr

structure WritePump where
  queue : List WriteItem := []
  /-- What `queue.join()` waits for. -/
  unfinished : Nat := 0
  queuedBytes : Int := 0
  residentMessages : Nat := 0
  waiters : Nat := 0
  epoch : Nat := 0
  sealed : Bool := false
  /-- A `write_nowait` of this generation raised. -/
  latencyFailure : Bool := false
  writing : Bool := false
  /-- The transport offers `write_nowait` and the binding stands. -/
  writeNowait : Bool := false
  eagerArmed : Bool := false
  ackEagerArmed : Bool := false
  eagerGeneration : Nat := 0
  eagerRearmScheduled : Bool := false
  ackRearmOwner : Option TaskId := none
  ackRearmDeferred : Bool := false
  stage : Stage := .absent
  hasWriteMany : Bool := false
  /-- The owner asked the writer task to stop. -/
  cancelling : Bool := false
  /-- The producers suspended in `space.wait()`. -/
  parked : List Producer := []
  /-- The re-arm callbacks the loop still has to run, by generation. -/
  callbacks : List Nat := []
  /-- What the writer gave to `on_failure`. -/
  reported : List PumpError := []
  /-- The frames admitted since the last reset. -/
  admitted : List WriteItem := []
  /-- The bytes the transport took since the last reset. -/
  wire : Bytes := []
  /-- A write failed, or was given up, since the last reset. -/
  torn : Bool := false

abbrev PumpM := EStateM PumpError WritePump

namespace WritePump

def putNowait (item : WriteItem) : PumpM PUnit :=
  modify fun pump => { pump with
    queue := pump.queue ++ [item]
    unfinished := pump.unfinished + 1 }

def taskDone : PumpM PUnit := do
  let pump ← get
  raiseIf (pump.unfinished = 0) .taskDone
  set { pump with unfinished := pump.unfinished - 1 }

def admitQueued : PumpM PUnit :=
  modify fun pump => { pump with residentMessages := pump.residentMessages + 1 }

def releaseResident (count : Nat) : PumpM PUnit := do
  let pump ← get
  raiseIf (pump.residentMessages < count)
    (.assertion (s!"writer resident-message accounting mismatch: " ++
      s!"resident={pump.residentMessages}, release={count}"))
  set { pump with residentMessages := pump.residentMessages - count }

/-- Put a frame in the queue and charge it. -/
def charge (item : WriteItem) : PumpM PUnit := do
  putNowait item
  modify fun pump => { pump with
    queuedBytes := pump.queuedBytes + item.size
    admitted := pump.admitted ++ [item] }
  admitQueued

def dropEagerBinding : PumpM PUnit :=
  modify fun pump => { pump with
    eagerGeneration := pump.eagerGeneration + 1
    eagerArmed := false
    ackEagerArmed := false
    eagerRearmScheduled := false
    ackRearmOwner := none
    ackRearmDeferred := false
    writeNowait := false }

def ownAckRearm (task : Option TaskId) : PumpM PUnit :=
  modify fun pump => { pump with ackRearmOwner := task, ackRearmDeferred := false }

/-- The binding stands and nothing is queued or being written. -/
def restsIdle (pump : WritePump) : Bool :=
  pump.writeNowait && !pump.writing && pump.queue.isEmpty

def rearmDeferredAck : PumpM PUnit :=
  modify fun pump =>
    if pump.ackRearmDeferred then
      { pump with
        ackRearmDeferred := false
        ackEagerArmed := pump.ackEagerArmed || pump.restsIdle }
    else pump

def rearmEagerIfIdle (generation : Nat) : PumpM PUnit :=
  modify fun pump =>
    if generation ≠ pump.eagerGeneration then pump
    else { pump with
      eagerRearmScheduled := false
      eagerArmed := pump.eagerArmed || pump.restsIdle
      ackEagerArmed := pump.ackEagerArmed || pump.restsIdle }

def scheduleEagerRearm : PumpM PUnit :=
  modify fun pump =>
    if pump.eagerRearmScheduled then pump
    else { pump with
      eagerRearmScheduled := true
      callbacks := pump.callbacks ++ [pump.eagerGeneration] }

def reset : PumpM PUnit := do
  modify fun pump => { pump with
    queue := []
    unfinished := 0
    queuedBytes := 0
    residentMessages := 0
    latencyFailure := false
    sealed := false }
  dropEagerBinding
  modify fun pump => { pump with
    writing := false
    stage := .absent
    admitted := []
    wire := []
    torn := false }

def start (nowait writeMany : Bool) : PumpM PUnit := do
  let pump ← get
  raiseIf (pump.stage ≠ .absent ∧ pump.stage ≠ .ended) .alreadyRunning
  set { pump with
    writing := false
    eagerGeneration := pump.eagerGeneration + 1
    writeNowait := nowait
    eagerArmed := nowait
    ackEagerArmed := nowait
    eagerRearmScheduled := false
    stage := .looping
    hasWriteMany := writeMany
    cancelling := false }

/-- A new connection resets the pump and starts it in one turn. -/
def connect (nowait writeMany : Bool) : PumpM PUnit := do
  reset
  start nowait writeMany

/-- `stop` up to its await of the cancelled task. -/
def stop : PumpM PUnit := do
  dropEagerBinding
  modify fun pump => { pump with cancelling := true }

def sealPump : PumpM PUnit :=
  modify fun pump => { pump with sealed := true }

def setEpoch (epoch : Nat) : PumpM PUnit :=
  modify fun pump => { pump with epoch }

def discard : PumpM PUnit := do
  dropEagerBinding
  let pump ← get
  set { pump with writing := false, queue := [] }
  forEach (fun _ => taskDone) pump.queue
  modify fun pump => { pump with queuedBytes := 0 }
  releaseResident pump.queue.length

def canEnqueueSize (bounds : Bounds) (pump : WritePump) (size : Nat) : Bool :=
  if bounds.maxMessages ≤ pump.residentMessages then false
  else decide (pump.queuedBytes + size ≤ bounds.maxBytes) ||
    (pump.residentMessages == 0 && pump.queuedBytes == 0)

def refusal (bounds : Bounds) (pump : WritePump) (size : Nat) : String :=
  if bounds.maxMessages ≤ pump.residentMessages then
    "Outbound backpressure limit reached: " ++
      s!"max_write_queue_messages={bounds.maxMessages} is full"
  else
    "Outbound backpressure limit reached: " ++
      s!"max_write_queue_bytes={bounds.maxBytes} would be exceeded by a " ++
      s!"{size}-byte write with {pump.queuedBytes} bytes already queued"

/-- The transport's `write_nowait`, coming to `answer`. -/
def callNowait (answer : Nowait) (data : Bytes) : PumpM Bool :=
  match answer with
  | .accepted => do
    modify fun pump => { pump with wire := pump.wire ++ data }
    return true
  | .declined => return false
  | .raised taken => do
    modify fun pump => { pump with wire := pump.wire ++ data.take taken, torn := true }
    throw .transport

def fenceEagerFailure : PumpM PUnit := do
  modify fun pump => { pump with latencyFailure := true }
  dropEagerBinding
  modify fun pump => { pump with epoch := pump.epoch + 1 }

def retainFailedEager (item : WriteItem) : PumpM PUnit := do
  fenceEagerFailure
  charge item

/-- A frame may go straight through, given its permit. -/
def bypasses (pump : WritePump) (armed : Bool) : Bool :=
  armed && pump.writeNowait && !pump.writing && pump.waiters == 0 && pump.queue.isEmpty

/-- The eager write both permits share; `spend` uses the permit up. -/
def writeEager (answer : Nowait) (frame : Bytes) (spend : PumpM PUnit) : PumpM Bool := do
  let accepted ← tryCatch (callNowait answer frame) fun error => do
    retainFailedEager (.contiguous frame)
    throw error
  if accepted then
    modify fun pump => { pump with admitted := pump.admitted ++ [.contiguous frame] }
    spend
    return true
  else return false

def tryWriteDataEager (answer : Nowait) (item : WriteItem) : PumpM Bool := do
  let pump ← get
  match item with
  | .segmented _ _ => return false
  | .contiguous frame =>
    if pump.bypasses pump.eagerArmed then
      writeEager answer frame do
        modify fun pump => { pump with eagerArmed := false }
        scheduleEagerRearm
    else return false

def tryWriteAckEager (answer : Nowait) (caller : TaskId) (frame : Bytes) : PumpM Bool := do
  let pump ← get
  if pump.bypasses pump.ackEagerArmed then
    writeEager answer frame do
      modify fun pump => { pump with ackEagerArmed := false }
      if pump.ackRearmOwner = some caller then
        modify fun pump => { pump with ackRearmDeferred := true }
      else scheduleEagerRearm
  else return false

/-- The admissions of this epoch are over. -/
def checkEpoch (epoch : Nat) : PumpM PUnit := do
  let pump ← get
  raiseIf (pump.sealed = true ∨ pump.latencyFailure = true ∨ epoch ≠ pump.epoch)
    .staleConnectionEffect

/-- What `try_enqueue` and `try_enqueue_ack` share. -/
def tryAdmit (bounds : Bounds) (item : WriteItem) (epoch : Option Nat) (eager : PumpM Bool) :
    PumpM Bool := do
  let pump ← get
  checkEpoch (epoch.getD pump.epoch)
  if pump.canEnqueueSize bounds item.size then
    let passed ← eager
    if passed then return true
    else
      charge item
      return true
  else return false

def tryEnqueue (bounds : Bounds) (answer : Nowait) (item : WriteItem) (epoch : Option Nat) :
    PumpM Bool :=
  tryAdmit bounds item epoch (tryWriteDataEager answer item)

def tryEnqueueAck (bounds : Bounds) (answer : Nowait) (caller : TaskId) (frame : Bytes)
    (epoch : Option Nat) : PumpM Bool :=
  tryAdmit bounds (.contiguous frame) epoch (tryWriteAckEager answer caller frame)

def tryEnqueueTerminal (bounds : Bounds) (answer : Nowait) (item : WriteItem) (epoch : Nat) :
    PumpM Bool := do
  let outcome ← attempt (tryEnqueue bounds answer item (some epoch))
  modify fun pump => if epoch = pump.epoch then { pump with sealed := true } else pump
  fromExcept outcome

def restoreLatencyItems (items : List WriteItem) : PumpM PUnit := do
  forEach putNowait items
  forEach (fun _ => taskDone) items

def latencyBatchMinItems : Nat := 4

def latencyBatchMaxItems : Nat := 16

def latencyBatchTargetBytes : Nat := 48 * 1024

/-- The queue is short enough for one write, and worth it. -/
def isLatencyBatch (pump : WritePump) : Bool :=
  latencyBatchMinItems ≤ pump.queue.length && pump.queue.length ≤ latencyBatchMaxItems &&
    !(pump.queue.length < latencyBatchMaxItems && pump.queuedBytes < latencyBatchTargetBytes)

def isSegmented : WriteItem → Bool
  | .segmented _ _ => true
  | .contiguous _ => false

def tryFlushLatencyBatch (answer : Nowait) : PumpM Bool := do
  let pump ← get
  if !pump.isLatencyBatch then return false
  else if !pump.writeNowait || pump.writing || pump.waiters != 0 then return false
  else
    let items := pump.queue
    set { pump with queue := [] }
    if items.any isSegmented then
      restoreLatencyItems items
      return false
    else
      let combined := items.flatMap WriteItem.bytes
      let accepted ← tryCatch (callNowait answer combined) fun error => do
        fenceEagerFailure
        restoreLatencyItems items
        throw error
      if accepted then
        forEach (fun _ => taskDone) items
        modify fun pump => { pump with queuedBytes := pump.queuedBytes - combined.length }
        releaseResident items.length
        let left ← get
        raiseIf (left.queuedBytes ≠ 0)
          (.assertion "writer queued-byte accounting mismatch after latency batch")
        return true
      else
        restoreLatencyItems items
        return false

/-- The pass of the wait loop goes on to another await. -/
def mustWait (bounds : Bounds) (pump : WritePump) (size : Nat) : Bool :=
  let messagesFull := bounds.maxMessages ≤ pump.residentMessages
  let empty := pump.residentMessages == 0 && pump.queuedBytes == 0 && pump.queue.isEmpty
  let bytesBlocked := bounds.maxBytes < pump.queuedBytes + size && !empty
  (messagesFull || bytesBlocked) && !(pump.queue.isEmpty && pump.queuedBytes == 0)

/-- `_enqueue_after_wait` from a check of the capacity to its next await or its end. -/
def enqueueAfterWait (bounds : Bounds) (producer : Producer) : PumpM PUnit := do
  checkEpoch producer.epoch
  let pump ← get
  if pump.mustWait bounds producer.size then
    set { pump with waiters := pump.waiters + 1, parked := pump.parked ++ [producer] }
  else
    checkEpoch producer.epoch
    charge producer.item

/-- `enqueue` and `enqueue_ack` after their first attempt. -/
def enqueueAfter (bounds : Bounds) (attempt : PumpM Bool) (item : WriteItem) (nowait : Bool)
    (epoch : Nat) : PumpM PUnit := do
  let admitted ← attempt
  if admitted then return ⟨⟩
  else
    let pump ← get
    if nowait then throw (.flowControl (pump.refusal bounds item.size))
    else enqueueAfterWait bounds ⟨item, item.size, epoch⟩

def enqueue (bounds : Bounds) (answer : Nowait) (item : WriteItem) (nowait : Bool)
    (epoch : Option Nat) : PumpM PUnit := do
  let pump ← get
  let epoch := epoch.getD pump.epoch
  enqueueAfter bounds (tryEnqueue bounds answer item (some epoch)) item nowait epoch

def enqueueAck (bounds : Bounds) (answer : Nowait) (caller : TaskId) (frame : Bytes)
    (nowait : Bool) (epoch : Option Nat) : PumpM PUnit := do
  let pump ← get
  let epoch := epoch.getD pump.epoch
  enqueueAfter bounds (tryEnqueueAck bounds answer caller frame (some epoch))
    (.contiguous frame) nowait epoch

/-- A producer leaves `space.wait()`. -/
def unpark (index : Nat) : PumpM PUnit :=
  modify fun pump => { pump with
    waiters := pump.waiters - 1
    parked := pump.parked.eraseIdx index }

/-- A producer is woken, by a notification or for no reason, and looks again. -/
def resume (bounds : Bounds) (index : Nat) : PumpM PUnit := do
  let pump ← get
  match pump.parked[index]? with
  | none => return ⟨⟩
  | some producer =>
    unpark index
    enqueueAfterWait bounds producer

/-- A producer is cancelled; the wakeup it may hand on changes nothing here. -/
def abandon (index : Nat) : PumpM PUnit := do
  let pump ← get
  match pump.parked[index]? with
  | none => return ⟨⟩
  | some _ => unpark index

/-- The `finally` of a batch. -/
def finishBatch (batch : List WriteItem) : PumpM PUnit := do
  modify fun pump => { pump with writing := false }
  forEach (fun _ => taskDone) batch
  modify fun pump => { pump with
    queuedBytes := max 0 (pump.queuedBytes - (batch.map WriteItem.size).sum) }
  releaseResident batch.length

/-- `_run` gives the transport up. -/
def giveUp (failure : PumpError) : PumpM PUnit := do
  dropEagerBinding
  modify fun pump => { pump with
    writing := false
    epoch := pump.epoch + (if pump.latencyFailure then 0 else 1)
    stage := .ended
    reported := pump.reported ++ [failure] }

/-- The batch is over with `failure`; an exception of the `finally` replaces it. -/
def failBatch (batch : List WriteItem) (failure : PumpError) : PumpM PUnit := do
  let outcome ← attempt (finishBatch batch)
  match outcome with
  | .ok _ => giveUp failure
  | .error error => giveUp error

def completeBatch (batch : List WriteItem) : PumpM PUnit := do
  let outcome ← attempt (finishBatch batch)
  match outcome with
  | .ok _ => modify fun pump => { pump with stage := .looping }
  | .error error => giveUp error

/-- Go on with the next call of the batch. -/
def callNext (batch : List WriteItem) : List Call → PumpM PUnit
  | [] => completeBatch batch
  | call :: later => modify fun pump => { pump with stage := .writing batch call.bytes later }

def batchLimit : Nat := 256

/-- The writer task runs to its next await, unless it waits for the transport. -/
def turn : PumpM PUnit := do
  let pump ← get
  match pump.stage with
  | .looping =>
    let rearms := pump.queue.isEmpty && pump.writeNowait
    set { pump with
      eagerArmed := pump.eagerArmed || rearms
      ackEagerArmed := pump.ackEagerArmed || rearms
      stage := .getting }
  | .getting =>
    if pump.queue = [] then return ⟨⟩
    else
      let batch := pump.queue.take batchLimit
      set { pump with
        eagerArmed := false
        queue := pump.queue.drop batchLimit
        writing := true }
      if pump.latencyFailure then failBatch batch .transport
      else callNext batch (writeBatch pump.hasWriteMany batch [])
  | _ => return ⟨⟩

/-- The transport takes some bytes of the call under way. -/
def transportTakes (count : Nat) : PumpM PUnit :=
  modify fun pump =>
    match pump.stage with
    | .writing batch current later =>
      { pump with
        wire := pump.wire ++ current.take count
        stage := .writing batch (current.drop count) later }
    | _ => pump

/-- The call under way returns; it has handed everything over. -/
def callReturns : PumpM PUnit := do
  let pump ← get
  match pump.stage with
  | .writing batch [] later => callNext batch later
  | _ => return ⟨⟩

/-- The call under way raises, after the transport took some more bytes. -/
def callRaises (count : Nat) : PumpM PUnit := do
  let pump ← get
  match pump.stage with
  | .writing batch current _ =>
    set { pump with wire := pump.wire ++ current.take count, torn := true }
    failBatch batch .transport
  | _ => return ⟨⟩

/-- The cancellation of `stop` reaches the writer task. -/
def cancelled (count : Nat) : PumpM PUnit := do
  let pump ← get
  match pump.stage with
  | .writing batch current _ =>
    set { pump with wire := pump.wire ++ current.take count, torn := true }
    let outcome ← attempt (finishBatch batch)
    match outcome with
    | .ok _ => modify fun pump => { pump with stage := .ended }
    | .error error => giveUp error
  | .looping | .getting => set { pump with stage := .ended }
  | _ => return ⟨⟩

end WritePump

/-- What can happen between two awaits. -/
inductive Step where
  | tryEnqueue (answer : Nowait) (item : WriteItem) (epoch : Option Nat)
  | tryEnqueueTerminal (answer : Nowait) (item : WriteItem) (epoch : Nat)
  | tryEnqueueAck (answer : Nowait) (caller : TaskId) (frame : Bytes) (epoch : Option Nat)
  | enqueue (answer : Nowait) (item : WriteItem) (nowait : Bool) (epoch : Option Nat)
  | enqueueAck (answer : Nowait) (caller : TaskId) (frame : Bytes) (nowait : Bool)
    (epoch : Option Nat)
  | resume (index : Nat)
  | abandon (index : Nat)
  | flushLatencyBatch (answer : Nowait)
  | callback (index : Nat)
  | rearmDeferredAck
  | ownAckRearm (task : Option TaskId)
  | sealPump
  | setEpoch (epoch : Nat)
  | connect (nowait writeMany : Bool)
  | turn
  | transportTakes (count : Nat)
  | callReturns
  | callRaises (count : Nat)
  | stop
  | cancelled (count : Nat)
  | discard
  deriving DecidableEq, Repr

namespace Step

/-- The loop runs the callback it still holds under this index. -/
def runCallback (index : Nat) : PumpM PUnit := do
  let pump ← get
  match pump.callbacks[index]? with
  | none => return ⟨⟩
  | some generation =>
    set { pump with callbacks := pump.callbacks.eraseIdx index }
    WritePump.rearmEagerIfIdle generation

def run (bounds : Bounds) : Step → PumpM PUnit
  | tryEnqueue answer item epoch =>
    Functor.discard (WritePump.tryEnqueue bounds answer item epoch)
  | tryEnqueueTerminal answer item epoch =>
    Functor.discard (WritePump.tryEnqueueTerminal bounds answer item epoch)
  | tryEnqueueAck answer caller frame epoch =>
    Functor.discard (WritePump.tryEnqueueAck bounds answer caller frame epoch)
  | enqueue answer item nowait epoch => WritePump.enqueue bounds answer item nowait epoch
  | enqueueAck answer caller frame nowait epoch =>
    WritePump.enqueueAck bounds answer caller frame nowait epoch
  | resume index => WritePump.resume bounds index
  | abandon index => WritePump.abandon index
  | flushLatencyBatch answer => Functor.discard (WritePump.tryFlushLatencyBatch answer)
  | callback index => runCallback index
  | rearmDeferredAck => WritePump.rearmDeferredAck
  | ownAckRearm task => WritePump.ownAckRearm task
  | sealPump => WritePump.sealPump
  | setEpoch epoch => WritePump.setEpoch epoch
  | connect nowait writeMany => WritePump.connect nowait writeMany
  | turn => WritePump.turn
  | transportTakes count => WritePump.transportTakes count
  | callReturns => WritePump.callReturns
  | callRaises count => WritePump.callRaises count
  | stop => WritePump.stop
  | cancelled count => WritePump.cancelled count
  | discard => WritePump.discard

/-- The order of the lifecycle calls: the client empties or resets the pump only when
no writer task runs, and the task is cancelled by `stop` alone. -/
def permitted (pump : WritePump) : Step → Prop
  | discard | connect _ _ => pump.stage = .absent ∨ pump.stage = .ended
  | cancelled _ => pump.cancelling = true
  | _ => True

instance (pump : WritePump) (step : Step) : Decidable (step.permitted pump) := by
  cases step <;> simp only [permitted] <;> infer_instance

end Step

namespace WritePump

/-- One step; one that cannot happen leaves the pump as it is. -/
def after (bounds : Bounds) (pump : WritePump) (step : Step) : WritePump :=
  if step.permitted pump then (ended (step.run bounds) pump).2 else pump

def runs (bounds : Bounds) (pump : WritePump) (steps : List Step) : WritePump :=
  steps.foldl (after bounds) pump

end WritePump

end Mqttium.Writer
