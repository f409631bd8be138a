import Mqttium.Protocol.Inbound

/-! The iterator queue of a client under a byte limit: who puts messages in it, who takes
them out, and what each of them charges. A call runs from one await to the next. -/

namespace Mqttium.Delivery

open Library Codec

/-- What a client fixes for good. -/
structure StreamLimits where
  isV5 : Bool
  maxIteratorMessages : Nat
  maxIteratorBytes : Nat
  /-- `iterator_admission_timeout` is set. -/
  hasTimeout : Bool
  deriving DecidableEq, Repr

inductive StreamError where
  | messageDelivery (text : String)
  | mqtt (text : String)
  | sizing (failure : Failure)
  | queueFull
  | cancelled
  deriving DecidableEq, Repr

/-- Where a waiting admission is. -/
inductive Standing where
  /-- Its coroutine has not run yet. -/
  | created
  /-- In `space.wait()`. -/
  | waiting (woken : Bool)
  | returned (committed : Bool)
  | raised (error : StreamError)
  deriving DecidableEq, Repr

structure Admission where
  message : Message
  size : Nat
  generation : Nat
  standing : Standing
  deriving DecidableEq, Repr

/-- Where an iterator is. -/
inductive Stage where
  /-- The application has not asked it for another message. -/
  | resting
  /-- In `message_ready.wait()`, with the generation it waits under. -/
  | waiting (generation : Nat) (woken : Bool)
  | ended
  deriving DecidableEq, Repr

structure StreamIterator where
  generation : Nat
  stage : Stage
  deriving DecidableEq, Repr

abbrev IteratorQueueItem := Message × Nat

/-- How a message came into the queue. -/
inductive Source where
  | immediate
  | waiting (index : Nat)
  | acknowledged
  deriving DecidableEq, Repr

structure Commit where
  source : Source
  item : IteratorQueueItem
  deriving DecidableEq, Repr

structure ApplicationDelivery where
  pendingBytes : Int := 0
  pendingHighWaterBytes : Int := 0
  space : Bool := false
  waiters : Int := 0
  messagesQueue : List IteratorQueueItem := []
  messageReady : Bool := false
  closed : Bool := false
  streamGeneration : Nat := 0
  waitingGeneration : Option Nat := none
  admissionGeneration : Nat := 0
  /-- Every waiting admission so far, in the order they were made. -/
  admissions : List Admission := []
  iterators : List StreamIterator := []
  /-- Everything put in the queue so far. -/
  commits : List Commit := []
  /-- Everything the iterators yielded so far. -/
  yielded : List IteratorQueueItem := []
  deriving DecidableEq, Repr

abbrev StreamM := EStateM StreamError ApplicationDelivery

def Standing.wake : Standing → Standing
  | .waiting _ => .waiting true
  | standing => standing

def Stage.wake : Stage → Stage
  | .waiting generation _ => .waiting generation true
  | stage => stage

namespace ApplicationDelivery

/-- `space.set()` and `message_ready.set()` wake everyone who waits there. -/
def setSpace (delivery : ApplicationDelivery) : ApplicationDelivery :=
  { delivery with
    space := true
    admissions := delivery.admissions.map fun admission =>
      { admission with standing := admission.standing.wake } }

def setMessageReady (delivery : ApplicationDelivery) : ApplicationDelivery :=
  { delivery with
    messageReady := true
    iterators := delivery.iterators.map fun iterator =>
      { iterator with stage := iterator.stage.wake } }

def stand (delivery : ApplicationDelivery) (index : Nat) (standing : Standing) :
    ApplicationDelivery :=
  { delivery with
    admissions := delivery.admissions.modify index fun admission =>
      { admission with standing } }

def place (delivery : ApplicationDelivery) (index : Nat) (stage : Stage) : ApplicationDelivery :=
  { delivery with
    iterators := delivery.iterators.modify index fun iterator => { iterator with stage } }

def full (limits : StreamLimits) (delivery : ApplicationDelivery) : Bool :=
  0 < limits.maxIteratorMessages && limits.maxIteratorMessages ≤ delivery.messagesQueue.length

/-- Neither the bytes nor the count leave room for a message of this size. -/
def crowded (limits : StreamLimits) (delivery : ApplicationDelivery) (size : Nat) : Bool :=
  limits.maxIteratorBytes < delivery.pendingBytes + size || delivery.full limits

def charge (delivery : ApplicationDelivery) (size : Nat) : ApplicationDelivery :=
  { delivery with
    pendingBytes := delivery.pendingBytes + size
    pendingHighWaterBytes :=
      max delivery.pendingHighWaterBytes (delivery.pendingBytes + size) }

/-- Put an item at the end of the queue. -/
def put (delivery : ApplicationDelivery) (source : Source) (item : IteratorQueueItem) :
    ApplicationDelivery :=
  { delivery with
    messagesQueue := delivery.messagesQueue ++ [item]
    commits := delivery.commits ++ [⟨source, item⟩] }

def wakeWaiters : StreamM PUnit :=
  modify fun delivery => if delivery.waiters ≠ 0 then delivery.setSpace else delivery

def invalidateWaitingAdmissions : StreamM PUnit := do
  modify fun delivery => { delivery with admissionGeneration := delivery.admissionGeneration + 1 }
  wakeWaiters

def release (size : Nat) : StreamM PUnit := do
  modify fun delivery => { delivery with pendingBytes := delivery.pendingBytes - size }
  wakeWaiters

def putNowait (limits : StreamLimits) (source : Source) (item : IteratorQueueItem) :
    StreamM PUnit := do
  let delivery ← get
  raiseIf (delivery.full limits) .queueFull
  modify fun delivery => delivery.put source item

/-- The charge comes first: a queue that refuses the item leaves it charged. -/
def enqueueAccounted (limits : StreamLimits) (source : Source) (message : Message)
    (size : Nat) : StreamM PUnit := do
  modify fun delivery => delivery.charge size
  putNowait limits source (message, size)
  modify setMessageReady

def logicalSize (limits : StreamLimits) (message : Message) (propertyWireSize : Option Nat) :
    StreamM Nat :=
  match Protocol.Inbound.logicalSize limits.isV5 message.topic message.payload
      message.properties propertyWireSize with
  | .ok size => pure size
  | .error failure => throw (.sizing failure)

/-- Take a message now, or make a waiting admission for it. -/
def acceptIteratorAccounted (limits : StreamLimits) (message : Message)
    (propertyWireSize : Option Nat) : StreamM PUnit := do
  let size ← logicalSize limits message propertyWireSize
  raiseIf (limits.maxIteratorBytes < size) (.messageDelivery
    s!"Message requires {size} delivery bytes, exceeding limit {limits.maxIteratorBytes}")
  let delivery ← get
  if delivery.crowded limits size then
    modify fun delivery =>
      { delivery with
        admissions := delivery.admissions ++
          [⟨message, size, delivery.admissionGeneration, .created⟩] }
  else enqueueAccounted limits .immediate message size

/-- A pass of the loop of `_accept_waiting_accounted`, to its await or past its end. -/
def acceptWaitingAccounted (limits : StreamLimits) (index : Nat) (admission : Admission) :
    StreamM PUnit := do
  let delivery ← get
  if admission.generation = delivery.admissionGeneration ∧
      delivery.crowded limits admission.size then
    modify fun delivery => { delivery with space := false, waiters := delivery.waiters + 1 }
    modify fun delivery => delivery.stand index (.waiting false)
  else if admission.generation ≠ delivery.admissionGeneration then
    modify fun delivery => delivery.stand index (.returned false)
  else
    let committed ← attempt
      (enqueueAccounted limits (.waiting index) admission.message admission.size)
    match committed with
    | .ok _ => modify fun delivery => delivery.stand index (.returned true)
    | .error error => modify fun delivery => delivery.stand index (.raised error)

/-- The `finally` around `space.wait()`. -/
def leaveSpace : StreamM PUnit :=
  modify fun delivery => { delivery with waiters := delivery.waiters - 1 }

/-- A waiting admission runs for the first time, or after `space` woke it. -/
def runAdmission (limits : StreamLimits) (index : Nat) : StreamM PUnit := do
  let delivery ← get
  match delivery.admissions[index]? with
  | none => pure ⟨⟩
  | some admission =>
    match admission.standing with
    | .created => acceptWaitingAccounted limits index admission
    | .waiting true => do
      leaveSpace
      acceptWaitingAccounted limits index admission
    | _ => pure ⟨⟩

/-- A waiting admission is cancelled, also before it ran and also once it is woken. -/
def cancelAdmission (index : Nat) : StreamM PUnit := do
  let delivery ← get
  match delivery.admissions[index]? with
  | none => pure ⟨⟩
  | some admission =>
    match admission.standing with
    | .created => modify fun delivery => delivery.stand index (.raised .cancelled)
    | .waiting _ => do
      leaveSpace
      modify fun delivery => delivery.stand index (.raised .cancelled)
    | _ => pure ⟨⟩

/-- The timeout of a waiting admission expires. -/
def timeOutAdmission (limits : StreamLimits) (index : Nat) : StreamM PUnit := do
  let delivery ← get
  match delivery.admissions[index]? with
  | none => pure ⟨⟩
  | some admission =>
    match admission.standing with
    | .waiting _ =>
      onlyIf (limits.hasTimeout = true) do
        leaveSpace
        modify fun delivery => delivery.stand index
          (.raised (.messageDelivery "Application delivery capacity timed out"))
    | _ => pure ⟨⟩

/-- `messages()`: a new iterator of the current stream. -/
def messages : StreamM PUnit :=
  modify fun delivery =>
    { delivery with iterators := delivery.iterators ++ [⟨delivery.streamGeneration, .resting⟩] }

def waitForMessage (index : Nat) : StreamM PUnit := do
  let delivery ← get
  if delivery.waitingGeneration = some delivery.streamGeneration then
    modify fun delivery => delivery.place index .ended
    throw (.mqtt ("messages() is already being consumed by another iterator; each " ++
      "message is delivered once, so share a single iterator"))
  else
    modify fun delivery =>
      { delivery with
        waitingGeneration := some delivery.streamGeneration
        messageReady := false }
    modify fun delivery => delivery.place index (.waiting delivery.streamGeneration false)

/-- The `finally` of `_wait_for_message`. -/
def leaveWait (generation : Nat) : StreamM PUnit :=
  modify fun delivery =>
    { delivery with
      waitingGeneration :=
        if delivery.waitingGeneration = some generation then none
        else delivery.waitingGeneration }

/-- A pass of the loop of `_messages_accounted`, to its await, its yield or its end. -/
def messagesAccounted (index : Nat) (generation : Nat) : StreamM PUnit := do
  let delivery ← get
  if generation ≠ delivery.streamGeneration then
    modify fun delivery => delivery.place index .ended
  else
    match delivery.messagesQueue with
    | [] =>
      if delivery.closed then modify fun delivery => delivery.place index .ended
      else waitForMessage index
    | item :: rest => do
      modify fun delivery =>
        { delivery with messagesQueue := rest, yielded := delivery.yielded ++ [item] }
      release item.2
      modify fun delivery => delivery.place index .resting

/-- The application asks an iterator for its next message, or one that waited wakes. -/
def runIterator (index : Nat) : StreamM PUnit := do
  let delivery ← get
  match delivery.iterators[index]? with
  | none => pure ⟨⟩
  | some iterator =>
    match iterator.stage with
    | .resting => messagesAccounted index iterator.generation
    | .waiting generation true => do
      leaveWait generation
      messagesAccounted index iterator.generation
    | _ => pure ⟨⟩

/-- An iterator is cancelled where it waits, or closed between two messages. -/
def cancelIterator (index : Nat) : StreamM PUnit := do
  let delivery ← get
  match delivery.iterators[index]? with
  | none => pure ⟨⟩
  | some iterator =>
    match iterator.stage with
    | .waiting generation _ => do
      leaveWait generation
      modify fun delivery => delivery.place index .ended
    | _ => modify fun delivery => delivery.place index .ended

/-- Move every item of the old queue to its replacement. -/
def refill : List IteratorQueueItem → List IteratorQueueItem → List IteratorQueueItem
  | [], replacement => replacement
  | item :: rest, replacement => refill rest (replacement ++ [item])

def resetStream : StreamM PUnit := do
  let delivery ← get
  onlyIf (delivery.closed = true) do
    invalidateWaitingAdmissions
    modify fun delivery => { delivery with streamGeneration := delivery.streamGeneration + 1 }
    modify setMessageReady
    modify fun delivery =>
      { delivery with
        messagesQueue := refill delivery.messagesQueue []
        messageReady := !(refill delivery.messagesQueue []).isEmpty
        closed := false }

/-- Put a message of a retired connection in the queue past both bounds. -/
def deliverAcknowledged (limits : StreamLimits) (message : Message)
    (propertyWireSize : Option Nat) : StreamM PUnit := do
  let size ← logicalSize limits message propertyWireSize
  modify fun delivery => delivery.charge size
  modify fun delivery => delivery.put .acknowledged (message, size)
  modify setMessageReady

def reopen : StreamM PUnit :=
  modify fun delivery => { delivery with closed := false }

def close : StreamM PUnit := do
  modify fun delivery => { delivery with closed := true }
  modify setMessageReady

end ApplicationDelivery

/-- What the client, the application and their tasks do with the delivery. -/
inductive Call where
  | accept (message : Message) (propertyWireSize : Option Nat)
  | runAdmission (index : Nat)
  | cancelAdmission (index : Nat)
  | timeOutAdmission (index : Nat)
  | messages
  | runIterator (index : Nat)
  | cancelIterator (index : Nat)
  | invalidateWaitingAdmissions
  | resetStream
  | deliverAcknowledged (message : Message) (propertyWireSize : Option Nat)
  | reopen
  | close
  deriving DecidableEq, Repr

namespace ApplicationDelivery

def perform (limits : StreamLimits) : Call → StreamM PUnit
  | .accept message propertyWireSize => acceptIteratorAccounted limits message propertyWireSize
  | .runAdmission index => runAdmission limits index
  | .cancelAdmission index => cancelAdmission index
  | .timeOutAdmission index => timeOutAdmission limits index
  | .messages => messages
  | .runIterator index => runIterator index
  | .cancelIterator index => cancelIterator index
  | .invalidateWaitingAdmissions => invalidateWaitingAdmissions
  | .resetStream => resetStream
  | .deliverAcknowledged message propertyWireSize =>
    deliverAcknowledged limits message propertyWireSize
  | .reopen => reopen
  | .close => close

/-- What a call leaves, however it ends. -/
def after (limits : StreamLimits) (delivery : ApplicationDelivery) (call : Call) :
    ApplicationDelivery :=
  (ended (perform limits call) delivery).2

def runs (limits : StreamLimits) (delivery : ApplicationDelivery) (calls : List Call) :
    ApplicationDelivery :=
  calls.foldl (after limits) delivery

end ApplicationDelivery

end Mqttium.Delivery
