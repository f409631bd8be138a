import Mqttium.Protocol.Runs
import Mqttium.Transport.Push

/-! The read loop over a push transport, with the callbacks of the event loop and the
engine calls of other tasks between its awaits. A turn runs from one await to the next. -/

namespace Mqttium.Ingress

open Library Codec Packets Protocol Transport

/-- Packets decoded between two effect handoffs. -/
def maxLotPackets : Nat := 256

/-- Bytes decoded between two effect handoffs. -/
def maxIngressBatchBytes : Nat := 1 * 1024 * 1024

/-- What `_process_ingress_batch` returns. -/
structure Lot where
  handled : Nat := 0
  handledBytes : Nat := 0
  handoffRequired : Bool := false
  peerError : Option Failure := none
  deriving DecidableEq, Repr

/-- The lot ended for want of a packet, so that there is nothing to decode. -/
def Lot.short (lot : Lot) : Prop :=
  lot.handoffRequired = false ∧ lot.handled < maxLotPackets ∧ lot.handledBytes < maxIngressBatchBytes

instance (lot : Lot) : Decidable lot.short := inferInstanceAs (Decidable (_ ∧ _))

/-- Why the read loop ended. -/
inductive Ending where
  | closing
  | endOfStream
  | lost (cause : String)
  | raised (failure : Failure)
  | cancelled
  deriving DecidableEq, Repr

/-- Where the reader's task is. -/
inductive Stage where
  | created
  /-- In `wait_for_data`. -/
  | waiting
  /-- In the drains behind a lot. -/
  | handing (lot : Lot)
  /-- In the yield between two lots of one reception. -/
  | yielded
  | ended (why : Ending)
  deriving DecidableEq, Repr

structure Reader where
  transport : PushStreamTransport
  engine : Engine
  stage : Stage := .created
  localTerminalFailure : Option Failure := none
  /-- The bytes that reached the decoder. -/
  arrived : Bytes := []
  /-- The packets given to `handle_raw`. -/
  handled : List RawPacket := []
  /-- The effects collected for the pump. -/
  collected : List Effect := []
  /-- A lot ended at bytes that are no frame, on a connection that had ended. -/
  silenced : Bool := false

abbrev ReaderM := EStateM Failure Reader

namespace Reader

def link : Focus Reader PushStreamTransport where
  part := transport
  replace transport reader := { reader with transport }

def buffer : Focus Reader IncrementalDecoder where
  part reader := reader.transport.decoder
  replace decoder reader := { reader with transport := { reader.transport with decoder } }

def machine : Focus Reader Engine where
  part := engine
  replace engine reader := { reader with engine }

def goto (stage : Stage) : ReaderM PUnit := modify fun reader => { reader with stage }

end Reader

open Reader

/-- The errors of the decoder that end a lot at the bytes they are about. -/
def isDecodingError : Failure → Bool
  | .malformedPacket _ | .packetTooLarge _ => true
  | _ => false

/-- The members of `_TERMINAL_ENGINE_STATES`. -/
def terminal (state : ConnectionState) : Bool := state = .disconnecting || state = .disconnected

/-- `_process_ingress_batch`; `fuel` is what is left of its range. -/
def processIngressBatch : Nat → Lot → ReaderM Lot
  | 0, lot => return lot
  | fuel + 1, lot => do
    match ← attempt (buffer.run IncrementalDecoder.nextPacket) with
    | .error failure =>
      if isDecodingError failure then do
        let reader ← get
        if terminal reader.engine.state then do
          modify fun reader => { reader with silenced := true }
          return lot
        else return { lot with peerError := some failure }
      else throw failure
    | .ok none => return lot
    | .ok (some packet) => do
      modify fun reader => { reader with handled := reader.handled ++ [packet] }
      match ← machine.run (handleRaw packet) with
      | some failure => do
        modify fun reader =>
          { reader with engine := { reader.engine with effects := reader.engine.effects.dropLast } }
        return { lot with handled := lot.handled + 1, peerError := some failure }
      | none => do
        let lot :=
          { lot with
            handled := lot.handled + 1
            handledBytes := lot.handledBytes + (packet.remaining.length + 5) }
        let reader ← get
        if reader.engine.inbound.autoackHandoffRequired then
          return { lot with handoffRequired := true }
        else if maxIngressBatchBytes ≤ lot.handledBytes then return lot
        else processIngressBatch fuel lot

/-- The exceptions of a lot that the read loop lays to the peer or to its limits. -/
def isConnectionError : Failure → Bool
  | .sessionReplay _ | .malformedPacket _ => true
  | failure => failure.isProtocolError

/-- The effects that settle a publication. -/
def isTerminalEffect : Effect → Bool
  | .publishComplete _ | .publishFailed _ _ => true
  | _ => false

/-- Fail-stop: latch the first local failure, keep of the lot's effects only terminal
publish outcomes, retire the engine's connection. -/
def failLocally (effectStart : Nat) (failure : Failure) : ReaderM PUnit := do
  modify fun reader =>
    { reader with
      localTerminalFailure := reader.localTerminalFailure.or (some failure)
      engine := { reader.engine with
        effects := reader.engine.effects.take effectStart ++
          (reader.engine.effects.drop effectStart).filter isTerminalEffect } }
  match ← attempt (machine.run notifyTransportClosed) with
  | .ok _ => goto (.ended (.raised failure))
  | .error other => goto (.ended (.raised other))

/-- Hand the engine's effects to the pump. -/
def collectFromEngine : ReaderM PUnit := do
  let effects ← machine.run takeEffects
  modify fun reader => { reader with collected := reader.collected ++ effects }

/-- A lot inside the batch of the store, whose exit raises `fault` if there is one. -/
def readBatch (fault : Option Failure) : ReaderM Lot := do
  let lot ← processIngressBatch maxLotPackets {}
  match fault with
  | some failure => throw failure
  | none => return lot

/-- One lot, up to the awaits that drain its effects. -/
def readLot (fault : Option Failure) : ReaderM PUnit := do
  let effectStart := (← get).engine.effects.length
  match ← attempt (readBatch fault) with
  | .error failure =>
    if isConnectionError failure then goto (.ended (.raised failure))
    else failLocally effectStart failure
  | .ok lot => do
    let reader ← get
    onlyIf (lot.handled ≠ 0 ∧ reader.engine.effects ≠ []) collectFromEngine
    goto (.handing lot)

/-- Go on with what `receive` said. -/
def act (fault : Option Failure) : Reception → ReaderM PUnit
  | .bytes => readLot fault
  | .endOfStream => goto (.ended .endOfStream)
  | .lost cause => goto (.ended (.lost cause))
  | .waiting => goto .waiting

/-- The head of the outer loop. -/
def loop (fault : Option Failure) : ReaderM PUnit := do
  let reader ← get
  if reader.transport.protocol.closing then goto (.ended .closing)
  else act fault (← link.run PushStreamTransport.receive)

/-- The drains behind a lot are over. -/
def handedOver (fault : Option Failure) (lot : Lot) : ReaderM PUnit :=
  match lot.peerError with
  | some failure => goto (.ended (.raised failure))
  | none => if lot.short then loop fault else goto .yielded

/-- The reader's task runs up to its next await. -/
def turn (fault : Option Failure) : ReaderM PUnit := do
  let reader ← get
  match reader.stage with
  | .created => loop fault
  | .waiting => onlyIf (reader.transport.protocol.waiter = some true) (do
      act fault (← link.run PushStreamTransport.resumed))
  | .handing lot => handedOver fault lot
  | .yielded => readLot fault
  | .ended _ => pure ⟨⟩

inductive Event where
  /-- The socket has `ready` bytes and the loop reads. -/
  | readReady (ready : Bytes)
  | eofReceived
  | connectionLost (cause : Option String)
  /-- The event loop's transport starts to close. -/
  | closes
  /-- `close` of the push transport. -/
  | close
  /-- Another task calls the engine. -/
  | call (command : Command)
  /-- The reader's task runs; the batch of the store raises `fault` if it ends a lot. -/
  | turn (fault : Option Failure)
  /-- A drain behind the lot raises. -/
  | drainRaises (failure : Failure)
  | cancel
  deriving Inhabited

namespace Reader

/-- The state a step leaves. An exception that nothing in the reader catches ends it. -/
def settle (program : ReaderM PUnit) (reader : Reader) : Reader :=
  match program reader with
  | .ok _ after => after
  | .error failure after => { after with stage := .ended (.raised failure) }

def isEnded (reader : Reader) : Bool :=
  match reader.stage with
  | .ended _ => true
  | _ => false

def step (reader : Reader) : Event → Reader
  | .readReady ready =>
    match PushStreamTransport.readReady ready reader.transport with
    | .ok arrived transport => { reader with transport, arrived := reader.arrived ++ arrived }
    | .error _ transport => { reader with transport }
  | .eofReceived =>
    { reader with transport := { reader.transport with
        protocol := reader.transport.protocol.eofReceived } }
  | .connectionLost cause =>
    { reader with transport := { reader.transport with
        protocol := reader.transport.protocol.connectionLost cause } }
  | .closes =>
    { reader with transport := { reader.transport with
        protocol := { reader.transport.protocol with closing := true } } }
  | .close => { reader with transport := reader.transport.close }
  | .call command =>
    { reader with engine := (({ engine := reader.engine } : Protocol.Session).step command).engine }
  | .turn fault => settle (turn fault) reader
  | .drainRaises failure =>
    match reader.stage with
    | .handing _ => { reader with stage := .ended (.raised failure) }
    | _ => reader
  | .cancel =>
    if reader.isEnded then reader
    else
      { reader with
        stage := .ended .cancelled
        transport := { reader.transport with
          protocol := { reader.transport.protocol with waiter := none } } }

def run (reader : Reader) (events : List Event) : Reader := events.foldl step reader

@[simp] theorem run_nil (reader : Reader) : reader.run [] = reader := rfl

theorem run_cons (reader : Reader) (event : Event) (events : List Event) :
    reader.run (event :: events) = (reader.step event).run events := rfl

@[simp] theorem run_concat (reader : Reader) (events : List Event) (event : Event) :
    reader.run (events ++ [event]) = (reader.run events).step event := by
  simp [run]

/-- A connection whose decoder was attached, before the reader's task first runs. -/
def attached (decoder : IncrementalDecoder) (engine : Engine) : Reader :=
  { transport :=
      match PushStreamTransport.attachDecoder { decoder } with
      | .ok _ transport => transport
      | .error _ transport => transport
    engine }

end Reader

end Mqttium.Ingress
