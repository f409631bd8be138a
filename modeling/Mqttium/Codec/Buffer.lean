import Mqttium.Library.Raising
import Mqttium.Packets.Common

/-! The incremental frame decoder. Its storage is one slab: `start` is the read
offset, `stop` the write offset, and the bytes behind `stop` are stale. -/

namespace Mqttium

/-- `PacketType.from_byte`. -/
def PacketType.fromByte (header : Nat) : Except Failure PacketType :=
  match header / 16 with
  | 1 => .ok .connect
  | 2 => .ok .connack
  | 3 => .ok .publish
  | 4 => .ok .puback
  | 5 => .ok .pubrec
  | 6 => .ok .pubrel
  | 7 => .ok .pubcomp
  | 8 => .ok .subscribe
  | 9 => .ok .suback
  | 10 => .ok .unsubscribe
  | 11 => .ok .unsuback
  | 12 => .ok .pingreq
  | 13 => .ok .pingresp
  | 14 => .ok .disconnect
  | 15 => .ok .auth
  | _ => .error (.malformedPacket s!"Unknown MQTT packet type byte 0x{hex02 header}")

namespace Codec

open Library Packets

def defaultCapacity : Nat := 256 * 1024

/-- Allocation floor. -/
def minCapacity : Nat := 16 * 1024

/-- What the receive path asks for before anything is known about the peer. -/
def initialWindow : Nat := 64 * 1024

/-- Consecutive completely filled windows before a larger one is offered. -/
def promoteAfter : Nat := 4

/-- A single frame above this is evidence that the workload needs a large slab. -/
def largeFrame : Nat := defaultCapacity

/-- Ceiling of the adaptive receive window. -/
def receiveQuantum : Nat := defaultCapacity

/-- Drains without a large frame before an oversized slab is retired. -/
def oversizeRetention : Nat := 64

structure IncrementalDecoder where
  buffer : Bytes := []
  start : Nat := 0
  stop : Nat := 0
  capacity : Nat := 0
  idleDrains : Nat := 0
  windowPeak : Nat := 0
  drainHadLargeFrame : Bool := false
  offered : Nat := 0
  targetWindow : Nat := initialWindow
  fullFills : Nat := 0
  maxPacketSize : Nat
  highWater : Nat := 0
  deriving DecidableEq, Repr

abbrev DecoderM := EStateM Failure IncrementalDecoder

/-- Assignment to the slice of a view that starts at `offset`; a destination of
another length raises. -/
def assignSlice (buffer : Bytes) (offset : Nat) (data : Bytes) : Except Failure Bytes :=
  if offset + data.length ≤ buffer.length then
    .ok (buffer.take offset ++ data ++ buffer.drop (offset + data.length))
  else .error (.value "memoryview assignment: lvalue and rvalue have different structures")

namespace IncrementalDecoder

/-- `IncrementalDecoder(max_packet_size)`. -/
def create (maxPacketSize : Nat) : Except Failure IncrementalDecoder :=
  if maxPacketSize < 1 then .error (.value "max_packet_size too small") else .ok { maxPacketSize }

def buffered (decoder : IncrementalDecoder) : Nat := decoder.stop - decoder.start

/-- Move the live bytes to a new slab. -/
def reallocate (capacity : Nat) : DecoderM PUnit := do
  let decoder ← get
  let live := decoder.stop - decoder.start
  let grown := List.replicate capacity 0
  let buffer ←
    if live = 0 then pure grown
    else fromExcept (assignSlice grown 0 (slice decoder.buffer decoder.start decoder.stop))
  modify fun decoder => { decoder with buffer, capacity, start := 0, stop := live }

/-- The capacity that holds `need` more bytes: amortised doubling, stopped at the
known extent of the head frame and at one maximum packet plus a window. -/
def grownCapacity (decoder : IncrementalDecoder) (need : Nat) (exactTotal : Option Nat) : Nat :=
  let required := decoder.stop - decoder.start + need
  let doubled := max (max (decoder.capacity * 2) minCapacity) required
  let capped := match exactTotal with
    | some total => max required (min doubled total)
    | none => doubled
  let ceiling := decoder.maxPacketSize + receiveQuantum
  if required ≤ ceiling ∧ ceiling < capped then ceiling else capped

/-- Guarantee `need` writable bytes after `stop`, without reallocating if possible. -/
def ensure (need : Nat) (exactTotal : Option Nat) : DecoderM PUnit := do
  let decoder ← get
  let live := decoder.stop - decoder.start
  if need ≤ decoder.capacity - decoder.stop then pure ⟨⟩
  else if need ≤ decoder.capacity - live then do
    let buffer ←
      fromExcept (assignSlice decoder.buffer 0 (slice decoder.buffer decoder.start decoder.stop))
    modify fun decoder => { decoder with buffer, start := 0, stop := live }
  else reallocate (grownCapacity decoder need exactTotal)

/-- Double `target` until it reaches `peak`; `fuel` bounds the rounds. -/
def doubleTo (peak : Nat) : Nat → Nat → Nat
  | 0, target => target
  | fuel + 1, target => if target < peak then doubleTo peak fuel (target * 2) else target

/-- Shrink an oversized slab once large frames stop arriving. -/
def retireOversize : DecoderM PUnit := do
  let decoder ← get
  if decoder.drainHadLargeFrame then
    modify fun decoder =>
      { decoder with drainHadLargeFrame := false, idleDrains := 0, windowPeak := 0 }
  else do
    modify fun decoder => { decoder with idleDrains := decoder.idleDrains + 1 }
    onlyIf (oversizeRetention ≤ decoder.idleDrains + 1) do
      let floor := max minCapacity decoder.targetWindow
      let target := doubleTo decoder.windowPeak decoder.windowPeak floor
      modify fun decoder => { decoder with idleDrains := 0, windowPeak := 0 }
      onlyIf (target < decoder.capacity) (reallocate target)

/-- Size of a known incomplete head frame; only the allocation policy uses it. -/
def knownFrameTotal (decoder : IncrementalDecoder) : Option Nat :=
  if decoder.stop - decoder.start < 2 then none
  else match decodeVbi decoder.buffer (decoder.start + 1) (some decoder.stop) with
    | .error _ => none
    | .ok (remaining, lengthEnd) =>
      let total := lengthEnd - decoder.start + remaining
      if total ≤ decoder.stop - decoder.start ∨ decoder.maxPacketSize < total then none
      else some total

/-- The size `writable_window` asks for. -/
def requestedWindow (decoder : IncrementalDecoder) (preferred : Int) : Nat :=
  if (decoder.targetWindow : Int) < preferred then preferred.toNat else decoder.targetWindow

/-- The requested size, shortened at the end of a known incomplete frame, and the
extent of that frame. -/
def wantedWindow (decoder : IncrementalDecoder) (preferred : Int) : Nat × Option Nat :=
  let want := decoder.requestedWindow preferred
  if decoder.capacity - decoder.stop < want then
    match decoder.knownFrameTotal with
    | none => (want, none)
    | some total =>
      let remaining := total - (decoder.stop - decoder.start)
      (if 0 < remaining ∧ remaining < want then remaining else want, some total)
  else (want, none)

/-- Hand out storage for a receiver to fill: the offsets the window spans. -/
def writableWindow (preferred : Int) : DecoderM (Nat × Nat) := do
  let decoder ← get
  let (want, exact) := decoder.wantedWindow preferred
  ensure want exact
  let decoder ← get
  let limit := min (decoder.stop + want) decoder.capacity
  modify fun decoder => { decoder with offered := limit - decoder.stop }
  return (decoder.stop, limit)

/-- Account for bytes that arrived in the slab. -/
def advance (decoder : IncrementalDecoder) (count : Nat) : IncrementalDecoder :=
  let stop := decoder.stop + count
  { decoder with
    stop
    highWater := max decoder.highWater (stop - decoder.start)
    windowPeak := max decoder.windowPeak (stop - decoder.start) }

/-- Publish bytes written into the window last handed out. A few completely filled
windows in a row are the signal to offer a larger one. -/
def commit (count : Int) : DecoderM PUnit := do
  onlyIf (0 < count) do
    let decoder ← get
    raiseIf ((decoder.offered : Int) < count)
      (.value "commit exceeds the window that was handed out")
    let filled := count = decoder.offered ∧ decoder.targetWindow < receiveQuantum
    let promoted := filled ∧ promoteAfter ≤ decoder.fullFills + 1
    modify fun decoder =>
      { decoder with
        offered := 0
        fullFills := if filled ∧ ¬ promoted then decoder.fullFills + 1 else 0
        targetWindow := if promoted then decoder.targetWindow * 2 else decoder.targetWindow }
    modify fun decoder => decoder.advance count.toNat

/-- Copy `data` into the slab. -/
def feed (data : Bytes) : DecoderM PUnit := do
  onlyIf (data ≠ []) do
    let decoder ← get
    onlyIf (decoder.capacity - decoder.stop < data.length)
      (ensure data.length decoder.knownFrameTotal)
    let decoder ← get
    let buffer ← fromExcept (assignSlice decoder.buffer decoder.stop data)
    modify fun decoder => { decoder with buffer }
    modify fun decoder => decoder.advance data.length

/-- Rewind for a new connection, dropping any oversized-frame growth. -/
def clear : DecoderM PUnit := do
  let decoder ← get
  modify fun decoder =>
    { decoder with
      start := 0, stop := 0, idleDrains := 0, windowPeak := 0, drainHadLargeFrame := false
      offered := 0, targetWindow := initialWindow, fullFills := 0 }
  onlyIf (initialWindow < decoder.capacity) (reallocate initialWindow)

/-- The fixed-header bytes after the first all ask for another one. -/
def lengthUnfinished (decoder : IncrementalDecoder) : Bool :=
  (slice decoder.buffer (decoder.start + 1) decoder.stop).all fun digit => 128 ≤ digit.toNat

/-- The remaining length of the head frame and the offset behind it; `none` while
its bytes are still arriving. -/
def headLength (decoder : IncrementalDecoder) : Except Failure (Option (Nat × Nat)) :=
  match decodeVbi decoder.buffer (decoder.start + 1) (some decoder.stop) with
  | .ok found => .ok (some found)
  | .error (.malformedPacket message) =>
    if 5 ≤ decoder.stop - decoder.start then .error (.malformedPacket message)
    else if decoder.lengthUnfinished then .ok none
    else .error (.malformedPacket message)
  | .error failure => .error failure

/-- Step over a frame that ends at `bodyEnd`. A drained slab is rewound. -/
def consume (total bodyEnd : Nat) : DecoderM PUnit := do
  let decoder ← get
  modify fun decoder =>
    { decoder with
      start := bodyEnd
      drainHadLargeFrame := decoder.drainHadLargeFrame || decide (largeFrame < total) }
  onlyIf (bodyEnd = decoder.stop) do
    modify fun decoder => { decoder with start := 0, stop := 0 }
    onlyIf (decoder.targetWindow < decoder.capacity) retireOversize

/-- The next complete frame, if there is one. -/
def nextPacket : DecoderM (Option RawPacket) := do
  let decoder ← get
  let available := decoder.stop - decoder.start
  if available < 2 then return none
  else
    match ← fromExcept decoder.headLength with
    | none => return none
    | some (remainingLength, lengthEnd) => do
      let total := lengthEnd - decoder.start + remainingLength
      raiseIf (decoder.maxPacketSize < total) (.packetTooLarge
        s!"Packet size {total} exceeds maximum {decoder.maxPacketSize}")
      if available < total then return none
      else do
        let header := (decoder.buffer.getD decoder.start 0).toNat
        let packetType ← fromExcept (PacketType.fromByte header)
        let bodyEnd := decoder.start + total
        let body := slice decoder.buffer lengthEnd bodyEnd
        consume total bodyEnd
        return some { packetType, flags := header % 16, remaining := body }

end IncrementalDecoder

end Codec

end Mqttium
