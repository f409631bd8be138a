import Mqttium.Library.Raising
import Mqttium.Transport.Masking
import Mqttium.Transport.Websocket

/-! The sending side of the WebSocket transport. Waiting for the stream's buffer to drain
changes nothing here. -/

namespace Mqttium.Transport

open Library Codec

def maxCoalescedPayload : Nat := 256 * 1024

/-- A byte string of the runtime: its length is a signed 64-bit number. -/
abbrev Part := { part : Bytes // part.length < 2 ^ 63 }

abbrev TransportM := EStateM TransportError WebSocketTransport

namespace WebSocketTransport

/-- Refuse a write into a closing or lost stream. -/
def ensureWritable : TransportM PUnit := do
  let transport ← get
  raiseIf transport.writerClosing (.connectionReset "transport is closed")

def writelines (segments : List Bytes) : TransportM PUnit :=
  modify fun transport => { transport with written := transport.written ++ segments }

def flushPendingControl : TransportM PUnit := do
  let transport ← get
  set transport.flushControl.2
  fromExcept transport.flushControl.1

def drawMask (urandom : Nat → Mask) : TransportM Mask := do
  let transport ← get
  set { transport with drawn := transport.drawn + 1 }
  return urandom transport.drawn

/-- Frame the parts of one batch as one binary message, in two segments. -/
def writePayloadBatch (urandom : Nat → Mask) (parts : List Part) (payloadBytes : Nat) :
    TransportM PUnit := do
  ensureWritable
  let payload := parts.flatMap Subtype.val
  let mask ← drawMask urandom
  let header ← fromExcept (clientFrameHeader binaryOpcode payloadBytes mask.1)
  match maskPayloadSliced payload mask.1 with
  | some masked => writelines [header, masked]
  | none => throw (.value "attempt to assign bytes to extended slice")

/-- One more part would take the batch over a limit. -/
def overflows (transport : WebSocketTransport) (projected : Nat) : Prop :=
  transport.maxWriteBatchBytes < maskedFrameSize projected ∨ transport.maxFrameSize < projected ∨
    maxCoalescedPayload < projected

/-- The batch takes no more parts. -/
def brims (transport : WebSocketTransport) (payloadBytes : Nat) : Prop :=
  transport.maxWriteBatchBytes ≤ maskedFrameSize payloadBytes ∨
    transport.maxFrameSize ≤ payloadBytes ∨ maxCoalescedPayload ≤ payloadBytes

instance (transport : WebSocketTransport) (size : Nat) : Decidable (transport.overflows size) :=
  inferInstanceAs (Decidable (_ ∨ _))

instance (transport : WebSocketTransport) (size : Nat) : Decidable (transport.brims size) :=
  inferInstanceAs (Decidable (_ ∨ _))

/-- Write the batch out when the part would not fit; the answer is the batch that takes it
and its size with the part. -/
def makeRoom (urandom : Nat → Mask) (part : Part) (batch : List Part) (payloadBytes : Nat) :
    TransportM (List Part × Nat) := do
  let transport ← get
  let projected := payloadBytes + part.1.length
  if batch ≠ [] ∧ transport.overflows projected then
    writePayloadBatch urandom batch payloadBytes
    return ([], part.1.length)
  else return (batch, projected)

/-- The loop of `write_many` over the parts, with the batch and its size so far. -/
def writeParts (urandom : Nat → Mask) : List Part → List Part → Nat → TransportM PUnit
  | [], batch, payloadBytes =>
    onlyIf (batch ≠ []) (writePayloadBatch urandom batch payloadBytes)
  | part :: rest, batch, payloadBytes => do
    let (batch, payloadBytes) ← makeRoom urandom part batch payloadBytes
    let transport ← get
    -- A part above a limit still goes out, alone.
    if transport.brims payloadBytes then
      writePayloadBatch urandom (batch ++ [part]) payloadBytes
      writeParts urandom rest [] 0
    else writeParts urandom rest (batch ++ [part]) payloadBytes

def writeMany (urandom : Nat → Mask) (parts : List Part) : TransportM PUnit :=
  onlyIf (parts ≠ []) do
    ensureWritable
    flushPendingControl
    writeParts urandom parts [] 0

end WebSocketTransport

/-! What was written -/

def payloadOf (parts : List Part) : Bytes := parts.flatMap Subtype.val

@[simp] theorem payloadOf_append (parts more : List Part) :
    payloadOf (parts ++ more) = payloadOf parts ++ payloadOf more :=
  List.flatMap_append

@[simp] theorem payloadOf_singleton (part : Part) : payloadOf [part] = part.1 :=
  List.flatMap_singleton _ _

/-- The parts together keep every limit of a frame that coalesces. -/
structure Coalesced (transport : WebSocketTransport) (parts : List Part) : Prop where
  batch : maskedFrameSize (payloadOf parts).length ≤ transport.maxWriteBatchBytes
  frame : (payloadOf parts).length ≤ transport.maxFrameSize
  payload : (payloadOf parts).length ≤ maxCoalescedPayload

/-- One part may have any size, several keep the limits. -/
def Fitting (transport : WebSocketTransport) (parts : List Part) : Prop :=
  2 ≤ parts.length → Coalesced transport parts

theorem Fitting.sized {transport : WebSocketTransport} {parts : List Part}
    (fitting : Fitting transport parts) : (payloadOf parts).length < 2 ^ 63 := by
  match parts with
  | [] => decide
  | [part] => simpa using part.2
  | first :: second :: more =>
    have small := (fitting (by simp)).payload
    unfold maxCoalescedPayload at small
    omega

/-- One binary message: the parts it carries and the mask it goes under. -/
structure SentFrame where
  parts : List Part
  mask : Mask

namespace SentFrame

def header (frame : SentFrame) : Bytes :=
  byte (0x80 ||| binaryOpcode) :: (lengthField 0x80 (payloadOf frame.parts).length ++ frame.mask.1)

def segments (frame : SentFrame) : List Bytes :=
  [frame.header, maskPayload (payloadOf frame.parts) frame.mask.1]

/-- The segments together are the frame of the whole payload. -/
theorem maskClientFrame_segments (frame : SentFrame)
    (small : (payloadOf frame.parts).length < 2 ^ 63) :
    maskClientFrame binaryOpcode (payloadOf frame.parts) frame.mask.1 =
      .ok frame.segments.flatten := by
  have opcode : (0x80 ||| (binaryOpcode &&& 0x0F) : Nat) = 0x80 ||| binaryOpcode := rfl
  have fits : (payloadOf frame.parts).length < 2 ^ 64 := Nat.lt_trans small (by decide)
  rw [maskClientFrame, if_neg (not_not.mpr frame.mask.2), clientFrameHeader_eq _ fits, opcode]
  simp [segments, header, bind, Except.bind, pure, Except.pure]

/-- The message as its receiver has it. -/
def message (frame : SentFrame) : Frame :=
  { fin := true, opcode := binaryOpcode, payload := payloadOf frame.parts }

theorem length_segments (frame : SentFrame) :
    frame.segments.flatten.length = maskedFrameSize (payloadOf frame.parts).length := by
  have field := length_lengthField 0x80 (payloadOf frame.parts).length
  simp only [segments, header, List.flatten_cons, List.flatten_nil, List.append_nil,
    List.length_append, List.length_cons, length_maskPayload, frame.mask.2]
  omega

end SentFrame

/-- The frames went out behind what had been written, and nothing else changed. -/
structure Sent (before after : WebSocketTransport) (frames : List SentFrame) : Prop where
  written : after.written = before.written ++ frames.flatMap SentFrame.segments
  maxWriteBatchBytes : after.maxWriteBatchBytes = before.maxWriteBatchBytes
  maxFrameSize : after.maxFrameSize = before.maxFrameSize
  writerClosing : after.writerClosing = before.writerClosing

section

variable {before between after : WebSocketTransport} {frames more : List SentFrame}
  {parts batch rest : List Part}

theorem Sent.refl (transport : WebSocketTransport) : Sent transport transport [] :=
  ⟨by simp, rfl, rfl, rfl⟩

theorem Sent.trans (sent : Sent before between frames) (later : Sent between after more) :
    Sent before after (frames ++ more) where
  written := by rw [later.written, sent.written, List.flatMap_append, List.append_assoc]
  maxWriteBatchBytes := later.maxWriteBatchBytes.trans sent.maxWriteBatchBytes
  maxFrameSize := later.maxFrameSize.trans sent.maxFrameSize
  writerClosing := later.writerClosing.trans sent.writerClosing

theorem Sent.fitting (sent : Sent before after frames) :
    Fitting after parts ↔ Fitting before parts := by
  have coalesced : Coalesced after parts ↔ Coalesced before parts :=
    ⟨fun kept => ⟨sent.maxWriteBatchBytes ▸ kept.batch, sent.maxFrameSize ▸ kept.frame,
        kept.payload⟩,
      fun kept => ⟨sent.maxWriteBatchBytes ▸ kept.batch, sent.maxFrameSize ▸ kept.frame,
        kept.payload⟩⟩
  rw [Fitting, Fitting, coalesced]

/-- Whole frames took exactly the parts, in order. -/
structure Carried (before after : WebSocketTransport) (parts : List Part)
    (frames : List SentFrame) : Prop where
  sent : Sent before after frames
  carries : frames.flatMap SentFrame.parts = parts
  filled : ∀ frame ∈ frames, frame.parts ≠ []
  fitting : ∀ frame ∈ frames, Fitting before frame.parts

theorem Carried.none (transport : WebSocketTransport) : Carried transport transport [] [] :=
  ⟨.refl transport, rfl, nofun, nofun⟩

theorem Carried.trans (carried : Carried before between parts frames)
    (later : Carried between after rest more) :
    Carried before after (parts ++ rest) (frames ++ more) where
  sent := carried.sent.trans later.sent
  carries := by rw [List.flatMap_append, carried.carries, later.carries]
  filled := fun frame member => (List.mem_append.mp member).elim (carried.filled frame)
    (later.filled frame)
  fitting := fun frame member => (List.mem_append.mp member).elim (carried.fitting frame)
    fun last => carried.sent.fitting.mp (later.fitting frame last)

end

namespace WebSocketTransport

variable {urandom : Nat → Mask} {transport : WebSocketTransport} {part : Part}
  {parts batch : List Part} {payloadBytes : Nat}

theorem writePayloadBatch_sat (writable : transport.writerClosing = false)
    (filled : batch ≠ []) (fitting : Fitting transport batch)
    (sized : payloadBytes = (payloadOf batch).length) :
    Sat (writePayloadBatch urandom batch payloadBytes) transport
      (fun _ after => ∃ frames, Carried transport after batch frames) (fun _ _ => False) := by
  have small : payloadBytes < 2 ^ 64 := by
    have := fitting.sized
    omega
  simp only [writePayloadBatch, ensureWritable, drawMask, sat_bind, sat_get, sat_set, sat_pure,
    sat_raiseIf, writable, Bool.false_eq_true, false_implies, true_and, not_false_eq_true,
    true_implies, clientFrameHeader_eq _ small, sat_fromExcept_ok,
    maskPayloadSliced_eq _ (urandom transport.drawn).2, writelines, sat_modify]
  refine ⟨[⟨batch, urandom transport.drawn⟩], ⟨?_, rfl, rfl, writable.symm⟩, by simp, by simpa using filled,
    by simpa using fitting⟩
  simp [SentFrame.segments, SentFrame.header, payloadOf, sized]
  rfl

theorem makeRoom_sat (writable : transport.writerClosing = false)
    (fitting : Fitting transport batch) (sized : payloadBytes = (payloadOf batch).length) :
    Sat (makeRoom urandom part batch payloadBytes) transport
      (fun room after => ∃ gone frames, Carried transport after gone frames ∧
        gone ++ room.1 = batch ∧ room.2 = (payloadOf (room.1 ++ [part])).length ∧
        Fitting transport (room.1 ++ [part]))
      (fun _ _ => False) := by
  simp only [makeRoom, sat_bind, sat_get, sat_ite]
  constructor
  · rintro ⟨filled, _⟩
    apply (writePayloadBatch_sat writable filled fitting sized).mono
    · rintro _ after ⟨frames, carried⟩
      rw [sat_pure]
      exact ⟨batch, frames, carried, List.append_nil batch, by simp, fun several => by simp at several⟩
    · exact fun _ _ impossible => impossible
  · intro stays
    rw [sat_pure]
    have total : payloadBytes + part.1.length = (payloadOf (batch ++ [part])).length := by
      simp [sized]
    refine ⟨[], [], .none transport, rfl, total, fun several => ?_⟩
    have filled : batch ≠ [] := by
      rintro rfl
      simp at several
    simp only [overflows, not_and_or, not_or, Nat.not_lt, filled, not_false_eq_true, ne_eq,
      not_true_eq_false, false_or, total] at stays
    exact ⟨stays.1, stays.2.1, stays.2.2⟩

theorem writeParts_sat (parts : List Part) (writable : transport.writerClosing = false)
    (fitting : Fitting transport batch) (sized : payloadBytes = (payloadOf batch).length) :
    Sat (writeParts urandom parts batch payloadBytes) transport
      (fun _ after => ∃ frames, Carried transport after (batch ++ parts) frames)
      (fun _ _ => False) := by
  induction parts generalizing transport batch payloadBytes with
  | nil =>
    simp only [writeParts, sat_onlyIf, List.append_nil]
    constructor
    · exact fun filled => writePayloadBatch_sat writable filled fitting sized
    · intro empty
      rw [not_not] at empty
      subst empty
      exact ⟨[], .none transport⟩
  | cons part rest ih =>
    simp only [writeParts, sat_bind]
    apply (makeRoom_sat writable fitting sized).mono
    · rintro ⟨batch', size⟩ between ⟨gone, frames, carried, rfl, total, room⟩
      have open_ : between.writerClosing = false := carried.sent.writerClosing.trans writable
      have same : gone ++ batch' ++ part :: rest = gone ++ ((batch' ++ [part]) ++ rest) := by simp
      have fits : Fitting between (batch' ++ [part]) := carried.sent.fitting.mpr room
      simp only [sat_bind, sat_get, sat_ite, same]
      constructor
      · intro _
        apply (writePayloadBatch_sat open_ (by simp) fits total).mono
        · rintro _ middle ⟨written, brimmed⟩
          have writable' : middle.writerClosing = false := brimmed.sent.writerClosing.trans open_
          apply (ih writable' (fun several => absurd several (by simp)) rfl).mono
          · rintro _ after ⟨last, later⟩
            exact ⟨_, carried.trans (brimmed.trans later)⟩
          · exact fun _ _ impossible => impossible
        · exact fun _ _ impossible => impossible
      · intro _
        apply (ih open_ fits total).mono
        · rintro _ after ⟨last, later⟩
          exact ⟨_, carried.trans later⟩
        · exact fun _ _ impossible => impossible
    · exact fun _ _ impossible => impossible

/-- The bytes of whole frames are read back as their messages. -/
theorem reads_frames {frames : List SentFrame}
    (fitting : ∀ frame ∈ frames, Fitting transport frame.parts) :
    (webSocketFramer (2 ^ 63) (some true)).Reads (frames.flatMap SentFrame.segments).flatten
      (frames.map SentFrame.message) [] := by
  induction frames with
  | nil => exact .nothing []
  | cons frame rest ih =>
    have small : (payloadOf frame.parts).length < 2 ^ 63 :=
      (fitting frame (List.mem_cons_self ..)).sized
    have fits : Fits (2 ^ 63) true binaryOpcode (payloadOf frame.parts) :=
      ⟨by decide, Nat.le_of_lt small, fun control => absurd control (by decide),
        fun close => absurd close (by decide), small⟩
    obtain ⟨spelled, masked, parsed⟩ := parseFrame_maskClientFrame fits frame.mask.2
      (show some true ≠ some false by decide) (rest.flatMap SentFrame.segments).flatten
    rw [frame.maskClientFrame_segments small] at masked
    cases masked
    rw [List.flatMap_cons, List.flatten_append, List.map_cons]
    exact .packet parsed (ih fun later member => fitting later (List.mem_cons_of_mem _ member))

/-- A call of `write_many` on this transport left it so: the replies that waited and then the
frames went out. -/
structure Wrote (before after : WebSocketTransport) (parts : List Part)
    (frames : List SentFrame) : Prop where
  written : after.written =
    (if parts = [] then before.written else before.written ++ before.pendingControl) ++
      frames.flatMap SentFrame.segments
  /-- The receiver reads one message a frame and nothing else. -/
  read : (webSocketFramer (2 ^ 63) (some true)).Reads
    (frames.flatMap SentFrame.segments).flatten (frames.map SentFrame.message) []
  stream : ((frames.map SentFrame.message).map Frame.payload).flatten =
    (parts.map Subtype.val).flatten
  carries : frames.flatMap SentFrame.parts = parts
  coalesced : ∀ frame ∈ frames, 2 ≤ frame.parts.length →
    frame.segments.flatten.length ≤ before.maxWriteBatchBytes ∧
    (payloadOf frame.parts).length ≤ before.maxFrameSize ∧
    (payloadOf frame.parts).length ≤ maxCoalescedPayload

theorem Wrote.of_carried {start after : WebSocketTransport} {frames : List SentFrame}
    (carried : Carried start after parts frames)
    (written : start.written =
      if parts = [] then transport.written else transport.written ++ transport.pendingControl)
    (sized : start.maxWriteBatchBytes = transport.maxWriteBatchBytes)
    (framed : start.maxFrameSize = transport.maxFrameSize) :
    Wrote transport after parts frames where
  written := by rw [carried.sent.written, written]
  read := reads_frames carried.fitting
  stream := by
    have payloads : (frames.map SentFrame.message).map Frame.payload =
        frames.map fun frame => payloadOf frame.parts := by simp [SentFrame.message]
    rw [payloads, ← carried.carries, ← List.flatMap_def, ← List.flatMap_def, List.flatMap_assoc]
    rfl
  carries := carried.carries
  coalesced := fun frame member several => by
    have kept := carried.fitting frame member several
    rw [frame.length_segments]
    exact ⟨sized ▸ kept.batch, framed ▸ kept.frame, kept.payload⟩

theorem flushControl_open (open_ : transport.writerClosing = false) :
    ∃ start, transport.flushControl = (.ok (), start) ∧
      start.written = transport.written ++ transport.pendingControl ∧
      start.maxWriteBatchBytes = transport.maxWriteBatchBytes ∧
      start.maxFrameSize = transport.maxFrameSize ∧ start.writerClosing = false := by
  unfold flushControl
  by_cases idle : transport.pendingControl = []
  · exact ⟨transport, if_pos idle, by rw [idle, List.append_nil], rfl, rfl, open_⟩
  · rw [if_neg idle, open_]
    exact ⟨_, rfl, rfl, rfl, rfl, rfl⟩

theorem writeMany_sat (urandom : Nat → Mask) (transport : WebSocketTransport)
    (parts : List Part) :
    Sat (writeMany urandom parts) transport
      (fun _ after => ∃ frames, Wrote transport after parts frames)
      (fun error after => error = .connectionReset "transport is closed" ∧
        transport.writerClosing = true ∧ after = transport) := by
  simp only [writeMany, sat_onlyIf, sat_bind, ensureWritable, sat_get, sat_raiseIf]
  refine ⟨fun filled => ⟨fun closing => ⟨trivial, closing, trivial⟩, fun open_ => ?_⟩,
    fun empty => ?_⟩
  · simp only [Bool.not_eq_true] at open_
    obtain ⟨start, flushed, written, batch, frame, writable⟩ := flushControl_open open_
    simp only [flushPendingControl, sat_bind, sat_get, sat_set, flushed, sat_fromExcept_ok]
    apply (writeParts_sat parts writable (fun several => absurd several (by simp)) rfl).mono
    · rintro _ after ⟨frames, carried⟩
      exact ⟨frames, Wrote.of_carried carried (by rw [if_neg filled, written]) batch frame⟩
    · exact fun _ _ impossible => impossible.elim
  · rw [not_not] at empty
    subst empty
    exact ⟨[], Wrote.of_carried (.none transport) rfl rfl rfl⟩

end WebSocketTransport

theorem length_maskClientFrame (opcode : Nat) (payload : Part) (mask : Mask) :
    (maskClientFrame opcode payload.1 mask.1).map List.length =
      .ok (maskedFrameSize payload.1.length) := by
  have field := length_lengthField 0x80 payload.1.length
  rw [maskClientFrame, if_neg (not_not.mpr mask.2),
    clientFrameHeader_eq _ (Nat.lt_trans payload.2 (by decide))]
  simp only [bind, Except.bind, pure, Except.pure, Except.map, List.length_append,
    List.length_cons, length_maskPayload, mask.2, Except.ok.injEq]
  omega

/-- Writing preserves the byte stream: the parts go out in order inside whole frames that keep
the limits where they coalesce, a frame has the size foretold, and the masking by tables is the
bytewise one. -/
theorem write_many_stream (urandom : Nat → Mask) :
    (∀ (transport : WebSocketTransport) (parts : List Part),
      Sat (WebSocketTransport.writeMany urandom parts) transport
        (fun _ after => ∃ frames, WebSocketTransport.Wrote transport after parts frames)
        (fun error after => error = .connectionReset "transport is closed" ∧
          transport.writerClosing = true ∧ after = transport)) ∧
    (∀ (opcode : Nat) (payload : Part) (mask : Mask),
      (maskClientFrame opcode payload.1 mask.1).map List.length =
        .ok (maskedFrameSize payload.1.length)) ∧
    ∀ (payload : Bytes) (mask : Mask),
      maskPayloadSliced payload mask.1 = some (maskPayload payload mask.1) :=
  ⟨WebSocketTransport.writeMany_sat urandom, length_maskClientFrame,
    fun payload mask => maskPayloadSliced_eq payload mask.2⟩

end Mqttium.Transport
