import Mqttium.Transport.Websocket

/-! Receiving does not depend on how the network cuts the stream, and what it yields is
what the peer's messages carry. -/

namespace Mqttium.Transport

open Library Codec

namespace WebSocketTransport

variable {urandom : Nat → Mask} {transport : WebSocketTransport} {chunks : List Bytes}

/-! One frame at a time -/

theorem flushControl_idle (idle : transport.pendingControl = []) :
    transport.flushControl = (.ok (), transport) := if_pos idle

theorem extract_waiting
    (waiting : parseFrame transport.maxFrameSize (some false) transport.recvBuf = .waiting) :
    transport.tryExtractApplicationPayload urandom = (.ok none, transport) := by
  rw [tryExtractApplicationPayload]
  split
  · rfl
  · next refused => rw [waiting] at refused; cases refused
  · next parsed => rw [waiting] at parsed; cases parsed

theorem extract_refused {error : TransportError}
    (refused : parseFrame transport.maxFrameSize (some false) transport.recvBuf = .refused error) :
    transport.tryExtractApplicationPayload urandom = (.error error, transport) := by
  rw [tryExtractApplicationPayload]
  split
  · next waiting => rw [refused] at waiting; cases waiting
  · next other => rw [refused] at other; cases other; rfl
  · next parsed => rw [refused] at parsed; cases parsed

theorem extract_packet {frame : Frame} {rest : Bytes}
    (parsed : parseFrame transport.maxFrameSize (some false) transport.recvBuf =
      .packet frame rest) :
    transport.tryExtractApplicationPayload urandom =
      match handleFrame urandom { transport with recvBuf := rest } frame with
      | .next after => after.tryExtractApplicationPayload urandom
      | .found payload after => (.ok payload, after)
      | .raised error after => (.error error, after) := by
  rw [tryExtractApplicationPayload]
  split
  · next waiting => rw [parsed] at waiting; cases waiting
  · next refused => rw [parsed] at refused; cases refused
  · next other =>
    rw [parsed] at other
    cases other
    split
    · next handled => rw [handled]
    · next handled => rw [handled]
    · next handled => rw [handled]

theorem read_eq :
    transport.read urandom chunks =
      match transport.tryExtractApplicationPayload urandom with
      | (.error error, after) => (.error error, after, chunks)
      | (.ok payload, after) =>
        match after.flushControl with
        | (.error error, after) => (.error error, after, chunks)
        | (.ok _, calm) =>
          match payload with
          | some payload => (.ok payload, calm, chunks)
          | none =>
            if after.pendingControl ≠ [] then calm.read urandom chunks
            else
              match chunks with
              | [] => (.ok [], { calm with closing := true }, [])
              | chunk :: rest =>
                if chunk = [] then (.ok [], { calm with closing := true }, rest)
                else ({ calm with recvBuf := calm.recvBuf ++ chunk }).read urandom rest := by
  fun_cases read urandom transport chunks with
  | case1 chunks error after extracted => simp only [extracted]
  | case2 chunks payload after extracted error failed flushed => simp only [extracted, flushed]
  | case3 chunks after _ calm flushed payload extracted => simp only [extracted, flushed]
  | case4 chunks after _ calm flushed extracted queued => simp only [extracted, flushed, if_pos queued]
  | case5 after _ calm flushed extracted idle => simp only [extracted, flushed, if_neg idle]
  | case6 after _ calm flushed extracted idle rest =>
    simp only [extracted, flushed, if_neg idle, if_true]
  | case7 after _ calm flushed extracted idle chunk rest full =>
    simp only [extracted, flushed, if_neg idle, if_neg full]

theorem receive_eq :
    transport.receive urandom chunks =
      match transport.read urandom chunks with
      | (.error error, after, left) =>
        { payloads := [], error := some error, written := after.written
          unread := after.unread left }
      | (.ok payload, after, left) =>
        if payload = [] then
          { payloads := [], error := none, written := after.written, unread := after.unread left }
        else
          { after.receive urandom left with
            payloads := payload :: (after.receive urandom left).payloads } := by
  rw [receive]
  split
  · next result => rw [result]
  · next result => rw [result]

theorem receive_refused {error : TransportError}
    (refused : parseFrame transport.maxFrameSize (some false) transport.recvBuf = .refused error) :
    transport.receive urandom chunks =
      { payloads := [], error := some error, written := transport.written
        unread := transport.unread chunks } := by
  rw [receive_eq, read_eq, extract_refused refused]

/-- With half a frame in the buffer the reader waits for the network. -/
theorem receive_waiting (idle : transport.pendingControl = [])
    (waiting : parseFrame transport.maxFrameSize (some false) transport.recvBuf = .waiting) :
    transport.receive urandom chunks =
      match chunks with
      | [] =>
        { payloads := [], error := none, written := transport.written, unread := transport.recvBuf }
      | chunk :: rest =>
        if chunk = [] then
          { payloads := [], error := none, written := transport.written
            unread := transport.unread rest }
        else ({ transport with recvBuf := transport.recvBuf ++ chunk }).receive urandom rest := by
  have reading : transport.read urandom chunks =
      match chunks with
      | [] => (.ok [], { transport with closing := true }, [])
      | chunk :: rest =>
        if chunk = [] then (.ok [], { transport with closing := true }, rest)
        else ({ transport with recvBuf := transport.recvBuf ++ chunk }).read urandom rest := by
    rw [read_eq, extract_waiting waiting]
    simp only [flushControl_idle idle, ne_eq, idle, not_true_eq_false, if_false]
  cases chunks with
  | nil =>
    rw [receive_eq, reading]
    simp [unread]
  | cons chunk rest =>
    by_cases empty : chunk = []
    · rw [receive_eq, reading]
      simp [empty, unread]
    · rw [receive_eq, reading]
      simp only [if_neg empty]
      rw [receive_eq]

/-- What a frame at the head of the buffer makes of the rest of the run. -/
def afterFrame (urandom : Nat → Mask) (chunks : List Bytes) : Turn → Transcript
  | .next after => after.receive urandom chunks
  | .raised error after =>
    { payloads := [], error := some error, written := after.written
      unread := after.unread chunks }
  | .found payload after =>
    match after.flushControl with
    | (.error error, after) =>
      { payloads := [], error := some error, written := after.written
        unread := after.unread chunks }
    | (.ok _, calm) =>
      match payload with
      | none => calm.receive urandom chunks
      | some payload =>
        if payload = [] then
          { payloads := [], error := none, written := calm.written, unread := calm.unread chunks }
        else
          { calm.receive urandom chunks with
            payloads := payload :: (calm.receive urandom chunks).payloads }

/-- A frame without a payload for the caller has queued a reply; every other one queues
nothing. -/
def Queues (before : WebSocketTransport) : Turn → Prop
  | .next after => after.pendingControl = before.pendingControl
  | .found none after => after.pendingControl ≠ []
  | .found (some _) after => after.pendingControl = before.pendingControl
  | .raised _ _ => True

theorem handleFrame_queues (urandom : Nat → Mask) (transport : WebSocketTransport)
    (frame : Frame) : transport.Queues (transport.handleFrame urandom frame) := by
  unfold handleFrame
  split
  · rfl
  · split
    · unfold pong
      split
      · trivial
      · cases maskClientFrame pongOpcode frame.payload (urandom transport.drawn).1 with
        | error error => trivial
        | ok reply => simp [Queues]
    · split
      · rfl
      · split
        · unfold startMessage
          split
          · trivial
          · split
            · rfl
            · split <;> rfl
        · split
          · unfold continueFragment
            cases transport.fragment with
            | none => trivial
            | some fragment =>
              simp only
              split
              · trivial
              · split
                · split <;> rfl
                · rfl
          · trivial

theorem receive_packet {frame : Frame} {rest : Bytes}
    (parsed : parseFrame transport.maxFrameSize (some false) transport.recvBuf =
      .packet frame rest) :
    transport.receive urandom chunks =
      afterFrame urandom chunks (handleFrame urandom { transport with recvBuf := rest } frame) := by
  have queues := handleFrame_queues urandom { transport with recvBuf := rest } frame
  rw [receive_eq, read_eq, extract_packet parsed]
  cases handled : handleFrame urandom { transport with recvBuf := rest } frame with
  | next after =>
    simp only [afterFrame]
    rw [← read_eq, ← receive_eq]
  | raised error after => rfl
  | found payload after =>
    rw [handled] at queues
    simp only [afterFrame]
    cases flushed : after.flushControl with
    | mk outcome calm =>
      cases outcome with
      | error error => rfl
      | ok _ =>
        cases payload with
        | some payload => rfl
        | none =>
          have replied : after.pendingControl ≠ [] := queues
          simp only [if_pos replied]
          rw [← receive_eq]

/-! Chunks -/

/-- The same transport with other bytes in its buffer. -/
def withBuffer (transport : WebSocketTransport) (recvBuf : Bytes) : WebSocketTransport :=
  { transport with recvBuf }

def Turn.withBuffer (recvBuf : Bytes) : Turn → Turn
  | .next after => .next (after.withBuffer recvBuf)
  | .found payload after => .found payload (after.withBuffer recvBuf)
  | .raised error after => .raised error (after.withBuffer recvBuf)

/-- What is done with a frame does not depend on the bytes behind it. -/
theorem handleFrame_withBuffer (urandom : Nat → Mask) (transport : WebSocketTransport)
    (frame : Frame) (recvBuf : Bytes) :
    (transport.withBuffer recvBuf).handleFrame urandom frame =
      Turn.withBuffer recvBuf (transport.handleFrame urandom frame) := by
  unfold handleFrame
  split
  · rfl
  · split
    · by_cases many : maxPendingControl ≤ transport.pendingControl.length
      · simp [pong, withBuffer, many, Turn.withBuffer]
      · cases masked : maskClientFrame pongOpcode frame.payload (urandom transport.drawn).1 <;>
          simp [pong, withBuffer, many, masked, Turn.withBuffer]
    · split
      · rfl
      · split
        · by_cases begun : transport.fragment.isSome = true
          · simp [startMessage, withBuffer, begun, Turn.withBuffer]
          · by_cases last : frame.fin = true
            · by_cases empty : frame.payload = [] <;>
                simp [startMessage, withBuffer, begun, last, empty, Turn.withBuffer]
            · simp [startMessage, withBuffer, begun, last, Turn.withBuffer]
        · split
          · cases begun : transport.fragment with
            | none => simp [continueFragment, withBuffer, begun, Turn.withBuffer]
            | some fragment =>
              by_cases large : transport.maxFrameSize < (fragment ++ frame.payload).length
              · simp only [List.length_append] at large
                simp [continueFragment, withBuffer, begun, large, Turn.withBuffer]
              · simp only [List.length_append] at large
                by_cases last : frame.fin = true
                · by_cases empty : fragment ++ frame.payload = []
                  · simp only [List.append_eq_nil_iff] at empty
                    simp [continueFragment, withBuffer, begun, last, empty, Turn.withBuffer]
                  · simp only [List.append_eq_nil_iff] at empty
                    simp [continueFragment, withBuffer, begun, large, last, empty, Turn.withBuffer]
                · simp [continueFragment, withBuffer, begun, large, last, Turn.withBuffer]
          · rfl

theorem flushControl_withBuffer (transport : WebSocketTransport) (recvBuf : Bytes) :
    (transport.withBuffer recvBuf).flushControl =
      (transport.flushControl.1, transport.flushControl.2.withBuffer recvBuf) := by
  unfold flushControl
  by_cases idle : transport.pendingControl = []
  · rw [if_pos idle, if_pos (show (transport.withBuffer recvBuf).pendingControl = [] from idle)]
  · rw [if_neg idle, if_neg (show (transport.withBuffer recvBuf).pendingControl ≠ [] from idle)]
    by_cases closing : transport.writerClosing = true <;> simp [withBuffer, closing]

theorem flushControl_ok {calm : WebSocketTransport} {done : Unit}
    (flushed : transport.flushControl = (.ok done, calm)) : calm.pendingControl = [] := by
  unfold flushControl at flushed
  split at flushed
  · next idle =>
    cases flushed
    exact idle
  · split at flushed
    · cases flushed
    · cases flushed
      rfl

/-- Bytes that have arrived may as well arrive later. -/
theorem receive_append (idle : transport.pendingControl = []) {chunk : Bytes} (full : chunk ≠ []) :
    transport.receive urandom (chunk :: chunks) =
      (transport.withBuffer (transport.recvBuf ++ chunk)).receive urandom chunks := by
  induction size : transport.recvBuf.length using Nat.strongRecOn generalizing transport with
  | ind size ih =>
    subst size
    have later {after : WebSocketTransport} (calm : after.pendingControl = [])
        (shorter : after.recvBuf.length < transport.recvBuf.length) :
        after.receive urandom (chunk :: chunks) =
          (after.withBuffer (after.recvBuf ++ chunk)).receive urandom chunks :=
      ih after.recvBuf.length shorter calm rfl
    have rest_unread {after : WebSocketTransport} :
        (after.withBuffer (after.recvBuf ++ chunk)).unread chunks = after.unread (chunk :: chunks) := by
      simp [unread, withBuffer]
    cases parsed : parseFrame transport.maxFrameSize (some false) transport.recvBuf with
    | waiting =>
      rw [receive_waiting idle parsed]
      simp only [if_neg full]
      rfl
    | refused error =>
      have still : parseFrame transport.maxFrameSize (some false) (transport.recvBuf ++ chunk) =
          .refused error := (parseFrame_append chunk).2 _ parsed
      rw [receive_refused parsed,
        @receive_refused _ (transport.withBuffer (transport.recvBuf ++ chunk)) _ _ still, rest_unread]
      rfl
    | packet frame rest =>
      have still : parseFrame transport.maxFrameSize (some false) (transport.recvBuf ++ chunk) =
          .packet frame (rest ++ chunk) := (parseFrame_append chunk).1 _ _ parsed
      have shorter := parseFrame_rest parsed
      have shifted := handleFrame_withBuffer urandom { transport with recvBuf := rest } frame
        (rest ++ chunk)
      have handled := handleFrame_handled urandom { transport with recvBuf := rest } frame
      have queues := handleFrame_queues urandom { transport with recvBuf := rest } frame
      rw [receive_packet parsed,
        @receive_packet _ (transport.withBuffer (transport.recvBuf ++ chunk)) _ _ _ still]
      change _ = afterFrame urandom chunks
        (({ transport with recvBuf := rest } : WebSocketTransport).withBuffer
          (rest ++ chunk) |>.handleFrame urandom frame)
      rw [shifted]
      cases turn : handleFrame urandom { transport with recvBuf := rest } frame with
      | next after =>
        rw [turn] at handled queues
        have same : after.recvBuf = rest := handled.recvBuf
        simp only [afterFrame, Turn.withBuffer]
        rw [later (queues.trans idle) (by rw [same]; omega), same]
      | raised error after =>
        rw [turn] at handled
        have same : after.recvBuf = rest := handled.recvBuf
        simp only [afterFrame, Turn.withBuffer]
        rw [← same, rest_unread]
        rfl
      | found payload after =>
        rw [turn] at handled
        have same : after.recvBuf = rest := handled.recvBuf
        simp only [afterFrame, Turn.withBuffer, flushControl_withBuffer]
        cases flushed : after.flushControl with
        | mk outcome calm =>
          have buffer : calm.recvBuf = rest := by
            have kept := flushControl_recvBuf after
            rw [flushed] at kept
            exact kept.trans same
          cases outcome with
          | error error =>
            simp only
            rw [← buffer, rest_unread]
            rfl
          | ok _ =>
            have again := later (flushControl_ok flushed) (by rw [buffer]; omega)
            rw [buffer] at again
            cases payload with
            | none => exact again
            | some payload =>
              simp only [again]
              split
              · rw [← buffer, rest_unread]
                rfl
              · rfl

/-- All of the stream may be there from the start. -/
theorem receive_flatten (idle : transport.pendingControl = []) (full : ∀ chunk ∈ chunks, chunk ≠ []) :
    transport.receive urandom chunks =
      (transport.withBuffer (transport.unread chunks)).receive urandom [] := by
  induction chunks generalizing transport with
  | nil => simp [unread, withBuffer]
  | cons chunk rest ih =>
    obtain ⟨first, others⟩ := List.forall_mem_cons.mp full
    have calm : (transport.withBuffer (transport.recvBuf ++ chunk)).pendingControl = [] := idle
    rw [receive_append idle first, ih calm others]
    simp [unread, withBuffer]

/-! Valid streams -/

/-- The frames of a peer that keeps to the protocol, from inside a message of which
`fragment` has been sent; it has not closed the connection. -/
def ValidFrames (maxFrameSize : Nat) : Option Bytes → List Frame → Prop
  | _, [] => True
  | fragment, frame :: rest =>
    Fits maxFrameSize frame.fin frame.opcode frame.payload ∧
      if isControl frame.opcode = true then
        frame.opcode ≠ closeOpcode ∧ ValidFrames maxFrameSize fragment rest
      else
        (frame.opcode = binaryOpcode ↔ fragment = none) ∧
          (fragment.getD [] ++ frame.payload).length ≤ maxFrameSize ∧
          ValidFrames maxFrameSize
            (if frame.fin then none else some (fragment.getD [] ++ frame.payload)) rest

/-- The binary messages that the frames complete. -/
def messages : Option Bytes → List Frame → List Bytes
  | _, [] => []
  | fragment, frame :: rest =>
    if isControl frame.opcode then messages fragment rest
    else
      let message := fragment.getD [] ++ frame.payload
      if frame.fin then message :: messages none rest else messages (some message) rest

/-- The payloads of the pings. -/
def pings (frames : List Frame) : List Bytes :=
  (frames.filter fun frame => frame.opcode = pingOpcode).map Frame.payload

/-- Replies that say the same as the pings, in their order. -/
def Replies (maxFrameSize : Nat) (replies payloads : List Bytes) : Prop :=
  replies.map (parseFrame maxFrameSize (some true)) =
    payloads.map fun payload => .packet { fin := true, opcode := pongOpcode, payload } []

/-- Put payloads in front of those that come later. -/
def Transcript.prepend (payloads : List Bytes) (later : Transcript) : Transcript :=
  { later with payloads := payloads ++ later.payloads }

/-- What is the same after a run of frames. -/
structure Ready (maxFrameSize : Nat) (transport : WebSocketTransport) : Prop where
  idle : transport.pendingControl = []
  open_ : transport.writerClosing = false
  limit : transport.maxFrameSize = maxFrameSize

/-- A pong is queued and goes out before the next frame. -/
theorem receive_ping {maxFrameSize : Nat} (ready : Ready maxFrameSize transport) {frame : Frame}
    {rest : Bytes} (fits : Fits maxFrameSize frame.fin frame.opcode frame.payload)
    (ping : frame.opcode = pingOpcode)
    (parsed : parseFrame transport.maxFrameSize (some false) transport.recvBuf =
      .packet frame rest) :
    ∃ reply, Replies maxFrameSize [reply] [frame.payload] ∧
      transport.receive urandom chunks =
        ({ transport with
          recvBuf := rest, written := transport.written ++ [reply]
          drawn := transport.drawn + 1 }).receive urandom chunks := by
  have pongs : Fits maxFrameSize true pongOpcode frame.payload :=
    { allowed := by decide
      limit := fits.limit
      control := fun _ => ⟨(fits.control (by rw [ping]; rfl)).1, rfl⟩
      close := nofun
      sized := fits.sized }
  obtain ⟨reply, masked, parsedReply⟩ := parseFrame_maskClientFrame pongs
    (urandom transport.drawn).2 (show some true ≠ some false by decide) []
  refine ⟨reply, ?_, ?_⟩
  · rw [List.append_nil] at parsedReply
    simp [Replies, parsedReply]
  · rw [receive_packet parsed, handleFrame, if_neg (by rw [ping]; decide), if_pos ping,
      pong, if_neg (by simp [ready.idle, maxPendingControl])]
    simp [masked, afterFrame, flushControl, ready.open_, ready.idle]

/-- A data frame completes a message or extends it. -/
theorem handleFrame_data {frame : Frame} (data : isControl frame.opcode = false)
    (allowed : frame.opcode ∈ allowedOpcodes)
    (kind : frame.opcode = binaryOpcode ↔ transport.fragment = none)
    (limit : (transport.fragment.getD [] ++ frame.payload).length ≤ transport.maxFrameSize) :
    transport.handleFrame urandom frame =
      let message := transport.fragment.getD [] ++ frame.payload
      if frame.fin then
        if message = [] then .next { transport with fragment := none }
        else .found (some message) { transport with fragment := none }
      else .next { transport with fragment := some message } := by
  have notControl : frame.opcode ≠ closeOpcode ∧ frame.opcode ≠ pingOpcode ∧
      frame.opcode ≠ pongOpcode := by
    simpa [isControl, and_assoc] using data
  obtain ⟨notClose, notPing, notPong⟩ := notControl
  rw [handleFrame, if_neg notClose, if_neg notPing, if_neg notPong]
  by_cases binary : frame.opcode = binaryOpcode
  · have fresh := kind.mp binary
    rw [if_pos binary, startMessage, fresh]
    have same : { transport with fragment := none } = transport := by rw [← fresh]
    by_cases last : frame.fin = true
    · simp [last, same]
    · simp [last]
  · have continuation : frame.opcode = continuationOpcode := by
      simpa [allowedOpcodes, binary, notClose, notPing, notPong] using allowed
    rw [if_neg binary, if_pos continuation, continueFragment]
    cases begun : transport.fragment with
    | none => exact absurd (kind.mpr begun) binary
    | some fragment =>
      rw [begun, Option.getD_some] at limit
      simp only [Option.getD_some, if_neg (Nat.not_lt.mpr limit)]

/-- What a run of valid frames makes of the reader. -/
theorem receive_frames {maxFrameSize : Nat} (frames : List Frame) (tail : Bytes)
    (ready : Ready maxFrameSize transport)
    (valid : ValidFrames maxFrameSize transport.fragment frames)
    (spelled : transport.recvBuf = frames.flatMap serverFrame ++ tail) :
    ∃ after replies, Ready maxFrameSize after ∧ after.recvBuf = tail ∧
      after.written = transport.written ++ replies ∧ Replies maxFrameSize replies (pings frames) ∧
      transport.receive urandom [] =
        Transcript.prepend ((messages transport.fragment frames).filter (· ≠ []))
          (after.receive urandom []) := by
  induction frames generalizing transport with
  | nil => exact ⟨transport, [], ready, spelled, by simp, rfl, rfl⟩
  | cons frame rest ih =>
    obtain ⟨fits, later⟩ := valid
    have parsed : parseFrame transport.maxFrameSize (some false) transport.recvBuf =
        .packet frame (rest.flatMap serverFrame ++ tail) := by
      rw [spelled, ready.limit, List.flatMap_cons, List.append_assoc]
      exact parseFrame_serverFrame fits _
    by_cases control : isControl frame.opcode = true
    · rw [if_pos control] at later
      obtain ⟨open_, later⟩ := later
      by_cases ping : frame.opcode = pingOpcode
      · obtain ⟨reply, same, received⟩ := receive_ping ready fits ping parsed
        obtain ⟨after, replies, calm, behind, written, answered, result⟩ :=
          @ih { transport with
            recvBuf := rest.flatMap serverFrame ++ tail, written := transport.written ++ [reply]
            drawn := transport.drawn + 1 } ⟨ready.idle, ready.open_, ready.limit⟩ later rfl
        refine ⟨after, reply :: replies, calm, behind, ?_, ?_, ?_⟩
        · simpa using written
        · simp only [Replies, pings, List.filter_cons, ping, decide_true, if_true, List.map_cons]
            at same answered ⊢
          rw [← answered]
          simpa using same
        · rw [received, result, messages, if_pos control]
      · have pong : frame.opcode = pongOpcode := by
          simpa [isControl, open_, ping] using control
        obtain ⟨after, replies, calm, behind, written, answered, result⟩ :=
          @ih { transport with recvBuf := rest.flatMap serverFrame ++ tail }
            ⟨ready.idle, ready.open_, ready.limit⟩ later rfl
        refine ⟨after, replies, calm, behind, written, ?_, ?_⟩
        · simpa [pings, List.filter_cons, ping] using answered
        · rw [receive_packet parsed, handleFrame, if_neg open_, if_neg ping, if_pos pong,
            afterFrame, result, messages, if_pos control]
    · rw [if_neg control] at later
      obtain ⟨kind, limit, later⟩ := later
      have data : isControl frame.opcode = false := by simpa using control
      have ping : frame.opcode ≠ pingOpcode := by
        intro ping
        rw [ping] at data
        cases data
      obtain ⟨after, replies, calm, behind, written, answered, result⟩ :=
        @ih { transport with
          recvBuf := rest.flatMap serverFrame ++ tail
          fragment := if frame.fin then none else some (transport.fragment.getD [] ++ frame.payload) }
          ⟨ready.idle, ready.open_, ready.limit⟩ later rfl
      refine ⟨after, replies, calm, behind, written, ?_, ?_⟩
      · simpa [pings, List.filter_cons, ping] using answered
      · have handled := @handleFrame_data urandom
          { transport with recvBuf := rest.flatMap serverFrame ++ tail } frame data fits.allowed kind
          (by simpa only [ready.limit] using limit)
        rw [receive_packet parsed, handled, messages, if_neg control]
        cases last : frame.fin with
        | false =>
          simp only [last, Bool.false_eq_true, if_false] at result ⊢
          exact result
        | true =>
          simp only [last, if_true] at result ⊢
          by_cases empty : transport.fragment.getD [] ++ frame.payload = []
          · rw [if_pos empty, List.filter_cons_of_neg (by simpa using empty)]
            exact result
          · have full : decide (transport.fragment.getD [] ++ frame.payload ≠ []) = true :=
              decide_eq_true empty
            rw [if_neg empty, List.filter_cons, if_pos full]
            simp only [afterFrame, flushControl_idle
              (show WebSocketTransport.pendingControl { transport with
                recvBuf := rest.flatMap serverFrame ++ tail, fragment := none } = [] from ready.idle),
              if_neg empty]
            rw [result]
            rfl

/-- The stream ends behind the frames, or the peer closes it there. -/
def Ending (maxFrameSize : Nat) (tail unread : Bytes) : Prop :=
  tail = [] ∧ unread = [] ∨
    ∃ frame, frame.opcode = closeOpcode ∧
      Fits maxFrameSize frame.fin frame.opcode frame.payload ∧ tail = serverFrame frame ++ unread

theorem receive_ending {maxFrameSize : Nat} (ready : Ready maxFrameSize transport) {unread : Bytes}
    (ending : Ending maxFrameSize transport.recvBuf unread) :
    transport.receive urandom [] =
      { payloads := [], error := none, written := transport.written, unread } := by
  rcases ending with ⟨empty, rfl⟩ | ⟨frame, close, fits, spelled⟩
  · rw [receive_waiting ready.idle (by rw [empty]; rfl), empty]
  · have parsed : parseFrame transport.maxFrameSize (some false) transport.recvBuf =
        .packet frame unread := by
      rw [spelled, ready.limit]
      exact parseFrame_serverFrame fits unread
    rw [receive_packet parsed, handleFrame, if_pos close]
    simp [afterFrame, flushControl, ready.idle, WebSocketTransport.unread]

theorem flatten_filter (payloads : List Bytes) :
    (payloads.filter (· ≠ [])).flatten = payloads.flatten := by
  induction payloads with
  | nil => rfl
  | cons payload rest ih => cases payload <;> simpa using ih

theorem receive_valid {maxFrameSize : Nat} (frames : List Frame) {tail unread : Bytes}
    (ready : Ready maxFrameSize transport)
    (valid : ValidFrames maxFrameSize transport.fragment frames)
    (spelled : transport.recvBuf = frames.flatMap serverFrame ++ tail)
    (ending : Ending maxFrameSize tail unread) :
    ∃ replies, Replies maxFrameSize replies (pings frames) ∧
      transport.receive urandom [] =
        { payloads := (messages transport.fragment frames).filter (· ≠ []), error := none
          written := transport.written ++ replies, unread } := by
  obtain ⟨after, replies, calm, behind, written, answered, result⟩ :=
    @receive_frames urandom transport maxFrameSize frames tail ready valid spelled
  refine ⟨replies, answered, ?_⟩
  rw [result, receive_ending calm (by rw [behind]; exact ending), ← written]
  simp [Transcript.prepend]

end WebSocketTransport

open WebSocketTransport in
/-- Receiving is transparent: the payloads are those of the peer's messages, none of them
empty, and every ping is answered; how the network cuts the stream does not matter, valid
or not; and a frame of this side is read back as it was spelled. -/
theorem receive_transparent (urandom : Nat → Mask) (maxFrameSize : Nat) :
    (∀ frames tail unread leftover chunks, ValidFrames maxFrameSize none frames →
      Ending maxFrameSize tail unread → (∀ chunk ∈ chunks, chunk ≠ []) →
      leftover ++ chunks.flatten = frames.flatMap serverFrame ++ tail →
      let transcript :=
        ({ recvBuf := leftover, maxFrameSize } : WebSocketTransport).receive urandom chunks
      transcript.payloads.flatten = (messages none frames).flatten ∧
        (∀ payload ∈ transcript.payloads, payload ≠ []) ∧ transcript.error = none ∧
        transcript.unread = unread ∧ Replies maxFrameSize transcript.written (pings frames)) ∧
    (∀ (transport : WebSocketTransport) chunks others, transport.pendingControl = [] →
      (∀ chunk ∈ chunks, chunk ≠ []) → (∀ chunk ∈ others, chunk ≠ []) →
      chunks.flatten = others.flatten →
      transport.receive urandom chunks = transport.receive urandom others) ∧
    (∀ opcode payload mask more expectMasked, Fits maxFrameSize true opcode payload →
      mask.length = 4 → expectMasked ≠ some false →
      ∃ frame, maskClientFrame opcode payload mask = .ok frame ∧
        parseFrame maxFrameSize expectMasked (frame ++ more) =
          .packet { fin := true, opcode, payload } more) := by
  refine ⟨?_, ?_, ?_⟩
  · intro frames tail unread leftover chunks valid ending full stream
    have ready : Ready maxFrameSize
        ({ recvBuf := leftover ++ chunks.flatten, maxFrameSize } : WebSocketTransport) :=
      ⟨rfl, rfl, rfl⟩
    obtain ⟨replies, answered, result⟩ :=
      @receive_valid urandom { recvBuf := leftover ++ chunks.flatten, maxFrameSize } maxFrameSize
        frames tail unread ready valid stream ending
    have flat : ({ recvBuf := leftover, maxFrameSize } : WebSocketTransport).receive urandom chunks =
        ({ recvBuf := leftover ++ chunks.flatten, maxFrameSize } : WebSocketTransport).receive
          urandom [] := receive_flatten rfl full
    simp only [flat, result]
    refine ⟨flatten_filter _, fun payload member => ?_, trivial, trivial, answered⟩
    exact of_decide_eq_true (List.mem_filter.mp member).2
  · intro transport chunks others idle full also same
    rw [receive_flatten idle full, receive_flatten idle also, unread, unread, same]
  · intro opcode payload mask more expectMasked fits four accepts
    exact parseFrame_maskClientFrame fits four accepts more

/-- A message in two fragments with a ping between them. -/
def splitFrames : List Frame :=
  [⟨false, binaryOpcode, [1]⟩, ⟨true, pingOpcode, [7]⟩, ⟨true, continuationOpcode, [2]⟩]

def splitChunks : List Bytes := [[0x02, 0x01, 0x01], [0x89], [0x01, 0x07, 0x80, 0x01, 0x02]]

def zeroMask (_ : Nat) : Mask := ⟨[0, 0, 0, 0], rfl⟩

theorem receive_transparent_split :
    (({ recvBuf := [], maxFrameSize := 1024 } : WebSocketTransport).receive zeroMask
      splitChunks).payloads.flatten = [1, 2] := by
  have fits (fin : Bool) (opcode : Nat) (octet : UInt8) (allowed : opcode ∈ allowedOpcodes)
      (control : isControl opcode = true → fin = true) (open_ : opcode ≠ closeOpcode) :
      Fits 1024 fin opcode [octet] :=
    ⟨allowed, show 1 ≤ 1024 by decide, fun kind => ⟨show 1 ≤ 125 by decide, control kind⟩,
      fun close => absurd close open_, show 1 < 2 ^ 63 by decide⟩
  have valid : WebSocketTransport.ValidFrames 1024 none splitFrames :=
    ⟨fits _ _ _ (by decide) (by decide) (by decide), by decide, by decide,
      fits _ _ _ (by decide) (by decide) (by decide), by decide,
      fits _ _ _ (by decide) (by decide) (by decide), by decide, by decide, trivial⟩
  exact ((receive_transparent zeroMask 1024).1 splitFrames [] [] [] splitChunks valid
    (.inl ⟨rfl, rfl⟩) (by decide) (by decide)).1

/-- A close frame with a payload of one byte and a ping above the limit are refused. -/
theorem parseFrame_refuses :
    maskClientFrame closeOpcode [5] [0, 0, 0, 0] = .ok [0x88, 0x81, 0, 0, 0, 0, 5] ∧
      parseFrame 1024 (some true) [0x88, 0x81, 0, 0, 0, 0, 5] =
        .refused (.connection "WebSocket close frame payload must not be one byte") ∧
      parseFrame 4 (some false) (serverFrame ⟨true, pingOpcode, [0, 0, 0, 0, 0]⟩) =
        .refused (.connection "WebSocket frame 5 exceeds max 4") :=
  ⟨rfl, rfl, rfl⟩

end Mqttium.Transport
