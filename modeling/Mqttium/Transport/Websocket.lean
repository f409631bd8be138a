import Mqttium.Transport.Frames

/-! The receiving side of the WebSocket transport. -/

namespace Mqttium.Transport

open Library Codec

def maxPendingControl : Nat := 16

/-- Four bytes, as `os.urandom` draws them. -/
abbrev Mask := { mask : Bytes // mask.length = 4 }

/-- The transport, and what its stream writer has taken. -/
structure WebSocketTransport where
  recvBuf : Bytes := []
  closing : Bool := false
  pendingControl : List Bytes := []
  maxFrameSize : Nat := 16 * 1024 * 1024
  maxWriteBatchBytes : Nat := 1 * 1024 * 1024
  fragment : Option Bytes := none
  writerClosing : Bool := false
  written : List Bytes := []
  drawn : Nat := 0

/-- How one frame leaves the loop that looks for a payload. -/
inductive Turn where
  | next (transport : WebSocketTransport)
  | found (payload : Option Bytes) (transport : WebSocketTransport)
  | raised (error : TransportError) (transport : WebSocketTransport)

def Turn.transport : Turn → WebSocketTransport
  | .next transport | .found _ transport | .raised _ transport => transport

namespace WebSocketTransport

/-- Queue the pong of a ping. -/
def pong (urandom : Nat → Mask) (transport : WebSocketTransport) (payload : Bytes) : Turn :=
  if maxPendingControl ≤ transport.pendingControl.length then
    .raised (.connection "Too many pending WebSocket control replies") transport
  else
    let drawn := { transport with drawn := transport.drawn + 1 }
    match maskClientFrame pongOpcode payload (urandom transport.drawn).1 with
    | .error error => .raised error drawn
    | .ok frame => .found none { drawn with pendingControl := transport.pendingControl ++ [frame] }

def continueFragment (transport : WebSocketTransport) (frame : Frame) : Turn :=
  match transport.fragment with
  | none => .raised (.connection "WebSocket continuation without start frame") transport
  | some fragment =>
    let fragment := fragment ++ frame.payload
    let grown := { transport with fragment := some fragment }
    if transport.maxFrameSize < fragment.length then
      .raised (.connection "WebSocket fragmented message too large") grown
    else if frame.fin then
      let whole := { transport with fragment := none }
      if fragment = [] then .next whole else .found (some fragment) whole
    else .next grown

def startMessage (transport : WebSocketTransport) (frame : Frame) : Turn :=
  if transport.fragment.isSome then
    .raised (.connection "WebSocket binary frame started before fragmented message completed")
      transport
  else if !frame.fin then .next { transport with fragment := some frame.payload }
  else if frame.payload = [] then .next transport
  else .found (some frame.payload) transport

/-- What the loop does with a frame; its bytes are gone from the buffer. -/
def handleFrame (urandom : Nat → Mask) (transport : WebSocketTransport) (frame : Frame) : Turn :=
  if frame.opcode = closeOpcode then .found (some []) { transport with closing := true }
  else if frame.opcode = pingOpcode then transport.pong urandom frame.payload
  else if frame.opcode = pongOpcode then .next transport
  else if frame.opcode = binaryOpcode then transport.startMessage frame
  else if frame.opcode = continuationOpcode then transport.continueFragment frame
  else .raised (.assertion s!"unreachable WebSocket opcode {frame.opcode}") transport

/-- What handling a frame leaves as it was, and how many replies it may queue. -/
structure Handled (before after : WebSocketTransport) : Prop where
  recvBuf : after.recvBuf = before.recvBuf
  maxFrameSize : after.maxFrameSize = before.maxFrameSize
  writerClosing : after.writerClosing = before.writerClosing
  written : after.written = before.written
  queued : after.pendingControl.length ≤ before.pendingControl.length + 1

theorem handleFrame_handled (urandom : Nat → Mask) (transport : WebSocketTransport)
    (frame : Frame) : Handled transport (transport.handleFrame urandom frame).transport := by
  unfold handleFrame
  split
  · exact ⟨rfl, rfl, rfl, rfl, Nat.le_succ _⟩
  · split
    · unfold pong
      split
      · exact ⟨rfl, rfl, rfl, rfl, Nat.le_succ _⟩
      · cases maskClientFrame pongOpcode frame.payload (urandom transport.drawn).1 with
        | error error => exact ⟨rfl, rfl, rfl, rfl, Nat.le_succ _⟩
        | ok reply => exact ⟨rfl, rfl, rfl, rfl, by simp [Turn.transport]⟩
    · split
      · exact ⟨rfl, rfl, rfl, rfl, Nat.le_succ _⟩
      · split
        · unfold startMessage
          split
          · exact ⟨rfl, rfl, rfl, rfl, Nat.le_succ _⟩
          · split
            · exact ⟨rfl, rfl, rfl, rfl, Nat.le_succ _⟩
            · split <;> exact ⟨rfl, rfl, rfl, rfl, Nat.le_succ _⟩
        · split
          · unfold continueFragment
            cases transport.fragment with
            | none => exact ⟨rfl, rfl, rfl, rfl, Nat.le_succ _⟩
            | some fragment =>
              simp only
              split
              · exact ⟨rfl, rfl, rfl, rfl, Nat.le_succ _⟩
              · split
                · split <;> exact ⟨rfl, rfl, rfl, rfl, Nat.le_succ _⟩
                · exact ⟨rfl, rfl, rfl, rfl, Nat.le_succ _⟩
          · exact ⟨rfl, rfl, rfl, rfl, Nat.le_succ _⟩

/-- Extract the next binary payload and process control frames. -/
def tryExtractApplicationPayload (urandom : Nat → Mask) (transport : WebSocketTransport) :
    Except TransportError (Option Bytes) × WebSocketTransport :=
  match _ : parseFrame transport.maxFrameSize (some false) transport.recvBuf with
  | .waiting => (.ok none, transport)
  | .refused error => (.error error, transport)
  | .packet frame rest =>
    match _ : handleFrame urandom { transport with recvBuf := rest } frame with
    | .next after => after.tryExtractApplicationPayload urandom
    | .found payload after => (.ok payload, after)
    | .raised error after => (.error error, after)
termination_by transport.recvBuf.length
decreasing_by
  rename_i parsed handled
  have kept := handleFrame_handled urandom { transport with recvBuf := rest } frame
  rw [handled] at kept
  have same : after.recvBuf = rest := kept.recvBuf
  have shorter := parseFrame_rest parsed
  rw [same]
  omega

/-- Hand the queued replies to the stream writer. -/
def flushControl (transport : WebSocketTransport) : Except TransportError Unit × WebSocketTransport :=
  if transport.pendingControl = [] then (.ok (), transport)
  else if transport.writerClosing then (.error (.connectionReset "transport is closed"), transport)
  else
    (.ok (), { transport with
      written := transport.written ++ transport.pendingControl, pendingControl := [] })

theorem tryExtract_shrinks (urandom : Nat → Mask) (transport : WebSocketTransport) :
    let extracted := transport.tryExtractApplicationPayload urandom
    extracted.2.recvBuf.length + extracted.2.pendingControl.length ≤
        transport.recvBuf.length + transport.pendingControl.length ∧
      extracted.2.recvBuf.length ≤ transport.recvBuf.length ∧
      ∀ payload, extracted.1 = .ok (some payload) →
        extracted.2.recvBuf.length < transport.recvBuf.length := by
  induction size : transport.recvBuf.length using Nat.strongRecOn generalizing transport with
  | ind size ih =>
    subst size
    rw [tryExtractApplicationPayload]
    split
    · exact ⟨Nat.le_refl _, Nat.le_refl _, nofun⟩
    · exact ⟨Nat.le_refl _, Nat.le_refl _, nofun⟩
    · next frame rest parsed =>
      have shorter := parseFrame_rest parsed
      have kept := handleFrame_handled urandom { transport with recvBuf := rest } frame
      split
      · next after handled =>
        rw [handled] at kept
        have same : after.recvBuf = rest := kept.recvBuf
        have queued : after.pendingControl.length ≤ transport.pendingControl.length + 1 := kept.queued
        obtain ⟨total, buffer, found⟩ := ih after.recvBuf.length (by rw [same]; omega) after rfl
        rw [same] at total buffer found
        refine ⟨by omega, by omega, fun payload result => ?_⟩
        have taken := found payload result
        omega
      · next payload after handled =>
        rw [handled] at kept
        have same : after.recvBuf = rest := kept.recvBuf
        have queued : after.pendingControl.length ≤ transport.pendingControl.length + 1 := kept.queued
        simp only [same]
        exact ⟨by omega, by omega, fun _ _ => by omega⟩
      · next error after handled =>
        rw [handled] at kept
        have same : after.recvBuf = rest := kept.recvBuf
        have queued : after.pendingControl.length ≤ transport.pendingControl.length + 1 := kept.queued
        simp only [same]
        exact ⟨by omega, by omega, nofun⟩

theorem flushControl_recvBuf (transport : WebSocketTransport) :
    transport.flushControl.2.recvBuf = transport.recvBuf := by
  unfold flushControl
  split
  · rfl
  · split <;> rfl

/-- The next payload, from a network that delivers these chunks and then ends; the empty
payload says that the stream has ended or the peer has closed it. -/
def read (urandom : Nat → Mask) (transport : WebSocketTransport) (chunks : List Bytes) :
    Except TransportError Bytes × WebSocketTransport × List Bytes :=
  match _ : transport.tryExtractApplicationPayload urandom with
  | (.error error, after) => (.error error, after, chunks)
  | (.ok payload, after) =>
    match _ : after.flushControl with
    | (.error error, after) => (.error error, after, chunks)
    | (.ok _, calm) =>
      match payload with
      | some payload => (.ok payload, calm, chunks)
      | none =>
        -- A reply goes out before more of the network is waited for.
        if after.pendingControl ≠ [] then calm.read urandom chunks
        else
          match chunks with
          | [] => (.ok [], { calm with closing := true }, [])
          | chunk :: rest =>
            if chunk = [] then (.ok [], { calm with closing := true }, rest)
            else ({ calm with recvBuf := calm.recvBuf ++ chunk }).read urandom rest
termination_by (chunks.length, transport.recvBuf.length + transport.pendingControl.length)
decreasing_by
  · next flushed extracted queued =>
    apply Prod.Lex.right
    have shrunk := (tryExtract_shrinks urandom transport).1
    rw [extracted] at shrunk
    have same := flushControl_recvBuf after
    rw [flushed] at same
    have positive := List.length_pos_of_ne_nil queued
    have emptied : calm.pendingControl = [] := by
      unfold flushControl at flushed
      rw [if_neg queued] at flushed
      split at flushed
      · cases flushed
      · cases flushed
        rfl
    simp only at shrunk same
    simp only [emptied, same, List.length_nil]
    omega
  · exact Prod.Lex.left _ _ (by simp)

/-- The bytes that have not been parsed. -/
def unread (transport : WebSocketTransport) (chunks : List Bytes) : Bytes :=
  transport.recvBuf ++ chunks.flatten

/-- Reading only takes bytes; a payload that is not empty has been taken from them. -/
theorem read_shrinks (urandom : Nat → Mask) (transport : WebSocketTransport)
    (chunks : List Bytes) :
    let result := transport.read urandom chunks
    (unread result.2.1 result.2.2).length ≤ (unread transport chunks).length ∧
      ∀ payload, result.1 = .ok payload → payload ≠ [] →
        (unread result.2.1 result.2.2).length < (unread transport chunks).length := by
  have calmed {before calm : WebSocketTransport} {outcome : Except TransportError Unit}
      (flushed : before.flushControl = (outcome, calm)) : calm.recvBuf = before.recvBuf := by
    have same := flushControl_recvBuf before
    rwa [flushed] at same
  simp only [unread, List.length_append]
  fun_induction read urandom transport chunks with
  | case1 transport chunks error after extracted =>
    have shrunk := (tryExtract_shrinks urandom transport).2.1
    rw [extracted] at shrunk
    exact ⟨Nat.add_le_add_right shrunk _, nofun⟩
  | case2 transport chunks payload after extracted error failed flushed =>
    have shrunk := (tryExtract_shrinks urandom transport).2.1
    rw [extracted, ← calmed flushed] at shrunk
    exact ⟨Nat.add_le_add_right shrunk _, nofun⟩
  | case3 transport chunks after _ calm flushed payload extracted =>
    have shrunk := (tryExtract_shrinks urandom transport).2
    rw [extracted, ← calmed flushed] at shrunk
    have taken := shrunk.2 payload rfl
    exact ⟨Nat.add_le_add_right shrunk.1 _, fun _ _ _ => Nat.add_lt_add_right taken _⟩
  | case4 transport chunks after _ calm flushed extracted queued _ ih =>
    have shrunk := (tryExtract_shrinks urandom transport).2.1
    rw [extracted, ← calmed flushed] at shrunk
    exact ⟨by omega, fun payload result filled => by have := ih.2 payload result filled; omega⟩
  | case5 transport after _ calm flushed extracted idle =>
    have shrunk := (tryExtract_shrinks urandom transport).2.1
    rw [extracted, ← calmed flushed] at shrunk
    refine ⟨Nat.add_le_add_right shrunk _, fun payload result filled => ?_⟩
    cases result
    exact absurd rfl filled
  | case6 transport after _ calm flushed extracted idle rest =>
    have shrunk := (tryExtract_shrinks urandom transport).2.1
    rw [extracted, ← calmed flushed] at shrunk
    refine ⟨Nat.add_le_add_right shrunk _, fun payload result filled => ?_⟩
    cases result
    exact absurd rfl filled
  | case7 transport after _ calm flushed extracted idle chunk rest full _ ih =>
    have shrunk := (tryExtract_shrinks urandom transport).2.1
    rw [extracted, ← calmed flushed] at shrunk
    simp only [List.length_append, List.flatten_cons] at shrunk ih ⊢
    exact ⟨by omega, fun payload result filled => by have := ih.2 payload result filled; omega⟩

/-- What a caller sees who reads until the empty payload or an error. -/
structure Transcript where
  payloads : List Bytes
  error : Option TransportError
  written : List Bytes
  unread : Bytes

def receive (urandom : Nat → Mask) (transport : WebSocketTransport) (chunks : List Bytes) :
    Transcript :=
  match _ : transport.read urandom chunks with
  | (.error error, after, left) =>
    { payloads := [], error := some error, written := after.written, unread := after.unread left }
  | (.ok payload, after, left) =>
    if payload = [] then
      { payloads := [], error := none, written := after.written, unread := after.unread left }
    else
      let later := after.receive urandom left
      { later with payloads := payload :: later.payloads }
termination_by (transport.unread chunks).length
decreasing_by
  next result filled =>
    have shrunk := (read_shrinks urandom transport chunks).2 payload
    rw [result] at shrunk
    exact shrunk rfl filled

end WebSocketTransport

end Mqttium.Transport
