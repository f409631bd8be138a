import Mqttium.Library.Focus
import Mqttium.Decoding.Peeking

/-! The receive path that writes straight into the decoder's own storage. One step is one
callback of the event loop, or a piece of `receive` between two awaits. -/

namespace Mqttium.Transport

open Library Codec

def highWater : Nat := 192 * 1024

def lowWater : Nat := 64 * 1024

def minWindow : Nat := 16 * 1024

/-- A connection that was made: reading is paused until a decoder is attached. -/
structure DecoderPushProtocol where
  /-- `_sink` is the decoder. -/
  attached : Bool := false
  /-- The future of the reader in `wait_for_data`, and whether it is done. -/
  waiter : Option Bool := none
  received : Nat := 0
  receivedBytes : Nat := 0
  pauses : Nat := 0
  resumes : Nat := 0
  eof : Bool := false
  exception : Option String := none
  pausedReading : Bool := true
  /-- `is_closing()` of the event loop's transport. -/
  closing : Bool := false
  deriving DecidableEq, Repr

namespace DecoderPushProtocol

def wake (protocol : DecoderPushProtocol) : DecoderPushProtocol :=
  { protocol with waiter := protocol.waiter.map fun _ => true }

def detach (protocol : DecoderPushProtocol) : DecoderPushProtocol :=
  { protocol with
    attached := false
    pausedReading := protocol.pausedReading || !protocol.closing }

def eofReceived (protocol : DecoderPushProtocol) : DecoderPushProtocol :=
  { protocol with eof := true }.wake

def connectionLost (protocol : DecoderPushProtocol) (cause : Option String) :
    DecoderPushProtocol :=
  { protocol with
    exception := if cause.isSome then cause else protocol.exception
    eof := true }.wake

end DecoderPushProtocol

/-- The transport, with the decoder that its protocol and the client share. -/
structure PushStreamTransport where
  decoder : IncrementalDecoder
  protocol : DecoderPushProtocol := {}
  seen : Nat := 0
  resumptions : Nat := 0
  waits : Nat := 0
  deriving DecidableEq, Repr

abbrev PushM := EStateM Failure PushStreamTransport

/-- How far `receive` gets before it has to wait. -/
inductive Reception where
  | bytes
  | endOfStream
  | lost (cause : String)
  | waiting
  deriving DecidableEq, Repr

namespace PushStreamTransport

def sink : Focus PushStreamTransport IncrementalDecoder where
  part := decoder
  replace decoder transport := { transport with decoder }

def modifyProtocol (change : DecoderPushProtocol → DecoderPushProtocol) : PushM PUnit :=
  modify fun transport => { transport with protocol := change transport.protocol }

/-- Whether more bytes may come: the reader has caught up, or its head frame is not whole. -/
def drained : PushM Bool := do
  let transport ← get
  if transport.decoder.buffered ≤ lowWater then return true
  else return !(← sink.run IncrementalDecoder.headFrameReady)

def resumeIfDrained : PushM PUnit := do
  let transport ← get
  onlyIf (transport.protocol.pausedReading ∧ transport.protocol.attached ∧
      ¬ transport.protocol.closing) do
    let drained ← drained
    onlyIf (drained = true) (modifyProtocol fun protocol =>
      { protocol with pausedReading := false, resumes := protocol.resumes + 1 })

def attachDecoder : PushM PUnit := do
  modifyProtocol fun protocol => { protocol with attached := true }
  resumeIfDrained

/-- Storage for the loop to receive into: scratch space while there is no decoder. -/
def getBuffer : PushM (Nat × Nat) := do
  let transport ← get
  if transport.protocol.attached then sink.run (IncrementalDecoder.writableWindow minWindow)
  else return (0, minWindow)

/-- Ask for reading to stop while the reader has a whole frame to work on. -/
def pauseIfFull : PushM PUnit := do
  let transport ← get
  onlyIf (¬ transport.protocol.pausedReading ∧ highWater < transport.decoder.buffered) do
    let ready ← sink.run IncrementalDecoder.headFrameReady
    onlyIf (ready = true) (modifyProtocol fun protocol =>
      { protocol with pausedReading := true, pauses := protocol.pauses + 1 })

def bufferUpdated (nbytes : Int) : PushM PUnit := do
  let transport ← get
  onlyIf (0 < nbytes ∧ transport.protocol.attached) do
    sink.run (IncrementalDecoder.commit nbytes)
    modifyProtocol fun protocol =>
      { protocol with
        received := protocol.received + 1
        receivedBytes := protocol.receivedBytes + nbytes.toNat }
    pauseIfFull
    modifyProtocol DecoderPushProtocol.wake

/-- `recv_into` of the socket. -/
def recvInto (offset : Nat) (data : Bytes) : DecoderM PUnit := do
  let decoder ← get
  let buffer ← fromExcept (assignSlice decoder.buffer offset data)
  modify fun decoder => { decoder with buffer }

/-- One read of the loop: ask for a buffer, receive into it, report the bytes. Returns
what reached the decoder. -/
def readReady (ready : Bytes) : PushM Bytes := do
  let transport ← get
  let (offset, limit) ← getBuffer
  let arrived := ready.take (limit - offset)
  onlyIf (transport.protocol.attached = true) (sink.run (recvInto offset arrived))
  bufferUpdated arrived.length
  return if transport.protocol.attached then arrived else []

/-- Park in `wait_for_data`. -/
def waitForData : PushM PUnit := do
  let transport ← get
  raiseIf (transport.protocol.waiter ≠ none)
    (.runtime "receive() called while another receive coroutine is waiting")
  modifyProtocol fun protocol => { protocol with waiter := some false }

/-- The loop of `receive`, up to its await. -/
def lookForBytes : PushM Reception := do
  let transport ← get
  if transport.protocol.received ≠ transport.seen then do
    modify fun transport =>
      { transport with
        seen := transport.protocol.received
        resumptions := transport.resumptions + 1 }
    return .bytes
  else if transport.protocol.eof then return .endOfStream
  else do
    modify fun transport => { transport with waits := transport.waits + 1 }
    waitForData
    return .waiting

def receive : PushM Reception := do
  resumeIfDrained
  match (← get).protocol.exception with
  | some cause => return .lost cause
  | none => lookForBytes

/-- The rest of `receive` once its waiter is done. -/
def resumed : PushM Reception := do
  modifyProtocol fun protocol => { protocol with waiter := none }
  match (← get).protocol.exception with
  | some cause => return .lost cause
  | none => lookForBytes

/-- `close`, up to the closing of the stream writer. -/
def close (transport : PushStreamTransport) : PushStreamTransport :=
  { transport with protocol := { transport.protocol.detach with closing := true } }

/-- Only the reading of the transport, its waiter and the counters may have changed. -/
structure Kept (before after : PushStreamTransport) : Prop where
  decoder : after.decoder = before.decoder
  attached : after.protocol.attached = before.protocol.attached
  received : after.protocol.received = before.protocol.received
  eof : after.protocol.eof = before.protocol.eof
  exception : after.protocol.exception = before.protocol.exception
  closing : after.protocol.closing = before.protocol.closing

theorem Kept.refl (transport : PushStreamTransport) : Kept transport transport :=
  ⟨rfl, rfl, rfl, rfl, rfl, rfl⟩

/-- Reading goes on, but for a transport that cannot and a head frame that the reader can
work on. -/
def Flows (transport : PushStreamTransport) : Prop :=
  transport.protocol.attached = true → transport.protocol.closing = false →
    transport.protocol.pausedReading = true → (nextAnswer transport.decoder).isSome = true

theorem headFrameReady_sat {transport : PushStreamTransport} (sound : transport.decoder.Sound) :
    Sat (sink.run IncrementalDecoder.headFrameReady) transport
      (fun ready after => after = transport ∧ ready = (nextAnswer transport.decoder).isSome)
      (fun _ _ => False) := by
  rw [sat_focus]
  exact Sat.of_ok (headFrameReady_eq sound) ⟨rfl, rfl⟩

theorem drained_sat {transport : PushStreamTransport} (sound : transport.decoder.Sound) :
    Sat drained transport
      (fun drained after => after = transport ∧
        (drained = false → (nextAnswer transport.decoder).isSome = true) ∧
        (drained = true →
          transport.decoder.buffered ≤ lowWater ∨ nextAnswer transport.decoder = none))
      (fun _ _ => False) := by
  simp only [drained, sat_bind, sat_get]
  split
  · next low => exact ⟨rfl, fun contrary => absurd contrary (by decide), fun _ => Or.inl low⟩
  · rw [sat_bind]
    refine (headFrameReady_sat sound).mono ?_ (fun _ _ raised => raised)
    rintro _ _ ⟨rfl, rfl⟩
    refine ⟨rfl, ?_, fun unready => Or.inr ?_⟩
    · simp
    · simpa using unready

theorem resumeIfDrained_sat {transport : PushStreamTransport} (sound : transport.decoder.Sound) :
    Sat resumeIfDrained transport
      (fun _ after => Kept transport after ∧ after.seen = transport.seen ∧
        after.protocol.waiter = transport.protocol.waiter ∧ after.Flows ∧
        (after.protocol.pausedReading = false → transport.protocol.pausedReading = false ∨
          transport.decoder.buffered ≤ lowWater ∨ nextAnswer transport.decoder = none))
      (fun _ _ => False) := by
  simp only [resumeIfDrained, modifyProtocol, sat_bind, sat_get, sat_onlyIf]
  refine ⟨fun stopped => ?_, fun running =>
    ⟨.refl _, trivial, trivial, ?_, fun reading => Or.inl reading⟩⟩
  · refine (drained_sat sound).mono ?_ (fun _ _ raised => raised)
    rintro drained _ ⟨rfl, behind, caughtUp⟩
    simp only [sat_modify]
    refine ⟨fun empty => ⟨⟨rfl, rfl, rfl, rfl, rfl, rfl⟩, trivial, trivial, ?_,
        fun _ => Or.inr (caughtUp empty)⟩,
      fun full => ⟨.refl _, trivial, trivial, ?_, fun reading => Or.inl reading⟩⟩
    · intro _ _ paused
      cases paused
    · intro _ _ _
      exact behind (by simpa using full)
  · intro attached alive paused
    exact absurd ⟨paused, attached, by simp [alive]⟩ running

theorem Kept.trans {before between after : PushStreamTransport} (first : Kept before between)
    (second : Kept between after) : Kept before after where
  decoder := second.decoder.trans first.decoder
  attached := second.attached.trans first.attached
  received := second.received.trans first.received
  eof := second.eof.trans first.eof
  exception := second.exception.trans first.exception
  closing := second.closing.trans first.closing

/-- Why a call of `receive` stopped where it did. -/
inductive Received (before after : PushStreamTransport) : Reception → Prop where
  | bytes (kept : Kept before after) (unseen : before.protocol.received ≠ before.seen)
      (seen : after.seen = before.protocol.received) (idle : after.protocol.waiter = none) :
      Received before after .bytes
  | endOfStream (kept : Kept before after) (seen : after.seen = before.seen)
      (quiet : before.protocol.received = before.seen) (eof : before.protocol.eof = true)
      (idle : after.protocol.waiter = none) : Received before after .endOfStream
  | lost {cause} (kept : Kept before after) (seen : after.seen = before.seen)
      (failed : before.protocol.exception = some cause) (idle : after.protocol.waiter = none) :
      Received before after (.lost cause)
  | waiting (kept : Kept before after) (seen : after.seen = before.seen)
      (quiet : before.protocol.received = before.seen) (eof : before.protocol.eof = false)
      (sound : before.protocol.exception = none) (parked : after.protocol.waiter = some false)
      (flows : after.Flows) : Received before after .waiting

theorem lookForBytes_sat {before transport : PushStreamTransport} (kept : Kept before transport)
    (seen : transport.seen = before.seen) (idle : transport.protocol.waiter = none)
    (sound : before.protocol.exception = none)
    (flows : before.protocol.received = before.seen → before.protocol.eof = false →
      transport.Flows) :
    Sat lookForBytes transport (fun reception after => Received before after reception)
      (fun _ _ => False) := by
  simp only [lookForBytes, waitForData, modifyProtocol, sat_bind, sat_get, sat_ite, sat_modify,
    sat_pure, sat_raiseIf]
  refine ⟨fun unseen => ?_, fun quiet => ⟨fun eof => ?_, fun more =>
    ⟨fun parked => absurd idle parked, fun _ => ?_⟩⟩⟩
  · rw [kept.received, seen] at unseen
    exact .bytes ⟨kept.decoder, kept.attached, kept.received, kept.eof, kept.exception, kept.closing⟩
      unseen kept.received idle
  · have same : before.protocol.received = before.seen := by
      simpa [kept.received, seen] using quiet
    exact .endOfStream kept seen same (kept.eof ▸ eof) idle
  · have same : before.protocol.received = before.seen := by
      simpa [kept.received, seen] using quiet
    have alive : before.protocol.eof = false := by simpa [kept.eof] using more
    exact .waiting
      ⟨kept.decoder, kept.attached, kept.received, kept.eof, kept.exception, kept.closing⟩
      seen same alive sound rfl (flows same alive)

theorem received_sat {transport : PushStreamTransport} (sound : transport.decoder.Sound)
    (idle : transport.protocol.waiter = none) :
    Sat receive transport (fun reception after => Received transport after reception)
      (fun _ _ => False) := by
  simp only [receive, sat_bind]
  refine (resumeIfDrained_sat sound).mono ?_ (fun _ _ raised => raised)
  rintro _ resumed ⟨kept, seen, waiter, flows, _⟩
  rw [sat_get]
  cases failed : resumed.protocol.exception with
  | some cause => exact .lost kept seen (kept.exception ▸ failed) (waiter.trans idle)
  | none =>
    exact lookForBytes_sat kept seen (waiter.trans idle) (kept.exception ▸ failed) fun _ _ => flows

theorem resumed_sat {transport : PushStreamTransport}
    (woken : transport.protocol.received = transport.seen → transport.protocol.eof = true) :
    Sat resumed transport (fun reception after => Received transport after reception)
      (fun _ _ => False) := by
  simp only [resumed, modifyProtocol, sat_bind, sat_modify, sat_get]
  cases failed : transport.protocol.exception with
  | some cause => exact .lost ⟨rfl, rfl, rfl, rfl, failed.symm, rfl⟩ rfl failed rfl
  | none =>
    refine lookForBytes_sat ⟨rfl, rfl, rfl, rfl, failed.symm, rfl⟩ rfl rfl failed
      fun quiet alive => ?_
    rw [woken quiet] at alive
    cases alive

/-- The adaptive window has one of its three sizes. -/
def Windowed (decoder : IncrementalDecoder) : Prop :=
  decoder.targetWindow = initialWindow ∨ decoder.targetWindow = 2 * initialWindow ∨
    decoder.targetWindow = receiveQuantum

theorem Windowed.requested {decoder : IncrementalDecoder} (windowed : Windowed decoder)
    {preferred : Int} (small : preferred ≤ receiveQuantum) :
    decoder.requestedWindow preferred ≤ receiveQuantum := by
  unfold Windowed initialWindow receiveQuantum defaultCapacity at windowed
  unfold IncrementalDecoder.requestedWindow
  unfold receiveQuantum defaultCapacity at *
  split <;> omega

/-- A window is no wider than what was asked for. -/
theorem writableWindow_width {decoder : IncrementalDecoder} (sound : decoder.Sound)
    (preferred : Int) :
    Sat (IncrementalDecoder.writableWindow preferred) decoder
      (fun window after => window.2 - window.1 ≤ decoder.requestedWindow preferred ∧
        after.targetWindow = decoder.targetWindow)
      (fun _ _ => False) := by
  obtain ⟨_, atMost⟩ := IncrementalDecoder.wantedWindow_bounds sound preferred
  simp only [IncrementalDecoder.writableWindow, sat_bind, sat_get]
  refine (IncrementalDecoder.ensure_sat _ _ sound).mono ?_ (fun _ _ raised => raised)
  rintro _ after ⟨moved, _, _⟩
  simp only [sat_modify, sat_pure]
  refine ⟨Nat.le_trans ?_ atMost, moved.target⟩
  omega

theorem commit_windowed {decoder : IncrementalDecoder} (windowed : Windowed decoder) (count : Int) :
    Sat (IncrementalDecoder.commit count) decoder (fun _ after => Windowed after)
      (fun _ after => Windowed after) := by
  simp only [IncrementalDecoder.commit, sat_onlyIf, sat_bind, sat_get, sat_raiseIf, sat_modify]
  refine ⟨fun _ => ⟨fun _ => windowed, fun _ => ?_⟩, fun _ => windowed⟩
  unfold Windowed IncrementalDecoder.advance
  simp only
  split
  · next promoted =>
    have smaller := promoted.1.2
    unfold Windowed at windowed
    unfold initialWindow receiveQuantum defaultCapacity at *
    omega
  · exact windowed

/-- What is received into a window is published behind the live bytes. -/
theorem recvInto_sat {before decoder : IncrementalDecoder} {requested offset limit : Nat}
    (offered : IncrementalDecoder.Window before requested (offset, limit) decoder)
    (ready : Bytes) :
    Sat (recvInto offset (ready.take (limit - offset))) decoder
      (fun _ filled => filled.targetWindow = decoder.targetWindow ∧
        Sat (IncrementalDecoder.commit (ready.take (limit - offset)).length) filled
          (fun _ after => IncrementalDecoder.Extended before (ready.take (limit - offset)) after)
          (fun _ _ => False))
      (fun _ _ => False) := by
  have behind : offset = decoder.stop := offered.behind
  have nonempty : offset < limit := offered.nonempty
  have inside : limit ≤ decoder.capacity := offered.inside
  have promised : decoder.offered = limit - offset := offered.offered
  have kept := offered.moved.sound
  have fits : (ready.take (limit - offset)).length ≤ limit - offset := by
    simp only [List.length_take]
    omega
  generalize ready.take (limit - offset) = data at fits
  subst behind
  have room : decoder.stop + data.length ≤ decoder.buffer.length := by
    rw [kept.sized]
    omega
  simp only [recvInto, sat_bind, sat_get, assignSlice_ok room, sat_fromExcept_ok, sat_modify]
  have filled : IncrementalDecoder.Sound
      { decoder with
        buffer := decoder.buffer.take decoder.stop ++ data ++
          decoder.buffer.drop (decoder.stop + data.length) } :=
    ⟨kept.ordered, kept.within, (length_overwritten room).trans kept.sized, kept.wide⟩
  refine ⟨trivial, (IncrementalDecoder.commit_sat filled ?_ ?_).mono ?_ (fun _ _ raised => raised)⟩
  · exact Nat.le_trans fits (Nat.le_of_eq promised.symm)
  · exact kept.sized ▸ room
  · rintro _ final ⟨sound, pending, sameLimit, _⟩
    refine ⟨sound, ?_, sameLimit.trans offered.moved.limit⟩
    rw [pending, ← offered.moved.pending]
    exact slice_overwritten kept.ordered (kept.sized ▸ kept.within)

/-- What one read of the loop changes. -/
structure Arrival (before : PushStreamTransport) (arrived : Bytes) (after : PushStreamTransport) :
    Prop where
  extended : IncrementalDecoder.Extended before.decoder arrived after.decoder
  seen : after.seen = before.seen
  attached : after.protocol.attached = before.protocol.attached
  eof : after.protocol.eof = before.protocol.eof
  exception : after.protocol.exception = before.protocol.exception
  closing : after.protocol.closing = before.protocol.closing
  /-- A read that brought nothing is not noticed. -/
  nothing : arrived = [] → after.protocol = before.protocol
  received : arrived ≠ [] → after.protocol.received = before.protocol.received + 1
  woken : arrived ≠ [] → after.protocol.waiter = before.protocol.waiter.map fun _ => true
  pressed : arrived ≠ [] → after.protocol.pausedReading = false →
    after.decoder.buffered ≤ highWater ∨ nextAnswer after.decoder = none
  windowed : Windowed before.decoder → Windowed after.decoder ∧ arrived.length ≤ receiveQuantum

theorem pauseIfFull_sat {transport : PushStreamTransport} (sound : transport.decoder.Sound) :
    Sat pauseIfFull transport
      (fun _ after => Kept transport after ∧ after.seen = transport.seen ∧
        after.protocol.waiter = transport.protocol.waiter ∧
        (after.protocol.pausedReading = false →
          after.decoder.buffered ≤ highWater ∨ nextAnswer after.decoder = none))
      (fun _ _ => False) := by
  simp only [pauseIfFull, modifyProtocol, sat_bind, sat_get, sat_onlyIf]
  refine ⟨fun full => ?_, fun room => ⟨.refl _, trivial, trivial, fun running => Or.inl ?_⟩⟩
  · refine (headFrameReady_sat sound).mono ?_ (fun _ _ raised => raised)
    rintro _ _ ⟨rfl, rfl⟩
    simp only [sat_modify]
    refine ⟨fun _ => ⟨⟨rfl, rfl, rfl, rfl, rfl, rfl⟩, trivial, trivial, ?_⟩,
      fun unready => ⟨.refl _, trivial, trivial, fun _ => Or.inr ?_⟩⟩
    · intro running
      cases running
    · simpa using unready
  · by_contra above
    exact room ⟨by simp [running], Nat.lt_of_not_le above⟩

theorem bufferUpdated_sat {before transport : PushStreamTransport} {arrived : Bytes}
    (same : transport.protocol = before.protocol) (seen : transport.seen = before.seen)
    (attached : before.protocol.attached = true)
    (windowed : Windowed before.decoder →
      Windowed transport.decoder ∧ arrived.length ≤ receiveQuantum)
    (committed : Sat (IncrementalDecoder.commit arrived.length) transport.decoder
      (fun _ after => IncrementalDecoder.Extended before.decoder arrived after)
      (fun _ _ => False)) :
    Sat (bufferUpdated arrived.length) transport (fun _ after => Arrival before arrived after)
      (fun _ _ => False) := by
  simp only [bufferUpdated, sat_bind, sat_get, sat_onlyIf]
  refine ⟨fun some => ?_, fun none => ?_⟩
  · have nonempty : arrived ≠ [] := by
      rintro rfl
      simp at some
    rw [sat_focus]
    have widened : Sat (IncrementalDecoder.commit arrived.length) transport.decoder
        (fun _ after => IncrementalDecoder.Extended before.decoder arrived after ∧
          (Windowed before.decoder → Windowed after))
        (fun _ _ => False) := by
      by_cases given : Windowed before.decoder
      · refine (committed.and (commit_windowed (windowed given).1 _)).mono ?_
          (fun _ _ raised => raised.1)
        exact fun _ _ both => ⟨both.1, fun _ => both.2⟩
      · exact committed.mono (fun _ _ extended => ⟨extended, fun contrary => absurd contrary given⟩)
          fun _ _ raised => raised
    refine widened.mono ?_ (fun _ _ raised => raised)
    rintro _ decoder ⟨extended, wide⟩
    simp only [modifyProtocol, sat_modify]
    refine (pauseIfFull_sat extended.sound).mono ?_ (fun _ _ raised => raised)
    rintro _ after ⟨kept, sameSeen, waiter, pressed⟩
    have decoderKept : after.decoder = decoder := kept.decoder
    refine ⟨decoderKept ▸ extended, sameSeen.trans seen, ?_, ?_, ?_, ?_,
      fun contrary => absurd contrary nonempty, fun _ => ?_, fun _ => ?_, fun _ => pressed,
      fun given => ⟨decoderKept ▸ wide given, (windowed given).2⟩⟩
    · change after.protocol.attached = _
      rw [kept.attached, ← same]
      rfl
    · change after.protocol.eof = _
      rw [kept.eof, ← same]
      rfl
    · change after.protocol.exception = _
      rw [kept.exception, ← same]
      rfl
    · change after.protocol.closing = _
      rw [kept.closing, ← same]
      rfl
    · change after.protocol.received = _
      rw [kept.received, ← same]
      rfl
    · change after.protocol.waiter.map (fun _ => true) = _
      rw [waiter, ← same]
      rfl
  · have empty : arrived = [] := by
      rw [same] at none
      have zero : ¬ 0 < (arrived.length : Int) := fun some => none ⟨some, attached⟩
      exact List.length_eq_zero_iff.mp (by omega)
    subst empty
    have unchanged : IncrementalDecoder.Extended before.decoder [] transport.decoder := by
      simpa [IncrementalDecoder.commit] using committed
    exact ⟨unchanged, seen, congrArg _ same, congrArg _ same, congrArg _ same, congrArg _ same,
      fun _ => same, fun contrary => absurd rfl contrary, fun contrary => absurd rfl contrary,
      fun contrary => absurd rfl contrary, windowed⟩

theorem readReady_sat {transport : PushStreamTransport} (sound : transport.decoder.Sound)
    (ready : Bytes) :
    Sat (readReady ready) transport (fun arrived after => Arrival transport arrived after)
      (fun _ _ => False) := by
  simp only [readReady, getBuffer, sat_bind, sat_get]
  cases attached : transport.protocol.attached with
  | true =>
    rw [if_pos rfl, sat_focus]
    have small : (minWindow : Int) ≤ receiveQuantum := by decide
    generalize (minWindow : Int) = preferred at small
    refine ((IncrementalDecoder.writableWindow_sat sound preferred).and
      (writableWindow_width sound preferred)).mono ?_ (fun _ _ raised => raised.1)
    rintro ⟨offset, limit⟩ decoder ⟨offered, width, target⟩
    simp only [sat_onlyIf, sat_focus]
    refine ⟨fun _ => ?_, fun contrary => absurd trivial contrary⟩
    refine (recvInto_sat offered ready).mono ?_ (fun _ _ raised => raised)
    rintro _ filled ⟨sameTarget, committed⟩
    have windowed : Windowed transport.decoder →
        Windowed filled ∧ (ready.take (limit - offset)).length ≤ receiveQuantum := by
      intro given
      refine ⟨?_, Nat.le_trans (List.length_take_le _ _) (Nat.le_trans width (given.requested small))⟩
      unfold Windowed at *
      rw [sameTarget, target]
      exact given
    have updated := @bufferUpdated_sat transport (sink.replace filled (sink.replace decoder transport))
      _ rfl rfl attached windowed committed
    refine updated.mono ?_ (fun _ _ raised => raised)
    intro _ after arrival
    simpa using arrival
  | false =>
    rw [if_neg (by decide), sat_pure]
    simp only [bufferUpdated, sat_bind, sat_get, sat_onlyIf, attached, sat_pure]
    have unchanged : IncrementalDecoder.Extended transport.decoder [] transport.decoder :=
      ⟨sound, (List.append_nil _).symm, rfl⟩
    simpa using Arrival.mk unchanged rfl rfl rfl rfl rfl (fun _ => rfl)
      (fun contrary => absurd rfl contrary) (fun contrary => absurd rfl contrary)
      (fun contrary => absurd rfl contrary) fun given => ⟨given, Nat.zero_le _⟩

/-- A read of an attached decoder brings a part of what is there, and some of it. -/
theorem readReady_brings {transport : PushStreamTransport} (sound : transport.decoder.Sound)
    (attached : transport.protocol.attached = true) (ready : Bytes) :
    Sat (readReady ready) transport
      (fun arrived _ => ∃ room, 0 < room ∧ arrived = ready.take room) (fun _ _ => True) := by
  simp only [readReady, getBuffer, sat_bind, sat_get, attached, if_true]
  rw [sat_focus]
  generalize (minWindow : Int) = preferred
  refine (IncrementalDecoder.writableWindow_sat sound preferred).mono ?_ (fun _ _ _ => trivial)
  rintro ⟨offset, limit⟩ decoder offered
  have nonempty : offset < limit := offered.nonempty
  refine Sat.of_forall (fun _ _ => ?_) fun _ _ => trivial
  refine Sat.of_forall (fun _ _ => ?_) fun _ _ => trivial
  exact ⟨limit - offset, by omega, rfl⟩
end PushStreamTransport

end Mqttium.Transport
