import Mqttium.Ingress.Reading

/-! Runs of the read loop: the frames of the stream reach the engine in order, and none is
stranded behind a sleeping reader. -/

namespace Mqttium.Ingress

open Library Codec Packets Protocol Transport

variable {limit : Nat} {reader : Reader}

/-- What a read brings lies behind the unread bytes. -/
theorem Held.arrived (held : Held limit reader) {arrived : Bytes}
    {transport : PushStreamTransport}
    (arrival : PushStreamTransport.Arrival reader.transport arrived transport) :
    Held limit { reader with transport, arrived := reader.arrived ++ arrived } := by
  have extended := arrival.extended
  refine ⟨⟨extended.sound, extended.limit.trans held.limited, ?_, ?_⟩, ?_⟩
  · change (framing limit).Reads (reader.arrived ++ arrived) reader.handled
      transport.decoder.pending
    rw [extended.pending]
    exact held.reads.append arrived
  · intro silenced
    obtain ⟨error, refused⟩ := held.silenced silenced
    change ∃ error, frame limit transport.decoder.pending = .refused error
    rw [extended.pending]
    exact ⟨error, (framing limit).refused_append arrived refused⟩
  · change transport.seen ≤ transport.protocol.received
    rw [arrival.seen]
    by_cases nothing : arrived = []
    · rw [arrival.nothing nothing]
      exact held.behind
    · rw [arrival.received nothing]
      exact Nat.le_succ_of_le held.behind

/-- News are either nothing, or more than the reader has seen. -/
theorem Reader.CaughtUp.arrived (held : Held limit reader) (caughtUp : reader.CaughtUp limit)
    {arrived : Bytes} {transport : PushStreamTransport}
    (arrival : PushStreamTransport.Arrival reader.transport arrived transport) :
    Reader.CaughtUp limit { reader with transport, arrived := reader.arrived ++ arrived } := by
  intro quiet
  change transport.protocol.received = transport.seen at quiet
  rw [arrival.seen] at quiet
  by_cases nothing : arrived = []
  · rw [arrival.nothing nothing] at quiet
    change frame limit transport.decoder.pending = .waiting ∨ reader.silenced = true
    rw [arrival.extended.pending, nothing, List.append_nil]
    exact caughtUp quiet
  · rw [arrival.received nothing] at quiet
    have behind := held.behind
    omega

theorem Parked.arrived {before after : PushStreamTransport} {arrived : Bytes}
    (parked : Parked before) (sound : before.decoder.Sound) (behind : before.seen ≤ before.protocol.received)
    (arrival : PushStreamTransport.Arrival before arrived after) : Parked after := by
  by_cases nothing : arrived = []
  · have same := arrival.nothing nothing
    have answer : nextAnswer after.decoder = nextAnswer before.decoder := by
      rw [Codec.Session.nextAnswer_eq arrival.extended.sound, Codec.Session.nextAnswer_eq sound, arrival.extended.limit,
        arrival.extended.pending, nothing, List.append_nil]
    refine ⟨?_, ?_, ?_⟩
    · rw [same]
      exact parked.waiter
    · intro sleeping
      rw [same] at sleeping
      obtain ⟨quiet, eof, fine, flows⟩ := parked.asleep sleeping
      refine ⟨?_, ?_, ?_, ?_⟩
      · rw [same, arrival.seen, quiet]
      · rw [same, eof]
      · rw [same, fine]
      · intro attached alive paused
        rw [same] at attached alive paused
        rw [answer]
        exact flows attached alive paused
    · intro woken quiet
      rw [same] at woken quiet ⊢
      rw [arrival.seen] at quiet
      exact parked.woken woken quiet
  · obtain ⟨done, waiter⟩ := parked.waiter
    have woken : after.protocol.waiter = some true := by
      rw [arrival.woken nothing, waiter]
      rfl
    refine ⟨⟨true, woken⟩, fun sleeping => ?_, fun _ quiet => ?_⟩
    · rw [woken] at sleeping
      cases sleeping
    · rw [arrival.received nothing, arrival.seen] at quiet
      omega

theorem Sound.arrived (sound : Sound limit reader) {arrived : Bytes}
    {transport : PushStreamTransport}
    (arrival : PushStreamTransport.Arrival reader.transport arrived transport) :
    Sound limit { reader with transport, arrived := reader.arrived ++ arrived } where
  toHeld := sound.toHeld.arrived arrival
  staged := by
    have staged := sound.staged
    have idle : reader.transport.protocol.waiter = none → transport.protocol.waiter = none := by
      intro idle
      by_cases nothing : arrived = []
      · rw [arrival.nothing nothing, idle]
      · rw [arrival.woken nothing, idle]
        rfl
    change Staged limit _ reader.stage
    cases stage : reader.stage with
    | created =>
      rw [stage] at staged
      exact ⟨idle staged.1, staged.2.arrived sound.toHeld arrival⟩
    | waiting =>
      rw [stage] at staged
      exact ⟨staged.1.arrived sound.decoder sound.behind arrival,
        staged.2.arrived sound.toHeld arrival⟩
    | handing lot =>
      rw [stage] at staged
      exact ⟨idle staged.1, fun fine short => (staged.2 fine short).arrived sound.toHeld arrival⟩
    | yielded =>
      rw [stage] at staged
      exact idle staged
    | ended why =>
      rw [stage] at staged
      exact fun last => (staged last).arrived sound.toHeld arrival

/-- The event loop tells of the end of the stream, of its loss, or of nothing, and what
it tells wakes the reader. -/
structure Notice (before after : DecoderPushProtocol) : Prop where
  received : after.received = before.received
  idle : before.waiter = none → after.waiter = none
  stands : ∀ done, before.waiter = some done → ∃ woken, after.waiter = some woken
  asleep : after.waiter = some false → before.waiter = some false ∧ after.eof = before.eof ∧
    after.exception = before.exception
  woken : after.waiter = some true → before.waiter = some true ∧ after.eof = before.eof ∨
    after.eof = true
  flows : after.attached = true → after.closing = false → after.pausedReading = true →
    before.attached = true ∧ before.closing = false ∧ before.pausedReading = true

theorem Sound.noticed (sound : Sound limit reader) {protocol : DecoderPushProtocol}
    (notice : Notice reader.transport.protocol protocol) :
    Sound limit { reader with transport := { reader.transport with protocol } } where
  toHeld := by
    refine ⟨⟨sound.decoder, sound.limited, sound.reads, sound.silenced⟩, ?_⟩
    change reader.transport.seen ≤ protocol.received
    rw [notice.received]
    exact sound.behind
  staged := by
    have staged := sound.staged
    have caughtUp : reader.CaughtUp limit →
        Reader.CaughtUp limit { reader with transport := { reader.transport with protocol } } := by
      intro caughtUp quiet
      exact caughtUp (notice.received.symm.trans quiet)
    change Staged limit _ reader.stage
    cases stage : reader.stage with
    | created =>
      rw [stage] at staged
      exact ⟨notice.idle staged.1, caughtUp staged.2⟩
    | waiting =>
      rw [stage] at staged
      refine ⟨⟨?_, ?_, ?_⟩, caughtUp staged.2⟩
      · obtain ⟨done, waiter⟩ := staged.1.waiter
        exact notice.stands done waiter
      · intro sleeping
        obtain ⟨slept, eof, exception⟩ := notice.asleep sleeping
        obtain ⟨quiet, alive, fine, flows⟩ := staged.1.asleep slept
        refine ⟨notice.received.trans quiet, eof.trans alive, exception.trans fine, ?_⟩
        intro attached open' paused
        obtain ⟨attached', open'', paused'⟩ := notice.flows attached open' paused
        exact flows attached' open'' paused'
      · intro woken quiet
        rcases notice.woken woken with ⟨before, eof⟩ | eof
        · exact eof.trans (staged.1.woken before (notice.received.symm.trans quiet))
        · exact eof
    | handing lot =>
      rw [stage] at staged
      exact ⟨notice.idle staged.1, fun fine short => caughtUp (staged.2 fine short)⟩
    | yielded =>
      rw [stage] at staged
      exact notice.idle staged
    | ended why =>
      rw [stage] at staged
      exact fun last => caughtUp (staged last)

theorem settle_sound {program : ReaderM PUnit} {work : Nat}
    (sat : Sat program reader (fun _ after => Turned limit work after)
      (fun _ after => Held limit after)) : Turned limit work (Reader.settle program reader) := by
  unfold Sat at sat
  unfold Reader.settle
  cases ended : program reader with
  | ok _ after =>
    rw [ended] at sat
    exact sat
  | error failure after =>
    rw [ended] at sat
    exact .ended (sat.ended (by simp)) rfl

theorem Turned.sound {work : Nat} {after : Reader} (turned : Turned limit work after) :
    Sound limit after := by
  cases turned with
  | ended sound over' => exact sound
  | asleep sound stage waiter => exact sound
  | advanced sound less => exact sound

/-- A reader that sleeps, or has ended, is left alone. -/
theorem turn_idle (fault : Option Failure) (asleep : reader.stage = .waiting)
    (waiter : reader.transport.protocol.waiter ≠ some true) : reader.step (.turn fault) = reader := by
  change Reader.settle (turn fault) reader = reader
  simp only [Reader.settle, turn, bind, EStateM.bind, get_eq_ok, asleep, onlyIf, if_neg waiter]
  rfl

theorem Sound.step (sound : Sound limit reader) (event : Event) :
    Sound limit (reader.step event) := by
  cases event with
  | readReady ready =>
    have sat := PushStreamTransport.readReady_sat sound.decoder ready
    unfold Sat at sat
    simp only [Reader.step]
    cases ended : PushStreamTransport.readReady ready reader.transport with
    | ok arrived transport =>
      rw [ended] at sat
      exact sound.arrived sat
    | error failure transport =>
      rw [ended] at sat
      exact sat.elim
  | eofReceived =>
    refine sound.noticed ⟨rfl, ?_, ?_, ?_, fun _ => Or.inr rfl, fun attached alive paused =>
      ⟨attached, alive, paused⟩⟩
    · intro idle
      simp [DecoderPushProtocol.eofReceived, DecoderPushProtocol.wake, idle]
    · intro done waiter
      exact ⟨true, by simp [DecoderPushProtocol.eofReceived, DecoderPushProtocol.wake, waiter]⟩
    · simp [DecoderPushProtocol.eofReceived, DecoderPushProtocol.wake]
  | connectionLost cause =>
    refine sound.noticed ⟨rfl, ?_, ?_, ?_, fun _ => Or.inr rfl, fun attached alive paused =>
      ⟨attached, alive, paused⟩⟩
    · intro idle
      simp [DecoderPushProtocol.connectionLost, DecoderPushProtocol.wake, idle]
    · intro done waiter
      exact ⟨true, by simp [DecoderPushProtocol.connectionLost, DecoderPushProtocol.wake, waiter]⟩
    · simp [DecoderPushProtocol.connectionLost, DecoderPushProtocol.wake]
  | closes =>
    exact sound.noticed ⟨rfl, fun idle => idle, fun done waiter => ⟨done, waiter⟩,
      fun sleeping => ⟨sleeping, rfl, rfl⟩, fun woken => Or.inl ⟨woken, rfl⟩,
      fun _ alive _ => absurd alive (by simp)⟩
  | close =>
    exact sound.noticed ⟨rfl, fun idle => idle, fun done waiter => ⟨done, waiter⟩,
      fun sleeping => ⟨sleeping, rfl, rfl⟩, fun woken => Or.inl ⟨woken, rfl⟩,
      fun attached _ _ => absurd attached (by simp [DecoderPushProtocol.detach])⟩
  | call command =>
    refine ⟨sound.toHeld.of_engine _, ?_⟩
    have staged := sound.staged
    change Staged limit _ reader.stage
    cases stage : reader.stage with
    | _ =>
      rw [stage] at staged
      exact staged
  | turn fault =>
    by_cases awake : reader.stage = .waiting → reader.transport.protocol.waiter = some true
    · exact (settle_sound (turn_sat _ sound awake)).sound
    · obtain ⟨asleep, waiter⟩ := Classical.not_imp.mp awake
      rw [turn_idle fault asleep waiter]
      exact sound
  | drainRaises failure =>
    simp only [Reader.step]
    split
    · exact sound.toHeld.ended (by simp)
    · exact sound
  | cancel =>
    simp only [Reader.step]
    split
    · exact sound
    · exact ⟨⟨⟨sound.decoder, sound.limited, sound.reads, sound.silenced⟩, sound.behind⟩, by simp [Staged]⟩

theorem Sound.run (sound : Sound limit reader) (events : List Event) :
    Sound limit (reader.run events) := by
  induction events using List.reverseRecOn with
  | nil => exact sound
  | append_singleton events event ih =>
    rw [Reader.run_concat]
    exact ih.step event

/-- The connection that `_connect_once_locked` sets up on a decoder that was in use before. -/
def Reader.connected (used : List DecoderCall) (maxPacketSize : Nat) (engine : Engine) : Reader :=
  Reader.attached
    ((used.foldl IncrementalDecoder.perform { maxPacketSize }).perform .clear) engine

theorem cleared_sound (used : List DecoderCall) (maxPacketSize : Nat) :
    let decoder := (used.foldl IncrementalDecoder.perform { maxPacketSize }).perform .clear
    decoder.Sound ∧ decoder.pending = [] := by
  have start : ({ maxPacketSize } : IncrementalDecoder).Sound :=
    ⟨Nat.le_refl 0, Nat.le_refl 0, rfl, Nat.succ_pos _⟩
  have sound : (used.foldl IncrementalDecoder.perform { maxPacketSize }).Sound := by
    generalize ({ maxPacketSize } : IncrementalDecoder) = decoder at start
    induction used generalizing decoder with
    | nil => exact start
    | cons call rest ih => exact ih _ (start.performed call)
  have cleared := IncrementalDecoder.clear_sat sound
  exact ⟨left_of_sat cleared (fun _ _ after => after.1) fun _ _ raised => raised.elim,
    left_of_sat cleared (fun _ _ after => after.2.1) fun _ _ raised => raised.elim⟩

/-- Attaching a decoder does not touch it. -/
theorem attached_kept {decoder : IncrementalDecoder} (sound : decoder.Sound) (engine : Engine) :
    let transport := (Reader.attached decoder engine).transport
    PushStreamTransport.Kept { decoder, protocol := { attached := true } } transport ∧
      transport.seen = 0 ∧ transport.protocol.waiter = none := by
  have sat := @PushStreamTransport.resumeIfDrained_sat
    { decoder, protocol := { attached := true } } sound
  unfold Sat at sat
  unfold Reader.attached PushStreamTransport.attachDecoder PushStreamTransport.modifyProtocol
  simp only [bind, EStateM.bind, modify_eq_ok]
  cases ended : PushStreamTransport.resumeIfDrained
      { decoder, protocol := { attached := true } } with
  | error failure transport =>
    rw [ended] at sat
    exact sat.elim
  | ok _ transport =>
    rw [ended] at sat
    obtain ⟨kept, seen, waiter, _⟩ := sat
    exact ⟨kept, seen, waiter⟩

theorem attached_sound {decoder : IncrementalDecoder} (sound : decoder.Sound)
    (empty : decoder.pending = []) (engine : Engine) :
    Sound decoder.maxPacketSize (Reader.attached decoder engine) := by
  obtain ⟨kept, seen, waiter⟩ := attached_kept sound engine
  have nothing : (Reader.attached decoder engine).transport.decoder.pending = [] :=
    (congrArg IncrementalDecoder.pending kept.decoder).trans empty
  refine ⟨⟨⟨?_, ?_, ?_, ?_⟩, ?_⟩, waiter, fun _ => Or.inl ?_⟩
  · exact kept.decoder ▸ sound
  · exact congrArg IncrementalDecoder.maxPacketSize kept.decoder
  · change (framing decoder.maxPacketSize).Reads [] [] _
    unfold Reader.unread
    rw [nothing]
    exact .nothing []
  · intro silenced
    cases silenced
  · exact Nat.le_trans (Nat.le_of_eq seen) (Nat.zero_le _)
  · unfold Reader.unread
    rw [nothing]
    rfl

theorem connected_sound (used : List DecoderCall) (maxPacketSize : Nat) (engine : Engine) :
    ∃ limit, Sound limit (Reader.connected used maxPacketSize engine) := by
  obtain ⟨sound, empty⟩ := cleared_sound used maxPacketSize
  exact ⟨_, attached_sound sound empty engine⟩

/-- The reader could make a packet, or is to be told of an error, only on bytes it was
told of on an ended connection. -/
theorem Sound.stalled (sound : Sound limit reader) (stalled : reader.Stalled limit) :
    nextAnswer reader.transport.decoder = none ∨ reader.silenced = true := by
  rcases stalled with waiting | silenced
  · left
    change frame limit reader.transport.decoder.pending = .waiting at waiting
    rw [Codec.Session.nextAnswer_eq sound.decoder, sound.limited, waiting]
    rfl
  · exact Or.inr silenced

theorem Sound.no_packet (sound : Sound limit reader) (stalled : reader.Stalled limit) :
    ∀ packet, nextAnswer reader.transport.decoder ≠ some (.ok packet) := by
  intro packet answer
  rw [Codec.Session.nextAnswer_eq sound.decoder, sound.limited] at answer
  rcases stalled with waiting | silenced
  · change frame limit reader.transport.decoder.pending = .waiting at waiting
    simp [waiting, Verdict.answer] at answer
  · obtain ⟨error, refused⟩ := sound.silenced silenced
    change frame limit reader.transport.decoder.pending = .refused error at refused
    simp [refused, Verdict.answer, Except.mapError] at answer

/-- However the bytes arrive, whatever the engine makes of the packets and whatever other
tasks do meanwhile, the packets given to `handle_raw` are the frames of the stream, in
order and each once; what is left is in the decoder, and when the stream has ended there
is no packet in it. -/
theorem packets_in_order (used : List DecoderCall) (maxPacketSize : Nat) (engine : Engine)
    (events : List Event) :
    let reader := (Reader.connected used maxPacketSize engine).run events
    (∃ frames, List.Forall₂ (fun packet encoded =>
        encodeFrame packet.packetType packet.flags packet.remaining = .ok encoded)
        reader.handled frames ∧
      reader.arrived = frames.flatten ++ slice reader.transport.decoder.buffer
        reader.transport.decoder.start reader.transport.decoder.stop) ∧
    (reader.stage = .ended .endOfStream →
      reader.transport.protocol.received = reader.transport.seen →
      ∀ packet, nextAnswer reader.transport.decoder ≠ some (.ok packet)) := by
  obtain ⟨limit, start⟩ := connected_sound used maxPacketSize engine
  have sound := start.run events
  refine ⟨reads_encoded sound.reads, fun ended quiet => ?_⟩
  have staged := sound.staged
  rw [ended] at staged
  exact sound.no_packet (staged rfl quiet)

/-- While the reader is parked in `wait_for_data`, either its waiter is done, or there is
nothing it was not told of, the decoder has no packet and no error for it, and reading is
not paused, unless the transport is closing or detached or the engine had ended the
connection before bytes that are no frame. -/
theorem sleeps_soundly (used : List DecoderCall) (maxPacketSize : Nat) (engine : Engine)
    (events : List Event) :
    let reader := (Reader.connected used maxPacketSize engine).run events
    reader.stage = .waiting →
      reader.transport.protocol.waiter = some true ∨
      (reader.transport.protocol.waiter = some false ∧
        reader.transport.protocol.received = reader.transport.seen ∧
        reader.transport.protocol.eof = false ∧ reader.transport.protocol.exception = none ∧
        (∀ packet, nextAnswer reader.transport.decoder ≠ some (.ok packet)) ∧
        (reader.silenced = false → nextAnswer reader.transport.decoder = none ∧
          (reader.transport.protocol.attached = true →
            reader.transport.protocol.closing = false →
            reader.transport.protocol.pausedReading = false))) := by
  intro reader parked
  obtain ⟨limit, start⟩ := connected_sound used maxPacketSize engine
  have sound : Sound limit reader := start.run events
  have staged := sound.staged
  rw [parked] at staged
  obtain ⟨⟨⟨done, waiter⟩, asleep, _⟩, caughtUp⟩ := staged
  cases done with
  | true => exact Or.inl waiter
  | false =>
    obtain ⟨quiet, eof, fine, flows⟩ := asleep waiter
    refine Or.inr ⟨waiter, quiet, eof, fine, sound.no_packet (caughtUp quiet), fun live => ?_⟩
    have unanswered : nextAnswer reader.transport.decoder = none := by
      rcases sound.stalled (caughtUp quiet) with none | silenced
      · exact none
      · rw [live] at silenced
        cases silenced
    refine ⟨unanswered, fun attached alive => ?_⟩
    cases paused : reader.transport.protocol.pausedReading with
    | false => rfl
    | true =>
      have answered := flows attached alive paused
      rw [unanswered] at answered
      cases answered

/-! A reader that was told of part of a frame -/

theorem processIngressBatch_part {lot : Lot} (fuel : Nat) (faithful : Faithful limit reader)
    (part : frame limit reader.unread = .waiting) :
    Sat (processIngressBatch (fuel + 1) lot) reader (fun result after => result = lot ∧ after = reader)
      (fun _ _ => False) := by
  simp only [processIngressBatch, sat_bind]
  refine faithful.asked.mono ?_ (fun _ _ raised => raised.elim)
  intro answer after asked
  cases asked with
  | waiting stalled => exact ⟨rfl, rfl⟩
  | refused decoding verdict =>
    rw [part] at verdict
    cases verdict
  | packet whole kept engine next shorter => exact absurd part whole

/-- A reader that has part of a frame finds no packet to hand on. -/
theorem readLot_part (held : Held limit reader) (part : frame limit reader.unread = .waiting) :
    Sat (readLot none) reader (fun _ after => after = { reader with stage := .handing {} })
      (fun _ _ => False) := by
  simp only [readLot, readBatch, sat_bind, sat_get, sat_attempt]
  change Sat (processIngressBatch (255 + 1) {}) reader _ _
  refine (processIngressBatch_part 255 held.toFaithful part).mono ?_ (fun _ _ raised => raised.elim)
  rintro _ _ ⟨rfl, rfl⟩
  simp only [sat_pure, sat_onlyIf]
  exact ⟨fun some => absurd rfl some.1, fun _ => rfl⟩

/-- The reader is in its loop and was not told of an end. -/
structure InLoop (limit : Nat) (reader : Reader) : Prop extends Held limit reader where
  idle : reader.transport.protocol.waiter = none
  attached : reader.transport.protocol.attached = true
  alive : reader.transport.protocol.closing = false
  more : reader.transport.protocol.eof = false
  fine : reader.transport.protocol.exception = none
  part : frame limit reader.unread = .waiting

theorem InLoop.heard (waits : InLoop limit reader) : reader.silenced = false := by
  cases silenced : reader.silenced with
  | false => rfl
  | true =>
    obtain ⟨error, refused⟩ := waits.silenced silenced
    rw [waits.part] at refused
    cases refused

/-- News that are part of a frame bring the reader back to its loop. -/
theorem InLoop.hears (waits : InLoop limit reader)
    (news : reader.transport.protocol.received ≠ reader.transport.seen) :
    Sat (loop none) reader
      (fun _ after => after.stage = .handing {} ∧ InLoop limit after ∧
        after.transport.protocol.received = after.transport.seen)
      (fun _ _ => False) := by
  simp only [loop, sat_bind, sat_get]
  rw [if_neg (by simp [waits.alive])]
  simp only [sat_bind, sat_focus]
  refine (PushStreamTransport.received_sat waits.decoder waits.idle).mono ?_
    (fun _ _ raised => raised.elim)
  intro reception transport received
  cases received with
  | bytes kept unseen seen idle =>
    have pending : transport.decoder.pending = reader.unread := congrArg _ kept.decoder
    have held : Held limit { reader with transport } := by
      refine ⟨⟨kept.decoder ▸ waits.decoder, kept.decoder ▸ waits.limited, ?_, ?_⟩, ?_⟩
      · change (framing limit).Reads reader.arrived reader.handled transport.decoder.pending
        rw [pending]
        exact waits.reads
      · exact fun silenced => absurd silenced (by simp [waits.heard])
      · exact Nat.le_of_eq (seen.trans kept.received.symm)
    have part : frame limit transport.decoder.pending = .waiting := pending ▸ waits.part
    refine (readLot_part held part).mono ?_ (fun _ _ raised => raised)
    rintro _ _ rfl
    exact ⟨rfl, ⟨held.at_stage _, idle, kept.attached.trans waits.attached,
      kept.closing.trans waits.alive, kept.eof.trans waits.more,
      kept.exception.trans waits.fine, part⟩, kept.received.trans seen.symm⟩
  | endOfStream kept seen quiet eof idle => exact absurd quiet news
  | lost kept seen failed idle =>
    rw [waits.fine] at failed
    cases failed
  | waiting kept seen quiet eof fine parked flows => exact absurd quiet news

/-- The reader sleeps on an open transport. -/
structure Asleep (reader : Reader) : Prop where
  stage : reader.stage = .waiting
  waiter : reader.transport.protocol.waiter = some false
  attached : reader.transport.protocol.attached = true
  alive : reader.transport.protocol.closing = false
  heard : reader.silenced = false

/-- Without news the reader sleeps. -/
theorem InLoop.sleeps (waits : InLoop limit reader)
    (quiet : reader.transport.protocol.received = reader.transport.seen) :
    Sat (loop none) reader
      (fun _ after => Asleep after ∧ after.unread = reader.unread ∧ after.engine = reader.engine)
      (fun _ _ => False) := by
  simp only [loop, sat_bind, sat_get]
  rw [if_neg (by simp [waits.alive])]
  simp only [sat_bind, sat_focus]
  refine (PushStreamTransport.received_sat waits.decoder waits.idle).mono ?_
    (fun _ _ raised => raised.elim)
  intro reception transport received
  cases received with
  | bytes kept unseen seen idle => exact absurd quiet unseen
  | endOfStream kept seen same eof idle =>
    rw [waits.more] at eof
    cases eof
  | lost kept seen failed idle =>
    rw [waits.fine] at failed
    cases failed
  | waiting kept seen same eof fine parked flows =>
    exact ⟨⟨rfl, parked, kept.attached.trans waits.attached, kept.closing.trans waits.alive,
      waits.heard⟩, congrArg IncrementalDecoder.pending kept.decoder, rfl⟩

theorem settle_of_sat {program : ReaderM PUnit} {good : Reader → Prop}
    (sat : Sat program reader (fun _ after => good after) (fun _ _ => False)) :
    good (Reader.settle program reader) := by
  unfold Sat at sat
  unfold Reader.settle
  cases ended : program reader with
  | ok _ after =>
    rw [ended] at sat
    exact sat
  | error failure after =>
    rw [ended] at sat
    exact sat.elim

/-- Told of part of a frame, the reader looks at it and sleeps. -/
theorem InLoop.parks (waits : InLoop limit reader) (created : reader.stage = .created)
    (news : reader.transport.protocol.received ≠ reader.transport.seen) :
    Asleep (reader.run [.turn none, .turn none]) := by
  have hears : Sat (turn none) reader (fun _ after => after.stage = .handing {} ∧
      InLoop limit after ∧ after.transport.protocol.received = after.transport.seen)
      (fun _ _ => False) := by
    simp only [turn, sat_bind, sat_get, created]
    exact waits.hears news
  obtain ⟨handing, still, quiet⟩ := settle_of_sat hears
  have sleeps : Sat (turn none) (reader.step (.turn none)) (fun _ after => Asleep after)
      (fun _ _ => False) := by
    have stage : (reader.step (.turn none)).stage = .handing {} := handing
    simp only [turn, sat_bind, sat_get, stage, handedOver]
    rw [if_pos (by decide)]
    exact (still.sleeps quiet).mono (fun _ _ asleep => asleep.1) fun _ _ raised => raised
  exact settle_of_sat sleeps

/-- The first byte of a frame reaches a connection that was just set up. -/
theorem InLoop.connected (used : List DecoderCall) (maxPacketSize : Nat) (engine : Engine)
    (octet : UInt8) :
    let reader := (Reader.connected used maxPacketSize engine).step (.readReady [octet])
    reader.stage = .created ∧ reader.transport.protocol.received ≠ reader.transport.seen ∧
      ∃ limit, InLoop limit reader := by
  obtain ⟨sound, empty⟩ := cleared_sound used maxPacketSize
  obtain ⟨kept, seen, waiter⟩ := attached_kept sound engine
  have start := attached_sound sound empty engine
  have stepped := start.step (.readReady [octet])
  have brings := (PushStreamTransport.readReady_sat start.decoder [octet]).and
    (PushStreamTransport.readReady_brings start.decoder kept.attached [octet])
  intro reader
  unfold Sat at brings
  cases read : PushStreamTransport.readReady [octet] (Reader.attached
      ((used.foldl IncrementalDecoder.perform { maxPacketSize }).perform .clear) engine).transport with
  | error failure transport =>
    rw [read] at brings
    exact brings.1.elim
  | ok arrived transport =>
    rw [read] at brings
    have same : reader = { Reader.attached
        ((used.foldl IncrementalDecoder.perform { maxPacketSize }).perform .clear) engine with
        transport, arrived } := by
      change Reader.step _ _ = _
      simp only [Reader.step, Reader.connected, read]
      rfl
    obtain ⟨arrival, room, positive, filled⟩ := brings
    have brought : arrived = [octet] := filled.trans (List.take_of_length_le positive)
    have some : arrived ≠ [] := by simp [brought]
    have pending : transport.decoder.pending = [octet] := by
      rw [arrival.extended.pending, kept.decoder, empty, brought]
      rfl
    have received : transport.protocol.received = 1 := by
      rw [arrival.received some, kept.received]
    refine ⟨by rw [same]; rfl, ?_, _, stepped.toHeld, ?_, ?_, ?_, ?_, ?_, ?_⟩
    · rw [same]
      change transport.protocol.received ≠ transport.seen
      rw [received, arrival.seen, seen]
      exact Nat.one_ne_zero
    · rw [same]
      change transport.protocol.waiter = none
      rw [arrival.woken some, waiter]
      rfl
    · rw [same]
      exact arrival.attached.trans kept.attached
    · rw [same]
      exact arrival.closing.trans kept.closing
    · rw [same]
      exact arrival.eof.trans kept.eof
    · rw [same]
      exact arrival.exception.trans kept.exception
    · rw [same]
      change frame _ transport.decoder.pending = .waiting
      rw [pending]
      rfl

theorem plainAccepted : EngineOptions.check {} = .ok () := by decide

/-- An engine with the default configuration. -/
def plainEngine : Engine := Engine.blank ⟨{}, plainAccepted⟩ { kind := .memory }

/-- The first byte of a frame came before the reader sleeps. -/
theorem sleeps_soundly_parked :
    let reader := (Reader.connected [] 1000 plainEngine).run [.readReady [48], .turn none, .turn none]
    nextAnswer reader.transport.decoder = none ∧ reader.transport.protocol.pausedReading = false := by
  obtain ⟨created, news, limit, waits⟩ := InLoop.connected [] 1000 plainEngine 48
  have asleep := waits.parks created news
  rw [← Reader.run_cons] at asleep
  have sound := sleeps_soundly [] 1000 plainEngine [.readReady [48], .turn none, .turn none]
  generalize (Reader.connected [] 1000 plainEngine).run [.readReady [48], .turn none, .turn none] =
    reader at asleep sound
  rcases sound asleep.stage with woken | ⟨_, _, _, _, _, live⟩
  · exact absurd (asleep.waiter.symm.trans woken) (by simp)
  · obtain ⟨none, flows⟩ := live asleep.heard
    exact ⟨none, flows asleep.attached asleep.alive⟩

/-- The reader alone, in finitely many turns and without another byte, hands on every
packet that has arrived, and then sleeps; or it ends. -/
theorem Sound.settles (sound : Sound limit reader) :
    ∃ turns, let after := reader.run (List.replicate turns (.turn none))
      Sound limit after ∧ (after.isEnded = true ∨
        (after.stage = .waiting ∧ after.transport.protocol.waiter = some false)) := by
  induction work : reader.measure using Nat.strong_induction_on generalizing reader with
  | _ work ih =>
    by_cases awake : reader.stage = .waiting → reader.transport.protocol.waiter = some true
    · have turned := settle_sound (turn_sat none sound awake)
      cases turned with
      | ended sound over' => exact ⟨1, sound, Or.inl over'⟩
      | asleep sound stage waiter => exact ⟨1, sound, Or.inr ⟨stage, waiter⟩⟩
      | advanced sound less =>
        obtain ⟨turns, rest⟩ := ih _ (work ▸ less) sound rfl
        exact ⟨turns + 1, rest⟩
    · obtain ⟨asleep, waiter⟩ := Classical.not_imp.mp awake
      have staged := sound.staged
      rw [asleep] at staged
      obtain ⟨done, parked⟩ := staged.1.waiter
      cases done with
      | true => exact absurd parked waiter
      | false => exact ⟨0, sound, Or.inr ⟨asleep, parked⟩⟩

/-- Whatever has happened, the reader's task has only to be run: after finitely many turns,
none of which needs another byte, it has ended, or it sleeps with no packet left in the
decoder. -/
theorem none_stranded (used : List DecoderCall) (maxPacketSize : Nat) (engine : Engine)
    (events : List Event) :
    ∃ turns,
      let reader := ((Reader.connected used maxPacketSize engine).run events).run
        (List.replicate turns (.turn none))
      reader.isEnded = true ∨
        (reader.stage = .waiting ∧ reader.transport.protocol.waiter = some false ∧
          ∀ packet, nextAnswer reader.transport.decoder ≠ some (.ok packet)) := by
  obtain ⟨limit, start⟩ := connected_sound used maxPacketSize engine
  obtain ⟨turns, sound, settled⟩ := (start.run events).settles
  refine ⟨turns, ?_⟩
  rcases settled with ended | ⟨stage, waiter⟩
  · exact Or.inl ended
  · refine Or.inr ⟨stage, waiter, sound.no_packet ?_⟩
    have staged := sound.staged
    rw [stage] at staged
    exact staged.2 (staged.1.asleep waiter).1

end Mqttium.Ingress
