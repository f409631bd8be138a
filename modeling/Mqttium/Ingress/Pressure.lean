import Mqttium.Ingress.Guarantees

/-! Backpressure: while the event loop reads only when reading is not paused, what the
decoder holds is bounded, whatever the peer sends and however slow the reader is. -/

namespace Mqttium.Ingress

open Library Codec Packets Protocol Transport

variable {limit : Nat}

/-- A frame that is still arriving is no longer than the limit, or its fixed header. -/
theorem waiting_short {bytes : Bytes} (waiting : frame limit bytes = .waiting) :
    bytes.length ≤ max 4 limit := by
  cases head limit bytes with
  | empty => exact Nat.zero_le _
  | unfinished known =>
    obtain ⟨short, _⟩ := remainingLength_unfinished known
    simp only [List.length_cons]
    omega
  | missing known allowed missing =>
    simp only [List.length_cons]
    omega
  | malformed known => simp [frame_malformed limit _ known] at waiting
  | tooLarge known large => simp [frame_tooLarge _ known large] at waiting
  | complete complete =>
    rw [complete.frame_eq] at waiting
    split at waiting <;> cases waiting

/-- The window keeps its size. -/
def SameTarget (before after : IncrementalDecoder) : Prop :=
  after.targetWindow = before.targetWindow

instance : IsPreorder IncrementalDecoder SameTarget where
  refl _ := rfl
  trans _ _ _ first second := second.trans first

theorem modify_target {change : IncrementalDecoder → IncrementalDecoder}
    (same : ∀ decoder, (change decoder).targetWindow = decoder.targetWindow) :
    Within SameTarget (modify change : DecoderM PUnit) :=
  within_modify same

theorem reallocate_target (capacity : Nat) :
    Within SameTarget (IncrementalDecoder.reallocate capacity) := by
  refine within_bind within_get fun decoder => within_ite ?_ ?_
  · exact within_bind (within_pure _) fun _ => modify_target fun _ => rfl
  · exact within_bind within_fromExcept fun _ => modify_target fun _ => rfl

theorem retireOversize_target : Within SameTarget IncrementalDecoder.retireOversize := by
  refine within_bind within_get fun decoder => within_ite (modify_target fun _ => rfl) ?_
  refine within_bind (modify_target fun _ => rfl) fun _ => within_onlyIf ?_
  exact within_bind (modify_target fun _ => rfl) fun _ => within_onlyIf (reallocate_target _)

theorem consume_target (total bodyEnd : Nat) :
    Within SameTarget (IncrementalDecoder.consume total bodyEnd) := by
  refine within_bind within_get fun decoder => within_bind (modify_target fun _ => rfl) fun _ => ?_
  exact within_onlyIf <| within_bind (modify_target fun _ => rfl) fun _ =>
    within_onlyIf retireOversize_target

theorem nextPacket_target : Within SameTarget IncrementalDecoder.nextPacket := by
  refine within_bind within_get fun decoder => within_ite (within_pure _) ?_
  refine within_bind within_fromExcept fun found => ?_
  cases found with
  | none => exact within_pure _
  | some found =>
    obtain ⟨remainingLength, lengthEnd⟩ := found
    refine within_bind within_raiseIf fun _ => within_ite (within_pure _) ?_
    exact within_bind within_fromExcept fun packetType =>
      within_bind (consume_target _ _) fun _ => within_pure _

/-- What the transport holds is bounded, and while the loop may read there is room for
what it reads next. -/
structure Pressed (limit : Nat) (transport : PushStreamTransport) : Prop where
  decoder : transport.decoder.Sound
  limited : transport.decoder.maxPacketSize = limit
  windowed : PushStreamTransport.Windowed transport.decoder
  bounded : transport.decoder.buffered ≤ max highWater limit + receiveQuantum
  reading : transport.protocol.pausedReading = false →
    transport.decoder.buffered ≤ max highWater limit

/-- Without a whole frame, or below a mark, there is room. -/
theorem Pressed.room {transport : PushStreamTransport} (sound : transport.decoder.Sound)
    (limited : transport.decoder.maxPacketSize = limit)
    (given : transport.decoder.buffered ≤ highWater ∨ nextAnswer transport.decoder = none) :
    transport.decoder.buffered ≤ max highWater limit := by
  rcases given with low | unanswered
  · exact Nat.le_trans low (Nat.le_max_left _ _)
  · rw [Codec.Session.nextAnswer_eq sound, limited] at unanswered
    have short : transport.decoder.pending.length ≤ max 4 limit := by
      cases verdict : frame limit transport.decoder.pending with
      | waiting => exact waiting_short verdict
      | packet packet rest => simp [verdict, Verdict.answer] at unanswered
      | refused error => simp [verdict, Verdict.answer] at unanswered
    rw [sound.length_pending] at short
    have floor : 4 ≤ highWater := by decide
    unfold IncrementalDecoder.buffered
    omega

theorem Pressed.kept {before after : PushStreamTransport} (pressed : Pressed limit before)
    (decoder : after.decoder = before.decoder)
    (resumed : after.protocol.pausedReading = false → before.protocol.pausedReading = false ∨
      before.decoder.buffered ≤ lowWater ∨ nextAnswer before.decoder = none) :
    Pressed limit after := by
  refine ⟨decoder ▸ pressed.decoder, decoder ▸ pressed.limited, decoder ▸ pressed.windowed,
    decoder ▸ pressed.bounded, fun reading => ?_⟩
  rw [decoder]
  rcases resumed reading with before | drained
  · exact pressed.reading before
  · refine Pressed.room pressed.decoder pressed.limited (drained.imp (fun low => ?_) id)
    exact Nat.le_trans low (by decide)

/-- A read that the loop makes while reading is not paused. -/
theorem Pressed.arrived {before after : PushStreamTransport} {arrived : Bytes}
    (pressed : Pressed limit before)
    (arrival : PushStreamTransport.Arrival before arrived after)
    (running : before.protocol.pausedReading = false) : Pressed limit after := by
  have extended := arrival.extended
  obtain ⟨windowed, few⟩ := arrival.windowed pressed.windowed
  have room := pressed.reading running
  have longer : after.decoder.buffered = before.decoder.buffered + arrived.length := by
    have behind := congrArg List.length extended.pending
    rw [extended.sound.length_pending, List.length_append, pressed.decoder.length_pending] at behind
    exact behind
  refine ⟨extended.sound, extended.limit.trans pressed.limited, windowed, by omega, fun reading => ?_⟩
  by_cases nothing : arrived = []
  · rw [longer, nothing]
    exact room
  · exact Pressed.room extended.sound (extended.limit.trans pressed.limited)
      (arrival.pressed nothing reading)

theorem modifyProtocol_pressed {change : DecoderPushProtocol → DecoderPushProtocol}
    (quiet : ∀ protocol, (change protocol).pausedReading = false → protocol.pausedReading = false) :
    Within (Maintains (Pressed limit)) (PushStreamTransport.modifyProtocol change) :=
  within_modify fun _ pressed => pressed.kept rfl fun reading => Or.inl (quiet _ reading)

theorem resumeIfDrained_pressed :
    Within (Maintains (Pressed limit)) PushStreamTransport.resumeIfDrained := by
  refine within_maintains fun transport pressed =>
    (PushStreamTransport.resumeIfDrained_sat pressed.decoder).mono ?_ (fun _ _ raised => raised.elim)
  rintro _ after ⟨kept, _, _, _, resumed⟩
  exact pressed.kept kept.decoder resumed

theorem lookForBytes_pressed : Within (Maintains (Pressed limit)) PushStreamTransport.lookForBytes := by
  refine within_bind within_get fun transport => within_ite ?_ (within_ite (within_pure _) ?_)
  · exact within_bind (within_modify fun _ pressed => Pressed.kept pressed rfl Or.inl) fun _ =>
      within_pure _
  · refine within_bind (within_modify fun _ pressed => Pressed.kept pressed rfl Or.inl) fun _ => ?_
    refine within_bind (within_bind within_get fun _ => within_bind within_raiseIf fun _ => ?_)
      fun _ => within_pure _
    exact modifyProtocol_pressed fun _ reading => reading

/-- The end of `receive` and of its resumption. -/
theorem lookUnlessLost_pressed :
    Within (Maintains (Pressed limit)) (do
      match (← get).protocol.exception with
      | some cause => return Reception.lost cause
      | none => PushStreamTransport.lookForBytes) := by
  refine within_bind within_get fun transport => ?_
  cases transport.protocol.exception with
  | some cause => exact within_pure _
  | none => exact lookForBytes_pressed

theorem receive_pressed : Within (Maintains (Pressed limit)) PushStreamTransport.receive :=
  within_bind resumeIfDrained_pressed fun _ => lookUnlessLost_pressed

theorem resumed_pressed : Within (Maintains (Pressed limit)) PushStreamTransport.resumed :=
  within_bind (modifyProtocol_pressed fun _ reading => reading) fun _ => lookUnlessLost_pressed

/-- The reader's side of backpressure. -/
abbrev Eases (limit : Nat) : Reader → Reader → Prop :=
  Maintains fun reader => Pressed limit reader.transport

theorem link_eases {Value : Type} {program : PushM Value}
    (within : Within (Maintains (Pressed limit)) program) :
    Within (Eases limit) (Reader.link.run program) :=
  within_focus within fun _ _ moved => moved

theorem machine_eases {Value : Type} (call : EngineM Value) :
    Within (Eases limit) (Reader.machine.run call) :=
  @within_focus _ _ _ _ Reader.machine call (fun _ _ => True) _
    (fun _ => Sat.of_forall (fun _ _ => trivial) fun _ _ => trivial) fun _ _ _ pressed => pressed

theorem modify_eases {change : Reader → Reader}
    (same : ∀ reader, (change reader).transport = reader.transport) :
    Within (Eases limit) (modify change : ReaderM PUnit) :=
  within_modify fun reader pressed => by
    change Pressed limit (change reader).transport
    rw [same]
    exact pressed

/-- Taking a packet leaves less. -/
theorem nextPacket_eases : Within (Eases limit) (Reader.buffer.run IncrementalDecoder.nextPacket) := by
  refine within_maintains fun reader pressed => ?_
  rw [sat_focus]
  have sound := pressed.decoder
  refine ((IncrementalDecoder.nextPacket_sat sound).and (nextPacket_target _)).mono ?_ ?_
  · rintro answer decoder ⟨answered, target⟩
    generalize verdict : frame reader.transport.decoder.maxPacketSize
      reader.transport.decoder.pending = given at answered
    cases answered with
    | waiting => exact pressed
    | @packet packet rest _ kept pending sameLimit smaller =>
      have shorter := frame_shrinks verdict
      rw [← pending, kept.length_pending, sound.length_pending] at shorter
      have fewer : decoder.buffered ≤ reader.transport.decoder.buffered := by
        unfold IncrementalDecoder.buffered
        omega
      refine ⟨kept, sameLimit.trans pressed.limited, ?_, Nat.le_trans fewer pressed.bounded,
        fun reading => Nat.le_trans fewer (pressed.reading reading)⟩
      have windowed := pressed.windowed
      unfold PushStreamTransport.Windowed at windowed ⊢
      change decoder.targetWindow = _ at target
      change decoder.targetWindow = _ ∨ decoder.targetWindow = _ ∨ decoder.targetWindow = _
      rw [target]
      exact windowed
  · rintro failure decoder ⟨refused, _⟩
    cases refused with
    | refused named verdict => exact pressed

theorem processIngressBatch_eases (fuel : Nat) (lot : Lot) :
    Within (Eases limit) (processIngressBatch fuel lot) := by
  induction fuel generalizing lot with
  | zero => exact within_pure _
  | succ fuel ih =>
    refine within_bind (within_attempt nextPacket_eases) fun answer => ?_
    cases answer with
    | error failure =>
      refine within_ite (within_bind within_get fun reader => ?_) (within_throw _)
      exact within_ite (within_bind (modify_eases fun _ => rfl) fun _ => within_pure _)
        (within_pure _)
    | ok packet =>
      cases packet with
      | none => exact within_pure _
      | some packet =>
        refine within_bind (modify_eases fun _ => rfl) fun _ =>
          within_bind (machine_eases _) fun answer => ?_
        cases answer with
        | some failure => exact within_bind (modify_eases fun _ => rfl) fun _ => within_pure _
        | none =>
          exact within_bind within_get fun reader =>
            within_ite (within_pure _) (within_ite (within_pure _) (ih _))

theorem goto_eases (stage : Stage) : Within (Eases limit) (Reader.goto stage) :=
  modify_eases fun _ => rfl

theorem failLocally_eases (effectStart : Nat) (failure : Failure) :
    Within (Eases limit) (failLocally effectStart failure) := by
  refine within_bind (modify_eases fun _ => rfl) fun _ =>
    within_bind (within_attempt (machine_eases _)) fun answer => ?_
  cases answer with
  | ok value => exact goto_eases _
  | error other => exact goto_eases _

theorem readBatch_eases (fault : Option Failure) : Within (Eases limit) (readBatch fault) := by
  refine within_bind (processIngressBatch_eases _ _) fun lot => ?_
  cases fault with
  | some failure => exact within_throw _
  | none => exact within_pure _

theorem readLot_eases (fault : Option Failure) : Within (Eases limit) (readLot fault) := by
  refine within_bind within_get fun before =>
    within_bind (within_attempt (readBatch_eases fault)) fun answer => ?_
  cases answer with
  | error failure => exact within_ite (goto_eases _) (failLocally_eases _ _)
  | ok lot =>
    refine within_bind within_get fun reader => within_bind (within_onlyIf ?_) fun _ =>
      goto_eases _
    exact within_bind (machine_eases _) fun _ => modify_eases fun _ => rfl

theorem act_eases (fault : Option Failure) (reception : Reception) :
    Within (Eases limit) (act fault reception) := by
  cases reception with
  | bytes => exact readLot_eases fault
  | endOfStream => exact goto_eases _
  | lost cause => exact goto_eases _
  | waiting => exact goto_eases _

theorem loop_eases (fault : Option Failure) : Within (Eases limit) (loop fault) := by
  refine within_bind within_get fun reader => within_ite (goto_eases _) ?_
  exact within_bind (link_eases receive_pressed) fun reception => act_eases fault reception

theorem turn_eases (fault : Option Failure) : Within (Eases limit) (turn fault) := by
  refine within_bind within_get fun reader => ?_
  cases reader.stage with
  | created => exact loop_eases fault
  | waiting =>
    exact within_onlyIf <|
      within_bind (link_eases resumed_pressed) fun reception => act_eases fault reception
  | handing lot =>
    change Within _ (handedOver fault lot)
    unfold handedOver
    cases lot.peerError with
    | some failure => exact goto_eases _
    | none => exact within_ite (loop_eases fault) (goto_eases _)
  | yielded => exact readLot_eases fault
  | ended why => exact within_pure _

/-- asyncio reads for a protocol only while its reading is not paused. -/
def Paced (reader : Reader) (events : List Event) : Prop :=
  ∀ before ready after, events = before ++ .readReady ready :: after →
    (reader.run before).transport.protocol.pausedReading = false

theorem Pressed.step {reader : Reader} (pressed : Pressed limit reader.transport) (event : Event)
    (paced : ∀ ready, event = .readReady ready →
      reader.transport.protocol.pausedReading = false) :
    Pressed limit (reader.step event).transport := by
  cases event with
  | readReady ready =>
    have sat := PushStreamTransport.readReady_sat pressed.decoder ready
    unfold Sat at sat
    simp only [Reader.step]
    cases ended : PushStreamTransport.readReady ready reader.transport with
    | ok arrived transport =>
      rw [ended] at sat
      exact pressed.arrived sat (paced ready rfl)
    | error failure transport =>
      rw [ended] at sat
      exact sat.elim
  | eofReceived => exact pressed.kept rfl Or.inl
  | connectionLost cause => exact pressed.kept rfl Or.inl
  | closes => exact pressed.kept rfl Or.inl
  | close =>
    refine pressed.kept rfl fun reading => Or.inl ?_
    change (reader.transport.protocol.pausedReading || !reader.transport.protocol.closing) = false
      at reading
    exact (Bool.or_eq_false_iff.mp reading).1
  | call command => exact pressed
  | turn fault =>
    have sat := @turn_eases limit fault reader
    unfold Sat at sat
    change Pressed limit (Reader.settle (turn fault) reader).transport
    unfold Reader.settle
    cases ended : turn fault reader with
    | ok _ after =>
      rw [ended] at sat
      exact sat pressed
    | error failure after =>
      rw [ended] at sat
      exact sat pressed
  | drainRaises failure =>
    simp only [Reader.step]
    split
    · exact pressed
    · exact pressed
  | cancel =>
    simp only [Reader.step]
    split
    · exact pressed
    · exact pressed.kept rfl Or.inl

theorem Pressed.run {reader : Reader} (pressed : Pressed limit reader.transport)
    (events : List Event) (paced : Paced reader events) :
    Pressed limit (reader.run events).transport := by
  induction events using List.reverseRecOn with
  | nil => exact pressed
  | append_singleton events event ih =>
    rw [Reader.run_concat]
    refine (ih fun before ready after split => ?_).step event fun ready reads => ?_
    · exact paced before ready (after ++ [event]) (by simp [split])
    · exact paced events ready [] (by simp [reads])

theorem cleared_windowed (used : List DecoderCall) (maxPacketSize : Nat) :
    ((used.foldl IncrementalDecoder.perform { maxPacketSize }).perform .clear).targetWindow =
      initialWindow := by
  have cleared : ∀ decoder, Sat IncrementalDecoder.clear decoder
      (fun _ after => after.targetWindow = initialWindow)
      (fun _ after => after.targetWindow = initialWindow) := by
    intro decoder
    simp only [IncrementalDecoder.clear, sat_bind, sat_get, sat_modify, sat_onlyIf]
    refine ⟨fun _ => ?_, fun _ => trivial⟩
    exact (reallocate_target _ _).mono (fun _ _ same => same) fun _ _ same => same
  exact left_of_sat (cleared _) (fun _ _ target => target) fun _ _ target => target

theorem connected_pressed (used : List DecoderCall) (maxPacketSize : Nat) (engine : Engine) :
    let reader := Reader.connected used maxPacketSize engine
    Pressed reader.transport.decoder.maxPacketSize reader.transport := by
  intro reader
  obtain ⟨limit, sound⟩ := connected_sound used maxPacketSize engine
  have same := (attached_kept (cleared_sound used maxPacketSize).1 engine).1.decoder
  have target : reader.transport.decoder.targetWindow = initialWindow :=
    (congrArg IncrementalDecoder.targetWindow same).trans (cleared_windowed used maxPacketSize)
  have empty : reader.transport.decoder.buffered = 0 := by
    have nothing : reader.transport.decoder.pending = [] :=
      (congrArg IncrementalDecoder.pending same).trans (cleared_sound used maxPacketSize).2
    have length := sound.decoder.length_pending
    rw [nothing] at length
    exact length.symm
  exact ⟨sound.decoder, rfl, Or.inl target, empty ▸ Nat.zero_le _, fun _ => empty ▸ Nat.zero_le _⟩

/-- As long as the event loop reads only while reading is not paused, the decoder holds at
most a frame of the accepted size, or the high-water mark, and one receive window. -/
theorem decoder_bounded (used : List DecoderCall) (maxPacketSize : Nat) (engine : Engine)
    (events : List Event) (paced : Paced (Reader.connected used maxPacketSize engine) events) :
    let start := Reader.connected used maxPacketSize engine
    (start.run events).transport.decoder.stop - (start.run events).transport.decoder.start ≤
      max highWater start.transport.decoder.maxPacketSize + receiveQuantum :=
  ((connected_pressed used maxPacketSize engine).run events paced).bounded

/-- Three bytes of a frame of ten arrive while the reader sleeps. -/
theorem decoder_bounded_fed :
    let start := Reader.connected [] 1000 plainEngine
    (start.run [.turn none, .readReady [48, 8, 0], .turn none]).transport.decoder.stop -
        (start.run [.turn none, .readReady [48, 8, 0], .turn none]).transport.decoder.start ≤
      max highWater start.transport.decoder.maxPacketSize + receiveQuantum := by
  refine decoder_bounded [] 1000 plainEngine
    [.turn none, .readReady [48, 8, 0], .turn none] ?_
  intro before ready rest split
  have first : before = [.turn none] := by
    rcases before with - | ⟨event, - | ⟨other, - | ⟨third, - | more⟩⟩⟩ <;> simp_all
  rw [first]
  rfl

end Mqttium.Ingress
