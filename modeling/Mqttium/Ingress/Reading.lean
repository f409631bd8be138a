import Mqttium.Ingress.Reader

/-! What the reader's task and the event loop keep, step by step: the packets handed on are
the frames of the stream, and a reader that sleeps has nothing left to do. -/

namespace Mqttium.Ingress

open Library Codec Packets Protocol Transport

/-- The bytes in the decoder that no packet was made of. -/
def Reader.unread (reader : Reader) : Bytes := reader.transport.decoder.pending

/-- The reader can make no packet of the bytes it has. -/
def Reader.Stalled (limit : Nat) (reader : Reader) : Prop :=
  frame limit reader.unread = .waiting ∨ reader.silenced = true

/-- The packets are those of the stream that reached the decoder. -/
structure Faithful (limit : Nat) (reader : Reader) : Prop where
  decoder : reader.transport.decoder.Sound
  limited : reader.transport.decoder.maxPacketSize = limit
  reads : (framing limit).Reads reader.arrived reader.handled reader.unread
  silenced : reader.silenced = true → ∃ error, frame limit reader.unread = .refused error

/-- What a lot leaves alone. -/
structure Undisturbed (before after : Reader) : Prop where
  protocol : after.transport.protocol = before.transport.protocol
  seen : after.transport.seen = before.transport.seen
  stage : after.stage = before.stage

theorem Undisturbed.refl (reader : Reader) : Undisturbed reader reader := ⟨rfl, rfl, rfl⟩

theorem Undisturbed.trans {before between after : Reader} (first : Undisturbed before between)
    (second : Undisturbed between after) : Undisturbed before after where
  protocol := second.protocol.trans first.protocol
  seen := second.seen.trans first.seen
  stage := second.stage.trans first.stage

/-- What a lot comes to: it consumed as many packets as it counts, and a lot that ended
short of its bounds left the reader nothing. -/
structure Lotted (limit : Nat) (before : Reader) (counted : Nat) (lot : Lot) (after : Reader) :
    Prop where
  faithful : Faithful limit after
  undisturbed : Undisturbed before after
  stalled : lot.peerError = none → lot.short → after.Stalled limit
  consumed : after.unread.length + 2 * lot.handled ≤ before.unread.length + 2 * counted
  counted : ¬ lot.short → 0 < lot.handled

variable {limit : Nat} {reader : Reader}

/-- A frame has a header byte and a length. -/
theorem frame_shrinks {bytes rest : Bytes} {packet : RawPacket}
    (framed : frame limit bytes = .packet packet rest) : rest.length + 2 ≤ bytes.length := by
  cases head limit bytes with
  | empty => cases framed
  | unfinished known => simp [frame_unfinished limit _ known] at framed
  | missing known allowed missing => simp [frame_missing _ known allowed missing] at framed
  | malformed known => simp [frame_malformed limit _ known] at framed
  | tooLarge known large => simp [frame_tooLarge _ known large] at framed
  | @complete header digits value count complete =>
    obtain ⟨least, _, _⟩ := remainingLength_known (by omega) complete.known
    have arrived := complete.arrived
    rw [complete.frame_eq] at framed
    cases typed : PacketType.fromByte header.toNat with
    | error failure => simp [typed] at framed
    | ok packetType =>
      simp only [typed, Verdict.packet.injEq] at framed
      rw [← framed.2]
      simp only [List.length_drop, List.length_cons]
      omega

/-- What `next_packet` did for the reader. -/
inductive Asked (limit : Nat) (before : Reader) :
    Except Failure (Option RawPacket) → Reader → Prop where
  | waiting (stalled : frame limit before.unread = .waiting) :
      Asked limit before (.ok none) before
  | packet {packet after} (whole : frame limit before.unread ≠ .waiting)
      (kept : Undisturbed before after) (engine : after.engine = before.engine)
      (faithful : Faithful limit { after with handled := after.handled ++ [packet] })
      (shorter : after.unread.length + 2 ≤ before.unread.length) :
      Asked limit before (.ok (some packet)) after
  | refused {failure error} (decoding : isDecodingError failure = true)
      (verdict : frame limit before.unread = .refused error) :
      Asked limit before (.error failure) before

theorem Faithful.asked (faithful : Faithful limit reader) :
    Sat (attempt (Reader.buffer.run IncrementalDecoder.nextPacket)) reader
      (fun answer after => Asked limit reader answer after) (fun _ _ => False) := by
  rw [sat_attempt, sat_focus]
  have limited := faithful.limited
  refine (IncrementalDecoder.nextPacket_sat faithful.decoder).mono ?_ ?_
  · intro answer decoder answered
    change IncrementalDecoder.Answered reader.transport.decoder
      (frame reader.transport.decoder.maxPacketSize reader.unread) answer decoder at answered
    rw [limited] at answered
    generalize verdict : frame limit reader.unread = given at answered
    cases answered with
    | waiting => exact .waiting verdict
    | @packet packet rest _ kept pending sameLimit smaller =>
      have shorter := frame_shrinks verdict
      refine .packet (by simp [verdict]) ⟨rfl, rfl, rfl⟩ rfl ⟨kept, sameLimit.trans limited, ?_, ?_⟩ ?_
      · change (framing limit).Reads reader.arrived (reader.handled ++ [packet])
          decoder.pending
        rw [pending]
        exact faithful.reads.next verdict
      · intro silenced
        obtain ⟨error, refused⟩ := faithful.silenced silenced
        rw [refused] at verdict
        cases verdict
      · change decoder.pending.length + 2 ≤ _
        rw [pending]
        exact shorter
  · intro failure decoder refused
    cases refused with
    | refused named verdict =>
      change frame reader.transport.decoder.maxPacketSize reader.unread = _ at verdict
      rw [limited] at verdict
      refine .refused ?_ verdict
      cases failure with
      | malformedPacket message => rfl
      | packetTooLarge message => rfl
      | _ => cases named

/-- The packets of a reader do not depend on its engine. -/
theorem Faithful.of_engine (faithful : Faithful limit reader) (engine : Engine) :
    Faithful limit { reader with engine } :=
  ⟨faithful.decoder, faithful.limited, faithful.reads, faithful.silenced⟩

/-- A call of the engine changes nothing else. -/
theorem machine_sat {Value : Type} (call : EngineM Value) (reader : Reader) :
    Sat (Reader.machine.run call) reader
      (fun _ after => ∃ engine, after = { reader with engine })
      (fun _ after => ∃ engine, after = { reader with engine }) := by
  rw [sat_focus]
  exact Sat.of_forall (fun _ _ => ⟨_, rfl⟩) fun _ _ => ⟨_, rfl⟩

theorem processIngressBatch_sat {lot : Lot} {fuel : Nat} (faithful : Faithful limit reader)
    (counted : lot.handled + fuel = maxLotPackets) (free : lot.handoffRequired = false)
    (light : lot.handledBytes < maxIngressBatchBytes) (fine : lot.peerError = none) :
    Sat (processIngressBatch fuel lot) reader
      (fun result after => Lotted limit reader lot.handled result after)
      (fun _ after => Faithful limit after ∧ Undisturbed reader after) := by
  induction fuel generalizing lot reader with
  | zero =>
    refine ⟨faithful, .refl reader, fun _ short => ?_, Nat.le_refl _, fun _ => ?_⟩
    · have few := short.2.1
      omega
    · have positive : 0 < maxLotPackets := by decide
      omega
  | succ fuel ih =>
    have short : lot.short := ⟨free, by omega, light⟩
    simp only [processIngressBatch, sat_bind]
    refine faithful.asked.mono ?_ (fun _ _ raised => raised.elim)
    intro answer after asked
    cases asked with
    | waiting stalled =>
      exact ⟨faithful, .refl reader, fun _ _ => Or.inl stalled, Nat.le_refl _,
        fun long => absurd short long⟩
    | refused decoding verdict =>
      simp only [decoding, if_true, sat_bind, sat_get, sat_ite, sat_modify, sat_pure]
      refine ⟨fun _ => ?_, fun _ => ?_⟩
      · exact ⟨⟨faithful.decoder, faithful.limited, faithful.reads, fun _ => ⟨_, verdict⟩⟩,
          ⟨rfl, rfl, rfl⟩, fun _ _ => Or.inr rfl, Nat.le_refl _, fun long => absurd short long⟩
      · exact ⟨faithful, .refl reader, fun contrary => absurd contrary (by simp), Nat.le_refl _,
          fun long => absurd short long⟩
    | @packet packet after whole kept engine next shorter =>
      simp only [sat_bind, sat_modify]
      refine (machine_sat (handleRaw packet) _).mono ?_ ?_
      · rintro answer _ ⟨handled, rfl⟩
        have stepped : Undisturbed reader
            { after with handled := after.handled ++ [packet], engine := handled } :=
          ⟨kept.protocol, kept.seen, kept.stage⟩
        have held := next.of_engine handled
        cases answer with
        | some failure =>
          simp only [sat_bind, sat_modify, sat_pure]
          refine ⟨held.of_engine _, ⟨kept.protocol, kept.seen, kept.stage⟩,
            fun contrary => absurd contrary (by simp), ?_, fun _ => Nat.succ_pos _⟩
          change after.unread.length + 2 * (lot.handled + 1) ≤ _
          omega
        | none =>
          simp only [sat_bind, sat_get, sat_ite, sat_pure]
          refine ⟨fun handoff => ?_, fun _ => ⟨fun heavy => ?_, fun bounded => ?_⟩⟩
          · refine ⟨held, stepped, fun _ short => absurd short.1 (by simp), ?_,
              fun _ => Nat.succ_pos _⟩
            change after.unread.length + 2 * (lot.handled + 1) ≤ _
            omega
          · refine ⟨held, stepped, fun _ short => absurd short.2.2 (Nat.not_lt.mpr heavy), ?_,
              fun _ => Nat.succ_pos _⟩
            change after.unread.length + 2 * (lot.handled + 1) ≤ _
            omega
          · have rest := @ih _ { lot with
                handled := lot.handled + 1
                handledBytes := lot.handledBytes + (packet.remaining.length + 5) } held
              (by simp only; omega) free (Nat.lt_of_not_le bounded) fine
            refine rest.mono ?_ ?_
            · intro result final lotted
              refine ⟨lotted.faithful, stepped.trans lotted.undisturbed, lotted.stalled, ?_,
                lotted.counted⟩
              have consumed := lotted.consumed
              change final.unread.length + _ ≤ after.unread.length + 2 * (lot.handled + 1) at consumed
              omega
            · rintro _ final ⟨faithful', kept'⟩
              exact ⟨faithful', stepped.trans kept'⟩
      · rintro _ _ ⟨handled, rfl⟩
        exact ⟨next.of_engine handled, kept.protocol, kept.seen, kept.stage⟩

/-- Unless bytes came that the reader was not told of, there is nothing for it to do. -/
def Reader.CaughtUp (limit : Nat) (reader : Reader) : Prop :=
  reader.transport.protocol.received = reader.transport.seen → reader.Stalled limit

/-- The reader sleeps only while there is no news, reading goes on meanwhile, and news
wake it. -/
structure Parked (transport : PushStreamTransport) : Prop where
  waiter : ∃ done, transport.protocol.waiter = some done
  asleep : transport.protocol.waiter = some false →
    transport.protocol.received = transport.seen ∧ transport.protocol.eof = false ∧
      transport.protocol.exception = none ∧ transport.Flows
  woken : transport.protocol.waiter = some true →
    transport.protocol.received = transport.seen → transport.protocol.eof = true

/-- What holds at the await where the reader is. -/
def Staged (limit : Nat) (reader : Reader) : Stage → Prop
  | .created => reader.transport.protocol.waiter = none ∧ reader.CaughtUp limit
  | .waiting => Parked reader.transport ∧ reader.CaughtUp limit
  | .handing lot => reader.transport.protocol.waiter = none ∧
      (lot.peerError = none → lot.short → reader.CaughtUp limit)
  | .yielded => reader.transport.protocol.waiter = none
  | .ended why => why = .endOfStream → reader.CaughtUp limit

/-- What holds wherever the reader is. -/
structure Held (limit : Nat) (reader : Reader) : Prop extends Faithful limit reader where
  behind : reader.transport.seen ≤ reader.transport.protocol.received

/-- What holds between two steps. -/
structure Sound (limit : Nat) (reader : Reader) : Prop extends Held limit reader where
  staged : Staged limit reader reader.stage

theorem Held.of_engine (held : Held limit reader) (engine : Engine) :
    Held limit { reader with engine } :=
  ⟨held.toFaithful.of_engine engine, held.behind⟩

/-- The place of the reader is not part of what is held. -/
theorem Held.at_stage (held : Held limit reader) (stage : Stage) :
    Held limit { reader with stage } :=
  ⟨⟨held.decoder, held.limited, held.reads, held.silenced⟩, held.behind⟩

theorem Held.ended (held : Held limit reader) {why : Ending}
    (last : why = .endOfStream → reader.CaughtUp limit) :
    Sound limit { reader with stage := .ended why } :=
  ⟨held.at_stage _, last⟩

/-- What is left for the reader to do: bytes, news and the stage it is in. -/
def Reader.measure (reader : Reader) : Nat :=
  4 * reader.unread.length +
    (if reader.transport.protocol.received = reader.transport.seen then 0 else 3) +
    match reader.stage with
    | .handing lot => if lot.short then 0 else 2
    | .yielded => 1
    | _ => 0

/-- A turn ends the reader, puts it to sleep, or leaves it less to do. -/
inductive Turned (limit : Nat) (work : Nat) (after : Reader) : Prop where
  | ended (sound : Sound limit after) (over' : after.isEnded = true)
  | asleep (sound : Sound limit after) (stage : after.stage = .waiting)
      (waiter : after.transport.protocol.waiter = some false)
  | advanced (sound : Sound limit after) (less : after.measure < work)

theorem goto_ended (held : Held limit reader) {why : Ending} (work : Nat)
    (last : why = .endOfStream → reader.CaughtUp limit) :
    Sat (Reader.goto (.ended why)) reader (fun _ after => Turned limit work after)
      (fun _ after => Held limit after) :=
  .ended (held.ended last) rfl

theorem failLocally_sat (held : Held limit reader) (effectStart : Nat) (failure : Failure)
    (work : Nat) :
    Sat (failLocally effectStart failure) reader (fun _ after => Turned limit work after)
      (fun _ after => Held limit after) := by
  simp only [failLocally, sat_bind, sat_modify, sat_attempt]
  refine (machine_sat notifyTransportClosed _).mono ?_ ?_
  · rintro _ _ ⟨engine, rfl⟩
    refine goto_ended ?_ work (by simp)
    exact ⟨⟨held.decoder, held.limited, held.reads, held.silenced⟩, held.behind⟩
  · rintro _ _ ⟨engine, rfl⟩
    refine goto_ended ?_ work (by simp)
    exact ⟨⟨held.decoder, held.limited, held.reads, held.silenced⟩, held.behind⟩

theorem collectFromEngine_sat (reader : Reader) :
    Sat collectFromEngine reader
      (fun _ after => ∃ engine collected, after = { reader with engine, collected })
      (fun _ after => ∃ engine, after = { reader with engine }) := by
  simp only [collectFromEngine, sat_bind]
  refine (machine_sat takeEffects reader).mono ?_ (fun _ _ raised => raised)
  rintro effects _ ⟨engine, rfl⟩
  rw [sat_modify]
  exact ⟨engine, _, rfl⟩

theorem Lotted.held {before after : Reader} {counted : Nat} {lot : Lot}
    (lotted : Lotted limit before counted lot after)
    (behind : before.transport.seen ≤ before.transport.protocol.received) : Held limit after where
  toFaithful := lotted.faithful
  behind := by
    rw [lotted.undisturbed.seen, lotted.undisturbed.protocol]
    exact behind

/-- A lot that was read is handed over; what it could not read, nobody can. -/
theorem Lotted.handing {before after : Reader} {lot : Lot} {work : Nat}
    (lotted : Lotted limit before 0 lot after)
    (behind : before.transport.seen ≤ before.transport.protocol.received)
    (idle : before.transport.protocol.waiter = none)
    (bounded : 4 * before.unread.length +
      (if before.transport.protocol.received = before.transport.seen then 0 else 3) < work)
    (engine : Engine) (collected : List Effect) :
    Turned limit work { after with engine, collected, stage := .handing lot } := by
  have undisturbed := lotted.undisturbed
  have consumed := lotted.consumed
  have held := lotted.held behind
  refine .advanced ⟨⟨⟨held.decoder, held.limited, held.reads, held.silenced⟩, held.behind⟩,
    ?_, ?_⟩ ?_
  · exact (congrArg DecoderPushProtocol.waiter undisturbed.protocol).trans idle
  · exact fun fine short _ => lotted.stalled fine short
  · change 4 * after.unread.length +
      (if after.transport.protocol.received = after.transport.seen then 0 else 3) +
        (if lot.short then 0 else 2) < work
    rw [undisturbed.seen, undisturbed.protocol]
    by_cases short : lot.short
    · rw [if_pos short]
      omega
    · have some := lotted.counted short
      rw [if_neg short]
      omega

theorem readBatch_sat (faithful : Faithful limit reader) (fault : Option Failure) :
    Sat (readBatch fault) reader (fun lot after => Lotted limit reader 0 lot after)
      (fun _ after => Faithful limit after ∧ Undisturbed reader after) := by
  simp only [readBatch, sat_bind]
  refine (@processIngressBatch_sat limit reader {} maxLotPackets faithful (by simp) rfl
    (by decide) rfl).mono ?_ (fun _ _ raised => raised)
  intro lot after lotted
  cases fault with
  | some failure => exact ⟨lotted.faithful, lotted.undisturbed⟩
  | none => exact lotted

theorem readLot_sat (held : Held limit reader) (fault : Option Failure) {work : Nat}
    (idle : reader.transport.protocol.waiter = none)
    (bounded : 4 * reader.unread.length +
      (if reader.transport.protocol.received = reader.transport.seen then 0 else 3) < work) :
    Sat (readLot fault) reader (fun _ after => Turned limit work after)
      (fun _ after => Held limit after) := by
  simp only [readLot, sat_bind, sat_get, sat_attempt]
  refine (readBatch_sat held.toFaithful fault).mono ?_ ?_
  · intro lot after lotted
    simp only [sat_onlyIf]
    refine ⟨fun _ => ?_, fun _ => ?_⟩
    · refine (collectFromEngine_sat after).mono ?_ ?_
      · rintro _ _ ⟨engine, collected, rfl⟩
        exact lotted.handing held.behind idle bounded engine collected
      · rintro _ _ ⟨engine, rfl⟩
        exact (lotted.held held.behind).of_engine engine
    · exact lotted.handing held.behind idle bounded after.engine after.collected
  · rintro failure after ⟨faithful, undisturbed⟩
    have kept : Held limit after := ⟨faithful, by
      rw [undisturbed.seen, undisturbed.protocol]
      exact held.behind⟩
    split
    · exact goto_ended kept work (by simp)
    · exact failLocally_sat kept _ _ work

/-- The bytes at hand and the news the reader was not told of. -/
def Reader.backlog (reader : Reader) : Nat :=
  4 * reader.unread.length +
    if reader.transport.protocol.received = reader.transport.seen then 0 else 3

/-- What the reader does with the answer of `receive`. -/
theorem act_sat (fault : Option Failure) {reception : Reception} {transport : PushStreamTransport} {work : Nat}
    (held : Held limit reader)
    (received : PushStreamTransport.Received reader.transport transport reception)
    (caughtUp : reader.CaughtUp limit) (bounded : reader.backlog ≤ work) :
    Sat (act fault reception) { reader with transport } (fun _ after => Turned limit work after)
      (fun _ after => Held limit after) := by
  have moved : ∀ {after : PushStreamTransport}, PushStreamTransport.Kept reader.transport after →
      after.seen ≤ reader.transport.protocol.received → Held limit { reader with transport := after } := by
    intro after kept behind
    refine ⟨⟨?_, ?_, ?_, ?_⟩, ?_⟩
    · exact kept.decoder ▸ held.decoder
    · exact kept.decoder ▸ held.limited
    · change (framing limit).Reads reader.arrived reader.handled after.decoder.pending
      rw [kept.decoder]
      exact held.reads
    · intro silenced
      change ∃ error, frame limit after.decoder.pending = .refused error
      rw [kept.decoder]
      exact held.silenced silenced
    · exact Nat.le_trans behind (Nat.le_of_eq kept.received.symm)
  unfold Reader.backlog at bounded
  cases received with
  | bytes kept unseen seen idle =>
    refine readLot_sat (moved kept (Nat.le_of_eq seen)) fault idle ?_
    change 4 * transport.decoder.pending.length +
      (if transport.protocol.received = transport.seen then 0 else 3) < work
    rw [kept.decoder, kept.received, seen, if_pos rfl]
    rw [if_neg unseen] at bounded
    unfold Reader.unread at bounded
    omega
  | endOfStream kept seen quiet eof idle =>
    refine goto_ended (moved kept (seen ▸ held.behind)) work fun _ _ => ?_
    change frame limit transport.decoder.pending = .waiting ∨ reader.silenced = true
    rw [kept.decoder]
    exact caughtUp quiet
  | lost kept seen failed idle =>
    exact goto_ended (moved kept (seen ▸ held.behind)) work (by simp)
  | waiting kept seen quiet eof fine parked flows =>
    have kept' := moved kept (seen ▸ held.behind)
    refine .asleep ⟨kept'.at_stage _, ⟨⟨false, parked⟩, ?_, ?_⟩, fun _ => ?_⟩ rfl parked
    · intro _
      exact ⟨by rw [kept.received, seen, quiet], kept.eof.trans eof, kept.exception.trans fine, flows⟩
    · intro woken
      rw [parked] at woken
      cases woken
    · change frame limit transport.decoder.pending = .waiting ∨ reader.silenced = true
      rw [kept.decoder]
      exact caughtUp quiet

theorem loop_sat (held : Held limit reader) (fault : Option Failure) {work : Nat}
    (idle : reader.transport.protocol.waiter = none) (caughtUp : reader.CaughtUp limit)
    (bounded : reader.backlog ≤ work) :
    Sat (loop fault) reader (fun _ after => Turned limit work after)
      (fun _ after => Held limit after) := by
  simp only [loop, sat_bind, sat_get]
  split
  · exact goto_ended held work (by simp)
  · simp only [sat_bind, sat_focus]
    refine (PushStreamTransport.received_sat held.decoder idle).mono ?_
      (fun _ _ raised => raised.elim)
    intro reception transport received
    exact act_sat fault held received caughtUp bounded

theorem handedOver_sat (fault : Option Failure) {lot : Lot} (held : Held limit reader)
    (stage : reader.stage = .handing lot)
    (staged : Staged limit reader (.handing lot)) :
    Sat (handedOver fault lot) reader (fun _ after => Turned limit reader.measure after)
      (fun _ after => Held limit after) := by
  unfold handedOver
  cases fine : lot.peerError with
  | some failure => exact goto_ended held _ (by simp)
  | none =>
    rw [sat_ite]
    refine ⟨fun short => ?_, fun long => ?_⟩
    · refine loop_sat held fault staged.1 (staged.2 fine short) ?_
      simp only [Reader.backlog, Reader.measure, stage]
      omega
    · refine .advanced ⟨held.at_stage _, staged.1⟩ ?_
      simp only [Reader.measure, stage, if_neg long]
      exact Nat.lt_succ_self _

/-- A turn of a reader that can take one. -/
theorem turn_sat (fault : Option Failure) (sound : Sound limit reader) (awake : ∀ (_ : reader.stage = .waiting),
    reader.transport.protocol.waiter = some true) :
    Sat (turn fault) reader (fun _ after => Turned limit reader.measure after)
      (fun _ after => Held limit after) := by
  have staged := sound.staged
  simp only [turn, sat_bind, sat_get]
  cases stage : reader.stage with
  | created =>
    rw [stage] at staged
    refine loop_sat sound.toHeld fault staged.1 staged.2 ?_
    simp only [Reader.backlog, Reader.measure, stage]
    omega
  | waiting =>
    rw [stage] at staged
    have woken := awake stage
    simp only [sat_onlyIf, sat_bind, sat_focus]
    refine ⟨fun _ => ?_, fun sleeping => absurd woken sleeping⟩
    refine (PushStreamTransport.resumed_sat (staged.1.woken woken)).mono ?_
      (fun _ _ raised => raised.elim)
    intro reception transport received
    refine act_sat fault sound.toHeld received staged.2 ?_
    simp only [Reader.backlog, Reader.measure, stage]
    omega
  | handing lot =>
    rw [stage] at staged
    exact handedOver_sat fault sound.toHeld stage staged
  | yielded =>
    rw [stage] at staged
    refine readLot_sat sound.toHeld fault staged ?_
    simp only [Reader.measure, stage]
    omega
  | ended why =>
    exact .ended sound (by simp [Reader.isEnded, stage])

end Mqttium.Ingress
