import Mqttium.Connection.Closing
import Mqttium.Ingress.Pressure

/-! A reader that waits on a live engine has nothing to read, and its transport reads on. -/

namespace Mqttium.Ingress

open Library Codec Packets Protocol Transport

variable {limit : Nat} {reader : Reader}

/-! The end of a connection -/

/-- Within a turn an engine whose connection has ended stays so, and bytes that are no
frame are passed in silence only there. -/
structure Lasting (before after : Reader) : Prop where
  ends : terminal before.engine.state = true → terminal after.engine.state = true
  silenced : after.silenced = true → before.silenced = true ∨ terminal after.engine.state = true

instance : IsPreorder Reader Lasting where
  refl _ := ⟨id, .inl⟩
  trans _ _ _ first second := by
    refine ⟨second.ends ∘ first.ends, fun silenced => ?_⟩
    rcases second.silenced silenced with early | ended
    · exact (first.silenced early).imp_right second.ends
    · exact .inr ended

theorem link_lasting {Value : Type} (program : PushM Value) :
    Within Lasting (Reader.link.run program) :=
  @within_focus _ _ _ _ Reader.link program (fun _ _ => True) _
    (fun _ => Sat.of_forall (fun _ _ => trivial) fun _ _ => trivial) fun _ _ _ => ⟨id, .inl⟩

theorem buffer_lasting {Value : Type} (program : DecoderM Value) :
    Within Lasting (Reader.buffer.run program) :=
  @within_focus _ _ _ _ Reader.buffer program (fun _ _ => True) _
    (fun _ => Sat.of_forall (fun _ _ => trivial) fun _ _ => trivial) fun _ _ _ => ⟨id, .inl⟩

theorem machine_lasting {Value : Type} {call : EngineM Value}
    (ends : Within (Maintains fun engine => terminal engine.state = true) call) :
    Within Lasting (Reader.machine.run call) :=
  within_focus ends fun _ _ moved => ⟨moved, .inl⟩

theorem modify_lasting {change : Reader → Reader}
    (state : ∀ reader, (change reader).engine.state = reader.engine.state)
    (silenced : ∀ reader, (change reader).silenced = reader.silenced) :
    Within Lasting (modify change : ReaderM PUnit) :=
  within_modify fun reader => ⟨fun ended => by rw [state, ended],
    fun heard => .inl (by rw [← silenced, heard])⟩

theorem terminal_handleRaw (raw : RawPacket) :
    Within (Maintains fun engine => terminal engine.state = true) (handleRaw raw) := by
  intro engine
  by_cases ended : engine.state = .disconnecting ∨ engine.state = .disconnected
  · simp only [handleRaw, sat_bind, sat_get, sat_ite, sat_pure]
    exact ⟨fun _ => id, fun live => absurd ended live⟩
  · have live : terminal engine.state ≠ true := by simpa [terminal] using ended
    exact Sat.of_forall (fun _ _ contrary => absurd contrary live) fun _ _ contrary =>
      absurd contrary live

theorem terminal_takeEffects :
    Within (Maintains fun engine => terminal engine.state = true) takeEffects := by
  intro engine
  simp only [takeEffects, Inbound.releasePendingAcks, sat_bind, sat_get, sat_modify, sat_onlyIf,
    sat_pure, sat_modifyInbound]
  exact ⟨fun _ => id, fun _ => id⟩

theorem terminal_notifyTransportClosed :
    Within (Maintains fun engine => terminal engine.state = true) notifyTransportClosed := by
  intro engine
  simp only [notifyTransportClosed, enterDisconnected, Inbound.transportClosed,
    Inbound.releasePendingAcks, sat_bind, sat_get, sat_modify, sat_modifyOutbound, sat_modifyInbound]
  apply sat_releasePendingSubscriptionRequests
  intro pool subs
  rw [sat_onlyIf]
  exact ⟨fun _ _ => rfl, fun _ _ => rfl⟩

/-- A lot ends at bytes that are no frame: a peer error, unless the connection has ended. -/
theorem refused_lasting (lot : Lot) (failure : Failure) :
    Within Lasting (do
      let reader ← get
      if terminal reader.engine.state then do
        modify fun reader => { reader with silenced := true }
        return lot
      else return { lot with peerError := some failure } : ReaderM Lot) := by
  intro reader
  simp only [sat_bind, sat_get, sat_ite, sat_modify, sat_pure]
  exact ⟨fun ended => ⟨id, fun _ => .inr ended⟩, fun _ => Std.Refl.refl reader⟩

theorem processIngressBatch_lasting (fuel : Nat) (lot : Lot) :
    Within Lasting (processIngressBatch fuel lot) := by
  induction fuel generalizing lot with
  | zero => exact within_pure _
  | succ fuel ih =>
    refine within_bind (within_attempt (buffer_lasting _)) fun answer => ?_
    cases answer with
    | error failure => exact within_ite (refused_lasting lot failure) (within_throw _)
    | ok packet =>
      cases packet with
      | none => exact within_pure _
      | some packet =>
        refine within_bind (modify_lasting (fun _ => rfl) fun _ => rfl) fun _ =>
          within_bind (machine_lasting (terminal_handleRaw packet)) fun answer => ?_
        cases answer with
        | some failure =>
          exact within_bind (modify_lasting (fun _ => rfl) fun _ => rfl) fun _ => within_pure _
        | none =>
          exact within_bind within_get fun reader =>
            within_ite (within_pure _) (within_ite (within_pure _) (ih _))

theorem goto_lasting (stage : Stage) : Within Lasting (Reader.goto stage) :=
  modify_lasting (fun _ => rfl) fun _ => rfl

theorem failLocally_lasting (effectStart : Nat) (failure : Failure) :
    Within Lasting (failLocally effectStart failure) := by
  refine within_bind (modify_lasting (fun _ => rfl) fun _ => rfl) fun _ =>
    within_bind (within_attempt (machine_lasting terminal_notifyTransportClosed)) fun answer => ?_
  cases answer with
  | ok value => exact goto_lasting _
  | error other => exact goto_lasting _

theorem readBatch_lasting (fault : Option Failure) : Within Lasting (readBatch fault) := by
  refine within_bind (processIngressBatch_lasting _ _) fun lot => ?_
  cases fault with
  | some failure => exact within_throw _
  | none => exact within_pure _

theorem readLot_lasting (fault : Option Failure) : Within Lasting (readLot fault) := by
  refine within_bind within_get fun before =>
    within_bind (within_attempt (readBatch_lasting fault)) fun answer => ?_
  cases answer with
  | error failure => exact within_ite (goto_lasting _) (failLocally_lasting _ _)
  | ok lot =>
    refine within_bind within_get fun reader => within_bind (within_onlyIf ?_) fun _ =>
      goto_lasting _
    exact within_bind (machine_lasting terminal_takeEffects) fun _ =>
      modify_lasting (fun _ => rfl) fun _ => rfl

theorem act_lasting (fault : Option Failure) (reception : Reception) :
    Within Lasting (act fault reception) := by
  cases reception with
  | bytes => exact readLot_lasting fault
  | endOfStream => exact goto_lasting _
  | lost cause => exact goto_lasting _
  | waiting => exact goto_lasting _

theorem loop_lasting (fault : Option Failure) : Within Lasting (loop fault) :=
  within_bind within_get fun _ => within_ite (goto_lasting _) <|
    within_bind (link_lasting _) fun reception => act_lasting fault reception

theorem turn_lasting (fault : Option Failure) : Within Lasting (turn fault) := by
  refine within_bind within_get fun reader => ?_
  cases reader.stage with
  | created => exact loop_lasting fault
  | waiting =>
    exact within_onlyIf <|
      within_bind (link_lasting _) fun reception => act_lasting fault reception
  | handing lot =>
    change Within _ (handedOver fault lot)
    unfold handedOver
    cases lot.peerError with
    | some failure => exact goto_lasting _
    | none => exact within_ite (loop_lasting fault) (goto_lasting _)
  | yielded => exact readLot_lasting fault
  | ended why => exact within_pure _

/-- The engine was live between all the events of a run. -/
def Lives (start : Reader) (events : List Event) : Prop :=
  ∀ front rest, events = front ++ rest → terminal (start.run front).engine.state = false

theorem Lives.heard {start : Reader} {events : List Event} (lives : Lives start events)
    (heard : start.silenced = false) : (start.run events).silenced = false := by
  induction events using List.reverseRecOn with
  | nil => exact heard
  | append_singleton events event ih =>
    have before : (start.run events).silenced = false :=
      ih fun front rest split => lives front (rest ++ [event]) (by rw [split, List.append_assoc])
    have live := lives (events ++ [event]) [] (List.append_nil _).symm
    rw [Reader.run_concat] at live ⊢
    generalize start.run events = reader at before live
    cases event with
    | turn fault =>
      have lasting := turn_lasting fault reader
      have after : Lasting reader (reader.step (.turn fault)) := by
        change Lasting reader (Reader.settle (turn fault) reader)
        unfold Sat at lasting
        unfold Reader.settle
        cases ended : turn fault reader with
        | ok _ last =>
          rw [ended] at lasting
          exact lasting
        | error failure last =>
          rw [ended] at lasting
          exact ⟨lasting.ends, lasting.silenced⟩
      cases silenced : (reader.step (.turn fault)).silenced with
      | false => rfl
      | true =>
        rcases after.silenced silenced with early | ended
        · rw [before] at early
          cases early
        · rw [live] at ended
          cases ended
    | readReady ready =>
      simp only [Reader.step]
      split <;> exact before
    | drainRaises failure =>
      simp only [Reader.step]
      split <;> exact before
    | cancel =>
      simp only [Reader.step]
      split <;> exact before
    | _ => exact before

/-! After a peer error -/

/-- The reader gives no packet to the engine any more: it has ended, or its lot met an error. -/
def Reader.Done (reader : Reader) : Prop :=
  match reader.stage with
  | .ended _ => True
  | .handing lot => lot.peerError.isSome = true
  | _ => False

theorem Reader.Done.turned (done : reader.Done) (fault : Option Failure) :
    (reader.step (.turn fault)).Done ∧ (reader.step (.turn fault)).handled = reader.handled := by
  refine settle_of_sat (?_ : Sat (turn fault) reader
    (fun _ after => after.Done ∧ after.handled = reader.handled) fun _ _ => False)
  have same := done
  unfold Reader.Done at done
  cases stage : reader.stage with
  | ended why =>
    simp only [turn, sat_bind, sat_get, stage, sat_pure]
    exact ⟨same, trivial⟩
  | handing lot =>
    rw [stage] at done
    obtain ⟨failure, met⟩ := Option.isSome_iff_exists.mp done
    simp only [turn, sat_bind, sat_get, stage, handedOver, met, Reader.goto, sat_modify]
    exact ⟨trivial, trivial⟩
  | _ =>
    rw [stage] at done
    exact done.elim

theorem Reader.Done.step (done : reader.Done) (event : Event) :
    (reader.step event).Done ∧ (reader.step event).handled = reader.handled := by
  cases event with
  | turn fault => exact done.turned fault
  | readReady ready =>
    simp only [Reader.step]
    split <;> exact ⟨done, rfl⟩
  | drainRaises failure =>
    simp only [Reader.step]
    split
    · exact ⟨trivial, rfl⟩
    · exact ⟨done, rfl⟩
  | cancel =>
    simp only [Reader.step]
    split
    · exact ⟨done, rfl⟩
    · exact ⟨trivial, rfl⟩
  | _ => exact ⟨done, rfl⟩

theorem Reader.Done.run (done : reader.Done) (events : List Event) :
    (reader.run events).Done ∧ (reader.run events).handled = reader.handled := by
  induction events using List.reverseRecOn with
  | nil => exact ⟨done, rfl⟩
  | append_singleton events event ih =>
    rw [Reader.run_concat]
    have next := ih.1.step event
    exact ⟨next.1, next.2.trans ih.2⟩

/-- Bytes came one by one while the reader did not run. -/
structure Flooded (limit count : Nat) (reader : Reader) : Prop extends Sound limit reader where
  stage : reader.stage = .waiting
  attached : reader.transport.protocol.attached = true
  alive : reader.transport.protocol.closing = false
  length : reader.unread.length = count
  engine : reader.engine = plainEngine
  heard : reader.silenced = false
  pressed : max 4 limit < count → highWater < count →
    reader.transport.protocol.pausedReading = true

/-- A connection that was just set up has nothing for its reader. -/
theorem InLoop.begun (used : List DecoderCall) (maxPacketSize : Nat) (engine : Engine) :
    let reader := Reader.connected used maxPacketSize engine
    InLoop reader.transport.decoder.maxPacketSize reader ∧ reader.unread = [] ∧
      reader.transport.protocol.received = reader.transport.seen := by
  obtain ⟨sound, empty⟩ := cleared_sound used maxPacketSize
  obtain ⟨kept, seen, waiter⟩ := attached_kept sound engine
  have start := attached_sound sound empty engine
  intro reader
  have nothing : reader.unread = [] := (congrArg IncrementalDecoder.pending kept.decoder).trans empty
  have limited : reader.transport.decoder.maxPacketSize = _ := start.limited
  refine ⟨⟨limited.symm ▸ start.toHeld, waiter, kept.attached, kept.closing, kept.eof,
    kept.exception, ?_⟩, nothing, kept.received.trans seen.symm⟩
  rw [nothing]
  rfl

theorem Flooded.start :
    Flooded 1000 0 ((Reader.connected [] 1000 plainEngine).step (.turn none)) := by
  obtain ⟨waits, nothing, quiet⟩ := InLoop.begun [] 1000 plainEngine
  have sleeps : Sat (turn none) (Reader.connected [] 1000 plainEngine)
      (fun _ after => Asleep after ∧ after.unread = [] ∧ after.engine = plainEngine)
      (fun _ _ => False) := by
    have created : (Reader.connected [] 1000 plainEngine).stage = .created := rfl
    simp only [turn, sat_bind, sat_get, created]
    exact (waits.sleeps quiet).mono
      (fun _ _ asleep => ⟨asleep.1, asleep.2.1.trans nothing, asleep.2.2⟩) fun _ _ raised => raised
  obtain ⟨asleep, empty, engine⟩ := settle_of_sat sleeps
  have begins := attached_sound (cleared_sound [] 1000).1 (cleared_sound [] 1000).2 plainEngine
  have sound : Sound 1000 ((Reader.connected [] 1000 plainEngine).step (.turn none)) :=
    begins.step (.turn none)
  exact ⟨sound, asleep.stage, asleep.attached, asleep.alive, congrArg List.length empty, engine,
    asleep.heard, fun _ above => absurd above (Nat.not_lt_zero _)⟩

theorem Flooded.step {count : Nat} (flooded : Flooded limit count reader) (octet : UInt8) :
    Flooded limit (count + 1) (reader.step (.readReady [octet])) := by
  have sound := flooded.toSound.step (.readReady [octet])
  have brings := (PushStreamTransport.readReady_sat flooded.decoder [octet]).and
    (PushStreamTransport.readReady_brings flooded.decoder flooded.attached [octet])
  unfold Sat at brings
  simp only [Reader.step] at sound ⊢
  cases read : PushStreamTransport.readReady [octet] reader.transport with
  | error failure transport =>
    rw [read] at brings
    exact brings.1.elim
  | ok arrived transport =>
    rw [read] at brings
    simp only [read] at sound
    obtain ⟨arrival, room, positive, filled⟩ := brings
    have brought : arrived = [octet] := filled.trans (List.take_of_length_le positive)
    have some : arrived ≠ [] := by simp [brought]
    have length : transport.decoder.pending.length = count + 1 := by
      rw [arrival.extended.pending, brought, List.length_append, ← flooded.length]
      rfl
    refine ⟨sound, flooded.stage, arrival.attached.trans flooded.attached,
      arrival.closing.trans flooded.alive, length, flooded.engine, flooded.heard, fun long full => ?_⟩
    cases paused : transport.protocol.pausedReading with
    | true => rfl
    | false =>
      rcases arrival.pressed some paused with below | nothing
      · have buffered := arrival.extended.sound.length_pending
        rw [length] at buffered
        unfold IncrementalDecoder.buffered at below
        omega
      · have limited : transport.decoder.maxPacketSize = limit :=
          arrival.extended.limit.trans flooded.limited
        have waiting : frame limit transport.decoder.pending = .waiting := by
          rw [Codec.Session.nextAnswer_eq arrival.extended.sound, limited] at nothing
          generalize frame limit transport.decoder.pending = verdict at nothing ⊢
          cases verdict with
          | waiting => rfl
          | _ => simp [Verdict.answer] at nothing
        have short := waiting_short waiting
        omega

theorem Flooded.run {count : Nat} (flooded : Flooded limit count reader) (octet : UInt8) (more : Nat) :
    Flooded limit (count + more) (reader.run (List.replicate more (.readReady [octet]))) := by
  induction more with
  | zero => exact flooded
  | succ more ih =>
    rw [List.replicate_succ', Reader.run_concat]
    exact ih.step octet

end Mqttium.Ingress
