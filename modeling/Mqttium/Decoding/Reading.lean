import Mqttium.Decoding.Slab

/-! `next_packet` gives the verdict on the pending bytes: stale bytes behind the
write offset are never read. -/

namespace Mqttium.Codec

open Library Packets

/-- What `decode_vbi` reports for a length field that starts at `offset`. -/
def RemainingLength.Reported (offset : Nat) :
    RemainingLength → Except Failure (Nat × Nat) → Prop
  | .unfinished, reported => reported = .error incompleteVbi
  | .malformed, reported => ∃ message, reported = .error (.malformedPacket message)
  | .known value digits, reported => reported = .ok (value, offset + digits)

theorem vbiLen_ok {value : Nat} (small : value ≤ maxVbi) : ∃ count, vbiLen value = .ok count := by
  unfold vbiLen
  rw [if_neg (by omega)]
  split
  · exact ⟨_, rfl⟩
  · split
    · exact ⟨_, rfl⟩
    · split <;> exact ⟨_, rfl⟩

theorem decodeVbiRest_reported {buffer : Bytes} {stop offset read left value : Nat}
    (counted : read + left = 4) (within : stop ≤ buffer.length) (small : value < 128 ^ read) :
    (remainingLength left (128 ^ read) value (slice buffer (offset + read) stop)).Reported offset
      (decodeVbiRest buffer stop (left + 1) (offset + read) read (128 ^ read) value) := by
  induction left generalizing read value with
  | zero =>
    simp only [remainingLength, decodeVbiRest, RemainingLength.Reported]
    split
    · exact ⟨_, rfl⟩
    · rw [if_pos (by omega)]
      exact ⟨_, rfl⟩
  | succ left ih =>
    rw [decodeVbiRest]
    by_cases more : offset + read < stop
    · rw [if_neg (by omega), if_neg (by omega), slice_cons more within]
      have digit_lt : (buffer.getD (offset + read) 0).toNat % 128 ≤ 127 := by omega
      have product := Nat.mul_le_mul_right (128 ^ read) digit_lt
      have heavier : 128 ^ (read + 1) = 128 ^ read * 128 := Nat.pow_succ 128 read
      have digits : 4 - left = read + 1 := by omega
      simp only [remainingLength, digits]
      split
      · rename_i last
        have atMost : 128 ^ read ≤ 128 ^ 3 := Nat.pow_le_pow_right (by omega) (by omega)
        obtain ⟨count, canonical⟩ : ∃ count, vbiLen (value +
            (buffer.getD (offset + read) 0).toNat % 128 * 128 ^ read) = .ok count := by
          apply vbiLen_ok
          unfold maxVbi
          omega
        simp only [canonical, bind, Except.bind, Except.ok.injEq]
        by_cases shortest : count = read + 1
        · simp [shortest, RemainingLength.Reported, Nat.add_assoc]
        · rw [if_neg shortest, if_pos (by omega)]
          exact ⟨_, rfl⟩
      · rw [← heavier]
        exact ih (by omega) (by omega)
    · rw [if_pos (by omega)]
      have nothing : slice buffer (offset + read) stop = [] := by
        rw [← List.length_eq_zero_iff, length_slice within]
        omega
      simp [nothing, remainingLength, RemainingLength.Reported]

theorem decodeVbi_reported {buffer : Bytes} {offset stop : Nat} (within : stop ≤ buffer.length) :
    (remainingLength 4 1 0 (slice buffer offset stop)).Reported offset
      (decodeVbi buffer offset (some stop)) := by
  unfold decodeVbi
  simp only [Option.getD_some]
  by_cases more : offset < stop
  · rw [if_neg (by omega), slice_cons more within]
    simp only [remainingLength, Nat.mul_one, Nat.zero_add, Nat.one_mul]
    split
    · rename_i last
      have single : vbiLen (buffer.getD offset 0).toNat = .ok 1 := by
        unfold vbiLen maxVbi
        rw [if_neg (by omega), if_pos last]
      rw [Nat.mod_eq_of_lt last, if_pos single]
      rfl
    · exact @decodeVbiRest_reported buffer stop offset 1 3 _ rfl within (by omega)
  · rw [if_pos (by omega)]
    have nothing : slice buffer offset stop = [] := by
      rw [← List.length_eq_zero_iff, length_slice within]
      omega
    simp [nothing, remainingLength, RemainingLength.Reported]

/-- The class of an exception of `next_packet`. -/
def framingError : Failure → Option FramingError
  | .malformedPacket _ => some .malformedPacket
  | .packetTooLarge _ => some .packetTooLarge
  | _ => none

theorem fromByte_error {header : Nat} {failure : Failure}
    (untyped : PacketType.fromByte header = .error failure) :
    framingError failure = some .malformedPacket := by
  unfold PacketType.fromByte at untyped
  split at untyped
  all_goals cases untyped
  rfl

namespace IncrementalDecoder

/-- The head of the pending bytes. -/
theorem pending_cons {decoder : IncrementalDecoder} (sound : decoder.Sound)
    (some : decoder.start < decoder.stop) :
    decoder.pending = decoder.buffer.getD decoder.start 0 ::
      slice decoder.buffer (decoder.start + 1) decoder.stop :=
  slice_cons some (sound.sized ▸ sound.within)

/-- The length field of the head frame, as `next_packet` takes it. -/
def Headed (decoder : IncrementalDecoder) : RemainingLength → Prop
  | .unfinished => decoder.headLength = .ok none
  | .malformed => ∃ message, decoder.headLength = .error (.malformedPacket message)
  | .known value digits => decoder.headLength = .ok (some (value, decoder.start + 1 + digits))

theorem headLength_headed {decoder : IncrementalDecoder} (sound : decoder.Sound) :
    decoder.Headed
      (remainingLength 4 1 0 (slice decoder.buffer (decoder.start + 1) decoder.stop)) := by
  have within : decoder.stop ≤ decoder.buffer.length := sound.sized ▸ sound.within
  have length : (slice decoder.buffer (decoder.start + 1) decoder.stop).length =
    decoder.stop - (decoder.start + 1) := length_slice within
  have reported := @decodeVbi_reported decoder.buffer (decoder.start + 1) _ within
  cases found : remainingLength 4 1 0 (slice decoder.buffer (decoder.start + 1) decoder.stop) with
  | unfinished =>
    obtain ⟨short, continued⟩ := remainingLength_unfinished found
    rw [found] at reported
    simp only [RemainingLength.Reported, incompleteVbi] at reported
    simp only [Headed, headLength, reported, lengthUnfinished, continued, ↓reduceIte, ite_eq_right_iff,
      reduceCtorEq, imp_false]
    omega
  | malformed =>
    rw [found] at reported
    obtain ⟨message, reported⟩ := reported
    simp only [Headed, headLength, reported]
    rcases remainingLength_malformed found with long | stopped
    · rw [if_pos (by omega)]
      exact ⟨_, rfl⟩
    · simp only [lengthUnfinished, stopped, Bool.false_eq_true, ↓reduceIte, ite_self]
      exact ⟨_, rfl⟩
  | known value digits =>
    rw [found] at reported
    simp only [RemainingLength.Reported] at reported
    simp only [Headed, headLength, reported]

/-- What `next_packet` answered, and the decoder it leaves. -/
inductive Answered (before : IncrementalDecoder) :
    Verdict UInt8 RawPacket FramingError → Option RawPacket → IncrementalDecoder → Prop where
  | waiting : Answered before .waiting none before
  | packet {packet rest after} (sound : after.Sound) (pending : after.pending = rest)
      (limit : after.maxPacketSize = before.maxPacketSize)
      (smaller : after.capacity ≤ before.capacity) :
      Answered before (.packet packet rest) (some packet) after

/-- `next_packet` raised and left the decoder as it was. -/
inductive Refused (before : IncrementalDecoder) : Failure → IncrementalDecoder → Prop where
  | refused {failure error} (named : framingError failure = some error)
      (verdict : frame before.maxPacketSize before.pending = .refused error) :
      Refused before failure before

theorem nextPacket_sat {decoder : IncrementalDecoder} (sound : decoder.Sound) :
    Sat nextPacket decoder
      (Answered decoder (frame decoder.maxPacketSize decoder.pending)) (Refused decoder) := by
  have length := sound.length_pending
  have ordered := sound.ordered
  have headed := headLength_headed sound
  simp only [nextPacket, sat_bind, sat_get]
  by_cases empty : decoder.stop ≤ decoder.start
  · have nothing : decoder.pending = [] := List.length_eq_zero_iff.mp (by omega)
    rw [if_pos (by omega), nothing]
    exact .waiting
  · have headedBy := pending_cons sound (by omega)
    rw [headedBy] at length ⊢
    simp only [List.length_cons] at length
    split
    · have none : slice decoder.buffer (decoder.start + 1) decoder.stop = [] :=
        List.length_eq_zero_iff.mp (by omega)
      rw [none, frame_unfinished _ _ rfl]
      exact .waiting
    · simp only [sat_bind]
      cases head decoder.maxPacketSize (decoder.buffer.getD decoder.start 0 ::
        slice decoder.buffer (decoder.start + 1) decoder.stop) with
      | unfinished known =>
        rw [known, Headed] at headed
        rw [headed, sat_fromExcept_ok, frame_unfinished _ _ known]
        exact .waiting
      | malformed known =>
        rw [known] at headed
        obtain ⟨message, failed⟩ := headed
        rw [failed, sat_fromExcept_error]
        exact .refused rfl (headedBy ▸ frame_malformed _ _ known)
      | @tooLarge _ _ value count known large =>
        rw [known, Headed] at headed
        have total : decoder.start + 1 + count - decoder.start + value = 1 + count + value := by omega
        rw [headed, sat_fromExcept_ok]
        simp only [sat_bind, sat_raiseIf, total]
        refine ⟨fun _ => .refused rfl ?_, fun small => absurd large small⟩
        exact headedBy ▸ frame_tooLarge _ known large
      | @missing _ _ value count known allowed missing =>
        rw [known, Headed] at headed
        have total : decoder.start + 1 + count - decoder.start + value = 1 + count + value := by omega
        rw [headed, sat_fromExcept_ok]
        simp only [sat_bind, sat_raiseIf, total]
        refine ⟨fun large => by omega, fun _ => ?_⟩
        rw [if_pos (by omega), frame_missing _ known allowed missing]
        exact .waiting
      | @complete _ _ value count complete =>
        have allowed := complete.allowed
        have arrived := complete.arrived
        rw [complete.known, Headed] at headed
        have total : decoder.start + 1 + count - decoder.start + value = 1 + count + value := by omega
        rw [headed, sat_fromExcept_ok, complete.frame_eq]
        simp only [sat_bind, sat_raiseIf, total]
        refine ⟨fun large => by omega, fun _ => ?_⟩
        rw [if_neg (by omega), sat_bind]
        cases typed : PacketType.fromByte (decoder.buffer.getD decoder.start 0).toNat with
        | error failure =>
          rw [sat_fromExcept_error]
          refine .refused (fromByte_error typed) ?_
          rw [headedBy, complete.frame_eq, typed]
        | ok packetType =>
          rw [sat_fromExcept_ok, sat_bind]
          refine (consume_sat sound (by omega)).mono ?_ (fun _ _ raised => raised.elim)
          rintro _ after ⟨kept, pending, limit, smaller⟩
          have bodyEnd : decoder.start + (1 + count + value) =
            decoder.start + 1 + count + value := by omega
          rw [sat_pure, slice_drop, slice_take (by omega), slice_drop, bodyEnd]
          refine .packet kept ?_ limit smaller
          rw [pending, headedBy, Nat.add_assoc 1, Nat.add_comm 1, List.drop_succ_cons, slice_drop]

end IncrementalDecoder

end Mqttium.Codec
