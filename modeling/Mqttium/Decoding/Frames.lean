import Mqttium.Library.Framing
import Mqttium.Codec.Buffer

/-! What the bytes at the head of a stream say, whatever slab holds them. -/

namespace Mqttium.Codec

open Library Packets

/-- The classes of the errors `next_packet` raises. -/
inductive FramingError where
  | malformedPacket
  | packetTooLarge
  deriving DecidableEq, Repr

/-- The fixed header's length field, read as far as it has arrived. -/
inductive RemainingLength where
  | unfinished
  | malformed
  | known (value digits : Nat)
  deriving DecidableEq, Repr

/-- Read up to `left` more digits of weight `weight` and up. -/
def remainingLength : Nat → Nat → Nat → Bytes → RemainingLength
  | 0, _, _, _ => .malformed
  | _ + 1, _, _, [] => .unfinished
  | left + 1, weight, value, digit :: rest =>
    let total := value + digit.toNat % 128 * weight
    if digit.toNat < 128 then
      if vbiLen total = .ok (4 - left) then .known total (4 - left) else .malformed
    else remainingLength left (weight * 128) total rest

/-- The verdict on the first frame of `bytes`. -/
def frame (limit : Nat) (bytes : Bytes) : Verdict UInt8 RawPacket FramingError :=
  match bytes with
  | [] => .waiting
  | header :: digits =>
    match remainingLength 4 1 0 digits with
    | .unfinished => .waiting
    | .malformed => .refused .malformedPacket
    | .known value count =>
      if limit < 1 + count + value then .refused .packetTooLarge
      else if (header :: digits).length < 1 + count + value then .waiting
      else match PacketType.fromByte header.toNat with
        | .error _ => .refused .malformedPacket
        | .ok packetType =>
          .packet
            { packetType, flags := header.toNat % 16,
              remaining := (digits.drop count).take value }
            (digits.drop (count + value))

theorem remainingLength_append {left weight value : Nat} {digits : Bytes} (more : Bytes)
    (finished : remainingLength left weight value digits ≠ .unfinished) :
    remainingLength left weight value (digits ++ more) =
      remainingLength left weight value digits := by
  induction left generalizing weight value digits with
  | zero => rfl
  | succ left ih =>
    cases digits with
    | nil => simp [remainingLength] at finished
    | cons digit rest =>
      simp only [remainingLength, List.cons_append] at finished ⊢
      split
      · rfl
      · rename_i more
        rw [if_neg more] at finished
        exact ih finished

/-- The digits counted lie in the bytes read. -/
theorem remainingLength_known {left weight value total count : Nat} {digits : Bytes}
    (bounded : left ≤ 4) (known : remainingLength left weight value digits = .known total count) :
    4 < left + count ∧ left + count ≤ digits.length + 4 ∧ count ≤ 4 := by
  induction left generalizing weight value digits with
  | zero => cases known
  | succ left ih =>
    cases digits with
    | nil => cases known
    | cons digit rest =>
      simp only [remainingLength] at known
      split at known
      · split at known
        · cases known
          simp only [List.length_cons]
          omega
        · cases known
      · obtain ⟨least, most, few⟩ := ih (by omega) known
        simp only [List.length_cons]
        omega

/-- A length field is unfinished when every digit so far asks for another one. -/
theorem remainingLength_unfinished {left weight value : Nat} {digits : Bytes}
    (unfinished : remainingLength left weight value digits = .unfinished) :
    digits.length < left ∧ (digits.all fun digit => 128 ≤ digit.toNat) = true := by
  induction left generalizing weight value digits with
  | zero => cases unfinished
  | succ left ih =>
    cases digits with
    | nil => simp
    | cons digit rest =>
      simp only [remainingLength] at unfinished
      split at unfinished
      · split at unfinished <;> cases unfinished
      · rename_i continued
        obtain ⟨short, continuing⟩ := ih unfinished
        simp only [List.length_cons, List.all_cons, continuing, Bool.and_true, decide_eq_true_eq]
        omega

/-- A length field is malformed when it is too long or ends on a useless digit. -/
theorem remainingLength_malformed {left weight value : Nat} {digits : Bytes}
    (malformed : remainingLength left weight value digits = .malformed) :
    left ≤ digits.length ∨ (digits.all fun digit => 128 ≤ digit.toNat) = false := by
  induction left generalizing weight value digits with
  | zero => simp
  | succ left ih =>
    cases digits with
    | nil => cases malformed
    | cons digit rest =>
      simp only [remainingLength] at malformed
      split at malformed
      · rename_i last
        right
        simp only [List.all_cons, Bool.and_eq_false_iff, decide_eq_false_iff_not]
        omega
      · rcases ih malformed with long | stopped
        · left
          simpa using long
        · right
          simp [stopped]

theorem byte_toNat (digit : UInt8) : byte digit.toNat = digit := by
  simp [byte]

/-- The shortest encoding of a value. -/
theorem vbiLen_eq {value count : Nat} (canonical : vbiLen value = .ok count) (long : 1 < count) :
    128 ^ (count - 1) ≤ value := by
  unfold vbiLen at canonical
  repeat' split at canonical
  all_goals cases canonical
  all_goals omega

/-- The digits of a length field are the encoding of its value. -/
theorem remainingLength_digits {left value total count : Nat} {digits : Bytes}
    (bounded : left ≤ 4) (small : value < 128 ^ (4 - left))
    (known : remainingLength left (128 ^ (4 - left)) value digits = .known total count) :
    ∃ quotient, total = value + quotient * 128 ^ (4 - left) ∧
      digits.take (left + count - 4) = vbiDigits left quotient ∧ (left < 4 → quotient ≠ 0) := by
  induction left generalizing value digits with
  | zero => cases known
  | succ left ih =>
    have heavier : 128 ^ (4 - (left + 1)) * 128 = 128 ^ (4 - left) := by
      rw [← pow_succ]
      congr 1
      omega
    cases digits with
    | nil => cases known
    | cons digit rest =>
      simp only [remainingLength] at known
      split at known
      · rename_i last
        split at known
        · rename_i canonical
          cases known
          refine ⟨digit.toNat % 128, rfl, ?_, ?_⟩
          · have single : left + 1 + (4 - left) - 4 = 1 := by omega
            rw [single, vbiDigits, if_pos (by omega), Nat.mod_mod, Nat.mod_eq_of_lt last, byte_toNat]
            rfl
          · intro short useless
            rw [useless] at canonical
            have least := vbiLen_eq canonical (by omega)
            have same : 4 - left - 1 = 4 - (left + 1) := by omega
            rw [same] at least
            omega
        · cases known
      · rename_i continued
        have ⟨_, _, _⟩ := remainingLength_known (by omega) known
        rw [heavier] at known
        have small' : value + digit.toNat % 128 * 128 ^ (4 - (left + 1)) < 128 ^ (4 - left) := by
          have digit_le : digit.toNat % 128 ≤ 127 := by omega
          have product := Nat.mul_le_mul_right (128 ^ (4 - (left + 1))) digit_le
          omega
        obtain ⟨quotient, total_eq, taken, nonzero⟩ := ih (by omega) small' known
        have positive := nonzero (by omega)
        refine ⟨digit.toNat % 128 + quotient * 128, ?_, ?_, ?_⟩
        · rw [total_eq, ← heavier, Nat.add_mul, Nat.mul_assoc quotient, Nat.mul_comm 128,
            Nat.add_assoc]
        · have more : left + 1 + count - 4 = (left + count - 4) + 1 := by omega
          rw [more, List.take_succ_cons, taken, vbiDigits, if_neg (by omega)]
          congr 1
          · have := digit.toNat_lt
            have : (digit.toNat % 128 + quotient * 128) % 128 + 128 = digit.toNat := by omega
            rw [this, byte_toNat]
          · congr 1
            omega
        · omega

theorem remainingLength_canonical {left weight value total count : Nat} {digits : Bytes}
    (known : remainingLength left weight value digits = .known total count) :
    vbiLen total = .ok count := by
  induction left generalizing weight value digits with
  | zero => cases known
  | succ left ih =>
    cases digits with
    | nil => cases known
    | cons digit rest =>
      simp only [remainingLength] at known
      split at known
      · split at known
        · rename_i canonical
          cases known
          exact canonical
        · cases known
      · exact ih known

theorem vbiLen_le {value count : Nat} (canonical : vbiLen value = .ok count) : value ≤ maxVbi := by
  unfold vbiLen at canonical
  split at canonical
  · cases canonical
  · omega

/-- The frame `header :: digits` starts with fits the limit and has arrived. -/
structure Complete (limit : Nat) (digits : Bytes) (value count : Nat) : Prop where
  known : remainingLength 4 1 0 digits = .known value count
  allowed : 1 + count + value ≤ limit
  arrived : count + value ≤ digits.length

theorem Complete.append {limit value count : Nat} {digits : Bytes}
    (complete : Complete limit digits value count) (more : Bytes) :
    Complete limit (digits ++ more) value count where
  known := by
    rw [remainingLength_append more (by simp [complete.known])]
    exact complete.known
  allowed := complete.allowed
  arrived := by
    have := complete.arrived
    simp only [List.length_append]
    omega

theorem Complete.frame_eq {limit value count : Nat} {header : UInt8} {digits : Bytes}
    (complete : Complete limit digits value count) :
    frame limit (header :: digits) =
      match PacketType.fromByte header.toNat with
      | .error _ => .refused .malformedPacket
      | .ok packetType =>
        .packet
          { packetType, flags := header.toNat % 16,
            remaining := (digits.drop count).take value }
          (digits.drop (count + value)) := by
  have allowed := complete.allowed
  have arrived := complete.arrived
  have here : ¬ (header :: digits).length < 1 + count + value := by
    simp only [List.length_cons]
    omega
  simp only [frame, complete.known]
  rw [if_neg (by omega), if_neg here]

theorem frame_unfinished (limit : Nat) (header : UInt8) {digits : Bytes}
    (known : remainingLength 4 1 0 digits = .unfinished) :
    frame limit (header :: digits) = .waiting := by
  simp [frame, known]

theorem frame_malformed (limit : Nat) (header : UInt8) {digits : Bytes}
    (known : remainingLength 4 1 0 digits = .malformed) :
    frame limit (header :: digits) = .refused .malformedPacket := by
  simp [frame, known]

theorem frame_tooLarge {limit value count : Nat} (header : UInt8) {digits : Bytes}
    (known : remainingLength 4 1 0 digits = .known value count)
    (large : limit < 1 + count + value) :
    frame limit (header :: digits) = .refused .packetTooLarge := by
  simp only [frame, known]
  rw [if_pos large]

theorem frame_missing {limit value count : Nat} (header : UInt8) {digits : Bytes}
    (known : remainingLength 4 1 0 digits = .known value count)
    (allowed : 1 + count + value ≤ limit) (missing : digits.length < count + value) :
    frame limit (header :: digits) = .waiting := by
  have short : (header :: digits).length < 1 + count + value := by
    simp only [List.length_cons]
    omega
  simp only [frame, known]
  rw [if_neg (by omega), if_pos short]

/-- What the head of the stream can be. -/
inductive Head (limit : Nat) : Bytes → Prop where
  | empty : Head limit []
  | unfinished {header digits} (known : remainingLength 4 1 0 digits = .unfinished) :
      Head limit (header :: digits)
  | malformed {header digits} (known : remainingLength 4 1 0 digits = .malformed) :
      Head limit (header :: digits)
  | tooLarge {header digits value count} (known : remainingLength 4 1 0 digits = .known value count)
      (large : limit < 1 + count + value) : Head limit (header :: digits)
  | missing {header digits value count} (known : remainingLength 4 1 0 digits = .known value count)
      (allowed : 1 + count + value ≤ limit) (missing : digits.length < count + value) :
      Head limit (header :: digits)
  | complete {header digits value count} (complete : Complete limit digits value count) :
      Head limit (header :: digits)

theorem head (limit : Nat) (bytes : Bytes) : Head limit bytes := by
  cases bytes with
  | nil => exact .empty
  | cons header digits =>
    cases known : remainingLength 4 1 0 digits with
    | unfinished => exact .unfinished known
    | malformed => exact .malformed known
    | known value count =>
      by_cases large : limit < 1 + count + value
      · exact .tooLarge known large
      · by_cases arrived : count + value ≤ digits.length
        · exact .complete ⟨known, by omega, arrived⟩
        · exact .missing known (by omega) (by omega)

theorem frame_packet_append {limit : Nat} {bytes rest : Bytes} {packet : RawPacket} (more : Bytes)
    (framed : frame limit bytes = .packet packet rest) :
    frame limit (bytes ++ more) = .packet packet (rest ++ more) := by
  cases head limit bytes with
  | empty => cases framed
  | unfinished known => simp [frame_unfinished limit _ known] at framed
  | missing known allowed missing => simp [frame_missing _ known allowed missing] at framed
  | malformed known => simp [frame_malformed limit _ known] at framed
  | tooLarge known large => simp [frame_tooLarge _ known large] at framed
  | @complete header digits value count complete =>
    have arrived := complete.arrived
    rw [complete.frame_eq] at framed
    rw [List.cons_append, (complete.append more).frame_eq]
    cases typed : PacketType.fromByte header.toNat with
    | error failure => simp [typed] at framed
    | ok packetType =>
      simp only [typed, Verdict.packet.injEq] at framed ⊢
      rw [← framed.1, ← framed.2, List.drop_append_of_le_length arrived,
        List.drop_append_of_le_length (by omega), List.take_append_of_le_length]
      · exact ⟨rfl, rfl⟩
      · simp only [List.length_drop]
        omega

theorem frame_refused_append {limit : Nat} {bytes : Bytes} {error : FramingError} (more : Bytes)
    (framed : frame limit bytes = .refused error) :
    frame limit (bytes ++ more) = .refused error := by
  cases head limit bytes with
  | empty => cases framed
  | unfinished known => simp [frame_unfinished limit _ known] at framed
  | missing known allowed missing => simp [frame_missing _ known allowed missing] at framed
  | @malformed header digits known =>
    rw [← framed, frame_malformed limit header known, List.cons_append]
    refine frame_malformed limit header ?_
    rw [remainingLength_append more (by simp [known]), known]
  | @tooLarge header digits value count known large =>
    rw [← framed, frame_tooLarge header known large, List.cons_append]
    refine frame_tooLarge header ?_ large
    rw [remainingLength_append more (by simp [known]), known]
  | @complete header digits value count complete =>
    rw [complete.frame_eq] at framed
    rw [List.cons_append, (complete.append more).frame_eq]
    cases typed : PacketType.fromByte header.toNat with
    | error failure => simpa [typed] using framed
    | ok packetType => simp [typed] at framed

theorem fromByte_code {header : Nat} {packetType : PacketType}
    (typed : PacketType.fromByte header = .ok packetType) :
    packetType.code = header / 16 * 16 := by
  unfold PacketType.fromByte at typed
  split at typed
  all_goals cases typed
  all_goals simp_all [PacketType.code]

/-- A packet is read off the bytes that encode it. -/
theorem frame_encodes {limit : Nat} {bytes rest : Bytes} {packet : RawPacket}
    (framed : frame limit bytes = .packet packet rest) :
    ∃ encoded, encodeFrame packet.packetType packet.flags packet.remaining = .ok encoded ∧
      bytes = encoded ++ rest := by
  cases head limit bytes with
  | empty => cases framed
  | unfinished known => simp [frame_unfinished limit _ known] at framed
  | missing known allowed missing => simp [frame_missing _ known allowed missing] at framed
  | malformed known => simp [frame_malformed limit _ known] at framed
  | tooLarge known large => simp [frame_tooLarge _ known large] at framed
  | @complete header digits value count complete =>
    have arrived := complete.arrived
    have ⟨least, _, few⟩ := remainingLength_known (by omega) complete.known
    obtain ⟨quotient, value_eq, taken, _⟩ :=
      remainingLength_digits (Nat.le_refl 4) (by simp) complete.known
    have small := vbiLen_le (remainingLength_canonical complete.known)
    simp only [Nat.sub_self, pow_zero, Nat.mul_one, Nat.zero_add] at value_eq
    subst value_eq
    rw [complete.frame_eq] at framed
    cases typed : PacketType.fromByte header.toNat with
    | error failure => simp [typed] at framed
    | ok packetType =>
      simp only [typed, Verdict.packet.injEq] at framed
      obtain ⟨rfl, rfl⟩ := framed
      have whole : ((digits.drop count).take value).length = value := by
        simp only [List.length_take, List.length_drop]
        omega
      refine ⟨header :: (digits.take count ++ (digits.drop count).take value), ?_, ?_⟩
      · have headed : byte (packetType.code + header.toNat % 16) = header := by
          rw [fromByte_code typed, Nat.div_add_mod', byte_toNat]
        have counted : 4 + count - 4 = count := by omega
        rw [counted] at taken
        simp only [encodeFrame, appendVbi, encodeVbi, whole, headed, taken]
        rw [if_neg (by omega), if_neg (by omega)]
        rfl
      · rw [List.cons_append, List.append_assoc, ← List.drop_drop, List.take_append_drop,
          List.take_append_drop]

/-- What has been decided about a frame stays decided. -/
def framing (limit : Nat) : Framer UInt8 RawPacket FramingError where
  frame := frame limit
  packet_append := frame_packet_append
  refused_append := frame_refused_append

end Mqttium.Codec
