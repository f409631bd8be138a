import Mqttium.Decoding.Sessions

/-! The reader's second way through a frame: look at its bounds first, consume it
later. Its header parser is not the one of `next_packet`. -/

namespace Mqttium.Codec

open Library Packets

namespace IncrementalDecoder

/-- The length field of the head frame, with its one- and two-byte forms read in place. -/
def peekLength (decoder : IncrementalDecoder) : Except Failure (Option (Nat × Nat)) :=
  let first := octet decoder.buffer (decoder.start + 1)
  let second := octet decoder.buffer (decoder.start + 2)
  if first < 128 then .ok (some (first, decoder.start + 2))
  else if 3 ≤ decoder.stop - decoder.start ∧ second < 128 then
    let remainingLength := (first &&& 127) ||| (second <<< 7)
    if remainingLength < 128 then
      .error (.malformedPacket "Non-canonical Variable Byte Integer")
    else .ok (some (remainingLength, decoder.start + 3))
  -- From here on the source repeats the statements of `next_packet`.
  else decoder.headLength

/-- Header byte, body start and frame end of the next complete frame. -/
def peekPacketBounds : DecoderM (Option (Nat × Nat × Nat)) := do
  let decoder ← get
  let available := decoder.stop - decoder.start
  if available < 2 then return none
  else
    let header := octet decoder.buffer decoder.start
    match ← fromExcept decoder.peekLength with
    | none => return none
    | some (remainingLength, lengthEnd) => do
      let fixedHeaderLength := lengthEnd - decoder.start
      let total := fixedHeaderLength + remainingLength
      raiseIf (decoder.maxPacketSize < total) (.packetTooLarge
        s!"Packet size {total} exceeds maximum {decoder.maxPacketSize}")
      if available < total then return none
      else return some (header, decoder.start + fixedHeaderLength, decoder.start + total)

/-- Whether the reader can make progress without more bytes. -/
def headFrameReady : DecoderM Bool :=
  tryCatch (do return (← peekPacketBounds).isSome) fun failure =>
    match failure with
    | .malformedPacket _ => pure true
    | .packetTooLarge _ => pure true
    | failure => throw failure

/-- Rewind a fully consumed slab. -/
def reset : DecoderM PUnit := do
  modify fun decoder => { decoder with start := 0, stop := 0 }
  let decoder ← get
  onlyIf (decoder.targetWindow < decoder.capacity) retireOversize

def consumePeekedPacket (bodyEnd : Nat) : DecoderM PUnit := do
  let decoder ← get
  raiseIf (¬ (decoder.start < bodyEnd ∧ bodyEnd ≤ decoder.stop)) .assertion
  onlyIf (largeFrame < bodyEnd - decoder.start)
    (modify fun decoder => { decoder with drainHadLargeFrame := true })
  modify fun decoder => { decoder with start := bodyEnd }
  onlyIf (bodyEnd = decoder.stop) reset

/-- The setter of `max_packet_size`. -/
def setMaxPacketSize (value : Nat) : DecoderM PUnit := do
  raiseIf (value < 1) (.value "max_packet_size too small")
  modify fun decoder => { decoder with maxPacketSize := value }

end IncrementalDecoder

open IncrementalDecoder

/-- The inlined forms read what `decode_vbi` reads. -/
theorem twoDigits (first second : Nat) : (first &&& 127) ||| (second <<< 7) =
    first % 128 + second * 128 := by
  have masked : first &&& 127 = first % 128 := Nat.and_two_pow_sub_one_eq_mod first 7
  have small : first % 128 < 2 ^ 7 := Nat.mod_lt _ (by decide)
  rw [masked, Nat.or_comm, ← Nat.shiftLeft_add_eq_or_of_lt small, Nat.shiftLeft_eq]
  omega

theorem peekLength_eq {decoder : IncrementalDecoder} (sound : decoder.Sound)
    (some : 2 ≤ decoder.stop - decoder.start) : decoder.peekLength = decoder.headLength := by
  have within : decoder.stop ≤ decoder.buffer.length := sound.sized ▸ sound.within
  unfold peekLength
  dsimp only
  split
  · rename_i short
    unfold octet at short
    unfold headLength decodeVbi
    simp only [Option.getD_some]
    rw [if_neg (by omega), if_pos short]
    rfl
  · rename_i long
    unfold octet at long
    split
    · rename_i two
      obtain ⟨three, last⟩ := two
      have lastDigit : (decoder.buffer.getD (decoder.start + 1 + 1) 0).toNat < 128 := last
      have read : decodeVbi decoder.buffer (decoder.start + 1) (.some decoder.stop) =
          (vbiLen (octet decoder.buffer (decoder.start + 1) % 128 +
            octet decoder.buffer (decoder.start + 2) * 128)).bind fun canonical =>
              if 2 ≠ canonical then .error (.malformedPacket "Non-canonical Variable Byte Integer")
              else .ok (octet decoder.buffer (decoder.start + 1) % 128 +
                octet decoder.buffer (decoder.start + 2) * 128, decoder.start + 3) := by
        unfold decodeVbi
        simp only [Option.getD_some]
        rw [if_neg (by omega), if_neg long, decodeVbiRest, if_neg (by omega), if_neg (by omega)]
        dsimp only
        rw [if_pos lastDigit, Nat.mod_eq_of_lt lastDigit]
        rfl
      have finished : decoder.lengthUnfinished = false := by
        unfold lengthUnfinished
        rw [slice_cons (by omega) within, slice_cons (by omega) within]
        simp only [List.all_cons, Bool.and_eq_false_iff, decide_eq_false_iff_not]
        exact Or.inr (Or.inl (Nat.not_le.mpr lastDigit))
      rw [twoDigits]
      unfold headLength
      rw [read]
      unfold vbiLen maxVbi
      by_cases short : octet decoder.buffer (decoder.start + 1) % 128 +
          octet decoder.buffer (decoder.start + 2) * 128 < 128
      · rw [if_pos short, if_neg (by omega), if_pos short]
        simp [Except.bind, finished]
      · have small : octet decoder.buffer (decoder.start + 1) % 128 +
            octet decoder.buffer (decoder.start + 2) * 128 < 16384 := by omega
        rw [if_neg short, if_neg (by omega), if_neg short, if_pos small]
        rfl
    · rfl

theorem consumePeekedPacket_eq {decoder : IncrementalDecoder} {total : Nat} (some : 0 < total)
    (arrived : total ≤ decoder.stop - decoder.start) :
    consumePeekedPacket (decoder.start + total) decoder =
      consume total (decoder.start + total) decoder := by
  have inside : decoder.start < decoder.start + total ∧ decoder.start + total ≤ decoder.stop := by
    omega
  have size : decoder.start + total - decoder.start = total := by omega
  have checked := not_not.mpr inside
  unfold consumePeekedPacket consume reset raiseIf onlyIf
  simp only [bind, EStateM.bind, get_eq_ok, if_neg checked, size]
  by_cases large : largeFrame < total
  · simp only [large, decide_true, Bool.or_true]
    by_cases drained : decoder.start + total = decoder.stop
    · simp only [if_pos drained]
      rfl
    · simp only [if_neg drained]
      rfl
  · simp only [large, decide_false, Bool.or_false]
    by_cases drained : decoder.start + total = decoder.stop
    · simp only [if_pos drained]
      rfl
    · simp only [if_neg drained]
      rfl

/-- What `peek_packet_bounds` says of the answer of `next_packet`. -/
inductive Foretells (decoder : IncrementalDecoder) :
    EStateM.Result Failure IncrementalDecoder (Option (Nat × Nat × Nat)) →
      EStateM.Result Failure IncrementalDecoder (Option RawPacket) → Prop where
  | waiting : Foretells decoder (.ok none decoder) (.ok none decoder)
  | packet {bodyStart bodyEnd packetType after}
      (typed : PacketType.fromByte (octet decoder.buffer decoder.start) = .ok packetType)
      (consumed : consumePeekedPacket bodyEnd decoder = .ok ⟨⟩ after) :
      Foretells decoder
        (.ok (some (octet decoder.buffer decoder.start, bodyStart, bodyEnd)) decoder)
        (.ok (some
          { packetType
            flags := octet decoder.buffer decoder.start % 16
            remaining := slice decoder.buffer bodyStart bodyEnd }) after)
  | untyped {bodyStart bodyEnd failure}
      (untyped : PacketType.fromByte (octet decoder.buffer decoder.start) = .error failure) :
      Foretells decoder
        (.ok (some (octet decoder.buffer decoder.start, bodyStart, bodyEnd)) decoder)
        (.error failure decoder)
  /-- Refused whatever the header byte says. -/
  | refused {failure error} (named : framingError failure = some error)
      (verdict : ∀ header, frame decoder.maxPacketSize
        (header :: slice decoder.buffer (decoder.start + 1) decoder.stop) = .refused error) :
      Foretells decoder (.error failure decoder) (.error failure decoder)

theorem foretells {decoder : IncrementalDecoder} (sound : decoder.Sound) :
    Foretells decoder (peekPacketBounds decoder) (nextPacket decoder) := by
  have within : decoder.stop ≤ decoder.buffer.length := sound.sized ▸ sound.within
  have length : (slice decoder.buffer (decoder.start + 1) decoder.stop).length =
    decoder.stop - (decoder.start + 1) := length_slice within
  have headed := headLength_headed sound
  unfold peekPacketBounds nextPacket
  simp only [bind, EStateM.bind, get_eq_ok]
  by_cases short : decoder.stop - decoder.start < 2
  · rw [if_pos short, if_pos short]
    exact .waiting
  · rw [if_neg short, if_neg short, peekLength_eq sound (by omega)]
    cases known : remainingLength 4 1 0 (slice decoder.buffer (decoder.start + 1) decoder.stop) with
    | unfinished =>
      rw [known, Headed] at headed
      rw [headed]
      exact .waiting
    | malformed =>
      rw [known] at headed
      obtain ⟨message, failed⟩ := headed
      rw [failed]
      exact .refused rfl fun header => frame_malformed _ header known
    | known value digits =>
      obtain ⟨least, most, _⟩ := remainingLength_known (by omega) known
      rw [known, Headed] at headed
      rw [headed]
      have total : decoder.start + 1 + digits - decoder.start = 1 + digits := by omega
      simp only [fromExcept, pure, EStateM.pure, EStateM.bind, raiseIf, total]
      by_cases large : decoder.maxPacketSize < 1 + digits + value
      · simp only [large, ↓reduceIte, throw_eq_error]
        exact .refused rfl fun header => frame_tooLarge header known large
      · simp only [large, ↓reduceIte]
        by_cases missing : decoder.stop - decoder.start < 1 + digits + value
        · simp only [missing, ↓reduceIte]
          exact .waiting
        · simp only [missing, ↓reduceIte]
          have arrived : 1 + digits + value ≤ decoder.stop - decoder.start := Nat.not_lt.mp missing
          have body : decoder.start + 1 + digits = decoder.start + (1 + digits) :=
            Nat.add_assoc decoder.start 1 digits
          rw [body]
          cases typed : PacketType.fromByte (decoder.buffer.getD decoder.start 0).toNat with
          | error failure => exact .untyped typed
          | ok packetType =>
            have sat := consume_sat sound arrived
            unfold Sat at sat
            simp only [EStateM.bind, EStateM.pure]
            cases ended : consume (1 + digits + value)
                (decoder.start + (1 + digits + value)) decoder with
            | error failure after => simp [ended] at sat
            | ok done after =>
              refine .packet typed ?_
              rw [consumePeekedPacket_eq (by omega) arrived, ended]

/-- A look at the next frame changes nothing. -/
theorem Foretells.unchanged {decoder : IncrementalDecoder} {peeked next}
    (told : Foretells decoder peeked next) :
    (∃ found, peeked = .ok found decoder) ∨ ∃ failure, peeked = .error failure decoder := by
  cases told with
  | waiting => exact Or.inl ⟨_, rfl⟩
  | packet typed consumed => exact Or.inl ⟨_, rfl⟩
  | untyped untyped => exact Or.inl ⟨_, rfl⟩
  | refused named verdict => exact Or.inr ⟨_, rfl⟩

theorem headFrameReady_eq {decoder : IncrementalDecoder} (sound : decoder.Sound) :
    headFrameReady decoder = .ok (nextAnswer decoder).isSome decoder := by
  have told := foretells sound
  unfold headFrameReady nextAnswer
  simp only [tryCatch, tryCatchThe, MonadExceptOf.tryCatch, EStateM.tryCatch, bind, EStateM.bind]
  generalize peekPacketBounds decoder = peeked at told
  generalize nextPacket decoder = next at told
  cases told with
  | waiting => rfl
  | packet typed consumed => rfl
  | untyped untyped => rfl
  | @refused failure error named verdict =>
    cases failure with
    | malformedPacket message => rfl
    | packetTooLarge message => rfl
    | _ => cases named

/-- What callers do with a decoder, in any order. A consumed frame may end anywhere. -/
inductive DecoderCall where
  | feed (data : Bytes)
  | receive (preferred : Int) (ready : Bytes)
  | nextPacket
  | peekPacketBounds
  | headFrameReady
  | consumePeekedPacket (bodyEnd : Nat)
  | clear
  | setMaxPacketSize (value : Nat)
  deriving DecidableEq, Repr

/-- The decoder a call leaves, whether or not it raises. -/
def left {Value : Type} : EStateM.Result Failure IncrementalDecoder Value → IncrementalDecoder
  | .ok _ after => after
  | .error _ after => after

def IncrementalDecoder.perform (decoder : IncrementalDecoder) : DecoderCall → IncrementalDecoder
  | .feed data => left (feed data decoder)
  | .receive preferred ready => left (receive preferred ready decoder)
  | .nextPacket => left (IncrementalDecoder.nextPacket decoder)
  | .peekPacketBounds => left (IncrementalDecoder.peekPacketBounds decoder)
  | .headFrameReady => left (IncrementalDecoder.headFrameReady decoder)
  | .consumePeekedPacket bodyEnd => left (IncrementalDecoder.consumePeekedPacket bodyEnd decoder)
  | .clear => left (IncrementalDecoder.clear decoder)
  | .setMaxPacketSize value => left (IncrementalDecoder.setMaxPacketSize value decoder)

theorem left_of_sat {Value : Type} {program : DecoderM Value} {decoder : IncrementalDecoder}
    {returned : Value → IncrementalDecoder → Prop} {raised : Failure → IncrementalDecoder → Prop}
    {good : IncrementalDecoder → Prop} (sat : Sat program decoder returned raised)
    (onReturn : ∀ value after, returned value after → good after)
    (onRaise : ∀ failure after, raised failure after → good after) :
    good (left (program decoder)) := by
  unfold Sat at sat
  cases ended : program decoder with
  | ok value after =>
    rw [ended] at sat
    exact onReturn value after sat
  | error failure after =>
    rw [ended] at sat
    exact onRaise failure after sat

theorem IncrementalDecoder.Sound.nextPacket {decoder : IncrementalDecoder} (sound : decoder.Sound) :
    (left (IncrementalDecoder.nextPacket decoder)).Sound := by
  refine left_of_sat (nextPacket_sat sound) ?_ ?_
  · intro answer after answered
    generalize frame decoder.maxPacketSize decoder.pending = verdict at answered
    cases answered with
    | waiting => exact sound
    | packet kept pending limit smaller => exact kept
  · intro failure after refused
    cases refused with
    | refused named verdict => exact sound

theorem IncrementalDecoder.Sound.consumePeekedPacket {decoder : IncrementalDecoder}
    (sound : decoder.Sound) (bodyEnd : Nat) : (left (IncrementalDecoder.consumePeekedPacket bodyEnd decoder)).Sound := by
  by_cases inside : decoder.start < bodyEnd ∧ bodyEnd ≤ decoder.stop
  · have arrived : bodyEnd - decoder.start ≤ decoder.stop - decoder.start := by omega
    have whole : decoder.start + (bodyEnd - decoder.start) = bodyEnd := by omega
    have same := consumePeekedPacket_eq (Nat.sub_pos_of_lt inside.1) arrived
    rw [whole] at same
    rw [same]
    have sat := consume_sat sound arrived
    rw [whole] at sat
    exact left_of_sat sat (fun _ _ kept => kept.1) (fun _ _ raised => raised.elim)
  · have refused : IncrementalDecoder.consumePeekedPacket bodyEnd decoder =
        .error .assertion decoder := by
      unfold IncrementalDecoder.consumePeekedPacket raiseIf
      simp only [bind, EStateM.bind, get_eq_ok, if_pos inside]
      rfl
    rw [refused]
    exact sound

theorem IncrementalDecoder.Sound.performed {decoder : IncrementalDecoder} (sound : decoder.Sound)
    (call : DecoderCall) : (decoder.perform call).Sound := by
  cases call with
  | feed data =>
    exact left_of_sat (feed_sat sound data) (fun _ _ fed => fed.1.sound)
      fun _ _ raised => raised.elim
  | receive preferred ready =>
    exact left_of_sat (receive_sat sound preferred ready) (fun _ _ fed => fed.1.sound)
      fun _ _ raised => raised.elim
  | nextPacket => exact sound.nextPacket
  | peekPacketBounds =>
    rcases (foretells sound).unchanged with ⟨found, peeked⟩ | ⟨failure, peeked⟩
    · rw [IncrementalDecoder.perform, peeked]
      exact sound
    · rw [IncrementalDecoder.perform, peeked]
      exact sound
  | headFrameReady =>
    rw [IncrementalDecoder.perform, headFrameReady_eq sound]
    exact sound
  | consumePeekedPacket bodyEnd => exact sound.consumePeekedPacket bodyEnd
  | clear =>
    exact left_of_sat (clear_sat sound) (fun _ _ cleared => cleared.1) fun _ _ raised => raised.elim
  | setMaxPacketSize value =>
    have sat : Sat (setMaxPacketSize value) decoder (fun _ after => after.Sound)
        (fun _ after => after.Sound) := by
      simp only [setMaxPacketSize, sat_bind, sat_raiseIf, sat_modify]
      exact ⟨fun _ => sound, fun _ => ⟨sound.ordered, sound.within, sound.sized, sound.wide⟩⟩
    exact left_of_sat sat (fun _ _ kept => kept) fun _ _ kept => kept

/-- In every state a decoder can get into, the look at the next frame foretells what
`next_packet` does, and the reader is ready exactly when `next_packet` has an answer. -/
theorem peek_foretells (limit : Nat) (calls : List DecoderCall) :
    let decoder := calls.foldl IncrementalDecoder.perform { maxPacketSize := limit }
    Foretells decoder (peekPacketBounds decoder) (nextPacket decoder) ∧
      headFrameReady decoder = .ok (nextAnswer decoder).isSome decoder := by
  have start : ({ maxPacketSize := limit } : IncrementalDecoder).Sound :=
    ⟨Nat.le_refl 0, Nat.le_refl 0, rfl, Nat.succ_pos _⟩
  have sound : (calls.foldl IncrementalDecoder.perform { maxPacketSize := limit }).Sound := by
    generalize ({ maxPacketSize := limit } : IncrementalDecoder) = decoder at start
    induction calls generalizing decoder with
    | nil => exact start
    | cons call rest ih => exact ih _ (start.performed call)
  exact ⟨foretells sound, headFrameReady_eq sound⟩

end Mqttium.Codec
