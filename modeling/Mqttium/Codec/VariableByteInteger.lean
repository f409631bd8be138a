import Mathlib.Data.Nat.Bitwise
import Mqttium.Decoding.Reencoding
import Mqttium.Library.Numerals

/-! Variable byte integers for every integer argument: numbers below zero, offsets counted
from the back of a buffer and bounds past its end are answered too. Within a buffer the
decoder is the one the packet codecs are built of. -/

namespace Mqttium.Codec.Vbi

open Library

/-- What the functions raise; `index` is a subscript past the bytes of the buffer. -/
inductive Raised where
  | failure (failure : Failure)
  | index
  deriving DecidableEq, Repr

def outOfRange (value : Int) : Raised := .failure (.value s!"VBI out of range: {value}")

def malformed (message : String) : Raised := .failure (.malformedPacket message)

def incomplete : Raised := malformed "Incomplete Variable Byte Integer"

/-- `buffer[position]`: a position below zero counts from the back. -/
def subscript (buffer : Bytes) (position : Int) : Except Raised Nat :=
  let index := if position < 0 then position + buffer.length else position
  if index < 0 then .error .index
  else match buffer[index.toNat]? with
    | some octet => .ok octet.toNat
    | none => .error .index

/-- Precomputed single-byte VBIs. -/
def vbiOne : List Bytes := (List.range 128).map fun value => [byte value]

/-- The digit loop of `encode_vbi` and of `append_vbi`, which append to what is there. -/
def writeDigits (out : Bytes) (value : Nat) : Bytes :=
  let digit := value % 128
  if 0 < value / 128 then writeDigits (out ++ [byte (digit ||| 0x80)]) (value / 128)
  else out ++ [byte digit]
termination_by value
decreasing_by omega

def encodeVbi (value : Int) : Except Raised Bytes :=
  if value < 128 then
    if value < 0 then .error (outOfRange value)
    else .ok (vbiOne.getD value.toNat [])
  else if maxVbi < value then .error (outOfRange value)
  else .ok (writeDigits [] value.toNat)

def appendVbi (buffer : Bytes) (value : Int) : Except Raised Bytes :=
  if ¬ (0 ≤ value ∧ value ≤ maxVbi) then .error (outOfRange value)
  else .ok (writeDigits buffer value.toNat)

def vbiLen (value : Int) : Except Raised Nat :=
  if ¬ (0 ≤ value ∧ value ≤ maxVbi) then .error (outOfRange value)
  else if value < 128 then .ok 1
  else if value < 16384 then .ok 2
  else if value < 2097152 then .ok 3
  else .ok 4

/-- The continuation loop of `decode_vbi`. -/
def decodeDigits (buffer : Bytes) (length position : Int)
    (encodedBytes multiplier value : Nat) : Except Raised (Nat × Int) :=
  if length ≤ position then .error incomplete
  else if _ : 4 < encodedBytes + 1 then
    .error (malformed "Malformed Variable Byte Integer (too long)")
  else do
    let octet ← subscript buffer position
    let total := value + (octet &&& 0x7F) * multiplier
    if octet &&& 0x80 = 0 then
      let canonical ← vbiLen total
      if encodedBytes + 1 ≠ canonical then
        .error (malformed "Non-canonical Variable Byte Integer")
      else .ok (total, position + 1)
    else decodeDigits buffer length (position + 1) (encodedBytes + 1) (multiplier * 128) total
termination_by 5 - encodedBytes

/-- The bound of a decode: the end it is given, or the length of the buffer. -/
def bound (buffer : Bytes) (end? : Option Int) : Int := end?.getD buffer.length

def decodeVbi (buffer : Bytes) (offset : Int) (end? : Option Int) : Except Raised (Nat × Int) := do
  let length := bound buffer end?
  if length ≤ offset then .error incomplete
  else
    let first ← subscript buffer offset
    if first < 128 then .ok (first, offset + 1)
    else decodeDigits buffer length (offset + 1) 1 128 (first &&& 0x7F)

variable {buffer other data rest : Bytes} {position length start next : Int}
  {digit : UInt8} {value count total : Nat}

/-! The bits of an octet -/

theorem low_bits (octet : Nat) : octet &&& 0x7F = octet % 128 :=
  Nat.and_two_pow_sub_one_eq_mod octet 7

theorem top_bit_clear {octet : Nat} (fits : octet < 256) : octet &&& 0x80 = 0 ↔ octet < 128 := by
  have bits : octet &&& 0x80 = (octet.testBit 7).toNat * 2 ^ 7 := Nat.and_two_pow octet 7
  rw [bits, Nat.testBit_eq_decide_div_mod_eq]
  by_cases low : octet < 128
  · have clear : decide (octet / 2 ^ 7 % 2 = 1) = false := decide_eq_false (by omega)
    simp only [clear, low, Bool.toNat_false, Nat.zero_mul]
  · have raised : decide (octet / 2 ^ 7 % 2 = 1) = true := decide_eq_true (by omega)
    rw [raised]
    simp [low]

theorem set_top_bit (value : Nat) : value % 128 ||| 0x80 = value % 128 + 128 := by
  rw [Nat.or_comm, ← Nat.two_pow_add_eq_or_of_lt (i := 7) (Nat.mod_lt _ (by decide)) 1]
  omega

/-! Writing -/

theorem writeDigits_eq (out : Bytes) (value : Nat) :
    writeDigits out value = out ++ digits value := by
  induction out, value using writeDigits.induct with
  | case1 out value digit large ih =>
    have more : digits value = byte (value % 128 + 128) :: digits (value / 128) :=
      digits_large (by omega)
    rw [writeDigits, if_pos large, ih, more, set_top_bit, List.append_assoc]
    rfl
  | case2 out value small =>
    rw [writeDigits, if_neg small, digits_small (by omega), Nat.mod_eq_of_lt (by omega)]
    rfl

theorem vbiOne_getD (small : value < 128) : vbiOne.getD value [] = digits value := by
  rw [digits_small small]
  simp [vbiOne, small, byte]

/-- Within the range the three functions speak of one encoding, the digits of the number. -/
theorem encodeVbi_eq {value : Int} (positive : 0 ≤ value) (small : value ≤ maxVbi) :
    encodeVbi value = .ok (digits value.toNat) := by
  unfold encodeVbi
  by_cases one : value < 128
  · rw [if_pos one, if_neg (by omega), vbiOne_getD (by omega)]
  · rw [if_neg one, if_neg (by omega), writeDigits_eq, List.nil_append]

theorem appendVbi_eq {value : Int} (positive : 0 ≤ value) (small : value ≤ maxVbi) :
    appendVbi buffer value = .ok (buffer ++ digits value.toNat) := by
  rw [appendVbi, if_neg (not_not.mpr ⟨positive, small⟩), writeDigits_eq]

theorem vbiLen_eq (value : Int) (positive : 0 ≤ value) (small : value ≤ maxVbi) :
    vbiLen value = .ok (digits value.toNat).length := by
  have some : 0 < (digits value.toNat).length :=
    List.length_pos_of_ne_nil (continued_digits _).ne_nil
  have one := length_digits_le_iff value.toNat 0
  have two := length_digits_le_iff value.toNat 1
  have three := length_digits_le_iff value.toNat 2
  have four := length_digits_le_iff value.toNat 3
  simp only [maxVbi] at small
  rw [vbiLen, if_neg (not_not.mpr ⟨positive, by simpa [maxVbi] using small⟩)]
  norm_num at one two three four
  split
  · congr 1
    omega
  · split
    · congr 1
      omega
    · split
      · congr 1
        omega
      · congr 1
        omega

theorem refused (buffer : Bytes) {value : Int} (out : ¬ (0 ≤ value ∧ value ≤ maxVbi)) :
    encodeVbi value = .error (outOfRange value) ∧
      appendVbi buffer value = .error (outOfRange value) ∧
      vbiLen value = .error (outOfRange value) := by
  refine ⟨?_, if_pos out, if_pos out⟩
  unfold encodeVbi
  by_cases negative : value < 0
  · rw [if_pos (by omega), if_pos negative]
  · have large : (maxVbi : Int) < value := by omega
    simp only [maxVbi] at large
    rw [if_neg (by omega), if_pos (by simpa [maxVbi] using large)]

/-! Reading -/

/-- The subscripts from `position` on read the bytes of `data`. -/
def StandsAt (buffer : Bytes) : Int → Bytes → Prop
  | _, [] => True
  | position, digit :: rest =>
    subscript buffer position = .ok digit.toNat ∧ StandsAt buffer (position + 1) rest

/-- A subscript reads an octet or raises `IndexError`. -/
theorem subscript_cases (buffer : Bytes) (position : Int) :
    (∃ digit : UInt8, subscript buffer position = .ok digit.toNat) ∨
      subscript buffer position = .error .index := by
  rw [subscript]
  generalize (if position < 0 then position + (buffer.length : Int) else position) = index
  by_cases below : index < 0
  · exact .inr (if_pos below)
  · rw [if_neg below]
    cases buffer[index.toNat]? with
    | none => exact .inr rfl
    | some digit => exact .inl ⟨digit, rfl⟩

/-- The loop accepts an encoding that starts at its position, ends before the bound and has
as many bytes as its number needs. -/
theorem decodeDigits_ok_iff :
    decodeDigits buffer length position count (128 ^ count) value = .ok (total, next) ↔
      ∃ data, Continued data ∧ StandsAt buffer position data ∧ position + data.length ≤ length ∧
        count + data.length ≤ 4 ∧ total = value + numeral data * 128 ^ count ∧
        next = position + data.length ∧ vbiLen total = .ok (count + data.length) := by
  induction left : 5 - count generalizing count position value with
  | zero =>
    rw [decodeDigits, dif_pos (by omega)]
    constructor
    · intro ok
      split at ok <;> cases ok
    · rintro ⟨data, continued, -, -, few, -⟩
      have := List.length_pos_of_ne_nil continued.ne_nil
      omega
  | succ left ih =>
    rw [decodeDigits]
    by_cases past : length ≤ position
    · rw [if_pos past]
      refine ⟨by rintro ⟨⟩, ?_⟩
      rintro ⟨data, continued, -, ends, -⟩
      have := List.length_pos_of_ne_nil continued.ne_nil
      omega
    rw [if_neg past]
    by_cases long : 4 < count + 1
    · rw [dif_pos long]
      refine ⟨by rintro ⟨⟩, ?_⟩
      rintro ⟨data, continued, -, -, few, -⟩
      have := List.length_pos_of_ne_nil continued.ne_nil
      omega
    rw [dif_neg long]
    obtain ⟨digit, read⟩ | read := subscript_cases buffer position
    · simp only [read, low_bits, top_bit_clear digit.toNat_lt, bind, Except.bind]
      by_cases last : digit.toNat < 128
      · rw [if_pos last]
        constructor
        · intro ok
          refine ⟨[digit], last, ⟨read, trivial⟩, ?_⟩
          cases canonical : vbiLen (value + digit.toNat % 128 * 128 ^ count : Nat) with
          | error raised =>
            rw [canonical] at ok
            cases ok
          | ok canonicalLength =>
            simp only [canonical] at ok
            split at ok
            · cases ok
            · next same =>
              cases ok
              simp only [List.length_singleton, numeral, Nat.mul_zero, Nat.add_zero]
              refine ⟨by omega, by omega, trivial, rfl, ?_⟩
              rw [canonical, not_not.mp same]
        · rintro ⟨data, continued, stands, ends, few, stood, moved, canonical⟩
          cases data with
          | nil => exact continued.elim
          | cons head rest =>
            have same : digit = head :=
              UInt8.toNat_inj.mp (Except.ok.inj (read.symm.trans stands.1))
            subst same
            obtain ⟨-, rfl⟩ | ⟨more, -⟩ := continued.cases
            · simp only [numeral, Nat.mul_zero, Nat.add_zero] at stood
              rw [← stood, canonical]
              simp [moved]
            · omega
      · rw [if_neg last, ← Nat.pow_succ, ih (by omega)]
        constructor
        · rintro ⟨rest, continued, stands, ends, few, stood, moved, canonical⟩
          refine ⟨digit :: rest, ?_, ⟨read, stands⟩, ?_⟩
          · exact (continued_cons continued.ne_nil).mpr ⟨by omega, continued⟩
          · simp only [List.length_cons, numeral]
            refine ⟨by omega, by omega, ?_, by omega, ?_⟩
            · rw [stood, Nat.pow_succ]
              ring
            · rw [canonical, Nat.add_right_comm, Nat.add_assoc]
        · rintro ⟨data, continued, stands, ends, few, stood, moved, canonical⟩
          cases data with
          | nil => exact continued.elim
          | cons head rest =>
            have same : digit = head :=
              UInt8.toNat_inj.mp (Except.ok.inj (read.symm.trans stands.1))
            subst same
            simp only [List.length_cons, numeral] at ends few stood moved canonical
            obtain ⟨small, -⟩ | ⟨-, continued⟩ := continued.cases
            · omega
            · refine ⟨rest, continued, stands.2, by omega, by omega, ?_, by omega, ?_⟩
              · rw [stood, Nat.pow_succ]
                ring
              · rw [canonical, Nat.add_right_comm, Nat.add_assoc]
    · simp only [read, bind, Except.bind]
      refine ⟨by rintro ⟨⟩, ?_⟩
      rintro ⟨data, continued, stands, -⟩
      cases data with
      | nil => exact continued.elim
      | cons digit rest =>
        rw [StandsAt, read] at stands
        exact by cases stands.1

/-- The loop as `decode_vbi` enters it, after the first byte. -/
theorem decodeRest_ok_iff :
    decodeDigits buffer length position 1 128 value = .ok (total, next) ↔
      ∃ data, Continued data ∧ StandsAt buffer position data ∧ position + data.length ≤ length ∧
        1 + data.length ≤ 4 ∧ total = value + numeral data * 128 ∧
        next = position + data.length ∧ vbiLen total = .ok (1 + data.length) := by
  have loop : decodeDigits buffer length position 1 (128 ^ 1) value = .ok (total, next) ↔ _ :=
    decodeDigits_ok_iff
  simpa only [Nat.pow_one] using loop

/-- Where the loop raises, the bytes are malformed or a position before the bound is none
of the buffer. -/
theorem decodeDigits_error {raised : Raised} (small : value < 128 ^ count)
    (failed : decodeDigits buffer length position count (128 ^ count) value = .error raised) :
    (∃ message, raised = malformed message) ∨ raised = .index ∧
      ∃ missing, position ≤ missing ∧ missing < length ∧
        subscript buffer missing = .error .index := by
  induction left : 5 - count generalizing count position value with
  | zero =>
    rw [decodeDigits, dif_pos (by omega)] at failed
    split at failed <;> exact .inl ⟨_, (Except.error.inj failed).symm⟩
  | succ left ih =>
    rw [decodeDigits] at failed
    by_cases past : length ≤ position
    · rw [if_pos past] at failed
      exact .inl ⟨_, (Except.error.inj failed).symm⟩
    rw [if_neg past] at failed
    by_cases long : 4 < count + 1
    · rw [dif_pos long] at failed
      exact .inl ⟨_, (Except.error.inj failed).symm⟩
    rw [dif_neg long] at failed
    obtain ⟨digit, read⟩ | read := subscript_cases buffer position
    · simp only [read, low_bits, top_bit_clear digit.toNat_lt, bind, Except.bind] at failed
      have fits : value + digit.toNat % 128 * 128 ^ count < 128 ^ (count + 1) := by
        have digits : digit.toNat % 128 * 128 ^ count ≤ 127 * 128 ^ count :=
          Nat.mul_le_mul_right _ (by omega)
        rw [Nat.pow_succ]
        omega
      by_cases last : digit.toNat < 128
      · have bounded : 128 ^ (count + 1) ≤ 128 ^ 4 := Nat.pow_le_pow_right (by omega) (by omega)
        have counted := vbiLen_eq (value + digit.toNat % 128 * 128 ^ count : Nat) (by omega)
          (by rw [maxVbi]; omega)
        rw [if_pos last, counted] at failed
        simp only at failed
        split at failed
        · exact .inl ⟨_, (Except.error.inj failed).symm⟩
        · cases failed
      · rw [if_neg last, ← Nat.pow_succ] at failed
        obtain malformed | ⟨index, missing, after, before, none⟩ := ih fits failed (by omega)
        · exact .inl malformed
        · exact .inr ⟨index, missing, by omega, before, none⟩
    · simp only [read, bind, Except.bind] at failed
      exact .inr ⟨(Except.error.inj failed).symm, position, le_rfl, by omega, read⟩

/-- The loop reads no position from the bound on. -/
theorem decodeDigits_congr {multiplier : Nat}
    (same : ∀ index, position ≤ index → index < length →
      subscript buffer index = subscript other index) :
    decodeDigits buffer length position count multiplier value =
      decodeDigits other length position count multiplier value := by
  induction steps : 5 - count generalizing count position multiplier value with
  | zero =>
    rw [decodeDigits, decodeDigits, dif_pos (by omega), dif_pos (by omega)]
  | succ left ih =>
    rw [decodeDigits, decodeDigits]
    by_cases past : length ≤ position
    · rw [if_pos past, if_pos past]
    · have later : ∀ index, position + 1 ≤ index → index < length →
          subscript buffer index = subscript other index :=
        fun index after => same index (by omega)
      rw [if_neg past, if_neg past, same position le_rfl (by omega)]
      split
      · rfl
      · congr 1
        funext octet
        simp only [ih later (by omega : 5 - (count + 1) = left)]

/-- A decode accepts exactly the shortest encodings that stand at the offset and end before
the bound. -/
theorem decodeVbi_ok_iff {end? : Option Int} :
    decodeVbi buffer start end? = .ok (value, next) ↔
      ∃ data, value ≤ maxVbi ∧ Shortest value data ∧ StandsAt buffer start data ∧
        start + data.length ≤ bound buffer end? ∧ next = start + data.length := by
  have few : ∀ value, value ≤ maxVbi ↔ (digits value).length ≤ 4 := by
    intro value
    have width := length_digits_le_iff value 3
    norm_num at width
    rw [width, maxVbi]
    omega
  rw [decodeVbi]
  by_cases past : bound buffer end? ≤ start
  · rw [if_pos past]
    refine ⟨by rintro ⟨⟩, ?_⟩
    rintro ⟨data, -, shortest, -, ends, -⟩
    have := List.length_pos_of_ne_nil shortest.continued.ne_nil
    omega
  rw [if_neg past]
  obtain ⟨digit, read⟩ | read := subscript_cases buffer start
  · simp only [read, low_bits, bind, Except.bind]
    by_cases one : digit.toNat < 128
    · rw [if_pos one]
      constructor
      · intro ok
        cases ok
        have single : [digit] = digits digit.toNat := by simp [digits_small one]
        refine ⟨[digit], by rw [maxVbi]; omega, shortest_iff.mpr single, ⟨read, trivial⟩, ?_, rfl⟩
        rw [List.length_singleton]
        omega
      · rintro ⟨data, -, shortest, stands, -, rfl⟩
        have continued := shortest.continued
        have number := shortest.stands
        cases data with
        | nil => exact continued.elim
        | cons head rest =>
          have same : digit = head :=
            UInt8.toNat_inj.mp (Except.ok.inj (read.symm.trans stands.1))
          subst same
          obtain ⟨-, rfl⟩ | ⟨more, -⟩ := continued.cases
          · simp only [numeral, Nat.mul_zero, Nat.add_zero, Nat.mod_eq_of_lt one] at number
            simp [number]
          · omega
    · rw [if_neg one, decodeRest_ok_iff]
      constructor
      · rintro ⟨rest, continued, stands, ends, short, number, moved, canonical⟩
        have encoding : Continued (digit :: rest) :=
          (continued_cons continued.ne_nil).mpr ⟨by omega, continued⟩
        have stood : numeral (digit :: rest) = value := by
          rw [number, numeral, Nat.mul_comm]
        have small : value ≤ maxVbi := by
          have width := numeral_lt (digit :: rest)
          have bounded : 128 ^ (digit :: rest).length ≤ 128 ^ 4 :=
            Nat.pow_le_pow_right (by omega) (by rw [List.length_cons]; omega)
          rw [maxVbi]
          omega
        rw [vbiLen_eq value (by omega) (by omega)] at canonical
        have counted : (digit :: rest).length = (digits (numeral (digit :: rest))).length := by
          have length := Except.ok.inj canonical
          rw [stood, List.length_cons]
          simp only [Int.toNat_natCast] at length
          omega
        refine ⟨digit :: rest, small, stood ▸ shortest_of_length encoding counted,
          ⟨read, stands⟩, ?_, ?_⟩
        · rw [List.length_cons]
          omega
        · rw [List.length_cons]
          omega
      · rintro ⟨data, small, shortest, stands, ends, moved⟩
        have continued := shortest.continued
        have number := shortest.stands
        have length := congrArg List.length (shortest_iff.mp shortest)
        have atMost := (few value).mp small
        have canonical := vbiLen_eq value (by omega) (by omega)
        cases data with
        | nil => exact continued.elim
        | cons head rest =>
          have same : digit = head :=
            UInt8.toNat_inj.mp (Except.ok.inj (read.symm.trans stands.1))
          subst same
          rw [List.length_cons] at ends moved length
          obtain ⟨small, -⟩ | ⟨-, continued⟩ := continued.cases
          · omega
          · refine ⟨rest, continued, stands.2, by omega, by omega, ?_, by omega, ?_⟩
            · rw [← number, numeral, Nat.mul_comm]
            · rw [canonical, Int.toNat_natCast, ← length, Nat.add_comm]
  · simp only [read, bind, Except.bind]
    refine ⟨by rintro ⟨⟩, ?_⟩
    rintro ⟨data, -, shortest, stands, -⟩
    cases data with
    | nil => exact shortest.continued.elim
    | cons digit rest =>
      rw [StandsAt, read] at stands
      exact by cases stands.1

theorem decodeVbi_error {end? : Option Int} {raised : Raised}
    (failed : decodeVbi buffer start end? = .error raised) :
    (∃ message, raised = malformed message) ∨ raised = .index ∧
      ∃ missing, start ≤ missing ∧ missing < bound buffer end? ∧
        subscript buffer missing = .error .index := by
  rw [decodeVbi] at failed
  by_cases past : bound buffer end? ≤ start
  · rw [if_pos past] at failed
    exact .inl ⟨_, (Except.error.inj failed).symm⟩
  rw [if_neg past] at failed
  obtain ⟨digit, read⟩ | read := subscript_cases buffer start
  · simp only [read, low_bits, bind, Except.bind] at failed
    by_cases one : digit.toNat < 128
    · rw [if_pos one] at failed
      cases failed
    · rw [if_neg one, ← Nat.pow_one 128] at failed
      obtain malformed | ⟨index, missing, after, before, none⟩ :=
        decodeDigits_error (by omega) failed
      · exact .inl malformed
      · exact .inr ⟨index, missing, by omega, before, none⟩
  · simp only [read, bind, Except.bind] at failed
    exact .inr ⟨(Except.error.inj failed).symm, start, le_rfl, by omega, read⟩

theorem decodeVbi_congr {stop : Int}
    (same : ∀ index, start ≤ index → index < stop →
      subscript buffer index = subscript other index) :
    decodeVbi buffer start (some stop) = decodeVbi other start (some stop) := by
  have stops : ∀ buffer, bound buffer (some stop) = stop := fun _ => rfl
  rw [decodeVbi, decodeVbi, stops, stops]
  by_cases past : stop ≤ start
  · rw [if_pos past, if_pos past]
  · have later : ∀ index, start + 1 ≤ index → index < stop →
        subscript buffer index = subscript other index :=
      fun index after => same index (by omega)
    have rest : ∀ value, decodeDigits buffer stop (start + 1) 1 128 value =
        decodeDigits other stop (start + 1) 1 128 value := fun _ => decodeDigits_congr later
    rw [if_neg past, if_neg past, same start le_rfl (by omega)]
    simp only [rest]

/-! Offsets within the buffer -/

theorem subscript_inside (positive : 0 ≤ position) :
    subscript buffer position =
      match buffer[position.toNat]? with
      | some octet => .ok octet.toNat
      | none => .error .index := by
  have forward : ¬ position < 0 := by omega
  simp only [subscript, if_neg forward]

theorem standsAt_iff (positive : 0 ≤ position) :
    StandsAt buffer position data ↔ data.IsPrefix (buffer.drop position.toNat) := by
  induction data generalizing position with
  | nil => simp [StandsAt]
  | cons digit rest ih =>
    have next : (position + 1).toNat = position.toNat + 1 := by omega
    rw [StandsAt, ih (by omega), next, subscript_inside positive]
    by_cases inside : position.toNat < buffer.length
    · rw [List.drop_eq_getElem_cons inside, List.cons_prefix_cons, List.getElem?_eq_getElem inside]
      simp only [Except.ok.injEq, UInt8.toNat_inj, eq_comm]
    · have past : buffer.length ≤ position.toNat := by omega
      rw [List.drop_eq_nil_of_le past, List.getElem?_eq_none past, List.prefix_nil]
      simp

theorem subscript_missing (positive : 0 ≤ position)
    (missing : subscript buffer position = .error .index) : (buffer.length : Int) ≤ position := by
  rw [subscript_inside positive] at missing
  by_contra before
  rw [List.getElem?_eq_getElem (by omega)] at missing
  cases missing

/-- From an offset within the buffer, a decode reads nothing at or past its end. -/
theorem decodeVbi_take {stop : Int} (positive : 0 ≤ start)
    (same : buffer.take stop.toNat = other.take stop.toNat) :
    decodeVbi buffer start (some stop) = decodeVbi other start (some stop) := by
  apply decodeVbi_congr
  intro index after before
  have read : ∀ buffer : Bytes, buffer[index.toNat]? = (buffer.take stop.toNat)[index.toNat]? := by
    intro buffer
    rw [List.getElem?_take, if_pos (by omega)]
  rw [subscript_inside (by omega), subscript_inside (by omega), read buffer, read other, same]

/-- Within the buffer the refusals are `MalformedPacketError`. -/
theorem decodeVbi_malformed {end? : Option Int} {raised : Raised} (positive : 0 ≤ start)
    (within : bound buffer end? ≤ buffer.length)
    (failed : decodeVbi buffer start end? = .error raised) :
    ∃ message, raised = malformed message := by
  obtain malformed | ⟨-, missing, after, before, none⟩ := decodeVbi_error failed
  · exact malformed
  · have := subscript_missing (by omega) none
    omega

/-! On natural numbers and bounds within the buffer -/

/-- An answer of the codec's own function, in the terms of this module. -/
def lift : Except Failure (Nat × Nat) → Except Raised (Nat × Int)
  | .ok (value, next) => .ok (value, next)
  | .error failure => .error (.failure failure)

theorem subscript_nat {offset : Nat} (inside : offset < buffer.length) :
    subscript buffer offset = .ok (buffer.getD offset 0).toNat := by
  rw [subscript_inside (by omega), Int.toNat_natCast, List.getD_eq_getElem?_getD,
    List.getElem?_eq_getElem inside]
  rfl

theorem vbiLen_nat (value : Nat) : vbiLen value = (Codec.vbiLen value).mapError .failure := by
  unfold vbiLen Codec.vbiLen
  by_cases large : maxVbi < value
  · rw [if_pos (by omega), if_pos large]
    rfl
  · rw [if_neg (by omega), if_neg large]
    simp only [Nat.cast_lt_ofNat]
    split
    · rfl
    · split
      · rfl
      · split <;> rfl

theorem decodeDigits_nat {stop pos fuel multiplier : Nat} (within : stop ≤ buffer.length)
    (positive : 0 < fuel) (fueled : fuel + count = 5) :
    decodeDigits buffer stop pos count multiplier value =
      lift (decodeVbiRest buffer stop fuel pos count multiplier value) := by
  induction fuel generalizing count pos multiplier value with
  | zero => omega
  | succ fuel ih =>
    rw [decodeDigits, decodeVbiRest]
    by_cases past : stop ≤ pos
    · rw [if_pos (by omega), if_pos past]
      rfl
    rw [if_neg (by omega), if_neg past]
    by_cases long : 4 < count + 1
    · rw [dif_pos long, if_pos long]
      rfl
    have octet : (buffer.getD pos 0).toNat < 256 := UInt8.toNat_lt _
    rw [dif_neg long, if_neg long, subscript_nat (by omega)]
    simp only [low_bits, top_bit_clear octet, bind, Except.bind]
    by_cases last : (buffer.getD pos 0).toNat < 128
    · rw [if_pos last, if_pos last, vbiLen_nat]
      cases Codec.vbiLen (value + (buffer.getD pos 0).toNat % 128 * multiplier) with
      | error failure => rfl
      | ok canonical =>
        simp only [Except.mapError]
        split <;> rfl
    · rw [if_neg last, if_neg last]
      exact ih (by omega) (by omega)

/-- The decoder of the frames and properties is this one, with its offset and its bound
within the buffer. -/
theorem decodeVbi_nat {offset : Nat} {end? : Option Nat}
    (within : end?.getD buffer.length ≤ buffer.length) :
    decodeVbi buffer offset (end?.map (↑)) = lift (Codec.decodeVbi buffer offset end?) := by
  have bounds : bound buffer (end?.map (↑)) = (end?.getD buffer.length : Nat) := by
    cases end? <;> rfl
  rw [decodeVbi, Codec.decodeVbi, bounds]
  generalize end?.getD buffer.length = stop at within
  by_cases past : stop ≤ offset
  · rw [if_pos (by omega), if_pos past]
    rfl
  rw [if_neg (by omega), if_neg past, subscript_nat (by omega)]
  simp only [low_bits, bind, Except.bind]
  by_cases one : (buffer.getD offset 0).toNat < 128
  · rw [if_pos one, if_pos one]
    rfl
  · rw [if_neg one, if_neg one]
    exact decodeDigits_nat within (by omega) rfl

/-! The four functions together -/

/-- The bound of a decode may lie past the buffer, whose subscripts then raise. -/
theorem decodeVbi_past_buffer :
    ¬ ∀ (buffer : Bytes) (start : Int) (end? : Option Int),
      (∃ value next, decodeVbi buffer start end? = .ok (value, next)) ∨
        ∃ message, decodeVbi buffer start end? = .error (malformed message) := by
  intro every
  have raised : decodeVbi [] 0 (some 1) = .error .index := rfl
  obtain ⟨value, next, ok⟩ | ⟨message, error⟩ := every [] 0 (some 1)
  · rw [raised] at ok
    cases ok
  · rw [raised] at error
    cases error

theorem variable_byte_integers :
    (∀ (buffer : Bytes) (start : Int) (end? : Option Int),
      (∀ value next, decodeVbi buffer start end? = .ok (value, next) ↔
        ∃ data, value ≤ maxVbi ∧ Shortest value data ∧ StandsAt buffer start data ∧
          start + data.length ≤ bound buffer end? ∧ next = start + data.length) ∧
      (∀ raised, decodeVbi buffer start end? = .error raised →
        (0 ≤ start → bound buffer end? ≤ buffer.length → ∃ message, raised = malformed message) ∧
        ((∃ message, raised = malformed message) ∨ raised = .index ∧
          ∃ missing, start ≤ missing ∧ missing < bound buffer end? ∧
            subscript buffer missing = .error .index))) ∧
    (∀ (buffer other : Bytes) (start stop : Int), 0 ≤ start →
      buffer.take stop.toNat = other.take stop.toNat →
      decodeVbi buffer start (some stop) = decodeVbi other start (some stop)) ∧
    (∀ value : Int, 0 ≤ value → value ≤ maxVbi → ∃ data, encodeVbi value = .ok data ∧
      Shortest value.toNat data ∧ vbiLen value = .ok data.length ∧
      (∀ buffer, appendVbi buffer value = .ok (buffer ++ data)) ∧
      ∀ (before behind : Bytes) (end? : Option Int),
        before.length + data.length ≤ bound (before ++ data ++ behind) end? →
        decodeVbi (before ++ data ++ behind) before.length end? =
          .ok (value.toNat, before.length + data.length)) ∧
    (∀ value : Int, ¬ (0 ≤ value ∧ value ≤ maxVbi) → ∀ buffer,
      encodeVbi value = .error (outOfRange value) ∧
        appendVbi buffer value = .error (outOfRange value) ∧
        vbiLen value = .error (outOfRange value)) := by
  refine ⟨fun buffer start end? => ⟨fun value next => decodeVbi_ok_iff, ?_⟩, ?_, ?_, ?_⟩
  · intro raised failed
    exact ⟨fun positive within => decodeVbi_malformed positive within failed,
      decodeVbi_error failed⟩
  · exact fun buffer other start stop positive same => decodeVbi_take positive same
  · intro value positive small
    refine ⟨digits value.toNat, encodeVbi_eq positive small, shortest_digits _,
      vbiLen_eq value positive small, fun buffer => appendVbi_eq positive small, ?_⟩
    intro before behind end? within
    refine decodeVbi_ok_iff.mpr ⟨digits value.toNat, by omega, shortest_digits _, ?_, within, rfl⟩
    rw [standsAt_iff (by omega), Int.toNat_natCast, List.append_assoc, List.drop_left]
    exact List.prefix_append ..
  · exact fun value out buffer => refused buffer out

end Mqttium.Codec.Vbi
