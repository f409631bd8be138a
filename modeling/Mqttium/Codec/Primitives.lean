import Mqttium.Errors

/-! Variable byte integers and the binary primitives of the wire format. A
decoder reads a buffer at an offset and returns the offset after the value. -/

namespace Mqttium.Codec

def maxVbi : Nat := 268435455

/-- The base-128 digits of a value, low digit first; `fuel` bounds their number. -/
def vbiDigits : Nat → Nat → Bytes
  | 0, _ => []
  | fuel + 1, value =>
    if value / 128 = 0 then [byte (value % 128)]
    else byte (value % 128 + 128) :: vbiDigits fuel (value / 128)

def encodeVbi (value : Nat) : Except Failure Bytes :=
  if maxVbi < value then .error (.value s!"VBI out of range: {value}")
  else .ok (vbiDigits 4 value)

def appendVbi (buffer : Bytes) (value : Nat) : Except Failure Bytes := do
  return buffer ++ (← encodeVbi value)

def vbiLen (value : Nat) : Except Failure Nat :=
  if maxVbi < value then .error (.value s!"VBI out of range: {value}")
  else if value < 128 then .ok 1
  else if value < 16384 then .ok 2
  else if value < 2097152 then .ok 3
  else .ok 4

def incompleteVbi : Failure := .malformedPacket "Incomplete Variable Byte Integer"

/-- The continuation loop of `decode_vbi`. `encodedBytes` counts the digits read. -/
def decodeVbiRest (buffer : Bytes) (length : Nat) :
    Nat → Nat → Nat → Nat → Nat → Except Failure (Nat × Nat)
  | 0, _, _, _, _ => .error (.malformedPacket "Malformed Variable Byte Integer (too long)")
  | fuel + 1, pos, encodedBytes, multiplier, value =>
    if length ≤ pos then .error incompleteVbi
    else if 4 < encodedBytes + 1 then
      .error (.malformedPacket "Malformed Variable Byte Integer (too long)")
    else
      let digit := (buffer.getD pos 0).toNat
      let total := value + digit % 128 * multiplier
      if digit < 128 then do
        let canonical ← vbiLen total
        if encodedBytes + 1 ≠ canonical then
          .error (.malformedPacket "Non-canonical Variable Byte Integer")
        else .ok (total, pos + 1)
      else decodeVbiRest buffer length fuel (pos + 1) (encodedBytes + 1) (multiplier * 128) total

/-- Decode a canonical MQTT VBI starting at `offset`; `end?` bounds the received data. -/
def decodeVbi (buffer : Bytes) (offset : Nat) (end? : Option Nat := none) :
    Except Failure (Nat × Nat) :=
  let length := end?.getD buffer.length
  if length ≤ offset then .error incompleteVbi
  else
    let first := (buffer.getD offset 0).toNat
    if first < 128 then .ok (first, offset + 1)
    else decodeVbiRest buffer length 4 (offset + 1) 1 128 (first % 128)

/-- `struct` raises on a value that does not fit. -/
def packU16 (value : Nat) : Except Failure Bytes :=
  if value < 65536 then .ok [byte (value / 256), byte (value % 256)] else .error .pack

def packU32 (value : Nat) : Except Failure Bytes :=
  if value < 4294967296 then
    .ok [byte (value / 16777216), byte (value / 65536 % 256), byte (value / 256 % 256),
      byte (value % 256)]
  else .error .pack

def octet (buffer : Bytes) (offset : Nat) : Nat := (buffer.getD offset 0).toNat

def unpackU16 (buffer : Bytes) (offset : Nat) : Except Failure (Nat × Nat) :=
  if buffer.length < offset + 2 then .error (.malformedPacket "Incomplete uint16")
  else .ok (octet buffer offset * 256 + octet buffer (offset + 1), offset + 2)

def unpackU32 (buffer : Bytes) (offset : Nat) : Except Failure (Nat × Nat) :=
  if buffer.length < offset + 4 then .error (.malformedPacket "Incomplete uint32")
  else
    .ok (octet buffer offset * 16777216 + octet buffer (offset + 1) * 65536 +
      octet buffer (offset + 2) * 256 + octet buffer (offset + 3), offset + 4)

def hasNull (text : Text) : Bool := text.any fun point => point.val == 0

def isAscii (text : Text) : Bool := text.all fun point => point.val < 128

/-- Apply the MQTT UTF-8 rules and return the byte length. -/
def validateUtf8 (text : Text) : Except Failure Nat :=
  if hasNull text then .error (.protocol "[MQTT-1.5.4-2] Null in UTF-8 data")
  else if isAscii text then
    if 65535 < text.length then .error (.protocol "UTF-8 string too long for MQTT")
    else .ok text.length
  else match text.encodeUtf8 with
    | none => .error (.protocol "[MQTT-1.5.4-1] Surrogate in UTF-8 data")
    | some data =>
      if 65535 < data.length then .error (.protocol "UTF-8 string too long for MQTT")
      else .ok data.length

/-- Validate and encode one MQTT UTF-8 string without its length prefix. -/
def encodeUtf8 (text : Text) : Except Failure Bytes :=
  match text.encodeUtf8 with
  | none => .error (.protocol "[MQTT-1.5.4-1] Surrogate in UTF-8 data")
  | some data =>
    if hasNull text then .error (.protocol "[MQTT-1.5.4-2] Null in UTF-8 data")
    else if 65535 < data.length then .error (.protocol "UTF-8 string too long for MQTT")
    else .ok data

theorem encodeUtf8_ok {text : Text} {data : Bytes} (ok : encodeUtf8 text = .ok data) :
    text.encodeUtf8 = some data ∧ data.length < 65536 := by
  unfold encodeUtf8 at ok
  split at ok
  · cases ok
  · rename_i encoded
    split at ok
    · cases ok
    · split at ok
      · cases ok
      · cases ok
        exact ⟨encoded, by omega⟩

theorem validateUtf8_ok {text : Text} {size : Nat} (ok : validateUtf8 text = .ok size) :
    isAscii text = true ∨ text.encodeUtf8.isSome = true := by
  by_contra neither
  simp only [not_or, Bool.not_eq_true, Option.isSome_eq_false_iff, Option.isNone_iff_eq_none]
    at neither
  simp only [validateUtf8, neither.1, neither.2, Bool.false_eq_true, ↓reduceIte] at ok
  split at ok <;> cases ok

/-- The characters of an ASCII text are its bytes. -/
theorem encodeUtf8_ascii {text : Text} (ascii : isAscii text = true) :
    ∃ data, text.encodeUtf8 = some data ∧ data.length = text.length := by
  have small (point : CodePoint) (member : point ∈ text) : point.val < 128 := by
    simpa using List.all_eq_true.mp ascii point member
  have plain : text.any CodePoint.isSurrogate = false := by
    rw [List.any_eq_false]
    intro point member
    have := small point member
    simp only [CodePoint.isSurrogate, Bool.and_eq_true, decide_eq_true_eq]
    omega
  refine ⟨text.flatMap encodeCodePoint, by rw [Text.encodeUtf8, plain]; rfl, ?_⟩
  clear ascii plain
  induction text with
  | nil => rfl
  | cons point rest ih =>
    have single : (encodeCodePoint point).length = 1 := by
      rw [encodeCodePoint, if_pos (small point (List.mem_cons_self ..))]
      rfl
    rw [List.flatMap_cons, List.length_append, single,
      ih fun later member => small later (List.mem_cons_of_mem _ member), List.length_cons]
    omega

theorem encodeUtf8_ok_iff {text : Text} {data : Bytes} : encodeUtf8 text = .ok data ↔
    text.encodeUtf8 = some data ∧ hasNull text = false ∧ data.length ≤ 65535 := by
  unfold encodeUtf8
  cases text.encodeUtf8 with
  | none => simp
  | some encoded =>
    simp only [Option.some.injEq]
    constructor
    · intro ok
      split at ok
      · cases ok
      · next plain =>
        split at ok
        · cases ok
        · next fits =>
          cases ok
          exact ⟨rfl, by simpa using plain, by omega⟩
    · rintro ⟨rfl, plain, fits⟩
      rw [if_neg (by simp [plain]), if_neg (by omega)]

/-- Validation without an encoding answers as the encoder does, with the size of its result. -/
theorem validateUtf8_ok_iff {text : Text} {size : Nat} : validateUtf8 text = .ok size ↔
    ∃ data, encodeUtf8 text = .ok data ∧ data.length = size := by
  simp only [encodeUtf8_ok_iff]
  unfold validateUtf8
  by_cases null : hasNull text = true
  · simp [null]
  · have plain : hasNull text = false := by simpa using null
    rw [if_neg null]
    by_cases ascii : isAscii text = true
    · obtain ⟨encoded, encodes, length⟩ := encodeUtf8_ascii ascii
      rw [if_pos ascii, encodes, ← length]
      by_cases long : 65535 < encoded.length
      · simp [long, Nat.not_le_of_lt long]
      · simp [long, plain, Nat.le_of_not_lt long]
    · rw [if_neg ascii]
      cases text.encodeUtf8 with
      | none => simp
      | some encoded =>
        by_cases long : 65535 < encoded.length
        · simp [long, Nat.not_le_of_lt long]
        · simp [long, plain, Nat.le_of_not_lt long]

def packUtf8 (text : Text) : Except Failure Bytes := do
  let data ← encodeUtf8 text
  return (← packU16 data.length) ++ data

/-- `buffer[start:stop]`. -/
def slice (buffer : Bytes) (start stop : Nat) : Bytes := (buffer.take stop).drop start

def unpackUtf8 (buffer : Bytes) (offset : Nat) : Except Failure (Text × Nat) :=
  let pos := offset + 2
  if buffer.length < pos then .error (.malformedPacket "Incomplete uint16")
  else
    let stop := pos + (octet buffer offset * 256 + octet buffer (offset + 1))
    if buffer.length < stop then .error (.malformedPacket "Incomplete UTF-8 string")
    else match decodeUtf8 (slice buffer pos stop) with
      | none => .error (.malformedPacket "Invalid UTF-8 data")
      | some text =>
        if hasNull text then .error (.malformedPacket "[MQTT-1.5.4-2] Null in UTF-8 data")
        else .ok (text, stop)

def packBinary (data : Bytes) : Except Failure Bytes :=
  if 65535 < data.length then .error (.value "Binary data too long for MQTT")
  else do return (← packU16 data.length) ++ data

def unpackBinary (buffer : Bytes) (offset : Nat) : Except Failure (Bytes × Nat) := do
  let (length, pos) ← unpackU16 buffer offset
  if buffer.length < pos + length then .error (.malformedPacket "Incomplete binary data")
  else .ok (slice buffer pos (pos + length), pos + length)

end Mqttium.Codec
