import Mqttium.Library.Framing
import Mqttium.Codec.Text

/-! WebSocket frames: how a client spells one, and what the bytes at the head of a
stream say. -/

namespace Mqttium.Transport

open Library Codec

/-- What the WebSocket transport raises. -/
inductive TransportError where
  | connection (message : String)
  | connectionReset (message : String)
  | value (message : String)
  | pack
  | assertion (message : String)
  deriving DecidableEq, Repr

def continuationOpcode : Nat := 0x0
def binaryOpcode : Nat := 0x2
def closeOpcode : Nat := 0x8
def pingOpcode : Nat := 0x9
def pongOpcode : Nat := 0xA

structure Frame where
  fin : Bool
  opcode : Nat
  payload : Bytes
  deriving DecidableEq, Repr

/-- The network order of `width` bytes. -/
def bigEndian : Nat → Nat → Bytes
  | 0, _ => []
  | width + 1, value => bigEndian width (value / 256) ++ [byte value]

def unpackBigEndian (data : Bytes) : Nat :=
  data.foldl (fun value octet => value * 256 + octet.toNat) 0

/-- Apply one mask; every fourth byte is translated by the same table. -/
def maskPayload (payload mask : Bytes) : Bytes :=
  payload.mapIdx fun index octet => octet ^^^ mask.getD (index % 4) 0

def clientFrameHeader (opcode size : Nat) (mask : Bytes) : Except TransportError Bytes :=
  let first := byte (0x80 ||| (opcode &&& 0x0F))
  if size < 126 then .ok (first :: byte (0x80 ||| size) :: mask)
  else if size < 65536 then .ok (first :: byte (0x80 ||| 126) :: (bigEndian 2 size ++ mask))
  else if size < 2 ^ 64 then .ok (first :: byte (0x80 ||| 127) :: (bigEndian 8 size ++ mask))
  else .error .pack

/-- A frame under a mask that was passed or drawn. -/
def maskClientFrame (opcode : Nat) (payload mask : Bytes) : Except TransportError Bytes :=
  if mask.length ≠ 4 then .error (.value "WebSocket mask must contain exactly four bytes")
  else do
    let header ← clientFrameHeader opcode payload.length mask
    return header ++ maskPayload payload mask

/-! Parsing -/

def rsvBits : UInt8 := 0x70
def finBit : UInt8 := 0x80
def maskBit : UInt8 := 0x80

def isControl (opcode : Nat) : Bool :=
  opcode = closeOpcode || opcode = pingOpcode || opcode = pongOpcode

def maxControlPayload : Nat := 125

/-- What the first two bytes are refused for. -/
def checkHeader (expectMasked : Option Bool) (b0 b1 : UInt8) : Except TransportError Unit :=
  let masked := b1 &&& maskBit != 0
  let opcode := (b0 &&& 0x0F).toNat
  if b0 &&& rsvBits ≠ 0 then
    .error (.connection "WebSocket RSV bits set without negotiated extension")
  else if expectMasked = some (!masked) then
    let direction := if masked then "unmasked" else "masked"
    .error (.connection s!"Expected {direction} WebSocket frame")
  else if opcode = continuationOpcode ∨ opcode = binaryOpcode ∨ isControl opcode = true then .ok ()
  else if opcode = 0x1 then .error (.connection "MQTT over WebSocket requires binary frames")
  else
    .error (.connection
      s!"Unsupported WebSocket opcode 0x{String.ofList [Nat.digitChar opcode]}")

/-- The length field, as far as it has arrived, and how many bytes it extends over. -/
inductive PayloadLength where
  | unfinished
  | refused (error : TransportError)
  | known (size width : Nat)
  deriving DecidableEq, Repr

def payloadLength (code : Nat) (rest : Bytes) : PayloadLength :=
  if code = 126 then
    if rest.length < 2 then .unfinished
    else
      let size := unpackBigEndian (rest.take 2)
      if size < 126 then .refused (.connection "Non-canonical WebSocket frame length")
      else .known size 2
  else if code = 127 then
    if rest.length < 8 then .unfinished
    else
      let size := unpackBigEndian (rest.take 8)
      if size.testBit 63 then
        .refused (.connection "Invalid 64-bit WebSocket frame length (MSB set)")
      else if size < 65536 then .refused (.connection "Non-canonical WebSocket frame length")
      else .known size 8
  else .known code 0

/-- What a frame is refused for once its length is known. -/
def checkLength (maxFrameSize : Nat) (fin : Bool) (opcode size : Nat) :
    Except TransportError Unit :=
  if maxFrameSize < size then
    .error (.connection s!"WebSocket frame {size} exceeds max {maxFrameSize}")
  else if isControl opcode = true ∧ maxControlPayload < size then
    .error (.connection "WebSocket control frame payload too large")
  else if isControl opcode = true ∧ fin = false then
    .error (.connection "WebSocket control frame must not be fragmented")
  else if opcode = closeOpcode ∧ size = 1 then
    .error (.connection "WebSocket close frame payload must not be one byte")
  else .ok ()

/-- The frame at the head of the buffer, and the bytes behind it. -/
def parseFrame (maxFrameSize : Nat) (expectMasked : Option Bool) :
    Bytes → Verdict UInt8 Frame TransportError
  | b0 :: b1 :: rest =>
    match checkHeader expectMasked b0 b1 with
    | .error error => .refused error
    | .ok _ =>
      let fin := b0 &&& finBit != 0
      let masked := b1 &&& maskBit != 0
      let opcode := (b0 &&& 0x0F).toNat
      match payloadLength (b1 &&& 0x7F).toNat rest with
      | .unfinished => .waiting
      | .refused error => .refused error
      | .known size width =>
        match checkLength maxFrameSize fin opcode size with
        | .error error => .refused error
        | .ok _ =>
          let maskSize := if masked then 4 else 0
          let body := rest.drop width
          if body.length < maskSize + size then .waiting
          else
            let mask := body.take maskSize
            let raw := (body.drop maskSize).take size
            .packet { fin, opcode, payload := if masked then maskPayload raw mask else raw }
              (body.drop (maskSize + size))
  | _ => .waiting

theorem payloadLength_append {code : Nat} {rest : Bytes} (more : Bytes)
    (finished : payloadLength code rest ≠ .unfinished) :
    payloadLength code (rest ++ more) = payloadLength code rest := by
  unfold payloadLength at finished ⊢
  split
  · next short =>
    rw [if_pos short] at finished
    by_cases few : rest.length < 2
    · simp [few] at finished
    · rw [if_neg few, if_neg (by rw [List.length_append]; omega),
        List.take_append_of_le_length (by omega)]
  · next long =>
    rw [if_neg long] at finished
    split
    · next wide =>
      rw [if_pos wide] at finished
      by_cases few : rest.length < 8
      · simp [few] at finished
      · rw [if_neg few, if_neg (by rw [List.length_append]; omega),
          List.take_append_of_le_length (by omega)]
    · rfl

/-- The length field lies in the bytes read. -/
theorem payloadLength_known {code size width : Nat} {rest : Bytes}
    (known : payloadLength code rest = .known size width) : width ≤ rest.length := by
  unfold payloadLength at known
  split at known
  · split at known
    · cases known
    · simp only at known
      split at known
      · cases known
      · cases known
        omega
  · split at known
    · split at known
      · cases known
      · simp only at known
        split at known
        · cases known
        · split at known
          · cases known
          · cases known
            omega
    · cases known
      exact Nat.zero_le _

/-- What is decided about a frame does not change when more bytes arrive. -/
theorem parseFrame_append {maxFrameSize : Nat} {expectMasked : Option Bool} {buffer : Bytes}
    (more : Bytes) :
    (∀ frame rest, parseFrame maxFrameSize expectMasked buffer = .packet frame rest →
      parseFrame maxFrameSize expectMasked (buffer ++ more) = .packet frame (rest ++ more)) ∧
    (∀ error, parseFrame maxFrameSize expectMasked buffer = .refused error →
      parseFrame maxFrameSize expectMasked (buffer ++ more) = .refused error) := by
  match buffer with
  | [] => exact ⟨nofun, nofun⟩
  | [b0] => exact ⟨nofun, nofun⟩
  | b0 :: b1 :: rest =>
    simp only [parseFrame, List.cons_append]
    cases checkHeader expectMasked b0 b1 with
    | error error => exact ⟨nofun, fun _ same => same⟩
    | ok _ =>
      simp only
      cases length : payloadLength (b1 &&& 0x7F).toNat rest with
      | unfinished => exact ⟨nofun, nofun⟩
      | refused error =>
        rw [payloadLength_append more (by rw [length]; nofun), length]
        exact ⟨nofun, fun _ same => same⟩
      | known size width =>
        rw [payloadLength_append more (by rw [length]; nofun), length]
        have inside := payloadLength_known length
        simp only
        cases checkLength maxFrameSize (b0 &&& finBit != 0) (b0 &&& 0x0F).toNat size with
        | error error => exact ⟨nofun, fun _ same => same⟩
        | ok _ =>
          simp only [List.drop_append_of_le_length inside]
          generalize rest.drop width = body
          generalize (if (b1 &&& maskBit != 0) = true then 4 else 0) = maskSize
          by_cases short : body.length < maskSize + size
          · rw [if_pos short]
            exact ⟨nofun, nofun⟩
          · have enough : ¬ (body ++ more).length < maskSize + size := by
              rw [List.length_append]
              omega
            rw [if_neg short, if_neg enough, List.take_append_of_le_length (by omega),
              List.drop_append_of_le_length (by omega), List.drop_append_of_le_length (by omega),
              List.take_append_of_le_length (by rw [List.length_drop]; omega)]
            refine ⟨fun frame behind same => ?_, nofun⟩
            cases same
            rfl

/-- A frame takes its two header bytes at least. -/
theorem parseFrame_rest {maxFrameSize : Nat} {expectMasked : Option Bool} {buffer rest : Bytes}
    {frame : Frame} (parsed : parseFrame maxFrameSize expectMasked buffer = .packet frame rest) :
    rest.length + 2 ≤ buffer.length := by
  match buffer with
  | [] => cases parsed
  | [b0] => cases parsed
  | b0 :: b1 :: tail =>
    simp only [parseFrame] at parsed
    split at parsed
    · cases parsed
    · split at parsed
      · cases parsed
      · cases parsed
      · next size width _ =>
        split at parsed
        · cases parsed
        · generalize (if (b1 &&& maskBit != 0) = true then 4 else 0) = maskSize at parsed
          by_cases short : (tail.drop width).length < maskSize + size
          · rw [if_pos short] at parsed
            cases parsed
          · rw [if_neg short] at parsed
            cases parsed
            simp only [List.length_drop, List.length_cons]
            omega

/-- The parser as a framer of a stream. -/
def webSocketFramer (maxFrameSize : Nat) (expectMasked : Option Bool) :
    Framer UInt8 Frame TransportError where
  frame := parseFrame maxFrameSize expectMasked
  packet_append more parsed := (parseFrame_append more).1 _ _ parsed
  refused_append more refused := (parseFrame_append more).2 _ refused

/-! What is spelled is read back -/

theorem unpackBigEndian_append (data : Bytes) (octet : UInt8) :
    unpackBigEndian (data ++ [octet]) = unpackBigEndian data * 256 + octet.toNat := by
  rw [unpackBigEndian, List.foldl_append]
  rfl

theorem length_bigEndian (width value : Nat) : (bigEndian width value).length = width := by
  induction width generalizing value with
  | zero => rfl
  | succ width ih => rw [bigEndian, List.length_append, ih, List.length_singleton]

theorem unpackBigEndian_bigEndian {width value : Nat} (fits : value < 256 ^ width) :
    unpackBigEndian (bigEndian width value) = value := by
  induction width generalizing value with
  | zero =>
    rw [Nat.pow_zero, Nat.lt_one_iff] at fits
    rw [fits]
    rfl
  | succ width ih =>
    rw [Nat.pow_succ] at fits
    rw [bigEndian, unpackBigEndian_append, ih (by omega), toNat_byte]
    omega

theorem length_maskPayload (payload mask : Bytes) :
    (maskPayload payload mask).length = payload.length := by
  rw [maskPayload, List.length_mapIdx]

/-- Masking twice gives the payload back. -/
theorem maskPayload_maskPayload (payload mask : Bytes) :
    maskPayload (maskPayload payload mask) mask = payload := by
  apply List.ext_getElem
  · rw [length_maskPayload, length_maskPayload]
  · intro index first second
    simp only [maskPayload, List.getElem_mapIdx]
    rw [UInt8.xor_assoc, UInt8.xor_self, UInt8.xor_zero]

/-- The length field under a mask bit, in the shortest of its three forms. -/
def lengthField (flag size : Nat) : Bytes :=
  if size < 126 then [byte (flag ||| size)]
  else if size < 65536 then byte (flag ||| 126) :: bigEndian 2 size
  else byte (flag ||| 127) :: bigEndian 8 size

/-- The mask bit and the length code share a byte. -/
theorem code_bits {flag code : Nat} (bit : flag = 0 ∨ flag = 0x80) (small : code < 128) :
    (byte (flag ||| code) &&& 0x7F).toNat = code ∧
      (byte (flag ||| code) &&& maskBit != 0) = decide (flag = 0x80) := by
  have all : ∀ code : Fin 128, ∀ flag ∈ [0, 0x80],
      (byte (flag ||| code.val) &&& 0x7F).toNat = code.val ∧
        (byte (flag ||| code.val) &&& maskBit != 0) = decide (flag = 0x80) := by
    decide +kernel
  exact all ⟨code, small⟩ flag (by simpa using bit)

theorem lengthField_spec {flag size : Nat} (bit : flag = 0 ∨ flag = 0x80) (small : size < 2 ^ 63) :
    ∃ code digits, lengthField flag size = code :: digits ∧
      (code &&& maskBit != 0) = decide (flag = 0x80) ∧
      ∀ more, payloadLength (code &&& 0x7F).toNat (digits ++ more) = .known size digits.length := by
  unfold lengthField
  split
  · next short =>
    obtain ⟨bits, masked⟩ := code_bits bit (show size < 128 by omega)
    refine ⟨_, [], rfl, masked, fun more => ?_⟩
    rw [bits, payloadLength, if_neg (by omega), if_neg (by omega)]
    rfl
  · next long =>
    split
    · next middle =>
      obtain ⟨bits, masked⟩ := code_bits bit (show 126 < 128 by omega)
      have width := length_bigEndian 2 size
      refine ⟨_, _, rfl, masked, fun more => ?_⟩
      rw [bits, payloadLength, if_pos rfl, if_neg (by rw [List.length_append, width]; omega),
        List.take_left' width, unpackBigEndian_bigEndian (by omega), width]
      simp only [if_neg long]
    · next wide =>
      obtain ⟨bits, masked⟩ := code_bits bit (show 127 < 128 by omega)
      have width := length_bigEndian 8 size
      refine ⟨_, _, rfl, masked, fun more => ?_⟩
      rw [bits, payloadLength, if_neg (by decide), if_pos rfl,
        if_neg (by rw [List.length_append, width]; omega), List.take_left' width,
        unpackBigEndian_bigEndian (by omega), width]
      simp only [Nat.testBit_lt_two_pow small, Bool.false_eq_true, if_false, if_neg wide]

/-- A spelled frame is read back, and the bytes behind it are left. -/
theorem parseFrame_spelled {maxFrameSize size : Nat} {expectMasked : Option Bool} {b0 code : UInt8}
    {digits mask raw : Bytes} (header : checkHeader expectMasked b0 code = .ok ())
    (length : ∀ more, payloadLength (code &&& 0x7F).toNat (digits ++ more) =
      .known size digits.length)
    (allowed : checkLength maxFrameSize (b0 &&& finBit != 0) (b0 &&& 0x0F).toNat size = .ok ())
    (masks : mask.length = if (code &&& maskBit != 0) = true then 4 else 0)
    (sized : raw.length = size) (more : Bytes) :
    parseFrame maxFrameSize expectMasked (b0 :: code :: (digits ++ (mask ++ (raw ++ more)))) =
      .packet
        { fin := b0 &&& finBit != 0
          opcode := (b0 &&& 0x0F).toNat
          payload := if (code &&& maskBit != 0) = true then maskPayload raw mask else raw } more := by
  subst sized
  simp only [parseFrame, header, length, allowed, ← masks, List.drop_left, List.take_left]
  have enough : ¬ (mask ++ (raw ++ more)).length < mask.length + raw.length := by
    simp only [List.length_append]
    omega
  have behind : (mask ++ (raw ++ more)).drop (mask.length + raw.length) = more := by
    rw [← List.drop_drop, List.drop_left, List.drop_left]
  rw [if_neg enough, behind]

/-- The header of a client's frame. -/
theorem clientFrameHeader_eq {opcode size : Nat} (mask : Bytes) (small : size < 2 ^ 64) :
    clientFrameHeader opcode size mask =
      .ok (byte (0x80 ||| (opcode &&& 0x0F)) :: (lengthField 0x80 size ++ mask)) := by
  unfold clientFrameHeader lengthField
  split
  · rfl
  · split
    · rfl
    · rfl

/-- The opcodes that a frame of the client or the server may have. -/
def allowedOpcodes : List Nat := [continuationOpcode, binaryOpcode, closeOpcode, pingOpcode, pongOpcode]

theorem opcode_bits {opcode : Nat} (allowed : opcode ∈ allowedOpcodes) (fin : Bool) :
    let b0 := byte ((if fin then 0x80 else 0) ||| opcode)
    b0 &&& rsvBits = 0 ∧ (b0 &&& finBit != 0) = fin ∧ (b0 &&& 0x0F).toNat = opcode := by
  have all : ∀ opcode ∈ allowedOpcodes, ∀ fin : Bool,
      byte ((if fin then 0x80 else 0) ||| opcode) &&& rsvBits = 0 ∧
      (byte ((if fin then 0x80 else 0) ||| opcode) &&& finBit != 0) = fin ∧
      (byte ((if fin then 0x80 else 0) ||| opcode) &&& 0x0F).toNat = opcode := by
    decide +kernel
  exact all opcode allowed fin

theorem checkHeader_ok {expectMasked : Option Bool} {b0 code : UInt8}
    (plain : b0 &&& rsvBits = 0) (allowed : (b0 &&& 0x0F).toNat ∈ allowedOpcodes)
    (expected : expectMasked ≠ some !(code &&& maskBit != 0)) :
    checkHeader expectMasked b0 code = .ok () := by
  have known : (b0 &&& 0x0F).toNat = continuationOpcode ∨ (b0 &&& 0x0F).toNat = binaryOpcode ∨
      isControl (b0 &&& 0x0F).toNat = true := by
    simpa [allowedOpcodes, isControl, or_assoc] using allowed
  simp only [checkHeader]
  rw [if_neg (by simp [plain]), if_neg expected, if_pos known]

/-- A payload that a frame of this kind may carry. -/
structure Fits (maxFrameSize : Nat) (fin : Bool) (opcode : Nat) (payload : Bytes) : Prop where
  allowed : opcode ∈ allowedOpcodes
  limit : payload.length ≤ maxFrameSize
  control : isControl opcode = true → payload.length ≤ maxControlPayload ∧ fin = true
  close : opcode = closeOpcode → payload.length ≠ 1
  -- No byte string is longer.
  sized : payload.length < 2 ^ 63

theorem Fits.checkLength {maxFrameSize opcode : Nat} {fin : Bool} {payload : Bytes}
    (fits : Fits maxFrameSize fin opcode payload) :
    checkLength maxFrameSize fin opcode payload.length = .ok () := by
  unfold Transport.checkLength
  rw [if_neg (by have := fits.limit; omega), if_neg, if_neg, if_neg]
  · exact fun ⟨close, single⟩ => fits.close close single
  · intro ⟨control, fragment⟩
    rw [(fits.control control).2] at fragment
    cases fragment
  · intro ⟨control, large⟩
    have := (fits.control control).1
    omega

/-- A client's frame is read back by whoever accepts masked frames. -/
theorem parseFrame_maskClientFrame {maxFrameSize opcode : Nat} {payload mask : Bytes}
    (fits : Fits maxFrameSize true opcode payload) (four : mask.length = 4)
    {expectMasked : Option Bool} (accepts : expectMasked ≠ some false) (more : Bytes) :
    ∃ frame, maskClientFrame opcode payload mask = .ok frame ∧
      parseFrame maxFrameSize expectMasked (frame ++ more) =
        .packet { fin := true, opcode, payload } more := by
  obtain ⟨code, digits, field, masked, length⟩ :=
    lengthField_spec (.inr rfl : (0x80 : Nat) = 0 ∨ (0x80 : Nat) = 0x80) fits.sized
  obtain ⟨plain, fin, bits⟩ := opcode_bits fits.allowed true
  have low : opcode &&& 0x0F = opcode := by
    have all : ∀ opcode ∈ allowedOpcodes, opcode &&& 0x0F = opcode := by decide
    exact all opcode fits.allowed
  rw [decide_eq_true rfl] at masked
  simp only [if_true] at plain fin bits
  refine ⟨byte (0x80 ||| opcode) :: code :: (digits ++ (mask ++ maskPayload payload mask)), ?_, ?_⟩
  · have small : payload.length < 2 ^ 64 := Nat.lt_trans fits.sized (by decide)
    rw [maskClientFrame, if_neg (not_not.mpr four), clientFrameHeader_eq mask small, low, field]
    simp [bind, Except.bind, pure, Except.pure]
  · have spelled := parseFrame_spelled
      (checkHeader_ok plain (bits.symm ▸ fits.allowed) (by rw [masked]; exact accepts)) length
      (by rw [fin, bits]; exact fits.checkLength) (by rw [masked, four]; rfl)
      (length_maskPayload payload mask) more
    rw [fin, bits, masked, if_pos rfl, maskPayload_maskPayload] at spelled
    simpa using spelled

/-- A server's frame, as the protocol spells it. -/
def serverFrame (frame : Frame) : Bytes :=
  byte ((if frame.fin then 0x80 else 0) ||| frame.opcode) ::
    (lengthField 0 frame.payload.length ++ frame.payload)

theorem parseFrame_serverFrame {maxFrameSize : Nat} {frame : Frame}
    (fits : Fits maxFrameSize frame.fin frame.opcode frame.payload) (more : Bytes) :
    parseFrame maxFrameSize (some false) (serverFrame frame ++ more) = .packet frame more := by
  obtain ⟨code, digits, field, masked, length⟩ :=
    lengthField_spec (.inl rfl : (0 : Nat) = 0 ∨ (0 : Nat) = 0x80) fits.sized
  obtain ⟨plain, fin, bits⟩ := opcode_bits fits.allowed frame.fin
  rw [decide_eq_false (by decide)] at masked
  have expected : some false ≠ some !(code &&& maskBit != 0) := by
    rw [masked]
    decide
  have unmasked : ([] : Bytes).length = if (code &&& maskBit != 0) = true then 4 else 0 := by
    rw [masked]
    rfl
  have spelled := parseFrame_spelled (checkHeader_ok plain (bits.symm ▸ fits.allowed) expected)
    length (by rw [fin, bits]; exact fits.checkLength) unmasked rfl more
  rw [fin, bits, masked] at spelled
  simpa [serverFrame, field] using spelled

end Mqttium.Transport
