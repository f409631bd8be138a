import Mathlib.Algebra.Order.Ring.Nat

/-! Byte strings and text as the client's runtime has them: text is a sequence
of code points in which a lone surrogate is possible, and strict UTF-8 refuses
exactly those. -/

namespace Mqttium.Codec

abbrev Bytes := List UInt8

abbrev CodePoint := Fin 0x110000

instance codePoints_neZero : NeZero 0x110000 := ⟨by decide⟩

abbrev Text := List CodePoint

def CodePoint.isSurrogate (point : CodePoint) : Bool :=
  0xD800 ≤ point.val && point.val ≤ 0xDFFF

def Text.ofString (source : String) : Text :=
  source.toList.map fun char => Fin.ofNat 0x110000 char.toNat

def byte (value : Nat) : UInt8 := UInt8.ofNat value

def encodeCodePoint (point : CodePoint) : Bytes :=
  let code := point.val
  if code < 0x80 then [byte code]
  else if code < 0x800 then [byte (0xC0 + code / 64), byte (0x80 + code % 64)]
  else if code < 0x10000 then
    [byte (0xE0 + code / 4096), byte (0x80 + code / 64 % 64), byte (0x80 + code % 64)]
  else
    [byte (0xF0 + code / 262144), byte (0x80 + code / 4096 % 64),
     byte (0x80 + code / 64 % 64), byte (0x80 + code % 64)]

/-- `str.encode("utf-8")`; `none` where it raises `UnicodeEncodeError`. -/
def Text.encodeUtf8 (text : Text) : Option Bytes :=
  if text.any CodePoint.isSurrogate then none else some (text.flatMap encodeCodePoint)

private def isContinuation (octet : UInt8) : Bool := 0x80 ≤ octet.toNat && octet.toNat < 0xC0

private def lowBits (octet : UInt8) : Nat := octet.toNat % 64

/-- `bytes.decode("utf-8")`; `none` where it raises `UnicodeDecodeError`.
Overlong forms, surrogates and values past U+10FFFF are refused. -/
def decodeUtf8 : Bytes → Option Text
  | [] => some []
  | first :: rest =>
    if first.toNat < 0x80 then
      (decodeUtf8 rest).map (Fin.ofNat 0x110000 first.toNat :: ·)
    else match rest with
      | [] => none
      | second :: rest =>
        if 0xC2 ≤ first.toNat ∧ first.toNat < 0xE0 ∧ isContinuation second then
          (decodeUtf8 rest).map
            (Fin.ofNat 0x110000 ((first.toNat - 0xC0) * 64 + lowBits second) :: ·)
        else match rest with
          | [] => none
          | third :: rest =>
            let three := (first.toNat - 0xE0) * 4096 + lowBits second * 64 + lowBits third
            if 0xE0 ≤ first.toNat ∧ first.toNat < 0xF0 ∧ isContinuation second ∧
                isContinuation third ∧ 0x800 ≤ three ∧ ¬ (0xD800 ≤ three ∧ three ≤ 0xDFFF) then
              (decodeUtf8 rest).map (Fin.ofNat 0x110000 three :: ·)
            else match rest with
              | [] => none
              | fourth :: rest =>
                let four := (first.toNat - 0xF0) * 262144 + lowBits second * 4096 +
                  lowBits third * 64 + lowBits fourth
                if 0xF0 ≤ first.toNat ∧ first.toNat < 0xF5 ∧ isContinuation second ∧
                    isContinuation third ∧ isContinuation fourth ∧
                    0x10000 ≤ four ∧ four ≤ 0x10FFFF then
                  (decodeUtf8 rest).map (Fin.ofNat 0x110000 four :: ·)
                else none

@[simp] theorem toNat_byte (value : Nat) : (byte value).toNat = value % 256 := by
  simp [byte]

theorem toNat_byte_small {value : Nat} (small : value < 256) : (byte value).toNat = value := by
  rw [toNat_byte, Nat.mod_eq_of_lt small]

private theorem point_eq (point : CodePoint) {value : Nat} (same : value = point.val) :
    Fin.ofNat 0x110000 value = point := by
  subst same
  exact Fin.ext (Nat.mod_eq_of_lt point.isLt)

private theorem continuation_byte {bits : Nat} (small : bits < 64) :
    isContinuation (byte (0x80 + bits)) = true ∧ lowBits (byte (0x80 + bits)) = bits := by
  simp only [isContinuation, lowBits, toNat_byte_small (show 0x80 + bits < 256 by omega),
    Bool.and_eq_true, decide_eq_true_eq]
  omega

/-- The decoder takes back what the encoder wrote for one code point. -/
theorem decodeUtf8_encodeCodePoint {point : CodePoint} (plain : point.isSurrogate = false)
    (rest : Bytes) :
    decodeUtf8 (encodeCodePoint point ++ rest) = (decodeUtf8 rest).map (point :: ·) := by
  have bound : point.val < 0x110000 := point.isLt
  have outside : point.val < 0xD800 ∨ 0xDFFF < point.val := by
    simp only [CodePoint.isSurrogate, Bool.and_eq_false_iff, decide_eq_false_iff_not] at plain
    omega
  have last := continuation_byte (show point.val % 64 < 64 by omega)
  have third := continuation_byte (show point.val / 64 % 64 < 64 by omega)
  have second := continuation_byte (show point.val / 4096 % 64 < 64 by omega)
  unfold encodeCodePoint
  simp only []
  split
  · next one =>
    have first := toNat_byte_small (show point.val < 256 by omega)
    rw [List.cons_append, List.nil_append, decodeUtf8.eq_def]
    simp only [first, one, ↓reduceIte, point_eq point rfl]
  split
  · next one two =>
    have first := toNat_byte_small (show 0xC0 + point.val / 64 < 256 by omega)
    rw [List.cons_append, List.cons_append, List.nil_append, decodeUtf8.eq_def]
    simp only [first, last.2]
    rw [if_neg (by omega), if_pos ⟨by omega, by omega, last.1⟩, point_eq point (by omega)]
  split
  · next one two three =>
    have first := toNat_byte_small (show 0xE0 + point.val / 4096 < 256 by omega)
    rw [List.cons_append, List.cons_append, List.cons_append, List.nil_append, decodeUtf8.eq_def]
    simp only [first, third.2, last.2]
    rw [if_neg (by omega), if_neg (by omega),
      if_pos ⟨by omega, by omega, third.1, last.1, by omega, by omega⟩,
      point_eq point (by omega)]
  · next one two three =>
    have first := toNat_byte_small (show 0xF0 + point.val / 262144 < 256 by omega)
    rw [List.cons_append, List.cons_append, List.cons_append, List.cons_append, List.nil_append,
      decodeUtf8.eq_def]
    simp only [first, second.2, third.2, last.2]
    rw [if_neg (by omega), if_neg (by omega), if_neg (by omega),
      if_pos ⟨by omega, by omega, second.1, third.1, last.1, by omega, by omega⟩,
      point_eq point (by omega)]

/-- Decoding undoes encoding. -/
theorem decodeUtf8_encodeUtf8 {text : Text} {data : Bytes} (ok : text.encodeUtf8 = some data) :
    decodeUtf8 data = some text := by
  unfold Text.encodeUtf8 at ok
  split at ok
  · cases ok
  · next plain =>
    cases ok
    simp only [Bool.not_eq_true, List.any_eq_false] at plain
    induction text with
    | nil => rfl
    | cons point rest ih =>
      have here : point.isSurrogate = false := by simpa using plain point (List.mem_cons_self ..)
      rw [List.flatMap_cons, decodeUtf8_encodeCodePoint here,
        ih fun later member => plain later (List.mem_cons_of_mem _ member)]
      rfl

private theorem toNat_continuation {octet : UInt8} (continued : isContinuation octet = true) :
    octet.toNat = 0x80 + lowBits octet ∧ lowBits octet < 64 := by
  simp only [isContinuation, Bool.and_eq_true, decide_eq_true_eq] at continued
  unfold lowBits
  omega

private theorem byte_eq {octet : UInt8} {value : Nat} (same : value = octet.toNat) :
    byte value = octet := by
  rw [same, byte]
  exact UInt8.ofNat_toNat

private theorem point_val {value : Nat} (bound : value < 0x110000) :
    (Fin.ofNat 0x110000 value).val = value :=
  Nat.mod_eq_of_lt bound

/-- A code point the decoder takes is written with the bytes it was read from. -/
private theorem encodeUtf8_cons {point : CodePoint} {encoded rest : Bytes} {text : Text}
    (plain : point.isSurrogate = false) (written : encodeCodePoint point = encoded)
    (ok : Text.encodeUtf8 text = some rest) :
    Text.encodeUtf8 (point :: text) = some (encoded ++ rest) := by
  unfold Text.encodeUtf8 at ok ⊢
  split at ok
  · cases ok
  · rename_i others
    cases ok
    rw [if_neg (by simpa [plain] using others), List.flatMap_cons, written]

/-- Encoding undoes decoding: no two byte strings decode alike. -/
theorem encodeUtf8_decodeUtf8 {data : Bytes} {text : Text} (ok : decodeUtf8 data = some text) :
    text.encodeUtf8 = some data := by
  fun_induction decodeUtf8 data generalizing text with
  | case1 =>
    cases ok
    rfl
  | case2 first rest one ih =>
    obtain ⟨tail, decoded, rfl⟩ := Option.map_eq_some_iff.mp ok
    have value := point_val (show first.toNat < 0x110000 by omega)
    have plain : CodePoint.isSurrogate (Fin.ofNat 0x110000 first.toNat) = false := by
      simp only [CodePoint.isSurrogate, value, Bool.and_eq_false_iff, decide_eq_false_iff_not]
      omega
    have written : encodeCodePoint (Fin.ofNat 0x110000 first.toNat) = [first] := by
      unfold encodeCodePoint
      rw [value, if_pos one, byte_eq rfl]
    exact encodeUtf8_cons plain written (ih decoded)
  | case4 first other second rest two ih =>
    obtain ⟨tail, decoded, rfl⟩ := Option.map_eq_some_iff.mp ok
    obtain ⟨low, high, continued⟩ := two
    obtain ⟨bits, small⟩ := toNat_continuation continued
    have value := point_val (show (first.toNat - 0xC0) * 64 + lowBits second < 0x110000 by omega)
    have plain : CodePoint.isSurrogate
        (Fin.ofNat 0x110000 ((first.toNat - 0xC0) * 64 + lowBits second)) = false := by
      simp only [CodePoint.isSurrogate, value, Bool.and_eq_false_iff, decide_eq_false_iff_not]
      omega
    have written : encodeCodePoint
        (Fin.ofNat 0x110000 ((first.toNat - 0xC0) * 64 + lowBits second)) = [first, second] := by
      have lead : byte (0xC0 + ((first.toNat - 0xC0) * 64 + lowBits second) / 64) = first :=
        byte_eq (by omega)
      have last : byte (0x80 + ((first.toNat - 0xC0) * 64 + lowBits second) % 64) = second :=
        byte_eq (by omega)
      unfold encodeCodePoint
      dsimp only
      rw [value, if_neg (by omega), if_pos (by omega), lead, last]
    exact encodeUtf8_cons plain written (ih decoded)
  | case6 first _ second _ third rest three accepted =>
    rename_i ih
    obtain ⟨tail, decoded, rfl⟩ := Option.map_eq_some_iff.mp ok
    obtain ⟨low, high, continued, ended, least, outside⟩ := accepted
    obtain ⟨bits, small⟩ := toNat_continuation continued
    obtain ⟨lastBits, lastSmall⟩ := toNat_continuation ended
    have sum : three = (first.toNat - 0xE0) * 4096 + lowBits second * 64 + lowBits third := rfl
    have value := point_val (show three < 0x110000 by omega)
    have plain : CodePoint.isSurrogate (Fin.ofNat 0x110000 three) = false := by
      simp only [CodePoint.isSurrogate, value, Bool.and_eq_false_iff, decide_eq_false_iff_not]
      omega
    have written : encodeCodePoint (Fin.ofNat 0x110000 three) = [first, second, third] := by
      have lead : byte (0xE0 + three / 4096) = first := byte_eq (by omega)
      have middle : byte (0x80 + three / 64 % 64) = second := byte_eq (by omega)
      have last : byte (0x80 + three % 64) = third := byte_eq (by omega)
      unfold encodeCodePoint
      dsimp only
      rw [value, if_neg (by omega), if_neg (by omega), if_pos (by omega), lead, middle, last]
    exact encodeUtf8_cons plain written (ih decoded)
  | case8 first _ second _ third _ _ fourth rest four accepted =>
    rename_i ih
    obtain ⟨tail, decoded, rfl⟩ := Option.map_eq_some_iff.mp ok
    obtain ⟨low, high, continued, further, ended, least, most⟩ := accepted
    obtain ⟨bits, small⟩ := toNat_continuation continued
    obtain ⟨moreBits, moreSmall⟩ := toNat_continuation further
    obtain ⟨lastBits, lastSmall⟩ := toNat_continuation ended
    have sum : four = (first.toNat - 0xF0) * 262144 + lowBits second * 4096 + lowBits third * 64 +
      lowBits fourth := rfl
    have value := point_val (show four < 0x110000 by omega)
    have plain : CodePoint.isSurrogate (Fin.ofNat 0x110000 four) = false := by
      simp only [CodePoint.isSurrogate, value, Bool.and_eq_false_iff, decide_eq_false_iff_not]
      omega
    have written : encodeCodePoint (Fin.ofNat 0x110000 four) = [first, second, third, fourth] := by
      have lead : byte (0xF0 + four / 262144) = first := byte_eq (by omega)
      have inner : byte (0x80 + four / 4096 % 64) = second := byte_eq (by omega)
      have middle : byte (0x80 + four / 64 % 64) = third := byte_eq (by omega)
      have last : byte (0x80 + four % 64) = fourth := byte_eq (by omega)
      unfold encodeCodePoint
      dsimp only
      rw [value, if_neg (by omega), if_neg (by omega), if_neg (by omega), lead, inner, middle, last]
    exact encodeUtf8_cons plain written (ih decoded)
  | _ => cases ok

end Mqttium.Codec
