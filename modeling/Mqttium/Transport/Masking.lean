import Mqttium.Library.Strides
import Mqttium.Transport.Frames

/-! Masking by translation tables and slices, against the bytewise mask. -/

namespace Mqttium.Transport

open Library Codec

/-- The byte translation tables used for masking. -/
def xorTables : List Bytes :=
  (List.range 256).map fun key => (List.range 256).map fun value => byte (value ^^^ key)

/-- `data.translate(table)`. -/
def translate (table data : Bytes) : Bytes := data.map fun octet => table.getD octet.toNat 0

/-- The loop over the mask: every fourth byte goes through one table. -/
def maskSlices (payload : Bytes) : Nat → Bytes → Bytes → Option Bytes
  | _, [], masked => some masked
  | offset, key :: mask, masked => do
    let table := xorTables.getD key.toNat []
    let masked ← assignStride 3 offset masked (translate table (stride 3 offset payload))
    maskSlices payload (offset + 1) mask masked

/-- Apply one mask without a loop over the payload's bytes; `none` where a slice would not fit. -/
def maskPayloadSliced (payload mask : Bytes) : Option Bytes :=
  maskSlices payload 0 mask (List.replicate payload.length 0)

theorem getD_xorTables (key octet : UInt8) :
    (xorTables.getD key.toNat []).getD octet.toNat 0 = octet ^^^ key := by
  have row : xorTables.getD key.toNat [] =
      (List.range 256).map fun value => byte (value ^^^ key.toNat) := by
    rw [xorTables, List.getD_eq_getElem?_getD, List.getElem?_map,
      List.getElem?_range (by exact key.toNat_lt)]
    rfl
  rw [row, List.getD_eq_getElem?_getD, List.getElem?_map,
    List.getElem?_range (by exact octet.toNat_lt)]
  apply UInt8.toNat_inj.mp
  rw [Option.map_some, Option.getD_some, toNat_byte, UInt8.toNat_xor]
  exact Nat.mod_eq_of_lt (Nat.xor_lt_two_pow octet.toNat_lt key.toNat_lt)

theorem translate_xorTables (key : UInt8) (data : Bytes) :
    translate (xorTables.getD key.toNat []) data = data.map (· ^^^ key) := by
  simp only [translate, getD_xorTables]

/-- What the loop has masked so far. -/
theorem maskSlices_spec {payload mask masked : Bytes} {offset : Nat}
    (inside : offset + mask.length ≤ 4) (sized : masked.length = payload.length) :
    ∃ after, maskSlices payload offset mask masked = some after ∧
      after.length = payload.length ∧
      ∀ index, after[index]? =
        if offset ≤ index % 4 ∧ index % 4 < offset + mask.length then
          payload[index]?.map (· ^^^ mask.getD (index % 4 - offset) 0)
        else masked[index]? := by
  induction mask generalizing offset masked with
  | nil =>
    refine ⟨masked, rfl, sized, fun index => ?_⟩
    rw [if_neg (by simp only [List.length_nil]; omega)]
  | cons key mask ih =>
    rw [List.length_cons] at inside
    obtain ⟨written, assigned, length, read⟩ :=
      assignStride_map 3 offset (· ^^^ key) payload masked sized
    obtain ⟨after, done, final, found⟩ := @ih written (offset + 1) (by omega) length
    refine ⟨after, ?_, final, fun index => ?_⟩
    · simp only [maskSlices, translate_xorTables, assigned, bind, Option.bind, done]
    · have covers : Covers 3 offset index ↔ index % 4 = offset := covers_iff (by omega)
      rw [found, read]
      simp only [covers]
      by_cases here : index % 4 = offset
      · rw [if_neg (by omega), if_pos here, if_pos (by simp only [List.length_cons]; omega), here,
          Nat.sub_self, List.getD_cons_zero]
      · rw [if_neg here]
        by_cases later : offset + 1 ≤ index % 4 ∧ index % 4 < offset + 1 + mask.length
        · have deeper : index % 4 - offset = index % 4 - (offset + 1) + 1 := by omega
          rw [if_pos later, if_pos (by simp only [List.length_cons]; omega), deeper,
            List.getD_cons_succ]
        · rw [if_neg later, if_neg (by simp only [List.length_cons]; omega)]

/-- The sliced mask is the bytewise exclusive or with the repeated key. -/
theorem maskPayloadSliced_eq {mask : Bytes} (payload : Bytes) (four : mask.length = 4) :
    maskPayloadSliced payload mask = some (maskPayload payload mask) := by
  obtain ⟨after, done, _, found⟩ :=
    @maskSlices_spec payload mask (List.replicate payload.length 0) 0 (by omega)
      List.length_replicate
  have same : after = maskPayload payload mask := by
    apply List.ext_getElem?
    intro index
    rw [found, if_pos (by omega), maskPayload, List.getElem?_mapIdx, Nat.sub_zero]
  rw [maskPayloadSliced, done, same]

/-! Sizes -/

def maskedFrameSize (payloadSize : Nat) : Nat :=
  if payloadSize < 126 then payloadSize + 6
  else if payloadSize < 65536 then payloadSize + 8
  else payloadSize + 14

theorem length_lengthField (flag size : Nat) : (lengthField flag size).length + size + 5 =
    maskedFrameSize size := by
  unfold lengthField maskedFrameSize
  split
  · simp only [List.length_singleton]
    omega
  · split
    · simp only [List.length_cons, length_bigEndian]
      omega
    · simp only [List.length_cons, length_bigEndian]
      omega

end Mqttium.Transport
