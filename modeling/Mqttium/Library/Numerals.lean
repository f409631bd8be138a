import Mathlib.Algebra.Order.Ring.Nat
import Mathlib.Data.List.Basic

/-! Numbers written as bytes of seven bits, low digit first, each byte but the last with
its top bit set. Any number has many such encodings, and one that is shorter than the
others. -/

namespace Mqttium.Library

/-- What the low seven bits of the bytes stand for. -/
def numeral : List UInt8 → Nat
  | [] => 0
  | digit :: rest => digit.toNat % 128 + 128 * numeral rest

/-- The last byte, and only the last, has its top bit clear. -/
def Continued : List UInt8 → Prop
  | [] => False
  | [last] => last.toNat < 128
  | digit :: rest => 128 ≤ digit.toNat ∧ Continued rest

/-- `data` encodes `value`, and no other encoding of it is shorter. -/
structure Shortest (value : Nat) (data : List UInt8) : Prop where
  continued : Continued data
  stands : numeral data = value
  least : ∀ other, Continued other → numeral other = value → data.length ≤ other.length

variable {data other rest : List UInt8} {digit : UInt8} {value : Nat}

theorem continued_cons (more : rest ≠ []) :
    Continued (digit :: rest) ↔ 128 ≤ digit.toNat ∧ Continued rest := by
  cases rest with
  | nil => exact absurd rfl more
  | cons next rest => rfl

theorem Continued.ne_nil (continued : Continued data) : data ≠ [] := by
  rintro rfl
  exact continued

/-- An encoding is one last byte, or a continued byte and an encoding. -/
theorem Continued.cases (continued : Continued (digit :: rest)) :
    digit.toNat < 128 ∧ rest = [] ∨ 128 ≤ digit.toNat ∧ Continued rest := by
  cases rest with
  | nil => exact .inl ⟨continued, rfl⟩
  | cons next rest => exact .inr continued

theorem numeral_lt (data : List UInt8) : numeral data < 128 ^ data.length := by
  induction data with
  | nil => simp [numeral]
  | cons digit rest ih =>
    rw [numeral, List.length_cons, Nat.pow_succ]
    omega

/-- The digits of a number, as few as it needs. -/
def digits (value : Nat) : List UInt8 :=
  if 0 < value / 128 then UInt8.ofNat (value % 128 + 128) :: digits (value / 128)
  else [UInt8.ofNat (value % 128)]
termination_by value
decreasing_by omega

theorem digits_small (small : value < 128) : digits value = [UInt8.ofNat value] := by
  rw [digits, if_neg (by omega), Nat.mod_eq_of_lt small]

theorem digits_large (large : 128 ≤ value) :
    digits value = UInt8.ofNat (value % 128 + 128) :: digits (value / 128) := by
  rw [digits, if_pos (by omega)]

theorem toNat_last (small : value < 128) : (UInt8.ofNat value).toNat = value := by
  rw [UInt8.toNat_ofNat']
  omega

theorem toNat_more : (UInt8.ofNat (value % 128 + 128)).toNat = value % 128 + 128 := by
  rw [UInt8.toNat_ofNat']
  omega

theorem continued_digits (value : Nat) : Continued (digits value) := by
  induction value using digits.induct with
  | case1 value large ih =>
    rw [digits, if_pos large, continued_cons ih.ne_nil, toNat_more]
    exact ⟨by omega, ih⟩
  | case2 value small =>
    rw [digits, if_neg small, Continued, toNat_last (by omega)]
    omega

theorem numeral_digits (value : Nat) : numeral (digits value) = value := by
  induction value using digits.induct with
  | case1 value large ih =>
    rw [digits, if_pos large, numeral, ih, toNat_more]
    omega
  | case2 value small =>
    rw [digits, if_neg small, numeral, toNat_last (by omega), numeral]
    omega

/-- Every encoding of a number has at least the bytes of its digits, and one that has no
more is its digits. -/
theorem Continued.against_digits (continued : Continued data) :
    (digits (numeral data)).length ≤ data.length ∧
      (data.length = (digits (numeral data)).length → data = digits (numeral data)) := by
  induction data with
  | nil => exact continued.elim
  | cons digit rest ih =>
    obtain ⟨last, rfl⟩ | ⟨more, continued⟩ := continued.cases
    · have single : digits (numeral [digit]) = [digit] := by
        rw [numeral, numeral, Nat.mod_eq_of_lt last, digits_small (by omega)]
        simp
      rw [single]
      exact ⟨le_rfl, fun _ => rfl⟩
    · obtain ⟨bound, unique⟩ := ih continued
      have size : digit.toNat < 256 := digit.toNat_lt
      by_cases positive : numeral rest = 0
      · have single : digits (numeral (digit :: rest)) = [UInt8.ofNat (digit.toNat % 128)] := by
          rw [numeral, positive, digits_small (by omega), Nat.mul_zero, Nat.add_zero]
        have longer : 0 < rest.length := List.length_pos_of_ne_nil continued.ne_nil
        rw [single]
        simp only [List.length_cons, List.length_nil]
        exact ⟨by omega, fun same => by omega⟩
      · have quotient : numeral (digit :: rest) / 128 = numeral rest := by
          rw [numeral]
          omega
        have head : UInt8.ofNat (numeral (digit :: rest) % 128 + 128) = digit := by
          apply UInt8.toNat_inj.mp
          rw [toNat_more, numeral]
          omega
        rw [digits_large (by rw [numeral]; omega), quotient, head]
        simp only [List.length_cons, Nat.add_le_add_iff_right, Nat.add_right_cancel_iff,
          List.cons.injEq, true_and]
        exact ⟨bound, unique⟩

theorem shortest_digits (value : Nat) : Shortest value (digits value) where
  continued := continued_digits value
  stands := numeral_digits value
  least := fun _ continued stands => stands ▸ continued.against_digits.1

/-- A number has one shortest encoding. -/
theorem shortest_iff : Shortest value data ↔ data = digits value := by
  constructor
  · intro shortest
    obtain ⟨atLeast, unique⟩ := shortest.continued.against_digits
    rw [shortest.stands] at atLeast unique
    have atMost := shortest.least _ (continued_digits value) (numeral_digits value)
    exact unique (Nat.le_antisymm atMost atLeast)
  · rintro rfl
    exact shortest_digits value

theorem shortest_of_length (continued : Continued data)
    (counted : data.length = (digits (numeral data)).length) : Shortest (numeral data) data := by
  rw [shortest_iff]
  exact continued.against_digits.2 counted

/-- Each further byte is needed from the next power of 128 on. -/
theorem length_digits_le_iff (value count : Nat) :
    (digits value).length ≤ count + 1 ↔ value < 128 ^ (count + 1) := by
  induction count generalizing value with
  | zero =>
    by_cases small : value < 128
    · simp [digits_small small, small]
    · have more : 0 < (digits (value / 128)).length :=
        List.length_pos_of_ne_nil (continued_digits _).ne_nil
      rw [digits_large (by omega), List.length_cons]
      omega
  | succ count ih =>
    have step : value < 128 ^ (count + 1 + 1) ↔ value / 128 < 128 ^ (count + 1) := by
      rw [Nat.div_lt_iff_lt_mul (by omega), ← Nat.pow_succ]
    rw [step, ← ih]
    by_cases small : value < 128
    · have none : value / 128 = 0 := by omega
      rw [digits_small small, none, digits_small (by omega)]
      simp
    · rw [digits_large (by omega), List.length_cons]
      omega

end Mqttium.Library
