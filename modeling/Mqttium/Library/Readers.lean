import Mathlib.Algebra.Order.Ring.Nat
import Mathlib.Data.List.Basic

/-! Readers that take a value from a buffer at an offset and return the offset after
it. A reader recovers a value from its encoding when it does so wherever the
encoding lies, so what stands before and behind it plays no part. -/

namespace Mqttium.Library

universe u v w

variable {Symbol : Type u} {Error : Type v} {Value Other : Type w}

/-- The symbols stand in the buffer at the offset. -/
def LiesAt (data buffer : List Symbol) (offset : Nat) : Prop :=
  ∃ before after, buffer = before ++ data ++ after ∧ before.length = offset

namespace LiesAt

variable {data first second buffer : List Symbol} {symbol : Symbol} {offset : Nat}

theorem here (data before after : List Symbol) :
    LiesAt data (before ++ data ++ after) before.length := ⟨before, after, rfl, rfl⟩

theorem bound (lies : LiesAt data buffer offset) : offset + data.length ≤ buffer.length := by
  obtain ⟨before, after, rfl, rfl⟩ := lies
  simp

theorem left (lies : LiesAt (first ++ second) buffer offset) : LiesAt first buffer offset := by
  obtain ⟨before, after, rfl, rfl⟩ := lies
  exact ⟨before, second ++ after, by simp, rfl⟩

theorem right (lies : LiesAt (first ++ second) buffer offset) :
    LiesAt second buffer (offset + first.length) := by
  obtain ⟨before, after, rfl, rfl⟩ := lies
  exact ⟨before ++ first, after, by simp, by simp⟩

theorem tail (lies : LiesAt (symbol :: data) buffer offset) : LiesAt data buffer (offset + 1) :=
  right (show LiesAt ([symbol] ++ data) buffer offset from lies)

theorem head (lies : LiesAt (symbol :: data) buffer offset) (missing : Symbol) :
    buffer.getD offset missing = symbol := by
  obtain ⟨before, after, rfl, rfl⟩ := lies
  simp

theorem within (lies : LiesAt (symbol :: data) buffer offset) : offset < buffer.length := by
  have := lies.bound
  simp only [List.length_cons] at this
  omega

theorem cut (lies : LiesAt data buffer offset) :
    (buffer.take (offset + data.length)).drop offset = data := by
  obtain ⟨before, after, rfl, rfl⟩ := lies
  rw [← List.length_append, List.take_left, List.drop_left]

theorem drop (lies : LiesAt data buffer offset) (last : offset + data.length = buffer.length) :
    buffer.drop offset = data := by
  have cut := lies.cut
  rwa [last, List.take_length] at cut

end LiesAt

/-- Wherever the symbols lie, the reader takes exactly them and yields the value. -/
def Recovers (reader : List Symbol → Nat → Except Error (Value × Nat)) (data : List Symbol)
    (value : Value) : Prop :=
  ∀ ⦃buffer offset⦄, LiesAt data buffer offset →
    reader buffer offset = .ok (value, offset + data.length)

namespace Recovers

variable {reader : List Symbol → Nat → Except Error (Value × Nat)} {data : List Symbol}
  {value : Value}

theorem map (recovers : Recovers reader data value) (change : Value → Other) :
    Recovers (fun buffer offset => do
      let (value, next) ← reader buffer offset
      return (change value, next)) data (change value) := by
  intro buffer offset lies
  simp only [recovers lies, bind, Except.bind, pure, Except.pure]

end Recovers

end Mqttium.Library
