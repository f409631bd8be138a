import Mathlib.Algebra.Order.Ring.Nat
import Mathlib.Data.List.Basic

/-! Extended slices with a positive step: every `step + 1`-th item from an offset on, read
and written in place. -/

namespace Mqttium.Library

universe u

variable {Item : Type u}

/-- `items[offset::step + 1]`. -/
def stride (step : Nat) : Nat → List Item → List Item
  | _, [] => []
  | 0, item :: rest => item :: stride step step rest
  | offset + 1, _ :: rest => stride step offset rest

/-- `items[offset::step + 1] = values`; `none` where the sizes differ. -/
def assignStride (step : Nat) : Nat → List Item → List Item → Option (List Item)
  | _, [], [] => some []
  | _, [], _ :: _ => none
  | 0, _ :: rest, value :: values => (assignStride step step rest values).map (value :: ·)
  | 0, _ :: _, [] => none
  | offset + 1, item :: rest, values => (assignStride step offset rest values).map (item :: ·)

/-- The slice covers the index. -/
def Covers (step offset index : Nat) : Prop := offset ≤ index ∧ (index - offset) % (step + 1) = 0

instance (step offset index : Nat) : Decidable (Covers step offset index) :=
  inferInstanceAs (Decidable (_ ∧ _))

theorem covers_first (step : Nat) : Covers step 0 0 := ⟨Nat.le_refl 0, Nat.zero_mod _⟩

theorem covers_next (step index : Nat) : Covers step 0 (index + 1) ↔ Covers step step index := by
  simp only [Covers, Nat.zero_le, true_and, Nat.sub_zero]
  constructor
  · intro whole
    have reached : step + 1 ≤ index + 1 :=
      Nat.le_of_dvd (Nat.succ_pos index) (Nat.dvd_of_mod_eq_zero whole)
    refine ⟨by omega, ?_⟩
    have split : index + 1 = index - step + (step + 1) := by omega
    rwa [split, Nat.add_mod_right] at whole
  · rintro ⟨reached, whole⟩
    have split : index + 1 = index - step + (step + 1) := by omega
    rw [split, Nat.add_mod_right, whole]

theorem covers_skip (step offset index : Nat) :
    Covers step (offset + 1) (index + 1) ↔ Covers step offset index := by
  simp only [Covers, Nat.add_le_add_iff_right, Nat.add_sub_add_right]

/-- A slice that starts in the first period covers one residue. -/
theorem covers_iff {step offset index : Nat} (early : offset ≤ step) :
    Covers step offset index ↔ index % (step + 1) = offset := by
  constructor
  · rintro ⟨reached, whole⟩
    have split : index = offset + (index - offset) := by omega
    rw [split, Nat.add_mod, whole, Nat.add_zero, Nat.mod_mod, Nat.mod_eq_of_lt (by omega)]
  · intro residue
    have reached : offset ≤ index := residue ▸ Nat.mod_le index (step + 1)
    refine ⟨reached, ?_⟩
    rw [← residue]
    exact Nat.sub_mod_eq_zero_of_mod_eq (by rw [Nat.mod_mod])

/-- Writing back a slice that was changed item by item changes what it covers. -/
theorem assignStride_map (step offset : Nat) (change : Item → Item) (source target : List Item)
    (same : target.length = source.length) :
    ∃ after, assignStride step offset target ((stride step offset source).map change) = some after ∧
      after.length = source.length ∧
      ∀ index, after[index]? =
        if Covers step offset index then source[index]?.map change else target[index]? := by
  induction source generalizing offset target with
  | nil =>
    rw [List.length_nil, List.length_eq_zero_iff] at same
    subst same
    exact ⟨[], by cases offset <;> rfl, rfl, by simp⟩
  | cons item rest ih =>
    cases target with
    | nil => simp at same
    | cons old others =>
      have same : others.length = rest.length := by simpa using same
      cases offset with
      | zero =>
        obtain ⟨after, assigned, length, read⟩ := ih step others same
        refine ⟨change item :: after, by simp [assignStride, stride, assigned], by simp [length], ?_⟩
        intro index
        cases index with
        | zero => simp [covers_first]
        | succ index => simp only [List.getElem?_cons_succ, covers_next, read]
      | succ offset =>
        obtain ⟨after, assigned, length, read⟩ := ih offset others same
        refine ⟨old :: after, by simp [assignStride, stride, assigned], by simp [length], ?_⟩
        intro index
        cases index with
        | zero => simp [Covers]
        | succ index => simp only [List.getElem?_cons_succ, covers_skip, read]

end Mqttium.Library
