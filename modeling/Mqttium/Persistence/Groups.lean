import Mqttium.Persistence.Store

/-! The pages of a replay, cut by count and by stored size. -/

namespace Mqttium.Persistence

open Library

namespace Store

variable {maxMessages maxBytes : Nat} {sizeOf : Nat → Nat}

/-- A page keeps both limits, or it is a single row. -/
structure Fits (maxMessages maxBytes : Nat) (sizeOf : Nat → Nat) (mids : List Nat) : Prop where
  some : mids ≠ []
  messages : mids.length ≤ maxMessages
  bytes : (mids.map sizeOf).sum ≤ maxBytes ∨ mids.length = 1

/-- A page that is still being filled: both limits leave room. -/
structure Fills (maxMessages maxBytes : Nat) (sizeOf : Nat → Nat) (mids : List Nat) (bytes : Nat) :
    Prop where
  counted : bytes = (mids.map sizeOf).sum
  messages : mids.length < maxMessages
  bytes : bytes < maxBytes

theorem Fills.nil (messages : 0 < maxMessages) (bytes : 0 < maxBytes) :
    Fills maxMessages maxBytes sizeOf [] 0 :=
  ⟨rfl, messages, bytes⟩

theorem Fills.fits {mids : List Nat} {bytes : Nat}
    (fills : Fills maxMessages maxBytes sizeOf mids bytes) (some : mids ≠ []) :
    Fits maxMessages maxBytes sizeOf mids where
  some := some
  messages := Nat.le_of_lt fills.messages
  bytes := .inl (fills.counted ▸ Nat.le_of_lt fills.bytes)

/-- Cutting drops no identifier and keeps the order. -/
theorem flatten_replayGroups (index : List (Nat × Nat)) (mids : List Nat) (bytes : Nat) :
    (replayGroups maxMessages maxBytes index mids bytes).flatten = mids ++ index.map Prod.fst := by
  induction index generalizing mids bytes with
  | nil =>
    simp only [replayGroups]
    split <;> simp_all
  | cons entry rest ih =>
    obtain ⟨mid, size⟩ := entry
    simp only [replayGroups]
    by_cases full : mids ≠ [] ∧ (maxMessages ≤ mids.length ∨ maxBytes < bytes + size)
    · simp only [full, ne_eq, not_false_eq_true, and_self, ↓reduceIte, List.nil_append]
      split <;> simp [ih]
    · simp only [full, ↓reduceIte, List.nil_append]
      split <;> simp [ih]

/-- The row that comes next fits the page that is being filled, alone or with the others. -/
theorem Fills.extend {mids : List Nat} {bytes mid : Nat}
    (fills : Fills maxMessages maxBytes sizeOf mids bytes)
    (room : mids = [] ∨ bytes + sizeOf mid ≤ maxBytes) :
    Fits maxMessages maxBytes sizeOf (mids ++ [mid]) ∧
      bytes + sizeOf mid = ((mids ++ [mid]).map sizeOf).sum := by
  have counted : bytes + sizeOf mid = ((mids ++ [mid]).map sizeOf).sum := by
    simp [fills.counted]
  have messages : (mids ++ [mid]).length ≤ maxMessages := by
    rw [List.length_append, List.length_singleton]
    exact fills.messages
  refine ⟨⟨by simp, messages, ?_⟩, counted⟩
  rcases room with rfl | room
  · right
    rfl
  · left
    exact counted ▸ room

/-- Every page of a replay keeps the limits. -/
theorem replayGroups_fit (positive : 0 < maxMessages) (room : 0 < maxBytes)
    {index : List (Nat × Nat)} (sized : ∀ entry ∈ index, entry.2 = sizeOf entry.1)
    {mids : List Nat} {bytes : Nat} (fills : Fills maxMessages maxBytes sizeOf mids bytes) :
    ∀ group ∈ replayGroups maxMessages maxBytes index mids bytes,
      Fits maxMessages maxBytes sizeOf group := by
  induction index generalizing mids bytes with
  | nil =>
    intro group member
    by_cases none : mids = []
    · simp [replayGroups, none] at member
    · simp only [replayGroups, none, ↓reduceIte, List.mem_singleton] at member
      exact member ▸ fills.fits none
  | cons entry rest ih =>
    obtain ⟨mid, size⟩ := entry
    obtain ⟨same, others⟩ := List.forall_mem_cons.mp sized
    change size = sizeOf mid at same
    subst same
    have next : ∀ (mids : List Nat) (bytes : Nat), Fills maxMessages maxBytes sizeOf mids bytes →
        (mids = [] ∨ bytes + sizeOf mid ≤ maxBytes) →
        ∀ group ∈ (if maxMessages ≤ (mids ++ [mid]).length ∨ maxBytes ≤ bytes + sizeOf mid then
            (mids ++ [mid]) :: replayGroups maxMessages maxBytes rest [] 0
          else replayGroups maxMessages maxBytes rest (mids ++ [mid]) (bytes + sizeOf mid)),
          Fits maxMessages maxBytes sizeOf group := by
      intro mids bytes fills room group member
      obtain ⟨fits, counted⟩ := fills.extend room
      split at member
      · rcases List.mem_cons.mp member with rfl | later
        · exact fits
        · exact ih others (.nil positive ‹_›) group later
      · rename_i cut
        simp only [not_or, Nat.not_le] at cut
        exact ih others ⟨counted, cut.1, cut.2⟩ group member
    intro group member
    simp only [replayGroups] at member
    by_cases full : mids ≠ [] ∧ (maxMessages ≤ mids.length ∨ maxBytes < bytes + sizeOf mid)
    · simp only [full, ne_eq, not_false_eq_true, and_self, ↓reduceIte, List.singleton_append] at member
      have cut : group = mids ∨ group ∈
          (if maxMessages ≤ ([] ++ [mid]).length ∨ maxBytes ≤ 0 + sizeOf mid then
            ([] ++ [mid]) :: replayGroups maxMessages maxBytes rest [] 0
          else replayGroups maxMessages maxBytes rest ([] ++ [mid]) (0 + sizeOf mid)) := by
        rw [← List.mem_cons]
        convert member using 1
        split <;> rfl
      rcases cut with rfl | later
      · exact fills.fits full.1
      · exact next [] 0 (.nil positive room) (.inl rfl) group later
    · simp only [full, ↓reduceIte, List.nil_append] at member
      refine next mids bytes fills ?_ group member
      by_cases none : mids = []
      · exact .inl none
      · right
        have kept : ¬ (maxMessages ≤ mids.length ∨ maxBytes < bytes + sizeOf mid) :=
          fun cut => full ⟨none, cut⟩
        exact Nat.le_of_not_lt fun above => kept (.inr above)

end Store

end Mqttium.Persistence
