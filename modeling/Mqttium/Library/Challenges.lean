import Mathlib.Algebra.Order.Ring.Nat
import Mathlib.Data.List.Basic
import Mathlib.Data.List.Count

/-! Challenges and answers, in the order they happened. A challenge may be answered until
anything else happens: a newer challenge, its answer, or its withdrawal. -/

namespace Mqttium.Library

inductive ChallengeEvent (Reason : Type) where
  | challenged (number : Nat)
  | answered (number : Nat)
  | withdrawn (reason : Reason)
  deriving DecidableEq, Repr

open ChallengeEvent

variable {Reason : Type}

/-- The exchanges with consecutive challenge numbers: what is pending, how many challenges
there were, and the history. -/
inductive Exchange : Option Nat → Nat → List (ChallengeEvent Reason) → Prop where
  | start : Exchange none 0 []
  | challenge {pending : Option Nat} {count : Nat} {log : List (ChallengeEvent Reason)} :
    Exchange pending count log →
    Exchange (some (count + 1)) (count + 1) (log ++ [challenged (count + 1)])
  | answer {number count : Nat} {log : List (ChallengeEvent Reason)} :
    Exchange (some number) count log → Exchange none count (log ++ [answered number])
  | withdraw {pending : Option Nat} {count : Nat} {log : List (ChallengeEvent Reason)}
    (reason : Reason) : Exchange pending count log → Exchange none count (log ++ [withdrawn reason])

/-- An element of a list with a last one is that one or comes earlier. -/
theorem concat_split {Event : Type} {events before rest : List Event} {last head : Event}
    (same : events ++ [last] = before ++ head :: rest) :
    (rest = [] ∧ events = before ∧ last = head) ∨
      ∃ shorter, rest = shorter ++ [last] ∧ events = before ++ head :: shorter := by
  rcases List.eq_nil_or_concat' rest with rfl | ⟨shorter, final, rfl⟩
  · obtain ⟨front, back⟩ := List.append_inj' same rfl
    exact .inl ⟨rfl, front, (List.cons.inj back).1⟩
  · rw [← List.cons_append, ← List.append_assoc] at same
    obtain ⟨front, back⟩ := List.append_inj' same rfl
    cases back
    exact .inr ⟨shorter, rfl, front⟩

namespace Exchange

variable {pending : Option Nat} {count number : Nat} {log : List (ChallengeEvent Reason)}

theorem pending_iff (exchange : Exchange pending count log) :
    pending = some number ↔ ∃ earlier, log = earlier ++ [challenged number] := by
  cases exchange with
  | start => simp
  | challenge _ =>
    constructor
    · intro same
      cases same
      exact ⟨_, rfl⟩
    · rintro ⟨earlier, same⟩
      obtain ⟨_, last⟩ := List.append_inj' same rfl
      cases last
      rfl
  | answer _ =>
    refine ⟨nofun, fun ⟨earlier, same⟩ => ?_⟩
    obtain ⟨_, last⟩ := List.append_inj' same rfl
    cases last
  | withdraw _ _ =>
    refine ⟨nofun, fun ⟨earlier, same⟩ => ?_⟩
    obtain ⟨_, last⟩ := List.append_inj' same rfl
    cases last

theorem challenged_le (exchange : Exchange pending count log) (member : challenged number ∈ log) :
    number ≤ count := by
  induction exchange with
  | start => cases member
  | challenge _ ih =>
    rcases List.mem_append.mp member with before | last
    · exact Nat.le_succ_of_le (ih before)
    · cases List.mem_singleton.mp last
      exact Nat.le_refl _
  | answer _ ih =>
    rcases List.mem_append.mp member with before | last
    · exact ih before
    · cases List.mem_singleton.mp last
  | withdraw _ _ ih =>
    rcases List.mem_append.mp member with before | last
    · exact ih before
    · cases List.mem_singleton.mp last

/-- The answer to a challenge comes right after it. -/
theorem answers (exchange : Exchange pending count log) {before rest : List (ChallengeEvent Reason)}
    (parts : log = before ++ answered number :: rest) :
    ∃ earlier, before = earlier ++ [challenged number] := by
  induction exchange generalizing rest with
  | start => simp at parts
  | challenge _ ih =>
    rcases concat_split parts with ⟨_, _, other⟩ | ⟨shorter, _, same⟩
    · cases other
    · exact ih same
  | answer exchange ih =>
    rcases concat_split parts with ⟨_, rfl, same⟩ | ⟨shorter, _, same⟩
    · cases same
      exact exchange.pending_iff.mp rfl
    · exact ih same
  | withdraw _ _ ih =>
    rcases concat_split parts with ⟨_, _, other⟩ | ⟨shorter, _, same⟩
    · cases other
    · exact ih same

variable [DecidableEq Reason]

theorem challenged_once (exchange : Exchange pending count log) :
    log.count (challenged number) ≤ 1 := by
  induction exchange with
  | start => simp
  | @challenge pending count log exchange ih =>
    rw [List.count_append, List.count_singleton']
    split
    · next same =>
      cases same
      have fresh : log.count (challenged (count + 1)) = 0 := List.count_eq_zero.mpr fun member =>
        absurd (exchange.challenged_le member) (Nat.not_succ_le_self _)
      omega
    · exact ih
  | answer _ ih => simpa [List.count_append] using ih
  | withdraw _ _ ih => simpa [List.count_append] using ih

theorem answered_once (exchange : Exchange pending count log) :
    log.count (answered number) ≤ 1 := by
  induction exchange with
  | start => simp
  | challenge _ ih => simpa [List.count_append] using ih
  | withdraw _ _ ih => simpa [List.count_append] using ih
  | @answer last count log exchange ih =>
    rw [List.count_append, List.count_singleton']
    split
    · next same =>
      cases same
      obtain ⟨earlier, ends⟩ := exchange.pending_iff.mp rfl
      have absent : answered number ∉ log := by
        intro member
        obtain ⟨before, rest, parts⟩ := List.append_of_mem member
        obtain ⟨first, challenges⟩ := exchange.answers parts
        have twice : log.count (challenged number) ≤ 1 := exchange.challenged_once
        obtain ⟨shorter, rfl⟩ : ∃ shorter, rest = shorter ++ [challenged number] := by
          rcases concat_split (ends.symm.trans parts) with ⟨_, _, other⟩ | ⟨shorter, same, _⟩
          · cases other
          · exact ⟨shorter, same⟩
        rw [parts, challenges] at twice
        simp only [List.count_append, List.count_cons_self, List.count_nil] at twice
        rw [List.count_cons_of_ne (by simp), List.count_append, List.count_cons_self] at twice
        omega
      have fresh : log.count (answered number) = 0 := List.count_eq_zero.mpr absent
      omega
    · exact ih

end Exchange

end Mqttium.Library
