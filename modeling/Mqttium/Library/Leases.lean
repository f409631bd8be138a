import Mathlib.Algebra.Order.Ring.Nat
import Mathlib.Logic.Function.Basic
import Mathlib.Logic.Relation
import Mathlib.Order.Nat

/-! Names that are used again and again. Each use of a name has a serial number, and a
name may carry a token; neither number is ever given out twice. -/

namespace Mqttium.Library

universe u

structure Leases (Name : Type u) where
  serial : Name → Option Nat
  token : Name → Option Nat
  lastSerial : Nat
  nextToken : Nat

namespace Leases

variable {Name : Type u}

structure Sound (leases : Leases Name) : Prop where
  serials : ∀ {name number}, leases.serial name = some number → number ≤ leases.lastSerial
  tokens : ∀ {name token}, leases.token name = some token → token < leases.nextToken
  apart : ∀ {left right token}, leases.token left = some token → leases.token right = some token →
    left = right

variable [DecidableEq Name]

/-- Start a use of a name, with a token of its own. -/
def start (leases : Leases Name) (name : Name) : Leases Name where
  serial := Function.update leases.serial name (some (leases.lastSerial + 1))
  token := Function.update leases.token name (some leases.nextToken)
  lastSerial := leases.lastSerial + 1
  nextToken := leases.nextToken + 1

def issue (leases : Leases Name) (name : Name) : Leases Name :=
  { leases with
    token := Function.update leases.token name (some leases.nextToken)
    nextToken := leases.nextToken + 1 }

def finish (leases : Leases Name) (name : Name) : Leases Name :=
  { leases with
    serial := Function.update leases.serial name none
    token := Function.update leases.token name none }

def clear (leases : Leases Name) : Leases Name :=
  { leases with serial := fun _ => none, token := fun _ => none }

inductive Move (leases : Leases Name) : Leases Name → Prop where
  | start (name : Name) (free : leases.serial name = none) : Move leases (leases.start name)
  | issue (name : Name) (bare : leases.token name = none) : Move leases (leases.issue name)
  | finish (name : Name) : Move leases (leases.finish name)
  | clear : Move leases leases.clear

variable {before between after : Leases Name} {name other : Name} {number token : Nat}

abbrev Steps : Leases Name → Leases Name → Prop := Relation.ReflTransGen Move

theorem Sound.issue (sound : before.Sound) (name : Name) : (before.issue name).Sound := by
  have old {which : Name} {token : Nat} (found : (before.issue name).token which = some token)
      (different : which ≠ name) : before.token which = some token := by
    simpa [Leases.issue, different] using found
  have new {token : Nat} (found : (before.issue name).token name = some token) :
      token = before.nextToken := by
    simpa [Leases.issue] using found.symm
  refine ⟨sound.serials, ?_, ?_⟩
  · intro which token found
    by_cases same : which = name
    · subst same
      exact Nat.lt_succ_of_le (new found).le
    · exact Nat.lt_succ_of_lt (sound.tokens (old found same))
  · intro left right token first second
    by_cases onLeft : left = name
    · by_cases onRight : right = name
      · exact onLeft.trans onRight.symm
      · subst onLeft
        have later := sound.tokens (old second onRight)
        exact absurd (new first) later.ne
    · by_cases onRight : right = name
      · subst onRight
        have later := sound.tokens (old first onLeft)
        exact absurd (new second) later.ne
      · exact sound.apart (old first onLeft) (old second onRight)

theorem Sound.move (sound : before.Sound) (move : Move before after) : after.Sound := by
  cases move with
  | start name free =>
    have issued := sound.issue name
    refine ⟨?_, issued.tokens, issued.apart⟩
    intro which number found
    by_cases same : which = name
    · subst same
      have exactly : before.lastSerial + 1 = number := by simpa [Leases.start] using found
      exact exactly.ge
    · have kept : before.serial which = some number := by simpa [Leases.start, same] using found
      exact Nat.le_succ_of_le (sound.serials kept)
  | issue name bare => exact sound.issue name
  | finish name =>
    have kept {which : Name} {token : Nat} (found : (before.finish name).token which = some token) :
        before.token which = some token := by
      by_cases same : which = name
      · subst same
        simp [Leases.finish] at found
      · simpa [Leases.finish, same] using found
    refine ⟨?_, fun found => sound.tokens (kept found),
      fun first second => sound.apart (kept first) (kept second)⟩
    intro which number found
    by_cases same : which = name
    · subst same
      simp [Leases.finish] at found
    · have old : before.serial which = some number := by simpa [Leases.finish, same] using found
      exact sound.serials old
  | clear => exact ⟨by simp [Leases.clear], by simp [Leases.clear], by simp [Leases.clear]⟩

theorem Sound.steps (sound : before.Sound) (steps : Steps before after) : after.Sound := by
  induction steps with
  | refl => exact sound
  | tail _ move ih => exact ih.move move

/-- What a run leaves of the serial numbers and tokens that were there before it. -/
structure Follows (before after : Leases Name) : Prop where
  serials : before.lastSerial ≤ after.lastSerial
  tokens : before.nextToken ≤ after.nextToken
  /-- A use that goes on has its serial number and its token still. -/
  same : ∀ {name number}, after.serial name = some number → number ≤ before.lastSerial →
    before.serial name = some number ∧
      ∀ {token}, before.token name = some token → after.token name = some token
  /-- A token that was given out before is still on its name and its use. -/
  old : ∀ {name token}, after.token name = some token → token < before.nextToken →
    before.token name = some token ∧
      ∀ {number}, after.serial name = some number → number ≤ before.lastSerial

omit [DecidableEq Name] in
theorem Follows.refl (sound : before.Sound) : Follows before before :=
  ⟨le_refl _, le_refl _, fun found _ => ⟨found, id⟩, fun found _ => ⟨found, sound.serials⟩⟩

omit [DecidableEq Name] in
theorem Follows.trans (first : Follows before between) (second : Follows between after) :
    Follows before after := by
  refine ⟨first.serials.trans second.serials, first.tokens.trans second.tokens, ?_, ?_⟩
  · intro name number found bounded
    obtain ⟨there, kept⟩ := second.same found (bounded.trans first.serials)
    obtain ⟨here, held⟩ := first.same there bounded
    exact ⟨here, fun given => kept (held given)⟩
  · intro name token found bounded
    obtain ⟨there, used⟩ := second.old found (bounded.trans_le first.tokens)
    obtain ⟨here, served⟩ := first.old there bounded
    exact ⟨here, fun open_ => served (second.same open_ (used open_)).1⟩

theorem follows_move (sound : before.Sound) (move : Move before after) : Follows before after := by
  cases move with
  | start name free =>
    refine ⟨Nat.le_succ _, Nat.le_succ _, ?_, ?_⟩
    · intro which number found bounded
      by_cases same : which = name
      · subst same
        have exactly : before.lastSerial + 1 = number := by simpa [Leases.start] using found
        omega
      · have kept : before.serial which = some number := by simpa [Leases.start, same] using found
        exact ⟨kept, fun given => by simpa [Leases.start, same] using given⟩
    · intro which token found bounded
      by_cases same : which = name
      · subst same
        have exactly : before.nextToken = token := by simpa [Leases.start] using found
        omega
      · refine ⟨by simpa [Leases.start, same] using found, fun {number} served => ?_⟩
        have kept : before.serial which = some number := by simpa [Leases.start, same] using served
        exact sound.serials kept
  | issue name bare =>
    refine ⟨le_refl _, Nat.le_succ _, ?_, ?_⟩
    · intro which number found _
      refine ⟨found, fun given => ?_⟩
      have different : which ≠ name := by
        rintro rfl
        rw [bare] at given
        cases given
      simpa [Leases.issue, different] using given
    · intro which token found bounded
      by_cases same : which = name
      · subst same
        have exactly : before.nextToken = token := by simpa [Leases.issue] using found
        omega
      · exact ⟨by simpa [Leases.issue, same] using found, sound.serials⟩
  | finish name =>
    refine ⟨le_refl _, le_refl _, ?_, ?_⟩
    · intro which number found _
      by_cases same : which = name
      · subst same
        simp [Leases.finish] at found
      · exact ⟨by simpa [Leases.finish, same] using found,
          fun given => by simpa [Leases.finish, same] using given⟩
    · intro which token found _
      by_cases same : which = name
      · subst same
        simp [Leases.finish] at found
      · refine ⟨by simpa [Leases.finish, same] using found, fun {number} served => ?_⟩
        have kept : before.serial which = some number := by simpa [Leases.finish, same] using served
        exact sound.serials kept
  | clear =>
    exact ⟨le_refl _, le_refl _, by simp [Leases.clear], by simp [Leases.clear]⟩

theorem Sound.follows (sound : before.Sound) (steps : Steps before after) :
    Follows before after := by
  induction steps with
  | refl => exact .refl sound
  | tail steps move ih => exact ih.trans (follows_move (sound.steps steps) move)

/-- The name is in use under this number and carries the token. -/
def Bound (leases : Leases Name) (name : Name) (number token : Nat) : Prop :=
  leases.serial name = some number ∧ leases.token name = some token

/-- A use keeps its token as long as it lasts. -/
theorem Bound.kept (bound : before.Bound name number token) (sound : before.Sound)
    (steps : Steps before after) (lasts : after.serial name = some number) :
    after.Bound name number token :=
  ⟨lasts, ((sound.follows steps).same lasts (sound.serials bound.1)).2 bound.2⟩

/-- A token is never of another use than the one its name has, if any. -/
theorem Sound.unique (sound : before.Sound) (held : before.token name = some token)
    (steps : Steps before after) (again : after.Bound other number token) :
    other = name ∧ before.serial name = some number := by
  have follows := sound.follows steps
  obtain ⟨given, served⟩ := follows.old again.2 (sound.tokens held)
  have same : other = name := sound.apart given held
  subst same
  exact ⟨rfl, (follows.same again.1 (served again.1)).1⟩

end Leases

end Mqttium.Library
