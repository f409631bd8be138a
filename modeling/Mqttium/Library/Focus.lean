import Mqttium.Library.Raising

/-! Programs that work on one component of a larger state. -/

namespace Mqttium.Library

universe u

/-- A component of a state. -/
structure Focus (State Part : Type u) where
  part : State → Part
  replace : Part → State → State

variable {Error State Part : Type u} {Value Result : Type u}

namespace Focus

/-- Run a program of the component; an exception keeps what it changed. -/
def run (focus : Focus State Part) (program : EStateM Error Part Value) :
    EStateM Error State Value :=
  fun state => match program (focus.part state) with
    | .ok value part => .ok value (focus.replace part state)
    | .error error part => .error error (focus.replace part state)

end Focus

@[simp] theorem sat_focus (focus : Focus State Part) (program : EStateM Error Part Value)
    (state : State) (returned : Value → State → Prop) (raised : Error → State → Prop) :
    Sat (focus.run program) state returned raised ↔
      Sat program (focus.part state) (fun value part => returned value (focus.replace part state))
        fun error part => raised error (focus.replace part state) := by
  simp only [Sat, Focus.run]
  cases program (focus.part state) <;> rfl

/-- A step of a component is a step of the whole. -/
theorem within_focus {focus : Focus State Part} {program : EStateM Error Part Value}
    {moves : Part → Part → Prop} {relation : State → State → Prop} (within : Within moves program)
    (lift : ∀ state part, moves (focus.part state) part → relation state (focus.replace part state)) :
    Within relation (focus.run program) := by
  intro state
  rw [sat_focus]
  exact (within (focus.part state)).mono (fun _ part moved => lift state part moved)
    fun _ part moved => lift state part moved

/-- Where the guard held, it holds. -/
def Maintains (guard : State → Prop) (before after : State) : Prop := guard before → guard after

instance (guard : State → Prop) : IsPreorder State (Maintains guard) where
  refl _ holds := holds
  trans _ _ _ first second holds := second (first holds)

theorem within_maintains {guard : State → Prop} {program : EStateM Error State Value}
    (holds : ∀ state, guard state → Sat program state (fun _ => guard) fun _ => guard) :
    Within (Maintains guard) program := by
  intro state
  by_cases given : guard state
  · exact (holds state given).mono (fun _ _ kept _ => kept) fun _ _ kept _ => kept
  · exact Sat.of_forall (fun _ _ still => absurd still given) fun _ _ still => absurd still given

end Mqttium.Library
