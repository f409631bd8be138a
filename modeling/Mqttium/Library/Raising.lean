import Mathlib.Algebra.Order.Ring.Nat
import Mathlib.Logic.Basic
import Mathlib.Order.Defs.Unbundled

/-! Rules of pre- and postconditions for programs that carry a state and may
raise. An exception keeps the state it was raised in, as in a language with
mutable objects, so a postcondition speaks about both ways to end. -/

namespace Mqttium.Library

universe u

variable {Error State : Type u} {Value Result Item : Type u}

theorem except_bind_ok {computed : Except Error Value} {next : Value → Except Error Result}
    {result : Result} : (computed >>= next) = .ok result ↔
      ∃ value, computed = .ok value ∧ next value = .ok result := by
  cases computed <;> simp [bind, Except.bind]

/-- A refusal in front of the rest of a computation. -/
theorem except_guard_ok {refused : Prop} [Decidable refused] {error : Error}
    {rest : Except Error Value} {value : Value} :
    (if refused then .error error else rest) = .ok value ↔ ¬ refused ∧ rest = .ok value := by
  by_cases refuses : refused <;> simp [refuses]

theorem except_bind_error {computed : Except Error Value} {next : Value → Except Error Result}
    {error : Error} : (computed >>= next) = .error error ↔
      computed = .error error ∨ ∃ value, computed = .ok value ∧ next value = .error error := by
  cases computed <;> simp [bind, Except.bind]

theorem except_discard_ok {computed : Except Error Value} {done : PUnit} :
    discard computed = .ok done ↔ ∃ value, computed = .ok value := by
  cases computed <;> simp [discard, Functor.mapConst, Except.map]

/-- The program ends in a state and value allowed by `returned`, or in a state
and exception allowed by `raised`. -/
def Sat (program : EStateM Error State Value) (state : State)
    (returned : Value → State → Prop) (raised : Error → State → Prop) : Prop :=
  match program state with
  | .ok value after => returned value after
  | .error error after => raised error after

variable {returned : Value → State → Prop} {raised : Error → State → Prop}

theorem Sat.mono {program : EStateM Error State Value} {state : State}
    {weaker : Value → State → Prop} {tolerated : Error → State → Prop}
    (sat : Sat program state returned raised)
    (onReturn : ∀ value after, returned value after → weaker value after)
    (onRaise : ∀ error after, raised error after → tolerated error after) :
    Sat program state weaker tolerated := by
  unfold Sat at *
  cases ended : program state with
  | ok value after =>
    rw [ended] at sat
    exact onReturn value after sat
  | error error after =>
    rw [ended] at sat
    exact onRaise error after sat

theorem Sat.and {program : EStateM Error State Value} {state : State}
    {also : Value → State → Prop} {alsoRaised : Error → State → Prop}
    (left : Sat program state returned raised) (right : Sat program state also alsoRaised) :
    Sat program state (fun value after => returned value after ∧ also value after)
      (fun error after => raised error after ∧ alsoRaised error after) := by
  unfold Sat at *
  cases ended : program state with
  | ok value after =>
    rw [ended] at left right
    exact ⟨left, right⟩
  | error error after =>
    rw [ended] at left right
    exact ⟨left, right⟩

theorem Sat.of_forall {program : EStateM Error State Value} {state : State}
    (onReturn : ∀ value after, returned value after) (onRaise : ∀ error after, raised error after) :
    Sat program state returned raised := by
  unfold Sat
  split
  · exact onReturn _ _
  · exact onRaise _ _

theorem Sat.of_ok {program : EStateM Error State Value} {state after : State} {value : Value}
    (ended : program state = .ok value after) (holds : returned value after) :
    Sat program state returned raised := by
  simpa [Sat, ended] using holds

/-- A program ends as it ends. -/
theorem Sat.itself (program : EStateM Error State Value) (state : State) :
    Sat program state (fun value after => program state = .ok value after)
      (fun error after => program state = .error error after) := by
  unfold Sat
  split <;> assumption

theorem Sat.ok {program : EStateM Error State Value} {state after : State} {value : Value}
    (sat : Sat program state returned raised) (ended : program state = .ok value after) :
    returned value after := by
  simpa [Sat, ended] using sat

theorem Sat.error {program : EStateM Error State Value} {state after : State} {error : Error}
    (sat : Sat program state returned raised) (ended : program state = .error error after) :
    raised error after := by
  simpa [Sat, ended] using sat

@[simp] theorem sat_pure (value : Value) (state : State) :
    Sat (pure value : EStateM Error State Value) state returned raised ↔ returned value state :=
  Iff.rfl

@[simp] theorem sat_throw (error : Error) (state : State) :
    Sat (throw error : EStateM Error State Value) state returned raised ↔ raised error state :=
  Iff.rfl

@[simp] theorem sat_bind (program : EStateM Error State Value)
    (next : Value → EStateM Error State Result) (state : State)
    (returned : Result → State → Prop) :
    Sat (program >>= next) state returned raised ↔
      Sat program state (fun value after => Sat (next value) after returned raised) raised := by
  simp only [Sat, bind, EStateM.bind]
  cases program state <;> rfl

@[simp] theorem sat_map (program : EStateM Error State Value) (change : Value → Result)
    (state : State) (returned : Result → State → Prop) :
    Sat (change <$> program) state returned raised ↔
      Sat program state (fun value => returned (change value)) raised := by
  simp only [Sat, Functor.map, EStateM.map]
  cases program state <;> rfl

@[simp] theorem sat_discard (program : EStateM Error State Value) (state : State)
    (returned : PUnit → State → Prop) :
    Sat (discard program) state returned raised ↔
      Sat program state (fun _ => returned ⟨⟩) raised := by
  change Sat ((fun _ => PUnit.unit) <$> program) state returned raised ↔ _
  rw [sat_map]

@[simp] theorem sat_tryCatch (program : EStateM Error State Value)
    (handler : Error → EStateM Error State Value) (state : State) :
    Sat (tryCatch program handler) state returned raised ↔
      Sat program state returned (fun error after => Sat (handler error) after returned raised) := by
  simp only [Sat, tryCatch, tryCatchThe, MonadExceptOf.tryCatch, EStateM.tryCatch,
    EStateM.Backtrackable.save, EStateM.Backtrackable.restore]
  cases program state <;> rfl

theorem get_eq_ok (state : State) : (get : EStateM Error State State) state = .ok state state := rfl

theorem modify_eq_ok (change : State → State) (state : State) :
    (modify change : EStateM Error State PUnit) state = .ok ⟨⟩ (change state) := rfl

theorem throw_eq_error (error : Error) (state : State) :
    (throw error : EStateM Error State Value) state = .error error state := rfl

@[simp] theorem sat_get (state : State) (returned : State → State → Prop) :
    Sat (get : EStateM Error State State) state returned raised ↔ returned state state :=
  Iff.rfl

@[simp] theorem sat_modify (change : State → State) (state : State)
    (returned : PUnit → State → Prop) :
    Sat (modify change : EStateM Error State PUnit) state returned raised ↔
      returned ⟨⟩ (change state) :=
  Iff.rfl

@[simp] theorem sat_set (fresh state : State) (returned : PUnit → State → Prop) :
    Sat (set fresh : EStateM Error State PUnit) state returned raised ↔ returned ⟨⟩ fresh :=
  Iff.rfl

@[simp] theorem sat_ite (condition : Prop) [Decidable condition]
    (yes no : EStateM Error State Value) (state : State) :
    Sat (if condition then yes else no) state returned raised ↔
      (condition → Sat yes state returned raised) ∧ (¬ condition → Sat no state returned raised) := by
  by_cases holds : condition <;> simp [holds]

/-- Raise when the condition holds, otherwise go on. -/
def raiseIf (condition : Prop) [Decidable condition] (error : Error) :
    EStateM Error State PUnit :=
  if condition then throw error else pure ⟨⟩

@[simp] theorem sat_raiseIf (condition : Prop) [Decidable condition] (error : Error)
    (state : State) (returned : PUnit → State → Prop) :
    Sat (raiseIf condition error) state returned raised ↔
      (condition → raised error state) ∧ (¬ condition → returned ⟨⟩ state) := by
  simp [raiseIf]

/-- Run an action when the condition holds. -/
def onlyIf (condition : Prop) [Decidable condition] (action : EStateM Error State PUnit) :
    EStateM Error State PUnit :=
  if condition then action else pure ⟨⟩

@[simp] theorem sat_onlyIf (condition : Prop) [Decidable condition]
    (action : EStateM Error State PUnit) (state : State) (returned : PUnit → State → Prop) :
    Sat (onlyIf condition action) state returned raised ↔
      (condition → Sat action state returned raised) ∧ (¬ condition → returned ⟨⟩ state) := by
  simp [onlyIf]

/-- Lift a computation that reads nothing of the state. -/
def fromExcept (computed : Except Error Value) : EStateM Error State Value :=
  match computed with
  | .ok value => pure value
  | .error error => throw error

theorem sat_fromExcept_ok (value : Value) (state : State) :
    Sat (fromExcept (.ok value)) state returned raised ↔ returned value state :=
  Iff.rfl

theorem sat_fromExcept_error (error : Error) (state : State) :
    Sat (fromExcept (.error error)) state returned raised ↔ raised error state :=
  Iff.rfl

@[simp] theorem sat_fromExcept (computed : Except Error Value) (state : State) :
    Sat (fromExcept computed) state returned raised ↔
      (∀ value, computed = .ok value → returned value state) ∧
        (∀ error, computed = .error error → raised error state) := by
  cases computed <;> simp [fromExcept]

/-- Run a program and catch the exceptions that match, returning the one caught. -/
def catching (caught : Error → Bool) (program : EStateM Error State PUnit) :
    EStateM Error State (Option Error) :=
  tryCatch (do program; return none) fun error =>
    if caught error then return some error else throw error

@[simp] theorem sat_catching (caught : Error → Bool) (program : EStateM Error State PUnit)
    (state : State) (returned : Option Error → State → Prop) :
    Sat (catching caught program) state returned raised ↔
      Sat program state (fun _ => returned none) fun error after =>
        (caught error = true → returned (some error) after) ∧
          (caught error = false → raised error after) := by
  simp [catching]

/-- Run a program and return how it ended. -/
def attempt (program : EStateM Error State Value) : EStateM Error State (Except Error Value) :=
  fun state => match program state with
    | .ok value after => .ok (.ok value) after
    | .error error after => .ok (.error error) after

@[simp] theorem sat_attempt (program : EStateM Error State Value) (state : State)
    (returned : Except Error Value → State → Prop) :
    Sat (attempt program) state returned raised ↔
      Sat program state (fun value => returned (.ok value)) fun error => returned (.error error) := by
  simp only [Sat, attempt]
  cases program state <;> rfl

/-- How a program ends, and in which state. -/
def ended (program : EStateM Error State Value) (state : State) : Except Error Value × State :=
  match program state with
  | .ok value after => (.ok value, after)
  | .error error after => (.error error, after)

theorem ok_of_ended {program : EStateM Error State Value} {state : State} {value : Value}
    (returns : (ended program state).1 = .ok value) :
    program state = .ok value (ended program state).2 := by
  unfold ended at returns ⊢
  cases result : program state with
  | ok other after =>
    rw [result] at returns
    cases returns
    rfl
  | error error after =>
    rw [result] at returns
    cases returns

theorem sat_ended {program : EStateM Error State Value} {state : State} :
    Sat program state returned raised ↔
      match ended program state with
      | (.ok value, after) => returned value after
      | (.error error, after) => raised error after := by
  simp only [Sat, ended]
  cases program state <;> rfl

/-- Run `body` for each item in order. -/
def forEach (body : Item → EStateM Error State PUnit) : List Item → EStateM Error State PUnit
  | [] => pure ⟨⟩
  | item :: rest => do
    body item
    forEach body rest

/-- A program that returns moves the state within `relation`, one that raises
within `final`. -/
def Ends (relation final : State → State → Prop) (program : EStateM Error State Value) : Prop :=
  ∀ state, Sat program state (fun _ => relation state) (fun _ => final state)

/-- Both ways to end, the program moves the state within the relation. -/
def Within (relation : State → State → Prop) (program : EStateM Error State Value) : Prop :=
  ∀ state, Sat program state (fun _ => relation state) (fun _ => relation state)

/-- What moves within `relation` may still come before a move within `final`. -/
class Ending (relation final : State → State → Prop) : Prop extends IsPreorder State relation where
  lift : ∀ {before after}, relation before after → final before after
  after : ∀ {before between after}, relation before between → final between after →
    final before after

instance (relation : State → State → Prop) [IsPreorder State relation] :
    Ending relation relation where
  lift moved := moved
  after first second := IsTrans.trans _ _ _ first second

section

variable {relation final : State → State → Prop} {program : EStateM Error State Value}

theorem within_modify {change : State → State} (moves : ∀ state, relation state (change state)) :
    Within relation (modify change : EStateM Error State PUnit) :=
  moves

theorem ends_map {change : Value → Result} (first : Ends relation final program) :
    Ends relation final (change <$> program) := by
  intro state
  rw [sat_map]
  exact first state

theorem within_map {change : Value → Result} (first : Within relation program) :
    Within relation (change <$> program) :=
  ends_map first

theorem ends_ite {condition : Prop} [Decidable condition] {other : EStateM Error State Value}
    (yes : Ends relation final program) (no : Ends relation final other) :
    Ends relation final (if condition then program else other) := by
  split
  · exact yes
  · exact no

theorem within_ite {condition : Prop} [Decidable condition] {other : EStateM Error State Value}
    (yes : Within relation program) (no : Within relation other) :
    Within relation (if condition then program else other) :=
  ends_ite yes no

section

variable [Ending relation final]

theorem Within.ends (within : Within relation program) : Ends relation final program :=
  fun state => (within state).mono (fun _ _ moved => moved) (fun _ _ moved => Ending.lift moved)

variable (relation) in
/-- The last move of a program may be within `final` also when it returns. -/
theorem ends_then {next : Value → EStateM Error State Result} (first : Ends relation final program)
    (last : ∀ value, Within final (next value)) : Within final (program >>= next) := by
  intro state
  rw [sat_bind]
  apply (first state).mono
  · intro value between moved
    apply (last value between).mono
    · exact fun _ _ more => Ending.after moved more
    · exact fun _ _ more => Ending.after moved more
  · exact fun _ _ moved => moved

variable (relation) in
theorem ends_last (ends : Ends relation final program) : Within final program :=
  fun state => (ends state).mono (fun _ _ moved => Ending.lift moved) (fun _ _ moved => moved)

theorem ends_onlyIf {condition : Prop} [Decidable condition] {action : EStateM Error State PUnit}
    (ends : Ends relation final action) : Ends relation final (onlyIf condition action) :=
  ends_ite ends fun state => Std.Refl.refl state

theorem ends_bind {next : Value → EStateM Error State Result} (first : Ends relation final program)
    (later : ∀ value, Ends relation final (next value)) :
    Ends relation final (program >>= next) := by
  intro state
  rw [sat_bind]
  apply (first state).mono
  · intro value between moved
    apply (later value between).mono
    · exact fun _ _ more => IsTrans.trans _ _ _ moved more
    · exact fun _ _ more => Ending.after moved more
  · exact fun _ _ moved => moved

end

variable [IsPreorder State relation]

theorem within_pure (value : Value) :
    Within relation (pure value : EStateM Error State Value) :=
  fun state => Std.Refl.refl state

theorem within_throw (error : Error) :
    Within relation (throw error : EStateM Error State Value) :=
  fun state => Std.Refl.refl state

theorem within_get : Within relation (get : EStateM Error State State) :=
  fun state => Std.Refl.refl state

theorem within_bind {next : Value → EStateM Error State Result} (first : Within relation program)
    (later : ∀ value, Within relation (next value)) : Within relation (program >>= next) :=
  ends_bind first later

theorem Sat.then_within {next : Value → EStateM Error State Result} {state : State}
    (first : Sat program state (fun _ => relation state) fun _ => relation state)
    (later : ∀ value, Within relation (next value)) :
    Sat (program >>= next) state (fun _ => relation state) fun _ => relation state := by
  rw [sat_bind]
  apply first.mono
  · intro value between moved
    apply (later value between).mono
    · exact fun _ _ more => IsTrans.trans _ _ _ moved more
    · exact fun _ _ more => IsTrans.trans _ _ _ moved more
  · exact fun _ _ moved => moved

/-- What comes later may rely on how the state moved. -/
theorem Within.then_sat {next : Value → EStateM Error State Result} {state : State}
    (first : Within relation program)
    (later : ∀ value between, relation state between →
      Sat (next value) between (fun _ => relation between) fun _ => relation between) :
    Sat (program >>= next) state (fun _ => relation state) fun _ => relation state := by
  rw [sat_bind]
  apply (first state).mono
  · intro value between moved
    apply (later value between moved).mono
    · exact fun _ _ more => IsTrans.trans _ _ _ moved more
    · exact fun _ _ more => IsTrans.trans _ _ _ moved more
  · exact fun _ _ moved => moved

/-- What moved before the program started. -/
theorem Sat.from {state between : State} (moved : relation state between)
    (sat : Sat program between (fun _ => relation between) fun _ => relation between) :
    Sat program between (fun _ => relation state) fun _ => relation state := by
  apply sat.mono
  · exact fun _ _ more => IsTrans.trans _ _ _ moved more
  · exact fun _ _ more => IsTrans.trans _ _ _ moved more

theorem within_raiseIf {condition : Prop} [Decidable condition] {error : Error} :
    Within relation (raiseIf condition error : EStateM Error State PUnit) :=
  within_ite (within_throw error) (within_pure _)

/-- A check that fails ends the program. -/
theorem within_raised {condition : Prop} [Decidable condition] {error : Error}
    {next : PUnit → EStateM Error State Value} (refused : condition) :
    Within relation (raiseIf condition error >>= next) := by
  intro state
  rw [sat_bind, sat_raiseIf]
  exact ⟨fun _ => Std.Refl.refl state, fun passed => absurd refused passed⟩

theorem within_onlyIf {condition : Prop} [Decidable condition] {action : EStateM Error State PUnit}
    (within : Within relation action) : Within relation (onlyIf condition action) :=
  within_ite within (within_pure _)

theorem within_fromExcept {computed : Except Error Value} :
    Within relation (fromExcept computed : EStateM Error State Value) := by
  cases computed with
  | ok value => exact within_pure value
  | error error => exact within_throw error

/-- What a computation gave is known to the rest of the program. -/
theorem within_from {computed : Except Error Value} {next : Value → EStateM Error State Result}
    (later : ∀ value, computed = .ok value → Within relation (next value)) :
    Within relation (fromExcept computed >>= next) := by
  cases computed with
  | ok value => exact later value rfl
  | error error => exact within_throw error

theorem within_tryCatch {handler : Error → EStateM Error State Value}
    (first : Within relation program) (handles : ∀ error, Within relation (handler error)) :
    Within relation (tryCatch program handler) := by
  intro state
  rw [sat_tryCatch]
  apply (first state).mono
  · exact fun _ _ moved => moved
  · intro error between moved
    apply (handles error between).mono
    · exact fun _ _ more => IsTrans.trans _ _ _ moved more
    · exact fun _ _ more => IsTrans.trans _ _ _ moved more

theorem within_catching {caught : Error → Bool} {program : EStateM Error State PUnit}
    (within : Within relation program) : Within relation (catching caught program) :=
  within_tryCatch (within_bind within fun _ => within_pure _) fun _ =>
    within_ite (within_pure _) (within_throw _)

omit [IsPreorder State relation] in
theorem within_attempt (within : Within relation program) : Within relation (attempt program) := by
  intro state
  rw [sat_attempt]
  exact within state

theorem within_forEach {body : Item → EStateM Error State PUnit} (items : List Item)
    (within : ∀ item, Within relation (body item)) : Within relation (forEach body items) := by
  induction items with
  | nil => exact within_pure _
  | cons item rest ih => exact within_bind (within item) fun _ => ih

end

/-! Values that later steps rely on -/

/-- What follows the program may rely on `holds` of its value to stay within the relation. -/
def Yields (holds : Value → Prop) (relation : State → State → Prop)
    (program : EStateM Error State Value) : Prop :=
  ∀ (Result : Type u) (next : Value → EStateM Error State Result),
    (∀ value, holds value → Within relation (next value)) → Within relation (program >>= next)

section

variable {relation : State → State → Prop} {holds : Value → Prop} {gives : Result → Prop}
  {program : EStateM Error State Value}

theorem yields_then {next : Value → EStateM Error State Result}
    (first : Yields holds relation program)
    (later : ∀ value, holds value → Within relation (next value)) :
    Within relation (program >>= next) :=
  first _ next later

theorem yields_ite {condition : Prop} [Decidable condition] {other : EStateM Error State Value}
    (yes : Yields holds relation program) (no : Yields holds relation other) :
    Yields holds relation (if condition then program else other) := by
  split
  · exact yes
  · exact no

theorem yields_pure {value : Value} (given : holds value) :
    Yields holds relation (pure value : EStateM Error State Value) := by
  intro _ next later
  rw [pure_bind]
  exact later value given

theorem yields_bind {next : Value → EStateM Error State Result}
    (first : Yields holds relation program)
    (later : ∀ value, holds value → Yields gives relation (next value)) :
    Yields gives relation (program >>= next) := by
  intro _ last rest
  rw [bind_assoc]
  exact first _ _ fun value given => later value given _ last rest

variable [IsPreorder State relation]

theorem Within.yields (within : Within relation program) :
    Yields (fun _ => True) relation program :=
  fun _ _ later => within_bind within fun value => later value trivial

theorem Yields.within (yields : Yields holds relation program) : Within relation program := by
  have ended := yields _ pure fun value _ => within_pure value
  rwa [bind_pure] at ended

theorem yields_of_sat (sat : ∀ state, Sat program state
      (fun value after => holds value ∧ relation state after) (fun _ => relation state)) :
    Yields holds relation program := by
  intro _ next later state
  rw [sat_bind]
  apply (sat state).mono
  · intro value between ⟨known, moved⟩
    apply (later value known between).mono
    · exact fun _ _ more => IsTrans.trans _ _ _ moved more
    · exact fun _ _ more => IsTrans.trans _ _ _ moved more
  · exact fun _ _ moved => moved

theorem yields_throw (error : Error) :
    Yields holds relation (throw error : EStateM Error State Value) :=
  fun _ _ _ => within_throw error

end

/-! Relations that hold where an invariant does -/

/-- Where `guard` holds the move keeps it and is one of `moves`. -/
def Guarded (guard : State → Prop) (moves : State → State → Prop) (before after : State) : Prop :=
  guard before → guard after ∧ moves before after

section

variable {guard : State → Prop} {moves : State → State → Prop}
  {program : EStateM Error State Value}

instance [IsPreorder State moves] : IsPreorder State (Guarded guard moves) where
  refl state holds := ⟨holds, Std.Refl.refl state⟩
  trans _ _ _ first second holds :=
    have between := first holds
    have after := second between.1
    ⟨after.1, IsTrans.trans _ _ _ between.2 after.2⟩

theorem within_guarded (holds : ∀ state, guard state →
      Sat program state (fun _ after => guard after ∧ moves state after)
        (fun _ after => guard after ∧ moves state after)) :
    Within (Guarded guard moves) program := by
  intro state
  by_cases given : guard state
  · exact (holds state given).mono (fun _ _ done _ => done) (fun _ _ done _ => done)
  · exact Sat.of_forall (fun _ _ still => absurd still given) (fun _ _ still => absurd still given)

theorem yields_guarded [IsPreorder State moves] {gives : Value → Prop}
    (holds : ∀ state, guard state →
      Sat program state (fun value after => gives value ∧ guard after ∧ moves state after)
        (fun _ after => guard after ∧ moves state after)) :
    Yields gives (Guarded guard moves) program := by
  intro _ next later state
  by_cases given : guard state
  · rw [sat_bind]
    apply (holds state given).mono
    · intro value between ⟨known, kept, moved⟩
      apply (later value known between).mono
      · exact fun _ _ more => IsTrans.trans state between _ (fun _ => ⟨kept, moved⟩) more
      · exact fun _ _ more => IsTrans.trans state between _ (fun _ => ⟨kept, moved⟩) more
    · exact fun _ _ done _ => done
  · exact Sat.of_forall (fun _ _ still => absurd still given) (fun _ _ still => absurd still given)

/-- What is read of the state satisfies the guard. -/
theorem yields_guarded_get :
    Yields guard (Guarded guard moves) (get : EStateM Error State State) := by
  intro _ next later state
  rw [sat_bind, sat_get]
  by_cases given : guard state
  · exact later state given state
  · exact Sat.of_forall (fun _ _ still => absurd still given) (fun _ _ still => absurd still given)

end

/-! Programs that do not raise where an invariant holds -/

/-- Where `guard` holds the program returns, and keeps it. -/
def Returns (guard : State → Prop) (program : EStateM Error State Value) : Prop :=
  ∀ state, guard state → Sat program state (fun _ after => guard after) (fun _ _ => False)

section

variable {guard : State → Prop} {program : EStateM Error State Value}

theorem returns_pure (value : Value) :
    Returns guard (pure value : EStateM Error State Value) :=
  fun _ given => given

theorem returns_get : Returns guard (get : EStateM Error State State) :=
  fun _ given => given

theorem returns_modify {change : State → State} (keeps : ∀ state, guard state → guard (change state)) :
    Returns guard (modify change : EStateM Error State PUnit) :=
  keeps

theorem returns_bind {next : Value → EStateM Error State Result} (first : Returns guard program)
    (later : ∀ value, Returns guard (next value)) : Returns guard (program >>= next) := by
  intro state given
  rw [sat_bind]
  exact (first state given).mono (fun value between kept => later value between kept)
    fun _ _ failed => failed

theorem returns_ite {condition : Prop} [Decidable condition] {other : EStateM Error State Value}
    (yes : Returns guard program) (no : Returns guard other) :
    Returns guard (if condition then program else other) := by
  split
  · exact yes
  · exact no

end

/-! Programs that clean up behind an error and raise it again -/

/-- Both return the same and go on alike, or raise the same error. -/
def Agrees (guarded plain : EStateM Error State Value) : Prop :=
  ∀ state, Sat plain state (fun value after => guarded state = .ok value after)
    (fun error _ => ∃ last, guarded state = .error error last)

section

variable {guarded plain : EStateM Error State Value}

theorem Agrees.refl (program : EStateM Error State Value) : Agrees program program :=
  fun state => (Sat.itself program state).mono (fun _ _ ended => ended) fun _ after ended =>
    ⟨after, ended⟩

/-- The error of the guarded program is that of the plain one. -/
theorem Agrees.error (agrees : Agrees guarded plain) {state after : State} {error : Error}
    (raised : guarded state = .error error after) : ∃ last, plain state = .error error last := by
  have same := agrees state
  cases ended : plain state with
  | ok value last =>
    have other := same.ok ended
    rw [raised] at other
    cases other
  | error failure last =>
    obtain ⟨_, other⟩ := same.error ended
    rw [raised] at other
    cases other
    exact ⟨last, rfl⟩

theorem Agrees.bind {next later : Value → EStateM Error State Result} (agrees : Agrees guarded plain)
    (follow : ∀ value, Agrees (next value) (later value)) :
    Agrees (guarded >>= next) (plain >>= later) := by
  intro state
  rw [sat_bind]
  refine (agrees state).mono ?_ ?_
  · intro value between ended
    simp only [Bind.bind, EStateM.bind, ended]
    exact follow value between
  · rintro error _ ⟨last, ended⟩
    exact ⟨last, by simp only [Bind.bind, EStateM.bind, ended]⟩

end

end Mqttium.Library
