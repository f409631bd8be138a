import Mqttium.Library.Raising

/-! A database connection that holds one transaction at a time and whose calls may
fail. A statement that changes data opens a transaction when none is open. -/

namespace Mqttium.Library

universe u

/-- How a call ends. A failing one is refused before it has any effect, is undone with
its transaction left open, or takes the whole transaction back. -/
inductive Reply where
  | done
  | refused
  | aborted
  | rolledBack
  deriving DecidableEq, Repr

/-- The committed contents, and those of the open transaction. -/
structure Database (Contents : Type u) where
  durable : Contents
  working : Option Contents := none
  closed : Bool := false

namespace Database

variable {Contents Error Value : Type u}

/-- What a statement reads. -/
def view (database : Database Contents) : Contents := database.working.getD database.durable

/-- Open a transaction that a later statement writes in. -/
def beginImmediate (raised : Error) (reply : Reply) : EStateM Error (Database Contents) PUnit := do
  let database ← get
  raiseIf (database.closed = true ∨ database.working.isSome = true ∨ reply ≠ .done) raised
  set { database with working := some database.durable }

/-- A statement that reads. -/
def select (raised : Error) (reply : Reply) : EStateM Error (Database Contents) PUnit := do
  raiseIf ((← get).closed = true) raised
  onlyIf (reply = .rolledBack) (modify fun database => { database with working := none })
  raiseIf (reply ≠ .done) raised

/-- A statement that writes, behind an implicit `BEGIN`. -/
def execute (raised : Error) (reply : Reply)
    (statement : Contents → Except Error (Value × Contents)) :
    EStateM Error (Database Contents) Value := do
  let database ← get
  raiseIf (database.closed = true) raised
  match reply with
  | .refused => throw raised
  | .rolledBack => do
    set { database with working := none }
    throw raised
  | .aborted => do
    set { database with working := some database.view }
    throw raised
  | .done =>
    match statement database.view with
    | .ok (value, next) => do
      set { database with working := some next }
      return value
    | .error error => do
      set { database with working := some database.view }
      throw error

def commit (raised : Error) (reply : Reply) : EStateM Error (Database Contents) PUnit := do
  let database ← get
  raiseIf (database.closed = true) raised
  match database.working with
  | none => return ⟨⟩
  | some contents => do
    onlyIf (reply = .rolledBack) (set { database with working := none })
    raiseIf (reply ≠ .done) raised
    set { database with durable := contents, working := none }

def rollback (raised : Error) (reply : Reply) : EStateM Error (Database Contents) PUnit := do
  let database ← get
  raiseIf (database.closed = true) raised
  match database.working with
  | none => return ⟨⟩
  | some _ => do
    raiseIf (reply ≠ .done ∧ reply ≠ .rolledBack) raised
    set { database with working := none }
    raiseIf (reply = .rolledBack) raised

/-- Closing drops an open transaction. -/
def close (database : Database Contents) : Database Contents :=
  { database with working := none, closed := true }

section

variable {raised : Error} {reply : Reply} {database : Database Contents}
  {returned : PUnit → Database Contents → Prop} {failed : Error → Database Contents → Prop}

@[simp] theorem sat_beginImmediate :
    Sat (beginImmediate raised reply) database returned failed ↔
      (database.closed = true ∨ database.working.isSome = true ∨ reply ≠ .done →
        failed raised database) ∧
      (database.closed = false → database.working = none → reply = .done →
        returned ⟨⟩ { database with working := some database.durable }) := by
  simp [beginImmediate]

/-- Reading changes nothing, unless it takes the transaction back. -/
@[simp] theorem sat_select :
    Sat (select raised reply) database returned failed ↔
      (database.closed = true → failed raised database) ∧
      (database.closed = false → match reply with
        | .done => returned ⟨⟩ database
        | .rolledBack => failed raised { database with working := none }
        | _ => failed raised database) := by
  cases reply <;> simp [select]

@[simp] theorem sat_execute {statement : Contents → Except Error (Value × Contents)}
    {returned : Value → Database Contents → Prop} :
    Sat (execute raised reply statement) database returned failed ↔
      (database.closed = true → failed raised database) ∧
      (database.closed = false → match reply with
        | .refused => failed raised database
        | .rolledBack => failed raised { database with working := none }
        | .aborted => failed raised { database with working := some database.view }
        | .done =>
          match statement database.view with
          | .ok (value, next) => returned value { database with working := some next }
          | .error error => failed error { database with working := some database.view }) := by
  simp only [execute, sat_bind, sat_get, sat_raiseIf, Bool.not_eq_true]
  cases reply with
  | done => cases statement database.view <;> simp
  | _ => simp

@[simp] theorem sat_commit :
    Sat (commit raised reply) database returned failed ↔
      (database.closed = true → failed raised database) ∧
      (database.closed = false → match database.working with
        | none => returned ⟨⟩ database
        | some contents => match reply with
          | .done => returned ⟨⟩ { database with durable := contents, working := none }
          | .rolledBack => failed raised { database with working := none }
          | _ => failed raised database) := by
  simp only [commit, sat_bind, sat_get, sat_raiseIf, Bool.not_eq_true]
  cases database.working with
  | none => simp
  | some contents => cases reply <;> simp

@[simp] theorem sat_rollback :
    Sat (rollback raised reply) database returned failed ↔
      (database.closed = true → failed raised database) ∧
      (database.closed = false → match database.working with
        | none => returned ⟨⟩ database
        | some _ => match reply with
          | .done => returned ⟨⟩ { database with working := none }
          | .rolledBack => failed raised { database with working := none }
          | _ => failed raised database) := by
  simp only [rollback, sat_bind, sat_get, sat_raiseIf, Bool.not_eq_true]
  cases database.working with
  | none => simp
  | some contents => cases reply <;> simp

end

end Database

end Mqttium.Library
