import Mathlib.Algebra.Order.Ring.Nat
import Mathlib.Control.Monad.Basic
import Mathlib.Data.List.Basic

/-! Grammars as readers of a stream: a reader takes a value off the front of its input and
leaves the rest. `Reads` says which symbols a reader takes a value from, whatever follows
them, so the parts of a sentence are read one after another. -/

namespace Mqttium.Library

abbrev Reader (Symbol : Type) := StateT (List Symbol) Option

variable {Symbol Value Other : Type}

namespace Reader

def next : Reader Symbol Symbol
  | [] => none
  | symbol :: rest => some (symbol, rest)

def take (size : Nat) : Reader Symbol (List Symbol) := fun input =>
  if size ≤ input.length then some (input.take size, input.drop size) else none

/-- Read the input to its end. -/
def whole (reader : Reader Symbol Value) (input : List Symbol) : Option Value :=
  match reader input with
  | some (value, []) => some value
  | _ => none

/-- A part of known size, which the inner reader has to use up. -/
def block (size : Nat) (inner : Reader Symbol Value) : Reader Symbol Value := do
  let part ← take size
  match inner.whole part with
  | some value => return value
  | none => failure

/-- Values up to the end of the input; every round takes at least one symbol. -/
def upTo (inner : Reader Symbol Value) : Nat → Reader Symbol (List Value)
  | _, [] => some ([], [])
  | 0, _ => none
  | fuel + 1, input => do
    let (value, rest) ← inner input
    let (values, last) ← upTo inner fuel rest
    return (value :: values, last)

def many (inner : Reader Symbol Value) : Reader Symbol (List Value) := fun input =>
  upTo inner input.length input

end Reader

/-- The reader takes the value from exactly these symbols. -/
def Reads (reader : Reader Symbol Value) (data : List Symbol) (value : Value) : Prop :=
  ∀ rest, reader (data ++ rest) = some (value, rest)

namespace Reads

variable {reader : Reader Symbol Value} {data more : List Symbol} {value : Value} {result : Other}

theorem pure (value : Value) : Reads (Pure.pure value : Reader Symbol Value) [] value :=
  fun _ => rfl

theorem bind {next : Value → Reader Symbol Other} (first : Reads reader data value)
    (second : Reads (next value) more result) : Reads (reader >>= next) (data ++ more) result := by
  intro rest
  rw [List.append_assoc]
  calc (reader >>= next) (data ++ (more ++ rest))
      = (reader (data ++ (more ++ rest))).bind fun found => next found.1 found.2 := rfl
    _ = next value (more ++ rest) := by rw [first, Option.bind_some]
    _ = some (result, rest) := second rest

/-- A step that reads nothing. -/
theorem step {next : Value → Reader Symbol Other} (first : Reads reader [] value)
    (second : Reads (next value) data result) : Reads (reader >>= next) data result :=
  bind first second

/-- The last step. -/
theorem yield {finish : Value → Other} (first : Reads reader data value) :
    Reads (reader >>= fun value => Pure.pure (finish value)) data (finish value) := by
  intro rest
  have both := @bind _ _ _ _ _ _ _ _ (fun value => Pure.pure (finish value)) first
    (pure (finish value)) rest
  rwa [List.append_nil] at both

theorem yields {finish : Value → Other} (first : Reads reader data value)
    (same : finish value = result) :
    Reads (reader >>= fun value => Pure.pure (finish value)) data result := by
  subst same
  exact first.yield

theorem check {condition : Prop} [Decidable condition] (holds : condition) :
    Reads (guard condition : Reader Symbol Unit) [] () := by
  rw [guard, if_pos holds]
  exact pure ()

/-- A value that is checked once it is read. -/
theorem checked {condition : Value → Prop} [DecidablePred condition]
    (first : Reads reader data value) (holds : condition value) :
    Reads (do
      let value ← reader
      guard (condition value)
      return value) data value := by
  rw [← List.append_nil data]
  refine bind first ?_
  exact step (check holds) (pure value)

theorem next (symbol : Symbol) : Reads Reader.next [symbol] symbol := fun _ => rfl

theorem take (data : List Symbol) : Reads (Reader.take data.length) data data := by
  intro rest
  simp [Reader.take]

theorem whole (reads : Reads reader data value) : reader.whole data = some value := by
  have all := reads []
  rw [List.append_nil] at all
  rw [Reader.whole, all]

theorem block {inner : Reader Symbol Value} (complete : inner.whole data = some value) :
    Reads (Reader.block data.length inner) data value := by
  intro rest
  unfold Reader.block
  rw [show data ++ rest = data ++ [] ++ rest by rw [List.append_nil]]
  refine bind (take data) ?_ rest
  rw [complete]
  exact pure value

theorem upTo {inner : Reader Symbol Value} {parts : List (List Symbol × Value)} {fuel : Nat}
    (each : ∀ part ∈ parts, Reads inner part.1 part.2 ∧ part.1 ≠ [])
    (fueled : (parts.flatMap Prod.fst).length ≤ fuel) :
    Reader.upTo inner fuel (parts.flatMap Prod.fst) = some (parts.map Prod.snd, []) := by
  induction parts generalizing fuel with
  | nil => cases fuel <;> rfl
  | cons part parts ih =>
    obtain ⟨reads, filled⟩ := each part (List.mem_cons_self ..)
    have positive := List.length_pos_of_ne_nil filled
    simp only [List.flatMap_cons, List.length_append] at fueled ⊢
    obtain ⟨fuel, rfl⟩ : ∃ less, fuel = less + 1 := ⟨fuel - 1, by omega⟩
    have rest := ih (fun other member => each other (List.mem_cons_of_mem _ member))
      (show (parts.flatMap Prod.fst).length ≤ fuel by omega)
    rw [Reader.upTo, reads]
    · simp only [Option.bind_eq_bind, Option.bind_some, rest, List.map_cons]
      rfl
    · intro empty
      exact filled (List.append_eq_nil_iff.mp empty).1

/-- Parts that are read one by one are read as the list of their values. -/
theorem many {inner : Reader Symbol Value} {parts : List (List Symbol × Value)}
    (each : ∀ part ∈ parts, Reads inner part.1 part.2 ∧ part.1 ≠ []) :
    (Reader.many inner).whole (parts.flatMap Prod.fst) = some (parts.map Prod.snd) := by
  rw [Reader.whole, Reader.many, upTo each (Nat.le_refl _)]

end Reads

end Mqttium.Library
