import Mathlib.Algebra.Order.Ring.Nat
import Mathlib.Data.List.Infix
import Mathlib.Logic.Relation

/-! Items that leave in the order they came, each as a run of symbols on one wire.
Items wait in a line; a batch of them is under way, or nothing is and an item may
pass straight through. -/

namespace Mqttium.Library

universe u v

structure Conveyor (Item : Type u) (Symbol : Type v) where
  line : List Item := []
  batch : List Item := []
  /-- What the wire has not yet taken of the batch. -/
  pending : List Symbol := []
  admitted : List Item := []
  wire : List Symbol := []
  /-- Nothing more goes on the wire. -/
  closed : Bool := false
  /-- An item may have been cut. -/
  torn : Bool := false

namespace Conveyor

variable {Item : Type u} {Symbol : Type v}

def held (conveyor : Conveyor Item Symbol) : List Item := conveyor.batch ++ conveyor.line

structure Idle (conveyor : Conveyor Item Symbol) : Prop where
  opened : conveyor.closed = false
  batch : conveyor.batch = []
  pending : conveyor.pending = []

inductive Move (render : Item → List Symbol) (room : List Item → Item → Prop)
    (conveyor : Conveyor Item Symbol) : Conveyor Item Symbol → Prop where
  | stay : Move render room conveyor conveyor
  | enter (item : Item) (fitting : room conveyor.held item) : Move render room conveyor
      { conveyor with line := conveyor.line ++ [item], admitted := conveyor.admitted ++ [item] }
  | pass (item : Item) (idle : conveyor.Idle) (empty : conveyor.line = []) :
      Move render room conveyor
        { conveyor with
          admitted := conveyor.admitted ++ [item]
          wire := conveyor.wire ++ render item }
  | passLine (idle : conveyor.Idle) : Move render room conveyor
      { conveyor with line := [], wire := conveyor.wire ++ conveyor.line.flatMap render }
  | tearPass (item : Item) (part : List Symbol) (fitting : room conveyor.held item)
      (idle : conveyor.Idle) (empty : conveyor.line = []) (cut : part <+: render item) :
      Move render room conveyor
        { conveyor with
          line := [item]
          admitted := conveyor.admitted ++ [item]
          wire := conveyor.wire ++ part
          closed := true
          torn := true }
  | tearLine (part : List Symbol) (idle : conveyor.Idle)
      (cut : part <+: conveyor.line.flatMap render) : Move render room conveyor
      { conveyor with wire := conveyor.wire ++ part, closed := true, torn := true }
  | take (count : Nat) (idle : conveyor.Idle) : Move render room conveyor
      { conveyor with
        line := conveyor.line.drop count
        batch := conveyor.line.take count
        pending := (conveyor.line.take count).flatMap render }
  | send (count : Nat) (opened : conveyor.closed = false) : Move render room conveyor
      { conveyor with
        pending := conveyor.pending.drop count
        wire := conveyor.wire ++ conveyor.pending.take count }
  | finish (sent : conveyor.pending = []) : Move render room conveyor { conveyor with batch := [] }
  | tear (count : Nat) (opened : conveyor.closed = false) : Move render room conveyor
      { conveyor with
        batch := []
        pending := []
        wire := conveyor.wire ++ conveyor.pending.take count
        closed := true
        torn := true }
  | close (batch : conveyor.batch = []) : Move render room conveyor { conveyor with closed := true }
  | lose (count : Nat) (closed : conveyor.closed = true) (batch : conveyor.batch = []) :
      Move render room conveyor { conveyor with line := conveyor.line.drop count }

variable {render : Item → List Symbol} {room : List Item → Item → Prop}
  {before after : Conveyor Item Symbol}

abbrev Steps (render : Item → List Symbol) (room : List Item → Item → Prop) :
    Conveyor Item Symbol → Conveyor Item Symbol → Prop :=
  Relation.ReflTransGen (Move render room)

/-- A beginning of the rendered items is some items and a cut of the next one. -/
theorem split_of_prefix {items : List Item} {sent : List Symbol}
    (cut : sent <+: items.flatMap render) :
    ∃ whole part rest, items = whole ++ rest ∧ sent = whole.flatMap render ++ part ∧
      (part = [] ∨ ∃ item later, rest = item :: later ∧ part <+: render item) := by
  induction items generalizing sent with
  | nil => exact ⟨[], [], [], rfl, by simpa using cut, Or.inl rfl⟩
  | cons item later ih =>
    rw [List.flatMap_cons] at cut
    rcases List.prefix_or_prefix_of_prefix cut (List.prefix_append _ _) with within | beyond
    · exact ⟨[], sent, item :: later, rfl, rfl, Or.inr ⟨item, later, rfl, within⟩⟩
    · obtain ⟨others, rfl⟩ := beyond
      obtain ⟨whole, part, rest, split, rendered, last⟩ :=
        ih ((List.prefix_append_right_inj _).mp cut)
      refine ⟨item :: whole, part, rest, by rw [split]; rfl, ?_, last⟩
      rw [rendered, List.flatMap_cons, List.append_assoc]

/-- What the wire has taken is the items that left, in their order. -/
structure Ordered (render : Item → List Symbol) (conveyor : Conveyor Item Symbol) : Prop where
  resting : conveyor.batch = [] → conveyor.pending = []
  whole : conveyor.torn = false → ∃ gone rest,
    conveyor.admitted = gone ++ conveyor.batch ++ rest ∧
      conveyor.wire ++ conveyor.pending = (gone ++ conveyor.batch).flatMap render ∧
        (conveyor.closed = false → rest = conveyor.line)
  cut : conveyor.torn = true →
    conveyor.closed = true ∧ conveyor.wire <+: conveyor.admitted.flatMap render

theorem Ordered.start (closed : Bool) : Ordered render ({ closed } : Conveyor Item Symbol) :=
  ⟨fun _ => rfl, fun _ => ⟨[], [], rfl, rfl, fun _ => rfl⟩, fun torn => nomatch torn⟩

theorem Ordered.intact (ordered : Ordered render before) (opened : before.closed = false) :
    before.torn = false := by
  by_contra torn
  have closed := (ordered.cut (by simpa using torn)).1
  rw [opened] at closed
  cases closed

/-- While the wire is open, the admitted items are those gone, the batch and the line. -/
theorem Ordered.parts (ordered : Ordered render before) (opened : before.closed = false) :
    ∃ gone, before.admitted = gone ++ before.batch ++ before.line ∧
      before.wire ++ before.pending = (gone ++ before.batch).flatMap render := by
  obtain ⟨gone, rest, split, sent, line⟩ := ordered.whole (ordered.intact opened)
  rw [line opened] at split
  exact ⟨gone, split, sent⟩

theorem Ordered.prefix (ordered : Ordered render before) :
    before.wire <+: before.admitted.flatMap render := by
  cases torn : before.torn with
  | true => exact (ordered.cut torn).2
  | false =>
    obtain ⟨gone, rest, split, sent, _⟩ := ordered.whole torn
    rw [split, List.flatMap_append, ← sent]
    exact (List.prefix_append _ _).trans (List.prefix_append _ _)

/-- An idle open conveyor has sent everything but its line. -/
theorem Ordered.idle (ordered : Ordered render before) (idle : before.Idle) :
    ∃ gone, before.admitted = gone ++ before.line ∧ before.wire = gone.flatMap render := by
  obtain ⟨gone, split, sent⟩ := ordered.parts idle.opened
  rw [idle.batch, List.append_nil] at split sent
  rw [idle.pending, List.append_nil] at sent
  exact ⟨gone, split, sent⟩

/-- A torn conveyor whose wire is a beginning of what was admitted is in order. -/
theorem Ordered.of_torn (torn : after.torn = true) (closed : after.closed = true)
    (resting : after.batch = [] → after.pending = [])
    (cut : after.wire <+: after.admitted.flatMap render) : Ordered render after :=
  ⟨resting, fun whole => absurd whole (by simp [torn]), fun _ => ⟨closed, cut⟩⟩

/-- An open conveyor that has sent all but its batch and its line is in order. -/
theorem Ordered.of_open {gone : List Item} (intact : after.torn = false)
    (resting : after.batch = [] → after.pending = [])
    (split : after.admitted = gone ++ after.batch ++ after.line)
    (sent : after.wire ++ after.pending = (gone ++ after.batch).flatMap render) :
    Ordered render after :=
  ⟨resting, fun _ => ⟨gone, after.line, split, sent, fun _ => rfl⟩,
    fun torn => absurd torn (by simp [intact])⟩

/-! What one move keeps, move by move -/

theorem Ordered.enter (ordered : Ordered render before) (item : Item) : Ordered render
    { before with line := before.line ++ [item], admitted := before.admitted ++ [item] } := by
  refine ⟨ordered.resting, ?_, ?_⟩
  · intro intact
    obtain ⟨gone, rest, split, sent, line⟩ := ordered.whole intact
    refine ⟨gone, rest ++ [item], ?_, sent, ?_⟩
    · rw [split, List.append_assoc]
    · intro opened
      change rest ++ [item] = before.line ++ [item]
      rw [line opened]
  · intro torn
    obtain ⟨closed, cut⟩ := ordered.cut torn
    refine ⟨closed, cut.trans ?_⟩
    rw [List.flatMap_append]
    exact List.prefix_append _ _

theorem Ordered.pass (ordered : Ordered render before) (idle : before.Idle) (empty : before.line = [])
    (item : Item) : Ordered render
      { before with admitted := before.admitted ++ [item], wire := before.wire ++ render item } := by
  obtain ⟨gone, split, sent⟩ := ordered.idle idle
  rw [empty, List.append_nil] at split
  refine @Ordered.of_open _ _ _ _ (gone ++ [item]) (ordered.intact idle.opened) ordered.resting ?_ ?_
  · simp [split, idle.batch, empty]
  · simp [sent, idle.batch, idle.pending]

theorem Ordered.passLine (ordered : Ordered render before) (idle : before.Idle) : Ordered render
    { before with line := [], wire := before.wire ++ before.line.flatMap render } := by
  obtain ⟨gone, split, sent⟩ := ordered.idle idle
  refine @Ordered.of_open _ _ _ _ (gone ++ before.line) (ordered.intact idle.opened) ordered.resting
    ?_ ?_
  · simp [split, idle.batch]
  · simp [sent, idle.batch, idle.pending]

theorem Ordered.tearPass (ordered : Ordered render before) (idle : before.Idle)
    (empty : before.line = []) {item : Item} {part : List Symbol} (cut : part <+: render item) :
    Ordered render
      { before with
        line := [item]
        admitted := before.admitted ++ [item]
        wire := before.wire ++ part
        closed := true
        torn := true } := by
  obtain ⟨gone, split, sent⟩ := ordered.idle idle
  rw [empty, List.append_nil] at split
  refine .of_torn rfl rfl ordered.resting ?_
  change before.wire ++ part <+: (before.admitted ++ [item]).flatMap render
  rw [sent, split, List.flatMap_append, List.flatMap_singleton]
  exact (List.prefix_append_right_inj _).mpr cut

theorem Ordered.tearLine (ordered : Ordered render before) (idle : before.Idle) {part : List Symbol}
    (cut : part <+: before.line.flatMap render) :
    Ordered render { before with wire := before.wire ++ part, closed := true, torn := true } := by
  obtain ⟨gone, split, sent⟩ := ordered.idle idle
  refine .of_torn rfl rfl ordered.resting ?_
  change before.wire ++ part <+: before.admitted.flatMap render
  rw [sent, split, List.flatMap_append]
  exact (List.prefix_append_right_inj _).mpr cut

theorem Ordered.take (ordered : Ordered render before) (idle : before.Idle) (count : Nat) :
    Ordered render
      { before with
        line := before.line.drop count
        batch := before.line.take count
        pending := (before.line.take count).flatMap render } := by
  obtain ⟨gone, split, sent⟩ := ordered.idle idle
  refine @Ordered.of_open _ _ _ _ gone (ordered.intact idle.opened) ?_ ?_ ?_
  · intro none
    change (before.line.take count).flatMap render = []
    rw [show before.line.take count = [] from none]
    rfl
  · simp [split]
  · simp [sent]

theorem Ordered.send (ordered : Ordered render before) (opened : before.closed = false) (count : Nat) :
    Ordered render
      { before with
        pending := before.pending.drop count
        wire := before.wire ++ before.pending.take count } := by
  obtain ⟨gone, split, sent⟩ := ordered.parts opened
  refine @Ordered.of_open _ _ _ _ gone (ordered.intact opened) ?_ split ?_
  · intro none
    change before.pending.drop count = []
    rw [ordered.resting none, List.drop_nil]
  · change before.wire ++ before.pending.take count ++ before.pending.drop count = _
    rw [List.append_assoc, List.take_append_drop, sent]

theorem Ordered.finish (ordered : Ordered render before) (sent : before.pending = []) :
    Ordered render { before with batch := [] } := by
  refine ⟨fun _ => sent, ?_, ordered.cut⟩
  intro intact
  obtain ⟨gone, rest, split, rendered, line⟩ := ordered.whole intact
  refine ⟨gone ++ before.batch, rest, ?_, ?_, line⟩
  · simpa using split
  · simpa using rendered

theorem Ordered.tear (ordered : Ordered render before) (opened : before.closed = false) (count : Nat) :
    Ordered render
      { before with
        batch := []
        pending := []
        wire := before.wire ++ before.pending.take count
        closed := true
        torn := true } := by
  refine .of_torn rfl rfl (fun _ => rfl) ?_
  obtain ⟨gone, split, sent⟩ := ordered.parts opened
  change before.wire ++ before.pending.take count <+: before.admitted.flatMap render
  rw [split, List.flatMap_append, ← sent]
  refine List.IsPrefix.trans ?_ (List.prefix_append _ _)
  exact (List.prefix_append_right_inj _).mpr (List.take_prefix _ _)

theorem Ordered.close (ordered : Ordered render before) :
    Ordered render { before with closed := true } := by
  refine ⟨ordered.resting, ?_, fun torn => ⟨rfl, (ordered.cut torn).2⟩⟩
  intro intact
  obtain ⟨gone, rest, split, sent, _⟩ := ordered.whole intact
  refine ⟨gone, rest, split, sent, ?_⟩
  rintro ⟨⟩

/-- Once the wire is closed the line counts for nothing. -/
theorem Ordered.lose (ordered : Ordered render before) (closed : before.closed = true) (count : Nat) :
    Ordered render { before with line := before.line.drop count } := by
  refine ⟨ordered.resting, ?_, ordered.cut⟩
  intro intact
  obtain ⟨gone, rest, split, sent, _⟩ := ordered.whole intact
  refine ⟨gone, rest, split, sent, fun opened => ?_⟩
  rw [show before.closed = false from opened] at closed
  cases closed

theorem Ordered.move (ordered : Ordered render before) (move : Move render room before after) :
    Ordered render after := by
  cases move with
  | stay => exact ordered
  | enter item fitting => exact ordered.enter item
  | pass item idle empty => exact ordered.pass idle empty item
  | passLine idle => exact ordered.passLine idle
  | tearPass item part fitting idle empty cut => exact ordered.tearPass idle empty cut
  | tearLine part idle cut => exact ordered.tearLine idle cut
  | take count idle => exact ordered.take idle count
  | send count opened => exact ordered.send opened count
  | finish sent => exact ordered.finish sent
  | tear count opened => exact ordered.tear opened count
  | close batch => exact ordered.close
  | lose count closed batch => exact ordered.lose closed count

/-- The wire carries items whole and in order, up to a cut of the last one, which
is there only after a tear or while a batch is under way. -/
theorem Ordered.exposed (ordered : Ordered render before) :
    ∃ gone part rest, before.admitted = gone ++ rest ∧
      before.wire = gone.flatMap render ++ part ∧
        (part = [] ∨ (before.torn = true ∨ before.batch ≠ []) ∧
          ∃ item later, rest = item :: later ∧ part <+: render item) := by
  by_cases under : before.torn = true ∨ before.batch ≠ []
  · obtain ⟨gone, part, rest, split, sent, last⟩ := split_of_prefix ordered.prefix
    exact ⟨gone, part, rest, split, sent, last.imp id fun next => ⟨under, next⟩⟩
  · rw [not_or, Bool.not_eq_true, not_not] at under
    obtain ⟨gone, rest, split, sent, _⟩ := ordered.whole under.1
    rw [under.2, List.append_nil] at split sent
    rw [ordered.resting under.2, List.append_nil] at sent
    exact ⟨gone, [], rest, split, by simpa using sent, Or.inl rfl⟩

/-- A closed conveyor puts nothing more on the wire. -/
theorem Move.frozen (move : Move render room before after) (closed : before.closed = true) :
    after.wire = before.wire ∧ after.closed = true := by
  have opened {statement : Prop} (idle : before.closed = false) : statement := by
    rw [closed] at idle
    cases idle
  cases move with
  | stay => exact ⟨rfl, closed⟩
  | enter item fitting => exact ⟨rfl, closed⟩
  | pass item idle empty => exact opened idle.opened
  | passLine idle => exact opened idle.opened
  | tearPass item part fitting idle empty cut => exact opened idle.opened
  | tearLine part idle cut => exact opened idle.opened
  | take count idle => exact opened idle.opened
  | send count still => exact opened still
  | finish sent => exact ⟨rfl, closed⟩
  | tear count still => exact opened still
  | close batch => exact ⟨rfl, rfl⟩
  | lose count _ batch => exact ⟨rfl, closed⟩

/-- A bound that survives losing the front and holds again after each admission. -/
theorem Move.fits {fits : List Item → Prop}
    (shrinks : ∀ {front back}, fits (front ++ back) → fits back)
    (grows : ∀ {held item}, fits held → room held item → fits (held ++ [item]))
    (move : Move render room before after) (fitting : fits before.held) : fits after.held := by
  have rest : fits before.line := shrinks fitting
  cases move with
  | stay => exact fitting
  | enter item room => simpa [held] using grows fitting room
  | pass item idle empty => exact fitting
  | passLine idle =>
    change fits (before.batch ++ [])
    rw [idle.batch]
    exact @shrinks before.line [] (by simpa using rest)
  | tearPass item part room idle empty cut =>
    have grown := grows fitting room
    rw [held, empty] at grown
    simpa [held] using grown
  | tearLine part idle cut => exact fitting
  | take count idle => simpa [held] using rest
  | send count opened => exact fitting
  | finish sent => exact rest
  | tear count opened => exact rest
  | close batch => exact fitting
  | lose count closed batch =>
    change fits (before.batch ++ before.line.drop count)
    rw [batch]
    exact @shrinks (before.line.take count) _ (by simpa using rest)

theorem Ordered.steps (ordered : Ordered render before) (steps : Steps render room before after) :
    Ordered render after := by
  induction steps with
  | refl => exact ordered
  | tail _ move ih => exact ih.move move

theorem Steps.frozen (steps : Steps render room before after) (closed : before.closed = true) :
    after.wire = before.wire ∧ after.closed = true := by
  induction steps with
  | refl => exact ⟨rfl, closed⟩
  | tail _ move ih =>
    obtain ⟨same, still⟩ := move.frozen ih.2
    exact ⟨same.trans ih.1, still⟩

theorem Steps.fits {fits : List Item → Prop}
    (shrinks : ∀ {front back}, fits (front ++ back) → fits back)
    (grows : ∀ {held item}, fits held → room held item → fits (held ++ [item]))
    (steps : Steps render room before after) (fitting : fits before.held) : fits after.held := by
  induction steps with
  | refl => exact fitting
  | tail _ move ih => exact move.fits shrinks grows ih

end Conveyor

end Mqttium.Library
