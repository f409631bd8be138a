import Mqttium.Library.Table

/-! What one statement can do to a table whose keys are unique. -/

namespace Mqttium.Library.Table

universe u

variable {Columns : Type u} {puts : Nat → Columns → Prop} {changes : (Columns → Columns) → Prop}
  {before after table : Table Columns}

def Unique (table : Table Columns) : Prop := (table.map Row.key).Nodup

/-- A statement that inserts only rows that `puts` allows and assigns only columns that
`changes` allows. -/
inductive Move (puts : Nat → Columns → Prop) (changes : (Columns → Columns) → Prop)
    (before : Table Columns) : Table Columns → Prop
  | same : Move puts changes before before
  | upsert {key seq : Nat} {columns : Columns} (put : puts key columns) :
    Move puts changes before (before.upsert key seq columns)
  | delete (condition : Row Columns → Bool) :
    Move puts changes before (before.deleteWhere condition).2
  | update (condition : Row Columns → Bool) (change : Columns → Columns) (allowed : changes change) :
    Move puts changes before (before.updateWhere condition change).2

theorem keys_updateWhere (table : Table Columns) (condition : Row Columns → Bool)
    (change : Columns → Columns) :
    (table.updateWhere condition change).2.map Row.key = table.map Row.key := by
  simp only [updateWhere, List.map_map]
  apply List.map_congr_left
  intro row _
  simp only [Function.comp_apply]
  split <;> rfl

theorem Move.unique (move : Move puts changes before after) (unique : Unique before) :
    Unique after := by
  cases move with
  | same => exact unique
  | delete condition => exact unique.sublist (List.filter_sublist.map _)
  | update condition change _ =>
    unfold Unique
    rw [keys_updateWhere]
    exact unique
  | @upsert key seq columns put =>
    unfold Unique Table.upsert
    split
    · rw [keys_updateWhere]
      exact unique
    · rename_i absent
      have placed := (List.perm_orderedInsert (fun left right : Row Columns => left.key ≤ right.key)
        { key, seq, columns } before).map Row.key
      rw [placed.nodup_iff, List.map_cons, List.nodup_cons]
      refine ⟨?_, unique⟩
      intro member
      obtain ⟨row, listed, same⟩ := List.mem_map.mp member
      exact absent (List.any_eq_true.mpr ⟨row, listed, decide_eq_true same⟩)

/-- A property of the columns that what is put has and every change keeps. -/
theorem Move.all {holds : Columns → Prop} (move : Move puts changes before after)
    (put : ∀ key columns, puts key columns → holds columns)
    (change : ∀ change, changes change → ∀ columns, holds columns → holds (change columns))
    (all : ∀ row ∈ before, holds row.columns) : ∀ row ∈ after, holds row.columns := by
  have updated : ∀ (condition : Row Columns → Bool) (assign : Columns → Columns),
      (∀ columns, holds columns → holds (assign columns)) →
      ∀ row ∈ (before.updateWhere condition assign).2, holds row.columns := by
    intro condition assign keeps row member
    obtain ⟨old, listed, rfl⟩ := List.mem_map.mp member
    split
    · exact keeps _ (all old listed)
    · exact all old listed
  cases move with
  | same => exact all
  | delete condition => exact fun row member => all row (List.mem_of_mem_filter member)
  | update condition assign allowed => exact updated condition assign (change assign allowed)
  | @upsert key seq columns allowed =>
    unfold Table.upsert
    split
    · exact updated _ _ fun _ _ => put key columns allowed
    · intro row member
      rcases (List.mem_orderedInsert _).mp member with rfl | listed
      · exact put key columns allowed
      · exact all row listed

theorem mem_of_fetchOne {key : Nat} {row : Row Columns} (found : table.fetchOne key = some row) :
    row ∈ table ∧ row.key = key :=
  ⟨List.mem_of_find?_eq_some found, by simpa using List.find?_some found⟩

/-- The row of a key is the only one. -/
theorem Unique.fetchOne (unique : Unique table) {row : Row Columns} (member : row ∈ table) :
    table.fetchOne row.key = some row := by
  cases found : table.fetchOne row.key with
  | none =>
    have missing := List.find?_eq_none.mp found row member
    simp at missing
  | some other =>
    obtain ⟨listed, same⟩ := mem_of_fetchOne found
    rw [List.inj_on_of_nodup_map unique listed member same]

/-- Where a statement puts no row under a key, the row it leaves there was there before, with
its number, and its columns are those it had or were assigned. -/
theorem Move.trace (move : Move puts changes before after) (unique : Unique before) {key : Nat}
    (spares : ∀ columns, ¬ puts key columns) {row : Row Columns}
    (found : after.fetchOne key = some row) :
    ∃ old, before.fetchOne key = some old ∧ row.seq = old.seq ∧
      (row.columns = old.columns ∨ ∃ change, changes change ∧ row.columns = change old.columns) := by
  obtain ⟨member, rfl⟩ := mem_of_fetchOne found
  cases move with
  | same => exact ⟨row, found, rfl, .inl rfl⟩
  | delete condition =>
    exact ⟨row, unique.fetchOne (List.mem_of_mem_filter member), rfl, .inl rfl⟩
  | update condition change allowed =>
    obtain ⟨old, listed, rfl⟩ := List.mem_map.mp member
    split
    · exact ⟨old, unique.fetchOne listed, rfl, .inr ⟨change, allowed, rfl⟩⟩
    · exact ⟨old, unique.fetchOne listed, rfl, .inl rfl⟩
  | @upsert key seq columns put =>
    have other : row.key ≠ key := fun same => spares columns (same ▸ put)
    have listed : row ∈ before := by
      unfold Table.upsert at member
      split at member
      · obtain ⟨old, listed, same⟩ := List.mem_map.mp member
        by_cases hit : old.key = key
        · rw [if_pos (decide_eq_true hit)] at same
          subst same
          exact absurd hit other
        · rw [if_neg (by simpa using hit)] at same
          exact same ▸ listed
      · rcases (List.mem_orderedInsert _).mp member with fresh | listed
        · exact absurd (congrArg Row.key fresh) other
        · exact listed
    exact ⟨row, unique.fetchOne listed, rfl, .inl rfl⟩

/-! Statements that name the row they expect -/

/-- A statement about one key counts its row, if that row is as expected. -/
theorem Unique.countP (unique : Unique table) (key : Nat) (expected : Row Columns → Prop)
    [DecidablePred expected] :
    table.countP (fun row => row.key = key ∧ expected row) = 0 ↔
      ∀ row, table.fetchOne key = some row → ¬ expected row := by
  rw [List.countP_eq_zero]
  constructor
  · intro none row found hit
    obtain ⟨member, same⟩ := mem_of_fetchOne found
    exact none row member (decide_eq_true ⟨same, hit⟩)
  · intro none row member hit
    have meets : row.key = key ∧ expected row := of_decide_eq_true hit
    exact none row (meets.1 ▸ unique.fetchOne member) meets.2

theorem countP_false {condition : Row Columns → Bool} (none : table.countP condition = 0) :
    ∀ row ∈ table, condition row = false := by
  rw [List.countP_eq_zero] at none
  intro row member
  simpa using none row member

/-- A `DELETE` that no row satisfies. -/
theorem deleteWhere_none {condition : Row Columns → Bool} (none : table.countP condition = 0) :
    table.deleteWhere condition = (0, table) := by
  have kept : (table.filter fun row => !condition row) = table := by
    rw [List.filter_eq_self]
    intro row member
    simp [countP_false none row member]
  simp [deleteWhere, none, kept]

end Mqttium.Library.Table
