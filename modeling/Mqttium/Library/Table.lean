import Mathlib.Data.List.Sort
import Mqttium.Library.Dict

/-! Tables of rows under an integer primary key, with the statements of SQL. The
rows lie in the order of their keys; a statement sees them as a set unless it asks
for an order. A row also carries the number of its insertion, which is what makes
a table an insertion-ordered dictionary. -/

namespace Mqttium.Library

universe u v

structure Row (Columns : Type u) where
  key : Nat
  seq : Nat
  columns : Columns
  deriving DecidableEq, Repr

abbrev Table (Columns : Type u) := List (Row Columns)

namespace Table

variable {Columns : Type u} {Value : Type v}

/-- `SELECT .. WHERE key = ?`, one row. -/
def fetchOne (table : Table Columns) (key : Nat) : Option (Row Columns) :=
  table.find? fun row => row.key = key

/-- `SELECT .. WHERE key IN (..)`. -/
def fetchAll (table : Table Columns) (keys : List Nat) : Table Columns :=
  table.filter fun row => row.key ∈ keys

/-- `SELECT .. ORDER BY seq`. -/
def orderBySeq (table : Table Columns) : Table Columns :=
  table.mergeSort fun left right => left.seq ≤ right.seq

/-- `DELETE .. WHERE ..`, with the row count. -/
def deleteWhere (table : Table Columns) (condition : Row Columns → Bool) : Nat × Table Columns :=
  (table.countP condition, table.filter fun row => !condition row)

/-- `UPDATE .. WHERE ..`, with the row count. -/
def updateWhere (table : Table Columns) (condition : Row Columns → Bool)
    (change : Columns → Columns) : Nat × Table Columns :=
  (table.countP condition,
    table.map fun row => if condition row then { row with columns := change row.columns } else row)

/-- `INSERT .. ON CONFLICT(key) DO UPDATE SET` every column but `seq`. -/
def upsert (table : Table Columns) (key seq : Nat) (columns : Columns) : Table Columns :=
  if table.any fun row => row.key = key then
    (table.updateWhere (fun row => row.key = key) fun _ => columns).2
  else table.orderedInsert (fun left right => left.key ≤ right.key) { key, seq, columns }

/-- The table keeps the dictionary: in the order of their numbers, its rows are the
entries. -/
structure Holds (stores : Nat → Value → Columns → Prop) (dict : Dict Nat Value) (last : Nat)
    (table : Table Columns) (rows : List (Row Columns)) : Prop where
  perm : table.Perm rows
  ordered : rows.Pairwise fun left right => left.seq < right.seq
  numbered : ∀ row ∈ rows, row.seq ≤ last
  entries : List.Forall₂ (fun entry row => entry.1 = row.key ∧ stores entry.1 entry.2 row.columns)
    dict.entries rows

variable {stores : Nat → Value → Columns → Prop} {dict : Dict Nat Value} {last : Nat}
  {table : Table Columns} {rows : List (Row Columns)}

theorem Holds.empty : Holds stores .empty last [] [] where
  perm := .refl _
  ordered := .nil
  numbered := by simp
  entries := .nil

theorem Holds.seq_inj (holds : Holds stores dict last table rows) {left right : Row Columns}
    (first : left ∈ rows) (second : right ∈ rows) (same : left.seq = right.seq) : left = right := by
  have increasing : (rows.map Row.seq).Pairwise (· < ·) := List.pairwise_map.mpr holds.ordered
  have nodup : (rows.map Row.seq).Nodup := increasing.imp Nat.ne_of_lt
  exact List.inj_on_of_nodup_map nodup first second same

/-- Sorting by number recovers the insertion order. -/
theorem Holds.orderBySeq_eq (holds : Holds stores dict last table rows) :
    table.orderBySeq = rows := by
  have sorted : table.orderBySeq.Pairwise fun left right => left.seq ≤ right.seq := by
    have merged : table.orderBySeq.Pairwise fun left right =>
        decide (left.seq ≤ right.seq) = true :=
      List.pairwise_mergeSort (by simp; omega) (by simp; omega) table
    exact merged.imp of_decide_eq_true
  have same : table.orderBySeq.Perm rows := (List.mergeSort_perm _ _).trans holds.perm
  refine same.eq_of_pairwise ?_ sorted (holds.ordered.imp Nat.le_of_lt)
  intro left right first second below above
  exact holds.seq_inj (same.subset first) second (Nat.le_antisymm below above)

theorem Holds.keys_eq (holds : Holds stores dict last table rows) :
    rows.map Row.key = dict.keys := by
  have entries := holds.entries
  clear holds
  unfold Dict.keys
  generalize dict.entries = listed at entries
  induction entries with
  | nil => rfl
  | cons matched _ ih => simp [matched.1, ih]

theorem Holds.nodup (holds : Holds stores dict last table rows) : (rows.map Row.key).Nodup := by
  rw [holds.keys_eq]
  exact dict.keys_nodup

/-- The row of a key, and the entry it stores. -/
theorem Holds.mem_rows (holds : Holds stores dict last table rows) {row : Row Columns}
    (member : row ∈ rows) : ∃ value, dict.get? row.key = some value ∧
      stores row.key value row.columns := by
  have entries := holds.entries
  clear holds
  simp only [Dict.get?_eq_some_iff]
  generalize dict.entries = listed at entries
  induction entries with
  | nil => cases member
  | @cons entry _ _ _ matched _ ih =>
    rcases List.mem_cons.mp member with first | later
    · subst first
      exact ⟨entry.2, by simp [← matched.1], matched.1 ▸ matched.2⟩
    · obtain ⟨value, listed, stored⟩ := ih later
      exact ⟨value, List.mem_cons_of_mem _ listed, stored⟩

theorem Holds.row_of_get? (holds : Holds stores dict last table rows) {key : Nat} {value : Value}
    (found : dict.get? key = some value) :
    ∃ row ∈ rows, row.key = key ∧ stores key value row.columns := by
  have present : key ∈ rows.map Row.key := by
    rw [holds.keys_eq]
    exact Dict.mem_keys_of_get? found
  obtain ⟨row, member, rfl⟩ := List.mem_map.mp present
  obtain ⟨stored, also, stores⟩ := holds.mem_rows member
  rw [found] at also
  cases also
  exact ⟨row, member, rfl, stores⟩

theorem Holds.fetchOne_some (holds : Holds stores dict last table rows) {key : Nat}
    {row : Row Columns} : table.fetchOne key = some row ↔ row ∈ rows ∧ row.key = key := by
  constructor
  · intro found
    refine ⟨holds.perm.subset (List.mem_of_find?_eq_some found), ?_⟩
    simpa using List.find?_some found
  · rintro ⟨member, rfl⟩
    cases found : table.fetchOne row.key with
    | none =>
      have missing := List.find?_eq_none.mp found row (holds.perm.mem_iff.mpr member)
      simp at missing
    | some other =>
      have key : other.key = row.key := by simpa using List.find?_some found
      have also := holds.perm.subset (List.mem_of_find?_eq_some found)
      rw [List.inj_on_of_nodup_map holds.nodup also member key]

/-- Looking a key up in the table and in the dictionary. -/
theorem Holds.fetchOne (holds : Holds stores dict last table rows) (key : Nat) :
    (dict.get? key = none ∧ table.fetchOne key = none) ∨
      ∃ value row, dict.get? key = some value ∧ table.fetchOne key = some row ∧ row ∈ rows ∧
        row.key = key ∧ stores key value row.columns := by
  cases found : dict.get? key with
  | none =>
    left
    refine ⟨rfl, ?_⟩
    cases fetched : table.fetchOne key with
    | none => rfl
    | some row =>
      obtain ⟨member, rfl⟩ := holds.fetchOne_some.mp fetched
      obtain ⟨value, present, _⟩ := holds.mem_rows member
      rw [found] at present
      cases present
  | some value =>
    right
    obtain ⟨row, member, same, stored⟩ := holds.row_of_get? found
    exact ⟨value, row, rfl, holds.fetchOne_some.mpr ⟨member, same⟩, member, same, stored⟩

theorem Holds.key_eq_iff (holds : Holds stores dict last table rows) {row other : Row Columns}
    (member : row ∈ rows) (also : other ∈ rows) : other.key = row.key ↔ other = row :=
  ⟨List.inj_on_of_nodup_map holds.nodup also member, fun same => by rw [same]⟩

/-- What a fetched row says of itself does not narrow a statement down any further. -/
theorem Holds.aimed (holds : Holds stores dict last table rows) {row : Row Columns}
    (member : row ∈ rows) (extra : Row Columns → Prop) [DecidablePred extra] (itself : extra row) :
    ∀ other ∈ rows, decide (other.key = row.key ∧ extra other) = decide (other.key = row.key) := by
  intro other also
  by_cases same : other.key = row.key
  · rw [(holds.key_eq_iff member also).mp same]
    simp [itself]
  · simp [same]

/-- A statement that is aimed at one key finds its row, if there is one. -/
theorem Holds.countP_eq_zero (holds : Holds stores dict last table rows)
    {condition : Row Columns → Bool} {key : Nat}
    (aimed : ∀ row ∈ rows, condition row = decide (row.key = key)) :
    table.countP condition = 0 ↔ dict.get? key = none := by
  rw [List.countP_eq_zero, Dict.get?_eq_none_iff, ← holds.keys_eq, List.mem_map]
  constructor
  · rintro none ⟨row, member, same⟩
    have missed := none row (holds.perm.mem_iff.mpr member)
    simp [aimed row member, same] at missed
  · intro absent row member hit
    have listed := holds.perm.subset member
    rw [aimed row listed] at hit
    exact absent ⟨row, listed, of_decide_eq_true hit⟩

theorem Holds.hit (holds : Holds stores dict last table rows) {condition : Row Columns → Bool}
    {key : Nat} {value : Value} (aimed : ∀ row ∈ rows, condition row = decide (row.key = key))
    (found : dict.get? key = some value) : table.countP condition ≠ 0 := by
  rw [ne_eq, holds.countP_eq_zero aimed, found]
  exact Option.some_ne_none value

/-- `DELETE` of one key. -/
theorem Holds.delete (holds : Holds stores dict last table rows) {condition : Row Columns → Bool}
    {key : Nat} (aimed : ∀ row ∈ rows, condition row = decide (row.key = key)) :
    Holds stores (dict.erase key) last (table.deleteWhere condition).2
      (rows.filter fun row => !condition row) where
  perm := holds.perm.filter _
  ordered := holds.ordered.sublist List.filter_sublist
  numbered := fun row member => holds.numbered row (List.mem_of_mem_filter member)
  entries := by
    have same : rows.filter (fun row => !condition row) =
        rows.filter fun row => decide (row.key ≠ key) := by
      apply List.filter_congr
      intro row member
      simp [aimed row member]
    rw [same]
    refine List.rel_filter ?_ holds.entries
    intro entry row matched
    simp [matched.1]

/-- `UPDATE` of one key. -/
theorem Holds.update (holds : Holds stores dict last table rows) {condition : Row Columns → Bool}
    {key : Nat} (aimed : ∀ row ∈ rows, condition row = decide (row.key = key))
    (change : Value → Value) (assign : Columns → Columns)
    (stored : ∀ value columns, dict.get? key = some value → stores key value columns →
      stores key (change value) (assign columns)) :
    ∃ rows', Holds stores (dict.modify key change) last (table.updateWhere condition assign).2
      rows' := by
  refine ⟨rows.map fun row =>
    if condition row then { row with columns := assign row.columns } else row, ?_, ?_, ?_, ?_⟩
  · exact holds.perm.map _
  · rw [List.pairwise_map]
    refine holds.ordered.imp ?_
    intro left right below
    split <;> split <;> exact below
  · intro row member
    obtain ⟨old, listed, rfl⟩ := List.mem_map.mp member
    have bound := holds.numbered old listed
    split <;> exact bound
  · have same : (rows.map fun row =>
        if condition row then { row with columns := assign row.columns } else row) =
        rows.map fun row =>
          if row.key = key then { row with columns := assign row.columns } else row := by
      apply List.map_congr_left
      intro row member
      simp [aimed row member]
    have listed := (List.forall₂_and_left dict.entries rows).mpr
      ⟨fun _ member => member, holds.entries⟩
    rw [Dict.entries_modify, same, List.forall₂_map_left_iff, List.forall₂_map_right_iff]
    refine listed.imp ?_
    rintro ⟨other, value⟩ row ⟨member, sameKey, kept⟩
    simp only at sameKey kept
    subst sameKey
    by_cases hit : row.key = key
    · subst hit
      simp only [↓reduceIte]
      exact ⟨trivial, stored value row.columns (Dict.get?_eq_some_iff.mpr member) kept⟩
    · simp only [hit, ↓reduceIte]
      exact ⟨trivial, kept⟩

/-- An `UPDATE` that no row satisfies. -/
theorem updateWhere_none {condition : Row Columns → Bool} (change : Columns → Columns)
    (none : ∀ row ∈ table, condition row = false) :
    table.updateWhere condition change = (0, table) := by
  have counted : table.countP condition = 0 :=
    List.countP_eq_zero.mpr fun row member => by simp [none row member]
  have kept : (table.map fun row =>
      if condition row then { row with columns := change row.columns } else row) = table := by
    conv_rhs => rw [← List.map_id table]
    apply List.map_congr_left
    intro row member
    simp [none row member]
  simp [updateWhere, counted, kept]

theorem Holds.later (holds : Holds stores dict last table rows) :
    Holds stores dict (last + 1) table rows :=
  ⟨holds.perm, holds.ordered, fun row member => Nat.le_succ_of_le (holds.numbered row member),
    holds.entries⟩

/-- `INSERT .. ON CONFLICT` under the next number is assignment to the dictionary. -/
theorem Holds.upsert (holds : Holds stores dict last table rows) {key : Nat} {value : Value}
    {columns : Columns} (stored : stores key value columns) :
    ∃ rows', Holds stores (dict.insert key value) (last + 1)
      (table.upsert key (last + 1) columns) rows' := by
  unfold Table.upsert
  by_cases present : key ∈ dict.keys
  · obtain ⟨old, found⟩ := Option.isSome_iff_exists.mp (Dict.mem_keys_iff.mp present)
    obtain ⟨row, member, rfl, _⟩ := holds.row_of_get? found
    have conflict : (table.any fun row' => row'.key = row.key) = true :=
      List.any_eq_true.mpr ⟨row, holds.perm.mem_iff.mpr member, by simp⟩
    rw [if_pos conflict]
    have aimed : ∀ row' ∈ rows, decide (row'.key = row.key) = decide (row'.key = row.key) :=
      fun _ _ => rfl
    obtain ⟨rows', held⟩ := holds.later.update aimed (fun _ => value) (fun _ => columns)
      (fun _ _ _ _ => stored)
    rw [Dict.modify_of_get? found] at held
    exact ⟨rows', held⟩
  · have absent : ∀ row ∈ rows, row.key ≠ key := by
      intro row member same
      rw [← holds.keys_eq] at present
      exact present (List.mem_map.mpr ⟨row, member, same⟩)
    have fresh : ¬ (table.any fun row => row.key = key) = true := by
      simp only [List.any_eq_true, decide_eq_true_eq, not_exists, not_and]
      exact fun row member => absent row (holds.perm.subset member)
    rw [if_neg fresh]
    refine ⟨rows ++ [{ key, seq := last + 1, columns }], ?_, ?_, ?_, ?_⟩
    · refine (List.perm_orderedInsert _ _ _).trans ?_
      exact (holds.perm.cons _).trans (List.perm_append_singleton _ _).symm
    · rw [List.pairwise_append]
      refine ⟨holds.ordered, List.pairwise_singleton _ _, ?_⟩
      intro left before right last
      rw [List.mem_singleton.mp last]
      exact Nat.lt_succ_of_le (holds.numbered left before)
    · intro row member
      rcases List.mem_append.mp member with before | last
      · exact Nat.le_succ_of_le (holds.numbered row before)
      · rw [List.mem_singleton.mp last]
    · rw [Dict.entries_insert_of_not_mem value present]
      exact List.rel_append holds.entries (.cons ⟨rfl, stored⟩ .nil)

end Table

end Mqttium.Library
