import Mqttium.Persistence.Sqlite

/-! Reading a table back page by page, whatever its columns. -/

namespace Mqttium.Persistence

open Library

variable {Columns Value Record : Type} {table : Table Columns} {rows : List (Row Columns)}
  {stores : Nat → Value → Columns → Prop} {dict : Dict Nat Value} {last : Nat}

/-- Later rows of the same query do not hide earlier ones: a key has one row. -/
theorem collectRows_ok (found : Table Columns) (byMid : Dict Nat (Row Columns))
    (legal : ∀ row ∈ found, 1 ≤ row.key ∧ row.key ≤ 65535) (nodup : (found.map Row.key).Nodup) :
    ∃ collected, collectRows found byMid = .ok collected ∧ ∀ key, collected.get? key =
      match Table.fetchOne found key with
      | some row => some row
      | none => byMid.get? key := by
  induction found generalizing byMid with
  | nil => exact ⟨byMid, rfl, fun _ => rfl⟩
  | cons row rest ih =>
    simp only [List.map_cons, List.nodup_cons] at nodup
    have here := legal row List.mem_cons_self
    obtain ⟨collected, ran, found⟩ := ih (byMid.insert row.key row)
      (fun other member => legal other (List.mem_cons_of_mem _ member)) nodup.2
    refine ⟨collected, ?_, ?_⟩
    · simp only [collectRows, storedMid, here, and_self, ↓reduceIte, bind, Except.bind]
      exact ran
    · intro key
      rw [found key]
      simp only [Table.fetchOne, List.find?_cons]
      by_cases same : row.key = key
      · subst same
        have absent : rest.find? (fun other => decide (other.key = row.key)) = none := by
          rw [List.find?_eq_none]
          intro other member
          simp only [decide_eq_true_eq]
          exact fun equal => nodup.1 (List.mem_map.mpr ⟨other, member, equal⟩)
        simp [absent]
      · simp [same, Dict.get?_insert_of_ne row (Ne.symm same)]

theorem fetchOne_fetchAll (table : Table Columns) (keys : List Nat) (key : Nat) :
    Table.fetchOne (table.fetchAll keys) key = if key ∈ keys then table.fetchOne key else none := by
  induction table with
  | nil => simp [Table.fetchOne, Table.fetchAll]
  | cons row rest ih =>
    simp only [Table.fetchOne, Table.fetchAll] at ih ⊢
    by_cases wanted : row.key ∈ keys
    · rw [List.filter_cons_of_pos (by simpa using wanted), List.find?_cons, List.find?_cons]
      by_cases same : row.key = key
      · subst same
        simp [wanted]
      · simp only [same, decide_false]
        exact ih
    · rw [List.filter_cons_of_neg (by simpa using wanted), List.find?_cons, ih]
      by_cases same : row.key = key
      · subst same
        simp [wanted]
      · simp [same]

/-- Identifiers that a query may return. -/
def Legal (table : Table Columns) : Prop := ∀ row ∈ table, 1 ≤ row.key ∧ row.key ≤ 65535

/-- The queries of all chunks together find the row of every identifier asked for. -/
theorem collectChunks_ok (legal : Legal table) (nodup : (table.map Row.key).Nodup)
    (chunks : List (List Nat)) (byMid : Dict Nat (Row Columns))
    (asked : List Nat)
    (found : ∀ key, byMid.get? key = if key ∈ asked then table.fetchOne key else none) :
    ∃ collected, chunks.foldlM (fun byMid sub => collectRows (table.fetchAll sub) byMid) byMid =
        .ok collected ∧
      ∀ key, collected.get? key =
        if key ∈ asked ++ chunks.flatten then table.fetchOne key else none := by
  induction chunks generalizing byMid asked with
  | nil => exact ⟨byMid, rfl, by simpa using found⟩
  | cons sub rest ih =>
    obtain ⟨next, ran, answers⟩ := collectRows_ok (table.fetchAll sub) byMid
      (fun row member => legal row (List.mem_of_mem_filter member))
      (nodup.sublist (List.filter_sublist.map _))
    have more : ∀ key, next.get? key =
        if key ∈ asked ++ sub then table.fetchOne key else none := by
      intro key
      rw [answers key, fetchOne_fetchAll, found key]
      by_cases early : key ∈ asked <;> by_cases now : key ∈ sub <;>
        cases table.fetchOne key <;> simp [early, now]
    obtain ⟨collected, folded, final⟩ := ih next (asked ++ sub) more
    refine ⟨collected, ?_, ?_⟩
    · rw [List.foldlM_cons, ran]
      exact folded
    · simpa [List.append_assoc] using final

/-- What the rows of a table read as. -/
structure Readable (table : Table Columns) (dict : Dict Nat Value)
    (build : Row Columns → Except Failure Record) (view : Nat → Value → Record) : Prop where
  legal : Legal table
  nodup : (table.map Row.key).Nodup
  build : ∀ key, (dict.get? key = none ∧ table.fetchOne key = none) ∨
    ∃ value row, dict.get? key = some value ∧ table.fetchOne key = some row ∧
      build row = .ok (view key value)

variable {build : Row Columns → Except Failure Record} {view : Nat → Value → Record}

/-- The page of some identifiers: those that have a record. -/
def pageOf (dict : Dict Nat Value) (view : Nat → Value → Record) (mids : List Nat) : List Record :=
  mids.filterMap fun mid => (dict.get? mid).map (view mid)

theorem mapM_fetched (readable : Readable table dict build view) (mids : List Nat) :
    (mids.filterMap table.fetchOne).mapM build = .ok (pageOf dict view mids) := by
  induction mids with
  | nil => rfl
  | cons mid rest ih =>
    unfold pageOf at ih ⊢
    rcases readable.build mid with ⟨absent, missing⟩ | ⟨value, row, present, fetched, built⟩
    · rw [List.filterMap_cons_none missing, List.filterMap_cons_none (by simp [absent])]
      exact ih
    · rw [List.filterMap_cons_some fetched,
        List.filterMap_cons_some (b := view mid value) (by simp [present]), List.mapM_cons, built, ih]
      rfl

theorem fetchByMids_ok (readable : Readable table dict build view) (mids : List Nat) :
    fetchByMids table mids build = .ok (pageOf dict view mids) := by
  obtain ⟨collected, ran, found⟩ := collectChunks_ok readable.legal readable.nodup
    (pagesOf maxSqlVariables mids.length mids) .empty [] (by simp)
  rw [List.nil_append, flatten_pagesOf (by decide) _ _ (Nat.le_refl _)] at found
  have same : mids.filterMap collected.get? = mids.filterMap table.fetchOne := by
    apply List.filterMap_congr
    intro mid member
    rw [found mid, if_pos member]
  simp only [fetchByMids, ran, bind, Except.bind, same]
  exact mapM_fetched readable mids

theorem hydratePages_ok (readable : Readable table dict build view) (groups : List (List Nat)) :
    hydratePages table build groups =
      .ok ((groups.map (pageOf dict view)).filter (!List.isEmpty ·)) := by
  have listed : groups.mapM (fun mids => fetchByMids table mids build) =
      .ok (groups.map (pageOf dict view)) := by
    induction groups with
    | nil => rfl
    | cons mids rest ih =>
      rw [List.mapM_cons, fetchByMids_ok readable, ih]
      rfl
  simp only [hydratePages, listed, bind, Except.bind]
  rfl

theorem orderedMids_ok (holds : Table.Holds stores dict last table rows) (legal : Legal table) :
    orderedMids table = .ok dict.keys := by
  have each : ∀ row ∈ rows, storedMid row.key = .ok row.key :=
    fun row member => if_pos (legal row (holds.perm.mem_iff.mpr member))
  rw [orderedMids, holds.orderBySeq_eq, ← holds.keys_eq]
  clear holds
  induction rows with
  | nil => rfl
  | cons row rest ih =>
    rw [List.mapM_cons, each row List.mem_cons_self,
      ih fun other member => each other (List.mem_cons_of_mem _ member)]
    rfl

theorem tablePages_ok (holds : Table.Holds stores dict last table rows)
    (readable : Readable table dict build view) (pageSize : Int) :
    tablePages table pageSize build =
      if pageSize ≤ 0 then .error invalidPageSize
      else .ok (((pagesOf pageSize.toNat dict.keys.length dict.keys).map (pageOf dict view)).filter
        (!List.isEmpty ·)) := by
  unfold tablePages
  split
  · rfl
  · simp only [orderedMids_ok holds readable.legal, bind, Except.bind]
    exact hydratePages_ok readable _

theorem pageOf_self (dict : Dict Nat Value) :
    (fun mids : List Nat => mids.filterMap dict.get?) = pageOf dict fun _ value => value := by
  funext mids
  simp [pageOf]

/-- Viewing the records of a page afterwards. -/
theorem map_pages {Seen : Type} (see : Record → Seen) (groups : List (List Nat)) :
    ((groups.map (pageOf dict view)).filter (!List.isEmpty ·)).map (List.map see) =
      (groups.map (pageOf dict fun mid value => see (view mid value))).filter
        (!List.isEmpty ·) := by
  induction groups with
  | nil => rfl
  | cons mids rest ih =>
    have page : pageOf dict (fun mid value => see (view mid value)) mids =
        (pageOf dict view mids).map see := by
      simp [pageOf, List.map_filterMap, Option.map_map, Function.comp_def]
    rw [List.map_cons, List.map_cons, page, List.filter_cons, List.filter_cons,
      List.isEmpty_map, ← ih]
    split <;> rfl

end Mqttium.Persistence
