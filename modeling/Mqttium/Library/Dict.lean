import Mathlib.Algebra.BigOperators.Group.List.Basic
import Mathlib.Algebra.Order.Ring.Nat
import Mathlib.Data.List.Nodup

/-! Insertion-ordered dictionaries with unique keys. Replacing the value of a
present key keeps its position; a new key goes to the end. -/

namespace Mqttium.Library

universe u v w

/-- Key/value pairs in insertion order, carrying the proof that no key repeats. -/
structure Dict (Key : Type u) (Value : Type v) where
  entries : List (Key × Value)
  nodup : (entries.map Prod.fst).Nodup

namespace Dict

variable {Key : Type u} {Value : Type v} {Other : Type w}

instance [DecidableEq Key] [DecidableEq Value] : DecidableEq (Dict Key Value) := fun left right =>
  decidable_of_iff (left.entries = right.entries) (by cases left; cases right; simp)

instance [Repr Key] [Repr Value] : Repr (Dict Key Value) :=
  ⟨fun dict precedence => reprPrec dict.entries precedence⟩

def empty : Dict Key Value := ⟨[], by simp⟩

instance : Inhabited (Dict Key Value) := ⟨empty⟩

def keys (dict : Dict Key Value) : List Key := dict.entries.map Prod.fst

def values (dict : Dict Key Value) : List Value := dict.entries.map Prod.snd

def size (dict : Dict Key Value) : Nat := dict.entries.length

def isEmpty (dict : Dict Key Value) : Bool := dict.entries.isEmpty

/-- Apply a function to every value; keys and their order stay. -/
def mapValues (dict : Dict Key Value) (change : Value → Other) : Dict Key Other :=
  ⟨dict.entries.map fun entry => (entry.1, change entry.2), by
    simpa [List.map_map, Function.comp_def] using dict.nodup⟩

/-- Apply a function that also sees the key; keys and their order stay. -/
def mapEntries (dict : Dict Key Value) (change : Key → Value → Other) : Dict Key Other :=
  ⟨dict.entries.map fun entry => (entry.1, change entry.1 entry.2), by
    simpa [List.map_map, Function.comp_def] using dict.nodup⟩

private theorem keys_filterMap (change : Key → Value → Option Other)
    (entries : List (Key × Value)) :
    ((entries.filterMap fun entry => (change entry.1 entry.2).map fun value => (entry.1, value)).map
      Prod.fst).Sublist (entries.map Prod.fst) := by
  induction entries with
  | nil => exact .slnil
  | cons head rest ih =>
    cases changed : change head.1 head.2 with
    | none => simpa [List.filterMap_cons, changed] using ih.cons head.1
    | some value => simpa [List.filterMap_cons, changed] using ih.cons_cons head.1

/-- Apply a function that may drop an entry; the keys that stay keep their order. -/
def filterMap (dict : Dict Key Value) (change : Key → Value → Option Other) : Dict Key Other :=
  ⟨dict.entries.filterMap fun entry => (change entry.1 entry.2).map fun value => (entry.1, value),
    dict.nodup.sublist (keys_filterMap change dict.entries)⟩

/-- Sum a measure of the entries. -/
def sumBy (dict : Dict Key Value) (measure : Key → Value → Nat) : Nat :=
  (dict.entries.map fun entry => measure entry.1 entry.2).sum

section Operations

variable [DecidableEq Key]

def get? (dict : Dict Key Value) (key : Key) : Option Value := dict.entries.lookup key

def contains (dict : Dict Key Value) (key : Key) : Bool := (dict.get? key).isSome

private def replaceIn (key : Key) (value : Value) (entries : List (Key × Value)) :
    List (Key × Value) :=
  entries.map fun entry => if entry.1 = key then (key, value) else entry

private theorem keys_replaceIn (key : Key) (value : Value) (entries : List (Key × Value)) :
    (replaceIn key value entries).map Prod.fst = entries.map Prod.fst := by
  simp only [replaceIn, List.map_map]
  apply List.map_congr_left
  intro entry _
  by_cases same : entry.1 = key <;> simp [same]

/-- Assign in place when the key is present, append otherwise. -/
def insert (dict : Dict Key Value) (key : Key) (value : Value) : Dict Key Value :=
  if present : key ∈ dict.entries.map Prod.fst then
    ⟨replaceIn key value dict.entries, by rw [keys_replaceIn]; exact dict.nodup⟩
  else
    ⟨dict.entries ++ [(key, value)], by
      rw [List.map_append, List.nodup_append]
      refine ⟨dict.nodup, by simp, ?_⟩
      intro left member right single same
      simp only [List.map_cons, List.map_nil, List.mem_singleton] at single
      subst same single
      exact present member⟩

/-- Drop a key; the others keep their order. -/
def erase (dict : Dict Key Value) (key : Key) : Dict Key Value :=
  ⟨dict.entries.filter fun entry => entry.1 ≠ key,
    dict.nodup.sublist (List.filter_sublist.map _)⟩

/-- Change the value of a present key; an absent key changes nothing. -/
def modify (dict : Dict Key Value) (key : Key) (change : Value → Value) : Dict Key Value :=
  match dict.get? key with
  | some value => dict.insert key (change value)
  | none => dict

end Operations

theorem mem_keys (dict : Dict Key Value) (key : Key) :
    key ∈ dict.keys ↔ ∃ value, (key, value) ∈ dict.entries := by
  simp [keys]

theorem keys_nodup (dict : Dict Key Value) : dict.keys.Nodup := dict.nodup

@[simp] theorem keys_empty : (empty : Dict Key Value).keys = [] := rfl

theorem isEmpty_iff {dict : Dict Key Value} : dict.isEmpty = true ↔ dict.keys = [] := by
  simp [isEmpty, keys]

theorem ext_entries {left right : Dict Key Value} (same : left.entries = right.entries) :
    left = right := by
  cases left
  cases right
  simpa using same

@[simp] theorem keys_mapValues (dict : Dict Key Value) (change : Value → Other) :
    (dict.mapValues change).keys = dict.keys := by
  simp [mapValues, keys, List.map_map, Function.comp_def]

section Lookup

variable [DecidableEq Key]

private theorem lookup_of_mem {entries : List (Key × Value)}
    (nodup : (entries.map Prod.fst).Nodup) {key : Key} {value : Value}
    (member : (key, value) ∈ entries) : entries.lookup key = some value := by
  induction entries with
  | nil => simp at member
  | cons head rest ih =>
    obtain ⟨other, stored⟩ := head
    simp only [List.map_cons, List.nodup_cons] at nodup
    rcases List.mem_cons.mp member with first | later
    · cases first
      simp
    · have different : key ≠ other := by
        intro same
        subst same
        exact nodup.1 (List.mem_map.mpr ⟨_, later, rfl⟩)
      simp [List.lookup_cons, beq_eq_false_iff_ne.mpr different, ih nodup.2 later]

private theorem mem_of_lookup {entries : List (Key × Value)} {key : Key} {value : Value}
    (found : entries.lookup key = some value) : (key, value) ∈ entries := by
  induction entries with
  | nil => simp at found
  | cons head rest ih =>
    obtain ⟨other, stored⟩ := head
    by_cases same : key = other
    · subst same
      simp at found
      simp [found]
    · rw [List.lookup_cons, beq_eq_false_iff_ne.mpr same] at found
      exact List.mem_cons_of_mem _ (ih found)

theorem get?_eq_some_iff {dict : Dict Key Value} {key : Key} {value : Value} :
    dict.get? key = some value ↔ (key, value) ∈ dict.entries :=
  ⟨mem_of_lookup, lookup_of_mem dict.nodup⟩

theorem mem_keys_iff {dict : Dict Key Value} {key : Key} :
    key ∈ dict.keys ↔ (dict.get? key).isSome := by
  rw [mem_keys, Option.isSome_iff_exists]
  simp only [get?_eq_some_iff]

theorem get?_eq_none_iff {dict : Dict Key Value} {key : Key} :
    dict.get? key = none ↔ key ∉ dict.keys := by
  rw [mem_keys_iff]
  cases dict.get? key <;> simp

theorem mem_keys_of_get? {dict : Dict Key Value} {key : Key} {value : Value}
    (found : dict.get? key = some value) : key ∈ dict.keys := by
  simp [mem_keys_iff, found]

/-- Looking every key up gives the entries. -/
theorem filterMap_keys (dict : Dict Key Value) (view : Key → Value → Other) :
    (dict.keys.filterMap fun key => (dict.get? key).map (view key)) =
      dict.entries.map fun entry => view entry.1 entry.2 := by
  have each : ∀ entry ∈ dict.entries,
      ((fun key => (dict.get? key).map (view key)) ∘ Prod.fst) entry =
        (some ∘ fun entry => view entry.1 entry.2) entry := by
    intro entry member
    have found := get?_eq_some_iff.mpr member
    simp [found]
  rw [keys, List.filterMap_map, List.filterMap_congr each, List.filterMap_eq_map]

@[simp] theorem get?_empty (key : Key) : (empty : Dict Key Value).get? key = none := rfl

theorem keys_insert (dict : Dict Key Value) (key : Key) (value : Value) :
    (dict.insert key value).keys = if key ∈ dict.keys then dict.keys else dict.keys ++ [key] := by
  unfold insert keys
  split <;> simp [keys_replaceIn]

theorem entries_insert_of_not_mem {dict : Dict Key Value} {key : Key} (value : Value)
    (absent : key ∉ dict.keys) :
    (dict.insert key value).entries = dict.entries ++ [(key, value)] := by
  unfold keys at absent
  simp [insert, absent]

theorem mem_keys_insert {dict : Dict Key Value} {key other : Key} {value : Value} :
    other ∈ (dict.insert key value).keys ↔ other = key ∨ other ∈ dict.keys := by
  rw [keys_insert]
  split
  · constructor
    · exact Or.inr
    · rintro (rfl | member) <;> assumption
  · simp [or_comm]

theorem keys_erase (dict : Dict Key Value) (key : Key) :
    (dict.erase key).keys = dict.keys.filter (· ≠ key) := by
  simp [erase, keys, List.filter_map, Function.comp_def]

@[simp] theorem mem_keys_erase {dict : Dict Key Value} {key other : Key} :
    other ∈ (dict.erase key).keys ↔ other ∈ dict.keys ∧ other ≠ key := by
  simp [keys_erase]

@[grind =] theorem get?_insert (dict : Dict Key Value) (key other : Key) (value : Value) :
    (dict.insert key value).get? other = if other = key then some value else dict.get? other := by
  by_cases present : key ∈ dict.entries.map Prod.fst
  · by_cases same : other = key
    · subst same
      obtain ⟨entry, member, hit⟩ := List.mem_map.mp present
      simp only [↓reduceIte, get?_eq_some_iff, insert, present, ↓reduceDIte, replaceIn,
        List.mem_map]
      exact ⟨entry, member, by simp [hit]⟩
    · apply Option.ext
      intro found
      simp only [same, ↓reduceIte, get?_eq_some_iff, insert, present, ↓reduceDIte, replaceIn,
        List.mem_map]
      constructor
      · rintro ⟨entry, member, hit⟩
        by_cases replaced : entry.1 = key
        · simp only [replaced, ↓reduceIte, Prod.mk.injEq] at hit
          exact absurd hit.1.symm same
        · simpa [replaced, ← hit] using member
      · intro member
        exact ⟨(other, found), member, by simp [same]⟩
  · apply Option.ext
    intro found
    by_cases same : other = key
    · subst same
      simp only [get?_eq_some_iff, entries_insert_of_not_mem value present, ↓reduceIte,
        List.mem_append, List.mem_singleton, Prod.mk.injEq, true_and, Option.some.injEq]
      constructor
      · rintro (member | rfl)
        · exact absurd (List.mem_map.mpr ⟨_, member, rfl⟩) present
        · rfl
      · rintro rfl
        exact Or.inr rfl
    · simp [get?_eq_some_iff, entries_insert_of_not_mem value present, same]

@[simp] theorem get?_insert_self (dict : Dict Key Value) (key : Key) (value : Value) :
    (dict.insert key value).get? key = some value := by
  simp [get?_insert]

theorem get?_insert_of_ne {dict : Dict Key Value} {key other : Key} (value : Value)
    (different : other ≠ key) : (dict.insert key value).get? other = dict.get? other := by
  simp [get?_insert, different]

@[grind =] theorem get?_erase (dict : Dict Key Value) (key other : Key) :
    (dict.erase key).get? other = if other = key then none else dict.get? other := by
  apply Option.ext
  intro found
  by_cases same : other = key
  · subst same
    simp [get?_eq_some_iff, erase]
  · simp [get?_eq_some_iff, erase, same]

@[simp] theorem get?_erase_self (dict : Dict Key Value) (key : Key) :
    (dict.erase key).get? key = none := by
  simp [get?_erase]

theorem get?_erase_of_ne {dict : Dict Key Value} {key other : Key} (different : other ≠ key) :
    (dict.erase key).get? other = dict.get? other := by
  simp [get?_erase, different]

theorem erase_of_not_mem {dict : Dict Key Value} {key : Key} (absent : key ∉ dict.keys) :
    dict.erase key = dict := by
  have kept : dict.entries.filter (fun entry => decide (entry.1 ≠ key)) = dict.entries := by
    apply List.filter_eq_self.mpr
    intro entry member
    have different : entry.1 ≠ key := by
      rintro rfl
      exact absent (List.mem_map.mpr ⟨_, member, rfl⟩)
    simpa using different
  cases dict
  simp only [erase, mk.injEq]
  exact kept

@[grind =] theorem get?_modify (dict : Dict Key Value) (key other : Key) (change : Value → Value) :
    (dict.modify key change).get? other =
      if other = key then (dict.get? key).map change else dict.get? other := by
  unfold modify
  cases found : dict.get? key with
  | none =>
    by_cases same : other = key
    · simp [same, found]
    · simp [same]
  | some value => simp [get?_insert]

theorem modify_of_get? {dict : Dict Key Value} {key : Key} {value : Value}
    (found : dict.get? key = some value) (change : Value → Value) :
    dict.modify key change = dict.insert key (change value) := by
  simp [modify, found]

theorem entries_insert_of_mem {dict : Dict Key Value} {key : Key} (value : Value)
    (present : key ∈ dict.keys) :
    (dict.insert key value).entries =
      dict.entries.map fun entry => if entry.1 = key then (key, value) else entry := by
  unfold keys at present
  simp [insert, present, replaceIn]

@[simp] theorem insert_insert (dict : Dict Key Value) (key : Key) (first second : Value) :
    (dict.insert key first).insert key second = dict.insert key second := by
  apply ext_entries
  have present : key ∈ (dict.insert key first).keys := mem_keys_insert.mpr (.inl rfl)
  rw [entries_insert_of_mem second present]
  by_cases before : key ∈ dict.keys
  · rw [entries_insert_of_mem first before, entries_insert_of_mem second before, List.map_map]
    apply List.map_congr_left
    intro entry _
    by_cases same : entry.1 = key <;> simp [same]
  · rw [entries_insert_of_not_mem first before, entries_insert_of_not_mem second before,
      List.map_append]
    congr 1
    · conv_rhs => rw [← List.map_id dict.entries]
      apply List.map_congr_left
      intro entry member
      have different : entry.1 ≠ key := by
        rintro rfl
        exact before (List.mem_map.mpr ⟨_, member, rfl⟩)
      simp [different]
    · simp

theorem insert_of_get? {dict : Dict Key Value} {key : Key} {value : Value}
    (found : dict.get? key = some value) : dict.insert key value = dict := by
  apply ext_entries
  rw [entries_insert_of_mem value (mem_keys_of_get? found)]
  conv_rhs => rw [← List.map_id dict.entries]
  apply List.map_congr_left
  rintro ⟨other, stored⟩ member
  by_cases same : other = key
  · subst same
    have single := found.symm.trans (get?_eq_some_iff.mpr member)
    simp_all
  · simp [same]

/-- What a dropped key held does not matter. -/
theorem erase_insert_of_get? {dict : Dict Key Value} {key : Key} {stored : Value} (value : Value)
    (found : dict.get? key = some stored) : (dict.insert key value).erase key = dict.erase key := by
  apply ext_entries
  have replaced := entries_insert_of_mem value (mem_keys_of_get? found)
  simp only [erase, replaced, List.filter_map]
  have unchanged : dict.entries.filter ((fun entry : Key × Value => decide (entry.1 ≠ key)) ∘
      fun entry => if entry.1 = key then (key, value) else entry) =
      dict.entries.filter fun entry => decide (entry.1 ≠ key) := by
    apply List.filter_congr
    intro entry _
    by_cases same : entry.1 = key <;> simp [same]
  rw [unchanged]
  conv_rhs => rw [← List.map_id (dict.entries.filter fun entry => decide (entry.1 ≠ key))]
  apply List.map_congr_left
  intro entry member
  have different := (List.mem_filter.mp member).2
  simp only [ne_eq, decide_not, Bool.not_eq_eq_eq_not, Bool.not_true,
    decide_eq_false_iff_not] at different
  simp [different]

theorem entries_modify (dict : Dict Key Value) (key : Key) (change : Value → Value) :
    (dict.modify key change).entries =
      dict.entries.map fun entry => if entry.1 = key then (key, change entry.2) else entry := by
  unfold modify
  cases found : dict.get? key with
  | none =>
    rw [get?_eq_none_iff] at found
    conv_lhs => rw [← List.map_id dict.entries]
    apply List.map_congr_left
    rintro ⟨other, stored⟩ member
    have different : other ≠ key := by
      rintro rfl
      exact found (List.mem_map.mpr ⟨_, member, rfl⟩)
    simp [different]
  | some value =>
    have present : key ∈ dict.entries.map Prod.fst := mem_keys_of_get? found
    simp only [insert, present, ↓reduceDIte, replaceIn]
    apply List.map_congr_left
    rintro ⟨other, stored⟩ member
    by_cases same : other = key
    · subst same
      have single := found.symm.trans (get?_eq_some_iff.mpr member)
      simp_all
    · simp [same]

theorem keys_modify (dict : Dict Key Value) (key : Key) (change : Value → Value) :
    (dict.modify key change).keys = dict.keys := by
  unfold modify
  cases found : dict.get? key with
  | none => rfl
  | some value => simp [keys_insert, mem_keys_of_get? found]

@[simp] theorem get?_mapValues (dict : Dict Key Value) (change : Value → Other) (key : Key) :
    (dict.mapValues change).get? key = (dict.get? key).map change := by
  apply Option.ext
  intro found
  simp only [get?_eq_some_iff, mapValues, List.mem_map, Prod.mk.injEq, Prod.exists,
    Option.map_eq_some_iff]
  constructor
  · rintro ⟨other, value, member, rfl, rfl⟩
    exact ⟨value, member, rfl⟩
  · rintro ⟨value, member, rfl⟩
    exact ⟨key, value, member, rfl, rfl⟩

@[simp, grind =] theorem get?_mapEntries (dict : Dict Key Value) (change : Key → Value → Other)
    (key : Key) : (dict.mapEntries change).get? key = (dict.get? key).map (change key) := by
  apply Option.ext
  intro found
  simp only [get?_eq_some_iff, mapEntries, List.mem_map, Prod.mk.injEq, Prod.exists,
    Option.map_eq_some_iff]
  constructor
  · rintro ⟨other, value, member, rfl, rfl⟩
    exact ⟨value, member, rfl⟩
  · rintro ⟨value, member, rfl⟩
    exact ⟨key, value, member, rfl, rfl⟩

@[simp] theorem mapValues_erase (dict : Dict Key Value) (key : Key) (change : Value → Other) :
    (dict.erase key).mapValues change = (dict.mapValues change).erase key := by
  apply ext_entries
  simp [mapValues, erase, List.filter_map, Function.comp_def]

@[simp] theorem mapValues_insert (dict : Dict Key Value) (key : Key) (value : Value)
    (change : Value → Other) :
    (dict.insert key value).mapValues change = (dict.mapValues change).insert key (change value) := by
  apply ext_entries
  by_cases present : key ∈ dict.entries.map Prod.fst
  · have mapped : key ∈ (dict.mapValues change).entries.map Prod.fst := by
      simpa [mapValues, List.map_map, Function.comp_def] using present
    simp only [insert, present, mapped, ↓reduceDIte]
    simp only [mapValues, replaceIn, List.map_map]
    apply List.map_congr_left
    intro entry _
    by_cases same : entry.1 = key <;> simp [same]
  · have mapped : key ∉ (dict.mapValues change).entries.map Prod.fst := by
      simpa [mapValues, List.map_map, Function.comp_def] using present
    simp only [insert, present, mapped, ↓reduceDIte]
    simp [mapValues]

theorem mapEntries_congr {dict : Dict Key Value} {change fresh : Key → Value → Other}
    (same : ∀ key value, dict.get? key = some value → change key value = fresh key value) :
    dict.mapEntries change = dict.mapEntries fresh := by
  apply ext_entries
  apply List.map_congr_left
  rintro ⟨key, value⟩ member
  rw [same key value (get?_eq_some_iff.mpr member)]

theorem mapEntries_id {dict : Dict Key Value} {change : Key → Value → Value}
    (same : ∀ key value, dict.get? key = some value → change key value = value) :
    dict.mapEntries change = dict := by
  have plain : dict.mapEntries change = dict.mapEntries fun _ value => value :=
    mapEntries_congr same
  rw [plain]
  apply ext_entries
  simp [mapEntries]

theorem mapEntries_erase (dict : Dict Key Value) (key : Key) (change : Key → Value → Other) :
    (dict.erase key).mapEntries change = (dict.mapEntries change).erase key := by
  apply ext_entries
  simp [mapEntries, erase, List.filter_map, Function.comp_def]

/-- A stored value may be replaced by one that is mapped to the same. -/
theorem mapEntries_insert_of_get? {dict : Dict Key Value} {key : Key} {stored value : Value}
    {change : Key → Value → Other} (found : dict.get? key = some stored)
    (same : change key value = change key stored) :
    (dict.insert key value).mapEntries change = dict.mapEntries change := by
  have present : key ∈ dict.entries.map Prod.fst := mem_keys_of_get? found
  apply ext_entries
  simp only [mapEntries, insert, present, ↓reduceDIte, replaceIn, List.map_map]
  apply List.map_congr_left
  rintro ⟨other, old⟩ member
  by_cases equal : other = key
  · subst equal
    cases found.symm.trans (get?_eq_some_iff.mpr member)
    simp [same]
  · simp [equal]

end Lookup

section Sums

variable [DecidableEq Key] (measure other : Key → Value → Nat)

theorem sumBy_congr {dict : Dict Key Value}
    (same : ∀ key value, dict.get? key = some value → measure key value = other key value) :
    dict.sumBy measure = dict.sumBy other := by
  unfold sumBy
  congr 1
  apply List.map_congr_left
  intro entry member
  exact same entry.1 entry.2 (get?_eq_some_iff.mpr member)

omit [DecidableEq Key] in
theorem sumBy_mapEntries (dict : Dict Key Value) (change : Key → Value → Value)
    (kept : ∀ key value, measure key (change key value) = measure key value) :
    (dict.mapEntries change).sumBy measure = dict.sumBy measure := by
  simp [sumBy, mapEntries, List.map_map, Function.comp_def, kept]

theorem sumBy_insert_new {dict : Dict Key Value} {key : Key} (value : Value)
    (absent : dict.get? key = none) :
    (dict.insert key value).sumBy measure = dict.sumBy measure + measure key value := by
  rw [get?_eq_none_iff] at absent
  simp [sumBy, entries_insert_of_not_mem value absent]

private theorem sum_filter_ne {entries : List (Key × Value)}
    (nodup : (entries.map Prod.fst).Nodup) {key : Key} {value : Value}
    (member : (key, value) ∈ entries) :
    ((entries.filter fun entry => entry.1 ≠ key).map fun entry => measure entry.1 entry.2).sum +
      measure key value = (entries.map fun entry => measure entry.1 entry.2).sum := by
  induction entries with
  | nil => simp at member
  | cons head rest ih =>
    simp only [List.map_cons, List.nodup_cons] at nodup
    rcases List.mem_cons.mp member with first | later
    · subst first
      have kept : rest.filter (fun entry => decide (entry.1 ≠ key)) = rest := by
        apply List.filter_eq_self.mpr
        intro entry inRest
        have different : entry.1 ≠ key := by
          rintro rfl
          exact nodup.1 (List.mem_map.mpr ⟨_, inRest, rfl⟩)
        simpa using different
      rw [List.filter_cons_of_neg (by simp), kept]
      simp [Nat.add_comm]
    · have different : head.1 ≠ key := by
        rintro rfl
        exact nodup.1 (List.mem_map.mpr ⟨_, later, rfl⟩)
      have step := ih nodup.2 later
      simp only [ne_eq, decide_not] at step ⊢
      simp only [different, decide_false, Bool.not_false, List.filter_cons_of_pos, List.map_cons,
        List.sum_cons]
      omega

theorem sumBy_erase {dict : Dict Key Value} {key : Key} {value : Value}
    (found : dict.get? key = some value) :
    (dict.erase key).sumBy measure + measure key value = dict.sumBy measure :=
  sum_filter_ne measure dict.nodup (get?_eq_some_iff.mp found)

/-- A measure that changes at one key only changes the sum by that key's share. -/
theorem sumBy_change {dict : Dict Key Value} {key : Key} {value : Value}
    (found : dict.get? key = some value)
    (elsewhere : ∀ next stored, next ≠ key → dict.get? next = some stored →
      measure next stored = other next stored) :
    dict.sumBy measure + other key value = dict.sumBy other + measure key value := by
  have left := sumBy_erase measure found
  have right := sumBy_erase other found
  have rest : (dict.erase key).sumBy measure = (dict.erase key).sumBy other := by
    apply sumBy_congr
    intro next stored present
    rw [get?_erase] at present
    by_cases same : next = key
    · simp [same] at present
    · exact elsewhere next stored same (by simpa [same] using present)
  omega

theorem sumBy_replace {dict : Dict Key Value} {key : Key} {value : Value} (fresh : Value)
    (found : dict.get? key = some value) :
    (dict.insert key fresh).sumBy measure + measure key value =
      dict.sumBy measure + measure key fresh := by
  have replaced := sumBy_erase measure (get?_insert_self dict key fresh)
  have original := sumBy_erase measure found
  rw [erase_insert_of_get? fresh found] at replaced
  omega

/-- Changing a value without changing its measure keeps the sum. -/
theorem sumBy_modify {dict : Dict Key Value} {key : Key} (change : Value → Value)
    (kept : ∀ value, measure key (change value) = measure key value) :
    (dict.modify key change).sumBy measure = dict.sumBy measure := by
  unfold modify
  cases found : dict.get? key with
  | none => rfl
  | some value =>
    have replaced := sumBy_replace measure (change value) found
    rw [kept] at replaced
    exact Nat.add_right_cancel replaced

theorem le_sumBy {dict : Dict Key Value} {key : Key} {value : Value}
    (found : dict.get? key = some value) : measure key value ≤ dict.sumBy measure := by
  have split := sumBy_erase measure found
  omega

end Sums

end Dict

end Mqttium.Library
