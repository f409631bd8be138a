import Mathlib.Data.List.Basic
import Mqttium.Library.Raising

/-! Reading a changing collection page by page. The keys are cut into pages when the
reading starts, a page is looked up when it is its turn, and the reader may change
the collection between two pages. -/

namespace Mqttium.Library

universe u

variable {Error State Key Record Body : Type u}

/-- The pages a reader was given, and the keys of each page that was looked up with the
state it was looked up in. -/
structure Reading (State Key Record : Type u) where
  pages : List (List Record)
  fetched : List (List Key × State)

/-- Read the pages in order, acting on the state after each one that has records. A page
without records is passed over. -/
def readPages (fetch : State → List Key → Except Error (List Record)) (act : Body → State → State) :
    List (List Key) → List Body → State → Except Error (Reading State Key Record)
  | [], _, _ => .ok ⟨[], []⟩
  | keys :: rest, bodies, state => do
    match ← fetch state keys, bodies with
    | [], bodies =>
      let later ← readPages fetch act rest bodies state
      return ⟨later.pages, (keys, state) :: later.fetched⟩
    | page, [] =>
      let later ← readPages fetch act rest [] state
      return ⟨page :: later.pages, (keys, state) :: later.fetched⟩
    | page, body :: bodies =>
      let later ← readPages fetch act rest bodies (act body state)
      return ⟨page :: later.pages, (keys, state) :: later.fetched⟩

variable {fetch : State → List Key → Except Error (List Record)} {act : Body → State → State}

/-- The pages show what `lookup` finds at the time of each look. -/
def Shows (lookup : State → Key → Option Record) (reading : Reading State Key Record) : Prop :=
  reading.pages =
    (reading.fetched.map fun look => look.1.filterMap (lookup look.2)).filter (!List.isEmpty ·)

variable {lookup : State → Key → Option Record}

/-- The rule of a reading: an invariant of the state under which a page can be looked up. -/
theorem readPages_ok (invariant : State → Prop)
    (fetches : ∀ state keys, invariant state →
      fetch state keys = .ok (keys.filterMap (lookup state)))
    {groups : List (List Key)} {bodies : List Body} {state : State} (start : invariant state)
    (moves : ∀ body ∈ bodies, ∀ state, invariant state → invariant (act body state)) :
    ∃ reading, readPages fetch act groups bodies state = .ok reading ∧
      reading.fetched.map Prod.fst = groups ∧ Shows lookup reading ∧
      ∀ look ∈ reading.fetched, invariant look.2 := by
  induction groups generalizing bodies state with
  | nil => exact ⟨⟨[], []⟩, rfl, rfl, rfl, by simp⟩
  | cons keys rest ih =>
    simp only [readPages, fetches state keys start, bind, Except.bind]
    cases page : keys.filterMap (lookup state) with
    | nil =>
      obtain ⟨later, ran, covers, shows, held⟩ := ih start moves
      refine ⟨⟨later.pages, (keys, state) :: later.fetched⟩, ?_, ?_, ?_, ?_⟩
      · simp only [ran]
        rfl
      · simp [covers]
      · unfold Shows at shows ⊢
        simp [shows, page]
      · exact List.forall_mem_cons.mpr ⟨start, held⟩
    | cons first others =>
      have given : ∀ later : Reading State Key Record, Shows lookup later →
          Shows lookup ⟨(first :: others) :: later.pages, (keys, state) :: later.fetched⟩ := by
        intro later shows
        unfold Shows at shows ⊢
        simp [shows, page]
      cases bodies with
      | nil =>
        obtain ⟨later, ran, covers, shows, held⟩ := ih start moves
        refine ⟨⟨(first :: others) :: later.pages, (keys, state) :: later.fetched⟩, ?_, ?_,
          given later shows, List.forall_mem_cons.mpr ⟨start, held⟩⟩
        · simp only [ran]
          rfl
        · simp [covers]
      | cons body bodies =>
        obtain ⟨later, ran, covers, shows, held⟩ := ih (moves body List.mem_cons_self state start)
          fun other member => moves other (List.mem_cons_of_mem body member)
        refine ⟨⟨(first :: others) :: later.pages, (keys, state) :: later.fetched⟩, ?_, ?_,
          given later shows, List.forall_mem_cons.mpr ⟨start, held⟩⟩
        · simp only [ran]
          rfl
        · simp [covers]

/-- All records of a reading, whatever page they are on. -/
theorem Shows.flatten {reading : Reading State Key Record} (shows : Shows lookup reading) :
    reading.pages.flatten =
      reading.fetched.flatMap fun look => look.1.filterMap (lookup look.2) := by
  rw [shows, List.flatten_filter_not_isEmpty, List.flatMap_def]

/-- A reading under an unchanged state lists what the state holds. -/
theorem Shows.still {reading : Reading State Key Record} (shows : Shows lookup reading)
    {state : State} (still : ∀ look ∈ reading.fetched, look.2 = state) :
    reading.pages.flatten =
      ((reading.fetched.map Prod.fst).flatten).filterMap (lookup state) := by
  rw [shows.flatten]
  generalize reading.fetched = looks at still
  induction looks with
  | nil => rfl
  | cons look rest ih =>
    obtain ⟨here, later⟩ := List.forall_mem_cons.mp still
    simp [List.filterMap_append, ih later, here]

/-- A page of a reading is the page of some look. -/
theorem Shows.page {reading : Reading State Key Record} (shows : Shows lookup reading)
    {page : List Record} (member : page ∈ reading.pages) :
    page ≠ [] ∧ ∃ look ∈ reading.fetched, page = look.1.filterMap (lookup look.2) := by
  rw [shows, List.mem_filter, List.mem_map] at member
  obtain ⟨⟨look, listed, rfl⟩, filled⟩ := member
  refine ⟨?_, look, listed, rfl⟩
  intro empty
  simp [empty] at filled

theorem length_filterMap_le_of_sparse {seen held : Key → Option Record} {keys : List Key}
    (sparse : ∀ key, seen key = held key ∨ seen key = none) :
    (keys.filterMap seen).length ≤ (keys.filterMap held).length ∧
      ((keys.filterMap seen).length = (keys.filterMap held).length →
        ∀ key ∈ keys, seen key = held key) := by
  induction keys with
  | nil => simp
  | cons key rest ih =>
    simp only [List.filterMap_cons]
    rcases sparse key with same | missed
    · rw [same]
      cases held key with
      | none => exact ⟨ih.1, fun equal => List.forall_mem_cons.mpr ⟨same, ih.2 equal⟩⟩
      | some record =>
        refine ⟨Nat.succ_le_succ ih.1, fun equal => List.forall_mem_cons.mpr ⟨same, ?_⟩⟩
        exact ih.2 (Nat.succ.inj equal)
    · rw [missed]
      cases found : held key with
      | none =>
        refine ⟨ih.1, fun equal => List.forall_mem_cons.mpr ⟨?_, ih.2 equal⟩⟩
        rw [missed, found]
      | some record =>
        refine ⟨Nat.le_succ_of_le ih.1, fun equal => ?_⟩
        exact absurd equal (Nat.ne_of_lt (Nat.lt_succ_of_le ih.1))

/-- A reading through a view that may miss records shows the state exactly when it
missed none. -/
theorem Shows.iff_of_sparse {seen : State → Key → Option Record}
    {reading : Reading State Key Record} (shows : Shows seen reading)
    (sparse : ∀ look ∈ reading.fetched, ∀ key,
      seen look.2 key = lookup look.2 key ∨ seen look.2 key = none) :
    Shows lookup reading ↔
      ∀ look ∈ reading.fetched, ∀ key ∈ look.1, seen look.2 key = lookup look.2 key := by
  constructor
  · intro exact
    have same := congrArg List.length (shows.flatten.symm.trans exact.flatten)
    generalize reading.fetched = looks at same sparse
    have counted : (looks.flatMap fun look => look.1.filterMap (seen look.2)).length ≤
        (looks.flatMap fun look => look.1.filterMap (lookup look.2)).length ∧
        ((looks.flatMap fun look => look.1.filterMap (seen look.2)).length =
          (looks.flatMap fun look => look.1.filterMap (lookup look.2)).length →
          ∀ look ∈ looks, ∀ key ∈ look.1, seen look.2 key = lookup look.2 key) := by
      clear same
      induction looks with
      | nil => simp
      | cons look rest ih =>
        obtain ⟨first, others⟩ := List.forall_mem_cons.mp sparse
        have here := @length_filterMap_le_of_sparse _ _ _ _ look.1 first
        have later := ih others
        simp only [List.flatMap_cons, List.length_append]
        refine ⟨Nat.add_le_add here.1 later.1, fun equal => List.forall_mem_cons.mpr ⟨?_, ?_⟩⟩
        · exact here.2 (by omega)
        · exact later.2 (by omega)
    exact counted.2 same
  · intro complete
    unfold Shows at shows ⊢
    rw [shows]
    congr 1
    apply List.map_congr_left
    intro look member
    exact List.filterMap_congr fun key listed => complete look member key listed

end Mqttium.Library
