import Mqttium.Dispatch.Matcher

/-! The tree as a map from filter levels to entries: what each update changes, what
pruning leaves, and what the lookup collects. -/

namespace Mqttium.Dispatch

open Codec Library

/-- The levels of a filter match those of a topic: `+` one level, a last `#` the parent
level and all below it. -/
def matchLevels : List Text → List Text → Bool
  | [], topic => topic.isEmpty
  | level :: rest, topic =>
    if level = [Codec.hash] then rest.isEmpty
    else match topic with
      | [] => false
      | name :: names => (level == [Codec.plus] || level == name) && matchLevels rest names

namespace Node

variable {node fresh below : Node} {level other : Text} {path : List Text} {sequence : Nat}

/-! Children -/

theorem lookup_other {children : List (Text × Node)} {stored : Node} (different : other ≠ level) :
    ((level, stored) :: children).lookup other = children.lookup other := by
  rw [List.lookup_cons, beq_eq_false_iff_ne.mpr different]

theorem lookup_replaced (children : List (Text × Node)) (fresh : Node)
    (present : (children.lookup level).isSome) :
    (children.map fun entry => if entry.1 = level then (level, fresh) else entry).lookup other =
      if other = level then some fresh else children.lookup other := by
  induction children with
  | nil => simp at present
  | cons entry rest ih =>
    obtain ⟨key, stored⟩ := entry
    rw [List.map_cons]
    by_cases here : key = level
    · subst here
      simp only [↓reduceIte]
      by_cases same : other = key
      · subst same
        simp
      · rw [lookup_other same, lookup_other same, if_neg same]
        by_cases again : (rest.lookup key).isSome
        · rw [ih again, if_neg same]
        · clear ih present
          induction rest with
          | nil => rfl
          | cons entry rest ih =>
            obtain ⟨another, kept⟩ := entry
            have apart : another ≠ key := by
              intro equal
              subst equal
              simp at again
            rw [List.map_cons, if_neg apart]
            rw [lookup_other (Ne.symm apart)] at again
            by_cases found : other = another
            · subst found
              simp
            · rw [lookup_other found, lookup_other found, ih again]
    · rw [if_neg here]
      rw [lookup_other (Ne.symm here)] at present
      by_cases same : other = key
      · subst same
        simp [here]
      · rw [lookup_other same, lookup_other same, ih present]

theorem lookup_appended (children : List (Text × Node)) (fresh : Node)
    (absent : children.lookup level = none) :
    (children ++ [(level, fresh)]).lookup other =
      if other = level then some fresh else children.lookup other := by
  rw [List.lookup_append]
  by_cases same : other = level
  · subst same
    simp [absent]
  · rw [lookup_other same]
    simp [same]

theorem lookup_filtered (children : List (Text × Node)) :
    (children.filter fun entry => entry.1 ≠ level).lookup other =
      if other = level then none else children.lookup other := by
  induction children with
  | nil => simp
  | cons entry rest ih =>
    obtain ⟨key, stored⟩ := entry
    by_cases dropped : key = level
    · subst dropped
      rw [List.filter_cons_of_neg (by simp), ih]
      by_cases same : other = key
      · rw [if_pos same, if_pos same]
      · rw [if_neg same, if_neg same, lookup_other same]
    · rw [List.filter_cons_of_pos (by simpa using dropped)]
      by_cases same : other = key
      · subst same
        simp [dropped]
      · rw [lookup_other same, lookup_other same, ih]

theorem hash_ne_plus : Codec.hash ≠ Codec.plus := by decide

theorem child_addChild (absent : node.child level = none) :
    (node.addChild level fresh).child other =
      if other = level then some fresh else node.child other := by
  unfold Node.child addChild at *
  by_cases plus : level = [Codec.plus]
  · subst plus
    by_cases same : other = [Codec.plus] <;> simp [same]
  · by_cases hash : level = [Codec.hash]
    · subst hash
      by_cases same : other = [Codec.hash]
      · simp [same, hash_ne_plus]
      · by_cases also : other = [Codec.plus] <;> simp [same, also, hash_ne_plus, hash_ne_plus.symm]
    · simp only [plus, hash, ↓reduceIte] at absent ⊢
      rw [lookup_appended _ _ absent]
      by_cases same : other = level
      · subst same
        simp [plus, hash]
      · simp [same]

theorem child_replaceChild (present : (node.child level).isSome) :
    (node.replaceChild level fresh).child other =
      if other = level then some fresh else node.child other := by
  unfold Node.child replaceChild at *
  by_cases plus : level = [Codec.plus]
  · subst plus
    by_cases same : other = [Codec.plus] <;> simp [same]
  · by_cases hash : level = [Codec.hash]
    · subst hash
      by_cases same : other = [Codec.hash]
      · simp [same, hash_ne_plus]
      · by_cases also : other = [Codec.plus] <;> simp [same, also, hash_ne_plus, hash_ne_plus.symm]
    · simp only [plus, hash, ↓reduceIte] at present ⊢
      rw [lookup_replaced _ _ present]
      by_cases same : other = level
      · subst same
        simp [plus, hash]
      · simp [same]

theorem child_removeChild :
    (node.removeChild level).child other = if other = level then none else node.child other := by
  unfold Node.child removeChild
  by_cases plus : level = [Codec.plus]
  · subst plus
    by_cases same : other = [Codec.plus] <;> simp [same]
  · by_cases hash : level = [Codec.hash]
    · subst hash
      by_cases same : other = [Codec.hash]
      · simp [same, hash_ne_plus]
      · by_cases also : other = [Codec.plus] <;> simp [same, also, hash_ne_plus, hash_ne_plus.symm]
    · simp only [plus, hash, ↓reduceIte]
      rw [lookup_filtered]
      by_cases same : other = level
      · subst same
        simp [plus, hash]
      · simp [same]

/-! Paths -/

/-- The node at the end of the levels. -/
def find : List Text → Node → Option Node
  | [], node => some node
  | level :: rest, node => (node.child level).bind (find rest)

def entriesAt (node : Node) (path : List Text) : List Nat := (node.find path).elim [] ending

theorem entriesAt_cons : node.entriesAt (level :: path) =
    (node.child level).elim [] fun child => child.entriesAt path := by
  unfold entriesAt
  rw [find]
  cases node.child level <;> rfl

theorem entriesAt_fresh (path : List Text) : entriesAt {} path = [] := by
  cases path with
  | nil => rfl
  | cons level rest =>
    have absent : ({} : Node).child level = none := by simp [Node.child]
    rw [entriesAt_cons, absent]
    rfl

/-- The flag is right, the wildcards have their own slots, and a node without entries has no
empty list. -/
structure Tidy (node : Node) : Prop where
  wild : node.wild = (node.plus.isSome || node.hash.isSome)
  literal : ∀ entry ∈ node.children, entry.1 ≠ [Codec.plus] ∧ entry.1 ≠ [Codec.hash]
  listed : node.entries ≠ some []

/-- Every node of the tree is tidy, and those below the root are not empty. -/
def Sound (node : Node) : Prop :=
  ∀ path below, node.find path = some below → below.Tidy ∧ (path ≠ [] → below.isEmpty = false)

theorem Sound.tidy (sound : node.Sound) : node.Tidy := (sound [] node rfl).1

theorem Sound.child {child : Node} (sound : node.Sound) (found : node.child level = some child) :
    child.Sound ∧ child.isEmpty = false := by
  have step {path : List Text} : node.find (level :: path) = child.find path := by
    rw [find, found]
    rfl
  refine ⟨fun path below reached => ?_, ?_⟩
  · obtain ⟨tidy, filled⟩ := sound (level :: path) below (step.trans reached)
    exact ⟨tidy, fun _ => filled (List.cons_ne_nil _ _)⟩
  · exact (sound [level] child step).2 (List.cons_ne_nil _ _)

theorem sound_of (tidy : node.Tidy)
    (children : ∀ level child, node.child level = some child → child.Sound ∧ child.isEmpty = false) :
    node.Sound := by
  intro path below reached
  cases path with
  | nil =>
    cases reached
    exact ⟨tidy, fun filled => absurd rfl filled⟩
  | cons level rest =>
    rw [find, Option.bind_eq_some_iff] at reached
    obtain ⟨child, found, reached⟩ := reached
    obtain ⟨sound, filled⟩ := children level child found
    cases rest with
    | nil =>
      cases reached
      exact ⟨sound.tidy, fun _ => filled⟩
    | cons next rest =>
      obtain ⟨tidy, filled⟩ := sound (next :: rest) below reached
      exact ⟨tidy, fun _ => filled (List.cons_ne_nil _ _)⟩

theorem sound_fresh : ({} : Node).Sound :=
  sound_of ⟨rfl, nofun, nofun⟩ fun level child found => by
    have absent : ({} : Node).child level = none := by simp [Node.child]
    rw [absent] at found
    cases found

/-- A node is empty when nothing ends in it and nothing hangs below it. -/
theorem isEmpty_iff (tidy : node.Tidy) :
    node.isEmpty = true ↔ node.entries = none ∧ ∀ level, node.child level = none := by
  simp only [isEmpty, tidy.wild, Bool.and_eq_true, Option.isNone_iff_eq_none, List.isEmpty_iff,
    Bool.not_eq_true', Bool.or_eq_false_iff, Option.isSome_eq_false_iff]
  constructor
  · intro ⟨⟨unlisted, literal⟩, plus, hash⟩
    refine ⟨unlisted, fun level => ?_⟩
    simp [child, plus, hash, literal]
  · intro ⟨unlisted, childless⟩
    have plus := childless [Codec.plus]
    have hash := childless [Codec.hash]
    simp only [Node.child, ↓reduceIte, List.cons.injEq, hash_ne_plus, false_and] at plus hash
    refine ⟨⟨unlisted, ?_⟩, plus, hash⟩
    cases literal : node.children with
    | nil => rfl
    | cons entry rest =>
      obtain ⟨notPlus, notHash⟩ := tidy.literal entry (by simp [literal])
      have first := childless entry.1
      simp [Node.child, notPlus, notHash, literal] at first

theorem filled_of_entries (listed : node.entries ≠ none) : node.isEmpty = false := by
  cases ending : node.entries with
  | none => exact absurd ending listed
  | some entries => simp [isEmpty, ending]

theorem filled_of_child (tidy : node.Tidy) (found : (node.child level).isSome) :
    node.isEmpty = false := by
  rw [Bool.eq_false_iff]
  intro empty
  rw [((isEmpty_iff tidy).mp empty).2 level] at found
  cases found

@[simp] theorem entries_addChild : (node.addChild level fresh).entries = node.entries := by
  unfold addChild
  split
  · rfl
  · split <;> rfl

@[simp] theorem entries_replaceChild : (node.replaceChild level fresh).entries = node.entries := by
  unfold replaceChild
  split
  · rfl
  · split <;> rfl

@[simp] theorem entries_removeChild : (node.removeChild level).entries = node.entries := by
  unfold removeChild
  split
  · rfl
  · split <;> rfl

theorem Tidy.addChild (tidy : node.Tidy) : (node.addChild level fresh).Tidy where
  wild := by
    unfold Node.addChild
    split
    · simp
    · split
      · simp
      · exact tidy.wild
  literal := by
    unfold Node.addChild
    split
    · exact tidy.literal
    · next notPlus =>
      split
      · exact tidy.literal
      · next notHash =>
        intro entry member
        rcases List.mem_append.mp member with before | last
        · exact tidy.literal entry before
        · rw [List.mem_singleton.mp last]
          exact ⟨notPlus, notHash⟩
  listed := by
    rw [entries_addChild]
    exact tidy.listed

theorem Tidy.replaceChild (tidy : node.Tidy) (present : (node.child level).isSome) :
    (node.replaceChild level fresh).Tidy where
  wild := by
    unfold Node.child at present
    unfold Node.replaceChild
    split
    · next plus =>
      rw [if_pos plus] at present
      simp [tidy.wild, present]
    · next notPlus =>
      rw [if_neg notPlus] at present
      split
      · next hash =>
        rw [if_pos hash] at present
        simp [tidy.wild, present]
      · exact tidy.wild
  literal := by
    unfold Node.replaceChild
    split
    · exact tidy.literal
    · next notPlus =>
      split
      · exact tidy.literal
      · next notHash =>
        intro entry member
        obtain ⟨before, inside, same⟩ := List.mem_map.mp member
        split at same
        · rw [← same]
          exact ⟨notPlus, notHash⟩
        · rw [← same]
          exact tidy.literal before inside
  listed := by
    rw [entries_replaceChild]
    exact tidy.listed

theorem Tidy.removeChild (tidy : node.Tidy) : (node.removeChild level).Tidy where
  wild := rfl
  literal := by
    unfold Node.removeChild
    split
    · exact tidy.literal
    · split
      · exact tidy.literal
      · exact fun entry member => tidy.literal entry (List.mem_of_mem_filter member)
  listed := by
    rw [entries_removeChild]
    exact tidy.listed

/-! Registering -/

theorem child_register {rest : List Text} :
    (register (level :: rest) sequence node).child other =
      if other = level then some (register rest sequence ((node.child level).getD {}))
      else node.child other := by
  rw [register]
  cases found : node.child level with
  | none => exact child_addChild found
  | some child => exact child_replaceChild (by simp [found])

theorem entries_register {rest : List Text} :
    (register (level :: rest) sequence node).entries = node.entries := by
  rw [register]
  cases node.child level with
  | none => exact entries_addChild
  | some child => exact entries_replaceChild

theorem entriesAt_register (path other : List Text) (sequence : Nat) (node : Node) :
    (register path sequence node).entriesAt other =
      if other = path then node.entriesAt path ++ [sequence] else node.entriesAt other := by
  induction path generalizing node other with
  | nil =>
    cases other with
    | nil => rfl
    | cons level rest => rfl
  | cons level rest ih =>
    cases other with
    | nil =>
      rw [if_neg (List.cons_ne_nil _ _).symm]
      exact congrArg (Option.getD · []) entries_register
    | cons name names =>
      simp only [entriesAt_cons, child_register, List.cons.injEq]
      by_cases same : name = level
      · subst same
        simp only [↓reduceIte, Option.elim_some, ih, true_and]
        cases node.child name with
        | none => simp [entriesAt_fresh]
        | some child => rfl
      · simp [same]

theorem sound_register {path : List Text} (sound : node.Sound) :
    (register path sequence node).Sound ∧ (register path sequence node).isEmpty = false := by
  induction path generalizing node with
  | nil =>
    refine ⟨sound_of ⟨sound.tidy.wild, sound.tidy.literal, by simp [register]⟩ ?_,
      filled_of_entries nofun⟩
    exact fun level child found => sound.child found
  | cons level rest ih =>
    have inner : ((node.child level).getD {}).Sound := by
      cases found : node.child level with
      | none => exact sound_fresh
      | some child => exact (sound.child found).1
    have tidy : (register (level :: rest) sequence node).Tidy := by
      rw [register]
      cases found : node.child level with
      | none => exact sound.tidy.addChild
      | some child => exact sound.tidy.replaceChild (by simp [found])
    refine ⟨sound_of tidy fun name child found => ?_, ?_⟩
    · rw [child_register] at found
      split at found
      · cases found
        exact ih inner
      · exact sound.child found
    · refine filled_of_child tidy
        (show ((register (level :: rest) sequence node).child level).isSome = true from ?_)
      rw [child_register, if_pos rfl]
      rfl

theorem sizeOf_lookup {children : List (Text × Node)} {child : Node}
    (found : children.lookup level = some child) : sizeOf child < sizeOf children := by
  induction children with
  | nil => cases found
  | cons entry rest ih =>
    obtain ⟨key, stored⟩ := entry
    simp only [List.cons.sizeOf_spec, Prod.mk.sizeOf_spec]
    by_cases here : level = key
    · subst here
      rw [List.lookup_cons_self] at found
      cases found
      omega
    · rw [lookup_other here] at found
      have smaller := ih found
      omega

theorem sizeOf_child {child : Node} (found : node.child level = some child) :
    sizeOf child < sizeOf node := by
  obtain ⟨children, plus, hash, wild, entries⟩ := node
  simp only [Node.mk.sizeOf_spec]
  unfold Node.child at found
  split at found
  · have held : plus = some child := found
    subst held
    simp only [Option.some.sizeOf_spec]
    omega
  · split at found
    · have held : hash = some child := found
      subst held
      simp only [Option.some.sizeOf_spec]
      omega
    · have smaller : sizeOf child < sizeOf children := sizeOf_lookup found
      omega

/-! Unregistering -/

theorem entriesAt_empty (tidy : node.Tidy) (empty : node.isEmpty = true) (path : List Text) :
    node.entriesAt path = [] := by
  obtain ⟨unlisted, childless⟩ := (isEmpty_iff tidy).mp empty
  cases path with
  | nil => simp [entriesAt, find, ending, unlisted]
  | cons level rest => rw [entriesAt_cons, childless level, Option.elim_none]

theorem entriesAt_nil : node.entriesAt [] = node.entries.getD [] := rfl

/-- Where the entry is, it is removed, and only it; the branch it kept alive goes. -/
theorem unregister_spec (path : List Text) (sound : node.Sound)
    (member : sequence ∈ node.entriesAt path) :
    ∃ after pruning, unregister path sequence node = some (after, pruning) ∧ after.Sound ∧
      (pruning = false → after.isEmpty = false) ∧
      ∀ other, after.entriesAt other =
        if other = path then (node.entriesAt path).erase sequence else node.entriesAt other := by
  induction path generalizing node with
  | nil =>
    rw [entriesAt_nil] at member
    cases listed : node.entries with
    | none => simp [listed] at member
    | some entries =>
      simp only [unregister, listed, Option.bind_eq_bind, Option.bind_some]
      refine ⟨_, true, rfl, sound_of ⟨sound.tidy.wild, sound.tidy.literal, ?_⟩
        (fun level child found => sound.child found), nofun, fun other => ?_⟩
      · by_cases left : entries.erase sequence = [] <;> simp [left]
      · cases other with
        | nil =>
          rw [if_pos rfl, entriesAt_nil, entriesAt_nil, listed]
          by_cases left : entries.erase sequence = [] <;> simp [left]
        | cons level rest => rfl
  | cons level rest ih =>
    rw [entriesAt_cons] at member
    cases found : node.child level with
    | none => simp [found] at member
    | some child =>
      rw [found, Option.elim_some] at member
      obtain ⟨inner, filled⟩ := sound.child found
      obtain ⟨after, pruning, changed, kept, alive, moved⟩ := ih inner member
      have present : (node.child level).isSome := by simp [found]
      simp only [unregister, found, changed, Option.bind_eq_bind, Option.bind_some]
      by_cases dead : (pruning && after.isEmpty) = true
      · rw [if_pos dead]
        refine ⟨_, true, rfl, sound_of sound.tidy.removeChild fun name below reached => ?_, nofun,
          fun other => ?_⟩
        · rw [child_removeChild] at reached
          split at reached
          · cases reached
          · exact sound.child reached
        · have nothing := entriesAt_empty kept.tidy (Bool.and_eq_true_iff.mp dead).2
          cases other with
          | nil => simp [entriesAt_nil]
          | cons name names =>
            simp only [entriesAt_cons, child_removeChild, List.cons.injEq, found, Option.elim_some]
            by_cases same : name = level
            · subst same
              have gone := moved names
              rw [nothing names] at gone
              simp [found, ← gone]
            · simp [same]
      · have living : after.isEmpty = false := by
          cases pruning with
          | false => exact alive rfl
          | true => simpa using dead
        rw [if_neg dead]
        have tidy : (node.replaceChild level after).Tidy := sound.tidy.replaceChild present
        refine ⟨_, false, rfl, sound_of tidy fun name below reached => ?_, fun _ => ?_,
          fun other => ?_⟩
        · rw [child_replaceChild present] at reached
          split at reached
          · cases reached
            exact ⟨kept, living⟩
          · exact sound.child reached
        · refine filled_of_child tidy
            (show ((node.replaceChild level after).child level).isSome = true from ?_)
          rw [child_replaceChild present, if_pos rfl]
          rfl
        · cases other with
          | nil => simp [entriesAt_nil]
          | cons name names =>
            simp only [entriesAt_cons, child_replaceChild present, List.cons.injEq, found,
              Option.elim_some]
            by_cases same : name = level
            · subst same
              simp [moved, found]
            · simp [same]

/-- A tree that is not empty carries an entry. -/
theorem exists_entry {node : Node} (sound : node.Sound) (filled : node.isEmpty = false) :
    ∃ path, node.entriesAt path ≠ [] := by
  by_cases listed : node.entries = none
  · have branch : ∃ level, (node.child level).isSome := by
      by_contra childless
      simp only [not_exists, Bool.not_eq_true, Option.isSome_eq_false_iff, Option.isNone_iff_eq_none]
        at childless
      rw [(isEmpty_iff sound.tidy).mpr ⟨listed, childless⟩] at filled
      cases filled
    obtain ⟨level, present⟩ := branch
    obtain ⟨child, found⟩ := Option.isSome_iff_exists.mp present
    obtain ⟨inner, alive⟩ := sound.child found
    obtain ⟨path, entry⟩ := exists_entry inner alive
    exact ⟨level :: path, by rwa [entriesAt_cons, found, Option.elim_some]⟩
  · refine ⟨[], ?_⟩
    rw [entriesAt_nil]
    cases ending : node.entries with
    | none => exact absurd ending listed
    | some entries =>
      intro none
      exact sound.tidy.listed (by rw [ending, show entries = [] from none])
termination_by sizeOf node
decreasing_by exact sizeOf_child found

/-! Lookup -/

/-- The entries whose levels match, branch by branch. -/
def reach : List Text → Node → List Nat
  | [], node => node.hashEntries ++ node.ending
  | level :: rest, node =>
    node.hashEntries ++ ((node.children.lookup level).elim [] (reach rest) ++
      node.plus.elim [] (reach rest))

theorem Tidy.hashEntries (tidy : node.Tidy) (tame : node.wild = false) : node.hashEntries = [] := by
  have none : node.hash = none := by
    have wild := tidy.wild
    rw [tame] at wild
    simpa using (Bool.or_eq_false_iff.mp wild.symm).2
  rw [Node.hashEntries, none]
  rfl

theorem Tidy.plus (tidy : node.Tidy) (tame : node.wild = false) : node.plus = none := by
  have wild := tidy.wild
  rw [tame] at wild
  simpa using (Bool.or_eq_false_iff.mp wild.symm).1

/-- What waits on the stack. -/
def waiting (pending : List (Node × List Text)) : List Nat :=
  pending.flatMap fun branch => reach branch.2 branch.1

theorem Sound.plus {plus : Node} (sound : node.Sound) (found : node.plus = some plus) : plus.Sound :=
  (sound.child (show node.child [Codec.plus] = some plus by rw [Node.child, if_pos rfl, found])).1

theorem Sound.literal {child : Node} (sound : node.Sound)
    (found : node.children.lookup level = some child) : child.Sound := by
  have member : (level, child) ∈ node.children := by
    obtain ⟨before, after, split, _⟩ := List.lookup_eq_some_iff.mp found
    simp [split]
  obtain ⟨notPlus, notHash⟩ := sound.tidy.literal _ member
  exact (sound.child (show node.child level = some child by
    rw [Node.child, if_neg notPlus, if_neg notHash, found])).1

/-- Descending collects the literal branch and leaves the rest on the stack. -/
theorem descend_spec (levels : List Text) (node : Option Node) (candidates : List Nat)
    (pending : List (Node × List Text)) (sound : ∀ reached, node = some reached → reached.Sound)
    (sounds : ∀ branch ∈ pending, branch.1.Sound) :
    (∀ branch ∈ (descend levels node candidates pending).2, branch.1.Sound) ∧
      ((descend levels node candidates pending).1 ++
        waiting (descend levels node candidates pending).2).Perm
        (candidates ++ (node.elim [] (reach levels) ++ waiting pending)) := by
  induction levels generalizing node candidates pending with
  | nil =>
    cases node with
    | none => exact ⟨sounds, by simp [descend]⟩
    | some node =>
      have tidy := (sound node rfl).tidy
      unfold descend
      split
      · exact ⟨sounds, by simp [reach]⟩
      · next tame =>
        have nothing := tidy.hashEntries (by simpa using tame)
        exact ⟨sounds, by simp [reach, nothing]⟩
  | cons level rest ih =>
    cases node with
    | none => exact ⟨sounds, by simp [descend]⟩
    | some node =>
      have here := sound node rfl
      have literal : ∀ reached, node.children.lookup level = some reached → reached.Sound :=
        fun reached found => here.literal found
      simp only [Option.elim_some, reach]
      unfold descend
      split
      · next wild =>
        split
        · next plus found =>
          have all : ∀ branch ∈ (plus, rest) :: pending, branch.1.Sound := by
            intro branch member
            rcases List.mem_cons.mp member with same | later
            · rw [same]
              exact here.plus found
            · exact sounds branch later
          obtain ⟨kept, same⟩ := ih (node.children.lookup level) (candidates ++ node.hashEntries)
            ((plus, rest) :: pending) literal all
          refine ⟨kept, same.trans ?_⟩
          simp [waiting, found]
        · next found =>
          obtain ⟨kept, same⟩ := ih (node.children.lookup level) (candidates ++ node.hashEntries)
            pending literal sounds
          refine ⟨kept, same.trans ?_⟩
          simp [found]
      · next tame =>
        have tame : node.wild = false := by simpa using tame
        obtain ⟨kept, same⟩ := ih (node.children.lookup level) candidates pending literal sounds
        refine ⟨kept, same.trans ?_⟩
        simp [here.tidy.hashEntries tame, here.tidy.plus tame]

theorem walk_spec (pending : List (Node × List Text)) (candidates : List Nat)
    (sounds : ∀ branch ∈ pending, branch.1.Sound) :
    (walk pending candidates).Perm (candidates ++ waiting pending) := by
  induction pending, candidates using walk.induct with
  | case1 candidates => simp [walk, waiting]
  | case2 candidates node levels pending step ih =>
    rw [walk]
    obtain ⟨kept, same⟩ := descend_spec levels (some node) candidates pending
      (fun reached found => by
        cases found
        exact sounds _ (List.mem_cons_self ..))
      (fun branch member => sounds branch (List.mem_cons_of_mem _ member))
    exact (ih kept).trans (same.trans (by simp [waiting]))

theorem matchLevels_nil (path : List Text) :
    matchLevels path [] = true ↔ path = [] ∨ path = [[Codec.hash]] := by
  cases path with
  | nil => simp [matchLevels]
  | cons level rest =>
    rw [matchLevels]
    by_cases hash : level = [Codec.hash] <;> simp [hash]

theorem matchLevels_cons (path : List Text) (name : Text) (names : List Text) :
    matchLevels path (name :: names) = true ↔ path = [[Codec.hash]] ∨
      ∃ rest, matchLevels rest names = true ∧
        (path = [Codec.plus] :: rest ∨ (path = name :: rest ∧ name ≠ [Codec.hash])) := by
  cases path with
  | nil => simp [matchLevels]
  | cons level rest =>
    rw [matchLevels]
    by_cases hash : level = [Codec.hash]
    · subst hash
      simp only [↓reduceIte, List.isEmpty_iff, List.cons.injEq, true_and, hash_ne_plus, false_and,
        false_or]
      constructor
      · exact .inl
      · intro either
        rcases either with last | ⟨_, _, ⟨same, _⟩, notHash⟩
        · exact last
        · exact absurd same.symm notHash
    · simp only [hash, ↓reduceIte, Bool.and_eq_true, Bool.or_eq_true, beq_iff_eq, List.cons.injEq,
        false_and, false_or]
      constructor
      · intro ⟨either, matching⟩
        refine ⟨rest, matching, ?_⟩
        rcases either with plus | same
        · exact .inl ⟨plus, rfl⟩
        · exact .inr ⟨⟨same, rfl⟩, same ▸ hash⟩
      · intro ⟨other, matching, either⟩
        rcases either with ⟨plus, same⟩ | ⟨⟨same, also⟩, _⟩
        · exact ⟨.inl plus, same ▸ matching⟩
        · exact ⟨.inr same, also ▸ matching⟩

theorem entriesAt_plus (path : List Text) :
    node.entriesAt ([Codec.plus] :: path) = node.plus.elim [] fun plus => plus.entriesAt path := by
  rw [entriesAt_cons, Node.child, if_pos rfl]

theorem entriesAt_hash : node.entriesAt [[Codec.hash]] = node.hashEntries := by
  rw [entriesAt_cons, Node.child, if_neg (by decide), if_pos rfl, hashEntries]
  cases node.hash <;> rfl

theorem entriesAt_literal {child : Node} (sound : node.Sound)
    (found : node.children.lookup level = some child) (path : List Text) :
    node.entriesAt (level :: path) = child.entriesAt path ∧ level ≠ [Codec.plus] ∧
      level ≠ [Codec.hash] := by
  have member : (level, child) ∈ node.children := by
    obtain ⟨before, after, split, _⟩ := List.lookup_eq_some_iff.mp found
    simp [split]
  obtain ⟨notPlus, notHash⟩ := sound.tidy.literal _ member
  refine ⟨?_, notPlus, notHash⟩
  rw [entriesAt_cons, Node.child, if_neg notPlus, if_neg notHash, found, Option.elim_some]

theorem entriesAt_unnamed (absent : node.children.lookup level = none)
    (notPlus : level ≠ [Codec.plus]) (notHash : level ≠ [Codec.hash]) (path : List Text) :
    node.entriesAt (level :: path) = [] := by
  rw [entriesAt_cons, Node.child, if_neg notPlus, if_neg notHash, absent, Option.elim_none]

/-- The lookup reaches exactly the entries whose levels match. -/
theorem mem_reach (levels : List Text) (sound : node.Sound) :
    sequence ∈ reach levels node ↔
      ∃ path, matchLevels path levels = true ∧ sequence ∈ node.entriesAt path := by
  induction levels generalizing node with
  | nil =>
    simp only [reach, List.mem_append, matchLevels_nil]
    constructor
    · intro either
      rcases either with hash | here
      · exact ⟨_, .inr rfl, entriesAt_hash ▸ hash⟩
      · exact ⟨[], .inl rfl, here⟩
    · intro ⟨path, either, member⟩
      rcases either with rfl | rfl
      · exact .inr member
      · exact .inl (entriesAt_hash ▸ member)
  | cons name names ih =>
    simp only [reach, List.mem_append, matchLevels_cons]
    constructor
    · intro either
      rcases either with hash | literal | plus
      · exact ⟨_, .inl rfl, entriesAt_hash ▸ hash⟩
      · cases found : node.children.lookup name with
        | none => simp [found] at literal
        | some child =>
          rw [found, Option.elim_some] at literal
          obtain ⟨rest, matching, member⟩ := (ih (sound.literal found)).mp literal
          obtain ⟨same, _, notHash⟩ := entriesAt_literal sound found rest
          exact ⟨name :: rest, .inr ⟨rest, matching, .inr ⟨rfl, notHash⟩⟩, same ▸ member⟩
      · cases found : node.plus with
        | none => simp [found] at plus
        | some child =>
          rw [found, Option.elim_some] at plus
          obtain ⟨rest, matching, member⟩ := (ih (sound.plus found)).mp plus
          refine ⟨[Codec.plus] :: rest, .inr ⟨rest, matching, .inl rfl⟩, ?_⟩
          rwa [entriesAt_plus, found, Option.elim_some]
    · intro ⟨path, either, member⟩
      have through {rest : List Text} (matching : matchLevels rest names = true)
          (member : sequence ∈ node.entriesAt ([Codec.plus] :: rest)) :
          sequence ∈ node.plus.elim [] (reach names) := by
        rw [entriesAt_plus] at member
        cases found : node.plus with
        | none => simp [found] at member
        | some child =>
          rw [found, Option.elim_some] at member
          exact (ih (sound.plus found)).mpr ⟨rest, matching, member⟩
      rcases either with rfl | ⟨rest, matching, rfl | ⟨rfl, notHash⟩⟩
      · exact .inl (entriesAt_hash ▸ member)
      · exact .inr (.inr (through matching member))
      · by_cases plus : name = [Codec.plus]
        · exact .inr (.inr (through matching (plus ▸ member)))
        · cases found : node.children.lookup name with
          | none => simp [entriesAt_unnamed found plus notHash] at member
          | some child =>
            rw [(entriesAt_literal sound found rest).1] at member
            exact .inr (.inl ((ih (sound.literal found)).mpr ⟨rest, matching, member⟩))

/-- No entry stands twice in the tree. -/
structure Separate (node : Node) : Prop where
  nodup : ∀ path, (node.entriesAt path).Nodup
  apart : ∀ {first second sequence}, sequence ∈ node.entriesAt first →
    sequence ∈ node.entriesAt second → first = second

theorem Separate.under {child : Node} (separate : node.Separate) {level : Text}
    (same : ∀ path, node.entriesAt (level :: path) = child.entriesAt path) : child.Separate where
  nodup path := same path ▸ separate.nodup (level :: path)
  apart := by
    intro first second sequence one two
    have equal := separate.apart (same first ▸ one) (same second ▸ two)
    exact (List.cons.inj equal).2

/-- The lookup reaches no entry twice. -/
theorem nodup_reach (levels : List Text) (sound : node.Sound) (separate : node.Separate) :
    (reach levels node).Nodup := by
  induction levels generalizing node with
  | nil =>
    refine List.Nodup.append (entriesAt_hash ▸ separate.nodup _) (separate.nodup []) ?_
    intro sequence hash here
    have equal := separate.apart (entriesAt_hash ▸ hash) (show sequence ∈ node.entriesAt [] from here)
    cases equal
  | cons name names ih =>
    have literal : ∀ sequence ∈ (node.children.lookup name).elim [] (reach names),
        ∃ rest, sequence ∈ node.entriesAt (name :: rest) ∧ name ≠ [Codec.plus] ∧
          name ≠ [Codec.hash] := by
      intro sequence member
      cases found : node.children.lookup name with
      | none => simp [found] at member
      | some child =>
        rw [found, Option.elim_some] at member
        obtain ⟨rest, _, inside⟩ := (mem_reach names (sound.literal found)).mp member
        obtain ⟨same, plain⟩ := entriesAt_literal sound found rest
        exact ⟨rest, same ▸ inside, plain⟩
    have plus : ∀ sequence ∈ node.plus.elim [] (reach names),
        ∃ rest, sequence ∈ node.entriesAt ([Codec.plus] :: rest) := by
      intro sequence member
      cases found : node.plus with
      | none => simp [found] at member
      | some child =>
        rw [found, Option.elim_some] at member
        obtain ⟨rest, _, inside⟩ := (mem_reach names (sound.plus found)).mp member
        exact ⟨rest, by rwa [entriesAt_plus, found, Option.elim_some]⟩
    have hash : ∀ sequence ∈ node.hashEntries, sequence ∈ node.entriesAt [[Codec.hash]] :=
      fun sequence member => entriesAt_hash ▸ member
    refine List.Nodup.append (entriesAt_hash ▸ separate.nodup _)
      (List.Nodup.append ?_ ?_ ?_) ?_
    · cases found : node.children.lookup name with
      | none => exact List.nodup_nil
      | some child =>
        exact ih (sound.literal found)
          (separate.under fun path => (entriesAt_literal sound found path).1)
    · cases found : node.plus with
      | none => exact List.nodup_nil
      | some child =>
        exact ih (sound.plus found) (separate.under fun path => by
          rw [entriesAt_plus, found, Option.elim_some])
    · intro sequence first second
      obtain ⟨rest, one, notPlus, _⟩ := literal sequence first
      obtain ⟨other, two⟩ := plus sequence second
      exact notPlus (List.cons.inj (separate.apart one two)).1
    · intro sequence first second
      rcases List.mem_append.mp second with later | later
      · obtain ⟨rest, two, _, notHash⟩ := literal sequence later
        exact notHash (List.cons.inj (separate.apart (hash sequence first) two)).1.symm
      · obtain ⟨rest, two⟩ := plus sequence later
        have equal := (List.cons.inj (separate.apart (hash sequence first) two)).1
        exact hash_ne_plus (List.cons.inj equal).1

end Node

end Mqttium.Dispatch
