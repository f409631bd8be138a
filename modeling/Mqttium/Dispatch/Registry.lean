import Mqttium.Dispatch.Matching

/-! The matcher against the plain list of registered filters: after any updates a
lookup yields the values of the filters that match, in the order of insertion. -/

namespace Mqttium.Dispatch

open Codec Library

variable {Value : Type}

namespace TopicMatcher

/-- The entries the tree holds under a path. -/
def placed (matcher : TopicMatcher Value) (path : List Text) : List Nat :=
  matcher.root.elim [] fun root => root.entriesAt path

/-- What every matcher keeps: each filter names a cell of its own, in the order of
insertion; the tree holds the wildcard filters under their levels, and nothing else. -/
structure Sound (matcher : TopicMatcher Value) : Prop where
  cells : ∀ topicFilter sequence, (topicFilter, sequence) ∈ matcher.entries.entries →
    ∃ entry, matcher.cells.get? sequence = some entry ∧ compile topicFilter = some entry.levels
  ordered : matcher.entries.values.Pairwise (· < ·)
  bound : ∀ sequence ∈ matcher.entries.values, sequence < matcher.nextSequence
  indexed : ∀ path, matcher.placed path =
    (matcher.entries.entries.filter fun entry => compile entry.1 = some (some path)).map Prod.snd
  tree : ∀ root, matcher.root = some root → root.Sound ∧ root.isEmpty = false

/-- The registered filters and their values are those of the plain list. -/
def Refines (matcher : TopicMatcher Value) (registered : Dict Text Value) : Prop :=
  matcher.entries.mapValues matcher.valueOf = registered.mapValues some

theorem sound_empty : Sound ({} : TopicMatcher Value) where
  cells _ _ member := absurd member List.not_mem_nil
  ordered := .nil
  bound _ member := absurd member List.not_mem_nil
  indexed _ := rfl
  tree _ root := nomatch root

variable {matcher : TopicMatcher Value} {registered : Dict Text Value}

/-- Filters that name the same cell are the same. -/
theorem Sound.apart (sound : matcher.Sound) {first second : Text} {sequence : Nat}
    (one : (first, sequence) ∈ matcher.entries.entries)
    (two : (second, sequence) ∈ matcher.entries.entries) : first = second := by
  have distinct : (matcher.entries.entries.map Prod.snd).Nodup :=
    sound.ordered.imp fun before => Nat.ne_of_lt before
  exact congrArg Prod.fst (List.inj_on_of_nodup_map distinct one two rfl)

theorem mem_placed (sound : matcher.Sound) {path : List Text} {sequence : Nat} :
    sequence ∈ matcher.placed path ↔ ∃ topicFilter,
      (topicFilter, sequence) ∈ matcher.entries.entries ∧
        compile topicFilter = some (some path) := by
  simp [sound.indexed path]

/-- The tree has no root exactly when no registered filter belongs into it. -/
theorem Sound.root_none (sound : matcher.Sound) :
    matcher.root = none ↔
      ∀ topicFilter ∈ matcher.entries.keys, compile topicFilter = some none := by
  constructor
  · intro bare topicFilter member
    obtain ⟨sequence, present⟩ := (matcher.entries.mem_keys topicFilter).mp member
    obtain ⟨entry, _, compiled⟩ := sound.cells topicFilter sequence present
    cases levels : entry.levels with
    | none => rw [compiled, levels]
    | some path =>
      have held := (mem_placed sound).mpr ⟨topicFilter, present, levels ▸ compiled⟩
      rw [placed, bare] at held
      cases held
  · intro exact
    cases rooted : matcher.root with
    | none => rfl
    | some root =>
      obtain ⟨inner, filled⟩ := sound.tree root rooted
      obtain ⟨path, entries⟩ := Node.exists_entry inner filled
      obtain ⟨sequence, held⟩ := List.exists_mem_of_ne_nil _ entries
      have known : sequence ∈ matcher.placed path := by rwa [placed, rooted]
      obtain ⟨topicFilter, present, compiled⟩ := (mem_placed sound).mp known
      rw [exact topicFilter ((matcher.entries.mem_keys topicFilter).mpr ⟨_, present⟩)] at compiled
      cases compiled

/-! Lookup -/

/-- The cells of the filters that match, in the order of insertion. -/
def matching (matcher : TopicMatcher Value) (topic : Text) : List Nat :=
  (matcher.entries.entries.filter fun entry => filterMatches entry.1 topic).map Prod.snd

theorem Sound.matching_ordered (sound : matcher.Sound) (topic : Text) :
    (matcher.matching topic).Pairwise (· < ·) :=
  sound.ordered.sublist (List.filter_sublist.map _)

theorem Sound.separate (sound : matcher.Sound) {root : Node} (rooted : matcher.root = some root) :
    root.Separate := by
  have placed path : root.entriesAt path = matcher.placed path := by
    rw [TopicMatcher.placed, rooted, Option.elim_some]
  refine ⟨fun path => ?_, fun {first second sequence} one two => ?_⟩
  · rw [placed, sound.indexed]
    exact (sound.ordered.imp fun before => Nat.ne_of_lt before).sublist
      (List.filter_sublist.map _)
  · rw [placed] at one two
    obtain ⟨here, present, compiled⟩ := (mem_placed sound).mp one
    obtain ⟨there, also, again⟩ := (mem_placed sound).mp two
    rw [sound.apart present also, again] at compiled
    exact (Option.some.inj (Option.some.inj compiled)).symm

/-- The exact table holds the filters without a wildcard. -/
theorem Sound.mem_exactEntry (sound : matcher.Sound) {topic : Text} {sequence : Nat} :
    sequence ∈ matcher.exactEntry topic ↔ ∃ topicFilter,
      (topicFilter, sequence) ∈ matcher.entries.entries ∧ compile topicFilter = some none ∧
        filterMatches topicFilter topic = true := by
  unfold exactEntry
  constructor
  · intro member
    cases found : matcher.entries.get? topic with
    | none => simp [found] at member
    | some stored =>
      rw [found] at member
      simp only [List.mem_ite_nil_right, List.mem_singleton] at member
      obtain ⟨unlevelled, rfl⟩ := member
      have present := Dict.get?_eq_some_iff.mp found
      obtain ⟨entry, held, compiled⟩ := sound.cells topic _ present
      rw [held, Option.bind_some, Option.isNone_iff_eq_none] at unlevelled
      rw [unlevelled] at compiled
      exact ⟨topic, present, compiled, (compile_exact compiled topic).mpr rfl⟩
  · rintro ⟨topicFilter, present, compiled, matched⟩
    cases (compile_exact compiled topic).mp matched
    obtain ⟨entry, held, again⟩ := sound.cells topic _ present
    rw [compiled, Option.some.injEq] at again
    rw [Dict.get?_eq_some_iff.mpr present]
    simp [held, ← again]

/-- What the tree's lookup reaches: below a topic that begins with `$`, its first level
literally. -/
def branches (root : Node) (topic : Text) : List Nat :=
  if topic.head? = some dollar then
    (root.children.lookup ((splitLevels topic).headD [])).elim [] (Node.reach (splitLevels topic).tail)
  else Node.reach (splitLevels topic) root

theorem collect_perm {root : Node} (sound : root.Sound) (topic : Text) (candidates : List Nat) :
    (collect root topic candidates).Perm (candidates ++ branches root topic) := by
  have through (levels : List Text) (start : Option Node)
      (inner : ∀ reached, start = some reached → reached.Sound) :
      (Node.walk (Node.descend levels start candidates []).2
        (Node.descend levels start candidates []).1).Perm
        (candidates ++ start.elim [] (Node.reach levels)) := by
    obtain ⟨sounds, found⟩ := Node.descend_spec levels start candidates [] inner nofun
    refine (Node.walk_spec _ _ sounds).trans (found.trans ?_)
    simp [Node.waiting]
  unfold collect branches
  split
  · exact through _ _ fun child reached => sound.literal reached
  · exact through _ (some root) fun same reached => Option.some.inj reached ▸ sound

theorem mem_branches {root : Node} (sound : root.Sound) (topic : Text) {sequence : Nat} :
    sequence ∈ branches root topic ↔ ∃ path, sequence ∈ root.entriesAt path ∧
      matchLevels path (splitLevels topic) = true ∧
      (topic.head? = some dollar → path.head? ≠ some [plus] ∧ path.head? ≠ some [hash]) := by
  unfold branches
  split
  · next reserved =>
    obtain ⟨name, names, levels⟩ := List.exists_cons_of_ne_nil (splitLevels_ne_nil topic)
    rw [levels, List.headD_cons, List.tail_cons]
    constructor
    · intro member
      cases found : root.children.lookup name with
      | none => simp [found] at member
      | some child =>
        rw [found, Option.elim_some] at member
        obtain ⟨rest, matched, inside⟩ := (Node.mem_reach names (sound.literal found)).mp member
        obtain ⟨same, notPlus, notHash⟩ := Node.entriesAt_literal sound found rest
        exact ⟨name :: rest, same ▸ inside,
          (Node.matchLevels_cons _ _ _).mpr (.inr ⟨rest, matched, .inr ⟨rfl, notHash⟩⟩),
          fun _ => ⟨by simpa using notPlus, by simpa using notHash⟩⟩
    · rintro ⟨path, inside, matched, tame⟩
      obtain ⟨notPlus, notHash⟩ := tame reserved
      rcases (Node.matchLevels_cons _ _ _).mp matched with rfl | ⟨rest, further, rfl | ⟨rfl, _⟩⟩
      · exact absurd rfl notHash
      · exact absurd rfl notPlus
      · rw [List.head?_cons, ne_eq, Option.some.injEq] at notPlus notHash
        cases found : root.children.lookup name with
        | none => simp [Node.entriesAt_unnamed found notPlus notHash] at inside
        | some child =>
          rw [(Node.entriesAt_literal sound found rest).1] at inside
          exact (Node.mem_reach names (sound.literal found)).mpr ⟨rest, further, inside⟩
  · next free =>
    rw [Node.mem_reach _ sound]
    constructor
    · rintro ⟨path, matched, inside⟩
      exact ⟨path, inside, matched, fun reserved => absurd reserved free⟩
    · rintro ⟨path, inside, matched, _⟩
      exact ⟨path, matched, inside⟩

theorem nodup_branches {root : Node} (sound : root.Sound) (separate : root.Separate) (topic : Text) :
    (branches root topic).Nodup := by
  unfold branches
  split
  · cases found : root.children.lookup ((splitLevels topic).headD []) with
    | none => exact List.nodup_nil
    | some child =>
      exact Node.nodup_reach _ (sound.literal found)
        (separate.under fun path => (Node.entriesAt_literal sound found path).1)
  · exact Node.nodup_reach _ sound separate

/-- The tree reaches the wildcard filters that match. -/
theorem Sound.mem_branches (sound : matcher.Sound) {root : Node} (rooted : matcher.root = some root)
    {topic : Text} {sequence : Nat} :
    sequence ∈ branches root topic ↔ ∃ topicFilter,
      (topicFilter, sequence) ∈ matcher.entries.entries ∧ compile topicFilter ≠ some none ∧
        filterMatches topicFilter topic = true := by
  have placed path : root.entriesAt path = matcher.placed path := by
    rw [TopicMatcher.placed, rooted, Option.elim_some]
  have agree {topicFilter : Text} {path : List Text}
      (compiled : compile topicFilter = some (some path)) :
      filterMatches topicFilter topic = true ↔ matchLevels path (splitLevels topic) = true ∧
        (topic.head? = some dollar → path.head? ≠ some [plus] ∧ path.head? ≠ some [hash]) := by
    simp only [filterMatches, compile_levels compiled, Bool.and_eq_true, Bool.not_eq_true',
      Bool.and_eq_false_iff, Bool.or_eq_false_iff, beq_eq_false_iff_ne]
    tauto
  rw [TopicMatcher.mem_branches (sound.tree root rooted).1]
  constructor
  · rintro ⟨path, inside, matched⟩
    rw [placed] at inside
    obtain ⟨topicFilter, present, compiled⟩ := (mem_placed sound).mp inside
    exact ⟨topicFilter, present, by simp [compiled], (agree compiled).mpr matched⟩
  · rintro ⟨topicFilter, present, wild, matched⟩
    obtain ⟨entry, _, compiled⟩ := sound.cells topicFilter sequence present
    cases levels : entry.levels with
    | none => exact absurd (levels ▸ compiled) wild
    | some path =>
      rw [levels] at compiled
      refine ⟨path, ?_, (agree compiled).mp matched⟩
      rw [placed]
      exact (mem_placed sound).mpr ⟨topicFilter, present, compiled⟩

theorem nodup_exactEntry (topic : Text) : (matcher.exactEntry topic).Nodup := by
  unfold exactEntry
  split
  · exact List.nodup_nil
  · split
    · exact List.nodup_singleton _
    · exact List.nodup_nil

theorem mem_matching {topic : Text} {sequence : Nat} :
    sequence ∈ matcher.matching topic ↔ ∃ topicFilter,
      (topicFilter, sequence) ∈ matcher.entries.entries ∧ filterMatches topicFilter topic = true := by
  simp [matching]

/-- The candidates are the filters that match, in some order. -/
theorem Sound.candidates (sound : matcher.Sound) {root : Node} (rooted : matcher.root = some root)
    (topic : Text) :
    (collect root topic (matcher.exactEntry topic)).Perm (matcher.matching topic) := by
  refine (collect_perm (sound.tree root rooted).1 topic _).trans ?_
  rw [List.perm_ext_iff_of_nodup]
  · intro sequence
    rw [List.mem_append, sound.mem_exactEntry, sound.mem_branches rooted, mem_matching]
    constructor
    · intro either
      rcases either with ⟨topicFilter, present, _, matched⟩ | ⟨topicFilter, present, _, matched⟩
      · exact ⟨topicFilter, present, matched⟩
      · exact ⟨topicFilter, present, matched⟩
    · intro ⟨topicFilter, present, matched⟩
      by_cases exact : compile topicFilter = some none
      · exact .inl ⟨topicFilter, present, exact, matched⟩
      · exact .inr ⟨topicFilter, present, exact, matched⟩
  · refine (nodup_exactEntry topic).append
      (nodup_branches (sound.tree root rooted).1 (sound.separate rooted) topic) ?_
    intro sequence one two
    obtain ⟨first, present, exact, _⟩ := sound.mem_exactEntry.mp one
    obtain ⟨second, also, wild, _⟩ := (sound.mem_branches rooted).mp two
    exact wild (sound.apart present also ▸ exact)
  · exact (sound.matching_ordered topic).imp fun before => Nat.ne_of_lt before

/-- Sorting by sequence number restores the order of insertion. -/
theorem sort_perm {candidates ordered : List Nat} (same : candidates.Perm ordered)
    (sorted : ordered.Pairwise (· < ·)) : candidates.mergeSort = ordered := by
  have upward : candidates.mergeSort.Pairwise (· ≤ ·) :=
    List.pairwise_mergeSort' (· ≤ ·) candidates
  exact ((List.mergeSort_perm candidates _).trans same).eq_of_pairwise' upward
    (sorted.imp fun before => Nat.le_of_lt before)

theorem Sound.iterMatch (sound : matcher.Sound) (topic : Text) :
    matcher.iterMatch topic = (matcher.matching topic).filterMap matcher.valueOf := by
  unfold TopicMatcher.iterMatch
  cases rooted : matcher.root with
  | none =>
    have same : (matcher.exactEntry topic).Perm (matcher.matching topic) := by
      rw [List.perm_ext_iff_of_nodup (nodup_exactEntry topic)
        ((sound.matching_ordered topic).imp fun before => Nat.ne_of_lt before)]
      intro sequence
      rw [sound.mem_exactEntry, mem_matching]
      constructor
      · exact fun ⟨topicFilter, present, _, matched⟩ => ⟨topicFilter, present, matched⟩
      · intro ⟨topicFilter, present, matched⟩
        exact ⟨topicFilter, present, sound.root_none.mp rooted topicFilter
          ((matcher.entries.mem_keys topicFilter).mpr ⟨_, present⟩), matched⟩
    have short : (matcher.exactEntry topic).mergeSort = matcher.exactEntry topic := by
      unfold exactEntry
      split
      · simp
      · split <;> simp
    rw [← sort_perm same (sound.matching_ordered topic), short]
  | some root =>
    have same := sound.candidates rooted topic
    have sorted := sort_perm same (sound.matching_ordered topic)
    simp only
    split
    · rw [sorted]
    · next short =>
      congr 1
      cases found : collect root topic (matcher.exactEntry topic) with
      | nil => rw [← sorted, found, List.mergeSort_nil]
      | cons first rest =>
        cases rest with
        | nil => rw [← sorted, found, List.mergeSort_singleton]
        | cons second rest => simp [found] at short

/-- The values of the filters that match are those of the plain list. -/
theorem Refines.matching (refines : matcher.Refines registered) (topic : Text) :
    (matcher.matching topic).filterMap matcher.valueOf =
      (registered.entries.filter fun entry => filterMatches entry.1 topic).map Prod.snd := by
  have same := congrArg Dict.entries refines
  simp only [Dict.mapValues] at same
  have picked := congrArg (fun entries : List (Text × Option Value) =>
    (entries.filter fun entry => filterMatches entry.1 topic).filterMap Prod.snd) same
  simpa [TopicMatcher.matching, List.filter_map, List.filterMap_map, Function.comp_def,
    List.filterMap_eq_map] using picked

theorem Refines.items (refines : matcher.Refines registered) :
    matcher.items = registered.entries := by
  have same := congrArg Dict.entries refines
  simp only [Dict.mapValues] at same
  have picked := congrArg (fun entries : List (Text × Option Value) =>
    entries.filterMap fun entry => entry.2.map fun value => (entry.1, value)) same
  simpa [TopicMatcher.items, List.filterMap_map, Function.comp_def] using picked

theorem Refines.getItem (refines : matcher.Refines registered) (topicFilter : Text) :
    (matcher.entries.get? topicFilter).map matcher.valueOf =
      (registered.get? topicFilter).map some := by
  rw [← Dict.get?_mapValues, refines, Dict.get?_mapValues]

/-! Updates -/

theorem mapValues_congr {dict : Dict Text Nat} {change fresh : Nat → Option Value}
    (same : ∀ value ∈ dict.values, change value = fresh value) :
    dict.mapValues change = dict.mapValues fresh := by
  apply Dict.ext_entries
  apply List.map_congr_left
  intro entry member
  rw [same entry.2 (List.mem_map_of_mem member)]

/-- A new value for a filter that is registered. -/
theorem Sound.replace (sound : matcher.Sound) (refines : matcher.Refines registered)
    {topicFilter : Text} {sequence : Nat} (found : matcher.entries.get? topicFilter = some sequence)
    (value : Value) (next : TopicMatcher Value)
    (replaced : next = { matcher with
      cells := matcher.cells.modify sequence fun entry => { entry with value } }) :
    next.Sound ∧ next.Refines (registered.insert topicFilter value) := by
  have present := Dict.get?_eq_some_iff.mp found
  subst replaced
  refine ⟨⟨fun other stored member => ?_, sound.ordered, sound.bound, sound.indexed, sound.tree⟩, ?_⟩
  · obtain ⟨entry, held, compiled⟩ := sound.cells other stored member
    rw [Dict.get?_modify]
    by_cases same : stored = sequence
    · subst same
      exact ⟨{ entry with value }, by rw [if_pos rfl, held, Option.map_some], compiled⟩
    · exact ⟨entry, by rwa [if_neg same], compiled⟩
  · obtain ⟨entry, held, _⟩ := sound.cells topicFilter sequence present
    rw [Refines, Dict.mapValues_insert, ← refines]
    apply Dict.ext_entries
    have listed : topicFilter ∈ (matcher.entries.mapValues matcher.valueOf).keys := by
      rw [Dict.keys_mapValues]
      exact Dict.mem_keys_of_get? found
    rw [Dict.entries_insert_of_mem _ listed]
    simp only [Dict.mapValues, List.map_map]
    apply List.map_congr_left
    intro other member
    simp only [Function.comp_apply, valueOf, Dict.get?_modify]
    by_cases same : other.1 = topicFilter
    · have cell : other.2 = sequence :=
        Option.some.inj ((Dict.get?_eq_some_iff.mpr member).symm.trans (same ▸ found))
      rw [if_pos cell, held, if_pos same, same]
      rfl
    · have cell : other.2 ≠ sequence := by
        intro equal
        exact same (sound.apart (equal ▸ member) present)
      rw [if_neg cell, if_neg same]

/-- A filter that is not registered yet goes to the end. -/
theorem Sound.append (sound : matcher.Sound) (refines : matcher.Refines registered)
    {topicFilter : Text} (absent : matcher.entries.get? topicFilter = none)
    {levels : Option (List Text)} (compiled : compile topicFilter = some levels)
    (value : Value) (next : TopicMatcher Value)
    (appended : next = {
      cells := matcher.cells.insert matcher.nextSequence { levels, value }
      entries := matcher.entries.insert topicFilter matcher.nextSequence
      root := match levels with
        | none => matcher.root
        | some levels => some ((matcher.root.getD {}).register levels matcher.nextSequence)
      nextSequence := matcher.nextSequence + 1 }) :
    next.Sound ∧ next.Refines (registered.insert topicFilter value) := by
  have entries : next.entries.entries =
      matcher.entries.entries ++ [(topicFilter, matcher.nextSequence)] := by
    rw [appended]
    exact Dict.entries_insert_of_not_mem _ (Dict.get?_eq_none_iff.mp absent)
  have values : next.entries.values = matcher.entries.values ++ [matcher.nextSequence] := by
    rw [Dict.values, entries, List.map_append]
    rfl
  have fresh : ∀ sequence ∈ matcher.entries.values, sequence ≠ matcher.nextSequence :=
    fun sequence member => Nat.ne_of_lt (sound.bound sequence member)
  have older : ∀ sequence ∈ matcher.entries.values,
      next.cells.get? sequence = matcher.cells.get? sequence := by
    intro sequence member
    rw [appended]
    exact Dict.get?_insert_of_ne _ (fresh sequence member)
  have newest : next.cells.get? matcher.nextSequence = some { levels, value } := by
    rw [appended]
    exact Dict.get?_insert_self ..
  refine ⟨⟨?_, ?_, ?_, ?_, ?_⟩, ?_⟩
  · intro other stored member
    rw [entries, List.mem_append, List.mem_singleton] at member
    rcases member with kept | new
    · obtain ⟨entry, held, compiled⟩ := sound.cells other stored kept
      exact ⟨entry, (older stored (List.mem_map_of_mem kept)).trans held, compiled⟩
    · cases new
      exact ⟨_, newest, compiled⟩
  · rw [values, List.pairwise_append]
    refine ⟨sound.ordered, List.pairwise_singleton _ _, fun first member last single => ?_⟩
    rw [List.mem_singleton.mp single]
    exact sound.bound first member
  · intro sequence member
    rw [values, List.mem_append, List.mem_singleton] at member
    rw [appended]
    rcases member with kept | rfl
    · exact Nat.lt_succ_of_lt (sound.bound sequence kept)
    · exact Nat.lt_succ_self _
  · intro path
    rw [entries, List.filter_append, List.map_append, ← sound.indexed path]
    cases levels with
    | none => simp [placed, appended, compiled]
    | some levels =>
      have bare (path : List Text) : (matcher.root.getD {}).entriesAt path = matcher.placed path := by
        unfold placed
        cases matcher.root with
        | none => exact Node.entriesAt_fresh path
        | some root => rfl
      have step : next.placed path =
          ((matcher.root.getD {}).register levels matcher.nextSequence).entriesAt path := by
        rw [appended]
        rfl
      rw [step, Node.entriesAt_register, bare, bare]
      by_cases same : path = levels
      · simp [same, compiled]
      · simp [same, compiled, Ne.symm same]
  · intro root rooted
    rw [appended] at rooted
    cases levels with
    | none => exact sound.tree root rooted
    | some levels =>
      rw [← Option.some.inj rooted]
      refine Node.sound_register ?_
      cases before : matcher.root with
      | none => exact Node.sound_fresh
      | some root => exact (sound.tree root before).1
  · have mapped : matcher.entries.mapValues next.valueOf =
        matcher.entries.mapValues matcher.valueOf :=
      mapValues_congr fun sequence member => by rw [valueOf, older sequence member, valueOf]
    have last : next.valueOf matcher.nextSequence = some value := by
      rw [valueOf, newest, Option.map_some]
    have grown : next.entries = matcher.entries.insert topicFilter matcher.nextSequence := by
      rw [appended]
    rw [Refines, grown, Dict.mapValues_insert, mapped, last, refines, Dict.mapValues_insert]

theorem setItem_spec (sound : matcher.Sound) (refines : matcher.Refines registered)
    {topicFilter : Text} {levels : Option (List Text)} (compiled : compile topicFilter = some levels)
    (value : Value) :
    ∃ next, matcher.setItem topicFilter value = .ok next ∧ next.Sound ∧
      next.Refines (registered.insert topicFilter value) := by
  unfold setItem
  cases found : matcher.entries.get? topicFilter with
  | some sequence => exact ⟨_, rfl, sound.replace refines found value _ rfl⟩
  | none =>
    rw [compiled]
    exact ⟨_, rfl, sound.append refines found compiled value _ (by cases levels <;> rfl)⟩

/-- The cells that stay when a filter is dropped from the dictionary. -/
theorem Sound.dropped (sound : matcher.Sound) {topicFilter : Text} {sequence : Nat}
    (present : (topicFilter, sequence) ∈ matcher.entries.entries) (path : List Text) :
    ((matcher.entries.erase topicFilter).entries.filter fun entry =>
        compile entry.1 = some (some path)).map Prod.snd =
      (matcher.placed path).erase sequence := by
  have distinct : (matcher.placed path).Nodup := by
    rw [sound.indexed]
    exact (sound.ordered.imp fun before => Nat.ne_of_lt before).sublist (List.filter_sublist.map _)
  rw [distinct.erase_eq_filter, sound.indexed, List.filter_map, List.filter_filter, Dict.erase,
    List.filter_filter]
  congr 1
  apply List.filter_congr
  intro entry member
  have same : entry.1 = topicFilter ↔ entry.2 = sequence := by
    constructor
    · intro equal
      rw [← equal] at present
      exact Option.some.inj ((Dict.get?_eq_some_iff.mpr member).symm.trans
        (Dict.get?_eq_some_iff.mpr present))
    · intro equal
      exact sound.apart (equal ▸ member) present
  simp [same, bne, beq_eq_decide, Bool.and_comm]

theorem delItem_spec (sound : matcher.Sound) (refines : matcher.Refines registered)
    {topicFilter : Text} {sequence : Nat} (found : matcher.entries.get? topicFilter = some sequence) :
    ∃ next, matcher.delItem topicFilter = .ok next ∧ next.Sound ∧
      next.Refines (registered.erase topicFilter) := by
  have present := Dict.get?_eq_some_iff.mp found
  obtain ⟨entry, held, compiled⟩ := sound.cells topicFilter sequence present
  have smaller : (matcher.entries.erase topicFilter).values.Sublist matcher.entries.values :=
    List.filter_sublist.map _
  have keep (root : Option Node) (next : TopicMatcher Value)
      (dropped : next = { matcher with entries := matcher.entries.erase topicFilter, root })
      (indexed : ∀ path, next.placed path = (matcher.placed path).erase sequence)
      (tree : ∀ kept, root = some kept → kept.Sound ∧ kept.isEmpty = false) :
      next.Sound ∧ next.Refines (registered.erase topicFilter) := by
    subst dropped
    refine ⟨⟨fun other stored member => ?_, sound.ordered.sublist smaller,
      fun other member => sound.bound other (smaller.subset member), fun path => ?_, tree⟩, ?_⟩
    · exact sound.cells other stored (List.mem_filter.mp member).1
    · rw [indexed, sound.dropped present]
    · rw [Refines, Dict.mapValues_erase, Dict.mapValues_erase, ← refines]
      rfl
  have absent {path : List Text} (elsewhere : entry.levels ≠ some path) :
      sequence ∉ matcher.placed path := by
    intro member
    obtain ⟨other, also, again⟩ := (mem_placed sound).mp member
    rw [sound.apart also present, compiled, Option.some.injEq] at again
    exact elsewhere again
  unfold delItem
  rw [found]
  cases levels : entry.levels with
  | none =>
    simp only [held, Option.bind_some, levels]
    refine ⟨_, rfl, keep matcher.root _ rfl (fun path => ?_) sound.tree⟩
    exact (List.erase_of_not_mem (absent (by simp [levels]))).symm
  | some path =>
    simp only [held, Option.bind_some, levels]
    have member : sequence ∈ matcher.placed path :=
      (mem_placed sound).mpr ⟨topicFilter, present, levels ▸ compiled⟩
    cases rooted : matcher.root with
    | none => simp [placed, rooted] at member
    | some root =>
      have at_path (other : List Text) : root.entriesAt other = matcher.placed other := by
        rw [placed, rooted, Option.elim_some]
      obtain ⟨after, pruning, removed, inner, _, entries⟩ :=
        Node.unregister_spec path (sound.tree root rooted).1 (at_path path ▸ member)
      rw [Option.bind_some, removed]
      have indexed (other : List Text) :
          after.entriesAt other = (matcher.placed other).erase sequence := by
        rw [entries, at_path, at_path]
        by_cases same : other = path
        · rw [if_pos same, same]
        · rw [if_neg same, List.erase_of_not_mem (absent (by simp [levels, Ne.symm same]))]
      refine ⟨_, rfl, keep _ _ rfl (fun other => ?_) fun kept rooted => ?_⟩
      · rw [← indexed]
        unfold placed
        simp only
        by_cases empty : after.isEmpty = true
        · rw [if_pos empty, Node.entriesAt_empty inner.tidy empty]
          rfl
        · rw [if_neg empty]
          rfl
      · by_cases empty : after.isEmpty = true
        · simp [empty] at rooted
        · rw [if_neg empty] at rooted
          cases rooted
          exact ⟨inner, by simpa using empty⟩

theorem delItem_absent {topicFilter : Text} (absent : matcher.entries.get? topicFilter = none) :
    matcher.delItem topicFilter = .error (.key topicFilter) := by
  rw [delItem, absent]

/-- One change of the registered filters. -/
inductive Update (Value : Type) where
  | set (topicFilter : Text) (value : Value)
  | delete (topicFilter : Text)

def Update.topicFilter : Update Value → Text
  | .set topicFilter _ => topicFilter
  | .delete topicFilter => topicFilter

def perform (matcher : TopicMatcher Value) : Update Value → Except MatcherError (TopicMatcher Value)
  | .set topicFilter value => matcher.setItem topicFilter value
  | .delete topicFilter => matcher.delItem topicFilter

/-- An update that raises leaves the matcher as it was. -/
def after (matcher : TopicMatcher Value) (update : Update Value) : TopicMatcher Value :=
  match matcher.perform update with
  | .ok next => next
  | .error _ => matcher

/-- The plain list: a new filter goes to the end, a replaced one keeps its place. -/
def apply (registered : Dict Text Value) : Update Value → Dict Text Value
  | .set topicFilter value => registered.insert topicFilter value
  | .delete topicFilter => registered.erase topicFilter

theorem Refines.registered_iff (refines : matcher.Refines registered) (topicFilter : Text) :
    matcher.entries.get? topicFilter = none ↔ registered.get? topicFilter = none := by
  rw [← Option.map_eq_none_iff (f := matcher.valueOf), refines.getItem, Option.map_eq_none_iff]

theorem after_spec (sound : matcher.Sound) (refines : matcher.Refines registered)
    (update : Update Value) (valid : validateSubscribeFilter update.topicFilter = .ok ()) :
    (matcher.after update).Sound ∧ (matcher.after update).Refines (apply registered update) := by
  cases update with
  | set topicFilter value =>
    obtain ⟨levels, compiled⟩ := compile_valid (show validateSubscribeFilter topicFilter = .ok () from valid)
    obtain ⟨next, done, kept⟩ := setItem_spec sound refines compiled value
    rw [after, perform, done]
    exact kept
  | delete topicFilter =>
    rw [after, perform]
    cases found : matcher.entries.get? topicFilter with
    | some sequence =>
      obtain ⟨next, done, kept⟩ := delItem_spec sound refines found
      rw [done]
      exact kept
    | none =>
      have missing := (refines.registered_iff topicFilter).mp found
      rw [delItem_absent found, apply, Dict.erase_of_not_mem (Dict.get?_eq_none_iff.mp missing)]
      exact ⟨sound, refines⟩

theorem run_spec (sound : matcher.Sound) (refines : matcher.Refines registered)
    (updates : List (Update Value))
    (valid : ∀ update ∈ updates, validateSubscribeFilter update.topicFilter = .ok ()) :
    (updates.foldl after matcher).Sound ∧
      (updates.foldl after matcher).Refines (updates.foldl apply registered) := by
  induction updates generalizing matcher registered with
  | nil => exact ⟨sound, refines⟩
  | cons update rest ih =>
    obtain ⟨kept, still⟩ := after_spec sound refines update (valid update (List.mem_cons_self ..))
    exact ih kept still fun later member => valid later (List.mem_cons_of_mem _ member)

theorem Sound.root_none_iff (sound : matcher.Sound) (refines : matcher.Refines registered) :
    matcher.root = none ↔ ∀ entry ∈ registered.entries, compile entry.1 = some none := by
  have keys : matcher.entries.keys = registered.keys := by
    have same := congrArg Dict.keys refines
    rwa [Dict.keys_mapValues, Dict.keys_mapValues] at same
  rw [sound.root_none, keys, Dict.keys]
  exact List.forall_mem_map

/-- No leaf is dead: filters that are registered end in it. -/
theorem Sound.leaf (sound : matcher.Sound) {root node : Node} (rooted : matcher.root = some root)
    {path : List Text} (reached : root.find path = some node) (leaf : node.isLeaf = true) :
    ∃ first rest, node.entries = some (first :: rest) ∧ ∀ sequence ∈ first :: rest,
      ∃ topicFilter, (topicFilter, sequence) ∈ matcher.entries.entries ∧
        compile topicFilter = some (some path) := by
  obtain ⟨inner, filled⟩ := sound.tree root rooted
  obtain ⟨tidy, below⟩ := inner path node reached
  have alive : node.isEmpty = false := by
    cases path with
    | nil =>
      cases reached
      exact filled
    | cons level rest => exact below nofun
  simp only [Node.isLeaf, Bool.and_eq_true, Option.isNone_iff_eq_none] at leaf
  have tame : node.wild = false := by simp [tidy.wild, leaf]
  cases listed : node.entries with
  | none => simp [Node.isEmpty, listed, leaf, tame] at alive
  | some entries =>
    cases entries with
    | nil => exact absurd listed tidy.listed
    | cons first rest =>
      refine ⟨first, rest, rfl, fun sequence member => (mem_placed sound).mp ?_⟩
      rw [placed, rooted, Option.elim_some, Node.entriesAt, reached, Option.elim_some, Node.ending,
        listed]
      exact member

end TopicMatcher

open TopicMatcher in
/-- After any changes of valid filters the matcher is the plain list of those registered:
a lookup yields each value whose filter matches once, in the order of insertion; a
deletion removes its filter only; every leaf carries entries, and there is no root
exactly when no filter belongs into the tree. -/
theorem matcher_refines (updates : List (Update Value))
    (valid : ∀ update ∈ updates, validateSubscribeFilter update.topicFilter = .ok ()) :
    let matcher : TopicMatcher Value := updates.foldl after {}
    let registered : Dict Text Value := updates.foldl apply .empty
    matcher.items = registered.entries ∧
    (∀ topic, matcher.iterMatch topic =
      (registered.entries.filter fun entry => filterMatches entry.1 topic).map Prod.snd) ∧
    (∀ topicFilter, registered.get? topicFilter = none →
      matcher.delItem topicFilter = .error (.key topicFilter)) ∧
    (∀ topicFilter, registered.get? topicFilter ≠ none → ∃ next,
      matcher.delItem topicFilter = .ok next ∧
        next.items = registered.entries.filter fun entry => entry.1 ≠ topicFilter) ∧
    (∀ root path node, matcher.root = some root → root.find path = some node →
      node.isLeaf = true → ∃ first rest, node.entries = some (first :: rest)) ∧
    (matcher.root = none ↔ ∀ entry ∈ registered.entries, compile entry.1 = some none) := by
  have empty : ({} : TopicMatcher Value).Refines .empty := rfl
  obtain ⟨sound, refines⟩ := run_spec sound_empty empty updates valid
  refine ⟨refines.items, fun topic => ?_, fun topicFilter absent => ?_,
    fun topicFilter present => ?_, fun root path node rooted reached leaf => ?_,
    sound.root_none_iff refines⟩
  · rw [sound.iterMatch, refines.matching]
  · exact delItem_absent ((refines.registered_iff topicFilter).mpr absent)
  · cases found : (updates.foldl after ({} : TopicMatcher Value)).entries.get? topicFilter with
    | none => exact absurd ((refines.registered_iff topicFilter).mp found) present
    | some sequence =>
      obtain ⟨next, deleted, _, still⟩ := delItem_spec sound refines found
      exact ⟨next, deleted, still.items⟩
  · obtain ⟨first, rest, listed, _⟩ := sound.leaf rooted reached leaf
    exact ⟨first, rest, listed⟩

/-- A shared filter, a wildcard filter and an exact one; the exact one is replaced, the
wildcard one deleted. -/
def sharedUpdates : List (TopicMatcher.Update Nat) :=
  [.set (Text.ofString "$share/a/x/+") 1, .set (Text.ofString "x/#") 2, .set (Text.ofString "x/1") 3,
    .set (Text.ofString "x/1") 4, .delete (Text.ofString "x/#")]

theorem matcher_refines_shared :
    (sharedUpdates.foldl TopicMatcher.after {}).iterMatch (Text.ofString "x/1") = [1, 4] := by
  have refined := (matcher_refines sharedUpdates (by decide +kernel)).2.1 (Text.ofString "x/1")
  rw [refined]
  decide +kernel

end Mqttium.Dispatch
