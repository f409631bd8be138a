import Mathlib.Data.List.Sort
import Mqttium.Dispatch.Tree

/-! The matcher against the list of registered filters: after any updates a lookup
yields the values of the filters that match, in the order of their insertion. -/

namespace Mqttium.Dispatch

open Codec Library

/-! The matching rules -/

/-- The levels a filter matches by; a shared one matches as its inner filter. -/
def filterLevels (topicFilter : Text) : List Text :=
  if sharePrefix.isPrefixOf topicFilter then
    splitLevels (((behindSlash topicFilter).bind behindSlash).getD [])
  else splitLevels topicFilter

/-- A wildcard at the first level does not match a topic that begins with `$`. -/
def filterMatches (topicFilter topic : Text) : Bool :=
  let levels := filterLevels topicFilter
  !(topic.head? == some dollar && (levels.head? == some [plus] || levels.head? == some [hash])) &&
    matchLevels levels (splitLevels topic)

theorem splitLevels_flatMap (text : Text) :
    (splitLevels text).flatMap (slash :: ·) = slash :: text := by
  induction text with
  | nil => rfl
  | cons point rest ih =>
    rw [splitLevels]
    by_cases same : point = slash
    · subst same
      rw [if_pos rfl, List.flatMap_cons, ih]
      rfl
    · rw [if_neg same]
      cases levels : splitLevels rest with
      | nil => simp [levels] at ih
      | cons level more =>
        rw [levels, List.flatMap_cons] at ih
        simpa using ih

theorem splitLevels_injective {first second : Text} (same : splitLevels first = splitLevels second) :
    first = second := by
  have joined := splitLevels_flatMap first
  rw [same, splitLevels_flatMap second] at joined
  exact (List.cons.inj joined).2.symm

/-- Levels without a wildcard match themselves only. -/
theorem matchLevels_plain {levels names : List Text}
    (plain : ∀ level ∈ levels, level ≠ [plus] ∧ level ≠ [hash]) :
    matchLevels levels names = true ↔ levels = names := by
  induction levels generalizing names with
  | nil => cases names <;> simp [matchLevels]
  | cons level rest ih =>
    obtain ⟨notPlus, notHash⟩ := plain level (List.mem_cons_self ..)
    cases names with
    | nil => simp [matchLevels, notHash]
    | cons name names =>
      simp [matchLevels, notHash, notPlus,
        ih fun later member => plain later (List.mem_cons_of_mem _ member)]

theorem compile_exact {topicFilter : Text} (exact : compile topicFilter = some none) (topic : Text) :
    filterMatches topicFilter topic = true ↔ topicFilter = topic := by
  unfold compile at exact
  split at exact
  · obtain ⟨inner, _, nothing⟩ := Option.bind_eq_some_iff.mp exact
    cases nothing
  · next unshared =>
    simp only [Option.some.injEq, ite_eq_right_iff, reduceCtorEq, imp_false, Bool.not_eq_true,
      List.any_eq_false, Bool.or_eq_true, decide_eq_true_eq, not_or] at exact
    have levels : filterLevels topicFilter = splitLevels topicFilter := if_neg unshared
    have first : ¬ ((splitLevels topicFilter).head? = some [plus] ∨
        (splitLevels topicFilter).head? = some [hash]) := by
      intro either
      rcases either with same | same
      · exact (exact _ (List.mem_of_mem_head? same)).1 rfl
      · exact (exact _ (List.mem_of_mem_head? same)).2 rfl
    simp only [filterMatches, levels, Bool.and_eq_true, matchLevels_plain exact, Bool.not_eq_true',
      Bool.and_eq_false_iff, Bool.or_eq_false_iff, beq_eq_false_iff_ne]
    constructor
    · exact fun both => splitLevels_injective both.2
    · intro same
      exact ⟨.inr (not_or.mp first), same ▸ rfl⟩

theorem compile_levels {topicFilter : Text} {levels : List Text}
    (compiled : compile topicFilter = some (some levels)) : filterLevels topicFilter = levels := by
  unfold compile at compiled
  unfold filterLevels
  split at compiled
  · next shared =>
    rw [if_pos shared]
    obtain ⟨inner, found, compiled⟩ := Option.bind_eq_some_iff.mp compiled
    cases compiled
    rw [found, Option.getD_some]
  · next unshared =>
    rw [if_neg unshared]
    simp only [Option.some.injEq] at compiled
    split at compiled
    · exact Option.some.inj compiled
    · cases compiled

theorem behindSlash_shared {rest : Text} : behindSlash (sharePrefix ++ rest) = some rest := by
  have spelled : sharePrefix = [36, 115, 104, 97, 114, 101, 47] := by decide
  rw [spelled]
  rfl

theorem behindSlash_of_mem {text : Text} (slashed : slash ∈ text) :
    ∃ rest, behindSlash text = some rest := by
  induction text with
  | nil => cases slashed
  | cons point text ih =>
    unfold behindSlash at ih ⊢
    rw [List.dropWhile_cons]
    by_cases same : point = slash
    · exact ⟨text, by simp [same]⟩
    · rw [if_pos (by simpa using same)]
      exact ih ((List.mem_cons.mp slashed).resolve_left (Ne.symm same))

/-- A filter that may be subscribed to can be compiled. -/
theorem compile_valid {topicFilter : Text} (valid : validateSubscribeFilter topicFilter = .ok ()) :
    ∃ levels, compile topicFilter = some levels := by
  unfold compile
  split
  · next shared =>
    obtain ⟨rest, split⟩ := List.isPrefixOf_iff_prefix.mp shared
    subst split
    unfold validateSubscribeFilter at valid
    split at valid
    · cases valid
    · obtain ⟨_, _, valid⟩ := except_bind_ok.mp valid
      simp only [List.drop_left] at valid
      rw [behindSlash_shared, Option.bind_some]
      split at valid
      · cases valid
      · next slashed =>
        obtain ⟨inner, found⟩ := behindSlash_of_mem (not_not.mp slashed)
        exact ⟨_, by rw [found]; rfl⟩
  · exact ⟨_, rfl⟩

end Mqttium.Dispatch
