import Mqttium.Topics

/-! The topic filters of MQTT, and the validator of a subscription against them. -/

namespace Mqttium.Dispatch

open Codec Library

/-- The text ends before a level starts. -/
def EndsLevel (before : Text) : Prop := before = [] ∨ ∃ front, before = front ++ [slash]

/-- The text starts behind a level. -/
def StartsBehind (after : Text) : Prop := after = [] ∨ ∃ back, after = slash :: back

/-- `+` stands only as a whole level, `#` only as the whole last one. -/
structure LegalLevels (text : Text) : Prop where
  plus : ∀ before after, text = before ++ plus :: after → EndsLevel before ∧ StartsBehind after
  hash : ∀ before after, text = before ++ Codec.hash :: after → EndsLevel before ∧ after = []

/-- `$share/`, a share name, a slash and a filter. -/
structure LegalShare (filter name inner : Text) : Prop where
  spelled : filter = sharePrefix ++ name ++ slash :: inner
  named : name ≠ []
  plain : slash ∉ name ∧ plus ∉ name ∧ Codec.hash ∉ name
  filtered : inner ≠ []
  levels : LegalLevels inner

structure LegalFilter (filter : Text) : Prop where
  nonempty : filter ≠ []
  encodable : ∃ data, filter.encodeUtf8 = some data ∧ data.length ≤ 65535
  plain : (0 : CodePoint) ∉ filter
  levels : LegalLevels filter
  shared : sharePrefix <+: filter → ∃ name inner, LegalShare filter name inner

/-! Levels one at a time -/

private theorem endsLevel_level {before : Text} (whole : slash ∉ before) :
    EndsLevel before ↔ before = [] := by
  constructor
  · rintro (empty | ⟨front, rfl⟩)
    · exact empty
    · simp at whole
  · exact Or.inl

private theorem startsBehind_level {after : Text} (whole : slash ∉ after) :
    StartsBehind after ↔ after = [] := by
  constructor
  · rintro (empty | ⟨back, rfl⟩)
    · exact empty
    · simp at whole
  · exact Or.inl

private theorem alone_iff {level : Text} {point : CodePoint} :
    (∀ before after, level = before ++ point :: after → before = [] ∧ after = []) ↔
      (point ∈ level → level = [point]) := by
  constructor
  · intro alone member
    obtain ⟨before, after, spelled⟩ := List.append_of_mem member
    obtain ⟨rfl, rfl⟩ := alone before after spelled
    exact spelled
  · rintro single before after rfl
    have sole := single (by simp)
    cases before with
    | nil => simpa using sole
    | cons first more => simp at sole

theorem legalLevels_level {level : Text} (whole : slash ∉ level) : LegalLevels level ↔
    (Codec.hash ∈ level → level = [Codec.hash]) ∧ (plus ∈ level → level = [plus]) := by
  have apart {before after : Text} {point : CodePoint} (spelled : level = before ++ point :: after) :
      slash ∉ before ∧ slash ∉ after := by
    subst spelled
    simp only [List.mem_append, List.mem_cons, not_or] at whole
    exact ⟨whole.1, whole.2.2⟩
  rw [← alone_iff, ← alone_iff]
  constructor
  · intro legal
    constructor
    · intro before after spelled
      obtain ⟨first, last⟩ := legal.hash before after spelled
      exact ⟨(endsLevel_level (apart spelled).1).mp first, last⟩
    · intro before after spelled
      obtain ⟨first, last⟩ := legal.plus before after spelled
      exact ⟨(endsLevel_level (apart spelled).1).mp first,
        (startsBehind_level (apart spelled).2).mp last⟩
  · rintro ⟨hashes, pluses⟩
    constructor
    · intro before after spelled
      obtain ⟨first, last⟩ := pluses before after spelled
      exact ⟨Or.inl first, Or.inl last⟩
    · intro before after spelled
      obtain ⟨first, last⟩ := hashes before after spelled
      exact ⟨Or.inl first, last⟩

/-- Where a wildcard stands in a level followed by more text. -/
private theorem join_split {level rest before after : Text} {point : CodePoint}
    (spelled : level ++ slash :: rest = before ++ point :: after) (other : point ≠ slash) :
    (∃ more, level = before ++ point :: more ∧ after = more ++ slash :: rest) ∨
      ∃ more, before = level ++ slash :: more ∧ rest = more ++ point :: after := by
  rcases List.append_eq_append_iff.mp spelled with
    ⟨extra, beyond, behind⟩ | ⟨extra, inside, behind⟩
  · cases extra with
    | nil =>
      rw [List.nil_append, List.cons.injEq] at behind
      exact absurd behind.1.symm other
    | cons first more =>
      rw [List.cons_append, List.cons.injEq] at behind
      obtain ⟨rfl, behind⟩ := behind
      exact Or.inr ⟨more, beyond, behind⟩
  · cases extra with
    | nil =>
      rw [List.nil_append, List.cons.injEq] at behind
      exact absurd behind.1 other
    | cons first more =>
      rw [List.cons_append, List.cons.injEq] at behind
      obtain ⟨rfl, behind⟩ := behind
      exact Or.inl ⟨more, inside, behind⟩

private theorem endsLevel_join {level more : Text} :
    EndsLevel (level ++ slash :: more) ↔ EndsLevel more := by
  constructor
  · rintro (empty | ⟨front, spelled⟩)
    · simp at empty
    · rcases List.eq_nil_or_concat more with rfl | ⟨front', last, rfl⟩
      · exact Or.inl rfl
      · have same : (level ++ slash :: front') ++ [last] = front ++ [slash] := by simpa using spelled
        obtain ⟨_, rfl⟩ := List.append_singleton_inj.mp same
        exact Or.inr ⟨front', List.concat_eq_append⟩
  · rintro (rfl | ⟨front, rfl⟩)
    · exact Or.inr ⟨level, rfl⟩
    · exact Or.inr ⟨level ++ slash :: front, by simp⟩

theorem legalLevels_join {level : Text} (whole : slash ∉ level) (rest : Text) :
    LegalLevels (level ++ slash :: rest) ↔
      Codec.hash ∉ level ∧ (plus ∈ level → level = [plus]) ∧ LegalLevels rest := by
  constructor
  · intro legal
    refine ⟨?_, ?_, ?_, ?_⟩
    · intro member
      obtain ⟨before, after, rfl⟩ := List.append_of_mem member
      have last := (legal.hash before (after ++ slash :: rest) (by simp)).2
      simp at last
    · refine alone_iff.mp fun before after spelled => ?_
      subst spelled
      simp only [List.mem_append, List.mem_cons, not_or] at whole
      obtain ⟨first, behind⟩ := legal.plus before (after ++ slash :: rest) (by simp)
      refine ⟨(endsLevel_level whole.1).mp first, ?_⟩
      cases after with
      | nil => rfl
      | cons point more =>
        rcases behind with empty | ⟨back, spelled⟩
        · simp at empty
        · rw [List.cons_append, List.cons.injEq] at spelled
          simp [spelled.1] at whole
    · intro before after spelled
      have joined := legal.plus (level ++ slash :: before) after (by simp [spelled])
      exact ⟨endsLevel_join.mp joined.1, joined.2⟩
    · intro before after spelled
      have joined := legal.hash (level ++ slash :: before) after (by simp [spelled])
      exact ⟨endsLevel_join.mp joined.1, joined.2⟩
  · rintro ⟨unhashed, single, legal⟩
    constructor
    · intro before after spelled
      rcases join_split spelled (by decide) with ⟨more, inside, rfl⟩ | ⟨more, rfl, beyond⟩
      · obtain ⟨rfl, rfl⟩ := alone_iff.mpr single before more inside
        exact ⟨Or.inl rfl, Or.inr ⟨rest, rfl⟩⟩
      · obtain ⟨first, behind⟩ := legal.plus more after beyond
        exact ⟨endsLevel_join.mpr first, behind⟩
    · intro before after spelled
      rcases join_split spelled (by decide) with ⟨more, rfl, rfl⟩ | ⟨more, rfl, beyond⟩
      · simp at unhashed
      · obtain ⟨first, last⟩ := legal.hash more after beyond
        exact ⟨endsLevel_join.mpr first, last⟩

/-- The loop over the levels accepts the legal ones. -/
theorem validateFilterLevels_ok (text : Text) :
    validateFilterLevels text = .ok () ↔ LegalLevels text := by
  induction size : text.length using Nat.strongRecOn generalizing text with
  | ind size ih =>
    subst size
    by_cases whole : slash ∈ text
    · obtain ⟨level, rest, rfl, first⟩ := List.eq_append_cons_of_mem whole
      rw [validateFilterLevels_join first, legalLevels_join first,
        ih rest.length (by simp; omega) rest rfl]
    · rw [validateFilterLevels_level whole, legalLevels_level whole]

/-! The validator -/

private theorem hasNull_iff {text : Text} : hasNull text = false ↔ (0 : CodePoint) ∉ text := by
  simp only [hasNull, List.any_eq_false, beq_iff_eq]
  constructor
  · intro plain member
    exact plain 0 member rfl
  · rintro plain point member null
    have zero : point = 0 := Fin.ext null
    exact plain (zero ▸ member)

private theorem hasWildcard_iff {text : Text} :
    hasWildcard text = false ↔ plus ∉ text ∧ Codec.hash ∉ text := by
  simp only [hasWildcard, List.any_eq_false, Bool.or_eq_true, beq_iff_eq, not_or]
  constructor
  · intro plain
    exact ⟨fun member => (plain _ member).1 rfl, fun member => (plain _ member).2 rfl⟩
  · rintro ⟨unplussed, unhashed⟩ point member
    constructor
    · rintro rfl
      exact unplussed member
    · rintro rfl
      exact unhashed member

/-- The share prefix is a level without wildcards, and so is the name behind it. -/
theorem LegalShare.levels_legal {filter name inner : Text} (share : LegalShare filter name inner) :
    LegalLevels filter := by
  have first : sharePrefix = Text.ofString "$share" ++ [slash] := by decide
  have spelled : filter = Text.ofString "$share" ++ slash :: (name ++ slash :: inner) := by
    rw [share.spelled, first]
    simp
  have single {point : CodePoint} {level : Text} (absent : point ∉ level) :
      point ∈ level → level = [point] := fun member => absurd member absent
  rw [spelled, legalLevels_join (by decide), legalLevels_join share.plain.1]
  exact ⟨by decide, single (by decide), share.plain.2.2, single share.plain.2.1, share.levels⟩

/-- The validator accepts exactly the topic filters of MQTT. -/
theorem validateSubscribeFilter_grammar (filter : Text) :
    validateSubscribeFilter filter = .ok () ↔ LegalFilter filter := by
  rw [validateSubscribeFilter_ok]
  simp only [encodeUtf8_ok_iff, hasNull_iff, hasWildcard_iff, validateFilterLevels_ok]
  constructor
  · rintro ⟨nonempty, ⟨data, encoded, plain, fits⟩, levels⟩
    by_cases shared : sharePrefix <+: filter
    · rw [if_pos shared] at levels
      obtain ⟨name, inner, spelled, whole, named, unwild, filtered, legal⟩ := levels
      have share : LegalShare filter name inner := ⟨spelled, named, ⟨whole, unwild⟩, filtered, legal⟩
      exact ⟨nonempty, ⟨data, encoded, fits⟩, plain, share.levels_legal, fun _ => ⟨name, inner, share⟩⟩
    · rw [if_neg shared] at levels
      exact ⟨nonempty, ⟨data, encoded, fits⟩, plain, levels, fun is => absurd is shared⟩
  · intro legal
    obtain ⟨data, encoded, fits⟩ := legal.encodable
    refine ⟨legal.nonempty, ⟨data, encoded, legal.plain, fits⟩, ?_⟩
    split
    · next shared =>
      obtain ⟨name, inner, share⟩ := legal.shared shared
      exact ⟨name, inner, share.spelled, share.plain.1, share.named, share.plain.2, share.filtered,
        share.levels⟩
    · exact legal.levels

example : validateSubscribeFilter (Text.ofString "$share/g//+/#") = .ok () := by decide

end Mqttium.Dispatch
