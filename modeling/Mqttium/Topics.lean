import Mqttium.Codec.Properties

/-! Topic and filter validation. -/

namespace Mqttium

open Codec Library

/-- Reword an MQTT string failure as a topic failure. -/
private def asTopicFailure {α : Type} : Except Failure α → Except Failure α
  | .ok value => .ok value
  | .error failure =>
    if failure.isProtocolError then .error (.protocol s!"Invalid MQTT topic: {failure.text}")
    else .error failure

private def checkUtf8MqttTopic (topic : Text) : Except Failure Nat :=
  asTopicFailure (validateUtf8 topic)

/-- Validate a PUBLISH topic name and return its MQTT byte length. `allowEmpty` is
for alias reuse. -/
def validatePublishTopic (topic : Text) (allowEmpty : Bool := false) : Except Failure Nat :=
  if topic = [] then
    if allowEmpty then .ok 0 else .error (.protocol "PUBLISH topic must not be empty")
  else do
    let size ← checkUtf8MqttTopic topic
    if hasWildcard topic then .error (.protocol "PUBLISH topic must not contain wildcards")
    else .ok size

def encodeValidatedPublishTopic (topic : Text) (allowEmpty : Bool := false) :
    Except Failure Bytes :=
  if topic = [] ∧ ¬ allowEmpty then .error (.protocol "PUBLISH topic must not be empty")
  else do
    let encoded ← asTopicFailure (encodeUtf8 topic)
    if hasWildcard topic then .error (.protocol "PUBLISH topic must not contain wildcards")
    else .ok encoded

private theorem asTopicFailure_ok {Value : Type} {checked : Except Failure Value} {value : Value}
    (ok : asTopicFailure checked = .ok value) : checked = .ok value := by
  cases checked with
  | ok given => exact ok
  | error failure =>
    simp only [asTopicFailure] at ok
    split at ok <;> cases ok

private theorem asTopicFailure_ok_iff {Value : Type} {checked : Except Failure Value}
    {value : Value} : asTopicFailure checked = .ok value ↔ checked = .ok value := by
  constructor
  · exact asTopicFailure_ok
  · rintro rfl
    rfl

/-- Validating a topic answers as encoding it does, with the size of the encoding. -/
theorem validatePublishTopic_ok_iff {topic : Text} {allowEmpty : Bool} {size : Nat} :
    validatePublishTopic topic allowEmpty = .ok size ↔
      ∃ data, encodeValidatedPublishTopic topic allowEmpty = .ok data ∧ data.length = size := by
  unfold validatePublishTopic encodeValidatedPublishTopic
  by_cases empty : topic = []
  · subst empty
    cases allowEmpty
    · simp
    · simp [encodeUtf8, Text.encodeUtf8, hasNull, hasWildcard, asTopicFailure, bind, Except.bind]
  · rw [if_neg empty, if_neg fun both => empty both.1]
    simp only [except_bind_ok, checkUtf8MqttTopic, asTopicFailure_ok_iff, validateUtf8_ok_iff]
    cases hasWildcard topic with
    | true => simp
    | false => simp

theorem encodeValidatedPublishTopic_topic {topic : Text} {allowEmpty : Bool} {data : Bytes}
    (ok : encodeValidatedPublishTopic topic allowEmpty = .ok data) : encodeUtf8 topic = .ok data := by
  unfold encodeValidatedPublishTopic at ok
  split at ok
  · cases ok
  · obtain ⟨encoded, checked, ok⟩ := except_bind_ok.mp ok
    split at ok
    · cases ok
    · cases ok
      exact asTopicFailure_ok checked

theorem encodeValidatedPublishTopic_ok {topic : Text} {allowEmpty : Bool} {data : Bytes}
    (ok : encodeValidatedPublishTopic topic allowEmpty = .ok data) :
    topic.encodeUtf8 = some data ∧ data.length < 65536 :=
  encodeUtf8_ok (encodeValidatedPublishTopic_topic ok)

theorem validatePublishTopic_ok {topic : Text} {allowEmpty : Bool} {size : Nat}
    (ok : validatePublishTopic topic allowEmpty = .ok size) :
    isAscii topic = true ∨ topic.encodeUtf8.isSome = true := by
  unfold validatePublishTopic at ok
  split at ok
  · rename_i empty
    exact .inl (by simp [empty, isAscii])
  · obtain ⟨_, checked, _⟩ := except_bind_ok.mp ok
    exact validateUtf8_ok (asTopicFailure_ok checked)

/-- Validate an inbound PUBLISH topic whose UTF-8 the decoder already checked. An
empty topic may be resolved by an alias later. -/
def validateReceivedPublishTopic (topic : Text) : Except Failure Unit :=
  if topic = [] then .ok ()
  else if hasWildcard topic then
    .error (.malformedPacket "PUBLISH topic must not contain wildcards")
  else .ok ()

/-- `text.split("/")`. -/
def splitLevels : Text → List Text
  | [] => [[]]
  | point :: rest =>
    if point = slash then [] :: splitLevels rest
    else match splitLevels rest with
      | [] => [[point]]
      | level :: levels => (point :: level) :: levels

private def validateLevels : List Text → Except Failure Unit
  | [] => .ok ()
  | level :: rest =>
    if level = [hash] then
      if rest ≠ [] then .error (.protocol "'#' wildcard must be last filter level")
      else validateLevels rest
    else if hash ∈ level then .error (.protocol "'#' must occupy its own filter level")
    else if level = [plus] then validateLevels rest
    else if plus ∈ level then .error (.protocol "'+' must occupy its own filter level")
    else validateLevels rest

def validateFilterLevels (filter : Text) : Except Failure Unit := validateLevels (splitLevels filter)

theorem splitLevels_ne_nil (text : Text) : splitLevels text ≠ [] := by
  cases text with
  | nil => exact List.cons_ne_nil _ _
  | cons point rest =>
    rw [splitLevels]
    split
    · exact List.cons_ne_nil _ _
    · split <;> exact List.cons_ne_nil _ _

theorem splitLevels_level {level : Text} (whole : slash ∉ level) : splitLevels level = [level] := by
  induction level with
  | nil => rfl
  | cons point rest ih =>
    rw [List.mem_cons, not_or] at whole
    rw [splitLevels, if_neg (Ne.symm whole.1), ih whole.2]

/-- The first slash ends the first level. -/
theorem splitLevels_join {level : Text} (whole : slash ∉ level) (rest : Text) :
    splitLevels (level ++ slash :: rest) = level :: splitLevels rest := by
  induction level with
  | nil => rfl
  | cons point more ih =>
    rw [List.mem_cons, not_or] at whole
    rw [List.cons_append, splitLevels, if_neg (Ne.symm whole.1), ih whole.2]

private theorem hash_ne_plus : Codec.hash ≠ plus := by decide

/-- The wildcard rules of a level that no level follows. -/
theorem validateFilterLevels_level {level : Text} (whole : slash ∉ level) :
    validateFilterLevels level = .ok () ↔
      (hash ∈ level → level = [hash]) ∧ (plus ∈ level → level = [plus]) := by
  rw [validateFilterLevels, splitLevels_level whole, validateLevels]
  by_cases lone : level = [hash]
  · simp [lone, validateLevels, hash_ne_plus.symm]
  · rw [if_neg lone]
    by_cases hashed : hash ∈ level
    · simp [hashed, lone]
    · rw [if_neg hashed]
      by_cases single : level = [plus]
      · simp [single, validateLevels, hash_ne_plus]
      · rw [if_neg single]
        by_cases crossed : plus ∈ level
        · simp [crossed, single]
        · simp [crossed, hashed, validateLevels]

/-- The wildcard rules of a level with more levels behind it. -/
theorem validateFilterLevels_join {level : Text} (whole : slash ∉ level) (rest : Text) :
    validateFilterLevels (level ++ slash :: rest) = .ok () ↔
      hash ∉ level ∧ (plus ∈ level → level = [plus]) ∧ validateFilterLevels rest = .ok () := by
  rw [validateFilterLevels, splitLevels_join whole, validateLevels, validateFilterLevels]
  by_cases lone : level = [hash]
  · simp [lone, splitLevels_ne_nil rest]
  · rw [if_neg lone]
    by_cases hashed : hash ∈ level
    · simp [hashed]
    · rw [if_neg hashed]
      by_cases single : level = [plus]
      · simp [single, hash_ne_plus]
      · rw [if_neg single]
        by_cases crossed : plus ∈ level
        · simp [crossed, single]
        · simp [crossed, hashed]

def sharePrefix : Text := Text.ofString "$share/"

/-- Validate a SUBSCRIBE topic filter. -/
def validateSubscribeFilter (filter : Text) : Except Failure Unit :=
  if filter = [] then .error (.protocol "SUBSCRIBE filter must not be empty")
  else do
    discard (checkUtf8MqttTopic filter)
    if sharePrefix.isPrefixOf filter then
      let rest := filter.drop sharePrefix.length
      if slash ∉ rest then .error (.protocol "Shared subscription missing group or filter")
      else
        let group := rest.takeWhile (· ≠ slash)
        let inner := rest.drop (group.length + 1)
        if group = [] ∨ hasWildcard group then
          .error (.protocol "Invalid shared subscription group name")
        else if inner = [] then .error (.protocol "Shared subscription missing filter")
        else validateFilterLevels inner
    else validateFilterLevels filter

/-- The first slash ends the share name. -/
private theorem group_join {group inner : Text} (whole : slash ∉ group) :
    (group ++ slash :: inner).takeWhile (· ≠ slash) = group := by
  rw [List.takeWhile_append_of_pos]
  · rw [List.takeWhile_cons_of_neg (by simp), List.append_nil]
  · intro point member
    rw [decide_eq_true_eq]
    rintro rfl
    exact whole member

private theorem group_unique {group name inner rest : Text} (whole : slash ∉ group)
    (plain : slash ∉ name) (same : group ++ slash :: inner = name ++ slash :: rest) :
    group = name ∧ inner = rest := by
  have first := @group_join group inner whole
  rw [same, group_join plain] at first
  subst first
  simpa using same

theorem validateSubscribeFilter_ok {filter : Text} : validateSubscribeFilter filter = .ok () ↔
    filter ≠ [] ∧ (∃ data, encodeUtf8 filter = .ok data) ∧
      if sharePrefix <+: filter then
        ∃ name inner, filter = sharePrefix ++ name ++ slash :: inner ∧ slash ∉ name ∧
          name ≠ [] ∧ hasWildcard name = false ∧ inner ≠ [] ∧ validateFilterLevels inner = .ok ()
      else validateFilterLevels filter = .ok () := by
  unfold validateSubscribeFilter
  by_cases empty : filter = []
  · simp [empty]
  · rw [if_neg empty, except_bind_ok]
    simp only [except_discard_ok, checkUtf8MqttTopic, asTopicFailure_ok_iff, validateUtf8_ok_iff,
      List.isPrefixOf_iff_prefix]
    by_cases shared : sharePrefix <+: filter
    · simp only [if_pos shared]
      obtain ⟨rest, rfl⟩ := shared
      simp only [List.drop_left, List.append_assoc, List.append_cancel_left_eq]
      by_cases slashed : slash ∈ rest
      · obtain ⟨group, inner, rfl, whole⟩ := List.eq_append_cons_of_mem slashed
        have behind : (group ++ slash :: inner).drop (group.length + 1) = inner := by simp
        simp only [slashed, not_true_eq_false, if_false, group_join whole, behind]
        have parsed : (∃ name rest, group ++ slash :: inner = name ++ slash :: rest ∧
            slash ∉ name ∧ name ≠ [] ∧ hasWildcard name = false ∧ rest ≠ [] ∧
              validateFilterLevels rest = .ok ()) ↔
            group ≠ [] ∧ hasWildcard group = false ∧ inner ≠ [] ∧
              validateFilterLevels inner = .ok () := by
          constructor
          · rintro ⟨name, rest, same, plain, legal⟩
            obtain ⟨rfl, rfl⟩ := group_unique whole plain same
            exact legal
          · exact fun legal => ⟨group, inner, rfl, whole, legal⟩
        rw [parsed]
        by_cases unnamed : group = []
        · simp [unnamed]
        · by_cases wild : hasWildcard group = true
          · simp [wild]
          · by_cases bare : inner = []
            · simp [unnamed, wild, bare]
            · simp [unnamed, wild, bare, empty]
      · have missing (name inner : Text) : rest ≠ name ++ slash :: inner := by
          rintro rfl
          simp at slashed
        simp [slashed, missing]
    · simp [if_neg shared, empty]

end Mqttium
