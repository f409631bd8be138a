import Mqttium.Codec.Roundtrip
import Mqttium.Decoding.Reading
import Mqttium.Protocol.Inbound

/-! A property table off the wire encodes again, to as many bytes. -/

namespace Mqttium.Codec

open Library

theorem decodeVbi_reencodes {buffer : Bytes} {offset value next : Nat}
    (ok : decodeVbi buffer offset = .ok (value, next)) :
    ∃ data, encodeVbi value = .ok data ∧ next = offset + data.length := by
  have whole : decodeVbi buffer offset (some buffer.length) = .ok (value, next) := ok
  have reported := @decodeVbi_reported buffer offset _ (Nat.le_refl buffer.length)
  cases known : remainingLength 4 1 0 (slice buffer offset buffer.length) with
  | unfinished =>
    rw [known, whole] at reported
    cases reported
  | malformed =>
    rw [known, whole] at reported
    obtain ⟨message, failed⟩ := reported
    cases failed
  | known total digits =>
    rw [known, whole] at reported
    cases reported
    have canonical := remainingLength_canonical known
    have small := vbiLen_le canonical
    have counted := vbiLen_digits small
    rw [canonical, Except.ok.injEq] at counted
    exact ⟨vbiDigits 4 value, if_neg (by omega), by rw [counted]⟩

theorem decodeVbiRest_long {buffer : Bytes} {length fuel pos read weight value total next : Nat}
    (ok : decodeVbiRest buffer length fuel pos read weight value = .ok (total, next)) :
    ∃ count, vbiLen total = .ok count ∧ read < count := by
  induction fuel generalizing pos read weight value with
  | zero => cases ok
  | succ fuel ih =>
    rw [decodeVbiRest] at ok
    split at ok
    · cases ok
    · split at ok
      · cases ok
      · dsimp only at ok
        split at ok
        · obtain ⟨count, canonical, ok⟩ := except_bind_ok.mp ok
          split at ok
          · cases ok
          · rename_i same
            cases ok
            exact ⟨count, canonical, by omega⟩
        · obtain ⟨count, canonical, long⟩ := ih ok
          exact ⟨count, canonical, by omega⟩

/-- Zero has one encoding. -/
theorem decodeVbi_zero {buffer : Bytes} {offset next : Nat}
    (ok : decodeVbi buffer offset = .ok (0, next)) : buffer.getD offset 0 = 0 := by
  unfold decodeVbi at ok
  dsimp only at ok
  split at ok
  · cases ok
  · split at ok
    · rw [Except.ok.injEq, Prod.mk.injEq] at ok
      exact UInt8.toNat_inj.mp ok.1
    · obtain ⟨count, canonical, long⟩ := decodeVbiRest_long ok
      cases canonical
      exact absurd long (Nat.lt_irrefl 1)

theorem unpackU16_reencodes {buffer : Bytes} {offset value next : Nat}
    (ok : unpackU16 buffer offset = .ok (value, next)) :
    ∃ data, packU16 value = .ok data ∧ next = offset + data.length ∧ value < 65536 := by
  unfold unpackU16 at ok
  split at ok
  · cases ok
  · cases ok
    have high : octet buffer offset < 256 := UInt8.toNat_lt _
    have low : octet buffer (offset + 1) < 256 := UInt8.toNat_lt _
    have small : octet buffer offset * 256 + octet buffer (offset + 1) < 65536 := by omega
    exact ⟨_, if_pos small, rfl, small⟩

theorem unpackU32_reencodes {buffer : Bytes} {offset value next : Nat}
    (ok : unpackU32 buffer offset = .ok (value, next)) :
    ∃ data, packU32 value = .ok data ∧ next = offset + data.length ∧ value < 4294967296 := by
  unfold unpackU32 at ok
  split at ok
  · cases ok
  · cases ok
    have first : octet buffer offset < 256 := UInt8.toNat_lt _
    have second : octet buffer (offset + 1) < 256 := UInt8.toNat_lt _
    have third : octet buffer (offset + 2) < 256 := UInt8.toNat_lt _
    have fourth : octet buffer (offset + 3) < 256 := UInt8.toNat_lt _
    have small : octet buffer offset * 16777216 + octet buffer (offset + 1) * 65536 +
      octet buffer (offset + 2) * 256 + octet buffer (offset + 3) < 4294967296 := by omega
    exact ⟨_, if_pos small, rfl, small⟩

theorem unpackUtf8_reencodes {buffer : Bytes} {offset next : Nat} {text : Text}
    (ok : unpackUtf8 buffer offset = .ok (text, next)) :
    ∃ data, packUtf8 text = .ok data ∧ next = offset + data.length := by
  unfold unpackUtf8 at ok
  dsimp only at ok
  split at ok
  · cases ok
  · split at ok
    · cases ok
    · rename_i inside
      split at ok
      · cases ok
      · rename_i decoded
        split at ok
        · cases ok
        · rename_i plain
          cases ok
          have high : octet buffer offset < 256 := UInt8.toNat_lt _
          have low : octet buffer (offset + 1) < 256 := UInt8.toNat_lt _
          have length := @length_slice buffer (offset + 2) _ (Nat.not_lt.mp inside)
          have encoded := encodeUtf8_decodeUtf8 decoded
          have checked : encodeUtf8 text = .ok (slice buffer (offset + 2)
              (offset + 2 + (octet buffer offset * 256 + octet buffer (offset + 1)))) := by
            unfold encodeUtf8
            rw [encoded]
            dsimp only
            rw [if_neg plain, if_neg (by omega)]
          refine ⟨_, except_bind_ok.mpr ⟨_, checked, except_bind_ok.mpr ⟨_, if_pos ?_, rfl⟩⟩, ?_⟩
          · omega
          · simp only [List.length_append, List.length_cons, List.length_nil]
            omega

theorem unpackBinary_reencodes {buffer : Bytes} {offset next : Nat} {value : Bytes}
    (ok : unpackBinary buffer offset = .ok (value, next)) :
    ∃ data, packBinary value = .ok data ∧ next = offset + data.length := by
  obtain ⟨⟨length, pos⟩, counted, ok⟩ := except_bind_ok.mp ok
  obtain ⟨prefixed, packed, reached, small⟩ := unpackU16_reencodes counted
  dsimp only at ok
  split at ok
  · cases ok
  · rename_i inside
    cases ok
    have size := @length_slice buffer pos _ (Nat.not_lt.mp inside)
    have count : (slice buffer pos (pos + length)).length = length := by omega
    have packed : packU16 (slice buffer pos (pos + length)).length = .ok prefixed := by
      rw [count]
      exact packed
    refine ⟨prefixed ++ slice buffer pos (pos + length), ?_, ?_⟩
    · unfold packBinary
      rw [if_neg (by omega)]
      exact except_bind_ok.mpr ⟨prefixed, packed, rfl⟩
    · rw [List.length_append]
      omega

theorem boundedInt_of {kind : String} {bound value : Nat} (small : value ≤ bound) :
    boundedInt kind bound (.scalar (.int value)) = .ok value := by
  unfold boundedInt
  dsimp only
  rw [if_pos ⟨Int.natCast_nonneg value, Int.ofNat_le.mpr small⟩, Int.toNat_natCast]

/-- The encoder takes every value the decoder gives. -/
theorem decodeValue_reencodes {type : PropType} {buffer : Bytes} {offset next : Nat}
    {item : PropertyItem} (ok : decodeValue type buffer offset = .ok (item, next)) :
    ∃ data, encodeValue type item = .ok data ∧ next = offset + data.length := by
  cases type with
  | byte =>
    unfold decodeValue at ok
    dsimp only at ok
    split at ok
    · cases ok
    · cases ok
      have small : (buffer.getD offset 0).toNat ≤ 255 := Nat.le_of_lt_succ (UInt8.toNat_lt _)
      exact ⟨_, except_bind_ok.mpr ⟨_, boundedInt_of small, rfl⟩, rfl⟩
  | u16 =>
    obtain ⟨⟨value, pos⟩, read, ok⟩ := except_bind_ok.mp ok
    cases ok
    obtain ⟨data, packed, reached, small⟩ := unpackU16_reencodes read
    have fits : value ≤ 65535 := Nat.le_of_lt_succ small
    exact ⟨data, except_bind_ok.mpr ⟨value, boundedInt_of fits, packed⟩, reached⟩
  | u32 =>
    obtain ⟨⟨value, pos⟩, read, ok⟩ := except_bind_ok.mp ok
    cases ok
    obtain ⟨data, packed, reached, small⟩ := unpackU32_reencodes read
    have fits : value ≤ 0xFFFFFFFF := Nat.le_of_lt_succ small
    exact ⟨data, except_bind_ok.mpr ⟨value, boundedInt_of fits, packed⟩, reached⟩
  | vbi =>
    obtain ⟨⟨value, pos⟩, read, ok⟩ := except_bind_ok.mp ok
    cases ok
    obtain ⟨data, packed, reached⟩ := decodeVbi_reencodes read
    have small : value ≤ 268435455 := by
      unfold encodeVbi maxVbi at packed
      split at packed
      · cases packed
      · omega
    exact ⟨data, except_bind_ok.mpr ⟨value, boundedInt_of small, packed⟩, reached⟩
  | string =>
    obtain ⟨⟨value, pos⟩, read, ok⟩ := except_bind_ok.mp ok
    cases ok
    exact unpackUtf8_reencodes read
  | stringPair =>
    obtain ⟨⟨key, middle⟩, first, ok⟩ := except_bind_ok.mp ok
    obtain ⟨⟨value, pos⟩, second, ok⟩ := except_bind_ok.mp ok
    cases ok
    obtain ⟨keyData, keyPacked, keyReached⟩ := unpackUtf8_reencodes first
    obtain ⟨data, packed, reached⟩ := unpackUtf8_reencodes second
    refine ⟨keyData ++ data, except_bind_ok.mpr ⟨keyData, keyPacked,
      except_bind_ok.mpr ⟨data, packed, rfl⟩⟩, ?_⟩
    rw [List.length_append]
    omega
  | binary =>
    obtain ⟨⟨value, pos⟩, read, ok⟩ := except_bind_ok.mp ok
    cases ok
    obtain ⟨data, packed, reached⟩ := unpackBinary_reencodes read
    refine ⟨data, ?_, reached⟩
    unfold encodeValue
    dsimp only
    rw [packed]

theorem byId_mem {id : UInt8} {spec : PropertySpec} (known : byId id = some spec) :
    spec ∈ specs ∧ spec.id = id :=
  ⟨List.mem_of_find?_eq_some known, by simpa using List.find?_some known⟩

theorem byName_of_mem {spec : PropertySpec} (member : spec ∈ specs) :
    byName spec.name = some spec :=
  @find?_distinct _ _ _ _ PropertySpec.name _ (by decide) _ member

/-- A property that is not repeatable has no parts. -/
theorem stringPair_multiple {spec : PropertySpec} (member : spec ∈ specs)
    (pair : spec.type = .stringPair) : spec.multiple = true ∧ spec.subscribeSingleton = false :=
  (show ∀ spec ∈ specs, spec.type = .stringPair →
    spec.multiple = true ∧ spec.subscribeSingleton = false by decide) spec member pair

/-- The bytes one entry of a table takes. -/
def entrySize (context : PropertyContext) (name : PropertyName) (value : PropertyValue) : Nat :=
  match encodeEntries context [(name, value)] with
  | .ok encoded => encoded.length
  | .error _ => 0

/-- An entry as the decoder leaves it: it encodes, and is in normal form. -/
structure Readable (context : PropertyContext) (name : PropertyName) (value : PropertyValue) :
    Prop where
  encodes : ∃ encoded, encodeEntries context [(name, value)] = .ok encoded
  normal : normalValue context name value = some value

/-- The table read from `size` bytes, with `repeated` values against the budget. -/
structure Read (context : PropertyContext) (seen : Dict PropertyName PropertyValue)
    (repeated size : Nat) : Prop where
  readable : ∀ name value, seen.get? name = some value → Readable context name value
  sized : seen.sumBy (entrySize context) = size
  counted : seen.sumBy repeatedIn = repeated
  budget : repeated ≤ maxRepeatableProperties

section Tables

variable {context : PropertyContext} {spec : PropertySpec}
  {seen : Dict PropertyName PropertyValue} {repeated size : Nat}

theorem encodeEntries_one {name : PropertyName} {value : PropertyValue} {encoded : Bytes}
    (known : byName name = some spec) (legal : context ∈ spec.packets)
    {values : List PropertyItem} (listed : valuesOf spec context value = .ok values)
    (items : encodeItems spec values = .ok encoded) :
    encodeEntries context [(name, value)] = .ok encoded := by
  simp only [encodeEntries, known, legal, not_true_eq_false, ↓reduceIte]
  exact except_bind_ok.mpr ⟨values, listed, except_bind_ok.mpr ⟨encoded, items,
    except_bind_ok.mpr ⟨[], rfl, by rw [List.append_nil]; rfl⟩⟩⟩

theorem encodeItems_append {before : List PropertyItem} {item : PropertyItem}
    {encoded data : Bytes} {quoted : String} (first : encodeItems spec before = .ok encoded)
    (checked : checkValue .protocol quoted spec item = .ok ())
    (last : encodeValue spec.type item = .ok data) :
    encodeItems spec (before ++ [item]) = .ok (encoded ++ spec.id :: data) := by
  induction before generalizing encoded with
  | nil =>
    cases first
    exact except_bind_ok.mpr ⟨(), checkValue_ok checked, except_bind_ok.mpr ⟨data, last,
      except_bind_ok.mpr ⟨[], rfl, by simp [pure, Except.pure]⟩⟩⟩
  | cons head rest ih =>
    obtain ⟨_, headChecked, first⟩ := except_bind_ok.mp first
    obtain ⟨headData, headEncoded, first⟩ := except_bind_ok.mp first
    obtain ⟨tail, more, first⟩ := except_bind_ok.mp first
    cases first
    exact except_bind_ok.mpr ⟨(), headChecked, except_bind_ok.mpr ⟨headData, headEncoded,
      except_bind_ok.mpr ⟨_, ih more, by simp [pure, Except.pure]⟩⟩⟩

theorem encodeEntries_one_ok {name : PropertyName} {value : PropertyValue} {encoded : Bytes}
    (known : byName name = some spec) (ok : encodeEntries context [(name, value)] = .ok encoded) :
    ∃ values, valuesOf spec context value = .ok values ∧ encodeItems spec values = .ok encoded := by
  simp only [encodeEntries, known] at ok
  split at ok
  · cases ok
  · obtain ⟨values, listed, ok⟩ := except_bind_ok.mp ok
    obtain ⟨items, encoded, ok⟩ := except_bind_ok.mp ok
    obtain ⟨tail, nothing, ok⟩ := except_bind_ok.mp ok
    cases nothing
    cases ok
    exact ⟨values, listed, by rw [List.append_nil]; exact encoded⟩

theorem entrySize_of {name : PropertyName} {value : PropertyValue} {encoded : Bytes}
    (ok : encodeEntries context [(name, value)] = .ok encoded) :
    entrySize context name value = encoded.length := by
  unfold entrySize
  rw [ok]

theorem repeatedIn_of {value : PropertyValue} (listed : spec ∈ specs) :
    repeatedIn spec.name value =
      if spec.multiple then (PropertyValue.items value).length else 0 := by
  unfold repeatedIn
  rw [byName_of_mem listed]

theorem Read.insert_new (read : Read context seen repeated size) {name : PropertyName}
    {value : PropertyValue} {more extra : Nat} (absent : seen.get? name = none)
    (readable : Readable context name value) (sized : entrySize context name value = extra)
    (counted : repeatedIn name value = more) (budget : repeated + more ≤ maxRepeatableProperties) :
    Read context (seen.insert name value) (repeated + more) (size + extra) where
  readable := by
    intro other stored found
    by_cases same : other = name
    · subst same
      rw [Dict.get?_insert_self, Option.some.injEq] at found
      exact found ▸ readable
    · rw [Dict.get?_insert_of_ne _ same] at found
      exact read.readable other stored found
  sized := by rw [Dict.sumBy_insert_new _ _ absent, read.sized, sized]
  counted := by rw [Dict.sumBy_insert_new _ _ absent, read.counted, counted]
  budget := budget

theorem Read.insert_more (read : Read context seen repeated size) {name : PropertyName}
    {old value : PropertyValue} {more extra : Nat} (present : seen.get? name = some old)
    (readable : Readable context name value)
    (sized : entrySize context name value = entrySize context name old + extra)
    (counted : repeatedIn name value = repeatedIn name old + more)
    (budget : repeated + more ≤ maxRepeatableProperties) :
    Read context (seen.insert name value) (repeated + more) (size + extra) where
  readable := by
    intro other stored found
    by_cases same : other = name
    · subst same
      rw [Dict.get?_insert_self, Option.some.injEq] at found
      exact found ▸ readable
    · rw [Dict.get?_insert_of_ne _ same] at found
      exact read.readable other stored found
  sized := by
    have replaced := Dict.sumBy_replace (entrySize context) value present
    rw [read.sized] at replaced
    omega
  counted := by
    have replaced := Dict.sumBy_replace repeatedIn value present
    rw [read.counted] at replaced
    omega
  budget := budget

theorem scalar_of_encodes {type : PropType} {item : PropertyItem} {data : Bytes}
    (encoded : encodeValue type item = .ok data) (single : type ≠ .stringPair) :
    ∃ value, item = .scalar value := by
  cases item with
  | scalar value => exact ⟨value, rfl⟩
  | tuple parts =>
    cases type with
    | stringPair => exact absurd rfl single
    | _ => cases encoded

/-- One value more. -/
theorem Read.place (read : Read context seen repeated size) (listed : spec ∈ specs)
    (legal : context ∈ spec.packets) {item : PropertyItem} {data : Bytes} {quoted : String}
    (checked : checkValue .protocol quoted spec item = .ok ())
    (encoded : encodeValue spec.type item = .ok data)
    (budget : repeated + spec.multiple.toNat ≤ maxRepeatableProperties)
    (fresh : spec.gathers context ∨ seen.contains spec.name = false) :
    Read context (place context spec seen item) (repeated + spec.multiple.toNat)
      (size + (1 + data.length)) := by
  have known := byName_of_mem listed
  by_cases gathers : spec.gathers context
  · obtain ⟨several, plain⟩ := gathers
    have valuesOf_tuple (items : List PropertyItem) :
        valuesOf spec context (.tuple items) = .ok items := by
      unfold valuesOf
      dsimp only
      rw [if_pos several, if_neg (fun singleton => plain ⟨singleton.1, singleton.2.1⟩)]
    have normal (head : PropertyItem) (rest : List PropertyItem) :
        normalValue context spec.name (.tuple (head :: rest)) = some (.tuple (head :: rest)) := by
      unfold normalValue
      rw [known]
      dsimp only
      rw [if_pos ⟨several, plain⟩]
    have one : spec.multiple.toNat = 1 := by rw [several]; rfl
    rw [Codec.place, if_pos ⟨several, plain⟩]
    cases present : seen.get? spec.name with
    | none =>
      have single : encodeItems spec ([] ++ [item]) = .ok ([] ++ spec.id :: data) :=
        encodeItems_append rfl checked encoded
      have entry := encodeEntries_one known legal (valuesOf_tuple [item]) single
      refine read.insert_new present ⟨⟨_, entry⟩, normal item []⟩ ?_ ?_ budget
      · rw [appendItem, entrySize_of entry, List.nil_append, List.length_cons, Nat.add_comm]
      · rw [repeatedIn_of listed, if_pos several, one]
        rfl
    | some old =>
      obtain ⟨⟨oldBytes, oldEncoded⟩, oldNormal⟩ := read.readable _ _ present
      obtain ⟨items, rfl⟩ : ∃ items, old = .tuple items := by
        cases old with
        | scalar value =>
          simp [normalValue, known, several, plain, PropertySpec.gathers] at oldNormal
        | tuple items => exact ⟨items, rfl⟩
      obtain ⟨values, oldListed, oldItems⟩ := encodeEntries_one_ok known oldEncoded
      rw [valuesOf_tuple, Except.ok.injEq] at oldListed
      subst oldListed
      have entry := encodeEntries_one known legal (valuesOf_tuple (items ++ [item]))
        (encodeItems_append oldItems checked encoded)
      refine read.insert_more present ⟨⟨_, entry⟩, ?_⟩ ?_ ?_ budget
      · cases items with
        | nil => exact normal item []
        | cons head rest => exact normal head (rest ++ [item])
      · rw [appendItem, entrySize_of oldEncoded]
        refine (entrySize_of entry).trans ?_
        rw [List.length_append, List.length_cons, Nat.add_comm data.length]
      · rw [repeatedIn_of listed, repeatedIn_of listed, if_pos several, if_pos several, one]
        simp [appendItem, PropertyValue.items]
  · have absent : seen.get? spec.name = none := by
      rcases fresh with wrong | absent
      · exact absurd wrong gathers
      · simpa [Dict.contains] using absent
    obtain ⟨value, rfl⟩ := scalar_of_encodes encoded fun pair =>
      gathers ⟨(stringPair_multiple listed pair).1, fun singleton => by
        simp [(stringPair_multiple listed pair).2] at singleton⟩
    have single : encodeItems spec ([] ++ [.scalar value]) = .ok ([] ++ spec.id :: data) :=
      encodeItems_append rfl checked encoded
    have alone : valuesOf spec context (.scalar value) = .ok [.scalar value] := rfl
    have entry := encodeEntries_one known legal alone single
    rw [Codec.place, if_neg gathers]
    refine read.insert_new absent ⟨⟨_, entry⟩, ?_⟩ ?_ ?_ budget
    · simp [normalValue, known, gathers, scalarOf]
    · rw [scalarOf, entrySize_of entry, List.nil_append, List.length_cons, Nat.add_comm]
    · rw [repeatedIn_of listed]
      cases spec.multiple <;> rfl

/-- What the loop of `decode_properties` gathered up to where it stopped. -/
theorem Read.entries {buffer : Bytes} {start stop fuel pos reached : Nat}
    {last : Dict PropertyName PropertyValue} (read : Read context seen repeated (pos - start))
    (from_start : start ≤ pos)
    (ok : decodeEntries buffer stop context fuel pos repeated seen = .ok (last, reached)) :
    start ≤ reached ∧ ∃ total, Read context last total (reached - start) := by
  induction fuel generalizing pos repeated seen with
  | zero =>
    cases ok
    exact ⟨from_start, repeated, read⟩
  | succ fuel ih =>
    rw [decodeEntries] at ok
    split at ok
    · cases ok
      exact ⟨from_start, repeated, read⟩
    · dsimp only at ok
      split at ok
      · cases ok
      · rename_i spec known
        obtain ⟨listed, _⟩ := byId_mem known
        split at ok
        · cases ok
        · rename_i legal
          rw [not_not] at legal
          split at ok
          · cases ok
          · rename_i within
            obtain ⟨⟨item, next⟩, decoded, ok⟩ := except_bind_ok.mp ok
            obtain ⟨_, checked, ok⟩ := except_bind_ok.mp ok
            obtain ⟨data, encoded, reach⟩ := decodeValue_reencodes decoded
            have placed (budget : repeated + spec.multiple.toNat ≤ maxRepeatableProperties)
                (fresh : spec.gathers context ∨ seen.contains spec.name = false) :
                Read context (Codec.place context spec seen item)
                  (repeated + spec.multiple.toNat) (next - start) := by
              have one := read.place listed legal
                (checkValue_ok checked : checkValue .protocol "" spec item = .ok ()) encoded budget
                fresh
              have size : pos - start + (1 + data.length) = next - start := by omega
              rwa [size] at one
            have onwards : start ≤ next := by omega
            by_cases several : spec.multiple = true
            · have budget : repeated + spec.multiple.toNat ≤ maxRepeatableProperties := by
                rw [several]
                exact Nat.not_lt.mp fun spent => within ⟨several, spent⟩
              rw [if_pos several] at ok
              by_cases singleton : spec.subscribeSingleton = true ∧ context = .subscribe
              · rw [if_pos singleton] at ok
                split at ok
                · cases ok
                · rename_i absent
                  have one := placed budget (Or.inr (by simpa using absent))
                  rw [Codec.place, if_neg (fun gathers => gathers.2 singleton), several] at one
                  exact ih one onwards ok
              · rw [if_neg singleton] at ok
                have one := placed budget (Or.inl ⟨several, singleton⟩)
                rw [Codec.place, if_pos ⟨several, singleton⟩, several] at one
                exact ih one onwards ok
            · rw [if_neg several] at ok
              rw [Bool.not_eq_true] at several
              split at ok
              · cases ok
              · rename_i absent
                have budget : repeated + spec.multiple.toNat ≤ maxRepeatableProperties := by
                  rw [several]
                  exact read.budget
                have one := placed budget (Or.inr (by simpa using absent))
                have single : ¬ spec.gathers context := fun gathers =>
                  absurd gathers.1 (by simp [several])
                rw [Codec.place, if_neg single, several] at one
                exact ih one onwards ok

theorem encodeEntries_cons {entry : PropertyName × PropertyValue}
    {rest : List (PropertyName × PropertyValue)} {first tail : Bytes}
    (one : encodeEntries context [entry] = .ok first)
    (more : encodeEntries context rest = .ok tail) :
    encodeEntries context (entry :: rest) = .ok (first ++ tail) := by
  obtain ⟨name, value⟩ := entry
  cases known : byName name with
  | none => simp [encodeEntries, known] at one
  | some spec =>
    obtain ⟨values, listed, items⟩ := encodeEntries_one_ok known one
    simp only [encodeEntries, known] at one ⊢
    split at one
    · cases one
    · rename_i legal
      rw [if_neg legal]
      exact except_bind_ok.mpr ⟨values, listed, except_bind_ok.mpr ⟨first, items,
        except_bind_ok.mpr ⟨tail, more, rfl⟩⟩⟩

theorem encodeEntries_sum {entries : List (PropertyName × PropertyValue)}
    (encodes : ∀ entry ∈ entries, ∃ encoded, encodeEntries context [entry] = .ok encoded) :
    ∃ body, encodeEntries context entries = .ok body ∧
      body.length = (entries.map fun entry => entrySize context entry.1 entry.2).sum := by
  induction entries with
  | nil => exact ⟨[], rfl, rfl⟩
  | cons entry rest ih =>
    obtain ⟨first, one⟩ := encodes entry List.mem_cons_self
    obtain ⟨tail, more, size⟩ := ih fun other later =>
      encodes other (List.mem_cons_of_mem entry later)
    refine ⟨first ++ tail, encodeEntries_cons one more, ?_⟩
    rw [List.length_append, List.map_cons, List.sum_cons, size, entrySize_of one]

/-- A table that was read encodes, and reads back as it is. -/
theorem Read.encodes (read : Read context seen repeated size) :
    ∃ body, encodeEntries context seen.entries = .ok body ∧ body.length = size := by
  obtain ⟨body, encoded, length⟩ := @encodeEntries_sum context seen.entries fun entry member =>
    (read.readable entry.1 entry.2 (Dict.get?_eq_some_iff.mpr member)).encodes
  exact ⟨body, encoded, length.trans read.sized⟩

theorem Read.normalForm (read : Read context seen repeated size) :
    normalForm context ⟨seen⟩ = ⟨seen⟩ := by
  unfold Codec.normalForm
  congr 1
  refine Dict.ext_entries ?_
  refine Eq.trans (List.filterMap_congr fun entry member => ?_) List.filterMap_some
  rw [(read.readable entry.1 entry.2 (Dict.get?_eq_some_iff.mpr member)).normal]
  rfl

end Tables

theorem decodeProperties_read {buffer : Bytes} {offset next : Nat} {table : Properties}
    {context : PropertyContext} (ok : decodeProperties buffer offset context = .ok (table, next)) :
    table = .empty ∧ next = offset + 1 ∨
      ∃ length prefixed repeated, length ≠ 0 ∧ encodeVbi length = .ok prefixed ∧
        Read context table.values repeated length ∧ next = offset + prefixed.length + length := by
  unfold decodeProperties at ok
  split at ok
  · cases ok
  · split at ok
    · cases ok
      exact Or.inl ⟨rfl, rfl⟩
    · rename_i inside nonzero
      obtain ⟨⟨length, pos⟩, counted, ok⟩ := except_bind_ok.mp ok
      obtain ⟨prefixed, sized, reach⟩ := decodeVbi_reencodes counted
      dsimp only at ok
      split at ok
      · cases ok
      · obtain ⟨⟨seen, last⟩, gathered, ok⟩ := except_bind_ok.mp ok
        have start : Read context .empty 0 (pos - pos) :=
          ⟨fun _ _ none => (nomatch none), (Nat.sub_self pos).symm, rfl, Nat.zero_le _⟩
        obtain ⟨_, repeated, read⟩ := start.entries (Nat.le_refl pos) gathered
        dsimp only at ok
        split at ok
        · cases ok
        · rename_i same
          rw [not_not] at same
          cases ok
          have size : last - pos = length := by omega
          rw [size] at read
          refine Or.inr ⟨length, prefixed, repeated, ?_, sized, read, by rw [← reach]⟩
          rintro rfl
          exact nonzero (decodeVbi_zero counted)

/-- A table read from a packet encodes to as many bytes, which read as the same table; so
its size may be taken off the wire. -/
theorem decodeProperties_reencodes {buffer : Bytes} {offset next : Nat} {table : Properties}
    (ok : decodeProperties buffer offset .publish = .ok (table, next)) :
    ∃ encoded, encodeProperties (some table) .publish = .ok encoded ∧
      next = offset + encoded.length ∧
      (∀ before suffix, decodeProperties (before ++ encoded ++ suffix) before.length .publish =
        .ok (table, before.length + encoded.length)) ∧
      ∀ isV5 topic payload,
        Protocol.Inbound.logicalSize isV5 topic payload (some table) (some (next - offset)) =
          Protocol.Inbound.logicalSize isV5 topic payload (some table) none := by
  rcases decodeProperties_read ok with
    ⟨rfl, rfl⟩ | ⟨length, prefixed, repeated, filled, sized, read, rfl⟩
  · have zero : encodeProperties (some .empty) .publish = .ok [0] := rfl
    refine ⟨[0], zero, rfl, fun before suffix => ?_, fun isV5 topic payload => ?_⟩
    · exact properties_round_trip zero (Nat.zero_le _) before suffix
    · have none : hasProperties (some .empty) = false := rfl
      simp [Protocol.Inbound.logicalSize, none]
  · obtain ⟨body, gathered, size⟩ := read.encodes
    have nonempty : table.isEmpty = false := by
      by_contra empty
      rw [Bool.not_eq_false] at empty
      have none : table.values.entries = [] := by
        simpa [Properties.isEmpty, Dict.isEmpty] using empty
      have nothing : length = 0 := by
        rw [← read.sized, Dict.sumBy, none]
        rfl
      exact filled nothing
    have encoded : encodeProperties (some table) .publish = .ok (prefixed ++ body) := by
      simp only [encodeProperties, nonempty, Bool.false_eq_true, ↓reduceIte]
      rw [← size] at sized
      exact except_bind_ok.mpr ⟨body, gathered, except_bind_ok.mpr ⟨prefixed, sized, rfl⟩⟩
    have budget : repeatedValues table ≤ maxRepeatableProperties :=
      Nat.le_trans (Nat.le_of_eq read.counted) read.budget
    have total : offset + prefixed.length + length = offset + (prefixed ++ body).length := by
      rw [List.length_append, size, Nat.add_assoc]
    refine ⟨prefixed ++ body, encoded, total, fun before suffix => ?_, fun isV5 topic payload => ?_⟩
    · have trip := properties_round_trip encoded budget before suffix
      rwa [Option.getD_some, read.normalForm] at trip
    · have wire : offset + prefixed.length + length - offset = (prefixed ++ body).length := by omega
      unfold Protocol.Inbound.logicalSize
      rw [wire, encoded]
      rfl

/-- Interleaved repeated properties are regrouped and nothing else changes. -/
theorem decodeProperties_reencodes_regrouped :
    let table : Properties := ⟨⟨[(.subscriptionIdentifier,
      .tuple [.scalar (.int 1), .scalar (.int 2)]), (.topicAlias, .scalar (.int 5))], by decide⟩⟩
    ∃ encoded, encodeProperties (some table) .publish = .ok encoded ∧ 8 = 0 + encoded.length := by
  intro table
  have decoded : decodeProperties [7, 11, 1, 35, 0, 5, 11, 2] 0 .publish = .ok (table, 8) := rfl
  obtain ⟨encoded, ok, length, _⟩ := decodeProperties_reencodes decoded
  exact ⟨encoded, ok, length⟩

end Mqttium.Codec
