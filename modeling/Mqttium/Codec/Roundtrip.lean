import Mathlib.Tactic.Ring
import Mqttium.Codec.Properties
import Mqttium.Library.Readers

/-! What the encoders write, the decoders take back, wherever it stands in a buffer. -/

namespace Mqttium.Codec

open Library

/-! Variable byte integers -/

theorem vbiLen_digits {value : Nat} (small : value ≤ maxVbi) :
    vbiLen value = .ok (vbiDigits 4 value).length := by
  unfold maxVbi at small
  have fits : ¬ 268435455 < value := by omega
  simp only [vbiLen, maxVbi, vbiDigits, Nat.div_div_eq_div_mul, fits, ↓reduceIte]
  by_cases one : value < 128
  · have first : value / 128 = 0 := by omega
    simp [one, first]
  have first : ¬ value / 128 = 0 := by omega
  by_cases two : value < 16384
  · have second : value / 16384 = 0 := by omega
    simp [one, two, first, second]
  have second : ¬ value / 16384 = 0 := by omega
  by_cases three : value < 2097152
  · have third : value / 2097152 = 0 := by omega
    simp [one, two, three, first, second, third]
  have third : ¬ value / 2097152 = 0 := by omega
  have fourth : value / 268435456 = 0 := by omega
  simp [one, two, three, first, second, third, fourth]

theorem length_vbiDigits (fuel value : Nat) : (vbiDigits fuel value).length ≤ fuel := by
  induction fuel generalizing value with
  | zero => exact Nat.le_refl 0
  | succ fuel ih =>
    rw [vbiDigits]
    split
    · simp
    · simpa using ih (value / 128)

/-- The continuation loop reads the digits that are left. -/
theorem decodeVbiRest_digits {buffer : Bytes} {left value pos read fuel weight total : Nat}
    (lies : LiesAt (vbiDigits left value) buffer pos) (small : value < 128 ^ left)
    (positive : 0 < left) (room : read + left ≤ 4) (fueled : left ≤ fuel)
    (canonical : vbiLen (total + value * weight) =
      .ok (read + (vbiDigits left value).length)) :
    decodeVbiRest buffer buffer.length fuel pos read weight total =
      .ok (total + value * weight, pos + (vbiDigits left value).length) := by
  induction left generalizing value pos read fuel weight total with
  | zero => omega
  | succ left ih =>
    obtain ⟨fuel, rfl⟩ : ∃ less, fuel = less + 1 := ⟨fuel - 1, by omega⟩
    rw [vbiDigits] at lies canonical ⊢
    split at lies
    · next last =>
      rw [if_pos last] at canonical ⊢
      have digit : (buffer.getD pos 0).toNat = value := by
        rw [lies.head, toNat_byte]
        omega
      have here := lies.within
      simp only [decodeVbiRest, digit]
      rw [if_neg (by omega), if_neg (by omega), if_pos (by omega),
        Nat.mod_eq_of_lt (by omega), canonical]
      simp [bind, Except.bind]
    · next continued =>
      rw [if_neg continued] at canonical ⊢
      have digit : (buffer.getD pos 0).toNat = value % 128 + 128 := by
        rw [lies.head, toNat_byte]
        omega
      have here := lies.within
      have split_value : total + value % 128 * weight + value / 128 * (weight * 128) =
          total + value * weight := by
        have parts := Nat.div_add_mod value 128
        calc total + value % 128 * weight + value / 128 * (weight * 128)
            = total + (128 * (value / 128) + value % 128) * weight := by ring
          _ = total + value * weight := by rw [parts]
      simp only [decodeVbiRest, digit]
      rw [if_neg (by omega), if_neg (by omega), if_neg (by omega),
        show (value % 128 + 128) % 128 = value % 128 by omega]
      rw [pow_succ] at small
      have positive : 0 < left := by
        by_contra none
        have : left = 0 := by omega
        subst this
        omega
      rw [ih lies.tail (by omega) positive (by omega) (by omega), split_value]
      · simp only [List.length_cons]
        congr 2
        omega
      · rw [split_value, canonical, List.length_cons]
        congr 1
        omega

theorem recovers_vbi {value : Nat} {data : Bytes} (ok : encodeVbi value = .ok data) :
    Recovers (fun buffer offset => decodeVbi buffer offset) data value := by
  intro buffer offset lies
  unfold encodeVbi at ok
  split at ok
  · cases ok
  · next small =>
    cases ok
    have canonical := vbiLen_digits (Nat.le_of_not_lt small)
    have here : offset < buffer.length := by
      have := lies.bound
      have : 0 < (vbiDigits 4 value).length := by
        rw [vbiDigits]
        split <;> simp
      omega
    simp only [decodeVbi, Option.getD_none]
    rw [if_neg (by omega)]
    rw [vbiDigits] at lies canonical ⊢
    split at lies
    · next last =>
      rw [if_pos last]
      have digit : (buffer.getD offset 0).toNat = value := by
        rw [lies.head, toNat_byte]
        omega
      rw [digit, if_pos (by omega)]
      rfl
    · next continued =>
      rw [if_neg continued] at canonical ⊢
      have digit : (buffer.getD offset 0).toNat = value % 128 + 128 := by
        rw [lies.head, toNat_byte]
        omega
      unfold maxVbi at small
      have whole : value % 128 + value / 128 * 128 = value := by omega
      rw [digit, if_neg (by omega), show (value % 128 + 128) % 128 = value % 128 by omega,
        decodeVbiRest_digits lies.tail (by omega) (by omega) (by omega) (by omega)
          (by rw [whole, canonical, List.length_cons, Nat.add_comm]), whole, List.length_cons]
      congr 2
      omega

/-! Integers, text and binary data -/

theorem recovers_u16 {value : Nat} {data : Bytes} (ok : packU16 value = .ok data) :
    Recovers unpackU16 data value := by
  intro buffer offset lies
  unfold packU16 at ok
  split at ok
  · next small =>
    cases ok
    have bound := lies.bound
    simp only [List.length_cons, List.length_nil] at bound
    have high : octet buffer offset = value / 256 := by
      rw [octet, lies.head, toNat_byte_small (by omega)]
    have low : octet buffer (offset + 1) = value % 256 := by
      rw [octet, lies.tail.head, toNat_byte_small (by omega)]
    rw [unpackU16, if_neg (by omega), high, low]
    congr 2
    omega
  · cases ok

theorem recovers_u32 {value : Nat} {data : Bytes} (ok : packU32 value = .ok data) :
    Recovers unpackU32 data value := by
  intro buffer offset lies
  unfold packU32 at ok
  split at ok
  · next small =>
    cases ok
    have bound := lies.bound
    simp only [List.length_cons, List.length_nil] at bound
    have first : octet buffer offset = value / 16777216 := by
      rw [octet, lies.head, toNat_byte_small (by omega)]
    have second : octet buffer (offset + 1) = value / 65536 % 256 := by
      rw [octet, lies.tail.head, toNat_byte_small (by omega)]
    have third : octet buffer (offset + 2) = value / 256 % 256 := by
      rw [octet, lies.tail.tail.head, toNat_byte_small (by omega)]
    have fourth : octet buffer (offset + 3) = value % 256 := by
      rw [octet, lies.tail.tail.tail.head, toNat_byte_small (by omega)]
    rw [unpackU32, if_neg (by omega), first, second, third, fourth]
    congr 2
    omega
  · cases ok

theorem encodeUtf8_plain {text : Text} {data : Bytes} (ok : encodeUtf8 text = .ok data) :
    hasNull text = false := by
  unfold encodeUtf8 at ok
  split at ok
  · cases ok
  · split at ok
    · cases ok
    · next plain => simpa using plain

theorem recovers_utf8 {text : Text} {data : Bytes} (ok : packUtf8 text = .ok data) :
    Recovers unpackUtf8 data text := by
  intro buffer offset lies
  obtain ⟨body, encoded, ok⟩ := except_bind_ok.mp ok
  obtain ⟨length, sized, ok⟩ := except_bind_ok.mp ok
  cases ok
  have counted := recovers_u16 sized lies.left
  have cut := lies.right.cut
  have bound := lies.bound
  have measured : length.length = 2 := by
    unfold packU16 at sized
    split at sized <;> cases sized
    rfl
  simp only [unpackU16, measured] at counted
  split at counted
  · cases counted
  · next here =>
    simp only [Except.ok.injEq, Prod.mk.injEq, and_true] at counted
    simp only [List.length_append, measured] at bound cut ⊢
    simp only [unpackUtf8, counted, slice]
    rw [if_neg here, if_neg (by omega), cut, decodeUtf8_encodeUtf8 (encodeUtf8_ok encoded).1]
    simp only [encodeUtf8_plain encoded, Bool.false_eq_true, ↓reduceIte, Nat.add_assoc]

theorem recovers_binary {value data : Bytes} (ok : packBinary value = .ok data) :
    Recovers unpackBinary data value := by
  intro buffer offset lies
  unfold packBinary at ok
  split at ok
  · cases ok
  · obtain ⟨length, sized, ok⟩ := except_bind_ok.mp ok
    cases ok
    have cut := lies.right.cut
    have bound := lies.right.bound
    simp only [unpackBinary, recovers_u16 sized lies.left, bind, Except.bind, slice]
    rw [if_neg (by omega), cut, List.length_append, Nat.add_assoc]

/-! Property values -/

theorem boundedInt_ok {kind : String} {bound value : Nat} {item : PropertyItem}
    (ok : boundedInt kind bound item = .ok value) :
    item = .scalar (.int value) ∧ value ≤ bound := by
  unfold boundedInt at ok
  split at ok
  · split at ok
    · next fits =>
      cases ok
      refine ⟨?_, by omega⟩
      congr 2
      omega
    · cases ok
  · cases ok

theorem packText_ok {part : Scalar} {data : Bytes} (ok : packText part = .ok data) :
    ∃ text, part = .text text ∧ packUtf8 text = .ok data := by
  unfold packText at ok
  split at ok
  · exact ⟨_, rfl, ok⟩
  · cases ok

theorem recovers_value {type : PropType} {item : PropertyItem} {data : Bytes}
    (ok : encodeValue type item = .ok data) : Recovers (decodeValue type) data item := by
  intro buffer offset lies
  cases type with
  | byte =>
    obtain ⟨value, fits, packed⟩ := except_bind_ok.mp ok
    obtain ⟨rfl, small⟩ := boundedInt_ok fits
    cases packed
    have here := lies.within
    simp only [decodeValue]
    rw [if_neg (by omega), lies.head, toNat_byte_small (by omega)]
    rfl
  | u16 =>
    obtain ⟨value, fits, packed⟩ := except_bind_ok.mp ok
    obtain ⟨rfl, _⟩ := boundedInt_ok fits
    exact (recovers_u16 packed).map (fun value => PropertyItem.scalar (.int value)) lies
  | u32 =>
    obtain ⟨value, fits, packed⟩ := except_bind_ok.mp ok
    obtain ⟨rfl, _⟩ := boundedInt_ok fits
    exact (recovers_u32 packed).map (fun value => PropertyItem.scalar (.int value)) lies
  | vbi =>
    obtain ⟨value, fits, packed⟩ := except_bind_ok.mp ok
    obtain ⟨rfl, _⟩ := boundedInt_ok fits
    exact (recovers_vbi packed).map (fun value => PropertyItem.scalar (.int value)) lies
  | string =>
    simp only [encodeValue] at ok
    split at ok
    · exact (recovers_utf8 ok).map (fun value => PropertyItem.scalar (.text value)) lies
    · cases ok
  | stringPair =>
    simp only [encodeValue] at ok
    split at ok
    · obtain ⟨first, key, more⟩ := except_bind_ok.mp ok
      obtain ⟨second, value, both⟩ := except_bind_ok.mp more
      cases both
      obtain ⟨name, rfl, packed⟩ := packText_ok key
      obtain ⟨text, rfl, also⟩ := packText_ok value
      simp only [decodeValue, recovers_utf8 packed lies.left, recovers_utf8 also lies.right, bind,
        Except.bind, pure, Except.pure, List.length_append, Nat.add_assoc]
    · cases ok
  | binary =>
    simp only [encodeValue] at ok
    split at ok
    · split at ok
      · next packed =>
        cases ok
        exact (recovers_binary packed).map (fun value => PropertyItem.scalar (.bytes value)) lies
      · cases ok
    · cases ok

/-! Property tables -/

theorem byName_spec {name : PropertyName} {spec : PropertySpec} (known : byName name = some spec) :
    spec ∈ specs ∧ spec.name = name :=
  ⟨List.mem_of_find?_eq_some known, by simpa using List.find?_some known⟩

theorem find?_distinct {Entry Key : Type} [BEq Key] [LawfulBEq Key] {key : Entry → Key}
    {entries : List Entry} (distinct : (entries.map key).Nodup) {entry : Entry}
    (member : entry ∈ entries) :
    entries.find? (fun other => key other == key entry) = some entry := by
  induction entries with
  | nil => cases member
  | cons head rest ih =>
    simp only [List.map_cons, List.nodup_cons] at distinct
    rcases List.mem_cons.mp member with same | later
    · subst same
      simp
    · have other : key head ≠ key entry := fun same =>
        distinct.1 (same ▸ List.mem_map.mpr ⟨entry, later, rfl⟩)
      simp [other, ih distinct.2 later]

/-- The identifier on the wire leads back to the specification. -/
theorem byId_spec {spec : PropertySpec} (member : spec ∈ specs) : byId spec.id = some spec :=
  @find?_distinct _ _ _ _ PropertySpec.id _ (by decide) _ member

/-- The one property that is single on SUBSCRIBE is an integer. -/
theorem singleton_spec {spec : PropertySpec} (member : spec ∈ specs)
    (single : spec.subscribeSingleton = true) : spec.type = .vbi ∧ spec.multiple = true :=
  (show ∀ spec ∈ specs, spec.subscribeSingleton = true → spec.type = .vbi ∧ spec.multiple = true
    by decide) spec member single

theorem checkValue_ok {raised other : String → Failure} {quoted named : String}
    {spec : PropertySpec} {item : PropertyItem} (ok : checkValue raised quoted spec item = .ok ()) :
    checkValue other named spec item = .ok () := by
  unfold checkValue at ok ⊢
  split at ok
  · cases ok
  · next nonzero =>
    rw [if_neg nonzero]
    split at ok
    · cases ok
    · next bounded =>
      rw [if_neg bounded]
      split at ok
      · next topic =>
        rw [if_pos topic]
        unfold validateResponseTopic at ok ⊢
        split at ok
        · split at ok
          · cases ok
          · next filled =>
            split at ok
            · cases ok
            · next plain => simp [filled, plain]
        · rfl
      · next other => rw [if_neg other]

/-- The values of the property are gathered into a sequence. -/
def PropertySpec.gathers (spec : PropertySpec) (context : PropertyContext) : Prop :=
  spec.multiple = true ∧ ¬ (spec.subscribeSingleton = true ∧ context = .subscribe)

instance (spec : PropertySpec) (context : PropertyContext) : Decidable (spec.gathers context) :=
  inferInstanceAs (Decidable (_ ∧ _))

/-- How many values count against the decoder's budget. -/
def repeatedIn (name : PropertyName) (value : PropertyValue) : Nat :=
  match byName name with
  | some spec => if spec.multiple then (PropertyValue.items value).length else 0
  | none => 0

def repeatedValues (properties : Properties) : Nat := properties.values.sumBy repeatedIn

/-- How an entry reads once it was on the wire: a repeatable property is a sequence, absent
when empty, and the one identifier of a SUBSCRIBE is a scalar. -/
def normalValue (context : PropertyContext) (name : PropertyName) (value : PropertyValue) :
    Option PropertyValue :=
  match byName name with
  | none => some value
  | some spec =>
    if spec.gathers context then
      match value with
      | .scalar single => some (.tuple [.scalar single])
      | .tuple [] => none
      | .tuple items => some (.tuple items)
    else
      match value with
      | .tuple [.scalar single] => some (.scalar single)
      | other => some other

/-- The table with every entry in its normal form. -/
def normalForm (context : PropertyContext) (properties : Properties) : Properties :=
  ⟨properties.values.filterMap (normalValue context)⟩

/-- Where the decoder puts a value. -/
def place (context : PropertyContext) (spec : PropertySpec)
    (seen : Dict PropertyName PropertyValue) (item : PropertyItem) :
    Dict PropertyName PropertyValue :=
  if spec.gathers context then
    seen.insert spec.name (appendItem (seen.get? spec.name) item)
  else seen.insert spec.name (scalarOf item)

section Tables

variable {buffer : Bytes} {stop pos repeated fuel : Nat} {context : PropertyContext}
  {spec : PropertySpec} {seen : Dict PropertyName PropertyValue}

theorem decodeEntries_stop (fuel : Nat) :
    decodeEntries buffer stop context fuel stop repeated seen = .ok (seen, stop) := by
  cases fuel <;> simp [decodeEntries]

/-- One round of the loop takes one value. -/
theorem decodeEntries_next {item : PropertyItem} {data : Bytes} {quoted : String}
    (listed : spec ∈ specs) (legal : context ∈ spec.packets)
    (checked : checkValue .protocol quoted spec item = .ok ())
    (encoded : encodeValue spec.type item = .ok data)
    (lies : LiesAt (spec.id :: data) buffer pos) (inside : pos < stop)
    (budget : repeated + spec.multiple.toNat ≤ maxRepeatableProperties)
    (fresh : spec.gathers context ∨ seen.contains spec.name = false) :
    decodeEntries buffer stop context (fuel + 1) pos repeated seen =
      decodeEntries buffer stop context fuel (pos + (data.length + 1))
        (repeated + spec.multiple.toNat) (place context spec seen item) := by
  have read := recovers_value encoded lies.tail
  rw [decodeEntries, if_neg (by omega)]
  simp only [lies.head, byId_spec listed]
  rw [if_neg (by simpa using legal), if_neg (by
    rintro ⟨several, spent⟩
    simp only [several, Bool.toNat_true] at budget
    omega)]
  simp only [read, checkValue_ok checked, bind, Except.bind, place,
    show pos + 1 + data.length = pos + (data.length + 1) by omega]
  by_cases several : spec.multiple = true
  · by_cases single : spec.subscribeSingleton = true ∧ context = .subscribe
    · have gathers : ¬ spec.gathers context := fun gathers => gathers.2 single
      have absent := fresh.resolve_left gathers
      rw [if_pos several, if_pos single, if_neg (by simp [absent]), if_neg gathers, several]
      rfl
    · have gathers : spec.gathers context := ⟨several, single⟩
      simp only [several, single, gathers, ↓reduceIte, Bool.toNat_true]
  · have gathers : ¬ spec.gathers context := fun gathers => several gathers.1
    have absent := fresh.resolve_left gathers
    simp [several, absent, gathers]

theorem place_gathered {items before : List PropertyItem} (gathers : spec.gathers context)
    (present : seen.get? spec.name = some (.tuple before)) :
    items.foldl (place context spec) seen = seen.insert spec.name (.tuple (before ++ items)) := by
  induction items generalizing seen before with
  | nil => simp [Dict.insert_of_get? present]
  | cons item rest ih =>
    have placed : place context spec seen item =
        seen.insert spec.name (.tuple (before ++ [item])) := by
      simp [place, gathers, present, appendItem, PropertyValue.items]
    rw [List.foldl_cons, placed, ih (Dict.get?_insert_self ..), Dict.insert_insert,
      List.append_assoc, List.singleton_append]

/-- The loop gathers the values of a repeatable property. -/
theorem decodeEntries_gather {items : List PropertyItem} {body : Bytes}
    (listed : spec ∈ specs) (legal : context ∈ spec.packets) (gathers : spec.gathers context)
    (encoded : encodeItems spec items = .ok body) (lies : LiesAt body buffer pos)
    (inside : pos + body.length ≤ stop)
    (budget : repeated + items.length ≤ maxRepeatableProperties) :
    items.length ≤ body.length ∧
      decodeEntries buffer stop context (items.length + fuel) pos repeated seen =
        decodeEntries buffer stop context fuel (pos + body.length) (repeated + items.length)
          (items.foldl (place context spec) seen) := by
  induction items generalizing body pos repeated seen with
  | nil =>
    cases encoded
    simp
  | cons item rest ih =>
    obtain ⟨_, checked, encoded⟩ := except_bind_ok.mp encoded
    obtain ⟨data, first, encoded⟩ := except_bind_ok.mp encoded
    obtain ⟨tail, later, encoded⟩ := except_bind_ok.mp encoded
    cases encoded
    simp only [List.length_cons, List.length_append] at inside budget ⊢
    have weight : spec.multiple.toNat = 1 := by simp [gathers.1]
    have behind := lies.right
    simp only [List.length_cons] at behind
    obtain ⟨short, decoded⟩ := @ih (pos + (data.length + 1)) (repeated + 1)
      (place context spec seen item) tail later behind (by omega) (by omega)
    refine ⟨by omega, ?_⟩
    rw [show rest.length + 1 + fuel = rest.length + fuel + 1 by omega,
      decodeEntries_next listed legal checked first lies.left (by omega) (by omega)
        (.inl gathers), weight, decoded, List.foldl_cons]
    congr 1 <;> omega

theorem valuesOf_items {value : PropertyValue} {items : List PropertyItem}
    (ok : valuesOf spec context value = .ok items) : items = PropertyValue.items value := by
  unfold valuesOf at ok
  split at ok
  · cases ok
    rfl
  · split at ok
    · split at ok
      · cases ok
      · cases ok
        rfl
    · cases ok

/-- A property that is not gathered has one value. -/
theorem valuesOf_single {name : PropertyName} {value : PropertyValue} {items : List PropertyItem}
    {body : Bytes} (known : byName name = some spec) (single : ¬ spec.gathers context)
    (ok : valuesOf spec context value = .ok items) (encoded : encodeItems spec items = .ok body) :
    ∃ scalar, items = [.scalar scalar] ∧ normalValue context name value = some (.scalar scalar) := by
  cases value with
  | scalar scalar =>
    cases ok
    exact ⟨scalar, rfl, by simp [normalValue, known, single]⟩
  | tuple members =>
    unfold valuesOf at ok
    simp only at ok
    split at ok
    · next several =>
      have special : spec.subscribeSingleton = true ∧ context = .subscribe := by
        by_contra other
        exact single ⟨several, other⟩
      split at ok
      · cases ok
      · next one =>
        cases ok
        have length : items.length = 1 := by
          by_contra other
          exact one ⟨special.1, special.2, other⟩
        obtain ⟨item, rfl⟩ := List.length_eq_one_iff.mp length
        obtain ⟨_, _, rest⟩ := except_bind_ok.mp encoded
        obtain ⟨data, packed, _⟩ := except_bind_ok.mp rest
        rw [(singleton_spec (byName_spec known).1 special.1).1] at packed
        obtain ⟨value, fits, _⟩ := except_bind_ok.mp packed
        obtain ⟨rfl, _⟩ := boundedInt_ok fits
        exact ⟨_, rfl, by simp [normalValue, known, single]⟩
    · cases ok

/-- The table after one more entry. -/
def recorded (context : PropertyContext) (seen : Dict PropertyName PropertyValue)
    (name : PropertyName) (value : PropertyValue) : Dict PropertyName PropertyValue :=
  match normalValue context name value with
  | none => seen
  | some normal => seen.insert name normal

/-- The entry of a table in normal form. -/
def normalEntry (context : PropertyContext) (entry : PropertyName × PropertyValue) :
    Option (PropertyName × PropertyValue) :=
  (normalValue context entry.1 entry.2).map fun value => (entry.1, value)

theorem recorded_entries {name : PropertyName} {value : PropertyValue}
    (absent : seen.get? name = none) :
    (recorded context seen name value).entries =
      seen.entries ++ (normalEntry context (name, value)).toList := by
  unfold recorded normalEntry
  cases normalValue context name value with
  | none => simp
  | some normal => simp [Dict.entries_insert_of_not_mem normal (Dict.get?_eq_none_iff.mp absent)]

theorem recorded_apart {name : PropertyName} {value : PropertyValue}
    {rest : List (PropertyName × PropertyValue)} (distinct : name ∉ rest.map Prod.fst)
    (apart : ∀ entry ∈ rest, seen.get? entry.1 = none) :
    ∀ entry ∈ rest, (recorded context seen name value).get? entry.1 = none := by
  intro entry member
  have different : entry.1 ≠ name := fun same =>
    distinct (same ▸ List.mem_map.mpr ⟨entry, member, rfl⟩)
  unfold recorded
  cases normalValue context name value with
  | none => exact apart entry member
  | some normal =>
    rw [Dict.get?_insert_of_ne _ different]
    exact apart entry member

/-- The values of a repeatable property make one sequence, or none. -/
theorem place_values {name : PropertyName} {value : PropertyValue}
    (known : byName name = some spec) (gathers : spec.gathers context)
    (absent : seen.get? name = none) :
    (PropertyValue.items value).foldl (place context spec) seen =
      recorded context seen name value := by
  have named := (byName_spec known).2
  unfold recorded
  cases listed : PropertyValue.items value with
  | nil =>
    cases value with
    | scalar scalar => cases listed
    | tuple members =>
      cases listed
      simp [normalValue, known, gathers]
  | cons item rest =>
    have normal : normalValue context name value = some (.tuple (item :: rest)) := by
      cases value with
      | scalar scalar =>
        cases listed
        simp [normalValue, known, gathers]
      | tuple members =>
        cases listed
        simp [normalValue, known, gathers]
    have placed : place context spec seen item = seen.insert name (.tuple [item]) := by
      simp [place, gathers, named, absent, appendItem]
    rw [List.foldl_cons, placed, place_gathered gathers (by rw [named, Dict.get?_insert_self]),
      normal, named, Dict.insert_insert, List.singleton_append]

/-- The loop takes back one entry of the table. -/
theorem decodeEntries_entry {name : PropertyName} {value : PropertyValue}
    {items : List PropertyItem} {body : Bytes} (known : byName name = some spec)
    (legal : context ∈ spec.packets) (listed : valuesOf spec context value = .ok items)
    (encoded : encodeItems spec items = .ok body) (lies : LiesAt body buffer pos)
    (inside : pos + body.length ≤ stop)
    (budget : repeated + repeatedIn name value ≤ maxRepeatableProperties)
    (absent : seen.get? name = none) :
    items.length ≤ body.length ∧
      decodeEntries buffer stop context (items.length + fuel) pos repeated seen =
        decodeEntries buffer stop context fuel (pos + body.length)
          (repeated + repeatedIn name value) (recorded context seen name value) := by
  obtain ⟨member, named⟩ := byName_spec known
  by_cases gathers : spec.gathers context
  · have weight : repeatedIn name value = items.length := by
      simp [repeatedIn, known, gathers.1, valuesOf_items listed]
    rw [weight] at budget ⊢
    obtain ⟨short, decoded⟩ := decodeEntries_gather member legal gathers encoded lies inside budget
    rw [decoded, valuesOf_items listed, place_values known gathers absent]
    exact ⟨valuesOf_items listed ▸ short, rfl⟩
  · have weight : repeatedIn name value = spec.multiple.toNat * items.length := by
      cases several : spec.multiple <;> simp [repeatedIn, known, several, valuesOf_items listed]
    obtain ⟨scalar, rfl, normal⟩ := valuesOf_single known gathers listed encoded
    obtain ⟨_, checked, encoded⟩ := except_bind_ok.mp encoded
    obtain ⟨data, first, encoded⟩ := except_bind_ok.mp encoded
    obtain ⟨tail, later, encoded⟩ := except_bind_ok.mp encoded
    cases later
    cases encoded
    simp only [List.length_singleton, Nat.mul_one] at weight
    rw [weight] at budget ⊢
    simp only [List.append_nil] at lies inside ⊢
    simp only [List.length_cons] at inside ⊢
    have fresh : seen.contains spec.name = false := by simp [Dict.contains, named, absent]
    refine ⟨by simp, ?_⟩
    rw [List.length_nil, Nat.zero_add, Nat.add_comm 1, decodeEntries_next member legal checked first
      lies (by omega) budget (.inr fresh), recorded, normal]
    simp [place, gathers, scalarOf, named]

/-- The loop takes back a whole table. -/
theorem decodeEntries_encoded {entries : List (PropertyName × PropertyValue)} {body : Bytes}
    (encoded : encodeEntries context entries = .ok body) (lies : LiesAt body buffer pos)
    (whole : pos + body.length = stop) (fueled : body.length ≤ fuel)
    (nodup : (entries.map Prod.fst).Nodup) (apart : ∀ entry ∈ entries, seen.get? entry.1 = none)
    (budget : repeated + (entries.map fun entry => repeatedIn entry.1 entry.2).sum ≤
      maxRepeatableProperties) :
    ∃ after, decodeEntries buffer stop context fuel pos repeated seen = .ok (after, stop) ∧
      after.entries = seen.entries ++ entries.filterMap (normalEntry context) := by
  induction entries generalizing pos repeated seen body fuel with
  | nil =>
    cases encoded
    cases whole
    exact ⟨seen, decodeEntries_stop _, by simp⟩
  | cons entry rest ih =>
    obtain ⟨name, value⟩ := entry
    simp only [encodeEntries] at encoded
    split at encoded
    · cases encoded
    next spec known =>
    split at encoded
    · cases encoded
    next legal =>
    obtain ⟨items, listed, encoded⟩ := except_bind_ok.mp encoded
    obtain ⟨first, head, encoded⟩ := except_bind_ok.mp encoded
    obtain ⟨tail, later, encoded⟩ := except_bind_ok.mp encoded
    cases encoded
    simp only [List.map_cons, List.nodup_cons, List.sum_cons, List.length_append] at *
    have absent : seen.get? name = none := apart _ (List.mem_cons_self ..)
    have room : pos + first.length ≤ stop := by omega
    have spend : repeated + repeatedIn name value ≤ maxRepeatableProperties := by omega
    obtain ⟨short, decoded⟩ := @decodeEntries_entry buffer stop pos repeated
      (fuel - items.length) context spec seen _ _ _ _ known (by simpa using legal) listed head
      lies.left room spend absent
    rw [show items.length + (fuel - items.length) = fuel by omega] at decoded
    have enough : tail.length ≤ fuel - items.length := by omega
    have left : repeated + repeatedIn name value +
        (rest.map fun entry => repeatedIn entry.1 entry.2).sum ≤ maxRepeatableProperties := by omega
    rw [decoded]
    obtain ⟨after, finished, same⟩ := ih later lies.right (by omega) enough nodup.2
      (recorded_apart nodup.1 fun entry member => apart entry (List.mem_cons_of_mem _ member)) left
    refine ⟨after, finished, ?_⟩
    rw [same, recorded_entries absent, List.append_assoc, List.filterMap_cons]
    cases normalEntry context (name, value) <;> rfl

end Tables

theorem encodeVbi_zero {data : Bytes} (ok : encodeVbi 0 = .ok data) : data = [0] := by
  simp only [encodeVbi, maxVbi, vbiDigits] at ok
  cases ok
  rfl

theorem encodeVbi_positive {value : Nat} {data : Bytes} (ok : encodeVbi value = .ok data)
    (positive : value ≠ 0) : ∃ first rest, data = first :: rest ∧ first ≠ 0 := by
  unfold encodeVbi at ok
  split at ok
  · cases ok
  · cases ok
    rw [vbiDigits]
    split
    · refine ⟨_, _, rfl, fun zero => ?_⟩
      have := congrArg UInt8.toNat zero
      simp only [toNat_byte, UInt8.toNat_zero] at this
      omega
    · refine ⟨_, _, rfl, fun zero => ?_⟩
      have := congrArg UInt8.toNat zero
      simp only [toNat_byte, UInt8.toNat_zero] at this
      omega

/-- Behind its length, a table is what the loop makes of its body. -/
theorem decodeProperties_body {buffer body length : Bytes} {offset : Nat}
    (sized : encodeVbi body.length = .ok length) (filled : body.length ≠ 0)
    (lies : LiesAt (length ++ body) buffer offset) (context : PropertyContext) :
    decodeProperties buffer offset context = (do
      let (seen, last) ← decodeEntries buffer (offset + length.length + body.length) context
        body.length (offset + length.length) 0 .empty
      if last ≠ offset + length.length + body.length then
        .error (.malformedPacket "Properties length does not match consumed bytes")
      else .ok (⟨seen⟩, offset + length.length + body.length)) := by
  obtain ⟨first, rest, shape, nonzero⟩ := encodeVbi_positive sized filled
  have head := lies.left
  rw [shape] at head
  have here := head.within
  have bound := lies.right.bound
  simp only [decodeProperties]
  rw [if_neg (by omega), head.head, if_neg nonzero]
  simp only [recovers_vbi sized lies.left, bind, Except.bind]
  rw [if_neg (by omega)]

theorem recovers_properties {properties : Option Properties} {context : PropertyContext}
    {encoded : Bytes} (ok : encodeProperties properties context = .ok encoded)
    (budget : repeatedValues (properties.getD .empty) ≤ maxRepeatableProperties) :
    Recovers (fun buffer offset => decodeProperties buffer offset context) encoded
      (normalForm context (properties.getD .empty)) := by
  intro buffer offset lies
  have blank (zero : encoded = [0]) :
      decodeProperties buffer offset context = .ok (.empty, offset + encoded.length) := by
    subst zero
    have here := lies.within
    rw [decodeProperties, if_neg (by omega), lies.head, if_pos rfl]
    rfl
  cases properties with
  | none =>
    cases ok
    exact blank rfl
  | some table =>
    simp only [Option.getD_some] at budget ⊢
    simp only [encodeProperties] at ok
    split at ok
    · next empty =>
      cases ok
      have none : normalForm context table = .empty := by
        have entries : table.values.entries = [] := by simpa [Properties.isEmpty, Dict.isEmpty] using empty
        simp [normalForm, Properties.empty, Dict.filterMap, Dict.empty, entries]
      rw [none]
      exact blank rfl
    · obtain ⟨body, encoded, ok⟩ := except_bind_ok.mp ok
      obtain ⟨length, sized, ok⟩ := except_bind_ok.mp ok
      cases ok
      have small : 0 + (table.values.entries.map fun entry => repeatedIn entry.1 entry.2).sum ≤
          maxRepeatableProperties := by rwa [Nat.zero_add]
      have apart : ∀ entry ∈ table.values.entries,
          (Dict.empty : Dict PropertyName PropertyValue).get? entry.1 = Option.none :=
        fun _ _ => rfl
      obtain ⟨after, finished, same⟩ := decodeEntries_encoded encoded lies.right rfl (Nat.le_refl _)
        table.values.nodup apart small
      have normal : (⟨after⟩ : Properties) = normalForm context table :=
        congrArg Properties.mk (Dict.ext_entries same)
      by_cases empty : body.length = 0
      · have nothing : body = [] := List.eq_nil_of_length_eq_zero empty
        subst nothing
        have zero := encodeVbi_zero sized
        subst zero
        simp only [List.length_nil, Nat.add_zero, decodeEntries_stop] at finished
        cases finished
        rw [← normal]
        exact blank rfl
      · rw [decodeProperties_body sized empty lies, finished, List.length_append, ← Nat.add_assoc,
          ← normal]
        simp [bind, Except.bind]

/-- The error of a table that holds more values than the decoder takes. -/
def overBudget : Failure :=
  .protocol s!"Repeated MQTT 5 properties exceed the {maxRepeatableProperties}-value decode budget"

section Budget

variable {buffer : Bytes} {stop pos repeated fuel : Nat} {context : PropertyContext}
  {spec : PropertySpec} {seen : Dict PropertyName PropertyValue}

/-- The loop stops at the first value over the budget. -/
theorem decodeEntries_spent {data : Bytes} (listed : spec ∈ specs)
    (legal : context ∈ spec.packets) (several : spec.multiple = true)
    (lies : LiesAt (spec.id :: data) buffer pos) (inside : pos < stop)
    (spent : maxRepeatableProperties < repeated + 1) :
    decodeEntries buffer stop context (fuel + 1) pos repeated seen = .error overBudget := by
  rw [decodeEntries, if_neg (by omega)]
  simp only [lies.head, byId_spec listed]
  rw [if_neg (by simpa using legal), if_pos ⟨several, spent⟩, overBudget]

theorem decodeEntries_items_over {items : List PropertyItem} {body : Bytes}
    (listed : spec ∈ specs) (legal : context ∈ spec.packets) (several : spec.multiple = true)
    (gathers : spec.gathers context ∨ maxRepeatableProperties < repeated + 1)
    (encoded : encodeItems spec items = .ok body) (lies : LiesAt body buffer pos)
    (inside : pos + body.length ≤ stop) (fueled : body.length ≤ fuel)
    (within : repeated ≤ maxRepeatableProperties)
    (exceeds : maxRepeatableProperties < repeated + items.length) :
    decodeEntries buffer stop context fuel pos repeated seen = .error overBudget := by
  induction items generalizing body pos repeated seen fuel with
  | nil => simp only [List.length_nil] at exceeds; omega
  | cons item rest ih =>
    obtain ⟨_, checked, encoded⟩ := except_bind_ok.mp encoded
    obtain ⟨data, first, encoded⟩ := except_bind_ok.mp encoded
    obtain ⟨tail, later, encoded⟩ := except_bind_ok.mp encoded
    cases encoded
    simp only [List.length_cons, List.length_append] at inside fueled exceeds
    obtain ⟨fuel, rfl⟩ : ∃ less, fuel = less + 1 := ⟨fuel - 1, by omega⟩
    by_cases spent : maxRepeatableProperties < repeated + 1
    · exact decodeEntries_spent listed legal several lies.left (by omega) spent
    · have weight : spec.multiple.toNat = 1 := by simp [several]
      have gathered := gathers.resolve_right spent
      have behind := lies.right
      simp only [List.length_cons] at behind
      rw [decodeEntries_next listed legal checked first lies.left (by omega) (by omega)
        (.inl gathered), weight]
      exact ih (.inl gathered) later behind (by omega) (by omega) (by omega) (by omega)

theorem decodeEntries_over {entries : List (PropertyName × PropertyValue)} {body : Bytes}
    (encoded : encodeEntries context entries = .ok body) (lies : LiesAt body buffer pos)
    (whole : pos + body.length = stop) (fueled : body.length ≤ fuel)
    (nodup : (entries.map Prod.fst).Nodup) (apart : ∀ entry ∈ entries, seen.get? entry.1 = none)
    (within : repeated ≤ maxRepeatableProperties)
    (exceeds : maxRepeatableProperties <
      repeated + (entries.map fun entry => repeatedIn entry.1 entry.2).sum) :
    decodeEntries buffer stop context fuel pos repeated seen = .error overBudget := by
  induction entries generalizing pos repeated seen body fuel with
  | nil => simp only [List.map_nil, List.sum_nil] at exceeds; omega
  | cons entry rest ih =>
    obtain ⟨name, value⟩ := entry
    simp only [encodeEntries] at encoded
    split at encoded
    · cases encoded
    next spec known =>
    split at encoded
    · cases encoded
    next legal =>
    obtain ⟨items, listed, encoded⟩ := except_bind_ok.mp encoded
    obtain ⟨first, head, encoded⟩ := except_bind_ok.mp encoded
    obtain ⟨tail, later, encoded⟩ := except_bind_ok.mp encoded
    cases encoded
    simp only [List.map_cons, List.nodup_cons, List.sum_cons, List.length_append] at *
    have absent : seen.get? name = none := apart _ (List.mem_cons_self ..)
    have room : pos + first.length ≤ stop := by omega
    by_cases spend : repeated + repeatedIn name value ≤ maxRepeatableProperties
    · obtain ⟨short, decoded⟩ := @decodeEntries_entry buffer stop pos repeated
        (fuel - items.length) context spec seen _ _ _ _ known (by simpa using legal) listed head
        lies.left room spend absent
      rw [show items.length + (fuel - items.length) = fuel by omega] at decoded
      have enough : tail.length ≤ fuel - items.length := by omega
      have more : maxRepeatableProperties < repeated + repeatedIn name value +
          (rest.map fun entry => repeatedIn entry.1 entry.2).sum := by omega
      rw [decoded]
      exact ih later lies.right (by omega) enough nodup.2 (recorded_apart nodup.1 fun entry member =>
        apart entry (List.mem_cons_of_mem _ member)) spend more
    · have several : spec.multiple = true := by
        by_contra single
        simp only [repeatedIn, known, single, ↓reduceIte] at spend
        omega
      have count : repeatedIn name value = items.length := by
        simp [repeatedIn, known, several, valuesOf_items listed]
      refine decodeEntries_items_over (byName_spec known).1 (by simpa using legal) several ?_ head
        lies.left room (by omega) within (by omega)
      by_cases gathers : spec.gathers context
      · exact .inl gathers
      · obtain ⟨scalar, rfl, _⟩ := valuesOf_single known gathers listed head
        rw [List.length_singleton] at count
        exact .inr (by omega)

end Budget

/-- Beyond the decoder's budget a table is encoded, but not read. -/
theorem decodeProperties_over {table : Properties} {context : PropertyContext}
    {encoded : Bytes} (ok : encodeProperties (some table) context = .ok encoded)
    (exceeds : maxRepeatableProperties < repeatedValues table) {buffer : Bytes} {offset : Nat}
    (lies : LiesAt encoded buffer offset) :
    decodeProperties buffer offset context = .error overBudget := by
  have values : maxRepeatableProperties <
      0 + (table.values.entries.map fun entry => repeatedIn entry.1 entry.2).sum := by
    rwa [Nat.zero_add]
  simp only [encodeProperties] at ok
  split at ok
  · next empty =>
    have entries : table.values.entries = [] := by
      simpa [Properties.isEmpty, Dict.isEmpty] using empty
    simp [entries] at values
  · obtain ⟨body, encoded, ok⟩ := except_bind_ok.mp ok
    obtain ⟨length, sized, ok⟩ := except_bind_ok.mp ok
    cases ok
    have apart : ∀ entry ∈ table.values.entries,
        (Dict.empty : Dict PropertyName PropertyValue).get? entry.1 = Option.none :=
      fun _ _ => rfl
    have refused := decodeEntries_over encoded lies.right rfl (Nat.le_refl _) table.values.nodup
      apart (Nat.zero_le _) values
    have filled : body.length ≠ 0 := by
      intro empty
      have nothing : body = [] := List.eq_nil_of_length_eq_zero empty
      subst nothing
      simp only [List.length_nil, Nat.add_zero, decodeEntries_stop] at refused
      cases refused
    rw [decodeProperties_body sized filled lies, refused]
    rfl

/-- Decoding undoes encoding, whatever stands before and behind the table. -/
theorem properties_round_trip {properties : Option Properties} {context : PropertyContext}
    {encoded : Bytes} (ok : encodeProperties properties context = .ok encoded)
    (budget : repeatedValues (properties.getD .empty) ≤ maxRepeatableProperties)
    (before suffix : Bytes) :
    decodeProperties (before ++ encoded ++ suffix) before.length context =
      .ok (normalForm context (properties.getD .empty), before.length + encoded.length) :=
  recovers_properties ok budget (LiesAt.here encoded before suffix)

/-- An identifier given alone is read back as a sequence; no user properties, as none. -/
theorem properties_round_trip_publish :
    let table : Properties := ⟨⟨[(.userProperty, .tuple []), (.topicAlias, .scalar (.int 300)),
      (.subscriptionIdentifier, .scalar (.int 200))], by decide⟩⟩
    encodeProperties (some table) .publish = .ok [6, 35, 1, 44, 11, 200, 1] ∧
    decodeProperties [48, 6, 35, 1, 44, 11, 200, 1, 255] 1 .publish =
      .ok (⟨⟨[(.topicAlias, .scalar (.int 300)),
        (.subscriptionIdentifier, .tuple [.scalar (.int 200)])], by decide⟩⟩, 8) := by
  intro table
  have ok : encodeProperties (some table) .publish = .ok [6, 35, 1, 44, 11, 200, 1] := rfl
  exact ⟨ok, properties_round_trip ok (by decide) [48] [255]⟩

end Mqttium.Codec
