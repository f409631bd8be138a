import Mqttium.Packets.Control
import Mqttium.Packets.ConnectGrammar

/-! What the encoder of CONNECT writes, the grammar reads: every field is read back from
its encoding, and the packet is read back from the fields one after another. -/

namespace Mqttium.Packets.Grammar

open Codec Library Reader

/-! Primitive fields -/

theorem reads_octet (octet : UInt8) : Reads readOctet [octet] octet.toNat :=
  (Reads.next octet).yield

theorem reads_byte {value : Nat} (small : value < 256) : Reads readOctet [byte value] value := by
  have reads := reads_octet (byte value)
  rwa [toNat_byte_small small] at reads

theorem reads_u16 {value : Nat} {data : Bytes} (ok : packU16 value = .ok data) :
    Reads readU16 data value := by
  unfold packU16 at ok
  split at ok
  · next small =>
    cases ok
    have whole : value / 256 * 256 + value % 256 = value := by omega
    rw [show [byte (value / 256), byte (value % 256)] =
      [byte (value / 256)] ++ [byte (value % 256)] from rfl]
    exact (reads_byte (by omega)).bind ((reads_byte (by omega)).yields whole)
  · cases ok

theorem reads_u32 {value : Nat} {data : Bytes} (ok : packU32 value = .ok data) :
    Reads readU32 data value := by
  unfold packU32 at ok
  split at ok
  · next small =>
    cases ok
    have high : packU16 (value / 65536) = .ok [byte (value / 16777216), byte (value / 65536 % 256)] := by
      rw [packU16, if_pos (by omega), Nat.div_div_eq_div_mul]
    have low : packU16 (value % 65536) = .ok [byte (value / 256 % 256), byte (value % 256)] := by
      rw [packU16, if_pos (by omega), show value % 65536 / 256 = value / 256 % 256 by omega,
        show value % 65536 % 256 = value % 256 by omega]
    have whole : value / 65536 * 65536 + value % 65536 = value := by omega
    exact (reads_u16 high).bind ((reads_u16 low).yields whole)
  · cases ok

/-- The digits of a number, from the second on. -/
theorem reads_vbiRest {left value : Nat} (positive : value ≠ 0) (small : value < 128 ^ left) :
    Reads (readVbiRest left) (vbiDigits left value) value := by
  induction left generalizing value with
  | zero =>
    rw [pow_zero] at small
    omega
  | succ left ih =>
    rw [vbiDigits, readVbiRest]
    split
    · next last =>
      have digit : value % 128 = value := by omega
      rw [digit, show [byte value] = [byte value] ++ [] from rfl]
      refine (reads_byte (by omega)).bind ?_
      rw [if_pos (by omega)]
      exact (Reads.check positive).step (.pure value)
    · next continued =>
      have quotient : value / 128 < 128 ^ left := by
        rw [pow_succ] at small
        omega
      have whole : value % 128 + 128 - 128 + 128 * (value / 128) = value := by omega
      rw [show byte (value % 128 + 128) :: vbiDigits left (value / 128) =
        [byte (value % 128 + 128)] ++ vbiDigits left (value / 128) from rfl]
      refine (reads_byte (by omega)).bind ?_
      rw [if_neg (by omega)]
      exact (ih continued quotient).yields whole

theorem reads_vbi {value : Nat} {data : Bytes} (ok : encodeVbi value = .ok data) :
    Reads readVbi data value := by
  unfold encodeVbi at ok
  split at ok
  · cases ok
  · next small =>
    cases ok
    unfold maxVbi at small
    rw [vbiDigits, readVbi]
    split
    · next single =>
      have digit : value % 128 = value := by omega
      rw [digit, show [byte value] = [byte value] ++ [] from rfl]
      refine (reads_byte (by omega)).bind ?_
      rw [if_pos (by omega)]
      exact .pure value
    · next continued =>
      have whole : value % 128 + 128 - 128 + 128 * (value / 128) = value := by omega
      rw [show byte (value % 128 + 128) :: vbiDigits 3 (value / 128) =
        [byte (value % 128 + 128)] ++ vbiDigits 3 (value / 128) from rfl]
      refine (reads_byte (by omega)).bind ?_
      rw [if_neg (by omega)]
      exact (reads_vbiRest continued (by omega)).yields whole

theorem reads_sized {data length : Bytes} (sized : packU16 data.length = .ok length) :
    Reads readBinary (length ++ data) data :=
  (reads_u16 sized).bind (.take data)

theorem reads_binary {value data : Bytes} (ok : packBinary value = .ok data) :
    Reads readBinary data value := by
  unfold packBinary at ok
  split at ok
  · cases ok
  · obtain ⟨length, sized, ok⟩ := except_bind_ok.mp ok
    cases ok
    exact reads_sized sized

theorem reads_text {text : Text} {data : Bytes} (ok : packUtf8 text = .ok data) :
    Reads readText data text := by
  obtain ⟨body, encoded, ok⟩ := except_bind_ok.mp ok
  obtain ⟨length, sized, ok⟩ := except_bind_ok.mp ok
  cases ok
  rw [← List.append_nil (length ++ body)]
  refine (reads_sized sized).bind ?_
  simp only [decodeUtf8_encodeUtf8 (encodeUtf8_ok encoded).1]
  exact (Reads.check (encodeUtf8_plain encoded)).step (.pure text)

theorem reads_item {type : PropType} {item : PropertyItem} {data : Bytes}
    (ok : encodeValue type item = .ok data) : Reads (readItem type) data item := by
  cases type with
  | byte =>
    obtain ⟨value, fits, packed⟩ := except_bind_ok.mp ok
    obtain ⟨rfl, small⟩ := boundedInt_ok fits
    cases packed
    exact (reads_byte (by omega)).yield
  | u16 =>
    obtain ⟨value, fits, packed⟩ := except_bind_ok.mp ok
    obtain ⟨rfl, _⟩ := boundedInt_ok fits
    exact (reads_u16 packed).yield
  | u32 =>
    obtain ⟨value, fits, packed⟩ := except_bind_ok.mp ok
    obtain ⟨rfl, _⟩ := boundedInt_ok fits
    exact (reads_u32 packed).yield
  | vbi =>
    obtain ⟨value, fits, packed⟩ := except_bind_ok.mp ok
    obtain ⟨rfl, _⟩ := boundedInt_ok fits
    exact (reads_vbi packed).yield
  | string =>
    simp only [encodeValue] at ok
    split at ok
    · exact (reads_text ok).yield
    · cases ok
  | stringPair =>
    simp only [encodeValue] at ok
    split at ok
    · obtain ⟨first, key, more⟩ := except_bind_ok.mp ok
      obtain ⟨second, value, both⟩ := except_bind_ok.mp more
      cases both
      obtain ⟨name, rfl, packed⟩ := packText_ok key
      obtain ⟨text, rfl, also⟩ := packText_ok value
      exact (reads_text packed).bind (reads_text also).yield
    · cases ok
  | binary =>
    simp only [encodeValue] at ok
    split at ok
    · split at ok
      · next packed =>
        cases ok
        exact (reads_binary packed).yield
      · cases ok
    · cases ok

/-! Property tables -/

/-- The grammar knows the properties that the encoder writes in this context, by a
one-byte identifier, and only user properties repeat. -/
def Describes (known : Known) (context : PropertyContext) : Prop :=
  ∀ spec ∈ specs, context ∈ spec.packets → known spec.id.toNat = some (spec.name, spec.type) ∧
    spec.id.toNat < 128 ∧ (spec.multiple = true → spec.name = .userProperty)

theorem describes_connect : Describes connectProperty .connect := by
  unfold Describes
  decide

theorem describes_will : Describes willProperty .will := by
  unfold Describes
  decide

theorem switches_zeroOne : ∀ spec ∈ specs, spec.name ∈ switches → spec.zeroOne = true := by decide

theorem limits_nonzero : ∀ spec ∈ specs, spec.name ∈ limits → spec.nonzero = true := by decide

theorem responseTopic_topicValue :
    ∀ spec ∈ specs, spec.name = .responseTopic → spec.topicValue = true := by decide

theorem legalTopic_validated {raised : String → Failure} {item : PropertyItem}
    (validated : validateResponseTopic raised item = .ok ()) : legalTopic item = true := by
  unfold validateResponseTopic at validated
  split at validated
  · split at validated
    · cases validated
    · next filled =>
      split at validated
      · cases validated
      · next plain => simp [legalTopic, isTopicName, filled, plain]
  · next other =>
    unfold legalTopic
    split
    · next topic => exact absurd rfl (other topic)
    · rfl

/-- What the encoder lets through is legal. -/
theorem legalValue_checked {raised : String → Failure} {quoted : String} {spec : PropertySpec}
    {item : PropertyItem} (listed : spec ∈ specs)
    (checked : checkValue raised quoted spec item = .ok ()) :
    legalValue spec.name item = true := by
  unfold checkValue at checked
  split at checked
  · cases checked
  next nonzero =>
  split at checked
  · cases checked
  next bounded =>
  have switch : spec.name ∈ switches → isInt 0 item = true ∨ isInt 1 item = true := by
    intro member
    by_contra outside
    exact bounded ⟨switches_zeroOne spec listed member, outside⟩
  have limit : spec.name ∈ limits → isInt 0 item = false := by
    intro member
    by_contra zero
    exact nonzero ⟨limits_nonzero spec listed member, by simpa using zero⟩
  have topic : spec.name = .responseTopic → legalTopic item = true := by
    intro named
    rw [if_pos (responseTopic_topicValue spec listed named)] at checked
    exact legalTopic_validated checked
  unfold legalValue
  simp only [Bool.and_eq_true, Bool.or_eq_true, decide_eq_true_eq, Bool.not_eq_true', ne_eq]
  refine ⟨⟨?_, ?_⟩, ?_⟩
  · by_cases member : spec.name ∈ switches
    · rcases switch member with zero | one
      · exact .inl (.inr zero)
      · exact .inr one
    · exact .inl (.inl member)
  · by_cases member : spec.name ∈ limits
    · exact .inr (limit member)
    · exact .inl member
  · by_cases named : spec.name = .responseTopic
    · exact .inr (topic named)
    · exact .inl named

section Tables

variable {known : Known} {context : PropertyContext}

theorem reads_property {spec : PropertySpec} {item : PropertyItem} {data : Bytes} {quoted : String}
    (describes : Describes known context) (listed : spec ∈ specs) (legal : context ∈ spec.packets)
    (checked : checkValue .protocol quoted spec item = .ok ())
    (encoded : encodeValue spec.type item = .ok data) :
    Reads (readProperty known) (spec.id :: data) (spec.name, item) := by
  obtain ⟨found, single, _⟩ := describes spec listed legal
  have identifier : encodeVbi spec.id.toNat = .ok [spec.id] := by
    have digits : vbiDigits 4 spec.id.toNat = [byte spec.id.toNat] := by
      rw [vbiDigits, if_pos (by omega), Nat.mod_eq_of_lt single]
    rw [encodeVbi, if_neg (by unfold maxVbi; omega), digits]
    simp [byte]
  rw [show spec.id :: data = [spec.id] ++ data from rfl]
  refine (reads_vbi identifier).bind ?_
  simp only [found]
  rw [← List.append_nil data]
  refine (reads_item encoded).bind ?_
  exact (Reads.check (legalValue_checked listed checked)).step (.pure _)

/-- The properties of a table, one for every value. -/
def listed (entries : List (PropertyName × PropertyValue)) : Listing :=
  entries.flatMap fun entry => (PropertyValue.items entry.2).map fun item => (entry.1, item)

/-- The bytes of a table fall into one part for every value. -/
structure Parted (known : Known) (body : Bytes) (listing : Listing) : Prop where
  parts : ∃ parts : List (Bytes × (PropertyName × PropertyItem)),
    parts.flatMap Prod.fst = body ∧ parts.map Prod.snd = listing ∧
      ∀ part ∈ parts, Reads (readProperty known) part.1 part.2 ∧ part.1 ≠ []

theorem Parted.append {body more : Bytes} {listing further : Listing}
    (first : Parted known body listing) (second : Parted known more further) :
    Parted known (body ++ more) (listing ++ further) := by
  obtain ⟨parts, rfl, rfl, each⟩ := first.parts
  obtain ⟨others, rfl, rfl, also⟩ := second.parts
  refine ⟨parts ++ others, by simp, by simp, ?_⟩
  intro part member
  rcases List.mem_append.mp member with here | there
  · exact each part here
  · exact also part there

theorem parted_items {spec : PropertySpec} {items : List PropertyItem} {body : Bytes}
    (describes : Describes known context) (member : spec ∈ specs) (legal : context ∈ spec.packets)
    (encoded : encodeItems spec items = .ok body) :
    Parted known body (items.map fun item => (spec.name, item)) := by
  induction items generalizing body with
  | nil =>
    cases encoded
    exact ⟨[], rfl, rfl, fun _ none => nomatch none⟩
  | cons item rest ih =>
    obtain ⟨_, checked, encoded⟩ := except_bind_ok.mp encoded
    obtain ⟨data, first, encoded⟩ := except_bind_ok.mp encoded
    obtain ⟨tail, later, encoded⟩ := except_bind_ok.mp encoded
    cases encoded
    have reads := reads_property describes member legal checked first
    have head : Parted known (spec.id :: data) [(spec.name, item)] :=
      ⟨[(spec.id :: data, (spec.name, item))], by simp, rfl, by simpa using reads⟩
    exact head.append (ih later)

/-- One entry of a table that encodes. -/
theorem encodeEntries_cons {name : PropertyName} {value : PropertyValue}
    {rest : List (PropertyName × PropertyValue)} {body : Bytes}
    (encoded : encodeEntries context ((name, value) :: rest) = .ok body) :
    ∃ spec first tail, byName name = some spec ∧ context ∈ spec.packets ∧
      valuesOf spec context value = .ok (PropertyValue.items value) ∧
      encodeItems spec (PropertyValue.items value) = .ok first ∧
      encodeEntries context rest = .ok tail ∧ body = first ++ tail := by
  simp only [encodeEntries] at encoded
  split at encoded
  · cases encoded
  next spec known =>
  split at encoded
  · cases encoded
  next legal =>
  obtain ⟨items, values, encoded⟩ := except_bind_ok.mp encoded
  obtain ⟨first, head, encoded⟩ := except_bind_ok.mp encoded
  obtain ⟨tail, later, encoded⟩ := except_bind_ok.mp encoded
  cases encoded
  have same := valuesOf_items values
  subst same
  exact ⟨spec, first, tail, known, by simpa using legal, values, head, later, rfl⟩

theorem parted_entries {entries : List (PropertyName × PropertyValue)} {body : Bytes}
    (describes : Describes known context) (encoded : encodeEntries context entries = .ok body) :
    Parted known body (listed entries) := by
  induction entries generalizing body with
  | nil =>
    cases encoded
    exact ⟨[], rfl, rfl, fun _ none => nomatch none⟩
  | cons entry rest ih =>
    obtain ⟨name, value⟩ := entry
    obtain ⟨spec, first, tail, named, legal, _, head, later, rfl⟩ := encodeEntries_cons encoded
    obtain ⟨member, rfl⟩ := byName_spec named
    exact (parted_items describes member legal head).append (ih later)

/-- A property that does not repeat has one value. -/
theorem items_single {value : PropertyValue} {spec : PropertySpec} {items : List PropertyItem}
    (values : valuesOf spec context value = .ok items)
    (single : spec.multiple = false) : ∃ scalar, value = .scalar scalar := by
  cases value with
  | scalar scalar => exact ⟨scalar, rfl⟩
  | tuple members => simp [valuesOf, single] at values

theorem singles_entries {entries : List (PropertyName × PropertyValue)} {body : Bytes}
    (describes : Describes known context) (encoded : encodeEntries context entries = .ok body) :
    (singles (listed entries)).Sublist (entries.map Prod.fst) := by
  induction entries generalizing body with
  | nil => exact .slnil
  | cons entry rest ih =>
    obtain ⟨name, value⟩ := entry
    obtain ⟨spec, first, tail, named, legal, values, _, later, _⟩ := encodeEntries_cons encoded
    obtain ⟨member, same⟩ := byName_spec named
    have parts : singles (listed ((name, value) :: rest)) =
        singles ((PropertyValue.items value).map fun item => (name, item)) ++
          singles (listed rest) := by
      simp [singles, listed]
    rw [parts, List.map_cons]
    by_cases user : name = .userProperty
    · have none : singles ((PropertyValue.items value).map fun item => (name, item)) = [] := by
        simp [singles, user]
      rw [none]
      exact (ih later).cons _
    · have single : spec.multiple = false := by
        by_contra several
        exact user (same ▸ (describes spec member legal).2.2 (by simpa using several))
      obtain ⟨scalar, rfl⟩ := items_single values single
      have one : singles ((PropertyValue.items (.scalar scalar)).map fun item => (name, item)) =
          [name] := by
        simp [singles, PropertyValue.items, user]
      rw [one]
      exact (ih later).cons_cons _

/-- The listing of a table that may be absent. -/
def listing (properties : Option Properties) : Listing :=
  listed ((properties.getD .empty).values.entries)

theorem reads_properties {properties : Option Properties} {data : Bytes}
    (describes : Describes known context) (ok : encodeProperties properties context = .ok data) :
    Reads (readProperties known) data (listing properties) := by
  have blank : encodeEntries context [] = .ok [] := rfl
  obtain ⟨body, length, encoded, sized, rfl⟩ : ∃ body length,
      encodeEntries context ((properties.getD .empty).values.entries) = .ok body ∧
        encodeVbi body.length = .ok length ∧ data = length ++ body := by
    cases properties with
    | none =>
      cases ok
      exact ⟨[], [0], rfl, rfl, rfl⟩
    | some table =>
      simp only [encodeProperties] at ok
      split at ok
      · next empty =>
        cases ok
        have entries : table.values.entries = [] := by
          simpa [Properties.isEmpty, Dict.isEmpty] using empty
        exact ⟨[], [0], by simp [entries, blank], rfl, rfl⟩
      · obtain ⟨body, encoded, ok⟩ := except_bind_ok.mp ok
        obtain ⟨length, sized, ok⟩ := except_bind_ok.mp ok
        cases ok
        exact ⟨body, length, encoded, sized, rfl⟩
  obtain ⟨parts, bytes, values, each⟩ := (parted_entries describes encoded).parts
  have whole := Reads.many each
  rw [bytes, values] at whole
  have once : (singles (listed ((properties.getD .empty).values.entries))).Nodup :=
    (singles_entries describes encoded).nodup (properties.getD .empty).values.nodup
  exact (reads_vbi sized).bind ((Reads.block whole).checked once)

theorem listing_none {properties : Option Properties} (none : hasProperties properties = false) :
    listing properties = [] := by
  cases properties with
  | none => rfl
  | some table =>
    have entries : table.values.entries = [] := by
      simpa [hasProperties, Properties.isEmpty, Dict.isEmpty] using none
    simp [listing, listed, entries]

theorem reads_table {protocol : ProtocolVersion} {properties : Option Properties} {data : Bytes}
    (describes : Describes known context)
    (before : protocol ≠ .mqttv5 → hasProperties properties = false)
    (ok : (if protocol = .mqttv5 then encodeProperties properties context else .ok []) = .ok data) :
    Reads (readTable protocol known) data (listing properties) := by
  unfold readTable
  split at ok
  · next five =>
    rw [if_pos five]
    exact reads_properties describes ok
  · next other =>
    cases ok
    rw [if_neg other, listing_none (before other)]
    exact .pure []

/-- A name in the listing is a key of the table, and its value is on the wire. -/
theorem listing_key {properties : Option Properties} {name : PropertyName} {item : PropertyItem}
    (member : (name, item) ∈ listing properties) : ∃ table value, properties = some table ∧
      table.values.get? name = some value ∧ item ∈ PropertyValue.items value := by
  cases properties with
  | none => cases member
  | some table =>
    obtain ⟨⟨key, value⟩, entry, member⟩ := List.mem_flatMap.mp member
    obtain ⟨_, among, same⟩ := List.mem_map.mp member
    cases same
    exact ⟨table, value, rfl, Dict.get?_eq_some_iff.mpr entry, among⟩

/-- A property with one value that is present is in the listing. -/
theorem key_listing {table : Properties} {name : PropertyName} {value : PropertyValue}
    {spec : PropertySpec} {data : Bytes} (ok : encodeProperties (some table) context = .ok data)
    (named : byName name = some spec) (single : spec.multiple = false)
    (present : table.values.get? name = some value) :
    ∃ scalar, value = .scalar scalar ∧ (name, .scalar scalar) ∈ listing (some table) ∧
      ∃ encoded, encodeValue spec.type (.scalar scalar) = .ok encoded := by
  have entry := Dict.get?_eq_some_iff.mp present
  obtain ⟨other, known, items, values, each⟩ := encodeProperties_member ok entry
  obtain rfl : other = spec := Option.some_inj.mp (known.symm.trans named)
  obtain ⟨scalar, rfl⟩ := items_single values single
  refine ⟨scalar, rfl, List.mem_flatMap.mpr ⟨_, entry, by simp [PropertyValue.items]⟩, ?_⟩
  have same := valuesOf_items values
  subst same
  exact each _ (List.mem_singleton.mpr rfl)

end Tables

end Mqttium.Packets.Grammar
