import Mqttium.Codec.Properties
import Mqttium.Persistence.Sqlite

/-! The persisted form of a property table revives to the same table. -/

namespace Mqttium

def PropertyItem.scalars : PropertyItem → List Scalar
  | .scalar value => [value]
  | .tuple parts => parts

def PropertyValue.scalars : PropertyValue → List Scalar
  | .scalar value => [value]
  | .tuple items => items.flatMap PropertyItem.scalars

namespace Persistence

open Library Codec

/-- `json` gives the table's form back, and `base64` its byte strings. -/
structure RoundTrips (codecs : TextCodecs) (table : Properties) : Prop where
  json : codecs.loads (codecs.dumps (jsonSanitize codecs table)) = .ok (jsonSanitize codecs table)
  base64 : ∀ entry ∈ table.values.entries, ∀ bytes, .bytes bytes ∈ entry.2.scalars →
    codecs.b64decode (codecs.b64encode bytes) = .ok bytes

variable {codecs : TextCodecs}

theorem mapM_map_ok {Source Target Result : Type} {change : Source → Target}
    {read : Target → Except Failure Result} {back : Source → Result} {items : List Source}
    (each : ∀ item ∈ items, read (change item) = .ok (back item)) :
    (items.map change).mapM read = .ok (items.map back) := by
  induction items with
  | nil => rfl
  | cons item rest ih =>
    rw [List.map_cons, List.mapM_cons, each item (by simp),
      ih fun other member => each other (List.mem_cons_of_mem _ member)]
    rfl

theorem reviveScalar_sanitize {value : Scalar}
    (base64 : ∀ bytes, .bytes bytes = value →
      codecs.b64decode (codecs.b64encode bytes) = .ok bytes) :
    reviveScalar codecs (sanitizeScalar codecs value) = .ok value := by
  cases value with
  | bytes value => simp [sanitizeScalar, reviveScalar, base64 value rfl]
  | _ => rfl

theorem reviveItem_scalar (value : Scalar) :
    reviveItem codecs (sanitizeScalar codecs value) =
      (reviveScalar codecs (sanitizeScalar codecs value)).map .scalar := by
  cases value <;> rfl

theorem reviveValue_scalar (value : Scalar) :
    reviveValue codecs (sanitizeScalar codecs value) =
      (reviveScalar codecs (sanitizeScalar codecs value)).map .scalar := by
  cases value <;> rfl

theorem reviveItem_sanitize {item : PropertyItem}
    (base64 : ∀ bytes, .bytes bytes ∈ item.scalars →
      codecs.b64decode (codecs.b64encode bytes) = .ok bytes) :
    reviveItem codecs (sanitizeItem codecs item) = .ok item := by
  cases item with
  | scalar value =>
    have revived : reviveScalar codecs (sanitizeScalar codecs value) = .ok value :=
      reviveScalar_sanitize fun bytes same => base64 bytes (by simp [PropertyItem.scalars, same])
    rw [sanitizeItem, reviveItem_scalar, revived]
    rfl
  | tuple parts =>
    have revived : (parts.map (sanitizeScalar codecs)).mapM (reviveScalar codecs) =
        .ok (parts.map id) :=
      mapM_map_ok fun part member =>
        reviveScalar_sanitize fun bytes same => base64 bytes (by simpa [PropertyItem.scalars, same] using member)
    rw [sanitizeItem, reviveItem, revived, List.map_id]
    rfl

theorem reviveValue_sanitize {value : PropertyValue}
    (base64 : ∀ bytes, .bytes bytes ∈ value.scalars →
      codecs.b64decode (codecs.b64encode bytes) = .ok bytes) :
    reviveValue codecs (sanitizeValue codecs value) = .ok value := by
  cases value with
  | scalar value =>
    have revived : reviveScalar codecs (sanitizeScalar codecs value) = .ok value :=
      reviveScalar_sanitize fun bytes same => base64 bytes (by simp [PropertyValue.scalars, same])
    rw [sanitizeValue, reviveValue_scalar, revived]
    rfl
  | tuple items =>
    have revived : (items.map (sanitizeItem codecs)).mapM (reviveItem codecs) =
        .ok (items.map id) :=
      mapM_map_ok fun item member => reviveItem_sanitize fun bytes inside =>
        base64 bytes (List.mem_flatMap.mpr ⟨item, member, inside⟩)
    rw [sanitizeValue, reviveValue, revived, List.map_id]
    rfl

theorem valuesOf_tuple {spec : PropertySpec} {context : PropertyContext}
    {items values : List PropertyItem} (listed : valuesOf spec context (.tuple items) = .ok values) :
    values = items := by
  simp only [valuesOf] at listed
  split at listed
  · split at listed
    · cases listed
    · cases listed
      rfl
  · cases listed

/-- A value that encodes is already in the form `Properties` gives it. -/
theorem frozenValue_of_encodes {name : PropertyName} {value : PropertyValue} {spec : PropertySpec}
    {values : List PropertyItem} (known : byName name = some spec)
    (listed : valuesOf spec .publish value = .ok values)
    (encodes : ∀ item ∈ values, ∃ encoded, encodeValue spec.type item = .ok encoded) :
    frozenValue name value = value := by
  unfold frozenValue
  split
  · rename_i key text
    have pairs : (byName .userProperty).map PropertySpec.type = some .stringPair := by decide
    rw [known] at pairs
    have type : spec.type = .stringPair := Option.some.inj pairs
    obtain ⟨encoded, impossible⟩ := encodes (.scalar (.text key)) (by
      rw [valuesOf_tuple listed]
      exact List.mem_cons_self)
    simp [encodeValue, type] at impossible
  · rfl

theorem byName_other (name : String) : byName (.other name) = none := by
  rfl

theorem reviveMembers_sanitize {entries : List (PropertyName × PropertyValue)}
    {built whole : Dict PropertyName PropertyValue}
    (revives : ∀ entry ∈ entries, reviveValue codecs (sanitizeValue codecs entry.2) = .ok entry.2)
    (frozen : ∀ entry ∈ entries, frozenValue entry.1 entry.2 = entry.2)
    (split : whole.entries = built.entries ++ entries) :
    reviveMembers codecs (entries.map fun entry => (entry.1, sanitizeValue codecs entry.2)) built =
      .ok whole := by
  induction entries generalizing built with
  | nil =>
    rw [List.append_nil] at split
    rw [Dict.ext_entries split]
    rfl
  | cons entry rest ih =>
    have new : entry.1 ∉ built.keys := by
      have nodup := whole.nodup
      rw [split, List.map_append, List.map_cons, List.nodup_append] at nodup
      intro old
      exact nodup.2.2 entry.1 old entry.1 List.mem_cons_self rfl
    rw [List.map_cons, reviveMembers, revives entry List.mem_cons_self]
    simp only [bind, Except.bind]
    rw [frozen entry List.mem_cons_self]
    apply ih
    · exact fun other member => revives other (List.mem_cons_of_mem _ member)
    · exact fun other member => frozen other (List.mem_cons_of_mem _ member)
    · rw [Dict.entries_insert_of_not_mem _ new, split, List.append_assoc]
      rfl

/-- What is stored for a property table reads back as the table; an empty one as none. -/
def Revives (codecs : TextCodecs) (properties : Option Properties) : Prop :=
  propsFromJson codecs (propsToJson codecs properties) = .ok (canonicalProperties properties)

theorem revives_none : Revives codecs none := rfl

theorem revives {properties : Option Properties} {data : Bytes}
    (encodes : encodeProperties properties .publish = .ok data)
    (roundTrips : ∀ table, properties = some table → RoundTrips codecs table) :
    Revives codecs properties := by
  cases properties with
  | none => exact revives_none
  | some table =>
    unfold Revives
    cases empty : table.isEmpty with
    | true => simp [propsToJson, empty, propsFromJson, canonicalProperties, hasProperties]
    | false =>
      have trips := roundTrips table rfl
      have stored : propsToJson codecs (some table) =
          some (codecs.dumps (jsonSanitize codecs table)) := by
        simp [propsToJson, empty]
      have canonical : canonicalProperties (some table) = some table := by
        simp [canonicalProperties, hasProperties, empty]
      have members : reviveMembers codecs (table.values.entries.map fun entry =>
          (entry.1, sanitizeValue codecs entry.2)) .empty = .ok table.values := by
        apply reviveMembers_sanitize
        · exact fun entry member => reviveValue_sanitize (trips.base64 entry member)
        · intro entry member
          obtain ⟨spec, known, values, listed, each⟩ := encodeProperties_member encodes member
          exact frozenValue_of_encodes known listed each
        · rfl
      have unmarked : ∀ entry ∈ table.values.entries, entry.1 ≠ bytesMarker := by
        intro entry member marked
        obtain ⟨spec, known, _⟩ := encodeProperties_member encodes member
        rw [marked, bytesMarker, byName_other] at known
        cases known
      rw [stored, canonical, propsFromJson, trips.json, jsonSanitize]
      match listed : table.values.entries with
      | [] =>
        rw [listed] at members
        simp only [List.map_nil] at members ⊢
        simp [bind, Except.bind, members, pure, Except.pure]
      | [entry] =>
        rw [listed] at members
        have plain := unmarked entry (by simp [listed])
        simp only [List.map_cons, List.map_nil] at members ⊢
        simp [bind, Except.bind, plain, members, pure, Except.pure]
      | entry :: other :: rest =>
        rw [listed] at members
        simp only [List.map_cons] at members ⊢
        simp [bind, Except.bind, members, pure, Except.pure]

end Persistence

end Mqttium
