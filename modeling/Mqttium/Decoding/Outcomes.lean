import Mqttium.Codec.VariableByteInteger
import Mqttium.Packets.General
import Mqttium.Protocol.Engine

/-! What the decoders of a PUBLISH raise is laid to the peer, and the numbers they read are
natural. -/

namespace Mqttium

open Codec Library Packets Protocol

section

variable {buffer : Bytes} {offset : Nat} {failure : Failure}

theorem decodeVbi_refused (failed : decodeVbi buffer offset = .error failure) :
    isPeerError failure = true := by
  have lifted : Vbi.decodeVbi buffer offset none = .error (.failure failure) := by
    have same := @Vbi.decodeVbi_nat buffer offset none (Nat.le_refl _)
    rw [failed] at same
    exact same
  obtain ⟨message, raised⟩ :=
    Vbi.decodeVbi_malformed (Int.natCast_nonneg offset) (Int.le_refl _) lifted
  cases raised
  rfl

theorem unpackU16_refused (failed : unpackU16 buffer offset = .error failure) :
    isPeerError failure = true := by
  rw [unpackU16_error failed]
  rfl

theorem unpackU32_refused (failed : unpackU32 buffer offset = .error failure) :
    isPeerError failure = true := by
  unfold unpackU32 at failed
  split at failed
  · cases failed
    rfl
  · cases failed

theorem unpackUtf8_refused (failed : unpackUtf8 buffer offset = .error failure) :
    isPeerError failure = true := by
  simp only [unpackUtf8] at failed
  split at failed
  · cases failed
    rfl
  · split at failed
    · cases failed
      rfl
    · split at failed
      · cases failed
        rfl
      · split at failed
        · cases failed
          rfl
        · cases failed

theorem unpackBinary_refused (failed : unpackBinary buffer offset = .error failure) :
    isPeerError failure = true := by
  rcases except_bind_error.mp failed with length | ⟨⟨length, pos⟩, -, rest⟩
  · exact unpackU16_refused length
  · simp only at rest
    split at rest
    · cases rest
      rfl
    · cases rest

theorem decodeValue_refused {type : PropType} (failed : decodeValue type buffer offset = .error failure) :
    isPeerError failure = true := by
  cases type with
  | byte =>
    simp only [decodeValue] at failed
    split at failed
    · cases failed
      rfl
    · cases failed
  | u16 =>
    rcases except_bind_error.mp failed with read | ⟨⟨value, pos⟩, -, rest⟩
    · exact unpackU16_refused read
    · cases rest
  | u32 =>
    rcases except_bind_error.mp failed with read | ⟨⟨value, pos⟩, -, rest⟩
    · exact unpackU32_refused read
    · cases rest
  | vbi =>
    rcases except_bind_error.mp failed with read | ⟨⟨value, pos⟩, -, rest⟩
    · exact decodeVbi_refused read
    · cases rest
  | string =>
    rcases except_bind_error.mp failed with read | ⟨⟨value, pos⟩, -, rest⟩
    · exact unpackUtf8_refused read
    · cases rest
  | stringPair =>
    rcases except_bind_error.mp failed with key | ⟨⟨key, middle⟩, -, rest⟩
    · exact unpackUtf8_refused key
    · rcases except_bind_error.mp rest with value | ⟨⟨value, pos⟩, -, rest⟩
      · exact unpackUtf8_refused value
      · cases rest
  | binary =>
    rcases except_bind_error.mp failed with read | ⟨⟨value, pos⟩, -, rest⟩
    · exact unpackBinary_refused read
    · cases rest

theorem checkValue_refused {quoted : String} {spec : PropertySpec} {item : PropertyItem}
    (failed : checkValue .malformedPacket quoted spec item = .error failure) :
    isPeerError failure = true := by
  unfold checkValue at failed
  split at failed
  · cases failed
    rfl
  · split at failed
    · cases failed
      rfl
    · split at failed
      · unfold validateResponseTopic at failed
        split at failed
        · split at failed
          · cases failed
            rfl
          · split at failed
            · cases failed
              rfl
            · cases failed
        · cases failed
      · cases failed

theorem decodeEntries_refused {stop fuel pos repeated : Nat} {context : PropertyContext}
    {seen : Dict PropertyName PropertyValue}
    (failed : decodeEntries buffer stop context fuel pos repeated seen = .error failure) :
    isPeerError failure = true := by
  induction fuel generalizing pos repeated seen with
  | zero => cases failed
  | succ fuel ih =>
    rw [decodeEntries] at failed
    split at failed
    · cases failed
    · cases known : byId (buffer.getD pos 0) with
      | none =>
        simp only [known] at failed
        cases failed
        rfl
      | some spec =>
        simp only [known] at failed
        split at failed
        · cases failed
          rfl
        · split at failed
          · cases failed
            rfl
          · rcases except_bind_error.mp failed with value | ⟨⟨item, next⟩, -, rest⟩
            · exact decodeValue_refused value
            · rcases except_bind_error.mp rest with checked | ⟨-, -, rest⟩
              · exact checkValue_refused checked
              · split at rest
                · split at rest
                  · split at rest
                    · cases rest
                      rfl
                    · exact ih rest
                  · exact ih rest
                · split at rest
                  · cases rest
                    rfl
                  · exact ih rest

theorem decodeProperties_refused {context : PropertyContext}
    (failed : decodeProperties buffer offset context = .error failure) :
    isPeerError failure = true := by
  unfold decodeProperties at failed
  split at failed
  · cases failed
    rfl
  · split at failed
    · cases failed
    · rcases except_bind_error.mp failed with size | ⟨⟨length, pos⟩, -, rest⟩
      · exact decodeVbi_refused size
      · simp only at rest
        split at rest
        · cases rest
          rfl
        · rcases except_bind_error.mp rest with entries | ⟨⟨seen, last⟩, -, rest⟩
          · exact decodeEntries_refused entries
          · simp only at rest
            split at rest
            · cases rest
              rfl
            · cases rest

end

section

variable {raw : RawPacket} {failure : Failure}

theorem validateReceivedPublishTopic_refused {topic : Text}
    (failed : validateReceivedPublishTopic topic = .error failure) : isPeerError failure = true := by
  rw [validateReceivedPublishTopic_error failed]
  rfl

theorem decodeQos0MessageV5_refused (failed : decodeQos0MessageV5 raw = .error failure) :
    isPeerError failure = true := by
  unfold decodeQos0MessageV5 at failed
  split at failed
  · cases failed
    rfl
  · rcases except_bind_error.mp failed with topic | ⟨⟨topic, tablePos⟩, -, rest⟩
    · exact unpackUtf8_refused topic
    · rcases except_bind_error.mp rest with table | ⟨⟨properties, pos⟩, -, rest⟩
      · exact decodeProperties_refused table
      · rcases except_bind_error.mp rest with valid | ⟨-, -, rest⟩
        · exact validateReceivedPublishTopic_refused valid
        · cases rest

theorem decodePublishFieldsV5_refused (failed : decodePublishFieldsV5 raw = .error failure) :
    isPeerError failure = true := by
  rcases except_bind_error.mp failed with topic | ⟨⟨topic, midPos⟩, -, rest⟩
  · exact unpackUtf8_refused topic
  · rcases except_bind_error.mp rest with mid | ⟨⟨mid, tablePos⟩, -, rest⟩
    · exact unpackU16_refused mid
    · rcases except_bind_error.mp rest with nonzero | ⟨-, -, rest⟩
      · rw [requireNonzeroMid_error nonzero]
        rfl
      · rcases except_bind_error.mp rest with table | ⟨⟨properties, pos⟩, -, rest⟩
        · exact decodeProperties_refused table
        · rcases except_bind_error.mp rest with valid | ⟨-, -, rest⟩
          · exact validateReceivedPublishTopic_refused valid
          · cases rest

end

/-! Numbers -/

section

variable {buffer : Bytes} {offset next : Nat}

/-- A number read from the wire is not negative. -/
theorem decodeValue_natural {type : PropType} {number : Int}
    (ok : decodeValue type buffer offset = .ok (.scalar (.int number), next)) : 0 ≤ number := by
  cases type with
  | byte =>
    simp only [decodeValue] at ok
    split at ok
    · cases ok
    · cases ok
      exact Int.natCast_nonneg _
  | string =>
    obtain ⟨_, -, ok⟩ := except_bind_ok.mp ok
    cases ok
  | binary =>
    obtain ⟨_, -, ok⟩ := except_bind_ok.mp ok
    cases ok
  | stringPair =>
    obtain ⟨_, -, ok⟩ := except_bind_ok.mp ok
    obtain ⟨_, -, ok⟩ := except_bind_ok.mp ok
    cases ok
  | _ =>
    obtain ⟨_, -, ok⟩ := except_bind_ok.mp ok
    cases ok
    exact Int.natCast_nonneg _

/-- Every number of a table is one that was read from the wire. -/
def Natural (seen : Dict PropertyName PropertyValue) : Prop :=
  ∀ name number, seen.get? name = some (.scalar (.int number)) → 0 ≤ number

theorem Natural.insert {seen : Dict PropertyName PropertyValue} (natural : Natural seen)
    {name : PropertyName} {value : PropertyValue}
    (fine : ∀ number, value = .scalar (.int number) → 0 ≤ number) :
    Natural (seen.insert name value) := by
  intro other number found
  by_cases same : other = name
  · subst same
    rw [Dict.get?_insert_self] at found
    exact fine number (Option.some.inj found)
  · rw [Dict.get?_insert_of_ne _ same] at found
    exact natural other number found

theorem decodeEntries_natural {stop fuel pos repeated : Nat} {context : PropertyContext}
    {seen result : Dict PropertyName PropertyValue} (natural : Natural seen)
    (ok : decodeEntries buffer stop context fuel pos repeated seen = .ok (result, next)) :
    Natural result := by
  induction fuel generalizing pos repeated seen with
  | zero =>
    cases ok
    exact natural
  | succ fuel ih =>
    rw [decodeEntries] at ok
    split at ok
    · cases ok
      exact natural
    · cases known : byId (buffer.getD pos 0) with
      | none =>
        simp only [known] at ok
        cases ok
      | some spec =>
        simp only [known] at ok
        split at ok
        · cases ok
        · split at ok
          · cases ok
          · obtain ⟨⟨item, last⟩, read, ok⟩ := except_bind_ok.mp ok
            obtain ⟨-, -, ok⟩ := except_bind_ok.mp ok
            have single : ∀ number, scalarOf item = .scalar (.int number) → 0 ≤ number := by
              intro number same
              cases item with
              | scalar value =>
                cases same
                exact decodeValue_natural read
              | tuple parts => cases same
            have several : ∀ number,
                appendItem (seen.get? spec.name) item = .scalar (.int number) → 0 ≤ number := by
              intro number same
              unfold appendItem at same
              split at same <;> cases same
            split at ok
            · split at ok
              · split at ok
                · cases ok
                · exact ih (natural.insert single) ok
              · exact ih (natural.insert several) ok
            · split at ok
              · cases ok
              · exact ih (natural.insert single) ok

theorem decodeProperties_natural {context : PropertyContext} {table : Properties}
    (ok : decodeProperties buffer offset context = .ok (table, next)) : Natural table.values := by
  have empty : Natural .empty := fun _ _ found => by simp at found
  unfold decodeProperties at ok
  split at ok
  · cases ok
  · split at ok
    · cases ok
      exact empty
    · obtain ⟨⟨length, pos⟩, -, ok⟩ := except_bind_ok.mp ok
      simp only at ok
      split at ok
      · cases ok
      · obtain ⟨⟨seen, last⟩, entries, ok⟩ := except_bind_ok.mp ok
        simp only at ok
        split at ok
        · cases ok
        · cases ok
          exact decodeEntries_natural empty entries

end

end Mqttium
