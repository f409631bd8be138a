import Mqttium.Decoding.Outcomes
import Mqttium.Receiving.Commands

/-! Topic aliases of the inbound direction. The topic of a PUBLISH is the one MQTT gives
it over the PUBLISHes that were received on the connection. -/

namespace Mqttium

open Codec Library Packets Persistence Protocol Inbound

/-! What MQTT makes of an alias -/

/-- A PUBLISH as far as its topic goes. -/
structure Naming where
  topic : Text
  number : Option Int
  deriving DecidableEq, Repr

namespace Naming

/-- The alias is one of those the connection allows. -/
def Admits (maximum : Nat) (number : Int) : Prop := 0 < number ∧ number ≤ maximum

instance (maximum : Nat) (number : Int) : Decidable (Admits maximum number) :=
  inferInstanceAs (Decidable (_ ∧ _))

/-- The topic that a PUBLISH puts under an alias. -/
def names (maximum : Nat) (number : Int) (naming : Naming) : Option Text :=
  if naming.number = some number ∧ Admits maximum number ∧ naming.topic ≠ [] then some naming.topic
  else none

/-- What an alias stands for: the topic that was put under it last. -/
def standing (maximum : Nat) (heard : List Naming) (number : Int) : Option Text :=
  heard.reverse.findSome? (names maximum number)

/-- The topic of a PUBLISH, unless MQTT takes it for an error. -/
def meaning (maximum : Nat) (heard : List Naming) (naming : Naming) : Option Text :=
  match naming.number with
  | none => if naming.topic = [] then none else some naming.topic
  | some number =>
    if Admits maximum number then
      if naming.topic = [] then standing maximum heard number else some naming.topic
    else none

variable {maximum : Nat} {heard : List Naming} {naming : Naming} {number : Int} {topic : Text}

theorem standing_concat (maximum : Nat) (heard : List Naming) (naming : Naming) (number : Int) :
    standing maximum (heard ++ [naming]) number =
      (names maximum number naming).or (standing maximum heard number) := by
  rw [standing, List.reverse_append, List.reverse_singleton, List.singleton_append,
    List.findSome?_cons]
  cases names maximum number naming with
  | none => rfl
  | some topic => rfl

theorem standing_topic (stands : standing maximum heard number = some topic) :
    topic ≠ [] ∧ ∃ naming ∈ heard, naming.topic = topic := by
  obtain ⟨naming, member, named⟩ := List.exists_of_findSome?_eq_some stands
  rw [List.mem_reverse] at member
  unfold names at named
  split at named
  · next puts =>
    cases named
    exact ⟨puts.2.2, naming, member, rfl⟩
  · cases named

/-- The topic is not empty, and some PUBLISH of the connection carried it. -/
theorem meaning_topic (means : meaning maximum heard naming = some topic) :
    topic ≠ [] ∧ ∃ carrier ∈ heard ++ [naming], carrier.topic = topic := by
  have own : naming ∈ heard ++ [naming] := by simp
  unfold meaning at means
  split at means
  · split at means
    · cases means
    · next given =>
      cases means
      exact ⟨given, naming, own, rfl⟩
  · split at means
    · split at means
      · obtain ⟨given, carrier, member, carries⟩ := standing_topic means
        exact ⟨given, carrier, List.mem_append_left _ member, carries⟩
      · next given =>
        cases means
        exact ⟨given, naming, own, rfl⟩
    · cases means

end Naming

/-- The table carries no alias. -/
def Aliasless (properties : Option Properties) : Prop :=
  properties.bind (·.get .topicAlias) = none

theorem aliasless_stripped (properties : Option Properties) :
    Aliasless (propertiesWithoutTopicAlias properties) := by
  cases properties with
  | none => rfl
  | some table =>
    by_cases plain : table.get .topicAlias = none
    · simp [Aliasless, propertiesWithoutTopicAlias, plain]
    · have stripped : propertiesWithoutTopicAlias (some table) =
          some ⟨table.values.erase .topicAlias⟩ := if_neg plain
      simp [Aliasless, stripped, Properties.get]

def namingOf (topic : Text) (properties : Option Properties) : Naming where
  topic := topic
  number := properties.bind (·.int? .topicAlias)

/-- The topic and the alias of an MQTT 5 PUBLISH that can be read. -/
def Packets.RawPacket.naming? (raw : RawPacket) : Option Naming :=
  if raw.qosBits = 0 then
    (decodeQos0MessageV5 raw).toOption.map fun decoded =>
      namingOf decoded.1.topic decoded.1.properties
  else if raw.qosBits = 3 then none
  else (decodePublishFieldsV5 raw).toOption.map fun fields => namingOf fields.topic fields.properties

/-! Resolving -/

section

variable {engine : Engine} {topic : Text} {properties : Option Properties}

/-- What the engine knows an alias to stand for. -/
def Protocol.Engine.known (engine : Engine) (number : Int) : Option Text :=
  engine.inbound.aliases.get? number.toNat

/-- The engine knows the aliases as MQTT has them after `heard`. -/
def Attuned (heard : List Naming) (engine : Engine) : Prop :=
  ∀ number, Naming.Admits engine.inbound.topicAliasMaximum number →
    engine.known number = Naming.standing engine.inbound.topicAliasMaximum heard number

/-- A PUBLISH was refused: the connection is over, and nothing is stored or delivered. -/
structure Refused (before after : Engine) : Prop extends Parts before after where
  past : after.state = .disconnected

/-- Both codes that refuse a topic can be announced. -/
theorem sat_goodbye {reasonCode : Nat} (code : reasonCode = 0x82 ∨ reasonCode = 0x94)
    (v5 : engine.isV5 = true) :
    Sat (protocolDisconnect reasonCode) engine (fun _ after => Refused engine after)
      fun _ _ => False := by
  have announced : Sat (protocolDisconnect reasonCode) engine
      (fun _ after => after.state = .disconnected) fun _ _ => False := by
    have codec : engine.codec.encodeDisconnect = encodeDisconnectV5 := by
      unfold Engine.isV5 Engine.codec at *
      cases protocol : engine.config.protocol with
      | mqttv5 => rfl
      | mqttv311 =>
        rw [protocol] at v5
        cases v5
    have encoded : ∃ frame, encodeDisconnectV5 reasonCode none = .ok frame := by
      rcases code with rfl | rfl
      · exact ⟨_, rfl⟩
      · exact ⟨_, rfl⟩
    obtain ⟨frame, encoded⟩ := encoded
    simp only [protocolDisconnect, sat_bind, sat_get]
    refine Sat.mono (?_ : Sat _ engine (fun _ _ => True) fun _ _ => False) ?_
      fun _ _ impossible => impossible
    · -- A peer limit that forbids the packet is caught; it raises nothing else.
      simp only [checkOutboundSize, send, codec, encoded, sat_onlyIf, sat_bind, sat_fromExcept_ok,
        sat_tryCatch, sat_get]
      refine ⟨fun _ => ?_, fun _ => trivial⟩
      cases engine.negotiated.maximumPacketSize with
      | none => simp
      | some limit => simp
    · intro _ between _
      simp only [enterDisconnected, sat_modify]
      apply sat_releasePendingSubscriptionRequests
      intro pool subs
      rw [sat_emit]
  apply ((parts_protocolDisconnect engine reasonCode).and announced).mono
  · rintro _ after ⟨parts, past⟩
    exact ⟨parts, past⟩
  · rintro _ _ ⟨_, impossible⟩
    exact impossible

/-- The engine after a PUBLISH put its topic under its alias, if it did. -/
def Protocol.Engine.hearing (engine : Engine) (naming : Naming) : Engine :=
  match naming.number with
  | none => engine
  | some number =>
    if Naming.Admits engine.inbound.topicAliasMaximum number ∧ naming.topic ≠ [] then
      engine.aliased (engine.inbound.aliases.insert number.toNat naming.topic)
    else engine

theorem Protocol.Engine.hearing_puts {naming : Naming} {number : Int}
    (given : naming.number = some number)
    (admits : Naming.Admits engine.inbound.topicAliasMaximum number) (named : naming.topic ≠ []) :
    engine.hearing naming =
      engine.aliased (engine.inbound.aliases.insert number.toNat naming.topic) := by
  simp only [Engine.hearing, given]
  exact if_pos ⟨admits, named⟩

theorem Protocol.Engine.hearing_silent {naming : Naming}
    (silent : ∀ number, naming.number = some number →
      ¬ (Naming.Admits engine.inbound.topicAliasMaximum number ∧ naming.topic ≠ [])) :
    engine.hearing naming = engine := by
  unfold Engine.hearing
  cases given : naming.number with
  | none => rfl
  | some number => exact if_neg (silent number given)

theorem Protocol.Engine.hearing_maximum (engine : Engine) (naming : Naming) :
    (engine.hearing naming).inbound.topicAliasMaximum = engine.inbound.topicAliasMaximum := by
  unfold Engine.hearing
  split
  · rfl
  · split <;> rfl

variable {heard : List Naming}

theorem Attuned.hearing (attuned : Attuned heard engine) (naming : Naming) :
    Attuned (heard ++ [naming]) (engine.hearing naming) := by
  intro number admits
  rw [engine.hearing_maximum] at admits ⊢
  rw [Naming.standing_concat]
  have same := attuned number admits
  by_cases puts : ∃ other, naming.number = some other ∧
      Naming.Admits engine.inbound.topicAliasMaximum other ∧ naming.topic ≠ []
  · obtain ⟨other, given, admitted, named⟩ := puts
    rw [Engine.hearing_puts given admitted named]
    change (engine.inbound.aliases.insert other.toNat naming.topic).get? number.toNat = _
    by_cases equal : other = number
    · subst equal
      simp [Naming.names, given, admitted, named]
    · have apart : number.toNat ≠ other.toNat := by
        unfold Naming.Admits at admitted admits
        omega
      have elsewhere : Naming.names engine.inbound.topicAliasMaximum number naming = none :=
        if_neg fun puts => equal (Option.some.inj (given.symm.trans puts.1))
      rw [Dict.get?_insert_of_ne _ apart, elsewhere]
      exact same
  · have silent : Naming.names engine.inbound.topicAliasMaximum number naming = none :=
      if_neg fun named => puts ⟨number, named⟩
    rw [Engine.hearing_silent fun other given named => puts ⟨other, given, named⟩, silent]
    exact same

theorem sat_refusing {Value : Type} {reasonCode : Nat} (code : reasonCode = 0x82 ∨ reasonCode = 0x94)
    (v5 : engine.isV5 = true) (message : String) {returned : Value → Engine → Prop} :
    Sat (do protocolDisconnect reasonCode; throw (.protocol message) : EngineM Value) engine returned
      fun failure after => isPeerError failure = true ∧ Refused engine after := by
  rw [sat_bind]
  apply (sat_goodbye code v5).mono
  · exact fun _ _ refused => ⟨rfl, refused⟩
  · exact fun _ _ impossible => impossible.elim

/-- The topic of a PUBLISH is resolved as MQTT has it, or the connection ends. -/
theorem resolveTopicFields_meaning (attuned : Attuned heard engine) (v5 : engine.isV5 = true)
    (natural : ∀ number, (namingOf topic properties).number = some number → 0 ≤ number) :
    Sat (resolveTopicFields topic properties) engine
      (fun resolved after =>
        Naming.meaning engine.inbound.topicAliasMaximum heard (namingOf topic properties) =
          some resolved ∧ after = engine.hearing (namingOf topic properties))
      (fun failure after =>
        Naming.meaning engine.inbound.topicAliasMaximum heard (namingOf topic properties) = none ∧
          isPeerError failure = true ∧ Refused engine after) := by
  set naming := namingOf topic properties with namingEq
  have refuses {reasonCode : Nat} {message : String} (code : reasonCode = 0x82 ∨ reasonCode = 0x94)
      (meaningless : Naming.meaning engine.inbound.topicAliasMaximum heard naming = none) :
      Sat (do protocolDisconnect reasonCode; throw (.protocol message) : EngineM Text) engine
        (fun resolved after =>
          Naming.meaning engine.inbound.topicAliasMaximum heard naming = some resolved ∧
            after = engine.hearing naming)
        (fun failure after =>
          Naming.meaning engine.inbound.topicAliasMaximum heard naming = none ∧
            isPeerError failure = true ∧ Refused engine after) :=
    (sat_refusing code v5 message).mono (fun _ _ returned => returned)
      fun _ _ refused => ⟨meaningless, refused⟩
  have named : naming.topic = topic := rfl
  rw [resolveTopicFields, sat_bind, sat_get]
  cases given : properties.bind (·.int? .topicAlias) with
  | none =>
    have plain : naming.number = none := given
    simp only [sat_ite]
    refine ⟨fun empty => refuses (.inl rfl) ?_, fun some => ⟨?_, ?_⟩⟩
    · simp [Naming.meaning, plain, named, empty]
    · simp [Naming.meaning, plain, named, some]
    · rw [Engine.hearing_silent]
      simp [plain]
  | some number =>
    have plain : naming.number = some number := given
    have positive := natural number plain
    simp only [sat_ite]
    refine ⟨fun invalid => refuses (.inr rfl) ?_, fun valid => ?_⟩
    · have bars : ¬ Naming.Admits engine.inbound.topicAliasMaximum number := by
        unfold Naming.Admits
        omega
      simp [Naming.meaning, plain, bars]
    · have admits : Naming.Admits engine.inbound.topicAliasMaximum number := by
        unfold Naming.Admits
        omega
      refine ⟨fun some => ⟨?_, ?_⟩, fun none => ?_⟩
      · simp [Naming.meaning, plain, named, admits, some]
      · rw [Engine.hearing_puts plain admits some]
        rfl
      · have empty : topic = [] := not_not.mp none
        have stands : Naming.meaning engine.inbound.topicAliasMaximum heard naming =
            engine.inbound.aliases.get? number.toNat := by
          have known := attuned number admits
          simp only [Naming.meaning, plain, named, admits, empty, ↓reduceIte, ← known]
          rfl
        cases found : engine.inbound.aliases.get? number.toNat with
        | none => exact refuses (.inr rfl) (stands.trans found)
        | some known =>
          refine ⟨stands.trans found, ?_⟩
          rw [Engine.hearing_silent]
          exact fun _ _ puts => puts.2 empty

theorem resolveArrival_meaning {wireSize : Nat} (attuned : Attuned heard engine)
    (v5 : engine.isV5 = true)
    (natural : ∀ number, (namingOf topic properties).number = some number → 0 ≤ number) :
    Sat (resolveArrival topic properties wireSize) engine
      (fun resolved after =>
        Naming.meaning engine.inbound.topicAliasMaximum heard (namingOf topic properties) =
          some resolved.1 ∧ Aliasless resolved.2.1 ∧
          after = engine.hearing (namingOf topic properties))
      (fun failure after =>
        Naming.meaning engine.inbound.topicAliasMaximum heard (namingOf topic properties) = none ∧
          isPeerError failure = true ∧ Refused engine after) := by
  rw [resolveArrival, sat_ite]
  refine ⟨fun _ => ?_, fun plain => ?_⟩
  · rw [sat_bind]
    apply (resolveTopicFields_meaning attuned v5 natural).mono
    · rintro _ _ ⟨means, heard⟩
      exact ⟨means, aliasless_stripped properties, heard⟩
    · exact fun _ _ refused => refused
  · have named : topic ≠ [] := fun empty => plain (.inl empty)
    have bare : Aliasless properties := by
      rw [Aliasless, ← Option.not_isSome_iff_eq_none]
      exact fun given => plain (.inr given)
    have unnumbered : (namingOf topic properties).number = none := by
      unfold namingOf Aliasless at *
      cases properties with
      | none => rfl
      | some table =>
        change table.int? .topicAlias = none
        have absent : table.get .topicAlias = none := bare
        simp [Properties.int?, absent]
    refine ⟨?_, bare, ?_⟩
    · unfold Naming.meaning
      rw [unnumbered]
      exact if_neg named
    · rw [Engine.hearing_silent]
      simp [unnumbered]

end

section

theorem Natural.naming {topic : Text} {table : Properties} (natural : Natural table.values) :
    ∀ number, (namingOf topic (some table)).number = some number → 0 ≤ number := by
  intro number given
  change table.int? .topicAlias = some number at given
  unfold Properties.int? Properties.get at given
  cases found : table.values.get? .topicAlias with
  | none => simp [found] at given
  | some value =>
    cases value with
    | tuple items => simp [found] at given
    | scalar scalar =>
      cases scalar with
      | int value =>
        simp only [found, Option.some.injEq] at given
        exact given ▸ natural _ value found
      | _ => simp [found] at given

end

end Mqttium
