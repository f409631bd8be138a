import Mqttium.Receiving.Heeding

/-! The identities that handed-over messages carry. -/

namespace Mqttium

open Codec Library Packets Persistence Protocol Inbound

/-- The message an effect hands over, with the identity of its exchange. -/
def Protocol.Effect.issue? : Effect → Option (Message × Token)
  | .message content _ (some token) => some (content, token)
  | .decodedMessage content _ _ (some token) => some (content, token)
  | _ => none

/-- The identity is the one the message's identifier has, and in manual acknowledgement the
message carries it. -/
def Protocol.Engine.Current (engine : Engine) (issue : Message × Token) : Prop :=
  (∃ mid, issue.1.mid = some mid ∧ engine.inbound.exchangeTokens.get? mid = some issue.2) ∧
    issue.1.ackToken = if engine.config.manualAck then some issue.2 else none

/-- Where identities are told, none is taken back and each is current; otherwise none is
told. -/
structure Tells (telling : Prop) (before after : Engine) : Prop where
  config : after.config = before.config
  tokens : telling → ∀ {mid token}, before.inbound.exchangeTokens.get? mid = some token →
    after.inbound.exchangeTokens.get? mid = some token
  effects : ∃ added, after.effects = before.effects ++ added ∧
    ∀ effect ∈ added, ∀ issue, effect.issue? = some issue → telling ∧ after.Current issue

/-- Every identity that the call told is current. -/
structure Told (before after : Engine) : Prop where
  config : after.config = before.config
  effects : ∃ added, after.effects = before.effects ++ added ∧
    ∀ effect ∈ added, ∀ issue, effect.issue? = some issue → after.Current issue

section

variable {telling : Prop} {before between after engine : Engine}

theorem Protocol.Engine.Current.keep {issue : Message × Token} (current : before.Current issue)
    (config : after.config = before.config)
    (tokens : ∀ {mid token}, before.inbound.exchangeTokens.get? mid = some token →
      after.inbound.exchangeTokens.get? mid = some token) : after.Current issue := by
  obtain ⟨⟨mid, named, held⟩, bound⟩ := current
  exact ⟨⟨mid, named, tokens held⟩, by rw [config, bound]⟩

instance : IsPreorder Engine (Tells telling) where
  refl _ := ⟨rfl, fun _ => id, [], by simp, by simp⟩
  trans before between after first second := by
    obtain ⟨early, grown, told⟩ := first.effects
    obtain ⟨late, more, tells⟩ := second.effects
    refine ⟨second.config.trans first.config,
      fun speaks => second.tokens speaks ∘ first.tokens speaks, early ++ late,
      by rw [more, grown, List.append_assoc], fun effect member issue issued => ?_⟩
    rcases List.mem_append.mp member with sooner | later
    · obtain ⟨speaks, current⟩ := told effect sooner issue issued
      exact ⟨speaks, current.keep second.config (second.tokens speaks)⟩
    · exact tells effect later issue issued

/-- A step beside the identities. -/
theorem Tells.quiet (config : after.config = before.config)
    (tokens : after.inbound.exchangeTokens = before.inbound.exchangeTokens)
    (effects : ∃ added, after.effects = before.effects ++ added ∧
      ∀ effect ∈ added, effect.issue? = none) : Tells telling before after := by
  obtain ⟨added, grown, silent⟩ := effects
  refine ⟨config, fun _ _ _ held => by rw [tokens, held], added, grown,
    fun effect member issue issued => ?_⟩
  rw [silent effect member] at issued
  cases issued

theorem Tells.silent (config : after.config = before.config)
    (tokens : after.inbound.exchangeTokens = before.inbound.exchangeTokens)
    (effects : after.effects = before.effects) : Tells telling before after :=
  .quiet config tokens ⟨[], by simp [effects], by simp⟩

theorem issue_of_delivery {effect : Effect} (silent : effect.delivery? = none) :
    effect.issue? = none := by
  cases effect with
  | message content marked token => cases silent
  | decodedMessage content marked size token => cases silent
  | _ => rfl

theorem Parts.tells (parts : Parts before after) : Tells telling before after := by
  obtain ⟨added, grown, quiet⟩ := parts.effects
  refine .quiet parts.config (by rw [parts.inbound]) ⟨added, grown, fun effect member => ?_⟩
  have silent := (quiet effect member).1
  cases effect with
  | message content marked token => exact absurd trivial silent
  | decodedMessage content marked size token => exact absurd trivial silent
  | _ => rfl

/-- What delivers nothing tells nothing. -/
theorem Heeds.tells (heeds : Heeds (fun _ => False) (fun _ => False) False before after) :
    Tells False before after := by
  obtain ⟨added, grown, allowed⟩ := heeds.effects
  refine ⟨heeds.config, False.elim, added, grown, fun effect member issue issued => ?_⟩
  cases hands : effect.delivery? with
  | none =>
    rw [issue_of_delivery hands] at issued
    cases issued
  | some message =>
    rcases allowed effect member message hands with replayed | repeated | fresh
    · exact replayed.elim
    · obtain ⟨_, impossible, _⟩ := repeated
      exact impossible.elim
    · exact fresh.1.elim

theorem Library.Within.tells {Value : Type} {program : EngineM Value}
    (heeds : Within (Heeds (fun _ => False) (fun _ => False) False) program) :
    Within (Tells False) program :=
  fun engine => (heeds engine).mono (fun _ _ heeds => heeds.tells) fun _ _ heeds => heeds.tells

theorem tells_emit {effect : Effect} (silent : effect.issue? = none) :
    Within (Tells telling) (emit effect) :=
  fun _ => .quiet rfl rfl ⟨[effect], rfl, by simpa using silent⟩

theorem tells_modifyInbound {change : InboundSession → InboundSession}
    (tokens : ∀ inbound, (change inbound).exchangeTokens = inbound.exchangeTokens) :
    Within (Tells telling) (modifyInbound change) :=
  fun engine => .silent rfl (tokens engine.inbound) rfl

theorem tells_storeCall {Value : Type} {call : StoreCall} {run : Store → Value × Store}
    {holds : Value → Prop} (given : ∀ store, holds (run store).1) :
    Yields holds (Tells telling) (storeCall call run) := by
  refine yields_of_sat fun engine => ?_
  have moves (store : Store) : Tells telling engine { engine with store } := .silent rfl rfl rfl
  simp only [storeCall, sat_bind, sat_get]
  cases engine.store.nextFault call with
  | mk fault store =>
    cases fault with
    | none => exact ⟨given _, moves _⟩
    | some fault =>
      cases fault with
      | beforeEffect => exact moves _
      | afterEffect => exact moves _

theorem tells_storeChange {Value : Type} {call : StoreCall} {run : Store → Value × Store} :
    Within (Tells telling) (storeCall call run) := by
  have yields : Yields (fun _ => True) (Tells telling) (storeCall call run) :=
    tells_storeCall fun _ => trivial
  exact yields.within

theorem tells_storeRead {Value : Type} {call : StoreCall} {read : Store → Value} :
    Within (Tells telling) (storeRead call read) :=
  tells_storeChange

/-! The outbound direction and the connection -/

instance : Standby (Tells telling) where
  remote still inbound _ := by
    obtain ⟨added, grown, remote⟩ := still.quiet.effects
    exact .quiet still.quiet.config (by rw [inbound]) ⟨added, grown, fun effect member =>
      issue_of_delivery (remote_delivery (remote effect member))⟩
  read _ _ := tells_storeRead
  endSubs _ := sat_releasePendingSubscriptionRequests fun _ _ => .silent rfl rfl rfl

instance : Speaking (Tells telling) where
  speak _ := tells_emit rfl

instance : Outward (Tells telling) where
  good := fun _ => True
  facts _ _ later := fun engine => later engine (honest_any engine) engine
  session _ _ := .silent rfl rfl rfl
  store _ caches := tells_storeCall fun store => (caches store (honest_any_store store)).1
  assign _ _ _ := .silent rfl rfl rfl
  subs _ := within_modify fun _ => .silent rfl rfl rfl
  report {effect} reports := by
    cases effect with
    | message content marked token => exact reports.elim
    | decodedMessage content marked size token => exact reports.elim
    | _ => exact tells_emit rfl

instance : Sending (Tells telling) where
  sendable := inferInstanceAs (Sendable fun _ => True)
  send _ := tells_emit rfl

instance : Parting (Tells telling) (Tells telling) where
  goodbye reasonCode engine := (parts_protocolDisconnect engine reasonCode).mono
    (fun _ _ parts => parts.tells) fun _ _ parts => parts.tells

/-! Handing a message over -/

/-- The identity of an exchange is current from then on. -/
theorem sat_exchangeToken_tells (mid : Nat) :
    Sat (exchangeToken mid) engine
      (fun token after => Tells True engine after ∧
        after.inbound.exchangeTokens.get? mid = some token)
      (fun _ _ => False) := by
  simp only [exchangeToken, sat_bind, sat_get]
  cases held : engine.inbound.exchangeTokens.get? mid with
  | some token => exact ⟨Std.Refl.refl engine, held⟩
  | none =>
    simp only [freshToken, sat_bind, sat_get, sat_modifyInbound, sat_pure]
    refine ⟨⟨rfl, fun _ other token known => ?_, [], by simp, by simp⟩, Dict.get?_insert_self _ _ _⟩
    have different : other ≠ mid := by
      rintro rfl
      rw [held] at known
      cases known
    exact (Dict.get?_insert_of_ne _ different).trans known

/-- In manual acknowledgement the message is bound to the identity of the exchange. -/
theorem sat_bindAckToken_tells (mid : Nat) (message : Message) (unbound : message.ackToken = none) :
    Sat (bindAckToken mid message) engine
      (fun bound after => Tells True engine after ∧ bound.mid = message.mid ∧
        (engine.config.manualAck = true → (after.inbound.exchangeTokens.get? mid).isSome) ∧
        bound.ackToken =
          if engine.config.manualAck then after.inbound.exchangeTokens.get? mid else none)
      (fun _ _ => False) := by
  rw [bindAckToken, sat_bind, sat_get, sat_ite]
  refine ⟨fun manual => ?_, fun automatic => ⟨Std.Refl.refl engine, rfl, fun manual => ?_, ?_⟩⟩
  · rw [sat_bind]
    apply (sat_exchangeToken_tells mid).mono
    · rintro token between ⟨tells, held⟩
      exact ⟨tells, rfl, fun _ => by simp [held], by simp [manual, held]⟩
    · exact fun _ _ impossible => impossible
  · exact absurd manual automatic
  · rw [if_neg automatic, unbound]

theorem sat_emitDelivery_tells {message : Message} (marked : Bool) (size : Option Nat)
    {token : Token} (current : engine.Current (message, token)) :
    Sat (emitDelivery message marked size (some token)) engine (fun _ => Tells True engine)
      (fun _ => Tells True engine) := by
  have told {effect : Effect} (issues : effect.issue? = some (message, token)) :
      Tells True engine { engine with effects := engine.effects ++ [effect] } := by
    refine ⟨rfl, fun _ => id, [effect], rfl, fun _ member issue issued => ?_⟩
    rw [List.mem_singleton.mp member, issues] at issued
    cases issued
    exact ⟨trivial, current⟩
  cases size with
  | none => exact told rfl
  | some size => exact told rfl

/-- A message that is bound to the identity of its exchange, and keeps it. -/
theorem current_of_bound {message : Message} {token : Token} {mid : Nat}
    (named : message.mid = some mid) (tells : Tells True between after)
    (present : between.config.manualAck = true → (between.inbound.exchangeTokens.get? mid).isSome)
    (carries : message.ackToken =
      if between.config.manualAck then between.inbound.exchangeTokens.get? mid else none)
    (held : after.inbound.exchangeTokens.get? mid = some token) : after.Current (message, token) := by
  refine ⟨⟨mid, named, held⟩, ?_⟩
  rw [tells.config, carries]
  by_cases manual : between.config.manualAck = true
  · obtain ⟨bound, known⟩ := Option.isSome_iff_exists.mp (present manual)
    have same := (tells.tokens trivial known).symm.trans held
    rw [if_pos manual, if_pos manual, known, same]
  · rw [if_neg manual, if_neg manual]

theorem tells_emitMessage (stored : InboundMessage) (dup : Bool) :
    Within (Tells True) (emitMessage stored dup) := by
  intro engine
  rw [emitMessage, sat_bind]
  apply (sat_bindAckToken_tells stored.mid _ rfl).mono
  · rintro message between ⟨bound, named, present, carries⟩
    rw [← bound.config] at present carries
    rw [sat_bind]
    apply (sat_exchangeToken_tells stored.mid).mono
    · rintro token last ⟨moved, held⟩
      have current : last.Current (message, token) :=
        current_of_bound named moved present carries held
      exact ((sat_emitDelivery_tells true none current).mono (fun _ _ told => told)
        fun _ _ told => told).from (IsTrans.trans _ _ _ bound moved)
    · exact fun _ _ impossible => impossible.elim
  · exact fun _ _ impossible => impossible.elim

/-- The rest of an arrival whose exchange has its identity. -/
theorem sat_surface_tells {arrival : Arrival} (qos : QoS) {token : Token}
    (held : engine.inbound.exchangeTokens.get? arrival.mid = some token) :
    Sat (do
        let message ← bindAckToken arrival.mid (arrival.message qos)
        emitDelivery message true arrival.propertyWireSize (some token)) engine
      (fun _ => Tells True engine) (fun _ => Tells True engine) := by
  rw [sat_bind]
  apply (sat_bindAckToken_tells arrival.mid _ rfl).mono
  · rintro message between ⟨bound, named, present, carries⟩
    rw [← bound.config] at present carries
    have current : between.Current (message, token) :=
      current_of_bound named (Std.Refl.refl between) present carries (bound.tokens trivial held)
    exact ((sat_emitDelivery_tells true _ current).mono (fun _ _ told => told)
      fun _ _ told => told).from bound
  · exact fun _ _ impossible => impossible.elim

/-! Replay -/

theorem tells_nextPage (groups : List (List Nat)) : Within (Tells telling) (nextPage groups) := by
  induction groups with
  | nil => exact within_pure _
  | cons mids rest ih =>
    refine within_bind tells_storeRead fun page => ?_
    cases page with
    | nil => exact ih
    | cons row rows => exact within_pure _

theorem tells_beginPage (cursor : InboundReplayCursor) :
    Within (Tells telling) (beginPage cursor) := by
  refine within_ite (within_pure _) <| within_bind (tells_modifyInbound fun _ => rfl) fun _ =>
    within_bind (tells_nextPage _) fun page => ?_
  cases page with
  | none => exact within_pure _
  | some page => exact within_pure _

theorem tells_replayFor (fuel : Nat) (cursor : InboundReplayCursor) (emitted bytes : Nat) :
    Within (Tells True) (replayFor fuel cursor emitted bytes) := by
  induction fuel generalizing cursor emitted bytes with
  | zero => exact within_pure _
  | succ fuel ih =>
    refine within_ite (within_pure _) ?_
    cases nextPageMessage cursor with
    | mk found rest =>
      cases found with
      | none => exact within_pure _
      | some row =>
        exact within_bind within_get fun _ => within_ite (ih _ _ _) <| within_ite (within_pure _) <|
          within_bind (tells_emitMessage row.message true) fun _ => ih _ _ _

theorem tells_drainReplay : Within (Tells True) drainReplay := by
  refine within_bind within_get fun engine => ?_
  cases engine.inbound.replay with
  | none => exact within_pure _
  | some cursor =>
    have ends : Within (Tells True) endReplay := tells_modifyInbound fun _ => rfl
    refine within_bind (tells_beginPage cursor) fun begun => within_ite ?_ ends
    exact within_bind (tells_replayFor _ _ _ _) fun _ =>
      within_bind (tells_modifyInbound fun _ => rfl) fun _ => within_ite ends (tells_emit rfl)

theorem tells_replaySession : Within (Tells True) Inbound.replaySession :=
  within_bind tells_storeRead fun _ => within_bind (tells_modifyInbound fun _ => rfl) fun _ =>
    within_ite (tells_modifyInbound fun _ => rfl) <| within_bind within_get fun _ =>
    within_bind (tells_modifyInbound fun _ => rfl) fun _ => tells_drainReplay

/-! Exchanges that start -/

/-- A row is stored and has an identity of its own, and nothing is told. -/
theorem sat_admitRow_tells (arrival : Arrival) (qos : QoS) (state : InboundQoSState) :
    Sat (admitRow arrival qos state) engine
      (fun token after => Tells False engine after ∧
        after.inbound.exchangeTokens.get? arrival.mid = some token)
      (fun _ => Tells False engine) := by
  rw [admitRow, sat_bind, sat_get, sat_bind, sat_fromExcept]
  refine ⟨fun size _ => ?_, fun _ _ => Std.Refl.refl engine⟩
  have slots : Within (Tells False) (discard (acquireSlot (some size)) : EngineM PUnit) :=
    within_map (heeds_acquireSlot _).tells
  have stores (stored : InboundMessage) : Within (Tells False) (tryCatch (do
      raiseIf (size = 0) (.value "logical_size must be positive")
      storeCall .putIn fun store => (PUnit.unit, store.putIn stored)) fun failure => do
        releasePendingBytes size
        throw failure) :=
    within_tryCatch (within_bind within_raiseIf fun _ => tells_storeChange) fun _ =>
      within_bind (heeds_releasePendingBytes size).tells fun _ => within_throw _
  rw [sat_bind]
  apply (slots engine).mono
  · intro _ between slot
    rw [sat_bind]
    apply (stores _ between).mono
    · intro _ last stored
      simp only [freshToken, rememberInbound, sat_bind, sat_modifyInbound, sat_get, sat_pure]
      have tells : Tells False engine last := IsTrans.trans _ _ _ slot stored
      exact ⟨IsTrans.trans _ _ _ tells ⟨rfl, False.elim, [], by simp, by simp⟩,
        Dict.get?_insert_self _ _ _⟩
    · exact fun _ _ stored => IsTrans.trans _ _ _ slot stored
  · exact fun _ _ slot => slot

theorem tells_emitDelivery_unnamed (message : Message) (marked : Bool) (size : Option Nat) :
    Within (Tells telling) (emitDelivery message marked size none) := by
  cases size with
  | none => exact tells_emit rfl
  | some size => exact tells_emit rfl

/-- QoS 1 without manual acknowledgement keeps no row and tells no identity. -/
theorem tells_onQos1AutoFresh (arrival : Arrival) :
    Within (Tells False) (onQos1AutoFresh arrival) := by
  have answers (occupied : Nat) (retransmission : Bool) : Within (Tells False) (do
      sendAck (encodePubackSuccess arrival.mid)
      emitDelivery (arrival.message .atLeastOnce) false arrival.propertyWireSize none
      onlyIf (retransmission = false) (modifyInbound fun inbound =>
        { inbound with
          pendingAutoQos1Mids := insert arrival.mid inbound.pendingAutoQos1Mids
          autoackHandoffRequired := inbound.autoackHandoffRequired ||
            decide (inbound.receiveMaximum ≤ occupied) })) :=
    within_bind (tells_emit rfl) fun _ => within_bind (tells_emitDelivery_unnamed _ _ _) fun _ =>
      within_onlyIf (tells_modifyInbound fun _ => rfl)
  refine within_bind within_get fun engine => within_ite (beside_disconnecting _ _) ?_
  by_cases retransmitted : arrival.mid ∈ engine.inbound.pendingAutoQos1Mids
  · simp only [retransmitted, decide_true, ↓reduceIte]
    exact within_bind (within_pure 0) fun occupied => answers occupied _
  · simp only [retransmitted, decide_false, Bool.false_eq_true, ↓reduceIte]
    exact within_bind (heeds_acquireSlot none).tells fun occupied => answers occupied _

theorem tells_onQos1Auto (arrival : Arrival) : Within (Tells False) (onQos1Auto arrival) := by
  refine within_bind (heeds_lookupStoredInbound _).tells fun found => ?_
  cases found with
  | none => exact tells_onQos1AutoFresh arrival
  | some existing =>
    exact within_ite (heeds_completeRecoveredQos1Auto _).tells (beside_disconnecting _ _)

theorem tells_resolveTopicFields (topic : Text) (properties : Option Properties) :
    Within (Tells telling) (resolveTopicFields topic properties) := by
  have refuses {Value : Type} (reasonCode : Nat) (failure : Failure) : Within (Tells telling)
      (do protocolDisconnect reasonCode; throw failure : EngineM Value) :=
    beside_disconnecting _ _
  refine within_bind within_get fun engine => ?_
  cases properties.bind (·.int? .topicAlias) with
  | none => exact within_ite (refuses _ _) (within_pure _)
  | some number =>
    refine within_ite (refuses _ _) <| within_ite
      (within_bind (tells_modifyInbound fun _ => rfl) fun _ => within_pure _) ?_
    cases engine.inbound.aliases.get? number.toNat with
    | some known => exact within_pure _
    | none => exact refuses _ _

theorem tells_resolveArrival (topic : Text) (properties : Option Properties) (wireSize : Nat) :
    Within (Tells telling) (resolveArrival topic properties wireSize) :=
  within_ite (within_bind (tells_resolveTopicFields _ _) fun _ => within_pure _) (within_pure _)

/-! What a call tells -/

/-- The program tells identities that are current at its end. -/
def Voices {Value : Type} (program : EngineM Value) : Prop :=
  ∀ engine, Sat program engine (fun _ => Told engine) fun _ => Told engine

theorem Tells.told (tells : Tells telling before after) : Told before after := by
  obtain ⟨added, grown, told⟩ := tells.effects
  exact ⟨tells.config, added, grown, fun effect member issue issued =>
    (told effect member issue issued).2⟩

/-- What comes before tells nothing. -/
theorem Told.prepend (told : Told between after) (silent : Tells False before between) :
    Told before after := by
  obtain ⟨early, grown, nothing⟩ := silent.effects
  obtain ⟨late, more, current⟩ := told.effects
  refine ⟨told.config.trans silent.config, early ++ late, by rw [more, grown, List.append_assoc],
    fun effect member issue issued => ?_⟩
  rcases List.mem_append.mp member with sooner | later
  · exact (nothing effect sooner issue issued).1.elim
  · exact current effect later issue issued

/-- What comes later keeps the identities. -/
theorem Told.append (told : Told before between) (tells : Tells True between after) :
    Told before after := by
  obtain ⟨early, grown, current⟩ := told.effects
  obtain ⟨late, more, added⟩ := tells.effects
  refine ⟨tells.config.trans told.config, early ++ late, by rw [more, grown, List.append_assoc],
    fun effect member issue issued => ?_⟩
  rcases List.mem_append.mp member with sooner | later
  · exact (current effect sooner issue issued).keep tells.config (tells.tokens trivial)
  · exact (added effect later issue issued).2

section

variable {Value Result : Type} {program : EngineM Value} {next : Value → EngineM Result}

theorem Library.Within.voices (tells : Within (Tells telling) program) : Voices program :=
  fun engine => (tells engine).mono (fun _ _ tells => tells.told) fun _ _ tells => tells.told

theorem voices_after (first : Within (Tells False) program) (later : ∀ value, Voices (next value)) :
    Voices (program >>= next) := by
  intro engine
  rw [sat_bind]
  apply (first engine).mono
  · intro value between silent
    exact (later value between).mono (fun _ _ told => told.prepend silent)
      fun _ _ told => told.prepend silent
  · exact fun _ _ silent => silent.told

theorem voices_ite {condition : Prop} [Decidable condition] {other : EngineM Value}
    (yes : Voices program) (no : Voices other) : Voices (if condition then program else other) := by
  split
  · exact yes
  · exact no

end

/-! PUBLISH -/

/-- A fresh exchange is stored, and its message handed over. -/
theorem voices_fresh {arrival : Arrival} (qos : QoS) (state : InboundQoSState)
    {answer : EngineM PUnit} (answers : Within (Tells True) answer) :
    Voices (do
      let token ← admitRow arrival qos state
      answer
      let message ← bindAckToken arrival.mid (arrival.message qos)
      emitDelivery message true arrival.propertyWireSize (some token)) := by
  intro engine
  rw [sat_bind]
  apply (sat_admitRow_tells arrival qos state).mono
  · rintro token between ⟨silent, held⟩
    rw [sat_bind]
    apply (answers between).mono
    · intro _ last tells
      apply (sat_surface_tells qos (tells.tokens trivial held)).mono
      · exact fun _ _ told => (tells.told.append told).prepend silent
      · exact fun _ _ told => (tells.told.append told).prepend silent
    · exact fun _ _ tells => tells.told.prepend silent
  · exact fun _ _ silent => silent.told

theorem voices_onQos2 (arrival : Arrival) : Voices (onQos2 arrival) := by
  refine voices_after (heeds_lookupStoredInbound _).tells fun found => ?_
  cases found with
  | some existing => exact (heeds_onQos2Stored _ _).tells.voices
  | none =>
    have refuses (reasonCode : Nat) (failure : Failure) : Within (Tells False)
        (do protocolDisconnect reasonCode; throw failure : EngineM PUnit) :=
      beside_disconnecting _ _
    exact voices_after within_get fun _ => voices_ite (refuses _ _).voices <|
      voices_ite (refuses _ _).voices (voices_fresh _ _ (tells_emit rfl))

theorem voices_onQos1Manual (arrival : Arrival) : Voices (onQos1Manual arrival) := by
  have refuses (reasonCode : Nat) (failure : Failure) : Within (Tells False)
      (do protocolDisconnect reasonCode; throw failure : EngineM PUnit) :=
    beside_disconnecting _ _
  refine voices_after (heeds_lookupStoredInbound _).tells fun found => ?_
  cases found with
  | none =>
    exact voices_after within_get fun _ => voices_ite (refuses _ _).voices
      (voices_fresh _ _ (tells_modifyInbound fun _ => rfl))
  | some existing =>
    refine voices_ite (voices_after within_get fun _ => voices_after (heeds_holdSlot _).tells fun _ =>
      voices_ite heeds_drainManualQos1Acks.tells.voices ?_) (refuses _ _).voices
    refine voices_after tells_storeRead fun stored => ?_
    cases stored with
    | some stored => exact (tells_emitMessage stored true).voices
    | none =>
      have gives : Within (Tells False) (modifyInbound fun inbound =>
          { inbound with
            currentPersistedMids := inbound.currentPersistedMids.erase arrival.mid }) :=
        tells_modifyInbound fun _ => rfl
      exact (within_bind (within_onlyIf gives) fun _ => within_throw _).voices

theorem voices_dispatchQos (qosBits : Nat) (arrival : Arrival) : Voices (dispatchQos qosBits arrival) :=
  voices_ite (voices_after within_get fun _ => voices_ite (voices_onQos1Manual arrival)
    (tells_onQos1Auto arrival).voices) (voices_onQos2 arrival)

theorem voices_handlePublish (raw : RawPacket) : Voices (handlePublish raw) := by
  have throws (failure : Failure) : Within (Tells False) (throw failure : EngineM PUnit) :=
    within_throw failure
  have reads {Value : Type} (computed : Except Failure Value) :
      Within (Tells False) (fromExcept computed) := within_fromExcept
  have delivers (message : Message) (size : Option Nat) :
      Within (Tells False) (emitDelivery message false size none) :=
    tells_emitDelivery_unnamed _ _ _
  refine voices_after within_get fun engine => voices_ite ?_ ?_
  · exact voices_ite (voices_after (reads _) fun _ => voices_after (tells_resolveArrival _ _ _) fun _ =>
      (delivers _ _).voices) <| voices_ite (throws _).voices <|
      voices_after (reads _) fun _ => voices_after (tells_resolveArrival _ _ _) fun _ =>
      voices_dispatchQos _ _
  · exact voices_ite (voices_after (reads _) fun _ => (delivers _ none).voices) <|
      voices_ite (throws _).voices <| voices_after (reads _) fun _ => voices_dispatchQos _ _

/-! CONNACK -/

theorem tells_adjust {change : Engine → Engine}
    (config : ∀ engine, (change engine).config = engine.config)
    (inbound : ∀ engine, (change engine).inbound = engine.inbound)
    (effects : ∀ engine, (change engine).effects = engine.effects) :
    Within (Tells telling) (modify change : EngineM PUnit) :=
  within_modify fun engine => .silent (config engine) (by rw [inbound]) (effects engine)

theorem tells_discardSession : Within (Tells False) discardSession :=
  within_bind tells_storeChange fun _ => fun _ => ⟨rfl, False.elim, [], by simp, by simp⟩

/-- A session that goes on is replayed; otherwise the identities go first. -/
theorem voices_reconcileSession (present : Bool) (properties : Option Properties) :
    Voices (reconcileSession present properties) := by
  have resets {telling : Prop} : Within (Tells telling) Outbound.resetFlowForConnection :=
    tells_adjust (fun _ => rfl) (fun _ => rfl) fun _ => rfl
  have replays : Within (Tells False) Outbound.replaySession :=
    within_bind resets fun _ => within_bind (outward_session fun _ _ member => by simp at member)
      fun _ => within_bind (outward_forEachSummary outward_replayMessage) fun _ => outward_drain
  have adopts : Within (Tells True) (do
      emit (.connack present 0 properties)
      onlyIf present Inbound.replaySession
      Outbound.drain) :=
    within_bind (tells_emit rfl) fun _ => within_bind (within_onlyIf tells_replaySession) fun _ =>
      outward_drain
  have prefers : Within (Tells False) updateSessionResumePreference :=
    tells_adjust (fun _ => rfl) (fun _ => rfl) fun _ => rfl
  exact voices_after (tells_adjust (fun _ => rfl) (fun _ => rfl) fun _ => rfl) fun _ =>
    voices_after prefers fun _ => voices_after within_get fun _ =>
    voices_ite (voices_after replays fun _ => adopts.voices)
      (voices_after (outward_purgeAfterCleanSession _) fun _ => voices_after tells_discardSession fun _ =>
        voices_after resets fun _ => voices_after outward_failQueuedViolatingNegotiation fun _ =>
        adopts.voices)

theorem tells_negotiate (properties : Option Properties) :
    Within (Tells telling) (negotiate properties) := by
  refine within_bind (tells_adjust (fun _ => rfl) (fun _ => rfl) fun _ => rfl) fun _ =>
    within_bind within_get fun engine => ?_
  cases engine.negotiated.maximumPacketSize with
  | none => exact within_pure _
  | some limit =>
    exact within_onlyIf (within_bind beside_enterDisconnected fun _ => within_throw _)

theorem voices_onConnack (raw : RawPacket) : Voices (onConnack raw) := by
  have refused (present : Bool) (reasonCode : Nat) (properties : Option Properties) :
      Within (Tells False) (do
        enterDisconnected
        emit (.connack present reasonCode properties)
        emit (.disconnected reasonCode properties true)) :=
    within_bind beside_enterDisconnected fun _ => within_bind (tells_emit rfl) fun _ => tells_emit rfl
  have checks : Within (Tells False) (tryCatch Outbound.checkSessionReplayable _) := within_replayable
  have validates (reasonCode : Nat) (properties : Option Properties) :
      Ends (Tells False) (Tells False) (validateConnackV5 reasonCode properties) :=
    beside_validateConnackV5 _ _
  have accepts (present : Bool) (properties : Option Properties) :
      Ends (Tells False) (Tells False) (validateAcceptedConnack present properties) :=
    beside_validateAcceptedConnack _ _
  exact voices_after within_get fun _ => voices_after within_raiseIf fun _ =>
    voices_after within_fromExcept fun _ => voices_after (within_onlyIf (validates _ _)) fun _ =>
    voices_ite (refused _ _ _).voices (voices_after (accepts _ _) fun _ =>
      voices_after (tells_negotiate _) fun _ => voices_after (within_onlyIf checks) fun _ =>
      voices_reconcileSession _ _)

/-! Calls -/

theorem voices_handler {packetType : PacketType} {handler : RawPacket → EngineM PUnit}
    {state : ConnectionState} (found : handlerFor state packetType = some handler)
    (raw : RawPacket) : Voices (handler raw) := by
  by_cases opens : packetType = .connack
  · obtain ⟨_, rfl⟩ := handler_connack found opens
    exact voices_onConnack raw
  · by_cases publish : packetType = .publish
    · obtain ⟨_, rfl⟩ := handler_publish found publish
      exact voices_handlePublish raw
    · by_cases releases : packetType = .pubrel
      · obtain ⟨_, rfl⟩ := handler_pubrel found releases
        exact (heeds_onPubrel raw).tells.voices
      · have outgoing : Within (Tells False) (handler raw) :=
          outward_handler (Tells False) found opens publish releases raw
        exact outgoing.voices

theorem voices_handleRaw (raw : RawPacket) : Voices (handleRaw raw) := by
  intro engine
  have still : Tells False engine engine := Std.Refl.refl engine
  have same : Told engine engine := still.told
  apply handleRaw_sat same
  · intro failure after told
    exact told.append (.quiet rfl rfl ⟨[_], rfl, by simp [Effect.issue?]⟩)
  · apply dispatch_sat
    · exact fun _ => ⟨same, fun _ => same⟩
    · intro handler found
      exact (voices_handler found raw engine).mono (fun _ _ told => told)
        fun _ _ told => ⟨told, fun _ => told⟩

theorem voices_beginConnect : Voices beginConnect := by
  have starts (receiveMaximum topicAliasMaximum : Nat) :
      Within (Tells False) (startConnection receiveMaximum topicAliasMaximum) :=
    tells_modifyInbound fun _ => rfl
  have begins : Within (Tells False) beginConnect :=
    within_bind within_get fun _ => within_bind within_raiseIf fun _ =>
      within_bind within_fromExcept fun _ =>
      within_bind (tells_adjust (fun _ => rfl) (fun _ => rfl) fun _ => rfl) fun _ =>
      within_bind (starts _ _) fun _ =>
      within_bind (tells_adjust (fun _ => rfl) (fun _ => rfl) fun _ => rfl) fun _ => within_pure _
  exact begins.voices

theorem voices_notifyTransportClosed : Voices notifyTransportClosed := by
  have closes : Within (Tells False) transportClosed :=
    within_bind (tells_modifyInbound fun _ => rfl) fun _ =>
      within_bind (tells_modifyInbound fun _ => rfl) fun _ => tells_modifyInbound fun _ => rfl
  have ends : Within (Tells False) notifyTransportClosed :=
    within_bind within_get fun _ => within_bind beside_enterDisconnected fun _ =>
      within_bind (outward_session fun _ _ member => member) fun _ => within_bind closes fun _ =>
      within_bind Standby.endSubs fun _ => within_onlyIf (tells_emit rfl)
  exact ends.voices

/-- The messages that a call handed over, with their identities. -/
def issues (before after : Engine) : List (Message × Token) :=
  (after.effects.drop before.effects.length).filterMap Effect.issue?

theorem Told.issues (told : Told before after) : ∀ issue ∈ issues before after, after.Current issue := by
  obtain ⟨added, grown, current⟩ := told.effects
  intro issue member
  rw [Mqttium.issues, grown, List.drop_left] at member
  obtain ⟨effect, among, issued⟩ := List.mem_filterMap.mp member
  exact current effect among issue issued

/-- Whatever is called, what it hands over has the identity of its exchange. -/
theorem issues_run (command : Command) :
    Sat command.run engine (fun _ after => ∀ issue ∈ issues engine after, after.Current issue)
      (fun _ after => ∀ issue ∈ issues engine after, after.Current issue) := by
  have called {Value : Type} {program : EngineM Value} (change : Value → Option WriteItem)
      (voices : Voices program) : Sat (change <$> program) engine
        (fun _ after => ∀ issue ∈ issues engine after, after.Current issue)
        (fun _ after => ∀ issue ∈ issues engine after, after.Current issue) := by
    rw [sat_map]
    exact (voices engine).mono (fun _ _ told => told.issues) fun _ _ told => told.issues
  have outgoing (outgoing : command.Outgoing) : Sat command.run engine
      (fun _ after => ∀ issue ∈ issues engine after, after.Current issue)
      (fun _ after => ∀ issue ∈ issues engine after, after.Current issue) := by
    have tells : Within (Tells False) command.run := outward_run outgoing
    exact (tells engine).mono (fun _ _ tells => tells.told.issues) fun _ _ tells => tells.told.issues
  cases command with
  | beginConnect => exact called _ voices_beginConnect
  | notifyTransportClosed => exact called _ voices_notifyTransportClosed
  | handleRaw raw => exact called _ (voices_handleRaw raw)
  | continueInboundReplay => exact called _ tells_drainReplay.voices
  | markInboundDelivered mid token => exact called _ (heeds_markDelivered mid token).tells.voices
  | ack mid message =>
    have acks : Within (Tells False) (Protocol.ack mid message) :=
      within_bind within_get fun _ => within_bind within_raiseIf fun _ => (heeds_ack mid message).tells
    exact called _ acks.voices
  | takeEffects =>
    simp only [Command.run, sat_map, takeEffects, releasePendingAcks, sat_bind, sat_get, sat_modify,
      sat_onlyIf, sat_modifyInbound, sat_pure]
    exact ⟨fun _ => by simp [issues], fun _ => by simp [issues]⟩
  | _ => exact outgoing trivial

end

end Mqttium
