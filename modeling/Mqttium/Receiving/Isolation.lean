import Mqttium.Receiving.Identities
import Mqttium.Receiving.Journal
import Mqttium.Receiving.Tokens

/-! A delivery mark or an acknowledgement reaches no exchange but the one it is for. -/

namespace Mqttium

open Codec Library Packets Persistence Protocol Inbound

/-! What a call reaches -/

/-- The effect is the acknowledgement that ends an exchange of the identifier. -/
def Protocol.Effect.Finishes (effect : Effect) (mid : Nat) : Prop :=
  effect = .sendAck (encodePubackSuccess mid) ∨ effect = .sendAck (encodePubcompSuccess mid)

/-- What the inbound direction has of an identifier beside its row. -/
structure Standing where
  token : Option Token
  completion : Option InboundQoSState
  accepted : Bool
  current : Bool
  pubcomp : Bool

def Protocol.InboundSession.standing (inbound : InboundSession) (mid : Nat) : Standing where
  token := inbound.exchangeTokens.get? mid
  completion := inbound.pendingCompletions.get? mid
  accepted := mid ∈ inbound.pendingManualQos1Acks
  current := mid ∈ inbound.currentPersistedMids
  pubcomp := mid ∈ inbound.pendingPubcomps

/-- Only exchanges of `allowed` identifiers are acted on: the outbound direction and the connection
stay, as does all that any other identifier has, and no other exchange is answered. -/
structure Touches (allowed : Nat → Prop) (before after : Engine) : Prop where
  engine : ∃ store inbound effects, after = { before with store, inbound, effects }
  store : ∃ inbound faults, after.store = { before.store with inbound, faults }
  rows : ∀ mid, ¬ allowed mid → after.store.inbound.get? mid = before.store.inbound.get? mid
  standing : ∀ mid, ¬ allowed mid → after.inbound.standing mid = before.inbound.standing mid
  effects : ∃ added, after.effects = before.effects ++ added ∧
    ∀ effect ∈ added, ∃ mid, allowed mid ∧ effect.Finishes mid

section

variable {allowed : Nat → Prop} {before after engine : Engine} {mid : Nat}

instance : IsPreorder Engine (Touches allowed) where
  refl engine := ⟨⟨_, _, _, rfl⟩, ⟨_, _, rfl⟩, fun _ _ => rfl, fun _ _ => rfl, [], by simp, by simp⟩
  trans before between after first second := by
    obtain ⟨early, grown, answers⟩ := first.effects
    obtain ⟨late, more, settles⟩ := second.effects
    refine ⟨?_, ?_, fun mid other => (second.rows mid other).trans (first.rows mid other),
      fun mid other => (second.standing mid other).trans (first.standing mid other),
      early ++ late, by rw [more, grown, List.append_assoc], fun effect member => ?_⟩
    · obtain ⟨_, _, _, whole⟩ := first.engine
      obtain ⟨store, inbound, effects, rest⟩ := second.engine
      exact ⟨store, inbound, effects, by rw [rest, whole]⟩
    · obtain ⟨_, _, whole⟩ := first.store
      obtain ⟨inbound, faults, rest⟩ := second.store
      exact ⟨inbound, faults, by rw [rest, whole]⟩
    · exact (List.mem_append.mp member).elim (answers effect) (settles effect)

theorem touches_modifyInbound {change : InboundSession → InboundSession}
    (same : ∀ inbound mid, ¬ allowed mid → (change inbound).standing mid = inbound.standing mid) :
    Within (Touches allowed) (modifyInbound change) :=
  fun engine => ⟨⟨_, _, _, rfl⟩, ⟨_, _, rfl⟩, fun _ _ => rfl, same engine.inbound, [],
    by simp, by simp⟩

/-- The change is to what this identifier has. -/
theorem touches_own {change : InboundSession → InboundSession} (reached : allowed mid)
    (same : ∀ inbound {other}, other ≠ mid →
      (change inbound).standing other = inbound.standing other) :
    Within (Touches allowed) (modifyInbound change) := by
  refine touches_modifyInbound fun inbound other spared => same inbound ?_
  rintro rfl
  exact spared reached

theorem touches_sendAck {frame : Bytes} (reached : allowed mid)
    (settles : (Effect.sendAck frame).Finishes mid) : Within (Touches allowed) (sendAck frame) :=
  fun _ => ⟨⟨_, _, _, rfl⟩, ⟨_, _, rfl⟩, fun _ _ => rfl, fun _ _ => rfl, [.sendAck frame], rfl,
    fun _ member => ⟨mid, reached, List.mem_singleton.mp member ▸ settles⟩⟩

/-- The change is to the row of this identifier alone. -/
structure Reaches (mid : Nat) (change : Store → Store) : Prop where
  alone : ∀ store, ∃ inbound, change store = { store with inbound }
  rows : ∀ store {other}, other ≠ mid → (change store).inbound.get? other = store.inbound.get? other

theorem reaches_of_cases {change : Store → Store} (changes : ∀ store, change store = store ∨
      (∃ altered, change store = store.setIn mid altered) ∨
      change store = { store with inbound := store.inbound.erase mid }) : Reaches mid change := by
  refine ⟨fun store => ?_, fun store other different => ?_⟩
  · rcases changes store with same | ⟨altered, set⟩ | gone
    · exact ⟨store.inbound, same⟩
    · exact ⟨_, set⟩
    · exact ⟨_, gone⟩
  · rcases changes store with same | ⟨altered, set⟩ | gone
    · rw [same]
    · rw [set, Store.setIn, Dict.get?_modify, if_neg different]
    · rw [gone, Dict.get?_erase_of_ne different]

theorem reaches_markInDelivered (mid : Nat) :
    Reaches mid fun store => (store.markInDelivered mid).2 := by
  refine reaches_of_cases fun store => ?_
  unfold Store.markInDelivered
  split
  · split
    · exact .inl rfl
    · exact .inr (.inl ⟨fun stored => { stored with delivered := true }, rfl⟩)
  · exact .inl rfl

theorem reaches_transitionIn (mid : Nat) (expected next : InboundQoSState)
    (userAcked : Option Bool) :
    Reaches mid fun store => (store.transitionIn mid expected next userAcked).2 := by
  refine reaches_of_cases fun store => ?_
  unfold Store.transitionIn
  split
  · next message _ =>
    split
    · exact .inr (.inl ⟨fun _ =>
        { message with state := next, userAcked := userAcked.getD message.userAcked }, rfl⟩)
    · exact .inl rfl
  · exact .inl rfl

theorem reaches_completeIn (mid : Nat) (expected : InboundQoSState) :
    Reaches mid fun store => (store.completeIn mid expected).2 := by
  refine reaches_of_cases fun store => ?_
  unfold Store.completeIn
  split
  · split
    · exact .inr (.inr rfl)
    · exact .inl rfl
  · exact .inl rfl

theorem touches_storeCall {Value : Type} {call : StoreCall} {run : Store → Value × Store}
    (reached : allowed mid) (reaches : Reaches mid fun store => (run store).2) :
    Within (Touches allowed) (storeCall call run) := by
  intro engine
  obtain ⟨faults, rest, -⟩ := nextFault_rest engine.store call
  have scripted : Touches allowed engine { engine with store := { engine.store with faults } } :=
    ⟨⟨_, _, _, rfl⟩, ⟨_, _, rfl⟩, fun _ _ => rfl, fun _ _ => rfl, [], by simp, by simp⟩
  have ran : Touches allowed engine
      { engine with store := (run { engine.store with faults }).2 } := by
    obtain ⟨inbound, altered⟩ := reaches.alone { engine.store with faults }
    refine ⟨⟨_, _, _, rfl⟩, ⟨inbound, faults, altered⟩, fun other spared => ?_, fun _ _ => rfl, [],
      by simp, by simp⟩
    exact reaches.rows { engine.store with faults } fun same => spared (same ▸ reached)
  simp only [storeCall, sat_bind, sat_get]
  cases next : engine.store.nextFault call with
  | mk fault store =>
    rw [next] at rest
    change store = _ at rest
    subst rest
    cases fault with
    | none => exact ran
    | some fault =>
      cases fault with
      | beforeEffect => exact scripted
      | afterEffect => exact ran

theorem touches_lookupStoredInbound (reached : allowed mid) :
    Within (Touches allowed) (lookupStoredInbound mid) := by
  have reads : Within (Touches allowed) (storeRead .inMeta (·.inMeta mid)) :=
    touches_storeCall reached (reaches_of_cases fun _ => .inl rfl)
  exact within_bind within_get fun _ => within_ite (within_pure _) reads

theorem touches_shareAfter (mid : Nat) : Within (Touches allowed) (shareAfter mid) := by
  refine within_modify fun engine => ?_
  cases engine.store.inbound.get? mid with
  | none => exact Std.Refl.refl engine
  | some row =>
    exact ⟨⟨_, _, _, rfl⟩, ⟨_, _, rfl⟩, fun _ _ => rfl, fun _ _ => rfl, [], by simp, by simp⟩

theorem touches_markRowDelivered (reached : allowed mid) :
    Within (Touches allowed) (markRowDelivered mid) :=
  within_bind (within_map (touches_storeCall reached (reaches_markInDelivered mid))) fun _ =>
    touches_shareAfter mid

theorem touches_transitionRow (reached : allowed mid) (expected next : InboundQoSState)
    (userAcked : Option Bool) :
    Within (Touches allowed) (transitionRow mid expected next userAcked) :=
  within_bind (touches_storeCall reached (reaches_transitionIn mid expected next userAcked)) fun _ =>
    within_bind (touches_shareAfter mid) fun _ => within_pure _

/-! Completion -/

theorem touches_forgetInbound : Within (Touches allowed) forgetInbound :=
  within_bind within_get fun _ => within_bind within_raiseIf fun _ =>
    touches_modifyInbound fun _ _ _ => rfl

theorem touches_releasePendingBytes (size : Nat) :
    Within (Touches allowed) (releasePendingBytes size) :=
  within_bind within_get fun _ => within_bind within_raiseIf fun _ =>
    touches_modifyInbound fun _ _ _ => rfl

theorem touches_completeStoredInbound (reached : allowed mid) (expected : InboundQoSState)
    (action : String) : Within (Touches allowed) (completeStoredInbound mid expected action) := by
  refine within_bind (touches_storeCall reached (reaches_completeIn mid expected)) fun found => ?_
  cases found with
  | none => exact within_throw _
  | some record =>
    refine within_bind (touches_own reached fun inbound other different => ?_) fun _ => within_pure _
    simp only [InboundSession.standing, Dict.get?_erase_of_ne different]

theorem touches_completeQos1 (reached : allowed mid) :
    Within (Touches allowed) (completeQos1 mid) := by
  have leaves : Within (Touches allowed) (modifyInbound fun inbound =>
      { inbound with currentPersistedMids := inbound.currentPersistedMids.erase mid }) :=
    touches_own reached fun inbound other different => by
      simp [InboundSession.standing, different]
  exact within_bind (touches_completeStoredInbound reached _ _) fun _ =>
    within_bind touches_forgetInbound fun _ =>
    within_bind (touches_sendAck reached (.inl rfl)) fun _ => within_bind leaves fun _ =>
    touches_releasePendingBytes _

theorem touches_completeQos2 (reached : allowed mid) (state : InboundQoSState) (action : String) :
    Within (Touches allowed) (completeQos2 mid state action) := by
  have holds (size : Nat) : Within (Touches allowed) (holdUntilPubcompHandoff mid size) := by
    refine within_bind (touches_releasePendingBytes size) fun _ => within_bind within_get fun _ =>
      within_bind (touches_own reached fun inbound other different => ?_) fun _ =>
      within_onlyIf (touches_own reached fun inbound other different => ?_)
    · simp [InboundSession.standing, different]
    · simp [InboundSession.standing, different]
  exact within_bind (touches_completeStoredInbound reached _ _) fun _ =>
    within_bind touches_forgetInbound fun _ =>
    within_bind (touches_sendAck reached (.inr rfl)) fun _ => holds _

/-- The other exchanges stay. -/
theorem Touches.serials (touches : Touches allowed before after) (spared : ¬ allowed mid) :
    after.exchanges.serial mid = before.exchanges.serial mid :=
  congrArg (Option.map InRow.seq) (touches.rows mid spared)

/-- Where all that the application accepted is allowed, it stays so. -/
theorem Touches.covered (touches : Touches allowed before after)
    (covered : ∀ name ∈ before.inbound.pendingManualQos1Acks, allowed name) :
    ∀ name ∈ after.inbound.pendingManualQos1Acks, allowed name := by
  intro name accepted
  by_contra spared
  have same := congrArg Standing.accepted (touches.standing name spared)
  have earlier : name ∈ before.inbound.pendingManualQos1Acks := by
    simpa [InboundSession.standing, accepted] using same
  exact spared (covered name earlier)

/-- What is drained was accepted. -/
theorem sat_drainManualFor_touches (fuel : Nat)
    (covered : ∀ name ∈ engine.inbound.pendingManualQos1Acks, allowed name) :
    Sat (drainManualFor fuel) engine (fun _ => Touches allowed engine)
      (fun _ => Touches allowed engine) := by
  have still (engine : Engine) : Touches allowed engine engine := Std.Refl.refl engine
  induction fuel generalizing engine with
  | zero => exact still engine
  | succ fuel ih =>
    rw [drainManualFor, sat_bind, sat_get]
    cases engine.inbound.manualQos1Order with
    | nil => exact still engine
    | cons mid rest =>
      simp only [sat_onlyIf]
      refine ⟨fun ready => ?_, fun _ => still engine⟩
      have reached : allowed mid := covered mid ready.1
      have pops : Within (Touches allowed) (modifyInbound fun inbound =>
          { inbound with
            manualQos1Order := inbound.manualQos1Order.tail
            pendingManualQos1Acks := inbound.pendingManualQos1Acks.erase mid }) :=
        touches_own reached fun inbound other different => by
          simp [InboundSession.standing, different]
      refine (touches_lookupStoredInbound reached).then_sat fun record looked found => ?_
      refine within_raiseIf.then_sat fun _ checked passed => ?_
      refine (touches_completeQos1 reached).then_sat fun _ completed done => ?_
      refine pops.then_sat fun _ popped last => ?_
      exact ih (last.covered (done.covered (passed.covered (found.covered covered))))

theorem touches_markDelivered (reached : allowed mid) (token : Option Token) :
    Within (Touches allowed) (markDelivered mid token) := by
  have waits : Within (Touches allowed) (modifyInbound fun inbound =>
      { inbound with pendingCompletions := inbound.pendingCompletions.erase mid }) :=
    touches_own reached fun inbound other different => by
      simp only [InboundSession.standing, Dict.get?_erase_of_ne different]
  refine within_bind within_get fun engine => within_ite (within_pure _) <|
    within_bind waits fun _ => ?_
  cases engine.inbound.pendingCompletions.get? mid with
  | none => exact within_onlyIf (touches_markRowDelivered reached)
  | some state =>
    cases state with
    | waitPuback => exact touches_completeQos1 reached
    | _ => exact touches_completeQos2 reached _ _

/-- An acknowledgement reaches its own exchange and those accepted before it. -/
theorem sat_ack_touches (reached : allowed mid)
    (covered : ∀ name ∈ engine.inbound.pendingManualQos1Acks, allowed name)
    (message : Option Message) :
    Sat (Protocol.ack mid message) engine (fun _ => Touches allowed engine)
      (fun _ => Touches allowed engine) := by
  have still : Touches allowed engine engine := Std.Refl.refl engine
  have looks : Within (Touches allowed) (lookupStoredInbound mid) := touches_lookupStoredInbound reached
  rw [Protocol.ack, sat_bind, sat_get, sat_bind, sat_raiseIf]
  refine ⟨fun _ => still, fun _ => ?_⟩
  rw [Inbound.ack, sat_bind, sat_get, sat_bind, sat_raiseIf]
  refine ⟨fun _ => still, fun _ => ?_⟩
  rw [sat_bind, sat_raiseIf]
  refine ⟨fun _ => still, fun _ => looks.then_sat fun record between found => ?_⟩
  cases record with
  | none => exact (Std.Refl.refl between : Touches allowed between between)
  | some record =>
    cases phase : record.state with
    | waitPubrel =>
      simp only [phase]
      refine within_bind (touches_transitionRow reached _ _ _) (fun changed => ?_) between
      cases changed with
      | none => exact within_throw _
      | some record => exact within_pure _
    | waitPuback =>
      simp only [phase]
      have sizes : Within (Touches allowed)
          (checkOutboundSize (.contiguous (encodePubackSuccess mid))) := beside_checkOutboundSize
      have accepts : Within (Touches allowed) (modifyInbound fun inbound =>
          { inbound with pendingManualQos1Acks := insert mid inbound.pendingManualQos1Acks }) :=
        touches_own reached fun inbound other different => by
          simp [InboundSession.standing, different]
      refine sizes.then_sat fun _ sized fits => accepts.then_sat fun _ accepted more => ?_
      rw [drainManualQos1Acks, sat_bind, sat_get]
      exact sat_drainManualFor_touches _ (more.covered (fits.covered (found.covered covered)))
    | waitUserAck =>
      simp only [phase]
      exact within_bind beside_checkOutboundSize (fun _ => touches_completeQos2 reached _ _) between
    | done =>
      simp only [phase]
      exact (Std.Refl.refl between : Touches allowed between between)

/-! Tokens of no stored exchange -/

/-- The identifier has no exchange that the token is of. -/
def Protocol.Engine.Stranger (engine : Engine) (mid : Nat) (token : Token) : Prop :=
  ∀ number, ¬ engine.exchanges.Bound mid number token

section

variable {token : Token}

/-- A token that is current is of the exchange that is stored. -/
theorem Protocol.Engine.Stranger.absent (stranger : engine.Stranger mid token)
    (held : engine.inbound.exchangeTokens.get? mid = some token) :
    engine.store.inbound.get? mid = none := by
  cases found : engine.store.inbound.get? mid with
  | none => rfl
  | some row =>
    have bound : engine.exchanges.Bound mid row.seq token :=
      ⟨congrArg (Option.map InRow.seq) found, held⟩
    exact absurd bound (stranger row.seq)

theorem sat_markRowDelivered_absent (atomic : engine.store.Atomic)
    (absent : engine.store.inbound.get? mid = none) :
    Sat (markRowDelivered mid) engine (fun _ => Scripted engine)
      (fun _ after => Scripted engine after ∧ ¬ engine.store.Reliable) := by
  have same (faults : StoreCall → List (Option Fault)) :
      ({ engine.store with faults }.markInDelivered mid).2 = { engine.store with faults } := by
    simp [Store.markInDelivered, Store.inMessage?, absent]
  rw [markRowDelivered, sat_bind, sat_discard]
  refine sat_storeCall_atomic atomic (fun faults fine => ?_) fun faults fine unreliable =>
    ⟨⟨faults, fine, rfl⟩, unreliable⟩
  rw [same, shareAfter, sat_modify, absent]
  exact ⟨faults, fine, rfl⟩

theorem sat_markInboundDelivered_stranger (kept : engine.kept)
    (stranger : engine.Stranger mid token) :
    Sat (markInboundDelivered mid (some token)) engine (fun _ => Scripted engine)
      (fun _ after => Scripted engine after ∧ ¬ engine.store.Reliable) := by
  have same : Scripted engine engine := ⟨engine.store.faults, kept.atomic.leaves, rfl⟩
  rw [markInboundDelivered, markDelivered, sat_bind, sat_get, sat_ite]
  refine ⟨fun _ => same, fun current => ?_⟩
  have held : engine.inbound.exchangeTokens.get? mid = some token := by simpa using current
  have absent := stranger.absent held
  have uncompleted : mid ∉ engine.inbound.pendingCompletions.keys := fun waits =>
    (Dict.get?_eq_none_iff.mp absent) (kept.completions mid waits).2
  have unwaited : engine.inbound.pendingCompletions.get? mid = none :=
    Dict.get?_eq_none_iff.mpr uncompleted
  rw [sat_bind, sat_modifyInbound, Dict.erase_of_not_mem uncompleted, unwaited]
  simp only [sat_onlyIf]
  exact ⟨fun _ => sat_markRowDelivered_absent kept.atomic absent, fun _ => same⟩

/-- A mark with a token of no stored exchange does nothing. -/
theorem markInboundDelivered_stranger (kept : engine.kept) (reliable : engine.store.Reliable)
    (stranger : engine.Stranger mid token) :
    markInboundDelivered mid (some token) engine = .ok ⟨⟩ engine := by
  have sat := sat_markInboundDelivered_stranger kept stranger
  unfold Sat at sat
  cases ended : markInboundDelivered mid (some token) engine with
  | ok value after =>
    rw [ended] at sat
    have same : after = engine := Scripted.same sat reliable
    rw [same]
  | error failure after =>
    rw [ended] at sat
    exact absurd reliable sat.2

/-- The message is bound to the token of the exchange that the identifier has. -/
def Protocol.Engine.Answers (engine : Engine) (mid : Nat) (message : Message) : Prop :=
  ∃ number token, message.mid = some mid ∧ message.ackToken = some token ∧
    engine.exchanges.Bound mid number token

theorem ack_unanswered {message : Message} (kept : engine.kept)
    (other : ¬ engine.Answers mid message) :
    ∃ failure after, Protocol.ack mid (some message) engine = .error failure after ∧
      Scripted engine after := by
  have same : Scripted engine engine := ⟨engine.store.faults, kept.atomic.leaves, rfl⟩
  have sat : Sat (Protocol.ack mid (some message)) engine (fun _ _ => False)
      (fun _ => Scripted engine) := by
    rw [Protocol.ack, sat_bind, sat_get, sat_bind, sat_raiseIf]
    refine ⟨fun _ => same, fun _ => ?_⟩
    rw [Inbound.ack, sat_bind, sat_get, sat_bind, sat_raiseIf]
    refine ⟨fun _ => same, fun _ => ?_⟩
    rw [sat_bind, sat_raiseIf]
    refine ⟨fun _ => same, fun active => ?_⟩
    simp only [Option.any_some, decide_eq_true_eq, not_or, not_not] at active
    obtain ⟨named, bound, held⟩ := active
    obtain ⟨token, carried⟩ := Option.ne_none_iff_exists'.mp bound
    rw [carried] at held
    have stranger : engine.Stranger mid token := fun number lease =>
      other ⟨number, token, named, carried, lease⟩
    have unknown : engine.store.inMeta mid = none := by
      simp [Store.inMeta, Store.inMessage?, stranger.absent held]
    rw [sat_bind]
    apply (lookupStoredInbound_sat kept mid).mono
    · rintro _ _ ⟨scripted, rfl⟩
      rw [unknown]
      exact scripted
    · exact fun _ _ failed => failed.1
  unfold Sat at sat
  cases ended : Protocol.ack mid (some message) engine with
  | ok value after =>
    rw [ended] at sat
    exact sat.elim
  | error failure after =>
    rw [ended] at sat
    exact ⟨failure, after, rfl, sat⟩

end

end

/-! Isolation over runs -/

/-- Whatever calls came before, with any reuse of identifiers, resumption, discard and replay:
a message that is handed over carries the identity its identifier has from then on; an exchange
keeps its identity as long as its row stays, and no other exchange ever has it. A delivery mark
with a token acts on the exchange of its identifier alone, and only if the token is of that
exchange; otherwise nothing happens. An acknowledgement of a message acts on the exchange that the
message is bound to and on QoS 1 exchanges that were acknowledged before; where the message is
bound to no stored exchange of its identifier it raises, and nothing changes. The store may fail
in between. -/
theorem exchange_tokens_isolated {config : EngineConfig} {store : Store} {engine : Engine}
    (created : Engine.create config store = .ok engine) (arranged : store.Arranged)
    (commands : List Command) :
    let session := Protocol.Session.run ⟨engine, []⟩ commands
    let before := session.engine
    (∀ command, ∀ issue ∈ issues before (session.step command).engine,
      (session.step command).engine.Current issue) ∧
    (∀ mid token, before.inbound.exchangeTokens.get? mid = some token → ∀ later,
      let last := (session.run later).engine
      (∀ number, before.exchanges.serial mid = some number →
        last.exchanges.serial mid = some number → last.exchanges.Bound mid number token) ∧
      ∀ other number, last.exchanges.Bound other number token →
        other = mid ∧ before.exchanges.serial mid = some number) ∧
    (∀ mid token,
      Touches (fun name => name = mid) before
        (session.step (.markInboundDelivered mid (some token))).engine ∧
      (before.Stranger mid token →
        Scripted before (session.step (.markInboundDelivered mid (some token))).engine ∧
        (store.Reliable → markInboundDelivered mid (some token) before = .ok ⟨⟩ before))) ∧
    ∀ mid message,
      Touches (fun name => name = mid ∨ name ∈ before.inbound.pendingManualQos1Acks) before
        (session.step (.ack mid (some message))).engine ∧
      (¬ before.Answers mid message →
        ∃ failure after, Protocol.ack mid (some message) before = .error failure after ∧
          Scripted before after ∧ (store.Reliable → after = before)) := by
  intro session before
  obtain ⟨_, _, opened, rests⟩ := create_kept created arranged
  have ran : before.kept ∧ Drifts engine before :=
    @Protocol.Session.run_drifts ⟨engine, []⟩ opened commands
  obtain ⟨kept, drifts⟩ := ran
  have stays (reliable : store.Reliable) : before.store.Reliable :=
    drifts.reliable (rests.reliable reliable)
  have sound : before.exchanges.Sound := kept.identities
  refine ⟨fun command => ?_, fun mid token held later => ?_, fun mid token => ⟨?_, fun stranger => ?_⟩,
    fun mid message => ⟨?_, fun other => ?_⟩⟩
  · exact Protocol.Session.step_sat (issues_run command)
  · have moved : before.exchanges.Steps (session.run later).engine.exchanges :=
      (Protocol.Session.run_drifts kept later).2.steps
    refine ⟨fun number serves lasts => ?_, fun other number again => ?_⟩
    · have bound : before.exchanges.Bound mid number token := ⟨serves, held⟩
      exact bound.kept sound moved lasts
    · exact sound.unique held moved again
  · have marks : Within (Touches fun name => name = mid)
        (Command.markInboundDelivered mid (some token)).run :=
      within_map (@touches_markDelivered (fun name => name = mid) mid rfl (some token))
    exact Protocol.Session.step_sat (marks before)
  · have marks : Sat (Command.markInboundDelivered mid (some token)).run before
        (fun _ => Scripted before) (fun _ => Scripted before) := by
      rw [Command.run, sat_map]
      exact (sat_markInboundDelivered_stranger kept stranger).mono (fun _ _ scripted => scripted)
        fun _ _ failed => failed.1
    exact ⟨Protocol.Session.step_sat marks,
      fun reliable => markInboundDelivered_stranger kept (stays reliable) stranger⟩
  · have acks : Sat (Command.ack mid (some message)).run before
        (fun _ => Touches (fun name => name = mid ∨ name ∈ before.inbound.pendingManualQos1Acks)
          before)
        (fun _ => Touches (fun name => name = mid ∨ name ∈ before.inbound.pendingManualQos1Acks)
          before) := by
      rw [Command.run, sat_map]
      exact sat_ack_touches (.inl rfl) (fun _ accepted => .inr accepted) (some message)
    exact Protocol.Session.step_sat acks
  · obtain ⟨failure, after, ended, scripted⟩ := ack_unanswered kept other
    exact ⟨failure, after, ended, scripted, fun reliable => scripted.same (stays reliable)⟩

/-- A message under an identifier, with the token it was handed over with. -/
def letter (content : UInt8) (mid token : Nat) : Message where
  topic := [97]
  payload := [content]
  qos := .atLeastOnce
  retain := false
  dup := false
  mid := some mid
  properties := none
  ackToken := some token

/-- The second message is acknowledged first. The acknowledgement of the first one then ends both
exchanges. -/
theorem exchange_tokens_isolated_behind :
    let before := (Protocol.Session.run ⟨manualEngine, []⟩
      (twoArrived ++ [.ack 2 (some (letter 105 2 1))])).engine
    let after := (Protocol.Session.step ⟨before, []⟩ (.ack 1 (some (letter 104 1 0)))).engine
    before.Answers 1 (letter 104 1 0) ∧ before.exchanges.Bound 2 2 1 ∧
      after.exchanges.serial 2 = none ∧ ¬ Touches (fun name => name = 1) before after := by
  intro before after
  have first : before.exchanges.serial 1 = some 1 := by decide +kernel
  have carries : before.exchanges.token 1 = some 0 := by decide +kernel
  have serves : before.exchanges.serial 2 = some 2 := by decide +kernel
  have held : before.exchanges.token 2 = some 1 := by decide +kernel
  have gone : after.exchanges.serial 2 = none := by decide +kernel
  refine ⟨⟨1, 0, rfl, rfl, first, carries⟩, ⟨serves, held⟩, gone, fun touches => ?_⟩
  have same : after.exchanges.serial 2 = before.exchanges.serial 2 :=
    touches.serials (by decide)
  rw [gone, serves] at same
  cases same

/-- The first message is acknowledged, and its identifier used again. -/
def firstReused : List Command :=
  twoArrived ++ [.ack 1 (some (letter 104 1 0)), .takeEffects,
    .handleRaw ⟨.publish, 2, [0, 1, 97, 0, 1, 106]⟩]

/-- The new exchange has a token of its own: a mark with the old one does nothing, an
acknowledgement of the old message raises, and no exchange ever has the old token again. -/
theorem exchange_tokens_isolated_reused :
    let session := Protocol.Session.run ⟨manualEngine, []⟩ firstReused
    session.engine.exchanges.Bound 1 3 2 ∧
    markInboundDelivered 1 (some 0) session.engine = .ok ⟨⟩ session.engine ∧
    (∃ failure, Protocol.ack 1 (some (letter 104 1 0)) session.engine =
      .error failure session.engine) ∧
    ∀ later other number, (session.run later).engine.exchanges.Bound other number 2 →
      other = 1 ∧ number = 3 := by
  intro session
  have created : Engine.create manualConfig { kind := .memory } = .ok manualEngine := rfl
  obtain ⟨_, reserved, marks, acks⟩ := exchange_tokens_isolated created
    ⟨by simp [Store.Atomic], by simp, by simp [Dict.empty]⟩ firstReused
  have serves : session.engine.exchanges.serial 1 = some 3 := by decide +kernel
  have held : session.engine.inbound.exchangeTokens.get? 1 = some 2 := by decide +kernel
  have carries : session.engine.exchanges.token 1 = some 2 := by decide +kernel
  have stranger : session.engine.Stranger 1 0 := by
    rintro number ⟨_, other⟩
    rw [carries] at other
    cases other
  have unanswered : ¬ session.engine.Answers 1 (letter 104 1 0) := by
    rintro ⟨number, token, _, bound, lease⟩
    cases bound
    exact stranger number lease
  refine ⟨⟨serves, carries⟩, ((marks 1 0).2 stranger).2 fun _ => rfl, ?_, ?_⟩
  · obtain ⟨failure, after, ended, _, same⟩ := (acks 1 (letter 104 1 0)).2 unanswered
    rw [same fun _ => rfl] at ended
    exact ⟨failure, ended⟩
  · intro later other number bound
    obtain ⟨same, serial⟩ := (reserved 1 2 held later).2 other number bound
    rw [serves] at serial
    exact ⟨same, (Option.some.inj serial).symm⟩

end Mqttium
