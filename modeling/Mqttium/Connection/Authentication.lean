import Mqttium.Connection.Unasked
import Mqttium.Library.Challenges
import Mqttium.Protocol.Runs

/-! Enhanced authentication over runs: what is said about the challenges of the server,
call by call, and that it is an exchange in which a challenge is answered once or not. -/

namespace Mqttium

open Codec Library Packets Persistence Protocol

/-- Why an answer is no longer awaited: the client spoke for itself, the peer reported
success, or the connection is over. -/
inductive Withdrawal where
  | requested
  | succeeded
  | lapsed
  deriving DecidableEq, Repr

abbrev AuthEvent := ChallengeEvent Withdrawal

open ChallengeEvent Withdrawal

namespace Protocol.Engine

/-- The packet reports success: a CONNACK that accepts, or AUTH Success. -/
def hearsSuccess (engine : Engine) (raw : RawPacket) : Bool :=
  decide (validateRawPacket raw = .ok ()) &&
    match engine.state, raw.packetType with
    | .connecting, .connack =>
      match engine.codec.decodeConnack raw.remaining with
      | .ok (_, reasonCode, _) => reasonCode == 0
      | .error _ => false
    | .connected, .auth =>
      match engine.codec.decodeAuth raw.remaining with
      | .ok (reasonCode, _) => reasonCode == 0
      | .error _ => false
    | _, _ => false

/-- The check of the session that an accepting CONNACK resumes fails for nothing but what
the broker forbids: no call of the store raises in it. -/
def Checkable (engine : Engine) (raw : RawPacket) : Prop :=
  ∀ properties, engine.codec.decodeConnack raw.remaining = .ok (true, 0, properties) →
    Sat (negotiate properties) engine
      (fun _ limited => Sat Outbound.checkSessionReplayable limited (fun _ _ => True)
        (fun failure _ => ∃ text, failure = .sessionReplay text))
      (fun _ _ => True)

/-- The challenge whose answer the connection waits for. -/
def answerDue (engine : Engine) : Option Nat := if engine.underway then engine.authResponseDue else none

end Protocol.Engine

/-- What a call itself says of the pending challenge: it answers it, speaks past it, or
hears that the exchange succeeded, whatever then becomes of the packet. -/
def answerEvents (before : Engine) (command : Command) (after : Engine) : List AuthEvent :=
  match command with
  | .respondAuth (some number) _ _ => (emitted before after).map fun _ => answered number
  | .queueAuth _ _ => (emitted before after).map fun _ => withdrawn requested
  | .handleRaw raw =>
    if before.hearsSuccess raw then [withdrawn succeeded] else []
  | _ => []

/-- What one call adds to the history: the challenges it hands over, the AUTH packets it
sends, the success it hears of, and the end of the connection. -/
def authEvents (before : Engine) (command : Command) (after : Engine) : List AuthEvent :=
  ((after.effects.drop before.effects.length).filterMap Effect.challenge?).map challenged ++
  answerEvents before command after ++
  if after.underway then [] else [withdrawn lapsed]

/-- A session and what was said about its challenges, over all its connections. -/
structure Dialogue where
  session : Protocol.Session
  log : List AuthEvent := []

namespace Dialogue

def step (dialogue : Dialogue) (command : Command) : Dialogue :=
  let after := dialogue.session.step command
  { session := after, log := dialogue.log ++ authEvents dialogue.session.engine command after.engine }

def run (dialogue : Dialogue) (commands : List Command) : Dialogue := commands.foldl step dialogue

end Dialogue

/-- The events of one call lead from the pending challenge before it to the one after it. -/
def Converses (events : List AuthEvent) (before after : Engine) : Prop :=
  ∀ log, Exchange before.answerDue before.authChallenges log →
    Exchange after.answerDue after.authChallenges (log ++ events)

section

variable {before after : Engine}

theorem Engine.answerDue_live (live : before.underway = true) : before.answerDue = before.authResponseDue :=
  if_pos live

theorem Engine.answerDue_over (past : before.underway = false) : before.answerDue = none := by
  simp [Engine.answerDue, past]

theorem authEvents_silent (effects : ∃ fresh, after.effects = before.effects ++ fresh ∧
      fresh.filterMap Effect.challenge? = []) :
    (after.effects.drop before.effects.length).filterMap Effect.challenge? = [] := by
  obtain ⟨fresh, grown, silent⟩ := effects
  rw [grown, List.drop_left]
  exact silent

/-- What handling one packet does that hands no challenge over: while the connection lasts
the pending answer stays, or success ends the wait. -/
structure Unchallenged (hears : Bool) (before after : Engine) : Prop where
  challenges : after.authChallenges = before.authChallenges
  effects : ∃ fresh, after.effects = before.effects ++ fresh ∧ fresh.filterMap Effect.challenge? = []
  due : after.underway = true →
    (after.state = before.state ∧ after.authResponseDue = before.authResponseDue ∧ hears = false) ∨
    (hears = true ∧ after.state = .connected ∧ after.authResponseDue = none)

/-- A challenge of the server is handed over. -/
structure Asks (before after : Engine) : Prop where
  underway : before.underway = true
  state : after.state = before.state
  challenges : after.authChallenges = before.authChallenges + 1
  due : after.authResponseDue = some (before.authChallenges + 1)
  effects : ∃ properties, after.effects =
    before.effects ++ [.auth 0x18 properties (some (before.authChallenges + 1))]

theorem Unasked.unchallenged (unasked : Unasked before after) : Unchallenged false before after := by
  refine ⟨unasked.challenges, unasked.effects, fun live => .inl ?_⟩
  obtain ⟨state, due⟩ := unasked.due live
  exact ⟨state, due, rfl⟩

theorem Unasked.ended (unasked : Unasked before after) (ended : after.underway = false) (hears : Bool) :
    Unchallenged hears before after :=
  ⟨unasked.challenges, unasked.effects, fun live => absurd live (by simp [ended])⟩

theorem Unchallenged.emit {hears : Bool} (unchallenged : Unchallenged hears before after) {effect : Effect}
    (silent : effect.challenge? = none) :
    Unchallenged hears before { after with effects := after.effects ++ [effect] } := by
  obtain ⟨fresh, grown, quiet⟩ := unchallenged.effects
  exact ⟨unchallenged.challenges, ⟨fresh ++ [effect], by simp [grown], by simp [quiet, silent]⟩,
    unchallenged.due⟩

/-- After a success nothing is awaited. -/
theorem Unchallenged.settled (unchallenged : Unchallenged true before after) :
    after.answerDue = none := by
  by_cases live : after.underway = true
  · rcases unchallenged.due live with ⟨_, _, unheard⟩ | ⟨_, _, due⟩
    · cases unheard
    · rw [Engine.answerDue_live live, due]
  · exact Engine.answerDue_over (by simpa using live)

/-- Nothing but the end of the connection is said of a call that has no part in it. -/
theorem Unasked.converses (unasked : Unasked before after) :
    Converses (if after.underway then [] else [withdrawn lapsed]) before after := by
  intro log exchange
  by_cases live : after.underway = true
  · obtain ⟨state, due⟩ := unasked.due live
    have started : before.underway = true := by simpa [Engine.underway, state] using live
    rw [Engine.answerDue_live started] at exchange
    rw [if_pos live, List.append_nil, Engine.answerDue_live live, due, unasked.challenges]
    exact exchange
  · have ended : after.underway = false := by simpa using live
    rw [if_neg live, Engine.answerDue_over ended, unasked.challenges]
    exact exchange.withdraw lapsed

theorem Unchallenged.converses {raw : RawPacket} (unchallenged : Unchallenged (before.hearsSuccess raw) before after) :
    Converses (authEvents before (.handleRaw raw) after) before after := by
  intro log exchange
  simp only [authEvents, answerEvents, authEvents_silent unchallenged.effects, List.map_nil,
    List.nil_append]
  by_cases live : after.underway = true
  · rw [if_pos live, List.append_nil]
    rcases unchallenged.due live with ⟨state, due, unheard⟩ | ⟨heard, _, due⟩
    · have started : before.underway = true := by simpa [Engine.underway, state] using live
      rw [unheard, if_neg Bool.false_ne_true, List.append_nil, Engine.answerDue_live live, due,
        unchallenged.challenges, ← Engine.answerDue_live started]
      exact exchange
    · rw [if_pos heard, Engine.answerDue_live live, due, unchallenged.challenges]
      exact exchange.withdraw succeeded
  · have ended : after.underway = false := by simpa using live
    rw [if_neg live, Engine.answerDue_over ended, unchallenged.challenges, ← List.append_assoc]
    split
    · exact (exchange.withdraw succeeded).withdraw lapsed
    · rw [List.append_nil]
      exact exchange.withdraw lapsed

theorem Asks.converses {raw : RawPacket} (asks : Asks before after)
    (unheard : before.hearsSuccess raw = false) :
    Converses (authEvents before (.handleRaw raw) after) before after := by
  intro log exchange
  obtain ⟨properties, effects⟩ := asks.effects
  have live : after.underway = true := by
    have started := asks.underway
    simpa [Engine.underway, asks.state] using started
  rw [authEvents, effects, List.drop_left, if_pos live, List.append_nil, Engine.answerDue_live live,
    asks.due, asks.challenges]
  simp only [answerEvents, unheard, Bool.false_eq_true, ↓reduceIte, List.append_nil]
  exact exchange.challenge

end

/-! AUTH -/

section

variable {engine : Engine}

theorem refuse_over {Value : Type} (message : String) (engine : Engine) :
    Sat (refuse message : EngineM Value) engine (fun _ _ => False)
      (fun _ after => Unasked engine after ∧ after.underway = false) := by
  rw [refuse, sat_bind]
  exact (protocolDisconnect_over engine).mono (fun _ _ done => done) (fun _ _ none => none.elim)

/-- A check that ends the connection where it fails. -/
theorem onlyIf_over {condition : Prop} [Decidable condition] (message : String) (engine : Engine) :
    Sat (onlyIf condition (refuse message)) engine (fun _ after => ¬ condition ∧ after = engine)
      (fun _ after => Unasked engine after ∧ after.underway = false) := by
  rw [sat_onlyIf]
  refine ⟨fun _ => ?_, fun passed => ⟨passed, rfl⟩⟩
  exact (refuse_over message engine).mono (fun _ _ none => none.elim) (fun _ _ done => done)

theorem validateInboundProblemInformation_over (packetType : PacketType)
    (properties : Option Properties) (engine : Engine) :
    Sat (validateInboundProblemInformation packetType properties) engine (fun _ after => after = engine)
      (fun _ after => Unasked engine after ∧ after.underway = false) := by
  simp only [validateInboundProblemInformation, sat_bind, sat_get, sat_onlyIf, sat_throw, implies_true,
    and_true]
  exact fun _ => (protocolDisconnect_over engine).mono (fun _ _ done => done)
    (fun _ _ none => none.elim)

/-- What the phase of the connection makes of an AUTH. -/
theorem advanceAuth_sat (reasonCode : Nat) (live : engine.underway = true) :
    Sat (advanceAuth reasonCode) engine
      (fun _ after => (reasonCode = 0x18 ∧ after = engine) ∨
        (engine.state = .connected ∧ reasonCode = 0 ∧
          after = { engine with reauthInProgress := false, authResponseDue := none }))
      (fun _ after => Unasked engine after ∧ after.underway = false) := by
  have refused := @refuse_over PUnit
  simp only [advanceAuth, sat_bind, sat_get, sat_ite, sat_modify]
  refine ⟨fun opening => ?_, fun other => ⟨fun opened => ⟨fun _ => ?_, fun _ => ⟨fun success => ?_,
    fun _ => ?_⟩⟩, fun closed => ?_⟩⟩
  · apply (onlyIf_over _ engine).mono
    · rintro _ _ ⟨passed, same⟩
      exact .inl ⟨by simpa using passed, same⟩
    · exact fun _ _ done => done
  · exact (refused _ engine).mono (fun _ _ none => none.elim) (fun _ _ done => done)
  · exact .inr ⟨opened, success, trivial⟩
  · apply (onlyIf_over _ engine).mono
    · rintro _ _ ⟨passed, same⟩
      exact .inl ⟨by simpa using passed, same⟩
    · exact fun _ _ done => done
  · simp [Engine.underway, other, closed] at live

/-- The AUTH reaches the runtime, or the connection ends for want of a handler. -/
theorem surfaceAuth_sat (reasonCode : Nat) (properties : Option Properties) (engine : Engine) :
    Sat (surfaceAuth reasonCode properties) engine
      (fun _ after => (Unasked engine after ∧ after.underway = false) ∨
        (reasonCode = 0x18 ∧ after = { engine with
          authChallenges := engine.authChallenges + 1
          authResponseDue := some (engine.authChallenges + 1)
          effects := engine.effects ++ [.auth 0x18 properties (some (engine.authChallenges + 1))] }) ∨
        (reasonCode ≠ 0x18 ∧ after =
          { engine with effects := engine.effects ++ [.auth reasonCode properties none] }))
      (fun _ _ => False) := by
  simp only [surfaceAuth, sat_bind, sat_get, sat_ite, sat_modify, sat_emit]
  refine ⟨fun _ => ?_, fun _ => ⟨fun challenge => ?_, fun other => ?_⟩⟩
  · exact (protocolDisconnect_over engine).mono (fun _ _ done => .inl done) (fun _ _ none => none.elim)
  · subst challenge
    exact .inr (.inl ⟨rfl, rfl⟩)
  · exact .inr (.inr ⟨other, trivial⟩)

theorem onAuth_sat {raw : RawPacket} (kind : raw.packetType = .auth)
    (valid : validateRawPacket raw = .ok ()) (live : engine.underway = true) :
    Sat (onAuth raw) engine
      (fun _ after => Unchallenged (engine.hearsSuccess raw) engine after ∨
        (Asks engine after ∧ engine.hearsSuccess raw = false))
      (fun _ after => Unchallenged (engine.hearsSuccess raw) engine after) := by
  have past : ∀ failure after, Unasked engine after ∧ after.underway = false →
      Unchallenged (engine.hearsSuccess raw) engine after :=
    fun (_ : Failure) after done => done.1.ended done.2 _
  simp only [onAuth, sat_bind, sat_get, sat_ite]
  refine ⟨fun _ => ?_, fun _ => ?_⟩
  · exact (refuse_over _ engine).mono (fun _ _ none => none.elim) past
  rw [sat_fromExcept]
  refine ⟨?_, fun failure malformed => ?_⟩
  · rintro ⟨reasonCode, properties⟩ decoded
    apply (validateInboundProblemInformation_over _ _ engine).mono _ past
    intro _ _ same
    rw [same]
    apply (onlyIf_over _ _).mono _ past
    rintro _ _ ⟨_, same⟩
    rw [same]
    apply (onlyIf_over _ _).mono _ past
    rintro _ _ ⟨_, same⟩
    rw [same]
    apply (onlyIf_over _ _).mono _ past
    rintro _ _ ⟨_, same⟩
    rw [same]
    apply (advanceAuth_sat reasonCode live).mono _ past
    rintro _ _ (⟨challenge, same⟩ | ⟨opened, success, rfl⟩)
    · rw [same]
      have unheard : engine.hearsSuccess raw = false := by
        subst challenge
        cases state : engine.state <;> simp [Engine.hearsSuccess, kind, state, decoded]
      apply (surfaceAuth_sat reasonCode properties engine).mono _ fun _ _ none => none.elim
      rintro _ _ (done | ⟨_, rfl⟩ | ⟨other, _⟩)
      · exact .inl (done.1.ended done.2 _)
      · exact .inr ⟨⟨live, rfl, rfl, rfl, properties, rfl⟩, unheard⟩
      · exact absurd challenge other
    · have heard : engine.hearsSuccess raw = true := by
        simp [Engine.hearsSuccess, kind, opened, decoded, success, valid]
      rw [heard]
      subst success
      apply (surfaceAuth_sat 0 properties _).mono _ fun _ _ none => none.elim
      rintro _ _ (done | ⟨challenge, _⟩ | ⟨_, rfl⟩)
      · obtain ⟨unasked, ended⟩ := done
        exact .inl ⟨unasked.challenges, unasked.effects, fun live => absurd live (by simp [ended])⟩
      · cases challenge
      · exact .inl ⟨rfl, ⟨[.auth 0 properties none], rfl, rfl⟩, fun _ => .inr ⟨rfl, opened, rfl⟩⟩
  · have unheard : engine.hearsSuccess raw = false := by
      cases state : engine.state <;> simp [Engine.hearsSuccess, kind, state, malformed]
    rw [unheard]
    exact (Std.Refl.refl engine : Unasked engine engine).unchallenged

end

/-! CONNACK -/

section

variable {engine : Engine}

theorem validateConnackV5_over (reasonCode : Nat) (properties : Option Properties)
    (engine : Engine) :
    Sat (validateConnackV5 reasonCode properties) engine (fun _ after => after = engine)
      (fun _ after => Unasked engine after ∧ after.underway = false) := by
  simp only [validateConnackV5, sat_bind, sat_get]
  apply (onlyIf_over _ engine).mono _ fun _ _ done => done
  rintro _ _ ⟨_, same⟩
  rw [same]
  apply (onlyIf_over _ engine).mono _ fun _ _ done => done
  rintro _ _ ⟨_, same⟩
  rw [same]
  apply (onlyIf_over _ engine).mono _ fun _ _ done => done
  rintro _ _ ⟨_, same⟩
  rw [same]
  exact (onlyIf_over _ engine).mono (fun _ _ passed => passed.2) (fun _ _ done => done)

theorem validateAcceptedConnack_over (present : Bool) (properties : Option Properties)
    (engine : Engine) :
    Sat (validateAcceptedConnack present properties) engine (fun _ after => after = engine)
      (fun _ after => Unasked engine after ∧ after.underway = false) := by
  simp only [validateAcceptedConnack, sat_bind, sat_get]
  apply (onlyIf_over _ engine).mono _ fun _ _ done => done
  rintro _ _ ⟨_, same⟩
  rw [same]
  exact (onlyIf_over _ engine).mono (fun _ _ passed => passed.2) (fun _ _ done => done)

/-- A peer limit that leaves no room for an acknowledgement ends the connection. -/
theorem negotiate_over (properties : Option Properties) (engine : Engine) :
    Sat (negotiate properties) engine (fun _ after => Unasked engine after)
      (fun _ after => Unasked engine after ∧ after.underway = false) := by
  have moved := unasked_negotiate properties engine
  simp only [negotiate, sat_bind, sat_modify, sat_get] at moved ⊢
  cases limit : (NegotiatedSettings.fromConnack properties
    engine.sentSessionExpiryInterval).maximumPacketSize with
  | none =>
    simp only [limit] at moved ⊢
    exact moved
  | some limit' =>
    simp only [limit, sat_onlyIf, enterDisconnected, sat_bind, sat_modify, sat_throw] at moved ⊢
    exact ⟨fun small => ⟨moved.1 small, rfl⟩, moved.2⟩

/-- So does a session that the broker does not let resume. -/
theorem checked_over (checks : Sat Outbound.checkSessionReplayable engine (fun _ _ => True)
      (fun failure _ => ∃ text, failure = .sessionReplay text)) :
    Sat (tryCatch Outbound.checkSessionReplayable fun failure =>
      match failure with
      | .sessionReplay _ => do
        enterDisconnected
        throw failure
      | _ => throw failure : EngineM PUnit) engine (fun _ after => Unasked engine after)
      (fun _ after => Unasked engine after ∧ after.underway = false) := by
  rw [sat_tryCatch]
  apply (checks.and (unasked_checkSessionReplayable engine)).mono
  · exact fun _ _ done => done.2
  · rintro _ between ⟨⟨text, rfl⟩, moved⟩
    have ended := unasked_enterDisconnected between
    simp only [enterDisconnected, sat_bind, sat_modify, sat_throw] at ended ⊢
    exact ⟨Trans.trans moved ended, rfl⟩

/-- An accepted CONNACK ends the wait, and what follows finds nothing pending. -/
theorem reconcileSession_sat (present : Bool) (properties : Option Properties) {between : Engine}
    (moved : Unasked engine between) :
    Sat (reconcileSession present properties) between
      (fun _ after => Unchallenged true engine after)
      (fun _ after => Unchallenged true engine after) := by
  rw [reconcileSession, sat_bind, sat_modify]
  let opened : Engine :=
    { between with
      reauthInProgress := false, authResponseDue := none, state := .connected,
      sessionPresent := present }
  have unchallenged (after : Engine) (later : Unasked opened after) :
      Unchallenged true engine after := by
    obtain ⟨fresh, grown, silent⟩ := moved.effects
    obtain ⟨more, further, quiet⟩ := later.effects
    refine ⟨later.challenges.trans moved.challenges, ⟨fresh ++ more, ?_, by simp [silent, quiet]⟩, ?_⟩
    · rw [further, ← List.append_assoc, ← grown]
    · intro live
      obtain ⟨state, due⟩ := later.due live
      exact .inr ⟨rfl, state, due⟩
  exact (unasked_reconcile present properties opened).mono (fun _ after later => unchallenged after later)
    fun _ after later => unchallenged after later

theorem acceptConnack_sat {raw : RawPacket} {present : Bool} {properties : Option Properties}
    (decoded : engine.codec.decodeConnack raw.remaining = .ok (present, 0, properties))
    (checkable : engine.Checkable raw) :
    Sat (acceptConnack present properties) engine (fun _ after => Unchallenged true engine after)
      (fun _ after => Unchallenged true engine after) := by
  have past : ∀ failure after, Unasked engine after ∧ after.underway = false →
      Unchallenged true engine after :=
    fun (_ : Failure) after done => done.1.ended done.2 true
  simp only [acceptConnack, sat_bind]
  apply (validateAcceptedConnack_over present properties engine).mono _ past
  intro _ _ same
  rw [same]
  have prepares : Sat (negotiate properties) engine
      (fun _ limited => Unasked engine limited ∧ (present = true →
        Sat Outbound.checkSessionReplayable limited (fun _ _ => True)
          (fun failure _ => ∃ text, failure = .sessionReplay text)))
      (fun _ after => Unasked engine after ∧ after.underway = false) := by
    cases present with
    | true =>
      exact ((negotiate_over properties engine).and (checkable properties decoded)).mono
        (fun _ _ done => ⟨done.1, fun _ => done.2⟩) fun _ _ done => done.1
    | false =>
      exact (negotiate_over properties engine).mono (fun _ _ done => ⟨done, by simp⟩)
        fun _ _ done => done
  apply prepares.mono _ past
  rintro _ limited ⟨moved, checks⟩
  rw [sat_onlyIf]
  refine ⟨fun resumes => ?_, fun _ => reconcileSession_sat present properties moved⟩
  apply (checked_over (checks resumes)).mono
  · exact fun _ _ later => reconcileSession_sat present properties (Trans.trans moved later)
  · exact fun failure after done => past failure after ⟨Trans.trans moved done.1, done.2⟩

theorem onConnack_sat {raw : RawPacket} (kind : raw.packetType = .connack)
    (valid : validateRawPacket raw = .ok ()) (opening : engine.state = .connecting)
    (checkable : engine.Checkable raw) :
    Sat (onConnack raw) engine
      (fun _ after => Unchallenged (engine.hearsSuccess raw) engine after)
      (fun _ after => Unchallenged (engine.hearsSuccess raw) engine after) := by
  have past : ∀ failure after, Unasked engine after ∧ after.underway = false →
      Unchallenged (engine.hearsSuccess raw) engine after :=
    fun (_ : Failure) after done => done.1.ended done.2 _
  simp only [onConnack, sat_bind, sat_get, sat_raiseIf, sat_fromExcept]
  refine ⟨fun closed => absurd opening closed, fun _ => ⟨?_, fun failure malformed => ?_⟩⟩
  · rintro ⟨present, reasonCode, properties⟩ decoded
    have heard : engine.hearsSuccess raw = (reasonCode == 0) := by
      simp [Engine.hearsSuccess, kind, opening, decoded, valid]
    have finishes : Sat (if reasonCode ≠ 0 then do
        enterDisconnected
        emit (.connack present reasonCode properties)
        emit (.disconnected reasonCode properties true)
      else acceptConnack present properties : EngineM PUnit) engine
        (fun _ after => Unchallenged (engine.hearsSuccess raw) engine after)
        (fun _ after => Unchallenged (engine.hearsSuccess raw) engine after) := by
      simp only [sat_ite]
      refine ⟨fun refused => ?_, fun accepted => ?_⟩
      · simp only [enterDisconnected, sat_bind, sat_modify, sat_emit]
        exact ⟨rfl, ⟨_, List.append_assoc .., rfl⟩, by rintro ⟨⟩⟩
      · have zero : reasonCode = 0 := by simpa using accepted
        rw [heard, zero]
        exact acceptConnack_sat (zero ▸ decoded) checkable
    rw [sat_onlyIf]
    refine ⟨fun _ => ?_, fun _ => finishes⟩
    apply (validateConnackV5_over reasonCode properties engine).mono _ past
    intro _ _ same
    rw [same]
    exact finishes
  · have unheard : engine.hearsSuccess raw = false := by
      simp [Engine.hearsSuccess, kind, opening, malformed]
    rw [unheard]
    exact (Std.Refl.refl engine : Unasked engine engine).unchallenged

end

/-! Calls -/

section

variable {engine : Engine}

theorem hearsSuccess_cases {raw : RawPacket} (heard : engine.hearsSuccess raw = true) :
    validateRawPacket raw = .ok () ∧
      (engine.state = .connecting ∧ raw.packetType = .connack ∨
        engine.state = .connected ∧ raw.packetType = .auth) := by
  simp only [Engine.hearsSuccess, Bool.and_eq_true, decide_eq_true_eq] at heard
  refine ⟨heard.1, ?_⟩
  cases state : engine.state <;> cases kind : raw.packetType <;> simp [state, kind] at heard ⊢

theorem dispatch_auth {raw : RawPacket} (checkable : engine.Checkable raw) :
    Sat (dispatch raw) engine
      (fun _ after => Unchallenged (engine.hearsSuccess raw) engine after ∨
        (Asks engine after ∧ engine.hearsSuccess raw = false))
      (fun _ after => Unchallenged (engine.hearsSuccess raw) engine after) := by
  have quiet (after : Engine) (unasked : Unasked engine after)
      (unheard : engine.hearsSuccess raw = false) :
      Unchallenged (engine.hearsSuccess raw) engine after := by
    rw [unheard]
    exact unasked.unchallenged
  have still : Unasked engine engine := Std.Refl.refl engine
  simp only [dispatch, sat_bind, sat_fromExcept, sat_get]
  refine ⟨fun _ valid => ?_, fun failure invalid => quiet engine still ?_⟩
  · cases found : handlerFor engine.state raw.packetType with
    | none =>
      refine quiet engine still (Bool.eq_false_iff.mpr fun heard => ?_)
      rcases (hearsSuccess_cases heard).2 with ⟨state, kind⟩ | ⟨state, kind⟩
      · simp [state, kind, handlerFor] at found
      · simp [state, kind, handlerFor] at found
    | some handler =>
      by_cases accepts : raw.packetType = .connack
      · obtain ⟨opening, rfl⟩ := handler_connack found accepts
        exact (onConnack_sat accepts valid opening checkable).mono (fun _ _ done => .inl done)
          (fun _ _ done => done)
      · by_cases asks : raw.packetType = .auth
        · have handled : engine.underway = true ∧ handler = onAuth := by
            rw [asks] at found
            cases state : engine.state <;> simp_all [handlerFor, Engine.underway]
          obtain ⟨live, rfl⟩ := handled
          exact onAuth_sat asks valid live
        · have unheard : engine.hearsSuccess raw = false := by
            refine Bool.eq_false_iff.mpr fun heard => ?_
            rcases (hearsSuccess_cases heard).2 with ⟨_, kind⟩ | ⟨_, kind⟩
            · exact accepts kind
            · exact asks kind
          exact (unasked_handler found accepts asks raw engine).mono
            (fun _ after unasked => .inl (quiet after unasked unheard))
            (fun _ after unasked => quiet after unasked unheard)
  · refine Bool.eq_false_iff.mpr fun heard => ?_
    simp [(hearsSuccess_cases heard).1] at invalid

/-- Handling a packet leaves the exchange to itself, hands a challenge over, or hears of a
success, after which nothing is awaited. -/
theorem handleRaw_auth {raw : RawPacket} (checkable : engine.Checkable raw) :
    Sat (handleRaw raw) engine
      (fun _ after => Unchallenged (engine.hearsSuccess raw) engine after ∨
        (Asks engine after ∧ engine.hearsSuccess raw = false))
      (fun _ after => Unchallenged (engine.hearsSuccess raw) engine after) := by
  simp only [handleRaw, sat_bind, sat_get, sat_ite, sat_pure, sat_catching]
  refine ⟨fun ended => ?_, fun _ => ?_⟩
  · have unheard : engine.hearsSuccess raw = false := by
      refine Bool.eq_false_iff.mpr fun heard => ?_
      rcases (hearsSuccess_cases heard).2 with ⟨state, _⟩ | ⟨state, _⟩
      · simp [state] at ended
      · simp [state] at ended
    rw [unheard]
    exact .inl (Std.Refl.refl engine : Unasked engine engine).unchallenged
  · apply (dispatch_auth checkable).mono
    · exact fun _ _ done => done
    · exact fun _ _ unchallenged => ⟨fun _ => .inl (unchallenged.emit rfl), fun _ => unchallenged⟩

/-- A client AUTH is sent and nothing is awaited, or nothing happens. -/
theorem queueAuth_sat (reasonCode : Nat) (properties : Option Properties) (engine : Engine) :
    Sat (queueAuth reasonCode properties) engine
      (fun _ after => ∃ wire again, frameCode wire = some PacketType.auth.code ∧
        after = { engine with
          effects := engine.effects ++ [.send (.contiguous wire)]
          authResponseDue := none
          reauthInProgress := again })
      (fun _ after => after = engine) := by
  simp only [queueAuth, sat_bind, sat_get, sat_raiseIf, implies_true, true_and]
  intro _ _
  split
  · exact rfl
  · simp only [sat_bind, sat_raiseIf, sat_fromExcept, sat_modify, send, sat_emit, implies_true,
      true_and, and_true]
    intro _ _ _ _ _ wire encoded
    apply sat_checkOutboundSize
    · exact ⟨wire, _, frameCode_encodeAuthV5 encoded, rfl⟩
    · exact fun _ => rfl

/-- An answer that is not awaited changes nothing. -/
theorem respondAuth_stale {challenge : Option Nat} (reasonCode : Nat)
    (properties : Option Properties) (stale : challenge = none ∨ challenge ≠ engine.answerDue) :
    respondAuth challenge reasonCode properties engine = .ok false engine := by
  have answered : Sat (respondAuth challenge reasonCode properties) engine
      (fun answer after => answer = false ∧ after = engine) (fun _ _ => False) := by
    simp only [respondAuth, sat_bind, sat_get, sat_ite, sat_pure]
    refine ⟨fun _ => ⟨trivial, trivial⟩, fun due => ⟨fun _ => ⟨trivial, trivial⟩, fun open_ => ?_⟩⟩
    have live : engine.underway = true := by simpa [Engine.underway, Classical.or_iff_not_imp_left] using open_
    rw [Engine.answerDue_live live] at stale
    exact absurd stale due
  cases ran : respondAuth challenge reasonCode properties engine with
  | ok answer after =>
    obtain ⟨rfl, rfl⟩ := answered.ok ran
    rfl
  | error failure after => exact (answered.error ran).elim

/-- The awaited answer is one AUTH packet, or nothing happens. -/
theorem respondAuth_awaited {number : Nat} (reasonCode : Nat) (properties : Option Properties)
    (awaited : engine.answerDue = some number) :
    Sat (respondAuth (some number) reasonCode properties) engine
      (fun answer after => answer = true ∧ ∃ wire again, frameCode wire = some PacketType.auth.code ∧
        after = { engine with
          effects := engine.effects ++ [.send (.contiguous wire)]
          authResponseDue := none
          reauthInProgress := again })
      (fun _ after => after = engine) := by
  have live : engine.underway = true := by
    by_contra past
    simp [Engine.answerDue, past] at awaited
  rw [Engine.answerDue_live live] at awaited
  have open_ : ¬ (engine.state ≠ .connecting ∧ engine.state ≠ .connected) := by
    simpa [Engine.underway, Classical.or_iff_not_imp_left] using live
  simp only [respondAuth, sat_bind, sat_get, sat_ite, sat_pure]
  refine ⟨fun stale => ?_, fun _ => ⟨fun closed => absurd closed open_, fun _ => ?_⟩⟩
  · simp [awaited] at stale
  · exact (queueAuth_sat reasonCode properties engine).mono (fun _ _ sent => ⟨trivial, sent⟩)
      (fun _ _ same => same)

end

end Mqttium
