import Mqttium.Connection.Authentication
import Mqttium.Refinement.Chronicle

/-! Every run is an exchange: a challenge is answered by one AUTH at most, and only as
long as nothing else happened since. -/

namespace Mqttium

open Codec Library Packets Persistence Protocol ChallengeEvent Withdrawal

section

variable {engine after : Engine}

theorem answerEvents_apart {command : Command} (apart : command.Apart) :
    answerEvents engine command after = [] := by
  cases command <;> first | rfl | exact apart.elim

theorem authEvents_plain {command : Command}
    (effects : ∃ fresh, after.effects = engine.effects ++ fresh ∧
      fresh.filterMap Effect.challenge? = [])
    (silent : answerEvents engine command after = []) :
    authEvents engine command after = if after.underway then [] else [withdrawn lapsed] := by
  rw [authEvents, authEvents_silent effects, silent]
  rfl

theorem converses_apart {command : Command} (apart : command.Apart) (unasked : Unasked engine after) :
    Converses (authEvents engine command after) engine after := by
  rw [authEvents_plain unasked.effects (answerEvents_apart apart)]
  exact unasked.converses

/-- A call that left everything as it was, and is no packet. -/
theorem converses_unmoved {command : Command} (quiet : answerEvents engine command engine = [])
    (same : after = engine) : Converses (authEvents engine command after) engine after := by
  subst same
  have unasked : Unasked after after := Std.Refl.refl after
  rw [authEvents_plain unasked.effects quiet]
  exact unasked.converses

theorem converses_takeEffects :
    Sat Command.takeEffects.run engine
      (fun _ after => Converses (authEvents engine .takeEffects after) engine after)
      (fun _ after => Converses (authEvents engine .takeEffects after) engine after) := by
  have taken (inbound : InboundSession) :
      Converses (authEvents engine .takeEffects { engine with effects := [], inbound := inbound })
        engine { engine with effects := [], inbound := inbound } := by
    have unasked : Unasked { engine with effects := [] } { engine with effects := [], inbound := inbound } :=
      .same rfl rfl rfl rfl rfl
    have plain : authEvents engine .takeEffects { engine with effects := [], inbound := inbound } =
        if engine.underway then [] else [withdrawn lapsed] := by
      simp [authEvents, answerEvents, Engine.underway]
    rw [plain]
    exact unasked.converses
  simp only [Command.run, takeEffects, Inbound.releasePendingAcks, modifyInbound, sat_map, sat_bind,
    sat_get, sat_modify, sat_onlyIf, sat_pure]
  exact ⟨fun _ => taken _, fun _ => taken engine.inbound⟩

/-- A CONNECT is sent on a new connection, where nothing is awaited yet. -/
theorem converses_beginConnect :
    Sat Command.beginConnect.run engine
      (fun _ after => Converses (authEvents engine .beginConnect after) engine after)
      (fun _ after => Converses (authEvents engine .beginConnect after) engine after) := by
  simp only [Command.run, beginConnect, Inbound.startConnection, modifyInbound, sat_map, sat_bind,
    sat_get, sat_modify, sat_raiseIf, sat_fromExcept, sat_pure]
  refine ⟨fun _ => converses_unmoved rfl rfl, fun closed => ⟨fun _ _ => ?_, fun _ _ =>
    converses_unmoved rfl rfl⟩⟩
  intro log exchange
  have past : engine.underway = false := by
    cases state : engine.state <;> simp_all [Engine.underway]
  rw [Engine.answerDue_over past] at exchange
  simpa [authEvents, answerEvents, Engine.underway, Engine.answerDue] using exchange

theorem converses_sent {command : Command} {wire : Bytes} {again : Bool}
    (spoken : after = { engine with
      effects := engine.effects ++ [.send (.contiguous wire)]
      authResponseDue := none
      reauthInProgress := again })
    {event : AuthEvent} (said : answerEvents engine command after = [event])
    (ends : ∀ log, Exchange engine.answerDue engine.authChallenges log →
      Exchange none engine.authChallenges (log ++ [event])) :
    Converses (authEvents engine command after) engine after := by
  intro log exchange
  have live : after.underway = engine.underway := by rw [spoken]; rfl
  have challenges : after.authChallenges = engine.authChallenges := by rw [spoken]
  have silent : (after.effects.drop engine.effects.length).filterMap Effect.challenge? = [] := by
    rw [spoken, List.drop_left]
    rfl
  have awaited : after.answerDue = none := by
    simp [Engine.answerDue, spoken]
  rw [authEvents, silent, said, awaited, challenges, List.map_nil, List.nil_append, live]
  split
  · rw [List.append_nil]
    exact ends log exchange
  · rw [← List.append_assoc]
    exact (ends log exchange).withdraw lapsed

theorem converses_queueAuth (reasonCode : Nat) (properties : Option Properties) :
    Sat (Command.queueAuth reasonCode properties).run engine
      (fun _ after => Converses (authEvents engine (.queueAuth reasonCode properties) after) engine after)
      (fun _ after =>
        Converses (authEvents engine (.queueAuth reasonCode properties) after) engine after) := by
  rw [Command.run, sat_map]
  apply (queueAuth_sat reasonCode properties engine).mono
  · rintro _ after ⟨wire, again, _, spoken⟩
    have sent : emitted engine after = [.contiguous wire] := by
      rw [emitted, spoken, List.drop_left]
      rfl
    exact converses_sent spoken (by rw [answerEvents, sent]; rfl)
      fun log exchange => exchange.withdraw requested
  · exact fun _ _ same => converses_unmoved (by simp [answerEvents, emitted_self]) same

theorem converses_respondAuth (challenge : Option Nat) (reasonCode : Nat)
    (properties : Option Properties) :
    Sat (Command.respondAuth challenge reasonCode properties).run engine
      (fun _ after => Converses
        (authEvents engine (.respondAuth challenge reasonCode properties) after) engine after)
      (fun _ after => Converses
        (authEvents engine (.respondAuth challenge reasonCode properties) after) engine after) := by
  have quiet : answerEvents engine (.respondAuth challenge reasonCode properties) engine = [] := by
    cases challenge with
    | none => rfl
    | some number => simp [answerEvents, emitted_self]
  rw [Command.run, sat_map]
  by_cases stale : challenge = none ∨ challenge ≠ engine.answerDue
  · exact Sat.of_ok (respondAuth_stale reasonCode properties stale) (converses_unmoved quiet rfl)
  · rw [not_or, not_not] at stale
    obtain ⟨number, rfl⟩ := Option.ne_none_iff_exists'.mp stale.1
    apply (respondAuth_awaited reasonCode properties stale.2.symm).mono
    · rintro _ after ⟨_, wire, again, _, spoken⟩
      have sent : emitted engine after = [.contiguous wire] := by
        rw [emitted, spoken, List.drop_left]
        rfl
      refine converses_sent spoken (by rw [answerEvents, sent]; rfl) fun log exchange => ?_
      rw [← stale.2] at exchange
      exact exchange.answer
    · exact fun _ _ same => converses_unmoved quiet same

/-- The events of a call lead from what was pending before it to what is pending after. -/
theorem converses_run {command : Command}
    (checkable : ∀ raw, command = .handleRaw raw → engine.Checkable raw) :
    Sat command.run engine
      (fun _ after => Converses (authEvents engine command after) engine after)
      (fun _ after => Converses (authEvents engine command after) engine after) := by
  have apart (apart : command.Apart) :
      Sat command.run engine
        (fun _ after => Converses (authEvents engine command after) engine after)
        (fun _ after => Converses (authEvents engine command after) engine after) :=
    (unasked_run apart engine).mono (fun _ _ unasked => converses_apart apart unasked)
      (fun _ _ unasked => converses_apart apart unasked)
  cases command with
  | beginConnect => exact converses_beginConnect
  | takeEffects => exact converses_takeEffects
  | queueAuth reasonCode properties => exact converses_queueAuth reasonCode properties
  | respondAuth challenge reasonCode properties =>
    exact converses_respondAuth challenge reasonCode properties
  | handleRaw raw =>
    rw [Command.run, sat_map]
    apply (handleRaw_auth (checkable raw rfl)).mono
    · rintro _ after (unchallenged | ⟨asks, unheard⟩)
      · exact unchallenged.converses
      · exact asks.converses unheard
    · exact fun _ _ unchallenged => unchallenged.converses
  | _ => exact apart trivial

end

/-! Runs -/

/-- The pending challenge and the history agree. -/
def Dialogue.Sound (dialogue : Dialogue) : Prop :=
  Exchange dialogue.session.engine.answerDue dialogue.session.engine.authChallenges dialogue.log

theorem Dialogue.Sound.step {dialogue : Dialogue} (sound : dialogue.Sound) {command : Command}
    (checkable : ∀ raw, command = .handleRaw raw → dialogue.session.engine.Checkable raw) :
    (dialogue.step command).Sound := by
  let leads (after : Engine) : Prop :=
    Converses (authEvents dialogue.session.engine command after) dialogue.session.engine after
  have converses : leads (dialogue.session.step command).engine :=
    Protocol.Session.step_sat (converses_run checkable)
  exact converses dialogue.log sound

/-- Each packet of the run, when its turn comes, meets a store whose reads do not fail. -/
def Dialogue.Attentive (dialogue : Dialogue) (commands : List Command) : Prop :=
  ∀ front raw rest, commands = front ++ .handleRaw raw :: rest →
    (dialogue.run front).session.engine.Checkable raw

theorem Dialogue.Sound.run {dialogue : Dialogue} (sound : dialogue.Sound) {commands : List Command}
    (attentive : dialogue.Attentive commands) : (dialogue.run commands).Sound := by
  induction commands generalizing dialogue with
  | nil => exact sound
  | cons command rest ih =>
    refine ih (sound.step fun raw handles => ?_) fun front raw later parts => ?_
    · exact attentive [] raw rest (by rw [handles, List.nil_append])
    · exact attentive (command :: front) raw later (by rw [parts, List.cons_append])

/-- A new engine waits for nothing. -/
theorem create_sound {config : EngineConfig} {store : Store} {engine : Engine}
    (created : Engine.create config store = .ok engine) : Dialogue.Sound ⟨⟨engine, []⟩, []⟩ := by
  obtain ⟨recovered, _, hydrated⟩ := create_ok created
  have hydrates : Within Unasked Outbound.hydrate := outward_hydrate
  have moved := (hydrates _).ok hydrated
  have challenges : engine.authChallenges = 0 := moved.challenges
  have past : engine.underway = false := by
    refine Bool.eq_false_iff.mpr fun live => ?_
    have state : engine.state = .new := (moved.due live).1
    simp [Engine.underway, state] at live
  show Exchange engine.answerDue engine.authChallenges []
  rw [challenges, Engine.answerDue_over past]
  exact .start

/-! A store that does not fail -/

theorem Dialogue.step_engine (dialogue : Dialogue) (command : Command) :
    (dialogue.step command).session.engine = dialogue.session.engine.after command := by
  change (dialogue.session.step command).engine = _
  cases ended : command.run dialogue.session.engine with
  | ok returned after => rw [Protocol.Session.step_engine ended, Engine.after_ok ended]
  | error failure after => rw [Protocol.Session.step_error ended, Engine.after_error ended]

/-- The chronicle of the publications follows the same engine. -/
theorem Dialogue.run_engine {dialogue : Dialogue} {chronicle : Chronicle}
    (same : dialogue.session.engine = chronicle.engine) (commands : List Command) :
    (dialogue.run commands).session.engine = (chronicle.run commands).engine := by
  induction commands generalizing dialogue chronicle with
  | nil => exact same
  | cons command rest ih =>
    exact ih ((dialogue.step_engine command).trans (congrArg (Engine.after · command) same))

/-- No session check fails for the store where the store does not fail. -/
theorem written_attentive {config : EngineConfig} {store : Store} {engine : Engine}
    (written : store.Written) (created : Engine.create config store = .ok engine)
    (commands : List Command) : Dialogue.Attentive ⟨⟨engine, []⟩, []⟩ commands := by
  intro front raw rest _ properties _
  rw [@Dialogue.run_engine ⟨⟨engine, []⟩, []⟩ (Chronicle.start engine) rfl front]
  have recorded := (create_recorded written created).run front
  have settles : Within (Aside ((Chronicle.start engine).run front).watch) (negotiate properties) :=
    heedless_negotiate properties
  apply (settles ((Chronicle.start engine).run front).engine).mono _ fun _ _ _ => trivial
  intro _ limited kept
  have coherent := (kept recorded).progress.tracking.coherent
  exact (checkSessionReplayable_sat coherent).mono (fun _ _ _ => trivial) fun _ _ failed => failed.2.1

/-- Where no session check fails for the store, a challenge is handed over once and answered
once at most, and its answer comes right after it: before a newer challenge, an AUTH of the
client's own, any success the peer reports or the end of the connection. Any other answer
changes nothing; the one that is awaited is one AUTH. -/
theorem challenge_answered_once {config : EngineConfig} {store : Store} {engine : Engine}
    (created : Engine.create config store = .ok engine) {commands : List Command}
    (attentive : Dialogue.Attentive ⟨⟨engine, []⟩, []⟩ commands) :
    let dialogue := Dialogue.run ⟨⟨engine, []⟩, []⟩ commands
    (∀ number, dialogue.log.count (challenged number) ≤ 1 ∧
      dialogue.log.count (answered number) ≤ 1) ∧
    (∀ number before rest, dialogue.log = before ++ answered number :: rest →
      ∃ earlier, before = earlier ++ [challenged number]) ∧
    (∀ challenge reasonCode properties,
      (∀ number, challenge = some number → ¬ ∃ earlier, dialogue.log = earlier ++ [challenged number]) →
      respondAuth challenge reasonCode properties dialogue.session.engine =
        .ok false dialogue.session.engine) ∧
    (∀ number reasonCode properties, (∃ earlier, dialogue.log = earlier ++ [challenged number]) →
      Sat (respondAuth (some number) reasonCode properties) dialogue.session.engine
        (fun answer after => answer = true ∧ ∃ wire, frameCode wire = some PacketType.auth.code ∧
          emitted dialogue.session.engine after = [.contiguous wire])
        (fun _ after => after = dialogue.session.engine)) ∧
    ∀ raw, dialogue.session.engine.Checkable raw → dialogue.session.engine.hearsSuccess raw = true →
      ∀ challenge reasonCode properties,
        let after := dialogue.session.engine.after (.handleRaw raw)
        respondAuth challenge reasonCode properties after = .ok false after := by
  intro dialogue
  have sound : dialogue.Sound := (create_sound created).run attentive
  have pending (number : Nat) : dialogue.session.engine.answerDue = some number ↔
      ∃ earlier, dialogue.log = earlier ++ [challenged number] := Exchange.pending_iff sound
  refine ⟨fun number => ⟨Exchange.challenged_once sound, Exchange.answered_once sound⟩,
    fun number before rest parts => Exchange.answers sound parts, ?_, ?_, ?_⟩
  · intro challenge reasonCode properties stale
    refine respondAuth_stale reasonCode properties ?_
    cases challenge with
    | none => exact .inl rfl
    | some number => exact .inr fun due => stale number rfl ((pending number).mp due.symm)
  · intro number reasonCode properties last
    apply (respondAuth_awaited reasonCode properties ((pending number).mpr last)).mono
    · rintro answer after ⟨rfl, wire, again, code, rfl⟩
      refine ⟨rfl, wire, code, ?_⟩
      rw [emitted, List.drop_left]
      rfl
    · exact fun _ _ same => same
  · intro raw checkable heard challenge reasonCode properties
    have settles : Sat (Command.handleRaw raw).run dialogue.session.engine
        (fun _ after => after.answerDue = none) (fun _ after => after.answerDue = none) := by
      have handles := handleRaw_auth checkable
      rw [heard] at handles
      rw [Command.run, sat_map]
      apply handles.mono
      · rintro _ after (unchallenged | ⟨_, unheard⟩)
        · exact unchallenged.settled
        · cases unheard
      · exact fun _ _ unchallenged => unchallenged.settled
    refine respondAuth_stale reasonCode properties ?_
    rw [Engine.after_sat settles]
    exact (eq_or_ne challenge none).imp id id

/-- Enhanced authentication with a method of one letter. -/
def authConfig : EngineConfig where
  protocol := .mqttv5
  acceptAuth := true
  connectProperties := some ⟨⟨[(.authenticationMethod, .scalar (.text [109]))], by decide⟩⟩
  accepted := rfl

def authEngine : Engine := Engine.started authConfig { kind := .memory } (∅, 0, [])

/-- The server challenges twice, the second challenge is answered twice, and the connection
opens. -/
def twiceChallenged : List Command :=
  [.beginConnect, .handleRaw ⟨.auth, 0, [24, 4, 21, 0, 1, 109]⟩, .takeEffects,
   .handleRaw ⟨.auth, 0, [24, 4, 21, 0, 1, 109]⟩, .takeEffects, .respondAuth (some 1) 24 none,
   .respondAuth (some 2) 24 none, .handleRaw ⟨.connack, 0, [0, 0, 8, 18, 0, 1, 97, 21, 0, 1, 109]⟩]

set_option maxRecDepth 4000 in
theorem challenge_answered_once_twice :
    let dialogue := Dialogue.run ⟨⟨authEngine, []⟩, []⟩ twiceChallenged
    dialogue.log = [challenged 1, challenged 2, answered 2, withdrawn succeeded] ∧
    respondAuth (some 2) 24 none dialogue.session.engine = .ok false dialogue.session.engine := by
  intro dialogue
  have created : Engine.create authConfig { kind := .memory } = .ok authEngine := rfl
  have log : dialogue.log = [challenged 1, challenged 2, answered 2, withdrawn succeeded] := by decide
  obtain ⟨_, _, stale, _⟩ :=
    challenge_answered_once created (written_attentive memory_written created twiceChallenged)
  refine ⟨log, stale (some 2) 24 none ?_⟩
  intro number _ ⟨earlier, same⟩
  have last := congrArg List.getLast? (log.symm.trans same)
  simp at last

/-- A client that resumes its session. -/
def resumingConfig : EngineConfig := { authConfig with clientId := [97], cleanStart := false, accepted := rfl }

/-- One publication in flight; the second read of a summary page fails. -/
def unreadStore : Store :=
  { ({ kind := .memory } : Store).putOut
      { mid := 1, topic := [116], payload := [1], qos := .atLeastOnce, retain := false
        state := .waitPuback, logicalSize := 2 } with
    faults := fun call => if call = .outSummaryPage then [none, some .beforeEffect] else [] }

def unreadEngine : Engine :=
  match Engine.create resumingConfig unreadStore with
  | .ok engine => engine
  | .error _ => authEngine

/-- The check of the session to resume fails for the store, and the challenge is answered after
the CONNACK that accepted the client. -/
def answeredLate : List Command :=
  [.beginConnect, .handleRaw ⟨.auth, 0, [24, 4, 21, 0, 1, 109]⟩, .takeEffects,
   .handleRaw ⟨.connack, 0, [1, 0, 9, 39, 0, 0, 1, 0, 21, 0, 1, 109]⟩, .respondAuth (some 1) 24 none]

set_option maxRecDepth 8000 in
/-- Without a condition on the store an answer can follow a success. -/
theorem challenge_answered_once_late :
    ¬ ∀ (config : EngineConfig) (store : Store) (engine : Engine),
      Engine.create config store = .ok engine → ∀ commands number before rest,
        (Dialogue.run ⟨⟨engine, []⟩, []⟩ commands).log = before ++ answered number :: rest →
          ∃ earlier, before = earlier ++ [challenged number] := by
  intro always
  have created : Engine.create resumingConfig unreadStore = .ok unreadEngine := rfl
  have log : (Dialogue.run ⟨⟨unreadEngine, []⟩, []⟩ answeredLate).log =
      [challenged 1, withdrawn succeeded, answered 1] := by decide
  obtain ⟨earlier, same⟩ := always _ _ _ created answeredLate 1 [challenged 1, withdrawn succeeded] [] log
  have last := congrArg List.getLast? same
  simp at last

end Mqttium
