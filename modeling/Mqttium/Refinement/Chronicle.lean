import Mqttium.Refinement.Replayable
import Mqttium.Refinement.Reporting

/-! A client and the chronicle of its publications: what its inputs tell and its effects
show, from the start of its engine. -/

namespace Mqttium

open Codec Library Packets Persistence Protocol

/-- The identifier under which a call admits a publication. -/
def Protocol.Command.admitted (engine : Engine) : Command → Option Nat
  | .queuePublish choice call =>
    match Outbound.queuePublish choice call engine with
    | .ok taken _ => taken
    | .error _ _ => none
  | _ => none

/-- What a packet that is processed tells of the publications. -/
def Protocol.Engine.hears (engine : Engine) (raw : RawPacket) : List Event :=
  match raw.packetType with
  | .connack =>
    match engine.codec.decodeConnack raw.remaining with
    | .ok (present, 0, properties) =>
      [.session present
        (NegotiatedSettings.fromConnack properties engine.sentSessionExpiryInterval).receiveMaximum]
    | _ => []
  | _ => ackEvents engine raw

/-- What the input of a call tells of the publications. -/
def Protocol.Command.tells (engine : Engine) (command : Command) : List Event :=
  match command with
  | .handleRaw raw => if engine.processes raw then engine.hears raw else []
  | .queuePublish _ _ =>
    (command.admitted engine).toList.map fun mid => .admitted (engine.store.outSeq + 1) mid
  | .sealPublications _ => sealedSince engine (engine.after command)
  | _ => []

structure Chronicle where
  engine : Engine
  log : List Event := []

namespace Chronicle

/-- What an observer knows between calls: the log so far, and whom the identifiers name. -/
def watch (chronicle : Chronicle) : Watch where
  base := chronicle.engine.effects.length
  past := chronicle.log
  who := fun mid => (chronicle.engine.store.out.get? mid).map OutRow.seq

/-- What an observer of a call knows: its input, and the publication that it admits. -/
def observer (chronicle : Chronicle) (command : Command) : Watch :=
  let named := match command.admitted chronicle.engine with
    | some mid => chronicle.watch.naming mid (chronicle.engine.store.outSeq + 1)
    | none => chronicle.watch
  named.learn (command.tells chronicle.engine)

def step (chronicle : Chronicle) (command : Command) : Chronicle where
  engine := chronicle.engine.after command
  log := (chronicle.observer command).log (chronicle.engine.after command).effects

def run (chronicle : Chronicle) (commands : List Command) : Chronicle :=
  commands.foldl step chronicle

@[simp] theorem run_nil (chronicle : Chronicle) : chronicle.run [] = chronicle := rfl

@[simp] theorem run_concat (chronicle : Chronicle) (commands : List Command) (command : Command) :
    chronicle.run (commands ++ [command]) = (chronicle.run commands).step command := by
  simp [run]

/-- The ledger that the engine keeps. -/
def ledger (chronicle : Chronicle) : Ledger := view chronicle.watch chronicle.engine

/-- The engine can go on, and its records agree with the log. -/
def Recorded (chronicle : Chronicle) : Prop := Ready chronicle.watch chronicle.engine

@[simp] theorem ledger_log (chronicle : Chronicle) : chronicle.ledger.log = chronicle.log := by
  simp [ledger, view, Watch.log, watch]

end Chronicle

/-- A call that seals publications. -/
def Protocol.Command.seals : Command → Bool
  | .sealPublications _ => true
  | _ => false

/-- What a call does: the ledger moves, or admits a publication straight to the wire. -/
structure Follows (before after : Chronicle) (command : Command) : Prop where
  recorded : after.Recorded
  turn : Steps before.ledger after.ledger ∨ before.engine.state = .connected ∧
    ∃ mid size target, Ledger.Launchable before.ledger mid size target ∧
      after.ledger = before.ledger.admitLaunched mid size target
  opened : after.engine.state = .connected → before.engine.state = .connected ∨
    ∃ present receiveMaximum, command.tells before.engine = [.session present receiveMaximum]
  busy : command.seals = false → Busy before.engine → Busy after.engine

/-! The observer's view after a call -/

section

variable {chronicle : Chronicle} {command : Command} {engine after : Engine} {raw : RawPacket}
  {watch : Watch}

theorem Chronicle.ledger_step : (chronicle.step command).ledger =
    view (chronicle.observer command) (chronicle.engine.after command) :=
  view_renewed rfl

theorem Chronicle.recorded_step
    (ready : Ready (chronicle.observer command) (chronicle.engine.after command)) :
    (chronicle.step command).Recorded :=
  ready.renewed rfl

theorem Chronicle.observer_quiet (beside : command.admitted chronicle.engine = none)
    (silent : command.tells chronicle.engine = []) : chronicle.observer command = chronicle.watch := by
  simp [observer, beside, silent]

theorem Chronicle.observer_learn (beside : command.admitted chronicle.engine = none) :
    chronicle.observer command = chronicle.watch.learn (command.tells chronicle.engine) := by
  simp [observer, beside]

/-- A call whose moves were followed piece by piece. -/
theorem Chronicle.Recorded.follows (recorded : chronicle.Recorded)
    (progress : Progress chronicle.watch (chronicle.observer command) chronicle.engine
      (chronicle.engine.after command))
    (busy : command.seals = false → Busy chronicle.engine → Busy (chronicle.engine.after command))
    (opened : (chronicle.engine.after command).state = .connected →
      chronicle.engine.state = .connected ∨
        ∃ present receiveMaximum, command.tells chronicle.engine = [.session present receiveMaximum]) :
    Follows chronicle (chronicle.step command) command := by
  refine ⟨recorded_step (Ready.progress recorded progress), .inl ?_, opened, busy⟩
  rw [ledger_step]
  exact progress.steps

/-! Calls beside the publications -/

theorem Protocol.Command.Beside.quiet (beside : command.Beside) (engine : Engine) :
    command.admitted engine = none ∧ command.tells engine = [] ∧ command.seals = false := by
  cases command <;> first | exact beside.elim | exact ⟨rfl, rfl, rfl⟩

theorem Chronicle.Recorded.handled_beside (recorded : chronicle.Recorded) (beside : command.Beside) :
    Handled chronicle.watch (chronicle.observer command) chronicle.engine
      (chronicle.engine.after command) := by
  obtain ⟨unnamed, silent, _⟩ := beside.quiet chronicle.engine
  have aside : Within (Aside chronicle.watch) command.run :=
    beside_run beside aside_queueSubscribe aside_queueUnsubscribe
  have handled := Engine.after_sat (aside chronicle.engine) recorded
  rwa [Chronicle.observer_quiet unnamed silent]

/-- Such a call moves the ledger; it admits nothing. -/
theorem Chronicle.Recorded.steps_beside (recorded : chronicle.Recorded) (beside : command.Beside) :
    Steps chronicle.ledger (chronicle.step command).ledger := by
  rw [Chronicle.ledger_step]
  exact (recorded.handled_beside beside).progress.steps

theorem Chronicle.Recorded.follows_beside (recorded : chronicle.Recorded) (beside : command.Beside) :
    Follows chronicle (chronicle.step command) command := by
  have spares : Within Undisturbed command.run :=
    beside_run beside undisturbed_queueSubscribe undisturbed_queueUnsubscribe
  have spared := Engine.after_sat (spares chronicle.engine)
  have handled := recorded.handled_beside beside
  exact recorded.follows handled.progress (fun _ => handled.busy)
    fun connected => .inl (spared.state connected)

/-! Effects that are taken -/

theorem takeEffects_taken (engine : Engine) : engine.after .takeEffects =
    { engine with effects := [], inbound := (engine.after .takeEffects).inbound } := by
  have taken : Sat Command.takeEffects.run engine
      (fun _ after => after = { engine with effects := [], inbound := after.inbound })
      (fun _ after => after = { engine with effects := [], inbound := after.inbound }) := by
    simp only [Command.run, sat_map, takeEffects, Inbound.releasePendingAcks, modifyInbound, sat_bind,
      sat_get, sat_modify, sat_onlyIf, sat_pure]
    exact ⟨fun _ => trivial, fun _ => trivial⟩
  have same := Engine.after_sat taken
  exact same

theorem Chronicle.Recorded.follows_taken (recorded : chronicle.Recorded) :
    Follows chronicle (chronicle.step .takeEffects) .takeEffects := by
  have same := takeEffects_taken chronicle.engine
  have nothing : (chronicle.engine.after .takeEffects).effects = [] := by rw [same]
  have shape : chronicle.engine.after .takeEffects = { chronicle.engine with
      effects := (chronicle.engine.after .takeEffects).effects
      inbound := (chronicle.engine.after .takeEffects).inbound } := by
    rw [nothing]
    exact same
  have renewed : (chronicle.step .takeEffects).watch =
      chronicle.watch.renewed chronicle.engine (chronicle.engine.after .takeEffects) := by
    have before : chronicle.watch.log chronicle.engine.effects = chronicle.log := by
      simp [Watch.log, Chronicle.watch]
    have after : (chronicle.step .takeEffects).log = chronicle.log := by
      simp only [Chronicle.step, Chronicle.observer_quiet
        (rfl : Command.takeEffects.admitted chronicle.engine = none) rfl, nothing]
      simp [Watch.log, Chronicle.watch]
    simp only [Watch.renewed, before]
    rw [← after]
    rfl
  have shown : (chronicle.step .takeEffects).ledger = chronicle.ledger := by
    rw [Chronicle.ledger, renewed]
    exact view_renewed shape
  refine ⟨?_, .inl (shown ▸ .refl), fun connected => .inl ?_, fun _ busy connected => ?_⟩
  · rw [Chronicle.Recorded, renewed]
    exact Ready.renewed shape recorded
  · change (chronicle.engine.after .takeEffects).state = .connected at connected
    rwa [same] at connected
  · change (chronicle.engine.after .takeEffects).state = .connected at connected
    change NoIdle (chronicle.engine.after .takeEffects)
    rw [same] at connected ⊢
    exact busy connected

/-! Seals -/

/-- Besides a packet, no call opens the connection. -/
theorem stays_connected (apart : command.Apart) (connected : (engine.after command).state = .connected) :
    engine.state = .connected := by
  have unasked := Engine.after_sat (unasked_run apart engine)
  have due := unasked.due (by simp [Engine.underway, connected])
  exact due.1 ▸ connected

theorem Chronicle.Recorded.follows_sealed (recorded : chronicle.Recorded) (mids : List Nat) :
    Follows chronicle (chronicle.step (.sealPublications mids)) (.sealPublications mids) := by
  have progress : Progress chronicle.watch (chronicle.observer (.sealPublications mids))
      chronicle.engine (chronicle.engine.after (.sealPublications mids)) := by
    have runs : Sat (Command.sealPublications mids).run chronicle.engine
        (fun _ after => Progress chronicle.watch
          (chronicle.watch.learn (sealedSince chronicle.engine after)) chronicle.engine after)
        (fun _ after => Progress chronicle.watch
          (chronicle.watch.learn (sealedSince chronicle.engine after)) chronicle.engine after) := by
      simp only [Command.run, sat_map]
      exact (sealPublications_sat recorded rfl).mono (fun _ _ done => done.1)
        fun _ _ failed => failed.elim
    have progress := Engine.after_sat runs
    rw [Chronicle.observer_learn rfl]
    exact progress
  have apart : (Command.sealPublications mids).Apart := trivial
  exact recorded.follows progress (by rintro ⟨⟩) fun connected => .inl (stays_connected apart connected)

/-! Publishing -/

theorem Chronicle.strangers (chronicle : Chronicle) (mid : Nat)
    (absent : chronicle.engine.store.out.get? mid = none) : chronicle.watch.who mid = none := by
  simp [watch, absent]

/-- An observer who knows the next identifier sees the same ledger. -/
theorem Chronicle.Recorded.naming (recorded : chronicle.Recorded) {mid : Nat}
    (fresh : chronicle.engine.store.out.get? mid = none) (seq : Nat) :
    Ready (chronicle.watch.naming mid seq) chronicle.engine := by
  have tracking := Ready.tracking recorded
  refine ⟨⟨tracking.coherent, tracking.later, ?_⟩, Ready.aligned recorded, ?_⟩
  · intro other row found
    have different : other ≠ mid := by
      rintro rfl
      simp [fresh] at found
    simpa [Watch.naming, different] using tracking.names other row found
  · rw [view_naming rfl]
    exact Ready.sound recorded

theorem Chronicle.Recorded.follows_published (recorded : chronicle.Recorded) (choice : Nat)
    (call : Outbound.PublishCall) :
    Follows chronicle (chronicle.step (.queuePublish choice call)) (.queuePublish choice call) := by
  have apart : (Command.queuePublish choice call).Apart := trivial
  cases ended : Outbound.queuePublish choice call chronicle.engine with
  | error failure after =>
    have ran : (Command.queuePublish choice call).run chronicle.engine = .error failure after := by
      simp [Command.run, Functor.map, EStateM.map, ended]
    have same := Engine.after_error ran
    have handled := Ready.untouched recorded ((queuePublish_sat recorded rfl).error ended)
    refine recorded.follows ?_ (fun _ => ?_) fun connected =>
      .inl (stays_connected apart connected)
    · rw [Chronicle.observer_quiet (by simp only [Command.admitted, ended])
        (by simp [Command.tells, Command.admitted, ended]), same]
      exact handled.progress
    · rw [same]
      exact handled.busy
  | ok taken after =>
    have ran : (Command.queuePublish choice call).run chronicle.engine = .ok none after := by
      simp [Command.run, Functor.map, EStateM.map, ended]
    have same := Engine.after_ok ran
    have handled := (queuePublish_sat recorded rfl).ok ended
    cases taken with
    | none =>
      refine recorded.follows ?_ (fun _ => ?_) fun connected =>
      .inl (stays_connected apart connected)
      · rw [Chronicle.observer_quiet (by simp only [Command.admitted, ended])
          (by simp [Command.tells, Command.admitted, ended]), same]
        exact handled.progress
      · rw [same]
        exact handled.busy
    | some mid =>
      have fresh := ((queuePublish_undisturbed recorded rfl).ok ended).2 mid rfl
      have named := recorded.naming fresh (chronicle.engine.store.outSeq + 1)
      have admitted := (queuePublish_sat named rfl).ok ended (by simp [Watch.naming])
      have observer : chronicle.observer (.queuePublish choice call) =
          (chronicle.watch.naming mid (chronicle.engine.store.outSeq + 1)).learn
            [.admitted (chronicle.engine.store.outSeq + 1) mid] := by
        simp only [Chronicle.observer, Command.admitted, Command.tells, ended]
        rfl
      have ledger : (chronicle.step (.queuePublish choice call)).ledger =
          view ((chronicle.watch.naming mid (chronicle.engine.store.outSeq + 1)).learn
            [.admitted (chronicle.engine.store.outSeq + 1) mid]) after := by
        rw [Chronicle.ledger_step, observer, same]
      have before : view (chronicle.watch.naming mid (chronicle.engine.store.outSeq + 1))
          chronicle.engine = chronicle.ledger := view_naming rfl mid _
      have step := admitted.step
      rw [before] at step
      have sound : Ledger.Sound chronicle.ledger := Ready.sound recorded
      refine ⟨Chronicle.recorded_step ?_, ?_, fun connected =>
      .inl (stays_connected apart connected), fun _ => ?_⟩
      · rw [observer, same]
        refine ⟨admitted.tracking, admitted.aligned, ?_⟩
        rcases step with move | ⟨_, size, target, launchable, shown⟩
        · exact sound.move move
        · rw [shown]
          exact sound.admitLaunched launchable
      · rw [ledger]
        exact step.imp .single fun launched => ⟨launched.1, mid, launched.2⟩
      · change Busy chronicle.engine → Busy (chronicle.engine.after (.queuePublish choice call))
        rw [same]
        exact admitted.busy

/-! Packets -/

/-- A packet that was processed: what it told came before what the engine showed. -/
structure Heard (watch : Watch) (raw : RawPacket) (before after : Engine) : Prop where
  handled : Handled watch (watch.learn (before.hears raw)) before after
  opened : after.state = .connected → before.state = .connected ∨
    ∃ present receiveMaximum, before.hears raw = [.session present receiveMaximum]

/-- A packet that was refused. -/
structure Unheard (watch : Watch) (before after : Engine) : Prop where
  handled : Handled watch watch before after
  opened : after.state = .connected → before.state = .connected

theorem Engine.hears_other (connack : raw.packetType ≠ .connack) :
    engine.hears raw = ackEvents engine raw := by
  unfold Engine.hears
  split
  · contradiction
  · rfl

theorem Engine.hears_nothing
    (other : raw.packetType ∉ [PacketType.connack, .puback, .pubrec, .pubcomp]) :
    engine.hears raw = [] := by
  simp only [List.mem_cons, List.not_mem_nil, or_false, not_or] at other
  rw [Engine.hears_other other.1]
  unfold ackEvents
  split <;> simp_all

theorem Heard.of_silent (silent : engine.hears raw = []) (handled : Handled watch watch engine after)
    (opened : after.state = .connected → engine.state = .connected) : Heard watch raw engine after := by
  refine ⟨?_, fun connected => .inl (opened connected)⟩
  rw [silent, Watch.learn_nil]
  exact handled

/-- What no acknowledgement is, and no CONNACK, stands beside the publications. -/
theorem heard_beside {program : EngineM PUnit} (ready : Ready watch engine)
    (silent : engine.hears raw = []) (aside : Within (Aside watch) program)
    (undisturbed : Within Undisturbed program) :
    Sat program engine (fun _ => Heard watch raw engine) (fun _ => Unheard watch engine) :=
  ((aside engine).and (undisturbed engine)).mono
    (fun _ _ ⟨aside, undisturbed⟩ => .of_silent silent (aside ready) undisturbed.state)
    fun _ _ ⟨aside, undisturbed⟩ => ⟨aside ready, undisturbed.state⟩

/-- An acknowledgement neither opens nor closes the connection it came on. -/
theorem heard_acknowledged {program : EngineM PUnit} (connack : raw.packetType ≠ .connack)
    (open_ : engine.state = .connected)
    (handled : Sat program engine
      (fun _ after => Handled watch (watch.learn (ackEvents engine raw)) engine after)
      (fun _ after => Handled watch watch engine after)) :
    Sat program engine (fun _ => Heard watch raw engine) (fun _ => Unheard watch engine) := by
  apply handled.mono
  · intro _ after handled
    refine ⟨?_, fun _ => .inl open_⟩
    rw [Engine.hears_other connack]
    exact handled
  · exact fun _ _ handled => ⟨handled, fun _ => open_⟩

/-! CONNACK -/

/-- An opened session: what waits for a slot finds none free. -/
theorem reconcileSession_opens {present : Bool} {properties : Option Properties}
    (ready : Ready watch engine) (start : engine.effects.length = watch.base)
    (granted : 1 ≤ engine.negotiated.receiveMaximum) :
    Sat (reconcileSession present properties) engine
      (fun _ after => Progress watch
        (watch.learn [.session present engine.negotiated.receiveMaximum]) engine after ∧ NoIdle after)
      (fun _ _ => False) := by
  rw [reconcileSession, sat_bind, sat_modify, updateSessionResumePreference, sat_bind, sat_modify,
    sat_bind, sat_get]
  cases present with
  | true =>
    refine Sat.mono (resumed_sat (ready.shown rfl rfl rfl rfl) start granted) ?_
      fun _ _ failed => failed
    rintro _ _ ⟨progress, idle⟩
    exact ⟨⟨progress.tracking, progress.aligned, progress.steps⟩, idle⟩
  | false =>
    refine Sat.mono (lost_sat (ready.shown rfl rfl rfl rfl) start granted) ?_
      fun _ _ failed => failed
    rintro _ _ ⟨progress, idle⟩
    exact ⟨⟨progress.tracking, progress.aligned, progress.steps⟩, idle⟩

theorem replayable_unmoved (present : Bool) (coherent : Coherent engine) :
    Sat (onlyIf present (tryCatch Outbound.checkSessionReplayable fun failure =>
      match failure with
      | .sessionReplay _ => do
        enterDisconnected
        throw failure
      | _ => throw failure)) engine (fun _ after => after = engine) (fun _ _ => True) := by
  rw [sat_onlyIf, sat_tryCatch]
  refine ⟨fun _ => ?_, fun _ => rfl⟩
  apply (checkSessionReplayable_sat coherent).mono
  · exact fun _ _ done => done.1
  · intro failure between _
    cases failure with
    | sessionReplay text => exact trivial
    | _ => exact trivial

theorem acceptConnack_opens {present : Bool} {properties : Option Properties}
    (ready : Ready watch engine) (start : engine.effects.length = watch.base)
    (decoded : engine.codec.decodeConnack raw.remaining = .ok (present, 0, properties)) :
    Sat (acceptConnack present properties) engine
      (fun _ after => Handled watch (watch.learn [.session present
        (NegotiatedSettings.fromConnack properties engine.sentSessionExpiryInterval).receiveMaximum])
          engine after)
      (fun _ => Unheard watch engine) := by
  have unheard {after : Engine} (handled : Aside watch engine after)
      (undisturbed : Undisturbed engine after) : Unheard watch engine after :=
    ⟨handled ready, undisturbed.state⟩
  have checks : Within (Aside watch) (validateAcceptedConnack present properties) :=
    beside_validateAcceptedConnack present properties
  have checked : Within Undisturbed (validateAcceptedConnack present properties) :=
    beside_validateAcceptedConnack present properties
  rw [acceptConnack, sat_bind]
  apply (((checks engine).and (checked engine)).and
    (validateAcceptedConnack_over present properties engine)).mono _
    fun _ _ refused => unheard refused.1.1 refused.1.2
  rintro _ _ ⟨_, same⟩
  rw [same]
  have settles : Within (Aside watch) (negotiate properties) := heedless_negotiate properties
  have settled : Within Undisturbed (negotiate properties) := heedless_negotiate properties
  rw [sat_bind]
  apply ((settles engine).and ((settled engine).and negotiate_abides)).mono _
    fun _ _ refused => unheard refused.1 refused.2.1
  rintro _ limited ⟨kept, still, negotiated, effects⟩
  have progress := (kept ready).progress
  have replays : Within (Aside watch) (onlyIf present _) := within_onlyIf within_replayable
  have replayed : Within Undisturbed (onlyIf present _) := within_onlyIf within_replayable
  have unmoved := replayable_unmoved present progress.tracking.coherent
  rw [sat_bind]
  apply ((replays limited).and ((replayed limited).and unmoved)).mono _
    fun _ _ refused => unheard (Trans.trans kept refused.1) (Trans.trans still refused.2.1)
  rintro _ _ ⟨_, _, same⟩
  rw [same, ← negotiated]
  have granted : 1 ≤ limited.negotiated.receiveMaximum := by
    rw [negotiated]
    exact decodeConnack_granted decoded _
  apply (reconcileSession_opens (ready.progress progress) (effects ▸ start) granted).mono _
    fun _ _ failed => failed.elim
  rintro _ after ⟨opened, idle⟩
  exact ⟨progress.trans opened, fun _ _ => idle⟩

theorem onConnack_heard (ready : Ready watch engine) (start : engine.effects.length = watch.base)
    (kind : raw.packetType = .connack) :
    Sat (onConnack raw) engine (fun _ => Heard watch raw engine) (fun _ => Unheard watch engine) := by
  have still : Unheard watch engine engine := ⟨⟨ready.refl, id⟩, id⟩
  simp only [onConnack, sat_bind, sat_get, sat_raiseIf, sat_fromExcept]
  refine ⟨fun _ => still, fun _ => ⟨?_, fun _ _ => still⟩⟩
  rintro ⟨present, reasonCode, properties⟩ decoded
  have finishes : Sat (if reasonCode ≠ 0 then do
        enterDisconnected
        emit (.connack present reasonCode properties)
        emit (.disconnected reasonCode properties true)
      else acceptConnack present properties : EngineM PUnit) engine
      (fun _ => Heard watch raw engine) (fun _ => Unheard watch engine) := by
    have refuses {relation : Engine → Engine → Prop} [Onlooker relation] : Within relation (do
        enterDisconnected
        emit (.connack present reasonCode properties)
        emit (.disconnected reasonCode properties true) : EngineM PUnit) :=
      within_bind beside_enterDisconnected fun _ =>
        within_bind (beside_emit trivial) fun _ => beside_emit trivial
    rw [sat_ite]
    refine ⟨fun failed => ?_, fun success => ?_⟩
    · refine heard_beside ready ?_ refuses refuses
      simp only [Engine.hears, kind, decoded]
      cases reasonCode with
      | zero => exact absurd rfl failed
      | succ _ => rfl
    · obtain rfl := not_not.mp success
      apply (acceptConnack_opens ready start decoded).mono _ fun _ _ done => done
      intro _ after handled
      have hears : engine.hears raw = [.session present (NegotiatedSettings.fromConnack properties
          engine.sentSessionExpiryInterval).receiveMaximum] := by
        simp only [Engine.hears, kind, decoded]
      exact ⟨hears ▸ handled, fun _ => .inr ⟨_, _, hears⟩⟩
  have checks : Within (Aside watch) (validateConnackV5 reasonCode properties) :=
    beside_validateConnackV5 reasonCode properties
  have checked : Within Undisturbed (validateConnackV5 reasonCode properties) :=
    beside_validateConnackV5 reasonCode properties
  rw [sat_onlyIf]
  refine ⟨fun _ => ?_, fun _ => finishes⟩
  apply (((checks engine).and (checked engine)).and
    (validateConnackV5_over reasonCode properties engine)).mono _
    fun _ _ refused => ⟨refused.1.1 ready, refused.1.2.state⟩
  rintro _ _ ⟨_, same⟩
  rw [same]
  exact finishes

/-! Calls that handle a packet -/

theorem dispatch_heard (ready : Ready watch engine) (start : engine.effects.length = watch.base)
    (strangers : ∀ mid, engine.store.out.get? mid = none → watch.who mid = none) :
    Sat (dispatch raw) engine (fun _ => Heard watch raw engine) (fun _ => Unheard watch engine) := by
  have still : Unheard watch engine engine := ⟨⟨ready.refl, id⟩, id⟩
  have passes {program : EngineM PUnit}
      (other : raw.packetType ∉ [PacketType.connack, .puback, .pubrec, .pubcomp])
      (aside : Within (Aside watch) program) (undisturbed : Within Undisturbed program) :
      Sat program engine (fun _ => Heard watch raw engine) (fun _ => Unheard watch engine) :=
    heard_beside ready (Engine.hears_nothing other) aside undisturbed
  simp only [dispatch, sat_bind, sat_fromExcept, sat_get]
  refine ⟨fun _ _ => ?_, fun _ _ => still⟩
  cases found : handlerFor engine.state raw.packetType with
  | none => exact still
  | some handler =>
    unfold handlerFor at found
    split at found
    all_goals cases found
    · next kind => exact onConnack_heard ready start kind
    · next kind =>
      exact passes (by simp [kind]) (beside_onAuth (Aside watch) raw) (beside_onAuth Undisturbed raw)
    · next kind =>
      exact passes (by simp [kind]) (beside_handlePublish raw : Ends (Aside watch) (Aside watch) _)
        (beside_handlePublish raw : Ends Undisturbed Undisturbed _)
    · next open_ kind =>
      exact heard_acknowledged (by simp [kind]) open_ (onPuback_handled ready start kind)
    · next open_ kind =>
      exact heard_acknowledged (by simp [kind]) open_ (onPubrec_handled ready start strangers kind)
    · next kind =>
      exact passes (by simp [kind]) (beside_onPubrel raw : Ends (Aside watch) (Aside watch) _)
        (beside_onPubrel raw : Ends Undisturbed Undisturbed _)
    · next open_ kind =>
      exact heard_acknowledged (by simp [kind]) open_ (onPubcomp_handled ready start kind)
    · next kind => exact passes (by simp [kind]) (aside_onSuback raw) (undisturbed_onSuback raw)
    · next kind => exact passes (by simp [kind]) (aside_onUnsuback raw) (undisturbed_onUnsuback raw)
    · next kind => exact passes (by simp [kind]) (beside_onPingresp raw) (beside_onPingresp raw)
    · next kind => exact passes (by simp [kind]) (beside_onDisconnect raw) (beside_onDisconnect raw)
    · next kind =>
      exact passes (by simp [kind]) (beside_onAuth (Aside watch) raw) (beside_onAuth Undisturbed raw)

theorem processes_closed (closed : engine.state = .disconnecting ∨ engine.state = .disconnected) :
    engine.processes raw = false := by
  have refused : Sat (dispatch raw) engine (fun _ _ => False) (fun _ _ => True) := by
    simp only [dispatch, sat_bind, sat_fromExcept, sat_get]
    refine ⟨fun _ _ => ?_, fun _ _ => trivial⟩
    have none : handlerFor engine.state raw.packetType = none := by
      rcases closed with state | state <;> simp [handlerFor, state]
    rw [none]
    exact trivial
  unfold Engine.processes
  cases ended : dispatch raw engine with
  | ok _ _ => exact (refused.ok ended).elim
  | error _ _ => rfl

theorem handleRaw_heard (ready : Ready watch engine) (start : engine.effects.length = watch.base)
    (strangers : ∀ mid, engine.store.out.get? mid = none → watch.who mid = none) :
    Sat (handleRaw raw) engine
      (fun _ after => if engine.processes raw then Heard watch raw engine after
        else Unheard watch engine after)
      (fun _ after => if engine.processes raw then Heard watch raw engine after
        else Unheard watch engine after) := by
  have announces (failure : Failure) : Within (Aside watch) (emit (.protocolError failure)) :=
    beside_emit trivial
  have announced (failure : Failure) : Within Undisturbed (emit (.protocolError failure)) :=
    beside_emit trivial
  simp only [handleRaw, sat_bind, sat_get, sat_ite, sat_catching]
  refine ⟨fun closed => ?_, fun _ => ?_⟩
  · rw [sat_pure, processes_closed closed]
    exact ⟨⟨ready.refl, id⟩, id⟩
  apply ((Sat.itself (dispatch raw) engine).and (dispatch_heard ready start strangers)).mono
  · rintro _ after ⟨ended, heard⟩
    have processed : engine.processes raw = true := by simp [Engine.processes, ended]
    simp only [sat_pure, processed, ↓reduceIte]
    exact heard
  · rintro failure after ⟨ended, unheard⟩
    have refused : engine.processes raw = false := by simp [Engine.processes, ended]
    simp only [refused, Bool.false_eq_true, ↓reduceIte]
    refine ⟨fun _ => ?_, fun _ => unheard⟩
    have before := ready.progress unheard.handled.progress
    apply ((announces failure after).and (announced failure after)).mono
    · rintro _ last ⟨aside, undisturbed⟩
      exact ⟨unheard.handled.trans (aside before), unheard.opened ∘ undisturbed.state⟩
    · rintro _ last ⟨aside, undisturbed⟩
      exact ⟨unheard.handled.trans (aside before), unheard.opened ∘ undisturbed.state⟩

theorem Chronicle.Recorded.follows_handled (recorded : chronicle.Recorded) (raw : RawPacket) :
    Follows chronicle (chronicle.step (.handleRaw raw)) (.handleRaw raw) := by
  have runs : Sat (Command.handleRaw raw).run chronicle.engine
      (fun _ after => if chronicle.engine.processes raw
        then Heard chronicle.watch raw chronicle.engine after
        else Unheard chronicle.watch chronicle.engine after)
      (fun _ after => if chronicle.engine.processes raw
        then Heard chronicle.watch raw chronicle.engine after
        else Unheard chronicle.watch chronicle.engine after) := by
    simp only [Command.run, sat_map]
    exact handleRaw_heard recorded rfl chronicle.strangers
  have ended := Engine.after_sat runs
  have unnamed : (Command.handleRaw raw).admitted chronicle.engine = none := rfl
  cases processed : chronicle.engine.processes raw with
  | true =>
    have tells : (Command.handleRaw raw).tells chronicle.engine = chronicle.engine.hears raw := by
      simp [Command.tells, processed]
    simp only [processed, ↓reduceIte] at ended
    refine recorded.follows ?_ (fun _ => ended.handled.busy) ?_
    · rw [Chronicle.observer_learn unnamed, tells]
      exact ended.handled.progress
    · rw [tells]
      exact ended.opened
  | false =>
    have tells : (Command.handleRaw raw).tells chronicle.engine = [] := by
      simp [Command.tells, processed]
    simp only [processed, Bool.false_eq_true, ↓reduceIte] at ended
    refine recorded.follows ?_ (fun _ => ended.handled.busy) fun connected => .inl (ended.opened connected)
    rw [Chronicle.observer_quiet unnamed tells]
    exact ended.handled.progress

/-- Every call is followed. -/
theorem Chronicle.Recorded.follows_step (recorded : chronicle.Recorded) (command : Command) :
    Follows chronicle (chronicle.step command) command := by
  cases command with
  | handleRaw raw => exact recorded.follows_handled raw
  | queuePublish choice call => exact recorded.follows_published choice call
  | sealPublications mids => exact recorded.follows_sealed mids
  | takeEffects => exact recorded.follows_taken
  | _ => exact recorded.follows_beside trivial

theorem Chronicle.Recorded.run (recorded : chronicle.Recorded) (commands : List Command) :
    (chronicle.run commands).Recorded := by
  induction commands generalizing chronicle with
  | nil => exact recorded
  | cons command rest ih => exact ih (recorded.follows_step command).recorded

/-- A client as it starts: an observer is told of the rows found in the store. -/
def Chronicle.start (engine : Engine) : Chronicle where
  engine := engine
  log := recoveredEvents engine.store.out.entries

theorem Hydrating.watch_start {store : Store} {done : Dict Nat OutRow} {log : List Event}
    (hydrating : Hydrating store done log [] engine) :
    (Chronicle.start engine).watch = hydratedWatch store := by
  simp [Chronicle.watch, Chronicle.start, hydratedWatch, hydrating.fresh, hydrating.stored]

theorem create_recorded {config : EngineConfig} {store : Store} (written : store.Written)
    (created : Engine.create config store = .ok engine) : (Chronicle.start engine).Recorded := by
  obtain ⟨done, log, hydrating⟩ := create_hydrating created written
  rw [Chronicle.Recorded, hydrating.watch_start]
  exact hydrating.ready written

theorem create_order {config : EngineConfig} {store : Store} (written : store.Written)
    (created : Engine.create config store = .ok engine) (flyingFirst : store.FlyingFirst) :
    Ledger.Order (Chronicle.start engine).ledger := by
  obtain ⟨done, log, hydrating⟩ := create_hydrating created written
  have order := hydrating.order flyingFirst
  rw [← hydrating.shown, ← hydrating.watch_start] at order
  exact order

end

end Mqttium
