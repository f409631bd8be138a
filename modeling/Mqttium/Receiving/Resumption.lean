import Mqttium.Receiving.Opening
import Mqttium.Receiving.Redelivery

/-! The replay of the inbound direction from CONNACK to its last batch. -/

namespace Mqttium

open Codec Library Packets Persistence Protocol Inbound

/-! Steps that leave the replay alone -/

/-- The inbound direction stays as it is, and no effect of a replay is added. -/
structure Hushed (before after : Engine) : Prop where
  config : after.config = before.config
  inbound : after.inbound = before.inbound
  rows : after.store.inbound = before.store.inbound
  kind : after.store.kind = before.store.kind
  quiet : ∀ call, before.store.faults call = [] → after.store.faults call = []
  effects : ∃ fresh, after.effects = before.effects ++ fresh ∧ ∀ effect ∈ fresh, ¬ effect.Replays

section

variable {before after : Engine}

theorem Hushed.same (config : after.config = before.config) (inbound : after.inbound = before.inbound)
    (store : after.store = before.store) (effects : after.effects = before.effects) :
    Hushed before after :=
  ⟨config, inbound, by rw [store], by rw [store], fun _ quiet => by rw [store, quiet],
    [], by simp [effects], by simp⟩

instance : IsPreorder Engine Hushed where
  refl _ := .same rfl rfl rfl rfl
  trans _ _ _ first second := by
    obtain ⟨early, grown, spared⟩ := first.effects
    obtain ⟨late, grownMore, sparedMore⟩ := second.effects
    exact {
      config := second.config.trans first.config
      inbound := second.inbound.trans first.inbound
      rows := second.rows.trans first.rows
      kind := second.kind.trans first.kind
      quiet := fun call none => second.quiet call (first.quiet call none)
      effects := ⟨early ++ late, by rw [grownMore, grown, List.append_assoc],
        fun effect member => (List.mem_append.mp member).elim (spared effect) (sparedMore effect)⟩ }

theorem hushed_emit {effect : Effect} (other : ¬ effect.Replays) : Within Hushed (emit effect) :=
  fun _ => ⟨rfl, rfl, rfl, rfl, fun _ none => none, [effect], rfl, by simpa using other⟩

theorem hushed_storeCall {Value : Type} {call : StoreCall} {run : Store → Value × Store}
    {holds : Value → Prop} (apart : LeavesIn fun store => (run store).2)
    (given : ∀ store, holds (run store).1) : Yields holds Hushed (storeCall call run) := by
  refine yields_of_sat fun engine => ?_
  obtain ⟨faults, rest, quiet⟩ := nextFault_rest engine.store call
  simp only [storeCall, sat_bind, sat_get]
  cases next : engine.store.nextFault call with
  | mk fault store =>
    rw [next] at rest
    change store = _ at rest
    subst rest
    have ran : Hushed engine
        { engine with store := (run { engine.store with faults }).2 } :=
      ⟨rfl, rfl, apart.rows _, apart.kind _,
        fun other none => (congrFun (apart.faults _) other).trans (quiet other none),
        [], by simp, by simp⟩
    cases fault with
    | none => exact ⟨given _, ran⟩
    | some fault =>
      cases fault with
      | beforeEffect => exact ⟨rfl, rfl, rfl, rfl, quiet, [], by simp, by simp⟩
      | afterEffect => exact ran

instance : Outward Hushed where
  good := fun _ => True
  facts _ _ later := fun engine => later engine (honest_any engine) engine
  session _ _ := .same rfl rfl rfl rfl
  store apart caches := hushed_storeCall apart fun store => (caches store (honest_any_store store)).1
  assign apart _ engine := ⟨rfl, rfl, apart.rows _, apart.kind _,
    fun call none => (congrFun (apart.faults _) call).trans none, [], by simp, by simp⟩
  subs _ := within_modify fun _ => .same rfl rfl rfl rfl
  report {effect} reports := by
    refine hushed_emit ?_
    cases effect <;> simp_all [Effect.Reports, Effect.Replays, Effect.Delivers]

instance : Sending Hushed where
  sendable := inferInstanceAs (Sendable fun _ => True)
  send _ := hushed_emit (by simp [Effect.Replays, Effect.Delivers])

end

/-! The first batch -/

instance : Ending Hushed fun _ _ => True where
  lift _ := trivial
  after _ _ := trivial

theorem Hushed.inRows {before after : Engine} (hushed : Hushed before after) :
    after.store.inRows = before.store.inRows := by
  simp only [Store.inRows, hushed.rows, hushed.kind]

theorem Hushed.redelivers {before after : Engine} (hushed : Hushed before after) :
    after.redelivers = before.redelivers := by
  funext row
  simp only [Engine.redelivers, hushed.config, hushed.inbound]

theorem Hushed.owes {before after : Engine} {rows : List InRow} (hushed : Hushed before after)
    (owes : Owes before rows) : Owes after rows := by
  have pages : after.store.hydrated = before.store.hydrated := by
    have page : after.store.hydratePage = before.store.hydratePage := by
      funext mids
      simp only [Store.hydratePage, hushed.rows, hushed.kind]
    funext groups
    simp only [Store.hydrated, page]
  unfold Owes at *
  rw [hushed.inbound]
  cases waits : before.inbound.replay with
  | none =>
    rw [waits] at owes
    exact owes
  | some cursor =>
    rw [waits] at owes
    exact ⟨owes.1, owes.2.tidy, by rw [pages, owes.2.counted], by rw [pages, owes.2.rows]⟩

section

variable {before between after : Engine} {rows sent left : List InRow} {effects : List Effect}

theorem Batched.prepend (early : Hushed before between)
    (batched : Batched rows between sent left effects after) :
    Batched rows before sent left effects after where
  config := batched.config.trans early.config
  quiet := batched.quiet
  recovered some := (batched.recovered some).trans (by rw [early.inbound])
  wanted := by rw [← early.redelivers, batched.wanted]
  progress := batched.progress
  messages := batched.messages
  bytes := batched.bytes
  emits := by rw [← early.config]; exact batched.emits
  effects := by
    obtain ⟨first, grown, spared⟩ := early.effects
    obtain ⟨fresh, grownMore, shown⟩ := batched.effects
    refine ⟨first ++ fresh, by rw [grownMore, grown, List.append_assoc], ?_⟩
    rw [List.filter_append, shown, List.filter_eq_nil_iff.mpr (by simpa using spared)]
    rfl
  owes := batched.owes

theorem Batched.append (batched : Batched rows before sent left effects between)
    (late : Hushed between after) : Batched rows before sent left effects after where
  config := late.config.trans batched.config
  quiet := late.quiet _ batched.quiet
  recovered some := (congrArg (·.recoveredMids) late.inbound).trans (batched.recovered some)
  wanted := batched.wanted
  progress := batched.progress
  messages := batched.messages
  bytes := batched.bytes
  emits := batched.emits
  effects := by
    obtain ⟨fresh, grown, shown⟩ := batched.effects
    obtain ⟨last, grownMore, spared⟩ := late.effects
    refine ⟨fresh ++ last, by rw [grownMore, grown, List.append_assoc], ?_⟩
    rw [List.filter_append, shown, List.filter_eq_nil_iff.mpr (by simpa using spared),
      List.append_nil]
  owes := late.owes batched.owes

end

/-- The step emitted the first batch of the replay of the stored rows. -/
def Started (before after : Engine) : Prop :=
  ∃ sent left effects, Batched before.store.inRows before sent left effects after

/-- A program that returns has started the replay. -/
def Starts {Value : Type} (program : EngineM Value) : Prop :=
  ∀ engine, engine.store.faults .inReplayPage = [] → engine.inbound.replay = none →
    Sat program engine (fun _ => Started engine) (fun _ _ => True)

section

variable {Value Result : Type} {program : EngineM Value} {next : Value → EngineM Result}

theorem starts_after (first : Ends Hushed (fun _ _ => True) program)
    (later : ∀ value, Starts (next value)) : Starts (program >>= next) := by
  intro engine quiet idle
  rw [sat_bind]
  apply (first engine).mono
  · intro value between hushed
    apply (later value between (hushed.quiet _ quiet) (by rw [hushed.inbound, idle])).mono
    · rintro _ after ⟨sent, left, effects, batched⟩
      rw [hushed.inRows] at batched
      exact ⟨sent, left, effects, batched.prepend hushed⟩
    · exact fun _ _ _ => trivial
  · exact fun _ _ _ => trivial

theorem starts_then (first : Starts program) (last : ∀ value, Within Hushed (next value)) :
    Starts (program >>= next) := by
  intro engine quiet idle
  rw [sat_bind]
  apply (first engine quiet idle).mono
  · rintro value between ⟨sent, left, effects, batched⟩
    apply (last value between).mono
    · exact fun _ after hushed => ⟨sent, left, effects, batched.append hushed⟩
    · exact fun _ _ _ => trivial
  · exact fun _ _ _ => trivial

end

theorem starts_replaySession : Starts Inbound.replaySession :=
  fun _ quiet idle => sat_replaySession quiet idle

theorem hushed_enterDisconnected : Within Hushed enterDisconnected :=
  within_modify fun _ => .same rfl rfl rfl rfl

theorem hushed_updateSessionResumePreference : Within Hushed updateSessionResumePreference :=
  within_modify fun _ => .same rfl rfl rfl rfl

/-- A refusal does not return. -/
theorem hushed_refuse {Value : Type} (message : String) :
    Ends Hushed (fun _ _ => True) (refuse message : EngineM Value) := by
  intro engine
  simp only [refuse, sat_bind, sat_throw]
  exact Sat.of_forall (fun _ _ => trivial) fun _ _ => trivial

theorem hushed_outboundReplay : Within Hushed Outbound.replaySession :=
  within_bind (within_modify fun _ => .same rfl rfl rfl rfl) fun _ =>
    within_bind (outward_session fun _ _ member => by simp at member) fun _ =>
    within_bind (outward_forEachSummary outward_replayMessage) fun _ => outward_drain

theorem starts_reconcileSession (properties : Option Properties) :
    Starts (reconcileSession true properties) :=
  starts_after (within_modify fun _ => .same rfl rfl rfl rfl).ends fun _ =>
    starts_after hushed_updateSessionResumePreference.ends fun _ =>
    starts_after within_get.ends fun _ =>
    starts_after hushed_outboundReplay.ends fun _ =>
    starts_after (hushed_emit (by simp [Effect.Replays, Effect.Delivers])).ends fun _ =>
    starts_then starts_replaySession fun _ => outward_drain

theorem hushed_validateConnackV5 (reasonCode : Nat) (properties : Option Properties) :
    Ends Hushed (fun _ _ => True) (validateConnackV5 reasonCode properties) :=
  ends_bind within_get.ends fun _ => ends_bind (ends_onlyIf (hushed_refuse _)) fun _ =>
    ends_bind (ends_onlyIf (hushed_refuse _)) fun _ =>
    ends_bind (ends_onlyIf (hushed_refuse _)) fun _ => ends_onlyIf (hushed_refuse _)

theorem hushed_validateAcceptedConnack (present : Bool) (properties : Option Properties) :
    Ends Hushed (fun _ _ => True) (validateAcceptedConnack present properties) :=
  ends_bind within_get.ends fun _ => ends_bind (ends_onlyIf (hushed_refuse _)) fun _ =>
    ends_onlyIf (hushed_refuse _)

theorem hushed_negotiate (properties : Option Properties) : Within Hushed (negotiate properties) := by
  refine within_bind (within_modify fun _ => .same rfl rfl rfl rfl) fun _ =>
    within_bind within_get fun engine => ?_
  cases engine.negotiated.maximumPacketSize with
  | none => exact within_pure _
  | some limit =>
    exact within_onlyIf (within_bind hushed_enterDisconnected fun _ => within_throw _)

theorem hushed_checkSessionReplayable : Within Hushed Outbound.checkSessionReplayable := by
  refine within_bind within_get fun _ => within_ite (within_pure _) <|
    outward_forEachSummary fun stored => within_bind within_get fun engine => within_onlyIf ?_
  cases Outbound.validateAgainstNegotiated engine (.summary stored) with
  | ok _ => exact within_pure _
  | error failure => exact within_ite (within_throw _) (within_throw _)

theorem hushed_replayable : Within Hushed (tryCatch Outbound.checkSessionReplayable fun failure =>
    match failure with
    | .sessionReplay _ => do
      enterDisconnected
      throw failure
    | _ => throw failure) := by
  refine within_tryCatch hushed_checkSessionReplayable fun failure => ?_
  cases failure with
  | sessionReplay _ => exact within_bind hushed_enterDisconnected fun _ => within_throw _
  | _ => exact within_throw _

theorem starts_acceptConnack (properties : Option Properties) :
    Starts (acceptConnack true properties) := by
  have checks : Within Hushed (tryCatch Outbound.checkSessionReplayable _) := hushed_replayable
  exact starts_after (hushed_validateAcceptedConnack _ _) fun _ =>
    starts_after (hushed_negotiate _).ends fun _ =>
    starts_after (within_onlyIf checks).ends fun _ => starts_reconcileSession _

section

variable {engine : Engine} {raw : RawPacket} {properties : Option Properties}

/-- A CONNACK that reports a session and is accepted starts the replay. -/
theorem sat_onConnack (quiet : engine.store.faults .inReplayPage = [])
    (idle : engine.inbound.replay = none)
    (decoded : engine.codec.decodeConnack raw.remaining = .ok (true, 0, properties)) :
    Sat (onConnack raw) engine (fun _ => Started engine) (fun _ _ => True) := by
  have accepts : Starts (do
      onlyIf engine.codec.isMqtt5 (validateConnackV5 0 properties)
      acceptConnack true properties) :=
    starts_after (ends_onlyIf (hushed_validateConnackV5 0 properties)) fun _ =>
      starts_acceptConnack properties
  simp only [onConnack, sat_bind, sat_get, sat_raiseIf, decoded, sat_fromExcept_ok]
  refine ⟨fun _ => trivial, fun _ => ?_⟩
  have started := accepts engine quiet idle
  rw [sat_bind] at started
  exact started

theorem sat_handleRaw_connack (quiet : engine.store.faults .inReplayPage = [])
    (idle : engine.inbound.replay = none) (opening : engine.state = .connecting)
    (packet : raw.packetType = .connack)
    (decoded : engine.codec.decodeConnack raw.remaining = .ok (true, 0, properties)) :
    Sat (handleRaw raw) engine (fun answered after => answered = none → Started engine after)
      (fun _ _ => True) := by
  have dispatches : Sat (dispatch raw) engine (fun _ => Started engine) (fun _ _ => True) := by
    simp only [dispatch, sat_bind, sat_fromExcept, sat_get, opening, packet, handlerFor]
    exact ⟨fun _ _ => sat_onConnack quiet idle decoded, fun _ _ => trivial⟩
  simp only [handleRaw, sat_bind, sat_get, sat_ite, sat_catching]
  refine ⟨fun ended => by simp [opening] at ended, fun _ => ?_⟩
  apply dispatches.mono
  · exact fun _ _ started _ => started
  · intro failure after _
    refine ⟨fun _ => ?_, fun _ => trivial⟩
    simp only [emit, sat_modify, sat_pure]
    rintro ⟨⟩

end

/-! The batches that follow -/

/-- What the owner does while a replay waits. -/
inductive ReplayCall where
  | takeEffects
  | continueInboundReplay
  deriving DecidableEq

/-- The call, and the effects it hands over. -/
def ReplayCall.run : ReplayCall → EngineM (List Effect)
  | takeEffects => Protocol.takeEffects
  | continueInboundReplay => (fun _ => []) <$> Protocol.continueInboundReplay

/-- The calls in order, and all the effects they hand over. -/
def replayCalls : List ReplayCall → EngineM (List Effect)
  | [] => return []
  | call :: rest => do
    let taken ← call.run
    let later ← replayCalls rest
    return taken ++ later

/-- The rows were replayed in these batches, and some are left. -/
structure Redelivering (wanted : InRow → Bool) (manual : Bool) (rows : List InRow) (batched : Nat)
    (batches : List (List InRow)) (segments : List (List Effect)) (left : List InRow) : Prop where
  emitted : batches.flatten ++ left.filter wanted = rows.filter wanted
  bounded : ∀ batch ∈ batches, batch.length ≤ replayBatchMessages ∧
    (sizes batch ≤ replayBatchBytes ∨ batch.length = 1)
  segments : List.Forall₂ (List.Forall₂ (Redelivers manual)) batches segments
  progress : left = [] ∨ left.length + batched ≤ rows.length

section

variable {wanted : InRow → Bool} {manual : Bool} {rows left sent : List InRow} {batched : Nat}
  {batches : List (List InRow)} {segments : List (List Effect)} {effects : List Effect}
  {engine after : Engine}

theorem Redelivering.nil (rows : List InRow) : Redelivering wanted manual rows 0 [] [] rows :=
  ⟨rfl, nofun, .nil, .inr (Nat.le_refl _)⟩

/-- A batch comes before those of the rows it left. -/
theorem Redelivering.cons {between : List InRow}
    (first : Batched rows engine sent between effects after)
    (later : Redelivering engine.redelivers engine.config.manualAck between batched batches segments left) :
    Redelivering engine.redelivers engine.config.manualAck rows (batched + 1) (sent :: batches)
      (effects :: segments) left where
  emitted := by rw [List.flatten_cons, List.append_assoc, later.emitted, first.wanted]
  bounded := List.forall_mem_cons.mpr ⟨⟨first.messages, first.bytes⟩, later.bounded⟩
  segments := .cons first.emits later.segments
  progress := by
    rcases later.progress with none | fewer
    · exact .inl none
    · rcases first.progress with rfl | shorter
      · left
        exact List.eq_nil_of_length_eq_zero (by simp only [List.length_nil] at fewer; omega)
      · right
        omega

/-- The mark of a replay that goes on. -/
def continuation (left : List InRow) : List Effect :=
  if left = [] then [] else [.continueInboundReplay]

theorem Owes.none (owes : Owes engine []) : engine.inbound.replay = none := by
  unfold Owes at owes
  cases waits : engine.inbound.replay with
  | none => rfl
  | some cursor =>
    rw [waits] at owes
    exact absurd rfl owes.1

theorem Owes.none_iff (owes : Owes engine left) : engine.inbound.replay = .none ↔ left = [] := by
  constructor
  · intro idle
    simpa only [Owes, idle] using owes
  · rintro rfl
    exact owes.none

end

/-- The calls replayed some of the rows. -/
structure Continued (rows : List InRow) (before : Engine) (calls : List ReplayCall)
    (taken : List Effect) (after : Engine) (batches : List (List InRow))
    (segments : List (List Effect)) (left : List InRow) (fresh : List Effect) : Prop where
  effects : taken ++ after.effects = before.effects ++ fresh
  shown : continuation rows ++ fresh.filter (·.Replays) =
    segments.flatMap ([.continueInboundReplay] ++ ·) ++ continuation left
  redelivering : Redelivering before.redelivers before.config.manualAck rows
    (calls.count .continueInboundReplay) batches segments left
  owes : Owes after left

section

variable {engine : Engine} {rows : List InRow} {calls : List ReplayCall}

/-- Where nothing is left, nothing is wanted. -/
theorem Redelivering.of_nil {wanted other : InRow → Bool} {manual : Bool} {batched more : Nat}
    {batches : List (List InRow)} {segments : List (List Effect)} {left : List InRow}
    (redelivering : Redelivering wanted manual [] batched batches segments left) :
    Redelivering other manual [] more batches segments left := by
  have none : left = [] := by
    rcases redelivering.progress with none | fewer
    · exact none
    · exact List.eq_nil_of_length_eq_zero (by simp only [List.length_nil] at fewer; omega)
  have emitted := redelivering.emitted
  subst none
  exact { redelivering with emitted := emitted, progress := .inl rfl }

/-- A batch, and those that follow it under what the engine is afterwards. -/
theorem Batched.redelivering {after : Engine} {sent between left : List InRow} {effects : List Effect}
    {count : Nat} {batches : List (List InRow)} {segments : List (List Effect)}
    (batched : Batched rows engine sent between effects after)
    (later : Redelivering after.redelivers after.config.manualAck between count batches segments left) :
    Redelivering engine.redelivers engine.config.manualAck rows (count + 1) (sent :: batches)
      (effects :: segments) left := by
  rw [batched.config] at later
  by_cases none : between = []
  · subst none
    exact .cons batched later.of_nil
  · have same : after.redelivers = engine.redelivers := by
      funext row
      simp only [Engine.redelivers, batched.config, batched.recovered none]
    rw [same] at later
    exact .cons batched later

theorem continued_take {taken effects : List Effect} {after final : Engine}
    {batches : List (List InRow)} {segments : List (List Effect)} {left : List InRow}
    {fresh : List Effect} (pending : effects = engine.effects) (emptied : after.effects = [])
    (redelivers : after.redelivers = engine.redelivers) (config : after.config = engine.config)
    (later : Continued rows after calls taken final batches segments left fresh) :
    Continued rows engine (.takeEffects :: calls) (effects ++ taken) final batches segments left
      fresh where
  effects := by rw [List.append_assoc, later.effects, emptied, List.nil_append, pending]
  shown := later.shown
  redelivering := by
    rw [← redelivers, ← config, List.count_cons_of_ne (by decide)]
    exact later.redelivering
  owes := later.owes

theorem continued_batch {taken effects : List Effect} {after final : Engine}
    {sent between : List InRow} {batches : List (List InRow)} {segments : List (List Effect)}
    {left : List InRow} {fresh : List Effect}
    (batched : Batched rows engine sent between effects after) (some : rows ≠ [])
    (later : Continued between after calls taken final batches segments left fresh) :
    ∃ fresh, Continued rows engine (.continueInboundReplay :: calls) ([] ++ taken) final
      (sent :: batches) (effects :: segments) left fresh := by
  obtain ⟨emitted, grown, shown⟩ := batched.effects
  refine ⟨emitted ++ fresh, ?_, ?_, ?_, later.owes⟩
  · rw [List.nil_append, later.effects, grown, List.append_assoc]
  · rw [List.filter_append, shown, List.append_assoc, List.flatMap_cons]
    have goes : continuation rows = [.continueInboundReplay] := if_neg some
    have rest := later.shown
    simp only [continuation] at rest goes ⊢
    rw [goes, List.append_assoc, rest]
    simp only [List.append_assoc]
  · rw [List.count_cons_self]
    exact batched.redelivering later.redelivering

/-- No call raises, and together they replay the rows in order. -/
theorem sat_replayCalls (calls : List ReplayCall) (quiet : engine.store.faults .inReplayPage = [])
    (owes : Owes engine rows) :
    Sat (replayCalls calls) engine
      (fun taken after => ∃ batches segments left fresh,
        Continued rows engine calls taken after batches segments left fresh)
      (fun _ _ => False) := by
  induction calls generalizing engine rows with
  | nil => exact ⟨[], [], rows, [], by simp, by simp, .nil rows, owes⟩
  | cons call rest ih =>
    simp only [replayCalls, sat_bind, sat_pure]
    cases call with
    | takeEffects =>
      have takes : ∀ inbound : InboundSession, inbound.replay = engine.inbound.replay →
          inbound.recoveredMids = engine.inbound.recoveredMids →
          Sat (replayCalls rest) { engine with effects := [], inbound }
            (fun taken after => ∃ batches segments left fresh, Continued rows engine
              (.takeEffects :: rest) (engine.effects ++ taken) after batches segments left fresh)
            (fun _ _ => False) := by
        intro inbound replay recovered
        have waits : Owes { engine with effects := [], inbound } rows := by
          unfold Owes at *
          rw [replay]
          exact owes
        have redelivers : ({ engine with effects := [], inbound } : Engine).redelivers =
            engine.redelivers := by
          funext row
          simp only [Engine.redelivers, recovered]
        have rested := @ih { engine with effects := [], inbound } rows quiet waits
        apply rested.mono
        · rintro taken after ⟨batches, segments, left, fresh, later⟩
          exact ⟨batches, segments, left, fresh, continued_take rfl rfl redelivers rfl later⟩
        · exact fun _ _ impossible => impossible
      simp only [ReplayCall.run, Protocol.takeEffects, releasePendingAcks, sat_bind, sat_get,
        sat_modify, sat_onlyIf, sat_modifyInbound, sat_pure]
      exact ⟨fun _ => takes _ rfl rfl, fun _ => takes _ rfl rfl⟩
    | continueInboundReplay =>
      simp only [ReplayCall.run, Protocol.continueInboundReplay, sat_map]
      by_cases none : rows = []
      · subst none
        simp only [drainReplay, sat_bind, sat_get, owes.none, sat_pure]
        apply (ih quiet owes).mono
        · rintro taken after ⟨batches, segments, left, fresh, later⟩
          exact ⟨batches, segments, left, fresh, later.effects, later.shown, later.redelivering.of_nil,
            later.owes⟩
        · exact fun _ _ impossible => impossible
      · apply (sat_drainReplay quiet owes none).mono
        · rintro _ between ⟨sent, between_, effects, batched⟩
          apply (ih batched.quiet batched.owes).mono
          · rintro taken after ⟨batches, segments, left, fresh, later⟩
            obtain ⟨more, continued⟩ := continued_batch batched none later
            exact ⟨_, _, left, more, continued⟩
          · exact fun _ _ impossible => impossible
        · exact fun _ _ impossible => impossible

end

/-! The whole replay -/

theorem intercalate_cons {Item : Type} (mark first : List Item) (rest : List (List Item)) :
    mark.intercalate (first :: rest) = first ++ rest.flatMap (mark ++ ·) := by
  induction rest generalizing first with
  | nil => simp [List.intercalate]
  | cons second rest ih =>
    have later := ih second
    simp only [List.intercalate, List.intersperse_cons_cons, List.flatten_cons,
      List.flatMap_cons] at later ⊢
    rw [later, List.append_assoc]

/-- After a CONNACK that reports a session, the first batch and those that the continuations
ask for hand out the stored rows to be redelivered, in their order, each once. -/
theorem replay_complete {config : EngineConfig} {store : Store} {created : Engine}
    (begun : Engine.create config store = .ok created) (commands : List Command)
    {engine : Engine} (reached : (Protocol.Session.run ⟨created, []⟩ commands).engine = engine)
    (opening : engine.state = .connecting) {raw : RawPacket} (packet : raw.packetType = .connack)
    {properties : Option Properties}
    (decoded : engine.codec.decodeConnack raw.remaining = .ok (true, 0, properties))
    (quiet : engine.store.faults .inReplayPage = []) {connected : Engine}
    (accepted : handleRaw raw engine = .ok none connected) (calls : List ReplayCall) :
    ∃ taken final batches segments left fresh,
      replayCalls calls connected = .ok taken final ∧
      taken ++ final.effects = engine.effects ++ fresh ∧
      fresh.filter (·.Replays) =
        [.continueInboundReplay].intercalate segments ++ continuation left ∧
      Redelivering engine.redelivers engine.config.manualAck engine.store.inRows
        (calls.count .continueInboundReplay + 1) batches segments left ∧
      (final.inbound.replay = none ↔ left = []) := by
  have idle : engine.inbound.replay = none := by
    have unreplayed := unreplayed_of_run begun commands
    rw [reached] at unreplayed
    exact unreplayed opening
  obtain ⟨sent, between, effects, batched⟩ :=
    (sat_handleRaw_connack quiet idle opening packet decoded).ok accepted rfl
  have continues := sat_replayCalls calls batched.quiet batched.owes
  cases ran : replayCalls calls connected with
  | error failure after => exact (continues.error ran).elim
  | ok taken final =>
    obtain ⟨batches, segments, left, fresh, later⟩ := continues.ok ran
    obtain ⟨emitted, grown, shown⟩ := batched.effects
    refine ⟨taken, final, sent :: batches, effects :: segments, left, emitted ++ fresh, rfl, ?_, ?_,
      ?_, later.owes.none_iff⟩
    · rw [later.effects, grown, List.append_assoc]
    · rw [intercalate_cons, List.filter_append, shown, List.append_assoc, List.append_assoc,
        ← later.shown, continuation]
    · exact batched.redelivering later.redelivering

def resumedConfig : EngineConfig := { clientId := [97], cleanStart := false, accepted := rfl }

/-- Two messages of a batch each wait, and one between them was handed over. -/
def waitingStore : Store :=
  let row (mid logicalSize : Nat) (delivered : Bool) : Nat × InRow :=
    (mid, { seq := mid
            message := { mid, topic := [116], payload := [0], qos := .atLeastOnce, retain := false
                         state := .waitPuback, delivered, logicalSize } })
  { kind := .memory
    inbound := ⟨[row 1 replayBatchBytes false, row 2 2 true, row 3 replayBatchBytes false], by decide⟩
    inSeq := 3 }

def waitingEngine : Engine := Engine.started resumedConfig waitingStore ({1, 2, 3}, 2097154, [1, 2, 3])

def openingEngine : Engine := (Protocol.Session.run ⟨waitingEngine, []⟩ [.beginConnect]).engine

def sessionPresent : RawPacket := ⟨.connack, 0, [1, 0]⟩

def resumedEngine : Engine := (ended (handleRaw sessionPresent) openingEngine).2

theorem handleRaw_sessionPresent : handleRaw sessionPresent openingEngine = .ok none resumedEngine :=
  ok_of_ended (by decide +kernel)

/-- Three batches for three rows: nothing is left. -/
theorem replay_complete_two :
    resumedEngine.inbound.replay.isSome = true ∧
    ∃ taken final batches segments left fresh,
      replayCalls [.takeEffects, .continueInboundReplay, .takeEffects, .continueInboundReplay]
        resumedEngine = .ok taken final ∧
      taken ++ final.effects = openingEngine.effects ++ fresh ∧
      fresh.filter (·.Replays) =
        [.continueInboundReplay].intercalate segments ++ continuation left ∧
      Redelivering openingEngine.redelivers openingEngine.config.manualAck openingEngine.store.inRows
        3 batches segments left ∧
      (final.inbound.replay = none ↔ left = []) ∧ left = [] := by
  refine ⟨by decide +kernel, ?_⟩
  obtain ⟨taken, final, batches, segments, left, fresh, ran, effects, shown, redelivering, finished⟩ :=
    replay_complete (rfl : Engine.create resumedConfig waitingStore = .ok waitingEngine) [.beginConnect]
      rfl rfl rfl
      (rfl : openingEngine.codec.decodeConnack sessionPresent.remaining = .ok (true, 0, none))
      rfl handleRaw_sessionPresent
      [.takeEffects, .continueInboundReplay, .takeEffects, .continueInboundReplay]
  refine ⟨taken, final, batches, segments, left, fresh, ran, effects, shown, redelivering, finished, ?_⟩
  have rows : openingEngine.store.inRows.length = 3 := by decide +kernel
  have progress : left = [] ∨ left.length + 3 ≤ openingEngine.store.inRows.length :=
    redelivering.progress
  rcases progress with none | fewer
  · exact none
  · exact List.eq_nil_of_length_eq_zero (by omega)

end Mqttium
