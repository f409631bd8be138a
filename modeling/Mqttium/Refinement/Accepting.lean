import Mqttium.Connection.Authentication
import Mqttium.Decoding.Reencoding
import Mqttium.Refinement.Answering
import Mqttium.Refinement.Restarting

/-! The other packets, and the CONNACK that opens a connection. -/

namespace Mqttium

open Codec Library Packets Persistence Protocol

instance : Onlooker Attends where
  unsent := by
    rintro before after still ⟨watch, attending⟩
    exact attending.aside (Onlooker.unsent still) (Onlooker.unsent still)
  store _ _ apart :=
    attends_beside (fun _ => Onlooker.store _ _ apart) (undisturbed_storeCall apart)
  endSubs := attends_beside (fun _ => Onlooker.endSubs) undisturbed_endSubs

instance : Bystander Attends where
  still := by
    rintro before after still ⟨watch, attending⟩
    exact attending.aside (Bystander.still still) (Bystander.still still)

instance : Heedless Attends where
  quiet := by
    rintro before after quiet ⟨watch, attending⟩
    exact attending.aside (Heedless.quiet quiet) (Heedless.quiet quiet)

instance : Parting Attends Attends where
  goodbye reasonCode :=
    attends_beside (fun _ => aside_protocolDisconnect reasonCode) (undisturbed_protocolDisconnect reasonCode)

section

variable {engine after between : Engine} {watch : Watch} {raw : RawPacket}

/-! What a CONNACK grants -/

theorem encodeItems_single {spec : PropertySpec} {item : PropertyItem} {encoded : Bytes}
    (ok : encodeItems spec [item] = .ok encoded) :
    checkValue .protocol s!"'{propertyText spec.name}'" spec item = .ok () ∧
      ∃ data, encodeValue spec.type item = .ok data := by
  obtain ⟨_, checked, ok⟩ := except_bind_ok.mp ok
  obtain ⟨data, encoded, _⟩ := except_bind_ok.mp ok
  exact ⟨checked, data, encoded⟩

/-- A Receive Maximum off the wire is not zero. -/
theorem readable_receiveMaximum {context : PropertyContext} {value : Int}
    (readable : Readable context .receiveMaximum (.scalar (.int value))) : 0 < value := by
  obtain ⟨encoded, one⟩ := readable.encodes
  have known : byName .receiveMaximum = some
      { id := 0x21, name := .receiveMaximum, type := .u16, packets := [.connect, .connack],
        nonzero := true } := rfl
  obtain ⟨values, listed, items⟩ := encodeEntries_one_ok known one
  cases listed
  obtain ⟨checked, data, wide⟩ := encodeItems_single items
  obtain ⟨number, bounded, _⟩ := except_bind_ok.mp wide
  obtain ⟨same, _⟩ := boundedInt_ok bounded
  cases same
  have nonzero : (number : Int) ≠ 0 := by
    intro zero
    simp [checkValue, isInt, zero] at checked
  omega

theorem decodeProperties_granted {remaining : Bytes} {offset next : Nat} {table : Properties}
    {context : PropertyContext}
    (read : decodeProperties remaining offset context = .ok (table, next)) {value : Int}
    (given : table.int? .receiveMaximum = some value) : 0 < value := by
  rcases decodeProperties_read read with ⟨rfl, _⟩ | ⟨_, _, _, _, _, read, _⟩
  · simp [Properties.int?, Properties.get, Properties.empty] at given
  · refine readable_receiveMaximum (read.readable _ _ ?_)
    unfold Properties.int? at given
    split at given
    · next found =>
      cases given
      unfold Properties.get at found
      split at found
      · cases found
      · exact found
    · cases given

theorem decodeConnack_granted {present : Bool} {reasonCode : Nat} {properties : Option Properties}
    (decoded : engine.codec.decodeConnack raw.remaining = .ok (present, reasonCode, properties))
    (requested : Option Nat) :
    1 ≤ (NegotiatedSettings.fromConnack properties requested).receiveMaximum := by
  have shown : (NegotiatedSettings.fromConnack properties requested).receiveMaximum =
      ((properties.bind (·.int? .receiveMaximum)).map Int.toNat).getD 65535 := rfl
  rw [shown]
  cases given : properties.bind (·.int? .receiveMaximum) with
  | none => simp
  | some value =>
    obtain ⟨table, rfl, given⟩ := Option.bind_eq_some_iff.mp given
    have positive : 0 < value := by
      cases protocol : engine.config.protocol with
      | mqttv311 =>
        simp only [Engine.codec, protocol, bindCodec] at decoded
        obtain ⟨_, _, decoded⟩ := except_bind_ok.mp decoded
        obtain ⟨_, _, decoded⟩ := except_bind_ok.mp decoded
        obtain ⟨_, _, decoded⟩ := except_bind_ok.mp decoded
        obtain ⟨_, _, decoded⟩ := except_bind_ok.mp decoded
        cases decoded
      | mqttv5 =>
        simp only [Engine.codec, protocol, bindCodec] at decoded
        obtain ⟨_, _, decoded⟩ := except_bind_ok.mp decoded
        obtain ⟨_, _, decoded⟩ := except_bind_ok.mp decoded
        obtain ⟨⟨found, _⟩, read, decoded⟩ := except_bind_ok.mp decoded
        obtain ⟨_, _, decoded⟩ := except_bind_ok.mp decoded
        obtain ⟨_, _, decoded⟩ := except_bind_ok.mp decoded
        cases decoded
        exact decodeProperties_granted read given
    simp only [Option.map_some, Option.getD_some]
    omega

/-! CONNACK -/

/-- An engine from which a connection opens: no live exchange is in its release phase. -/
structure Outset (watch : Watch) (engine : Engine) : Prop where
  ready : Ready watch engine
  start : engine.effects.length = watch.base
  slotted : Ledger.Slotted (view watch engine)
  unreleased : Ledger.Unreleased (view watch engine)

theorem Outset.joins (outset : Outset watch engine) {events : List Event}
    (progress : Progress watch (watch.learn events) engine after) (idle : NoIdle after)
    (calm : ∀ event ∈ events, ∀ seq, event ≠ .advanced seq)
    (joined : (view (watch.learn events) after).accepted) : Attended after := by
  have sound := outset.ready.sound
  have slotted := Steps.slotted progress.steps sound outset.slotted
  have unreleased := Steps.unreleased progress.steps sound outset.unreleased (by
    intro fresh grown event member
    rcases log_fresh outset.start grown member with learnt | ⟨effect, shown⟩
    · exact calm event learnt
    · exact (effectEvent_holds shown (view watch engine)).2)
  have valid := (outset.ready.progress progress).sound.accounts
  refine .rebased (outset.ready.progress progress) slotted unreleased.carried ?_ (fun _ => joined) rfl
  refine Ledger.Covered.of_idle slotted unreleased.carried joined valid (idle.imp ?_ id)
  intro empty
  simp [view, empty]

theorem accepted_learn {events : List Event} (accepts : events.any Event.accepts = true) :
    (view (watch.learn events) after).accepted :=
  ⟨by simp [view, Watch.log, Watch.learn, accepts], rfl⟩

/-! Redelivery asks only the store, which answers. -/

section

open Inbound

private def Answers {Value : Type} (program : EngineM Value) : Prop :=
  Returns (fun engine => engine.store.Reliable) program

theorem answers_storeRead {Value : Type} {call : StoreCall} {read : Store → Value} :
    Answers (storeRead call read) := by
  intro engine reliable
  rw [sat_storeRead reliable]
  exact reliable

theorem answers_modifyInbound {change : InboundSession → InboundSession} :
    Answers (modifyInbound change) :=
  returns_modify fun _ reliable => reliable

theorem answers_exchangeToken (mid : Nat) : Answers (exchangeToken mid) := by
  refine returns_bind returns_get fun engine => ?_
  cases engine.inbound.exchangeTokens.get? mid with
  | some token => exact returns_pure _
  | none =>
    exact returns_bind returns_get fun _ => returns_bind answers_modifyInbound fun _ =>
      returns_pure _

theorem answers_emitMessage (stored : InboundMessage) (dup : Bool) :
    Answers (emitMessage stored dup) := by
  have binds (message : Message) : Answers (bindAckToken stored.mid message) :=
    returns_bind returns_get fun _ => returns_ite
      (returns_bind (answers_exchangeToken _) fun _ => returns_pure _) (returns_pure _)
  exact returns_bind (binds _) fun _ => returns_bind (answers_exchangeToken _) fun _ =>
    returns_modify fun _ reliable => reliable

theorem answers_nextPage (groups : List (List Nat)) : Answers (nextPage groups) := by
  induction groups with
  | nil => exact returns_pure _
  | cons mids rest ih =>
    refine returns_bind answers_storeRead fun page => ?_
    cases page with
    | nil => exact ih
    | cons row more => exact returns_pure _

theorem answers_replayFor (fuel : Nat) (cursor : InboundReplayCursor) (emitted bytes : Nat) :
    Answers (replayFor fuel cursor emitted bytes) := by
  induction fuel generalizing cursor emitted bytes with
  | zero => exact returns_pure _
  | succ fuel ih =>
    refine returns_ite (returns_pure _) ?_
    obtain ⟨taken, rest⟩ := nextPageMessage cursor
    cases taken with
    | none => exact returns_pure _
    | some row =>
      exact returns_bind returns_get fun _ => returns_ite (ih _ _ _) <| returns_ite (returns_pure _) <|
        returns_bind (answers_emitMessage _ _) fun _ => ih _ _ _

theorem answers_drainReplay : Answers drainReplay := by
  refine returns_bind returns_get fun engine => ?_
  cases engine.inbound.replay with
  | none => exact returns_pure _
  | some cursor =>
    have begins : Answers (beginPage cursor) := by
      refine returns_ite (returns_pure _) <| returns_bind answers_modifyInbound fun _ =>
        returns_bind (answers_nextPage _) fun found => ?_
      cases found with
      | none => exact returns_pure _
      | some page => exact returns_pure _
    refine returns_bind begins fun begun => returns_ite ?_ answers_modifyInbound
    exact returns_bind (answers_replayFor _ _ _ _) fun _ => returns_bind answers_modifyInbound
      fun _ => returns_ite answers_modifyInbound (returns_modify fun _ reliable => reliable)

theorem answers_replaySession : Answers Inbound.replaySession :=
  returns_bind answers_storeRead fun _ => returns_bind answers_modifyInbound fun _ =>
    returns_ite answers_modifyInbound <| returns_bind returns_get fun _ =>
    returns_bind answers_modifyInbound fun _ => answers_drainReplay

end

/-- What follows once both directions are reconciled. -/
theorem adopts_sat {present : Bool} {properties : Option Properties} (ready : Ready watch between) :
    Sat (do
      emit (.connack present 0 properties)
      onlyIf present Inbound.replaySession
      Outbound.drain : EngineM PUnit) between
      (fun _ after => Progress watch watch between after ∧ NoIdle after) (fun _ _ => False) := by
  have announces : Within (Aside watch) (emit (.connack present 0 properties)) := beside_emit trivial
  have replays : Within (Aside watch) Inbound.replaySession := beside_replaySession
  have drains (last : Engine) (progress : Progress watch watch between last) :
      Sat Outbound.drain last (fun _ after => Progress watch watch between after ∧ NoIdle after)
        (fun _ _ => False) := by
    refine (drain_sat (ready.progress progress)).mono ?_ (by simp)
    exact fun _ _ ⟨more, full⟩ => ⟨progress.trans more, full⟩
  have aside := announces between
  rw [sat_emit] at aside
  have told := (aside ready).progress
  rw [sat_bind, sat_emit, sat_bind, sat_onlyIf]
  refine ⟨fun _ => ?_, fun _ => drains _ told⟩
  apply ((replays _).and (answers_replaySession _ told.tracking.coherent.reliable)).mono
  · exact fun _ _ ⟨more, _⟩ => drains _ (told.trans (more (ready.progress told)).progress)
  · exact fun _ _ ⟨_, failed⟩ => failed

/-- A session that the broker kept. -/
theorem resumed_sat {properties : Option Properties} (ready : Ready watch engine)
    (start : engine.effects.length = watch.base) (granted : 1 ≤ engine.negotiated.receiveMaximum) :
    Sat (do
      Outbound.replaySession
      emit (.connack true 0 properties)
      onlyIf true Inbound.replaySession
      Outbound.drain : EngineM PUnit) engine
      (fun _ after => Progress watch
        (watch.learn [.session true engine.negotiated.receiveMaximum]) engine after ∧ NoIdle after)
      (fun _ _ => False) := by
  rw [sat_bind]
  apply (replaySession_sat ready start granted).mono _ fun _ _ failed => failed
  intro _ between ⟨progress, idle⟩
  exact (adopts_sat (ready.progress progress)).mono
    (fun _ _ ⟨more, full⟩ => ⟨progress.trans more, full⟩) fun _ _ failed => failed

/-- A session that the broker lost is settled first: what is left of it was never sent. -/
theorem settleLost_sat {next : EngineM PUnit} {returned : PUnit → Engine → Prop}
    {raised : Failure → Engine → Prop} (ready : Ready watch engine)
    (start : engine.effects.length = watch.base) (granted : 1 ≤ engine.negotiated.receiveMaximum)
    (continues : ∀ between,
      Progress watch (watch.learn [.session false engine.negotiated.receiveMaximum]) engine between →
      between.outbound.parked = ∅ →
      (∀ mid row, between.store.out.get? mid = some row → row.message.state = .queued) →
      Sat next between returned raised) :
    Sat (do
      Outbound.purgeAfterCleanSession (engine.pendingSubRequests.isEmpty = false)
      Inbound.discardSession
      Outbound.resetFlowForConnection
      next : EngineM PUnit) engine returned raised := by
  have fits : Ledger.Fits engine.config.maxOutboundInflight engine.negotiated.receiveMaximum
      engine.window := brokerLimit_fits granted
  rw [sat_bind]
  apply ((purgeAfterCleanSession_sat ready start fits).and
    (purgeAfterCleanSession_unsent ready start fits _)).mono _ fun _ _ failed => failed.1.elim
  intro _ settled ⟨purged, unsent⟩
  have spares : Within Undisturbed Inbound.discardSession := beside_discardSession
  rw [sat_bind]
  apply ((discardSession_sat purged).and (spares settled)).mono _ fun _ _ failed => failed.1.elim
  intro _ discarded ⟨purged, spared⟩
  have reset : Sat Outbound.resetFlowForConnection discarded
      (fun _ after => after.store = discarded.store) (fun _ _ => False) := by
    simp only [Outbound.resetFlowForConnection, sat_modify]
  rw [sat_bind]
  apply (purged.progress.and reset).mono _ fun _ _ failed => failed.1.elim
  intro _ between ⟨⟨progress, unparked⟩, stored⟩
  refine continues between progress unparked ?_
  rw [stored, spared.rows]
  exact unsent

/-- The session of a broker that lost it starts anew. -/
theorem lost_sat {properties : Option Properties} (ready : Ready watch engine)
    (start : engine.effects.length = watch.base) (granted : 1 ≤ engine.negotiated.receiveMaximum) :
    Sat (do
      Outbound.purgeAfterCleanSession (engine.pendingSubRequests.isEmpty = false)
      Inbound.discardSession
      Outbound.resetFlowForConnection
      Outbound.failQueuedViolatingNegotiation
      emit (.connack false 0 properties)
      onlyIf false Inbound.replaySession
      Outbound.drain : EngineM PUnit) engine
      (fun _ after => Progress watch
        (watch.learn [.session false engine.negotiated.receiveMaximum]) engine after ∧ NoIdle after)
      (fun _ _ => False) := by
  refine settleLost_sat ready start granted fun between progress unparked _ => ?_
  have settled := ready.progress progress
  rw [sat_bind]
  apply (failQueued_sat settled unparked).mono _ fun _ _ failed => failed
  intro _ last refused
  exact (adopts_sat (settled.progress refused)).mono
    (fun _ _ ⟨more, idle⟩ => ⟨progress.trans (refused.trans more), idle⟩) fun _ _ failed => failed

theorem restarted_sat {properties : Option Properties} (ready : Ready watch engine)
    (start : engine.effects.length = watch.base) (granted : 1 ≤ engine.negotiated.receiveMaximum) :
    Sat (do
      Outbound.purgeAfterCleanSession (engine.pendingSubRequests.isEmpty = false)
      Inbound.discardSession
      Outbound.resetFlowForConnection
      Outbound.failQueuedViolatingNegotiation
      emit (.connack false 0 properties)
      onlyIf false Inbound.replaySession
      Outbound.drain : EngineM PUnit) engine (fun _ => Attended) (fun _ _ => False) := by
  refine settleLost_sat ready start granted fun between progress unparked queued => ?_
  -- From here on the call is looked at as if it started with the rows that are left.
  let later := watch.learn [.session false engine.negotiated.receiveMaximum]
  let next := later.renewed between between
  have shown : view next between = view later between := view_renewed rfl
  have outset : Outset next between := by
    refine ⟨(ready.progress progress).renewed rfl, rfl, ?_, ?_⟩
    · intro _ mid entry found _ waits
      obtain ⟨row, present, rfl⟩ := Option.map_eq_some_iff.mp (view_row.symm.trans found)
      simp [queued mid row present, OutboundQoSState.waiting] at waits
    · intro mid entry found _ released
      obtain ⟨row, present, rfl⟩ := Option.map_eq_some_iff.mp (view_row.symm.trans found)
      simp [queued mid row present] at released
  have joined : (view next between).accepted := by
    rw [shown]
    exact accepted_learn rfl
  have joins (after : Engine) (progress : Progress next next between after) (idle : NoIdle after) :
      Attended after := by
    obtain ⟨more, grown⟩ := Steps.log progress.steps
    have learnt : Progress next (next.learn []) between after := by
      rw [Watch.learn_nil]
      exact progress
    refine outset.joins learnt idle (by simp) ?_
    rw [Watch.learn_nil]
    refine ⟨?_, rfl⟩
    rw [← grown, List.any_append, joined.1]
    rfl
  rw [sat_bind]
  apply (failQueued_sat outset.ready unparked).mono _ fun _ _ failed => failed
  intro _ last progress
  apply (adopts_sat (outset.ready.progress progress)).mono
  · rintro _ after ⟨more, full⟩
    exact joins after (progress.trans more) full
  · exact fun _ _ failed => failed

/-- A live exchange is in its release phase. -/
def Protocol.Engine.releases (engine : Engine) : Bool :=
  engine.store.out.entries.any fun entry =>
    !engine.outbound.sealed.contains entry.1 && entry.2.message.state == .waitPubcomp

theorem unreleased_of_releases (none : engine.releases = false) (watch : Watch) :
    Ledger.Unreleased (view watch engine) := by
  intro mid entry found live released
  obtain ⟨row, present, rfl⟩ := Option.map_eq_some_iff.mp (view_row.symm.trans found)
  have member : (mid, row) ∈ engine.store.out.entries := Dict.get?_eq_some_iff.mp present
  have unsealed : engine.outbound.sealed.contains mid = false := live
  have spoken := List.any_eq_false.mp none (mid, row) member
  rw [unsealed] at spoken
  simp_all

/-- What the ledger does not show is no matter. -/
theorem Ready.shown (ready : Ready watch engine) (store : after.store = engine.store)
    (outbound : after.outbound = engine.outbound) (effects : after.effects = engine.effects)
    (same : view watch after = view watch engine) : Ready watch after := by
  refine ⟨⟨⟨store ▸ ready.tracking.coherent.reliable, store ▸ ready.tracking.coherent.rows⟩,
    effects ▸ ready.tracking.later, store ▸ ready.tracking.names⟩, ?_, same ▸ ready.sound⟩
  unfold Aligned
  rw [outbound, store]
  exact ready.aligned

theorem attended_reconcileSession {present : Bool} {properties : Option Properties}
    (attended : Attended engine) (granted : 1 ≤ engine.negotiated.receiveMaximum) :
    Sat (reconcileSession present properties) engine
      (fun _ after => (present = true → engine.releases = false) → Attended after)
      (fun _ _ => False) := by
  obtain ⟨watch, attending⟩ := attended
  have ready := attending.ready
  rw [reconcileSession, sat_bind, sat_modify, updateSessionResumePreference, sat_bind, sat_modify,
    sat_bind, sat_get]
  cases present with
  | true =>
    refine Sat.mono (resumed_sat (ready.shown rfl rfl rfl rfl) attending.start granted) ?_
      fun _ _ failed => failed
    rintro _ after ⟨progress, idle⟩ clear
    have outset : Outset watch engine :=
      ⟨ready, attending.start, attending.slotted, unreleased_of_releases (clear rfl) watch⟩
    exact outset.joins ⟨progress.tracking, progress.aligned, progress.steps⟩ idle (by simp)
      (accepted_learn rfl)
  | false =>
    exact Sat.mono (restarted_sat (ready.shown rfl rfl rfl rfl) attending.start granted)
      (fun _ _ done _ => done) fun _ _ failed => failed

/-- The negotiated limits stay. -/
def Abides (before after : Engine) : Prop := after.negotiated = before.negotiated

instance : IsPreorder Engine Abides where
  refl _ := rfl
  trans _ _ _ first second := second.trans first

instance : Standby Abides where
  remote still _ _ := still.negotiated
  read _ _ := by
    intro engine
    simp only [storeRead, storeCall, sat_bind, sat_get]
    split <;> exact rfl
  endSubs _ := sat_releasePendingSubscriptionRequests fun _ _ => rfl

theorem negotiate_abides {properties : Option Properties} :
    Sat (negotiate properties) engine
      (fun _ after => after.negotiated = .fromConnack properties engine.sentSessionExpiryInterval ∧
        after.effects = engine.effects) (fun _ _ => True) := by
  simp only [negotiate, sat_bind, sat_modify, sat_get]
  split
  · simp only [sat_onlyIf, sat_bind, enterDisconnected, sat_modify, sat_throw]
    exact ⟨fun _ => trivial, fun _ => ⟨trivial, trivial⟩⟩
  · exact ⟨rfl, rfl⟩

theorem Undisturbed.releases (undisturbed : Undisturbed engine after) :
    after.releases = engine.releases := by
  unfold Engine.releases
  rw [undisturbed.rows, undisturbed.sealed]

theorem attended_acceptConnack {present : Bool} {reasonCode : Nat} {properties : Option Properties}
    (decoded : engine.codec.decodeConnack raw.remaining = .ok (present, reasonCode, properties))
    (attended : Attended engine) :
    Sat (acceptConnack present properties) engine
      (fun _ after => (present = true → engine.releases = false) → Attended after)
      (fun _ => Attended) := by
  have checks : Ends Attends Attends (validateAcceptedConnack present properties) :=
    beside_validateAcceptedConnack present properties
  rw [acceptConnack, sat_bind]
  apply ((checks engine).and (validateAcceptedConnack_over present properties engine)).mono _
    fun _ _ kept => kept.1 attended
  rintro _ _ ⟨_, same⟩
  rw [same]
  have settles : Within Attends (negotiate properties) := heedless_negotiate properties
  have settled : Within Undisturbed (negotiate properties) := heedless_negotiate properties
  rw [sat_bind]
  apply ((settles engine).and ((settled engine).and negotiate_abides)).mono _
    fun _ _ kept => kept.1 attended
  rintro _ limited ⟨kept, still, negotiated, _⟩
  have attended := kept attended
  have replays : Within Attends (onlyIf present _) := within_onlyIf within_replayable
  have replayed : Within Undisturbed (onlyIf present _) := within_onlyIf within_replayable
  have abides : Within Abides (onlyIf present _) := within_onlyIf within_replayable
  rw [sat_bind]
  apply ((replays limited).and ((replayed limited).and (abides limited))).mono _
    fun _ _ kept => kept.1 attended
  rintro _ replayable ⟨kept, calm, same⟩
  have granted : 1 ≤ replayable.negotiated.receiveMaximum := by
    rw [show replayable.negotiated = limited.negotiated from same, negotiated]
    exact decodeConnack_granted decoded _
  have releases : replayable.releases = engine.releases :=
    calm.releases.trans still.releases
  rw [← releases]
  exact (attended_reconcileSession (kept attended) granted).mono (fun _ _ done => done)
    fun _ _ failed => failed.elim

/-- A CONNACK that reports the session would resume an exchange in its release phase,
which then owns no slot. -/
def Protocol.Engine.resumesReleasing (engine : Engine) (raw : RawPacket) : Bool :=
  (match engine.codec.decodeConnack raw.remaining with
    | .ok (present, reasonCode, _) => present && reasonCode == 0
    | .error _ => false) && engine.releases

theorem attended_onConnack (attended : Attended engine) :
    Sat (onConnack raw) engine
      (fun _ after => engine.resumesReleasing raw = false → Attended after)
      (fun _ => Attended) := by
  simp only [onConnack, sat_bind, sat_get, sat_raiseIf, sat_fromExcept]
  refine ⟨fun _ => attended, fun _ => ⟨?_, fun _ _ => attended⟩⟩
  rintro ⟨present, reasonCode, properties⟩ decoded
  have finishes : Sat (if reasonCode ≠ 0 then do
        enterDisconnected
        emit (.connack present reasonCode properties)
        emit (.disconnected reasonCode properties true)
      else acceptConnack present properties : EngineM PUnit) engine
      (fun _ after => engine.resumesReleasing raw = false → Attended after)
      (fun _ => Attended) := by
    have refuses : Within Attends (do
        enterDisconnected
        emit (.connack present reasonCode properties)
        emit (.disconnected reasonCode properties true) : EngineM PUnit) :=
      within_bind beside_enterDisconnected fun _ =>
        within_bind (beside_emit trivial) fun _ => beside_emit trivial
    rw [sat_ite]
    refine ⟨fun _ => ?_, fun success => ?_⟩
    · exact (refuses engine).mono (fun _ _ kept _ => kept attended) fun _ _ kept => kept attended
    · apply (attended_acceptConnack decoded attended).mono _ fun _ _ done => done
      intro _ after accepted spares
      refine accepted fun reported => ?_
      simpa [Engine.resumesReleasing, decoded, reported, not_not.mp success] using spares
  have checks : Ends Attends Attends (validateConnackV5 reasonCode properties) :=
    beside_validateConnackV5 reasonCode properties
  rw [sat_onlyIf]
  refine ⟨fun _ => ?_, fun _ => finishes⟩
  apply ((checks engine).and (validateConnackV5_over reasonCode properties engine)).mono _
    fun _ _ kept => kept.1 attended
  intro _ _ ⟨_, same⟩
  rw [same]
  exact finishes

/-! Packets -/

/-- The packet takes the slot of an exchange in its release phase away, or brings one there
without. -/
def Protocol.Engine.strands (engine : Engine) (raw : RawPacket) : Bool :=
  match raw.packetType with
  | .connack => engine.resumesReleasing raw
  | .pubrec => engine.advancesParked raw
  | _ => false

theorem attended_dispatch (attended : Attended engine) :
    Sat (dispatch raw) engine (fun _ after => engine.strands raw = false → Attended after)
      (fun _ => Attended) := by
  have passes {program : EngineM PUnit} (within : Within Attends program) :
      Sat program engine (fun _ after => engine.strands raw = false → Attended after)
        (fun _ => Attended) :=
    (within engine).mono (fun _ _ kept _ => kept attended) fun _ _ kept => kept attended
  simp only [dispatch, sat_bind, sat_fromExcept, sat_get]
  refine ⟨fun _ _ => ?_, fun _ _ => attended⟩
  cases found : handlerFor engine.state raw.packetType with
  | none => exact attended
  | some handler =>
    unfold handlerFor at found
    split at found
    all_goals cases found
    · next kind =>
      simpa only [Engine.strands, kind] using attended_onConnack attended
    · exact passes (beside_onAuth Attends raw)
    · exact passes (beside_handlePublish raw : Ends Attends Attends _)
    · next open_ kind =>
      exact (attended_onPuback attended open_ kind).mono (fun _ _ done _ => done) fun _ _ done => done
    · next open_ kind =>
      simpa only [Engine.strands, kind] using attended_onPubrec attended open_ kind
    · exact passes (beside_onPubrel raw : Ends Attends Attends _)
    · next open_ kind =>
      exact (attended_onPubcomp attended open_ kind).mono (fun _ _ done _ => done) fun _ _ done => done
    · exact passes (attends_beside (fun _ => aside_onSuback raw) (undisturbed_onSuback raw))
    · exact passes (attends_beside (fun _ => aside_onUnsuback raw) (undisturbed_onUnsuback raw))
    · exact passes (beside_onPingresp raw)
    · exact passes (beside_onDisconnect raw)
    · exact passes (beside_onAuth Attends raw)

/-- The packet is processed to its end. -/
def Protocol.Engine.processes (engine : Engine) (raw : RawPacket) : Bool :=
  match dispatch raw engine with
  | .ok _ _ => true
  | .error _ _ => false

theorem attended_handleRaw (attended : Attended engine)
    (spared : engine.processes raw = true → engine.strands raw = false) :
    Sat (handleRaw raw) engine (fun _ => Attended) (fun _ => Attended) := by
  have announces (failure : Failure) : Within Attends (emit (.protocolError failure)) :=
    beside_emit trivial
  simp only [handleRaw, sat_bind, sat_get, sat_ite, sat_catching]
  refine ⟨fun _ => attended, fun _ => ?_⟩
  apply ((Sat.itself (dispatch raw) engine).and (attended_dispatch attended)).mono
  · rintro _ after ⟨ended, kept⟩
    exact kept (spared (by simp [Engine.processes, ended]))
  · rintro failure after ⟨_, kept⟩
    refine ⟨fun _ => ?_, fun _ => kept⟩
    exact (announces failure after).mono (fun _ _ more => more kept) fun _ _ more => more kept

/-! Calls -/

/-- The calls that have no part in a publication. -/
def Protocol.Command.Beside : Command → Prop
  | .handleRaw _ | .queuePublish _ _ | .sealPublications _ | .takeEffects => False
  | _ => True

theorem beside_run {relation : Engine → Engine → Prop} [Bystander relation] [Heedless relation]
    {command : Command} (beside : command.Beside)
    (subscribes : ∀ choice subscriptions properties,
      Within relation (queueSubscribe choice subscriptions properties))
    (unsubscribes : ∀ choice topics, Within relation (queueUnsubscribe choice topics)) :
    Within relation command.run := by
  cases command with
  | beginConnect => exact within_map heedless_beginConnect
  | tryDirectQos0Publish call admitted => exact heedless_tryDirectQos0Publish call admitted
  | queueSubscribe choice subscriptions properties => exact within_map (subscribes _ _ _)
  | queueUnsubscribe choice topics => exact within_map (unsubscribes _ _)
  | queuePing => exact within_map beside_queuePing
  | beginDisconnect reasonCode properties =>
    exact within_map (beside_beginDisconnect reasonCode properties)
  | notifyTransportClosed => exact within_map heedless_notifyTransportClosed
  | continueInboundReplay => exact within_map beside_drainReplay
  | markInboundDelivered mid token => exact within_map (beside_markDelivered mid token)
  | ack mid message =>
    exact within_map (within_bind within_get fun _ => within_bind within_raiseIf fun _ =>
      beside_ack mid message)
  | respondAuth challenge reasonCode properties =>
    exact within_map (beside_respondAuth challenge reasonCode properties)
  | queueAuth reasonCode properties => exact within_map (beside_queueAuth reasonCode properties)
  | _ => exact beside.elim

theorem undisturbed_queueSubscribe (choice : Nat) (subscriptions : List Subscription)
    (properties : Option Properties) :
    Within Undisturbed (queueSubscribe choice subscriptions properties) :=
  within_bind within_get fun _ => within_bind within_fromExcept fun _ =>
    undisturbed_sendSubscriptionRequest _ _ _ _

theorem undisturbed_queueUnsubscribe (choice : Nat) (topics : List Text) :
    Within Undisturbed (queueUnsubscribe choice topics) :=
  within_bind within_get fun _ => within_bind within_fromExcept fun _ =>
    undisturbed_sendSubscriptionRequest _ _ _ _

theorem attends_apart {command : Command} (apart : ∀ raw, command ≠ .handleRaw raw) :
    Within Attends command.run := by
  cases command with
  | handleRaw raw => exact absurd rfl (apart raw)
  | queuePublish choice call =>
    exact within_map (attends_of_attended fun _ attended => attended_queuePublish attended)
  | sealPublications mids => exact within_map (attends_sealPublications mids)
  | takeEffects => exact within_map attends_takeEffects
  | _ =>
    refine beside_run trivial (fun choice subscriptions properties => ?_) fun choice topics => ?_
    · exact attends_beside (fun _ => aside_queueSubscribe choice subscriptions properties)
        (undisturbed_queueSubscribe choice subscriptions properties)
    · exact attends_beside (fun _ => aside_queueUnsubscribe choice topics)
        (undisturbed_queueUnsubscribe choice topics)

/-- The call takes the slot of an exchange in its release phase away, or brings one there
without. -/
def Protocol.Command.strands (engine : Engine) : Command → Bool
  | .handleRaw raw => engine.processes raw && engine.strands raw
  | _ => false

theorem attended_run {command : Command} (attended : Attended engine)
    (spared : command.strands engine = false) :
    Sat command.run engine (fun _ => Attended) (fun _ => Attended) := by
  by_cases handles : ∃ raw, command = .handleRaw raw
  · obtain ⟨raw, rfl⟩ := handles
    have passed : engine.processes raw = true → engine.strands raw = false := by
      simpa [Command.strands] using spared
    simp only [Command.run, sat_map]
    exact attended_handleRaw attended passed
  · have apart := attends_apart fun raw same => handles ⟨raw, same⟩
    exact (apart engine).mono (fun _ _ kept => kept attended) fun _ _ kept => kept attended

end

end Mqttium
