import Mqttium.Refinement.Chronicle

/-! What an observer of a client sees of its publications, over any run: the phases of
an exchange, its DUP flag and its terminal report. -/

namespace Mqttium

open Codec Library Packets Persistence Protocol

/-! Acknowledgements that match no exchange -/

/-- The phase of the exchanges that an acknowledgement packet answers. -/
def Protocol.answeredPhase : PacketType → Option OutboundQoSState
  | .puback => some .waitPuback
  | .pubrec => some .waitPubrec
  | .pubcomp => some .waitPubcomp
  | _ => none

/-- The decoder of an acknowledgement packet. -/
def Protocol.Engine.decodeAnswer (engine : Engine) (raw : RawPacket) : Except Failure DecodedAck :=
  match raw.packetType with
  | .puback => engine.codec.decodePuback raw.remaining
  | .pubrec => engine.codec.decodePubrec raw.remaining
  | _ => engine.codec.decodePubcomp raw.remaining

/-- An acknowledgement that passes every check of the packet, but `mid` names no exchange
in the phase it answers. -/
structure Protocol.Engine.Stray (engine : Engine) (raw : RawPacket) (mid : Nat) : Prop where
  connected : engine.state = .connected
  valid : validateRawPacket raw = .ok ⟨⟩
  read : ∃ reasonCode properties, engine.decodeAnswer raw = .ok (mid, reasonCode, properties) ∧
    Outbound.validateAckProperties raw.packetType properties engine = .ok ⟨⟩ engine
  elsewhere : ∃ phase, answeredPhase raw.packetType = some phase ∧
    ∀ row, engine.store.out.get? mid = some row → row.message.state ≠ phase

/-- Nothing changed, except that PUBRELs of `mid` may have been sent. -/
def Protocol.Engine.Released (mid : Nat) (before after : Engine) : Prop :=
  ∃ sent, after = { before with effects := before.effects ++ sent } ∧
    ∀ effect ∈ sent, ∃ wire, effect = .send (.contiguous wire) ∧ seen wire = some (.pubrel mid)

section

variable {chronicle : Chronicle} {engine : Engine}

/-- What every call keeps of a recorded chronicle holds after any run. -/
theorem Chronicle.Recorded.run_induction {property : Chronicle → Prop}
    (recorded : chronicle.Recorded) (start : property chronicle)
    (keeps : ∀ current command, current.Recorded → property current →
      property (current.step command))
    (commands : List Command) : property (chronicle.run commands) := by
  induction commands using List.reverseRecOn with
  | nil => exact start
  | append_singleton commands command ih =>
    rw [Chronicle.run_concat]
    exact keeps _ command (recorded.run commands) ih

theorem Chronicle.Recorded.sound (recorded : chronicle.Recorded) : Ledger.Sound chronicle.ledger :=
  Ready.sound recorded

/-! Whatever is sent or reported names a publication -/

theorem Ledger.native_steps {before after : Ledger} (steps : Steps before after)
    (native : .foreign ∉ before.log) : .foreign ∉ after.log := by
  induction steps with
  | refl => exact native
  | tail _ move ih => exact move.native ih

theorem Chronicle.Recorded.native_step (recorded : chronicle.Recorded) (command : Command)
    (native : .foreign ∉ chronicle.log) : .foreign ∉ (chronicle.step command).log := by
  rw [← Chronicle.ledger_log] at native ⊢
  rcases (recorded.follows_step command).turn with steps | ⟨_, mid, size, target, _, same⟩
  · exact Ledger.native_steps steps native
  · rw [same]
    exact Ledger.native_admitLaunched native

theorem Chronicle.native_start (engine : Engine) : .foreign ∉ (Chronicle.start engine).log := by
  simp [Chronicle.start, recoveredEvents]

theorem create_native {config : EngineConfig} {store : Store} (written : store.Written)
    (created : Engine.create config store = .ok engine) (commands : List Command) :
    .foreign ∉ ((Chronicle.start engine).run commands).log :=
  (create_recorded written created).run_induction (Chronicle.native_start engine)
    (fun _ command recorded native => recorded.native_step command native) commands

/-- A successful PUBREC is followed by PUBRELs only, and DUP marks the PUBLISHes that left
before within the broker's session. -/
theorem phases_exact {config : EngineConfig} {store : Store} (written : store.Written)
    (created : Engine.create config store = .ok engine) (commands : List Command) :
    .foreign ∉ ((Chronicle.start engine).run commands).log ∧
      Always releasedOnly ((Chronicle.start engine).run commands).log ∧
      Always dupExact ((Chronicle.start engine).run commands).log := by
  have sound := ((create_recorded written created).run commands).sound
  have released := sound.phases.released
  have dup := sound.phases.dup
  rw [Chronicle.ledger_log] at released dup
  exact ⟨create_native written created commands, released, dup⟩

theorem phases_exact_released : .foreign ∉ ((Chronicle.start durableEngine).run receivedRelease).log ∧
    Always releasedOnly ((Chronicle.start durableEngine).run receivedRelease).log ∧
    Always dupExact ((Chronicle.start durableEngine).run receivedRelease).log :=
  phases_exact memory_written durableEngine_created receivedRelease

end

/-! Strays -/

section

variable {engine : Engine} {raw : RawPacket} {mid : Nat}

theorem Protocol.Engine.Released.refl : Engine.Released mid engine engine :=
  ⟨[], by simp, by simp⟩

theorem sat_released {wire : Bytes} {raised : Failure → Engine → Prop}
    (shown : seen wire = some (.pubrel mid)) :
    Sat (send (.contiguous wire)) engine (fun _ => Engine.Released mid engine) raised := by
  refine ⟨[.send (.contiguous wire)], rfl, fun effect member => ⟨wire, ?_, shown⟩⟩
  exact List.mem_singleton.mp member

/-- The failure of a PUBREL that the peer's limit does not admit is a local one. -/
def Protocol.Local (mid : Nat) (before : Engine) (failure : Failure) (after : Engine) : Prop :=
  isPeerError failure = false ∧ Engine.Released mid before after

/-- The capacity check changes nothing. -/
theorem requirePubrelCapacity_local (size : Nat) :
    Sat (Outbound.requirePubrelCapacity size) engine (fun _ after => after = engine)
      (Local mid engine) := by
  simp only [Outbound.requirePubrelCapacity, sat_bind, sat_get]
  cases engine.negotiated.maximumPacketSize with
  | none => rfl
  | some limit => exact (sat_raiseIf _ _ _ _).mpr ⟨fun _ => ⟨rfl, .refl⟩, fun _ => rfl⟩

theorem sendOrphanPubrel_released {remaining : Bytes} {reasonCode : Nat}
    {properties : Option Properties}
    (decoded : engine.codec.decodePubrec remaining = .ok (mid, reasonCode, properties)) :
    Sat (Outbound.sendOrphanPubrel mid) engine (fun _ => Engine.Released mid engine)
      (Local mid engine) := by
  obtain ⟨wire, encoded⟩ := encodePubrel_decoded decoded
  have shown := seen_encodePubrel encoded
  simp only [Outbound.sendOrphanPubrel, sat_bind, sat_get]
  rw [show fromExcept (engine.codec.encodePubrel mid (if engine.codec.isMqtt5 then 0x92 else 0) none) =
    (pure wire : EngineM Bytes) from congrArg fromExcept encoded]
  rw [sat_pure]
  refine (requirePubrelCapacity_local wire.length).mono ?_ fun _ _ refused => refused
  rintro _ after rfl
  exact sat_released shown

theorem advanceOnPubrec_stray {remaining : Bytes} {reasonCode : Nat} {properties : Option Properties}
    (reliable : engine.store.Reliable)
    (small : ∀ row, engine.store.out.get? mid = some row → mid < 65536)
    (decoded : engine.codec.decodePubrec remaining = .ok (mid, reasonCode, properties))
    (stray : ∀ row, engine.store.out.get? mid = some row → row.message.state ≠ .waitPubrec) :
    Sat (Outbound.advanceOnPubrec mid) engine (fun _ => Engine.Released mid engine)
      (Local mid engine) := by
  have unmatched : engine.store.transitionOut mid .waitPubrec .waitPubcomp true =
      (none, engine.store) := by
    simp only [Store.transitionOut, Store.outMessage?]
    cases found : engine.store.out.get? mid with
    | none => rfl
    | some row => simp [stray row found]
  simp only [Outbound.advanceOnPubrec, sat_bind, sat_storeCall reliable, unmatched,
    sat_storeRead reliable]
  cases found : engine.store.out.get? mid with
  | none =>
    simp only [outMeta_none found]
    exact sendOrphanPubrel_released decoded
  | some row =>
    simp only [outMeta_eq found, sat_onlyIf]
    exact ⟨fun _ => sat_released (seen_encodePubrelSuccess (small row found)), fun _ => .refl⟩

theorem refusePubrec_stray {remaining : Bytes} {reasonCode : Nat} {properties : Option Properties}
    (reliable : engine.store.Reliable)
    (decoded : engine.codec.decodePubrec remaining = .ok (mid, reasonCode, properties)) :
    Sat (Outbound.refusePubrec mid) engine (fun _ => Engine.Released mid engine)
      (Local mid engine) := by
  simp only [Outbound.refusePubrec, sat_bind, sat_storeRead reliable]
  cases found : engine.store.out.get? mid with
  | none =>
    simp only [outMeta_none found]
    exact sendOrphanPubrel_released decoded
  | some row =>
    simp only [outMeta_eq found, sat_onlyIf]
    refine ⟨fun _ => ?_, fun _ => .refl⟩
    refine (requirePubrelCapacity_local 4).mono ?_ fun _ _ refused => refused
    rintro _ after rfl
    exact .refl

/-- The handler of an acknowledgement that is a stray. -/
theorem dispatch_stray (stray : engine.Stray raw mid) (reliable : engine.store.Reliable)
    (small : ∀ row, engine.store.out.get? mid = some row → mid < 65536) :
    Sat (dispatch raw) engine (fun _ => Engine.Released mid engine) (Local mid engine) := by
  obtain ⟨connected, valid, ⟨reasonCode, properties, decoded, passed⟩, phase, kind, elsewhere⟩ := stray
  have passes {raised : Failure → Engine → Prop} {packet : PacketType}
      (same : raw.packetType = packet) : Sat (Outbound.validateAckProperties packet properties)
        engine (fun _ after => after = engine) raised :=
    .of_ok (same ▸ passed) rfl
  have ended {expected : OutboundQoSState} {failure : Option Failure}
      (other : ∀ row, engine.store.out.get? mid = some row → row.message.state ≠ expected) :
      Sat (Outbound.finish mid expected failure) engine (fun _ => Engine.Released mid engine)
        (Local mid engine) :=
    finish_stray reliable other .refl
  simp only [dispatch, sat_bind, valid, sat_fromExcept_ok, sat_get, connected]
  unfold answeredPhase at kind
  split at kind <;> cases kind
  · next is =>
    simp only [Engine.decodeAnswer, is] at decoded
    simp only [is, handlerFor, Outbound.onPuback, sat_bind, sat_get, decoded, sat_fromExcept_ok]
    refine (passes is).mono ?_ fun _ _ impossible => impossible
    rintro _ after rfl
    exact ended elsewhere
  · next is =>
    simp only [Engine.decodeAnswer, is] at decoded
    simp only [is, handlerFor, Outbound.onPubrec, sat_bind, sat_get, decoded, sat_fromExcept_ok]
    refine (passes is).mono ?_ fun _ _ impossible => impossible
    rintro _ after rfl
    simp only [sat_ite, sat_bind, sat_get]
    exact ⟨fun _ => ended elsewhere, fun _ => ⟨fun _ => refusePubrec_stray reliable decoded,
      fun _ => advanceOnPubrec_stray reliable small decoded elsewhere⟩⟩
  · next is =>
    simp only [Engine.decodeAnswer, is] at decoded
    simp only [is, handlerFor, Outbound.onPubcomp, sat_bind, sat_get, decoded, sat_fromExcept_ok]
    refine (passes is).mono ?_ fun _ _ impossible => impossible
    rintro _ after rfl
    exact ended elsewhere

theorem handleRaw_stray (stray : engine.Stray raw mid) (reliable : engine.store.Reliable)
    (small : ∀ row, engine.store.out.get? mid = some row → mid < 65536) :
    Engine.Released mid engine (engine.after (.handleRaw raw)) := by
  have runs : Sat (handleRaw raw) engine (fun _ => Engine.Released mid engine)
      (fun _ => Engine.Released mid engine) := by
    simp only [handleRaw, sat_bind, sat_get, sat_ite, sat_catching, stray.connected, reduceCtorEq,
      or_self, false_implies, not_false_eq_true, true_implies, true_and]
    refine (dispatch_stray stray reliable small).mono (fun _ _ released => released) ?_
    rintro failure after ⟨unanswered, released⟩
    simp only [unanswered, Bool.false_eq_true, false_implies, true_implies, true_and]
    exact released
  have called : Sat (Command.handleRaw raw).run engine (fun _ => Engine.Released mid engine)
      (fun _ => Engine.Released mid engine) := by
    simpa only [Command.run, sat_map] using runs
  exact Engine.after_sat called

end

/-! Terminal reports -/

/-- The terminal reports that a chronicle shows are exact. -/
structure Chronicle.Settles (chronicle : Chronicle) : Prop where
  native : .foreign ∉ chronicle.log
  once : ∀ seq, chronicle.log.count (.reported seq) ≤ 1
  pending : ∀ mid row, chronicle.engine.store.out.get? mid = some row →
    chronicle.log.count (.reported row.seq) = 0
  /-- A publication whose unsealed row leaves the store in a call is reported in that call. -/
  leaving : ∀ command mid row, chronicle.engine.store.out.get? mid = some row →
    chronicle.engine.outbound.sealed.get? mid = none →
    (∀ kept, (chronicle.engine.after command).store.out.get? mid = some kept → kept.seq ≠ row.seq) →
    (chronicle.step command).log.count (.reported row.seq) = 1
  /-- An identifier is given out again only after the report of its earlier owners. -/
  reuse : Always reusedAfterReport chronicle.log
  strays : ∀ raw mid, chronicle.engine.Stray raw mid →
    Engine.Released mid chronicle.engine (chronicle.engine.after (.handleRaw raw)) ∧
      ∀ seq, (chronicle.step (.handleRaw raw)).log.count (.reported seq) =
        chronicle.log.count (.reported seq)

section

variable {chronicle : Chronicle} {command : Command} {seq mid : Nat}

theorem Chronicle.log_step : (chronicle.step command).log = chronicle.log ++
    command.tells chronicle.engine ++
      ((chronicle.engine.after command).effects.drop chronicle.engine.effects.length).filterMap
        (effectEvent (chronicle.observer command).who) := by
  simp only [step, Watch.log, observer]
  split <;> simp [Watch.learn, Watch.naming, watch]

theorem ackEvents_sealed {engine : Engine} {raw : RawPacket} : .sealed seq ∉ ackEvents engine raw := by
  unfold ackEvents
  repeat' split
  all_goals simp [answeredIn]

theorem Protocol.Command.tells_sealed {engine : Engine} (other : command.seals = false) :
    .sealed seq ∉ command.tells engine := by
  cases command with
  | handleRaw raw =>
    simp only [tells, Engine.hears]
    repeat' split
    all_goals first | exact ackEvents_sealed | simp
  | queuePublish choice call => simp [tells]
  | sealPublications mids => cases other
  | _ => exact List.not_mem_nil

/-- Only a seal is noted as one. -/
theorem Chronicle.sealed_step (other : command.seals = false)
    (noted : .sealed seq ∈ (chronicle.step command).log) : .sealed seq ∈ chronicle.log := by
  rw [log_step, List.mem_append, List.mem_append] at noted
  rcases noted with (before | told) | shown
  · exact before
  · exact absurd told (Command.tells_sealed other)
  · obtain ⟨effect, _, shown⟩ := List.mem_filterMap.mp shown
    rcases effectEvent_kinds shown with same | ⟨_, _, same⟩ | ⟨_, same⟩ <;> cases same

theorem Chronicle.owns_step (owned : owns chronicle.log seq mid) :
    owns (chronicle.step command).log seq mid := by
  rw [log_step, List.append_assoc]
  exact owned.imp (List.mem_append_left _) fun ⟨sent, found⟩ => ⟨sent, List.mem_append_left _ found⟩

theorem Chronicle.Recorded.pending (recorded : chronicle.Recorded) {row : OutRow}
    (found : chronicle.engine.store.out.get? mid = some row) :
    chronicle.log.count (.reported row.seq) = 0 := by
  have stored : chronicle.ledger.rows.get? mid = some (entryOf row) := by
    simp [Chronicle.ledger, found]
  have unreported := recorded.sound.reports.gone mid _ stored
  rw [Chronicle.ledger_log] at unreported
  exact List.count_eq_zero.mpr unreported

theorem Chronicle.Recorded.leaving (recorded : chronicle.Recorded) {row : OutRow}
    (found : chronicle.engine.store.out.get? mid = some row)
    (live : chronicle.engine.outbound.sealed.get? mid = none)
    (gone : ∀ kept, (chronicle.engine.after command).store.out.get? mid = some kept →
      kept.seq ≠ row.seq) : (chronicle.step command).log.count (.reported row.seq) = 1 := by
  have before := recorded.sound.reports
  have after := (recorded.follows_step command).recorded.sound.reports
  have stored : chronicle.ledger.rows.get? mid = some (entryOf row) := by
    simp [Chronicle.ledger, found]
  have unsealed : .sealed row.seq ∉ chronicle.log := by
    intro noted
    have dead := (before.sealedRow mid _ stored).mpr (by simpa using noted)
    have alive : chronicle.ledger.isSealed mid = false := Ledger.isSealed_eq_false.mpr live
    simp [dead] at alive
  have owned : owns (chronicle.step command).log row.seq mid := by
    apply Chronicle.owns_step
    simpa using before.origin mid _ stored
  have once := after.once row.seq
  have kept := after.kept row.seq mid (by simpa using owned)
  rw [Chronicle.ledger_log] at once kept
  have reported : .reported row.seq ∈ (chronicle.step command).log := by
    rcases kept with remains | reported | noted
    · obtain ⟨entry, present, same⟩ := Option.map_eq_some_iff.mp remains
      obtain ⟨kept, stays, rfl⟩ := Option.map_eq_some_iff.mp (view_row.symm.trans present)
      exact absurd same (gone kept stays)
    · exact reported
    · cases seals : command.seals with
      | false => exact absurd (Chronicle.sealed_step seals noted) unsealed
      | true =>
        obtain ⟨mids, rfl⟩ : ∃ mids, command = .sealPublications mids := by
          cases command with
          | sealPublications mids => exact ⟨mids, rfl⟩
          | _ => cases seals
        have runs : Sat (Command.sealPublications mids).run chronicle.engine
            (fun _ after => after.store = chronicle.engine.store)
            (fun _ after => after.store = chronicle.engine.store) := by
          simp only [Command.run, sat_map]
          exact (sealPublications_sat recorded rfl).mono (fun _ _ done => done.2.1)
            fun _ _ failed => failed.elim
        have same := Engine.after_sat runs
        exact absurd rfl (gone row (same ▸ found))
  have present := List.count_pos_iff.mpr reported
  omega

/-- A PUBREL reports nothing. -/
theorem effectEvent_pubrel {who : Nat → Option Nat} {wire : Bytes}
    (shown : seen wire = some (.pubrel mid)) :
    effectEvent who (.send (.contiguous wire)) ≠ some (.reported seq) := by
  simp [effectEvent, WriteItem.header, shown]

theorem ackEvents_reported {engine : Engine} {raw : RawPacket} :
    .reported seq ∉ ackEvents engine raw := by
  unfold ackEvents
  repeat' split
  all_goals simp [answeredIn]

theorem Chronicle.Recorded.strays (recorded : chronicle.Recorded) {raw : RawPacket}
    (stray : chronicle.engine.Stray raw mid) :
    Engine.Released mid chronicle.engine (chronicle.engine.after (.handleRaw raw)) ∧
      ∀ seq, (chronicle.step (.handleRaw raw)).log.count (.reported seq) =
        chronicle.log.count (.reported seq) := by
  have released := handleRaw_stray stray (Ready.tracking recorded).coherent.reliable
    fun row found => Ready.small recorded found
  refine ⟨released, fun seq => ?_⟩
  obtain ⟨sent, same, pubrels⟩ := released
  have silent : .reported seq ∉ (Command.handleRaw raw).tells chronicle.engine := by
    simp only [Command.tells, Engine.hears]
    repeat' split
    all_goals first | exact ackEvents_reported | simp
  have quiet : .reported seq ∉
      sent.filterMap (effectEvent (chronicle.observer (.handleRaw raw)).who) := by
    intro shown
    obtain ⟨effect, member, shown⟩ := List.mem_filterMap.mp shown
    obtain ⟨wire, rfl, header⟩ := pubrels effect member
    exact effectEvent_pubrel header shown
  rw [Chronicle.log_step, same, List.drop_left, List.count_append, List.count_append,
    List.count_eq_zero.mpr silent, List.count_eq_zero.mpr quiet]
  rfl

/-- Over any run of calls, every publication is reported once, when its unsealed row leaves
the store. -/
theorem reports_exact {config : EngineConfig} {store : Store} {engine : Engine}
    (written : store.Written) (created : Engine.create config store = .ok engine)
    (commands : List Command) : ((Chronicle.start engine).run commands).Settles := by
  have recorded := (create_recorded written created).run commands
  have reports := recorded.sound.reports
  refine ⟨create_native written created commands, ?_, ?_, ?_, ?_, ?_⟩
  · simpa using reports.once
  · exact fun mid row found => recorded.pending found
  · exact fun command mid row found live gone => recorded.leaving found live gone
  · simpa using reports.reuse
  · exact fun raw mid stray => recorded.strays stray

theorem reports_exact_released : ((Chronicle.start durableEngine).run receivedRelease).Settles :=
  reports_exact memory_written durableEngine_created receivedRelease

end

end Mqttium
