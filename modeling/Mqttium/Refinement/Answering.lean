import Mqttium.Refinement.Attending

/-! Acknowledgements and publications, as far as they leave the engine attended. -/

namespace Mqttium

open Codec Library Packets Persistence Protocol

/-- What goes without a slot afterwards went without one for a good reason before. -/
def Shelters (before after : Engine) : Prop :=
  ∀ watch later, Ledger.Covered (view watch before) → Ledger.Covered (view later after)

theorem Undisturbed.shelters {before after : Engine} (undisturbed : Undisturbed before after) :
    Shelters before after :=
  fun _ _ => undisturbed.covered

section

variable {watch : Watch} {engine after : Engine} {mid : Nat} {raw : RawPacket}
  {expected : OutboundQoSState} {failure : Option Failure}

theorem finish_shelters (ready : Ready watch engine) (sent : expected ≠ .queued)
    (start : engine.effects.length = watch.base) :
    Sat (Outbound.finish mid expected failure) engine
      (fun _ after => Shelters engine after ∨ NoIdle after) (fun _ _ => False) := by
  have still : Undisturbed engine engine := Std.Refl.refl engine
  by_cases matching : ∃ row, engine.store.out.get? mid = some row ∧ row.message.state = expected
  · obtain ⟨row, found, same⟩ := matching
    exact (finish_sat ready start found same sent).mono (fun _ _ done => .inr done.2)
      (fun _ _ failed => failed)
  · refine finish_stray ready.tracking.coherent.reliable (fun row found same => ?_)
      (.inl still.shelters)
    exact matching ⟨row, found, same⟩

theorem validateAckProperties_undisturbed (packet : PacketType) (properties : Option Properties)
    (engine : Engine) :
    Sat (Outbound.validateAckProperties packet properties) engine (fun _ after => after = engine)
      (fun _ after => Undisturbed engine after) := by
  simp only [Outbound.validateAckProperties, validateInboundProblemInformation, sat_onlyIf, sat_bind,
    sat_get, sat_throw]
  refine ⟨fun _ => ⟨fun _ => ?_, fun _ => trivial⟩, fun _ => trivial⟩
  exact undisturbed_protocolDisconnect 0x82 engine

theorem onPuback_shelters (ready : Ready watch engine) (start : engine.effects.length = watch.base) :
    Sat (Outbound.onPuback raw) engine (fun _ after => Shelters engine after ∨ NoIdle after)
      (fun _ after => Undisturbed engine after) := by
  simp only [Outbound.onPuback, sat_bind, sat_get, sat_fromExcept]
  refine ⟨?_, fun _ _ => Std.Refl.refl engine⟩
  rintro ⟨mid, reasonCode, properties⟩ _
  apply (validateAckProperties_undisturbed _ _ engine).mono _ fun _ _ done => done
  intro _ _ same
  rw [same]
  exact (finish_shelters ready (by decide) start).mono (fun _ _ done => done) fun _ _ failed => failed.elim

theorem onPubcomp_shelters (ready : Ready watch engine) (start : engine.effects.length = watch.base) :
    Sat (Outbound.onPubcomp raw) engine (fun _ after => Shelters engine after ∨ NoIdle after)
      (fun _ after => Undisturbed engine after) := by
  simp only [Outbound.onPubcomp, sat_bind, sat_get, sat_fromExcept]
  refine ⟨?_, fun _ _ => Std.Refl.refl engine⟩
  rintro ⟨mid, reasonCode, properties⟩ _
  apply (validateAckProperties_undisturbed _ _ engine).mono _ fun _ _ done => done
  intro _ _ same
  rw [same]
  exact (finish_shelters ready (by decide) start).mono (fun _ _ done => done) fun _ _ failed => failed.elim

/-! PUBREC -/

theorem undisturbed_sendOrphanPubrel (mid : Nat) :
    Within Undisturbed (Outbound.sendOrphanPubrel mid) := by
  refine within_bind within_get fun engine => within_bind within_fromExcept fun wire =>
    within_bind ?_ fun _ => undisturbed_emit
  refine within_bind within_get fun engine => ?_
  cases engine.negotiated.maximumPacketSize with
  | none => exact within_pure _
  | some limit => exact within_raiseIf

/-- A row in flight that stays in flight is sheltered as before. -/
theorem shelters_rewrite {row : OutRow} {message : OutboundMessage} {outbound : OutboundSession}
    {effects : List Effect} (found : engine.store.out.get? mid = some row)
    (flies : row.message.state.inFlight = true) (flow : outbound.flow = engine.outbound.flow)
    (sealed : outbound.sealed = engine.outbound.sealed) :
    Shelters engine { engine.rewrite mid row message with outbound, effects } := by
  intro watch later covered other entry present live moving
  have crowded : (view later { engine.rewrite mid row message with outbound, effects }).crowded ↔
      (view watch engine).crowded := by
    simp only [Ledger.crowded, view, flow, sealed]
  have seals : (view watch engine).isSealed other = false := by
    simpa only [Ledger.isSealed, view, sealed] using live
  rw [crowded]
  have holders : (view later { engine.rewrite mid row message with outbound, effects }).holders =
      (view watch engine).holders := by
    simp only [view, flow]
  rw [holders]
  by_cases same : other = mid
  · subst same
    exact covered other (entryOf row) (by simp [found]) seals flies
  · refine covered other entry ?_ seals moving
    simpa [Engine.rewrite, view, Dict.get?_insert_of_ne _ same] using present

theorem advanceOnPubrec_shelters (ready : Ready watch engine) :
    Sat (Outbound.advanceOnPubrec mid) engine (fun _ after => Shelters engine after)
      (fun _ after => Undisturbed engine after) := by
  have reliable := ready.tracking.coherent.reliable
  simp only [Outbound.advanceOnPubrec, sat_bind, sat_storeCall reliable]
  by_cases matching : ∃ row, engine.store.out.get? mid = some row ∧ row.message.state = .waitPubrec
  · obtain ⟨row, found, waits⟩ := matching
    have lined := ready.sent_lined found (by simp [waits])
    simp only [transitionOut_compact found waits, sat_bind]
    refine unpark_sat lined ?_
    exact shelters_rewrite found
      (by simp [waits, OutboundQoSState.inFlight, OutboundQoSState.waiting]) rfl rfl
  · have unmatched : engine.store.transitionOut mid .waitPubrec .waitPubcomp true =
        (none, engine.store) := by
      simp only [Store.transitionOut, Store.outMessage?]
      cases found : engine.store.out.get? mid with
      | none => rfl
      | some row =>
        have other : row.message.state ≠ .waitPubrec := fun same => matching ⟨row, found, same⟩
        simp [other]
    simp only [unmatched, sat_bind, sat_storeRead reliable]
    cases found : engine.store.out.get? mid with
    | none =>
      simp only [outMeta_none found]
      exact (undisturbed_sendOrphanPubrel mid engine).mono (fun _ _ done => done.shelters)
        fun _ _ done => done
    | some row =>
      simp only [outMeta_eq found, sat_onlyIf]
      have still : Undisturbed engine engine := Std.Refl.refl engine
      exact ⟨fun _ => (undisturbed_emit engine : Undisturbed engine _).shelters,
        fun _ => still.shelters⟩

theorem refusePubrec_undisturbed (ready : Ready watch engine) :
    Sat (Outbound.refusePubrec mid) engine (fun _ after => Undisturbed engine after)
      (fun _ after => Undisturbed engine after) := by
  have reliable := ready.tracking.coherent.reliable
  have still : Undisturbed engine engine := Std.Refl.refl engine
  simp only [Outbound.refusePubrec, sat_bind, sat_storeRead reliable]
  cases found : engine.store.out.get? mid with
  | none =>
    simp only [outMeta_none found]
    exact undisturbed_sendOrphanPubrel mid engine
  | some row =>
    simp only [outMeta_eq found, sat_onlyIf]
    refine ⟨fun _ => ?_, fun _ => still⟩
    simp only [Outbound.requirePubrelCapacity, sat_bind, sat_get]
    cases engine.negotiated.maximumPacketSize with
    | none => exact still
    | some limit =>
      rw [sat_raiseIf]
      exact ⟨fun _ => still, fun _ => still⟩

/-- The exchange that a PUBREC advances, when it is processed. -/
def pubrecMid (engine : Engine) (raw : RawPacket) : Option Nat :=
  match engine.codec.decodePubrec raw.remaining with
  | .ok (mid, reasonCode, _) => if 128 ≤ reasonCode then none else some mid
  | .error _ => none

theorem onPubrec_shelters (ready : Ready watch engine) (start : engine.effects.length = watch.base) :
    Sat (Outbound.onPubrec raw) engine (fun _ after => Shelters engine after ∨ NoIdle after)
      (fun _ after => Undisturbed engine after) := by
  simp only [Outbound.onPubrec, sat_bind, sat_get, sat_fromExcept]
  refine ⟨?_, fun _ _ => Std.Refl.refl engine⟩
  rintro ⟨mid, reasonCode, properties⟩ _
  apply (validateAckProperties_undisturbed _ _ engine).mono _ fun _ _ done => done
  intro _ _ same
  rw [same]
  simp only [sat_ite, sat_bind, sat_get]
  refine ⟨fun negative => ?_, fun positive => ⟨fun _ => ?_, fun _ => ?_⟩⟩
  · exact (finish_shelters ready (by decide) start).mono (fun _ _ done => done)
      fun _ _ failed => failed.elim
  · exact (refusePubrec_undisturbed ready).mono (fun _ _ done => .inl done.shelters)
      fun _ _ done => done
  · exact (advanceOnPubrec_shelters ready).mono (fun _ _ done => .inl done) fun _ _ done => done

/-! From call to call -/

/-- An acknowledgement that left the engine as it was, sheltered, or with no slot free. -/
theorem Attending.acknowledged (attending : Attending watch engine) {events : List Event}
    (handled : Handled watch (watch.learn events) engine after)
    (shelters : Shelters engine after ∨ NoIdle after) (open_ : engine.state = .connected)
    (calm : ∀ event ∈ events, ¬ (view watch engine).loosening event) : Attended after := by
  rcases shelters with shelters | idle
  · exact attending.moved handled.progress calm
      (fun _ _ => shelters watch _ attending.covered)
      fun _ => attending.accepted handled.progress open_
  · exact attending.idle handled.progress idle open_ calm

/-- An acknowledgement that was refused. -/
theorem Attending.refused (attending : Attending watch engine)
    (handled : Handled watch watch engine after) (undisturbed : Undisturbed engine after) :
    Attended after :=
  attending.aside (fun _ => handled) undisturbed

/-- An acknowledgement answers an exchange, or it is the PUBREC that advances one. -/
theorem ackEvents_cases {event : Event} (member : event ∈ ackEvents engine raw) :
    (∃ seq, event = .answered seq) ∨ raw.packetType = .pubrec ∧ ∃ mid seq,
      pubrecMid engine raw = some mid ∧ exchangeIn engine mid .waitPubrec = some seq ∧
        event = .advanced seq := by
  have answers {mid : Nat} {phase : OutboundQoSState} (member : event ∈ answeredIn engine mid phase) :
      ∃ seq, event = .answered seq := by
    obtain ⟨seq, _, rfl⟩ := List.mem_map.mp member
    exact ⟨seq, rfl⟩
  unfold ackEvents at member
  split at member
  · split at member
    · exact .inl (answers member)
    · cases member
  · next kind =>
    split at member
    · next mid reasonCode _ decoded =>
      split at member
      · exact .inl (answers member)
      · next positive =>
        obtain ⟨seq, present, rfl⟩ := List.mem_map.mp member
        exact .inr ⟨kind, mid, seq, by simp [pubrecMid, decoded, positive],
          Option.mem_toList.mp present, rfl⟩
    · cases member
  · split at member
    · exact .inl (answers member)
    · cases member
  · cases member

theorem ackEvents_calm (engine : Engine) {kind : PacketType} (same : raw.packetType = kind)
    (other : kind ≠ .pubrec) (ledger : Ledger) :
    ∀ event ∈ ackEvents engine raw, ¬ ledger.loosening event := by
  intro event member
  rcases ackEvents_cases member with ⟨seq, rfl⟩ | ⟨pubrec, _⟩
  · exact id
  · exact absurd (same.symm.trans pubrec) other

theorem attended_onPuback (attended : Attended engine) (open_ : engine.state = .connected)
    (kind : raw.packetType = .puback) :
    Sat (Outbound.onPuback raw) engine (fun _ => Attended) (fun _ => Attended) := by
  obtain ⟨watch, attending⟩ := attended
  have calm := ackEvents_calm engine kind (by decide) (view watch engine)
  apply ((onPuback_handled attending.ready attending.start kind).and
    (onPuback_shelters attending.ready attending.start)).mono
  · exact fun _ _ ⟨handled, shelters⟩ => attending.acknowledged handled shelters open_ calm
  · exact fun _ _ ⟨handled, undisturbed⟩ => attending.refused handled undisturbed

theorem attended_onPubcomp (attended : Attended engine) (open_ : engine.state = .connected)
    (kind : raw.packetType = .pubcomp) :
    Sat (Outbound.onPubcomp raw) engine (fun _ => Attended) (fun _ => Attended) := by
  obtain ⟨watch, attending⟩ := attended
  have calm := ackEvents_calm engine kind (by decide) (view watch engine)
  apply ((onPubcomp_handled attending.ready attending.start kind).and
    (onPubcomp_shelters attending.ready attending.start)).mono
  · exact fun _ _ ⟨handled, shelters⟩ => attending.acknowledged handled shelters open_ calm
  · exact fun _ _ ⟨handled, undisturbed⟩ => attending.refused handled undisturbed

/-- A PUBREC would take a parked exchange, which owns no slot, into its release phase. -/
def Protocol.Engine.advancesParked (engine : Engine) (raw : RawPacket) : Bool :=
  (pubrecMid engine raw).any fun mid =>
    decide (mid ∈ engine.outbound.parked) && (exchangeIn engine mid .waitPubrec).isSome

theorem attended_onPubrec (attended : Attended engine) (open_ : engine.state = .connected)
    (kind : raw.packetType = .pubrec) :
    Sat (Outbound.onPubrec raw) engine
      (fun _ after => engine.advancesParked raw = false → Attended after) (fun _ => Attended) := by
  obtain ⟨watch, attending⟩ := attended
  apply ((onPubrec_handled attending.ready attending.start attending.strangers kind).and
    (onPubrec_shelters attending.ready attending.start)).mono
  · intro _ after ⟨handled, shelters⟩ spares
    refine attending.acknowledged handled shelters open_ ?_
    intro event member
    rcases ackEvents_cases member with ⟨seq, rfl⟩ | ⟨_, mid, seq, pubrec, names, rfl⟩
    · exact id
    rintro ⟨other, parked, same⟩
    obtain ⟨row, kept, rfl⟩ := Option.map_eq_some_iff.mp names
    obtain ⟨found, _⟩ := Option.filter_eq_some_iff.mp kept
    obtain ⟨entry, present, seq⟩ := Option.map_eq_some_iff.mp same
    have shown : (view watch engine).rows.get? mid = some (entryOf row) := by simp [found]
    obtain rfl := attending.ready.sound.accounts.seq_injective present shown seq
    have lined : other ∈ engine.outbound.parked := parked
    simp [Engine.advancesParked, pubrec, lined, names] at spares
  · exact fun _ _ ⟨handled, undisturbed⟩ => attending.refused handled undisturbed

/-! Publishing -/

theorem undisturbed_rollback {pool : PacketIdPool} {size : Nat} (ready : Ready watch engine)
    (free : mid ∉ engine.outbound.packetIds.used) :
    Sat (Outbound.rollback engine.outbound.pendingMessages engine.outbound.pendingBytes (some mid))
      (engine.reserved size pool) (fun _ after => Undisturbed engine after) (fun _ _ => False) := by
  have absent := ready.absent free
  have erased : engine.store.out.erase mid = engine.store.out :=
    Dict.erase_of_not_mem (Dict.get?_eq_none_iff.mp absent)
  have reliable : (engine.reserved size pool).store.Reliable := ready.tracking.coherent.reliable
  have flow : engine.outbound.flow.release mid = engine.outbound.flow := by
    simp [FlowControl.release, Finset.erase_eq_of_notMem (ready.idle free)]
  simp only [Outbound.rollback, Outbound.releaseSlot, Outbound.releaseId, sat_bind,
    sat_modifyOutbound]
  refine deleteFailedAdmission_sat reliable ?_
  simp only [sat_onlyIf, true_implies, not_true_eq_false, false_implies, and_true,
    sat_modifyOutbound]
  exact ⟨erased, flow, rfl, rfl, id⟩

/-- A publication of QoS 0 and one that is refused leave the rows and the window alone;
another takes an identifier that no row has. -/
theorem queuePublish_undisturbed {choice : Nat} {call : Outbound.PublishCall}
    (ready : Ready watch engine) (start : engine.effects.length = watch.base) :
    Sat (Outbound.queuePublish choice call) engine
      (fun taken after => (taken = none → Undisturbed engine after) ∧
        ∀ mid, taken = some mid → engine.store.out.get? mid = none)
      (fun _ after => Undisturbed engine after) := by
  have still : Undisturbed engine engine := Std.Refl.refl engine
  simp only [Outbound.queuePublish, sat_bind, sat_get, sat_raiseIf, sat_ite, sat_fromExcept, sat_pure]
  refine ⟨fun _ => still, fun _ => ⟨fun _ => ?_, fun _ => ⟨?_, fun _ _ => still⟩⟩⟩
  · exact (undisturbed_publishQos0 call engine).mono (fun _ _ done => ⟨fun _ => done, (by simp)⟩)
      fun _ _ done => done
  · intro prepared ok
    refine reserve_sat ?_ fun _ => still
    simp only [sat_tryCatch, sat_bind]
    refine allocateId_sat ?_ ?_
    · intro mid pool _ free _ _ grown
      have free : mid ∉ engine.outbound.packetIds.used := free
      apply (admit_sat ready start (prepared_of_ok ok) free grown).mono
      · intro _ _ _
        refine ⟨(by simp), fun other same => ?_⟩
        cases same
        exact ready.absent free
      · rintro failure after rfl
        exact (undisturbed_rollback ready free).mono (fun _ _ done => done) fun _ _ failed => failed.elim
    · intro pool same
      simp only [Outbound.rollback, sat_bind, sat_pure, sat_modifyOutbound, sat_throw]
      exact ⟨rfl, rfl, rfl, rfl, id⟩

/-- The observer that knows the identifier of a publication before it is admitted. -/
def Watch.naming (watch : Watch) (mid seq : Nat) : Watch :=
  { watch with who := fun other => if other = mid then some seq else watch.who other }

theorem view_naming (start : engine.effects.length = watch.base) (mid seq : Nat) :
    view (watch.naming mid seq) engine = view watch engine := by
  simp [view, Watch.log, Watch.naming, ← start]

theorem Attending.naming (attending : Attending watch engine)
    (fresh : engine.store.out.get? mid = none) (seq : Nat) :
    Ready (watch.naming mid seq) engine := by
  have tracking := attending.ready.tracking
  refine ⟨⟨tracking.coherent, tracking.later, ?_⟩, attending.ready.aligned, ?_⟩
  · intro other row found
    have different : other ≠ mid := by
      rintro rfl
      simp [fresh] at found
    simpa [Watch.naming, different] using tracking.names other row found
  · rw [view_naming attending.start]
    exact attending.ready.sound

/-- A publication that was queued, or launched into a free slot. -/
theorem Attending.admitted (attending : Attending watch engine)
    (admitted : Admitted (watch.naming mid (engine.store.outSeq + 1)) engine after mid)
    (state : after.state = .connected → engine.state = .connected) : Attended after := by
  have fresh : (view watch engine).rows.get? mid = none := by simp [admitted.fresh]
  have valid := attending.ready.sound.accounts
  have same := view_naming attending.start mid (engine.store.outSeq + 1)
  have step := admitted.step
  rw [same] at step
  rcases step with move | ⟨connected, size, target, launchable, shown⟩
  · have ready : Ready ((watch.naming mid (engine.store.outSeq + 1)).learn
        [.admitted (engine.store.outSeq + 1) mid]) after :=
      ⟨admitted.tracking, admitted.aligned, attending.ready.sound.move move⟩
    have stored : ((view ((watch.naming mid (engine.store.outSeq + 1)).learn
        [.admitted (engine.store.outSeq + 1) mid]) after).rows.get? mid).isSome = true := by
      obtain ⟨row, found, _⟩ := admitted.stored
      simp [found]
    have since := (Ledger.Since.refl attending.slotted attending.carried).move valid move (by
      intro fresh grown event member
      rw [← same] at grown
      have named : engine.effects.length = (watch.naming mid (engine.store.outSeq + 1)).base :=
        attending.start
      rcases log_fresh named grown member with learnt | ⟨effect, shown⟩
      · rw [List.mem_singleton.mp learnt]
        exact id
      · exact (effectEvent_holds shown _).1)
    refine .rebased ready since.slotted since.carried (attending.covered.move fresh stored move) ?_ rfl
    intro connected
    obtain ⟨more, grown⟩ := move.grows
    refine ⟨?_, rfl⟩
    rw [← grown, List.any_append, (attending.joined (state connected)).1]
    rfl
  · have ready : Ready ((watch.naming mid (engine.store.outSeq + 1)).learn
        [.admitted (engine.store.outSeq + 1) mid]) after := by
      refine ⟨admitted.tracking, admitted.aligned, ?_⟩
      rw [shown]
      exact attending.ready.sound.admitLaunched launchable
    refine .rebased ready ?_ ?_ ?_ ?_ rfl
    · rw [shown]
      exact attending.slotted.admitLaunched mid size target
    · rw [shown]
      exact attending.carried.admitLaunched mid size target
    · rw [shown]
      exact attending.covered.admitLaunched mid size target
    · intro _
      rw [shown]
      exact Ledger.accepted_admitLaunched.mpr (attending.joined connected)

theorem attended_queuePublish {choice : Nat} {call : Outbound.PublishCall} (attended : Attended engine) :
    Sat (Outbound.queuePublish choice call) engine (fun _ => Attended) (fun _ => Attended) := by
  obtain ⟨watch, attending⟩ := attended
  have unasked : Within Unasked (Outbound.queuePublish choice call) := outward_queuePublish choice call
  apply ((Sat.itself _ engine).and ((queuePublish_sat attending.ready attending.start).and
    (queuePublish_undisturbed attending.ready attending.start))).mono
  · intro taken after ⟨ended, handled, undisturbed, fresh⟩
    cases taken with
    | none => exact attending.aside (fun _ => handled) (undisturbed rfl)
    | some mid =>
      -- The identifier is known only now, so the call is looked at again by who knows it.
      have named := attending.naming (fresh mid rfl) (engine.store.outSeq + 1)
      have admitted := (queuePublish_sat named attending.start).ok ended
      refine attending.admitted (admitted (by simp [Watch.naming])) fun connected => ?_
      have due := ((unasked engine).ok ended).due (by simp [Engine.underway, connected])
      exact due.1 ▸ connected
  · exact fun _ _ ⟨_, untouched, undisturbed⟩ =>
      attending.aside (fun _ => attending.ready.untouched untouched) undisturbed

end

end Mqttium
