import Mqttium.Refinement.Aside

/-! Acknowledgements and seals as moves of the ledger. -/

namespace Mqttium

open Codec Library Packets Persistence Protocol

namespace Watch

/-- The observer after inputs of the call, which come before its effects. -/
def learn (watch : Watch) (events : List Event) : Watch :=
  { watch with past := watch.past ++ events }

@[simp] theorem learn_base (watch : Watch) (events : List Event) :
    (watch.learn events).base = watch.base := rfl

@[simp] theorem learn_who (watch : Watch) (events : List Event) :
    (watch.learn events).who = watch.who := rfl

@[simp] theorem learn_nil (watch : Watch) : watch.learn [] = watch := by
  simp [learn]

end Watch

/-- The exchange that an identifier names, when it is in the given phase. -/
def exchangeIn (engine : Engine) (mid : Nat) (phase : OutboundQoSState) : Option Nat :=
  ((engine.store.out.get? mid).filter fun row => row.message.state = phase).map OutRow.seq

def answeredIn (engine : Engine) (mid : Nat) (phase : OutboundQoSState) : List Event :=
  (exchangeIn engine mid phase).toList.map .answered

/-- What an acknowledgement that is processed tells the observer. -/
def ackEvents (engine : Engine) (raw : RawPacket) : List Event :=
  match raw.packetType with
  | .puback =>
    match engine.codec.decodePuback raw.remaining with
    | .ok (mid, _, _) => answeredIn engine mid .waitPuback
    | .error _ => []
  | .pubrec =>
    match engine.codec.decodePubrec raw.remaining with
    | .ok (mid, reasonCode, _) =>
      if 128 ≤ reasonCode then answeredIn engine mid .waitPubrec
      else (exchangeIn engine mid .waitPubrec).toList.map .advanced
    | .error _ => []
  | .pubcomp =>
    match engine.codec.decodePubcomp raw.remaining with
    | .ok (mid, _, _) => answeredIn engine mid .waitPubcomp
    | .error _ => []
  | _ => []

section

variable {engine after : Engine} {mid : Nat} {row : OutRow} {watch : Watch}

theorem log_learn (start : engine.effects.length = watch.base) (events : List Event) :
    (watch.learn events).log engine.effects = watch.log engine.effects ++ events := by
  simp [Watch.log, Watch.learn, ← start]

theorem Tracking.learn (tracking : Tracking watch engine) (events : List Event) :
    Tracking (watch.learn events) engine :=
  ⟨tracking.coherent, tracking.later, tracking.names⟩

variable {returned : PUnit → Engine → Prop} {raised : Failure → Engine → Prop}

theorem map_eraseP_mid (entries : List QueueEntry) :
    (entries.eraseP fun entry => entry.mid == mid).map QueueEntry.mid =
      (entries.map QueueEntry.mid).erase mid := by
  induction entries with
  | nil => rfl
  | cons entry rest ih =>
    by_cases same : entry.mid = mid
    · simp [same]
    · simp [same, ih]

/-- Unparking takes the identifier out of the queue. -/
theorem unpark_sat
    (lined : mid ∈ engine.outbound.queued.map QueueEntry.mid ↔ mid ∈ engine.outbound.parked)
    (done : returned ⟨⟩
      { engine with
        outbound := { engine.outbound with
          queued := engine.outbound.queued.eraseP fun entry => entry.mid == mid
          parked := engine.outbound.parked.erase mid } }) :
    Sat (Outbound.unpark mid) engine returned raised := by
  simp only [Outbound.unpark, sat_bind, sat_get, sat_onlyIf]
  refine ⟨fun parked => ?_, fun absent => ?_⟩
  · have present : (engine.outbound.queued.any fun entry => entry.mid == mid) = true := by
      simpa using lined.mpr parked
    simpa only [present, ↓reduceIte, Outbound.discardParked, sat_modifyOutbound] using done
  · have same : (engine.outbound.queued.eraseP fun entry => entry.mid == mid) =
        engine.outbound.queued := by
      apply List.eraseP_of_forall_not
      intro entry member equal
      exact absent (lined.mp (List.mem_map.mpr ⟨entry, member, by simpa using equal⟩))
    rwa [same, Finset.erase_eq_of_notMem absent] at done

/-- Only a parked publication that was sent stands in the queue. -/
theorem Ready.sent_lined (ready : Ready watch engine) (found : engine.store.out.get? mid = some row)
    (sent : row.message.state ≠ .queued) :
    mid ∈ engine.outbound.queued.map QueueEntry.mid ↔ mid ∈ engine.outbound.parked := by
  have lineup := ready.sound.accounts.lineup mid
  have unsent : (view watch engine).stateOf mid ≠ some .queued := by
    simp [Ledger.stateOf, found, entryOf, sent]
  simp only [Ledger.lined, unsent, false_and, false_or] at lineup
  exact lineup

/-- Entries other than those of `mid` keep their rows when `mid` leaves the store. -/
theorem Ready.eraseP_elsewhere (ready : Ready watch engine) :
    ∀ entry ∈ engine.outbound.queued.eraseP (fun entry => entry.mid == mid), entry.mid ≠ mid := by
  have once := ready.sound.accounts.once
  intro entry member same
  have gone : mid ∈ (engine.outbound.queued.map QueueEntry.mid).erase mid := by
    rw [← map_eraseP_mid]
    exact List.mem_map.mpr ⟨entry, member, same⟩
  exact (List.Nodup.mem_erase_iff once).mp gone |>.1 rfl

/-- An acknowledgement that matches no row changes nothing. -/
theorem finish_stray {expected : OutboundQoSState} {failure : Option Failure}
    (reliable : engine.store.Reliable)
    (stray : ∀ row, engine.store.out.get? mid = some row → row.message.state ≠ expected)
    (done : returned ⟨⟩ engine) :
    Sat (Outbound.finish mid expected failure) engine returned raised := by
  have unmatched : engine.store.completeOut mid expected = (none, engine.store) := by
    simp only [Store.completeOut, Store.outMessage?]
    cases found : engine.store.out.get? mid with
    | none => rfl
    | some row => simp [stray row found]
  simp only [Outbound.finish, sat_bind, sat_tryCatch, sat_storeCall reliable, unmatched]
  exact done

theorem report_sat {failure : Option Failure} (done : ∀ effect : Effect,
      (∀ who, effectEvent who effect = some (.of (who mid) .reported)) →
      returned ⟨⟩ { engine with effects := engine.effects ++ [effect] }) :
    Sat (Outbound.report mid failure) engine returned raised := by
  cases failure with
  | none => exact done (.publishComplete (some mid)) fun _ => rfl
  | some reason => exact done (.publishFailed mid reason) fun _ => rfl

private theorem Ready.settled {effect : Effect} (ready : Ready watch engine)
    (start : engine.effects.length = watch.base) (found : engine.store.out.get? mid = some row)
    (live : (view watch engine).isSealed mid = false)
    (shown : ∀ who, effectEvent who effect = some (.of (who mid) .reported)) :
    Progress watch (watch.learn [.answered row.seq]) engine
      { engine with
        store := engine.store.deleteOut mid
        outbound := { engine.outbound with
          pendingMessages := engine.outbound.pendingMessages - 1
          pendingBytes := engine.outbound.pendingBytes - row.message.logicalSize
          queued := engine.outbound.queued.eraseP fun entry => entry.mid == mid
          parked := engine.outbound.parked.erase mid
          flow := engine.outbound.flow.release mid
          packetIds := engine.outbound.packetIds.release mid }
        effects := engine.effects ++ [effect] } := by
  have entry : (view watch engine).rows.get? mid = some (entryOf row) := by simp [found]
  have event : effectEvent watch.who effect = some (.reported row.seq) := by
    simp [shown, ready.tracking.names _ _ found]
  refine ⟨(ready.tracking.learn _).erased rfl rfl (by simp), ?_, ?_⟩
  · intro other member
    obtain ⟨next, there, also⟩ := ready.aligned other (List.mem_of_mem_eraseP member)
    refine ⟨next, ?_, also⟩
    simpa [Store.deleteOut, Dict.get?_erase_of_ne (ready.eraseP_elsewhere other member)] using there
  · refine .single ?_
    convert Ledger.Move.settle entry live using 1
    have later := (ready.tracking.learn [.answered row.seq]).later
    simp [view, Ledger.settle, Ledger.note, Ledger.releaseSlot, Ledger.unqueue, Ledger.refund,
      Ledger.forget, Store.deleteOut, map_eraseP_mid, FlowControl.release,
      (watch.learn [.answered row.seq]).log_emit later, event, log_learn start, entryOf]

private theorem Ready.settledSealed {effect : Effect} (ready : Ready watch engine)
    (start : engine.effects.length = watch.base) (found : engine.store.out.get? mid = some row)
    (dead : (view watch engine).isSealed mid = true)
    (shown : ∀ who, effectEvent who effect = some (.of (who mid) .reported)) :
    Progress watch (watch.learn [.answered row.seq]) engine
      { engine with
        store := engine.store.deleteOut mid
        outbound := { engine.outbound with
          sealed := engine.outbound.sealed.erase mid
          packetIds := engine.outbound.packetIds.release mid }
        effects := engine.effects ++ [effect] } := by
  have entry : (view watch engine).rows.get? mid = some (entryOf row) := by simp [found]
  have event : effectEvent watch.who effect = some (.reported row.seq) := by
    simp [shown, ready.tracking.names _ _ found]
  refine ⟨(ready.tracking.learn _).erased rfl rfl (by simp), ?_, ?_⟩
  · refine ready.aligned.erased rfl rfl ?_
    rintro other member rfl
    have live := ready.sound.accounts.live_of_mem_queue (List.mem_map_of_mem member)
    simp [dead] at live
  · refine .single ?_
    convert Ledger.Move.settleSealed entry dead using 1
    have later := (ready.tracking.learn [.answered row.seq]).later
    simp [view, Ledger.settleSealed, Ledger.note, Ledger.clearSeal, Ledger.forget, Store.deleteOut,
      (watch.learn [.answered row.seq]).log_emit later, event, log_learn start, entryOf]

/-- The terminal acknowledgement of an exchange in its phase. -/
theorem finish_sat {expected : OutboundQoSState} {failure : Option Failure}
    (ready : Ready watch engine) (start : engine.effects.length = watch.base)
    (found : engine.store.out.get? mid = some row) (matching : row.message.state = expected)
    (sent : expected ≠ .queued) :
    Sat (Outbound.finish mid expected failure) engine
      (fun _ after => Progress watch (watch.learn [.answered row.seq]) engine after ∧ NoIdle after)
      (fun _ _ => False) := by
  have completed : engine.store.completeOut mid expected =
      (some { mid, state := expected, logicalSize := row.message.logicalSize },
        engine.store.deleteOut mid) := by
    simp [Store.completeOut, Store.outMessage?, found, matching]
  have entry : (view watch engine).rows.get? mid = some (entryOf row) := by simp [found]
  have drains : ∀ after, Progress watch (watch.learn [.answered row.seq]) engine after →
      Sat Outbound.drain after (fun _ last =>
        Progress watch (watch.learn [.answered row.seq]) engine last ∧ NoIdle last)
        (fun _ _ => False) := by
    intro after progress
    refine (drain_sat (ready.progress progress)).mono ?_ (by simp)
    rintro _ last ⟨more, full⟩
    exact ⟨progress.trans more, full⟩
  simp only [Outbound.finish, sat_bind, sat_tryCatch,
    sat_storeCall ready.tracking.coherent.reliable, completed, sat_get]
  cases dead : engine.outbound.sealed.contains mid with
  | true =>
    simp only [↓reduceIte, sat_bind, sat_modifyOutbound]
    apply report_sat
    intro effect shown
    simp only [Outbound.releaseId, sat_modifyOutbound]
    exact drains _ (ready.settledSealed start found dead shown)
  | false =>
    obtain ⟨_, counted, paid⟩ := ready.sound.accounts.budget entry dead
    have some' : engine.outbound.pendingMessages ≠ 0 := by
      have : 1 ≤ engine.outbound.pendingMessages := counted
      omega
    have enough : ¬ engine.outbound.pendingBytes < row.message.logicalSize := by
      have : row.message.logicalSize ≤ engine.outbound.pendingBytes := paid
      omega
    simp only [Bool.false_eq_true, ↓reduceIte, sat_bind, Outbound.releaseReservation, sat_get,
      sat_raiseIf, some', enough, sat_modifyOutbound, false_implies, not_false_eq_true,
      forall_const, true_and]
    have lined := ready.sent_lined found (matching ▸ sent)
    refine unpark_sat lined ?_
    simp only [Outbound.releaseSlot, sat_modifyOutbound]
    apply report_sat
    intro effect shown
    simp only [Outbound.releaseId, sat_modifyOutbound]
    exact drains _ (ready.settled start found dead shown)

theorem exchangeIn_found {expected : OutboundQoSState}
    (found : engine.store.out.get? mid = some row) (matching : row.message.state = expected) :
    exchangeIn engine mid expected = some row.seq := by
  simp [exchangeIn, found, matching]

theorem exchangeIn_stray {expected : OutboundQoSState}
    (stray : ∀ row, engine.store.out.get? mid = some row → row.message.state ≠ expected) :
    exchangeIn engine mid expected = none := by
  simp only [exchangeIn, Option.map_eq_none_iff, Option.filter_eq_none_iff]
  intro row found same
  exact stray row found (by simpa using same)

theorem finish_handled {expected : OutboundQoSState} {failure : Option Failure}
    (ready : Ready watch engine) (start : engine.effects.length = watch.base)
    (sent : expected ≠ .queued) :
    Sat (Outbound.finish mid expected failure) engine
      (fun _ after => Handled watch (watch.learn (answeredIn engine mid expected)) engine after)
      (fun _ _ => False) := by
  by_cases matching : ∃ row, engine.store.out.get? mid = some row ∧ row.message.state = expected
  · obtain ⟨row, found, same⟩ := matching
    rw [answeredIn, exchangeIn_found found same]
    refine (finish_sat ready start found same sent).mono ?_ (by simp)
    rintro _ after ⟨progress, full⟩
    exact ⟨progress, fun _ _ => full⟩
  · have stray : ∀ row, engine.store.out.get? mid = some row → row.message.state ≠ expected :=
      fun row found same => matching ⟨row, found, same⟩
    apply finish_stray ready.tracking.coherent.reliable stray
    simpa [answeredIn, exchangeIn_stray stray] using
      (⟨ready.refl, id⟩ : Handled watch watch engine engine)

/-- The properties of an acknowledgement are let through or end the connection. -/
theorem validateAckProperties_sat {packet : PacketType} {properties : Option Properties}
    (ready : Ready watch engine) (done : returned ⟨⟩ engine)
    (refused : ∀ failure after, Handled watch watch engine after → raised failure after) :
    Sat (Outbound.validateAckProperties packet properties) engine returned raised := by
  simp only [Outbound.validateAckProperties, validateInboundProblemInformation, sat_onlyIf, sat_bind,
    sat_get, sat_throw]
  refine ⟨fun _ => ⟨fun _ => ?_, fun _ => done⟩, fun _ => done⟩
  have disconnects : Within (Aside watch) (protocolDisconnect 0x82) := aside_protocolDisconnect _
  apply (disconnects engine).mono
  · exact fun _ after aside => refused _ after (aside ready)
  · exact fun failure after aside => refused failure after (aside ready)

theorem onPuback_handled {raw : RawPacket} (ready : Ready watch engine)
    (start : engine.effects.length = watch.base) (kind : raw.packetType = .puback) :
    Sat (Outbound.onPuback raw) engine
      (fun _ after => Handled watch (watch.learn (ackEvents engine raw)) engine after)
      (fun _ after => Handled watch watch engine after) := by
  simp only [Outbound.onPuback, sat_bind, sat_get, sat_fromExcept, ackEvents, kind]
  refine ⟨?_, fun _ _ => ⟨ready.refl, id⟩⟩
  rintro ⟨mid, reasonCode, properties⟩ decoded
  refine validateAckProperties_sat ready ?_ fun _ _ handled => handled
  simp only [decoded]
  exact (finish_handled ready start (by decide)).mono (fun _ _ handled => handled) (by simp)

theorem onPubcomp_handled {raw : RawPacket} (ready : Ready watch engine)
    (start : engine.effects.length = watch.base) (kind : raw.packetType = .pubcomp) :
    Sat (Outbound.onPubcomp raw) engine
      (fun _ after => Handled watch (watch.learn (ackEvents engine raw)) engine after)
      (fun _ after => Handled watch watch engine after) := by
  simp only [Outbound.onPubcomp, sat_bind, sat_get, sat_fromExcept, ackEvents, kind]
  refine ⟨?_, fun _ _ => ⟨ready.refl, id⟩⟩
  rintro ⟨mid, reasonCode, properties⟩ decoded
  refine validateAckProperties_sat ready ?_ fun _ _ handled => handled
  simp only [decoded]
  exact (finish_handled ready start (by decide)).mono (fun _ _ handled => handled) (by simp)

/-! PUBREC -/

theorem RowOk.compacted {message : OutboundMessage} {state : OutboundQoSState}
    (ok : RowOk mid message) : RowOk mid (Store.compacted { message with state }) := by
  have table : TableOk none := ⟨⟨none, rfl⟩, fun _ refused => by cases refused⟩
  exact ⟨ok.named, ⟨⟨0, rfl⟩, table, table⟩, nofun, ok.cached.pubrel⟩

theorem transitionOut_compact {expected next : OutboundQoSState}
    (found : engine.store.out.get? mid = some row) (matching : row.message.state = expected) :
    engine.store.transitionOut mid expected next true =
      (some { mid, state := next, logicalSize := row.message.logicalSize },
        (engine.rewrite mid row (Store.compacted { row.message with state := next })).store) := by
  simp [Store.transitionOut, Store.outMessage?, found, matching, setOut_eq found, Engine.rewrite]

private theorem Ready.advanced {wire : Bytes} (ready : Ready watch engine)
    (start : engine.effects.length = watch.base) (found : engine.store.out.get? mid = some row)
    (waits : row.message.state = .waitPubrec) (shown : seen wire = some (.pubrel mid)) :
    Handled watch (watch.learn [.advanced row.seq]) engine
      { engine.rewrite mid row (Store.compacted { row.message with state := .waitPubcomp }) with
        outbound := { engine.outbound with
          queued := engine.outbound.queued.eraseP fun entry => entry.mid == mid
          parked := engine.outbound.parked.erase mid }
        effects := engine.effects ++ [.send (.contiguous wire)] } := by
  have entry : (view watch engine).rows.get? mid = some (entryOf row) := by simp [found]
  have event : effectEvent watch.who (.send (.contiguous wire)) =
      some (.sent row.seq .pubrel) := by
    simp [effectEvent, WriteItem.header, shown, ready.tracking.names _ _ found]
  have later := (ready.tracking.learn [.advanced row.seq]).later
  refine ⟨⟨(ready.tracking.learn _).rewritten found
    (ready.tracking.coherent.rows mid row found).compacted (by simp), ?_, .single ?_⟩, ?_⟩
  · intro other member
    obtain ⟨next, there, also⟩ := ready.aligned other (List.mem_of_mem_eraseP member)
    refine ⟨next, ?_, also⟩
    simpa [Engine.rewrite, Dict.get?_insert_of_ne _ (ready.eraseP_elsewhere other member)] using there
  · convert Ledger.Move.advance entry waits using 1
    simp only [view, Ledger.advance, Ledger.note, Ledger.setState, Ledger.unqueue, Engine.rewrite,
      Dict.mapValues_insert, map_eraseP_mid, log_learn start, event, Option.toList_some,
      (watch.learn [.advanced row.seq]).log_emit later, Watch.learn_who]
    rw [Dict.modify_of_get? (by simpa [view] using entry)]
    simp [entryOf, Store.compacted]
  · intro busy connected
    rcases busy connected with empty | full
    · exact .inl (by simp [empty])
    · exact .inr full

/-- A PUBREL sent again. -/
theorem Ready.released {wire : Bytes} (ready : Ready watch engine)
    (found : engine.store.out.get? mid = some row) (waits : row.message.state = .waitPubcomp)
    (shown : seen wire = some (.pubrel mid)) :
    Handled watch watch engine
      { engine with effects := engine.effects ++ [.send (.contiguous wire)] } := by
  have entry : (view watch engine).rows.get? mid = some (entryOf row) := by simp [found]
  have event : effectEvent watch.who (.send (.contiguous wire)) =
      some (.sent row.seq .pubrel) := by
    simp [effectEvent, WriteItem.header, shown, ready.tracking.names _ _ found]
  have longer := ready.tracking.later
  refine ⟨⟨⟨⟨ready.tracking.coherent.reliable, ready.tracking.coherent.rows⟩, ?_,
    ready.tracking.names⟩, ready.aligned, .single ?_⟩, id⟩
  · simp only [List.length_append]
    omega
  · convert Ledger.Move.release entry waits using 1
    simp [view, Ledger.note, watch.log_emit longer, event, entryOf]

theorem requirePubrelCapacity_sat {size : Nat} (done : returned ⟨⟩ engine)
    (refused : ∀ failure, raised failure engine) :
    Sat (Outbound.requirePubrelCapacity size) engine returned raised := by
  simp only [Outbound.requirePubrelCapacity, sat_bind, sat_get]
  split
  · exact done
  · exact (sat_raiseIf _ _ _ _).mpr ⟨fun _ => refused _, fun _ => done⟩

/-- The PUBREL that answers no exchange shows nothing. -/
theorem sendOrphanPubrel_handled (ready : Ready watch engine) (stranger : watch.who mid = none) :
    Sat (Outbound.sendOrphanPubrel mid) engine
      (fun _ after => Handled watch watch engine after)
      (fun _ after => Handled watch watch engine after) := by
  simp only [Outbound.sendOrphanPubrel, sat_bind, sat_get, sat_fromExcept]
  refine ⟨?_, fun _ _ => ⟨ready.refl, id⟩⟩
  intro wire encoded
  refine requirePubrelCapacity_sat ?_ fun _ => ⟨ready.refl, id⟩
  have shown : effectEvent watch.who (.send (.contiguous wire)) = none := by
    simp [effectEvent, WriteItem.header, seen_encodePubrel encoded, stranger]
  have longer := ready.tracking.later
  simp only [send, sat_emit]
  refine ⟨⟨⟨⟨ready.tracking.coherent.reliable, ready.tracking.coherent.rows⟩, ?_,
    ready.tracking.names⟩, ready.aligned, ?_⟩, id⟩
  · simp only [List.length_append]
    omega
  · have same : view watch { engine with effects := engine.effects ++ [.send (.contiguous wire)] } =
        view watch engine := by
      simp [view, watch.log_emit longer, shown]
    exact same ▸ .refl

theorem outMeta_eq (found : engine.store.out.get? mid = some row) : engine.store.outMeta mid =
    some { mid, state := row.message.state, logicalSize := row.message.logicalSize } := by
  simp [Store.outMeta, Store.outMessage?, found]

theorem outMeta_none (absent : engine.store.out.get? mid = none) :
    engine.store.outMeta mid = none := by
  simp [Store.outMeta, Store.outMessage?, absent]

theorem advanceOnPubrec_handled (ready : Ready watch engine)
    (start : engine.effects.length = watch.base)
    (stranger : engine.store.out.get? mid = none → watch.who mid = none) :
    Sat (Outbound.advanceOnPubrec mid) engine
      (fun _ after => Handled watch
        (watch.learn ((exchangeIn engine mid .waitPubrec).toList.map .advanced)) engine after)
      (fun _ after => Handled watch watch engine after) := by
  have reliable := ready.tracking.coherent.reliable
  simp only [Outbound.advanceOnPubrec, sat_bind, sat_storeCall reliable]
  by_cases matching : ∃ row, engine.store.out.get? mid = some row ∧ row.message.state = .waitPubrec
  · obtain ⟨row, found, waits⟩ := matching
    simp only [transitionOut_compact found waits, exchangeIn_found found waits, sat_bind]
    have lined := ready.sent_lined found (by simp [waits])
    refine unpark_sat lined ?_
    exact ready.advanced start found waits (seen_encodePubrelSuccess (ready.small found))
  · have stray : ∀ row, engine.store.out.get? mid = some row → row.message.state ≠ .waitPubrec :=
      fun row found same => matching ⟨row, found, same⟩
    have unmatched : engine.store.transitionOut mid .waitPubrec .waitPubcomp true =
        (none, engine.store) := by
      simp only [Store.transitionOut, Store.outMessage?]
      cases found : engine.store.out.get? mid with
      | none => rfl
      | some row => simp [stray row found]
    simp only [unmatched, exchangeIn_stray stray, sat_bind, sat_storeRead reliable,
      Option.toList_none, List.map_nil, Watch.learn_nil]
    cases found : engine.store.out.get? mid with
    | none =>
      simp only [outMeta_none found]
      exact sendOrphanPubrel_handled ready (stranger found)
    | some row =>
      simp only [outMeta_eq found, sat_onlyIf]
      refine ⟨fun waits => ?_, fun _ => ⟨ready.refl, id⟩⟩
      exact ready.released found waits (seen_encodePubrelSuccess (ready.small found))

theorem refusePubrec_handled (ready : Ready watch engine)
    (stranger : engine.store.out.get? mid = none → watch.who mid = none)
    (limited : engine.negotiated.maximumPacketSize.any (· < 4) = true) :
    Sat (Outbound.refusePubrec mid) engine
      (fun _ after => Handled watch
        (watch.learn ((exchangeIn engine mid .waitPubrec).toList.map .advanced)) engine after)
      (fun _ after => Handled watch watch engine after) := by
  have reliable := ready.tracking.coherent.reliable
  simp only [Outbound.refusePubrec, sat_bind, sat_storeRead reliable]
  cases found : engine.store.out.get? mid with
  | none =>
    simp only [outMeta_none found, exchangeIn, found, Option.filter_none, Option.map_none,
      Option.toList_none, List.map_nil, Watch.learn_nil]
    exact sendOrphanPubrel_handled ready (stranger found)
  | some row =>
    simp only [outMeta_eq found, sat_onlyIf]
    refine ⟨fun _ => ?_, fun other => ?_⟩
    · simp only [Outbound.requirePubrelCapacity, sat_bind, sat_get]
      cases size : engine.negotiated.maximumPacketSize with
      | none => simp [size] at limited
      | some limit =>
        have small : limit < 4 := by simpa [size] using limited
        simp only [sat_raiseIf, small, not_true_eq_false, false_implies, forall_const, and_true]
        exact ⟨ready.refl, id⟩
    · have stray : ∀ stored, engine.store.out.get? mid = some stored →
          stored.message.state ≠ .waitPubrec := by
        intro stored present waits
        obtain rfl : row = stored := by simpa [found] using present
        exact other (.inl waits)
      simpa [exchangeIn_stray stray] using (⟨ready.refl, id⟩ : Handled watch watch engine engine)

theorem onPubrec_handled {raw : RawPacket} (ready : Ready watch engine)
    (start : engine.effects.length = watch.base)
    (strangers : ∀ mid, engine.store.out.get? mid = none → watch.who mid = none)
    (kind : raw.packetType = .pubrec) :
    Sat (Outbound.onPubrec raw) engine
      (fun _ after => Handled watch (watch.learn (ackEvents engine raw)) engine after)
      (fun _ after => Handled watch watch engine after) := by
  simp only [Outbound.onPubrec, sat_bind, sat_get, sat_fromExcept, ackEvents, kind]
  refine ⟨?_, fun _ _ => ⟨ready.refl, id⟩⟩
  rintro ⟨mid, reasonCode, properties⟩ decoded
  refine validateAckProperties_sat ready ?_ fun _ _ handled => handled
  simp only [decoded, sat_ite, sat_bind, sat_get]
  refine ⟨fun negative => ?_, fun positive => ⟨fun limited => ?_, fun _ => ?_⟩⟩
  · simp only [negative, ↓reduceIte]
    exact (finish_handled ready start (by decide)).mono (fun _ _ handled => handled) (by simp)
  · simp only [positive, ↓reduceIte]
    exact refusePubrec_handled ready (strangers mid) limited
  · simp only [positive, ↓reduceIte]
    exact advanceOnPubrec_handled ready start (strangers mid)

end

end Mqttium
