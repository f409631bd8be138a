import Mqttium.Receiving.Handoff

/-! What each call of the owner does to the slots and to the identifiers of the batch. -/

namespace Mqttium

open Codec Library Packets Persistence Protocol Inbound

section

variable {owning : Nat → InboundQoSState → Prop} {holding full : Prop} {engine : Engine} {mid : Nat}

/-! Rows -/

theorem hands_lookupStoredInbound (mid : Nat) :
    Within (Hands owning holding full) (lookupStoredInbound mid) :=
  within_bind within_get fun _ => within_ite (within_pure _) hands_storeRead

/-- A read changes what faults are still to come. -/
theorem sat_storeRead_script {Value : Type} {call : StoreCall} {read : Store → Value} :
    Sat (storeRead call read) engine
      (fun value after => ∃ faults, after = { engine with store := { engine.store with faults } } ∧
        value = read { engine.store with faults })
      (fun _ after => ∃ faults, after = { engine with store := { engine.store with faults } }) := by
  obtain ⟨faults, rest, -⟩ := nextFault_rest engine.store call
  simp only [storeRead, storeCall, sat_bind, sat_get]
  cases next : engine.store.nextFault call with
  | mk fault store =>
    rw [next] at rest
    change store = _ at rest
    subst rest
    cases fault with
    | none => exact ⟨faults, rfl, rfl⟩
    | some fault =>
      cases fault with
      | beforeEffect => exact ⟨faults, rfl⟩
      | afterEffect => exact ⟨faults, rfl⟩

theorem sat_lookupStoredInbound (mid : Nat) :
    Sat (lookupStoredInbound mid) engine
      (fun found after => ∃ faults, after = { engine with store := { engine.store with faults } } ∧
        (engine.store.inbound.get? mid = none → found = none))
      (fun _ after => ∃ faults, after = { engine with store := { engine.store with faults } }) := by
  rw [lookupStoredInbound, sat_bind, sat_get, sat_ite]
  refine ⟨fun _ => ⟨engine.store.faults, rfl, fun _ => rfl⟩, fun _ => ?_⟩
  apply sat_storeRead_script.mono
  · rintro _ _ ⟨faults, rfl, rfl⟩
    refine ⟨faults, rfl, fun none => ?_⟩
    simp [Store.inMeta, Store.inMessage?, none]
  · exact fun _ _ scripted => scripted

theorem hands_scripted (faults : StoreCall → List (Option Fault)) :
    Hands owning holding full engine { engine with store := { engine.store with faults } } :=
  .silent rfl rfl rfl rfl

theorem hands_shareAfter (mid : Nat) : Within (Hands owning holding full) (shareAfter mid) := by
  refine within_modify fun engine => ?_
  cases engine.store.inbound.get? mid with
  | none => exact Std.Refl.refl engine
  | some row => exact .silent rfl rfl rfl rfl

theorem hands_markRowDelivered (mid : Nat) :
    Within (Hands owning holding full) (markRowDelivered mid) := by
  have yields : Yields (fun _ => True) (Hands owning holding full)
      (storeCall .markInDelivered fun store => store.markInDelivered mid) :=
    hands_storeCall (fun _ => trivial) fun _ _ => spares_markInDelivered
  exact within_bind (within_map yields.within) fun _ => hands_shareAfter mid

theorem hands_transitionRow (mid : Nat) {expected next : InboundQoSState} {userAcked : Option Bool}
    (enters : owning mid next) :
    Within (Hands owning holding full) (transitionRow mid expected next userAcked) := by
  have yields : Yields (fun _ => True) (Hands owning holding full)
      (storeCall .transitionIn fun store => store.transitionIn mid expected next userAcked) :=
    hands_storeCall (fun _ => trivial) fun _ _ => spares_transitionIn enters
  exact within_bind yields.within fun _ => within_bind (hands_shareAfter mid) fun _ => within_pure _

theorem hands_forgetInbound : Within (Hands owning holding full) forgetInbound :=
  within_bind within_get fun _ => within_bind within_raiseIf fun _ => hands_modifyInbound fun _ => rfl

theorem hands_rememberInbound : Within (Hands owning holding full) rememberInbound :=
  hands_modifyInbound fun _ => rfl

theorem hands_releasePendingBytes (size : Nat) :
    Within (Hands owning holding full) (releasePendingBytes size) :=
  within_bind within_get fun _ => within_bind within_raiseIf fun _ => hands_modifyInbound fun _ => rfl

theorem hands_freshToken (mid : Nat) : Within (Hands owning holding full) (freshToken mid) :=
  within_bind within_get fun _ => within_bind (hands_modifyInbound fun _ => rfl) fun _ => within_pure _

theorem hands_exchangeToken (mid : Nat) : Within (Hands owning holding full) (exchangeToken mid) := by
  refine within_bind within_get fun engine => ?_
  cases engine.inbound.exchangeTokens.get? mid with
  | none => exact hands_freshToken mid
  | some token => exact within_pure _

theorem hands_sendAck (frame : Bytes) : Within (Hands owning holding full) (sendAck frame) :=
  hands_emit nofun

theorem hands_emitDelivery (message : Message) (marked : Bool) (size : Option Nat)
    (token : Option Token) :
    Within (Hands owning holding full) (emitDelivery message marked size token) := by
  cases size with
  | none => exact hands_emit nofun
  | some size => exact hands_emit nofun

theorem hands_bindAckToken (mid : Nat) (message : Message) :
    Within (Hands owning holding full) (bindAckToken mid message) :=
  within_bind within_get fun _ => within_ite
    (within_bind (hands_exchangeToken mid) fun _ => within_pure _) (within_pure _)

theorem hands_emitMessage (stored : InboundMessage) (dup : Bool) :
    Within (Hands owning holding full) (emitMessage stored dup) :=
  within_bind (hands_bindAckToken _ _) fun _ =>
    within_bind (hands_exchangeToken _) fun _ => hands_emit nofun

/-! Completion -/

theorem sat_completeStoredInbound {mid : Nat} {expected : InboundQoSState}
    (idle : ¬ owning mid expected) (action : String) :
    Sat (completeStoredInbound mid expected action) engine
      (fun _ after => after.store.inbound.get? mid = none ∧
        after.inbound.ownership = engine.inbound.ownership ∧ Hands owning holding full engine after)
      (fun _ => Hands owning holding full engine) := by
  have completes := @sat_storeCall_spares owning _ .completeIn
    (fun store => store.completeIn mid expected) engine engine.inbound.pendingPubcomps
    (fun found store => found ≠ none → store.inbound.get? mid = none)
    fun store _ => (spares_completeIn idle).symm
  simp only [completeStoredInbound, sat_bind]
  apply completes.mono
  · rintro found _ ⟨store, rfl, gone, spares⟩
    cases found with
    | none => exact spares.hands
    | some record =>
      simp only [sat_bind, sat_modifyInbound, sat_pure]
      refine ⟨gone (by rintro ⟨⟩), rfl, ?_⟩
      exact IsTrans.trans _ _ _ spares.hands (.silent rfl rfl rfl rfl)
  · rintro _ _ ⟨store, rfl, spares⟩
    exact spares.hands

theorem hands_completeQos1 {mid : Nat} (idle : ¬ owning mid .waitPuback) :
    Within (Hands owning holding full) (completeQos1 mid) := by
  have completes : Within (Hands owning holding full)
      (completeStoredInbound mid .waitPuback "acknowledging") := fun engine =>
    (sat_completeStoredInbound idle _).mono (fun _ _ done => done.2.2) fun _ _ moved => moved
  refine within_bind completes fun size => within_bind hands_forgetInbound fun _ =>
    within_bind (hands_sendAck _) fun _ => within_bind ?_ fun _ => hands_releasePendingBytes size
  exact fun engine => .rebalance (fun _ balanced => balanced.erase mid) rfl

/-- The identifier is owned until its PUBCOMP leaves. -/
theorem sat_holdUntilPubcompHandoff {mid : Nat} (size : Nat)
    (gone : engine.store.inbound.get? mid = none) :
    Sat (holdUntilPubcompHandoff mid size) engine
      (fun _ after => Hands owning holding full engine after ∧ mid ∈ after.inbound.pendingPubcomps)
      (fun _ => Hands owning holding full engine) := by
  have parks {inbound : InboundSession}
      (balanced : ∀ limit, Balanced limit engine.inbound → Balanced limit inbound)
      (pubcomps : inbound.pendingPubcomps = insert mid engine.inbound.pendingPubcomps) :
      Hands owning holding full engine { engine with inbound } ∧
        mid ∈ inbound.pendingPubcomps := by
    have kept : ∀ other ∈ engine.inbound.pendingPubcomps, other ∈ inbound.pendingPubcomps :=
      fun other member => pubcomps ▸ Finset.mem_insert_of_mem member
    refine ⟨⟨rfl, fun handed => ⟨balanced _ handed.balanced, fun other member => ?_⟩,
      fun _ _ => .inr, fun _ => kept, [], by simp, by simp⟩, ?_⟩
    · rcases Finset.mem_insert.mp (pubcomps ▸ member) with rfl | old
      · exact gone
      · exact handed.gone other old
    · rw [pubcomps]
      exact Finset.mem_insert_self _ _
  simp only [holdUntilPubcompHandoff, releasePendingBytes, sat_bind, sat_get, sat_raiseIf,
    sat_modifyInbound, sat_onlyIf]
  refine ⟨fun _ => Std.Refl.refl engine, fun _ => ⟨fun current => ?_, fun _ => ?_⟩⟩
  · exact parks (fun _ balanced => (balanced.move mid).same rfl) rfl
  · exact parks (fun _ balanced => (balanced.park mid).same rfl) rfl

/-- An identifier that came to wait for its PUBCOMP is owned. -/
theorem Hands.parked {mid : Nat} {before after : Engine}
    (moved : Hands (fun other state => other ≠ mid ∧ owning other state) holding full before after)
    (parked : mid ∈ after.inbound.pendingPubcomps) : Hands owning holding full before after :=
  { moved with
    owned := fun holds other ⟨row, found, phase⟩ => by
      by_cases same : other = mid
      · exact .inl (same ▸ parked)
      · rcases moved.owned holds other ⟨row, found, same, phase⟩ with member | ⟨row, found, phase⟩
        · exact .inl member
        · exact .inr ⟨row, found, phase.2⟩ }

/-- The PUBCOMP of a completed exchange joins the batch. -/
theorem hold_answered {mid size : Nat} {between : Engine} {inbound : InboundSession}
    {effects : List Effect} (gone : between.store.inbound.get? mid = none)
    (completed : Hands (fun other state => other ≠ mid ∧ owning other state) holding full engine between)
    (same : inbound.ownership = between.inbound.ownership)
    (answered : effects = between.effects ++ [.sendAck (encodePubcompSuccess mid)]) :
    Sat (holdUntilPubcompHandoff mid size) { between with inbound, effects }
      (fun _ => Hands owning holding full engine) (fun _ => Hands (fun _ _ => False) holding full engine) := by
  have sends : Hands (fun other state => other ≠ mid ∧ owning other state) holding full engine
      { between with inbound, effects } := by
    refine IsTrans.trans _ _ _ completed (.quiet rfl rfl same ⟨_, answered, fun member => ?_⟩)
    exact absurd (List.mem_singleton.mp member) nofun
  have holds := @sat_holdUntilPubcompHandoff (fun other state => other ≠ mid ∧ owning other state)
    holding full { between with inbound, effects } mid size gone
  apply holds.mono
  · exact fun _ _ ⟨held, parked⟩ => Hands.parked (IsTrans.trans _ _ _ sends held) parked
  · exact fun _ _ held => (IsTrans.trans _ _ _ sends held).lift

theorem ends_completeQos2 (mid : Nat) (state : InboundQoSState) (action : String) :
    Ends (Hands owning holding full) (Hands (fun _ _ => False) holding full)
      (completeQos2 mid state action) := by
  intro engine
  have completes := @sat_completeStoredInbound (fun other state => other ≠ mid ∧ owning other state)
    holding full engine mid state (fun owns => owns.1 rfl) action
  simp only [completeQos2, forgetInbound, sendAck, sat_bind, sat_get, sat_raiseIf, sat_modifyInbound,
    sat_emit]
  apply completes.mono
  · rintro size between ⟨gone, _, completed⟩
    exact ⟨fun _ => completed.lift, fun _ => hold_answered gone completed rfl rfl⟩
  · exact fun _ _ moved => moved.lift

theorem local_storeCall {Value : Type} (call : StoreCall) (run : Store → Value × Store) :
    Sat (storeCall call run) engine (fun _ _ => True)
      (fun failure _ => isPeerError failure = false) := by
  simp only [storeCall, sat_bind, sat_get]
  cases engine.store.nextFault call with
  | mk fault store =>
    cases fault with
    | none => trivial
    | some fault =>
      cases fault with
      | beforeEffect => exact rfl
      | afterEffect => exact rfl

/-- Completing an exchange raises nothing that counts as an error of the peer. -/
theorem local_completeQos2 (mid : Nat) (state : InboundQoSState) (action : String) :
    Sat (completeQos2 mid state action) engine (fun _ _ => True)
      (fun failure _ => isPeerError failure = false) := by
  simp only [completeQos2, completeStoredInbound, sat_bind]
  apply (local_storeCall _ _).mono
  · intro found between _
    cases found with
    | none => exact rfl
    | some record =>
      simp only [forgetInbound, sendAck, holdUntilPubcompHandoff, releasePendingBytes, sat_bind,
        sat_get, sat_raiseIf, sat_modifyInbound, sat_emit, sat_onlyIf, sat_pure]
      exact ⟨fun _ => rfl, fun _ => ⟨fun _ => rfl, fun _ => ⟨fun _ => trivial, fun _ => trivial⟩⟩⟩
  · exact fun _ _ quiet => quiet

/-! Starting an exchange -/

theorem sat_admitRow {arrival : Arrival} {qos : QoS} {state : InboundQoSState}
    (free : arrival.mid ∉ engine.inbound.pendingPubcomps) (phase : owning arrival.mid state)
    (poised : engine.inbound.receiveMaximum ≤ inflight engine.inbound → full) :
    Sat (admitRow arrival qos state) engine (fun _ => Hands owning holding full engine)
      (fun _ => Hands owning holding full engine) := by
  simp only [admitRow, sat_bind, sat_get, sat_fromExcept, sat_discard]
  refine ⟨fun size _ => ?_, fun _ _ => Std.Refl.refl engine⟩
  apply (sat_acquireSlot (some size) poised).mono
  · rintro _ _ ⟨-, bytes, rfl⟩
    rw [sat_tryCatch]
    have reserves : Hands owning holding full engine
        { engine with inbound := engine.inbound.reserving bytes } := hands_reserving bytes
    have abandons {after : Engine} (moved : Hands owning holding full engine after) :
        Sat (releasePendingBytes size) after (fun _ => Hands owning holding full engine)
          (fun _ => Hands owning holding full engine) :=
      Sat.from moved (hands_releasePendingBytes size after)
    have stores := @sat_storeCall_spares owning PUnit .putIn
      (fun store => (PUnit.unit, store.putIn
        { mid := arrival.mid, topic := arrival.topic, payload := arrival.payload, qos
          retain := arrival.retain, state, properties := arrival.properties, logicalSize := size }))
      { engine with inbound := engine.inbound.reserving bytes } engine.inbound.pendingPubcomps
      (fun _ _ => True) fun store _ => ⟨trivial, spares_putIn free fun _ => phase⟩
    simp only [sat_bind, sat_raiseIf]
    refine ⟨fun _ => ?_, fun _ => ?_⟩
    · exact abandons reserves
    · apply stores.mono
      · rintro _ _ ⟨store, rfl, -, spares⟩
        rw [sat_modifyInbound]
        have rowed : Hands owning holding full engine { engine with store } := Spares.hands spares
        have held : Hands owning holding full { engine with store } { engine with
            store
            inbound := { engine.inbound.reserving bytes with
              currentPersistedMids := insert arrival.mid engine.inbound.currentPersistedMids } } :=
          .rebalance (fun _ balanced => balanced.hold bytes arrival.mid) rfl
        have numbers : Within (Hands owning holding full) (do
            let token ← freshToken arrival.mid
            rememberInbound
            return token) :=
          within_bind (hands_freshToken arrival.mid) fun _ =>
            within_bind hands_rememberInbound fun _ => within_pure _
        have numbered := Sat.from (IsTrans.trans _ _ _ rowed held) (numbers _)
        simp only [sat_bind] at numbered
        exact numbered
      · rintro _ _ ⟨store, rfl, spares⟩
        have rowed : Hands owning holding full engine
            { engine with inbound := engine.inbound.reserving bytes, store } :=
          IsTrans.trans _ _ _ reserves (Spares.hands spares)
        exact abandons rowed
  · exact fun _ _ moved => moved

/-! QoS 2 -/

theorem hands_refusing {Value : Type} (reasonCode : Nat) (failure : Failure)
    (other : reasonCode ≠ 0x93) :
    Within (Hands owning holding full)
      (do protocolDisconnect reasonCode; throw failure : EngineM Value) :=
  within_bind (hands_protocolDisconnect fun same => absurd same other) fun _ => within_throw _

theorem hands_rejectPacketIdCollision {Value : Type} (mid : Nat) (arriving held : String) :
    Within (Hands owning holding full)
      (rejectPacketIdCollision mid arriving held : EngineM Value) :=
  hands_refusing 0x82 _ (by decide)

theorem sat_onQos2Stored (mid : Nat) (state : InboundQoSState)
    (poised : engine.inbound.receiveMaximum ≤ inflight engine.inbound → full) :
    Sat (onQos2Stored mid state) engine (fun _ => Hands owning holding full engine)
      (fun _ => Hands owning holding full engine) := by
  rw [onQos2Stored, sat_bind, sat_get, sat_ite]
  refine ⟨fun _ => hands_rejectPacketIdCollision _ _ _ engine, fun _ => ?_⟩
  rw [sat_ite]
  refine ⟨fun _ => hands_refusing 0x82 _ (by decide) engine, fun _ => ?_⟩
  rw [sat_ite]
  refine ⟨fun _ => Std.Refl.refl engine, fun _ => ?_⟩
  exact Sat.then_within (hands_holdSlot mid poised) fun _ => hands_sendAck _

theorem sat_onQos2Fresh (arrival : Arrival) (phase : owning arrival.mid .waitPubrel)
    (poised : engine.inbound.receiveMaximum ≤ inflight engine.inbound → full) :
    Sat (onQos2Fresh arrival) engine (fun _ => Hands owning holding full engine)
      (fun _ => Hands owning holding full engine) := by
  rw [onQos2Fresh, sat_bind, sat_get, sat_ite]
  refine ⟨fun _ => hands_rejectPacketIdCollision _ _ _ engine, fun free => ?_⟩
  rw [sat_ite]
  refine ⟨fun _ => hands_refusing 0x82 _ (by decide) engine, fun _ => ?_⟩
  exact Sat.then_within (sat_admitRow free phase poised) fun token =>
    within_bind (hands_sendAck _) fun _ => within_bind (hands_bindAckToken _ _) fun _ =>
    hands_emitDelivery _ _ _ _

/-! QoS 1 -/

theorem hands_drainManualFor (idle : ∀ mid, ¬ owning mid .waitPuback) (fuel : Nat) :
    Within (Hands owning holding full) (drainManualFor fuel) := by
  induction fuel with
  | zero => exact within_pure _
  | succ fuel ih =>
    refine within_bind within_get fun engine => ?_
    cases engine.inbound.manualQos1Order with
    | nil => exact within_pure _
    | cons mid rest =>
      exact within_onlyIf <| within_bind (hands_lookupStoredInbound mid) fun _ =>
        within_bind within_raiseIf fun _ => within_bind (hands_completeQos1 (idle mid)) fun _ =>
        within_bind (hands_modifyInbound fun _ => rfl) fun _ => ih

theorem hands_drainManualQos1Acks (idle : ∀ mid, ¬ owning mid .waitPuback) :
    Within (Hands owning holding full) drainManualQos1Acks :=
  within_bind within_get fun _ => hands_drainManualFor idle _

theorem sat_onQos1ManualStored (idle : ∀ mid, ¬ owning mid .waitPuback) (mid : Nat)
    (poised : engine.inbound.receiveMaximum ≤ inflight engine.inbound → full) :
    Sat (onQos1ManualStored mid) engine (fun _ => Hands owning holding full engine)
      (fun _ => Hands owning holding full engine) := by
  have gives : Within (Hands owning holding full) (modifyInbound fun inbound =>
      { inbound with currentPersistedMids := inbound.currentPersistedMids.erase mid }) :=
    fun engine => .rebalance (fun _ balanced => balanced.erase mid) rfl
  rw [onQos1ManualStored, sat_bind, sat_get]
  refine Sat.then_within (hands_holdSlot mid poised) fun _ =>
    within_ite (hands_drainManualQos1Acks idle) <| within_bind hands_storeRead fun stored => ?_
  cases stored with
  | none => exact within_bind (within_onlyIf gives) fun _ => within_throw _
  | some stored => exact hands_emitMessage stored true

theorem sat_onQos1ManualFresh (arrival : Arrival) (phase : owning arrival.mid .waitPuback)
    (poised : engine.inbound.receiveMaximum ≤ inflight engine.inbound → full) :
    Sat (onQos1ManualFresh arrival) engine (fun _ => Hands owning holding full engine)
      (fun _ => Hands owning holding full engine) := by
  rw [onQos1ManualFresh, sat_bind, sat_get, sat_ite]
  refine ⟨fun _ => hands_rejectPacketIdCollision _ _ _ engine, fun free => ?_⟩
  exact Sat.then_within (sat_admitRow free phase poised) fun token =>
    within_bind (hands_modifyInbound fun _ => rfl) fun _ =>
    within_bind (hands_bindAckToken _ _) fun _ => hands_emitDelivery _ _ _ _

/-- The slot just reserved belongs to the PUBACK. -/
theorem hands_promise {between : Engine} {inbound : InboundSession} {effects : List Effect}
    {mid bytes : Nat} (moved : Hands owning holding full engine between)
    (reserved : between.inbound.ownership = (engine.inbound.reserving bytes).ownership)
    (promised : inbound.ownership = { between.inbound with
      pendingAutoQos1Mids := insert mid between.inbound.pendingAutoQos1Mids
      autoackHandoffRequired := between.inbound.autoackHandoffRequired ||
        decide (between.inbound.receiveMaximum ≤ inflight engine.inbound + 1) }.ownership)
    (grown : ∃ fresh, effects = between.effects ++ fresh ∧ (refusal ∈ fresh → full)) :
    Hands owning holding full engine { between with inbound, effects } := by
  have pubcomps : inbound.pendingPubcomps = between.inbound.pendingPubcomps :=
    congrArg (·.1.2.2) promised
  have balanced {limit : Nat} (balanced : Balanced limit engine.inbound) : Balanced limit inbound := by
    refine (balanced.promise bytes bytes mid).same (promised.trans ?_)
    simp only [InboundSession.ownership, Prod.mk.injEq] at reserved ⊢
    obtain ⟨⟨current, auto, pubcomps⟩, slots, flag, maximum⟩ := reserved
    refine ⟨⟨current, by rw [auto]; rfl, pubcomps⟩, slots, ?_, maximum⟩
    rw [flag, maximum]
    rfl
  have emits : Hands owning holding full between { between with effects } :=
    .quiet rfl rfl rfl grown
  have sent : Hands owning holding full engine { between with effects } :=
    IsTrans.trans _ _ _ moved emits
  refine { sent with
    handed := fun handed => ⟨?_, fun other member => ?_⟩
    owned := fun holds other owns => ?_
    held := fun holds other member => ?_ }
  · have announced := balanced handed.balanced
    rw [← moved.config] at announced
    exact announced
  · exact (moved.handed handed).gone other (pubcomps ▸ member)
  · exact (moved.owned holds other owns).imp (fun member => pubcomps ▸ member) id
  · have kept := moved.held holds other member
    exact pubcomps ▸ kept

/-- A slot is taken for the PUBACK that completes a recovered exchange. -/
theorem sat_settleRecovered (idle : ¬ owning mid .waitPuback)
    (poised : engine.inbound.receiveMaximum ≤ inflight engine.inbound → full) :
    Sat (do
        let occupied ← acquireSlot
        let size ← completeStoredInbound mid .waitPuback "acknowledging"
        forgetInbound
        sendAck (encodePubackSuccess mid)
        releasePendingBytes size
        modifyInbound fun inbound =>
          { inbound with
            pendingAutoQos1Mids := insert mid inbound.pendingAutoQos1Mids
            autoackHandoffRequired := inbound.autoackHandoffRequired ||
              decide (inbound.receiveMaximum ≤ occupied) } : EngineM PUnit) engine
      (fun _ => Hands owning holding full engine) (fun _ => Hands owning holding full engine) := by
  rw [sat_bind]
  apply (sat_acquireSlot none poised).mono
  · rintro _ _ ⟨rfl, bytes, rfl⟩
    have reserves : Hands owning holding full engine
        { engine with inbound := engine.inbound.reserving bytes } := hands_reserving bytes
    have acked {between : Engine} : ∃ fresh, between.effects ++ [.sendAck (encodePubackSuccess mid)] =
        between.effects ++ fresh ∧ (refusal ∈ fresh → full) :=
      ⟨_, rfl, fun member => absurd (List.mem_singleton.mp member) (by rintro ⟨⟩)⟩
    have completes := @sat_completeStoredInbound owning holding full
      { engine with inbound := engine.inbound.reserving bytes } mid .waitPuback idle "acknowledging"
    simp only [forgetInbound, sendAck, releasePendingBytes, sat_bind, sat_get, sat_raiseIf,
      sat_modifyInbound, sat_emit]
    apply completes.mono
    · rintro size between ⟨_, same, completed⟩
      have moved : Hands owning holding full engine between := IsTrans.trans _ _ _ reserves completed
      refine ⟨fun _ => moved, fun _ => ⟨fun _ => ?_, fun _ => ?_⟩⟩
      · exact IsTrans.trans _ _ _ moved (.quiet rfl rfl rfl acked)
      · exact hands_promise moved same rfl acked
    · exact fun _ _ more => IsTrans.trans _ _ _ reserves more
  · exact fun _ _ moved => moved

theorem sat_completeRecoveredQos1Auto (idle : ¬ owning mid .waitPuback)
    (poised : engine.inbound.receiveMaximum ≤ inflight engine.inbound → full) :
    Sat (completeRecoveredQos1Auto mid) engine (fun _ => Hands owning holding full engine)
      (fun _ => Hands owning holding full engine) := by
  rw [completeRecoveredQos1Auto, sat_bind, sat_get, sat_ite]
  refine ⟨fun _ => Std.Refl.refl engine, fun _ => ?_⟩
  rw [sat_bind]
  apply (sat_lookupStoredInbound mid).mono
  · rintro found _ ⟨faults, rfl, -⟩
    apply Sat.from (hands_scripted faults)
    rw [sat_ite]
    refine ⟨fun _ => ?_, fun _ => ?_⟩
    · exact Sat.then_within (hands_holdSlot mid poised) fun _ => hands_modifyInbound fun _ => rfl
    · exact sat_settleRecovered idle poised
  · rintro _ _ ⟨faults, rfl⟩
    exact hands_scripted faults

theorem emitDelivery_eq (message : Message) (marked : Bool) (size : Option Nat)
    (token : Option Token) :
    ∃ effect, emitDelivery message marked size token = emit effect ∧ effect ≠ refusal := by
  cases size with
  | none => exact ⟨_, rfl, nofun⟩
  | some size => exact ⟨_, rfl, nofun⟩

theorem sat_onQos1AutoFresh (arrival : Arrival)
    (poised : engine.inbound.receiveMaximum ≤ inflight engine.inbound → full) :
    Sat (onQos1AutoFresh arrival) engine (fun _ => Hands owning holding full engine)
      (fun _ => Hands owning holding full engine) := by
  obtain ⟨delivery, delivers, other⟩ :=
    emitDelivery_eq (arrival.message .atLeastOnce) false arrival.propertyWireSize none
  have acked {between : Engine} : ∃ fresh,
      between.effects ++ [.sendAck (encodePubackSuccess arrival.mid)] ++ [delivery] =
        between.effects ++ fresh ∧ (refusal ∈ fresh → full) := by
    refine ⟨[.sendAck (encodePubackSuccess arrival.mid), delivery], by simp, fun member => ?_⟩
    rcases List.mem_cons.mp member with impossible | same
    · exact absurd impossible nofun
    · exact absurd (List.mem_singleton.mp same).symm other
  rw [onQos1AutoFresh, sat_bind, sat_get, sat_ite]
  refine ⟨fun _ => hands_rejectPacketIdCollision _ _ _ engine, fun _ => ?_⟩
  simp only [delivers, sendAck, sat_bind, sat_ite, sat_pure, sat_emit, sat_onlyIf, sat_modifyInbound]
  refine ⟨fun again => ⟨fun fresh => ?_, fun _ => .quiet rfl rfl rfl acked⟩, fun fresh => ?_⟩
  · rw [again] at fresh
    cases fresh
  · apply (sat_acquireSlot none poised).mono
    · rintro _ _ ⟨rfl, bytes, rfl⟩
      have reserves : Hands owning holding full engine
          { engine with inbound := engine.inbound.reserving bytes } := hands_reserving bytes
      refine ⟨fun _ => hands_promise reserves rfl rfl acked, fun again => ?_⟩
      exact absurd (Bool.eq_false_iff.mpr fresh) again
    · exact fun _ _ moved => moved

/-! PUBLISH -/

/-- The phases of QoS 2 own their identifiers. -/
def phased (_ : Nat) (state : InboundQoSState) : Prop := state ≠ .waitPuback

/-- The bookkeeping moves on, and a QoS 2 exchange leaves its row only for its PUBCOMP. -/
def Passes (full : Prop) (before after : Engine) : Prop :=
  ∃ owning, (∀ mid state, state ≠ InboundQoSState.waitPuback → owning mid state) ∧
    Hands owning True full before after

theorem Hands.passes {after : Engine} (moved : Hands phased True full engine after) :
    Passes full engine after :=
  ⟨phased, fun _ _ other => other, moved⟩

theorem sat_dispatchQos (qosBits : Nat) (arrival : Arrival)
    (poised : engine.inbound.receiveMaximum ≤ inflight engine.inbound → full) :
    Sat (dispatchQos qosBits arrival) engine (fun _ => Passes full engine)
      (fun _ => Passes full engine) := by
  have idle (mid : Nat) : ¬ phased mid .waitPuback := fun waits => waits rfl
  have looks {next : Option InboundRecordMeta → EngineM PUnit}
      (later : ∀ found faults, Sat (next found)
        { engine with store := { engine.store with faults } } (fun _ => Passes full engine)
        (fun _ => Passes full engine)) :
      Sat (lookupStoredInbound arrival.mid >>= next) engine (fun _ => Passes full engine)
        (fun _ => Passes full engine) := by
    rw [sat_bind]
    apply (sat_lookupStoredInbound arrival.mid).mono
    · rintro found _ ⟨faults, rfl, -⟩
      exact later found faults
    · rintro _ _ ⟨faults, rfl⟩
      exact (hands_scripted faults).passes
  have passes {program : EngineM PUnit} {owning : Nat → InboundQoSState → Prop}
      (owns : ∀ mid state, state ≠ InboundQoSState.waitPuback → owning mid state)
      (faults : StoreCall → List (Option Fault))
      (moved : Sat program { engine with store := { engine.store with faults } }
        (fun _ => Hands owning True full { engine with store := { engine.store with faults } })
        (fun _ => Hands owning True full { engine with store := { engine.store with faults } })) :
      Sat program { engine with store := { engine.store with faults } }
        (fun _ => Passes full engine) (fun _ => Passes full engine) :=
    (Sat.from (hands_scripted faults) moved).mono (fun _ _ moved => ⟨_, owns, moved⟩)
      fun _ _ moved => ⟨_, owns, moved⟩
  have other : ∀ (mid : Nat) (state : InboundQoSState), state ≠ .waitPuback → phased mid state :=
    fun _ _ other => other
  rw [dispatchQos, sat_ite]
  refine ⟨fun _ => ?_, fun _ => ?_⟩
  · rw [onQos1, sat_bind, sat_get, sat_ite]
    refine ⟨fun _ => looks fun found faults => ?_, fun _ => looks fun found faults => ?_⟩
    · cases found with
      | none =>
        exact passes (fun _ _ differs => .inr differs) faults
          (@sat_onQos1ManualFresh (fun mid state => mid = arrival.mid ∨ state ≠ .waitPuback) True full _
            arrival (.inl rfl) poised)
      | some existing =>
        rw [sat_ite]
        exact ⟨fun _ => passes other faults (sat_onQos1ManualStored idle arrival.mid poised),
          fun _ => passes other faults (hands_rejectPacketIdCollision _ _ _ _)⟩
    · cases found with
      | none => exact passes other faults (sat_onQos1AutoFresh arrival poised)
      | some existing =>
        rw [sat_ite]
        exact ⟨fun _ => passes other faults (sat_completeRecoveredQos1Auto (idle arrival.mid) poised),
          fun _ => passes other faults (hands_rejectPacketIdCollision _ _ _ _)⟩
  · refine looks fun found faults => ?_
    cases found with
    | none => exact passes other faults (sat_onQos2Fresh arrival (by rintro ⟨⟩) poised)
    | some existing => exact passes other faults (sat_onQos2Stored arrival.mid existing.state poised)

end

end Mqttium
