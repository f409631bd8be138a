import Mqttium.Receiving.Releases

/-! Packets and calls of the inbound direction. -/

namespace Mqttium

open Codec Library Packets Persistence Protocol Inbound

section

variable {moves : Engine → Engine → Prop} [Calming moves] {engine : Engine} {mid : Nat} {row : InRow}

theorem inMeta_row {record : InboundRecordMeta} (known : engine.store.inMeta mid = some record) :
    ∃ row, engine.store.inbound.get? mid = some row ∧
      record = { Store.metaOf row.message with mid } := by
  simp only [Store.inMeta, Store.inMessage?, Option.map_map, Option.map_eq_some_iff] at known
  obtain ⟨row, found, rfl⟩ := known
  exact ⟨row, found, rfl⟩

theorem inMeta_missing (unknown : engine.store.inMeta mid = none) :
    engine.store.inbound.get? mid = none := by
  simpa [Store.inMeta, Store.inMessage?] using unknown

/-- No row is found under a free identifier. -/
theorem lookup_free {Value : Type} {next : Option InboundRecordMeta → EngineM Value}
    {returned : Value → Engine → Prop} {raised : Failure → Engine → Prop}
    (reliable : engine.store.Reliable) (absent : engine.store.inbound.get? mid = none)
    (later : Sat (next none) engine returned raised) :
    Sat (lookupStoredInbound mid >>= next) engine returned raised := by
  rw [lookupStoredInbound, sat_bind, sat_bind, sat_get, sat_ite]
  refine ⟨fun _ => later, fun _ => (sat_storeRead reliable).mpr ?_⟩
  simp only [Store.inMeta, Store.inMessage?, absent, Option.map_none]
  exact later

/-- What follows a lookup may rely on the row it found. -/
theorem settles_lookup {Value : Type} {next : Option InboundRecordMeta → EngineM Value}
    (kept : engine.kept)
    (missing : engine.store.inbound.get? mid = none → ∀ between, Scripted engine between →
      between.kept → Settles moves (next none) between)
    (present : ∀ row, engine.store.inbound.get? mid = some row → ∀ between,
      Scripted engine between → between.kept →
      Settles moves (next (some { Store.metaOf row.message with mid })) between) :
    Settles moves (lookupStoredInbound mid >>= next) engine := by
  rw [Settles, sat_bind]
  apply (lookupStoredInbound_sat kept mid).mono
  · rintro record between ⟨scripted, rfl⟩
    have moved : between.kept ∧ moves engine between := scripted.keeps kept
    cases known : engine.store.inMeta mid with
    | none => exact (missing (inMeta_missing known) between scripted moved.1).from moved.2
    | some record =>
      obtain ⟨row, found, rfl⟩ := inMeta_row known
      exact (present row found between scripted moved.1).from moved.2
  · exact fun _ _ failed => failed.1.keeps kept

theorem Scripted.found {between : Engine} (scripted : Scripted engine between) (mid : Nat) :
    between.store.inbound.get? mid = engine.store.inbound.get? mid := by
  obtain ⟨_, _, rfl⟩ := scripted
  rfl

theorem Scripted.config {between : Engine} (scripted : Scripted engine between) :
    between.config = engine.config := by
  obtain ⟨_, _, rfl⟩ := scripted
  rfl

/-! QoS 2 -/

/-- The slot of a stored exchange that does not wait for PUBACK. -/
theorem settles_holdSlot (kept : engine.kept) (outside : mid ∉ engine.store.waiting.map Prod.fst) :
    Settles moves (holdSlot mid) engine := by
  apply (holdSlot_sat engine mid).mono
  · rintro _ _ ⟨flag, rfl⟩
    refine ⟨{ kept with }, Calming.rests ⟨⟨rfl, .refl, id⟩, rfl, rfl, fun name waits here => ?_⟩⟩
    rcases Finset.mem_insert.mp here with rfl | held
    · exact absurd waits outside
    · exact held
  · exact fun _ _ parts => parts.toApart.keeps kept

theorem settles_onQos2Stored (kept : engine.kept)
    (found : engine.store.inbound.get? mid = some row) :
    Settles moves (onQos2Stored mid row.message.state) engine := by
  have answers : Within (Keeps moves) (sendAck (encodePubrecSuccess mid)) := keeps_emit _
  have reject : Within (Keeps moves) (rejectPacketIdCollision mid "QoS 2" "QoS 1" : EngineM PUnit) :=
    beside_disconnecting _ _
  have released : Within (Keeps moves) (do
      protocolDisconnect 0x82
      throw (.protocol s!"QoS 2 PUBLISH for mid={mid} received after PUBREL") : EngineM PUnit) :=
    beside_disconnecting _ _
  simp only [onQos2Stored, Settles, sat_bind, sat_get, sat_ite]
  refine ⟨fun _ => reject.settles kept, fun other => ⟨fun _ => ?_, fun _ =>
    ⟨fun _ => ⟨kept, Std.Refl.refl _⟩, fun _ => ?_⟩⟩⟩
  · rw [← sat_bind]
    exact released.settles kept
  · have holds : Settles moves (holdSlot mid) engine :=
      settles_holdSlot kept (not_waiting found other)
    apply holds.mono
    · exact fun _ _ held => (answers.settles held.1).from held.2
    · exact fun _ _ failed => failed

theorem settles_onQos2Fresh (kept : engine.kept) (arrival : Arrival)
    (absent : engine.store.inbound.get? arrival.mid = none) :
    Settles moves (onQos2Fresh arrival) engine := by
  have delivers (token : Token) : Within (Keeps moves) (do
      sendAck (encodePubrecSuccess arrival.mid)
      let message ← bindAckToken arrival.mid (arrival.message .exactlyOnce)
      emitDelivery message true arrival.propertyWireSize (some token)) :=
    within_bind (keeps_emit _) fun _ => within_bind (keeps_bindAckToken _ _) fun _ =>
      keeps_emitDelivery _ _ _ _
  have reject : Within (Keeps moves)
      (rejectPacketIdCollision arrival.mid "QoS 2" "QoS 2 awaiting PUBCOMP handoff" : EngineM PUnit) :=
    beside_disconnecting _ _
  have pending : Within (Keeps moves) (do
      protocolDisconnect 0x82
      throw (.protocol
        s!"Inbound packet identifier {arrival.mid} reused by QoS 2 while QoS 1 PUBACK is pending") :
        EngineM PUnit) :=
    beside_disconnecting _ _
  simp only [onQos2Fresh, Settles, sat_bind, sat_get, sat_ite]
  refine ⟨fun _ => reject.settles kept, fun _ => ⟨fun _ => ?_, fun _ => ?_⟩⟩
  · rw [← sat_bind]
    exact pending.settles kept
  · apply (admitRow_sat kept arrival .exactlyOnce .waitPubrel).mono
    · rintro token _ ⟨stored, faults, flag, same, phase, positive, _, fine, rfl⟩
      have free : engine.store.inbound.get? stored.mid = none := same ▸ absent
      have plain : decide (stored.state = .waitPuback) = false := by simp [phase]
      have admitted : (engine.with stored faults flag false).kept ∧
          Drifts engine (engine.with stored faults flag false) :=
        plain ▸ Engine.with_kept kept free positive fine
      have rests : Rests engine (engine.with stored faults flag false) := by
        refine ⟨admitted.2, ?_, rfl, fun name waits here => ?_⟩
        · rw [waiting_with free]
          simp [phase]
        · rcases Finset.mem_insert.mp here with rfl | held
          · obtain ⟨row, found, _⟩ := mem_waiting_mids.mp waits
            simp [free] at found
          · exact held
      rw [← sat_bind, ← sat_bind]
      exact ((delivers token).settles admitted.1).from (Calming.rests rests)
    · exact fun _ _ failed => ⟨failed.1, Calming.rests failed.2⟩

theorem keeps_onQos2 (arrival : Arrival) : Within (Keeps moves) (onQos2 arrival) := by
  refine keeps_of_settles fun engine kept => settles_lookup kept ?_ ?_
  · exact fun absent between scripted still =>
      settles_onQos2Fresh still arrival ((scripted.found _).trans absent)
  · exact fun row found between scripted still =>
      settles_onQos2Stored still ((scripted.found _).trans found)

/-! PUBREL and delivery marks -/

/-- Without manual acknowledgement a stored exchange may wait for its delivery mark. -/
theorem settles_await {state : InboundQoSState} (kept : engine.kept)
    (auto : engine.config.manualAck = false)
    (found : engine.store.inbound.get? mid = some row) :
    Settles moves (modifyInbound fun inbound =>
      { inbound with pendingCompletions := inbound.pendingCompletions.insert mid state }) engine := by
  refine ⟨{ kept with completions := fun name member => ?_ }, Calming.rests
    ⟨⟨rfl, .refl, id⟩, rfl, rfl, fun _ _ => id⟩⟩
  refine ⟨auto, ?_⟩
  rw [Dict.mem_keys_insert] at member
  rcases member with rfl | old
  · exact Dict.mem_keys_of_get? found
  · exact (kept.completions name old).2

theorem settles_onPubrelStored (kept : engine.kept)
    (found : engine.store.inbound.get? mid = some row) :
    Settles moves (onPubrelStored mid { Store.metaOf row.message with mid }) engine := by
  simp only [onPubrelStored, Settles, sat_bind, sat_get, sat_ite]
  refine ⟨fun _ => ⟨kept, Std.Refl.refl _⟩, fun early => ⟨fun _ => ⟨kept, Std.Refl.refl _⟩,
    fun phases => ⟨fun _ => ?_, fun unasked => ⟨fun unowned => ?_, fun _ => ?_⟩⟩⟩⟩
  · have advances : Within (Keeps moves)
        (transitionRow mid .waitPubrel .waitUserAck) := keeps_transitionRow none (by rintro ⟨⟩) (by rintro ⟨⟩)
    apply (advances.settles kept).mono
    · intro changed after done
      cases changed with
      | some _ => exact done
      | none => exact done
    · exact fun _ _ failed => failed
  · apply settles_await kept ?_ found
    rw [Bool.eq_false_iff]
    intro manual
    by_cases asked : row.message.state = .waitUserAck
    · exact early ⟨asked, manual⟩
    · have releasing : row.message.state = .waitPubrel := by
        by_contra other
        exact phases ⟨asked, other⟩
      exact unasked ⟨releasing, manual, unowned.2⟩
  · have other : row.message.state ≠ .waitPuback := by
      intro waits
      exact phases ⟨by simp [Store.metaOf, waits], by simp [Store.metaOf, waits]⟩
    have completes : Within (Keeps moves) (completeQos2 mid row.message.state) :=
      keeps_completeQos2 other _
    exact completes.settles kept

theorem keeps_onPubrel (raw : RawPacket) : Within (Keeps moves) (onPubrel raw) := by
  refine within_bind within_get fun _ => within_bind within_fromExcept fun fields => ?_
  obtain ⟨mid, reasonCode, properties⟩ := fields
  refine within_bind (beside_validateAckProperties _ _) fun _ =>
    keeps_of_settles fun engine kept => settles_lookup kept ?_ ?_
  · intro _ between _ still
    have answers : Within (Keeps moves) (sendAck (encodePubcompSuccess mid)) := keeps_emit _
    exact answers.settles still
  · exact fun row found between scripted still =>
      settles_onPubrelStored still ((scripted.found _).trans found)

theorem sheds_completion (inbound : InboundSession) (mid : Nat) :
    Sheds inbound { inbound with pendingCompletions := inbound.pendingCompletions.erase mid } :=
  ⟨rfl, rfl, rfl, rfl, rfl, fun _ => id, fun _ => id,
    fun _ member => (Dict.mem_keys_erase.mp member).1⟩

/-- In manual acknowledgement a delivery mark changes its row only. -/
theorem settles_markDelivered_manual (kept : engine.kept) (manual : engine.config.manualAck = true)
    (mid : Nat) (token : Option Token) : Settles moves (markDelivered mid token) engine := by
  have sheds := sheds_completion engine.inbound mid
  have rests : Rests engine _ := sheds.rests rfl
  have none : engine.inbound.pendingCompletions.get? mid = .none := by
    rw [Dict.get?_eq_none_iff]
    intro member
    simpa [manual] using (kept.completions mid member).1
  have still : Engine.kept { engine with inbound := { engine.inbound with
      pendingCompletions := engine.inbound.pendingCompletions.erase mid } } := Kept.sheds kept sheds
  have marks : Within (Keeps moves) (markRowDelivered mid) := keeps_markRowDelivered mid
  simp only [markDelivered, Settles, sat_bind, sat_get, sat_ite, sat_modifyInbound, none, sat_onlyIf]
  exact ⟨fun _ => ⟨kept, Std.Refl.refl _⟩, fun _ =>
    ⟨fun _ => (marks.settles still).from (Calming.rests rests),
      fun _ => ⟨still, Calming.rests rests⟩⟩⟩

end

/-! Connection boundaries -/

section

variable {moves : Engine → Engine → Prop} [Yielding moves]

theorem keeps_startConnection (receiveMaximum topicAliasMaximum : Nat) :
    Within (Keeps moves) (startConnection receiveMaximum topicAliasMaximum) :=
  keeps_give fun _ => ⟨rfl, rfl, rfl, rfl, rfl, by simp, by simp, fun _ => id⟩

theorem keeps_releasePendingAcks : Within (Keeps moves) releasePendingAcks :=
  keeps_give fun _ => ⟨rfl, rfl, rfl, rfl, rfl, fun _ => id, fun _ => id, fun _ => id⟩

theorem keeps_transportClosed : Within (Keeps moves) transportClosed :=
  within_bind (keeps_give fun _ => ⟨rfl, rfl, rfl, rfl, rfl, by simp, by simp, by simp⟩) fun _ =>
    within_bind keeps_releasePendingAcks fun _ =>
    keeps_give fun _ => ⟨rfl, rfl, rfl, rfl, rfl, fun _ => id, fun _ => id, fun _ => id⟩

/-- What `discardSession` leaves. -/
def Protocol.InboundSession.discarded (inbound : InboundSession) : InboundSession :=
  { inbound with
    recoveredMids := ∅
    replay := none
    currentPersistedMids := ∅
    exchangeTokens := .empty
    pendingCompletions := .empty
    pendingBytes := 0
    storedInbound := 0
    autoackHandoffRequired := false
    pendingAutoQos1Mids := ∅
    pendingPubcomps := ∅
    pendingPubcompSlots := 0
    pendingManualQos1Acks := ∅
    manualQos1Order := [] }

theorem keeps_discardSession : Within (Keeps moves) discardSession := by
  refine keeps_of_settles fun engine kept => ?_
  simp only [discardSession, Settles, sat_bind]
  apply sat_storeCall_atomic kept.atomic
  · intro faults fine
    have discarded : Kept engine.config.manualAck (Store.clearIn { engine.store with faults })
        engine.inbound.discarded ∧ Leases.Move engine.exchanges
          (exchanges (Store.clearIn { engine.store with faults }) engine.inbound.discarded) :=
      (Kept.faults kept fine).discard rfl rfl rfl rfl rfl rfl rfl
    obtain ⟨cleared, move⟩ := discarded
    refine ⟨cleared, Yielding.shrinks ⟨⟨rfl, .single move, fine.reliable⟩, ?_, ?_, ?_⟩⟩
    · simp [Store.waiting, Store.clearIn, Dict.empty]
    · simp
    · simp
  · intro faults fine _
    have scripted : Scripted engine { engine with store := { engine.store with faults } } :=
      ⟨faults, fine, rfl⟩
    exact scripted.keeps kept

end

end Mqttium
