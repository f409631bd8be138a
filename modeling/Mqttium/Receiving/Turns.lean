import Mqttium.Receiving.Packets

/-! Manual acknowledgement of QoS 1: what an arriving PUBLISH and an acknowledgement
of the application do to the exchanges that wait for PUBACK. -/

namespace Mqttium

open Codec Library Packets Persistence Protocol Inbound

instance (allowed : WriteItem → Prop) : Onlooker (Adds allowed) where
  unsent still := by
    obtain ⟨fresh, grown, unsent⟩ := still.quiet.effects
    exact ⟨fresh, grown, fun effect member item shown => by
      simp [(unsent effect member).frame] at shown⟩
  store call run _ engine := by
    simp only [storeCall, sat_bind, sat_get]
    split <;> exact adds_nothing rfl
  endSubs _ := sat_releasePendingSubscriptionRequests fun _ _ => adds_nothing rfl

abbrev NoPuback (item : WriteItem) : Prop := ¬ IsPuback item

theorem adds_emit {allowed : WriteItem → Prop} {effect : Effect}
    (fine : ∀ item, effect.frame? = some item → allowed item) : Within (Adds allowed) (emit effect) :=
  fun _ => ⟨[effect], rfl, by simpa using fine⟩

theorem adds_code {item : WriteItem} {packetType : PacketType}
    (coded : frameCode item.header = some packetType.code) (other : packetType ≠ .puback) :
    NoPuback item := by
  rw [NoPuback, IsPuback, coded]
  cases packetType <;> simp_all [PacketType.code]

instance : Answering (Adds NoPuback) where
  answer {frame} coded := adds_emit fun item shown => by
    cases shown
    rcases coded with received | completed
    · exact adds_code received (by decide)
    · exact adds_code completed (by decide)

theorem Parts.adds {before after : Engine} (parts : Parts before after) :
    Adds NoPuback before after := by
  obtain ⟨fresh, grown, fine⟩ := parts.effects
  exact ⟨fresh, grown, fun effect member item shown =>
    adds_code ((fine effect member).2 item shown) (by decide)⟩

instance : Parting (Adds NoPuback) (Adds NoPuback) where
  goodbye reasonCode engine := (parts_protocolDisconnect engine reasonCode).mono
    (fun _ _ parts => parts.adds) (fun _ _ parts => parts.adds)

/-- The frame of a PUBACK. -/
def pubackFrame (mid : Nat) : WriteItem := .contiguous (encodePubackSuccess mid)

/-- A step of manual acknowledgement. It announces the exchange of `announced` on this
connection and takes the acknowledgement of `accepted`; the exchanges `done` leave
from the head of the arrival order with a PUBACK each, and new ones come to its end. -/
structure Turns (announced accepted : Option Nat) (done : List (Nat × Nat))
    (before after : Engine) : Prop extends Drifts before after where
  waiting : ∃ rest fresh, before.store.waiting = done ++ rest ∧
    after.store.waiting = rest ++ fresh ∧
    ∀ entry ∈ fresh, some entry.1 = announced ∧ before.store.inSeq < entry.2
  ready : ∀ entry ∈ done,
    (entry.1 ∈ before.inbound.pendingManualQos1Acks ∨ some entry.1 = accepted) ∧
      (entry.1 ∈ before.inbound.currentPersistedMids ∨ some entry.1 = announced)
  acked : ∀ name, name ∈ after.inbound.pendingManualQos1Acks ↔
    (name ∈ before.inbound.pendingManualQos1Acks ∨ some name = accepted) ∧ name ∉ done.map Prod.fst
  current : ∀ name ∈ after.store.waiting.map Prod.fst, name ∈ after.inbound.currentPersistedMids →
    name ∈ before.inbound.currentPersistedMids ∨ some name = announced
  effects : ∃ fresh, after.effects = before.effects ++ fresh ∧
    (fresh.filterMap Effect.frame?).filter IsPuback = done.map (fun entry => pubackFrame entry.1) ∧
    ∀ mid ∈ announced, mid ∈ before.inbound.pendingManualQos1Acks →
      ∀ effect ∈ fresh, ¬ effect.Delivers

section

variable {engine before between after : Engine} {announced accepted : Option Nat} {mid : Nat}
  {row : InRow} {done : List (Nat × Nat)}

theorem isPuback_pubackFrame (mid : Nat) : IsPuback (pubackFrame mid) :=
  frameCode_encodePubackSuccess mid

theorem frames_no_puback {fresh : List Effect}
    (fine : ∀ effect ∈ fresh, ∀ item, effect.frame? = some item → NoPuback item) :
    (fresh.filterMap Effect.frame?).filter IsPuback = [] := by
  apply List.filter_eq_nil_iff.mpr
  intro item member
  simpa using frames_allowed fine item member

/-- A step at rest that sends no PUBACK. -/
theorem Rests.turns (rests : Rests before after) (adds : Adds NoPuback before after)
    (unaccepted : ∀ mid ∈ announced, mid ∉ before.inbound.pendingManualQos1Acks) :
    Turns announced none [] before after where
  toDrifts := rests.toDrifts
  waiting := ⟨before.store.waiting, [], rfl, by simp [rests.waiting], by simp⟩
  ready := by simp
  acked name := by simp [rests.acked]
  current name waits here := .inl (rests.current name (rests.waiting ▸ waits) here)
  effects := by
    obtain ⟨fresh, grown, fine⟩ := adds
    exact ⟨fresh, grown, frames_no_puback fine, fun mid named acked => absurd acked (unaccepted mid named)⟩

theorem pubacks_of_done (done : List (Nat × Nat)) :
    ((done.map fun entry => Effect.sendAck (encodePubackSuccess entry.1)).filterMap
      Effect.frame?).filter IsPuback = done.map fun entry => pubackFrame entry.1 := by
  induction done with
  | nil => rfl
  | cons entry rest ih =>
    have first : IsPuback (.contiguous (encodePubackSuccess entry.1)) := isPuback_pubackFrame entry.1
    simp only [List.map_cons, List.filterMap_cons, Effect.frame?, List.filter_cons, first,
      decide_true, ↓reduceIte, ih]
    rfl

theorem Drained.delivers_nothing (drained : Drained done before after) :
    ∃ fresh, after.effects = before.effects ++ fresh ∧
      (fresh.filterMap Effect.frame?).filter IsPuback = done.map (fun entry => pubackFrame entry.1) ∧
      ∀ effect ∈ fresh, ¬ effect.Delivers := by
  refine ⟨_, drained.effects, pubacks_of_done done, fun effect member => ?_⟩
  obtain ⟨entry, _, rfl⟩ := List.mem_map.mp member
  exact id

/-- The engine after the slot of a stored exchange was taken. -/
def Protocol.Engine.holding (engine : Engine) (mid : Nat) (flag : Bool) : Engine :=
  { engine with inbound := { engine.inbound with
    autoackHandoffRequired := flag
    currentPersistedMids := insert mid engine.inbound.currentPersistedMids } }

/-- Announcing a stored exchange, before anything is sent. -/
theorem Drained.announcing {flag : Bool} (drained : Drained done (engine.holding mid flag) after) :
    Turns (some mid) none done engine after where
  config := drained.config
  steps := drained.steps
  reliable := drained.reliable
  waiting := ⟨after.store.waiting, [], drained.waiting, by simp, by simp⟩
  ready entry member := by
    obtain ⟨acked, here⟩ := drained.ready entry member
    refine ⟨.inl acked, ?_⟩
    rcases Finset.mem_insert.mp here with same | held
    · exact .inr (by rw [same])
    · exact .inl held
  acked name := by simpa [Engine.holding] using drained.acked name
  current name _ here := by
    rcases Finset.mem_insert.mp (drained.current name here) with same | held
    · exact .inr (by rw [same])
    · exact .inl held
  effects := by
    obtain ⟨fresh, grown, pubacks, silent⟩ := drained.delivers_nothing
    exact ⟨fresh, grown, pubacks, fun _ _ _ => silent⟩

/-- An exchange of `mid` that the application has not acknowledged is surfaced again. -/
theorem Rests.announcing {flag : Bool} (rests : Rests (engine.holding mid flag) after)
    (adds : Adds NoPuback engine after) (unacked : mid ∉ engine.inbound.pendingManualQos1Acks) :
    Turns (some mid) none [] engine after where
  config := rests.config
  steps := rests.steps
  reliable := rests.reliable
  waiting := ⟨after.store.waiting, [], rests.waiting.symm, by simp, by simp⟩
  ready := by simp
  acked name := by simp [rests.acked, Engine.holding]
  current name waits here := by
    have stays := rests.current name (rests.waiting ▸ waits) here
    rcases Finset.mem_insert.mp stays with same | held
    · exact .inr (by rw [same])
    · exact .inl held
  effects := by
    obtain ⟨fresh, grown, fine⟩ := adds
    refine ⟨fresh, grown, frames_no_puback fine, fun name named acked => ?_⟩
    cases named
    exact absurd acked unacked

/-- A step that leaves the inbound direction alone and delivers nothing. -/
theorem Parts.turns (parts : Parts engine after) : Turns announced none [] engine after where
  toDrifts := parts.rests.toDrifts
  waiting := ⟨engine.store.waiting, [], rfl, by simp [parts.waiting], by simp⟩
  ready := by simp
  acked name := by simp [parts.inbound]
  current name waits here := .inl (parts.rests.current name (parts.waiting ▸ waits) here)
  effects := by
    obtain ⟨fresh, grown, fine⟩ := parts.effects
    refine ⟨fresh, grown, frames_no_puback fun effect member item shown => ?_,
      fun _ _ _ effect member => (fine effect member).1⟩
    exact adds_code ((fine effect member).2 item shown) (by decide)

/-- A new exchange of `mid` comes to the end of the arrival order. -/
theorem Rests.admitting {stored : InboundMessage} {faults : StoreCall → List (Option Fault)}
    {flag : Bool} (kept : engine.kept) (absent : engine.store.inbound.get? stored.mid = none)
    (phase : stored.state = .waitPuback)
    (drifts : Drifts engine (engine.with stored faults flag true))
    (rests : Rests (engine.with stored faults flag true) after)
    (adds : Adds NoPuback engine after) : Turns (some stored.mid) none [] engine after where
  toDrifts := drifts.trans rests.toDrifts
  waiting := ⟨engine.store.waiting, [(stored.mid, engine.store.inSeq + 1)], rfl, by
    rw [rests.waiting, waiting_with absent]
    simp [phase], by simp⟩
  ready := by simp
  acked name := by simp [rests.acked, Engine.with, InboundSession.admitted]
  current name waits here := by
    have stays := rests.current name (rests.waiting ▸ waits) here
    rcases Finset.mem_insert.mp stays with same | held
    · exact .inr (by rw [same])
    · exact .inl held
  effects := by
    obtain ⟨fresh, grown, fine⟩ := adds
    refine ⟨fresh, grown, frames_no_puback fine, fun name named acked => ?_⟩
    cases named
    obtain ⟨row, found, _⟩ := mem_waiting_mids.mp (kept.acked _ acked).2
    simp [absent] at found

/-! A QoS 1 PUBLISH -/

/-- What a call may do to the manual acknowledgements. -/
def TurnsAt (announced accepted : Option Nat) (before after : Engine) : Prop :=
  after.kept ∧ ∃ done, Turns announced accepted done before after

/-- A call that stays at rest and sends no PUBACK. -/
theorem turnsAt_calm {Value : Type} {program : EngineM Value} {flag : Bool}
    (rests : Within (Keeps Rests) program) (adds : Within (Adds NoPuback) program)
    (held : (engine.holding mid flag).kept) (unacked : mid ∉ engine.inbound.pendingManualQos1Acks) :
    Sat program (engine.holding mid flag) (fun _ => TurnsAt (some mid) none engine)
      (fun _ => TurnsAt (some mid) none engine) := by
  apply ((rests.settles held).and (adds _)).mono
  · exact fun _ _ ⟨⟨left, moved⟩, spoken⟩ => ⟨left, [], moved.announcing spoken unacked⟩
  · exact fun _ _ ⟨⟨left, moved⟩, spoken⟩ => ⟨left, [], moved.announcing spoken unacked⟩

theorem onQos1ManualStored_sat (kept : engine.kept) (manual : engine.config.manualAck = true)
    (mid : Nat) :
    Sat (onQos1ManualStored mid) engine (fun _ => TurnsAt (some mid) none engine)
      (fun _ => TurnsAt (some mid) none engine) := by
  simp only [onQos1ManualStored, sat_bind, sat_get]
  apply (holdSlot_sat engine mid).mono
  · rintro _ _ ⟨flag, rfl⟩
    change Sat _ (engine.holding mid flag) _ _
    have held : (engine.holding mid flag).kept := { kept with }
    rw [sat_ite]
    refine ⟨fun _ => ?_, fun unacked => ?_⟩
    · apply (drainManualQos1Acks_sat held manual).mono
      · rintro _ _ ⟨left, done, drained⟩
        exact ⟨left, done, drained.announcing⟩
      · rintro _ _ ⟨⟨left, done, drained⟩, _⟩
        exact ⟨left, done, drained.announcing⟩
    · refine turnsAt_calm (within_bind beside_storeRead fun stored => ?_)
        (within_bind beside_storeRead fun stored => ?_) held unacked
      · cases stored with
        | some stored => exact keeps_emitMessage _ _
        | none =>
          refine within_bind (within_onlyIf (keeps_adjust (fun _ => ?_) fun _ => rfl)) fun _ =>
            within_throw _
          exact ⟨rfl, rfl, rfl, rfl, rfl, fun _ => Finset.mem_of_mem_erase, fun _ => id, fun _ => id⟩
      · cases stored with
        | some stored => exact beside_emitMessage _ _
        | none => exact within_bind (within_onlyIf beside_modifyInbound) fun _ => within_throw _
  · intro _ after parts
    exact ⟨parts.toApart.kept kept, [], parts.turns⟩

theorem onQos1ManualFresh_sat (kept : engine.kept)
    (arrival : Arrival) (absent : engine.store.inbound.get? arrival.mid = none) :
    Sat (onQos1ManualFresh arrival) engine (fun _ => TurnsAt (some arrival.mid) none engine)
      (fun _ => TurnsAt (some arrival.mid) none engine) := by
  have speaks : Within (Adds NoPuback) (onQos1ManualFresh arrival) := beside_onQos1ManualFresh arrival
  have unacked : arrival.mid ∉ engine.inbound.pendingManualQos1Acks := fun acked => by
    obtain ⟨row, found, _⟩ := mem_waiting_mids.mp (kept.acked _ acked).2
    simp [absent] at found
  have admits : Sat (onQos1ManualFresh arrival) engine
      (fun _ after => Adds NoPuback engine after → TurnsAt (some arrival.mid) none engine after)
      (fun _ after => Adds NoPuback engine after → TurnsAt (some arrival.mid) none engine after) := by
    simp only [onQos1ManualFresh, sat_bind, sat_get, sat_ite]
    refine ⟨fun _ => ?_, fun _ => ?_⟩
    · simp only [rejectPacketIdCollision, sat_bind]
      apply (parts_protocolDisconnect engine 0x82).mono
      · exact fun _ _ parts _ => ⟨parts.toApart.kept kept, [], parts.turns⟩
      · exact fun _ _ parts _ => ⟨parts.toApart.kept kept, [], parts.turns⟩
    · apply (admitRow_sat kept arrival .atLeastOnce .waitPuback).mono
      · rintro token _ ⟨stored, faults, flag, same, phase, positive, _, fine, rfl⟩
        have free : engine.store.inbound.get? stored.mid = none := same ▸ absent
        have waits : decide (stored.state = .waitPuback) = true := by simp [phase]
        have admitted : (engine.with stored faults flag true).kept ∧
            Drifts engine (engine.with stored faults flag true) :=
          waits ▸ Engine.with_kept kept free positive fine
        have delivers : Within (Keeps Rests) (do
            let message ← bindAckToken stored.mid (arrival.message .atLeastOnce)
            emitDelivery message true arrival.propertyWireSize (some token)) :=
          within_bind (keeps_bindAckToken _ _) fun _ => keeps_emitDelivery _ _ _ _
        rw [sat_modifyInbound, ← sat_bind, ← same]
        change Sat _ (engine.with stored faults flag true) _ _
        apply (delivers.settles admitted.1).mono
        · rintro _ _ ⟨left, moved⟩ adds
          exact ⟨left, [], moved.admitting kept free phase admitted.2 adds⟩
        · rintro _ _ ⟨left, moved⟩ adds
          exact ⟨left, [], moved.admitting kept free phase admitted.2 adds⟩
      · rintro _ _ ⟨left, moved⟩ adds
        refine ⟨left, [], moved.turns adds fun name named => ?_⟩
        cases named
        exact unacked
  apply (admits.and (speaks engine)).mono
  · exact fun _ _ done => done.1 done.2
  · exact fun _ _ done => done.1 done.2

theorem Scripted.parts (scripted : Scripted before after) : Parts before after := by
  have apart := scripted.apart
  obtain ⟨faults, fine, rfl⟩ := scripted
  exact ⟨apart, [], by simp, by simp⟩

theorem Scripted.turnsAt (scripted : Scripted before between)
    (turns : TurnsAt announced accepted between after) : TurnsAt announced accepted before after := by
  obtain ⟨faults, fine, rfl⟩ := scripted
  obtain ⟨kept, done, turns⟩ := turns
  exact ⟨kept, done, { turns with reliable := fun reliable => turns.reliable (fine.reliable reliable) }⟩

theorem onQos1Manual_sat (kept : engine.kept) (manual : engine.config.manualAck = true)
    (arrival : Arrival) :
    Sat (onQos1Manual arrival) engine (fun _ => TurnsAt (some arrival.mid) none engine)
      (fun _ => TurnsAt (some arrival.mid) none engine) := by
  rw [onQos1Manual, sat_bind]
  apply (lookupStoredInbound_sat kept arrival.mid).mono
  · rintro record between ⟨scripted, rfl⟩
    have still := scripted.apart.kept kept
    have same : between.config.manualAck = true := by rw [scripted.config, manual]
    cases known : engine.store.inMeta arrival.mid with
    | none =>
      have absent := (scripted.found _).trans (inMeta_missing known)
      apply (onQos1ManualFresh_sat still arrival absent).mono
      · exact fun _ _ turns => scripted.turnsAt turns
      · exact fun _ _ turns => scripted.turnsAt turns
    | some record =>
      rw [sat_ite]
      refine ⟨fun _ => ?_, fun _ => ?_⟩
      · apply (onQos1ManualStored_sat still same arrival.mid).mono
        · exact fun _ _ turns => scripted.turnsAt turns
        · exact fun _ _ turns => scripted.turnsAt turns
      · simp only [rejectPacketIdCollision, sat_bind]
        apply (parts_protocolDisconnect between 0x82).mono
        · exact fun _ _ parts => scripted.turnsAt ⟨parts.toApart.kept still, [], parts.turns⟩
        · exact fun _ _ parts => scripted.turnsAt ⟨parts.toApart.kept still, [], parts.turns⟩
  · rintro _ after ⟨scripted, _⟩
    exact ⟨scripted.apart.kept kept, [], scripted.parts.turns⟩

/-! An acknowledgement of the application -/

/-- The engine after the application acknowledged `mid`. -/
def Protocol.Engine.accepting (engine : Engine) (mid : Nat) : Engine :=
  { engine with inbound := { engine.inbound with
    pendingManualQos1Acks := insert mid engine.inbound.pendingManualQos1Acks } }

theorem accepting_kept (kept : engine.kept) (manual : engine.config.manualAck = true)
    (waits : mid ∈ engine.store.waiting.map Prod.fst) : (engine.accepting mid).kept := by
  refine { kept with acked := fun name member => ?_ }
  rcases Finset.mem_insert.mp member with rfl | old
  · exact ⟨manual, waits⟩
  · exact kept.acked name old

theorem Drained.accepting (drained : Drained done (engine.accepting mid) after) :
    Turns none (some mid) done engine after where
  config := drained.config
  steps := drained.steps
  reliable := drained.reliable
  waiting := ⟨after.store.waiting, [], drained.waiting, by simp, by simp⟩
  ready entry member := by
    obtain ⟨acked, here⟩ := drained.ready entry member
    refine ⟨?_, .inl here⟩
    rcases Finset.mem_insert.mp acked with same | old
    · exact .inr (by rw [same])
    · exact .inl old
  acked name := by
    rw [drained.acked, Engine.accepting, Finset.mem_insert, Option.some_inj, or_comm]
  current name _ here := .inl (drained.current name here)
  effects := by
    obtain ⟨fresh, grown, pubacks, silent⟩ := drained.delivers_nothing
    exact ⟨fresh, grown, pubacks, fun _ _ _ => silent⟩

/-- The waiting exchange that an acknowledgement of `mid` is for. -/
def Protocol.Engine.awaited (engine : Engine) (mid : Nat) : Option Nat :=
  if mid ∈ engine.store.waiting.map Prod.fst then some mid else none

theorem ack_sat (kept : engine.kept) (mid : Nat) (message : Option Message) :
    Sat (Inbound.ack mid message) engine (fun _ => TurnsAt none (engine.awaited mid) engine)
      (fun _ after => engine.store.Reliable → TurnsAt none none engine after) := by
  have still : TurnsAt none none engine engine :=
    ⟨kept, [], (Std.Refl.refl engine : Rests engine engine).turns (Std.Refl.refl _) (by simp)⟩
  simp only [Inbound.ack, sat_bind, sat_get, sat_raiseIf]
  refine ⟨fun _ _ => still, fun manual => ⟨fun _ _ => still, fun _ => ?_⟩⟩
  have manual : engine.config.manualAck = true := by simpa using manual
  apply (lookupStoredInbound_sat kept mid).mono
  · rintro record between ⟨scripted, rfl⟩
    have moved : between.kept ∧ Rests engine between := scripted.keeps kept
    cases known : engine.store.inMeta mid with
    | none => exact fun _ => ⟨moved.1, [], scripted.parts.turns⟩
    | some record =>
      obtain ⟨row, found, rfl⟩ := inMeta_row known
      have calm {Value : Type} {program : EngineM Value} (other : row.message.state ≠ .waitPuback)
          (rests : Within (Keeps Rests) program) (adds : Within (Adds NoPuback) program) :
          Sat program between (fun _ => TurnsAt none (engine.awaited mid) engine)
            (fun _ after => engine.store.Reliable → TurnsAt none none engine after) := by
        rw [Engine.awaited, if_neg (not_waiting found other)]
        apply ((rests.settles moved.1).and (adds between)).mono
        · rintro _ _ ⟨⟨left, rests⟩, adds⟩
          exact scripted.turnsAt ⟨left, [], rests.turns adds (by simp)⟩
        · rintro _ _ ⟨⟨left, rests⟩, adds⟩ _
          exact scripted.turnsAt ⟨left, [], rests.turns adds (by simp)⟩
      cases phase : row.message.state with
      | waitPubrel =>
        simp only [Store.metaOf, phase]
        refine calm (by simp [phase])
          (within_bind (keeps_transitionRow (some true) (by simp) (by simp)) fun changed => ?_)
          (within_bind (beside_transitionRow _ _ _ _) fun changed => ?_)
        · cases changed with
          | some _ => exact within_pure _
          | none => exact within_throw _
        · cases changed with
          | some _ => exact within_pure _
          | none => exact within_throw _
      | waitPuback =>
        have waits : mid ∈ engine.store.waiting.map Prod.fst :=
          mem_waiting_mids.mpr ⟨row, found, phase⟩
        simp only [Store.metaOf, phase]
        rw [sat_bind]
        refine sat_checkOutboundSize ?_ fun _ _ => ⟨moved.1, [], scripted.parts.turns⟩
        have same : between.config.manualAck = true := by rw [scripted.config, manual]
        have accepted : (between.accepting mid).kept :=
          accepting_kept moved.1 same (moved.2.waiting ▸ waits)
        rw [sat_bind, sat_modifyInbound, Engine.awaited, if_pos waits]
        apply (drainManualQos1Acks_sat accepted same).mono
        · rintro _ _ ⟨left, done, drained⟩
          exact scripted.turnsAt ⟨left, done, drained.accepting⟩
        · rintro _ _ ⟨_, unreliable⟩ reliable
          exact absurd (moved.2.reliable reliable) unreliable
      | waitUserAck =>
        simp only [Store.metaOf, phase]
        exact calm (by simp [phase])
          (within_bind beside_checkOutboundSize fun _ => keeps_completeQos2 (by simp) _)
          (within_bind beside_checkOutboundSize fun _ => beside_completeQos2 _ _ _)
      | done =>
        simp only [Store.metaOf, phase]
        exact calm (by simp [phase]) (within_throw _) (within_throw _)
  · rintro _ after ⟨scripted, unreliable⟩ reliable
    exact absurd reliable unreliable

end

end Mqttium
