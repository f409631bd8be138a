import Mqttium.Receiving.Handlers

/-! Manual acknowledgements leave from the head of the arrival order. -/

namespace Mqttium

open Codec Library Packets Persistence Protocol Inbound

/-- The exchanges `done` left from the head of the order with a PUBACK each; all were
announced on this connection and acknowledged. -/
structure Drained (done : List (Nat × Nat)) (before after : Engine) : Prop
    extends Drifts before after where
  waiting : before.store.waiting = done ++ after.store.waiting
  ready : ∀ entry ∈ done, entry.1 ∈ before.inbound.pendingManualQos1Acks ∧
    entry.1 ∈ before.inbound.currentPersistedMids
  effects : after.effects =
    before.effects ++ done.map fun entry => .sendAck (encodePubackSuccess entry.1)
  acked : ∀ mid, mid ∈ after.inbound.pendingManualQos1Acks ↔
    mid ∈ before.inbound.pendingManualQos1Acks ∧ mid ∉ done.map Prod.fst
  current : ∀ mid ∈ after.inbound.currentPersistedMids, mid ∈ before.inbound.currentPersistedMids
  others : ∀ mid ∉ done.map Prod.fst,
    after.store.inbound.get? mid = before.store.inbound.get? mid ∧
      after.inbound.exchangeTokens.get? mid = before.inbound.exchangeTokens.get? mid
  state : after.state = before.state

section

variable {engine before between after : Engine} {done more : List (Nat × Nat)}

theorem Drained.refl (engine : Engine) : Drained [] engine engine where
  toDrifts := Std.Refl.refl _
  waiting := rfl
  ready := by simp
  effects := by simp
  acked := by simp
  current _ := id
  others := by simp
  state := rfl

theorem Drained.trans (first : Drained done before between) (second : Drained more between after) :
    Drained (done ++ more) before after where
  toDrifts := first.toDrifts.trans second.toDrifts
  waiting := by rw [first.waiting, second.waiting, List.append_assoc]
  ready entry member := by
    rcases List.mem_append.mp member with early | late
    · exact first.ready entry early
    · obtain ⟨acked, here⟩ := second.ready entry late
      exact ⟨((first.acked _).mp acked).1, first.current _ here⟩
  effects := by rw [second.effects, first.effects, List.map_append, List.append_assoc]
  acked mid := by
    rw [second.acked, first.acked, List.map_append, List.mem_append, not_or, and_assoc]
  current mid here := first.current mid (second.current mid here)
  others mid outside := by
    rw [List.map_append, List.mem_append, not_or] at outside
    have early := first.others mid outside.1
    have late := second.others mid outside.2
    exact ⟨late.1.trans early.1, late.2.trans early.2⟩
  state := second.state.trans first.state

theorem Scripted.drained (scripted : Scripted before after) : Drained [] before after := by
  obtain ⟨faults, fine, rfl⟩ := scripted
  exact { Drained.refl before with reliable := fine.reliable }

/-- The engine after the head of the order was released. -/
def Protocol.Engine.released (engine : Engine) (mid : Nat) (faults : StoreCall → List (Option Fault))
    (inbound : InboundSession) : Engine :=
  engine.without mid faults
    { inbound with
      manualQos1Order := inbound.manualQos1Order.tail
      pendingManualQos1Acks := inbound.pendingManualQos1Acks.erase mid }
    (engine.effects ++ [.sendAck (encodePubackSuccess mid)])

theorem filter_head {mid number : Nat} {rest : List (Nat × Nat)}
    (nodup : (((mid, number) :: rest).map Prod.fst).Nodup) :
    ((mid, number) :: rest).filter (fun entry => entry.1 ≠ mid) = rest := by
  rw [List.filter_cons_of_neg (by simp)]
  apply List.filter_eq_self.mpr
  intro entry member
  have different : entry.1 ≠ mid := by
    rintro rfl
    simp only [List.map_cons, List.nodup_cons] at nodup
    exact nodup.1 (List.mem_map_of_mem member)
  simpa using different

/-- Releasing the head. -/
theorem released_drained {mid number : Nat} {rest : List (Nat × Nat)} {row : InRow}
    {faults : StoreCall → List (Option Fault)} {inbound : InboundSession} (kept : engine.kept)
    (manual : engine.config.manualAck = true) (head : engine.store.waiting = (mid, number) :: rest)
    (found : engine.store.inbound.get? mid = some row) (fine : engine.store.Leaves faults)
    (acked : mid ∈ engine.inbound.pendingManualQos1Acks)
    (here : mid ∈ engine.inbound.currentPersistedMids)
    (frees : Frees mid row.message.logicalSize engine.inbound inbound) :
    (engine.released mid faults inbound).kept ∧
      Drained [(mid, number)] engine (engine.released mid faults inbound) := by
  have nodup : (engine.store.waiting.map Prod.fst).Nodup := waiting_nodup
  rw [head] at nodup
  have order := kept.order manual
  have retires : Retires engine.config.manualAck mid row.message.logicalSize engine.inbound
      { inbound with
        manualQos1Order := inbound.manualQos1Order.tail
        pendingManualQos1Acks := inbound.pendingManualQos1Acks.erase mid } := by
    refine ⟨frees.count, frees.bytes, frees.tokens, frees.next, frees.completions, ?_, fun _ => ?_⟩
    · rw [frees.acked]
    · have names : (((mid, number) :: rest).map Prod.fst).filter (· ≠ mid) = rest.map Prod.fst := by
        rw [List.filter_map]
        exact congrArg (List.map Prod.fst) (filter_head nodup)
      rw [frees.order, order, head, names]
      rfl
  obtain ⟨left, drifts⟩ := retires.drifts kept found fine
  refine ⟨left, drifts, ?_, ?_, rfl, ?_, ?_, ?_, rfl⟩
  · have erased : Store.waiting
        { engine.store with faults, inbound := engine.store.inbound.erase mid } = rest := by
      have same : Store.waiting
          { engine.store with faults, inbound := engine.store.inbound.erase mid } =
          engine.store.waiting.filter fun entry => entry.1 ≠ mid :=
        @waiting_erase { engine.store with faults } mid
      rw [same, head]
      exact filter_head nodup
    rw [head]
    exact congrArg ((mid, number) :: ·) erased.symm
  · intro entry member
    cases List.mem_singleton.mp member
    exact ⟨acked, here⟩
  · intro name
    simp only [Engine.released, Engine.without, frees.acked, Finset.mem_erase, List.map_cons,
      List.map_nil, List.mem_singleton]
    exact and_comm
  · exact frees.current
  · intro name outside
    have different : name ≠ mid := by simpa using outside
    refine ⟨Dict.get?_erase_of_ne different, ?_⟩
    simp only [Engine.released, Engine.without, frees.tokens]
    exact Dict.get?_erase_of_ne different

theorem drainManualFor_sat (fuel : Nat) (kept : engine.kept)
    (manual : engine.config.manualAck = true) :
    Sat (drainManualFor fuel) engine
      (fun _ after => after.kept ∧ ∃ done, Drained done engine after)
      (fun _ after => (after.kept ∧ ∃ done, Drained done engine after) ∧
        ¬ engine.store.Reliable) := by
  induction fuel generalizing engine with
  | zero => exact ⟨kept, [], .refl engine⟩
  | succ fuel ih =>
    have order := kept.order manual
    simp only [drainManualFor, sat_bind, sat_get]
    cases head : engine.store.waiting with
    | nil =>
      simp only [order, head, List.map_nil]
      exact ⟨kept, [], .refl engine⟩
    | cons entry rest =>
      obtain ⟨mid, number⟩ := entry
      simp only [order, head, List.map_cons, sat_onlyIf]
      refine ⟨fun ready => ?_, fun _ => ⟨kept, [], .refl engine⟩⟩
      obtain ⟨row, found, waits, _⟩ := mem_waiting.mp (head ▸ List.mem_cons_self)
      simp only [sat_bind]
      apply (lookupStoredInbound_sat kept mid).mono
      · rintro record between ⟨scripted, rfl⟩
        have stays := scripted.apart.kept kept
        obtain ⟨faults, fine, rfl⟩ := scripted
        have record : engine.store.inMeta mid = some { Store.metaOf row.message with mid } := by
          simp [Store.inMeta, Store.inMessage?, found]
        simp only [record, Option.all_some, sat_raiseIf]
        refine ⟨fun lost => absurd waits (of_decide_eq_true lost), fun _ => ?_⟩
        apply (completeQos1_sat stays mid).mono
        · rintro _ _ ⟨stored, later, inbound, present, _, spare, rfl, frees⟩
          cases found.symm.trans present
          have released := released_drained kept manual head found
            ⟨spare.atomic, fun reliable => spare.reliable (fine.reliable reliable)⟩ ready.1 ready.2
            frees
          simp only [sat_modifyInbound]
          apply (ih released.1 manual).mono
          · rintro _ _ ⟨last, done, drained⟩
            exact ⟨last, _, released.2.trans drained⟩
          · rintro _ _ ⟨⟨last, done, drained⟩, unreliable⟩
            refine ⟨⟨last, _, released.2.trans drained⟩, fun reliable => unreliable ?_⟩
            exact fun call => spare.reliable (fine.reliable reliable) call
        · rintro _ _ ⟨failed, why⟩
          have apart := failed.apart.kept stays
          have drained := failed.drained
          refine ⟨⟨apart, [], ?_⟩, fun reliable => ?_⟩
          · have first : Scripted engine { engine with store := { engine.store with faults } } :=
              ⟨faults, fine, rfl⟩
            simpa using first.drained.trans drained
          · exact why (fine.reliable reliable) row found waits
      · rintro _ _ ⟨scripted, unreliable⟩
        exact ⟨⟨scripted.apart.kept kept, [], scripted.drained⟩, unreliable⟩

theorem drainManualQos1Acks_sat (kept : engine.kept) (manual : engine.config.manualAck = true) :
    Sat drainManualQos1Acks engine
      (fun _ after => after.kept ∧ ∃ done, Drained done engine after)
      (fun _ after => (after.kept ∧ ∃ done, Drained done engine after) ∧
        ¬ engine.store.Reliable) := by
  simp only [drainManualQos1Acks, sat_bind, sat_get]
  exact drainManualFor_sat _ kept manual

end

end Mqttium
