import Mqttium.Receiving.Bookkeeping
import Mqttium.Refinement.Chronicle

/-! Admission on a store whose calls may fail, before or after they take effect. -/

namespace Mqttium

open Codec Library Packets Persistence Protocol

/-- The engine on a store whose next calls fail as scripted. -/
def Protocol.Engine.failing (engine : Engine) (faults : StoreCall → List (Option Fault)) : Engine :=
  { engine with store := { engine.store with faults } }

/-- The identifier that the pool hands out next has neither a send-quota slot nor a place in the
queue. -/
def Protocol.Engine.Fresh (engine : Engine) (choice : Nat) : Prop :=
  ∀ mid pool, engine.outbound.packetIds.allocate choice = (.ok mid, pool) →
    mid ∉ engine.outbound.flow.holders ∧ ∀ entry ∈ engine.outbound.queued, entry.mid ≠ mid

section

variable {engine : Engine} {mid : Nat} {returned : PUnit → Engine → Prop}
  {raised : Failure → Engine → Prop}

end

/-! The exception -/

/-- The steps of `queue_publish` without its clean-up: what they raise is the original
exception. -/
def Protocol.Outbound.admission (choice : Nat) (call : PublishCall) : EngineM (Option Nat) := do
  let engine ← get
  raiseIf (engine.state = .disconnecting)
    (.notConnected "publish is not allowed while disconnecting")
  if call.qos = .atMostOnce then
    publishQos0 call
    return none
  else
    let prepared ← fromExcept (preparePublishRequest engine call)
    reserve prepared.logicalSize
    let mid ← allocateId choice
    admitPrepared call prepared mid
    return some mid

/-- Where the bookkeeping is in order a free identifier has no slot and no place in the queue. -/
theorem Ready.fresh {engine : Engine} {watch : Watch} (ready : Ready watch engine) (choice : Nat)
    (faults : StoreCall → List (Option Fault)) : (engine.failing faults).Fresh choice := by
  intro mid pool done
  have free : mid ∉ engine.outbound.packetIds.used := (PacketIdPool.used_allocate done).1
  have absent := ready.sound.accounts.absent free
  refine ⟨ready.idle free, fun entry member named => ?_⟩
  have lined : (view watch engine).lined mid := by
    rw [← ready.sound.accounts.lineup]
    exact List.mem_map.mpr ⟨entry, member, named⟩
  have stateless : (view watch engine).stateOf mid = none := by
    simp [Ledger.stateOf, absent]
  rcases lined with ⟨queued, _⟩ | parked
  · rw [stateless] at queued
    cases queued
  · have waits := (ready.sound.accounts.parkedRow mid parked).2
    simp [stateless] at waits

end Mqttium
