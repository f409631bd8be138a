import Mqttium.Refinement.Resuming

/-! Whether a session can be resumed: the check before the replay. -/

namespace Mqttium

open Codec Library Packets Persistence Protocol

/-- A live exchange that the broker may know and the negotiated limits forbid. -/
structure Protocol.Engine.Forbids (engine : Engine) (mid : Nat) (row : OutRow) : Prop where
  found : engine.store.out.get? mid = some row
  sent : row.message.state ≠ .queued
  live : engine.outbound.sealed.contains mid = false
  refused : ∃ failure, Outbound.validateAgainstNegotiated engine
    (.summary (Store.summaryOf engine.store.kind row.message)) = .error failure

/-- Limits that forbid nothing a client can have sent. -/
def Protocol.Engine.unlimited (engine : Engine) : Prop :=
  2 ≤ engine.negotiated.maximumQos ∧ engine.negotiated.retainAvailable ∧
    engine.negotiated.maximumPacketSize = none

/-- The check so far: nothing has changed, and the rows visited can be sent again. -/
structure Checking (engine : Engine) (todo : List (Nat × OutRow)) (current : Engine) : Prop where
  same : current = engine
  stored : ∀ entry ∈ todo, entry ∈ engine.store.out.entries
  passed : ∀ entry ∈ engine.store.out.entries, entry ∈ todo ∨ ¬ engine.Forbids entry.1 entry.2

section

variable {engine current : Engine} {mid : Nat} {row : OutRow} {todo : List (Nat × OutRow)}

theorem Checking.awaits (coherent : Coherent engine) (checking : Checking engine todo current) :
    Awaits engine.store.kind todo current := by
  rw [checking.same]
  exact ⟨coherent.reliable, rfl, fun entry member => Dict.get?_eq_some_iff.mpr (checking.stored entry member)⟩

theorem Checking.visited (checking : Checking engine ((mid, row) :: todo) current)
    (passes : ¬ engine.Forbids mid row) : Checking engine todo current := by
  refine ⟨checking.same, fun entry member => checking.stored entry (List.mem_cons_of_mem _ member), ?_⟩
  intro entry member
  rcases checking.passed entry member with next | past
  · rcases List.mem_cons.mp next with rfl | later
    · exact .inr passes
    · exact .inl later
  · exact .inr past

/-- The check only looks: it passes over every row, or stops at one that is forbidden. -/
theorem checkSessionReplayable_sat (coherent : Coherent engine) :
    Sat Outbound.checkSessionReplayable engine
      (fun _ after => after = engine ∧ (engine.unlimited ∨ ∀ mid row, ¬ engine.Forbids mid row))
      (fun failure after => after = engine ∧ (∃ text, failure = .sessionReplay text) ∧
        ∃ mid row, engine.Forbids mid row) := by
  rw [Outbound.checkSessionReplayable, sat_bind, sat_get, sat_ite]
  refine ⟨fun wide => ⟨rfl, .inl wide⟩, fun _ => ?_⟩
  have start : Checking engine engine.store.out.entries engine :=
    ⟨rfl, fun _ member => member, fun _ member => .inl member⟩
  refine (sat_foldSummaries (fun _ => Checking engine)
    (fun _ _ _ checking => checking.awaits coherent) ?_ start).mono ?_ fun _ _ failed => failed
  · intro _ mid row todo current checking
    have found := Dict.get?_eq_some_iff.mpr (checking.stored (mid, row) List.mem_cons_self)
    have ok := coherent.rows mid row found
    obtain ⟨state, _, _, same⟩ := readOut_fields engine.store.kind row.message
    have state : (Store.summaryOf engine.store.kind row.message).state = row.message.state := state
    have named : (Store.summaryOf engine.store.kind row.message).mid = mid := same.trans ok.named
    obtain rfl := checking.same
    simp only [sat_bind, sat_get, sat_onlyIf, state, named]
    refine ⟨fun sent => ?_, fun spared => ?_⟩
    · obtain ⟨sent, live⟩ := sent
      cases checked : Outbound.validateAgainstNegotiated current
          (.summary (Store.summaryOf current.store.kind row.message)) with
      | ok _ =>
        refine checking.visited fun forbids => ?_
        obtain ⟨failure, refused⟩ := forbids.refused
        simp [checked] at refused
      | error failure =>
        have matching : (QueueEntry.summary (Store.summaryOf current.store.kind row.message)).Matches
            current.store.kind row.message := rfl
        simp only [validate_refused ok matching checked, ↓reduceIte, sat_throw]
        exact ⟨trivial, ⟨_, rfl⟩, mid, row, found, sent, live, failure, checked⟩
    · exact checking.visited fun forbids => spared ⟨forbids.sent, forbids.live⟩
  · intro _ _ checking
    refine ⟨checking.same, .inr fun mid row forbids => ?_⟩
    rcases checking.passed (mid, row) (Dict.get?_eq_some_iff.mp forbids.found) with none | spared
    · cases none
    · exact spared forbids

end

end Mqttium
