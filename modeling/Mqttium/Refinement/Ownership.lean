import Mqttium.Refinement.Histories

/-! Who owns the packet identifiers, the reservations, the queue and the send slots of a
client, in every state of every run. -/

namespace Mqttium

open Codec Library Packets Persistence Protocol

namespace Protocol.Engine

/-- The outbound rows that are not sealed. -/
def unsealed (engine : Engine) : List (Nat × OutRow) :=
  engine.store.out.entries.filter fun entry => !engine.outbound.sealed.contains entry.1

/-- The books of the outbound session agree with its store. -/
structure Owned (engine : Engine) : Prop where
  identifiers : ∀ mid, mid ∈ engine.outbound.packetIds.used ↔
    mid ∈ engine.store.out.keys ∨ mid ∈ engine.pendingSubRequests.keys
  apart : ∀ mid ∈ engine.pendingSubRequests.keys, mid ∉ engine.store.out.keys
  messages : engine.outbound.pendingMessages = engine.unsealed.length
  bytes : engine.outbound.pendingBytes =
    (engine.unsealed.map fun entry => entry.2.message.logicalSize).sum
  sealed : ∀ mid ∈ engine.outbound.sealed.keys, mid ∈ engine.store.out.keys
  once : (engine.outbound.queued.map QueueEntry.mid).Nodup
  queued : ∀ mid, mid ∈ engine.outbound.queued.map QueueEntry.mid ↔
    (∃ row, (mid, row) ∈ engine.unsealed ∧ row.message.state = .queued) ∨
      mid ∈ engine.outbound.parked
  parked : ∀ mid ∈ engine.outbound.parked, ∃ row, (mid, row) ∈ engine.unsealed ∧
    (row.message.state = .waitPuback ∨ row.message.state = .waitPubrec)
  holders : ∀ mid ∈ engine.outbound.flow.holders, mid ∉ engine.outbound.parked ∧
    ∃ row, (mid, row) ∈ engine.unsealed ∧ row.message.state ≠ .queued
  quota : engine.outbound.flow.holders.card ≤ engine.outbound.flow.limit
  finished : ∀ mid row, engine.store.out.get? mid = some row → row.message.state ≠ .done

end Protocol.Engine

section

variable {watch : Watch} {engine : Engine}

theorem mem_unsealed {mid : Nat} {row : OutRow} : (mid, row) ∈ engine.unsealed ↔
    engine.store.out.get? mid = some row ∧ engine.outbound.sealed.contains mid = false := by
  simp [Engine.unsealed, Dict.get?_eq_some_iff]

/-- A tally of the ledger is a sum of the unsealed rows. -/
theorem tally_view (measure : Entry → Nat) : (view watch engine).tally measure =
    (engine.unsealed.map fun entry => measure (entryOf entry.2)).sum := by
  simp only [Ledger.tally, Dict.sumBy, view, Dict.mapValues, Engine.unsealed, Ledger.isSealed,
    List.map_map]
  induction engine.store.out.entries with
  | nil => rfl
  | cons entry rest ih =>
    cases gone : engine.outbound.sealed.contains entry.1 <;>
      simp_all [Function.comp_def]

/-- An unsealed row of the ledger is one of the engine, in the same state. -/
theorem row_of_state {mid : Nat} {state : OutboundQoSState}
    (live : (view watch engine).isSealed mid = false)
    (found : (view watch engine).stateOf mid = some state) :
    ∃ row, (mid, row) ∈ engine.unsealed ∧ row.message.state = state := by
  simp only [Ledger.stateOf, view_row, Option.map_map, Option.map_eq_some_iff] at found
  obtain ⟨row, stored, rfl⟩ := found
  exact ⟨row, mem_unsealed.mpr ⟨stored, live⟩, rfl⟩

/-- What the ledger accounts for, the engine owns. -/
theorem Ledger.Accounts.owns (accounts : Ledger.Accounts (view watch engine)) : engine.Owned := by
  have stored : ∀ mid, ((view watch engine).rows.get? mid).isSome ↔ mid ∈ engine.store.out.keys := by
    intro mid
    rw [view_row, Option.isSome_map, Dict.mem_keys_iff]
  constructor
  · intro mid
    have owned := accounts.owned mid
    rw [stored] at owned
    simpa [view] using owned
  · intro mid pending row
    have apart := accounts.apart mid (by simpa [view] using pending)
    rw [← stored, apart] at row
    cases row
  · have messages := accounts.messages
    rw [tally_view, List.map_const', List.sum_replicate_nat, Nat.mul_one] at messages
    exact messages
  · have bytes := accounts.bytes
    rw [tally_view] at bytes
    exact bytes
  · intro mid gone
    obtain ⟨sent, found⟩ := Option.isSome_iff_exists.mp (Dict.mem_keys_iff.mp gone)
    exact (stored mid).mp (accounts.sealedRow mid sent found).1
  · exact accounts.once
  · intro mid
    refine (accounts.lineup mid).trans (or_congr_left ⟨fun waiting => ?_, ?_⟩)
    · exact row_of_state waiting.2 waiting.1
    · rintro ⟨row, member, state⟩
      obtain ⟨found, live⟩ := mem_unsealed.mp member
      refine ⟨?_, live⟩
      simp [Ledger.stateOf, found, state]
  · intro mid parked
    obtain ⟨live, state⟩ := accounts.parkedRow mid parked
    rcases state with puback | pubrec
    · obtain ⟨row, member, same⟩ := row_of_state live puback
      exact ⟨row, member, Or.inl same⟩
    · obtain ⟨row, member, same⟩ := row_of_state live pubrec
      exact ⟨row, member, Or.inr same⟩
  · intro mid held
    obtain ⟨live, some, sent, moving⟩ := accounts.heldRow mid held
    obtain ⟨entry, found⟩ := Option.isSome_iff_exists.mp some
    have state : (view watch engine).stateOf mid = .some entry.state := by
      simp only [Ledger.stateOf, found, Option.map_some]
    obtain ⟨row, member, same⟩ := row_of_state live state
    refine ⟨moving, row, member, fun queued => sent ?_⟩
    rw [state, ← same, queued]
  · exact accounts.quota
  · intro mid row found
    exact accounts.unfinished mid (entryOf row) (by simp [found])

end

/-- Over every run, from any store a client could have written: the identifiers in use are
those of the outbound rows and of the pending subscription requests; the reservations are
the count and the bytes of the unsealed rows; the queue holds each unsealed queued row and
each parked row once; and the send slots, at most as many as the limit, are held by
unsealed rows that were sent and are not parked. -/
theorem outbound_ownership {config : EngineConfig} {store : Store} {engine : Engine}
    (written : store.Written) (created : Engine.create config store = .ok engine)
    (commands : List Command) : (commands.foldl Engine.after engine).Owned := by
  have same : ((Chronicle.start engine).run commands).engine = commands.foldl Engine.after engine :=
    (List.foldl_hom Chronicle.engine fun _ _ => rfl).symm
  have sound := ((create_recorded written created).run commands).sound
  exact same ▸ sound.accounts.owns

theorem outbound_ownership_released :
    (receivedRelease.foldl Engine.after durableEngine).Owned :=
  outbound_ownership memory_written durableEngine_created receivedRelease

end Mqttium
