import Mqttium.Refinement.Settling

/-! Sealing publications. The loop seals row by row and cleans the queue once at
its end, so in between the ledger is the engine's with the sealed entries left out. -/

namespace Mqttium

open Codec Library Packets Persistence Protocol

def sealEvents (engine : Engine) (mids : List Nat) : List Event :=
  mids.filterMap fun mid => (engine.store.out.get? mid).map fun row => .sealed row.seq

/-- The publications a call sealed, in order. -/
def sealedSince (before after : Engine) : List Event :=
  sealEvents before (after.outbound.sealed.keys.filter (· ∉ before.outbound.sealed.keys))

/-- The ledger of an engine whose queue still holds entries of `newly`. -/
def sealView (watch : Watch) (engine : Engine) (newly : Finset Nat) : Ledger :=
  { view watch engine with
    queue := (engine.outbound.queued.map QueueEntry.mid).filter (· ∉ newly)
    parked := engine.outbound.parked \ newly }

/-- The engine with one more publication sealed. -/
def Protocol.Engine.sealMid (engine : Engine) (mid : Nat) (row : OutRow) : Engine :=
  { engine with
    outbound := { engine.outbound with
      sealed := engine.outbound.sealed.insert mid (decide (row.message.state ≠ .queued))
      pendingMessages := engine.outbound.pendingMessages - 1
      pendingBytes := engine.outbound.pendingBytes - row.message.logicalSize
      flow := engine.outbound.flow.release mid } }

section

variable {engine : Engine} {mid : Nat} {row : OutRow} {watch : Watch} {newly : Finset Nat}

theorem sealView_sealed (events : List Event) (start : engine.effects.length = watch.base)
    (once : (sealView (watch.learn events) engine newly).queue.Nodup) :
    sealView (watch.learn (events ++ [.sealed row.seq])) (engine.sealMid mid row) (insert mid newly) =
      (sealView (watch.learn events) engine newly).sealRow mid (entryOf row) := by
  have queue : ((sealView (watch.learn events) engine newly).queue.erase mid) =
      (engine.outbound.queued.map QueueEntry.mid).filter (· ∉ insert mid newly) := by
    rw [once.erase_eq_filter]
    simp only [sealView, List.filter_filter, Finset.mem_insert, not_or]
    apply List.filter_congr
    intro other _
    rw [Bool.eq_iff_iff]
    simp
  simp only [sealView] at queue
  have log : (watch.learn (events ++ [.sealed row.seq])).log engine.effects =
      (watch.learn events).log engine.effects ++ [.sealed row.seq] := by
    simp [log_learn start]
  simp only [sealView, Engine.sealMid, view, Ledger.sealRow, Ledger.note, Ledger.releaseSlot, Ledger.unqueue,
    Ledger.refund, log, entryOf, FlowControl.release, Finset.sdiff_insert]
  rw [queue]
  rfl

/-- What sealing has done so far: the rows and the queue are as they were, the seals
grew by `names`. -/
structure Sealing (watch : Watch) (before after : Engine) (names : List Nat) : Prop where
  shape : after =
    { before with
      outbound := { before.outbound with
        sealed := after.outbound.sealed
        pendingMessages := after.outbound.pendingMessages
        pendingBytes := after.outbound.pendingBytes
        flow := after.outbound.flow } }
  keys : after.outbound.sealed.keys = before.outbound.sealed.keys ++ names
  steps : Steps (view watch before)
    (sealView (watch.learn (sealEvents before names)) after names.toFinset)

theorem sealOne_sat {before : Engine} {names : List Nat} {returned : Bool → Engine → Prop}
    {raised : Failure → Engine → Prop} (ready : Ready watch before)
    (start : before.effects.length = watch.base) (sealing : Sealing watch before engine names)
    (same : returned false engine)
    (more : ∀ row, Sealing watch before (engine.sealMid mid row) (names ++ [mid]) →
      returned true (engine.sealMid mid row)) :
    Sat (Outbound.sealOne mid) engine returned raised := by
  have store : engine.store = before.store := by rw [sealing.shape]
  have effects : engine.effects = before.effects := by rw [sealing.shape]
  have reliable : engine.store.Reliable := store ▸ ready.tracking.coherent.reliable
  have sound := ready.sound.steps sealing.steps
  simp only [Outbound.sealOne, sat_bind, sat_get, sat_ite, sat_pure, sat_storeRead reliable]
  refine ⟨fun _ => same, fun live => ?_⟩
  have live : engine.outbound.sealed.contains mid = false := by simpa using live
  cases found : engine.store.out.get? mid with
  | none =>
    simp only [outMeta_none found]
    exact same
  | some row =>
    have entry : (sealView (watch.learn (sealEvents before names)) engine
        names.toFinset).rows.get? mid = some (entryOf row) := by
      simp [sealView, view, found]
    obtain ⟨_, counted, paid⟩ := sound.accounts.budget entry live
    have some' : engine.outbound.pendingMessages ≠ 0 := by
      have : 1 ≤ engine.outbound.pendingMessages := counted
      omega
    have enough : ¬ engine.outbound.pendingBytes < row.message.logicalSize := by
      have : row.message.logicalSize ≤ engine.outbound.pendingBytes := paid
      omega
    simp only [outMeta_eq found, sat_bind, sat_modifyOutbound, Outbound.releaseReservation, sat_get,
      sat_raiseIf, some', enough, Outbound.releaseSlot, sat_pure, false_implies, not_false_eq_true,
      forall_const, true_and]
    refine more row ⟨?_, ?_, ?_⟩
    · rw [sealing.shape]
      rfl
    · have fresh : mid ∉ engine.outbound.sealed.keys := by
        rw [Dict.mem_keys_iff]
        simpa [Dict.contains] using live
      simp only [Engine.sealMid, Dict.keys_insert, if_neg fresh]
      rw [sealing.keys, List.append_assoc]
    · refine sealing.steps.tail ?_
      have events : sealEvents before (names ++ [mid]) =
          sealEvents before names ++ [.sealed row.seq] := by
        simp [sealEvents, ← store, found]
      have set : (names ++ [mid]).toFinset = insert mid names.toFinset := by
        ext other
        simp
      rw [events, set, sealView_sealed _ (effects ▸ start) sound.accounts.once]
      exact .sealRow entry live

theorem sealEach_sat {before : Engine} {names mids : List Nat} (ready : Ready watch before)
    (start : before.effects.length = watch.base) (sealing : Sealing watch before engine names) :
    Sat (Outbound.sealEach mids names.toFinset) engine
      (fun newly after => ∃ all, newly = all.toFinset ∧ Sealing watch before after all)
      (fun _ _ => False) := by
  induction mids generalizing engine names with
  | nil => exact ⟨names, rfl, sealing⟩
  | cons mid rest ih =>
    simp only [Outbound.sealEach, sat_bind]
    refine sealOne_sat ready start sealing (ih sealing) ?_
    intro row more
    have set : insert mid names.toFinset = (names ++ [mid]).toFinset := by
      ext other
      simp
    simp only [↓reduceIte, set]
    exact ih more

/-- What the seals of a call are. -/
theorem Sealing.since {after : Engine} {names : List Nat} (sealing : Sealing watch engine after names) :
    sealedSince engine after = sealEvents engine names := by
  have once : after.outbound.sealed.keys.Nodup := after.outbound.sealed.nodup
  rw [sealing.keys, List.nodup_append] at once
  have new : (engine.outbound.sealed.keys ++ names).filter (· ∉ engine.outbound.sealed.keys) =
      names := by
    rw [List.filter_append, List.filter_eq_nil_iff.mpr (by simp), List.nil_append,
      List.filter_eq_self]
    intro mid member
    simpa using fun old => once.2.2 mid old mid member rfl
  rw [sealedSince, sealing.keys, new]

/-- Without a queue there is nothing to clean. -/
private theorem Ready.sealView_idle {after : Engine} {later : Watch} {names : List Nat}
    (ready : Ready watch engine) (sealing : Sealing watch engine after names)
    (idle : ¬ (names.toFinset ≠ ∅ ∧ after.outbound.queued ≠ [])) :
    view later after = sealView later after names.toFinset := by
  have queued : after.outbound.queued = engine.outbound.queued := by rw [sealing.shape]
  have parked : after.outbound.parked = engine.outbound.parked := by rw [sealing.shape]
  by_cases none : names.toFinset = ∅
  · simp [sealView, view, none]
  · have empty : engine.outbound.queued = [] := by
      by_contra present
      exact idle ⟨none, by rwa [queued]⟩
    have unparked : engine.outbound.parked = ∅ := by
      rw [Finset.eq_empty_iff_forall_notMem]
      intro mid member
      have lined := (ready.sound.accounts.lineup mid).mpr (.inr member)
      simp [view, empty] at lined
    simp [sealView, view, queued, parked, empty, unparked]

theorem sealPublications_sat {mids : List Nat} (ready : Ready watch engine)
    (start : engine.effects.length = watch.base) :
    Sat (sealPublications mids) engine
      (fun _ after => Progress watch (watch.learn (sealedSince engine after)) engine after ∧
        after.store = engine.store ∧ after.effects = engine.effects)
      (fun _ _ => False) := by
  have nothing : Sealing watch engine engine [] := by
    refine ⟨rfl, by simp, ?_⟩
    have same : sealView (watch.learn (sealEvents engine [])) engine ([] : List Nat).toFinset =
        view watch engine := by
      simp [sealView, view, sealEvents]
    exact same ▸ .refl
  simp only [sealPublications, Outbound.sealPublications, sat_bind]
  refine (sealEach_sat ready start nothing).mono ?_ (by simp)
  rintro newly after ⟨names, rfl, sealing⟩
  have store : after.store = engine.store := by rw [sealing.shape]
  have queued : after.outbound.queued = engine.outbound.queued := by rw [sealing.shape]
  have effects : after.effects = engine.effects := by rw [sealing.shape]
  have tracking : Tracking (watch.learn (sealEvents engine names)) after := by
    refine ⟨⟨store ▸ ready.tracking.coherent.reliable, store ▸ ready.tracking.coherent.rows⟩, ?_,
      store ▸ ready.tracking.names⟩
    rw [effects]
    exact ready.tracking.later
  have aligned : Aligned after engine.outbound.queued := by
    unfold Aligned
    rw [store]
    exact ready.aligned
  simp only [sat_get, sat_onlyIf, sat_modifyOutbound]
  refine ⟨fun _ => ⟨?_, store, effects⟩, fun idle => ⟨?_, store, effects⟩⟩
  · show Progress watch (watch.learn (sealedSince engine after)) engine _
    rw [sealing.since]
    refine ⟨⟨⟨tracking.coherent.reliable, tracking.coherent.rows⟩, tracking.later, tracking.names⟩,
      ?_, ?_⟩
    · intro entry member
      exact aligned entry (queued ▸ List.mem_of_mem_filter member)
    · convert sealing.steps using 1
      simp [view, sealView, List.filter_map, Function.comp_def]
  · rw [sealing.since]
    refine ⟨tracking, queued ▸ aligned, ?_⟩
    rw [ready.sealView_idle sealing idle]
    exact sealing.steps

end

end Mqttium
