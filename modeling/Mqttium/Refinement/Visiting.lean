import Mqttium.Refinement.View

/-! The rule for a loop over the stored publications. It reads them page by page,
so it works with the rows of the moment as long as no round touches a row that is
still to come. -/

namespace Mqttium

open Codec Library Packets Persistence Protocol

section

variable {Value : Type} {kind : StoreKind} {engine : Engine}
  {body : OutboundMessageSummary → Value → EngineM Value} {raised : Failure → Engine → Prop}
  {invariant : Value → List (Nat × OutRow) → Engine → Prop}

/-- The rows still to come are stored as they were. -/
structure Awaits (kind : StoreKind) (todo : List (Nat × OutRow)) (engine : Engine) : Prop where
  reliable : engine.store.Reliable
  kind : engine.store.kind = kind
  rows : ∀ entry ∈ todo, engine.store.out.get? entry.1 = some entry.2

/-- Rows other than the first one stay as they are when only that one changes. -/
theorem Awaits.others {mid : Nat} {row : OutRow} {todo : List (Nat × OutRow)} {after : Engine}
    (awaits : Awaits kind ((mid, row) :: todo) engine)
    (once : (((mid, row) :: todo).map Prod.fst).Nodup) (reliable : after.store.Reliable)
    (same : after.store.kind = engine.store.kind)
    (rows : ∀ other, other ≠ mid → after.store.out.get? other = engine.store.out.get? other) :
    Awaits kind todo after := by
  simp only [List.map_cons, List.nodup_cons] at once
  refine ⟨reliable, same.trans awaits.kind, ?_⟩
  intro entry member
  rw [rows entry.1]
  · exact awaits.rows entry (List.mem_cons_of_mem _ member)
  · rintro rfl
    exact once.1 (List.mem_map_of_mem member)

/-- One page shows the rows it names. -/
theorem Awaits.page {page rest : List (Nat × OutRow)} (awaits : Awaits kind (page ++ rest) engine) :
    engine.store.outSummaryPage (page.map Prod.fst) =
      page.map fun entry => Store.summaryOf kind entry.2.message := by
  have rows : ∀ entry ∈ page, engine.store.out.get? entry.1 = some entry.2 :=
    fun entry member => awaits.rows entry (List.mem_append_left _ member)
  simp only [Store.outSummaryPage, awaits.kind, Store.outMessage?]
  clear awaits
  induction page with
  | nil => rfl
  | cons entry more ih =>
    have found := rows entry (by simp)
    simp only [List.map_cons, List.filterMap_cons, found, Option.map_some,
      ih fun other member => rows other (by simp [member])]

theorem sat_foldPage {page rest : List (Nat × OutRow)} {value : Value}
    (step : ∀ value mid row todo current, invariant value ((mid, row) :: todo) current →
      Sat (body (Store.summaryOf kind row.message) value) current
        (fun next => invariant next todo) raised)
    (start : invariant value (page ++ rest) engine) :
    Sat (Outbound.foldPage body (page.map fun entry => Store.summaryOf kind entry.2.message) value)
      engine (fun next => invariant next rest) raised := by
  induction page generalizing engine value with
  | nil => exact start
  | cons entry more ih =>
    simp only [List.map_cons, Outbound.foldPage, sat_bind]
    apply (step value entry.1 entry.2 (more ++ rest) engine start).mono
    · intro next after holds
      exact ih holds
    · exact fun _ _ failed => failed

theorem sat_foldPages {groups : List (List Nat)} {todo : List (Nat × OutRow)} {value : Value}
    (awaits : ∀ value todo current, invariant value todo current → Awaits kind todo current)
    (step : ∀ value mid row todo current, invariant value ((mid, row) :: todo) current →
      Sat (body (Store.summaryOf kind row.message) value) current
        (fun next => invariant next todo) raised)
    (cover : groups.flatten = todo.map Prod.fst) (start : invariant value todo engine) :
    Sat (Outbound.foldPages body groups value) engine (fun next => invariant next []) raised := by
  induction groups generalizing engine value todo with
  | nil =>
    have none : todo = [] := by simpa using cover.symm
    subst none
    exact start
  | cons mids rest ih =>
    obtain ⟨page, later, rfl, heads, tails⟩ := List.map_eq_append_iff.mp cover.symm
    have reads := (awaits value _ engine start).page
    simp only [Outbound.foldPages, sat_bind,
      sat_storeRead (awaits value _ engine start).reliable, ← heads, reads]
    apply (sat_foldPage step start).mono
    · intro next after holds
      exact ih tails.symm holds
    · exact fun _ _ failed => failed

variable (invariant) in
/-- The loop rule: an invariant indexed by the rows still to come. -/
theorem sat_foldSummaries {value : Value}
    (awaits : ∀ value todo current, invariant value todo current → Awaits kind todo current)
    (step : ∀ value mid row todo current, invariant value ((mid, row) :: todo) current →
      Sat (body (Store.summaryOf kind row.message) value) current
        (fun next => invariant next todo) raised)
    (start : invariant value engine.store.out.entries engine) :
    Sat (Outbound.foldSummaries body value) engine (fun next => invariant next []) raised := by
  simp only [Outbound.foldSummaries, sat_bind, sat_get]
  apply sat_foldPages awaits step _ start
  exact flatten_pagesOf (by decide) _ _ le_rfl

end

end Mqttium
