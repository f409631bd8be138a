import Mqttium.Persistence.Agreement
import Mqttium.Persistence.Connections

/-! When a conditional transition that the other party interrupts is still one step. -/

namespace Mqttium.Persistence

open Library

variable {codecs : TextCodecs}

/-! What one call does to the tables -/

/-- The row that a call puts into the outbound table. -/
def PutsOut (codecs : TextCodecs) (operation : Operation) (mid : Nat) (columns : OutboundColumns) :
    Prop :=
  ∃ message, operation = .putOut message ∧ message.mid = mid ∧ message.logicalSize ≠ 0 ∧
    message.topic.encodeUtf8.isSome = true ∧
    columns = SqliteInflightStore.outColumns codecs message

def PutsIn (codecs : TextCodecs) (operation : Operation) (mid : Nat) (columns : InboundColumns) :
    Prop :=
  ∃ message, operation = .putIn message ∧ message.mid = mid ∧ message.logicalSize ≠ 0 ∧
    message.topic.encodeUtf8.isSome = true ∧
    columns = SqliteInflightStore.inColumns codecs message

/-- What the statements assign. -/
def AssignsOut (change : OutboundColumns → OutboundColumns) : Prop :=
  ∃ next compact, change = SqliteInflightStore.assignedOut next compact

def AssignsIn (change : InboundColumns → InboundColumns) : Prop :=
  (∃ next userAcked, change = SqliteInflightStore.assignedIn next userAcked) ∨
    change = fun columns => { columns with delivered := 1 }

/-- A call makes one move in each table at most. -/
structure Moves (codecs : TextCodecs) (operation : Operation) (before after : SqliteInflightStore) :
    Prop where
  outbound : Table.Move (PutsOut codecs operation) AssignsOut before.outbound after.outbound
  inbound : Table.Move (PutsIn codecs operation) AssignsIn before.inbound after.inbound

section Moves

variable {operation : Operation} {store : SqliteInflightStore}

theorem moves_same : Moves codecs operation store store := ⟨.same, .same⟩

/-- A call that reads leaves the tables alone, however it ends. -/
theorem moves_read {program : SqliteM Response} (reads : Within Eq program) :
    Sat program store (fun _ after => Moves codecs operation store after)
      (fun _ after => Moves codecs operation store after) := by
  apply (reads store).mono
  · rintro _ _ rfl
    exact moves_same
  · rintro _ _ rfl
    exact moves_same

theorem perform_moves (operation : Operation) (store : SqliteInflightStore) :
    Sat (SqliteInflightStore.perform codecs operation) store
      (fun _ after => Moves codecs operation store after)
      (fun _ after => Moves codecs operation store after) := by
  cases operation with
  | putOut message =>
    simp only [SqliteInflightStore.perform, SqliteInflightStore.putOut, sat_bind, sat_raiseIf,
      sat_modify, sat_fromExcept, sat_pure]
    refine ⟨fun _ => moves_same, fun sized => ⟨fun _ bound => ⟨.upsert ?_, .same⟩,
      fun _ _ => ⟨.same, .same⟩⟩⟩
    refine ⟨message, rfl, rfl, sized, ?_, rfl⟩
    by_contra invalid
    simp [bindText, invalid] at bound
  | putIn message =>
    simp only [SqliteInflightStore.perform, SqliteInflightStore.putIn, sat_bind, sat_raiseIf,
      sat_modify, sat_fromExcept, sat_pure]
    refine ⟨fun _ => moves_same, fun sized => ⟨fun _ bound => ⟨.same, .upsert ?_⟩,
      fun _ _ => ⟨.same, .same⟩⟩⟩
    refine ⟨message, rfl, rfl, sized, ?_, rfl⟩
    by_contra invalid
    simp [bindText, invalid] at bound
  | deleteOut mid => exact ⟨.delete _, .same⟩
  | clearOut => exact ⟨.delete _, .same⟩
  | clearIn => exact ⟨.same, .delete _⟩
  | markInDelivered mid =>
    have moved : Table.Move (PutsIn codecs (.markInDelivered mid)) AssignsIn store.inbound
        (store.inbound.updateWhere (fun row => row.key = mid ∧ row.columns.delivered = 0)
          fun columns => { columns with delivered := 1 }).2 := .update _ _ (Or.inr rfl)
    exact ⟨.same, moved⟩
  | completeOut mid expected =>
    simp only [SqliteInflightStore.perform, SqliteInflightStore.completeOut, sat_bind, sat_get]
    cases store.outbound.fetchOne mid with
    | none => exact moves_same
    | some row =>
      simp only [sat_bind, sat_fromExcept, sat_ite, sat_pure, sat_get, sat_modify]
      exact ⟨fun _ _ => ⟨fun _ => moves_same, fun _ =>
        ⟨fun _ => ⟨.delete _, .same⟩, fun _ => ⟨.delete _, .same⟩⟩⟩, fun _ _ => moves_same⟩
  | transitionOut mid expected next compact =>
    simp only [SqliteInflightStore.perform, SqliteInflightStore.transitionOut, sat_bind, sat_get]
    cases store.outbound.fetchOne mid with
    | none => exact moves_same
    | some row =>
      simp only [sat_bind, sat_fromExcept, sat_ite, sat_pure, sat_get, sat_modify]
      have assigns : AssignsOut (SqliteInflightStore.assignedOut next compact) :=
        ⟨next, compact, rfl⟩
      exact ⟨fun _ _ => ⟨fun _ => moves_same, fun _ =>
        ⟨fun _ => ⟨.update _ _ assigns, .same⟩, fun _ => ⟨.update _ _ assigns, .same⟩⟩⟩,
        fun _ _ => moves_same⟩
  | transitionIn mid expected next userAcked =>
    simp only [SqliteInflightStore.perform, SqliteInflightStore.transitionIn, sat_bind, sat_get]
    cases store.inbound.fetchOne mid with
    | none => exact moves_same
    | some row =>
      simp only [sat_bind, sat_fromExcept, sat_ite, sat_pure, sat_get, sat_modify]
      have assigns : AssignsIn (SqliteInflightStore.assignedIn next userAcked) :=
        Or.inl ⟨next, userAcked, rfl⟩
      exact ⟨fun _ _ => ⟨fun _ => moves_same, fun _ =>
        ⟨fun _ => ⟨.same, .update _ _ assigns⟩, fun _ => ⟨.same, .update _ _ assigns⟩⟩⟩,
        fun _ _ => moves_same⟩
  | completeIn mid expected =>
    simp only [SqliteInflightStore.perform, SqliteInflightStore.completeIn, sat_bind, sat_get]
    cases store.inbound.fetchOne mid with
    | none => exact moves_same
    | some row =>
      simp only [sat_bind, sat_fromExcept, sat_ite, sat_pure, sat_get, sat_modify]
      exact ⟨fun _ _ => ⟨fun _ => moves_same, fun _ =>
        ⟨fun _ => ⟨.same, .delete _⟩, fun _ => ⟨.same, .delete _⟩⟩⟩, fun _ _ => moves_same⟩
  | getOut mid =>
    refine moves_read (within_bind (within_bind within_get fun now => ?_) fun _ => within_pure _)
    cases now.outbound.fetchOne mid with
    | none => exact within_pure _
    | some row => exact within_bind within_fromExcept fun _ => within_pure _
  | getIn mid =>
    refine moves_read (within_bind (within_bind within_get fun now => ?_) fun _ => within_pure _)
    cases now.inbound.fetchOne mid with
    | none => exact within_pure _
    | some row => exact within_bind within_fromExcept fun _ => within_pure _
  | outMeta mid =>
    refine moves_read (within_bind (within_bind within_get fun now => ?_) fun _ => within_pure _)
    cases now.outbound.fetchOne mid with
    | none => exact within_pure _
    | some row => exact within_bind within_fromExcept fun _ => within_pure _
  | inMeta mid =>
    refine moves_read (within_bind (within_bind within_get fun now => ?_) fun _ => within_pure _)
    cases now.inbound.fetchOne mid with
    | none => exact within_pure _
    | some row => exact within_bind within_fromExcept fun _ => within_pure _
  | inCount => exact moves_same
  | outSummaryPages pageSize =>
    exact moves_read (within_bind (within_bind within_get fun _ => within_fromExcept) fun _ =>
      within_pure _)
  | inIndexPages pageSize =>
    exact moves_read (within_bind (within_bind within_get fun _ => within_fromExcept) fun _ =>
      within_pure _)
  | inReplayPages maxMessages maxBytes =>
    exact moves_read (within_bind (within_bind within_fromExcept fun _ => within_bind within_get
      fun _ => within_bind within_fromExcept fun _ => within_fromExcept) fun _ => within_pure _)

theorem moves_ended (operation : Operation) (store : SqliteInflightStore) :
    Moves codecs operation store (ended (SqliteInflightStore.perform codecs operation) store).2 := by
  have moved := sat_ended.mp (@perform_moves codecs operation store)
  revert moved
  cases ended (SqliteInflightStore.perform codecs operation) store with
  | mk result after => cases result <;> exact id

end Moves

/-! Rows that the store can read -/

/-- A row of the outbound table holds a state and a size. -/
def OutReads (columns : OutboundColumns) : Prop :=
  (∃ state : OutboundQoSState, columns.state = state.code) ∧ columns.logicalSize ≠ 0

def InReads (columns : InboundColumns) : Prop :=
  (∃ state : InboundQoSState, columns.state = state.code) ∧
    (∃ acked : Bool, columns.userAcked = acked.toNat) ∧
    (∃ delivered : Bool, columns.delivered = delivered.toNat) ∧ columns.logicalSize ≠ 0

structure Tables.Reads (tables : Tables) : Prop where
  outUnique : Table.Unique tables.outbound
  inUnique : Table.Unique tables.inbound
  outbound : ∀ row ∈ tables.outbound, OutReads row.columns
  inbound : ∀ row ∈ tables.inbound, InReads row.columns

theorem Moves.reads {operation : Operation} {before after : SqliteInflightStore}
    (moves : Moves codecs operation before after)
    (reads : Tables.Reads ⟨before.outbound, before.inbound⟩) :
    Tables.Reads ⟨after.outbound, after.inbound⟩ where
  outUnique := moves.outbound.unique reads.outUnique
  inUnique := moves.inbound.unique reads.inUnique
  outbound := by
    refine moves.outbound.all ?_ ?_ reads.outbound
    · rintro _ _ ⟨message, _, _, sized, _, rfl⟩
      exact ⟨⟨message.state, rfl⟩, sized⟩
    · rintro _ ⟨next, compact, rfl⟩ columns ⟨_, sized⟩
      cases compact <;> exact ⟨⟨next, rfl⟩, sized⟩
  inbound := by
    refine moves.inbound.all ?_ ?_ reads.inbound
    · rintro _ _ ⟨message, _, _, sized, _, rfl⟩
      exact ⟨⟨message.state, rfl⟩, ⟨message.userAcked, rfl⟩, ⟨message.delivered, rfl⟩, sized⟩
    · rintro _ (⟨next, userAcked, rfl⟩ | rfl) columns ⟨state, acked, delivered, sized⟩
      · cases userAcked with
        | none => exact ⟨⟨next, rfl⟩, acked, delivered, sized⟩
        | some value => exact ⟨⟨next, rfl⟩, ⟨value, rfl⟩, delivered, sized⟩
      · exact ⟨state, acked, ⟨true, rfl⟩, sized⟩

theorem step_reads {shared : Shared} (reads : shared.tables.Reads) (party : Party) (event : Event) :
    (shared.step codecs party event).tables.Reads := by
  cases event with
  | call operation => exact (moves_ended operation (shared.store party)).reads reads
  | reopen => exact reads

theorem run_reads {shared : Shared} (reads : shared.tables.Reads) (events : List (Party × Event)) :
    (shared.run codecs events).tables.Reads := by
  unfold Shared.run
  induction events generalizing shared with
  | nil => exact reads
  | cons event rest ih => exact ih (step_reads reads event.1 event.2)

theorem reads_empty : Tables.Reads {} where
  outUnique := .nil
  inUnique := .nil
  outbound := by simp
  inbound := by simp

/-! A row that nobody replaced -/

/-- Where no event puts a row for a call about outbound rows, what is there now was there
before, under its number and with its size. -/
theorem interfere_traceOut {shared : Shared} (reads : shared.tables.Reads) {mid : Nat}
    {between : List Event}
    (spares : ∀ operation, .call operation ∈ between → ∀ columns, ¬ PutsOut codecs operation mid columns)
    {row : Row OutboundColumns}
    (found : (shared.interfere codecs between).tables.outbound.fetchOne mid = some row) :
    ∃ old, shared.tables.outbound.fetchOne mid = some old ∧ row.seq = old.seq ∧
      row.columns.logicalSize = old.columns.logicalSize := by
  unfold Shared.interfere Shared.run at found
  induction between generalizing shared with
  | nil => exact ⟨row, found, rfl, rfl⟩
  | cons event rest ih =>
    obtain ⟨middle, held, seq, size⟩ := ih (step_reads reads .other event)
      (fun operation member => spares operation (List.mem_cons_of_mem event member)) found
    cases event with
    | reopen => exact ⟨middle, held, seq, size⟩
    | call operation =>
      have moved := (@moves_ended codecs operation (shared.store .other)).outbound
      obtain ⟨old, present, sameSeq, columns⟩ :=
        moved.trace reads.outUnique (spares operation List.mem_cons_self) held
      refine ⟨old, present, seq.trans sameSeq, size.trans ?_⟩
      rcases columns with same | ⟨change, ⟨next, compact, rfl⟩, assigned⟩
      · rw [same]
      · rw [assigned]
        cases compact <;> rfl

theorem interfere_traceIn {shared : Shared} (reads : shared.tables.Reads) {mid : Nat}
    {between : List Event}
    (spares : ∀ operation, .call operation ∈ between → ∀ columns, ¬ PutsIn codecs operation mid columns)
    {row : Row InboundColumns}
    (found : (shared.interfere codecs between).tables.inbound.fetchOne mid = some row) :
    ∃ old, shared.tables.inbound.fetchOne mid = some old ∧ row.seq = old.seq ∧
      row.columns.logicalSize = old.columns.logicalSize := by
  unfold Shared.interfere Shared.run at found
  induction between generalizing shared with
  | nil => exact ⟨row, found, rfl, rfl⟩
  | cons event rest ih =>
    obtain ⟨middle, held, seq, size⟩ := ih (step_reads reads .other event)
      (fun operation member => spares operation (List.mem_cons_of_mem event member)) found
    cases event with
    | reopen => exact ⟨middle, held, seq, size⟩
    | call operation =>
      have moved := (@moves_ended codecs operation (shared.store .other)).inbound
      obtain ⟨old, present, sameSeq, columns⟩ :=
        moved.trace reads.inUnique (spares operation List.mem_cons_self) held
      refine ⟨old, present, seq.trans sameSeq, size.trans ?_⟩
      rcases columns with same | ⟨change, ⟨next, userAcked, rfl⟩ | rfl, assigned⟩
      · rw [same]
      · rw [assigned]
        cases userAcked <;> rfl
      · rw [assigned]

/-! The two halves of a call -/

section Halves

variable {tables : Tables} {mid : Nat}

theorem outState_code_inj {state other : OutboundQoSState} (same : state.code = other.code) :
    state = other := by
  have found := congrArg OutboundQoSState.ofCode? same
  simpa using found

theorem inState_code_inj {state other : InboundQoSState} (same : state.code = other.code) :
    state = other := by
  have found := congrArg InboundQoSState.ofCode? same
  simpa using found

theorem toNat_inj {left right : Bool} (same : left.toNat = right.toNat) : left = right := by
  cases left <;> cases right <;> simp_all

/-- The metadata of a row that the store can read. -/
theorem OutReads.decoded {row : Row OutboundColumns} (reads : OutReads row.columns) :
    ∃ state : OutboundQoSState, row.columns.state = state.code ∧
      storedOutTransition row = .ok (state, row.columns.logicalSize, row.seq) := by
  obtain ⟨⟨state, held⟩, sized⟩ := reads
  refine ⟨state, held, ?_⟩
  simp only [storedOutTransition, held, storedOutState_code, storedLogicalSize_ok sized, bind,
    Except.bind]
  rfl

theorem InReads.decoded {row : Row InboundColumns} (reads : InReads row.columns) :
    ∃ (state : InboundQoSState) (acked delivered : Bool), row.columns.state = state.code ∧
      row.columns.userAcked = acked.toNat ∧ row.columns.delivered = delivered.toNat ∧
      storedInTransition row = .ok (state, acked, delivered, row.columns.logicalSize, row.seq) := by
  obtain ⟨⟨state, held⟩, ⟨acked, wasAcked⟩, ⟨delivered, wasDelivered⟩, sized⟩ := reads
  refine ⟨state, acked, delivered, held, wasAcked, wasDelivered, ?_⟩
  simp only [storedInTransition, held, wasAcked, wasDelivered, storedInState_code,
    storedBool_toNat, storedLogicalSize_ok sized, bind, Except.bind]
  rfl

/-- What the first half finds in the outbound table. -/
theorem readOut_ok (reads : tables.Reads) (mid : Nat) (expected : OutboundQoSState) :
    ∃ found, Transition.readOut tables mid expected = .ok found ∧ ∀ seen, found = some seen ↔
      ∃ row, tables.outbound.fetchOne mid = some row ∧ row.columns.state = expected.code ∧
        seen = { logicalSize := row.columns.logicalSize, seq := row.seq } := by
  unfold Transition.readOut
  cases fetched : tables.outbound.fetchOne mid with
  | none => exact ⟨none, rfl, by simp⟩
  | some row =>
    obtain ⟨state, held, decoded⟩ :=
      (reads.outbound row (Table.mem_of_fetchOne fetched).1).decoded
    refine ⟨_, by simp only [decoded, bind, Except.bind]; rfl, fun seen => ?_⟩
    by_cases same : state = expected
    · subst same
      simp [held, eq_comm]
    · have other : state.code ≠ expected.code := fun equal => same (outState_code_inj equal)
      simp [same, held, other]

/-- What the first half finds in the inbound table. -/
theorem readIn_ok (reads : tables.Reads) (mid : Nat) (expected : InboundQoSState) :
    ∃ found, Transition.readIn tables mid expected = .ok found ∧ ∀ seen, found = some seen ↔
      ∃ row, tables.inbound.fetchOne mid = some row ∧ row.columns.state = expected.code ∧
        row.columns.userAcked = seen.userAcked.toNat ∧
        row.columns.delivered = seen.delivered.toNat ∧
        seen.logicalSize = row.columns.logicalSize ∧ seen.seq = row.seq := by
  unfold Transition.readIn
  cases fetched : tables.inbound.fetchOne mid with
  | none => exact ⟨none, rfl, by simp⟩
  | some row =>
    obtain ⟨state, acked, delivered, held, wasAcked, wasDelivered, decoded⟩ :=
      (reads.inbound row (Table.mem_of_fetchOne fetched).1).decoded
    refine ⟨_, by simp only [decoded, bind, Except.bind]; rfl, fun seen => ?_⟩
    by_cases same : state = expected
    · subst same
      simp only [ne_eq, not_true_eq_false, ↓reduceIte, Option.some.injEq, held, wasAcked,
        wasDelivered, true_and, exists_eq_left']
      constructor
      · rintro rfl
        exact ⟨rfl, rfl, rfl, rfl⟩
      · rintro ⟨sameAcked, sameDelivered, sameSize, sameSeq⟩
        cases seen
        simp_all [toNat_inj sameAcked, toNat_inj sameDelivered]
    · have other : state.code ≠ expected.code := fun equal => same (inState_code_inj equal)
      simp [same, held, other]

/-- A guard that no row meets: the call returns nothing and changes nothing. -/
theorem mutate_refused {before met : Tables} (beforeReads : before.Reads) (reads : met.Reads)
    {transition : Transition} {seen : Observed} (first : transition.read before = .ok (some seen))
    (unlike : ∀ current, transition.read met = .ok (some current) → current.seq = seen.seq →
      current.userAcked ≠ seen.userAcked) :
    transition.mutate met seen = (transition.nothing, met) := by
  have refusedOut : ∀ (mid : Nat) (expected : OutboundQoSState),
      Transition.readOut before mid expected = .ok (some seen) →
      (∀ current, Transition.readOut met mid expected = .ok (some current) →
        current.seq = seen.seq → current.userAcked ≠ seen.userAcked) →
      met.outbound.countP (fun row =>
        row.key = mid ∧ row.columns.state = expected.code ∧ row.seq = seen.seq) = 0 := by
    intro mid expected first unlike
    obtain ⟨_, was, wasIff⟩ := readOut_ok beforeReads mid expected
    obtain ⟨old, _, _, shape⟩ := (wasIff seen).mp (Except.ok.inj (was.symm.trans first))
    obtain ⟨_, now, nowIff⟩ := readOut_ok reads mid expected
    refine (reads.outUnique.countP mid _).mpr fun row fetched ⟨state, seq⟩ => ?_
    have listed := (nowIff { logicalSize := row.columns.logicalSize, seq := row.seq }).mpr
      ⟨row, fetched, state, rfl⟩
    refine unlike _ (now.trans (congrArg Except.ok listed)) seq ?_
    rw [shape]
  have refusedIn : ∀ (mid : Nat) (expected : InboundQoSState),
      (∀ current, Transition.readIn met mid expected = .ok (some current) →
        current.seq = seen.seq → current.userAcked ≠ seen.userAcked) →
      met.inbound.countP (fun row => row.key = mid ∧ row.columns.state = expected.code ∧
        row.columns.userAcked = seen.userAcked.toNat ∧ row.seq = seen.seq) = 0 := by
    intro mid expected unlike
    obtain ⟨_, now, nowIff⟩ := readIn_ok reads mid expected
    refine (reads.inUnique.countP mid _).mpr fun row fetched ⟨state, acked, seq⟩ => ?_
    obtain ⟨_, _, ⟨delivered, wasDelivered⟩, _⟩ :=
      reads.inbound row (Table.mem_of_fetchOne fetched).1
    have listed := (nowIff { userAcked := seen.userAcked, delivered
                             logicalSize := row.columns.logicalSize, seq := row.seq }).mpr
      ⟨row, fetched, state, acked, wasDelivered, rfl, rfl⟩
    exact unlike _ (now.trans (congrArg Except.ok listed)) seq rfl
  cases transition with
  | completeOut mid expected =>
    have none := refusedOut mid expected first unlike
    simp only [Transition.mutate, Table.deleteWhere_none none]
    simp [Transition.nothing]
  | transitionOut mid expected next compact =>
    have none := refusedOut mid expected first unlike
    simp only [Transition.mutate, Table.updateWhere_none _ (Table.countP_false none)]
    simp [Transition.nothing]
  | transitionIn mid expected next userAcked =>
    have none := refusedIn mid expected unlike
    simp only [Transition.mutate, Table.updateWhere_none _ (Table.countP_false none)]
    simp [Transition.nothing]
  | completeIn mid expected =>
    have none := refusedIn mid expected unlike
    simp only [Transition.mutate, Table.deleteWhere_none none]
    simp [Transition.nothing]

theorem atomically_of_sat {transition : Transition} {met : Tables} {result : Response × Tables}
    (sat : Sat (SqliteInflightStore.perform codecs transition.operation)
      { outbound := met.outbound, inbound := met.inbound, outSeq := 0, inSeq := 0 }
      (fun response after =>
        (response, ({ outbound := after.outbound, inbound := after.inbound } : Tables)) = result)
      fun _ _ => False) : transition.atomically codecs met = .ok result := by
  unfold Sat at sat
  unfold Transition.atomically Write.statement
  dsimp only
  split at sat
  · rename_i response after ran
    rw [ran]
    exact congrArg Except.ok sat
  · exact sat.elim

/-- Without an interruption, the two halves are the whole call. -/
theorem atomically_eq {met : Tables} (reads : met.Reads) {transition : Transition} {current : Observed}
    (found : transition.read met = .ok (some current)) :
    transition.atomically codecs met = .ok (transition.mutate met current) := by
  apply atomically_of_sat
  cases transition with
  | completeOut mid expected =>
    obtain ⟨_, now, nowIff⟩ := readOut_ok reads mid expected
    obtain ⟨row, fetched, state, rfl⟩ := (nowIff current).mp (Except.ok.inj (now.symm.trans found))
    obtain ⟨held, same, decoded⟩ := (reads.outbound row (Table.mem_of_fetchOne fetched).1).decoded
    cases outState_code_inj (same.symm.trans state)
    simp only [Transition.operation, SqliteInflightStore.perform, SqliteInflightStore.completeOut,
      sat_bind, sat_get, fetched, decoded, sat_fromExcept_ok, ne_eq, not_true_eq_false, sat_ite,
      false_imp_iff, true_and, not_false_eq_true, true_imp_iff, sat_pure, sat_modify,
      Transition.mutate]
    exact ⟨fun none => by rw [if_pos none], fun hit => by rw [if_neg hit]⟩
  | transitionOut mid expected next compact =>
    obtain ⟨_, now, nowIff⟩ := readOut_ok reads mid expected
    obtain ⟨row, fetched, state, rfl⟩ := (nowIff current).mp (Except.ok.inj (now.symm.trans found))
    obtain ⟨held, same, decoded⟩ := (reads.outbound row (Table.mem_of_fetchOne fetched).1).decoded
    cases outState_code_inj (same.symm.trans state)
    simp only [Transition.operation, SqliteInflightStore.perform, SqliteInflightStore.transitionOut,
      sat_bind, sat_get, fetched, decoded, sat_fromExcept_ok, ne_eq, not_true_eq_false, sat_ite,
      false_imp_iff, true_and, not_false_eq_true, true_imp_iff, sat_pure, sat_modify,
      Transition.mutate]
    exact ⟨fun none => by rw [if_pos none], fun hit => by rw [if_neg hit]⟩
  | transitionIn mid expected next userAcked =>
    obtain ⟨_, now, nowIff⟩ := readIn_ok reads mid expected
    obtain ⟨row, fetched, state, acked, delivered, size, seq⟩ :=
      (nowIff current).mp (Except.ok.inj (now.symm.trans found))
    obtain ⟨held, wasAcked, wasDelivered, same, sameAcked, sameDelivered, decoded⟩ :=
      (reads.inbound row (Table.mem_of_fetchOne fetched).1).decoded
    cases inState_code_inj (same.symm.trans state)
    cases toNat_inj (sameAcked.symm.trans acked)
    cases toNat_inj (sameDelivered.symm.trans delivered)
    simp only [Transition.operation, SqliteInflightStore.perform, SqliteInflightStore.transitionIn,
      sat_bind, sat_get, fetched, decoded, sat_fromExcept_ok, ne_eq, not_true_eq_false, sat_ite,
      false_imp_iff, true_and, not_false_eq_true, true_imp_iff, sat_pure, sat_modify,
      Transition.mutate, size, seq]
    exact ⟨fun none => by rw [if_pos none], fun hit => by rw [if_neg hit]⟩
  | completeIn mid expected =>
    obtain ⟨_, now, nowIff⟩ := readIn_ok reads mid expected
    obtain ⟨row, fetched, state, acked, delivered, size, seq⟩ :=
      (nowIff current).mp (Except.ok.inj (now.symm.trans found))
    obtain ⟨held, wasAcked, wasDelivered, same, sameAcked, sameDelivered, decoded⟩ :=
      (reads.inbound row (Table.mem_of_fetchOne fetched).1).decoded
    cases inState_code_inj (same.symm.trans state)
    cases toNat_inj (sameAcked.symm.trans acked)
    cases toNat_inj (sameDelivered.symm.trans delivered)
    simp only [Transition.operation, SqliteInflightStore.perform, SqliteInflightStore.completeIn,
      sat_bind, sat_get, fetched, decoded, sat_fromExcept_ok, ne_eq, not_true_eq_false, sat_ite,
      false_imp_iff, true_and, not_false_eq_true, true_imp_iff, sat_pure, sat_modify,
      Transition.mutate, size, seq]
    exact ⟨fun none => by rw [if_pos none], fun hit => by rw [if_neg hit]⟩

/-- A guard that a row meets: the call settles it, with the flags that were read. -/
theorem settles_mutate {before met : Tables} (beforeReads : before.Reads) (reads : met.Reads)
    {transition : Transition} {seen current : Observed}
    (first : transition.read before = .ok (some seen))
    (found : transition.read met = .ok (some current)) (seq : current.seq = seen.seq)
    (acked : current.userAcked = seen.userAcked) :
    (transition.mutate met seen).1 ≠ transition.nothing ∧
      (transition.mutate met current = transition.mutate met seen →
        current.delivered = seen.delivered) := by
  have outHit : ∀ (mid : Nat) (expected : OutboundQoSState),
      Transition.readOut before mid expected = .ok (some seen) →
      Transition.readOut met mid expected = .ok (some current) →
      current.delivered = seen.delivered ∧ met.outbound.countP (fun row =>
        row.key = mid ∧ row.columns.state = expected.code ∧ row.seq = seen.seq) ≠ 0 := by
    intro mid expected first found
    obtain ⟨_, was, wasIff⟩ := readOut_ok beforeReads mid expected
    obtain ⟨old, _, _, shape⟩ := (wasIff seen).mp (Except.ok.inj (was.symm.trans first))
    obtain ⟨_, now, nowIff⟩ := readOut_ok reads mid expected
    obtain ⟨row, fetched, state, rfl⟩ := (nowIff current).mp (Except.ok.inj (now.symm.trans found))
    refine ⟨by rw [shape], fun none => ?_⟩
    exact (reads.outUnique.countP mid _).mp none row fetched ⟨state, seq⟩
  have inHit : ∀ (mid : Nat) (expected : InboundQoSState),
      Transition.readIn met mid expected = .ok (some current) →
      met.inbound.countP (fun row => row.key = mid ∧ row.columns.state = expected.code ∧
        row.columns.userAcked = seen.userAcked.toNat ∧ row.seq = seen.seq) ≠ 0 := by
    intro mid expected found none
    obtain ⟨_, now, nowIff⟩ := readIn_ok reads mid expected
    obtain ⟨row, fetched, state, wasAcked, _, _, sameSeq⟩ :=
      (nowIff current).mp (Except.ok.inj (now.symm.trans found))
    exact (reads.inUnique.countP mid _).mp none row fetched
      ⟨state, acked ▸ wasAcked, sameSeq.symm.trans seq⟩
  cases transition with
  | completeOut mid expected =>
    obtain ⟨delivered, hit⟩ := outHit mid expected first found
    refine ⟨?_, fun _ => delivered⟩
    simp only [Transition.mutate, Transition.nothing]
    split
    · exact absurd ‹_› hit
    · exact nofun
  | transitionOut mid expected next compact =>
    obtain ⟨delivered, hit⟩ := outHit mid expected first found
    refine ⟨?_, fun _ => delivered⟩
    simp only [Transition.mutate, Transition.nothing]
    split
    · exact absurd ‹_› hit
    · exact nofun
  | transitionIn mid expected next userAcked =>
    have hit := inHit mid expected found
    simp only [Transition.mutate, Transition.nothing, seq, acked]
    split
    · exact absurd ‹_› hit
    · refine ⟨nofun, fun same => ?_⟩
      have fields := (Prod.ext_iff.mp same).1
      simp only [Response.inMeta.injEq, Option.some.injEq, InboundRecordMeta.mk.injEq] at fields
      exact fields.2.2.2.1
  | completeIn mid expected =>
    have hit := inHit mid expected found
    simp only [Transition.mutate, Transition.nothing, seq, acked]
    split
    · exact absurd ‹_› hit
    · refine ⟨nofun, fun same => ?_⟩
      have fields := (Prod.ext_iff.mp same).1
      simp only [Response.inMeta.injEq, Option.some.injEq, InboundRecordMeta.mk.injEq] at fields
      exact fields.2.2.2.1

end Halves

/-! The law of a call -/

theorem replaces_of_putsOut {operation : Operation} {mid : Nat} {columns : OutboundColumns}
    {transition : Transition} (about : (∃ expected, transition = .completeOut mid expected) ∨
      ∃ expected next compact, transition = .transitionOut mid expected next compact)
    (puts : PutsOut codecs operation mid columns) :
    (Event.call operation).replaces transition := by
  obtain ⟨message, rfl, same, sized, topic, _⟩ := puts
  rcases about with ⟨expected, rfl⟩ | ⟨expected, next, compact, rfl⟩
  · exact ⟨same, sized, topic⟩
  · exact ⟨same, sized, topic⟩

theorem replaces_of_putsIn {operation : Operation} {mid : Nat} {columns : InboundColumns}
    {transition : Transition} (about : (∃ expected, transition = .completeIn mid expected) ∨
      ∃ expected next userAcked, transition = .transitionIn mid expected next userAcked)
    (puts : PutsIn codecs operation mid columns) :
    (Event.call operation).replaces transition := by
  obtain ⟨message, rfl, same, sized, topic, _⟩ := puts
  rcases about with ⟨expected, rfl⟩ | ⟨expected, next, userAcked, rfl⟩
  · exact ⟨same, sized, topic⟩
  · exact ⟨same, sized, topic⟩

/-- The row of a recognised call has the size that was read. -/
theorem size_of_unreplaced {shared : Shared} (reads : shared.tables.Reads) {between : List Event}
    {transition : Transition} {seen current : Observed}
    (first : transition.read shared.tables = .ok (some seen))
    (found : transition.read (shared.interfere codecs between).tables = .ok (some current))
    (spares : ∀ event ∈ between, ¬ event.replaces transition) :
    current.logicalSize = seen.logicalSize := by
  have metReads : (shared.interfere codecs between).tables.Reads := run_reads reads _
  have outSize : ∀ (mid : Nat) (expected : OutboundQoSState),
      (∀ operation, .call operation ∈ between → ∀ columns, ¬ PutsOut codecs operation mid columns) →
      Transition.readOut shared.tables mid expected = .ok (some seen) →
      Transition.readOut (shared.interfere codecs between).tables mid expected =
        .ok (some current) → current.logicalSize = seen.logicalSize := by
    intro mid expected none first found
    obtain ⟨_, was, wasIff⟩ := readOut_ok reads mid expected
    obtain ⟨old, held, _, rfl⟩ := (wasIff seen).mp (Except.ok.inj (was.symm.trans first))
    obtain ⟨_, now, nowIff⟩ := readOut_ok metReads mid expected
    obtain ⟨row, fetched, _, rfl⟩ := (nowIff current).mp (Except.ok.inj (now.symm.trans found))
    obtain ⟨origin, present, _, size⟩ := interfere_traceOut reads none fetched
    rw [held] at present
    cases present
    exact size
  have inSize : ∀ (mid : Nat) (expected : InboundQoSState),
      (∀ operation, .call operation ∈ between → ∀ columns, ¬ PutsIn codecs operation mid columns) →
      Transition.readIn shared.tables mid expected = .ok (some seen) →
      Transition.readIn (shared.interfere codecs between).tables mid expected =
        .ok (some current) → current.logicalSize = seen.logicalSize := by
    intro mid expected none first found
    obtain ⟨_, was, wasIff⟩ := readIn_ok reads mid expected
    obtain ⟨old, held, _, _, _, oldSize, _⟩ :=
      (wasIff seen).mp (Except.ok.inj (was.symm.trans first))
    obtain ⟨_, now, nowIff⟩ := readIn_ok metReads mid expected
    obtain ⟨row, fetched, _, _, _, rowSize, _⟩ :=
      (nowIff current).mp (Except.ok.inj (now.symm.trans found))
    obtain ⟨origin, present, _, size⟩ := interfere_traceIn reads none fetched
    rw [held] at present
    cases present
    rw [rowSize, oldSize, size]
  cases transition with
  | completeOut mid expected =>
    exact outSize mid expected (fun operation member columns puts => spares _ member
      (replaces_of_putsOut (.inl ⟨expected, rfl⟩) puts)) first found
  | transitionOut mid expected next compact =>
    exact outSize mid expected (fun operation member columns puts => spares _ member
      (replaces_of_putsOut (.inr ⟨expected, next, compact, rfl⟩) puts)) first found
  | transitionIn mid expected next userAcked =>
    exact inSize mid expected (fun operation member columns puts => spares _ member
      (replaces_of_putsIn (.inr ⟨expected, next, userAcked, rfl⟩) puts)) first found
  | completeIn mid expected =>
    exact inSize mid expected (fun operation member columns puts => spares _ member
      (replaces_of_putsIn (.inl ⟨expected, rfl⟩) puts)) first found

theorem read_ok {tables : Tables} (reads : tables.Reads) (transition : Transition) :
    ∃ found, transition.read tables = .ok found := by
  cases transition with
  | completeOut mid expected =>
    obtain ⟨found, ran, _⟩ := readOut_ok reads mid expected
    exact ⟨found, ran⟩
  | transitionOut mid expected next compact =>
    obtain ⟨found, ran, _⟩ := readOut_ok reads mid expected
    exact ⟨found, ran⟩
  | transitionIn mid expected next userAcked =>
    obtain ⟨found, ran, _⟩ := readIn_ok reads mid expected
    exact ⟨found, ran⟩
  | completeIn mid expected =>
    obtain ⟨found, ran, _⟩ := readIn_ok reads mid expected
    exact ⟨found, ran⟩

/-- A conditional transition that another connection interrupts changes nothing, or is one step
on the row as it was right before the statement and settles no replacement, exactly where no
replacement and no change of a flag passes the guard. -/
theorem transition_atomic_iff (codecs : TextCodecs) (history : List (Party × Event))
    (transition : Transition) (between : List Event) :
    let shared := Shared.run codecs {} history
    ∃ attempt, transition.attempt codecs shared between = .ok attempt ∧
      (attempt.Atomic codecs transition between ↔
        transition.Recognised shared.tables (shared.interfere codecs between).tables between) := by
  dsimp only
  have reads : (Shared.run codecs {} history).tables.Reads := run_reads reads_empty history
  generalize Shared.run codecs {} history = shared at reads
  have metReads : (shared.interfere codecs between).tables.Reads := run_reads reads _
  obtain ⟨found, first⟩ := read_ok reads transition
  cases found with
  | none =>
    refine ⟨_, by simp only [Transition.attempt, first, bind, Except.bind]; rfl, ?_⟩
    refine ⟨fun _ seen current was => ?_, fun _ => ⟨.inl ⟨rfl, rfl⟩, fun settled => ?_⟩⟩
    · rw [first] at was
      cases was
    · exact absurd rfl settled
  | some seen =>
    refine ⟨_, by simp only [Transition.attempt, first, bind, Except.bind]; rfl, ?_⟩
    obtain ⟨found, now⟩ := read_ok metReads transition
    by_cases passes : ∃ current, found = some current ∧ current.seq = seen.seq ∧
        current.userAcked = seen.userAcked
    · obtain ⟨current, rfl, seq, acked⟩ := passes
      obtain ⟨settles, flags⟩ := settles_mutate reads metReads first now seq acked
      have whole := @atomically_eq codecs _ metReads _ _ now
      constructor
      · intro atomic was other firstAgain nowAgain _ _
        cases Option.some.inj (Except.ok.inj (first.symm.trans firstAgain))
        cases Option.some.inj (Except.ok.inj (now.symm.trans nowAgain))
        refine ⟨flags ?_, atomic.stale settles⟩
        rcases atomic.step with ⟨nothing, _⟩ | same
        · exact absurd nothing settles
        · exact Except.ok.inj (whole.symm.trans same)
      · intro recognised
        obtain ⟨delivered, spares⟩ := recognised seen current first now seq acked
        have size := size_of_unreplaced reads first now spares
        have same : current = seen := by
          cases current
          cases seen
          simp_all
        subst same
        exact ⟨.inr whole, fun _ => spares⟩
    · have unlike : ∀ current, transition.read (shared.interfere codecs between).tables =
          .ok (some current) → current.seq = seen.seq → current.userAcked ≠ seen.userAcked := by
        intro current nowAgain seq acked
        exact passes ⟨current, Except.ok.inj (now.symm.trans nowAgain), seq, acked⟩
      have refused := mutate_refused reads metReads first unlike
      refine ⟨fun _ was current firstAgain nowAgain seq acked => ?_, fun _ => ?_⟩
      · cases Option.some.inj (Except.ok.inj (first.symm.trans firstAgain))
        exact absurd acked (unlike current nowAgain seq)
      · refine ⟨.inl ⟨?_, ?_⟩, fun settled => absurd ?_ settled⟩
        · simp only [refused]
        · simp only [refused]
        · simp only [refused]

/-- The other connection puts a larger row in the place of the one that was read, in the same
state; the call deletes it and returns the size of the row that is gone. -/
theorem completeOut_settles_replaced :
    ∃ attempt, (Transition.completeOut 7 .waitPuback).attempt correlatedCodecs
        (Shared.run correlatedCodecs {} [(.own, .call (.putOut correlated))])
        [.call (.putOut { correlated with logicalSize := 20 })] = .ok attempt ∧
      attempt.outcome =
        .outMeta (some { mid := 7, state := .waitPuback, logicalSize := 9 }) ∧
      attempt.left.outbound.fetchOne 7 = none ∧
      ¬ attempt.Atomic correlatedCodecs (.completeOut 7 .waitPuback)
        [.call (.putOut { correlated with logicalSize := 20 })] := by
  refine ⟨_, rfl, rfl, rfl, fun atomic => ?_⟩
  refine atomic.stale nofun _ List.mem_cons_self ⟨rfl, by decide, by decide⟩

end Mqttium.Persistence
