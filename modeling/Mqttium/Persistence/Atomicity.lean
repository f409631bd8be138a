import Mqttium.Persistence.Agreement
import Mqttium.Persistence.Transactions

/-! Batches are atomic: nested blocks share one transaction, and an exception that
crosses the boundary of any of them takes all of it back. -/

namespace Mqttium.Persistence

open Library

variable {codecs : TextCodecs} {replies : Nat → Reply}

/-! The statements of the store -/

/-- A call that does not get to a statement leaves the store as it is. -/
theorem perform_unmutated {operation : Operation} {store : SqliteInflightStore}
    (read : operation.mutates store = false) :
    Sat (SqliteInflightStore.perform codecs operation) store (fun _ after => after = store)
      fun _ _ => True := by
  cases operation with
  | putOut message =>
    have zero : message.logicalSize = 0 := by simpa [Operation.mutates] using read
    simp [SqliteInflightStore.perform, SqliteInflightStore.putOut, zero]
  | putIn message =>
    have zero : message.logicalSize = 0 := by simpa [Operation.mutates] using read
    simp [SqliteInflightStore.perform, SqliteInflightStore.putIn, zero]
  | deleteOut mid => cases read
  | clearOut => cases read
  | markInDelivered mid => cases read
  | clearIn => cases read
  | getOut mid =>
    simp only [SqliteInflightStore.perform, SqliteInflightStore.getOut, sat_bind, sat_get]
    cases store.outbound.fetchOne mid <;> simp
  | getIn mid =>
    simp only [SqliteInflightStore.perform, SqliteInflightStore.getIn, sat_bind, sat_get]
    cases store.inbound.fetchOne mid <;> simp
  | outMeta mid =>
    simp only [SqliteInflightStore.perform, SqliteInflightStore.outMeta, sat_bind, sat_get]
    cases store.outbound.fetchOne mid <;> simp
  | inMeta mid =>
    simp only [SqliteInflightStore.perform, SqliteInflightStore.inMeta, sat_bind, sat_get]
    cases store.inbound.fetchOne mid <;> simp
  | inCount => simp [SqliteInflightStore.perform]
  | outSummaryPages pageSize =>
    simp [SqliteInflightStore.perform, SqliteInflightStore.outSummaryPages]
  | inIndexPages pageSize =>
    simp [SqliteInflightStore.perform, SqliteInflightStore.inIndexPages]
  | inReplayPages maxMessages maxBytes =>
    simp [SqliteInflightStore.perform, SqliteInflightStore.inReplayPages]
  | completeOut mid expected =>
    simp only [SqliteInflightStore.perform, SqliteInflightStore.completeOut, sat_bind, sat_get]
    cases fetched : store.outbound.fetchOne mid with
    | none => simp
    | some row =>
      cases decoded : storedOutTransition row with
      | error failure => simp [decoded]
      | ok found => simp_all [Operation.mutates]
  | transitionOut mid expected next compact =>
    simp only [SqliteInflightStore.perform, SqliteInflightStore.transitionOut, sat_bind, sat_get]
    cases fetched : store.outbound.fetchOne mid with
    | none => simp
    | some row =>
      cases decoded : storedOutTransition row with
      | error failure => simp [decoded]
      | ok found => simp_all [Operation.mutates]
  | transitionIn mid expected next userAcked =>
    simp only [SqliteInflightStore.perform, SqliteInflightStore.transitionIn, sat_bind, sat_get]
    cases fetched : store.inbound.fetchOne mid with
    | none => simp
    | some row =>
      cases decoded : storedInTransition row with
      | error failure => simp [decoded]
      | ok found => simp_all [Operation.mutates]
  | completeIn mid expected =>
    simp only [SqliteInflightStore.perform, SqliteInflightStore.completeIn, sat_bind, sat_get]
    cases fetched : store.inbound.fetchOne mid with
    | none => simp
    | some row =>
      cases decoded : storedInTransition row with
      | error failure => simp [decoded]
      | ok found => simp_all [Operation.mutates]

/-- Only an insertion advances a counter. -/
theorem perform_counters {operation : Operation} {store : DurableStore}
    (mutated : operation.mutates store.contents = true) :
    Sat (SqliteInflightStore.perform codecs operation) store.contents
      (fun _ after => after.outSeq = (store.number operation).outSeq ∧
        after.inSeq = (store.number operation).inSeq) fun _ _ => True := by
  cases operation with
  | putOut message =>
    simp only [SqliteInflightStore.perform, SqliteInflightStore.putOut, sat_bind, sat_raiseIf,
      sat_modify, sat_fromExcept, sat_pure]
    exact ⟨fun _ => trivial, fun _ => ⟨fun _ _ => ⟨rfl, rfl⟩, fun _ _ => trivial⟩⟩
  | putIn message =>
    simp only [SqliteInflightStore.perform, SqliteInflightStore.putIn, sat_bind, sat_raiseIf,
      sat_modify, sat_fromExcept, sat_pure]
    exact ⟨fun _ => trivial, fun _ => ⟨fun _ _ => ⟨rfl, rfl⟩, fun _ _ => trivial⟩⟩
  | deleteOut mid => exact ⟨rfl, rfl⟩
  | clearOut => exact ⟨rfl, rfl⟩
  | markInDelivered mid => exact ⟨rfl, rfl⟩
  | clearIn => exact ⟨rfl, rfl⟩
  | completeOut mid expected =>
    simp only [SqliteInflightStore.perform, SqliteInflightStore.completeOut, sat_bind, sat_get]
    cases store.contents.outbound.fetchOne mid with
    | none => exact ⟨rfl, rfl⟩
    | some row => simp [DurableStore.number, DurableStore.contents]
  | transitionOut mid expected next compact =>
    simp only [SqliteInflightStore.perform, SqliteInflightStore.transitionOut, sat_bind, sat_get]
    cases store.contents.outbound.fetchOne mid with
    | none => exact ⟨rfl, rfl⟩
    | some row => simp [DurableStore.number, DurableStore.contents]
  | transitionIn mid expected next userAcked =>
    simp only [SqliteInflightStore.perform, SqliteInflightStore.transitionIn, sat_bind, sat_get]
    cases store.contents.inbound.fetchOne mid with
    | none => exact ⟨rfl, rfl⟩
    | some row => simp [DurableStore.number, DurableStore.contents]
  | completeIn mid expected =>
    simp only [SqliteInflightStore.perform, SqliteInflightStore.completeIn, sat_bind, sat_get]
    cases store.contents.inbound.fetchOne mid with
    | none => exact ⟨rfl, rfl⟩
    | some row => simp [DurableStore.number, DurableStore.contents]
  | _ => cases mutated

/-! Inside a batch -/

@[simp] theorem sat_call {Value : Type}
    {program : Reply → EStateM Failure (Database Tables) Value} {store : DurableStore}
    {returned : Value → DurableStore → Prop} {failed : Failure → DurableStore → Prop} :
    Sat (DurableStore.call replies program) store returned failed ↔
      Sat (program (replies store.calls)) store.database
        (fun value database => returned value (store.answered replies database))
        fun failure database => failed failure (store.answered replies database) := by
  simp only [Sat, DurableStore.call]
  cases program (replies store.calls) store.database <;> rfl

theorem replay_append (writes : List Write) (write : Write) (tables : Tables) :
    replay codecs (writes ++ [write]) tables = write.apply codecs (replay codecs writes tables) := by
  rw [replay, replay, List.foldl_append]
  rfl

/-- What holds in an outermost batch that was entered with these contents and that many
crossings: nothing is durable yet, and the transaction holds the mutations that succeeded
unless a failing call took them back. -/
structure Inside (codecs : TextCodecs) (start : Tables) (crossed : Nat) (store : DurableStore) :
    Prop where
  durable : store.database.durable = start
  unstarted : store.transactionStarted = false → store.database.working = none
  opened : store.transactionStarted = true → store.database.closed = false
  held : store.lost = false → store.database.view = replay codecs store.writes start
  doomed : store.rollbackOnly = true ↔ crossed < store.crossings
  counted : crossed ≤ store.crossings

section

variable {start : Tables} {crossed : Nat} {store : DurableStore}

/-- A call that fails or only reads keeps what the batch holds, or takes all of it back. -/
theorem Inside.answered (inside : Inside codecs start crossed store) {database : Database Tables}
    (durable : database.durable = store.database.durable)
    (closed : database.closed = store.database.closed)
    (unstarted : store.transactionStarted = false → database.working = none)
    (view : database.view = store.database.view ∨
      replies store.calls = .rolledBack ∧ database.working = none) :
    Inside codecs start crossed (store.answered replies database) where
  durable := durable.trans inside.durable
  unstarted := unstarted
  opened started := closed.trans (inside.opened started)
  doomed := inside.doomed
  counted := inside.counted
  held kept := by
    simp only [DurableStore.answered, Bool.or_eq_false_iff] at kept ⊢
    obtain ⟨still, intact⟩ := kept
    have before := inside.held still
    rcases view with same | ⟨back, dropped⟩
    · exact same.trans before
    · have bare : database.view = start := by
        rw [Database.view, dropped, Option.getD_none, durable, inside.durable]
      rw [bare]
      by_cases empty : store.writes = []
      · rw [empty]
        rfl
      · have idle : store.database.working = none := by simpa [back, empty] using intact
        rw [← before, Database.view, idle, Option.getD_none, inside.durable]

theorem select_inside (inside : Inside codecs start crossed store) :
    Sat (DurableStore.call replies (Database.select .backend)) store
      (fun _ after => Inside codecs start crossed after ∧ after.batchDepth = store.batchDepth)
      fun _ after => Inside codecs start crossed after ∧ after.batchDepth = store.batchDepth := by
  rw [sat_call, Database.sat_select]
  have same : Inside codecs start crossed (store.answered replies store.database) :=
    inside.answered rfl rfl inside.unstarted (.inl rfl)
  refine ⟨fun _ => ⟨same, rfl⟩, fun _ => ?_⟩
  cases reply : replies store.calls with
  | rolledBack => exact ⟨inside.answered rfl rfl (fun _ => rfl) (.inr ⟨reply, rfl⟩), rfl⟩
  | done => exact ⟨same, rfl⟩
  | refused => exact ⟨same, rfl⟩
  | aborted => exact ⟨same, rfl⟩

theorem ensure_inside (inside : Inside codecs start crossed store) (deep : store.batchDepth ≠ 0) :
    Sat (DurableStore.ensureWriteTransaction replies) store
      (fun _ after => Inside codecs start crossed after ∧ after.batchDepth = store.batchDepth ∧
        after.transactionStarted = true)
      fun _ after => Inside codecs start crossed after ∧ after.batchDepth = store.batchDepth := by
  rw [DurableStore.ensureWriteTransaction, sat_bind, sat_get, sat_onlyIf]
  refine ⟨fun ⟨_, idle⟩ => ?_, fun still => ?_⟩
  · rw [sat_bind, sat_call, Database.sat_beginImmediate]
    refine ⟨fun _ => ⟨inside.answered rfl rfl inside.unstarted (.inl rfl), rfl⟩,
      fun opened bare _ => ?_⟩
    rw [sat_modify]
    refine ⟨⟨inside.durable, nofun, fun _ => opened, fun kept => ?_, inside.doomed, inside.counted⟩,
      rfl, rfl⟩
    have still : store.lost = false := (Bool.or_eq_false_iff.mp kept).1
    have before := inside.held still
    rwa [Database.view, bare] at before
  · exact ⟨inside, rfl, by simpa [deep] using still⟩

theorem Inside.number (inside : Inside codecs start crossed store) (operation : Operation) :
    Inside codecs start crossed (store.number operation) ∧
      (store.number operation).batchDepth = store.batchDepth ∧
      (store.number operation).transactionStarted = store.transactionStarted := by
  have kept : ∀ outSeq inSeq, Inside codecs start crossed { store with outSeq, inSeq } :=
    fun _ _ => ⟨inside.durable, inside.unstarted, inside.opened, inside.held, inside.doomed,
      inside.counted⟩
  cases operation with
  | putOut message => exact ⟨kept _ _, rfl, rfl⟩
  | putIn message => exact ⟨kept _ _, rfl, rfl⟩
  | _ => exact ⟨inside, rfl, rfl⟩

theorem execute_inside (inside : Inside codecs start crossed store)
    (started : store.transactionStarted = true) (write : Write) :
    Sat (DurableStore.call replies fun reply =>
        Database.execute .backend reply (write.statement codecs)) store
      (fun _ after =>
        Inside codecs start crossed { after with writes := after.writes ++ [write] } ∧
          after.batchDepth = store.batchDepth)
      fun _ after => Inside codecs start crossed after ∧ after.batchDepth = store.batchDepth := by
  rw [sat_call, Database.sat_execute]
  have absurdly : store.transactionStarted = false → store.database.working = none :=
    inside.unstarted
  have undone : Inside codecs start crossed
      (store.answered replies { store.database with working := some store.database.view }) :=
    inside.answered rfl rfl (by simp [started]) (.inl rfl)
  refine ⟨fun _ => ⟨inside.answered rfl rfl absurdly (.inl rfl), rfl⟩, fun _ => ?_⟩
  cases reply : replies store.calls with
  | refused => exact ⟨inside.answered rfl rfl absurdly (.inl rfl), rfl⟩
  | rolledBack => exact ⟨inside.answered rfl rfl (fun _ => rfl) (.inr ⟨reply, rfl⟩), rfl⟩
  | aborted => exact ⟨undone, rfl⟩
  | done =>
    simp only
    cases wrote : write.statement codecs store.database.view with
    | error failure => exact ⟨undone, rfl⟩
    | ok result =>
      obtain ⟨response, next⟩ := result
      refine ⟨⟨inside.durable, by simp [DurableStore.answered, started], inside.opened,
        fun kept => ?_, inside.doomed, inside.counted⟩, rfl⟩
      have still : store.lost = false := (Bool.or_eq_false_iff.mp kept).1
      rw [replay_append, DurableStore.answered, ← inside.held still, Write.apply, wrote]
      rfl

theorem mutate_inside (inside : Inside codecs start crossed store) (deep : store.batchDepth ≠ 0)
    (operation : Operation) :
    Sat (DurableStore.mutate codecs replies operation) store
      (fun _ after => Inside codecs start crossed after ∧ after.batchDepth = store.batchDepth)
      fun _ after => Inside codecs start crossed after ∧ after.batchDepth = store.batchDepth := by
  rw [DurableStore.mutate, sat_bind, sat_get, sat_ite]
  refine ⟨fun _ => ?_, fun _ => ?_⟩
  · rw [sat_bind]
    refine (ensure_inside inside deep).mono ?_ fun _ _ kept => kept
    intro _ ready ⟨open_, depth, started⟩
    rw [sat_bind, sat_modify, sat_bind]
    obtain ⟨numbered, level, unchanged⟩ := open_.number operation
    refine (execute_inside numbered (unchanged.trans started) _).mono ?_ ?_
    · intro response after ⟨kept, same⟩
      rw [sat_bind, sat_modify, sat_bind, DurableStore.commitIfNeeded, sat_bind, sat_get, sat_onlyIf]
      have still : after.batchDepth = store.batchDepth := same.trans (level.trans depth)
      exact ⟨fun outside => absurd (still ▸ outside) deep, fun _ => ⟨kept, still⟩⟩
    · intro failure after ⟨kept, same⟩
      exact ⟨kept, same.trans (level.trans depth)⟩
  · cases SqliteInflightStore.perform codecs operation store.contents with
    | ok response after => exact ⟨inside, rfl⟩
    | error failure after => exact ⟨inside, rfl⟩

theorem perform_inside (inside : Inside codecs start crossed store) (deep : store.batchDepth ≠ 0)
    (operation : Operation) :
    Sat (DurableStore.perform codecs replies operation) store
      (fun _ after => Inside codecs start crossed after ∧ after.batchDepth = store.batchDepth)
      fun _ after => Inside codecs start crossed after ∧ after.batchDepth = store.batchDepth := by
  have rest {between : DurableStore} (kept : Inside codecs start crossed between)
      (same : between.batchDepth = store.batchDepth) :
      Sat (DurableStore.mutate codecs replies operation) between
        (fun _ after => Inside codecs start crossed after ∧ after.batchDepth = store.batchDepth)
        fun _ after => Inside codecs start crossed after ∧ after.batchDepth = store.batchDepth :=
    same ▸ mutate_inside kept (same ▸ deep) operation
  rw [DurableStore.perform, sat_bind, sat_onlyIf]
  refine ⟨fun _ => ?_, fun _ => rest inside rfl⟩
  exact (select_inside inside).mono (fun _ _ ⟨kept, same⟩ => rest kept same) fun _ _ kept => kept

/-- An inner block that is left by an exception dooms the outermost one. -/
theorem batch_inside {block : DurableM PUnit} (inside : Inside codecs start crossed store)
    (deep : store.batchDepth ≠ 0)
    (within : ∀ inner, Inside codecs start crossed inner → inner.batchDepth ≠ 0 →
      Sat block inner
        (fun _ after => Inside codecs start crossed after ∧ after.batchDepth = inner.batchDepth)
        fun _ after => Inside codecs start crossed after ∧ after.batchDepth = inner.batchDepth) :
    Sat (DurableStore.batch replies block) store
      (fun _ after => Inside codecs start crossed after ∧ after.batchDepth = store.batchDepth)
      fun _ after => Inside codecs start crossed after ∧ after.batchDepth = store.batchDepth := by
  have entered : store.enter = { store with batchDepth := store.batchDepth + 1 } := if_neg deep
  rw [DurableStore.batch, sat_bind, sat_get, sat_bind, sat_modify, sat_bind, sat_attempt, entered]
  have same : Inside codecs start crossed { store with batchDepth := store.batchDepth + 1 } :=
    ⟨inside.durable, inside.unstarted, inside.opened, inside.held, inside.doomed, inside.counted⟩
  refine (within _ same (Nat.succ_ne_zero _)).mono ?_ ?_
  · intro _ after ⟨kept, level⟩
    rw [DurableStore.leave, sat_bind, sat_modify, sat_onlyIf]
    refine ⟨fun outermost => absurd outermost deep, fun _ => ⟨⟨kept.durable, kept.unstarted,
      kept.opened, kept.held, kept.doomed, kept.counted⟩, ?_⟩⟩
    simp only [level, Nat.add_sub_cancel]
  · intro failure after ⟨kept, level⟩
    rw [DurableStore.leave, DurableStore.cross, sat_bind, sat_bind, sat_modify, sat_onlyIf]
    refine ⟨fun outermost => absurd outermost deep, fun _ => ⟨⟨kept.durable, kept.unstarted,
      kept.opened, kept.held, ?_, Nat.le_succ_of_le kept.counted⟩, ?_⟩⟩
    · exact ⟨fun _ => Nat.lt_succ_of_le kept.counted, fun _ => rfl⟩
    · simp only [level, Nat.add_sub_cancel]

/-- The run lemma: whatever a block does, the batch it is in stays consistent. -/
theorem run_inside (program : Program) (inside : Inside codecs start crossed store)
    (deep : store.batchDepth ≠ 0) :
    Sat (program.run codecs replies) store
      (fun _ after => Inside codecs start crossed after ∧ after.batchDepth = store.batchDepth)
      fun _ after => Inside codecs start crossed after ∧ after.batchDepth = store.batchDepth := by
  induction program generalizing store with
  | done outcome =>
    cases outcome with
    | ok value => exact ⟨inside, rfl⟩
    | error failure => exact ⟨inside, rfl⟩
  | call operation next ih =>
    rw [Program.run, sat_bind, sat_attempt]
    refine (perform_inside inside deep operation).mono ?_ ?_
    · intro response between ⟨kept, same⟩
      exact same ▸ ih (.ok response) kept (same ▸ deep)
    · intro failure between ⟨kept, same⟩
      exact same ▸ ih (.error failure) kept (same ▸ deep)
  | batch block next block_ih ih =>
    rw [Program.run, sat_bind, sat_attempt]
    refine (batch_inside inside deep fun inner kept within => block_ih kept within).mono ?_ ?_
    · intro _ between ⟨kept, same⟩
      exact same ▸ ih (.ok ⟨⟩) kept (same ▸ deep)
    · intro failure between ⟨kept, same⟩
      exact same ▸ ih (.error failure) kept (same ▸ deep)

end

/-! Outside a batch -/

/-- Between batches: no transaction is open, and no flag of an earlier one is left. -/
structure AtRest (store : DurableStore) : Prop where
  outside : store.batchDepth = 0
  unstarted : store.transactionStarted = false
  clean : store.rollbackOnly = false
  idle : store.database.working = none

theorem Inside.enter {store : DurableStore} (rest : AtRest store) :
    Inside codecs store.database.durable store.crossings store.enter ∧
      store.enter.batchDepth = 1 := by
  rw [DurableStore.enter, if_pos rest.outside]
  refine ⟨⟨rfl, fun _ => rest.idle, fun started => ?_, fun _ => ?_, ?_, Nat.le_refl _⟩, rfl⟩
  · rw [rest.unstarted] at started
    cases started
  · rw [Database.view, rest.idle]
    rfl
  · simp

/-- The transaction is gone and these contents are durable; nothing else has changed. -/
structure Settled (durable : Tables) (store after : DurableStore) : Prop where
  idle : after.database.working = none
  durable : after.database.durable = durable
  outside : after.batchDepth = store.batchDepth
  started : after.transactionStarted = store.transactionStarted
  doomed : after.rollbackOnly = store.rollbackOnly
  outSeq : after.outSeq = store.outSeq
  inSeq : after.inSeq = store.inSeq

/-- A `COMMIT` that there is something for would fail. -/
def CommitFails (replies : Nat → Reply) (store : DurableStore) : Prop :=
  store.database.working.isSome = true ∧ replies store.calls ≠ .done

/-- The store is closed, or its transaction is taken back. -/
theorem rollback_settles (store : DurableStore) :
    Sat (DurableStore.rollbackOrClose replies) store
      (fun _ => Settled store.database.durable store) fun _ _ => False := by
  rw [DurableStore.rollbackOrClose, sat_bind, sat_attempt, sat_call, Database.sat_rollback]
  refine ⟨fun _ => ⟨rfl, rfl, rfl, rfl, rfl, rfl, rfl⟩, fun _ => ?_⟩
  cases bare : store.database.working with
  | none => exact ⟨bare, rfl, rfl, rfl, rfl, rfl, rfl⟩
  | some contents =>
    cases replies store.calls with
    | done => exact ⟨rfl, rfl, rfl, rfl, rfl, rfl, rfl⟩
    | rolledBack => exact ⟨rfl, rfl, rfl, rfl, rfl, rfl, rfl⟩
    | refused => exact ⟨rfl, rfl, rfl, rfl, rfl, rfl, rfl⟩
    | aborted => exact ⟨rfl, rfl, rfl, rfl, rfl, rfl, rfl⟩

theorem commit_settles (store : DurableStore) :
    Sat (DurableStore.commit replies) store
      (fun _ after => Settled store.database.view store after ∧ ¬ CommitFails replies store)
      fun _ after => Settled store.database.durable store after ∧
        (store.database.closed = true ∨ CommitFails replies store) := by
  have refused {database : Database Tables} {failure : Failure}
      (same : database.durable = store.database.durable)
      (failed : store.database.closed = true ∨ CommitFails replies store) :
      Sat (do DurableStore.rollbackOrClose replies; throw failure : DurableM PUnit)
        (store.answered replies database)
        (fun _ after => Settled store.database.view store after ∧ ¬ CommitFails replies store)
        fun _ after => Settled store.database.durable store after ∧
          (store.database.closed = true ∨ CommitFails replies store) := by
    rw [sat_bind]
    refine (rollback_settles _).mono (fun _ after settled => ?_) fun _ _ impossible =>
      impossible.elim
    exact ⟨⟨settled.idle, settled.durable.trans same, settled.outside, settled.started,
      settled.doomed, settled.outSeq, settled.inSeq⟩, failed⟩
  rw [DurableStore.commit, sat_bind, sat_attempt, sat_call, Database.sat_commit]
  refine ⟨fun closed => refused rfl (.inl closed), fun _ => ?_⟩
  cases bare : store.database.working with
  | none =>
    have nothing : ¬ CommitFails replies store := by
      intro ⟨transaction, _⟩
      simp [bare] at transaction
    refine ⟨⟨bare, ?_, rfl, rfl, rfl, rfl, rfl⟩, nothing⟩
    rw [Database.view, bare]
    rfl
  | some contents =>
    have fails (reply : replies store.calls ≠ .done) : CommitFails replies store :=
      ⟨by rw [bare]; rfl, reply⟩
    cases reply : replies store.calls with
    | done =>
      refine ⟨⟨rfl, ?_, rfl, rfl, rfl, rfl, rfl⟩, fun fails => fails.2 reply⟩
      rw [Database.view, bare]
      rfl
    | refused => exact refused rfl (.inr (fails (by simp [reply])))
    | aborted => exact refused rfl (.inr (fails (by simp [reply])))
    | rolledBack => exact refused rfl (.inr (fails (by simp [reply])))

theorem conclude_settles {start : Tables} {crossed : Nat} {store : DurableStore}
    (inside : Inside codecs start crossed store) (outside : store.batchDepth = 0) :
    Sat (DurableStore.conclude replies) store
      (fun _ after => AtRest after ∧ store.crossings = crossed ∧ ¬ CommitFails replies store ∧
        after.database.durable = store.database.view)
      fun _ after => AtRest after ∧ (crossed < store.crossings ∨ CommitFails replies store) ∧
        after.database.durable = start := by
  rw [DurableStore.conclude, sat_bind, sat_get, sat_ite]
  refine ⟨fun clean => ?_, fun doomed => ?_⟩
  · have uncrossed : store.crossings = crossed := by
      have kept : ¬ crossed < store.crossings := fun more => by
        rw [inside.doomed.mpr more] at clean
        cases clean
      exact Nat.le_antisymm (Nat.le_of_not_lt kept) inside.counted
    rw [sat_bind, sat_get, sat_bind, sat_attempt, sat_onlyIf]
    refine ⟨fun started => ?_, fun idle => ?_⟩
    · refine (commit_settles store).mono ?_ ?_
      · intro _ after ⟨settled, committed⟩
        rw [sat_bind, sat_modify, sat_fromExcept_ok]
        exact ⟨⟨settled.outside.trans outside, rfl, settled.doomed.trans clean, settled.idle⟩,
          uncrossed, committed, settled.durable⟩
      · intro failure after ⟨settled, failed⟩
        rw [sat_bind, sat_modify, sat_fromExcept_error]
        refine ⟨⟨settled.outside.trans outside, rfl, settled.doomed.trans clean, settled.idle⟩,
          .inr (failed.resolve_left ?_), settled.durable.trans inside.durable⟩
        simp [inside.opened started]
    · have bare := inside.unstarted (by simpa using idle)
      rw [sat_bind, sat_modify, sat_fromExcept_ok]
      refine ⟨⟨outside, rfl, clean, bare⟩, uncrossed, fun ⟨transaction, _⟩ => ?_, ?_⟩
      · simp [bare] at transaction
      · rw [Database.view, bare]
        rfl
  · have crossing : crossed < store.crossings := inside.doomed.mp (by simpa using doomed)
    rw [sat_bind, sat_get, sat_bind, sat_onlyIf]
    refine ⟨fun _ => ?_, fun idle => ?_⟩
    · refine (rollback_settles store).mono ?_ fun _ _ impossible => impossible.elim
      intro _ after settled
      rw [sat_bind, sat_modify, sat_throw]
      exact ⟨⟨settled.outside.trans outside, rfl, rfl, settled.idle⟩, .inl crossing,
        settled.durable.trans inside.durable⟩
    · rw [sat_bind, sat_modify, sat_throw]
      exact ⟨⟨outside, rfl, rfl, inside.unstarted (by simpa using idle)⟩, .inl crossing,
        inside.durable⟩

/-- How the outermost batch is left after a block that ended so. -/
theorem leave_settles {start : Tables} {crossed : Nat} {store : DurableStore}
    (inside : Inside codecs start crossed store) (level : store.batchDepth = 1)
    {outermost : Prop} [Decidable outermost] (last : outermost) (outcome : Except Failure PUnit) :
    Sat (DurableStore.leave replies outermost outcome) store
      (fun _ after => AtRest after ∧ outcome = .ok ⟨⟩ ∧ store.crossings = crossed ∧
        ¬ CommitFails replies store ∧ after.database.durable = store.database.view)
      fun _ after => AtRest after ∧
        (outcome ≠ .ok ⟨⟩ ∨ crossed < store.crossings ∨ CommitFails replies store) ∧
        after.database.durable = start := by
  cases outcome with
  | ok value =>
    rw [DurableStore.leave, sat_bind, sat_modify, sat_onlyIf]
    refine ⟨fun _ => ?_, fun inner => absurd last inner⟩
    have same : Inside codecs start crossed { store with batchDepth := store.batchDepth - 1 } :=
      ⟨inside.durable, inside.unstarted, inside.opened, inside.held, inside.doomed, inside.counted⟩
    refine (conclude_settles same (by simp [level])).mono ?_ ?_
    · intro _ after ⟨rest, uncrossed, committed, durable⟩
      exact ⟨rest, rfl, uncrossed, committed, durable⟩
    · intro failure after ⟨rest, why, durable⟩
      exact ⟨rest, .inr why, durable⟩
  | error failure =>
    rw [DurableStore.leave, DurableStore.cross, sat_bind, sat_bind, sat_modify, sat_onlyIf]
    refine ⟨fun _ => ?_, fun inner => absurd last inner⟩
    rw [sat_bind, sat_get, sat_bind, sat_onlyIf]
    refine ⟨fun _ => ?_, fun idle => ?_⟩
    · refine (rollback_settles _).mono ?_ fun _ _ impossible => impossible.elim
      intro _ after settled
      rw [sat_modify, sat_throw]
      refine ⟨⟨?_, rfl, rfl, settled.idle⟩, .inl nofun, settled.durable.trans inside.durable⟩
      exact settled.outside.trans (by simp [level])
    · rw [sat_modify, sat_throw]
      refine ⟨⟨by simp [level], rfl, rfl, inside.unstarted (by simpa using idle)⟩, .inl nofun,
        inside.durable⟩

/-- The statement of a call, if it is the one answered next, fails behind its implicit
`BEGIN` and leaves that transaction open. -/
def leavesOpen (codecs : TextCodecs) (replies : Nat → Reply) (operation : Operation)
    (store : DurableStore) : Bool :=
  let write : Write := { operation, outSeq := store.outSeq, inSeq := store.inSeq }
  !store.database.closed && operation.mutates store.contents &&
    match replies store.calls with
    | .aborted => true
    | .done => (write.statement codecs store.database.view).toOption.isNone
    | _ => false

/-- The same, with the read before the statement if the call makes one. -/
def strands (codecs : TextCodecs) (replies : Nat → Reply) (operation : Operation)
    (store : DurableStore) : Bool :=
  if operation.selects then
    replies store.calls = .done &&
      leavesOpen codecs replies operation (store.answered replies store.database)
  else leavesOpen codecs replies operation store

theorem number_frame (store : DurableStore) (operation : Operation) :
    store.number operation = { store with
      outSeq := (store.number operation).outSeq, inSeq := (store.number operation).inSeq } := by
  cases operation <;> rfl

theorem statement_eq (store : DurableStore) (operation : Operation) :
    ({ operation, outSeq := store.outSeq, inSeq := store.inSeq } : Write).statement codecs
      store.database.view =
      match SqliteInflightStore.perform codecs operation store.contents with
      | .ok response after =>
        .ok (response, { outbound := after.outbound, inbound := after.inbound })
      | .error failure _ => .error failure := rfl

/-- What a statement wrote is what the call does to the contents. -/
theorem statement_performs {store : DurableStore} {operation : Operation} {response : Response}
    {next : Tables} (mutated : operation.mutates store.contents = true)
    (wrote : ({ operation, outSeq := store.outSeq, inSeq := store.inSeq } : Write).statement codecs
      store.database.view = .ok (response, next)) :
    SqliteInflightStore.perform codecs operation store.contents = .ok response {
      outbound := next.outbound, inbound := next.inbound
      outSeq := (store.number operation).outSeq, inSeq := (store.number operation).inSeq } := by
  have counted := @perform_counters codecs _ _ mutated
  rw [statement_eq] at wrote
  unfold Sat at counted
  cases result : SqliteInflightStore.perform codecs operation store.contents with
  | error failure after => simp [result] at wrote
  | ok answer after =>
    rw [result] at wrote counted
    cases wrote
    obtain ⟨outSeq, inSeq⟩ := counted
    rw [← outSeq, ← inSeq]

theorem mutate_settles {store : DurableStore} (rest : AtRest store) {operation : Operation}
    (safe : leavesOpen codecs replies operation store = false) :
    Sat (DurableStore.mutate codecs replies operation) store
      (fun response after => AtRest after ∧
        SqliteInflightStore.perform codecs operation store.contents = .ok response after.contents)
      fun _ after => AtRest after ∧ after.database.durable = store.database.durable := by
  rw [DurableStore.mutate, sat_bind, sat_get, sat_ite]
  refine ⟨fun mutated => ?_, fun read => ?_⟩
  · rw [sat_bind, DurableStore.ensureWriteTransaction, sat_bind, sat_get, sat_onlyIf]
    refine ⟨fun deep => absurd rest.outside deep.1, fun _ => ?_⟩
    rw [sat_bind, sat_modify, number_frame, sat_bind, sat_call, Database.sat_execute]
    have unmoved {database : Database Tables} (bare : database.working = none) (outSeq inSeq : Nat) :
        AtRest ({ store with outSeq, inSeq }.answered replies database) :=
      ⟨rest.outside, rest.unstarted, rest.clean, bare⟩
    refine ⟨fun _ => ⟨unmoved rest.idle _ _, rfl⟩, fun opened => ?_⟩
    simp only at opened ⊢
    simp only [leavesOpen, opened, mutated, Bool.not_false, Bool.true_and] at safe
    cases reply : replies store.calls with
    | refused => exact ⟨unmoved rest.idle _ _, rfl⟩
    | rolledBack => exact ⟨unmoved rfl _ _, rfl⟩
    | aborted => simp [reply] at safe
    | done =>
      rw [reply] at safe
      cases wrote : ({ operation, outSeq := store.outSeq, inSeq := store.inSeq } : Write).statement
          codecs store.database.view with
      | error failure => simp [wrote, Except.toOption] at safe
      | ok result =>
        obtain ⟨response, next⟩ := result
        have performed := statement_performs mutated wrote
        simp only [sat_bind, sat_modify, DurableStore.commitIfNeeded, sat_get, sat_onlyIf, sat_pure]
        refine ⟨fun _ => ?_, fun inner => absurd rest.outside inner⟩
        refine (commit_settles _).mono ?_ ?_
        · rintro _ after ⟨settled, _⟩
          refine ⟨⟨settled.outside.trans rest.outside, settled.started.trans rest.unstarted,
            settled.doomed.trans rest.clean, settled.idle⟩, ?_⟩
          have durable : after.database.view = next := by
            rw [Database.view, settled.idle, Option.getD_none, settled.durable]
            rfl
          rw [performed, DurableStore.contents, durable, settled.outSeq, settled.inSeq]
          rfl
        · rintro failure after ⟨settled, _⟩
          exact ⟨⟨settled.outside.trans rest.outside, settled.started.trans rest.unstarted,
            settled.doomed.trans rest.clean, settled.idle⟩, settled.durable⟩
  · have unmutated := @perform_unmutated codecs operation store.contents (by simpa using read)
    unfold Sat at unmutated
    cases result : SqliteInflightStore.perform codecs operation store.contents with
    | ok response after =>
      rw [result] at unmutated
      exact ⟨rest, unmutated ▸ rfl⟩
    | error failure after => exact ⟨rest, rfl⟩

theorem perform_settles {store : DurableStore} (rest : AtRest store) {operation : Operation}
    (safe : strands codecs replies operation store = false) :
    Sat (DurableStore.perform codecs replies operation) store
      (fun response after => AtRest after ∧
        SqliteInflightStore.perform codecs operation store.contents = .ok response after.contents)
      fun _ after => AtRest after ∧ after.database.durable = store.database.durable := by
  unfold strands at safe
  rw [DurableStore.perform, sat_bind, sat_onlyIf]
  refine ⟨fun selects => ?_, fun blind => ?_⟩
  · rw [if_pos selects] at safe
    rw [sat_call, Database.sat_select]
    have unmoved {database : Database Tables} (bare : database.working = none) :
        AtRest (store.answered replies database) :=
      ⟨rest.outside, rest.unstarted, rest.clean, bare⟩
    refine ⟨fun _ => ⟨unmoved rest.idle, rfl⟩, fun _ => ?_⟩
    cases reply : replies store.calls with
    | refused => exact ⟨unmoved rest.idle, rfl⟩
    | aborted => exact ⟨unmoved rest.idle, rfl⟩
    | rolledBack => exact ⟨unmoved rfl, rfl⟩
    | done =>
      rw [reply, decide_eq_true rfl, Bool.true_and] at safe
      exact mutate_settles (unmoved rest.idle) safe
  · rw [if_neg blind] at safe
    exact mutate_settles rest safe

/-- The outermost batch is all or nothing. -/
theorem batch_settles {store : DurableStore} (rest : AtRest store) {block : DurableM PUnit}
    (outcome : Except Failure PUnit) (inside : DurableStore)
    (left : ended block store.enter = (outcome, inside))
    (consistent : Inside codecs store.database.durable store.crossings inside)
    (level : inside.batchDepth = 1) :
    Sat (DurableStore.batch replies block) store
      (fun _ after => AtRest after ∧ outcome = .ok ⟨⟩ ∧ inside.crossings = store.crossings ∧
        ¬ CommitFails replies inside ∧ after.database.durable = inside.database.view)
      fun _ after => AtRest after ∧
        (outcome ≠ .ok ⟨⟩ ∨ store.crossings < inside.crossings ∨ CommitFails replies inside) ∧
        after.database.durable = store.database.durable := by
  have leaving := @leave_settles codecs replies _ _ _ consistent level _ _ rest.outside outcome
  rw [DurableStore.batch, sat_bind, sat_get, sat_bind, sat_modify, sat_bind, sat_attempt, sat_ended,
    left]
  cases outcome with
  | ok value => exact leaving
  | error failure => exact leaving

/-! Whole runs -/

/-- A call outside a batch has its whole effect, or none. -/
def AloneAtomic (codecs : TextCodecs) (operation : Operation) (store : DurableStore) :
    Except Failure Response → DurableStore → Prop
  | .ok response, after =>
    SqliteInflightStore.perform codecs operation store.contents = .ok response after.contents
  | .error _, after => after.database.durable = store.database.durable

/-- The mutations that succeeded in an outermost batch are durable behind it when no
exception has crossed a boundary in it and its `COMMIT` does not fail. Otherwise it
raises, and what was durable before it is durable behind it. -/
def BatchAtomic (codecs : TextCodecs) (replies : Nat → Reply) (store : DurableStore)
    (blockEnd batchEnd : Except Failure PUnit × DurableStore) : Prop :=
  let inside := blockEnd.2
  let after := batchEnd.2
  let fine := blockEnd.1 = .ok ⟨⟩ ∧ inside.crossings = store.crossings ∧
    ¬ CommitFails replies inside
  (fine → batchEnd.1 = .ok ⟨⟩ ∧
    after.database.durable = replay codecs inside.writes store.database.durable) ∧
  (¬ fine → batchEnd.1 ≠ .ok ⟨⟩ ∧ after.database.durable = store.database.durable)

/-- At every step that a program takes outside a batch: the store is at rest before and
behind it, and the step is atomic. -/
def Atomically (codecs : TextCodecs) (replies : Nat → Reply) : Program → DurableStore → Prop
  | .done _, store => AtRest store
  | .call operation next, store =>
    let answer := ended (DurableStore.perform codecs replies operation) store
    AtRest store ∧ AloneAtomic codecs operation store answer.1 answer.2 ∧
      Atomically codecs replies (next answer.1) answer.2
  | .batch block next, store =>
    let blockEnd := ended (block.run codecs replies) store.enter
    let batchEnd := ended (DurableStore.batch replies (block.run codecs replies)) store
    AtRest store ∧ BatchAtomic codecs replies store blockEnd batchEnd ∧
      Atomically codecs replies (next batchEnd.1) batchEnd.2

/-- The steps do not reach a defect: outside a batch no statement fails with its implicit
transaction left open, and no batch that no exception has crossed is left behind a failing
call that took back mutations which had succeeded in it. -/
def Unharmed (codecs : TextCodecs) (replies : Nat → Reply) : Program → DurableStore → Prop
  | .done _, _ => True
  | .call operation next, store =>
    let answer := ended (DurableStore.perform codecs replies operation) store
    strands codecs replies operation store = false ∧
      Unharmed codecs replies (next answer.1) answer.2
  | .batch block next, store =>
    let blockEnd := ended (block.run codecs replies) store.enter
    let batchEnd := ended (DurableStore.batch replies (block.run codecs replies)) store
    (blockEnd.1 = .ok ⟨⟩ → blockEnd.2.crossings = store.crossings → blockEnd.2.lost = false) ∧
      Unharmed codecs replies (next batchEnd.1) batchEnd.2

theorem block_inside {store : DurableStore} (rest : AtRest store) (block : Program) :
    Inside codecs store.database.durable store.crossings
        (ended (block.run codecs replies) store.enter).2 ∧
      (ended (block.run codecs replies) store.enter).2.batchDepth = 1 := by
  obtain ⟨entered, level⟩ : Inside codecs store.database.durable store.crossings store.enter ∧
      store.enter.batchDepth = 1 := Inside.enter rest
  have deep : store.enter.batchDepth ≠ 0 := by simp [level]
  have kept := @run_inside codecs replies _ _ _ block entered deep
  rw [sat_ended, level] at kept
  rcases left : ended (block.run codecs replies) store.enter with ⟨outcome, within⟩
  rw [left] at kept
  cases outcome with
  | ok value => exact kept
  | error failure => exact kept

theorem batch_atomic {store : DurableStore} (rest : AtRest store) (block : Program)
    (kept : (ended (block.run codecs replies) store.enter).1 = .ok ⟨⟩ →
      (ended (block.run codecs replies) store.enter).2.crossings = store.crossings →
      (ended (block.run codecs replies) store.enter).2.lost = false) :
    AtRest (ended (DurableStore.batch replies (block.run codecs replies)) store).2 ∧
      BatchAtomic codecs replies store (ended (block.run codecs replies) store.enter)
        (ended (DurableStore.batch replies (block.run codecs replies)) store) := by
  have entered : Inside codecs store.database.durable store.crossings
      (ended (block.run codecs replies) store.enter).2 ∧
    (ended (block.run codecs replies) store.enter).2.batchDepth = 1 := block_inside rest block
  rcases left : ended (block.run codecs replies) store.enter with ⟨outcome, within⟩
  rw [left] at entered kept
  obtain ⟨inside, level⟩ := entered
  have settled := @batch_settles codecs replies _ rest _ outcome within left inside level
  rw [sat_ended] at settled
  rcases batched : ended (DurableStore.batch replies (block.run codecs replies)) store with
    ⟨result, after⟩
  rw [batched] at settled
  cases result with
  | ok value =>
    obtain ⟨quiet, fine, uncrossed, committed, durable⟩ := settled
    refine ⟨quiet, fun _ => ⟨rfl, ?_⟩, fun broken => absurd ⟨fine, uncrossed, committed⟩ broken⟩
    exact durable.trans (inside.held (kept fine uncrossed))
  | error failure =>
    obtain ⟨quiet, why, durable⟩ := settled
    refine ⟨quiet, fun ⟨fine, uncrossed, committed⟩ => ?_, fun _ => ⟨nofun, durable⟩⟩
    rcases why with raised | crossing | failed
    · exact absurd fine raised
    · exact absurd uncrossed (Nat.ne_of_gt crossing)
    · exact absurd failed committed

/-- Every program whose steps reach none of the defects is atomic at each of them. -/
theorem store_atomic (program : Program) {store : DurableStore} (rest : AtRest store)
    (unharmed : Unharmed codecs replies program store) :
    Atomically codecs replies program store := by
  induction program generalizing store with
  | done outcome => exact rest
  | call operation next ih =>
    obtain ⟨safe, later⟩ := unharmed
    have settled := perform_settles rest safe
    rw [sat_ended] at settled
    rw [Atomically]
    rcases answered : ended (DurableStore.perform codecs replies operation) store with
      ⟨result, after⟩
    rw [answered] at settled later
    refine ⟨rest, ?_⟩
    cases result with
    | ok response => exact ⟨settled.2, ih _ settled.1 later⟩
    | error failure => exact ⟨settled.2, ih _ settled.1 later⟩
  | batch block next _ ih =>
    obtain ⟨kept, later⟩ := unharmed
    obtain ⟨quiet, atomic⟩ := batch_atomic rest block kept
    exact ⟨rest, atomic, ih _ quiet later⟩

/-- Two publications are stored. -/
def stockedStore : DurableStore :=
  (ended ((Program.call (.putOut correlated) fun _ => .call (.putOut { correlated with mid := 8 })
    fun _ => .done (.ok ⟨⟩)).run correlatedCodecs fun _ => .done) {}).2

/-- A block deletes both and fails in an inner block, which is caught; then each is deleted alone. -/
def caughtProgram : Program :=
  .batch
    (.batch (.call (.deleteOut 7) fun _ => .done (.error (.value "inner failure"))) fun _ =>
      .call (.deleteOut 8) fun _ => .done (.ok ⟨⟩))
    fun _ => .call (.deleteOut 8) fun _ => .call (.deleteOut 7) fun _ => .done (.ok ⟨⟩)

/-- The `COMMIT` of the first deletion behind the block is refused. -/
def refusedCommit (call : Nat) : Reply := if call = 9 then .refused else .done

/-- The block deletes nothing, nor does the deletion whose `COMMIT` is refused. -/
theorem store_atomic_caught :
    Atomically correlatedCodecs refusedCommit caughtProgram stockedStore ∧
    stockedStore.database.durable.outbound.map Row.key = [7, 8] ∧
    (ended (caughtProgram.run correlatedCodecs refusedCommit)
      stockedStore).2.database.durable.outbound.map Row.key = [8] := by
  refine ⟨store_atomic caughtProgram ⟨?_, ?_, ?_, ?_⟩ ⟨?_, ?_, ?_, trivial⟩, ?_, ?_⟩
  · decide +kernel
  · decide +kernel
  · decide +kernel
  · decide +kernel
  · intro _ _
    decide +kernel
  · decide +kernel
  · decide +kernel
  · decide +kernel
  · decide +kernel

/-- The disk is full when the first statement runs. -/
def fullDisk (call : Nat) : Reply := if call = 0 then .aborted else .done

/-- A statement that fails outside a batch leaves its implicit transaction open, and the
next batch is refused. -/
theorem store_strands :
    let after := (ended (DurableStore.perform correlatedCodecs fullDisk .clearOut) {}).2
    after.closed = false ∧ after.database.working.isSome = true ∧
      (ended (DurableStore.batch fullDisk
        (discard (DurableStore.perform correlatedCodecs fullDisk .clearIn))) after).1 =
          .error .backend ∧
      ¬ Atomically correlatedCodecs fullDisk (.call .clearOut fun _ => .done (.ok ⟨⟩)) {} := by
  refine ⟨rfl, rfl, rfl, fun ⟨_, _, rest⟩ => ?_⟩
  exact absurd rest.idle (by decide)

end Mqttium.Persistence
