import Mqttium.Writer.Steps

/-! The batches: the writer task's own, and the short queue written at once. -/

namespace Mqttium.Writer

open Library Codec

theorem bytes_writeContiguous (hasWriteMany : Bool) (parts : List Bytes) :
    (writeContiguous hasWriteMany parts).flatMap Call.bytes = parts.flatten := by
  unfold writeContiguous
  split
  · rename_i none
    rw [none]
    rfl
  · split
    · simp [Call.bytes]
    · simp [List.flatMap_map, Call.bytes, List.flatMap_id']

/-- The calls of a batch hand over its frames in order, each in one piece. -/
theorem bytes_writeBatch (hasWriteMany : Bool) (batch : List WriteItem) (parts : List Bytes) :
    (writeBatch hasWriteMany batch parts).flatMap Call.bytes =
      parts.flatten ++ batch.flatMap WriteItem.bytes := by
  induction batch generalizing parts with
  | nil => simp [writeBatch, bytes_writeContiguous]
  | cons item rest ih =>
    cases item with
    | contiguous frame => simp [writeBatch, ih, WriteItem.bytes]
    | segmented header payload =>
      simp [writeBatch, ih, bytes_writeContiguous, WriteItem.bytes, Call.bytes]

namespace WritePump

variable {bounds : Bounds} {offered : WriteItem → Prop} {pump : WritePump}

theorem tries_tryFlushLatencyBatch (sound : pump.Sound offered) (answer : Nowait) :
    Tries bounds offered (tryFlushLatencyBatch answer) pump := by
  unfold Tries tryFlushLatencyBatch
  rw [sat_bind, sat_get, sat_ite]
  refine ⟨fun _ => tries_no, fun _ => ?_⟩
  rw [sat_ite]
  refine ⟨fun _ => tries_no, fun ready => ?_⟩
  simp only [Bool.or_eq_true, Bool.not_eq_eq_eq_not, Bool.not_true, bne_iff_ne, ne_eq, not_or,
    Bool.not_eq_false, Bool.not_eq_true] at ready
  obtain ⟨⟨bound, resting⟩, _⟩ := ready
  have idle := sound.idle bound resting
  have held := sound.held resting
  rw [sat_bind, sat_set, sat_ite]
  refine ⟨fun _ => ?_, fun _ => ?_⟩
  · rw [sat_bind, sat_restoreLatencyItems]
    exact tries_no
  · rw [sat_bind, sat_tryCatch]
    cases answer with
    | declined =>
      simp only [callNowait, sat_pure, Bool.false_eq_true, if_false, sat_bind,
        sat_restoreLatencyItems]
      exact ⟨False.elim, fun _ => rfl⟩
    | accepted =>
      obtain ⟨resident, bytes, unfinished⟩ := sound.counts
      rw [held] at resident bytes unfinished
      simp only [callNowait, sat_bind, sat_modify, sat_pure, if_true]
      refine (sat_taskDoneEach _ ?_).mpr ((sat_releaseResident _ ?_).mpr ?_)
      · exact unfinished.ge
      · exact resident.ge
      simp only [sat_get, sat_raiseIf, length_bytes, bytes, resident, unfinished, Int.sub_self,
        Nat.sub_self, ne_eq, not_true, not_false_eq_true, false_implies, forall_const, true_and]
      refine ⟨⟨?_, .once (.passLine idle)⟩, by rintro ⟨⟩⟩
      have empty : pump.stage.batch = [] := idle.batch
      refine ⟨sound.writing, ?_, sound.waiters, sound.parked, sound.bound, sound.stopping, sound.torn,
        sound.latency, sound.reported⟩
      refine ⟨?_, ?_, ?_⟩ <;> simp [view, Conveyor.held, empty]
    | raised taken =>
      simp only [callNowait, sat_bind, sat_modify, sat_throw, sat_fenceEagerFailure,
        sat_restoreLatencyItems]
      refine ⟨id, sound.fenced bound resting _, .once ?_⟩
      have cut : (pump.queue.flatMap WriteItem.bytes).take taken <+:
          pump.view.line.flatMap WriteItem.bytes := List.take_prefix _ _
      exact .tearLine _ idle cut

/-- The batch and the part of its calls that are still to come, as the writer holds them
between two calls. -/
abbrev between (pump : WritePump) (batch : List WriteItem) (calls : List Call) : WritePump :=
  { pump with stage := .writing batch [] calls }

theorem Sound.intact (sound : pump.Sound offered) (under : pump.stage.isWriting = true) :
    pump.torn = false := by
  by_contra torn
  rw [Bool.not_eq_false] at torn
  rcases sound.torn torn with ended | ⟨_, looping | getting⟩
  · rw [ended] at under
    cases under
  · rw [looping] at under
    cases under
  · rw [getting] at under
    cases under

/-- The writer task is done with its batch; the queue, the wire and the binding are as
they are then. -/
theorem Sound.settled (sound : pump.Sound offered) (queue : List WriteItem) (wire : Bytes)
    {torn nowait : Bool} {stage : Stage} (resting : stage.isWriting = false)
    (running : nowait = true → torn = false ∧ stage.isRunning = true)
    (stopping : pump.cancelling = true → nowait = false)
    (ended : torn = true → stage = .ended) (latency : pump.latencyFailure = true → torn = true) :
    { pump with
      queue
      writing := false
      unfinished := queue.length
      queuedBytes := total queue
      residentMessages := queue.length
      stage
      wire
      torn
      writeNowait := nowait : WritePump }.Sound offered := by
  refine ⟨resting.symm, ?_, sound.waiters, sound.parked, running, stopping,
    fun cut => Or.inl (ended cut), latency, sound.reported⟩
  have empty := Stage.batch_of_resting resting
  refine ⟨?_, ?_, ?_⟩ <;> simp [view, Conveyor.held, empty]

theorem Sound.gaveUp (sound : pump.Sound offered) (stopped : pump.stage = .ended)
    {failure : PumpError} (ordinary : ¬ failure.Accounting) :
    Sat (giveUp failure) pump (fun _ after => after.Sound offered ∧ after.view = pump.view)
      (fun _ _ => False) := by
  rw [sat_giveUp]
  have resting := sound.writing
  rw [stopped] at resting
  refine ⟨⟨rfl, ?_, sound.waiters, sound.parked, fun bound => (nomatch bound), fun _ => rfl,
    fun _ => Or.inl rfl, sound.latency, ?_⟩, ?_⟩
  · obtain ⟨resident, bytes, unfinished⟩ := sound.counts
    simp only [view, Conveyor.held, stopped] at resident bytes unfinished
    exact ⟨resident, bytes, unfinished⟩
  · intro error member
    rcases List.mem_append.mp member with old | new
    · exact sound.reported error old
    · rw [List.mem_singleton.mp new]
      exact ordinary
  · simp [view, stopped]

theorem keeps_callNext {batch : List WriteItem} {calls : List Call}
    (sound : (pump.between batch calls).Sound offered) :
    Sat (callNext batch calls) pump
      (fun _ after => after.Sound offered ∧ Conveys bounds offered (pump.between batch calls) after)
      (fun _ _ => False) := by
  have intact := sound.intact rfl
  have opened (statement : Prop) (torn : pump.torn = true) : statement := by
    rw [show pump.torn = false from intact] at torn
    cases torn
  cases calls with
  | nil =>
    unfold callNext completeBatch
    have counts : pump.Counts (batch ++ pump.queue) :=
      ⟨sound.counts.resident, sound.counts.bytes, sound.counts.unfinished⟩
    rw [sat_bind, sat_attempt]
    refine (sat_finishBatch counts).mpr ?_
    rw [sat_modify]
    refine ⟨?_, .once (.finish rfl)⟩
    exact sound.settled pump.queue pump.wire rfl (fun _ => ⟨intact, rfl⟩) sound.stopping (opened _)
      sound.latency
  | cons call later =>
    unfold callNext
    rw [sat_modify]
    refine ⟨?_, .same rfl⟩
    exact ⟨sound.writing, ⟨sound.counts.resident, sound.counts.bytes, sound.counts.unfinished⟩,
      sound.waiters, sound.parked, fun _ => ⟨intact, rfl⟩, sound.stopping, opened _, sound.latency,
      sound.reported⟩

/-- A batch fails: the writer retires with what is left in the queue. -/
theorem sat_failBatch {batch : List WriteItem} {failure : PumpError} {origin : WritePump}
    (counts : pump.Counts (batch ++ pump.queue)) (ordinary : ¬ failure.Accounting)
    (settled : Sound offered { pump with
      writing := false
      unfinished := pump.queue.length
      queuedBytes := total pump.queue
      residentMessages := pump.queue.length
      stage := .ended
      writeNowait := false })
    (moved : Conveys bounds offered origin { pump with stage := .ended }) :
    Sat (failBatch batch failure) pump
      (fun _ after => after.Sound offered ∧ Conveys bounds offered origin after)
      (fun _ _ => False) := by
  unfold failBatch
  rw [sat_bind, sat_attempt]
  refine (sat_finishBatch counts).mpr ?_
  have gave := settled.gaveUp rfl ordinary
  rw [sat_giveUp] at gave
  exact ⟨gave.1, moved⟩

theorem keeps_turn (sound : pump.Sound offered) : Keeps bounds offered turn pump := by
  unfold Keeps turn
  rw [sat_bind, sat_get]
  split
  · rename_i looping
    rw [sat_set]
    refine ⟨⟨?_, ?_, sound.waiters, sound.parked, ?_, sound.stopping, ?_, sound.latency,
      sound.reported⟩, .same ?_⟩
    · rw [sound.writing, looping]
      rfl
    · obtain ⟨resident, bytes, unfinished⟩ := sound.counts
      simp only [view, Conveyor.held, looping] at resident bytes unfinished
      exact ⟨resident, bytes, unfinished⟩
    · exact fun bound => ⟨(sound.bound bound).1, rfl⟩
    · intro torn
      rcases sound.torn torn with ended | ⟨failed, _⟩
      · rw [looping] at ended
        cases ended
      · exact Or.inr ⟨failed, Or.inr rfl⟩
    · simp [view, looping, Stage.batch, Stage.pending, Stage.isRunning]
  · rename_i getting
    have resting : pump.writing = false := by rw [sound.writing, getting]; rfl
    have counts : pump.Counts (pump.queue.take batchLimit ++ pump.queue.drop batchLimit) := by
      rw [List.take_append_drop, ← sound.held resting]
      exact sound.counts
    rw [sat_ite]
    refine ⟨fun _ => ⟨sound, .refl⟩, fun _ => ?_⟩
    rw [sat_bind, sat_set, sat_ite]
    refine ⟨fun failed => ?_, fun clean => ?_⟩
    · have torn := sound.latency failed
      have closed : pump.view.closed = true := by simp [view, torn]
      have batch : pump.view.batch = [] := by simp [view, getting, Stage.batch]
      have lost : Conveyor.Move WriteItem.bytes (Room bounds offered) pump.view _ :=
        .lose batchLimit closed batch
      have settled : Sound offered { pump with
          queue := pump.queue.drop batchLimit
          writing := false
          unfinished := (pump.queue.drop batchLimit).length
          queuedBytes := total (pump.queue.drop batchLimit)
          residentMessages := (pump.queue.drop batchLimit).length
          stage := .ended
          writeNowait := false } :=
        sound.settled _ _ rfl (by rintro ⟨⟩) (fun _ => rfl) (fun _ => rfl)
          sound.latency
      refine (sat_failBatch ⟨counts.resident, counts.bytes, counts.unfinished⟩ id ?_ ?_).mono
        (fun _ _ ended => ended) fun _ _ never => never.elim
      · exact settled.aside ⟨rfl, rfl, rfl, rfl, rfl, rfl, rfl, rfl, rfl, rfl, id, id⟩
      · refine .once ?_
        simpa [view, getting, torn, Stage.batch, Stage.pending] using lost
    · have intact : pump.torn = false := by
        by_contra torn
        rw [Bool.not_eq_false] at torn
        rcases sound.torn torn with ended | ⟨failed, _⟩
        · rw [getting] at ended
          cases ended
        · exact clean failed
      have idle : pump.view.Idle := by
        refine ⟨?_, ?_, ?_⟩ <;>
          simp [view, intact, getting, Stage.isRunning, Stage.batch, Stage.pending]
      have taken : Conveyor.Move WriteItem.bytes (Room bounds offered) pump.view _ :=
        .take batchLimit idle
      have under : Sound offered ({ pump with
          eagerArmed := false
          queue := pump.queue.drop batchLimit
          writing := true }.between (pump.queue.take batchLimit)
            (writeBatch pump.hasWriteMany (pump.queue.take batchLimit) [])) := by
        refine ⟨rfl, ⟨counts.resident, counts.bytes, counts.unfinished⟩, sound.waiters,
          sound.parked, fun _ => ⟨intact, rfl⟩, sound.stopping, ?_, sound.latency, sound.reported⟩
        intro torn
        rw [show pump.torn = true from torn] at intact
        cases intact
      apply (keeps_callNext under).mono
      · intro _ after ended
        refine ⟨ended.1, (Conveys.once ?_).trans ended.2⟩
        simpa [view, getting, intact, Stage.batch, Stage.pending, Stage.isRunning,
          bytes_writeBatch] using taken
      · exact fun _ _ never => never.elim
  · exact ⟨sound, .refl⟩

/-- What the transport takes of a call is the start of what the batch still has to send. -/
theorem sent_of_call (current : Bytes) (later : List Call) (count : Nat) :
    (current ++ later.flatMap Call.bytes).take (min count current.length) = current.take count ∧
      (current ++ later.flatMap Call.bytes).drop (min count current.length) =
        current.drop count ++ later.flatMap Call.bytes := by
  rcases Nat.le_total count current.length with short | long
  · rw [Nat.min_eq_left short, List.take_append_of_le_length short,
      List.drop_append_of_le_length short]
    exact ⟨rfl, rfl⟩
  · rw [Nat.min_eq_right long, List.take_left, List.drop_left, List.take_of_length_le long,
      List.drop_of_length_le long]
    exact ⟨rfl, rfl⟩

section

variable {batch : List WriteItem} {current : Bytes} {later : List Call}

theorem Sound.writes (sound : pump.Sound offered) (under : pump.stage = .writing batch current later) :
    pump.torn = false ∧ pump.view.closed = false ∧ pump.Counts (batch ++ pump.queue) := by
  have intact := sound.intact (by rw [under]; rfl)
  refine ⟨intact, ?_, ?_⟩
  · simp [view, intact, under, Stage.isRunning]
  · obtain ⟨resident, bytes, unfinished⟩ := sound.counts
    simp only [view, Conveyor.held, under, Stage.batch] at resident bytes unfinished
    exact ⟨resident, bytes, unfinished⟩

/-- The call under way stops after `count` more bytes, and its batch with it. -/
theorem Sound.tears (sound : pump.Sound offered)
    (under : pump.stage = .writing batch current later) (count : Nat) :
    Conveys bounds offered pump
      { pump with
        wire := pump.wire ++ current.take count
        torn := true
        stage := .ended } := by
  have torn : Conveyor.Move WriteItem.bytes (Room bounds offered) pump.view _ :=
    .tear (min count current.length) (sound.writes under).2.1
  refine .once ?_
  simpa [view, under, Stage.batch, Stage.pending, (sent_of_call current later count).1] using torn

end

theorem keeps_transportTakes (sound : pump.Sound offered) (count : Nat) :
    Keeps bounds offered (transportTakes count) pump := by
  unfold Keeps transportTakes
  rw [sat_modify]
  split
  · rename_i batch current later under
    obtain ⟨intact, opened, counts⟩ := sound.writes under
    have sent : Conveyor.Move WriteItem.bytes (Room bounds offered) pump.view _ :=
      .send (min count current.length) opened
    refine ⟨?_, .once ?_⟩
    · refine ⟨?_, ⟨counts.resident, counts.bytes, counts.unfinished⟩, sound.waiters, sound.parked,
        fun _ => ⟨intact, rfl⟩, sound.stopping, ?_, sound.latency, sound.reported⟩
      · rw [sound.writing, under]
        rfl
      · intro torn
        rw [show pump.torn = true from torn] at intact
        cases intact
    · simpa [view, under, Stage.batch, Stage.pending, Stage.isRunning,
        (sent_of_call current later count).1, (sent_of_call current later count).2] using sent
  · exact ⟨sound, .refl⟩

theorem keeps_callReturns (sound : pump.Sound offered) :
    Keeps bounds offered callReturns pump := by
  unfold Keeps callReturns
  rw [sat_bind, sat_get]
  split
  · rename_i batch later under
    have same : pump.between batch later = pump := by
      unfold between
      rw [← under]
    apply (keeps_callNext (same ▸ sound)).mono
    · intro _ after ended
      rw [same] at ended
      exact ended
    · exact fun _ _ never => never.elim
  · exact ⟨sound, .refl⟩

theorem keeps_callRaises (sound : pump.Sound offered) (count : Nat) :
    Keeps bounds offered (callRaises count) pump := by
  unfold Keeps callRaises
  rw [sat_bind, sat_get]
  split
  · rename_i batch current later under
    obtain ⟨_, _, counts⟩ := sound.writes under
    have ordinary : ¬ PumpError.transport.Accounting := id
    have moved : Conveys bounds offered pump _ := sound.tears under count
    rw [sat_bind, sat_set]
    refine Sat.mono (sat_failBatch ?_ ordinary ?_ moved) (fun _ _ ended => ended)
      fun _ _ never => never.elim
    · exact ⟨counts.resident, counts.bytes, counts.unfinished⟩
    · exact sound.settled _ _ rfl (fun bound => (nomatch bound)) (fun _ => rfl) (fun _ => rfl)
        fun _ => rfl
  · exact ⟨sound, .refl⟩

/-- The writer task ends between two batches. -/
theorem Sound.leaves (sound : pump.Sound offered) (unbound : pump.writeNowait = false)
    (resting : pump.stage.isWriting = false) :
    Sound offered { pump with stage := .ended } ∧
      Conveys bounds offered pump { pump with stage := .ended } := by
  have empty : pump.view.batch = [] := Stage.batch_of_resting resting
  refine ⟨⟨?_, ?_, sound.waiters, sound.parked, ?_, sound.stopping, fun _ => Or.inl rfl,
    sound.latency, sound.reported⟩, .once ?_⟩
  · rw [sound.writing, resting]
    rfl
  · obtain ⟨resident, bytes, unfinished⟩ := sound.counts
    simp only [view, Conveyor.held, Stage.batch_of_resting resting] at resident bytes unfinished
    exact ⟨resident, bytes, unfinished⟩
  · intro bound
    rw [show pump.writeNowait = true from bound] at unbound
    cases unbound
  · have closed : Conveyor.Move WriteItem.bytes (Room bounds offered) pump.view _ := .close empty
    have none := Stage.batch_of_resting resting
    have sent := Stage.pending_of_resting resting
    unfold WritePump.view at closed ⊢
    rw [none, sent] at closed ⊢
    simpa [Stage.batch, Stage.pending, Stage.isRunning] using closed

theorem keeps_cancelled (sound : pump.Sound offered) (cancelling : pump.cancelling = true)
    (count : Nat) : Keeps bounds offered (cancelled count) pump := by
  have unbound := sound.stopping cancelling
  unfold Keeps cancelled
  rw [sat_bind, sat_get]
  split
  · rename_i batch current later under
    obtain ⟨_, _, counts⟩ := sound.writes under
    have after : Counts { pump with wire := pump.wire ++ current.take count, torn := true }
        (batch ++ pump.queue) := ⟨counts.resident, counts.bytes, counts.unfinished⟩
    have never : pump.writeNowait = true → true = false ∧ Stage.ended.isRunning = true := by
      rw [unbound]
      exact fun stands => nomatch stands
    rw [sat_bind, sat_set, sat_bind, sat_attempt]
    refine (sat_finishBatch after).mpr ⟨?_, sound.tears under count⟩
    exact sound.settled pump.queue _ rfl never sound.stopping (fun _ => rfl) fun _ => rfl
  · rename_i looping
    exact sound.leaves unbound (by rw [looping]; rfl)
  · rename_i getting
    exact sound.leaves unbound (by rw [getting]; rfl)
  · exact ⟨sound, .refl⟩

theorem keeps_discard (sound : pump.Sound offered)
    (stopped : pump.stage = .absent ∨ pump.stage = .ended) :
    Keeps bounds offered WritePump.discard pump := by
  have resting : pump.stage.isWriting = false := by
    rcases stopped with absent | ended
    · rw [absent]; rfl
    · rw [ended]; rfl
  have closed : pump.view.closed = true := by
    rcases stopped with absent | ended
    · simp [view, absent, Stage.isRunning]
    · simp [view, ended, Stage.isRunning]
  have empty : pump.view.batch = [] := Stage.batch_of_resting resting
  have quiet : pump.writing = false := by rw [sound.writing, resting]
  obtain ⟨resident, bytes, unfinished⟩ := sound.counts
  rw [sound.held quiet] at resident bytes unfinished
  unfold Keeps WritePump.discard
  simp only [sat_bind, sat_dropEagerBinding, sat_get, sat_set]
  refine (sat_taskDoneEach _ ?_).mpr ?_
  · exact unfinished.ge
  · rw [sat_modify]
    refine (sat_releaseResident _ ?_).mpr ⟨?_, .once ?_⟩
    · exact resident.ge
    · refine ⟨resting.symm, ?_, sound.waiters, sound.parked, by rintro ⟨⟩,
        fun _ => rfl, sound.torn, sound.latency, sound.reported⟩
      have none := Stage.batch_of_resting resting
      refine ⟨?_, ?_, ?_⟩ <;> simp [view, Conveyor.held, none, resident, unfinished]
    · have lost : Conveyor.Move WriteItem.bytes (Room bounds offered) pump.view _ :=
        .lose pump.queue.length closed empty
      simpa [view] using lost

/-- A new connection starts with an empty pump. -/
theorem sat_connect (sound : pump.Sound offered) (nowait writeMany : Bool) :
    Sat (connect nowait writeMany) pump
      (fun _ after => after.Sound offered ∧ after.view = {})
      (fun error after => ¬ error.Accounting ∧ after.Sound offered ∧ after.view = {}) := by
  unfold connect reset start
  simp only [sat_bind, sat_modify, sat_dropEagerBinding, sat_get, sat_raiseIf, sat_set]
  refine ⟨fun running => (running.1 rfl).elim, fun _ => ⟨⟨rfl, ⟨rfl, rfl, rfl⟩, sound.waiters,
    sound.parked, fun _ => ⟨rfl, rfl⟩, by rintro ⟨⟩, by rintro ⟨⟩,
    by rintro ⟨⟩, sound.reported⟩, rfl⟩⟩

end WritePump

end Mqttium.Writer
