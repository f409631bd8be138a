import Mqttium.Library.Conveyor
import Mqttium.Writer.Pump

/-! Every step of the pump is a few moves of a conveyor of frames, and keeps its
counters equal to what the conveyor holds. -/

namespace Mqttium.Writer

open Library Codec

def PumpError.Accounting : PumpError → Prop
  | assertion _ | taskDone => True
  | _ => False

namespace Stage

def batch : Stage → List WriteItem
  | writing batch _ _ => batch
  | _ => []

def pending : Stage → Bytes
  | writing _ current later => current ++ later.flatMap Call.bytes
  | _ => []

def isWriting : Stage → Bool
  | writing _ _ _ => true
  | _ => false

/-- The writer task exists and has not given up. -/
def isRunning : Stage → Bool
  | absent | ended => false
  | _ => true

theorem batch_of_resting {stage : Stage} (resting : stage.isWriting = false) :
    stage.batch = [] := by
  cases stage <;> first | rfl | cases resting

theorem pending_of_resting {stage : Stage} (resting : stage.isWriting = false) :
    stage.pending = [] := by
  cases stage <;> first | rfl | cases resting

end Stage

def total (items : List WriteItem) : Nat := (items.map WriteItem.size).sum

@[simp] theorem total_append (front back : List WriteItem) :
    total (front ++ back) = total front + total back := by
  simp [total]

@[simp] theorem total_nil : total [] = 0 := rfl

@[simp] theorem total_singleton (item : WriteItem) : total [item] = item.size := by
  simp [total]

@[simp] theorem length_bytes (items : List WriteItem) :
    (items.flatMap WriteItem.bytes).length = total items := by
  simp [total, List.length_flatMap]

/-- The pump takes one more frame beside those it holds: within both limits, or when
it holds no byte. -/
def Room (bounds : Bounds) (offered : WriteItem → Prop) (held : List WriteItem)
    (item : WriteItem) : Prop :=
  offered item ∧
    (total held = 0 ∨
      held.length < bounds.maxMessages ∧ total held + item.size ≤ bounds.maxBytes)

namespace WritePump

def view (pump : WritePump) : Conveyor WriteItem UInt8 where
  line := pump.queue
  batch := pump.stage.batch
  pending := pump.stage.pending
  admitted := pump.admitted
  wire := pump.wire
  closed := pump.torn || !pump.stage.isRunning
  torn := pump.torn

/-- The counters stand at these frames. -/
structure Counts (pump : WritePump) (items : List WriteItem) : Prop where
  resident : pump.residentMessages = items.length
  bytes : pump.queuedBytes = total items
  unfinished : pump.unfinished = items.length

structure Sound (offered : WriteItem → Prop) (pump : WritePump) : Prop where
  writing : pump.writing = pump.stage.isWriting
  counts : pump.Counts pump.view.held
  waiters : pump.waiters = pump.parked.length
  parked : ∀ producer ∈ pump.parked, producer.size = producer.item.size ∧ offered producer.item
  bound : pump.writeNowait = true → pump.torn = false ∧ pump.stage.isRunning = true
  stopping : pump.cancelling = true → pump.writeNowait = false
  /-- After a tear the writer task has ended, or finds the failure before it writes. -/
  torn : pump.torn = true → pump.stage = .ended ∨
    pump.latencyFailure = true ∧ (pump.stage = .looping ∨ pump.stage = .getting)
  latency : pump.latencyFailure = true → pump.torn = true
  reported : ∀ error ∈ pump.reported, ¬ error.Accounting

/-- Only fields that neither the conveyor nor the counters show differ. -/
structure Alike (before after : WritePump) : Prop where
  view : after.view = before.view
  stage : after.stage = before.stage
  writing : after.writing = before.writing
  resident : after.residentMessages = before.residentMessages
  bytes : after.queuedBytes = before.queuedBytes
  unfinished : after.unfinished = before.unfinished
  waiters : after.waiters = before.waiters
  parked : after.parked = before.parked
  latency : after.latencyFailure = before.latencyFailure
  reported : after.reported = before.reported
  bound : after.writeNowait = true → before.writeNowait = true
  stopping : after.cancelling = true → before.cancelling = true

abbrev Conveys (bounds : Bounds) (offered : WriteItem → Prop) : WritePump → WritePump → Prop :=
  fun before after => Conveyor.Steps WriteItem.bytes (Room bounds offered) before.view after.view

/-- The program keeps the pump sound, moves its conveyor and raises no accounting error. -/
def Keeps (bounds : Bounds) (offered : WriteItem → Prop) {Value : Type} (program : PumpM Value)
    (pump : WritePump) : Prop :=
  Sat program pump
    (fun _ after => after.Sound offered ∧ Conveys bounds offered pump after)
    (fun error after => ¬ error.Accounting ∧ after.Sound offered ∧
      Conveys bounds offered pump after)

section

variable {bounds : Bounds} {offered : WriteItem → Prop} {pump : WritePump}
  {returned : PUnit → WritePump → Prop} {raised : PumpError → WritePump → Prop}

theorem Sound.idle (sound : pump.Sound offered) (bound : pump.writeNowait = true)
    (resting : pump.writing = false) : pump.view.Idle := by
  have quiet : pump.stage.isWriting = false := by rw [← sound.writing, resting]
  obtain ⟨intact, running⟩ := sound.bound bound
  refine ⟨?_, Stage.batch_of_resting quiet, Stage.pending_of_resting quiet⟩
  change (pump.torn || !pump.stage.isRunning) = false
  rw [intact, running]
  rfl

/-- With nothing being written the conveyor holds the queue. -/
theorem Sound.held (sound : pump.Sound offered) (resting : pump.writing = false) :
    pump.view.held = pump.queue := by
  have quiet : pump.stage.isWriting = false := by rw [← sound.writing, resting]
  change pump.stage.batch ++ pump.queue = pump.queue
  rw [Stage.batch_of_resting quiet, List.nil_append]

theorem Sound.aside {after : WritePump} (sound : pump.Sound offered)
    (alike : pump.Alike after) : after.Sound offered := by
  have torn : after.torn = pump.torn := congrArg Conveyor.torn alike.view
  refine ⟨?_, ⟨?_, ?_, ?_⟩, ?_, ?_, ?_, ?_, ?_, ?_, ?_⟩
  · rw [alike.writing, alike.stage, sound.writing]
  · rw [alike.resident, alike.view, sound.counts.resident]
  · rw [alike.bytes, alike.view, sound.counts.bytes]
  · rw [alike.unfinished, alike.view, sound.counts.unfinished]
  · rw [alike.waiters, alike.parked, sound.waiters]
  · rw [alike.parked]
    exact sound.parked
  · rw [torn, alike.stage]
    exact fun stands => sound.bound (alike.bound stands)
  · intro cancelling
    have dropped := sound.stopping (alike.stopping cancelling)
    exact Bool.eq_false_iff.mpr fun stands => by simp [alike.bound stands] at dropped
  · rw [torn, alike.stage, alike.latency]
    exact sound.torn
  · rw [torn, alike.latency]
    exact sound.latency
  · rw [alike.reported]
    exact sound.reported

@[simp] theorem sat_putNowait (item : WriteItem) :
    Sat (putNowait item) pump returned raised ↔
      returned ⟨⟩ { pump with queue := pump.queue ++ [item], unfinished := pump.unfinished + 1 } :=
  Iff.rfl

@[simp] theorem sat_charge (item : WriteItem) :
    Sat (charge item) pump returned raised ↔
      returned ⟨⟩ { pump with
        queue := pump.queue ++ [item]
        unfinished := pump.unfinished + 1
        queuedBytes := pump.queuedBytes + item.size
        admitted := pump.admitted ++ [item]
        residentMessages := pump.residentMessages + 1 } :=
  Iff.rfl

@[simp] theorem sat_dropEagerBinding :
    Sat dropEagerBinding pump returned raised ↔
      returned ⟨⟩ { pump with
        eagerGeneration := pump.eagerGeneration + 1
        eagerArmed := false
        ackEagerArmed := false
        eagerRearmScheduled := false
        ackRearmOwner := none
        ackRearmDeferred := false
        writeNowait := false } :=
  Iff.rfl

@[simp] theorem sat_fenceEagerFailure :
    Sat fenceEagerFailure pump returned raised ↔
      returned ⟨⟩ { pump with
        latencyFailure := true
        eagerGeneration := pump.eagerGeneration + 1
        eagerArmed := false
        ackEagerArmed := false
        eagerRearmScheduled := false
        ackRearmOwner := none
        ackRearmDeferred := false
        writeNowait := false
        epoch := pump.epoch + 1 } :=
  Iff.rfl

@[simp] theorem sat_putEach (items : List WriteItem) :
    Sat (forEach putNowait items) pump returned raised ↔
      returned ⟨⟩ { pump with
        queue := pump.queue ++ items
        unfinished := pump.unfinished + items.length } := by
  induction items generalizing pump with
  | nil => simp [forEach]
  | cons item rest ih =>
    simp only [forEach, sat_bind, sat_putNowait, ih, List.append_assoc, List.singleton_append,
      List.length_cons]
    rw [Nat.add_assoc, Nat.add_comm 1]

@[simp] theorem sat_taskDone :
    Sat taskDone pump returned raised ↔
      (pump.unfinished = 0 → raised .taskDone pump) ∧
        (pump.unfinished ≠ 0 → returned ⟨⟩ { pump with unfinished := pump.unfinished - 1 }) := by
  simp only [taskDone, sat_bind, sat_get, sat_raiseIf, sat_set, ne_eq]

theorem sat_taskDoneEach (items : List WriteItem) (enough : items.length ≤ pump.unfinished) :
    Sat (forEach (fun _ => taskDone) items) pump returned raised ↔
      returned ⟨⟩ { pump with unfinished := pump.unfinished - items.length } := by
  induction items generalizing pump with
  | nil => simp [forEach]
  | cons item rest ih =>
    rw [List.length_cons] at enough
    have some : pump.unfinished ≠ 0 := Nat.ne_of_gt (Nat.lt_of_lt_of_le (Nat.succ_pos _) enough)
    have left : rest.length ≤ pump.unfinished - 1 := Nat.le_sub_of_add_le enough
    simp only [forEach, sat_bind, sat_taskDone, some, false_implies, true_and, ne_eq, not_false_eq_true,
      forall_const]
    refine (ih left).trans ?_
    simp only [List.length_cons, Nat.sub_sub, Nat.add_comm 1]

/-- Putting extracted frames back leaves the unfinished work as it was. -/
@[simp] theorem sat_restoreLatencyItems (items : List WriteItem) :
    Sat (restoreLatencyItems items) pump returned raised ↔
      returned ⟨⟩ { pump with queue := pump.queue ++ items } := by
  simp only [restoreLatencyItems, sat_bind, sat_putEach]
  refine (sat_taskDoneEach _ (Nat.le_add_left _ _)).trans ?_
  simp only [Nat.add_sub_cancel]

theorem sat_releaseResident (count : Nat) (enough : count ≤ pump.residentMessages) :
    Sat (releaseResident count) pump returned raised ↔
      returned ⟨⟩ { pump with residentMessages := pump.residentMessages - count } := by
  simp only [releaseResident, sat_bind, sat_get, sat_raiseIf, sat_set]
  simp [Nat.not_lt.mpr enough]

/-- Once a batch is over the counters stand at what is left. -/
theorem sat_finishBatch {batch rest : List WriteItem} (counts : pump.Counts (batch ++ rest)) :
    Sat (finishBatch batch) pump returned raised ↔
      returned ⟨⟩ { pump with
        writing := false
        unfinished := rest.length
        queuedBytes := total rest
        residentMessages := rest.length } := by
  obtain ⟨resident, bytes, unfinished⟩ := counts
  rw [List.length_append] at resident unfinished
  rw [total_append] at bytes
  simp only [finishBatch, sat_bind, sat_modify]
  refine (sat_taskDoneEach _ ?_).trans ?_
  · exact unfinished ▸ Nat.le_add_right _ _
  · refine (sat_releaseResident _ ?_).trans ?_
    · exact resident ▸ Nat.le_add_right _ _
    · have left : max 0 (pump.queuedBytes - (batch.map WriteItem.size).sum) = total rest := by
        change max 0 (pump.queuedBytes - (total batch : Int)) = total rest
        omega
      simp only [resident, unfinished, Nat.add_sub_cancel_left, left]

@[simp] theorem sat_giveUp (failure : PumpError) :
    Sat (giveUp failure) pump returned raised ↔
      returned ⟨⟩ { pump with
        eagerGeneration := pump.eagerGeneration + 1
        eagerArmed := false
        ackEagerArmed := false
        eagerRearmScheduled := false
        ackRearmOwner := none
        ackRearmDeferred := false
        writeNowait := false
        writing := false
        epoch := pump.epoch + (if pump.latencyFailure then 0 else 1)
        stage := .ended
        reported := pump.reported ++ [failure] } :=
  Iff.rfl

end

end WritePump

end Mqttium.Writer
