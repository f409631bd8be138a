import Mqttium.Writer.Batches

/-! Whole runs of the pump: what the wire has taken, and what the counters say. -/

namespace Mqttium.Writer

open Library Codec

namespace Step

/-- Every frame the step brings is `offered`. -/
def Offers (offered : WriteItem → Prop) : Step → Prop
  | tryEnqueue _ item _ | tryEnqueueTerminal _ item _ | enqueue _ item _ _ => offered item
  | tryEnqueueAck _ _ frame _ | enqueueAck _ _ frame _ _ => offered (.contiguous frame)
  | _ => True

/-- The step starts another generation of the writer. -/
def Connects : Step → Prop
  | connect _ _ => True
  | _ => False

end Step

namespace WritePump

variable {bounds : Bounds} {offered : WriteItem → Prop} {pump : WritePump} {step : Step}

theorem Tries.discarded {program : PumpM Bool} (tries : Tries bounds offered program pump)
    (sound : pump.Sound offered) : Keeps bounds offered (Functor.discard program) pump := by
  unfold Keeps
  rw [sat_discard]
  exact tries.keeps sound

theorem keeps_step (sound : pump.Sound offered) (offers : step.Offers offered)
    (permitted : step.permitted pump) (stays : ¬ step.Connects) :
    Keeps bounds offered (step.run bounds) pump := by
  cases step with
  | tryEnqueue answer item epoch => exact (tries_tryEnqueue sound answer offers epoch).discarded sound
  | tryEnqueueTerminal answer item epoch =>
    unfold Keeps Step.run
    rw [sat_discard]
    exact keeps_tryEnqueueTerminal sound answer offers epoch
  | tryEnqueueAck answer caller frame epoch =>
    exact (tries_tryEnqueueAck sound answer caller offers epoch).discarded sound
  | enqueue answer item nowait epoch =>
    unfold Keeps Step.run WritePump.enqueue
    rw [sat_bind, sat_get]
    exact keeps_enqueueAfter sound offers (tries_tryEnqueue sound answer offers _) nowait _
  | enqueueAck answer caller frame nowait epoch =>
    unfold Keeps Step.run WritePump.enqueueAck
    rw [sat_bind, sat_get]
    exact keeps_enqueueAfter sound offers (tries_tryEnqueueAck sound answer caller offers _)
      nowait _
  | resume index => exact keeps_resume sound index
  | abandon index => exact keeps_abandon sound index
  | flushLatencyBatch answer => exact (tries_tryFlushLatencyBatch sound answer).discarded sound
  | callback index => exact (aside_runCallback index).keeps sound
  | rearmDeferredAck => exact aside_rearmDeferredAck.keeps sound
  | ownAckRearm task => exact (aside_ownAckRearm task).keeps sound
  | sealPump => exact aside_sealPump.keeps sound
  | setEpoch epoch => exact (aside_setEpoch epoch).keeps sound
  | connect nowait writeMany => exact (stays trivial).elim
  | turn => exact keeps_turn sound
  | transportTakes count => exact keeps_transportTakes sound count
  | callReturns => exact keeps_callReturns sound
  | callRaises count => exact keeps_callRaises sound count
  | stop => exact aside_stop.keeps sound
  | cancelled count => exact keeps_cancelled sound permitted count
  | discard => exact keeps_discard sound permitted

/-- The exception a step ends with, if it does. -/
def raises (bounds : Bounds) (pump : WritePump) (step : Step) : Option PumpError :=
  if step.permitted pump then
    match (ended (step.run bounds) pump).1 with
    | .ok _ => none
    | .error error => some error
  else none

/-- One step keeps the pump sound, moves its conveyor or renews it, and raises no
accounting error. -/
theorem Sound.after (sound : pump.Sound offered) (offers : step.Offers offered) :
    (pump.after bounds step).Sound offered ∧
      (step.Connects ∧ (pump.after bounds step).view = {} ∨
        Conveys bounds offered pump (pump.after bounds step)) ∧
      ∀ error, pump.raises bounds step = some error → ¬ error.Accounting := by
  unfold WritePump.after raises
  by_cases permitted : step.permitted pump
  · rw [if_pos permitted, if_pos permitted]
    by_cases connects : step.Connects
    · cases step <;> try exact connects.elim
      rename_i nowait writeMany
      have run : Step.run bounds (.connect nowait writeMany) = connect nowait writeMany := rfl
      have done := sat_connect sound nowait writeMany
      rw [sat_ended] at done
      rw [run]
      generalize ended (connect nowait writeMany) pump = outcome at done ⊢
      obtain ⟨ended, after⟩ := outcome
      cases ended with
      | ok value => exact ⟨done.1, Or.inl ⟨trivial, done.2⟩, fun _ none => nomatch none⟩
      | error error =>
        refine ⟨done.2.1, Or.inl ⟨trivial, done.2.2⟩, fun other same => ?_⟩
        cases same
        exact done.1
    · have done : Keeps bounds offered (step.run bounds) pump :=
        keeps_step sound offers permitted connects
      unfold Keeps at done
      rw [sat_ended] at done
      generalize ended (step.run bounds) pump = outcome at done ⊢
      obtain ⟨ended, after⟩ := outcome
      cases ended with
      | ok value => exact ⟨done.1, Or.inr done.2, fun _ none => nomatch none⟩
      | error error =>
        refine ⟨done.2.1, Or.inr done.2.2, fun other same => ?_⟩
        cases same
        exact done.1
  · rw [if_neg permitted, if_neg permitted]
    exact ⟨sound, Or.inr .refl, fun _ none => nomatch none⟩

/-- Every run from a new pump is sound and in order, and fits what its frames allow. -/
theorem sound_runs {fits : List WriteItem → Prop} (steps : List Step)
    (shrinks : ∀ {front back}, fits (front ++ back) → fits back)
    (grows : ∀ {held item}, fits held → Room bounds offered held item → fits (held ++ [item]))
    (offers : ∀ step ∈ steps, step.Offers offered) (sound : pump.Sound offered)
    (ordered : pump.view.Ordered WriteItem.bytes) (fitting : fits pump.view.held) :
    (pump.runs bounds steps).Sound offered ∧
      (pump.runs bounds steps).view.Ordered WriteItem.bytes ∧
      fits (pump.runs bounds steps).view.held := by
  induction steps generalizing pump with
  | nil => exact ⟨sound, ordered, fitting⟩
  | cons step rest ih =>
    obtain ⟨kept, moved, _⟩ := @Sound.after bounds _ _ step sound (offers step List.mem_cons_self)
    have later := fun other member => offers other (List.mem_cons_of_mem step member)
    rcases moved with ⟨_, fresh⟩ | moved
    · refine ih later kept ?_ ?_
      · rw [fresh]
        exact .start false
      · rw [fresh]
        exact @shrinks pump.view.held [] (by simpa using fitting)
    · exact ih later kept (ordered.steps moved) (Conveyor.Steps.fits shrinks grows moved fitting)

theorem sound_new : ({} : WritePump).Sound offered :=
  ⟨rfl, ⟨rfl, rfl, rfl⟩, rfl, fun _ none => (nomatch none), fun bound => (nomatch bound),
    fun stops => (nomatch stops), fun cut => (nomatch cut), fun failed => (nomatch failed),
    fun _ none => (nomatch none)⟩

/-- A torn wire stays as it is until another connection. -/
theorem frozen_runs (steps : List Step) (offers : ∀ step ∈ steps, step.Offers offered)
    (stays : ∀ step ∈ steps, ¬ step.Connects) (sound : pump.Sound offered)
    (closed : pump.view.closed = true) : (pump.runs bounds steps).wire = pump.wire := by
  induction steps generalizing pump with
  | nil => rfl
  | cons step rest ih =>
    obtain ⟨kept, moved, _⟩ := @Sound.after bounds _ _ step sound (offers step List.mem_cons_self)
    rcases moved with ⟨connects, _⟩ | moved
    · exact absurd connects (stays step List.mem_cons_self)
    · obtain ⟨same, still⟩ := Conveyor.Steps.frozen moved closed
      have rest := ih (fun other member => offers other (List.mem_cons_of_mem step member))
        (fun other member => stays other (List.mem_cons_of_mem step member)) kept still
      exact rest.trans same

/-- A latency batch that is declined or holds a segmented frame changes nothing. -/
theorem flush_restores (answer : Nowait)
    (restored : answer = .declined ∨ pump.queue.any isSegmented = true) :
    Sat (tryFlushLatencyBatch answer) pump (fun done after => done = false ∧ after = pump)
      fun _ _ => False := by
  unfold tryFlushLatencyBatch
  rw [sat_bind, sat_get, sat_ite]
  refine ⟨fun _ => ⟨rfl, rfl⟩, fun _ => ?_⟩
  rw [sat_ite]
  refine ⟨fun _ => ⟨rfl, rfl⟩, fun _ => ?_⟩
  rw [sat_bind, sat_set, sat_ite]
  refine ⟨fun _ => ?_, fun whole => ?_⟩
  · rw [sat_bind, sat_restoreLatencyItems]
    exact ⟨rfl, rfl⟩
  · rcases restored with declined | segmented
    · rw [declined, sat_bind, sat_tryCatch]
      simp only [callNowait, sat_pure, Bool.false_eq_true, if_false, sat_bind,
        sat_restoreLatencyItems]
      exact ⟨trivial, rfl⟩
    · exact absurd segmented whole

/-- The bytes the transport took are the admitted frames whole and in order, but for a
cut of the last one by a failure or by a batch still under way; after a failure it
takes nothing more; a latency batch that is not written is put back as it was. -/
theorem wire_order (bounds : Bounds) (steps : List Step) :
    let pump := runs bounds {} steps
    (∃ gone part rest, pump.admitted = gone ++ rest ∧
      pump.wire = gone.flatMap WriteItem.bytes ++ part ∧
        (part = [] ∨ (pump.torn = true ∨ pump.stage.isWriting = true) ∧
          ∃ item later, rest = item :: later ∧ part <+: item.bytes)) ∧
    (pump.torn = true → ∀ later : List Step, (∀ step ∈ later, ¬ step.Connects) →
      (pump.runs bounds later).wire = pump.wire) ∧
    ∀ answer, answer = .declined ∨ pump.queue.any isSegmented = true →
      pump.after bounds (.flushLatencyBatch answer) = pump := by
  intro pump
  have any (steps : List Step) : ∀ step ∈ steps, step.Offers fun _ => True := by
    intro step _
    cases step <;> exact trivial
  obtain ⟨sound, ordered, _⟩ := @sound_runs bounds (fun _ => True) {} (fun _ => True) steps id
    (fun _ _ => trivial) (any steps) sound_new (.start true) trivial
  refine ⟨?_, ?_, ?_⟩
  · obtain ⟨gone, part, rest, split, sent, last⟩ := ordered.exposed
    refine ⟨gone, part, rest, split, sent, last.imp id fun ⟨under, next⟩ => ⟨?_, next⟩⟩
    refine under.imp id fun batch => ?_
    by_contra resting
    exact batch (Stage.batch_of_resting (by simpa using resting))
  · intro torn later stays
    have closed : pump.view.closed = true := by simp [view, torn]
    exact frozen_runs later (any later) stays sound closed
  · intro answer restored
    have done : Sat (Step.run bounds (.flushLatencyBatch answer)) pump
        (fun _ after => after = pump) fun _ _ => False := by
      unfold Step.run
      rw [sat_discard]
      exact (flush_restores answer restored).mono (fun _ _ kept => kept.2) fun _ _ never => never
    rw [sat_ended] at done
    unfold WritePump.after
    split
    · generalize ended (Step.run bounds (.flushLatencyBatch answer)) pump = outcome at done ⊢
      obtain ⟨ended, after⟩ := outcome
      cases ended with
      | ok value => exact done
      | error error => exact done.elim
    · rfl

/-- Frames of at least one byte that stay within the limits, or one frame alone. -/
def Fits (bounds : Bounds) (held : List WriteItem) : Prop :=
  (∀ item ∈ held, 0 < item.size) ∧ held.length ≤ bounds.maxMessages ∧
    (total held ≤ bounds.maxBytes ∨ held.length = 1)

theorem Fits.shrinks {front back : List WriteItem} (fits : Fits bounds (front ++ back)) :
    Fits bounds back := by
  obtain ⟨filled, messages, bytes⟩ := fits
  rw [List.length_append] at messages bytes
  rw [total_append] at bytes
  refine ⟨fun item member => filled item (List.mem_append_right front member), by omega, ?_⟩
  cases back with
  | nil => exact Or.inl (Nat.zero_le _)
  | cons item rest =>
    rw [List.length_cons] at bytes ⊢
    omega

theorem eq_nil_of_total {items : List WriteItem} (filled : ∀ item ∈ items, 0 < item.size)
    (none : total items = 0) : items = [] := by
  cases items with
  | nil => rfl
  | cons item rest =>
    have some := filled item List.mem_cons_self
    rw [← List.singleton_append, total_append, total_singleton] at none
    omega

theorem Fits.grows {held : List WriteItem} {item : WriteItem} (fits : Fits bounds held)
    (room : Room bounds (fun item => 0 < item.size) held item) : Fits bounds (held ++ [item]) := by
  obtain ⟨filled, messages, bytes⟩ := fits
  obtain ⟨fresh, empty | ⟨fewer, lighter⟩⟩ := room
  · rw [eq_nil_of_total filled empty]
    refine ⟨?_, bounds.messages_pos, Or.inr rfl⟩
    intro other member
    rw [List.nil_append, List.mem_singleton] at member
    rw [member]
    exact fresh
  · refine ⟨?_, ?_, Or.inl ?_⟩
    · intro other member
      rcases List.mem_append.mp member with old | new
      · exact filled other old
      · rw [List.mem_singleton.mp new]
        exact fresh
    · rw [List.length_append]
      exact fewer
    · rw [total_append, total_singleton]
      exact lighter

/-- The counters stand at the queue and the batch under way, within the limits, and no
operation finds them wrong. -/
theorem accounting (bounds : Bounds) (steps : List Step)
    (filled : ∀ step ∈ steps, step.Offers fun item => 0 < item.size) :
    let pump := runs bounds {} steps
    pump.residentMessages = pump.queue.length + pump.stage.batch.length ∧
    pump.queuedBytes = (total pump.queue + total pump.stage.batch : Nat) ∧
    pump.residentMessages ≤ bounds.maxMessages ∧
    (pump.queuedBytes ≤ bounds.maxBytes ∨ pump.residentMessages = 1) ∧
    (∀ error ∈ pump.reported, ¬ error.Accounting) ∧
    ∀ next : Step, (next.Offers fun item => 0 < item.size) →
      ∀ error, pump.raises bounds next = some error → ¬ error.Accounting := by
  intro pump
  have fitting : Fits bounds ({} : WritePump).view.held :=
    ⟨fun _ none => (nomatch none), Nat.zero_le _, Or.inl (Nat.zero_le _)⟩
  obtain ⟨sound, _, _, messages, bytes⟩ :=
    sound_runs steps Fits.shrinks Fits.grows filled sound_new (.start true) fitting
  have resident := sound.counts.resident
  have queued := sound.counts.bytes
  have held : pump.view.held = pump.stage.batch ++ pump.queue := rfl
  change pump.residentMessages = pump.view.held.length at resident
  change pump.queuedBytes = total pump.view.held at queued
  change pump.view.held.length ≤ _ at messages
  change total pump.view.held ≤ _ ∨ pump.view.held.length = 1 at bytes
  rw [← resident] at messages bytes
  refine ⟨?_, ?_, messages, ?_, sound.reported, ?_⟩
  · rw [resident, held, List.length_append, Nat.add_comm]
  · rw [queued, held, total_append, Nat.add_comm]
  · rw [queued]
    exact bytes.imp Int.ofNat_le.mpr id
  · exact fun next offers => (sound.after offers).2.2

/-- With room for one frame the second producer waits. -/
theorem accounting_full :
    (runs ⟨8, 1, by decide, by decide⟩ {}
      [.connect false false, .enqueue .declined (.contiguous [48]) false none,
        .enqueue .declined (.segmented [50] [0]) false none]).residentMessages ≤ 1 :=
  (accounting ⟨8, 1, by decide, by decide⟩ _ (by
    simp [Step.Offers, WriteItem.size])).2.2.1

end WritePump

end Mqttium.Writer
