import Mqttium.Writer.Conveying

/-! What each operation of the pump does to its conveyor. -/

namespace Mqttium.Writer.WritePump

open Library Codec

variable {bounds : Bounds} {offered : WriteItem → Prop} {pump : WritePump}

theorem Conveys.same {after : WritePump} (view : after.view = pump.view) :
    Conveys bounds offered pump after := by
  unfold Conveys
  rw [view]

theorem Conveys.once {after : WritePump}
    (move : Conveyor.Move WriteItem.bytes (Room bounds offered) pump.view after.view) :
    Conveys bounds offered pump after :=
  .single move

/-- The program answers no and changes nothing, or moves the conveyor. -/
def Tries (bounds : Bounds) (offered : WriteItem → Prop) (program : PumpM Bool)
    (pump : WritePump) : Prop :=
  Sat program pump
    (fun done after => (done = true → after.Sound offered ∧ Conveys bounds offered pump after) ∧
      (done = false → after = pump))
    (fun error after => ¬ error.Accounting ∧ after.Sound offered ∧
      Conveys bounds offered pump after)

theorem Tries.keeps {program : PumpM Bool} (tries : Tries bounds offered program pump)
    (sound : pump.Sound offered) : Keeps bounds offered program pump := by
  apply tries.mono
  · intro done after ended
    cases done with
    | true => exact ended.1 rfl
    | false =>
      rw [ended.2 rfl]
      exact ⟨sound, .refl⟩
  · exact fun _ _ ended => ended

/-- The program only changes what neither the conveyor nor the counters show. -/
def Aside (offered : WriteItem → Prop) (program : PumpM PUnit) : Prop :=
  ∀ pump : WritePump, pump.Sound offered →
    Sat program pump (fun _ after => after.Sound offered ∧ after.view = pump.view) fun _ _ => False

theorem Aside.keeps {program : PumpM PUnit} (aside : Aside offered program)
    (sound : pump.Sound offered) : Keeps bounds offered program pump := by
  apply (aside pump sound).mono
  · exact fun _ _ ended => ⟨ended.1, .same ended.2⟩
  · exact fun _ _ never => never.elim

theorem aside_modify {change : WritePump → WritePump}
    (alike : ∀ pump : WritePump, pump.Alike (change pump)) : Aside offered (modify change) :=
  fun pump sound => ⟨sound.aside (alike pump), (alike pump).view⟩

theorem Aside.bind {first second : PumpM PUnit} (left : Aside offered first)
    (right : Aside offered second) : Aside offered (do first; second) := by
  intro pump sound
  rw [sat_bind]
  apply (left pump sound).mono
  · intro _ between ended
    apply (right between ended.1).mono
    · exact fun _ _ last => ⟨last.1, last.2.trans ended.2⟩
    · exact fun _ _ never => never
  · exact fun _ _ never => never.elim

/-! ### Flags and callbacks -/

theorem Alike.refl : pump.Alike pump :=
  ⟨rfl, rfl, rfl, rfl, rfl, rfl, rfl, rfl, rfl, rfl, id, id⟩

theorem aside_ownAckRearm (task : Option TaskId) : Aside offered (ownAckRearm task) :=
  aside_modify fun _ => ⟨rfl, rfl, rfl, rfl, rfl, rfl, rfl, rfl, rfl, rfl, id, id⟩

theorem aside_sealPump : Aside offered sealPump :=
  aside_modify fun _ => ⟨rfl, rfl, rfl, rfl, rfl, rfl, rfl, rfl, rfl, rfl, id, id⟩

theorem aside_setEpoch (epoch : Nat) : Aside offered (setEpoch epoch) :=
  aside_modify fun _ => ⟨rfl, rfl, rfl, rfl, rfl, rfl, rfl, rfl, rfl, rfl, id, id⟩

theorem aside_rearmDeferredAck : Aside offered rearmDeferredAck := by
  apply aside_modify
  intro pump
  split
  · exact ⟨rfl, rfl, rfl, rfl, rfl, rfl, rfl, rfl, rfl, rfl, id, id⟩
  · exact .refl

theorem aside_rearmEagerIfIdle (generation : Nat) :
    Aside offered (rearmEagerIfIdle generation) := by
  apply aside_modify
  intro pump
  split
  · exact .refl
  · exact ⟨rfl, rfl, rfl, rfl, rfl, rfl, rfl, rfl, rfl, rfl, id, id⟩

theorem aside_scheduleEagerRearm : Aside offered scheduleEagerRearm := by
  apply aside_modify
  intro pump
  split
  · exact .refl
  · exact ⟨rfl, rfl, rfl, rfl, rfl, rfl, rfl, rfl, rfl, rfl, id, id⟩

theorem aside_stop : Aside offered stop := by
  intro pump sound
  simp only [stop, sat_bind, sat_dropEagerBinding, sat_modify]
  refine ⟨⟨sound.writing, ?_, sound.waiters, sound.parked, by rintro ⟨⟩,
    fun _ => rfl, sound.torn, sound.latency, sound.reported⟩, rfl⟩
  exact ⟨sound.counts.resident, sound.counts.bytes, sound.counts.unfinished⟩

theorem aside_runCallback (index : Nat) : Aside offered (Step.runCallback index) := by
  intro pump sound
  simp only [Step.runCallback, sat_bind, sat_get]
  split
  · exact ⟨sound, rfl⟩
  · rename_i generation _
    rw [sat_bind, sat_set]
    have taken : Sound offered { pump with callbacks := pump.callbacks.eraseIdx index } :=
      sound.aside ⟨rfl, rfl, rfl, rfl, rfl, rfl, rfl, rfl, rfl, rfl, id, id⟩
    exact aside_rearmEagerIfIdle generation _ taken

/-! ### Admission -/

theorem Counts.charged {items : List WriteItem} (counts : pump.Counts items) (item : WriteItem) :
    { pump with
      unfinished := pump.unfinished + 1
      queuedBytes := pump.queuedBytes + item.size
      residentMessages := pump.residentMessages + 1 : WritePump }.Counts (items ++ [item]) := by
  refine ⟨?_, ?_, ?_⟩
  · simp [counts.resident]
  · simp [counts.bytes]
  · simp [counts.unfinished]

theorem Sound.charged (sound : pump.Sound offered) (item : WriteItem) :
    { pump with
      queue := pump.queue ++ [item]
      unfinished := pump.unfinished + 1
      queuedBytes := pump.queuedBytes + item.size
      admitted := pump.admitted ++ [item]
      residentMessages := pump.residentMessages + 1 : WritePump }.Sound offered := by
  refine ⟨sound.writing, ?_, sound.waiters, sound.parked, sound.bound, sound.stopping, sound.torn, sound.latency,
    sound.reported⟩
  obtain ⟨resident, bytes, unfinished⟩ := sound.counts.charged item
  have held : pump.view.held ++ [item] = pump.stage.batch ++ (pump.queue ++ [item]) :=
    List.append_assoc _ _ _
  rw [held] at resident bytes unfinished
  exact ⟨resident, bytes, unfinished⟩

theorem keeps_charge (sound : pump.Sound offered) {item : WriteItem}
    (room : Room bounds offered pump.view.held item) : Keeps bounds offered (charge item) pump :=
  ⟨sound.charged item, .once (.enter item room)⟩

theorem room_of_canEnqueueSize (sound : pump.Sound offered) {item : WriteItem}
    (fresh : offered item) (can : pump.canEnqueueSize bounds item.size = true) :
    Room bounds offered pump.view.held item := by
  have resident := sound.counts.resident
  have bytes := sound.counts.bytes
  refine ⟨fresh, ?_⟩
  unfold canEnqueueSize at can
  split at can
  · cases can
  · simp only [Bool.or_eq_true, decide_eq_true_eq, Bool.and_eq_true, beq_iff_eq] at can
    omega

theorem room_of_not_mustWait (sound : pump.Sound offered) {item : WriteItem}
    (fresh : offered item) (goes : pump.mustWait bounds item.size = false) :
    Room bounds offered pump.view.held item := by
  have resident := sound.counts.resident
  have bytes := sound.counts.bytes
  refine ⟨fresh, ?_⟩
  simp only [mustWait, Bool.and_eq_false_iff, Bool.or_eq_false_iff, Bool.not_eq_false',
    Bool.and_eq_true, decide_eq_false_iff_not, beq_iff_eq] at goes
  omega

/-- After a failed eager write the binding is gone and the writer finds the failure. -/
theorem Sound.fenced (sound : pump.Sound offered) (bound : pump.writeNowait = true)
    (resting : pump.writing = false) (wire : Bytes) :
    { pump with
      wire
      torn := true
      latencyFailure := true
      eagerGeneration := pump.eagerGeneration + 1
      eagerArmed := false
      ackEagerArmed := false
      eagerRearmScheduled := false
      ackRearmOwner := none
      ackRearmDeferred := false
      writeNowait := false
      epoch := pump.epoch + 1 : WritePump }.Sound offered := by
  refine ⟨sound.writing, ?_, sound.waiters, sound.parked, fun stands => (nomatch stands),
    fun _ => rfl, ?_, fun _ => rfl, sound.reported⟩
  · obtain ⟨resident, bytes, unfinished⟩ := sound.counts
    exact ⟨resident, bytes, unfinished⟩
  · intro _
    have running := (sound.bound bound).2
    have quiet := sound.writing
    rw [resting] at quiet
    cases found : pump.stage with
    | absent => rw [found] at running; cases running
    | looping => exact Or.inr ⟨rfl, Or.inl rfl⟩
    | getting => exact Or.inr ⟨rfl, Or.inr rfl⟩
    | writing batch current later => rw [found] at quiet; cases quiet
    | ended => rw [found] at running; cases running

theorem bypasses_iff {armed : Bool} : pump.bypasses armed = true ↔
    armed = true ∧ pump.writeNowait = true ∧ pump.writing = false ∧ pump.waiters = 0 ∧
      pump.queue = [] := by
  simp [bypasses, and_assoc]

theorem tries_writeEager (sound : pump.Sound offered) {armed : Bool}
    (bypasses : pump.bypasses armed = true) {frame : Bytes} (answer : Nowait)
    (room : Room bounds offered pump.view.held (.contiguous frame)) {spend : PumpM PUnit}
    (aside : Aside offered spend) :
    Tries bounds offered (writeEager answer frame spend) pump := by
  obtain ⟨_, bound, resting, _, empty⟩ := bypasses_iff.mp bypasses
  have idle := sound.idle bound resting
  unfold Tries writeEager
  rw [sat_bind, sat_tryCatch]
  cases answer with
  | accepted =>
    simp only [callNowait, sat_bind, sat_modify, sat_pure, if_true]
    have passed : Sound offered { pump with
        wire := pump.wire ++ frame
        admitted := pump.admitted ++ [.contiguous frame] } :=
      ⟨sound.writing, ⟨sound.counts.resident, sound.counts.bytes, sound.counts.unfinished⟩,
        sound.waiters, sound.parked, sound.bound, sound.stopping, sound.torn, sound.latency, sound.reported⟩
    apply (aside _ passed).mono
    · intro _ after spent
      refine ⟨fun _ => ⟨spent.1, ?_⟩, by rintro ⟨⟩⟩
      unfold Conveys
      rw [spent.2]
      exact .single (.pass (.contiguous frame) idle empty)
    · exact fun _ _ never => never.elim
  | declined =>
    simp only [callNowait, sat_pure, Bool.false_eq_true, if_false]
    exact ⟨False.elim, id⟩
  | raised taken =>
    simp only [callNowait, sat_bind, sat_modify, sat_throw, retainFailedEager,
      sat_fenceEagerFailure, sat_charge]
    refine ⟨id, (sound.fenced bound resting _).charged _, .once ?_⟩
    have cut : frame.take taken <+: (WriteItem.contiguous frame).bytes := List.take_prefix _ _
    have line : pump.queue ++ [WriteItem.contiguous frame] = [.contiguous frame] := by
      rw [empty, List.nil_append]
    have torn := Conveyor.Move.tearPass _ _ room idle empty cut
    unfold WritePump.view at torn ⊢
    simpa only [line, Bool.true_or] using torn

theorem aside_spendData : Aside offered (do
    modify fun pump => { pump with eagerArmed := false }
    scheduleEagerRearm) := by
  refine Aside.bind (aside_modify fun _ => ?_) aside_scheduleEagerRearm
  exact ⟨rfl, rfl, rfl, rfl, rfl, rfl, rfl, rfl, rfl, rfl, id, id⟩

theorem aside_spendAck (caller : TaskId) (owner : Option TaskId) : Aside offered (do
    modify fun pump => { pump with ackEagerArmed := false }
    if owner = some caller then
      modify fun pump => { pump with ackRearmDeferred := true }
    else scheduleEagerRearm) := by
  refine Aside.bind
    (aside_modify fun _ => ⟨rfl, rfl, rfl, rfl, rfl, rfl, rfl, rfl, rfl, rfl, id, id⟩) ?_
  split
  · exact aside_modify fun _ => ⟨rfl, rfl, rfl, rfl, rfl, rfl, rfl, rfl, rfl, rfl, id, id⟩
  · exact aside_scheduleEagerRearm

theorem tries_no : Tries bounds offered (pure false) pump := by
  unfold Tries
  rw [sat_pure]
  exact ⟨fun no => (nomatch no), fun _ => rfl⟩

theorem tries_tryWriteDataEager (sound : pump.Sound offered) (answer : Nowait) {item : WriteItem}
    (room : Room bounds offered pump.view.held item) :
    Tries bounds offered (tryWriteDataEager answer item) pump := by
  unfold Tries tryWriteDataEager
  rw [sat_bind, sat_get]
  cases item with
  | segmented header payload => exact tries_no
  | contiguous frame =>
    change Sat (if _ then _ else _) _ _ _
    rw [sat_ite]
    exact ⟨fun bypasses => tries_writeEager sound bypasses answer room aside_spendData,
      fun _ => tries_no⟩

theorem tries_tryWriteAckEager (sound : pump.Sound offered) (answer : Nowait) (caller : TaskId)
    {frame : Bytes} (room : Room bounds offered pump.view.held (.contiguous frame)) :
    Tries bounds offered (tryWriteAckEager answer caller frame) pump := by
  unfold Tries tryWriteAckEager
  rw [sat_bind, sat_get, sat_ite]
  exact ⟨fun bypasses => tries_writeEager sound bypasses answer room (aside_spendAck caller _),
    fun _ => tries_no⟩

theorem sat_checkEpoch (epoch : Nat) {returned : PUnit → WritePump → Prop}
    {raised : PumpError → WritePump → Prop} (going : returned ⟨⟩ pump)
    (stale : raised .staleConnectionEffect pump) :
    Sat (checkEpoch epoch) pump returned raised := by
  simp only [checkEpoch, sat_bind, sat_get, sat_raiseIf]
  exact ⟨fun _ => stale, fun _ => going⟩

theorem tries_tryAdmit (sound : pump.Sound offered) {item : WriteItem} (fresh : offered item)
    (epoch : Option Nat) {eager : PumpM Bool}
    (tries : Room bounds offered pump.view.held item → Tries bounds offered eager pump) :
    Tries bounds offered (tryAdmit bounds item epoch eager) pump := by
  unfold Tries tryAdmit
  rw [sat_bind, sat_get, sat_bind]
  apply sat_checkEpoch
  · rw [sat_ite]
    refine ⟨fun can => ?_, fun _ => tries_no⟩
    have room := room_of_canEnqueueSize sound fresh can
    rw [sat_bind]
    apply (tries room).mono
    · intro passed after ended
      cases passed with
      | true => exact ⟨fun _ => ended.1 rfl, fun no => nomatch no⟩
      | false =>
        rw [ended.2 rfl]
        simp only [Bool.false_eq_true, if_false, sat_bind, sat_charge, sat_pure]
        have charged := keeps_charge sound room
        exact ⟨fun _ => charged, fun no => nomatch no⟩
    · exact fun _ _ ended => ended
  · exact ⟨id, sound, .refl⟩

theorem tries_tryEnqueue (sound : pump.Sound offered) (answer : Nowait) {item : WriteItem}
    (fresh : offered item) (epoch : Option Nat) :
    Tries bounds offered (tryEnqueue bounds answer item epoch) pump :=
  tries_tryAdmit sound fresh epoch (tries_tryWriteDataEager sound answer)

theorem tries_tryEnqueueAck (sound : pump.Sound offered) (answer : Nowait) (caller : TaskId)
    {frame : Bytes} (fresh : offered (.contiguous frame)) (epoch : Option Nat) :
    Tries bounds offered (tryEnqueueAck bounds answer caller frame epoch) pump :=
  tries_tryAdmit sound fresh epoch (tries_tryWriteAckEager sound answer caller)

theorem keeps_tryEnqueueTerminal (sound : pump.Sound offered) (answer : Nowait)
    {item : WriteItem} (fresh : offered item) (epoch : Nat) :
    Keeps bounds offered (tryEnqueueTerminal bounds answer item epoch) pump := by
  have fenced (after : WritePump) :
      after.Alike (if epoch = after.epoch then { after with sealed := true } else after) := by
    split
    · exact ⟨rfl, rfl, rfl, rfl, rfl, rfl, rfl, rfl, rfl, rfl, id, id⟩
    · exact .refl
  unfold Keeps tryEnqueueTerminal
  rw [sat_bind, sat_attempt]
  apply ((tries_tryEnqueue sound answer fresh (some epoch)).keeps sound).mono
  · intro done after ended
    rw [sat_bind, sat_modify]
    exact ⟨ended.1.aside (fenced after), ended.2.trans (Conveys.same (fenced after).view)⟩
  · intro error after ended
    rw [sat_bind, sat_modify]
    exact ⟨ended.1, ended.2.1.aside (fenced after), ended.2.2.trans (Conveys.same (fenced after).view)⟩

/-! ### Waiting for room -/

theorem keeps_enqueueAfterWait (sound : pump.Sound offered) {producer : Producer}
    (size : producer.size = producer.item.size) (fresh : offered producer.item) :
    Keeps bounds offered (enqueueAfterWait bounds producer) pump := by
  have stale : ¬ PumpError.staleConnectionEffect.Accounting ∧ pump.Sound offered ∧
      Conveys bounds offered pump pump := ⟨id, sound, .refl⟩
  unfold Keeps enqueueAfterWait
  rw [sat_bind]
  apply sat_checkEpoch _ _ stale
  rw [sat_bind, sat_get, sat_ite]
  refine ⟨fun _ => ⟨?_, .same rfl⟩, fun goes => ?_⟩
  · refine ⟨sound.writing, ?_, ?_, ?_, sound.bound, sound.stopping, sound.torn, sound.latency, sound.reported⟩
    · exact ⟨sound.counts.resident, sound.counts.bytes, sound.counts.unfinished⟩
    · simp [sound.waiters]
    · intro other member
      rcases List.mem_append.mp member with old | new
      · exact sound.parked other old
      · rw [List.mem_singleton.mp new]
        exact ⟨size, fresh⟩
  · rw [sat_bind]
    apply sat_checkEpoch _ _ stale
    rw [Bool.not_eq_true, size] at goes
    exact keeps_charge sound (room_of_not_mustWait sound fresh goes)

theorem keeps_enqueueAfter (sound : pump.Sound offered) {item : WriteItem} (fresh : offered item)
    {attempt : PumpM Bool} (tries : Tries bounds offered attempt pump) (nowait : Bool)
    (epoch : Nat) : Keeps bounds offered (enqueueAfter bounds attempt item nowait epoch) pump := by
  unfold Keeps enqueueAfter
  rw [sat_bind]
  apply tries.mono
  · intro admitted after ended
    cases admitted with
    | true => exact ended.1 rfl
    | false =>
      rw [ended.2 rfl]
      simp only [Bool.false_eq_true, if_false, sat_bind, sat_get, sat_ite, sat_throw]
      exact ⟨fun _ => ⟨id, sound, .refl⟩, fun _ => keeps_enqueueAfterWait sound rfl fresh⟩
  · exact fun _ _ ended => ended

/-- A producer that leaves the wait loop is no longer counted. -/
theorem Sound.unparked (sound : pump.Sound offered) {index : Nat} {producer : Producer}
    (found : pump.parked[index]? = some producer) :
    { pump with
      waiters := pump.waiters - 1
      parked := pump.parked.eraseIdx index : WritePump }.Sound offered := by
  have inside := (List.getElem?_eq_some_iff.mp found).1
  refine ⟨sound.writing, ⟨sound.counts.resident, sound.counts.bytes, sound.counts.unfinished⟩,
    ?_, ?_, sound.bound, sound.stopping, sound.torn, sound.latency, sound.reported⟩
  · rw [List.length_eraseIdx_of_lt inside, sound.waiters]
  · intro other member
    exact sound.parked other ((List.eraseIdx_subset) member)

theorem keeps_resume (sound : pump.Sound offered) (index : Nat) :
    Keeps bounds offered (resume bounds index) pump := by
  unfold Keeps resume
  rw [sat_bind, sat_get]
  split
  · exact ⟨sound, .refl⟩
  · rename_i producer found
    obtain ⟨size, fresh⟩ := sound.parked producer (List.mem_of_getElem? found)
    rw [sat_bind]
    exact keeps_enqueueAfterWait (sound.unparked found) size fresh

theorem keeps_abandon (sound : pump.Sound offered) (index : Nat) :
    Keeps bounds offered (abandon index) pump := by
  unfold Keeps abandon
  rw [sat_bind, sat_get]
  split
  · exact ⟨sound, .refl⟩
  · rename_i producer found
    exact ⟨sound.unparked found, .same rfl⟩

end Mqttium.Writer.WritePump
