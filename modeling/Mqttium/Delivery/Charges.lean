import Mathlib.Algebra.Order.Ring.Int
import Mqttium.Delivery.Stream

/-! What the messages in the iterator queue charge, over any run of the admissions, of the
iterators and of the client. -/

namespace Mqttium.Delivery

open Library Codec

namespace ApplicationDelivery

variable {limits : StreamLimits} {delivery before between after : ApplicationDelivery}
  {index : Nat} {admission : Admission}

def charges (queue : List IteratorQueueItem) : Int := (queue.map fun item => (item.2 : Int)).sum

@[simp] theorem charges_append (front back : List IteratorQueueItem) :
    charges (front ++ back) = charges front + charges back := by
  simp [charges]

@[simp] theorem charges_cons (item : IteratorQueueItem) (rest : List IteratorQueueItem) :
    charges (item :: rest) = item.2 + charges rest := by
  simp [charges]

/-- The admission put its message in the queue. -/
def Committed (delivery : ApplicationDelivery) (index : Nat) : Prop :=
  ∃ admission, delivery.admissions[index]? = some admission ∧ admission.standing = .returned true

/-- The bounds of the queue. -/
structure Fits (limits : StreamLimits) (delivery : ApplicationDelivery) : Prop where
  messages : 0 < limits.maxIteratorMessages →
    delivery.messagesQueue.length ≤ limits.maxIteratorMessages
  bytes : delivery.pendingBytes ≤ limits.maxIteratorBytes

/-- Nothing is put in the queue, taken out of it, charged or returned. -/
structure Steady (before after : ApplicationDelivery) : Prop where
  queue : after.messagesQueue = before.messagesQueue
  pending : after.pendingBytes = before.pendingBytes
  commits : after.commits = before.commits
  yielded : after.yielded = before.yielded
  settled : ∀ index, before.Committed index → after.Committed index

namespace Steady

theorem refl (delivery : ApplicationDelivery) : Steady delivery delivery :=
  ⟨rfl, rfl, rfl, rfl, fun _ committed => committed⟩

theorem trans (first : Steady before between) (second : Steady between after) :
    Steady before after :=
  ⟨second.queue.trans first.queue, second.pending.trans first.pending,
    second.commits.trans first.commits, second.yielded.trans first.yielded,
    fun index committed => second.settled index (first.settled index committed)⟩

/-- A change of what no message depends on. -/
theorem aside (same : after.messagesQueue = before.messagesQueue ∧
    after.pendingBytes = before.pendingBytes ∧ after.commits = before.commits ∧
      after.yielded = before.yielded ∧ after.admissions = before.admissions) :
    Steady before after := by
  obtain ⟨queue, pending, commits, yielded, admissions⟩ := same
  refine ⟨queue, pending, commits, yielded, fun index committed => ?_⟩
  rwa [Committed, admissions]

theorem setSpace (delivery : ApplicationDelivery) : Steady delivery delivery.setSpace := by
  refine ⟨rfl, rfl, rfl, rfl, fun index committed => ?_⟩
  obtain ⟨admission, found, standing⟩ := committed
  refine ⟨{ admission with standing := admission.standing.wake }, ?_, ?_⟩
  · simp [ApplicationDelivery.setSpace, found]
  · simp [standing, Standing.wake]

theorem setMessageReady (delivery : ApplicationDelivery) :
    Steady delivery delivery.setMessageReady :=
  aside ⟨rfl, rfl, rfl, rfl, rfl⟩

theorem place (delivery : ApplicationDelivery) (index : Nat) (stage : Stage) :
    Steady delivery (delivery.place index stage) :=
  aside ⟨rfl, rfl, rfl, rfl, rfl⟩

/-- An admission that has not returned may come to stand anywhere. -/
theorem stand (unsettled : ¬ delivery.Committed index) (standing : Standing) :
    Steady delivery (delivery.stand index standing) := by
  refine ⟨rfl, rfl, rfl, rfl, fun other committed => ?_⟩
  have different : index ≠ other := by
    rintro rfl
    exact unsettled committed
  obtain ⟨admission, found, returned⟩ := committed
  refine ⟨admission, ?_, returned⟩
  simpa [ApplicationDelivery.stand, List.getElem?_modify, different] using found

theorem enrol (delivery : ApplicationDelivery) (admission : Admission) :
    Steady delivery { delivery with admissions := delivery.admissions ++ [admission] } := by
  refine ⟨rfl, rfl, rfl, rfl, fun index committed => ?_⟩
  obtain ⟨standing, found, returned⟩ := committed
  refine ⟨standing, ?_, returned⟩
  exact (List.getElem?_append_left (List.getElem?_eq_some_iff.mp found).1).trans found

end Steady

/-- What one call may do to the queue. -/
inductive Change (limits : StreamLimits) (before after : ApplicationDelivery) : Prop where
  | steady (same : Steady before after)
  | commit (source : Source) (item : IteratorQueueItem)
      (queue : after.messagesQueue = before.messagesQueue ++ [item])
      (pending : after.pendingBytes = before.pendingBytes + item.2)
      (commits : after.commits = before.commits ++ [⟨source, item⟩])
      (yielded : after.yielded = before.yielded)
      (settled : ∀ index, before.Committed index → after.Committed index)
      (fits : source ≠ .acknowledged → after.Fits limits)
      (returned : ∀ index, source = .waiting index → after.Committed index)
  | yield (item : IteratorQueueItem)
      (queue : before.messagesQueue = item :: after.messagesQueue)
      (pending : after.pendingBytes = before.pendingBytes - item.2)
      (commits : after.commits = before.commits)
      (yielded : after.yielded = before.yielded ++ [item])
      (settled : ∀ index, before.Committed index → after.Committed index)

namespace Change

/-- What is steady before a change adds nothing to it. -/
theorem following (first : Steady before between) (second : Change limits between after) :
    Change limits before after := by
  cases second with
  | steady same => exact .steady (first.trans same)
  | commit source item queue pending commits yielded settled fits returned =>
    refine .commit source item ?_ ?_ ?_ (yielded.trans first.yielded)
      (fun index committed => settled index (first.settled index committed)) fits returned
    · rw [queue, first.queue]
    · rw [pending, first.pending]
    · rw [commits, first.commits]
  | yield item queue pending commits yielded settled =>
    refine .yield item (first.queue ▸ queue) ?_ (commits.trans first.commits) ?_
      fun index committed => settled index (first.settled index committed)
    · rw [pending, first.pending]
    · rw [yielded, first.yielded]

/-- What is steady after a change takes nothing from it, if it leaves the bounds be. -/
theorem followed (first : Change limits before between) (second : Steady between after) :
    Change limits before after := by
  have settled {index : Nat}
      (kept : ∀ index, before.Committed index → between.Committed index) :
      before.Committed index → after.Committed index :=
    fun committed => second.settled index (kept index committed)
  cases first with
  | steady same => exact .steady (same.trans second)
  | commit source item queue pending commits yielded kept fits returned =>
    refine .commit source item (second.queue.trans queue) (second.pending.trans pending)
      (second.commits.trans commits) (second.yielded.trans yielded)
      (fun _ => settled kept) (fun bounded => ?_)
      fun index waited => second.settled index (returned index waited)
    have room := fits bounded
    refine ⟨fun positive => ?_, ?_⟩
    · rw [second.queue]
      exact room.messages positive
    · rw [second.pending]
      exact room.bytes
  | yield item queue pending commits yielded kept =>
    refine .yield item ?_ (second.pending.trans pending) (second.commits.trans commits)
      (second.yielded.trans yielded) fun _ => settled kept
    rw [second.queue]
    exact queue

/-- The one message a change puts in the queue is within the bounds. -/
theorem fits_commit {commit : Commit} (change : Change limits before after)
    (grown : after.commits = before.commits ++ [commit]) (bounded : commit.source ≠ .acknowledged) :
    after.Fits limits := by
  have unchanged (same : after.commits = before.commits) : after.Fits limits := by
    have shorter := congrArg List.length (grown.symm.trans same)
    simp at shorter
  cases change with
  | steady same => exact unchanged same.commits
  | commit source item queue pending commits yielded settled fits returned =>
    have same := List.append_cancel_left (commits.symm.trans grown)
    obtain rfl := List.singleton_inj.mp same
    exact fits bounded
  | yield item queue pending commits yielded settled => exact unchanged commits

theorem refl : Change limits delivery delivery :=
  .steady (.refl delivery)

end Change

/-- The charge and the messages of the queue, and who put them there. -/
structure Accounted (delivery : ApplicationDelivery) : Prop where
  charged : delivery.pendingBytes = charges delivery.messagesQueue
  carried : delivery.commits.map Commit.item = delivery.yielded ++ delivery.messagesQueue
  returned : ∀ commit ∈ delivery.commits, ∀ index, commit.source = .waiting index →
    delivery.Committed index

theorem Accounted.change (accounted : Accounted before) (change : Change limits before after) :
    Accounted after := by
  obtain ⟨charged, carried, returned⟩ := accounted
  cases change with
  | steady same =>
    refine ⟨?_, ?_, ?_⟩
    · rw [same.pending, same.queue, charged]
    · rw [same.commits, same.yielded, same.queue, carried]
    · rw [same.commits]
      exact fun commit member index source =>
        same.settled index (returned commit member index source)
  | commit source item queue pending commits yielded settled fits committed =>
    refine ⟨?_, ?_, ?_⟩
    · rw [pending, queue, charged]
      simp [charges]
    · rw [commits, yielded, queue, List.map_append, carried]
      simp
    · rw [commits]
      intro commit member index waited
      rcases List.mem_append.mp member with earlier | fresh
      · exact settled index (returned commit earlier index waited)
      · obtain rfl := List.mem_singleton.mp fresh
        exact committed index waited
  | yield item queue pending commits yielded settled =>
    refine ⟨?_, ?_, ?_⟩
    · rw [pending, charged, queue, charges_cons]
      omega
    · rw [commits, yielded, carried, queue]
      simp
    · rw [commits]
      exact fun commit member index source => settled index (returned commit member index source)

/-! What each call does -/

theorem steady_wakeWaiters :
    Sat wakeWaiters delivery (fun _ => Steady delivery) fun _ => Steady delivery := by
  rw [wakeWaiters, sat_modify]
  split
  · exact .setSpace delivery
  · exact .refl delivery

theorem steady_invalidateWaitingAdmissions :
    Sat invalidateWaitingAdmissions delivery (fun _ => Steady delivery) fun _ => Steady delivery := by
  rw [invalidateWaitingAdmissions, sat_bind, sat_modify]
  have raised : Steady delivery
      { delivery with admissionGeneration := delivery.admissionGeneration + 1 } :=
    .aside ⟨rfl, rfl, rfl, rfl, rfl⟩
  apply steady_wakeWaiters.mono
  · exact fun _ _ woken => raised.trans woken
  · exact fun _ _ woken => raised.trans woken

/-- Where there is room a message is put in the queue: the refusal of a full queue, which
would leave its charge behind, is never met. -/
theorem enqueueAccounted_eq (source : Source) (message : Message) {size : Nat}
    (room : delivery.crowded limits size = false) :
    enqueueAccounted limits source message size delivery =
      .ok ⟨⟩ ((delivery.charge size).put source (message, size)).setMessageReady := by
  have count : (delivery.charge size).full limits = false := by
    rw [crowded, Bool.or_eq_false_iff] at room
    exact room.2
  simp only [enqueueAccounted, putNowait, bind, EStateM.bind, modify_eq_ok, get_eq_ok, raiseIf,
    count]
  rfl

theorem fits_of_room {source : Source} {message : Message} {size : Nat}
    (room : delivery.crowded limits size = false) :
    (((delivery.charge size).put source (message, size)).setMessageReady).Fits limits := by
  simp only [crowded, full, Bool.or_eq_false_iff, decide_eq_false_iff_not,
    Bool.and_eq_false_imp, decide_eq_true_eq] at room
  refine ⟨fun bounded => ?_, ?_⟩
  · have shorter := room.2 bounded
    simp only [setMessageReady, put, charge, List.length_append, List.length_singleton]
    omega
  · simp only [setMessageReady, put, charge]
    omega

theorem change_acceptIteratorAccounted (message : Message) (propertyWireSize : Option Nat) :
    Sat (acceptIteratorAccounted limits message propertyWireSize) delivery
      (fun _ => Change limits delivery) fun _ => Change limits delivery := by
  rw [acceptIteratorAccounted, sat_bind]
  unfold logicalSize
  split
  · rename_i size _
    simp only [sat_pure, sat_bind, sat_raiseIf, sat_get, sat_ite, sat_modify]
    refine ⟨fun _ => .refl, fun _ => ⟨fun _ => .steady (.enrol delivery _), fun room => ?_⟩⟩
    rw [Bool.not_eq_true] at room
    refine .of_ok (enqueueAccounted_eq .immediate message room) ?_
    exact .commit .immediate (message, size) rfl rfl rfl rfl (fun _ committed => committed)
      (fun _ => fits_of_room room) (fun _ waited => by cases waited)
  · exact .refl

/-- A pass of a waiting admission puts its message in the queue and returns, or is steady. -/
theorem change_acceptWaitingAccounted
    (found : delivery.admissions[index]? = some admission)
    (unsettled : ¬ delivery.Committed index) :
    Sat (acceptWaitingAccounted limits index admission) delivery
      (fun _ after => Change limits delivery after ∧
        (Steady delivery after ∨ after.Committed index)) fun _ _ => False := by
  rw [acceptWaitingAccounted, sat_bind, sat_get, sat_ite]
  refine ⟨fun _ => ?_, fun pass => ?_⟩
  · simp only [sat_bind, sat_modify]
    have entered : Steady delivery
        { delivery with space := false, waiters := delivery.waiters + 1 } :=
      .aside ⟨rfl, rfl, rfl, rfl, rfl⟩
    have still : ¬ Committed
        { delivery with space := false, waiters := delivery.waiters + 1 } index :=
      unsettled
    have steady := entered.trans (.stand still (.waiting false))
    exact ⟨.steady steady, .inl steady⟩
  · rw [sat_ite]
    refine ⟨fun _ => ?_, fun current => ?_⟩
    · rw [sat_modify]
      have steady : Steady delivery (delivery.stand index (.returned false)) :=
        .stand unsettled _
      exact ⟨.steady steady, .inl steady⟩
    · have room : delivery.crowded limits admission.size = false := by
        simpa [not_not.mp current] using pass
      rw [sat_bind, sat_attempt]
      refine .of_ok (enqueueAccounted_eq (.waiting index) admission.message room) ?_
      rw [sat_modify]
      set queued := ((delivery.charge admission.size).put (.waiting index)
        (admission.message, admission.size)).setMessageReady with queuedEq
      have returned : (queued.stand index (.returned true)).Committed index := by
        refine ⟨{ admission with standing := .returned true }, ?_, rfl⟩
        have kept : queued.admissions[index]? = some admission := found
        simp [stand, kept]
      refine ⟨?_, .inr returned⟩
      refine .commit (.waiting index) (admission.message, admission.size) rfl rfl rfl rfl ?_ ?_ ?_
      · intro other committed
        by_cases same : index = other
        · exact same ▸ returned
        · have unreturned : ¬ queued.Committed index := unsettled
          exact (Steady.stand unreturned (.returned true)).settled other committed
      · intro _
        have fits : queued.Fits limits := fits_of_room room
        exact ⟨fits.messages, fits.bytes⟩
      · intro other waited
        obtain rfl := Source.waiting.inj waited
        exact returned

/-- A turn of a waiting admission that does not return its message is steady. -/
def Turn (limits : StreamLimits) (index : Nat) (before after : ApplicationDelivery) : Prop :=
  Change limits before after ∧ (Steady before after ∨ after.Committed index)

theorem Turn.of_steady (steady : Steady before after) : Turn limits index before after :=
  ⟨.steady steady, .inl steady⟩

theorem Turn.following (first : Steady before between) (second : Turn limits index between after) :
    Turn limits index before after :=
  ⟨.following first second.1, second.2.imp first.trans id⟩

theorem not_committed (found : delivery.admissions[index]? = some admission)
    (standing : admission.standing ≠ .returned true) : ¬ delivery.Committed index := by
  rintro ⟨other, same, returned⟩
  rw [found] at same
  cases same
  exact standing returned

theorem steady_leaveSpace :
    Sat leaveSpace delivery (fun _ after => Steady delivery after ∧
      after.admissions = delivery.admissions) fun _ _ => False := by
  rw [leaveSpace, sat_modify]
  exact ⟨.aside ⟨rfl, rfl, rfl, rfl, rfl⟩, rfl⟩

theorem turn_runAdmission :
    Sat (runAdmission limits index) delivery (fun _ => Turn limits index delivery)
      fun _ _ => False := by
  rw [runAdmission, sat_bind, sat_get]
  have idle : Turn limits index delivery delivery := .of_steady (.refl delivery)
  cases found : delivery.admissions[index]? with
  | none => exact idle
  | some admission =>
    dsimp only
    cases standing : admission.standing with
    | created => exact change_acceptWaitingAccounted found (not_committed found (by simp [standing]))
    | waiting woken =>
      have unsettled := not_committed found (by simp [standing])
      cases woken with
      | false => exact idle
      | true =>
        rw [sat_bind]
        apply steady_leaveSpace.mono _ fun _ _ impossible => impossible
        intro _ between left
        have kept : between.admissions[index]? = some admission := left.2 ▸ found
        have open' : ¬ between.Committed index := by
          rwa [Committed, left.2]
        apply (change_acceptWaitingAccounted kept open').mono _ fun _ _ impossible => impossible
        exact fun _ _ turn => .following left.1 turn
    | returned committed => exact idle
    | raised error => exact idle

/-- An admission that gives up where it waits. -/
theorem steady_leave (unsettled : ¬ delivery.Committed index) (standing : Standing) :
    Sat (do leaveSpace; modify fun delivery => delivery.stand index standing) delivery
      (fun _ => Steady delivery) fun _ _ => False := by
  rw [sat_bind]
  apply steady_leaveSpace.mono _ fun _ _ impossible => impossible
  intro _ between left
  rw [sat_modify]
  have open' : ¬ between.Committed index := by
    rwa [Committed, left.2]
  exact left.1.trans (.stand open' standing)

theorem steady_cancelAdmission :
    Sat (cancelAdmission index) delivery (fun _ => Steady delivery) fun _ _ => False := by
  rw [cancelAdmission, sat_bind, sat_get]
  cases found : delivery.admissions[index]? with
  | none => exact .refl delivery
  | some admission =>
    dsimp only
    cases standing : admission.standing with
    | created => exact .stand (not_committed found (by simp [standing])) _
    | waiting woken => exact steady_leave (not_committed found (by simp [standing])) _
    | returned committed => exact .refl delivery
    | raised error => exact .refl delivery

theorem steady_timeOutAdmission :
    Sat (timeOutAdmission limits index) delivery (fun _ => Steady delivery) fun _ _ => False := by
  rw [timeOutAdmission, sat_bind, sat_get]
  cases found : delivery.admissions[index]? with
  | none => exact .refl delivery
  | some admission =>
    dsimp only
    cases standing : admission.standing with
    | waiting woken =>
      rw [sat_onlyIf]
      have unsettled := not_committed found (by simp [standing])
      exact ⟨fun _ => steady_leave unsettled _, fun _ => .refl delivery⟩
    | created => exact .refl delivery
    | returned committed => exact .refl delivery
    | raised error => exact .refl delivery

theorem steady_waitForMessage :
    Sat (waitForMessage index) delivery (fun _ => Steady delivery) fun _ => Steady delivery := by
  simp only [waitForMessage, sat_bind, sat_get, sat_ite, sat_modify, sat_throw]
  exact ⟨fun _ => .place delivery index .ended, fun _ => .aside ⟨rfl, rfl, rfl, rfl, rfl⟩⟩

theorem change_messagesAccounted (generation : Nat) :
    Sat (messagesAccounted index generation) delivery (fun _ => Change limits delivery)
      fun _ => Change limits delivery := by
  rw [messagesAccounted, sat_bind, sat_get, sat_ite]
  refine ⟨fun _ => .steady (.place delivery index .ended), fun _ => ?_⟩
  cases queue : delivery.messagesQueue with
  | nil =>
    rw [sat_ite]
    refine ⟨fun _ => .steady (.place delivery index .ended), fun _ => ?_⟩
    apply steady_waitForMessage.mono
    · exact fun _ _ steady => .steady steady
    · exact fun _ _ steady => .steady steady
  | cons item rest =>
    rw [sat_bind, sat_modify, release, sat_bind, sat_bind, sat_modify]
    have taken : Change limits delivery
        { delivery with
          messagesQueue := rest
          yielded := delivery.yielded ++ [item]
          pendingBytes := delivery.pendingBytes - item.2 } :=
      .yield item queue rfl rfl rfl fun _ committed => committed
    apply steady_wakeWaiters.mono
    · intro _ between woken
      rw [sat_modify]
      exact taken.followed (woken.trans (.place between index .resting))
    · exact fun _ _ woken => taken.followed woken

theorem steady_leaveWait (generation : Nat) :
    Sat (leaveWait generation) delivery (fun _ => Steady delivery) fun _ _ => False := by
  rw [leaveWait, sat_modify]
  exact .aside ⟨rfl, rfl, rfl, rfl, rfl⟩

theorem change_runIterator :
    Sat (runIterator index) delivery (fun _ => Change limits delivery)
      fun _ => Change limits delivery := by
  rw [runIterator, sat_bind, sat_get]
  cases found : delivery.iterators[index]? with
  | none => exact .refl
  | some iterator =>
    dsimp only
    cases stage : iterator.stage with
    | resting => exact change_messagesAccounted iterator.generation
    | waiting generation woken =>
      cases woken with
      | false => exact .refl
      | true =>
        rw [sat_bind]
        apply (steady_leaveWait generation).mono _ fun _ _ impossible => impossible.elim
        intro _ between left
        have passed : Sat (messagesAccounted index iterator.generation) between
            (fun _ => Change limits between) fun _ => Change limits between :=
          change_messagesAccounted iterator.generation
        apply passed.mono
        · exact fun _ _ change => .following left change
        · exact fun _ _ change => .following left change
    | ended => exact .refl

theorem steady_cancelIterator :
    Sat (cancelIterator index) delivery (fun _ => Steady delivery) fun _ _ => False := by
  rw [cancelIterator, sat_bind, sat_get]
  cases found : delivery.iterators[index]? with
  | none => exact .refl delivery
  | some iterator =>
    dsimp only
    cases stage : iterator.stage with
    | waiting generation woken =>
      rw [sat_bind]
      apply (steady_leaveWait generation).mono _ fun _ _ impossible => impossible
      intro _ between left
      exact left.trans (.place between index .ended)
    | resting => exact .place delivery index .ended
    | ended => exact .place delivery index .ended

theorem refill_eq (old replacement : List IteratorQueueItem) :
    refill old replacement = replacement ++ old := by
  induction old generalizing replacement with
  | nil => simp [refill]
  | cons item rest ih => simp [refill, ih]

theorem steady_resetStream :
    Sat resetStream delivery (fun _ => Steady delivery) fun _ => Steady delivery := by
  rw [resetStream, sat_bind, sat_get, sat_onlyIf]
  refine ⟨fun _ => ?_, fun _ => .refl delivery⟩
  rw [sat_bind]
  apply steady_invalidateWaitingAdmissions.mono _ fun _ _ steady => steady
  intro _ between retired
  simp only [sat_bind, sat_modify]
  refine retired.trans (.aside ⟨?_, rfl, rfl, rfl, rfl⟩)
  simp [refill_eq, setMessageReady]

theorem change_deliverAcknowledged (message : Message) (propertyWireSize : Option Nat) :
    Sat (deliverAcknowledged limits message propertyWireSize) delivery
      (fun _ => Change limits delivery) fun _ => Change limits delivery := by
  rw [deliverAcknowledged, sat_bind]
  unfold logicalSize
  split
  · rename_i size _
    simp only [sat_pure, sat_bind, sat_modify]
    exact .commit .acknowledged (message, size) rfl rfl rfl rfl (fun _ committed => committed)
      (fun bounded => absurd rfl bounded) (fun _ waited => by cases waited)
  · exact .refl

theorem change_perform (call : Call) :
    Sat (perform limits call) delivery (fun _ => Change limits delivery)
      fun _ => Change limits delivery := by
  cases call with
  | accept message propertyWireSize => exact change_acceptIteratorAccounted message propertyWireSize
  | runAdmission index =>
    exact turn_runAdmission.mono (fun _ _ turn => turn.1) fun _ _ impossible => impossible.elim
  | cancelAdmission index =>
    exact steady_cancelAdmission.mono (fun _ _ steady => .steady steady)
      fun _ _ impossible => impossible.elim
  | timeOutAdmission index =>
    exact steady_timeOutAdmission.mono (fun _ _ steady => .steady steady)
      fun _ _ impossible => impossible.elim
  | messages => exact .steady (.aside ⟨rfl, rfl, rfl, rfl, rfl⟩)
  | runIterator index => exact change_runIterator
  | cancelIterator index =>
    exact steady_cancelIterator.mono (fun _ _ steady => .steady steady)
      fun _ _ impossible => impossible.elim
  | invalidateWaitingAdmissions =>
    exact steady_invalidateWaitingAdmissions.mono (fun _ _ steady => .steady steady)
      fun _ _ steady => .steady steady
  | resetStream =>
    exact steady_resetStream.mono (fun _ _ steady => .steady steady) fun _ _ steady => .steady steady
  | deliverAcknowledged message propertyWireSize =>
    exact change_deliverAcknowledged message propertyWireSize
  | reopen => exact .steady (.aside ⟨rfl, rfl, rfl, rfl, rfl⟩)
  | close => exact .steady (.aside ⟨rfl, rfl, rfl, rfl, rfl⟩)

/-! Whole runs -/

/-- What holds of both ways a call may end holds of what it leaves. -/
theorem of_perform {call : Call} {property : ApplicationDelivery → Prop}
    (sat : Sat (perform limits call) delivery (fun _ => property) fun _ => property) :
    property (delivery.after limits call) := by
  rw [sat_ended] at sat
  unfold ApplicationDelivery.after
  generalize ended (perform limits call) delivery = result at sat ⊢
  obtain ⟨outcome | error, state⟩ := result
  · exact sat
  · exact sat

theorem change_after (call : Call) : Change limits delivery (delivery.after limits call) :=
  of_perform (change_perform call)

theorem Accounted.runs (accounted : delivery.Accounted) (calls : List Call) :
    (delivery.runs limits calls).Accounted := by
  induction calls generalizing delivery with
  | nil => exact accounted
  | cons call rest ih => exact ih (accounted.change (change_after call))

theorem Accounted.start : ({} : ApplicationDelivery).Accounted :=
  ⟨rfl, rfl, fun _ member => nomatch member⟩

/-- The calls in which a waiting admission runs or ends. -/
def turns (index : Nat) : List Call :=
  [.runAdmission index, .cancelAdmission index, .timeOutAdmission index]

theorem turn_after {call : Call} (turn : call ∈ turns index) :
    Turn limits index delivery (delivery.after limits call) := by
  simp only [turns, List.mem_cons, List.not_mem_nil, or_false] at turn
  rcases turn with rfl | rfl | rfl
  · exact of_perform (turn_runAdmission.mono (fun _ _ turn => turn)
      fun _ _ impossible => impossible.elim)
  · exact of_perform (steady_cancelAdmission.mono (fun _ _ steady => .of_steady steady)
      fun _ _ impossible => impossible.elim)
  · exact of_perform (steady_timeOutAdmission.mono (fun _ _ steady => .of_steady steady)
      fun _ _ impossible => impossible.elim)

/-- In every run the queue's charge is the sum over its messages, each of which some
admission or hand-over put there. An admission keeps within both bounds at its commit. One
that has not returned its message has put none in the queue, and no turn that ends it
otherwise changes queue or charge. A reset keeps every unread message with its charge. -/
theorem stream_accounted (limits : StreamLimits) (calls : List Call) (call : Call) :
    let before := runs limits {} calls
    let after := before.after limits call
    before.pendingBytes = charges before.messagesQueue ∧
      before.commits.map Commit.item = before.yielded ++ before.messagesQueue ∧
      (∀ commit, after.commits = before.commits ++ [commit] → commit.source ≠ .acknowledged →
        after.Fits limits) ∧
      (∀ index, ¬ before.Committed index → ∀ commit ∈ before.commits,
        commit.source ≠ .waiting index) ∧
      (∀ index, call ∈ turns index → ¬ after.Committed index →
        after.messagesQueue = before.messagesQueue ∧ after.pendingBytes = before.pendingBytes) ∧
      (call = .resetStream → after.messagesQueue = before.messagesQueue ∧
        after.pendingBytes = before.pendingBytes) := by
  intro before after
  have accounted : before.Accounted := Accounted.start.runs calls
  refine ⟨accounted.charged, accounted.carried, ?_, ?_, ?_, ?_⟩
  · exact fun commit grown => (change_after call).fits_commit grown
  · intro index unsettled commit member waited
    exact unsettled (accounted.returned commit member index waited)
  · intro index turn unsettled
    rcases (turn_after turn).2 with steady | committed
    · exact ⟨steady.queue, steady.pending⟩
    · exact absurd committed unsettled
  · rintro rfl
    have steady : Steady before after := of_perform steady_resetStream
    exact ⟨steady.queue, steady.pending⟩

end ApplicationDelivery

end Mqttium.Delivery
