import Mqttium.Delivery.Lane

/-! Every acknowledged message on the lane is handed over once and in order, or its own
admission refuses it, or the lane still holds it. -/

namespace Mqttium.Delivery

variable {Body : Type}

/-- The acknowledged message an event is the last word on. -/
def Event.settles : Event Body → Option (LaneEffect Body)
  | .handed effect _ => if survivesConnection effect then some effect else none
  | .refused effect => if survivesConnection effect then some effect else none
  | .marked _ _ => none

/-- An effect bound to its connection is handed over or marked on that connection only. -/
def Event.Timely : Event Body → Prop
  | .handed effect current => survivesConnection effect = true ∨ current = true
  | .refused _ => True
  | .marked _ current => current = true

namespace Await

/-- The acknowledged message a waiting drain has not yet handed over. -/
def holds : Await Body → List (LaneEffect Body)
  | .admission effect _ _ _ _ => [effect].filter survivesConnection
  | _ => []

/-- The drain is past its effect's removal and not past the effect. -/
def working : Await Body → Nat
  | .fence | .ready => 0
  | _ => 1

end Await

def Active.holds (active : Active Body) : List (LaneEffect Body) :=
  active.awaits.holds ++ active.effects.filter survivesConnection

namespace DeliveryLane

def settled (lane : DeliveryLane Body) : List (LaneEffect Body) :=
  lane.log.filterMap Event.settles

def queued (lane : DeliveryLane Body) : List (LaneEffect Body) :=
  lane.pending.flatMap Lot.effects

/-- The acknowledged messages still on the lane, oldest first. -/
def owed (lane : DeliveryLane Body) : List (LaneEffect Body) :=
  (lane.active.map Active.holds).getD [] ++ lane.carryover ++
    lane.queued.filter survivesConnection

def inHand (lane : DeliveryLane Body) : Nat :=
  (lane.active.map fun active => active.effects.length + active.awaits.working).getD 0

structure Sound (lane : DeliveryLane Body) : Prop where
  ledger : lane.settled ++ lane.owed = lane.arrived
  enqueued : lane.enqueued = lane.applied + lane.outstanding
  pendingCount : lane.pendingCount = lane.queued.length + lane.carryover.length
  activeCount : lane.activeCount = lane.inHand
  carried : ∀ effect ∈ lane.carryover, survivesConnection effect = true
  lots : ∀ lot ∈ lane.pending, lot.epoch = lane.epoch
  /-- A drain of the current connection has nothing older beside it, and one of a retired
  connection has nothing left to go on with. -/
  live : ∀ active, lane.active = some active →
    active.epoch ≤ lane.epoch ∧ (active.epoch = lane.epoch → lane.carryover = []) ∧
      (active.epoch ≠ lane.epoch → lane.pending = [])
  admitting : ∀ active, lane.active = some active → ∀ effect body size mark generation,
    active.awaits = .admission effect body size mark generation →
      effect = .message body size mark ∧ generation ≤ lane.admissionGeneration ∧
        (generation = lane.admissionGeneration → mark ≠ none → active.epoch = lane.epoch)
  timely : ∀ event ∈ lane.log, event.Timely

variable {lane : DeliveryLane Body} {active : Active Body} {settings : Settings}

/-- The lane with a drain at this point. -/
abbrev drained (lane : DeliveryLane Body) (active : Active Body) (awaits : Await Body) :
    DeliveryLane Body :=
  { lane with active := some { active with awaits } }

theorem drained_self (found : lane.active = some active) :
    lane.drained active active.awaits = lane := by
  unfold drained
  rw [← found]

theorem Sound.start : Sound ({} : DeliveryLane Body) :=
  ⟨rfl, rfl, rfl, rfl, fun _ none => (nomatch none), fun _ none => (nomatch none),
    fun _ none => (nomatch none), fun _ none => (nomatch none), fun _ none => (nomatch none)⟩

/-- The end of a lot keeps what the drain held and `effects` names again. -/
theorem Sound.unwind {awaits : Await Body} (sound : (lane.drained active awaits).Sound)
    {effects : List (LaneEffect Body)}
    (kept : effects.filter survivesConnection =
      awaits.holds ++ active.effects.filter survivesConnection) :
    (lane.unwind effects).Sound := by
  refine ⟨?_, ?_, ?_, rfl, ?_, sound.lots, fun _ none => (nomatch none),
    fun _ none => (nomatch none), sound.timely⟩
  · have ledger := sound.ledger
    simp only [owed, Active.holds, Option.map_some, Option.getD_some] at ledger
    simp only [DeliveryLane.unwind, owed, Option.map_none, Option.getD_none, List.nil_append, kept]
    rw [← ledger]
    rfl
  · have enqueued := sound.enqueued
    simp only [outstanding] at enqueued
    simp only [DeliveryLane.unwind, outstanding]
    omega
  · have count := sound.pendingCount
    simp only [queued] at count
    simp only [DeliveryLane.unwind, queued, List.length_append]
    omega
  · intro effect member
    rcases List.mem_append.mp member with old | carried
    · exact (List.mem_filter.mp old).2
    · exact sound.carried effect carried

theorem Sound.finish {awaits : Await Body} (sound : (lane.drained active awaits).Sound)
    (working : awaits.working = 1) (none : awaits.holds = []) : (lane.finish active).Sound := by
  refine ⟨?_, ?_, sound.pendingCount, ?_, sound.carried, sound.lots, ?_, ?_, sound.timely⟩
  · have ledger := sound.ledger
    simp only [owed, Active.holds, Option.map_some, Option.getD_some, none] at ledger
    exact ledger
  · have enqueued := sound.enqueued
    simp only [outstanding] at enqueued
    simp only [DeliveryLane.finish, outstanding]
    omega
  · have count := sound.activeCount
    simp only [inHand, Option.map_some, Option.getD_some, working] at count
    simp only [DeliveryLane.finish, inHand, Option.map_some, Option.getD_some, Await.working]
    omega
  · rintro other ⟨⟩
    exact sound.live { active with awaits } rfl
  · rintro other ⟨⟩ effect body size mark generation found
    cases found

/-- The drain has handed its effect over, and waits only to go on. -/
theorem Sound.handed {effect : LaneEffect Body} {body : Body} {size generation : Nat}
    {mark : Option Nat}
    (sound : (lane.drained active (.admission effect body size mark generation)).Sound)
    (timely : survivesConnection effect = true ∨ active.epoch = lane.epoch) :
    ((lane.record (.handed effect (active.epoch == lane.epoch))).drained active .fairness).Sound := by
  refine ⟨?_, sound.enqueued, sound.pendingCount, sound.activeCount, sound.carried, sound.lots,
    ?_, ?_, ?_⟩
  · have ledger := sound.ledger
    simp only [owed, settled, Active.holds, Option.map_some, Option.getD_some, Await.holds] at ledger
    refine Eq.trans ?_ ledger
    cases survives : survivesConnection effect <;>
      simp [owed, settled, Active.holds, Await.holds, record, Event.settles, survives, queued]
  · rintro other ⟨⟩
    exact sound.live { active with awaits := .admission effect body size mark generation } rfl
  · rintro other ⟨⟩ _ _ _ _ _ found
    cases found
  · intro event member
    rcases List.mem_append.mp member with old | new
    · exact sound.timely event old
    · rw [List.mem_singleton.mp new]
      exact timely.imp id fun current => by simpa using current

theorem Sound.marked (sound : (lane.drained active .fairness).Sound) (mid : Nat)
    (current : active.epoch = lane.epoch) :
    ((lane.record (.marked mid (active.epoch == lane.epoch))).drained active .fairness).Sound := by
  refine ⟨?_, sound.enqueued, sound.pendingCount, sound.activeCount, sound.carried, sound.lots,
    ?_, ?_, ?_⟩
  · have ledger := sound.ledger
    refine Eq.trans ?_ ledger
    simp [settled, record, Event.settles, owed, queued]
  · rintro other ⟨⟩
    exact sound.live { active with awaits := .fairness } rfl
  · rintro other ⟨⟩ _ _ _ _ _ found
    cases found
  · intro event member
    rcases List.mem_append.mp member with old | new
    · exact sound.timely event old
    · rw [List.mem_singleton.mp new]
      change (active.epoch == lane.epoch) = true
      simpa using current

theorem Sound.afterHandOver (sound : (lane.drained active .fairness).Sound) {mark : Option Nat}
    (current : mark ≠ none → active.epoch = lane.epoch) (raises pauses : Bool) :
    (lane.afterHandOver active mark raises pauses).Sound := by
  unfold DeliveryLane.afterHandOver
  cases mark with
  | none =>
    cases pauses with
    | true => exact sound
    | false => exact sound.finish rfl rfl
  | some mid =>
    cases raises with
    | true => exact sound.unwind rfl
    | false =>
      have marked := sound.marked mid (current (by simp))
      cases pauses with
      | true => exact marked
      | false => exact marked.finish rfl rfl

/-- The drain waits for something else with the same in hand. -/
theorem Sound.awaiting {awaits next : Await Body} (sound : (lane.drained active awaits).Sound)
    (holds : next.holds = awaits.holds) (working : next.working = awaits.working)
    (plain : ∀ effect body size mark generation,
      next ≠ .admission effect body size mark generation) : (lane.drained active next).Sound := by
  refine ⟨?_, sound.enqueued, sound.pendingCount, ?_, sound.carried, sound.lots, ?_, ?_,
    sound.timely⟩
  · have ledger := sound.ledger
    simp only [owed, Active.holds, Option.map_some, Option.getD_some, ← holds] at ledger
    exact ledger
  · have count := sound.activeCount
    simp only [inHand, Option.map_some, Option.getD_some, ← working] at count
    exact count
  · rintro other ⟨⟩
    exact sound.live { active with awaits } rfl
  · rintro other ⟨⟩ effect body size mark generation found
    exact absurd found (plain effect body size mark generation)

/-- The application's side may change freely. -/
theorem Sound.beside (sound : lane.Sound) (queue : List (Body × Nat)) (pendingBytes : Int)
    (sinceYield : Nat) : Sound { lane with queue, pendingBytes, sinceYield } :=
  ⟨sound.ledger, sound.enqueued, sound.pendingCount, sound.activeCount, sound.carried, sound.lots,
    sound.live, sound.admitting, sound.timely⟩

/-- The drain takes its next effect in hand. -/
theorem Sound.popped (sound : lane.Sound) {effect : LaneEffect Body}
    {rest : List (LaneEffect Body)} {epoch : Nat}
    (found : lane.active = some ⟨epoch, effect :: rest, .ready⟩) {awaits : Await Body}
    (holds : awaits.holds = [effect].filter survivesConnection) (working : awaits.working = 1)
    (admitting : ∀ other body size mark generation,
      awaits = .admission other body size mark generation →
        other = .message body size mark ∧ generation ≤ lane.admissionGeneration ∧
          (generation = lane.admissionGeneration → mark ≠ none → epoch = lane.epoch)) :
    (lane.drained ⟨epoch, rest, .ready⟩ awaits).Sound := by
  refine ⟨?_, sound.enqueued, sound.pendingCount, ?_, sound.carried, sound.lots, ?_, ?_,
    sound.timely⟩
  · have ledger := sound.ledger
    simp only [owed, found, Active.holds, Option.map_some, Option.getD_some, Await.holds,
      List.nil_append] at ledger
    refine Eq.trans ?_ ledger
    cases survives : survivesConnection effect <;>
      simp [owed, settled, Active.holds, holds, survives, queued]
  · have count := sound.activeCount
    simp only [inHand, found, Option.map_some, Option.getD_some, List.length_cons, Await.working]
      at count
    simp only [inHand, Option.map_some, Option.getD_some, working]
    omega
  · rintro other ⟨⟩
    exact sound.live ⟨epoch, effect :: rest, .ready⟩ found
  · rintro other ⟨⟩
    exact admitting

theorem Sound.acceptCallback {effect : LaneEffect Body} {body : Body} {size generation : Nat}
    {mark : Option Nat}
    (sound : (lane.drained active (.admission effect body size mark generation)).Sound)
    (same : effect = .message body size mark) (current : mark ≠ none → active.epoch = lane.epoch)
    (outcome : Outcome) : (lane.acceptCallback active effect mark outcome).Sound := by
  have timely : survivesConnection effect = true ∨ active.epoch = lane.epoch := by
    rw [same]
    cases mark with
    | none => exact Or.inl rfl
    | some mid => exact Or.inr (current (by simp))
  have ran (charged : Nat) : (({ lane with sinceYield := charged }.record
      (.handed effect (active.epoch == lane.epoch))).drained active .fairness).Sound :=
    (sound.handed timely).beside lane.queue lane.pendingBytes charged
  unfold DeliveryLane.acceptCallback
  dsimp only
  split
  · exact (ran _).unwind rfl
  · split
    · exact (ran _).afterHandOver current _ _
    · exact (ran _).afterHandOver current _ _

theorem Sound.refused {effect : LaneEffect Body} {body : Body} {size generation : Nat}
    {mark : Option Nat}
    (sound : (lane.drained active (.admission effect body size mark generation)).Sound) :
    ((lane.record (.refused effect)).unwind active.effects).Sound := by
  have settled : ((lane.record (.refused effect)).drained active .fairness).Sound := by
    refine ⟨?_, sound.enqueued, sound.pendingCount, sound.activeCount, sound.carried, sound.lots,
      ?_, ?_, ?_⟩
    · have ledger := sound.ledger
      simp only [owed, settled, Active.holds, Option.map_some, Option.getD_some, Await.holds]
        at ledger
      refine Eq.trans ?_ ledger
      cases survives : survivesConnection effect <;>
        simp [owed, DeliveryLane.settled, Active.holds, Await.holds, record, Event.settles, survives,
          queued]
    · rintro other ⟨⟩
      exact sound.live { active with awaits := .admission effect body size mark generation } rfl
    · rintro other ⟨⟩ _ _ _ _ _ found
      cases found
    · intro event member
      rcases List.mem_append.mp member with old | new
      · exact sound.timely event old
      · rw [List.mem_singleton.mp new]
        trivial
  exact settled.unwind rfl

theorem Sound.handOver {effect : LaneEffect Body} {body : Body} {size generation : Nat}
    {mark : Option Nat}
    (sound : (lane.drained active (.admission effect body size mark generation)).Sound)
    (same : effect = .message body size mark) (current : mark ≠ none → active.epoch = lane.epoch)
    (raises : Bool) :
    (((lane.enqueue settings body size).record
      (.handed effect (active.epoch == lane.epoch))).afterHandOver active mark raises false).Sound := by
  have timely : survivesConnection effect = true ∨ active.epoch = lane.epoch := by
    rw [same]
    cases mark with
    | none => exact Or.inl rfl
    | some mid => exact Or.inr (current (by simp))
  have put : (((lane.enqueue settings body size).record
      (.handed effect (active.epoch == lane.epoch))).drained active .fairness).Sound :=
    (sound.handed timely).beside _ _ lane.sinceYield
  exact put.afterHandOver current raises false

/-- Take the next lot when nothing older waits beside the lane's lots. -/
theorem Sound.takeLot (sound : lane.Sound) (stopped : lane.active = none)
    (first : lane.pending ≠ [] → lane.carryover = []) : lane.takeLot.Sound := by
  have same : { lane with active := none } = lane := by rw [← stopped]
  have still : Sound { lane with active := none } := by
    rw [same]
    exact sound
  unfold DeliveryLane.takeLot
  cases found : lane.pending with
  | nil =>
    rw [found] at still
    exact still
  | cons lot rest =>
    have empty := first (by simp [found])
    dsimp only
    refine ⟨?_, ?_, ?_, ?_, sound.carried, ?_, ?_, ?_, sound.timely⟩
    · have ledger := sound.ledger
      simp only [owed, stopped, queued, found, empty] at ledger
      refine Eq.trans ?_ ledger
      split <;> simp [owed, settled, Active.holds, Await.holds, queued, empty]
    · have enqueued := sound.enqueued
      have count := sound.activeCount
      simp only [outstanding, inHand, stopped] at enqueued count
      simp only [outstanding]
      simp at count
      omega
    · have count := sound.pendingCount
      simp only [queued, found, List.flatMap_cons, List.length_append] at count
      simp only [queued]
      omega
    · simp only [inHand, Option.map_some, Option.getD_some]
      split <;> rfl
    · exact fun other member => sound.lots other (found ▸ List.mem_cons_of_mem lot member)
    · rintro active ⟨⟩
      have current : lot.epoch = lane.epoch := sound.lots lot (found ▸ List.mem_cons_self)
      exact ⟨Nat.le_of_eq current, fun _ => empty, fun retired => absurd current retired⟩
    · rintro active ⟨⟩ effect body size mark generation waiting
      split at waiting <;> cases waiting

/-- The end of a lot and the step to the next one. -/
theorem Sound.nextLot (sound : lane.Sound) (found : lane.active = some active)
    (past : active.effects = []) (ready : active.awaits = .ready) :
    (lane.unwind []).takeLot.Sound := by
  have between : (lane.drained active active.awaits).Sound := by
    rw [drained_self found]
    exact sound
  have done : (lane.unwind []).Sound := between.unwind (by rw [past, ready]; rfl)
  refine done.takeLot rfl fun some => ?_
  obtain ⟨_, first, last⟩ := sound.live active found
  have current : active.epoch = lane.epoch := by
    by_contra retired
    exact some (last retired)
  change [] ++ lane.carryover = []
  rw [first current]
  rfl

theorem Sound.applyNext (sound : lane.Sound) (found : lane.active = some active)
    (ready : active.awaits = .ready) (outcome : Outcome) :
    (lane.applyNext settings active outcome).Sound := by
  obtain ⟨epoch, effects, awaits⟩ := active
  cases ready
  unfold DeliveryLane.applyNext
  cases effects with
  | nil =>
    dsimp only
    split
    · have between : (lane.drained ⟨epoch, [], .ready⟩ .ready).Sound := by
        rw [drained_self found]
        exact sound
      exact between.unwind rfl
    · exact sound.nextLot found rfl rfl
  | cons effect rest =>
    dsimp only
    split
    · rename_i skipped
      have dropped : (lane.drained ⟨epoch, rest, .ready⟩ .fairness).Sound :=
        sound.popped found (by simp [Await.holds, skipped.2]) rfl
          fun _ _ _ _ _ none => (by cases none)
      exact dropped.finish rfl rfl
    · rename_i goes
      cases effect with
      | continueInboundReplay =>
        exact sound.popped found rfl rfl fun _ _ _ _ _ none => (by cases none)
      | message body size mark =>
        have current : mark ≠ none → epoch = lane.epoch := by
          intro some
          by_contra retired
          refine goes ⟨retired, ?_⟩
          cases mark with
          | none => exact absurd rfl some
          | some mid => rfl
        have inHand : (lane.drained ⟨epoch, rest, .ready⟩
            (.admission (.message body size mark) body size mark lane.admissionGeneration)).Sound := by
          refine sound.popped found rfl rfl ?_
          rintro _ _ _ _ _ ⟨⟩
          exact ⟨rfl, Nat.le_refl _, fun _ => current⟩
        dsimp only
        split
        · exact inHand.acceptCallback rfl current outcome
        · unfold acceptIterator
          dsimp only
          split
          · exact inHand.refused
          · split
            · exact inHand
            · exact inHand.handOver rfl current _

theorem Sound.admissionResumes (sound : lane.Sound) (found : lane.active = some active)
    {effect : LaneEffect Body} {body : Body} {size generation : Nat} {mark : Option Nat}
    (waiting : active.awaits = .admission effect body size mark generation) (raises : Bool) :
    (lane.admissionResumes settings active effect body size mark generation raises).Sound := by
  obtain ⟨same, _, fresh⟩ := sound.admitting active found _ _ _ _ _ waiting
  have inHand : (lane.drained active (.admission effect body size mark generation)).Sound := by
    rw [← waiting, drained_self found]
    exact sound
  unfold DeliveryLane.admissionResumes
  split
  · rename_i current
    split
    · exact sound
    · exact inHand.handOver same (fresh current) raises
  · cases mark with
    | none =>
      have survives : survivesConnection effect = true := by
        rw [same]
        rfl
      have handed := (inHand.handed (Or.inl survives)).beside
        (lane.enqueue settings body size).queue (lane.enqueue settings body size).pendingBytes
        lane.sinceYield
      have put : (((lane.enqueue settings body size).record
          (.handed effect (active.epoch == lane.epoch))).drained active .fairness).Sound := handed
      exact put.finish rfl rfl
    | some mid =>
      have dropped : (lane.drained active .fairness).Sound :=
        inHand.awaiting (by rw [same]; rfl) rfl fun _ _ _ _ _ none => (nomatch none)
      exact dropped.finish rfl rfl

theorem Sound.cancel (sound : lane.Sound) (found : lane.active = some active) :
    (lane.cancel active).Sound := by
  have between : (lane.drained active active.awaits).Sound := by
    rw [drained_self found]
    exact sound
  unfold DeliveryLane.cancel
  split
  · rename_i effect _ _ _ _ waiting
    rw [waiting] at between
    split
    · rename_i survives
      exact between.unwind (by simp [Await.holds, survives])
    · rename_i bound
      exact between.unwind (by simp [Await.holds, bound])
  · rename_i other
    refine between.unwind ?_
    cases awaits : active.awaits with
    | admission effect body size mark generation => exact absurd awaits (other _ _ _ _ _)
    | fence => rfl
    | ready => rfl
    | fairness => rfl
    | replay => rfl

theorem Sound.collect (sound : lane.Sound)
    (alive : ∀ active, lane.active = some active → active.epoch = lane.epoch)
    (effects : List (LaneEffect Body)) (target : Nat) : (lane.collect effects target).Sound := by
  refine ⟨?_, ?_, ?_, sound.activeCount, sound.carried, ?_, ?_, sound.admitting, sound.timely⟩
  · have ledger := sound.ledger
    change lane.settled ++ _ = lane.arrived ++ _
    rw [← ledger, List.append_assoc]
    simp [owed, queued, DeliveryLane.collect]
  · have enqueued := sound.enqueued
    simp only [outstanding] at enqueued
    simp only [DeliveryLane.collect, outstanding]
    omega
  · have count := sound.pendingCount
    simp only [queued] at count
    simp only [DeliveryLane.collect, queued, List.flatMap_append, List.length_append,
      List.flatMap_singleton]
    omega
  · intro lot member
    rcases List.mem_append.mp member with old | new
    · exact sound.lots lot old
    · rw [List.mem_singleton.mp new]
      rfl
  · intro active found
    obtain ⟨bound, first, _⟩ := sound.live active found
    exact ⟨bound, first, fun retired => absurd (alive active found) retired⟩

theorem Sound.retire (sound : lane.Sound) : lane.retireConnectionEpoch.Sound := by
  refine ⟨?_, ?_, ?_, sound.activeCount, ?_, fun _ none => (nomatch none), ?_, ?_, sound.timely⟩
  · refine Eq.trans ?_ sound.ledger
    simp [owed, retireConnectionEpoch, discard, queued, settled]
  · have enqueued := sound.enqueued
    simp only [outstanding] at enqueued
    simp only [retireConnectionEpoch, discard, outstanding]
    omega
  · have count := sound.pendingCount
    simp only [queued] at count
    simp only [retireConnectionEpoch, discard, queued, List.flatMap_nil, List.length_nil,
      List.length_append]
    omega
  · intro effect member
    rcases List.mem_append.mp member with old | kept
    · exact sound.carried effect old
    · exact (List.mem_filter.mp kept).2
  · intro active found
    obtain ⟨bound, _, _⟩ := sound.live active found
    refine ⟨Nat.le_succ_of_le bound, fun current => ?_, fun _ => rfl⟩
    exact absurd (current ▸ bound) (Nat.not_succ_le_self _)
  · intro active found effect body size mark generation waiting
    obtain ⟨same, bound, _⟩ := sound.admitting active found _ _ _ _ _ waiting
    refine ⟨same, Nat.le_succ_of_le bound, fun current => ?_⟩
    exact absurd (current ▸ bound) (Nat.not_succ_le_self _)

/-- Acknowledged messages handed over past every bound, one after the other. -/
theorem delivered {effects : List (LaneEffect Body)}
    (survive : ∀ effect ∈ effects, survivesConnection effect = true) (lane : DeliveryLane Body) :
    ∃ queue pendingBytes, effects.foldl (deliverAcknowledged settings) lane =
      { lane with
        queue
        pendingBytes
        log := lane.log ++ effects.map fun effect => .handed effect false } := by
  induction effects generalizing lane with
  | nil => exact ⟨lane.queue, lane.pendingBytes, by simp⟩
  | cons effect rest hypothesis =>
    have survives := survive effect List.mem_cons_self
    obtain ⟨queue, pendingBytes, same⟩ := hypothesis
      (fun other member => survive other (List.mem_cons_of_mem effect member))
      (lane.deliverAcknowledged settings effect)
    refine ⟨queue, pendingBytes, ?_⟩
    rw [List.foldl_cons, same]
    cases effect with
    | continueInboundReplay => cases survives
    | message body size mark =>
      unfold deliverAcknowledged
      cases settings.mode with
      | callback => simp [record]
      | iterator => simp [record, enqueue]

/-- No cancellation cuts the loop over the carryover short. -/
def Whole (settings : Settings) (lane : DeliveryLane Body) (cut : Option Nat) : Prop :=
  settings.mode = .iterator ∨ ∀ index, cut = some index → lane.carryover.length ≤ index + 1

/-- A whole hand-over settles the carryover and changes nothing else but the counters and
the application's side. -/
theorem flushCarryover_whole {cut : Option Nat} (whole : lane.Whole settings cut)
    (carried : ∀ effect ∈ lane.carryover, survivesConnection effect = true) (ran : Nat) :
    ∃ queue pendingBytes, lane.flushCarryover settings ran cut =
      { lane with
        carryover := []
        pendingCount := lane.pendingCount - lane.carryover.length
        applied := lane.applied + lane.carryover.length
        sinceYield := lane.sinceYield + ran
        queue
        pendingBytes
        log := lane.log ++ lane.carryover.map fun effect => .handed effect false } := by
  have handed := @delivered _ settings _ carried
    { lane with
      carryover := []
      pendingCount := lane.pendingCount - lane.carryover.length
      applied := lane.applied + lane.carryover.length
      sinceYield := lane.sinceYield + ran }
  unfold DeliveryLane.flushCarryover
  dsimp only
  split
  · rename_i index callback
    rcases whole with iterator | reaches
    · rw [iterator] at callback
      cases callback
    · rw [List.take_of_length_le (reaches index rfl)]
      exact handed
  · exact handed

theorem Sound.flushCarryover (sound : lane.Sound) (stopped : lane.active = none)
    {cut : Option Nat} (whole : lane.Whole settings cut) (ran : Nat) :
    (lane.flushCarryover settings ran cut).Sound := by
  obtain ⟨queue, pendingBytes, same⟩ := flushCarryover_whole whole sound.carried ran
  rw [same]
  have settles : (lane.carryover.map fun effect => Event.handed effect false).filterMap
      Event.settles = lane.carryover := by
    rw [List.filterMap_map]
    refine (List.filterMap_congr fun effect member => ?_).trans List.filterMap_some
    simp [Event.settles, sound.carried effect member]
  refine ⟨?_, ?_, ?_, sound.activeCount, fun _ none => (nomatch none), sound.lots, ?_, ?_, ?_⟩
  · have ledger := sound.ledger
    simp only [owed, stopped, Option.map_none, Option.getD_none, List.nil_append, settled] at ledger
    simp only [owed, stopped, Option.map_none, Option.getD_none, List.nil_append, settled,
      List.filterMap_append, settles, List.append_assoc]
    exact ledger
  · have enqueued := sound.enqueued
    simp only [outstanding] at enqueued
    simp only [outstanding]
    omega
  · have count := sound.pendingCount
    simp only [queued] at count
    simp only [queued, List.length_nil]
    omega
  · intro active found
    rw [stopped] at found
    cases found
  · intro active found
    rw [stopped] at found
    cases found
  · intro event member
    rcases List.mem_append.mp member with old | new
    · exact sound.timely event old
    · obtain ⟨effect, carried, rfl⟩ := List.mem_map.mp new
      exact Or.inl (sound.carried effect carried)

end DeliveryLane

end Mqttium.Delivery
