import Mqttium.Delivery.Exactness

/-! What the lane promises over any run of its reader, of the tasks that cancel it and
retire its connection, and of the application. -/

namespace Mqttium.Delivery

variable {Body : Type}

namespace DeliveryLane

variable {lane : DeliveryLane Body} {settings : Settings}

theorem Sound.resetMessageStream (sound : lane.Sound) : lane.resetMessageStream.Sound := by
  refine ⟨sound.ledger, sound.enqueued, sound.pendingCount, sound.activeCount, sound.carried,
    sound.lots, sound.live, ?_, sound.timely⟩
  intro active found effect body size mark generation waiting
  obtain ⟨same, bound, _⟩ := sound.admitting active found _ _ _ _ _ waiting
  refine ⟨same, Nat.le_succ_of_le bound, fun current => ?_⟩
  exact absurd (current ▸ bound) (Nat.not_succ_le_self _)

theorem Sound.takeMessage (sound : lane.Sound) : (lane.takeMessage settings).Sound := by
  unfold DeliveryLane.takeMessage
  split
  · exact sound
  · exact sound.beside _ _ _

end DeliveryLane

/-- The only step that can lose messages is a hand-over cut short before its last one. -/
def Step.Whole (settings : Settings) (lane : DeliveryLane Body) : Step Body → Prop
  | .flushCarryover _ cut => lane.Whole settings cut
  | _ => True

namespace DeliveryLane

variable {lane : DeliveryLane Body} {settings : Settings}

/-- No step of a run cuts a hand-over short. -/
def Wholly (settings : Settings) : DeliveryLane Body → List (Step Body) → Prop
  | _, [] => True
  | lane, step :: rest => step.Whole settings lane ∧ Wholly settings (lane.after settings step) rest

theorem Sound.between {active : Active Body} (sound : lane.Sound)
    (found : lane.active = some active) : (lane.drained active active.awaits).Sound := by
  rw [drained_self found]
  exact sound

theorem Sound.after_collect (sound : lane.Sound) (effects : List (LaneEffect Body)) (target : Nat) :
    (lane.after settings (.collect effects target)).Sound := by
  dsimp only [DeliveryLane.after]
  split
  · rename_i alive
    refine sound.collect (fun active found => ?_) effects target
    simpa [found] using alive
  · exact sound

theorem Sound.after_drain (sound : lane.Sound) : (lane.after settings .drain).Sound := by
  dsimp only [DeliveryLane.after]
  split
  · rename_i idle
    simp only [Bool.and_eq_true, Option.isNone_iff_eq_none, List.isEmpty_iff] at idle
    exact sound.takeLot idle.1 fun _ => idle.2
  · exact sound

theorem Sound.after_flushCarryover (sound : lane.Sound) {ran : Nat} {cut : Option Nat}
    (whole : lane.Whole settings cut) :
    (lane.after settings (.flushCarryover ran cut)).Sound := by
  dsimp only [DeliveryLane.after]
  split
  · rename_i stopped
    exact sound.flushCarryover (Option.isNone_iff_eq_none.mp stopped) whole ran
  · exact sound

/-! A step that comes back to what the reader awaits -/

theorem Sound.after_fenceReturns (sound : lane.Sound) :
    (lane.after settings .fenceReturns).Sound := by
  dsimp only [DeliveryLane.after]
  cases found : lane.active with
  | none => exact sound
  | some active =>
    have between := sound.between found
    dsimp only
    cases awaits : active.awaits with
    | fence =>
      rw [awaits] at between
      have ready : (lane.drained active .ready).Sound :=
        between.awaiting rfl rfl fun _ _ _ _ _ none => (nomatch none)
      exact ready
    | _ => exact sound

theorem Sound.after_fenceRaises (sound : lane.Sound) :
    (lane.after settings .fenceRaises).Sound := by
  dsimp only [DeliveryLane.after]
  cases found : lane.active with
  | none => exact sound
  | some active =>
    have between := sound.between found
    dsimp only
    cases awaits : active.awaits with
    | fence =>
      rw [awaits] at between
      exact between.unwind rfl
    | _ => exact sound

theorem Sound.after_applyNext (sound : lane.Sound) (outcome : Outcome) :
    (lane.after settings (.applyNext outcome)).Sound := by
  dsimp only [DeliveryLane.after]
  cases found : lane.active with
  | none => exact sound
  | some active =>
    dsimp only
    cases awaits : active.awaits with
    | ready => exact sound.applyNext found awaits outcome
    | _ => exact sound

theorem Sound.after_admissionResumes (sound : lane.Sound) (raises : Bool) :
    (lane.after settings (.admissionResumes raises)).Sound := by
  dsimp only [DeliveryLane.after]
  cases found : lane.active with
  | none => exact sound
  | some active =>
    dsimp only
    cases awaits : active.awaits with
    | admission effect body size mark generation =>
      exact sound.admissionResumes found awaits raises
    | _ => exact sound

theorem Sound.after_admissionTimesOut (sound : lane.Sound) :
    (lane.after settings .admissionTimesOut).Sound := by
  dsimp only [DeliveryLane.after]
  cases found : lane.active with
  | none => exact sound
  | some active =>
    have between := sound.between found
    dsimp only
    cases awaits : active.awaits with
    | admission effect body size mark generation =>
      rw [awaits] at between
      dsimp only
      split
      · exact between.refused
      · exact sound
    | _ => exact sound

theorem Sound.after_yieldReturns (sound : lane.Sound) :
    (lane.after settings .yieldReturns).Sound := by
  dsimp only [DeliveryLane.after]
  cases found : lane.active with
  | none => exact sound
  | some active =>
    have between := sound.between found
    dsimp only
    cases awaits : active.awaits with
    | fairness =>
      rw [awaits] at between
      exact between.finish rfl rfl
    | _ => exact sound

theorem Sound.after_replayReturns (sound : lane.Sound) (effects : List (LaneEffect Body)) (target : Nat) :
    (lane.after settings (.replayReturns effects target)).Sound := by
  dsimp only [DeliveryLane.after]
  cases found : lane.active with
  | none => exact sound
  | some active =>
    have between := sound.between found
    dsimp only
    cases awaits : active.awaits with
    | replay =>
      rw [awaits] at between
      dsimp only
      split
      · exact between.finish rfl rfl
      · rename_i current
        split
        · exact between.finish rfl rfl
        · have collected := between.collect (fun other same => ?_) effects target
          · exact collected.finish rfl rfl
          · cases same
            exact not_ne_iff.mp current
    | _ => exact sound

theorem Sound.after_replayRaises (sound : lane.Sound) :
    (lane.after settings .replayRaises).Sound := by
  dsimp only [DeliveryLane.after]
  cases found : lane.active with
  | none => exact sound
  | some active =>
    have between := sound.between found
    dsimp only
    cases awaits : active.awaits with
    | replay =>
      rw [awaits] at between
      exact between.unwind rfl
    | _ => exact sound

theorem Sound.after_cancel (sound : lane.Sound) : (lane.after settings .cancel).Sound := by
  dsimp only [DeliveryLane.after]
  cases found : lane.active with
  | none => exact sound
  | some active =>
    have cancelled := sound.cancel found
    dsimp only
    cases awaits : active.awaits with
    | ready => exact sound
    | _ => exact cancelled

theorem Sound.after (sound : lane.Sound) {step : Step Body} (whole : step.Whole settings lane) :
    (lane.after settings step).Sound := by
  cases step with
  | collect effects target => exact sound.after_collect effects target
  | drain => exact sound.after_drain
  | flushCarryover ran cut => exact sound.after_flushCarryover whole
  | retireConnectionEpoch => exact sound.retire
  | takeMessage => exact sound.takeMessage
  | resetMessageStream => exact sound.resetMessageStream
  | fenceReturns => exact sound.after_fenceReturns
  | fenceRaises => exact sound.after_fenceRaises
  | applyNext outcome => exact sound.after_applyNext outcome
  | admissionResumes raises => exact sound.after_admissionResumes raises
  | admissionTimesOut => exact sound.after_admissionTimesOut
  | yieldReturns => exact sound.after_yieldReturns
  | replayReturns effects target => exact sound.after_replayReturns effects target
  | replayRaises => exact sound.after_replayRaises
  | cancel => exact sound.after_cancel

theorem Sound.runs (sound : lane.Sound) (steps : List (Step Body))
    (whole : Wholly settings lane steps) : (lane.runs settings steps).Sound := by
  induction steps generalizing lane with
  | nil => exact sound
  | cons step rest hypothesis => exact hypothesis (sound.after whole.1) whole.2

/-- Once the reader has stopped, one retirement and one hand-over leave nothing behind. -/
theorem Sound.flushed (sound : lane.Sound) (stopped : lane.active = none) (ran : Nat) :
    (lane.retireConnectionEpoch.flushCarryover settings ran none).settled = lane.arrived := by
  have whole : lane.retireConnectionEpoch.Whole settings none :=
    Or.inr fun _ cut => (nomatch cut)
  have ledger := (sound.retire.flushCarryover stopped whole ran).ledger
  obtain ⟨queue, pendingBytes, same⟩ := flushCarryover_whole whole sound.retire.carried ran
  have stopped : lane.retireConnectionEpoch.active = none := stopped
  have nothing : lane.retireConnectionEpoch.queued = [] := rfl
  rw [same] at ledger ⊢
  simp only [owed, stopped, Option.map_none, Option.getD_none, List.append_nil, List.nil_append]
    at ledger
  refine Eq.trans ?_ ledger
  exact (List.append_nil _).symm

/-- In any order of steps, on any connection, every acknowledged message put on the lane is
handed over once and in its turn or refused by its own admission, or the lane still holds
it in its place; what is bound to a connection never reaches the application after it; and
the counters add up. -/
theorem delivers_exactly (settings : Settings) (steps : List (Step Body))
    (whole : Wholly settings {} steps) :
    let lane := ({} : DeliveryLane Body).runs settings steps
    lane.settled ++ lane.owed = lane.arrived ∧
      (lane.active = none → ∀ ran,
        (lane.retireConnectionEpoch.flushCarryover settings ran none).settled = lane.arrived) ∧
      (∀ event ∈ lane.log, event.Timely) ∧
      lane.enqueued = lane.applied + lane.outstanding := by
  have start : ({} : DeliveryLane Body).Sound := Sound.start
  have sound := start.runs steps whole
  exact ⟨sound.ledger, sound.flushed, sound.timely, sound.enqueued⟩

/-- A hand-over in callback mode, cut at its last message. -/
theorem delivers_exactly_cut :
    let steps : List (Step Nat) :=
      [.collect [.message 1 1 none, .message 2 1 none] 0, .drain, .retireConnectionEpoch,
        .cancel, .flushCarryover 2 (some 1)]
    (({} : DeliveryLane Nat).runs ⟨.callback, 10, none, false⟩ steps).settled =
      [.message 1 1 none, .message 2 1 none] := by
  have exactly := delivers_exactly ⟨.callback, 10, none, false⟩
    [.collect [.message 1 1 none, .message 2 1 none] 0, .drain, .retireConnectionEpoch,
      .cancel, .flushCarryover 2 (some 1)]
    ⟨trivial, trivial, trivial, trivial, Or.inr (by rintro index ⟨⟩; decide), trivial⟩
  exact (List.append_nil _).symm.trans exactly.1

/-- A callback that raises while its cancelled reader hands the carryover over takes the
messages behind its own with it. -/
theorem flushCarryover_loses :
    let steps : List (Step Nat) :=
      [.collect [.message 1 1 none, .message 2 1 none] 0, .drain, .retireConnectionEpoch,
        .cancel, .flushCarryover 1 (some 0)]
    let lane := ({} : DeliveryLane Nat).runs ⟨.callback, 10, none, false⟩ steps
    lane.settled = [.message 1 1 none] ∧ lane.owed = [] ∧
      lane.arrived = [.message 1 1 none, .message 2 1 none] := by
  decide

end DeliveryLane

end Mqttium.Delivery
