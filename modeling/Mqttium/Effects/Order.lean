import Mqttium.Effects.Collecting

/-! Runs of the pump: what it hands over, settles and gives to the delivery lane. -/

namespace Mqttium.Effects

open Library Protocol

namespace EffectPump

variable {pump : EffectPump} {effect : EngineEffect} {epoch : Nat}

namespace Sound

/-- More is known to be stale or to have failed. -/
theorem note (sound : pump.Sound) (stale failed : List EngineEffect) :
    { pump with stale := pump.stale ++ stale, failed := pump.failed ++ failed }.Sound :=
  { sound with
    accounted := fun effect known send => by
      rcases sound.accounted effect known send with held | held | held | held | held
      · exact Or.inl held
      · exact Or.inr (Or.inl held)
      · exact Or.inr (Or.inr (Or.inl (List.mem_append_left _ held)))
      · exact Or.inr (Or.inr (Or.inr (Or.inl (List.mem_append_left _ held))))
      · exact Or.inr (Or.inr (Or.inr (Or.inr held))) }

end Sound

/-! Draining inline -/

theorem sound_drainPending (sound : pump.Sound) {effects : List EngineEffect}
    (held : pump.pending = effects) (current : epoch = pump.connectionEpoch)
    (unlocked : pump.flusher.locked = false) (answers : Nat → Answer) (target : Option Nat) :
    Sat (drainPending answers target epoch effects) pump
      (fun _ after => after.Sound) fun _ after => after.Sound := by
  induction effects generalizing pump with
  | nil => exact sound
  | cons effect rest ih =>
    rw [drainPending, sat_bind, sat_get, sat_onlyIf]
    refine ⟨fun _ => ?_, fun _ => sound⟩
    have passing := (sound.known effect (by simp [held])).2
    subst current
    rw [sat_bind]
    apply (sat_applyEffectInline pump (answers effect.serial) effect).mono
    · intro done after outcome
      rw [sat_onlyIf]
      rcases outcome with ⟨rfl, applied⟩ | ⟨rfl, rfl, _⟩
      · refine ⟨fun _ => ?_, fun undone => absurd rfl undone⟩
        obtain ⟨taken, stale, rfl, either⟩ := applied.split
        have popped := sound.pop held (pump.handed ++ taken) (pump.stale ++ stale) pump.failed
          (by
            rcases either with ⟨send, ⟨rfl, _⟩ | ⟨rfl, _⟩⟩ | ⟨_, rfl, _⟩
            · exact Or.inr ⟨rfl, send⟩
            · exact Or.inl (List.append_nil _)
            · exact Or.inl (List.append_nil _))
          (List.subset_append_left _ _) (List.Subset.refl _)
          (fun send => by
            rcases either with ⟨_, ⟨rfl, rfl⟩ | ⟨rfl, rfl⟩⟩ | ⟨other, _⟩
            · exact Or.inl (by simp)
            · exact Or.inr (Or.inl (by simp))
            · simp [send] at other)
          pump.flusher sound.failing sound.closing
          (fun other passed found => by simp [found, Flusher.locked] at unlocked)
        rw [sat_bind, sat_modify]
        have same : [effect].filter EngineEffect.isTerminal = [] := by simp [passing]
        rw [same, List.append_nil]
        refine ih popped ?_ rfl unlocked
        simp [popLeft, complete, EffectPump.wakeDrains, held]
      · exact ⟨(by rintro ⟨⟩), fun _ => sound⟩
    · intro _ after raised
      obtain ⟨failed, rfl, _⟩ := raised.split
      simpa using sound.note [] failed

theorem sound_drainCurrent (sound : pump.Sound) (unlocked : pump.flusher.locked = false)
    (current : pump.pending ≠ [] → pump.pendingEpoch = pump.connectionEpoch)
    (answers : Nat → Answer) (target : Option Nat) :
    Sat (drainCurrent answers target) pump (fun _ after => after.Sound)
      fun _ after => after.Sound := by
  rw [drainCurrent, sat_bind, sat_get, sat_onlyIf]
  refine ⟨fun some => ?_, fun _ => sound⟩
  rw [sat_bind, sat_modify, sat_bind, sat_attempt]
  have entered := sound.beside pump.flushRequested true pump.drains pump.errorWaiters
  have drained := sound_drainPending entered rfl (current some) unlocked answers target
  apply drained.mono
  · intro _ after kept
    have left := kept.beside after.flushRequested false after.drains after.errorWaiters
    simp only [sat_bind, sat_get, sat_onlyIf, sat_modify]
    exact ⟨fun _ => left.schedule, fun _ => left⟩
  · intro _ after kept
    rw [sat_bind, sat_modify, sat_throw]
    exact kept.beside after.flushRequested false after.drains after.errorWaiters

theorem sound_drainInline (sound : pump.Sound) (answers : Nat → Answer) (target : Option Nat) :
    Sat (drainInline answers target) pump (fun _ after => after.Sound)
      fun _ after => after.Sound := by
  rw [drainInline, sat_bind, sat_get, sat_onlyIf]
  refine ⟨fun free => ?_, fun _ => sound⟩
  have unlocked : pump.flusher.locked = false := by
    have neither := free.1
    simp only [not_or, Bool.not_eq_true] at neither
    exact neither.2
  rw [sat_bind, sat_onlyIf]
  refine ⟨fun passed => ?_, fun same => ?_⟩
  · rw [sat_modify]
    refine sound_drainCurrent (sound.discardPassed passed) unlocked (fun some => ?_) answers target
    rw [sound.discard_eq] at some
    exact absurd rfl some
  · exact sound_drainCurrent sound unlocked (fun _ => by simpa using same) answers target

/-! The scheduled flush -/

/-- What an application of an effect that settles nothing leaves: a send that is done with
was handed over under the current epoch, or dropped, or it failed. -/
structure Attempted (pump : EffectPump) (effect : EngineEffect) (epoch : Nat)
    (application : Application) (after : EffectPump) : Prop where
  split : ∃ taken stale failed, after =
      { pump with
        handed := pump.handed ++ taken
        stale := pump.stale ++ stale
        failed := pump.failed ++ failed } ∧
    (taken = [] ∨
      taken = [effect] ∧ effect.isSend = true ∧ epoch = pump.connectionEpoch) ∧
    (application = .suspended → taken = [] ∧ stale = [] ∧ failed = []) ∧
    (application ≠ .suspended → effect.isSend = true →
      effect ∈ taken ∨ effect ∈ stale ∨ effect ∈ failed)

theorem sat_applySend (pump : EffectPump) (answer : Answer) (send : effect.isSend = true)
    (epoch : Nat) : Sat (applySend answer effect epoch) pump
      (fun application after => pump.Attempted effect epoch application after) fun _ _ => False := by
  have taken (current : epoch = pump.connectionEpoch) :
      pump.Attempted effect epoch .done { pump with handed := pump.handed ++ [effect] } :=
    ⟨⟨[effect], [], [], by simp, Or.inr ⟨rfl, send, current⟩, nofun, fun _ _ => Or.inl (by simp)⟩⟩
  have dropped :
      pump.Attempted effect epoch .stale { pump with stale := pump.stale ++ [effect] } :=
    ⟨⟨[], [effect], [], by simp, Or.inl rfl, nofun, fun _ _ => Or.inr (Or.inl (by simp))⟩⟩
  have raised : pump.Attempted effect epoch (.failed .writer)
      { pump with failed := pump.failed ++ [effect] } :=
    ⟨⟨[], [], [effect], by simp, Or.inl rfl, nofun, fun _ _ => Or.inr (Or.inr (by simp))⟩⟩
  have waits : pump.Attempted effect epoch .suspended pump :=
    ⟨⟨[], [], [], by simp, Or.inl rfl, fun _ => ⟨rfl, rfl, rfl⟩, fun other => absurd rfl other⟩⟩
  rw [applySend, sat_bind, sat_get]
  by_cases current : epoch = pump.connectionEpoch
  · rw [if_pos current]
    cases answer with
    | took => exact taken current
    | busy => exact waits
    | stale => exact dropped
    | raises => exact raised
  · rw [if_neg current]
    exact dropped

theorem sat_applyEffect (pump : EffectPump) (answer : Answer) (passing : effect.isTerminal = false)
    (epoch : Nat) : Sat (applyEffect answer effect epoch) pump
      (fun application after => pump.Attempted effect epoch application after) fun _ _ => False := by
  have other (plain : effect.isSend = false) (application : Application) :
      pump.Attempted effect epoch application pump :=
    ⟨⟨[], [], [], by simp, Or.inl rfl, fun _ => ⟨rfl, rfl, rfl⟩, fun _ send => by
      simp [plain] at send⟩⟩
  obtain ⟨serial, batch, connection, value⟩ := effect
  cases value with
  | send item => exact sat_applySend pump answer rfl epoch
  | sendAck frame => exact sat_applySend pump answer rfl epoch
  | publishComplete mid => cases passing
  | publishFailed mid reason => cases passing
  | disconnected code properties fromBroker => cases answer <;> exact other rfl _
  | connack present code properties => exact other rfl _
  | suback mid codes properties => exact other rfl _
  | unsuback mid codes properties => exact other rfl _
  | pingresp => exact other rfl _
  | auth code properties challenge => exact other rfl _
  | protocolError failure => exact other rfl _
  | message message mark token => exact other rfl _
  | decodedMessage message mark size token => exact other rfl _
  | continueInboundReplay => exact other rfl _

/-- A failure takes the flush to its close from wherever it is. -/
theorem failConnection_flusher (pump : EffectPump) (flusher : Flusher) :
    failConnection { pump with flusher } = failConnection pump := by
  unfold failConnection
  dsimp only
  split <;> rfl

/-- The effect leaves the deque if it is still its head. -/
theorem Attempted.left (sound : pump.Sound)
    (head : effect.isSend = true → epoch = pump.connectionEpoch →
      pump.pending.head? = some effect)
    (free : pump.failingClose ≠ true) {application : Application} {after : EffectPump}
    (attempted : pump.Attempted effect epoch application after)
    (past : application ≠ .suspended) :
    Sat (leave effect) after (fun _ left => { left with flusher := .looping }.Sound)
      fun _ _ => False := by
  obtain ⟨taken, stale, failed, rfl, takes, _, accounts⟩ := attempted.split
  have looping : pump.failingClose = true → Flusher.looping = .closing :=
    fun failing => absurd failing free
  rw [leave, sat_bind, sat_get, sat_onlyIf]
  refine ⟨fun first => ?_, fun other => ?_⟩
  · obtain ⟨rest, held⟩ := List.head?_eq_some_iff.mp first
    rw [sat_modify]
    refine sound.pop held (pump.handed ++ taken) (pump.stale ++ stale) (pump.failed ++ failed) ?_
      (List.subset_append_left _ _) (List.subset_append_left _ _) (fun send => ?_) .looping looping
      (by simp) (by simp)
    · rcases takes with rfl | ⟨rfl, send, _⟩
      · exact Or.inl (List.append_nil _)
      · exact Or.inr ⟨rfl, send⟩
    · rcases accounts past send with known | known | known
      · exact Or.inl (List.mem_append_right _ known)
      · exact Or.inr (Or.inl (List.mem_append_right _ known))
      · exact Or.inr (Or.inr (List.mem_append_right _ known))
  · have none : taken = [] := by
      rcases takes with none | ⟨_, send, current⟩
      · exact none
      · exact absurd (head send current) other
    subst none
    have noted := (sound.note stale failed).staged .looping pump.flushRequested
      pump.drainingInline pump.drains pump.errorWaiters looping (by simp) (by simp)
      (by simp)
    simpa using noted

theorem sound_afterApplication (sound : pump.Sound) (passing : effect.isTerminal = false)
    (bound : epoch ≤ pump.connectionEpoch)
    (head : effect.isSend = true → epoch = pump.connectionEpoch →
      pump.pending.head? = some effect ∧ pump.pendingEpoch = pump.connectionEpoch)
    (free : pump.failingClose ≠ true) {application : Application} {after : EffectPump}
    (attempted : pump.Attempted effect epoch application after) :
    Sat (afterApplication effect epoch application) after (fun _ after => after.Sound)
      fun _ _ => False := by
  have left := Attempted.left sound (fun send current => (head send current).1) free attempted
  have loops (past : application ≠ .suspended) :
      Sat (do
        leave effect
        modify fun pump => { pump with flusher := .looping }) after
        (fun _ after => after.Sound) fun _ _ => False := by
    rw [sat_bind]
    apply (left past).mono _ fun _ _ impossible => impossible
    exact fun _ _ looped => looped
  cases application with
  | suspended =>
    obtain ⟨taken, stale, failed, rfl, _, waits, _⟩ := attempted.split
    obtain ⟨rfl, rfl, rfl⟩ := waits rfl
    have waiting := sound.staged (.applying effect epoch) pump.flushRequested
      pump.drainingInline pump.drains pump.errorWaiters (fun failing => absurd failing free)
      (by simp)
      (fun other passed found => by
        cases found
        exact ⟨bound, passing⟩)
      (fun other send found => by
        cases found
        exact head send rfl)
    simpa [afterApplication] using waiting
  | done => exact loops nofun
  | stale => exact loops nofun
  | failed error =>
    unfold afterApplication
    rw [sat_bind]
    apply (left nofun).mono _ fun _ _ impossible => impossible
    intro _ between looped
    rw [sat_modify, ← failConnection_flusher between .looping]
    exact looped.failConnection

theorem sound_application (sound : pump.Sound) (passing : effect.isTerminal = false)
    (bound : epoch ≤ pump.connectionEpoch)
    (head : effect.isSend = true → epoch = pump.connectionEpoch →
      pump.pending.head? = some effect ∧ pump.pendingEpoch = pump.connectionEpoch)
    (free : pump.failingClose ≠ true) (answer : Answer) :
    Sat (do
      let application ← applyEffect answer effect epoch
      afterApplication effect epoch application) pump
      (fun _ after => after.Sound) fun _ _ => False := by
  rw [sat_bind]
  apply (sat_applyEffect pump answer passing epoch).mono _ fun _ _ impossible => impossible
  intro application after attempted
  exact sound_afterApplication sound passing bound head free attempted

theorem sound_flushTurn (sound : pump.Sound) (looping : pump.flusher = .looping)
    (answer : Answer) :
    Sat (flushTurn answer) pump (fun _ after => after.Sound) fun _ after => after.Sound := by
  have free : pump.failingClose ≠ true := by
    intro failing
    have closing := sound.failing failing
    rw [looping] at closing
    cases closing
  unfold flushTurn
  rw [sat_bind, sat_get]
  cases held : pump.pending with
  | nil =>
    rw [sat_ite]
    refine ⟨fun _ => sound.beside false _ _ _, fun _ => ?_⟩
    rw [sat_modify]
    have idle := sound.staged .idle pump.flushRequested pump.drainingInline pump.drains
      pump.errorWaiters (fun failing => absurd failing free)
      (by simp) (by simp) (by simp)
    exact idle
  | cons effect rest =>
    rw [sat_ite]
    refine ⟨fun passed => sound.discardPassed passed, fun same => ?_⟩
    have current : pump.pendingEpoch = pump.connectionEpoch := by simpa using same
    have passing := (sound.known effect (by simp [held])).2
    apply (sound_application sound passing current.le
      (fun _ _ => ⟨by simp [held], current⟩) free answer).mono (fun _ _ kept => kept)
    exact fun _ _ impossible => impossible.elim

theorem sound_applyResumes (sound : pump.Sound) (applying : pump.flusher = .applying effect epoch)
    (answer : Answer) :
    Sat (applyResumes answer effect epoch) pump (fun _ after => after.Sound)
      fun _ after => after.Sound := by
  have free : pump.failingClose ≠ true := by
    intro failing
    have closing := sound.failing failing
    rw [applying] at closing
    cases closing
  obtain ⟨bound, passing⟩ := sound.applying effect epoch applying
  apply (sound_application sound passing bound (fun send current => ?_) free answer).mono
    (fun _ _ kept => kept)
  · exact fun _ _ impossible => impossible.elim
  · exact sound.sending effect send (current ▸ applying)

/-! The rest -/

theorem Sound.cancelFlush (sound : pump.Sound) : pump.cancelFlush.Sound := by
  have stopped (free : pump.failingClose ≠ true) : { pump with flusher := .idle }.Sound :=
    sound.staged .idle pump.flushRequested pump.drainingInline pump.drains pump.errorWaiters
      (fun failing => absurd failing free)
      (by simp) (by simp) (by simp)
  unfold EffectPump.cancelFlush
  cases found : pump.flusher with
  | created =>
    refine stopped fun failing => ?_
    have closing := sound.failing failing
    rw [found] at closing
    cases closing
  | applying effect epoch =>
    refine stopped fun failing => ?_
    have closing := sound.failing failing
    rw [found] at closing
    cases closing
  | closing => exact sound.closeEnds found
  | idle => exact sound
  | looping => exact sound

theorem Sound.wakeDrain (sound : pump.Sound) (index : Nat) : (pump.wakeDrain index).Sound := by
  unfold EffectPump.wakeDrain
  split
  · split
    · exact sound.beside _ _ _ _
    · split
      · exact sound.beside _ _ _ _
      · exact (sound.beside pump.flushRequested pump.drainingInline _ pump.errorWaiters).schedule
  · exact sound

theorem Sound.cancelDrain (sound : pump.Sound) (index : Nat) : (pump.cancelDrain index).Sound := by
  unfold EffectPump.cancelDrain
  split
  · exact sound.beside _ _ _ _
  · exact sound

theorem sound_drain (sound : pump.Sound) (answers : Nat → Answer) (nowait : Bool)
    (target : Option Nat) :
    Sat (drain answers nowait target) pump (fun _ after => after.Sound)
      fun _ after => after.Sound := by
  rw [drain, sat_bind]
  apply (sound_drainInline sound answers target).mono _ fun _ _ kept => kept
  intro _ after kept
  simp only [sat_bind, sat_get, sat_ite, sat_onlyIf, sat_modify]
  refine ⟨fun _ => ⟨fun _ => kept.schedule, fun _ => kept⟩, fun _ => ⟨fun _ => ?_, fun _ => kept⟩⟩
  exact (kept.beside after.flushRequested after.drainingInline _ after.errorWaiters).schedule

theorem sound_perform (sound : pump.Sound) {step : Step} (permitted : pump.permits step) :
    Sat (perform step) pump (fun _ after => after.Sound) fun _ after => after.Sound := by
  cases step with
  | collectFromEngine batch answer => exact sound_collectFromEngine sound batch answer
  | drainInline answers target => exact sound_drainInline sound answers target
  | schedule => exact sound.schedule
  | drain answers nowait target => exact sound_drain sound answers nowait target
  | wakeDrain index => exact sound.wakeDrain index
  | cancelDrain index => exact sound.cancelDrain index
  | flushStarts =>
    rw [perform, sat_bind, sat_get, sat_onlyIf]
    refine ⟨fun created => ?_, fun _ => sound⟩
    have started := sound.staged .looping false pump.drainingInline pump.drains pump.errorWaiters
      (fun failing => by
        have closing := sound.failing failing
        rw [created] at closing
        cases closing) (by simp) (by simp) (by simp)
    exact started
  | flushTurn answer =>
    rw [perform, sat_bind, sat_get, sat_onlyIf]
    exact ⟨fun looping => sound_flushTurn sound looping answer, fun _ => sound⟩
  | applyResumes answer =>
    rw [perform, sat_bind, sat_get]
    cases found : pump.flusher with
    | applying effect epoch => exact sound_applyResumes sound found answer
    | idle => exact sound
    | created => exact sound
    | looping => exact sound
    | closing => exact sound
  | closeEnds =>
    rw [perform, sat_bind, sat_get, sat_onlyIf]
    exact ⟨fun closing => sound.closeEnds closing, fun _ => sound⟩
  | cancelFlush => exact sound.cancelFlush
  | flushDone =>
    rw [perform, sat_bind, sat_get, sat_onlyIf]
    exact ⟨fun _ => sound.schedule, fun _ => sound⟩
  | retireConnectionEpoch => exact sound.retireConnectionEpoch
  | discardConnectionEffects settlePublish =>
    refine sound.discard (fun effect member => ?_) ?_ settlePublish
    · exact sound.over_of_ended permitted.1 (sound.known effect member).1
    · rintro ⟨effect, send, found⟩
      exact permitted.2 effect send found
  | connect => exact sound.connect permitted

theorem Sound.after (sound : pump.Sound) {step : Step} (permitted : pump.permits step) :
    (pump.after step).Sound := by
  have kept := sound_perform sound permitted
  rw [sat_ended] at kept
  unfold EffectPump.after
  generalize Library.ended (perform step) pump = result at kept ⊢
  obtain ⟨outcome | error, state⟩ := result
  · exact kept
  · exact kept

theorem Reaches.sound {steps : List Step} (reaches : Reaches steps pump) : pump.Sound := by
  induction reaches with
  | start => exact .start
  | step _ next permitted ih => exact ih.after permitted

/-! What was emitted -/

/-- No effect is collected. -/
def Quiet (before after : EffectPump) : Prop := after.emitted = before.emitted

instance : IsPreorder EffectPump Quiet where
  refl _ := rfl
  trans _ _ _ first second := second.trans first

theorem quiet_discard (pump : EffectPump) (settlePublish : Bool) :
    Quiet pump (pump.discardConnectionEffects settlePublish) :=
  rfl

theorem quiet_applyEffectInline (answer : Answer) (effect : EngineEffect) (epoch : Nat) :
    Within Quiet (applyEffectInline answer effect epoch) := by
  refine within_bind within_get fun _ => within_ite ?_ ?_
  · exact within_bind (within_modify fun _ => rfl) fun _ => within_pure _
  · split
    · split
      · exact within_bind (within_modify fun _ => rfl) fun _ => within_pure _
      · exact within_pure _
      · exact within_bind (within_modify fun _ => rfl) fun _ => within_pure _
      · exact within_bind (within_modify fun _ => rfl) fun _ => within_throw _
    · split
      · exact within_bind (within_modify fun _ => rfl) fun _ => within_pure _
      · exact within_pure _
      · exact within_bind (within_modify fun _ => rfl) fun _ => within_pure _
      · exact within_bind (within_modify fun _ => rfl) fun _ => within_throw _
    · exact within_bind (within_modify fun _ => rfl) fun _ => within_pure _
    · exact within_bind (within_modify fun _ => rfl) fun _ => within_pure _
    · exact within_pure _
    · exact within_pure _
    · exact within_pure _
    · exact within_pure _
    · exact within_pure _
    · exact within_throw _
    · exact within_pure _

theorem quiet_applyObservation (effect : EngineEffect) : Within Quiet (applyObservation effect) :=
  within_bind within_get fun _ => within_ite (quiet_applyEffectInline _ _ _) (within_pure _)

theorem quiet_collectSingle (answer : Answer) (effect : EngineEffect) (epoch : Nat) :
    Within Quiet (collectSingle answer effect epoch) := by
  have later (done : Bool) : Within Quiet (if done then pure true
      else if effect.isImmediate || effect.isEarlyObservation then applyObservation effect
      else pure false) :=
    within_ite (within_pure _) (within_ite (quiet_applyObservation effect) (within_pure _))
  refine within_ite (within_bind (within_modify fun _ => rfl) fun _ => within_pure _) ?_
  refine within_bind within_get fun _ => within_ite ?_ ?_
  · exact within_bind (quiet_applyEffectInline _ _ _) later
  · exact within_bind (within_pure _) later

theorem quiet_collectOrdered (ordered deliveries : List EngineEffect) (epoch : Nat) :
    Within Quiet (collectOrdered ordered deliveries epoch) :=
  within_bind (within_modify fun _ => rfl) fun _ => within_onlyIf (within_modify fun _ => rfl)

theorem quiet_collectBatch (effects : List EngineEffect) (epoch : Nat) (answer : Answer) :
    Within Quiet (collectBatch effects epoch answer) := by
  unfold collectBatch
  refine within_bind within_get fun _ => within_ite (within_modify fun _ => rfl) ?_
  split
  · exact within_bind (quiet_collectSingle _ _ _) fun _ =>
      within_onlyIf (quiet_collectOrdered _ _ _)
  · exact within_bind (within_forEach _ fun effect => within_map (quiet_applyObservation effect))
      fun _ => within_onlyIf (quiet_collectOrdered _ _ _)

theorem quiet_drainPending (answers : Nat → Answer) (target : Option Nat) (epoch : Nat)
    (effects : List EngineEffect) : Within Quiet (drainPending answers target epoch effects) := by
  induction effects with
  | nil => exact within_pure _
  | cons effect rest ih =>
    refine within_bind within_get fun _ => within_onlyIf ?_
    refine within_bind (quiet_applyEffectInline _ _ _) fun _ => within_onlyIf ?_
    exact within_bind (within_modify fun _ => rfl) fun _ => ih

theorem quiet_schedule : Within Quiet (modify EffectPump.schedule : PumpM PUnit) :=
  within_modify fun _ => rfl

theorem quiet_drainInline (answers : Nat → Answer) (target : Option Nat) :
    Within Quiet (drainInline answers target) := by
  refine within_bind within_get fun _ => within_onlyIf ?_
  refine within_bind (within_onlyIf (within_modify fun _ => rfl)) fun _ => ?_
  refine within_bind within_get fun _ => within_onlyIf ?_
  refine within_bind (within_modify fun _ => rfl) fun _ => ?_
  refine within_bind (within_attempt (quiet_drainPending _ _ _ _)) fun outcome => ?_
  refine within_bind (within_modify fun _ => rfl) fun _ => ?_
  cases outcome with
  | error error => exact within_throw _
  | ok _ => exact within_bind within_get fun _ => within_onlyIf quiet_schedule

theorem quiet_drain (answers : Nat → Answer) (nowait : Bool) (target : Option Nat) :
    Within Quiet (drain answers nowait target) := by
  refine within_bind (quiet_drainInline _ _) fun _ => within_bind within_get fun _ => ?_
  exact within_ite (within_onlyIf quiet_schedule)
    (within_onlyIf (within_modify fun _ => rfl))

theorem quiet_failConnection (pump : EffectPump) : Quiet pump pump.failConnection := by
  unfold EffectPump.failConnection
  dsimp only
  split <;> rfl

theorem quiet_application (answer : Answer) (effect : EngineEffect) (epoch : Nat) :
    Within Quiet (do
      let application ← applyEffect answer effect epoch
      afterApplication effect epoch application) := by
  have sends : Within Quiet (applySend answer effect epoch) := by
    refine within_bind within_get fun _ => ?_
    split
    · exact within_bind (within_modify fun _ => rfl) fun _ => within_pure _
    · exact within_pure _
    · exact within_bind (within_modify fun _ => rfl) fun _ => within_pure _
    · exact within_bind (within_modify fun _ => rfl) fun _ => within_pure _
  have leaves : Within Quiet (leave effect) :=
    within_bind within_get fun _ => within_onlyIf (within_modify fun _ => rfl)
  refine within_bind ?_ fun application => ?_
  · unfold applyEffect
    split
    · exact sends
    · exact sends
    · exact within_bind (within_modify fun _ => rfl) fun _ => within_pure _
    · exact within_bind (within_modify fun _ => rfl) fun _ => within_pure _
    · exact within_pure _
    · exact within_pure _
    · exact within_pure _
    · exact within_pure _
    · exact within_pure _
    · split <;> exact within_pure _
    · exact within_pure _
    · exact within_pure _
  · cases application with
    | suspended => exact within_modify fun _ => rfl
    | failed error => exact within_bind leaves fun _ => within_modify quiet_failConnection
    | done => exact within_bind leaves fun _ => within_modify fun _ => rfl
    | stale => exact within_bind leaves fun _ => within_modify fun _ => rfl

/-- Every step but collecting a batch. -/
theorem quiet_perform {step : Step} (quiet : ∀ batch answer, step ≠ .collectFromEngine batch answer) :
    Within Quiet (perform step) := by
  cases step with
  | collectFromEngine batch answer => exact absurd rfl (quiet batch answer)
  | drainInline answers target => exact quiet_drainInline answers target
  | schedule => exact quiet_schedule
  | drain answers nowait target => exact quiet_drain answers nowait target
  | wakeDrain index =>
    refine within_modify fun pump => ?_
    unfold EffectPump.wakeDrain
    split
    · split
      · rfl
      · split <;> rfl
    · rfl
  | cancelDrain index =>
    refine within_modify fun pump => ?_
    unfold EffectPump.cancelDrain
    split <;> rfl
  | flushStarts => exact within_bind within_get fun _ => within_onlyIf (within_modify fun _ => rfl)
  | flushTurn answer =>
    refine within_bind within_get fun _ => within_onlyIf ?_
    refine within_bind within_get fun pump => ?_
    split
    · exact within_ite (within_modify fun _ => rfl) (within_modify fun _ => rfl)
    · exact within_ite (within_modify fun pump => quiet_discard pump false) (quiet_application _ _ _)
  | applyResumes answer =>
    refine within_bind within_get fun pump => ?_
    split
    · exact quiet_application _ _ _
    · exact within_pure _
  | closeEnds =>
    refine within_bind within_get fun _ => within_onlyIf (within_modify fun pump => ?_)
    unfold EffectPump.closeEnds
    dsimp only
    split <;> rfl
  | cancelFlush =>
    refine within_modify fun pump => ?_
    unfold EffectPump.cancelFlush
    split
    · rfl
    · rfl
    · unfold EffectPump.closeEnds
      dsimp only
      split <;> rfl
    · rfl
  | flushDone => exact within_bind within_get fun _ => within_onlyIf quiet_schedule
  | retireConnectionEpoch => exact within_modify fun _ => rfl
  | discardConnectionEffects settlePublish =>
    exact within_modify fun pump => quiet_discard pump settlePublish
  | connect => exact within_modify fun _ => rfl

theorem emitted_collect (pump : EffectPump) (batch : List Effect) (answer : Answer) :
    Sat (collectFromEngine batch answer) pump
      (fun _ after => after.emitted = pump.emitted ++ pump.stamp batch)
      (fun _ after => after.emitted = pump.emitted ++ pump.stamp batch) := by
  rw [collectFromEngine, sat_onlyIf]
  refine ⟨fun _ => ?_, fun empty => ?_⟩
  · rw [sat_bind, sat_get]
    simp only [sat_bind, sat_modify, sat_onlyIf]
    have collects (between : EffectPump)
        (same : between.emitted = pump.emitted ++ pump.stamp batch) :
        Sat (collectBatch (pump.stamp batch) pump.connectionEpoch answer) between
          (fun _ after => after.emitted = pump.emitted ++ pump.stamp batch)
          (fun _ after => after.emitted = pump.emitted ++ pump.stamp batch) :=
      (quiet_collectBatch (pump.stamp batch) pump.connectionEpoch answer between).mono
        (fun _ _ quiet => quiet.trans same) fun _ _ quiet => quiet.trans same
    exact ⟨fun _ => collects _ rfl, fun _ => collects _ rfl⟩
  · obtain rfl := not_not.mp empty
    simp [stamp]

/-- What was emitted is what the engine gave, batch after batch. -/
theorem Reaches.emitted {steps : List Step} (reaches : Reaches steps pump) :
    pump.emitted.map EngineEffect.value = steps.flatMap Step.batch := by
  induction reaches with
  | start => rfl
  | @step steps pump reaches next permitted ih =>
    have grows : (pump.after next).emitted.map EngineEffect.value =
        pump.emitted.map EngineEffect.value ++ next.batch := by
      have ends : Sat (perform next) pump
          (fun _ after => after.emitted.map EngineEffect.value =
            pump.emitted.map EngineEffect.value ++ next.batch)
          (fun _ after => after.emitted.map EngineEffect.value =
            pump.emitted.map EngineEffect.value ++ next.batch) := by
        cases collects : next with
        | collectFromEngine batch answer =>
          have collected {after : EffectPump} (emits : after.emitted = pump.emitted ++ pump.stamp batch) :
              after.emitted.map EngineEffect.value =
                pump.emitted.map EngineEffect.value ++ batch := by
            rw [emits, List.map_append, values_stamp]
          exact (emitted_collect pump batch answer).mono (fun _ _ emits => collected emits)
            fun _ _ emits => collected emits
        | _ =>
          have silent : Within Quiet (perform next) :=
            quiet_perform fun batch answer same => by simp [same] at collects
          rw [collects] at silent
          have kept {after : EffectPump} (quiet : Quiet pump after) :
              after.emitted.map EngineEffect.value = pump.emitted.map EngineEffect.value ++ [] := by
            rw [quiet, List.append_nil]
          exact (silent pump).mono (fun _ _ quiet => kept quiet) fun _ _ quiet => kept quiet
      rw [sat_ended] at ends
      unfold EffectPump.after
      generalize Library.ended (perform next) pump = result at ends ⊢
      obtain ⟨outcome | error, state⟩ := result
      · exact ends
      · exact ends
    rw [grows, ih, List.flatMap_append, List.flatMap_singleton]

/-- Whatever the steps: the sends are handed over in the order the engine emitted them, none of
them twice, and each is handed over, or waits, or was dropped with its connection or for a stale
epoch, or its own application failed. Every end of a publication is applied once. The deliveries
reach the lane in order, with a target that every send of their batch comes before, and what is
neither applied nor dropped is what is pending. -/
theorem effects_in_order {steps : List Step} {pump : EffectPump} (reaches : Reaches steps pump) :
    pump.emitted.map EngineEffect.value = steps.flatMap Step.batch ∧
    pump.emitted.map EngineEffect.serial = List.range pump.emitted.length ∧
    (pump.handed ++ pump.pending.filter EngineEffect.isSend).Sublist
      (pump.emitted.filter EngineEffect.isSend) ∧
    pump.handed.Nodup ∧
    (∀ effect ∈ pump.emitted, effect.isSend = true →
      effect ∈ pump.handed ∨ effect ∈ pump.pending ∨ effect ∈ pump.stale ∨
        effect ∈ pump.failed ∨ effect ∈ pump.discarded ∧ pump.Over effect) ∧
    pump.settled = pump.emitted.filter EngineEffect.isTerminal ∧
    pump.delivered.Sublist (pump.emitted.filter EngineEffect.isDelivery) ∧
    (∀ effect ∈ pump.emitted, effect.isDelivery = true →
      effect ∈ pump.delivered ∨ effect ∈ pump.discarded ∧ pump.Over effect) ∧
    (∀ lot ∈ pump.lane, ∀ delivery ∈ lot.effects, ∀ (index : Nat) (effect : EngineEffect),
      pump.pending[index]? = some effect → effect.isSend = true →
        effect.batch = delivery.batch → pump.applied + index < lot.target) ∧
    pump.enqueued - pump.applied = pump.pending.length ∧ pump.applied ≤ pump.enqueued := by
  have sound := reaches.sound
  have past {effect : EngineEffect} (dropped : effect ∈ pump.discarded) :
      effect ∈ pump.discarded ∧ pump.Over effect := ⟨dropped, sound.past effect dropped⟩
  have distinct : pump.emitted.Nodup := by
    refine List.Nodup.of_map EngineEffect.serial ?_
    rw [sound.stamped]
    exact List.nodup_range
  have handed : pump.handed.Sublist pump.emitted := (List.sublist_append_left _ _).trans sound.ordered
  refine ⟨reaches.emitted, sound.stamped, ?_, handed.nodup distinct, ?_, sound.settled, sound.laned,
    ?_, sound.covered, ?_, ?_⟩
  · have sends : (pump.handed ++ pump.pending.filter EngineEffect.isSend).filter
        EngineEffect.isSend = pump.handed ++ pump.pending.filter EngineEffect.isSend := by
      rw [List.filter_eq_self]
      intro effect member
      rcases List.mem_append.mp member with handed | waiting
      · exact sound.sends effect handed
      · exact (List.mem_filter.mp waiting).2
    rw [← sends]
    exact sound.ordered.filter EngineEffect.isSend
  · intro effect known send
    rcases sound.accounted effect known send with held | held | held | held | held
    · exact .inl held
    · exact .inr (.inl held)
    · exact .inr (.inr (.inl held))
    · exact .inr (.inr (.inr (.inl held)))
    · exact .inr (.inr (.inr (.inr (past held))))
  · exact fun effect known delivery => (sound.delivery effect known delivery).imp id past
  · have counted := sound.counted
    omega
  · have counted := sound.counted
    omega

/-- An acknowledgement that waits, and a batch with a message before the next one. -/
def parkedSteps : List Step :=
  [.connect, .collectFromEngine [.sendAck [64]] .busy,
   .collectFromEngine [.continueInboundReplay, .sendAck [80], .publishComplete (some 1)] .took,
   .schedule, .flushStarts, .flushTurn .took]

def parkedPump : EffectPump := parkedSteps.foldl EffectPump.after {}

theorem parked_reached : Reaches parkedSteps parkedPump := by
  have connected : Reaches [.connect] _ := .step .start .connect rfl
  have waiting := Reaches.step connected (.collectFromEngine [.sendAck [64]] .busy) trivial
  have behind := Reaches.step waiting (.collectFromEngine
    [.continueInboundReplay, .sendAck [80], .publishComplete (some 1)] .took) trivial
  have scheduled := Reaches.step behind .schedule trivial
  have flushing := Reaches.step scheduled .flushStarts trivial
  exact Reaches.step flushing (.flushTurn .took) trivial

theorem effects_in_order_parked :
    parkedPump.handed.map EngineEffect.value = [.sendAck [64]] ∧
    parkedPump.pending.map EngineEffect.value = [.sendAck [80]] ∧
    (parkedPump.handed ++ parkedPump.pending.filter EngineEffect.isSend).Sublist
      (parkedPump.emitted.filter EngineEffect.isSend) ∧
    parkedPump.settled = parkedPump.emitted.filter EngineEffect.isTerminal ∧
    parkedPump.enqueued - parkedPump.applied = 1 := by
  obtain ⟨_, _, line, _, _, settled, _, _, _, counted, _⟩ := effects_in_order parked_reached
  exact ⟨by decide, by decide, line, settled, counted.trans (by decide)⟩

/-- An acknowledgement the writer raises on is emitted and neither handed over nor pending nor
dropped. -/
theorem send_lost_by_failure :
    ∃ steps pump, Reaches steps pump ∧ ∃ effect ∈ pump.emitted, effect.isSend = true ∧
      ¬ (effect ∈ pump.handed ∨ effect ∈ pump.pending ∨ effect ∈ pump.stale ∨
        effect ∈ pump.discarded) := by
  have connected : Reaches [.connect] _ := .step .start .connect rfl
  have raised := Reaches.step connected (.collectFromEngine [.sendAck []] .raises) trivial
  exact ⟨_, _, raised, ⟨0, 0, 1, .sendAck []⟩, by decide, rfl, by decide⟩

end EffectPump

end Mqttium.Effects
