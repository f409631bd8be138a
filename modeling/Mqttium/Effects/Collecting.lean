import Mqttium.Effects.Books

/-! What becomes of a batch of effects when the pump collects it. -/

namespace Mqttium.Effects

open Library Protocol

namespace EffectPump

variable {pump : EffectPump} {batch : List Effect} {effect : EngineEffect}

theorem serials_stamp (pump : EffectPump) (batch : List Effect) :
    (pump.stamp batch).map EngineEffect.serial =
      (List.range batch.length).map (pump.emitted.length + ·) := by
  apply List.ext_getElem
  · simp [stamp]
  · intro index _ _
    simp [stamp]

@[simp] theorem length_stamp (pump : EffectPump) (batch : List Effect) :
    (pump.stamp batch).length = batch.length := by
  simp [stamp]

theorem values_stamp (pump : EffectPump) (batch : List Effect) :
    (pump.stamp batch).map EngineEffect.value = batch := by
  apply List.ext_getElem
  · simp
  · intro index _ _
    simp [stamp]

theorem of_mem_stamp (member : effect ∈ pump.stamp batch) :
    effect.batch = pump.batches ∧ effect.connection = pump.connection := by
  obtain ⟨index, _, rfl⟩ := List.mem_mapIdx.mp member
  exact ⟨rfl, rfl⟩

/-- A batch is numbered. -/
def receive (pump : EffectPump) (batch : List Effect) : EffectPump :=
  { pump with
    batches := pump.batches + 1
    emitted := pump.emitted ++ pump.stamp batch }

namespace Sound

theorem stamped_append (sound : pump.Sound) (batch : List Effect) :
    (pump.emitted ++ pump.stamp batch).map EngineEffect.serial =
      List.range (pump.emitted ++ pump.stamp batch).length := by
  rw [List.map_append, sound.stamped, serials_stamp, List.length_append, length_stamp,
    List.range_add]

theorem batched_append (sound : pump.Sound) (batch : List Effect) :
    ∀ effect ∈ pump.emitted ++ pump.stamp batch,
      effect.batch < pump.batches + 1 ∧ effect.connection ≤ pump.connection := by
  intro effect member
  rcases List.mem_append.mp member with earlier | now
  · have bounds := sound.batched effect earlier
    exact ⟨Nat.lt_succ_of_lt bounds.1, bounds.2⟩
  · obtain ⟨same, connection⟩ := of_mem_stamp now
    exact ⟨by omega, connection.le⟩

/-- The effects are queued behind those pending. -/
theorem known_append (sound : pump.Sound) {queued : List EngineEffect}
    (queues : ∀ effect ∈ queued, effect ∈ pump.stamp batch ∧ effect.isTerminal = false) :
    ∀ effect ∈ pump.pending ++ queued,
      effect ∈ pump.emitted ++ pump.stamp batch ∧ effect.isTerminal = false := by
  intro effect member
  rcases List.mem_append.mp member with earlier | now
  · have known := sound.known effect earlier
    exact ⟨List.mem_append_left _ known.1, known.2⟩
  · have queue := queues effect now
    exact ⟨List.mem_append_right _ queue.1, queue.2⟩

/-- Sends are handed over at once only where none are pending, so that order is kept. -/
theorem ordered_append (sound : pump.Sound) {taken queued : List EngineEffect}
    (sends : (taken ++ queued.filter EngineEffect.isSend).Sublist (pump.stamp batch))
    (first : taken ≠ [] → pump.pending = []) :
    (pump.handed ++ taken ++ (pump.pending ++ queued).filter EngineEffect.isSend).Sublist
      (pump.emitted ++ pump.stamp batch) := by
  have joined := sound.ordered.append sends
  rw [List.filter_append]
  by_cases none : taken = []
  · subst none
    simpa [List.append_assoc] using joined
  · rw [first none] at joined ⊢
    simpa [List.append_assoc] using joined

theorem accounted_append (sound : pump.Sound) {taken queued stale failed : List EngineEffect}
    (accounts : ∀ effect ∈ pump.stamp batch, effect.isSend = true →
      effect ∈ taken ∨ effect ∈ queued ∨ effect ∈ stale ∨ effect ∈ failed) :
    ∀ effect ∈ pump.emitted ++ pump.stamp batch, effect.isSend = true →
      effect ∈ pump.handed ++ taken ∨ effect ∈ pump.pending ++ queued ∨
        effect ∈ pump.stale ++ stale ∨ effect ∈ pump.failed ++ failed ∨ effect ∈ pump.discarded := by
  intro effect member send
  rcases List.mem_append.mp member with earlier | now
  · rcases sound.accounted effect earlier send with held | held | held | held | held
    · exact Or.inl (List.mem_append_left _ held)
    · exact Or.inr (Or.inl (List.mem_append_left _ held))
    · exact Or.inr (Or.inr (Or.inl (List.mem_append_left _ held)))
    · exact Or.inr (Or.inr (Or.inr (Or.inl (List.mem_append_left _ held))))
    · exact Or.inr (Or.inr (Or.inr (Or.inr held)))
  · rcases accounts effect now send with held | held | held | held
    · exact Or.inl (List.mem_append_right _ held)
    · exact Or.inr (Or.inl (List.mem_append_right _ held))
    · exact Or.inr (Or.inr (Or.inl (List.mem_append_right _ held)))
    · exact Or.inr (Or.inr (Or.inr (Or.inl (List.mem_append_right _ held))))

/-- No lot that is in the lane waits for an effect of a later batch, and the lots of this
batch wait for all that is queued. -/
theorem covered_append (sound : pump.Sound) {queued : List EngineEffect} {lots : List Lot}
    (queues : ∀ effect ∈ queued, effect ∈ pump.stamp batch ∧ effect.isTerminal = false)
    (targets : ∀ lot ∈ lots, lot.target = pump.enqueued + queued.length) :
    ∀ lot ∈ pump.lane ++ lots, ∀ delivery ∈ lot.effects, ∀ (index : Nat) (effect : EngineEffect),
      (pump.pending ++ queued)[index]? = some effect → effect.isSend = true →
        effect.batch = delivery.batch → pump.applied + index < lot.target := by
  intro lot member delivery has index effect found send same
  have counted := sound.counted
  have inside := (List.getElem?_eq_some_iff.mp found).1
  rw [List.length_append] at inside
  rcases List.mem_append.mp member with earlier | now
  · by_cases old : index < pump.pending.length
    · rw [List.getElem?_append_left old] at found
      exact sound.covered lot earlier delivery has index effect found send same
    · rw [List.getElem?_append_right (by omega)] at found
      have queue := queues effect (List.mem_of_getElem? found)
      have known : delivery ∈ pump.emitted :=
        (List.mem_filter.mp (sound.laned.subset (List.mem_flatMap.mpr ⟨lot, earlier, has⟩))).1
      have bound := (sound.batched delivery known).1
      have fresh := (of_mem_stamp queue.1).1
      omega
  · rw [targets lot now]
    omega

/-- A send that is being applied stays the head of the deque. -/
theorem sending_append (sound : pump.Sound) (queued : List EngineEffect) {epoch : Nat}
    (kept : pump.pending ≠ [] → epoch = pump.pendingEpoch) (effect : EngineEffect)
    (send : effect.isSend = true) (found : pump.flusher = .applying effect pump.connectionEpoch) :
    (pump.pending ++ queued).head? = some effect ∧ epoch = pump.connectionEpoch := by
  obtain ⟨head, same⟩ := sound.sending effect send found
  have some : pump.pending ≠ [] := by
    rintro empty
    simp [empty] at head
  refine ⟨?_, (kept some).trans same⟩
  rw [List.head?_append_of_ne_nil _ some]
  exact head

/-- A batch is collected: of its sends some were handed over, if none were pending, and
some are queued; its deliveries are in the lane behind what is queued; its publications
are settled. -/
theorem collected (sound : pump.Sound) (batch : List Effect)
    (taken queued stale failed : List EngineEffect) (lots : List Lot) (epoch : Nat)
    (sends : (taken ++ queued.filter EngineEffect.isSend).Sublist (pump.stamp batch))
    (first : taken ≠ [] → pump.pending = []) (taking : ∀ effect ∈ taken, effect.isSend = true)
    (queues : ∀ effect ∈ queued, effect ∈ pump.stamp batch ∧ effect.isTerminal = false)
    (accounts : ∀ effect ∈ pump.stamp batch, effect.isSend = true →
      effect ∈ taken ∨ effect ∈ queued ∨ effect ∈ stale ∨ effect ∈ failed)
    (laning : lots.flatMap Lot.effects = (pump.stamp batch).filter EngineEffect.isDelivery)
    (targets : ∀ lot ∈ lots, lot.target = pump.enqueued + queued.length)
    (fresh : pump.pending = [] → queued ≠ [] → epoch = pump.connectionEpoch)
    (kept : pump.pending ≠ [] → epoch = pump.pendingEpoch) :
    { pump with
      batches := pump.batches + 1
      emitted := pump.emitted ++ pump.stamp batch
      pending := pump.pending ++ queued
      pendingEpoch := epoch
      enqueued := pump.enqueued + queued.length
      handed := pump.handed ++ taken
      settled := pump.settled ++ (pump.stamp batch).filter EngineEffect.isTerminal
      lane := pump.lane ++ lots
      stale := pump.stale ++ stale
      failed := pump.failed ++ failed }.Sound where
  counted := by
    have counted := sound.counted
    simp only [List.length_append]
    omega
  stamped := sound.stamped_append batch
  batched := sound.batched_append batch
  known := sound.known_append queues
  ordered := sound.ordered_append sends first
  sends := by
    intro effect member
    rcases List.mem_append.mp member with earlier | now
    · exact sound.sends effect earlier
    · exact taking effect now
  accounted := sound.accounted_append accounts
  past := sound.past
  settled := by rw [sound.settled, List.filter_append]
  laned := by
    unfold delivered
    rw [List.flatMap_append, laning, List.filter_append]
    exact sound.laned.append (.refl _)
  delivery := by
    intro effect member delivery
    unfold delivered
    rw [List.flatMap_append, laning]
    rcases List.mem_append.mp member with earlier | now
    · exact (sound.delivery effect earlier delivery).imp (List.mem_append_left _) id
    · exact Or.inl (List.mem_append_right _ (List.mem_filter.mpr ⟨now, delivery⟩))
  covered := sound.covered_append queues targets
  live := by
    intro live some
    by_cases empty : pump.pending = []
    · refine fresh empty ?_
      rintro rfl
      simp [empty] at some
    · exact (kept empty).trans (sound.live live empty)
  failing := sound.failing
  closing := sound.closing
  applying := sound.applying
  sending := sound.sending_append queued kept

/-- A batch collected while a failed flush closes the transport: its publications are
settled and the rest of it is dropped. -/
theorem refused (sound : pump.Sound) (failing : pump.failingClose = true) (batch : List Effect) :
    (((pump.receive batch).enqueue (pump.stamp batch)
      pump.connectionEpoch).discardConnectionEffects true).Sound := by
  have plain : pump.pending.filter EngineEffect.isTerminal = [] := by
    rw [List.filter_eq_nil_iff]
    intro effect member
    simp [(sound.known effect member).2]
  have ended : pump.ended = true := sound.closing (sound.failing failing)
  have dropped (effect : EngineEffect) (known : effect ∈ pump.pending ++ pump.stamp batch)
      (passing : effect.isTerminal = false) : effect ∈ pump.discarded ++
        (pump.pending ++ pump.stamp batch).filter fun effect => !effect.isTerminal := by
    exact List.mem_append_right _ (List.mem_filter.mpr ⟨known, by simp [passing]⟩)
  have everything : ∀ effect ∈ pump.emitted ++ pump.stamp batch,
      effect.connection ≤ pump.connection := fun effect member =>
    (sound.batched_append batch effect member).2
  constructor
  case counted =>
    have counted := sound.counted
    simp only [receive, enqueue, discardConnectionEffects, EffectPump.wakeDrains, if_true,
      List.length_nil, List.length_append, length_stamp]
    omega
  case stamped => exact sound.stamped_append batch
  case batched => exact sound.batched_append batch
  case known =>
    intro effect member
    cases member
  case ordered =>
    have held : pump.handed.Sublist pump.emitted :=
      (List.sublist_append_left _ _).trans sound.ordered
    have wider := held.trans (List.sublist_append_left pump.emitted (pump.stamp batch))
    simpa [receive, enqueue, discardConnectionEffects, EffectPump.wakeDrains] using wider
  case sends => exact sound.sends
  case accounted =>
    intro effect member send
    have passing := EngineEffect.isTerminal_of_isSend send
    rcases List.mem_append.mp member with earlier | now
    · rcases sound.accounted effect earlier send with held | held | held | held | held
      · exact Or.inl held
      · exact Or.inr (Or.inr (Or.inr (Or.inr
          (dropped effect (List.mem_append_left _ held) passing))))
      · exact Or.inr (Or.inr (Or.inl held))
      · exact Or.inr (Or.inr (Or.inr (Or.inl held)))
      · exact Or.inr (Or.inr (Or.inr (Or.inr (List.mem_append_left _ held))))
    · exact Or.inr (Or.inr (Or.inr (Or.inr
        (dropped effect (List.mem_append_right _ now) passing))))
  case past =>
    intro effect member
    rcases List.mem_append.mp member with earlier | now
    · exact sound.past effect earlier
    · have known := (List.mem_filter.mp now).1
      have collected : effect ∈ pump.emitted ++ pump.stamp batch := by
        rcases List.mem_append.mp known with old | fresh
        · exact List.mem_append_left _ (sound.known effect old).1
        · exact List.mem_append_right _ fresh
      rcases Nat.lt_or_eq_of_le (everything effect collected) with earlier | same
      · exact Or.inl earlier
      · exact Or.inr ⟨same, ended⟩
  case settled =>
    simp [receive, enqueue, discardConnectionEffects, EffectPump.wakeDrains, sound.settled, plain]
  case laned =>
    refine sound.laned.trans ?_
    exact (List.sublist_append_left _ _).filter _
  case delivery =>
    intro effect member delivery
    rcases List.mem_append.mp member with earlier | now
    · exact (sound.delivery effect earlier delivery).imp id fun held => List.mem_append_left _ held
    · exact Or.inr (dropped effect (List.mem_append_right _ now)
        (EngineEffect.isTerminal_of_isDelivery delivery))
  case covered =>
    intro _ _ _ _ index effect found
    simp [receive, enqueue, discardConnectionEffects, EffectPump.wakeDrains] at found
  case live => exact fun live => absurd live (by
    change pump.ended ≠ false
    simp [ended])
  case failing => exact sound.failing
  case closing => exact sound.closing
  case applying => exact sound.applying
  case sending =>
    intro effect _ found
    have closing := sound.failing failing
    change pump.flusher = _ at found
    rw [closing] at found
    cases found

end Sound

/-! Applying an effect at once -/

/-- What an application under the current epoch does, if it succeeds: a send is handed over
or dropped by the writer, and a publication is settled. -/
structure Applied (pump : EffectPump) (effect : EngineEffect) (after : EffectPump) : Prop where
  split : ∃ taken stale, after =
      { pump with
        handed := pump.handed ++ taken
        stale := pump.stale ++ stale
        settled := pump.settled ++ [effect].filter EngineEffect.isTerminal } ∧
    (effect.isSend = true ∧ (taken = [effect] ∧ stale = [] ∨ taken = [] ∧ stale = [effect]) ∨
      effect.isSend = false ∧ taken = [] ∧ stale = [])
  plain : effect.isDelivery = false

/-- What an application under the current epoch leaves when it raises. -/
structure Raised (pump : EffectPump) (effect : EngineEffect) (after : EffectPump) : Prop where
  split : ∃ failed, after = { pump with failed := pump.failed ++ failed } ∧
    (effect.isSend = true → failed = [effect])
  passing : effect.isTerminal = false
  plain : effect.isDelivery = false

theorem Applied.send {after : EffectPump} {taken stale : List EngineEffect}
    (send : effect.isSend = true)
    (same : after = { pump with handed := pump.handed ++ taken, stale := pump.stale ++ stale })
    (either : taken = [effect] ∧ stale = [] ∨ taken = [] ∧ stale = [effect]) :
    pump.Applied effect after := by
  refine ⟨⟨taken, stale, ?_, Or.inl ⟨send, either⟩⟩, ?_⟩
  · simp [same, EngineEffect.isTerminal_of_isSend send]
  · by_contra delivery
    have := EngineEffect.isSend_of_isDelivery (by simpa using delivery)
    simp [send] at this

theorem Applied.other {after : EffectPump} (immediate : effect.isImmediate = true)
    (plain : effect.isDelivery = false)
    (same : after = { pump with
      settled := pump.settled ++ [effect].filter EngineEffect.isTerminal }) :
    pump.Applied effect after :=
  ⟨⟨[], [], by simpa using same,
    Or.inr ⟨EngineEffect.isSend_of_isImmediate immediate, rfl, rfl⟩⟩, plain⟩

theorem sat_applyEffectInline (pump : EffectPump) (answer : Answer) (effect : EngineEffect) :
    Sat (applyEffectInline answer effect pump.connectionEpoch) pump
      (fun done after => (done = true ∧ pump.Applied effect after) ∨
        done = false ∧ after = pump ∧ effect.isImmediate = false)
      fun _ after => pump.Raised effect after := by
  obtain ⟨serial, batch, connection, value⟩ := effect
  simp only [applyEffectInline, sat_bind, sat_get, ne_eq, not_true_eq_false, if_false]
  cases value with
  | send item =>
    cases answer with
    | took => exact Or.inl ⟨rfl, .send rfl (by simp) (Or.inl ⟨rfl, rfl⟩)⟩
    | busy => exact Or.inr ⟨rfl, rfl, rfl⟩
    | stale => exact Or.inl ⟨rfl, .send rfl (by simp) (Or.inr ⟨rfl, rfl⟩)⟩
    | raises => exact ⟨⟨_, rfl, fun _ => rfl⟩, rfl, rfl⟩
  | sendAck frame =>
    cases answer with
    | took => exact Or.inl ⟨rfl, .send rfl (by simp) (Or.inl ⟨rfl, rfl⟩)⟩
    | busy => exact Or.inr ⟨rfl, rfl, rfl⟩
    | stale => exact Or.inl ⟨rfl, .send rfl (by simp) (Or.inr ⟨rfl, rfl⟩)⟩
    | raises => exact ⟨⟨_, rfl, fun _ => rfl⟩, rfl, rfl⟩
  | publishComplete mid => exact Or.inl ⟨rfl, .other rfl rfl rfl⟩
  | publishFailed mid reason => exact Or.inl ⟨rfl, .other rfl rfl rfl⟩
  | connack present code properties =>
    exact Or.inl ⟨rfl, .other rfl rfl (by simp [EngineEffect.isTerminal])⟩
  | suback mid codes properties =>
    exact Or.inl ⟨rfl, .other rfl rfl (by simp [EngineEffect.isTerminal])⟩
  | unsuback mid codes properties =>
    exact Or.inl ⟨rfl, .other rfl rfl (by simp [EngineEffect.isTerminal])⟩
  | pingresp => exact Or.inl ⟨rfl, .other rfl rfl (by simp [EngineEffect.isTerminal])⟩
  | auth code properties challenge =>
    exact Or.inl ⟨rfl, .other rfl rfl (by simp [EngineEffect.isTerminal])⟩
  | protocolError failure => exact ⟨⟨[], by simp, by rintro ⟨⟩⟩, rfl, rfl⟩
  | disconnected code properties fromBroker => exact Or.inr ⟨rfl, rfl, rfl⟩
  | message message mark token => exact Or.inr ⟨rfl, rfl, rfl⟩
  | decodedMessage message mark size token => exact Or.inr ⟨rfl, rfl, rfl⟩
  | continueInboundReplay => exact Or.inr ⟨rfl, rfl, rfl⟩

/-- An observation settles a publication and does nothing else to the books. -/
theorem sat_applyObservation (effect : EngineEffect) :
    Sat (applyObservation effect) pump
      (fun done after => done = effect.isImmediate ∧ after =
        { pump with settled := pump.settled ++ [effect].filter EngineEffect.isTerminal })
      fun _ _ => False := by
  obtain ⟨serial, batch, connection, value⟩ := effect
  simp only [applyObservation, sat_bind, sat_get]
  cases value <;>
    simp [EngineEffect.isImmediate, EngineEffect.isTerminal, applyEffectInline, List.filter_cons]

theorem sat_observe (observed : List EngineEffect) :
    Sat (forEach (fun effect => discard (applyObservation effect)) observed) pump
      (fun _ after => after =
        { pump with settled := pump.settled ++ observed.filter EngineEffect.isTerminal })
      fun _ _ => False := by
  induction observed generalizing pump with
  | nil => simp [forEach]
  | cons effect rest ih =>
    rw [forEach, sat_bind, sat_discard]
    apply (sat_applyObservation effect).mono _ fun _ _ impossible => impossible
    rintro _ _ ⟨_, rfl⟩
    apply ih.mono _ fun _ _ impossible => impossible
    rintro _ _ rfl
    simp [List.filter_cons]
    split <;> simp

/-! Collecting -/

theorem sound_collectOrdered (sound : pump.Sound) (batch : List Effect)
    (ordered deliveries : List EngineEffect)
    (sends : ordered.filter EngineEffect.isSend =
      (pump.stamp batch).filter EngineEffect.isSend)
    (queues : ∀ effect ∈ ordered, effect ∈ pump.stamp batch ∧ effect.isTerminal = false)
    (parted : deliveries = (pump.stamp batch).filter EngineEffect.isDelivery) :
    Sat (collectOrdered ordered deliveries pump.connectionEpoch)
      { pump.receive batch with
        settled := pump.settled ++ (pump.stamp batch).filter EngineEffect.isTerminal }
      (fun _ after => after.Sound) fun _ _ => False := by
  have collected (lots : List Lot)
      (laning : lots.flatMap Lot.effects = (pump.stamp batch).filter EngineEffect.isDelivery)
      (targets : ∀ lot ∈ lots, lot.target = pump.enqueued + ordered.length) :=
    sound.collected batch [] ordered [] [] lots
      (pump.enqueue ordered pump.connectionEpoch).pendingEpoch
      (by simp [sends]) (fun some => absurd rfl some) (by simp) queues
      (fun effect member send => by
        have kept : effect ∈ ordered.filter EngineEffect.isSend := by
          rw [sends]
          exact List.mem_filter.mpr ⟨member, send⟩
        exact Or.inr (Or.inl (List.mem_filter.mp kept).1))
      laning targets (fun empty _ => by simp [enqueue, empty]) (fun some => by simp [enqueue, some])
  rw [collectOrdered, sat_bind, sat_modify, sat_onlyIf]
  refine ⟨fun _ => ?_, fun none => ?_⟩
  · rw [sat_modify]
    have laned := collected [⟨pump.connectionEpoch, pump.enqueued + ordered.length, deliveries⟩]
      (by simp [parted]) (by simp)
    simp only [List.append_nil] at laned
    exact laned
  · have empty : deliveries = [] := by simpa using none
    have plain := collected [] (by simp [← parted, empty]) (by simp)
    simp only [List.append_nil] at plain
    exact plain

theorem sound_collectMany (sound : pump.Sound) (batch : List Effect) :
    Sat (collectMany (pump.stamp batch) pump.connectionEpoch) (pump.receive batch)
      (fun _ after => after.Sound) fun _ _ => False := by
  unfold collectMany
  cases parted : partitionEffects (pump.stamp batch) with
  | mk ordered parts =>
    obtain ⟨deliveries, observed⟩ := parts
    obtain ⟨sends, queues, laned, settles⟩ := partitionEffects_splits _ parted
    dsimp only
    rw [sat_bind]
    apply (sat_observe observed).mono _ fun _ _ impossible => impossible
    rintro _ _ rfl
    rw [settles, sat_onlyIf]
    refine ⟨fun _ => sound_collectOrdered sound batch ordered deliveries sends queues laned, fun none => ?_⟩
    obtain ⟨emptyOrdered, emptyDeliveries⟩ : ordered = [] ∧ deliveries = [] := by simpa using none
    subst emptyOrdered emptyDeliveries
    have noSend : (pump.stamp batch).filter EngineEffect.isSend = [] := sends.symm
    have collected := sound.collected batch [] [] [] [] [] pump.pendingEpoch (by simp)
      (fun some => absurd rfl some) (by simp) (by simp)
      (fun effect member send => by
        have kept := List.mem_filter.mpr ⟨member, send⟩
        simp [noSend] at kept)
      (by simpa using laned) (by simp) (fun _ some => absurd rfl some) (fun _ => rfl)
    simpa [receive] using collected

/-- A single effect is done with, or it is left for the deque. -/
theorem sound_collectSingle (sound : pump.Sound) (single : pump.stamp batch = [effect])
    (answer : Answer) :
    Sat (collectSingle answer effect pump.connectionEpoch) (pump.receive batch)
      (fun done after => (done = true → after.Sound) ∧
        (done = false → after = pump.receive batch ∧ effect.isTerminal = false ∧
          effect.isDelivery = false))
      fun _ after => after.Sound := by
  have collected (taken stale failed : List EngineEffect) (lots : List Lot)
      (taking : taken = [effect] ∧ pump.pending = [] ∧ effect.isSend = true ∨ taken = [])
      (accounts : effect.isSend = true →
        effect ∈ taken ∨ effect ∈ ([] : List EngineEffect) ∨ effect ∈ stale ∨ effect ∈ failed)
      (laning : lots.flatMap Lot.effects = [effect].filter EngineEffect.isDelivery)
      (targets : ∀ lot ∈ lots, lot.target = pump.enqueued) :=
    sound.collected batch taken [] stale failed lots pump.pendingEpoch
      (by
        rw [single]
        rcases taking with ⟨rfl, _⟩ | rfl
        · simp
        · simp)
      (fun some => by
        rcases taking with taking | none
        · exact taking.2.1
        · exact absurd none some)
      (fun other member => by
        rcases taking with ⟨rfl, _, send⟩ | rfl
        · obtain rfl := List.mem_singleton.mp member
          exact send
        · cases member)
      (by simp)
      (fun other member send => by
        rw [single] at member
        obtain rfl := List.mem_singleton.mp member
        exact accounts send)
      (by rw [single]; exact laning) (by simpa using targets)
      (fun _ some => absurd rfl some) (fun _ => rfl)
  unfold collectSingle
  rw [sat_ite]
  refine ⟨fun delivery => ?_, fun delivery => ?_⟩
  · rw [sat_bind, sat_modify, sat_pure]
    refine ⟨fun _ => ?_, fun undone => by cases undone⟩
    have laned := collected [] [] [] [⟨pump.connectionEpoch, pump.enqueued, [effect]⟩] (Or.inr rfl)
      (fun send => by simp [EngineEffect.isSend_of_isDelivery delivery] at send)
      (by simp [delivery]) (by simp)
    simpa [collectLane, receive, single, EngineEffect.isTerminal_of_isDelivery delivery] using laned
  · have plain : effect.isDelivery = false := by simpa using delivery
    -- Whether the deque was empty or not, an effect that is not done is still to be queued.
    have later : Sat (if effect.isImmediate || effect.isEarlyObservation then
          applyObservation effect else pure false) (pump.receive batch)
        (fun done after => (done = true → after.Sound) ∧
          (done = false → after = pump.receive batch ∧ effect.isTerminal = false ∧
            effect.isDelivery = false)) fun _ after => after.Sound := by
      rw [sat_ite]
      refine ⟨fun _ => ?_, fun neither => ⟨(by simp), fun _ => ⟨rfl, ?_, plain⟩⟩⟩
      · apply (sat_applyObservation effect).mono _ fun _ _ impossible => impossible.elim
        rintro done after ⟨rfl, rfl⟩
        refine ⟨fun immediate => ?_, fun passing => ?_⟩
        · have settled := collected [] [] [] [] (Or.inr rfl)
            (fun send => by simp [EngineEffect.isSend_of_isImmediate immediate] at send)
            (by simp [plain]) (by simp)
          simpa [receive, single] using settled
        · have passed : effect.isTerminal = false := by
            by_contra terminal
            have := EngineEffect.isImmediate_of_isTerminal (by simpa using terminal)
            simp [passing] at this
          exact ⟨by simp [passed], passed, plain⟩
      · by_contra terminal
        have := EngineEffect.isImmediate_of_isTerminal (by simpa using terminal)
        simp [this] at neither
    rw [sat_bind, sat_get]
    dsimp only
    rw [sat_ite]
    refine ⟨fun empty => ?_, fun _ => by simpa using later⟩
    rw [sat_bind]
    apply (sat_applyEffectInline (pump.receive batch) answer effect).mono
    · intro done after outcome
      rcases outcome with ⟨rfl, applied⟩ | ⟨rfl, rfl, _⟩
      · obtain ⟨taken, stale, rfl, either⟩ := applied.split
        simp only [if_true, sat_pure]
        refine ⟨fun _ => ?_, (by simp)⟩
        have settled := collected taken stale [] []
          (by
            rcases either with ⟨send, ⟨rfl, rfl⟩ | ⟨rfl, rfl⟩⟩ | ⟨_, rfl, rfl⟩
            · exact Or.inl ⟨rfl, empty, send⟩
            · exact Or.inr rfl
            · exact Or.inr rfl)
          (fun send => by
            rcases either with ⟨_, ⟨rfl, rfl⟩ | ⟨rfl, rfl⟩⟩ | ⟨other, _⟩
            · simp
            · simp
            · simp [send] at other)
          (by simp [plain]) (by simp)
        simpa [receive, single] using settled
      · simpa using later
    · intro _ after raised
      obtain ⟨failed, rfl, accounts⟩ := raised.split
      have lost := collected [] [] failed [] (Or.inr rfl)
        (fun send => Or.inr (Or.inr (Or.inr (by simp [accounts send])))) (by simp [plain]) (by simp)
      simpa [receive, single, raised.passing] using lost

theorem sound_collectBatch (sound : pump.Sound) (batch : List Effect) (answer : Answer) :
    Sat (collectBatch (pump.stamp batch) pump.connectionEpoch answer) (pump.receive batch)
      (fun _ after => after.Sound) fun _ after => after.Sound := by
  unfold collectBatch
  rw [sat_bind, sat_get, sat_ite]
  refine ⟨fun failing => sound.refused failing batch, fun _ => ?_⟩
  split
  · rename_i effect single
    rw [sat_bind]
    apply (sound_collectSingle sound single answer).mono _ fun _ _ failed => failed
    intro done after outcome
    rw [sat_onlyIf]
    refine ⟨fun undone => ?_, fun finished => outcome.1 (by simpa using finished)⟩
    obtain ⟨rfl, passing, plain⟩ := outcome.2 undone
    have queued := sound_collectOrdered sound batch [effect] [] (by rw [single])
      (by
        intro other member
        obtain rfl := List.mem_singleton.mp member
        exact ⟨by simp [single], passing⟩)
      (by simp [single, plain])
    rw [single] at queued
    simpa [receive, passing, single] using queued.mono (fun _ _ kept => kept)
      fun _ _ impossible => impossible.elim
  · exact (sound_collectMany sound batch).mono (fun _ _ kept => kept)
      fun _ _ impossible => impossible.elim

theorem sound_collectFromEngine (sound : pump.Sound) (batch : List Effect) (answer : Answer) :
    Sat (collectFromEngine batch answer) pump (fun _ after => after.Sound)
      fun _ after => after.Sound := by
  rw [collectFromEngine, sat_onlyIf]
  refine ⟨fun _ => ?_, fun _ => sound⟩
  rw [sat_bind, sat_get]
  dsimp only
  rw [sat_bind, sat_modify, sat_bind, sat_onlyIf]
  -- What of an earlier connection is pending goes first; the batch is numbered all the same.
  refine ⟨fun passed => ?_, fun _ => sound_collectBatch sound batch answer⟩
  rw [sat_modify]
  exact sound_collectBatch (sound.discardPassed passed.2) batch answer

end EffectPump

end Mqttium.Effects
