import Mathlib.Data.List.Nodup
import Mathlib.Data.List.Sublists
import Mqttium.Effects.Pump

/-! What the pump owes to every effect it collected, and the moves that keep it. -/

namespace Mqttium.Effects

open Library Protocol

namespace EngineEffect

variable {effect : EngineEffect}

theorem isTerminal_of_isSend (send : effect.isSend = true) : effect.isTerminal = false := by
  unfold isSend at send
  unfold isTerminal
  split at send <;> simp_all

theorem isTerminal_of_isDelivery (delivery : effect.isDelivery = true) :
    effect.isTerminal = false := by
  unfold isDelivery at delivery
  unfold isTerminal
  split at delivery <;> simp_all

theorem isSend_of_isDelivery (delivery : effect.isDelivery = true) : effect.isSend = false := by
  unfold isDelivery at delivery
  unfold isSend
  split at delivery <;> simp_all

theorem isImmediate_of_isTerminal (terminal : effect.isTerminal = true) :
    effect.isImmediate = true := by
  unfold isTerminal at terminal
  unfold isImmediate
  split at terminal <;> simp_all

theorem isSend_of_isImmediate (immediate : effect.isImmediate = true) : effect.isSend = false := by
  unfold isImmediate at immediate
  unfold isSend
  split at immediate <;> simp_all

end EngineEffect

/-- What a partition has of the effects it went through. -/
structure Partition.Splits (parts : Partition) (effects : List EngineEffect) : Prop where
  sends : parts.sends = effects.filter EngineEffect.isSend
  others : ∀ effect ∈ parts.others,
    effect ∈ effects ∧ effect.isSend = false ∧ effect.isTerminal = false
  deliveries : parts.deliveries = effects.filter EngineEffect.isDelivery
  observed : parts.observed.filter EngineEffect.isTerminal =
    effects.filter EngineEffect.isTerminal

theorem Partition.Splits.add {parts : Partition} {effects : List EngineEffect}
    (splits : parts.Splits effects) (effect : EngineEffect) :
    (parts.add effect).Splits (effects ++ [effect]) := by
  obtain ⟨sends, others, deliveries, observed⟩ := splits
  have kept : ∀ other ∈ parts.others,
      other ∈ effects ++ [effect] ∧ other.isSend = false ∧ other.isTerminal = false := by
    intro other member
    obtain ⟨known, rest⟩ := others other member
    exact ⟨List.mem_append_left _ known, rest⟩
  unfold Partition.add
  split
  · rename_i send
    have plain : effect.isDelivery = false := by
      by_contra delivery
      have := EngineEffect.isSend_of_isDelivery (by simpa using delivery)
      simp [send] at this
    refine ⟨?_, kept, ?_, ?_⟩
    · simp [sends, send]
    · simp [deliveries, plain]
    · simp [observed, EngineEffect.isTerminal_of_isSend send]
  · rename_i send
    split
    · rename_i delivery
      refine ⟨?_, kept, ?_, ?_⟩
      · simp [sends, send]
      · simp [deliveries, delivery]
      · simp [observed, EngineEffect.isTerminal_of_isDelivery delivery]
    · rename_i delivery
      split
      · refine ⟨?_, kept, ?_, ?_⟩
        · simp [sends, send]
        · simp [deliveries, delivery]
        · simp [observed]
      · rename_i immediate
        have plain : effect.isTerminal = false := by
          by_contra terminal
          exact immediate (EngineEffect.isImmediate_of_isTerminal (by simpa using terminal))
        refine ⟨?_, ?_, ?_, ?_⟩
        · simp [sends, send]
        · intro other member
          rcases List.mem_append.mp member with earlier | last
          · exact kept other earlier
          · obtain rfl := List.mem_singleton.mp last
            exact ⟨by simp, by simpa using send, plain⟩
        · simp [deliveries, delivery]
        · dsimp only
          split
          · simp [observed, plain]
          · simp [observed, plain]

theorem splits_fold (effects : List EngineEffect) :
    (effects.foldl Partition.add {}).Splits effects := by
  have general : ∀ (later earlier : List EngineEffect) (parts : Partition),
      parts.Splits earlier → (later.foldl Partition.add parts).Splits (earlier ++ later) := by
    intro later
    induction later with
    | nil => simp
    | cons effect rest ih =>
      intro earlier parts splits
      have next := ih (earlier ++ [effect]) (parts.add effect) (splits.add effect)
      simpa using next
  exact general effects [] {} ⟨rfl, by simp, rfl, rfl⟩

/-- The ordered lane of a batch has its sends in order and settles no publication, its
deliveries are apart, and its terminal effects are observed. -/
theorem partitionEffects_splits (effects : List EngineEffect)
    {ordered deliveries observed : List EngineEffect}
    (parted : partitionEffects effects = (ordered, deliveries, observed)) :
    ordered.filter EngineEffect.isSend = effects.filter EngineEffect.isSend ∧
      (∀ effect ∈ ordered, effect ∈ effects ∧ effect.isTerminal = false) ∧
        deliveries = effects.filter EngineEffect.isDelivery ∧
          observed.filter EngineEffect.isTerminal = effects.filter EngineEffect.isTerminal := by
  have splits := splits_fold effects
  unfold partitionEffects at parted
  dsimp only at parted
  split at parted
  · cases parted
    refine ⟨?_, ?_, splits.deliveries, splits.observed⟩
    · have none : (effects.foldl Partition.add {}).others.filter EngineEffect.isSend = [] := by
        rw [List.filter_eq_nil_iff]
        intro effect member
        simp [(splits.others effect member).2.1]
      rw [List.filter_append, none, List.append_nil, splits.sends, List.filter_filter]
      simp
    · intro effect member
      rcases List.mem_append.mp member with send | other
      · rw [splits.sends] at send
        obtain ⟨known, send⟩ := List.mem_filter.mp send
        exact ⟨known, EngineEffect.isTerminal_of_isSend send⟩
      · exact ⟨(splits.others effect other).1, (splits.others effect other).2.2⟩
  · rename_i untouched
    cases parted
    refine ⟨rfl, ?_, splits.deliveries, splits.observed⟩
    intro effect member
    refine ⟨member, ?_⟩
    have none := splits.observed
    simp only [Bool.not_eq_true, Bool.or_eq_false_iff, Bool.not_eq_false',
      List.isEmpty_iff] at untouched
    rw [untouched.2, List.filter_nil, eq_comm, List.filter_eq_nil_iff] at none
    simpa using none effect member

namespace EffectPump

variable {pump : EffectPump} {effect : EngineEffect} {rest : List EngineEffect}

/-- The connection an effect was collected on has ended. -/
def Over (pump : EffectPump) (effect : EngineEffect) : Prop :=
  effect.connection < pump.connection ∨
    effect.connection = pump.connection ∧ pump.ended = true

/-- Everything given to the delivery lane. -/
def delivered (pump : EffectPump) : List EngineEffect := pump.lane.flatMap Lot.effects

/-- The flush is applying a send the writer could still take. -/
def Sending (pump : EffectPump) : Prop :=
  ∃ effect, effect.isSend = true ∧ pump.flusher = .applying effect pump.connectionEpoch

structure Sound (pump : EffectPump) : Prop where
  counted : pump.enqueued = pump.applied + pump.pending.length
  stamped : pump.emitted.map EngineEffect.serial = List.range pump.emitted.length
  batched : ∀ effect ∈ pump.emitted,
    effect.batch < pump.batches ∧ effect.connection ≤ pump.connection
  known : ∀ effect ∈ pump.pending, effect ∈ pump.emitted ∧ effect.isTerminal = false
  /-- The sends handed over, and then those pending, in the order they were emitted. -/
  ordered : (pump.handed ++ pump.pending.filter EngineEffect.isSend).Sublist pump.emitted
  sends : ∀ effect ∈ pump.handed, effect.isSend = true
  accounted : ∀ effect ∈ pump.emitted, effect.isSend = true →
    effect ∈ pump.handed ∨ effect ∈ pump.pending ∨ effect ∈ pump.stale ∨
      effect ∈ pump.failed ∨ effect ∈ pump.discarded
  past : ∀ effect ∈ pump.discarded, pump.Over effect
  settled : pump.settled = pump.emitted.filter EngineEffect.isTerminal
  laned : pump.delivered.Sublist (pump.emitted.filter EngineEffect.isDelivery)
  delivery : ∀ effect ∈ pump.emitted, effect.isDelivery = true →
    effect ∈ pump.delivered ∨ effect ∈ pump.discarded
  /-- What a lot waits for is past only when every send of its batch is. -/
  covered : ∀ lot ∈ pump.lane, ∀ delivery ∈ lot.effects, ∀ (index : Nat) (effect : EngineEffect),
    pump.pending[index]? = some effect → effect.isSend = true →
      effect.batch = delivery.batch → pump.applied + index < lot.target
  live : pump.ended = false → pump.pending ≠ [] → pump.pendingEpoch = pump.connectionEpoch
  failing : pump.failingClose = true → pump.flusher = .closing
  closing : pump.flusher = .closing → pump.ended = true
  applying : ∀ effect epoch, pump.flusher = .applying effect epoch →
    epoch ≤ pump.connectionEpoch ∧ effect.isTerminal = false
  /-- A send the writer could still take is the head of the deque. -/
  sending : ∀ effect, effect.isSend = true →
    pump.flusher = .applying effect pump.connectionEpoch →
      pump.pending.head? = some effect ∧ pump.pendingEpoch = pump.connectionEpoch

namespace Sound

theorem start : ({} : EffectPump).Sound where
  counted := rfl
  stamped := rfl
  batched := by simp
  known := by simp
  ordered := .slnil
  sends := by simp
  accounted := by simp
  past := by simp
  settled := rfl
  laned := .slnil
  delivery := by simp
  covered := by simp
  live := fun _ some => absurd rfl some
  failing := by simp
  closing := by simp
  applying := by simp
  sending := by simp

/-- A pump that differs in where its flush is, in what that flush holds, and in what only
the drains look at. -/
theorem staged (sound : pump.Sound) (flusher : Flusher) (requested inline : Bool)
    (drains : List Drain) (waiters : List Nat)
    (failing : pump.failingClose = true → flusher = .closing)
    (closing : flusher = .closing → pump.ended = true)
    (applying : ∀ effect epoch, flusher = .applying effect epoch →
      epoch ≤ pump.connectionEpoch ∧ effect.isTerminal = false)
    (sending : ∀ effect, effect.isSend = true →
      flusher = .applying effect pump.connectionEpoch →
        pump.pending.head? = some effect ∧ pump.pendingEpoch = pump.connectionEpoch) :
    { pump with
      flusher
      flushRequested := requested
      drainingInline := inline
      drains
      errorWaiters := waiters }.Sound :=
  { sound with failing, closing, applying, sending }

/-- What only the drains look at. -/
theorem beside (sound : pump.Sound) (requested inline : Bool) (drains : List Drain)
    (waiters : List Nat) :
    { pump with
      flushRequested := requested
      drainingInline := inline
      drains
      errorWaiters := waiters }.Sound :=
  sound.staged pump.flusher requested inline drains waiters sound.failing sound.closing
    sound.applying sound.sending

theorem wakeDrains (sound : pump.Sound) : pump.wakeDrains.Sound :=
  sound.beside _ _ _ _

theorem schedule (sound : pump.Sound) : pump.schedule.Sound := by
  unfold EffectPump.schedule
  by_cases idle : pump.flusher = .idle
  · have live : pump.failingClose ≠ true := by
      intro failing
      have closing := sound.failing failing
      rw [idle] at closing
      cases closing
    have created := sound.staged .created true pump.drainingInline pump.drains pump.errorWaiters
      (fun failing => absurd failing live) (by simp) (by simp) (by simp)
    simpa [idle] using created
  · simpa [idle] using sound.beside true pump.drainingInline pump.drains pump.errorWaiters

/-- The head of the deque leaves it, accounted for where it is a send. -/
theorem pop (sound : pump.Sound) (head : pump.pending = effect :: rest)
    (handed stale failed : List EngineEffect)
    (hands : handed = pump.handed ∨ handed = pump.handed ++ [effect] ∧ effect.isSend = true)
    (staler : pump.stale ⊆ stale) (failer : pump.failed ⊆ failed)
    (gone : effect.isSend = true → effect ∈ handed ∨ effect ∈ stale ∨ effect ∈ failed)
    (flusher : Flusher) (failing : pump.failingClose = true → flusher = .closing)
    (closing : flusher = .closing → pump.ended = true)
    (still : ∀ effect epoch, flusher ≠ .applying effect epoch) :
    ({ pump with handed, stale, failed, flusher }.popLeft).Sound := by
  have grows : pump.handed ⊆ handed := by
    rcases hands with rfl | ⟨rfl, _⟩
    · exact fun _ member => member
    · exact List.subset_append_left _ _
  have line : (handed ++ rest.filter EngineEffect.isSend).Sublist
      (pump.handed ++ pump.pending.filter EngineEffect.isSend) := by
    rw [head]
    rcases hands with rfl | ⟨rfl, send⟩
    · refine List.Sublist.append (.refl _) ?_
      exact (List.sublist_cons_self effect rest).filter _
    · simp [send]
  have popped : { pump with handed, stale, failed, flusher }.popLeft =
      { pump with
        pending := rest
        applied := pump.applied + 1
        flusher
        drains := pump.drains.map Drain.wake
        handed
        stale
        failed } := by
    simp [popLeft, complete, EffectPump.wakeDrains, head]
  rw [popped]
  refine
    { sound with
      counted := ?_, known := ?_, ordered := ?_, sends := ?_, accounted := ?_, covered := ?_,
      live := ?_, failing := failing, closing := closing, applying := ?_, sending := ?_ }
  · have counted := sound.counted
    simp only [head, List.length_cons] at counted ⊢
    omega
  · intro other member
    refine sound.known other ?_
    rw [head]
    exact List.mem_cons_of_mem _ member
  · exact line.trans sound.ordered
  · intro other member
    rcases hands with rfl | ⟨rfl, send⟩
    · exact sound.sends other member
    · rcases List.mem_append.mp member with earlier | last
      · exact sound.sends other earlier
      · obtain rfl := List.mem_singleton.mp last
        exact send
  · intro other member send
    rcases sound.accounted other member send with known | known | known | known | known
    · exact Or.inl (grows known)
    · rw [head] at known
      rcases List.mem_cons.mp known with rfl | later
      · rcases gone send with taken | taken | taken
        · exact Or.inl taken
        · exact Or.inr (Or.inr (Or.inl taken))
        · exact Or.inr (Or.inr (Or.inr (Or.inl taken)))
      · exact Or.inr (Or.inl later)
    · exact Or.inr (Or.inr (Or.inl (staler known)))
    · exact Or.inr (Or.inr (Or.inr (Or.inl (failer known))))
    · exact Or.inr (Or.inr (Or.inr (Or.inr known)))
  · intro lot member delivery has index other found send same
    have later : pump.pending[index + 1]? = some other := by
      rw [head]
      exact found
    have bound := sound.covered lot member delivery has (index + 1) other later send same
    dsimp only
    omega
  · intro live some
    refine sound.live live ?_
    rw [head]
    simp
  · exact fun effect epoch found => absurd found (still effect epoch)
  · exact fun effect _ found => absurd found (still effect _)

/-- Every effect collected on a connection that has ended is over. -/
theorem over_of_ended (sound : pump.Sound) (ended : pump.ended = true)
    (known : effect ∈ pump.emitted) : pump.Over effect := by
  rcases Nat.lt_or_eq_of_le (sound.batched effect known).2 with earlier | same
  · exact Or.inl earlier
  · exact Or.inr ⟨same, ended⟩

/-- No publication is settled by a discard: none is pending. -/
theorem discard_eq (sound : pump.Sound) (settlePublish : Bool) :
    pump.discardConnectionEffects settlePublish =
      { pump with
        pending := []
        applied := pump.applied + pump.pending.length
        drains := pump.drains.map Drain.wake
        discarded := pump.discarded ++ pump.pending } := by
  have none : pump.pending.filter EngineEffect.isTerminal = [] := by
    rw [List.filter_eq_nil_iff]
    intro effect member
    simp [(sound.known effect member).2]
  have all : (pump.pending.filter fun effect => !effect.isTerminal) = pump.pending := by
    rw [List.filter_eq_self]
    intro effect member
    simp [(sound.known effect member).2]
  cases settlePublish <;> simp [discardConnectionEffects, EffectPump.wakeDrains, none, all]

theorem discard (sound : pump.Sound) (past : ∀ effect ∈ pump.pending, pump.Over effect)
    (still : ¬ pump.Sending) (settlePublish : Bool) :
    (pump.discardConnectionEffects settlePublish).Sound := by
  rw [sound.discard_eq]
  refine
    { sound with
      counted := ?_, known := by simp, ordered := ?_, accounted := ?_, past := ?_, delivery := ?_,
      covered := ?_, live := ?_, sending := ?_ }
  · have counted := sound.counted
    simp only [List.length_nil]
    omega
  · refine .trans ?_ sound.ordered
    simp
  · intro effect known send
    rcases sound.accounted effect known send with held | held | held | held | held
    · exact Or.inl held
    · exact Or.inr (Or.inr (Or.inr (Or.inr (List.mem_append_right _ held))))
    · exact Or.inr (Or.inr (Or.inl held))
    · exact Or.inr (Or.inr (Or.inr (Or.inl held)))
    · exact Or.inr (Or.inr (Or.inr (Or.inr (List.mem_append_left _ held))))
  · intro effect member
    rcases List.mem_append.mp member with earlier | now
    · exact sound.past effect earlier
    · exact past effect now
  · intro effect known delivery
    exact (sound.delivery effect known delivery).imp id fun held => List.mem_append_left _ held
  · simp
  · exact fun _ some => absurd rfl some
  · exact fun effect send found => absurd ⟨effect, send, found⟩ still

/-- What is pending under an epoch that has passed is dropped. -/
theorem discardPassed (sound : pump.Sound) (passed : pump.pendingEpoch ≠ pump.connectionEpoch) :
    (pump.discardConnectionEffects false).Sound := by
  refine sound.discard ?_ ?_ false
  · intro effect member
    refine sound.over_of_ended ?_ (sound.known effect member).1
    by_contra live
    refine passed (sound.live (by simpa using live) ?_)
    rintro empty
    simp [empty] at member
  · rintro ⟨effect, send, found⟩
    exact passed (sound.sending effect send found).2

/-- The connection ends: its epoch may have passed, and its flush may be failing. -/
theorem endConnection (sound : pump.Sound) {epoch : Nat} (later : pump.connectionEpoch ≤ epoch)
    (flusher : Flusher) (failing : Bool) (closes : failing = true → flusher = .closing)
    (applying : ∀ effect epoch, flusher = .applying effect epoch →
      pump.flusher = .applying effect epoch)
    (sending : ∀ effect, effect.isSend = true → flusher = .applying effect epoch →
      epoch = pump.connectionEpoch) :
    { pump with
      connectionEpoch := epoch
      ended := true
      failingClose := failing
      flusher }.Sound :=
  { sound with
    past := fun effect member =>
      (sound.past effect member).imp id fun same => ⟨same.1, rfl⟩
    live := by simp
    failing := closes
    closing := fun _ => rfl
    applying := fun effect passed found =>
      have before := sound.applying effect passed (applying effect passed found)
      ⟨before.1.trans later, before.2⟩
    sending := fun effect send found => by
      obtain rfl := sending effect send found
      exact sound.sending effect send (applying effect _ found) }

theorem retireConnectionEpoch (sound : pump.Sound) : pump.retireConnectionEpoch.Sound := by
  refine sound.endConnection (Nat.le_succ _) pump.flusher pump.failingClose sound.failing
    (fun _ _ found => found) fun effect send found => ?_
  have bound := (sound.applying effect _ found).1
  omega

theorem failConnection (sound : pump.Sound) : pump.failConnection.Sound := by
  have told (waiters : List Nat) (drains : List Drain) :
      ({ pump with
        errorWaiters := waiters
        drains
        ended := true
        failingClose := true
        flusher := .closing }.discardConnectionEffects true).Sound := by
    have ended := (sound.beside pump.flushRequested pump.drainingInline drains waiters).endConnection
      (Nat.le_refl _) .closing true (fun _ => rfl) (by simp) (by simp)
    refine ended.discard (fun effect member => ?_) ?_ true
    · exact ended.over_of_ended rfl (ended.known effect member).1
    · rintro ⟨effect, _, found⟩
      cases found
  unfold EffectPump.failConnection
  dsimp only
  split
  · exact told pump.errorWaiters pump.drains
  · exact told _ _

theorem closeEnds (sound : pump.Sound) (closing : pump.flusher = .closing) :
    pump.closeEnds.Sound := by
  have still : ¬ pump.Sending := by
    rintro ⟨effect, _, found⟩
    rw [closing] at found
    cases found
  have rested {pump : EffectPump} (sound : pump.Sound) :
      { pump with failingClose := false, flusher := .idle }.Sound :=
    { sound with failing := by simp, closing := by simp, applying := by simp, sending := by simp }
  unfold EffectPump.closeEnds
  dsimp only
  split
  · exact rested sound
  · refine rested (sound.discard (fun effect member => ?_) still true)
    exact sound.over_of_ended (sound.closing closing) (sound.known effect member).1

theorem connect (sound : pump.Sound) (idle : pump.flusher = .idle) : pump.connect.Sound := by
  have retired := sound.retireConnectionEpoch
  have dropped : (pump.retireConnectionEpoch.discardConnectionEffects false).Sound := by
    refine retired.discard (fun effect member => ?_) ?_ false
    · exact retired.over_of_ended rfl (retired.known effect member).1
    · rintro ⟨effect, _, found⟩
      change pump.flusher = _ at found
      rw [idle] at found
      cases found
  unfold EffectPump.connect
  rw [retired.discard_eq] at dropped ⊢
  refine
    { dropped with
      batched := ?_, past := ?_
      live := fun _ some => absurd rfl some
      closing := fun found => ?_ }
  · intro effect known
    have bounds := dropped.batched effect known
    exact ⟨bounds.1, Nat.le_succ_of_le bounds.2⟩
  · intro effect member
    refine Or.inl (Nat.lt_succ_of_le ?_)
    rcases dropped.past effect member with earlier | same
    · exact Nat.le_of_lt earlier
    · exact Nat.le_of_eq same.1
  · change pump.flusher = _ at found
    rw [idle] at found
    cases found

end Sound

end EffectPump

end Mqttium.Effects
