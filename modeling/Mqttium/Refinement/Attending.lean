import Mqttium.Connection.Unasked
import Mqttium.Ledger.Slots
import Mqttium.Refinement.Sealing
import Mqttium.Refinement.Undisturbed

/-! Between calls: the ledger is sound, its slots are accounted for, and a live exchange
goes without one only when the window is full or a seal speaks for it. -/

namespace Mqttium

open Codec Library Packets Persistence Protocol

structure Attending (watch : Watch) (engine : Engine) : Prop where
  ready : Ready watch engine
  start : engine.effects.length = watch.base
  strangers : ∀ mid, engine.store.out.get? mid = none → watch.who mid = none
  slotted : Ledger.Slotted (view watch engine)
  carried : Ledger.Carried (view watch engine)
  covered : Ledger.Covered (view watch engine)
  joined : engine.state = .connected → (view watch engine).accepted

/-- Some observer finds the engine so. -/
def Attended (engine : Engine) : Prop := ∃ watch, Attending watch engine

section

variable {watch later : Watch} {engine after : Engine}

theorem Event.of_sent (name : Option Nat) (packet : Sent) :
    Event.of name (.sent · packet) = .foreign ∨ ∃ seq, Event.of name (.sent · packet) = .sent seq packet := by
  cases name with
  | none => exact .inl rfl
  | some seq => exact .inr ⟨seq, rfl⟩

/-- What effects show: packets and reports. -/
theorem frameEvent_kinds {who : Nat → Option Nat} {header : Bytes} {event : Event}
    (shown : (match seen header with
      | some (.publish mid dup) => some (Event.of (who mid) fun seq => .sent seq (.publish dup))
      | some (.pubrel mid) => (who mid).map fun seq => .sent seq .pubrel
      | none => none) = some event) :
    event = .foreign ∨ (∃ seq packet, event = .sent seq packet) ∨ ∃ seq, event = .reported seq := by
  split at shown
  · cases shown
    rcases Event.of_sent (who _) (.publish _) with same | ⟨seq, same⟩
    · exact .inl same
    · exact .inr (.inl ⟨seq, _, same⟩)
  · obtain ⟨seq, _, rfl⟩ := Option.map_eq_some_iff.mp shown
    exact .inr (.inl ⟨seq, _, rfl⟩)
  · cases shown

theorem effectEvent_kinds {who : Nat → Option Nat} {effect : Effect} {event : Event}
    (shown : effectEvent who effect = some event) :
    event = .foreign ∨ (∃ seq packet, event = .sent seq packet) ∨ ∃ seq, event = .reported seq := by
  have reports {mid : Nat} (shown : some (Event.of (who mid) .reported) = some event) :
      event = .foreign ∨ (∃ seq packet, event = .sent seq packet) ∨ ∃ seq, event = .reported seq := by
    cases shown
    cases who mid with
    | none => exact .inl rfl
    | some seq => exact .inr (.inr ⟨seq, rfl⟩)
  cases effect with
  | send item => exact frameEvent_kinds shown
  | sendAck frame => exact frameEvent_kinds shown
  | publishComplete mid =>
    cases mid with
    | none => cases shown
    | some mid => exact reports shown
  | publishFailed mid reason => exact reports shown
  | _ => cases shown

/-- No effect shows an event that takes a slot away. -/
theorem effectEvent_holds {who : Nat → Option Nat} {effect : Effect} {event : Event}
    (shown : effectEvent who effect = some event) (ledger : Ledger) :
    ¬ ledger.loosening event ∧ ∀ seq, event ≠ .advanced seq := by
  rcases effectEvent_kinds shown with rfl | ⟨seq, packet, rfl⟩ | ⟨seq, rfl⟩
  · exact ⟨id, nofun⟩
  · exact ⟨id, nofun⟩
  · exact ⟨id, nofun⟩

/-- What a call adds to the log: the inputs it learnt of, then what its effects show. -/
theorem log_fresh (start : engine.effects.length = watch.base) {events fresh : List Event}
    (grown : (view (watch.learn events) after).log = (view watch engine).log ++ fresh) {event : Event}
    (member : event ∈ fresh) :
    event ∈ events ∨ ∃ effect, effectEvent watch.who effect = some event := by
  have before : (view watch engine).log = watch.past := by
    simp [view, Watch.log, ← start]
  rw [before] at grown
  simp only [view, Watch.log, Watch.learn, List.append_assoc] at grown
  rw [← List.append_cancel_left grown] at member
  rcases List.mem_append.mp member with learnt | shown
  · exact .inl learnt
  · obtain ⟨effect, _, shown⟩ := List.mem_filterMap.mp shown
    exact .inr ⟨effect, shown⟩

theorem Steps.log {before after : Ledger} (steps : Steps before after) : before.log <+: after.log := by
  induction steps with
  | refl => exact List.prefix_rfl
  | tail _ move ih => exact ih.trans move.grows

theorem Steps.slotted {before after : Ledger} (steps : Steps before after)
    (sound : Ledger.Sound before) (slotted : Ledger.Slotted before) : Ledger.Slotted after := by
  induction steps with
  | refl => exact slotted
  | tail steps move ih => exact ih.move (sound.steps steps).accounts move

/-- What every move keeps whose events are allowed, a run of moves keeps. -/
theorem Steps.keep {start after : Ledger} {property : Ledger → Prop} {allowed : Event → Prop}
    (steps : Steps start after) (sound : Ledger.Sound start) (holds : property start)
    (move : ∀ before next, Ledger.Sound before → property before → Ledger.Move before next →
      (∀ fresh, next.log = before.log ++ fresh → ∀ event ∈ fresh, allowed event) → property next)
    (calm : ∀ fresh, after.log = start.log ++ fresh → ∀ event ∈ fresh, allowed event) :
    property after := by
  induction steps with
  | refl => exact holds
  | @tail between last steps single ih =>
    obtain ⟨earlier, grown⟩ := Steps.log steps
    obtain ⟨more, further⟩ := single.grows
    have whole : last.log = start.log ++ (earlier ++ more) := by
      rw [← further, ← grown, List.append_assoc]
    refine move between last (sound.steps steps) (ih ?_) single ?_
    · intro fresh same event member
      obtain rfl := List.append_cancel_left (grown.trans same)
      exact calm _ whole event (List.mem_append_left _ member)
    · intro fresh same event member
      obtain rfl := List.append_cancel_left (further.trans same)
      exact calm _ whole event (List.mem_append_right _ member)

theorem Steps.since {start after : Ledger} (steps : Steps start after) (sound : Ledger.Sound start)
    (slotted : Ledger.Slotted start) (carried : Ledger.Carried start)
    (calm : ∀ fresh, after.log = start.log ++ fresh → ∀ event ∈ fresh, ¬ start.loosening event) :
    Ledger.Since start after :=
  Steps.keep steps sound (Ledger.Since.refl slotted carried)
    (fun _ _ sound since move calm => since.move sound.accounts move calm) calm

theorem Steps.unreleased {start after : Ledger} (steps : Steps start after)
    (sound : Ledger.Sound start) (unreleased : Ledger.Unreleased start)
    (calm : ∀ fresh, after.log = start.log ++ fresh → ∀ event ∈ fresh, ∀ seq, event ≠ .advanced seq) :
    Ledger.Unreleased after := by
  refine Steps.keep steps sound unreleased ?_ calm
  intro _ _ sound unreleased move calm
  exact unreleased.move sound.accounts move fun fresh same seq member =>
    calm fresh same _ member seq rfl

/-! From one call to the next -/

/-- The observer of the next call, who finds the effects of this one taken or not. -/
def Watch.renewed (watch : Watch) (after final : Engine) : Watch where
  base := final.effects.length
  past := watch.log after.effects
  who := fun mid => (final.store.out.get? mid).map OutRow.seq

section

variable {final : Engine}
  (same : final = { after with effects := final.effects, inbound := final.inbound })

include same in
theorem view_renewed : view (later.renewed after final) final = view later after := by
  have log : (later.renewed after final).log final.effects = later.log after.effects := by
    simp [Watch.renewed, Watch.log]
  simp only [view, log]
  rw [same]

include same in
theorem Ready.renewed (ready : Ready later after) : Ready (later.renewed after final) final := by
  have store : final.store = after.store := by rw [same]
  refine ⟨⟨⟨?_, ?_⟩, le_rfl, ?_⟩, ?_, view_renewed same ▸ ready.sound⟩
  · rw [store]
    exact ready.tracking.coherent.reliable
  · rw [store]
    exact ready.tracking.coherent.rows
  · intro mid row found
    simp [Watch.renewed, found]
  · have queued : final.outbound.queued = after.outbound.queued := by rw [same]
    rw [queued]
    unfold Aligned
    rw [store]
    exact ready.aligned

/-- Effects that are taken, and what the inbound direction does, change nothing of it. -/
theorem Attended.rebased (ready : Ready later after)
    (slotted : Ledger.Slotted (view later after)) (carried : Ledger.Carried (view later after))
    (covered : Ledger.Covered (view later after))
    (joined : after.state = .connected → (view later after).accepted)
    (same : final = { after with effects := final.effects, inbound := final.inbound }) :
    Attended final := by
  have shown := (view_renewed same : view (later.renewed after final) final = _)
  refine ⟨later.renewed after final, ⟨ready.renewed same, rfl, ?_, ?_, ?_, ?_, ?_⟩⟩
  · intro mid absent
    simp [Watch.renewed, absent]
  · exact shown ▸ slotted
  · exact shown ▸ carried
  · exact shown ▸ covered
  · have state : final.state = after.state := by rw [same]
    rw [state, shown]
    exact joined

end

theorem Attending.moved (attending : Attending watch engine) {events : List Event}
    (progress : Progress watch (watch.learn events) engine after)
    (calm : ∀ event ∈ events, ¬ (view watch engine).loosening event)
    (covered : Ledger.Slotted (view (watch.learn events) after) →
      Ledger.Carried (view (watch.learn events) after) →
      Ledger.Covered (view (watch.learn events) after))
    (state : after.state = .connected → (view (watch.learn events) after).accepted) :
    Attended after := by
  have sound := attending.ready.sound
  have since := Steps.since progress.steps sound attending.slotted attending.carried (by
    intro fresh grown event member
    rcases log_fresh attending.start grown member with learnt | ⟨effect, shown⟩
    · exact calm event learnt
    · exact (effectEvent_holds shown _).1)
  exact .rebased (attending.ready.progress progress) since.slotted since.carried
    (covered since.slotted since.carried) state rfl

theorem Attending.accepted (attending : Attending watch engine) {events : List Event}
    (progress : Progress watch (watch.learn events) engine after) (open_ : engine.state = .connected) :
    (view (watch.learn events) after).accepted := by
  obtain ⟨more, grown⟩ := Steps.log progress.steps
  refine ⟨?_, rfl⟩
  rw [← grown, List.any_append, (attending.joined open_).1]
  rfl

theorem Undisturbed.covered (undisturbed : Undisturbed engine after)
    (covered : Ledger.Covered (view watch engine)) : Ledger.Covered (view later after) := by
  simp only [Ledger.Covered, Ledger.crowded, Ledger.isSealed, view, undisturbed.rows,
    undisturbed.flow, undisturbed.sealed] at covered ⊢
  exact covered

/-- A step beside the publications. -/
theorem Attending.aside (attending : Attending watch engine) (aside : Aside watch engine after)
    (undisturbed : Undisturbed engine after) : Attended after := by
  have progress : Progress watch (watch.learn []) engine after := by
    rw [Watch.learn_nil]
    exact (aside attending.ready).progress
  exact attending.moved progress (by simp) (fun _ _ => undisturbed.covered attending.covered)
    fun connected => attending.accepted progress (undisturbed.state connected)

/-- A step that leaves no slot free for what waits. -/
theorem Attending.idle (attending : Attending watch engine) {events : List Event}
    (progress : Progress watch (watch.learn events) engine after) (idle : NoIdle after)
    (open_ : engine.state = .connected)
    (calm : ∀ event ∈ events, ¬ (view watch engine).loosening event) : Attended after := by
  have accepted := attending.accepted progress open_
  have valid := (attending.ready.progress progress).sound.accounts
  refine attending.moved progress calm (fun slotted carried => ?_) fun _ => accepted
  refine Ledger.Covered.of_idle slotted carried accepted valid (idle.imp ?_ id)
  intro empty
  simp [view, empty]

/-- What leaves an attended engine attended. -/
def Attends (before after : Engine) : Prop := Attended before → Attended after

instance : IsPreorder Engine Attends where
  refl _ := id
  trans _ _ _ first second := second ∘ first

theorem attends_of_attended {Value : Type} {program : EngineM Value}
    (keeps : ∀ engine, Attended engine → Sat program engine (fun _ => Attended) fun _ => Attended) :
    Within Attends program := by
  intro engine
  by_cases attended : Attended engine
  · exact (keeps engine attended).mono (fun _ _ done _ => done) fun _ _ done _ => done
  · exact Sat.of_forall (fun _ _ still => absurd still attended) fun _ _ still => absurd still attended

theorem attends_beside {Value : Type} {program : EngineM Value}
    (aside : ∀ watch, Within (Aside watch) program) (undisturbed : Within Undisturbed program) :
    Within Attends program := by
  refine attends_of_attended fun engine ⟨watch, attending⟩ => ?_
  apply ((aside watch engine).and (undisturbed engine)).mono
  · exact fun _ _ ⟨aside, undisturbed⟩ => attending.aside aside undisturbed
  · exact fun _ _ ⟨aside, undisturbed⟩ => attending.aside aside undisturbed

/-! Calls -/

theorem attends_takeEffects : Within Attends takeEffects := by
  have taken (engine : Engine) (inbound : InboundSession) :
      Attends engine { engine with effects := [], inbound := inbound } := by
    rintro ⟨watch, attending⟩
    exact .rebased attending.ready attending.slotted attending.carried attending.covered
      attending.joined rfl
  intro engine
  simp only [takeEffects, Inbound.releasePendingAcks, modifyInbound, sat_bind, sat_get, sat_modify,
    sat_onlyIf, sat_pure]
  exact ⟨fun _ => taken engine _, fun _ => taken engine engine.inbound⟩

/-! Sealing -/

/-- What seals do to the window: a slot is given back to no one but a seal. -/
structure Seals (before after : Engine) : Prop where
  rows : after.store.out = before.store.out
  limit : after.outbound.flow.limit = before.outbound.flow.limit
  kept : ∀ mid sent, before.outbound.sealed.get? mid = some sent →
    after.outbound.sealed.get? mid = some sent
  lost : ∀ mid ∈ before.outbound.flow.holders,
    mid ∈ after.outbound.flow.holders ∨ after.outbound.sealed.get? mid = some true
  state : after.state = before.state

instance : IsPreorder Engine Seals where
  refl _ := ⟨rfl, rfl, fun _ _ found => found, fun _ held => .inl held, rfl⟩
  trans _ _ _ first second := by
    refine ⟨second.rows.trans first.rows, second.limit.trans first.limit,
      fun mid sent found => second.kept mid sent (first.kept mid sent found), ?_,
      second.state.trans first.state⟩
    intro mid held
    rcases first.lost mid held with still | dead
    · exact second.lost mid still
    · exact .inr (second.kept mid true dead)

/-- The store is reliable, and nothing that was never sent owns a slot. -/
structure HeldSent (engine : Engine) : Prop where
  reliable : engine.store.Reliable
  sent : ∀ mid ∈ engine.outbound.flow.holders, ∀ row, engine.store.out.get? mid = some row →
    row.message.state ≠ .queued

theorem seals_sealOne (mid : Nat) : Within (Guarded HeldSent Seals) (Outbound.sealOne mid) := by
  refine within_guarded fun engine held => ?_
  have still : HeldSent engine ∧ Seals engine engine := ⟨held, Std.Refl.refl engine⟩
  simp only [Outbound.sealOne, Outbound.releaseReservation, Outbound.releaseSlot, sat_bind, sat_get,
    sat_ite, sat_pure, sat_storeRead held.reliable]
  refine ⟨fun _ => still, fun live => ?_⟩
  have live : engine.outbound.sealed.get? mid = none := by
    simpa [Dict.contains] using live
  cases found : engine.store.out.get? mid with
  | none =>
    rw [outMeta_none found]
    exact still
  | some row =>
    have kept (flag : Bool) : ∀ other sent, engine.outbound.sealed.get? other = some sent →
        (engine.outbound.sealed.insert mid flag).get? other = some sent := by
      intro other sent dead
      have different : other ≠ mid := by
        rintro rfl
        simp [live] at dead
      rw [Dict.get?_insert_of_ne _ different]
      exact dead
    simp only [outMeta_eq found, sat_bind, sat_modifyOutbound, sat_get, sat_raiseIf, sat_pure]
    refine ⟨fun _ => ⟨⟨held.reliable, held.sent⟩, ⟨rfl, rfl, kept _, fun _ held => .inl held, rfl⟩⟩,
      fun _ => ⟨fun _ => ⟨⟨held.reliable, held.sent⟩, ⟨rfl, rfl, kept _, fun _ held => .inl held, rfl⟩⟩,
      fun _ => ⟨⟨held.reliable, ?_⟩, ⟨rfl, rfl, kept _, ?_, rfl⟩⟩⟩⟩
    · exact fun other member => held.sent other (Finset.mem_of_mem_erase member)
    · intro other member
      by_cases same : other = mid
      · subst same
        right
        simp [held.sent other member row found]
      · exact .inl (Finset.mem_erase.mpr ⟨same, member⟩)

theorem seals_sealPublications (mids : List Nat) :
    Within (Guarded HeldSent Seals) (sealPublications mids) := by
  have each (newly : Finset Nat) : Within (Guarded HeldSent Seals) (Outbound.sealEach mids newly) := by
    induction mids generalizing newly with
    | nil => exact within_pure _
    | cons mid rest ih => exact within_bind (seals_sealOne mid) fun _ => ih _
  refine within_bind (each ∅) fun newly => within_bind within_get fun _ => within_onlyIf ?_
  exact within_modify fun engine held =>
    ⟨⟨held.reliable, held.sent⟩, ⟨rfl, rfl, fun _ _ found => found, fun _ held => .inl held, rfl⟩⟩

theorem Seals.covered (seals : Seals engine after) (covered : Ledger.Covered (view watch engine)) :
    Ledger.Covered (view later after) := by
  have crowded (crowded : (view watch engine).crowded) : (view later after).crowded := by
    rcases crowded with full | ⟨mid, dead⟩
    · by_cases all : engine.outbound.flow.holders ⊆ after.outbound.flow.holders
      · refine .inl (le_trans ?_ (Finset.card_le_card all))
        exact seals.limit.le.trans full
      · obtain ⟨mid, held, gone⟩ := Finset.not_subset.mp all
        exact .inr ⟨mid, (seals.lost mid held).resolve_left gone⟩
    · exact .inr ⟨mid, seals.kept mid true dead⟩
  intro mid entry found live flies
  have before : (view watch engine).rows.get? mid = some entry := by
    simpa [view, seals.rows] using found
  have unsealed : (view watch engine).isSealed mid = false := by
    rw [Ledger.isSealed_eq_false] at live ⊢
    by_contra dead
    obtain ⟨sent, dead⟩ := Option.ne_none_iff_exists'.mp dead
    have still := seals.kept mid sent dead
    rw [show after.outbound.sealed.get? mid = none from live] at still
    cases still
  rcases covered mid entry before unsealed flies with held | full
  · rcases seals.lost mid held with still | dead
    · exact .inl still
    · exact .inr (.inr ⟨mid, dead⟩)
  · exact .inr (crowded full)

theorem Attending.heldSent (attending : Attending watch engine) : HeldSent engine := by
  refine ⟨attending.ready.tracking.coherent.reliable, fun mid held row found queued => ?_⟩
  have owner := (attending.ready.sound.accounts.heldRow mid held).2.2.1
  simp [Ledger.stateOf, found, queued] at owner

theorem attends_sealPublications (mids : List Nat) : Within Attends (sealPublications mids) := by
  refine attends_of_attended fun engine ⟨watch, attending⟩ => ?_
  apply ((sealPublications_sat attending.ready attending.start).and
    (seals_sealPublications mids engine)).mono
  · intro _ after ⟨⟨progress, _⟩, seals⟩
    have moved := (seals attending.heldSent).2
    refine attending.moved progress ?_ (fun _ _ => moved.covered attending.covered) ?_
    · intro event member
      obtain ⟨mid, _, row, _, rfl⟩ : ∃ mid ∈ after.outbound.sealed.keys.filter
          (· ∉ engine.outbound.sealed.keys), ∃ row, engine.store.out.get? mid = some row ∧
          .sealed row.seq = event := by
        simpa [sealedSince, sealEvents] using member
      exact id
    · exact fun connected => attending.accepted progress (moved.state ▸ connected)
  · exact fun _ _ failed => failed.1.elim

end

end Mqttium
