import Mqttium.Refinement.Bystanders
import Mqttium.Refinement.Draining

/-! What happens beside the publications does not move the ledger, but for the
identifiers of subscription requests. -/

namespace Mqttium

open Codec Library Packets Persistence Protocol

/-- While connected, nothing waits for a slot that is free. -/
def Busy (engine : Engine) : Prop := engine.state = .connected → NoIdle engine

/-- What a piece of a call does to the outbound direction, as the observer sees it. -/
structure Handled (watch later : Watch) (before after : Engine) : Prop where
  progress : Progress watch later before after
  busy : Busy before → Busy after

theorem Handled.trans {watch later latest : Watch} {before between after : Engine}
    (left : Handled watch later before between) (right : Handled later latest between after) :
    Handled watch latest before after :=
  ⟨left.progress.trans right.progress, right.busy ∘ left.busy⟩

/-- A step beside the publications. -/
def Aside (watch : Watch) (before after : Engine) : Prop :=
  Ready watch before → Handled watch watch before after

instance (watch : Watch) : IsPreorder Engine (Aside watch) where
  refl _ ready := ⟨ready.refl, id⟩
  trans _ _ _ first second ready :=
    (first ready).trans (second (ready.progress (first ready).progress))

/-- The effect shows nothing of a publication. -/
def Protocol.Effect.Silent (effect : Effect) : Prop := ∀ who, effectEvent who effect = none

theorem silent_send {item : WriteItem} (other : seen item.header = none) :
    (Effect.send item).Silent :=
  fun who => by simp [effectEvent, other]

theorem Protocol.Effect.Plain.silent {effect : Effect} (plain : effect.Plain) : effect.Silent := by
  intro who
  cases effect with
  | send item => simp [effectEvent, seen_other plain.1 plain.2.1]
  | sendAck frame => simp [effectEvent, seen_other plain.1 plain.2.1]
  | publishComplete mid =>
    cases mid with
    | none => rfl
    | some mid => exact plain.elim
  | publishFailed mid reason => exact plain.elim
  | _ => rfl

theorem aside_of_ready {watch : Watch} {Value : Type} {program : EngineM Value}
    (handled : ∀ engine, Ready watch engine →
      Sat program engine (fun _ => Handled watch watch engine) (fun _ => Handled watch watch engine)) :
    Within (Aside watch) program := by
  intro engine
  by_cases ready : Ready watch engine
  · exact (handled engine ready).mono (fun _ _ done _ => done) (fun _ _ done _ => done)
  · exact Sat.of_forall (fun _ _ still => absurd still ready) (fun _ _ still => absurd still ready)

section

variable {watch : Watch} {shows : Effect → Prop} {before after : Engine}

theorem Quiet.log (quiet : Quiet Effect.Silent before after) (later : watch.base ≤ before.effects.length) :
    watch.log after.effects = watch.log before.effects := by
  obtain ⟨fresh, grown, silent⟩ := quiet.effects
  have nothing : fresh.filterMap (effectEvent watch.who) = [] := by
    apply List.filterMap_eq_nil_iff.mpr
    exact fun effect member => silent effect member watch.who
  simp [Watch.log, grown, List.drop_append_of_le_length later, nothing]

theorem Quiet.view (quiet : Quiet Effect.Silent before after) (later : watch.base ≤ before.effects.length) :
    Mqttium.view watch after = Mqttium.view watch before := by
  have outbound := quiet.outbound
  simp only [Mqttium.view, quiet.rows, quiet.seq, quiet.subs, quiet.config, quiet.log later]
  rw [outbound]

theorem Quiet.tracking (quiet : Quiet shows before after) (tracking : Tracking watch before) :
    Tracking watch after := by
  obtain ⟨fresh, grown, _⟩ := quiet.effects
  refine ⟨⟨?_, ?_⟩, ?_, ?_⟩
  · intro call
    rw [quiet.faults]
    exact tracking.coherent.reliable call
  · rw [quiet.rows]
    exact tracking.coherent.rows
  · rw [grown, List.length_append]
    exact Nat.le_add_right_of_le tracking.later
  · rw [quiet.rows]
    exact tracking.names

theorem Quiet.aligned {entries : List QueueEntry} (quiet : Quiet shows before after)
    (aligned : Aligned before entries) : Aligned after entries := by
  unfold Aligned
  rw [quiet.rows, quiet.kind]
  exact aligned

theorem Quiet.aside (quiet : Quiet Effect.Silent before after) : Aside watch before after := by
  intro ready
  have queued : after.outbound.queued = before.outbound.queued := by rw [quiet.outbound]
  have flow : after.outbound.flow = before.outbound.flow := by rw [quiet.outbound]
  refine ⟨⟨quiet.tracking ready.tracking, ?_, ?_⟩, ?_⟩
  · rw [queued]
    exact quiet.aligned ready.aligned
  · exact quiet.view ready.tracking.later ▸ .refl
  · intro busy connected
    have full := busy (quiet.state connected)
    unfold NoIdle at full ⊢
    rwa [queued, flow]

end

/-! Subscription requests -/

theorem foldl_release (mids : List Nat) (pool : PacketIdPool) :
    (mids.foldl PacketIdPool.release pool).used = pool.used \ mids.toFinset := by
  induction mids generalizing pool with
  | nil => simp
  | cons mid rest ih =>
    rw [List.foldl_cons, ih]
    ext other
    simp only [PacketIdPool.used_release, Finset.mem_sdiff, Finset.mem_erase, List.mem_toFinset,
      List.toFinset_cons, Finset.mem_insert]
    tauto

section

variable {watch : Watch} {engine : Engine}

/-- Without publications every identifier belongs to a subscription request. -/
theorem Ready.used_subs (ready : Ready watch engine)
    (none : engine.outbound.holdsPacketIds = false) :
    engine.outbound.packetIds.used = engine.pendingSubRequests.keys.toFinset := by
  have valid := ready.sound.accounts
  simp only [OutboundSession.holdsPacketIds, decide_eq_false_iff_not, not_or, not_lt,
    Nat.le_zero, not_not] at none
  obtain ⟨idle, unsealed⟩ := none
  have empty : ∀ mid, (view watch engine).rows.get? mid = .none := by
    intro mid
    by_contra present
    obtain ⟨entry, found⟩ := Option.ne_none_iff_exists'.mp present
    have live : (view watch engine).isSealed mid = false := by
      rw [Ledger.isSealed_eq_false]
      apply Dict.get?_eq_none_iff.mpr
      simp [view, Dict.isEmpty_iff.mp unsealed]
    have counted := (valid.budget found live).2.1
    have : (view watch engine).messages = 0 := idle
    omega
  ext mid
  have owned := valid.owned mid
  rw [empty mid, Option.isSome_none, Bool.false_eq_true, false_or] at owned
  exact owned

/-- The end of the subscription requests, whatever their identifiers were freed by. -/
private theorem Ready.endSubs {pool : PacketIdPool} (ready : Ready watch engine)
    (freed : pool.used = engine.outbound.packetIds.used \ engine.pendingSubRequests.keys.toFinset) :
    Progress watch watch engine
      { engine with
        outbound := { engine.outbound with packetIds := pool }
        pendingSubRequests := .empty } := by
  refine ⟨⟨⟨ready.tracking.coherent.reliable, ready.tracking.coherent.rows⟩, ready.tracking.later,
    ready.tracking.names⟩, ready.aligned, .single ?_⟩
  convert Ledger.Move.endSubs using 1
  simp [view, Ledger.endSubs, freed]

theorem aside_releasePendingSubscriptionRequests :
    Within (Aside watch) releasePendingSubscriptionRequests := by
  intro engine
  simp only [releasePendingSubscriptionRequests, sat_bind, sat_get, sat_onlyIf, sat_ite,
    sat_modifyOutbound, sat_modify]
  refine ⟨fun _ => ⟨fun _ ready => ?_, fun none ready => ?_⟩, fun _ ready => ⟨ready.refl, id⟩⟩
  · exact ⟨ready.endSubs (foldl_release _ _), id⟩
  · refine ⟨ready.endSubs ?_, id⟩
    rw [ready.used_subs (by simpa using none)]
    simp

/-- A call of the store that leaves the outbound rows alone. -/
theorem aside_storeCall {Value : Type} {call : StoreCall} {run : Store → Value × Store}
    (apart : LeavesOut run) : Within (Aside watch) (storeCall call run) := by
  refine aside_of_ready fun engine ready => ?_
  rw [sat_storeCall ready.tracking.coherent.reliable]
  exact Quiet.aside ⟨apart.rows _, apart.seq _, apart.kind _, apart.faults _, rfl, rfl, rfl,
    ⟨[], by simp, by simp⟩, id⟩ ready

instance (watch : Watch) : Onlooker (Aside watch) where
  unsent still := (still.quiet.weaken fun _ unsent => unsent.plain.silent).aside
  store _ _ apart := aside_storeCall apart
  endSubs := aside_releasePendingSubscriptionRequests

instance (watch : Watch) : Bystander (Aside watch) where
  still still := (still.quiet.weaken fun _ plain => plain.silent).aside

instance (watch : Watch) : Heedless (Aside watch) where
  quiet quiet := (quiet.weaken fun _ unsent => unsent.plain.silent).aside

/-- Sending a frame that shows nothing of a publication. -/
theorem aside_send {item : WriteItem} (other : seen item.header = none) :
    Within (Aside watch) (send item) :=
  fun _ => Quiet.aside ⟨rfl, rfl, rfl, rfl, rfl, rfl, rfl,
    ⟨[.send item], rfl, by simpa using silent_send other⟩, id⟩

theorem aside_protocolDisconnect (reasonCode : Nat) :
    Within (Aside watch) (protocolDisconnect reasonCode) := by
  refine within_bind within_get fun engine => within_bind (within_onlyIf ?_) fun _ => ?_
  · refine within_from fun packet encoded => within_bind ?_ fun fits => within_onlyIf <|
      aside_send (seen_of_code (frameCode_encodeDisconnect encoded) (by decide) (by decide))
    refine within_tryCatch (within_bind beside_checkOutboundSize fun _ => within_pure _) ?_
    intro failure
    cases failure with
    | packetTooLarge _ => exact within_pure _
    | _ => exact within_throw _
  · exact within_bind beside_enterDisconnected fun _ =>
      within_bind Onlooker.endSubs fun _ => beside_emit trivial

instance (watch : Watch) : Parting (Aside watch) (Aside watch) where
  goodbye := aside_protocolDisconnect

/-- A QoS 0 publication is sent and forgotten. -/
theorem aside_publishQos0 (call : Outbound.PublishCall) :
    Within (Aside watch) (Outbound.publishQos0 call) := by
  simp only [Outbound.publishQos0, Outbound.prepareQos0, bind_assoc, pure_bind]
  exact within_bind within_get fun _ => within_bind within_fromExcept fun _ =>
    within_bind within_fromExcept fun _ => within_bind within_fromExcept fun _ =>
    within_bind within_raiseIf fun _ => within_bind within_raiseIf fun _ =>
    within_bind within_fromExcept fun _ => within_from fun item encoded =>
    within_bind beside_checkOutboundSize fun _ =>
    within_bind (aside_send (seen_encodePublishItem_qos0 encoded rfl)) fun _ =>
    within_bind (heedless_commitTopicAlias _ _) fun _ => beside_emit trivial

end

end Mqttium
