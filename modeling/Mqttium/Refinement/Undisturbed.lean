import Mqttium.Connection.Closing
import Mqttium.Refinement.Admitting

/-! What leaves the rows, the seals, the queue and the window of the outbound direction
as they are. -/

namespace Mqttium

open Codec Library Packets Persistence Protocol

structure Undisturbed (before after : Engine) : Prop where
  rows : after.store.out = before.store.out
  flow : after.outbound.flow = before.outbound.flow
  sealed : after.outbound.sealed = before.outbound.sealed
  queued : after.outbound.queued = before.outbound.queued
  state : after.state = .connected → before.state = .connected

instance : IsPreorder Engine Undisturbed where
  refl _ := ⟨rfl, rfl, rfl, rfl, id⟩
  trans _ _ _ first second :=
    ⟨second.rows.trans first.rows, second.flow.trans first.flow, second.sealed.trans first.sealed,
      second.queued.trans first.queued, first.state ∘ second.state⟩

theorem Quiet.undisturbed {shows : Effect → Prop} {before after : Engine}
    (quiet : Quiet shows before after) : Undisturbed before after := by
  have outbound := quiet.outbound
  exact ⟨quiet.rows, by rw [outbound], by rw [outbound], by rw [outbound], quiet.state⟩

theorem undisturbed_emit {effect : Effect} : Within Undisturbed (emit effect) :=
  fun _ => ⟨rfl, rfl, rfl, rfl, id⟩

theorem undisturbed_storeCall {Value : Type} {call : StoreCall} {run : Store → Value × Store}
    (apart : LeavesOut run) : Within Undisturbed (storeCall call run) := by
  intro engine
  have rows : (engine.store.nextFault call).2.out = engine.store.out := by
    unfold Store.nextFault
    split <;> rfl
  simp only [storeCall, sat_bind, sat_get]
  cases next : engine.store.nextFault call with
  | mk fault store =>
    rw [next] at rows
    cases fault with
    | none => exact ⟨(apart.rows store).trans rows, rfl, rfl, rfl, id⟩
    | some fault =>
      cases fault with
      | beforeEffect => exact ⟨rows, rfl, rfl, rfl, id⟩
      | afterEffect => exact ⟨(apart.rows store).trans rows, rfl, rfl, rfl, id⟩

theorem undisturbed_endSubs : Within Undisturbed releasePendingSubscriptionRequests :=
  fun _ => sat_releasePendingSubscriptionRequests fun _ _ => ⟨rfl, rfl, rfl, rfl, id⟩

instance : Onlooker Undisturbed where
  unsent still := still.quiet.undisturbed
  store _ _ apart := undisturbed_storeCall apart
  endSubs := undisturbed_endSubs

instance : Bystander Undisturbed where
  still still := still.quiet.undisturbed

instance : Heedless Undisturbed where
  quiet quiet := quiet.undisturbed

theorem undisturbed_protocolDisconnect (reasonCode : Nat) :
    Within Undisturbed (protocolDisconnect reasonCode) := by
  refine within_bind within_get fun _ => within_bind (within_onlyIf ?_) fun _ => ?_
  · refine within_bind within_fromExcept fun packet => within_bind ?_ fun _ =>
      within_onlyIf undisturbed_emit
    refine within_tryCatch (within_bind beside_checkOutboundSize fun _ => within_pure _) ?_
    intro failure
    cases failure with
    | packetTooLarge _ => exact within_pure _
    | _ => exact within_throw _
  · exact within_bind beside_enterDisconnected fun _ =>
      within_bind undisturbed_endSubs fun _ => undisturbed_emit

instance : Parting Undisturbed Undisturbed where
  goodbye := undisturbed_protocolDisconnect

theorem undisturbed_modifyOutbound {change : OutboundSession → OutboundSession}
    (same : ∀ outbound, (change outbound).flow = outbound.flow ∧
      (change outbound).sealed = outbound.sealed ∧ (change outbound).queued = outbound.queued) :
    Within Undisturbed (modifyOutbound change) :=
  fun engine => ⟨rfl, (same engine.outbound).1, (same engine.outbound).2.1,
    (same engine.outbound).2.2, id⟩

/-! Subscription requests and QoS 0 -/

theorem undisturbed_allocateId (choice : Nat) : Within Undisturbed (Outbound.allocateId choice) :=
  within_bind within_get fun _ =>
    within_bind (undisturbed_modifyOutbound fun _ => ⟨rfl, rfl, rfl⟩) fun _ => within_fromExcept

theorem undisturbed_releaseId (mid : Nat) : Within Undisturbed (Outbound.releaseId mid) :=
  undisturbed_modifyOutbound fun _ => ⟨rfl, rfl, rfl⟩

theorem undisturbed_sendSubscriptionRequest (choice : Nat) (encode : Nat → Except Failure Bytes)
    (kind : PacketType) (count : Nat) :
    Within Undisturbed (sendSubscriptionRequest choice encode kind count) := by
  refine within_bind (undisturbed_allocateId choice) fun mid => within_bind ?_ fun wire =>
    within_bind ?_ fun _ => within_bind undisturbed_emit fun _ => within_pure _
  · exact within_tryCatch (within_bind within_fromExcept fun _ =>
      within_bind beside_checkOutboundSize fun _ => within_pure _) fun _ =>
      within_bind (undisturbed_releaseId mid) fun _ => within_throw _
  · exact within_modify fun _ => ⟨rfl, rfl, rfl, rfl, id⟩

theorem undisturbed_completeSubscriptionRequest (mid : Nat) (kind : PacketType)
    (count : Option Nat) : Within Undisturbed (completeSubscriptionRequest mid kind count) := by
  refine within_bind within_get fun engine => ?_
  cases engine.pendingSubRequests.get? mid with
  | none => exact within_throw _
  | some expected =>
    exact within_bind within_raiseIf fun _ => within_bind within_raiseIf fun _ =>
      within_bind (within_modify fun _ => ⟨rfl, rfl, rfl, rfl, id⟩) fun _ =>
      undisturbed_releaseId mid

theorem undisturbed_onSuback (raw : RawPacket) : Within Undisturbed (onSuback raw) :=
  within_bind within_get fun _ => within_bind within_fromExcept fun _ =>
    within_bind (beside_validateInboundProblemInformation _ _) fun _ =>
    within_bind (undisturbed_completeSubscriptionRequest _ _ _) fun _ => undisturbed_emit

theorem undisturbed_onUnsuback (raw : RawPacket) : Within Undisturbed (onUnsuback raw) :=
  within_bind within_get fun _ => within_bind within_fromExcept fun _ =>
    within_bind (beside_validateInboundProblemInformation _ _) fun _ =>
    within_bind (undisturbed_completeSubscriptionRequest _ _ _) fun _ => undisturbed_emit

theorem heedless_prepareQos0 {relation : Engine → Engine → Prop} [Heedless relation]
    (call : Outbound.PublishCall) : Within relation (Outbound.prepareQos0 call) :=
  within_bind within_get fun _ => within_bind within_fromExcept fun _ =>
    within_bind within_fromExcept fun _ => within_bind within_fromExcept fun _ =>
    within_bind within_raiseIf fun _ => within_bind within_raiseIf fun _ =>
    within_bind within_fromExcept fun _ => within_bind within_fromExcept fun _ =>
    within_bind beside_checkOutboundSize fun _ => within_pure _

theorem undisturbed_publishQos0 (call : Outbound.PublishCall) :
    Within Undisturbed (Outbound.publishQos0 call) :=
  within_bind (heedless_prepareQos0 call) fun _ => within_bind undisturbed_emit fun _ =>
    within_bind (heedless_commitTopicAlias _ _) fun _ => undisturbed_emit

theorem heedless_tryDirectQos0Publish {relation : Engine → Engine → Prop} [Heedless relation]
    (call : Outbound.PublishCall) (admitted : Bool) :
    Within relation (tryDirectQos0Publish call admitted) :=
  within_bind within_get fun _ => within_ite (within_pure _) <|
    within_bind (heedless_prepareQos0 call) fun _ => within_ite
      (within_bind (within_onlyIf (heedless_commitTopicAlias _ _)) fun _ => within_pure _)
      (within_pure _)

end Mqttium
