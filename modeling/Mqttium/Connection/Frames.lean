import Mqttium.Protocol.Runs
import Mqttium.Refinement.Bystanders
import Mqttium.Refinement.Launching

/-! What a step of the engine gives out, and the frames it keeps for later. -/

namespace Mqttium

open Codec Library Packets Persistence Protocol

def IsDisconnect (item : WriteItem) : Prop :=
  frameCode item.header = some PacketType.disconnect.code

instance (item : WriteItem) : Decidable (IsDisconnect item) :=
  inferInstanceAs (Decidable (_ = _))

/-- The effects grow, and every frame among the new ones is one of `allowed`. -/
def Adds (allowed : WriteItem → Prop) (before after : Engine) : Prop :=
  ∃ fresh, after.effects = before.effects ++ fresh ∧
    ∀ effect ∈ fresh, ∀ item, effect.frame? = some item → allowed item

instance (allowed : WriteItem → Prop) : IsPreorder Engine (Adds allowed) where
  refl engine := ⟨[], by simp, by simp⟩
  trans before between after := by
    intro ⟨first, grown, fine⟩ ⟨second, more, good⟩
    refine ⟨first ++ second, by rw [more, grown, List.append_assoc], ?_⟩
    intro effect member item
    rcases List.mem_append.mp member with early | late
    · exact fine effect early item
    · exact good effect late item

section

variable {allowed : WriteItem → Prop} {before after : Engine}

theorem adds_nothing (same : after.effects = before.effects) : Adds allowed before after :=
  ⟨[], by simp [same], by simp⟩

theorem adds_frames (adds : Adds allowed before after) :
    ∀ item ∈ emitted before after, allowed item := by
  obtain ⟨fresh, grown, fine⟩ := adds
  intro item member
  simp only [emitted, grown, List.drop_left, List.mem_filterMap] at member
  obtain ⟨effect, inside, shown⟩ := member
  exact fine effect inside item shown

/-- A plain effect does not end the connection. -/
theorem Protocol.Effect.Plain.stays {effect : Effect} (plain : effect.Plain) {item : WriteItem}
    (shown : effect.frame? = some item) : ¬ IsDisconnect item := by
  cases effect with
  | send frame =>
    cases shown
    exact plain.2.2
  | sendAck frame =>
    cases shown
    exact plain.2.2
  | _ => cases shown

end

/-! Frames the engine keeps -/

def IsPuback (item : WriteItem) : Prop := frameCode item.header = some PacketType.puback.code

instance (item : WriteItem) : Decidable (IsPuback item) := inferInstanceAs (Decidable (_ = _))

/-- A property of frames that every frame but a DISCONNECT or a PUBACK has. -/
class Sendable (good : WriteItem → Prop) : Prop where
  stays : ∀ {item}, ¬ IsDisconnect item → ¬ IsPuback item → good item
  resent : ∀ {item}, good item → good (Outbound.markPublishDup item)

section

variable (good : WriteItem → Prop)

/-- The encodings cached on a record are good. -/
structure Caches (message : OutboundMessage) : Prop where
  publish : ∀ item, message.encodedPublish = some item → good item
  pubrel : ∀ frame, message.encodedPubrel = some frame → good (.contiguous frame)

def Persistence.Store.Caches (store : Store) : Prop :=
  ∀ mid row, store.out.get? mid = some row → Mqttium.Caches good row.message

def Protocol.QueueEntry.Caches : QueueEntry → Prop
  | .message stored => Mqttium.Caches good stored
  | .summary _ => True

/-- Every frame the engine keeps for later is good. -/
structure Honest (engine : Engine) : Prop where
  rows : engine.store.Caches good
  queue : ∀ entry ∈ engine.outbound.queued, entry.Caches good

end

theorem honest_any_store (store : Store) : store.Caches fun _ => True :=
  fun _ _ _ => ⟨fun _ _ => trivial, fun _ _ => trivial⟩

theorem honest_any (engine : Engine) : Honest (fun _ => True) engine := by
  refine ⟨honest_any_store engine.store, fun entry _ => ?_⟩
  cases entry with
  | message stored => exact ⟨fun _ _ => trivial, fun _ _ => trivial⟩
  | summary stored => exact trivial

theorem sendable_of_code {good : WriteItem → Prop} [Sendable good] {item : WriteItem}
    {packetType : PacketType} (coded : frameCode item.header = some packetType.code)
    (stays : packetType ≠ .disconnect) (asks : packetType ≠ .puback) : good item := by
  apply Sendable.stays
  · rw [IsDisconnect, coded]
    cases packetType <;> simp_all [PacketType.code]
  · rw [IsPuback, coded]
    cases packetType <;> simp_all [PacketType.code]

instance : Sendable fun _ => True where
  stays _ _ := trivial
  resent _ := trivial

/-- DUP is outside the nibble of the packet type. -/
theorem frameCode_markFrame (frame : Bytes) :
    frameCode (Outbound.markFrame frame) = frameCode frame := by
  cases frame with
  | nil => rfl
  | cons first rest =>
    simp only [frameCode, Outbound.markFrame, List.head?_cons, Option.map_some, Option.some.injEq]
    have small := first.toNat_lt
    unfold Outbound.withDup
    split
    · rfl
    · have sum : (first + 8).toNat = (first.toNat + 8) % 256 := by
        rw [UInt8.toNat_add]
        rfl
      omega

theorem frameCode_markPublishDup (item : WriteItem) :
    frameCode (Outbound.markPublishDup item).header = frameCode item.header := by
  have header : (Outbound.markPublishDup item).header = Outbound.markFrame item.header := by
    cases item <;> rfl
  rw [header, frameCode_markFrame]

instance : Sendable fun item => ¬ IsDisconnect item where
  stays open_ _ := open_
  resent {item} open_ := by rwa [IsDisconnect, frameCode_markPublishDup]

instance : Sendable fun item => ¬ IsPuback item where
  stays _ asks := asks
  resent {item} asks := by rwa [IsPuback, frameCode_markPublishDup]

/-! QoS 0 -/

/-- A QoS 0 publication that passed every check of the current connection. -/
structure PreparedQos0 (engine : Engine) (call : Outbound.PublishCall) (item : WriteItem) : Prop where
  connected : engine.state = .connected
  shape : ∃ number canonical topicBytes,
    Outbound.aliasAndTopic engine call = .ok (number, canonical) ∧
    encodeValidatedPublishTopic call.topic (number.isSome && call.topic.isEmpty) = .ok topicBytes ∧
    Outbound.checkAliasMaximum engine number = .ok () ∧
    engine.codec.encodePublishItem
      { topic := call.topic, payload := call.payload, qos := .atMostOnce, retain := call.retain,
        dup := false, mid := none, properties := call.properties,
        topicBytes := some topicBytes } = .ok item

/-- Preparing changes nothing. -/
theorem prepareQos0_sat (engine : Engine) (call : Outbound.PublishCall) :
    Sat (Outbound.prepareQos0 call) engine
      (fun item after => after = engine ∧ PreparedQos0 engine call item)
      (fun _ after => after = engine) := by
  simp only [Outbound.prepareQos0, sat_bind, sat_get, sat_fromExcept, sat_raiseIf]
  refine ⟨fun _ _ => ⟨fun resolved found => ⟨fun topicBytes encoded => ⟨fun _ => trivial,
    fun connected => ⟨fun _ => trivial, fun _ => ⟨fun _ admitted => ⟨fun item framed => ?_,
      fun _ _ => trivial⟩, fun _ _ => trivial⟩⟩⟩, fun _ _ => trivial⟩, fun _ _ => trivial⟩,
    fun _ _ => trivial⟩
  refine sat_checkOutboundSize ?_ fun _ => rfl
  exact ⟨rfl, by simpa using connected, resolved.1, resolved.2, topicBytes, found, encoded,
    admitted, framed⟩

end Mqttium
