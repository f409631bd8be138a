import Mqttium.Refinement.View

/-! What happens beside the publications: the inbound direction, the connection's
state and the end of subscription requests. Each operation stays within any
relation that its elementary steps stay within. -/

namespace Mqttium

open Codec Library Packets Persistence Protocol

/-- The frame belongs to no publication and does not end the connection. -/
def PlainFrame (frame : Bytes) : Prop :=
  frameCode frame ≠ some PacketType.publish.code ∧ frameCode frame ≠ some PacketType.pubrel.code ∧
    frameCode frame ≠ some PacketType.disconnect.code

/-- The effect concerns no publication and does not end the connection. -/
def Protocol.Effect.Plain : Effect → Prop
  | .send item => PlainFrame item.header
  | .sendAck frame => PlainFrame frame
  | .publishComplete (some _) => False
  | .publishFailed _ _ => False
  | _ => True

/-- The effect sends nothing and concerns no publication. -/
def Protocol.Effect.Unsent : Effect → Prop
  | .send _ => False
  | .sendAck _ => False
  | .publishComplete (some _) => False
  | .publishFailed _ _ => False
  | _ => True

/-- The effect concerns the connection alone. -/
def Protocol.Effect.Remote : Effect → Prop
  | .message _ _ _ => False
  | .decodedMessage _ _ _ _ => False
  | effect => effect.Unsent

theorem Protocol.Effect.Remote.unsent {effect : Effect} (remote : effect.Remote) :
    effect.Unsent := by
  cases effect <;> first | exact remote | exact remote.elim

theorem Protocol.Effect.Unsent.plain {effect : Effect} (unsent : effect.Unsent) : effect.Plain := by
  cases effect with
  | send item => exact unsent.elim
  | sendAck frame => exact unsent.elim
  | publishComplete mid =>
    cases mid with
    | none => exact trivial
    | some mid => exact unsent.elim
  | publishFailed mid reason => exact unsent.elim
  | _ => exact trivial

theorem plain_of_code {frame : Bytes} {packetType : PacketType}
    (coded : frameCode frame = some packetType.code) (unpublished : packetType ≠ .publish)
    (unreleased : packetType ≠ .pubrel) (stays : packetType ≠ .disconnect) : PlainFrame frame := by
  unfold PlainFrame
  rw [coded]
  cases packetType <;> simp_all [PacketType.code]

theorem plain_puback (mid : Nat) : PlainFrame (encodePubackSuccess mid) :=
  plain_of_code (frameCode_encodePubackSuccess mid) (by decide) (by decide) (by decide)

/-- Nothing of the outbound direction changed but the topic aliases, and every effect
is one of those that `shows` allows. -/
structure Quiet (shows : Effect → Prop) (before after : Engine) : Prop where
  rows : after.store.out = before.store.out
  seq : after.store.outSeq = before.store.outSeq
  kind : after.store.kind = before.store.kind
  faults : after.store.faults = before.store.faults
  outbound : after.outbound =
    { before.outbound with topicAliases := after.outbound.topicAliases }
  subs : after.pendingSubRequests = before.pendingSubRequests
  config : after.config = before.config
  effects : ∃ fresh, after.effects = before.effects ++ fresh ∧ ∀ effect ∈ fresh, shows effect
  state : after.state = .connected → before.state = .connected

theorem Quiet.weaken {shows allows : Effect → Prop} {before after : Engine}
    (quiet : Quiet shows before after) (weaker : ∀ effect, shows effect → allows effect) :
    Quiet allows before after := by
  obtain ⟨fresh, grown, shown⟩ := quiet.effects
  exact { quiet with effects := ⟨fresh, grown, fun effect member => weaker effect (shown effect member)⟩ }

/-- The connection is ending or has ended. -/
def Protocol.Engine.ceased (engine : Engine) : Prop :=
  engine.state = .disconnecting ∨ engine.state = .disconnected

instance (engine : Engine) : Decidable engine.ceased := inferInstanceAs (Decidable (_ ∨ _))

/-- Nothing of the outbound direction and none of the negotiated limits changed; the
connection stays as it is or ends. -/
structure Still (shows : Effect → Prop) (before after : Engine) : Prop where
  quiet : Quiet shows before after
  outbound : after.outbound = before.outbound
  negotiated : after.negotiated = before.negotiated
  state : after.state = before.state ∨ after.ceased

theorem Still.weaken {shows allows : Effect → Prop} {before after : Engine}
    (still : Still shows before after) (weaker : ∀ effect, shows effect → allows effect) :
    Still allows before after :=
  { still with quiet := still.quiet.weaken weaker }

/-- A call of the store that leaves the outbound rows alone. -/
structure LeavesOut {Value : Type} (run : Store → Value × Store) : Prop where
  rows : ∀ store, (run store).2.out = store.out
  seq : ∀ store, (run store).2.outSeq = store.outSeq
  kind : ∀ store, (run store).2.kind = store.kind
  faults : ∀ store, (run store).2.faults = store.faults

section

variable {shows : Effect → Prop}

theorem still_effects {before after : Engine} (store : after.store = before.store)
    (outbound : after.outbound = before.outbound)
    (subs : after.pendingSubRequests = before.pendingSubRequests)
    (config : after.config = before.config) (negotiated : after.negotiated = before.negotiated)
    (effects : ∃ fresh, after.effects = before.effects ++ fresh ∧ ∀ effect ∈ fresh, shows effect)
    (state : after.state = before.state ∨ after.ceased) : Still shows before after := by
  refine ⟨⟨by rw [store], by rw [store], by rw [store], by rw [store], by rw [outbound], subs,
    config, effects, ?_⟩, outbound, negotiated, state⟩
  intro connected
  rcases state with same | ceased
  · exact same ▸ connected
  · rcases ceased with ending | ended
    · simp [ending] at connected
    · simp [ended] at connected

theorem still_silent {before after : Engine} (store : after.store = before.store)
    (outbound : after.outbound = before.outbound)
    (subs : after.pendingSubRequests = before.pendingSubRequests)
    (config : after.config = before.config) (negotiated : after.negotiated = before.negotiated)
    (effects : after.effects = before.effects)
    (state : after.state = before.state ∨ after.ceased) : Still shows before after :=
  still_effects store outbound subs config negotiated ⟨[], by simp [effects], by simp⟩ state

end

theorem beside_checkOutboundSize {relation : Engine → Engine → Prop} [IsPreorder Engine relation]
    {item : WriteItem} : Within relation (checkOutboundSize item) := by
  refine within_bind within_get fun engine => ?_
  cases engine.negotiated.maximumPacketSize with
  | none => exact within_pure _
  | some limit => exact within_raiseIf

/-! The connection alone -/

/-- A relation that the steps of the connection stay within, as long as they leave both
directions alone and send nothing. -/
class Standby (relation : Engine → Engine → Prop) : Prop extends IsPreorder Engine relation where
  remote : ∀ {before after}, Still Effect.Remote before after → after.inbound = before.inbound →
    after.store = before.store → relation before after
  read : ∀ {Value : Type} (call : StoreCall) (read : Store → Value),
    Within relation (storeRead call read)
  endSubs : Within relation releasePendingSubscriptionRequests

section

variable {relation : Engine → Engine → Prop} [Standby relation] {Value : Type}

theorem beside_adjust {change : Engine → Engine}
    (still : ∀ engine, Still Effect.Remote engine (change engine))
    (inbound : ∀ engine, (change engine).inbound = engine.inbound)
    (store : ∀ engine, (change engine).store = engine.store) :
    Within relation (modify change : EngineM PUnit) :=
  fun engine => Standby.remote (still engine) (inbound engine) (store engine)

theorem beside_announce {effect : Effect} (remote : effect.Remote) : Within relation (emit effect) :=
  beside_adjust (fun _ => still_effects rfl rfl rfl rfl rfl ⟨[effect], rfl, by simpa using remote⟩
    (.inl rfl)) (fun _ => rfl) fun _ => rfl

theorem beside_storeRead {call : StoreCall} {read : Store → Value} :
    Within relation (storeRead call read) :=
  Standby.read call read

theorem beside_enterDisconnected : Within relation enterDisconnected :=
  beside_adjust (fun _ => still_silent rfl rfl rfl rfl rfl rfl (.inr (.inr rfl))) (fun _ => rfl)
    fun _ => rfl

theorem beside_beginDisconnect (reasonCode : Nat) (properties : Option Properties) :
    Within relation (beginDisconnect reasonCode properties) :=
  within_bind within_get fun _ => within_bind within_raiseIf fun _ =>
    within_bind within_fromExcept fun _ => within_bind within_fromExcept fun _ =>
    within_bind beside_checkOutboundSize fun _ =>
    within_bind (beside_adjust (fun _ => still_silent rfl rfl rfl rfl rfl rfl (.inr (.inl rfl)))
      (fun _ => rfl) fun _ => rfl) fun _ =>
    within_pure _

theorem beside_onPingresp (raw : RawPacket) : Within relation (onPingresp raw) :=
  within_bind within_raiseIf fun _ => beside_announce trivial

theorem beside_onDisconnect (raw : RawPacket) : Within relation (onDisconnect raw) :=
  within_bind within_get fun _ => within_bind within_fromExcept fun _ =>
    within_bind beside_enterDisconnected fun _ => within_bind Standby.endSubs fun _ =>
    within_bind (beside_announce trivial) fun _ => within_raiseIf

theorem beside_foldSummaries {body : OutboundMessageSummary → Value → EngineM Value}
    (within : ∀ stored value, Within relation (body stored value)) (value : Value) :
    Within relation (Outbound.foldSummaries body value) := by
  have page : ∀ summaries value, Within relation (Outbound.foldPage body summaries value) := by
    intro summaries
    induction summaries with
    | nil => exact within_pure
    | cons stored rest ih => exact fun value => within_bind (within stored value) ih
  have pages : ∀ groups value, Within relation (Outbound.foldPages body groups value) := by
    intro groups
    induction groups with
    | nil => exact within_pure
    | cons mids rest ih =>
      exact fun value => within_bind beside_storeRead fun _ => within_bind (page _ _) ih
  exact within_bind within_get fun _ => pages _ value

theorem beside_checkSessionReplayable : Within relation Outbound.checkSessionReplayable := by
  refine within_bind within_get fun _ => within_ite (within_pure _) <|
    beside_foldSummaries (fun stored _ => within_bind within_get fun engine => within_onlyIf ?_) _
  cases Outbound.validateAgainstNegotiated engine (.summary stored) with
  | ok _ => exact within_pure _
  | error failure => exact within_ite (within_throw _) (within_throw _)

end

/-! The inbound direction -/

/-- A relation that the elementary steps beside the publications stay within, as long
as they send nothing. -/
class Onlooker (relation : Engine → Engine → Prop) : Prop extends IsPreorder Engine relation where
  unsent : ∀ {before after}, Still Effect.Unsent before after → relation before after
  store : ∀ {Value : Type} (call : StoreCall) (run : Store → Value × Store), LeavesOut run →
    Within relation (storeCall call run)
  endSubs : Within relation releasePendingSubscriptionRequests

instance (relation : Engine → Engine → Prop) [Onlooker relation] : Standby relation where
  remote still _ _ := Onlooker.unsent (still.weaken fun _ remote => remote.unsent)
  read _ _ := Onlooker.store _ _ ⟨fun _ => rfl, fun _ => rfl, fun _ => rfl, fun _ => rfl⟩
  endSubs := Onlooker.endSubs

section

open Inbound

variable {relation : Engine → Engine → Prop} [Onlooker relation] {Value : Type}

/-- Changes of the inbound direction and of the connection's own fields. -/
theorem beside_modify {change : Engine → Engine} (still : ∀ engine, Still Effect.Unsent engine (change engine)) :
    Within relation (modify change : EngineM PUnit) :=
  fun engine => Onlooker.unsent (still engine)

theorem beside_emit {effect : Effect} (unsent : effect.Unsent) : Within relation (emit effect) :=
  beside_modify fun _ =>
    still_effects rfl rfl rfl rfl rfl ⟨[effect], rfl, by simpa using unsent⟩ (.inl rfl)

end

/-- The effect hands a message over, or asks for more of a replay. -/
def Protocol.Effect.Arrives : Effect → Prop
  | .message _ _ _ => True
  | .decodedMessage _ _ _ _ => True
  | .continueInboundReplay => True
  | _ => False

/-- A relation that the elementary steps of the inbound direction stay within, as long as
they send nothing. -/
class Inward (relation : Engine → Engine → Prop) : Prop extends IsPreorder Engine relation where
  inbound : ∀ {change : Engine → Engine},
    (∀ engine, change engine = { engine with inbound := (change engine).inbound }) →
    Within relation (modify change : EngineM PUnit)
  call : ∀ {Value : Type} (call : StoreCall) (run : Store → Value × Store), LeavesOut run →
    Within relation (storeCall call run)
  deliver : ∀ {effect}, effect.Arrives → Within relation (emit effect)

instance (relation : Engine → Engine → Prop) [Onlooker relation] : Inward relation where
  inbound alone := beside_modify fun engine => by
    rw [alone engine]
    exact still_silent rfl rfl rfl rfl rfl rfl (.inl rfl)
  call := Onlooker.store
  deliver {effect} arrives := beside_emit (by
    cases effect <;> first | exact trivial | exact arrives.elim)

section

open Inbound

variable {relation : Engine → Engine → Prop} [Inward relation] {Value : Type}

theorem beside_modifyInbound {change : InboundSession → InboundSession} :
    Within relation (modifyInbound change) :=
  Inward.inbound fun _ => rfl

theorem beside_shareAfter (mid : Nat) : Within relation (shareAfter mid) := by
  refine Inward.inbound fun engine => ?_
  cases engine.store.inbound.get? mid <;> rfl

theorem inward_storeRead {call : StoreCall} {read : Store → Value} :
    Within relation (storeRead call read) :=
  Inward.call _ _ ⟨fun _ => rfl, fun _ => rfl, fun _ => rfl, fun _ => rfl⟩

theorem leavesOut_markInDelivered (mid : Nat) : LeavesOut fun store => store.markInDelivered mid := by
  constructor <;> intro store <;> unfold Store.markInDelivered <;> split <;> try split
  all_goals rfl

theorem leavesOut_transitionIn (mid : Nat) (expected next : InboundQoSState)
    (userAcked : Option Bool) :
    LeavesOut fun store => store.transitionIn mid expected next userAcked := by
  constructor <;> intro store <;> unfold Store.transitionIn <;> split <;> try split
  all_goals rfl

theorem leavesOut_completeIn (mid : Nat) (expected : InboundQoSState) :
    LeavesOut fun store => store.completeIn mid expected := by
  constructor <;> intro store <;> unfold Store.completeIn <;> split <;> try split
  all_goals rfl

theorem leavesOut_putIn (message : InboundMessage) :
    LeavesOut fun store => (PUnit.unit, store.putIn message) := by
  constructor <;> intro store <;> simp only [Store.putIn] <;> split <;> rfl

theorem beside_markRowDelivered (mid : Nat) : Within relation (markRowDelivered mid) :=
  within_bind (within_map (Inward.call _ _ (leavesOut_markInDelivered mid))) fun _ =>
    beside_shareAfter mid

theorem beside_transitionRow (mid : Nat) (expected next : InboundQoSState)
    (userAcked : Option Bool) : Within relation (transitionRow mid expected next userAcked) :=
  within_bind (Inward.call _ _ (leavesOut_transitionIn mid expected next userAcked)) fun _ =>
    within_bind (beside_shareAfter mid) fun _ => within_pure _

theorem beside_transportClosed : Within relation transportClosed :=
  within_bind beside_modifyInbound fun _ =>
    within_bind beside_modifyInbound fun _ => beside_modifyInbound

theorem beside_discardSession : Within relation discardSession :=
  within_bind (Inward.call _ _ ⟨fun _ => rfl, fun _ => rfl, fun _ => rfl, fun _ => rfl⟩)
    fun _ => beside_modifyInbound

theorem beside_lookupStoredInbound (mid : Nat) : Within relation (lookupStoredInbound mid) :=
  within_bind within_get fun _ => within_ite (within_pure _) inward_storeRead

theorem beside_forgetInbound : Within relation forgetInbound :=
  within_bind within_get fun _ => within_bind within_raiseIf fun _ => beside_modifyInbound

theorem beside_completeStoredInbound (mid : Nat) (expected : InboundQoSState) (action : String) :
    Within relation (completeStoredInbound mid expected action) := by
  refine within_bind (Inward.call _ _ (leavesOut_completeIn mid expected)) fun completed => ?_
  cases completed with
  | none => exact within_throw _
  | some record => exact within_bind beside_modifyInbound fun _ => within_pure _

theorem beside_freshToken (mid : Nat) : Within relation (freshToken mid) :=
  within_bind within_get fun _ => within_bind beside_modifyInbound fun _ => within_pure _

theorem beside_exchangeToken (mid : Nat) : Within relation (exchangeToken mid) := by
  refine within_bind within_get fun engine => ?_
  cases engine.inbound.exchangeTokens.get? mid with
  | none => exact beside_freshToken mid
  | some token => exact within_pure _

theorem beside_releasePendingBytes (size : Nat) : Within relation (releasePendingBytes size) :=
  within_bind within_get fun _ => within_bind within_raiseIf fun _ => beside_modifyInbound

theorem beside_holdUntilPubcompHandoff (mid size : Nat) :
    Within relation (holdUntilPubcompHandoff mid size) :=
  within_bind (beside_releasePendingBytes size) fun _ => within_bind within_get fun _ =>
    within_bind beside_modifyInbound fun _ => within_onlyIf beside_modifyInbound

theorem beside_emitDelivery (message : Message) (marked : Bool) (size : Option Nat)
    (token : Option Token) : Within relation (emitDelivery message marked size token) := by
  cases size with
  | none => exact Inward.deliver trivial
  | some size => exact Inward.deliver trivial

theorem beside_bindAckToken (mid : Nat) (message : Message) :
    Within relation (bindAckToken mid message) :=
  within_bind within_get fun _ => within_ite
    (within_bind (beside_exchangeToken mid) fun _ => within_pure _) (within_pure _)

theorem beside_emitMessage (stored : InboundMessage) (dup : Bool) :
    Within relation (emitMessage stored dup) :=
  within_bind (beside_bindAckToken _ _) fun _ =>
    within_bind (beside_exchangeToken _) fun _ => Inward.deliver trivial

theorem beside_nextPage (groups : List (List Nat)) : Within relation (nextPage groups) := by
  induction groups with
  | nil => exact within_pure _
  | cons mids rest ih =>
    refine within_bind inward_storeRead fun page => ?_
    cases page with
    | nil => exact ih
    | cons row more => exact within_pure _

theorem beside_beginPage (cursor : InboundReplayCursor) : Within relation (beginPage cursor) := by
  refine within_ite (within_pure _) <| within_bind beside_modifyInbound fun _ =>
    within_bind (beside_nextPage _) fun found => ?_
  cases found with
  | none => exact within_pure _
  | some page => exact within_pure _

theorem beside_replayFor (fuel : Nat) (cursor : InboundReplayCursor) (emitted bytes : Nat) :
    Within relation (replayFor fuel cursor emitted bytes) := by
  induction fuel generalizing cursor emitted bytes with
  | zero => exact within_pure _
  | succ fuel ih =>
    refine within_ite (within_pure _) ?_
    obtain ⟨taken, rest⟩ := nextPageMessage cursor
    cases taken with
    | none => exact within_pure _
    | some row =>
      exact within_bind within_get fun _ => within_ite (ih _ _ _) <| within_ite (within_pure _) <|
        within_bind (beside_emitMessage _ _) fun _ => ih _ _ _

theorem beside_drainReplay : Within relation drainReplay := by
  refine within_bind within_get fun engine => ?_
  cases engine.inbound.replay with
  | none => exact within_pure _
  | some cursor =>
    refine within_bind (beside_beginPage _) fun begun => within_ite ?_ beside_modifyInbound
    exact within_bind (beside_replayFor _ _ _ _) fun _ => within_bind beside_modifyInbound fun _ =>
      within_ite beside_modifyInbound (Inward.deliver trivial)

theorem beside_replaySession : Within relation Inbound.replaySession :=
  within_bind inward_storeRead fun _ => within_bind beside_modifyInbound fun _ =>
    within_ite beside_modifyInbound <| within_bind within_get fun _ =>
    within_bind beside_modifyInbound fun _ => beside_drainReplay

end

/-! Steps that send -/

/-- A relation as above that PINGREQ and AUTH stay within. -/
class Speaking (relation : Engine → Engine → Prop) : Prop extends Standby relation where
  speak : ∀ {item : WriteItem}, frameCode item.header = some PacketType.pingreq.code ∨
    frameCode item.header = some PacketType.auth.code → Within relation (send item)

section

variable {relation : Engine → Engine → Prop} [Speaking relation]

theorem beside_queuePing : Within relation queuePing :=
  within_bind within_get fun _ => within_bind within_raiseIf fun _ =>
    within_bind beside_checkOutboundSize fun _ =>
    Speaking.speak (.inl frameCode_pingreq)

theorem beside_queueAuth (reasonCode : Nat) (properties : Option Properties) :
    Within relation (queueAuth reasonCode properties) := by
  refine within_bind within_get fun engine => within_bind within_raiseIf fun _ =>
    within_bind within_raiseIf fun _ => ?_
  cases engine.authMethod with
  | none => exact within_throw _
  | some expected =>
    exact within_bind within_raiseIf fun _ => within_bind within_raiseIf fun _ =>
      within_bind within_raiseIf fun _ => within_bind within_raiseIf fun _ =>
      within_bind within_raiseIf fun _ => within_from fun wire encoded =>
      within_bind beside_checkOutboundSize fun _ =>
      within_bind (Speaking.speak (.inr (frameCode_encodeAuthV5 encoded))) fun _ =>
      beside_adjust (fun _ => still_silent rfl rfl rfl rfl rfl rfl (.inl rfl)) (fun _ => rfl)
        fun _ => rfl

theorem beside_respondAuth (challenge : Option Nat) (reasonCode : Nat)
    (properties : Option Properties) :
    Within relation (respondAuth challenge reasonCode properties) :=
  within_bind within_get fun _ => within_ite (within_pure _) <| within_ite (within_pure _) <|
    within_bind (beside_queueAuth _ _) fun _ => within_pure _

end

/-- A relation as above that the answers to QoS 2 packets stay within. -/
class Answering (relation : Engine → Engine → Prop) : Prop extends Onlooker relation where
  answer : ∀ {frame : Bytes}, frameCode frame = some PacketType.pubrec.code ∨
    frameCode frame = some PacketType.pubcomp.code → Within relation (sendAck frame)

/-- A relation that the inbound direction stays within when it answers QoS 2 packets. -/
class Replying (relation : Engine → Engine → Prop) : Prop extends Inward relation where
  reply : ∀ {frame : Bytes}, frameCode frame = some PacketType.pubrec.code ∨
    frameCode frame = some PacketType.pubcomp.code → Within relation (sendAck frame)

instance (relation : Engine → Engine → Prop) [Answering relation] : Replying relation where
  reply := Answering.answer

section

open Inbound

variable {relation : Engine → Engine → Prop} [Replying relation]

theorem beside_completeQos2 (mid : Nat) (state : InboundQoSState) (action : String) :
    Within relation (completeQos2 mid state action) :=
  within_bind (beside_completeStoredInbound _ _ _) fun _ => within_bind beside_forgetInbound fun _ =>
    within_bind (Replying.reply (.inr (frameCode_encodePubcompSuccess _))) fun _ =>
    beside_holdUntilPubcompHandoff _ _

theorem beside_onPubrelStored (mid : Nat) (record : InboundRecordMeta) :
    Within relation (onPubrelStored mid record) := by
  refine within_bind within_get fun _ => within_ite (within_pure _) <| within_ite (within_throw _) <|
    within_ite (within_bind (beside_transitionRow _ _ _ _) fun changed => ?_) <|
    within_ite beside_modifyInbound (beside_completeQos2 _ _ _)
  cases changed with
  | some _ => exact within_pure _
  | none => exact within_throw _

end

/-- A relation as above that every plain frame stays within. -/
class Bystander (relation : Engine → Engine → Prop) : Prop extends Onlooker relation where
  still : ∀ {before after}, Still Effect.Plain before after → relation before after

section

open Inbound

variable {relation : Engine → Engine → Prop} [Bystander relation]

theorem beside_send {item : WriteItem} (plain : PlainFrame item.header) :
    Within relation (send item) :=
  fun _ => Bystander.still <|
    still_effects rfl rfl rfl rfl rfl ⟨[.send item], rfl, by simpa [Effect.Plain] using plain⟩ (.inl rfl)

theorem beside_sendAck {frame : Bytes} (plain : PlainFrame frame) :
    Within relation (sendAck frame) :=
  fun _ => Bystander.still <|
    still_effects rfl rfl rfl rfl rfl ⟨[.sendAck frame], rfl, by simpa [Effect.Plain] using plain⟩ (.inl rfl)

instance : Speaking relation where
  speak coded := by
    rcases coded with ping | auth
    · exact beside_send (plain_of_code ping (by decide) (by decide) (by decide))
    · exact beside_send (plain_of_code auth (by decide) (by decide) (by decide))

instance : Answering relation where
  answer coded := by
    rcases coded with received | completed
    · exact beside_sendAck (plain_of_code received (by decide) (by decide) (by decide))
    · exact beside_sendAck (plain_of_code completed (by decide) (by decide) (by decide))

end

/-- A relation that the inbound direction stays within, whatever it acknowledges. -/
class Acknowledging (relation : Engine → Engine → Prop) : Prop extends Inward relation where
  acknowledge : ∀ {frame : Bytes}, PlainFrame frame → Within relation (sendAck frame)

instance (relation : Engine → Engine → Prop) [Bystander relation] : Acknowledging relation where
  acknowledge := beside_sendAck

instance (relation : Engine → Engine → Prop) [Acknowledging relation] : Replying relation where
  reply coded := by
    rcases coded with received | completed
    · exact Acknowledging.acknowledge (plain_of_code received (by decide) (by decide) (by decide))
    · exact Acknowledging.acknowledge (plain_of_code completed (by decide) (by decide) (by decide))

section

open Inbound

variable {relation : Engine → Engine → Prop} [Acknowledging relation]

theorem beside_completeQos1 (mid : Nat) : Within relation (completeQos1 mid) :=
  within_bind (beside_completeStoredInbound _ _ _) fun _ => within_bind beside_forgetInbound fun _ =>
    within_bind (Acknowledging.acknowledge (plain_puback _)) fun _ =>
    within_bind beside_modifyInbound fun _ => beside_releasePendingBytes _

theorem beside_drainManualFor (fuel : Nat) : Within relation (drainManualFor fuel) := by
  induction fuel with
  | zero => exact within_pure _
  | succ fuel ih =>
    refine within_bind within_get fun engine => ?_
    cases engine.inbound.manualQos1Order with
    | nil => exact within_pure _
    | cons mid rest =>
      exact within_onlyIf <| within_bind (beside_lookupStoredInbound _) fun _ =>
        within_bind within_raiseIf fun _ => within_bind (beside_completeQos1 _) fun _ =>
        within_bind beside_modifyInbound fun _ => ih

theorem beside_drainManualQos1Acks : Within relation drainManualQos1Acks :=
  within_bind within_get fun _ => beside_drainManualFor _

theorem beside_markDelivered (mid : Nat) (token : Option Token) :
    Within relation (markDelivered mid token) := by
  refine within_bind within_get fun engine => within_ite (within_pure _) <|
    within_bind beside_modifyInbound fun _ => ?_
  cases engine.inbound.pendingCompletions.get? mid with
  | none => exact within_onlyIf (beside_markRowDelivered _)
  | some state =>
    cases state with
    | waitPuback => exact beside_completeQos1 _
    | _ => exact beside_completeQos2 _ _ _

theorem beside_ack (mid : Nat) (message : Option Message) :
    Within relation (Inbound.ack mid message) := by
  refine within_bind within_get fun engine => within_bind within_raiseIf fun _ =>
    within_bind within_raiseIf fun _ => within_bind (beside_lookupStoredInbound _) fun record => ?_
  cases record with
  | none => exact within_throw _
  | some stored =>
    cases state : stored.state with
    | waitPubrel =>
      simp only [state]
      refine within_bind (beside_transitionRow _ _ _ _) fun changed => ?_
      cases changed with
      | some _ => exact within_pure _
      | none => exact within_throw _
    | waitPuback =>
      simp only [state]
      exact within_bind beside_checkOutboundSize fun _ => within_bind beside_modifyInbound fun _ =>
        beside_drainManualQos1Acks
    | waitUserAck =>
      simp only [state]
      exact within_bind beside_checkOutboundSize fun _ => beside_completeQos2 _ _ _
    | done =>
      simp only [state]
      exact within_throw _

end

/-! Steps that may end the connection -/

/-- A relation as above, and one that the end of the connection stays within. -/
class Parting (relation final : Engine → Engine → Prop) : Prop extends
    Standby relation, Ending relation final where
  goodbye (relation) : ∀ reasonCode, Within final (protocolDisconnect reasonCode)

/-- Two such relations, as far as a protocol error ends the connection. -/
class Leaving (relation final : Engine → Engine → Prop) : Prop extends
    Ending relation final where
  leave (relation) : ∀ reasonCode, Within final (protocolDisconnect reasonCode)

instance (relation final : Engine → Engine → Prop) [Parting relation final] :
    Leaving relation final where
  leave := Parting.goodbye relation

section

variable {relation final : Engine → Engine → Prop} [Leaving relation final] {Value : Type}

/-- Announce a protocol error and raise. -/
theorem beside_disconnecting (reasonCode : Nat) (failure : Failure) :
    Ends relation final (do protocolDisconnect reasonCode; throw failure : EngineM Value) := by
  intro engine
  rw [sat_bind]
  exact (Leaving.leave relation reasonCode engine).mono (fun _ _ done => done) (fun _ _ done => done)

theorem beside_refuse (message : String) : Ends relation final (refuse message : EngineM Value) :=
  beside_disconnecting _ _

theorem beside_validateInboundProblemInformation (packetType : PacketType)
    (properties : Option Properties) :
    Ends relation final (validateInboundProblemInformation packetType properties) :=
  ends_bind within_get.ends fun _ => ends_onlyIf (beside_disconnecting _ _)

theorem beside_validateAckProperties (packet : PacketType) (properties : Option Properties) :
    Ends relation final (Outbound.validateAckProperties packet properties) :=
  ends_onlyIf (beside_validateInboundProblemInformation _ _)

theorem beside_validateConnackV5 (reasonCode : Nat) (properties : Option Properties) :
    Ends relation final (validateConnackV5 reasonCode properties) :=
  ends_bind within_get.ends fun _ => ends_bind (ends_onlyIf (beside_refuse _)) fun _ =>
    ends_bind (ends_onlyIf (beside_refuse _)) fun _ =>
    ends_bind (ends_onlyIf (beside_refuse _)) fun _ => ends_onlyIf (beside_refuse _)

theorem beside_validateAcceptedConnack (present : Bool) (properties : Option Properties) :
    Ends relation final (validateAcceptedConnack present properties) :=
  ends_bind within_get.ends fun _ => ends_bind (ends_onlyIf (beside_refuse _)) fun _ =>
    ends_onlyIf (beside_refuse _)

end

section

variable {relation final : Engine → Engine → Prop} [Parting relation final]

theorem beside_advanceAuth (reasonCode : Nat) : Ends relation final (advanceAuth reasonCode) :=
  ends_bind within_get.ends fun _ => ends_ite (ends_onlyIf (beside_refuse _)) <| ends_ite
    (ends_ite (beside_refuse _) <| ends_ite
      (Within.ends (beside_adjust (fun _ => still_silent rfl rfl rfl rfl rfl rfl (.inl rfl))
        (fun _ => rfl) fun _ => rfl))
      (ends_onlyIf (beside_refuse _)))
    (within_pure _).ends

end

section

variable (relation : Engine → Engine → Prop) {final : Engine → Engine → Prop} [Parting relation final]

include relation

/-- Without an AUTH handler the connection ends, and the handler returns. -/
theorem beside_surfaceAuth (reasonCode : Nat) (properties : Option Properties) :
    Within final (surfaceAuth reasonCode properties) := by
  have silent : Within relation (emit (.auth reasonCode properties none)) := beside_announce trivial
  have numbered (challenge : Nat) : Within relation (do
      modify fun engine =>
        { engine with authChallenges := challenge, authResponseDue := some challenge }
      emit (.auth reasonCode properties (some challenge)) : EngineM PUnit) :=
    within_bind (beside_adjust (fun _ => still_silent rfl rfl rfl rfl rfl rfl (.inl rfl))
      (fun _ => rfl) fun _ => rfl) fun _ =>
      beside_announce trivial
  exact ends_then relation within_get.ends fun _ => within_ite (Parting.goodbye relation _) <|
    within_ite (ends_last relation (numbered _).ends) (ends_last relation silent.ends)

theorem beside_onAuth (raw : RawPacket) : Within final (onAuth raw) :=
  ends_then relation within_get.ends fun _ => within_ite (ends_last relation (beside_refuse _)) <|
    ends_then relation within_fromExcept.ends fun _ =>
    ends_then relation (beside_validateInboundProblemInformation _ _) fun _ =>
    ends_then relation (ends_onlyIf (beside_refuse _)) fun _ =>
    ends_then relation (ends_onlyIf (beside_refuse _)) fun _ =>
    ends_then relation (ends_onlyIf (beside_refuse _)) fun _ =>
    ends_then relation (beside_advanceAuth _) fun _ => beside_surfaceAuth relation _ _

end

section

open Inbound

variable {relation final : Engine → Engine → Prop} [Inward relation] [Leaving relation final]

theorem beside_acquireSlot (size : Option Nat) : Ends relation final (acquireSlot size) :=
  ends_bind within_get.ends fun _ =>
    ends_bind (ends_onlyIf (beside_disconnecting _ _)) fun _ =>
    ends_bind (ends_onlyIf (beside_disconnecting _ _)) fun _ =>
    (within_bind beside_modifyInbound fun _ => within_pure _).ends

theorem beside_admitRow (arrival : Arrival) (qos : QoS) (state : InboundQoSState) :
    Ends relation final (admitRow arrival qos state) := by
  have stores (size : Nat) (stored : InboundMessage) : Within relation (tryCatch (do
      raiseIf (size = 0) (.value "logical_size must be positive")
      storeCall .putIn fun store => (PUnit.unit, store.putIn stored)) fun failure => do
        releasePendingBytes size
        throw failure : EngineM PUnit) :=
    within_tryCatch
      (within_bind within_raiseIf fun _ => Inward.call _ _ (leavesOut_putIn _))
      fun _ => within_bind (beside_releasePendingBytes _) fun _ => within_throw _
  exact ends_bind within_get.ends fun _ => ends_bind within_fromExcept.ends fun _ =>
    ends_bind (ends_map (beside_acquireSlot _)) fun _ => ends_bind (stores _ _).ends fun _ =>
    (within_bind beside_modifyInbound fun _ => within_bind (beside_freshToken _) fun _ =>
      within_bind beside_modifyInbound fun _ => within_pure _).ends

theorem beside_holdSlot (mid : Nat) : Ends relation final (holdSlot mid) :=
  ends_bind within_get.ends fun _ => ends_onlyIf
    (ends_bind (ends_map (beside_acquireSlot _)) fun _ => beside_modifyInbound.ends)

theorem beside_onQos1ManualFresh (arrival : Arrival) :
    Ends relation final (onQos1ManualFresh arrival) :=
  ends_bind within_get.ends fun _ => ends_ite (beside_disconnecting _ _) <|
    ends_bind (beside_admitRow _ _ _) fun _ => (within_bind beside_modifyInbound fun _ =>
      within_bind (beside_bindAckToken _ _) fun _ => beside_emitDelivery _ _ _ _).ends

theorem beside_resolveTopicFields (topic : Text) (properties : Option Properties) :
    Ends relation final (resolveTopicFields topic properties) := by
  refine ends_bind within_get.ends fun engine => ?_
  cases properties.bind (·.int? .topicAlias) with
  | none => exact ends_ite (beside_disconnecting _ _) (within_pure _).ends
  | some number =>
    refine ends_ite (beside_disconnecting _ _) <| ends_ite
      (within_bind beside_modifyInbound fun _ => within_pure _).ends ?_
    cases engine.inbound.aliases.get? number.toNat with
    | none => exact beside_disconnecting _ _
    | some known => exact (within_pure _).ends

theorem beside_resolveArrival (topic : Text) (properties : Option Properties) (size : Nat) :
    Ends relation final (resolveArrival topic properties size) :=
  ends_ite (ends_bind (beside_resolveTopicFields _ _) fun _ => (within_pure _).ends)
    (within_pure _).ends

end

section

open Inbound

variable {relation final : Engine → Engine → Prop} [Replying relation] [Leaving relation final]

theorem beside_onQos2 (arrival : Arrival) : Ends relation final (onQos2 arrival) := by
  refine ends_bind (beside_lookupStoredInbound _).ends fun record => ?_
  cases record with
  | some existing =>
    exact ends_bind within_get.ends fun _ => ends_ite (beside_disconnecting _ _) <|
      ends_ite (beside_disconnecting _ _) <| ends_ite (within_throw _).ends <|
      ends_bind (beside_holdSlot _) fun _ => (Replying.reply (.inl (frameCode_encodePubrecSuccess _))).ends
  | none =>
    exact ends_bind within_get.ends fun _ => ends_ite (beside_disconnecting _ _) <|
      ends_ite (beside_disconnecting _ _) <| ends_bind (beside_admitRow _ _ _) fun _ =>
      (within_bind (Replying.reply (.inl (frameCode_encodePubrecSuccess _))) fun _ =>
        within_bind (beside_bindAckToken _ _) fun _ => beside_emitDelivery _ _ _ _).ends

theorem beside_onPubrel (raw : RawPacket) : Ends relation final (onPubrel raw) := by
  refine ends_bind within_get.ends fun _ => ends_bind within_fromExcept.ends fun fields =>
    ends_bind (beside_validateAckProperties _ _) fun _ =>
    (within_bind (beside_lookupStoredInbound _) fun record => ?_).ends
  cases record with
  | none => exact Replying.reply (.inr (frameCode_encodePubcompSuccess _))
  | some stored => exact beside_onPubrelStored _ _

end

section

open Inbound

variable {relation final : Engine → Engine → Prop} [Acknowledging relation] [Leaving relation final]

theorem beside_completeRecoveredQos1Auto (mid : Nat) :
    Ends relation final (completeRecoveredQos1Auto mid) :=
  ends_bind within_get.ends fun _ => ends_ite (within_pure _).ends <|
    ends_bind (beside_lookupStoredInbound _).ends fun _ => ends_ite
      (ends_bind (beside_holdSlot _) fun _ => beside_modifyInbound.ends)
      (ends_bind (beside_acquireSlot _) fun _ =>
        (within_bind (beside_completeStoredInbound _ _ _) fun _ =>
          within_bind beside_forgetInbound fun _ =>
          within_bind (Acknowledging.acknowledge (plain_puback _)) fun _ =>
          within_bind (beside_releasePendingBytes _) fun _ => beside_modifyInbound).ends)

theorem beside_onQos1Auto (arrival : Arrival) : Ends relation final (onQos1Auto arrival) := by
  refine ends_bind (beside_lookupStoredInbound _).ends fun record => ?_
  cases record with
  | some existing =>
    exact ends_ite (beside_completeRecoveredQos1Auto _) (beside_disconnecting _ _)
  | none =>
    refine ends_bind within_get.ends fun _ => ends_ite (beside_disconnecting _ _) <| ends_ite
      (ends_bind (within_pure _).ends fun _ => ?_) (ends_bind (beside_acquireSlot _) fun _ => ?_) <;>
    exact (within_bind (Acknowledging.acknowledge (plain_puback _)) fun _ =>
      within_bind (beside_emitDelivery _ _ _ _) fun _ => within_onlyIf beside_modifyInbound).ends

theorem beside_onQos1ManualStored (mid : Nat) :
    Ends relation final (onQos1ManualStored mid) := by
  refine ends_bind within_get.ends fun _ => ends_bind (beside_holdSlot _) fun _ =>
    (within_ite beside_drainManualQos1Acks <| within_bind inward_storeRead fun record => ?_).ends
  cases record with
  | some stored => exact beside_emitMessage _ _
  | none => exact within_bind (within_onlyIf beside_modifyInbound) fun _ => within_throw _

theorem beside_onQos1Manual (arrival : Arrival) : Ends relation final (onQos1Manual arrival) := by
  refine ends_bind (beside_lookupStoredInbound _).ends fun record => ?_
  cases record with
  | some existing => exact ends_ite (beside_onQos1ManualStored _) (beside_disconnecting _ _)
  | none => exact beside_onQos1ManualFresh arrival

theorem beside_dispatchQos (bits : Nat) (arrival : Arrival) :
    Ends relation final (dispatchQos bits arrival) :=
  ends_ite
    (ends_bind within_get.ends fun _ => ends_ite (beside_onQos1Manual _) (beside_onQos1Auto _))
    (beside_onQos2 _)

theorem beside_handlePublish (raw : RawPacket) : Ends relation final (handlePublish raw) := by
  refine ends_bind within_get.ends fun engine => ends_ite ?_ ?_
  · refine ends_ite ?_ <| ends_ite (within_throw _).ends <|
      ends_bind within_fromExcept.ends fun _ =>
      ends_bind (beside_resolveArrival _ _ _) fun _ => beside_dispatchQos _ _
    exact ends_bind within_fromExcept.ends fun _ =>
      ends_bind (beside_resolveArrival _ _ _) fun _ => (beside_emitDelivery _ _ _ _).ends
  · exact ends_ite
      (ends_bind within_fromExcept.ends fun _ => Within.ends (Inward.deliver trivial))
      (ends_ite (within_throw _).ends <| ends_bind within_fromExcept.ends fun _ =>
        beside_dispatchQos _ _)

end

/-! Steps that also change the topic aliases or the negotiated limits -/

/-- A relation that knows nothing of the connection's aliases and limits. -/
class Heedless (relation : Engine → Engine → Prop) : Prop extends Onlooker relation where
  quiet : ∀ {before after}, Quiet Effect.Unsent before after → relation before after

section

variable {relation : Engine → Engine → Prop} [Heedless relation]

theorem quiet_silent {before after : Engine} (store : after.store = before.store)
    (outbound : after.outbound = { before.outbound with topicAliases := after.outbound.topicAliases })
    (subs : after.pendingSubRequests = before.pendingSubRequests)
    (config : after.config = before.config) (effects : after.effects = before.effects)
    (state : after.state = .connected → before.state = .connected) :
    Quiet Effect.Unsent before after :=
  ⟨by rw [store], by rw [store], by rw [store], by rw [store], outbound, subs, config,
    ⟨[], by simp [effects], by simp⟩, state⟩

theorem heedless_modify {change : Engine → Engine}
    (quiet : ∀ engine, Quiet Effect.Unsent engine (change engine)) :
    Within relation (modify change : EngineM PUnit) :=
  fun engine => Heedless.quiet (quiet engine)

theorem heedless_beginConnect : Within relation beginConnect :=
  within_bind within_get fun _ => within_bind within_raiseIf fun _ =>
    within_bind within_fromExcept fun _ =>
    within_bind (heedless_modify fun _ => quiet_silent rfl rfl rfl rfl rfl nofun) fun _ =>
    within_bind beside_modifyInbound fun _ =>
    within_bind (heedless_modify fun _ => quiet_silent rfl rfl rfl rfl rfl id) fun _ => within_pure _

theorem heedless_modifyAliases {change : OutboundSession → OutboundSession}
    (aliases : ∀ outbound,
      change outbound = { outbound with topicAliases := (change outbound).topicAliases }) :
    Within relation (modifyOutbound change) :=
  heedless_modify fun _ => quiet_silent rfl (aliases _) rfl rfl rfl id

theorem heedless_commitTopicAlias (topic : Text) (properties : Option Properties) :
    Within relation (Outbound.commitTopicAlias topic properties) := by
  refine within_bind within_fromExcept fun number => ?_
  cases number with
  | none => exact within_pure _
  | some number => exact within_onlyIf (heedless_modifyAliases fun _ => rfl)

theorem heedless_notifyTransportClosed : Within relation notifyTransportClosed :=
  within_bind within_get fun _ => within_bind beside_enterDisconnected fun _ =>
    within_bind (heedless_modifyAliases fun _ => rfl) fun _ =>
    within_bind beside_transportClosed fun _ => within_bind Onlooker.endSubs fun _ =>
    within_onlyIf (beside_emit trivial)

theorem heedless_negotiate (properties : Option Properties) :
    Within relation (negotiate properties) := by
  refine within_bind (heedless_modify fun _ => quiet_silent rfl rfl rfl rfl rfl id) fun _ =>
    within_bind within_get fun engine => ?_
  cases engine.negotiated.maximumPacketSize with
  | none => exact within_pure _
  | some limit =>
    exact within_onlyIf (within_bind beside_enterDisconnected fun _ => within_throw _)

end

end Mqttium
