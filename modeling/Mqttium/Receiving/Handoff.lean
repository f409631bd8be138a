import Mqttium.Receiving.Commands

/-! The slots and identifiers that acknowledgements in the effect batch still own. -/

namespace Mqttium

open Codec Library Packets Persistence Protocol Inbound

/-! Occupancy -/

/-- The part of the inbound direction that counts slots. -/
def Protocol.InboundSession.ownership (inbound : InboundSession) :
    (Finset Nat × Finset Nat × Finset Nat) × Nat × Bool × Nat :=
  ((inbound.currentPersistedMids, inbound.pendingAutoQos1Mids, inbound.pendingPubcomps),
    inbound.pendingPubcompSlots, inbound.autoackHandoffRequired, inbound.receiveMaximum)

/-- Unless a handoff is required, acknowledgements in the batch leave room for one more. -/
structure Balanced (limit : Nat) (inbound : InboundSession) : Prop where
  slots : inbound.pendingPubcomps = ∅ → inbound.pendingPubcompSlots = 0
  room : inbound.autoackHandoffRequired = true ∨
    (inbound.pendingAutoQos1Mids = ∅ ∧ inbound.pendingPubcompSlots = 0) ∨
    inflight inbound < inbound.receiveMaximum
  raised : inbound.autoackHandoffRequired = true →
    inbound.pendingAutoQos1Mids ≠ ∅ ∨ inbound.pendingPubcomps ≠ ∅
  announced : inbound.receiveMaximum = limit

/-- The session with one slot reserved, its owner not yet recorded. -/
def Protocol.InboundSession.reserving (inbound : InboundSession) (bytes : Nat) : InboundSession :=
  { inbound with
    autoackHandoffRequired := inbound.autoackHandoffRequired ||
      decide (inbound.receiveMaximum ≤ inflight inbound + 1 ∧
        (inbound.pendingAutoQos1Mids ≠ ∅ ∨ inbound.pendingPubcomps ≠ ∅))
    pendingBytes := bytes }

section

variable {limit : Nat} {inbound after : InboundSession}

theorem Balanced.same (balanced : Balanced limit inbound)
    (same : after.ownership = inbound.ownership) : Balanced limit after := by
  simp only [InboundSession.ownership, Prod.mk.injEq] at same
  obtain ⟨⟨current, auto, pubcomps⟩, slots, flag, maximum⟩ := same
  constructor
  · rw [pubcomps, slots]
    exact balanced.slots
  · rw [inflight, current, auto, slots, flag, maximum]
    exact balanced.room
  · rw [flag, auto, pubcomps]
    exact balanced.raised
  · rw [maximum]
    exact balanced.announced

/-- Slots of the batch alone cannot exhaust the window. -/
theorem Balanced.exhausted (balanced : Balanced limit inbound)
    (unflagged : inbound.autoackHandoffRequired = false)
    (full : inbound.receiveMaximum ≤ inflight inbound) :
    limit ≤ inbound.currentPersistedMids.card := by
  rcases balanced.room with flagged | ⟨auto, slots⟩ | room
  · rw [flagged] at unflagged
    cases unflagged
  · rw [← balanced.announced]
    simpa [inflight, auto, slots] using full
  · omega

theorem Balanced.reserve (balanced : Balanced limit inbound) (bytes : Nat) :
    Balanced limit (inbound.reserving bytes) where
  slots := balanced.slots
  room := by
    rcases balanced.room with flagged | room
    · left
      simp [InboundSession.reserving, flagged]
    · exact .inr room
  raised flagged := by
    rcases Bool.or_eq_true_iff.mp flagged with before | fresh
    · exact balanced.raised before
    · exact (of_decide_eq_true fresh).2
  announced := balanced.announced

/-- What owns a slot in the batch while none is required to be handed over. -/
theorem Balanced.idle_or_flagged (balanced : Balanced limit inbound) (bytes : Nat)
    (full : inbound.receiveMaximum ≤ inflight inbound + 1) :
    (inbound.reserving bytes).autoackHandoffRequired = true ∨
      inbound.pendingAutoQos1Mids = ∅ ∧ inbound.pendingPubcompSlots = 0 := by
  by_cases auto : inbound.pendingAutoQos1Mids = ∅
  · by_cases pubcomps : inbound.pendingPubcomps = ∅
    · exact .inr ⟨auto, balanced.slots pubcomps⟩
    · left
      simp [InboundSession.reserving, full, pubcomps]
  · left
    simp [InboundSession.reserving, full, auto]

/-- The reserved slot belongs to a stored exchange. -/
theorem Balanced.hold (balanced : Balanced limit inbound) (bytes mid : Nat) :
    Balanced limit { inbound.reserving bytes with
      currentPersistedMids := insert mid inbound.currentPersistedMids } where
  slots := balanced.slots
  room := by
    by_cases full : inbound.receiveMaximum ≤ inflight inbound + 1
    · rcases balanced.idle_or_flagged bytes full with flagged | idle
      · exact .inl flagged
      · exact .inr (.inl idle)
    · right
      right
      have grown := Finset.card_insert_le mid inbound.currentPersistedMids
      simp only [inflight, InboundSession.reserving] at full ⊢
      omega
  raised := (balanced.reserve bytes).raised
  announced := balanced.announced

/-- The reserved slot belongs to a PUBACK in the batch. -/
theorem Balanced.promise (balanced : Balanced limit inbound) (bytes released mid : Nat) :
    Balanced limit { inbound.reserving bytes with
      pendingBytes := released
      pendingAutoQos1Mids := insert mid inbound.pendingAutoQos1Mids
      autoackHandoffRequired := (inbound.reserving bytes).autoackHandoffRequired ||
        decide (inbound.receiveMaximum ≤ inflight inbound + 1) } where
  slots := balanced.slots
  room := by
    by_cases full : inbound.receiveMaximum ≤ inflight inbound + 1
    · left
      simp [full]
    · right
      right
      have grown := Finset.card_insert_le mid inbound.pendingAutoQos1Mids
      simp only [inflight, InboundSession.reserving] at full ⊢
      omega
  raised _ := .inl (Finset.insert_ne_empty _ _)
  announced := balanced.announced

/-- A slot is given back. -/
theorem Balanced.erase (balanced : Balanced limit inbound) (mid : Nat) :
    Balanced limit { inbound with
      currentPersistedMids := inbound.currentPersistedMids.erase mid } where
  slots := balanced.slots
  room := by
    rcases balanced.room with flagged | idle | room
    · exact .inl flagged
    · exact .inr (.inl idle)
    · right
      right
      have fewer := Finset.card_erase_le (s := inbound.currentPersistedMids) (a := mid)
      simp only [inflight] at room ⊢
      omega
  raised := balanced.raised
  announced := balanced.announced

/-- An identifier is owned until its PUBCOMP leaves. -/
theorem Balanced.park (balanced : Balanced limit inbound) (mid : Nat) :
    Balanced limit { inbound with
      pendingPubcomps := insert mid inbound.pendingPubcomps } where
  slots none := absurd none (Finset.insert_ne_empty _ _)
  room := balanced.room
  raised _ := .inr (Finset.insert_ne_empty _ _)
  announced := balanced.announced

/-- And the slot with it. -/
theorem Balanced.move (balanced : Balanced limit inbound) (mid : Nat) :
    let moved := { inbound with
      pendingPubcomps := insert mid inbound.pendingPubcomps
      currentPersistedMids := inbound.currentPersistedMids.erase mid
      pendingPubcompSlots := inbound.pendingPubcompSlots + 1 }
    Balanced limit { moved with
      autoackHandoffRequired := moved.autoackHandoffRequired ||
        decide (moved.receiveMaximum ≤ inflight moved) } where
  slots none := absurd none (Finset.insert_ne_empty _ _)
  room := by
    by_cases full : inbound.receiveMaximum ≤ (inbound.currentPersistedMids.erase mid).card +
        inbound.pendingAutoQos1Mids.card + (inbound.pendingPubcompSlots + 1)
    · left
      simp [inflight, full]
    · right
      right
      exact Nat.lt_of_not_le full
  raised _ := .inr (Finset.insert_ne_empty _ _)
  announced := balanced.announced

end

/-! Steps -/

/-- The announcement that Receive Maximum is exceeded. -/
def refusal : Effect := .disconnected 0x93 none false

/-- The slots are balanced, and an identifier whose PUBCOMP waits has no row. -/
structure Handed (engine : Engine) : Prop where
  balanced : Balanced engine.config.maxInboundInflight engine.inbound
  gone : ∀ mid ∈ engine.inbound.pendingPubcomps, engine.store.inbound.get? mid = none

/-- The identifier has a row in one of the phases that own it. -/
def Persistence.Store.owns (store : Store) (owning : Nat → InboundQoSState → Prop) (mid : Nat) : Prop :=
  ∃ row, store.inbound.get? mid = some row ∧ owning mid row.message.state

/-- The bookkeeping stays balanced. If `holding`, the identifiers of the batch stay in it, and a row
in a phase of `owning` stays in one unless its PUBCOMP is in the batch. A refusal for Receive
Maximum happens only if the window was `full`. -/
structure Hands (owning : Nat → InboundQoSState → Prop) (holding full : Prop)
    (before after : Engine) : Prop where
  config : after.config = before.config
  handed : Handed before → Handed after
  owned : holding → ∀ mid, before.store.owns owning mid →
    mid ∈ after.inbound.pendingPubcomps ∨ after.store.owns owning mid
  held : holding → ∀ mid ∈ before.inbound.pendingPubcomps, mid ∈ after.inbound.pendingPubcomps
  effects : ∃ fresh, after.effects = before.effects ++ fresh ∧ (refusal ∈ fresh → full)

section

variable {owning : Nat → InboundQoSState → Prop} {holding full : Prop} {before after : Engine}

instance : IsPreorder Engine (Hands owning holding full) where
  refl _ := ⟨rfl, id, fun _ _ => .inr, fun _ _ => id, [], by simp, by simp⟩
  trans _ _ _ first second := by
    obtain ⟨early, grown, refused⟩ := first.effects
    obtain ⟨late, grownMore, refusedMore⟩ := second.effects
    exact {
      config := second.config.trans first.config
      handed := fun handed => second.handed (first.handed handed)
      owned := fun holds mid owns =>
        (first.owned holds mid owns).elim (fun parked => .inl (second.held holds mid parked))
          (second.owned holds mid)
      held := fun holds mid member => second.held holds mid (first.held holds mid member)
      effects := ⟨early ++ late, by rw [grownMore, grown, List.append_assoc],
        fun member => (List.mem_append.mp member).elim refused refusedMore⟩ }

/-- What raises may leave an identifier without an owner. -/
theorem Hands.lift (moved : Hands owning holding full before after) :
    Hands (fun _ _ => False) holding full before after :=
  { moved with owned := fun _ _ ⟨_, _, impossible⟩ => impossible.elim }

instance : Ending (Hands owning holding full) (Hands (fun _ _ => False) holding full) where
  lift := Hands.lift
  after first second := IsTrans.trans _ _ _ first.lift second

theorem Hands.quiet (config : after.config = before.config)
    (rows : after.store.inbound = before.store.inbound)
    (same : after.inbound.ownership = before.inbound.ownership)
    (effects : ∃ fresh, after.effects = before.effects ++ fresh ∧ (refusal ∈ fresh → full)) :
    Hands owning holding full before after := by
  have pubcomps : after.inbound.pendingPubcomps = before.inbound.pendingPubcomps :=
    congrArg (·.1.2.2) same
  refine ⟨config, fun handed => ⟨?_, ?_⟩, fun _ mid owns => .inr ?_, fun _ mid member => ?_, effects⟩
  · rw [config]
    exact handed.balanced.same same
  · rw [pubcomps, rows]
    exact handed.gone
  · unfold Store.owns at *
    rw [rows]
    exact owns
  · rw [pubcomps]
    exact member

theorem Hands.silent (config : after.config = before.config)
    (rows : after.store.inbound = before.store.inbound)
    (same : after.inbound.ownership = before.inbound.ownership)
    (effects : after.effects = before.effects) : Hands owning holding full before after :=
  .quiet config rows same ⟨[], by simp [effects], by simp⟩

theorem hands_emit {effect : Effect} (other : effect ≠ refusal) :
    Within (Hands owning holding full) (emit effect) :=
  fun _ => .quiet rfl rfl rfl ⟨[effect], rfl, fun member =>
    absurd (List.mem_singleton.mp member).symm other⟩

theorem hands_modifyInbound {change : InboundSession → InboundSession}
    (same : ∀ inbound, (change inbound).ownership = inbound.ownership) :
    Within (Hands owning holding full) (modifyInbound change) :=
  fun engine => .silent rfl rfl (same engine.inbound) rfl

/-- The rows in the phases of `owning` stay, and no identifier in `free` gets one. -/
structure Spares (owning : Nat → InboundQoSState → Prop) (free : Finset Nat)
    (before after : Store) : Prop where
  adds : ∀ mid ∈ free, before.inbound.get? mid = none → after.inbound.get? mid = none
  keeps : ∀ mid, before.owns owning mid → after.owns owning mid

theorem Spares.hands {engine : Engine} {store : Store}
    (spares : Spares owning engine.inbound.pendingPubcomps engine.store store) :
    Hands owning holding full engine { engine with store } := by
  refine ⟨rfl, fun handed => ⟨handed.balanced, fun mid member => ?_⟩, fun _ mid owns => ?_,
    fun _ _ member => member, [], by simp, by simp⟩
  · exact spares.adds mid member (handed.gone mid member)
  · exact .inr (spares.keeps mid owns)

theorem sat_storeCall_spares {Value : Type} {call : StoreCall} {run : Store → Value × Store}
    {engine : Engine} {free : Finset Nat} {holds : Value → Store → Prop}
    (ran : ∀ store : Store, store.inbound = engine.store.inbound →
      holds (run store).1 (run store).2 ∧ Spares owning free store (run store).2) :
    Sat (storeCall call run) engine
      (fun value after => ∃ store, after = { engine with store } ∧ holds value store ∧
        Spares owning free engine.store store)
      (fun _ after => ∃ store, after = { engine with store } ∧
        Spares owning free engine.store store) := by
  obtain ⟨faults, rest, -⟩ := nextFault_rest engine.store call
  simp only [storeCall, sat_bind, sat_get]
  cases next : engine.store.nextFault call with
  | mk fault store =>
    rw [next] at rest
    change store = _ at rest
    subst rest
    obtain ⟨holds, spares⟩ := ran { engine.store with faults } rfl
    cases fault with
    | none => exact ⟨_, rfl, holds, spares.adds, spares.keeps⟩
    | some fault =>
      cases fault with
      | beforeEffect => exact ⟨_, rfl, fun _ _ => id, fun _ => id⟩
      | afterEffect => exact ⟨_, rfl, spares.adds, spares.keeps⟩

/-- A call of the store that adds no row, and removes none of an exchange that owns. -/
theorem hands_storeCall {Value : Type} {call : StoreCall} {run : Store → Value × Store}
    {holds : Value → Prop} (given : ∀ store, holds (run store).1)
    (spares : ∀ store free, Spares owning free store (run store).2) :
    Yields holds (Hands owning holding full) (storeCall call run) := by
  refine yields_of_sat fun engine => ?_
  have spared := @sat_storeCall_spares owning Value call run engine engine.inbound.pendingPubcomps
    (fun value _ => holds value) fun store _ => ⟨given store, spares store _⟩
  apply spared.mono
  · rintro _ _ ⟨store, rfl, holds, spares⟩
    exact ⟨holds, spares.hands⟩
  · rintro _ _ ⟨store, rfl, spares⟩
    exact spares.hands

theorem hands_storeRead {Value : Type} {call : StoreCall} {read : Store → Value} :
    Within (Hands owning holding full) (storeRead call read) := by
  have yields : Yields (fun _ => True) (Hands owning holding full) (storeRead call read) :=
    hands_storeCall (fun _ => trivial) fun _ _ => ⟨fun _ _ => id, fun _ => id⟩
  exact yields.within

theorem hands_protocolDisconnect {reasonCode : Nat} (fine : reasonCode = 0x93 → full) :
    Within (Hands owning holding full) (protocolDisconnect reasonCode) := by
  intro engine
  simp only [protocolDisconnect, sat_bind, sat_get]
  apply (announces engine reasonCode).mono
  · rintro _ _ ⟨sent, rfl, spoken⟩
    simp only [enterDisconnected, sat_modify]
    apply sat_releasePendingSubscriptionRequests
    intro pool subs
    rw [sat_emit]
    refine .quiet rfl rfl rfl ⟨sent ++ [.disconnected reasonCode none false], by simp, fun member => ?_⟩
    apply fine
    rcases spoken with rfl | ⟨item, rfl, _⟩
    · simpa [refusal, eq_comm] using member
    · simpa [refusal, eq_comm] using member
  · rintro _ _ rfl
    exact Std.Refl.refl _

end

/-! The outbound direction and the connection -/

section

variable {owning : Nat → InboundQoSState → Prop} {holding : Prop}

instance : Standby (Hands owning holding True) where
  remote still inbound store := by
    obtain ⟨fresh, grown, -⟩ := still.quiet.effects
    exact .quiet still.quiet.config (by rw [store]) (by rw [inbound]) ⟨fresh, grown, fun _ => trivial⟩
  read _ _ := hands_storeRead
  endSubs _ := sat_releasePendingSubscriptionRequests fun _ _ => .silent rfl rfl rfl rfl

theorem hands_announce (effect : Effect) : Within (Hands owning holding True) (emit effect) :=
  fun _ => .quiet rfl rfl rfl ⟨[effect], rfl, fun _ => trivial⟩

instance : Speaking (Hands owning holding True) where
  speak _ := hands_announce _

instance : Outward (Hands owning holding True) where
  good := fun _ => True
  facts _ _ later := fun engine => later engine (honest_any engine) engine
  session _ _ := .silent rfl rfl rfl rfl
  store apart caches := hands_storeCall (fun store => (caches store (honest_any_store store)).1)
    fun store _ => ⟨fun _ _ none => by rwa [apart.rows store], fun _ stored => by
      unfold Store.owns at *
      rwa [apart.rows store]⟩
  assign apart _ _ := .silent rfl (apart.rows _) rfl rfl
  subs _ := within_modify fun _ => .silent rfl rfl rfl rfl
  report _ := hands_announce _

instance : Sending (Hands owning holding True) where
  sendable := inferInstanceAs (Sendable fun _ => True)
  send _ := hands_announce _

instance : Parting (Hands owning holding True) (Hands owning holding True) where
  goodbye _ := hands_protocolDisconnect fun _ => trivial

end

/-! Slots -/

section

variable {owning : Nat → InboundQoSState → Prop} {holding full : Prop} {engine : Engine}

theorem Hands.rebalance {inbound : InboundSession}
    (balanced : ∀ limit, Balanced limit engine.inbound → Balanced limit inbound)
    (pubcomps : inbound.pendingPubcomps = engine.inbound.pendingPubcomps) :
    Hands owning holding full engine { engine with inbound } := by
  refine ⟨rfl, fun handed => ⟨balanced _ handed.balanced, fun mid member => ?_⟩, fun _ mid => .inr,
    fun _ mid member => ?_, [], by simp, by simp⟩
  · exact handed.gone mid (pubcomps ▸ member)
  · simp only [pubcomps]
    exact member

theorem hands_reserving (bytes : Nat) :
    Hands owning holding full engine { engine with inbound := engine.inbound.reserving bytes } :=
  .rebalance (fun _ balanced => balanced.reserve bytes) rfl

/-- One slot is reserved, or PUBLISH is refused and the window was full. -/
theorem sat_acquireSlot (size : Option Nat)
    (poised : engine.inbound.receiveMaximum ≤ inflight engine.inbound → full) :
    Sat (acquireSlot size) engine
      (fun occupied after => occupied = inflight engine.inbound + 1 ∧
        ∃ bytes, after = { engine with inbound := engine.inbound.reserving bytes })
      (fun _ => Hands owning holding full engine) := by
  have disconnects (reasonCode : Nat) (failure : Failure) (fine : reasonCode = 0x93 → full) :
      Sat (do protocolDisconnect reasonCode; throw failure : EngineM PUnit) engine
        (fun _ _ => False) (fun _ => Hands owning holding full engine) := by
    rw [sat_bind]
    exact (hands_protocolDisconnect fine engine).mono (fun _ _ moved => moved) fun _ _ moved => moved
  simp only [acquireSlot, sat_bind, sat_get, sat_onlyIf, sat_modifyInbound, sat_pure]
  refine ⟨fun exceeded => ?_, fun _ => ⟨fun heavy => ?_, fun _ => ⟨trivial, _, rfl⟩⟩⟩
  · have refuses := disconnects 0x93 (.protocol "Receive Maximum exceeded") fun _ => poised exceeded
    rw [sat_bind] at refuses
    exact refuses.mono (fun _ _ moved => moved) fun _ _ moved => moved
  · have refuses := disconnects 0x97 (.protocol "Pending inbound byte limit reached")
      fun same => absurd same (by decide)
    rw [sat_bind] at refuses
    exact refuses.mono (fun _ _ moved => moved) fun _ _ moved => moved

theorem hands_holdSlot (mid : Nat)
    (poised : engine.inbound.receiveMaximum ≤ inflight engine.inbound → full) :
    Sat (holdSlot mid) engine (fun _ => Hands owning holding full engine)
      (fun _ => Hands owning holding full engine) := by
  simp only [holdSlot, sat_bind, sat_get, sat_onlyIf, sat_discard]
  refine ⟨fun _ => ?_, fun _ => Std.Refl.refl engine⟩
  apply (sat_acquireSlot none poised).mono
  · rintro _ _ ⟨-, bytes, rfl⟩
    rw [sat_modifyInbound]
    exact .rebalance (fun _ balanced => balanced.hold bytes mid) rfl
  · exact fun _ _ moved => moved

end

/-! Rows -/

section

variable {owning : Nat → InboundQoSState → Prop} {free : Finset Nat} {store : Store} {mid : Nat}

theorem Spares.refl (store : Store) : Spares owning free store store :=
  ⟨fun _ _ => id, fun _ => id⟩

theorem spares_setIn {change : InboundMessage → InboundMessage}
    (keeps : ∀ row, store.inbound.get? mid = some row → owning mid row.message.state →
      owning mid (change row.message).state) : Spares owning free store (store.setIn mid change) where
  adds other _ none := by
    simp only [Store.setIn, Dict.get?_modify]
    split
    · rename_i same
      rw [← same, none]
      rfl
    · exact none
  keeps other stored := by
    obtain ⟨row, found, phase⟩ := stored
    simp only [Store.owns, Store.setIn, Dict.get?_modify]
    split
    · rename_i same
      subst same
      rw [found]
      exact ⟨_, rfl, keeps row found phase⟩
    · exact ⟨row, found, phase⟩

theorem spares_markInDelivered : Spares owning free store (store.markInDelivered mid).2 := by
  unfold Store.markInDelivered
  split
  · split
    · exact .refl store
    · exact @spares_setIn owning free store mid (fun stored => { stored with delivered := true })
        fun _ _ phase => phase
  · exact .refl store

theorem spares_transitionIn {expected next : InboundQoSState} {userAcked : Option Bool}
    (enters : owning mid next) :
    Spares owning free store (store.transitionIn mid expected next userAcked).2 := by
  unfold Store.transitionIn
  split
  · split
    · rename_i message _ _
      exact @spares_setIn owning free store mid (fun _ => { message with
        state := next, userAcked := userAcked.getD message.userAcked }) fun _ _ _ => enters
    · exact .refl store
  · exact .refl store

/-- Where the phase of the row owns nothing, or only what is not `mid` has to stay. -/
theorem spares_completeIn {expected : InboundQoSState} (idle : ¬ owning mid expected) :
    Spares owning free store (store.completeIn mid expected).2 ∧
      ((store.completeIn mid expected).1 ≠ none →
        (store.completeIn mid expected).2.inbound.get? mid = none) := by
  unfold Store.completeIn
  cases found : store.inMessage? mid with
  | none => exact ⟨.refl store, fun some => absurd rfl some⟩
  | some message =>
    by_cases phase : message.state = expected
    · simp only [phase, ↓reduceIte]
      refine ⟨⟨fun other _ none => ?_, fun other stored => ?_⟩, fun _ => Dict.get?_erase_self _ _⟩
      · by_cases same : other = mid
        · rw [same, Dict.get?_erase_self]
        · rw [Dict.get?_erase_of_ne same, none]
      · obtain ⟨row, present, owns⟩ := stored
        by_cases same : other = mid
        · subst same
          have read : message = row.message := by
            simpa [Store.inMessage?, present] using found.symm
          rw [read] at phase
          exact absurd (phase ▸ owns) idle
        · exact ⟨row, by rw [Dict.get?_erase_of_ne same, present], owns⟩
    · simp only [phase, ↓reduceIte]
      exact ⟨.refl store, fun some => absurd rfl some⟩

/-- A row is stored under an identifier that is not free to take. -/
theorem spares_putIn {message : InboundMessage} (taken : message.mid ∉ free)
    (phase : store.owns owning message.mid → owning message.mid message.state) :
    Spares owning free store (store.putIn message) := by
  have inserted (row : InRow) (same : row.message = message) :
      Spares owning free store { store with
        inbound := store.inbound.insert message.mid row, inSeq := store.inSeq + 1 } := by
    refine ⟨fun other member none => ?_, fun other stored => ?_⟩
    · have different : other ≠ message.mid := fun equal => taken (equal ▸ member)
      rw [Dict.get?_insert_of_ne _ different, none]
    · by_cases equal : other = message.mid
      · subst equal
        exact ⟨row, Dict.get?_insert_self _ _ _, same ▸ phase stored⟩
      · unfold Store.owns
        rw [Dict.get?_insert_of_ne _ equal]
        exact stored
  unfold Store.putIn
  split
  · exact inserted _ rfl
  · exact inserted _ rfl

end

end Mqttium
