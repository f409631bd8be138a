import Mqttium.Receiving.Bookkeeping

/-! The inbound operations keep the bookkeeping in agreement with the store. -/

namespace Mqttium

open Codec Library Packets Persistence Protocol Inbound

/-- The store may have used up a fault. -/
def Scripted (before after : Engine) : Prop :=
  ∃ faults, before.store.Leaves faults ∧
    after = { before with store := { before.store with faults } }

theorem Scripted.apart {before after : Engine} (scripted : Scripted before after) :
    Apart before after := by
  obtain ⟨faults, fine, rfl⟩ := scripted
  exact ⟨rfl, rfl, rfl, rfl, fun _ => fine⟩

theorem Scripted.same {before after : Engine} (scripted : Scripted before after)
    (reliable : before.store.Reliable) : after = before := by
  obtain ⟨faults, fine, rfl⟩ := scripted
  have quiet : faults = before.store.faults :=
    funext fun call => (fine.reliable reliable call).trans (reliable call).symm
  rw [quiet]

section

variable {moves : Engine → Engine → Prop} {engine : Engine} {mid : Nat} {row : InRow} {Value : Type}

/-- From here the program keeps the bookkeeping and stays within `moves`. -/
abbrev Settles (moves : Engine → Engine → Prop) (program : EngineM Value) (engine : Engine) : Prop :=
  Sat program engine (fun _ after => after.kept ∧ moves engine after)
    (fun _ after => after.kept ∧ moves engine after)

theorem keeps_of_settles {program : EngineM Value}
    (settles : ∀ engine, engine.kept → Settles moves program engine) :
    Within (Keeps moves) program :=
  within_guarded settles

theorem Library.Within.settles {program : EngineM Value} (within : Within (Keeps moves) program)
    (kept : engine.kept) : Settles moves program engine :=
  (within engine).mono (fun _ _ done => done kept) (fun _ _ done => done kept)

theorem Settles.from [IsPreorder Engine moves] {program : EngineM Value} {between : Engine}
    (settles : Settles moves program between) (moved : moves engine between) :
    Sat program between (fun _ after => after.kept ∧ moves engine after)
      (fun _ after => after.kept ∧ moves engine after) :=
  settles.mono (fun _ _ done => ⟨done.1, IsTrans.trans _ _ _ moved done.2⟩)
    (fun _ _ done => ⟨done.1, IsTrans.trans _ _ _ moved done.2⟩)

/-! Changes beside the exchanges -/

theorem Sheds.drifts {change : InboundSession} (sheds : Sheds engine.inbound change) :
    Drifts engine { engine with inbound := change } := by
  have same : Engine.exchanges { engine with inbound := change } = engine.exchanges :=
    sheds.exchanges
  exact ⟨rfl, same ▸ .refl, id⟩

theorem Sheds.shrinks {change : InboundSession} (sheds : Sheds engine.inbound change) :
    Shrinks engine { engine with inbound := change } :=
  ⟨sheds.drifts, .refl _, sheds.acked,
    fun mid _ => sheds.current mid⟩

theorem Sheds.rests {change : InboundSession} (sheds : Sheds engine.inbound change)
    (acked : change.pendingManualQos1Acks = engine.inbound.pendingManualQos1Acks) :
    Rests engine { engine with inbound := change } :=
  ⟨sheds.drifts, rfl, acked,
    fun mid _ => sheds.current mid⟩

theorem keeps_give [Yielding moves] {change : InboundSession → InboundSession}
    (sheds : ∀ inbound, Sheds inbound (change inbound)) :
    Within (Keeps moves) (modifyInbound change) :=
  fun _ kept => ⟨Kept.sheds kept (sheds _), Yielding.shrinks (sheds _).shrinks⟩

variable [Calming moves]

theorem keeps_adjust {change : InboundSession → InboundSession}
    (sheds : ∀ inbound, Sheds inbound (change inbound))
    (acked : ∀ inbound, (change inbound).pendingManualQos1Acks = inbound.pendingManualQos1Acks) :
    Within (Keeps moves) (modifyInbound change) :=
  fun _ kept => ⟨Kept.sheds kept (sheds _), Calming.rests ((sheds _).rests (acked _))⟩

theorem keeps_freshToken (bare : engine.inbound.exchangeTokens.get? mid = none)
    (kept : engine.kept) : Settles moves (freshToken mid) engine := by
  obtain ⟨issued, move⟩ := Kept.issue kept bare
  exact ⟨issued, Calming.rests ⟨⟨rfl, .single move, id⟩, rfl, rfl, fun _ _ => id⟩⟩

theorem keeps_exchangeToken (mid : Nat) : Within (Keeps moves) (exchangeToken mid) := by
  refine keeps_of_settles fun engine kept => ?_
  simp only [exchangeToken, Settles, sat_bind, sat_get]
  cases found : engine.inbound.exchangeTokens.get? mid with
  | some token => exact ⟨kept, Std.Refl.refl _⟩
  | none => exact keeps_freshToken found kept

theorem keeps_emitDelivery (message : Message) (marked : Bool) (size : Option Nat)
    (token : Option Token) : Within (Keeps moves) (emitDelivery message marked size token) := by
  cases size with
  | none => exact keeps_emit _
  | some size => exact keeps_emit _

theorem keeps_bindAckToken (mid : Nat) (message : Message) :
    Within (Keeps moves) (bindAckToken mid message) :=
  within_bind within_get fun _ => within_ite
    (within_bind (keeps_exchangeToken mid) fun _ => within_pure _) (within_pure _)

theorem keeps_emitMessage (stored : InboundMessage) (dup : Bool) :
    Within (Keeps moves) (emitMessage stored dup) :=
  within_bind (keeps_bindAckToken _ _) fun _ =>
    within_bind (keeps_exchangeToken _) fun _ => keeps_emit _

/-! Replay -/

theorem keeps_nextPage (groups : List (List Nat)) : Within (Keeps moves) (nextPage groups) := by
  induction groups with
  | nil => exact within_pure _
  | cons mids rest ih =>
    refine within_bind beside_storeRead fun page => ?_
    cases page with
    | nil => exact ih
    | cons row more => exact within_pure _

theorem keeps_turnReplay {change : InboundSession → InboundSession}
    (same : ∀ inbound, ∃ replay recovered,
      change inbound = { inbound with replay, recoveredMids := recovered }) :
    Within (Keeps moves) (modifyInbound change) := by
  refine keeps_adjust (fun inbound => ?_) fun inbound => ?_
  · obtain ⟨replay, recovered, exactly⟩ := same inbound
    rw [exactly]
    exact ⟨rfl, rfl, rfl, rfl, rfl, fun _ => id, fun _ => id, fun _ => id⟩
  · obtain ⟨replay, recovered, exactly⟩ := same inbound
    rw [exactly]

theorem keeps_beginPage (cursor : InboundReplayCursor) :
    Within (Keeps moves) (beginPage cursor) := by
  refine within_ite (within_pure _) <| within_bind (keeps_turnReplay fun _ => ⟨_, _, rfl⟩) fun _ =>
    within_bind (keeps_nextPage _) fun found => ?_
  cases found with
  | none => exact within_pure _
  | some page => exact within_pure _

theorem keeps_replayFor (fuel : Nat) (cursor : InboundReplayCursor) (emitted bytes : Nat) :
    Within (Keeps moves) (replayFor fuel cursor emitted bytes) := by
  induction fuel generalizing cursor emitted bytes with
  | zero => exact within_pure _
  | succ fuel ih =>
    refine within_ite (within_pure _) ?_
    obtain ⟨taken, rest⟩ := nextPageMessage cursor
    cases taken with
    | none => exact within_pure _
    | some row =>
      exact within_bind within_get fun _ => within_ite (ih _ _ _) <| within_ite (within_pure _) <|
        within_bind (keeps_emitMessage _ _) fun _ => ih _ _ _

theorem keeps_drainReplay : Within (Keeps moves) drainReplay := by
  have ends : Within (Keeps moves) endReplay := keeps_turnReplay fun _ => ⟨_, _, rfl⟩
  refine within_bind within_get fun engine => ?_
  cases engine.inbound.replay with
  | none => exact within_pure _
  | some cursor =>
    refine within_bind (keeps_beginPage _) fun begun => within_ite ?_ ends
    exact within_bind (keeps_replayFor _ _ _ _) fun _ =>
      within_bind (keeps_turnReplay fun _ => ⟨_, _, rfl⟩) fun _ => within_ite ends (keeps_emit _)

end

theorem keeps_replaySession {moves : Engine → Engine → Prop} [Yielding moves] :
    Within (Keeps moves) Inbound.replaySession :=
  within_bind beside_storeRead fun _ =>
    within_bind (keeps_give fun _ => ⟨rfl, rfl, rfl, rfl, rfl, by simp, fun _ => id, fun _ => id⟩)
      fun _ => within_ite
        (keeps_give fun _ => ⟨rfl, rfl, rfl, rfl, rfl, fun _ => id, fun _ => id, fun _ => id⟩) <|
    within_bind within_get fun _ => within_bind
      (keeps_give fun _ => ⟨rfl, rfl, rfl, rfl, rfl, fun _ => id, fun _ => id, fun _ => id⟩) fun _ =>
    keeps_drainReplay

/-! Changes of a row -/

section

variable {moves : Engine → Engine → Prop} [Calming moves] {engine : Engine} {mid : Nat} {row : InRow}

theorem keeps_shareAfter (mid : Nat) : Within (Keeps moves) (shareAfter mid) := by
  refine within_modify fun engine kept => ?_
  cases engine.store.inbound.get? mid with
  | none => exact ⟨kept, Std.Refl.refl _⟩
  | some row =>
    have sheds : Sheds engine.inbound { engine.inbound with
        replay := engine.inbound.replay.map (shareRow engine.store.kind row) } :=
      ⟨rfl, rfl, rfl, rfl, rfl, fun _ => id, fun _ => id, fun _ => id⟩
    exact ⟨Kept.sheds kept sheds, Calming.rests (sheds.rests rfl)⟩

/-- A call of the store that at most changes one row, but neither its size nor whether
it waits for PUBACK. -/
theorem keeps_setIn (mid : Nat) {Value : Type} {call : StoreCall} {run : Store → Value × Store}
    (changes : ∀ store, (run store).2 = store ∨ ∃ change, (run store).2 = store.setIn mid change ∧
      ∀ row, store.inbound.get? mid = some row →
        (change row.message).logicalSize = row.message.logicalSize ∧
        ((change row.message).state = .waitPuback ↔ row.message.state = .waitPuback)) :
    Within (Keeps moves) (storeCall call run) := by
  refine keeps_of_settles fun engine kept => ?_
  apply sat_storeCall_atomic kept.atomic
  · intro faults fine
    have left : Apart engine { engine with store := { engine.store with faults } } :=
      ⟨rfl, rfl, rfl, rfl, fun _ => fine⟩
    have still := left.kept kept
    rcases changes { engine.store with faults } with same | ⟨change, same, stays⟩
    · rw [same]
      exact left.keeps kept
    · rw [same]
      obtain ⟨set, identities⟩ := Kept.setIn still (fun row found => (stays row found).1)
        fun row found => (stays row found).2
      refine ⟨set, Calming.rests ⟨⟨rfl, ?_, fine.reliable⟩, waiting_setIn fun row found => (stays row found).2, rfl,
        fun _ _ => id⟩⟩
      have exactly : Engine.exchanges
          { engine with store := Store.setIn { engine.store with faults } mid change } =
          engine.exchanges := identities
      rw [exactly]
  · intro faults fine _
    have left : Apart engine { engine with store := { engine.store with faults } } :=
      ⟨rfl, rfl, rfl, rfl, fun _ => fine⟩
    exact left.keeps kept

theorem keeps_markRowDelivered (mid : Nat) : Within (Keeps moves) (markRowDelivered mid) := by
  refine within_bind (within_map (keeps_setIn mid fun store => ?_)) fun _ => keeps_shareAfter mid
  unfold Store.markInDelivered
  split
  · split
    · exact .inl rfl
    · exact .inr ⟨fun stored => { stored with delivered := true }, rfl, fun _ _ => ⟨rfl, Iff.rfl⟩⟩
  · exact .inl rfl

theorem keeps_transitionRow {expected next : InboundQoSState} (userAcked : Option Bool)
    (leaves : expected ≠ .waitPuback) (enters : next ≠ .waitPuback) :
    Within (Keeps moves) (transitionRow mid expected next userAcked) := by
  refine within_bind (keeps_setIn mid fun store => ?_) fun _ =>
    within_bind (keeps_shareAfter mid) fun _ => within_pure _
  unfold Store.transitionIn
  cases found : store.inMessage? mid with
  | none => exact .inl rfl
  | some message =>
    dsimp only
    split
    · rename_i phase
      refine .inr ⟨fun _ => { message with
        state := next, userAcked := userAcked.getD message.userAcked }, rfl, fun row present => ?_⟩
      have same : row.message = message := by
        simpa [Store.inMessage?, present] using found
      rw [same]
      exact ⟨rfl, by simp [enters, phase, leaves]⟩
    · exact .inl rfl

end

/-! Slots -/

section

variable {engine : Engine} {mid : Nat} {row : InRow} {message : InboundMessage}

theorem lookupStoredInbound_sat (kept : engine.kept) (mid : Nat) :
    Sat (lookupStoredInbound mid) engine
      (fun record after => Scripted engine after ∧ record = engine.store.inMeta mid)
      (fun _ after => Scripted engine after ∧ ¬ engine.store.Reliable) := by
  have same : Scripted engine engine := ⟨engine.store.faults, kept.atomic.leaves, rfl⟩
  simp only [lookupStoredInbound, sat_bind, sat_get, sat_ite, sat_pure]
  refine ⟨fun empty => ⟨same, ?_⟩, fun _ => ?_⟩
  · have none : engine.store.inbound.get? mid = none := by
      rw [kept.count, Dict.size, List.length_eq_zero_iff] at empty
      simp [Dict.get?, empty]
    simp [Store.inMeta, Store.inMessage?, none]
  · refine sat_storeCall_atomic kept.atomic (fun faults fine => ?_) fun faults fine unreliable => ?_
    · exact ⟨⟨faults, fine, rfl⟩, rfl⟩
    · exact ⟨⟨faults, fine, rfl⟩, unreliable⟩

/-- A slot is taken with its bytes, or the connection ends. -/
theorem acquireSlot_sat (engine : Engine) (size : Option Nat) :
    Sat (acquireSlot size) engine
      (fun _ after => ∃ flag, after = { engine with inbound := { engine.inbound with
        autoackHandoffRequired := flag
        pendingBytes := engine.inbound.pendingBytes + size.getD 0 } })
      (fun _ => Parts engine) := by
  simp only [acquireSlot, sat_bind, sat_get, sat_onlyIf]
  refine ⟨fun _ => (parts_protocolDisconnect engine _).mono (fun _ _ apart => apart)
    (fun _ _ apart => apart), fun _ => ⟨fun _ => (parts_protocolDisconnect engine _).mono
      (fun _ _ apart => apart) (fun _ _ apart => apart), fun _ => ⟨_, rfl⟩⟩⟩

/-- The slot of a stored exchange, taken once on a connection. -/
theorem holdSlot_sat (engine : Engine) (mid : Nat) :
    Sat (holdSlot mid) engine
      (fun _ after => ∃ flag, after = { engine with inbound := { engine.inbound with
        autoackHandoffRequired := flag
        currentPersistedMids := insert mid engine.inbound.currentPersistedMids } })
      (fun _ => Parts engine) := by
  simp only [holdSlot, sat_bind, sat_get, sat_onlyIf, sat_discard]
  refine ⟨fun _ => ?_, fun held => ?_⟩
  · apply (acquireSlot_sat engine none).mono
    · rintro _ _ ⟨flag, rfl⟩
      exact ⟨flag, rfl⟩
    · exact fun _ _ apart => apart
  · refine ⟨engine.inbound.autoackHandoffRequired, ?_⟩
    rw [Finset.insert_eq_of_mem (not_not.mp held)]

/-! Completion -/

/-- The row of `mid` is gone and what it owned is free, but for its place among the
manual acknowledgements. -/
structure Frees (mid size : Nat) (before after : InboundSession) : Prop where
  count : after.storedInbound = before.storedInbound - 1
  bytes : after.pendingBytes = before.pendingBytes - size
  tokens : after.exchangeTokens = before.exchangeTokens.erase mid
  next : after.nextToken = before.nextToken
  current : ∀ other ∈ after.currentPersistedMids, other ∈ before.currentPersistedMids
  completions : after.pendingCompletions = before.pendingCompletions.erase mid
  acked : after.pendingManualQos1Acks = before.pendingManualQos1Acks
  order : after.manualQos1Order = before.manualQos1Order

theorem completeStoredInbound_sat (kept : engine.kept) (mid : Nat) (expected : InboundQoSState)
    (action : String) :
    Sat (completeStoredInbound mid expected action) engine
      (fun size after => ∃ row faults, engine.store.inbound.get? mid = some row ∧
        row.message.state = expected ∧ size = row.message.logicalSize ∧
        engine.store.Leaves faults ∧
        after = { engine with
          store := { engine.store with faults, inbound := engine.store.inbound.erase mid }
          inbound := { engine.inbound with
            exchangeTokens := engine.inbound.exchangeTokens.erase mid
            pendingCompletions := engine.inbound.pendingCompletions.erase mid } })
      (fun _ after => Scripted engine after ∧ (engine.store.Reliable →
        ∀ row, engine.store.inbound.get? mid = some row → row.message.state ≠ expected)) := by
  simp only [completeStoredInbound, sat_bind]
  refine sat_storeCall_atomic kept.atomic (fun faults fine => ?_) fun faults fine unreliable =>
    ⟨⟨faults, fine, rfl⟩, fun reliable => absurd reliable unreliable⟩
  have read : Store.inMessage? { engine.store with faults } mid = engine.store.inMessage? mid := rfl
  unfold Store.completeIn
  rw [read]
  cases found : engine.store.inbound.get? mid with
  | none =>
    have missing : engine.store.inMessage? mid = none := by simp [Store.inMessage?, found]
    simp only [missing]
    exact ⟨⟨faults, fine, rfl⟩, by simp⟩
  | some row =>
    have present : engine.store.inMessage? mid = some row.message := by
      simp [Store.inMessage?, found]
    simp only [present]
    by_cases phase : row.message.state = expected
    · simp only [phase, ↓reduceIte]
      exact ⟨row, faults, rfl, phase, rfl, fine, rfl⟩
    · simp only [phase, ↓reduceIte]
      exact ⟨⟨faults, fine, rfl⟩, by simpa using fun _ => phase⟩

theorem completeQos1_sat (kept : engine.kept) (mid : Nat) :
    Sat (completeQos1 mid) engine
      (fun _ after => ∃ row faults inbound, engine.store.inbound.get? mid = some row ∧
        row.message.state = .waitPuback ∧ engine.store.Leaves faults ∧
        after = { engine with
          store := { engine.store with faults, inbound := engine.store.inbound.erase mid }
          inbound
          effects := engine.effects ++ [.sendAck (encodePubackSuccess mid)] } ∧
        Frees mid row.message.logicalSize engine.inbound inbound)
      (fun _ after => Scripted engine after ∧ (engine.store.Reliable →
        ∀ row, engine.store.inbound.get? mid = some row → row.message.state ≠ .waitPuback)) := by
  simp only [completeQos1, sat_bind]
  apply (completeStoredInbound_sat kept mid .waitPuback "acknowledging").mono
  · rintro _ _ ⟨row, faults, found, phase, rfl, fine, rfl⟩
    have counted : engine.inbound.storedInbound ≠ 0 := by
      rw [kept.count, Dict.size]
      exact (List.length_pos_of_mem (Dict.get?_eq_some_iff.mp found)).ne'
    have positive := kept.sized found
    have paid := Dict.le_sumBy (fun (_ : Nat) (row : InRow) => row.message.logicalSize) found
    rw [← kept.bytes] at paid
    simp only [forgetInbound, sendAck, releasePersistedSlot, releasePendingBytes, sat_bind, sat_get,
      sat_raiseIf, sat_modifyInbound, sat_emit]
    refine ⟨fun none => absurd none counted, fun _ => ⟨fun short => ?_, fun _ =>
      ⟨row, faults, _, found, phase, fine, rfl,
        ⟨rfl, rfl, rfl, rfl, fun _ => Finset.mem_of_mem_erase, rfl, rfl, rfl⟩⟩⟩⟩
    rcases short with zero | less
    · omega
    · omega
  · exact fun _ _ failed => failed

theorem completeQos2_sat (kept : engine.kept) (mid : Nat) (state : InboundQoSState)
    (action : String) :
    Sat (completeQos2 mid state action) engine
      (fun _ after => ∃ row faults inbound, engine.store.inbound.get? mid = some row ∧
        row.message.state = state ∧ engine.store.Leaves faults ∧
        after = { engine with
          store := { engine.store with faults, inbound := engine.store.inbound.erase mid }
          inbound
          effects := engine.effects ++ [.sendAck (encodePubcompSuccess mid)] } ∧
        Frees mid row.message.logicalSize engine.inbound inbound)
      (fun _ after => Scripted engine after ∧ (engine.store.Reliable →
        ∀ row, engine.store.inbound.get? mid = some row → row.message.state ≠ state)) := by
  simp only [completeQos2, sat_bind]
  apply (completeStoredInbound_sat kept mid state action).mono
  · rintro _ _ ⟨row, faults, found, phase, rfl, fine, rfl⟩
    have counted : engine.inbound.storedInbound ≠ 0 := by
      rw [kept.count, Dict.size]
      exact (List.length_pos_of_mem (Dict.get?_eq_some_iff.mp found)).ne'
    have positive := kept.sized found
    have paid := Dict.le_sumBy (fun (_ : Nat) (row : InRow) => row.message.logicalSize) found
    rw [← kept.bytes] at paid
    simp only [forgetInbound, sendAck, holdUntilPubcompHandoff, releasePendingBytes, sat_bind,
      sat_get, sat_raiseIf, sat_modifyInbound, sat_emit, sat_onlyIf]
    refine ⟨fun none => absurd none counted, fun _ => ⟨fun short => ?_, fun _ => ⟨fun _ =>
      ⟨row, faults, _, found, phase, fine, rfl,
        ⟨rfl, rfl, rfl, rfl, fun _ => Finset.mem_of_mem_erase, rfl, rfl, rfl⟩⟩,
      fun _ => ⟨row, faults, _, found, phase, fine, rfl,
        ⟨rfl, rfl, rfl, rfl, fun _ => id, rfl, rfl, rfl⟩⟩⟩⟩⟩
    rcases short with zero | less
    · omega
    · omega
  · exact fun _ _ failed => failed

/-- The engine after the row of `mid` left the store. -/
def Protocol.Engine.without (engine : Engine) (mid : Nat) (faults : StoreCall → List (Option Fault))
    (inbound : InboundSession) (effects : List Effect) : Engine :=
  { engine with
    store := { engine.store with faults, inbound := engine.store.inbound.erase mid }
    inbound
    effects }

theorem not_waiting (found : engine.store.inbound.get? mid = some row)
    (other : row.message.state ≠ .waitPuback) : mid ∉ engine.store.waiting.map Prod.fst := by
  rw [mem_waiting_mids]
  rintro ⟨stored, present, waits⟩
  cases found.symm.trans present
  exact other waits

/-- An exchange ends. -/
theorem Retires.drifts {faults : StoreCall → List (Option Fault)} {inbound : InboundSession}
    {effects : List Effect} (kept : engine.kept) (found : engine.store.inbound.get? mid = some row)
    (fine : engine.store.Leaves faults)
    (retires : Retires engine.config.manualAck mid row.message.logicalSize engine.inbound inbound) :
    (engine.without mid faults inbound effects).kept ∧
      Drifts engine (engine.without mid faults inbound effects) := by
  have scripted : Kept engine.config.manualAck { engine.store with faults } engine.inbound :=
    Kept.faults kept fine
  have present : Dict.get? ({ engine.store with faults } : Store).inbound mid = some row := found
  obtain ⟨left, move⟩ := scripted.retire present retires
  exact ⟨left, rfl, .single move, fine.reliable⟩

/-- An exchange that does not wait for PUBACK ends. -/
theorem Frees.rests {faults : StoreCall → List (Option Fault)} {inbound : InboundSession}
    {effects : List Effect} (kept : engine.kept) (found : engine.store.inbound.get? mid = some row)
    (fine : engine.store.Leaves faults)
    (frees : Frees mid row.message.logicalSize engine.inbound inbound)
    (other : row.message.state ≠ .waitPuback) :
    (engine.without mid faults inbound effects).kept ∧
      Rests engine (engine.without mid faults inbound effects) := by
  have outside := not_waiting found other
  have retires : Retires engine.config.manualAck mid row.message.logicalSize engine.inbound inbound := by
    refine ⟨frees.count, frees.bytes, frees.tokens, frees.next, frees.completions, ?_, ?_⟩
    · have unacked : mid ∉ engine.inbound.pendingManualQos1Acks := fun member =>
        outside (kept.acked mid member).2
      rw [frees.acked, Finset.erase_eq_of_notMem unacked]
    · intro manual
      rw [frees.order]
      symm
      apply List.filter_eq_self.mpr
      intro name member
      rw [kept.order manual] at member
      have different : name ≠ mid := fun same => outside (same ▸ member)
      simpa using different
  obtain ⟨left, drifts⟩ := retires.drifts kept found fine
  refine ⟨left, drifts, ?_, frees.acked, fun name _ => frees.current name⟩
  have apart : mid ∉ ({ engine.store with faults } : Store).waiting.map Prod.fst := outside
  exact waiting_erase_other apart

/-- Without manual acknowledgement a QoS 1 exchange ends. -/
theorem Frees.drifts {faults : StoreCall → List (Option Fault)} {inbound : InboundSession}
    {effects : List Effect} (kept : engine.kept) (found : engine.store.inbound.get? mid = some row)
    (fine : engine.store.Leaves faults)
    (frees : Frees mid row.message.logicalSize engine.inbound inbound)
    (auto : engine.config.manualAck = false) :
    (engine.without mid faults inbound effects).kept ∧
      Drifts engine (engine.without mid faults inbound effects) := by
  refine Retires.drifts kept found fine ⟨frees.count, frees.bytes, frees.tokens, frees.next,
    frees.completions, ?_, ?_⟩
  · have unacked : mid ∉ engine.inbound.pendingManualQos1Acks := fun member => by
      simpa [auto] using (kept.acked mid member).1
    rw [frees.acked, Finset.erase_eq_of_notMem unacked]
  · intro manual
    simp [auto] at manual

theorem Scripted.keeps {moves : Engine → Engine → Prop} [Calming moves] {after : Engine}
    (scripted : Scripted engine after) (kept : engine.kept) : after.kept ∧ moves engine after :=
  scripted.apart.keeps kept

theorem keeps_completeQos2 {moves : Engine → Engine → Prop} [Calming moves]
    {state : InboundQoSState} (other : state ≠ .waitPuback) (action : String) :
    Within (Keeps moves) (completeQos2 mid state action) := by
  refine keeps_of_settles fun engine kept => ?_
  apply (completeQos2_sat kept mid state action).mono
  · rintro _ _ ⟨row, faults, inbound, found, phase, fine, rfl, frees⟩
    obtain ⟨left, rests⟩ := frees.rests kept found fine (phase ▸ other)
    exact ⟨left, Calming.rests rests⟩
  · exact fun _ _ failed => failed.1.keeps kept

end

/-! Admission -/

section

variable {engine : Engine} {mid : Nat} {row : InRow}

/-- The engine after a row was stored; `flag` is the handoff flag. -/
def Protocol.Engine.with (engine : Engine) (stored : InboundMessage)
    (faults : StoreCall → List (Option Fault)) (flag waits : Bool) : Engine :=
  { engine with
    store := Store.putIn { engine.store with faults } stored
    inbound := InboundSession.admitted { engine.inbound with autoackHandoffRequired := flag }
      stored.mid stored.logicalSize waits }

theorem sheds_flag (inbound : InboundSession) (flag : Bool) :
    Sheds inbound { inbound with autoackHandoffRequired := flag } :=
  ⟨rfl, rfl, rfl, rfl, rfl, fun _ => id, fun _ => id, fun _ => id⟩

theorem admitRow_sat (kept : engine.kept) (arrival : Arrival) (qos : QoS)
    (state : InboundQoSState) :
    Sat (admitRow arrival qos state) engine
      (fun token after => ∃ stored faults flag, stored.mid = arrival.mid ∧ stored.state = state ∧
        0 < stored.logicalSize ∧ token = engine.inbound.nextToken ∧
        engine.store.Leaves faults ∧
        after = engine.with stored faults flag false)
      (fun _ after => after.kept ∧ Rests engine after) := by
  simp only [admitRow, sat_bind, sat_get, sat_fromExcept, sat_discard]
  refine ⟨fun size _ => ?_, fun _ _ => ⟨kept, Std.Refl.refl _⟩⟩
  apply (acquireSlot_sat engine (some size)).mono
  · rintro _ _ ⟨flag, rfl⟩
    have flagged (faults : StoreCall → List (Option Fault))
        (fine : engine.store.Leaves faults) (bytes : Nat)
        (same : bytes = engine.inbound.pendingBytes) :
        Engine.kept { engine with
          store := { engine.store with faults }
          inbound := { engine.inbound with autoackHandoffRequired := flag, pendingBytes := bytes } } ∧
        Rests engine { engine with
          store := { engine.store with faults }
          inbound := { engine.inbound with
            autoackHandoffRequired := flag, pendingBytes := bytes } } := by
      subst same
      have sheds := sheds_flag engine.inbound flag
      exact ⟨(Kept.faults kept fine).sheds sheds, ⟨rfl, .refl, fine.reliable⟩, rfl, rfl, fun _ _ => id⟩
    simp only [sat_tryCatch, sat_bind, sat_raiseIf, releasePendingBytes, sat_get, sat_modifyInbound,
      sat_throw, Option.getD_some]
    refine ⟨fun zero => ⟨fun _ => ?_, fun positive => absurd (.inl zero) positive⟩, fun positive => ?_⟩
    · exact flagged _ kept.atomic.leaves _ (by omega)
    · apply sat_storeCall_atomic
      · exact kept.atomic
      · intro faults fine
        simp only [freshToken, rememberInbound, sat_bind, sat_get, sat_modifyInbound, sat_pure]
        exact ⟨_, faults, flag, rfl, rfl, Nat.pos_of_ne_zero positive, trivial, fine, rfl⟩
      · intro faults fine _
        refine ⟨fun short => ?_, fun _ => flagged faults fine _ (Nat.add_sub_cancel _ _)⟩
        rcases short with zero | less
        · exact absurd zero positive
        · simp only at less
          omega
  · exact fun _ _ parts => parts.toApart.keeps kept

/-- A new row is an exchange of its own. -/
theorem Protocol.Engine.with_kept {stored : InboundMessage} {faults : StoreCall → List (Option Fault)}
    {flag : Bool} (kept : engine.kept) (absent : engine.store.inbound.get? stored.mid = none)
    (positive : 0 < stored.logicalSize) (fine : engine.store.Leaves faults) :
    (engine.with stored faults flag (stored.state = .waitPuback)).kept ∧
      Drifts engine (engine.with stored faults flag (stored.state = .waitPuback)) := by
  have flagged : Kept engine.config.manualAck { engine.store with faults }
      { engine.inbound with autoackHandoffRequired := flag } :=
    (Kept.faults kept fine).sheds (sheds_flag _ _)
  have free : Dict.get? ({ engine.store with faults } : Store).inbound stored.mid = none := absent
  obtain ⟨admitted, move⟩ := flagged.admits_row free positive
  refine ⟨admitted, rfl, .single move, fun reliable => ?_⟩
  unfold Engine.with
  rw [putIn_new free]
  exact fine.reliable reliable

theorem waiting_with {stored : InboundMessage} {faults : StoreCall → List (Option Fault)}
    {flag waits : Bool} (absent : engine.store.inbound.get? stored.mid = none) :
    (engine.with stored faults flag waits).store.waiting = engine.store.waiting ++
      if stored.state = .waitPuback then [(stored.mid, engine.store.inSeq + 1)] else [] := by
  have free : Dict.get? ({ engine.store with faults } : Store).inbound stored.mid = none := absent
  unfold Engine.with
  rw [putIn_new free]
  exact waiting_insert free _ _

end

end Mqttium
