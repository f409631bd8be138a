import Mqttium.Ledger.Order

/-! Who owns a slot. On a connection every live exchange that waits for its first
acknowledgement owns one or is parked for one; an exchange in its release phase owns
the slot of its PUBLISH, unless it was resumed or left the parked ones in that phase. -/

namespace Mqttium

open Library

/-- An accepted CONNACK. -/
def Event.accepts : Event → Bool
  | .session _ _ => true
  | _ => false

namespace OutboundQoSState

/-- The PUBLISH was sent and the exchange is not over. -/
def inFlight (state : OutboundQoSState) : Bool := state.waiting || state == .waitPubcomp

end OutboundQoSState

namespace Ledger

/-- A connection was accepted, and no lost session is being settled. -/
def accepted (ledger : Ledger) : Prop :=
  ledger.log.any Event.accepts = true ∧ ledger.settling = false

def Slotted (ledger : Ledger) : Prop :=
  ledger.accepted → ∀ mid entry, ledger.rows.get? mid = some entry → ledger.isSealed mid = false →
    entry.state.waiting = true → mid ∈ ledger.holders ∨ mid ∈ ledger.parked

def Carried (ledger : Ledger) : Prop :=
  ledger.accepted → ∀ mid entry, ledger.rows.get? mid = some entry → ledger.isSealed mid = false →
    entry.state = .waitPubcomp → mid ∈ ledger.holders

/-- No live exchange is in its release phase. -/
def Unreleased (ledger : Ledger) : Prop :=
  ∀ mid entry, ledger.rows.get? mid = some entry → ledger.isSealed mid = false →
    entry.state ≠ .waitPubcomp

/-- The window is full, or a publication that was sent is sealed. -/
def crowded (ledger : Ledger) : Prop :=
  ledger.limit ≤ ledger.holders.card ∨ ∃ mid, ledger.sealed.get? mid = some true

/-- A live exchange goes without a slot only when the slots are taken or a seal speaks
for it. -/
def Covered (ledger : Ledger) : Prop :=
  ∀ mid entry, ledger.rows.get? mid = some entry → ledger.isSealed mid = false →
    entry.state.inFlight = true → mid ∈ ledger.holders ∨ ledger.crowded

section

variable {ledger after start : Ledger} {mid : Nat} {entry : Entry}

theorem Slotted.move (slotted : Slotted ledger) (valid : Accounts ledger)
    (move : Move ledger after) : Slotted after := by
  have absent {mid : Nat} (free : mid ∉ ledger.used) := valid.absent free
  have heldRow := valid.heldRow
  have parkedRow := valid.parkedRow
  intro joined mid entry found live waits
  cases move with
  | resume _ _ =>
    refine .inr (List.mem_toFinset.mpr (mem_live.mpr ⟨live, entry.state, ?_, waits⟩))
    exact Option.map_eq_some_iff.mpr ⟨entry, found, rfl⟩
  | restart _ _ => exact absurd joined.2 nofun
  | settled clear => simp [clear mid entry found, OutboundQoSState.waiting] at waits
  | _ =>
    simp only [Slotted, Ledger.accepted, Ledger.admitQueued, Ledger.launch, Ledger.resend, Ledger.drop,
      Ledger.settle, Ledger.settleSealed, Ledger.dropSealed, Ledger.advance, Ledger.sealRow,
      Ledger.subscribe, Ledger.unsubscribe, Ledger.endSubs, Ledger.store, Ledger.note, acquire,
      releaseSlot, unqueue, setState, refund, forget, clearSeal, isSealed, Dict.contains,
      Dict.get?_modify, stateOf, List.any_append, List.any_cons, List.any_nil, Event.accepts,
      Bool.or_false] at *
    grind -ring -linarith [OutboundQoSState.waiting]

/-- An event that takes a slot from an exchange in its release phase: a resumed session,
or the PUBREC of an exchange that `start` shows as parked. -/
def loosening (start : Ledger) : Event → Prop
  | .session present _ => present = true
  | .advanced seq => ∃ mid ∈ start.parked, start.seqOf mid = some seq
  | _ => False

/-- What moves without such events keep. -/
structure Since (start ledger : Ledger) : Prop where
  slotted : Slotted ledger
  carried : Carried ledger
  parked : ∀ mid ∈ ledger.parked, mid ∈ start.parked ∧ ledger.seqOf mid = start.seqOf mid

theorem Since.refl (slotted : Slotted ledger) (carried : Carried ledger) : Since ledger ledger :=
  ⟨slotted, carried, fun _ member => ⟨member, rfl⟩⟩

theorem Since.move (since : Since start ledger) (valid : Accounts ledger) (move : Move ledger after)
    (calm : ∀ fresh, after.log = ledger.log ++ fresh → ∀ event ∈ fresh, ¬ start.loosening event) :
    Since start after := by
  have slotted := since.slotted.move valid move
  have absent {mid : Nat} (free : mid ∉ ledger.used) := valid.absent free
  have heldRow := valid.heldRow
  have parkedRow := valid.parkedRow
  obtain ⟨slots, carried, parked⟩ := since
  refine ⟨slotted, ?_, ?_⟩
  · intro joined other stored found live released
    cases move with
    | resume _ _ => exact (calm [_] rfl _ (List.mem_singleton_self _) rfl).elim
    | restart _ _ => exact absurd joined.2 nofun
    | settled clear => simp [clear other stored found] at released
    | @advance mid entry present expected =>
      have earlier : ledger.accepted := by
        simpa [Ledger.accepted, Ledger.advance, Ledger.note, setState, unqueue, Event.accepts]
          using joined
      by_cases same : other = mid
      · subst same
        refine (slots earlier other entry present live (by simp [expected, OutboundQoSState.waiting])).resolve_right ?_
        intro waits
        obtain ⟨before, seq⟩ := parked other waits
        refine calm [.advanced entry.seq, .sent entry.seq .pubrel] ?_ (.advanced entry.seq) (by simp) ⟨other, before, ?_⟩
        · simp [Ledger.advance, Ledger.note, setState, unqueue]
        · rw [← seq]
          simp [seqOf, present]
      · refine carried earlier other stored ?_ live released
        simpa [Ledger.advance, Ledger.note, setState, unqueue, Dict.get?_modify, same] using found
    | _ =>
      simp only [Carried, Ledger.accepted, Ledger.admitQueued, Ledger.launch, Ledger.resend, Ledger.drop,
        Ledger.settle, Ledger.settleSealed, Ledger.dropSealed, Ledger.sealRow,
        Ledger.subscribe, Ledger.unsubscribe, Ledger.endSubs, Ledger.store, Ledger.note, acquire,
        releaseSlot, unqueue, setState, refund, forget, clearSeal, isSealed, Dict.contains,
        Dict.get?_modify, stateOf, List.any_append, List.any_cons, List.any_nil, Event.accepts,
        Bool.or_false] at *
      grind -ring -linarith [OutboundQoSState.waiting]
  · intro other member
    cases move with
    | resume _ _ => exact (calm [_] rfl _ (List.mem_singleton_self _) rfl).elim
    | restart _ _ => simp [Ledger.restart] at member
    | settled _ => exact parked other member
    | _ =>
      simp only [Ledger.admitQueued, Ledger.launch, Ledger.resend, Ledger.drop,
        Ledger.settle, Ledger.settleSealed, Ledger.dropSealed, Ledger.advance, Ledger.sealRow,
        Ledger.subscribe, Ledger.unsubscribe, Ledger.endSubs, Ledger.store, Ledger.note, acquire,
        releaseSlot, unqueue, setState, refund, forget, clearSeal, isSealed, Dict.contains,
        Dict.get?_modify, stateOf, seqOf] at *
      grind -ring -linarith

/-- Only a PUBREC brings a live exchange into its release phase. -/
theorem Unreleased.move (unreleased : Unreleased ledger) (valid : Accounts ledger)
    (move : Move ledger after)
    (calm : ∀ fresh, after.log = ledger.log ++ fresh → ∀ seq, .advanced seq ∉ fresh) :
    Unreleased after := by
  have absent {mid : Nat} (free : mid ∉ ledger.used) := valid.absent free
  intro other stored found live
  cases move with
  | @advance mid entry _ _ =>
    refine absurd (List.mem_cons_self) (calm [.advanced entry.seq, .sent entry.seq .pubrel] ?_ entry.seq)
    simp [Ledger.advance, Ledger.note, setState, unqueue]
  | restart _ _ =>
    obtain ⟨entry, present, rfl⟩ := Option.map_eq_some_iff.mp ((restart_row _ _).symm.trans found)
    have kept := unreleased other entry present live
    unfold requeue
    split
    · simp
    · exact kept
  | _ =>
    simp only [Unreleased, Ledger.admitQueued, Ledger.launch, Ledger.resend, Ledger.drop,
      Ledger.settle, Ledger.settleSealed, Ledger.dropSealed, Ledger.sealRow, Ledger.resume,
      Ledger.subscribe, Ledger.unsubscribe, Ledger.endSubs, Ledger.store, Ledger.note, acquire,
      releaseSlot, unqueue, setState, refund, forget, clearSeal, isSealed, Dict.contains,
      Dict.get?_modify] at *
    grind -ring -linarith [OutboundQoSState.waiting]

theorem Unreleased.carried (unreleased : Unreleased ledger) : Carried ledger :=
  fun _ mid entry found live released => absurd released (unreleased mid entry found live)

/-- The log only grows. -/
theorem Move.grows (move : Move ledger after) : ledger.log <+: after.log := by
  cases move with
  | advance _ _ => exact (List.prefix_append _ _).trans (List.prefix_append _ _)
  | settle _ _ => exact (List.prefix_append _ _).trans (List.prefix_append _ _)
  | settleSealed _ _ => exact (List.prefix_append _ _).trans (List.prefix_append _ _)
  | dropSealed _ => exact List.prefix_rfl
  | subscribe _ => exact List.prefix_rfl
  | unsubscribe _ => exact List.prefix_rfl
  | endSubs => exact List.prefix_rfl
  | settled _ => exact List.prefix_rfl
  | _ => exact List.prefix_append _ _

/-- Whatever is sent or reported names a publication. -/
theorem Move.native (move : Move ledger after) (native : .foreign ∉ ledger.log) :
    .foreign ∉ after.log := by
  cases move with
  | admitQueued _ _ => simpa [Ledger.admitQueued, Ledger.store] using native
  | launch _ _ _ _ _ _ => simpa [Ledger.launch, note, acquire, unqueue, setState] using native
  | resend _ _ _ _ _ _ => simpa [Ledger.resend, note, acquire, unqueue] using native
  | drop _ _ _ => simpa [Ledger.drop, note, unqueue, refund, forget] using native
  | settle _ _ => simpa [Ledger.settle, note, releaseSlot, unqueue, refund, forget] using native
  | settleSealed _ _ => simpa [Ledger.settleSealed, note, clearSeal, forget] using native
  | advance _ _ => simpa [Ledger.advance, note, unqueue, setState] using native
  | release _ _ => simpa [note] using native
  | sealRow _ _ => simpa [Ledger.sealRow, note, releaseSlot, unqueue, refund] using native
  | resume _ _ => simpa [Ledger.resume] using native
  | restart _ _ => simpa [Ledger.restart] using native
  | _ => exact native

theorem native_admitLaunched {mid size : Nat} {target : OutboundQoSState}
    (native : .foreign ∉ ledger.log) : .foreign ∉ (ledger.admitLaunched mid size target).log := by
  simpa [Ledger.admitLaunched, note, acquire, Ledger.store] using native

/-- With every slot holder and every parked exchange accounted for, free slots mean that
nothing goes without one. -/
theorem Covered.of_idle (slotted : Slotted ledger) (carried : Carried ledger)
    (joined : ledger.accepted) (valid : Accounts ledger)
    (idle : ledger.queue = [] ∨ ledger.limit ≤ ledger.holders.card) : Covered ledger := by
  intro mid entry found live flies
  rcases idle with empty | full
  · left
    by_cases waits : entry.state.waiting = true
    · refine (slotted joined mid entry found live waits).resolve_right fun parked => ?_
      have lined := (valid.lineup mid).mpr (.inr parked)
      simp [empty] at lined
    · refine carried joined mid entry found live ?_
      simpa [OutboundQoSState.inFlight, waits] using flies
  · exact .inr (.inl full)

/-- Slots taken and seals of sent publications tell whether anything is in flight. -/
theorem Covered.reported (covered : Covered ledger) (valid : Accounts ledger)
    (wide : 0 < ledger.limit) :
    (0 < ledger.holders.card ∨ ∃ mid, ledger.sealed.get? mid = some true) ↔
      ∃ mid entry, ledger.rows.get? mid = some entry ∧ entry.state.inFlight = true := by
  have flying {mid : Nat} {entry : Entry} (found : ledger.rows.get? mid = some entry)
      (sent : ledger.stateOf mid ≠ some .queued) : entry.state.inFlight = true := by
    have unfinished := valid.unfinished mid entry found
    simp only [stateOf, found, Option.map_some, ne_eq, Option.some.injEq] at sent
    cases state : entry.state <;> simp_all [OutboundQoSState.inFlight, OutboundQoSState.waiting]
  constructor
  · rintro (held | ⟨mid, dead⟩)
    · obtain ⟨mid, member⟩ := Finset.card_pos.mp held
      obtain ⟨_, present, sent, _⟩ := valid.heldRow mid member
      obtain ⟨entry, found⟩ := Option.isSome_iff_exists.mp present
      exact ⟨mid, entry, found, flying found sent⟩
    · obtain ⟨present, sent⟩ := valid.sealedRow mid true dead
      obtain ⟨entry, found⟩ := Option.isSome_iff_exists.mp present
      exact ⟨mid, entry, found, flying found (sent.mp rfl)⟩
  · rintro ⟨mid, entry, found, flies⟩
    by_cases dead : ledger.isSealed mid = true
    · obtain ⟨sent, mark⟩ := Option.isSome_iff_exists.mp dead
      obtain rfl : sent = true := by
        refine (valid.sealedRow mid sent mark).2.mpr fun queued => ?_
        simp only [stateOf, found, Option.map_some, Option.some.injEq] at queued
        simp [queued, OutboundQoSState.inFlight, OutboundQoSState.waiting] at flies
      exact .inr ⟨mid, mark⟩
    · rcases covered mid entry found (by simpa using dead) flies with held | full | sealed
      · exact .inl (Finset.card_pos.mpr ⟨mid, held⟩)
      · exact .inl (wide.trans_le full)
      · exact .inr sealed

/-- Only an admission brings a new row, and it waits in the queue. -/
theorem Covered.move (covered : Covered ledger) (fresh : ledger.rows.get? mid = none)
    (stored : (after.rows.get? mid).isSome = true) (move : Move ledger after) : Covered after := by
  cases move with
  | @admitQueued new size _ _ =>
    intro other entry found live flies
    by_cases same : other = new
    · subst same
      simp only [Ledger.admitQueued, Ledger.store, Dict.get?_insert_self, Option.some.injEq] at found
      simp [← found, OutboundQoSState.inFlight, OutboundQoSState.waiting] at flies
    · refine covered other entry ?_ live flies
      simpa [Ledger.admitQueued, Ledger.store, Dict.get?_insert_of_ne _ same] using found
  | restart _ _ => simp [restart_row, fresh] at stored
  | _ =>
    simp only [Ledger.launch, Ledger.resend, Ledger.drop, Ledger.settle, Ledger.settleSealed,
      Ledger.dropSealed, Ledger.advance, Ledger.sealRow, Ledger.resume, Ledger.subscribe,
      Ledger.unsubscribe, Ledger.endSubs, Ledger.note, acquire, releaseSlot, unqueue, setState,
      refund, forget, clearSeal, Dict.get?_modify] at stored
    grind -ring -linarith

theorem accepted_admitLaunched {mid size : Nat} {target : OutboundQoSState} :
    (ledger.admitLaunched mid size target).accepted ↔ ledger.accepted := by
  simp [Ledger.accepted, Ledger.admitLaunched, Ledger.store, Ledger.note, acquire, Event.accepts]

/-- The row of a launched admission owns its slot; the others are as they were. -/
theorem admitLaunched_row {mid size other : Nat} {target : OutboundQoSState}
    (found : (ledger.admitLaunched mid size target).rows.get? other = some entry)
    (different : other ≠ mid) : ledger.rows.get? other = some entry := by
  simpa [Ledger.admitLaunched, Ledger.store, Ledger.note, acquire,
    Dict.get?_insert_of_ne _ different] using found

theorem Slotted.admitLaunched (slotted : Slotted ledger) (mid size : Nat)
    (target : OutboundQoSState) : Slotted (ledger.admitLaunched mid size target) := by
  intro joined other entry found live waits
  by_cases same : other = mid
  · subst same
    exact .inl (Finset.mem_insert_self _ _)
  · have present := admitLaunched_row found same
    exact (slotted (accepted_admitLaunched.mp joined) other entry present live waits).imp_left
      (Finset.mem_insert_of_mem)

theorem Carried.admitLaunched (carried : Carried ledger) (mid size : Nat)
    (target : OutboundQoSState) : Carried (ledger.admitLaunched mid size target) := by
  intro joined other entry found live released
  by_cases same : other = mid
  · subst same
    exact Finset.mem_insert_self _ _
  · have present := admitLaunched_row found same
    exact Finset.mem_insert_of_mem
      (carried (accepted_admitLaunched.mp joined) other entry present live released)

theorem Covered.admitLaunched (covered : Covered ledger) (mid size : Nat) (target : OutboundQoSState) :
    Covered (ledger.admitLaunched mid size target) := by
  intro other entry found live flies
  by_cases same : other = mid
  · subst same
    exact .inl (Finset.mem_insert_self _ _)
  · have present := admitLaunched_row found same
    rcases covered other entry present live flies with held | full | sealed
    · exact .inl (Finset.mem_insert_of_mem held)
    · exact .inr (.inl (full.trans (Finset.card_le_card (Finset.subset_insert _ _))))
    · exact .inr (.inr sealed)

/-- A recovered exchange takes a slot, or finds none free. -/
theorem Covered.recover {held : Bool} (covered : Covered ledger)
    (full : entry.state.inFlight = true → held = false → ledger.limit ≤ ledger.holders.card) :
    Covered (ledger.recover mid entry held) := by
  have grows : ledger.holders ⊆ (ledger.recover mid entry held).holders := by
    simp only [Ledger.recover]
    split
    · exact Finset.subset_insert _ _
    · exact Finset.Subset.refl _
  have crowded (crowded : ledger.crowded) : (ledger.recover mid entry held).crowded :=
    crowded.imp_left fun full => full.trans (Finset.card_le_card grows)
  intro other stored found live flies
  by_cases same : other = mid
  · subst same
    simp only [Ledger.recover, Dict.get?_insert_self, Option.some.injEq] at found
    subst found
    cases held with
    | true => exact .inl (Finset.mem_insert_self _ _)
    | false => exact .inr (crowded (.inl (full flies rfl)))
  · have present : ledger.rows.get? other = some stored := by
      simpa [Ledger.recover, Dict.get?_insert_of_ne _ same] using found
    exact (covered other stored present live flies).imp (fun held => grows held) crowded

end

end Ledger

end Mqttium
