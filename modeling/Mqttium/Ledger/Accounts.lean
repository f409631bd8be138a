import Mathlib.Data.List.Pairwise
import Mqttium.Ledger.Basic

/-! The ownership invariant: every redundant record of the outbound direction
says what the rows say. -/

namespace Mqttium.Ledger

open Library

/-- Sum a measure over the live rows. -/
def tally (ledger : Ledger) (measure : Entry → Nat) : Nat :=
  ledger.rows.sumBy fun mid entry => if ledger.isSealed mid then 0 else measure entry

def stateOf (ledger : Ledger) (mid : Nat) : Option OutboundQoSState :=
  (ledger.rows.get? mid).map Entry.state

/-- A publication that waits to be sent: live and never sent, or parked for a slot. -/
def lined (ledger : Ledger) (mid : Nat) : Prop :=
  (ledger.stateOf mid = some .queued ∧ ledger.isSealed mid = false) ∨ mid ∈ ledger.parked

structure Accounts (ledger : Ledger) : Prop where
  owned : ∀ mid, mid ∈ ledger.used ↔ (ledger.rows.get? mid).isSome ∨ mid ∈ ledger.subs
  apart : ∀ mid ∈ ledger.subs, ledger.rows.get? mid = none
  messages : ledger.messages = ledger.tally fun _ => 1
  bytes : ledger.bytes = ledger.tally Entry.size
  sealedRow : ∀ mid sent, ledger.sealed.get? mid = some sent →
    (ledger.rows.get? mid).isSome ∧ (sent = true ↔ ledger.stateOf mid ≠ some .queued)
  once : ledger.queue.Nodup
  lineup : ∀ mid, mid ∈ ledger.queue ↔ ledger.lined mid
  parkedRow : ∀ mid ∈ ledger.parked, ledger.isSealed mid = false ∧
    (ledger.stateOf mid = some .waitPuback ∨ ledger.stateOf mid = some .waitPubrec)
  heldRow : ∀ mid ∈ ledger.holders, ledger.isSealed mid = false ∧
    (ledger.rows.get? mid).isSome ∧ ledger.stateOf mid ≠ some .queued ∧ mid ∉ ledger.parked
  quota : ledger.holders.card ≤ ledger.limit
  positive : ∀ mid entry, ledger.rows.get? mid = some entry → 0 < entry.size
  unfinished : ∀ mid entry, ledger.rows.get? mid = some entry → entry.state ≠ .done
  ordered : ledger.rows.entries.Pairwise fun left right => left.2.seq < right.2.seq
  numbered : ∀ mid entry, ledger.rows.get? mid = some entry → entry.seq ≤ ledger.lastSeq

section

variable {ledger : Ledger} {mid : Nat} {entry : Entry}

theorem isSealed_eq_false : ledger.isSealed mid = false ↔ ledger.sealed.get? mid = none := by
  simp [isSealed, Dict.contains]

theorem tally_forget (measure : Entry → Nat) (found : ledger.rows.get? mid = some entry)
    (live : ledger.isSealed mid = false) :
    (ledger.forget mid).tally measure + measure entry = ledger.tally measure := by
  have split := Dict.sumBy_erase
    (fun mid entry => if ledger.isSealed mid then 0 else measure entry) found
  simp only [live, Bool.false_eq_true, ↓reduceIte] at split
  exact split

theorem tally_insert (entry : Entry) (measure : Entry → Nat) (absent : ledger.rows.get? mid = none)
    (live : ledger.isSealed mid = false) :
    (ledger.rows.insert mid entry).sumBy
        (fun mid entry => if ledger.isSealed mid then 0 else measure entry) =
      ledger.tally measure + measure entry := by
  rw [Dict.sumBy_insert_new _ entry absent]
  simp [tally, live]

theorem one_le_tally (found : ledger.rows.get? mid = some entry)
    (live : ledger.isSealed mid = false) : 1 ≤ ledger.tally fun _ => 1 := by
  have bound := Dict.le_sumBy (fun mid _ => if ledger.isSealed mid then 0 else 1) found
  simpa [tally, live] using bound

theorem size_le_tally (found : ledger.rows.get? mid = some entry)
    (live : ledger.isSealed mid = false) : entry.size ≤ ledger.tally Entry.size := by
  have bound := Dict.le_sumBy
    (fun mid (entry : Entry) => if ledger.isSealed mid then 0 else entry.size) found
  simpa [tally, live] using bound

theorem Accounts.sealed_row (valid : Accounts ledger) (dead : ledger.isSealed mid = true) :
    ∃ entry, ledger.rows.get? mid = some entry := by
  obtain ⟨sent, found⟩ := Option.isSome_iff_exists.mp dead
  exact Option.isSome_iff_exists.mp (valid.sealedRow mid sent found).1

theorem Accounts.row_live (valid : Accounts ledger) (absent : ledger.rows.get? mid = none) :
    ledger.isSealed mid = false := by
  by_contra dead
  obtain ⟨entry, found⟩ := valid.sealed_row (by simpa using dead)
  simp [absent] at found

theorem Accounts.absent (valid : Accounts ledger) (free : mid ∉ ledger.used) :
    ledger.rows.get? mid = none := by
  have owned := valid.owned mid
  cases found : ledger.rows.get? mid <;> simp_all

theorem Accounts.unlined (valid : Accounts ledger) (absent : ledger.rows.get? mid = none) :
    mid ∉ ledger.queue := by
  rw [valid.lineup]
  rintro (⟨queued, _⟩ | parked)
  · simp [stateOf, absent] at queued
  · have waits := (valid.parkedRow mid parked).2
    simp [stateOf, absent] at waits

theorem Accounts.live_of_mem_queue (valid : Accounts ledger) (member : mid ∈ ledger.queue) :
    ledger.isSealed mid = false := by
  rcases (valid.lineup mid).mp member with ⟨_, live⟩ | parked
  · exact live
  · exact (valid.parkedRow mid parked).1

private theorem waiting_open {state : OutboundQoSState} (waits : state.waiting = true) :
    state ≠ .queued ∧ state ≠ .done := by
  cases state <;> simp_all [OutboundQoSState.waiting]

/-! Rows that come and go -/

private theorem ordered_insert {rows : Dict Nat Entry}
    (ordered : rows.entries.Pairwise fun left right => left.2.seq < right.2.seq)
    (absent : rows.get? mid = none)
    (later : ∀ other stored, rows.get? other = some stored → stored.seq < entry.seq) :
    (rows.insert mid entry).entries.Pairwise fun left right => left.2.seq < right.2.seq := by
  rw [Dict.get?_eq_none_iff] at absent
  rw [Dict.entries_insert_of_not_mem entry absent, List.pairwise_append]
  refine ⟨ordered, by simp, ?_⟩
  rintro ⟨other, stored⟩ member right single
  obtain rfl := List.mem_singleton.mp single
  exact later other stored (Dict.get?_eq_some_iff.mpr member)

private theorem ordered_modify {rows : Dict Nat Entry} {state : OutboundQoSState}
    (ordered : rows.entries.Pairwise fun left right => left.2.seq < right.2.seq) :
    (rows.modify mid fun entry => { entry with state }).entries.Pairwise
      fun left right => left.2.seq < right.2.seq := by
  rw [Dict.entries_modify, List.pairwise_map]
  apply ordered.imp
  intro left right before
  split <;> split <;> exact before

private theorem Accounts.store_sums (valid : Accounts ledger) (state : OutboundQoSState)
    (size : Nat) (absent : ledger.rows.get? mid = none) :
    (ledger.store mid state size).messages =
        ((ledger.store mid state size).tally fun _ => 1) ∧
      (ledger.store mid state size).bytes = (ledger.store mid state size).tally Entry.size := by
  have live := valid.row_live absent
  simp only [store, valid.messages, valid.bytes]
  exact ⟨(tally_insert ⟨ledger.lastSeq + 1, state, size⟩ (fun _ => 1) absent live).symm,
    (tally_insert ⟨ledger.lastSeq + 1, state, size⟩ Entry.size absent live).symm⟩

private theorem Accounts.store_ordered (valid : Accounts ledger) (state : OutboundQoSState)
    (size : Nat) (absent : ledger.rows.get? mid = none) :
    (ledger.store mid state size).rows.entries.Pairwise
      fun left right => left.2.seq < right.2.seq := by
  apply ordered_insert valid.ordered absent
  intro other stored found
  exact Nat.lt_succ_of_le (valid.numbered other stored found)

theorem Accounts.admitQueued (valid : Accounts ledger) {size : Nat} (free : mid ∉ ledger.used)
    (sized : 0 < size) : Accounts (ledger.admitQueued mid size) := by
  have absent := valid.absent free
  have live := valid.row_live absent
  have unlined := valid.unlined absent
  have sums := valid.store_sums .queued size absent
  have sorted := valid.store_ordered .queued size absent
  obtain ⟨owned, apart, messages, bytes, sealedRow, once, lineup, parkedRow, heldRow, quota,
    positive, unfinished, ordered, numbered⟩ := valid
  constructor
  case messages => exact sums.1
  case bytes => exact sums.2
  case once =>
    refine List.nodup_append.mpr ⟨once, by simp, ?_⟩
    rintro other queued next single rfl
    rw [List.mem_singleton] at single
    exact unlined (single ▸ queued)
  case ordered => exact sorted
  all_goals
    simp only [Ledger.admitQueued, Ledger.store, lined, stateOf, isSealed, Dict.contains] at *
    grind -ring -linarith

theorem Accounts.admitLaunched (valid : Accounts ledger) {size : Nat} {target : OutboundQoSState}
    (ready : Launchable ledger mid size target) :
    Accounts (ledger.admitLaunched mid size target) := by
  obtain ⟨free, sized, waits, slot, _⟩ := ready
  have absent := valid.absent free
  have live := valid.row_live absent
  have unlined := valid.unlined absent
  have unsent := waiting_open waits
  have sums := valid.store_sums target size absent
  have sorted := valid.store_ordered target size absent
  obtain ⟨owned, apart, messages, bytes, sealedRow, once, lineup, parkedRow, heldRow, quota,
    positive, unfinished, ordered, numbered⟩ := valid
  constructor
  case messages => exact sums.1
  case bytes => exact sums.2
  case quota => exact (Finset.card_insert_le _ _).trans slot
  case ordered => exact sorted
  all_goals
    simp only [Ledger.admitLaunched, Ledger.note, acquire, Ledger.store, lined, stateOf, isSealed, Dict.contains] at *
    grind -ring -linarith

theorem Accounts.recover (valid : Accounts ledger) {held : Bool}
    (ready : Recoverable ledger mid entry held) : Accounts (ledger.recover mid entry held) := by
  obtain ⟨free, later, _, known, sized, pending, slot⟩ := ready
  have absent := valid.absent free
  have live := valid.row_live absent
  have unlined := valid.unlined absent
  have count := tally_insert entry (fun _ => 1) absent live
  have volume := tally_insert entry Entry.size absent live
  obtain ⟨owned, apart, messages, bytes, sealedRow, once, lineup, parkedRow, heldRow, quota,
    positive, unfinished, ordered, numbered⟩ := valid
  constructor
  case messages => exact (congrArg (· + 1) messages).trans count.symm
  case bytes => exact (congrArg (· + entry.size) bytes).trans volume.symm
  case once =>
    by_cases queued : entry.state = .queued
    · simp only [Ledger.recover, queued, ↓reduceIte]
      refine List.nodup_append.mpr ⟨once, by simp, ?_⟩
      rintro other present next single rfl
      rw [List.mem_singleton] at single
      exact unlined (single ▸ present)
    · simpa only [Ledger.recover, queued, ↓reduceIte] using once
  case quota =>
    cases held with
    | false => exact quota
    | true => exact (Finset.card_insert_le _ _).trans (slot rfl).1
  case ordered => exact ordered_insert ordered absent later
  all_goals
    simp only [Ledger.recover, lined, stateOf, isSealed, Dict.contains] at *
    grind -ring -linarith

private theorem Accounts.refund_sums (valid : Accounts ledger)
    (found : ledger.rows.get? mid = some entry) (live : ledger.isSealed mid = false) :
    ledger.messages - 1 = ((ledger.forget mid).tally fun _ => 1) ∧
      ledger.bytes - entry.size = (ledger.forget mid).tally Entry.size := by
  have count := tally_forget (fun _ => 1) found live
  have volume := tally_forget Entry.size found live
  rw [valid.messages, valid.bytes]
  omega

theorem Accounts.drop (valid : Accounts ledger) (found : ledger.rows.get? mid = some entry)
    (live : ledger.isSealed mid = false) (idle : mid ∉ ledger.holders) :
    Accounts (ledger.drop mid entry) := by
  have sums := valid.refund_sums found live
  obtain ⟨owned, apart, messages, bytes, sealedRow, once, lineup, parkedRow, heldRow, quota,
    positive, unfinished, ordered, numbered⟩ := valid
  constructor
  case messages => exact sums.1
  case bytes => exact sums.2
  case once => exact once.erase mid
  case ordered => exact ordered.sublist List.filter_sublist
  all_goals
    simp only [Ledger.drop, Ledger.note, unqueue, refund, forget, lined, stateOf, isSealed, Dict.contains,
      once.mem_erase_iff] at *
    grind -ring -linarith

theorem Accounts.settle (valid : Accounts ledger) (found : ledger.rows.get? mid = some entry)
    (live : ledger.isSealed mid = false) : Accounts (ledger.settle mid entry) := by
  have sums := valid.refund_sums found live
  obtain ⟨owned, apart, messages, bytes, sealedRow, once, lineup, parkedRow, heldRow, quota,
    positive, unfinished, ordered, numbered⟩ := valid
  constructor
  case messages => exact sums.1
  case bytes => exact sums.2
  case once => exact once.erase mid
  case quota => exact (Finset.card_le_card (Finset.erase_subset mid _)).trans quota
  case ordered => exact ordered.sublist List.filter_sublist
  all_goals
    simp only [Ledger.settle, Ledger.note, releaseSlot, unqueue, refund, forget, lined, stateOf, isSealed, Dict.contains,
      once.mem_erase_iff] at *
    grind -ring -linarith

private theorem tally_forget_sealed (measure : Entry → Nat) (dead : ledger.isSealed mid = true) :
    ((ledger.forget mid).clearSeal mid).tally measure = ledger.tally measure := by
  cases found : ledger.rows.get? mid with
  | none =>
    rw [Dict.get?_eq_none_iff] at found
    have gone : ledger.rows.erase mid = ledger.rows := Dict.erase_of_not_mem found
    simp only [tally, forget, clearSeal, gone]
    apply Dict.sumBy_congr
    intro other stored present
    have different : other ≠ mid := by
      rintro rfl
      exact found (Dict.mem_keys_of_get? present)
    simp only [isSealed, Dict.contains, Dict.get?_erase_of_ne different]
    rfl
  | some entry =>
    have split := Dict.sumBy_erase
      (fun mid entry => if ledger.isSealed mid then 0 else measure entry) found
    simp only [dead, ↓reduceIte, Nat.add_zero] at split
    unfold tally
    rw [← split]
    apply Dict.sumBy_congr
    intro other stored present
    have different : other ≠ mid := by
      rintro rfl
      simp [forget, clearSeal] at present
    simp only [isSealed, forget, clearSeal, Dict.contains, Dict.get?_erase_of_ne different]
    rfl

theorem Accounts.dropSealed (valid : Accounts ledger) (dead : ledger.isSealed mid = true) :
    Accounts (ledger.dropSealed mid) := by
  obtain ⟨entry, found⟩ := valid.sealed_row dead
  obtain ⟨owned, apart, messages, bytes, sealedRow, once, lineup, parkedRow, heldRow, quota,
    positive, unfinished, ordered, numbered⟩ := valid
  constructor
  case messages => exact messages.trans (tally_forget_sealed (fun _ => 1) dead).symm
  case bytes => exact bytes.trans (tally_forget_sealed Entry.size dead).symm
  case once => exact once
  case ordered => exact ordered.sublist List.filter_sublist
  all_goals
    simp only [Ledger.dropSealed, clearSeal, forget, lined, stateOf, isSealed, Dict.contains] at *
    grind -ring -linarith

theorem Accounts.note (valid : Accounts ledger) (event : Event) : Accounts (ledger.note event) :=
  ⟨valid.owned, valid.apart, valid.messages, valid.bytes, valid.sealedRow, valid.once, valid.lineup,
    valid.parkedRow, valid.heldRow, valid.quota, valid.positive, valid.unfinished, valid.ordered,
    valid.numbered⟩

theorem Accounts.settleSealed (valid : Accounts ledger) (dead : ledger.isSealed mid = true) :
    Accounts (ledger.settleSealed mid entry) :=
  ((valid.note (.answered entry.seq)).dropSealed dead).note (.reported entry.seq)

/-! Rows that change state -/

private theorem tally_setState (measure : Entry → Nat) (state : OutboundQoSState)
    (blind : ∀ entry : Entry, measure { entry with state } = measure entry) :
    (ledger.setState mid state).tally measure = ledger.tally measure := by
  apply Dict.sumBy_modify (fun mid entry => if ledger.isSealed mid then 0 else measure entry)
  intro stored
  simp [blind]

theorem Accounts.launch (valid : Accounts ledger) {target : OutboundQoSState}
    (queuedFirst : mid ∈ ledger.queue) (found : ledger.rows.get? mid = some entry)
    (queued : entry.state = .queued) (waits : target.waiting = true) (slot : ledger.hasSlot) :
    Accounts (ledger.launch mid entry target) := by
  have unsent := waiting_open waits
  have live := valid.live_of_mem_queue queuedFirst
  have unparked : mid ∉ ledger.parked := by
    intro parked
    have waiting := (valid.parkedRow mid parked).2
    simp [stateOf, found, queued] at waiting
  obtain ⟨owned, apart, messages, bytes, sealedRow, once, lineup, parkedRow, heldRow, quota,
    positive, unfinished, ordered, numbered⟩ := valid
  constructor
  case messages => exact messages.trans (tally_setState (fun _ => 1) target (fun _ => rfl)).symm
  case bytes => exact bytes.trans (tally_setState Entry.size target (fun _ => rfl)).symm
  case once => exact once.erase mid
  case quota => exact (Finset.card_insert_le _ _).trans slot
  case ordered => exact ordered_modify ordered
  all_goals
    simp only [Ledger.launch, Ledger.note, acquire, unqueue, setState, lined, stateOf, isSealed,
      Dict.contains, Dict.get?_modify, once.mem_erase_iff] at *
    grind -ring -linarith

theorem Accounts.resend (valid : Accounts ledger) (parked : mid ∈ ledger.parked)
    (slot : ledger.hasSlot) : Accounts (ledger.resend mid entry) := by
  have waits := valid.parkedRow mid parked
  have present : (ledger.rows.get? mid).isSome := by
    cases found : ledger.rows.get? mid <;> simp_all [stateOf]
  obtain ⟨owned, apart, messages, bytes, sealedRow, once, lineup, parkedRow, heldRow, quota,
    positive, unfinished, ordered, numbered⟩ := valid
  constructor
  case messages => exact messages
  case bytes => exact bytes
  case once => exact once.erase mid
  case quota => exact (Finset.card_insert_le _ _).trans slot
  case ordered => exact ordered
  all_goals
    simp only [Ledger.resend, Ledger.note, acquire, unqueue, lined, stateOf, isSealed, Dict.contains,
      once.mem_erase_iff] at *
    grind -ring -linarith

theorem Accounts.advance (valid : Accounts ledger) (found : ledger.rows.get? mid = some entry)
    (expected : entry.state = .waitPubrec) : Accounts (ledger.advance mid entry) := by
  obtain ⟨owned, apart, messages, bytes, sealedRow, once, lineup, parkedRow, heldRow, quota,
    positive, unfinished, ordered, numbered⟩ := valid
  constructor
  case messages =>
    exact messages.trans (tally_setState (fun _ => 1) .waitPubcomp (fun _ => rfl)).symm
  case bytes => exact bytes.trans (tally_setState Entry.size .waitPubcomp (fun _ => rfl)).symm
  case once => exact once.erase mid
  case ordered => exact ordered_modify ordered
  all_goals
    simp only [Ledger.advance, Ledger.note, unqueue, setState, lined, stateOf, isSealed, Dict.contains,
      once.mem_erase_iff] at *
    grind -ring -linarith

/-! Sealing and subscription requests -/

private theorem tally_seal (measure : Entry → Nat) (sent : Bool)
    (found : ledger.rows.get? mid = some entry) (live : ledger.isSealed mid = false) :
    ({ ledger with sealed := ledger.sealed.insert mid sent } : Ledger).tally measure +
      measure entry = ledger.tally measure := by
  have changed := Dict.sumBy_change
    (fun other stored =>
      if (ledger.sealed.insert mid sent).contains other then 0 else measure stored)
    (fun other stored => if ledger.sealed.contains other then 0 else measure stored) found
    (by
      intro other stored different _
      simp only [Dict.contains, Dict.get?_insert_of_ne sent different]
      rfl)
  simp only [isSealed] at live
  have inside : (ledger.sealed.insert mid sent).contains mid = true := by simp [Dict.contains]
  simp only [live, inside, Bool.false_eq_true, ↓reduceIte, Nat.add_zero] at changed
  exact changed

theorem Accounts.sealRow (valid : Accounts ledger) (found : ledger.rows.get? mid = some entry)
    (live : ledger.isSealed mid = false) : Accounts (ledger.sealRow mid entry) := by
  have count := tally_seal (fun _ => 1) (decide (entry.state ≠ .queued)) found live
  have volume := tally_seal Entry.size (decide (entry.state ≠ .queued)) found live
  obtain ⟨owned, apart, messages, bytes, sealedRow, once, lineup, parkedRow, heldRow, quota,
    positive, unfinished, ordered, numbered⟩ := valid
  constructor
  case messages =>
    have sum := Nat.eq_sub_of_add_eq count
    rw [← messages] at sum
    exact sum.symm
  case bytes =>
    have sum := Nat.eq_sub_of_add_eq volume
    rw [← bytes] at sum
    exact sum.symm
  case once => exact once.erase mid
  case quota => exact (Finset.card_le_card (Finset.erase_subset mid _)).trans quota
  case ordered => exact ordered
  all_goals
    simp only [Ledger.sealRow, Ledger.note, releaseSlot, unqueue, refund, lined, stateOf, isSealed, Dict.contains,
      once.mem_erase_iff] at *
    grind -ring -linarith

theorem Accounts.subscribe (valid : Accounts ledger) (free : mid ∉ ledger.used) :
    Accounts (ledger.subscribe mid) := by
  have absent := valid.absent free
  obtain ⟨owned, apart, messages, bytes, sealedRow, once, lineup, parkedRow, heldRow, quota,
    positive, unfinished, ordered, numbered⟩ := valid
  refine ⟨?_, ?_, messages, bytes, sealedRow, once, lineup, parkedRow, heldRow, quota, positive,
    unfinished, ordered, numbered⟩ <;>
  · simp only [Ledger.subscribe]
    grind -ring -linarith

theorem Accounts.unsubscribe (valid : Accounts ledger) (pending : mid ∈ ledger.subs) :
    Accounts (ledger.unsubscribe mid) := by
  obtain ⟨owned, apart, messages, bytes, sealedRow, once, lineup, parkedRow, heldRow, quota,
    positive, unfinished, ordered, numbered⟩ := valid
  refine ⟨?_, ?_, messages, bytes, sealedRow, once, lineup, parkedRow, heldRow, quota, positive,
    unfinished, ordered, numbered⟩ <;>
  · simp only [Ledger.unsubscribe]
    grind -ring -linarith

theorem Accounts.endSubs (valid : Accounts ledger) : Accounts ledger.endSubs := by
  obtain ⟨owned, apart, messages, bytes, sealedRow, once, lineup, parkedRow, heldRow, quota,
    positive, unfinished, ordered, numbered⟩ := valid
  refine ⟨?_, ?_, messages, bytes, sealedRow, once, lineup, parkedRow, heldRow, quota, positive,
    unfinished, ordered, numbered⟩ <;>
  · simp only [Ledger.endSubs]
    grind -ring -linarith

/-! New connections -/

theorem mem_live {kind : OutboundQoSState → Bool} :
    mid ∈ ledger.live kind ↔ ledger.isSealed mid = false ∧
      ∃ state, ledger.stateOf mid = some state ∧ kind state = true := by
  simp only [live, List.mem_map, List.mem_filter, Bool.and_eq_true, Bool.not_eq_true', stateOf,
    Option.map_eq_some_iff]
  constructor
  · rintro ⟨⟨other, stored⟩, ⟨member, live, matching⟩, rfl⟩
    exact ⟨live, _, ⟨stored, Dict.get?_eq_some_iff.mpr member, rfl⟩, matching⟩
  · rintro ⟨live, _, ⟨stored, found, rfl⟩, matching⟩
    exact ⟨(mid, stored), ⟨Dict.get?_eq_some_iff.mp found, live, matching⟩, rfl⟩

theorem mem_live_waiting : mid ∈ ledger.live OutboundQoSState.waiting ↔
    ledger.isSealed mid = false ∧
      (ledger.stateOf mid = some .waitPuback ∨ ledger.stateOf mid = some .waitPubrec) := by
  simp [mem_live, OutboundQoSState.waiting, and_or_left, exists_or]

theorem mem_live_unacknowledged :
    (mid ∈ ledger.live fun state => state == .queued || state.waiting) ↔
      ledger.isSealed mid = false ∧ (ledger.stateOf mid = some .queued ∨
        ledger.stateOf mid = some .waitPuback ∨ ledger.stateOf mid = some .waitPubrec) := by
  simp [mem_live, OutboundQoSState.waiting, and_or_left, exists_or]

theorem mem_live_qos1 : mid ∈ ledger.live (· == .waitPuback) ↔
    ledger.isSealed mid = false ∧ ledger.stateOf mid = some .waitPuback := by
  simp [mem_live]

theorem live_nodup (ledger : Ledger) (kind : OutboundQoSState → Bool) : (ledger.live kind).Nodup :=
  ledger.rows.nodup.sublist (List.filter_sublist.map _)

theorem Accounts.resume (valid : Accounts ledger) (receiveMaximum limit : Nat) :
    Accounts (ledger.resume receiveMaximum limit) := by
  obtain ⟨owned, apart, messages, bytes, sealedRow, once, lineup, parkedRow, heldRow, quota,
    positive, unfinished, ordered, numbered⟩ := valid
  constructor
  case messages => exact messages
  case bytes => exact bytes
  case once => exact ledger.live_nodup fun state => state == .queued || state.waiting
  case quota => exact Nat.zero_le _
  case ordered => exact ordered
  all_goals
    simp only [Ledger.resume, List.mem_toFinset, mem_live_waiting, mem_live_unacknowledged, lined,
      stateOf, isSealed] at *
    grind -ring -linarith

@[simp] theorem requeue_seq : (ledger.requeue mid entry).seq = entry.seq := by
  unfold requeue
  split <;> rfl

@[simp] theorem requeue_size : (ledger.requeue mid entry).size = entry.size := by
  unfold requeue
  split <;> rfl

/-- Only seals decide what is requeued. -/
theorem requeue_congr {other : Ledger} (same : ledger.isSealed mid = other.isSealed mid) :
    ledger.requeue mid entry = other.requeue mid entry := by
  simp only [requeue, same]

theorem restart_row (receiveMaximum limit : Nat) :
    (ledger.restart receiveMaximum limit).rows.get? mid =
      (ledger.rows.get? mid).map (ledger.requeue mid) :=
  Dict.get?_mapEntries _ _ _

theorem restart_stateOf (ledger : Ledger) (mid receiveMaximum limit : Nat) :
    (ledger.restart receiveMaximum limit).stateOf mid =
      if ledger.isSealed mid = false ∧ ledger.stateOf mid = some .waitPuback then some .queued
      else ledger.stateOf mid := by
  unfold stateOf
  rw [restart_row]
  cases ledger.rows.get? mid with
  | none => simp
  | some entry =>
    simp only [Option.map_some, requeue, Option.some.injEq]
    split <;> rfl

theorem Accounts.restart (valid : Accounts ledger) (receiveMaximum limit : Nat) :
    Accounts (ledger.restart receiveMaximum limit) := by
  have present : ∀ mid, ((ledger.restart receiveMaximum limit).rows.get? mid).isSome =
      (ledger.rows.get? mid).isSome := by
    intro mid
    simp [restart_row]
  have absent : ∀ mid, (ledger.restart receiveMaximum limit).rows.get? mid = none ↔
      ledger.rows.get? mid = none := by
    intro mid
    simp [restart_row]
  have states := fun mid => ledger.restart_stateOf mid receiveMaximum limit
  obtain ⟨owned, apart, messages, bytes, sealedRow, once, lineup, parkedRow, heldRow, quota,
    positive, unfinished, ordered, numbered⟩ := valid
  constructor
  case owned =>
    intro mid
    rw [present]
    exact owned mid
  case apart =>
    intro mid member
    rw [absent]
    exact apart mid member
  case messages =>
    exact messages.trans (Dict.sumBy_mapEntries _ ledger.rows ledger.requeue fun _ _ => rfl).symm
  case bytes =>
    refine bytes.trans (Dict.sumBy_mapEntries _ ledger.rows ledger.requeue ?_).symm
    intro mid stored
    simp
  case sealedRow =>
    intro mid sent found
    have dead : ledger.isSealed mid = true := Option.isSome_iff_exists.mpr ⟨sent, found⟩
    rw [present, states]
    simpa [dead] using sealedRow mid sent found
  case once =>
    refine List.nodup_append.mpr ⟨ledger.live_nodup _, once.filter _, ?_⟩
    rintro mid requeued other kept rfl
    simp only [mem_live_qos1, List.mem_filter, lineup, lined] at requeued kept
    grind -ring -linarith
  case lineup =>
    intro mid
    rw [lined, states]
    simp only [Ledger.restart, List.mem_append, List.mem_filter, mem_live_qos1, lineup, lined,
      isSealed]
    grind -ring -linarith
  case parkedRow => simp [Ledger.restart]
  case heldRow => simp [Ledger.restart]
  case quota => exact Nat.zero_le _
  case positive =>
    intro mid entry found
    obtain ⟨stored, member, rfl⟩ := Option.map_eq_some_iff.mp ((restart_row _ _).symm.trans found)
    simpa using positive mid stored member
  case unfinished =>
    intro mid entry found
    obtain ⟨stored, member, rfl⟩ := Option.map_eq_some_iff.mp ((restart_row _ _).symm.trans found)
    unfold requeue
    split
    · simp
    · exact unfinished mid stored member
  case ordered =>
    simp only [Ledger.restart, Dict.mapEntries, List.pairwise_map, requeue_seq]
    exact ordered
  case numbered =>
    intro mid entry found
    obtain ⟨stored, member, rfl⟩ := Option.map_eq_some_iff.mp ((restart_row _ _).symm.trans found)
    rw [requeue_seq]
    exact numbered mid stored member

theorem Accounts.settled (valid : Accounts ledger) :
    Accounts { ledger with settling := false } :=
  ⟨valid.owned, valid.apart, valid.messages, valid.bytes, valid.sealedRow, valid.once, valid.lineup,
    valid.parkedRow, valid.heldRow, valid.quota, valid.positive, valid.unfinished, valid.ordered,
    valid.numbered⟩

end

/-- A row number names one identifier. -/
theorem Accounts.seq_injective {ledger : Ledger} (valid : Accounts ledger) {left right : Nat}
    {first second : Entry} (found : ledger.rows.get? left = some first)
    (other : ledger.rows.get? right = some second) (same : first.seq = second.seq) :
    left = right := by
  rw [Dict.get?_eq_some_iff] at found other
  have symmetric : Std.Symm fun left right : Nat × Entry => left.2.seq ≠ right.2.seq :=
    ⟨fun _ _ unequal => unequal.symm⟩
  have distinct : ledger.rows.entries.Pairwise fun left right => left.2.seq ≠ right.2.seq :=
    valid.ordered.imp fun before => Nat.ne_of_lt before
  by_contra different
  exact distinct.forall found other (fun equal => different (congrArg Prod.fst equal)) same

/-- Every move keeps the accounts. -/
theorem Accounts.move {before after : Ledger} (valid : Accounts before) (move : Move before after) :
    Accounts after := by
  cases move with
  | admitQueued free positive => exact valid.admitQueued free positive
  | launch head found queued waits slot _ =>
    exact valid.launch (by simp [head]) found queued waits slot
  | resend _ _ parked _ slot _ => exact valid.resend parked slot
  | drop found live idle => exact valid.drop found live idle
  | settle found live => exact valid.settle found live
  | settleSealed _ dead => exact valid.settleSealed dead
  | dropSealed dead => exact valid.dropSealed dead
  | advance found expected => exact valid.advance found expected
  | release _ _ => exact valid.note _
  | sealRow found live => exact valid.sealRow found live
  | subscribe free => exact valid.subscribe free
  | unsubscribe pending => exact valid.unsubscribe pending
  | endSubs => exact valid.endSubs
  | resume _ _ => exact valid.resume _ _
  | restart _ _ => exact valid.restart _ _
  | settled _ => exact valid.settled

/-- The ledger of an engine before it hydrates. -/
theorem accounts_blank (lastSeq limit : Nat) (cap : Option Nat) :
    Accounts { lastSeq, limit, cap } := by
  constructor <;> simp [tally, lined, stateOf, Dict.sumBy, Dict.empty, Dict.get?]

end Mqttium.Ledger
