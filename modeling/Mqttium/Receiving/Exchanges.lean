import Mqttium.Library.Leases
import Mqttium.Protocol.Runs

/-! What the inbound direction owns: the stored exchanges and the counters, sets and
tokens that go with them. -/

namespace Mqttium

open Codec Library Packets Persistence Protocol

/-- A call of the store that fails has no effect. -/
def Persistence.Store.Atomic (store : Store) : Prop :=
  ∀ call, some Fault.afterEffect ∉ store.faults call

theorem Persistence.Store.Reliable.atomic {store : Store} (reliable : store.Reliable) :
    store.Atomic := by
  intro call
  simp [reliable call]

/-- The faults that calls of the store may leave of its own. -/
structure Persistence.Store.Leaves (store : Store) (faults : StoreCall → List (Option Fault)) :
    Prop where
  atomic : ∀ call, some Fault.afterEffect ∉ faults call
  reliable : store.Reliable → ∀ call, faults call = []

theorem Persistence.Store.Atomic.leaves {store : Store} (atomic : store.Atomic) :
    store.Leaves store.faults :=
  ⟨atomic, id⟩

/-- The stored QoS 1 exchanges: identifier and row number, in arrival order. -/
def Persistence.Store.waiting (store : Store) : List (Nat × Nat) :=
  (store.inbound.entries.filter fun entry => entry.2.message.state = .waitPuback).map fun entry =>
    (entry.1, entry.2.seq)

/-- The stored exchanges and their identities. -/
def exchanges (store : Store) (inbound : InboundSession) : Leases Nat where
  serial := fun mid => (store.inbound.get? mid).map InRow.seq
  token := inbound.exchangeTokens.get?
  lastSerial := store.inSeq
  nextToken := inbound.nextToken

/-- The inbound rows are numbered in the order they came. -/
structure Persistence.Store.Arranged (store : Store) : Prop where
  atomic : store.Atomic
  numbered : ∀ {mid row}, store.inbound.get? mid = some row → row.seq ≤ store.inSeq
  ordered : (store.inbound.entries.map fun entry => entry.2.seq).Pairwise (· < ·)

/-- The bookkeeping agrees with the stored rows. -/
structure Kept (manual : Bool) (store : Store) (inbound : InboundSession) : Prop
    extends store.Arranged where
  sized : ∀ {mid row}, store.inbound.get? mid = some row → 0 < row.message.logicalSize
  count : inbound.storedInbound = store.inbound.size
  bytes : inbound.pendingBytes = store.inbound.sumBy fun _ row => row.message.logicalSize
  order : manual = true → inbound.manualQos1Order = store.waiting.map Prod.fst
  acked : ∀ mid ∈ inbound.pendingManualQos1Acks,
    manual = true ∧ mid ∈ store.waiting.map Prod.fst
  completions : ∀ mid ∈ inbound.pendingCompletions.keys, manual = false ∧ mid ∈ store.inbound.keys
  identities : (exchanges store inbound).Sound

/-! Rows -/

section

variable {store : Store} {mid : Nat} {row : InRow} {message : InboundMessage}

theorem mem_waiting {number : Nat} : (mid, number) ∈ store.waiting ↔
    ∃ row, store.inbound.get? mid = some row ∧ row.message.state = .waitPuback ∧
      row.seq = number := by
  simp only [Store.waiting, List.mem_map, List.mem_filter, decide_eq_true_eq, Prod.mk.injEq,
    Prod.exists, Dict.get?_eq_some_iff]
  constructor
  · rintro ⟨_, row, ⟨member, waits⟩, rfl, rfl⟩
    exact ⟨row, member, waits, rfl⟩
  · rintro ⟨row, member, waits, rfl⟩
    exact ⟨mid, row, ⟨member, waits⟩, rfl, rfl⟩

theorem mem_waiting_mids : mid ∈ store.waiting.map Prod.fst ↔
    ∃ row, store.inbound.get? mid = some row ∧ row.message.state = .waitPuback := by
  simp only [List.mem_map, Prod.exists, exists_and_right, exists_eq_right, mem_waiting]
  exact ⟨fun ⟨_, row, found, waits, _⟩ => ⟨row, found, waits⟩,
    fun ⟨row, found, waits⟩ => ⟨_, row, found, waits, rfl⟩⟩

theorem waiting_nodup : (store.waiting.map Prod.fst).Nodup := by
  have sub : List.Sublist (store.waiting.map Prod.fst) store.inbound.keys := by
    simpa [Store.waiting, Function.comp_def, Dict.keys] using
      (List.filter_sublist (l := store.inbound.entries)).map Prod.fst
  exact store.inbound.keys_nodup.sublist sub

theorem Persistence.Store.Arranged.waiting_ordered (arranged : store.Arranged) :
    (store.waiting.map Prod.snd).Pairwise (· < ·) := by
  have sub : List.Sublist (store.waiting.map Prod.snd)
      (store.inbound.entries.map fun entry => entry.2.seq) := by
    simpa [Store.waiting, Function.comp_def] using
      (List.filter_sublist (l := store.inbound.entries)).map fun entry => entry.2.seq
  exact arranged.ordered.sublist sub

theorem putIn_new (absent : store.inbound.get? message.mid = none) :
    store.putIn message =
      { store with
        inbound := store.inbound.insert message.mid { seq := store.inSeq + 1, message }
        inSeq := store.inSeq + 1 } := by
  simp only [Store.putIn, absent]

/-- A row that goes to the end of the table. -/
theorem Persistence.Store.Arranged.insert (arranged : store.Arranged)
    (absent : store.inbound.get? mid = none) :
    Store.Arranged
      { store with
        inbound := store.inbound.insert mid { seq := store.inSeq + 1, message }
        inSeq := store.inSeq + 1 } := by
  refine ⟨arranged.atomic, ?_, ?_⟩
  · intro other row found
    simp only [Dict.get?_insert] at found
    split at found
    · cases found
      exact le_refl _
    · exact Nat.le_succ_of_le (arranged.numbered found)
  · have missing := Dict.get?_eq_none_iff.mp absent
    rw [Dict.entries_insert_of_not_mem _ missing, List.map_append, List.pairwise_append]
    refine ⟨arranged.ordered, by simp, ?_⟩
    intro number member last single
    obtain ⟨entry, inside, rfl⟩ := List.mem_map.mp member
    have bounded := arranged.numbered (Dict.get?_eq_some_iff.mpr inside)
    simp only [List.map_cons, List.map_nil, List.mem_singleton] at single
    omega

theorem Persistence.Store.Arranged.erase (arranged : store.Arranged) (mid : Nat) :
    Store.Arranged { store with inbound := store.inbound.erase mid } := by
  refine ⟨arranged.atomic, ?_, ?_⟩
  · intro other row found
    simp only [Dict.get?_erase] at found
    split at found
    · cases found
    · exact arranged.numbered found
  · exact arranged.ordered.sublist (List.filter_sublist.map _)

theorem Persistence.Store.Arranged.clearIn (arranged : store.Arranged) : store.clearIn.Arranged :=
  ⟨arranged.atomic, by simp [Store.clearIn], by simp [Store.clearIn, Dict.empty]⟩

theorem entries_setIn (change : InboundMessage → InboundMessage) :
    (store.setIn mid change).inbound.entries = store.inbound.entries.map fun entry =>
      if entry.1 = mid then (mid, { entry.2 with message := change entry.2.message }) else entry :=
  Dict.entries_modify _ _ _

theorem Persistence.Store.Arranged.setIn (arranged : store.Arranged)
    (change : InboundMessage → InboundMessage) : (store.setIn mid change).Arranged := by
  refine ⟨arranged.atomic, ?_, ?_⟩
  · intro other row found
    simp only [Store.setIn, Dict.get?_modify] at found
    split at found
    · obtain ⟨stored, present, rfl⟩ := Option.map_eq_some_iff.mp found
      have bounded := arranged.numbered present
      exact bounded
    · exact arranged.numbered found
  · have same : (store.setIn mid change).inbound.entries.map (fun entry => entry.2.seq) =
        store.inbound.entries.map fun entry => entry.2.seq := by
      rw [entries_setIn, List.map_map]
      apply List.map_congr_left
      intro entry _
      simp only [Function.comp_apply]
      split <;> rfl
    rw [same]
    exact arranged.ordered

/-! What each change leaves of the waiting exchanges -/

theorem waiting_insert (absent : store.inbound.get? mid = none) (seq last : Nat) :
    Store.waiting
      { store with inbound := store.inbound.insert mid { seq, message }, inSeq := last } =
      store.waiting ++ if message.state = .waitPuback then [(mid, seq)] else [] := by
  have missing := Dict.get?_eq_none_iff.mp absent
  simp only [Store.waiting, Dict.entries_insert_of_not_mem _ missing, List.filter_append,
    List.map_append]
  congr 1
  by_cases waits : message.state = .waitPuback <;> simp [waits]

theorem waiting_erase (mid : Nat) :
    Store.waiting { store with inbound := store.inbound.erase mid } =
      store.waiting.filter fun entry => entry.1 ≠ mid := by
  simp only [Store.waiting, Dict.erase, List.filter_map, List.filter_filter, Function.comp_def]
  congr 1
  apply List.filter_congr
  intro entry _
  exact Bool.and_comm _ _

/-- An exchange that does not wait for PUBACK leaves those that do alone. -/
theorem waiting_erase_other (other : mid ∉ store.waiting.map Prod.fst) :
    Store.waiting { store with inbound := store.inbound.erase mid } = store.waiting := by
  rw [waiting_erase]
  apply List.filter_eq_self.mpr
  intro entry member
  have different : entry.1 ≠ mid := by
    rintro rfl
    exact other (List.mem_map_of_mem member)
  simpa using different

theorem waiting_setIn {change : InboundMessage → InboundMessage}
    (kept : ∀ row, store.inbound.get? mid = some row →
      ((change row.message).state = .waitPuback ↔ row.message.state = .waitPuback)) :
    (store.setIn mid change).waiting = store.waiting := by
  simp only [Store.waiting, entries_setIn, List.filter_map, List.map_map]
  have same : store.inbound.entries.filter ((fun entry : Nat × InRow =>
        decide (entry.2.message.state = .waitPuback)) ∘ fun entry : Nat × InRow =>
        if entry.1 = mid then (mid, { entry.2 with message := change entry.2.message }) else entry) =
      store.inbound.entries.filter fun entry => entry.2.message.state = .waitPuback := by
    apply List.filter_congr
    intro entry member
    by_cases here : entry.1 = mid
    · subst here
      have stays := kept entry.2 (Dict.get?_eq_some_iff.mpr member)
      simpa using stays
    · simp [here]
  rw [same]
  apply List.map_congr_left
  intro entry _
  by_cases here : entry.1 = mid
  · simp [here]
  · simp [here]

end

/-! Changes of what is owned -/

section

variable {manual : Bool} {store : Store} {before after : InboundSession} {mid : Nat} {row : InRow}
  {message : InboundMessage}

/-- Nothing is owned after that was not owned before. -/
structure Sheds (before after : InboundSession) : Prop where
  count : after.storedInbound = before.storedInbound
  bytes : after.pendingBytes = before.pendingBytes
  order : after.manualQos1Order = before.manualQos1Order
  tokens : after.exchangeTokens = before.exchangeTokens
  next : after.nextToken = before.nextToken
  current : ∀ mid ∈ after.currentPersistedMids, mid ∈ before.currentPersistedMids
  acked : ∀ mid ∈ after.pendingManualQos1Acks, mid ∈ before.pendingManualQos1Acks
  completions : ∀ mid ∈ after.pendingCompletions.keys, mid ∈ before.pendingCompletions.keys

theorem Sheds.exchanges (sheds : Sheds before after) :
    Mqttium.exchanges store after = Mqttium.exchanges store before := by
  simp only [Mqttium.exchanges, sheds.tokens, sheds.next]

theorem Kept.sheds (kept : Kept manual store before) (sheds : Sheds before after) :
    Kept manual store after where
  toArranged := kept.toArranged
  sized := kept.sized
  count := sheds.count.trans kept.count
  bytes := sheds.bytes.trans kept.bytes
  order given := sheds.order.trans (kept.order given)
  acked mid member := kept.acked mid (sheds.acked mid member)
  completions mid member := kept.completions mid (sheds.completions mid member)
  identities := sheds.exchanges ▸ kept.identities

theorem Kept.faults (kept : Kept manual store before)
    {faults : StoreCall → List (Option Fault)} (left : store.Leaves faults) :
    Kept manual { store with faults } before :=
  { kept with
    toArranged := ⟨left.atomic, kept.numbered, kept.ordered⟩
    count := kept.count }

/-- A name without a token gets one. -/
theorem Kept.issue (kept : Kept manual store before) (bare : before.exchangeTokens.get? mid = none) :
    Kept manual store { before with
      exchangeTokens := before.exchangeTokens.insert mid before.nextToken
      nextToken := before.nextToken + 1 } ∧
    Leases.Move (exchanges store before) (exchanges store { before with
      exchangeTokens := before.exchangeTokens.insert mid before.nextToken
      nextToken := before.nextToken + 1 }) := by
  have same : exchanges store { before with
      exchangeTokens := before.exchangeTokens.insert mid before.nextToken
      nextToken := before.nextToken + 1 } = (exchanges store before).issue mid := by
    simp only [exchanges, Leases.issue, Leases.mk.injEq, true_and, and_true]
    funext other
    rw [Dict.get?_insert]
    by_cases here : other = mid <;> simp [here]
  have move : Leases.Move (exchanges store before) ((exchanges store before).issue mid) :=
    .issue mid bare
  exact ⟨{ kept with identities := same ▸ kept.identities.move move }, same ▸ move⟩

/-- A row changes, but neither its size nor whether it waits for PUBACK. -/
theorem Kept.setIn (kept : Kept manual store before) {change : InboundMessage → InboundMessage}
    (size : ∀ row, store.inbound.get? mid = some row →
      (change row.message).logicalSize = row.message.logicalSize)
    (waits : ∀ row, store.inbound.get? mid = some row →
      ((change row.message).state = .waitPuback ↔ row.message.state = .waitPuback)) :
    Kept manual (store.setIn mid change) before ∧
      exchanges (store.setIn mid change) before = exchanges store before := by
  have waiting := waiting_setIn waits
  have keys : (store.setIn mid change).inbound.keys = store.inbound.keys := Dict.keys_modify _ _ _
  have rows (other : Nat) : (store.setIn mid change).inbound.get? other =
      if other = mid then (store.inbound.get? mid).map fun row =>
        { row with message := change row.message } else store.inbound.get? other :=
    Dict.get?_modify _ _ _ _
  have same : exchanges (store.setIn mid change) before = exchanges store before := by
    simp only [exchanges, Leases.mk.injEq, and_true]
    refine ⟨funext fun other => ?_, trivial, rfl⟩
    rw [rows]
    split
    · rename_i here
      subst here
      cases store.inbound.get? other <;> rfl
    · rfl
  refine ⟨⟨kept.toArranged.setIn change, ?_, ?_, ?_, ?_, ?_, ?_, ?_⟩, same⟩
  · intro other stored found
    rw [rows] at found
    split at found
    · obtain ⟨row, present, rfl⟩ := Option.map_eq_some_iff.mp found
      simpa [size row present] using kept.sized present
    · exact kept.sized found
  · rw [kept.count]
    simp [Dict.size, entries_setIn]
  · rw [kept.bytes]
    cases found : store.inbound.get? mid with
    | none => simp [Store.setIn, Dict.modify, found]
    | some row =>
      have replaced := Dict.sumBy_replace (fun (_ : Nat) (row : InRow) => row.message.logicalSize)
        { row with message := change row.message } found
      simp only [size row found] at replaced
      simp only [Store.setIn, Dict.modify, found]
      omega
  · intro given
    rw [waiting]
    exact kept.order given
  · rw [waiting]
    exact kept.acked
  · rw [keys]
    exact kept.completions
  · exact same ▸ kept.identities

/-- The session after a row was stored under `mid`. -/
def Protocol.InboundSession.admitted (inbound : InboundSession) (mid size : Nat) (waits : Bool) :
    InboundSession :=
  { inbound with
    pendingBytes := inbound.pendingBytes + size
    currentPersistedMids := insert mid inbound.currentPersistedMids
    exchangeTokens := inbound.exchangeTokens.insert mid inbound.nextToken
    nextToken := inbound.nextToken + 1
    storedInbound := inbound.storedInbound + 1
    manualQos1Order :=
      if waits then inbound.manualQos1Order ++ [mid] else inbound.manualQos1Order }

theorem Kept.admits_row (kept : Kept manual store before)
    (absent : store.inbound.get? message.mid = none) (positive : 0 < message.logicalSize) :
    Kept manual (store.putIn message)
      (before.admitted message.mid message.logicalSize (message.state = .waitPuback)) ∧
    Leases.Move (exchanges store before) (exchanges (store.putIn message)
      (before.admitted message.mid message.logicalSize (message.state = .waitPuback))) := by
  have same : exchanges (store.putIn message)
      (before.admitted message.mid message.logicalSize (message.state = .waitPuback)) =
      (exchanges store before).start message.mid := by
    simp only [putIn_new absent, exchanges, Leases.start, InboundSession.admitted, Leases.mk.injEq,
      and_true]
    constructor <;> funext other <;> rw [Dict.get?_insert] <;>
      by_cases here : other = message.mid <;> simp [here]
  have move : Leases.Move (exchanges store before) ((exchanges store before).start message.mid) :=
    .start _ (by simp [exchanges, absent])
  have waiting : (store.putIn message).waiting =
      store.waiting ++ if message.state = .waitPuback then [(message.mid, store.inSeq + 1)] else [] := by
    rw [putIn_new absent, waiting_insert absent]
  have inside : (store.putIn message).inbound =
      store.inbound.insert message.mid { seq := store.inSeq + 1, message } := by
    rw [putIn_new absent]
  refine ⟨⟨putIn_new absent ▸ kept.toArranged.insert absent, ?_, ?_, ?_, ?_, ?_, ?_, ?_⟩, same ▸ move⟩
  · intro other row found
    rw [inside, Dict.get?_insert] at found
    split at found
    · cases found
      exact positive
    · exact kept.sized found
  · have missing := Dict.get?_eq_none_iff.mp absent
    rw [inside]
    simp only [InboundSession.admitted, kept.count, Dict.size,
      Dict.entries_insert_of_not_mem _ missing, List.length_append, List.length_singleton]
  · rw [inside, Dict.sumBy_insert_new _ _ absent, ← kept.bytes]
    rfl
  · intro given
    rw [waiting, List.map_append]
    by_cases waits : message.state = .waitPuback <;>
      simp [InboundSession.admitted, waits, kept.order given]
  · intro other member
    obtain ⟨given, there⟩ := kept.acked other member
    rw [waiting, List.map_append]
    exact ⟨given, List.mem_append_left _ there⟩
  · intro other member
    obtain ⟨given, there⟩ := kept.completions other member
    rw [inside, Dict.mem_keys_insert]
    exact ⟨given, by simp [there]⟩
  · exact same ▸ kept.identities.move move

/-- The row of `mid` left the store, and all that went with it is given up. -/
structure Retires (manual : Bool) (mid size : Nat) (before after : InboundSession) : Prop where
  count : after.storedInbound = before.storedInbound - 1
  bytes : after.pendingBytes = before.pendingBytes - size
  tokens : after.exchangeTokens = before.exchangeTokens.erase mid
  next : after.nextToken = before.nextToken
  completions : after.pendingCompletions = before.pendingCompletions.erase mid
  acked : after.pendingManualQos1Acks = before.pendingManualQos1Acks.erase mid
  order : manual = true → after.manualQos1Order = before.manualQos1Order.filter (· ≠ mid)

theorem Kept.retire (kept : Kept manual store before) (found : store.inbound.get? mid = some row)
    (retires : Retires manual mid row.message.logicalSize before after) :
    Kept manual { store with inbound := store.inbound.erase mid } after ∧
    Leases.Move (exchanges store before)
      (exchanges { store with inbound := store.inbound.erase mid } after) := by
  have same : exchanges { store with inbound := store.inbound.erase mid } after =
      (exchanges store before).finish mid := by
    simp only [exchanges, Leases.finish, retires.tokens, retires.next, Leases.mk.injEq, and_true]
    constructor <;> funext other <;> rw [Dict.get?_erase] <;>
      by_cases here : other = mid <;> simp [here]
  have move : Leases.Move (exchanges store before) ((exchanges store before).finish mid) := .finish mid
  have left {other : Nat} (member : other ∈ store.inbound.keys) (different : other ≠ mid) :
      other ∈ (store.inbound.erase mid).keys :=
    Dict.mem_keys_erase.mpr ⟨member, different⟩
  refine ⟨⟨kept.toArranged.erase mid, ?_, ?_, ?_, ?_, ?_, ?_, ?_⟩, same ▸ move⟩
  · intro other stored present
    rw [Dict.get?_erase] at present
    split at present
    · cases present
    · exact kept.sized present
  · have split := Dict.sumBy_erase (fun _ _ => 1) found
    have whole (dict : Dict Nat InRow) : dict.sumBy (fun _ _ => 1) = dict.size := by
      simp [Dict.sumBy, Dict.size]
    rw [whole, whole] at split
    rw [retires.count, kept.count]
    change _ = (store.inbound.erase mid).size
    omega
  · have split := Dict.sumBy_erase (fun (_ : Nat) (row : InRow) => row.message.logicalSize) found
    rw [retires.bytes, kept.bytes]
    change _ = (store.inbound.erase mid).sumBy _
    omega
  · intro given
    rw [retires.order given, kept.order given, waiting_erase, List.filter_map]
    rfl
  · intro other member
    rw [retires.acked] at member
    obtain ⟨different, member⟩ := Finset.mem_erase.mp member
    obtain ⟨given, there⟩ := kept.acked other member
    refine ⟨given, ?_⟩
    obtain ⟨entry, inside, rfl⟩ := List.mem_map.mp there
    rw [waiting_erase]
    exact List.mem_map_of_mem (List.mem_filter.mpr ⟨inside, by simpa using different⟩)
  · intro other member
    rw [retires.completions, Dict.mem_keys_erase] at member
    obtain ⟨given, there⟩ := kept.completions other member.1
    exact ⟨given, left there member.2⟩
  · exact same ▸ kept.identities.move move

/-- The session after the broker reported none: nothing is stored. -/
theorem Kept.discard (kept : Kept manual store before) (count : after.storedInbound = 0)
    (bytes : after.pendingBytes = 0) (order : after.manualQos1Order = [])
    (acked : after.pendingManualQos1Acks = ∅)
    (completions : after.pendingCompletions = .empty) (tokens : after.exchangeTokens = .empty)
    (next : after.nextToken = before.nextToken) :
    Kept manual store.clearIn after ∧
      Leases.Move (exchanges store before) (exchanges store.clearIn after) := by
  have same : exchanges store.clearIn after = (exchanges store before).clear := by
    simp only [exchanges, Leases.clear, tokens, next, Store.clearIn, Leases.mk.injEq, and_true]
    exact ⟨rfl, rfl⟩
  have move : Leases.Move (exchanges store before) (exchanges store before).clear := .clear
  refine ⟨⟨kept.toArranged.clearIn, ?_, count, bytes, fun _ => order, ?_, ?_,
    same ▸ kept.identities.move move⟩, same ▸ move⟩
  · simp [Store.clearIn]
  · simp [acked]
  · simp [completions]

end

end Mqttium
