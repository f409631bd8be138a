import Mqttium.Library.Listing
import Mqttium.Persistence.Agreement
import Mqttium.Persistence.Groups

/-! Listings that are read while the store changes. A listing takes the identifiers when
its first page is asked for, and the rows of a page when that page is. -/

namespace Mqttium.Persistence

open Library

inductive ListingCall where
  | outSummaryPages (pageSize : Int)
  | inIndexPages (pageSize : Int)
  | inReplayPages (maxMessages maxBytes : Int)

namespace ListingCall

abbrev Record : ListingCall → Type
  | outSummaryPages _ => OutboundMessageSummary
  | inIndexPages _ => InboundRecordMeta
  | inReplayPages _ _ => InboundMessage

/-- The limits that no backend refuses. -/
def Valid : ListingCall → Prop
  | outSummaryPages pageSize => 0 < pageSize
  | inIndexPages pageSize => 0 < pageSize
  | inReplayPages maxMessages maxBytes => 0 < maxMessages ∧ 0 < maxBytes

/-- What a page of the listing may hold. -/
def Bounded : (call : ListingCall) → List call.Record → Prop
  | inReplayPages maxMessages maxBytes, page =>
    page.length ≤ maxMessages.toNat ∧
      ((page.map InboundMessage.logicalSize).sum ≤ maxBytes.toNat ∨ page.length = 1)
  | outSummaryPages _, _ => True
  | inIndexPages _, _ => True

end ListingCall

/-! The memory backend. `_out` names a table object, and a listing of the outbound rows
keeps the object it started with. -/

structure MemoryObjects where
  store : MemoryInflightStore := {}
  /-- The table object that `_out` names. -/
  outTable : Nat := 0
  /-- What the objects hold that `_out` named before. -/
  former : Nat → Dict Nat OutboundMessage := fun _ => .empty

namespace MemoryInflightStore

/-- The calls that give `_out` a fresh table: those that remove its last row, and `clear_out`. -/
def renewsOut (before after : MemoryInflightStore) : Operation → Bool
  | .deleteOut mid => before.out.contains mid && after.out.isEmpty
  | .completeOut mid _ => before.out.contains mid && after.out.isEmpty
  | .clearOut => true
  | _ => false

/-- The identifiers of a listing, in pages. -/
def snapshot (store : MemoryInflightStore) : ListingCall → Except Failure (List (List Nat))
  | .outSummaryPages pageSize =>
    if pageSize ≤ 0 then .error invalidPageSize
    else .ok (pagesOf pageSize.toNat store.out.keys.length store.out.keys)
  | .inIndexPages pageSize =>
    if pageSize ≤ 0 then .error invalidPageSize
    else .ok (pagesOf pageSize.toNat store.inbound.keys.length store.inbound.keys)
  | .inReplayPages maxMessages maxBytes => do
    checkReplayLimits maxMessages maxBytes
    return Store.replayGroups maxMessages.toNat maxBytes.toNat (replayIndex store.inbound) [] 0

/-- The identifiers that have a row, in insertion order. -/
def mids (store : MemoryInflightStore) : ListingCall → List Nat
  | .outSummaryPages _ => store.out.keys
  | .inIndexPages _ => store.inbound.keys
  | .inReplayPages _ _ => store.inbound.keys

/-- The row of an identifier, as a listing shows it. -/
def lookup (store : MemoryInflightStore) : (call : ListingCall) → Nat → Option call.Record
  | .outSummaryPages _, mid => (store.out.get? mid).map OutboundMessageSummary.fromMessage
  | .inIndexPages _, mid => (store.inbound.get? mid).map (metaFor mid)
  | .inReplayPages _ _, mid => store.inbound.get? mid

/-- Every row, in insertion order. -/
def records (store : MemoryInflightStore) : (call : ListingCall) → List call.Record
  | .outSummaryPages _ => store.out.values.map OutboundMessageSummary.fromMessage
  | .inIndexPages _ => store.inbound.entries.map fun entry => metaFor entry.1 entry.2
  | .inReplayPages _ _ => store.inbound.values

end MemoryInflightStore

namespace MemoryObjects

/-- The table object of that name. -/
def table (objects : MemoryObjects) (name : Nat) : Dict Nat OutboundMessage :=
  if name = objects.outTable then objects.store.out else objects.former name

def perform (objects : MemoryObjects) (operation : Operation) : MemoryObjects :=
  let after := (ended (MemoryInflightStore.perform operation) objects.store).2
  if objects.store.renewsOut after operation then
    { store := after
      outTable := objects.outTable + 1
      former := Function.update objects.former objects.outTable after.out }
  else { objects with store := after }

def performAll (objects : MemoryObjects) (operations : List Operation) : MemoryObjects :=
  operations.foldl perform objects

/-- The rows of one page. `_pages` reads the table it was started on, the inbound listings
read the table that `_in` names now. -/
def fetch (records : Nat) (call : ListingCall) (objects : MemoryObjects) (page : List Nat) :
    Except Failure (List call.Record) :=
  match call with
  | .outSummaryPages _ =>
    .ok ((page.filterMap (objects.table records).get?).map OutboundMessageSummary.fromMessage)
  | .inIndexPages _ =>
    .ok (page.filterMap fun mid =>
      (objects.store.inbound.get? mid).map (MemoryInflightStore.metaFor mid))
  | .inReplayPages _ _ => .ok (page.filterMap objects.store.inbound.get?)

/-- Loop through a listing; the body of the loop performs operations. -/
def list (objects : MemoryObjects) (call : ListingCall) (bodies : List (List Operation)) :
    Except Failure (Reading MemoryObjects Nat call.Record) := do
  let pages ← objects.store.snapshot call
  readPages (fetch objects.outTable call) (fun body objects => objects.performAll body) pages bodies
    objects

end MemoryObjects

namespace SqliteInflightStore

variable (codecs : TextCodecs)

def snapshot (store : SqliteInflightStore) : ListingCall → Except Failure (List (List Nat))
  | .outSummaryPages pageSize =>
    if pageSize ≤ 0 then .error invalidPageSize
    else do
      let mids ← orderedMids store.outbound
      return pagesOf pageSize.toNat mids.length mids
  | .inIndexPages pageSize =>
    if pageSize ≤ 0 then .error invalidPageSize
    else do
      let mids ← orderedMids store.inbound
      return pagesOf pageSize.toNat mids.length mids
  | .inReplayPages maxMessages maxBytes => do
    checkReplayLimits maxMessages maxBytes
    let index ← replayIndex store.inbound
    return Store.replayGroups maxMessages.toNat maxBytes.toNat index [] 0

def fetch (call : ListingCall) (store : SqliteInflightStore) (page : List Nat) :
    Except Failure (List call.Record) :=
  match call with
  | .outSummaryPages _ => fetchByMids store.outbound page (rowToOutSummary codecs)
  | .inIndexPages _ => fetchByMids store.inbound page rowToInMeta
  | .inReplayPages _ _ => fetchByMids store.inbound page (rowToIn codecs)

/-- The row of an identifier, as a listing shows it. -/
def lookup (store : SqliteInflightStore) : (call : ListingCall) → Nat → Option call.Record
  | .outSummaryPages _, mid =>
    (store.outbound.fetchOne mid).bind fun row => (rowToOutSummary codecs row).toOption
  | .inIndexPages _, mid => (store.inbound.fetchOne mid).bind fun row => (rowToInMeta row).toOption
  | .inReplayPages _ _, mid =>
    (store.inbound.fetchOne mid).bind fun row => (rowToIn codecs row).toOption

/-- Every row, by the number of its insertion. -/
def records (store : SqliteInflightStore) : (call : ListingCall) → Except Failure (List call.Record)
  | .outSummaryPages _ => store.outbound.orderBySeq.mapM (rowToOutSummary codecs)
  | .inIndexPages _ => store.inbound.orderBySeq.mapM rowToInMeta
  | .inReplayPages _ _ => store.inbound.orderBySeq.mapM (rowToIn codecs)

def performAll (store : SqliteInflightStore) (operations : List Operation) : SqliteInflightStore :=
  operations.foldl (fun store operation => (ended (perform codecs operation) store).2) store

def list (store : SqliteInflightStore) (call : ListingCall) (bodies : List (List Operation)) :
    Except Failure (Reading SqliteInflightStore Nat call.Record) := do
  let pages ← store.snapshot call
  readPages (fetch codecs call) (fun body store => store.performAll codecs body) pages bodies store

end SqliteInflightStore

/-- A listing over the identifiers of `snapshot` shows, page after page, the row that each of
them has when its page is read, and nothing else. -/
structure Lawful {State : Type} (call : ListingCall) (snapshot : List Nat)
    (lookup : State → Nat → Option call.Record) (stored : Except Failure (List call.Record))
    (bodies : List (List Operation)) (reading : Reading State Nat call.Record) : Prop where
  distinct : snapshot.Nodup
  covers : (reading.fetched.map Prod.fst).flatten = snapshot
  shows : Shows lookup reading
  /-- Every row once and in insertion order, where nothing happens between the pages. -/
  undisturbed : (∀ body ∈ bodies, body = []) → stored = .ok reading.pages.flatten
  /-- The limits hold unless a row of the snapshot is replaced. -/
  bounded : (∀ message, .putIn message ∈ bodies.flatten → message.mid ∉ snapshot) →
    ∀ page ∈ reading.pages, call.Bounded page

/-- No page of outbound rows is read from a table that `_out` no longer names, while the table
that it does name holds a row of the page. -/
def Attached (call : ListingCall) (records : Nat)
    (reading : Reading MemoryObjects Nat call.Record) : Prop :=
  match call with
  | .outSummaryPages _ => ∀ look ∈ reading.fetched, look.2.outTable = records ∨
      ∀ mid ∈ look.1, look.2.store.out.get? mid = none
  | .inIndexPages _ => True
  | .inReplayPages _ _ => True

/-! What an operation does to the inbound rows -/

/-- Every row after an operation was there before, with its identifier and its size, unless
the operation put it. -/
def Follows (operation : Operation) (before after : MemoryInflightStore) : Prop :=
  ∀ mid message, after.inbound.get? mid = some message →
    (∃ first, before.inbound.get? mid = some first ∧ message.mid = first.mid ∧
      message.logicalSize = first.logicalSize) ∨
    message.mid = mid ∧ ∃ put, operation = .putIn put ∧ put.mid = mid

section Follows

variable {operation : Operation}

theorem follows_same {before after : MemoryInflightStore} (same : after.inbound = before.inbound) :
    Follows operation before after := by
  intro mid message found
  exact .inl ⟨message, same ▸ found, rfl, rfl⟩

instance : IsPreorder MemoryInflightStore (Follows operation) where
  refl _ := follows_same rfl
  trans := by
    intro before between after first second mid message found
    rcases second mid message found with ⟨middle, held, keyed, sized⟩ | put
    · rcases first mid middle held with ⟨row, present, sameMid, sameSize⟩ | ⟨same, put⟩
      · exact .inl ⟨row, present, keyed.trans sameMid, sized.trans sameSize⟩
      · exact .inr ⟨keyed.trans same, put⟩
    · exact .inr put

theorem follows_erase (before : MemoryInflightStore) (mid : Nat) :
    Follows operation before { before with inbound := before.inbound.erase mid } := by
  intro other message found
  rw [Dict.get?_erase] at found
  split at found
  · cases found
  · exact .inl ⟨message, found, rfl, rfl⟩

theorem follows_modify (change : InboundMessage → InboundMessage)
    (keeps : ∀ row, (change row).mid = row.mid ∧ (change row).logicalSize = row.logicalSize)
    (before : MemoryInflightStore) (mid : Nat) :
    Follows operation before { before with inbound := before.inbound.modify mid change } := by
  intro other message found
  rw [Dict.get?_modify] at found
  split at found
  · subst other
    obtain ⟨row, present, rfl⟩ := Option.map_eq_some_iff.mp found
    exact .inl ⟨row, present, keeps row⟩
  · exact .inl ⟨message, found, rfl, rfl⟩

theorem follows_put (before : MemoryInflightStore) (message : InboundMessage) :
    Follows (.putIn message) before
      { before with inbound := before.inbound.insert message.mid message } := by
  intro mid row found
  rw [Dict.get?_insert] at found
  split at found
  · subst mid
    cases found
    exact .inr ⟨rfl, message, rfl, rfl⟩
  · exact .inl ⟨row, found, rfl, rfl⟩

theorem perform_follows (operation : Operation) :
    Within (Follows operation) (MemoryInflightStore.perform operation) := by
  cases operation with
  | putIn message =>
    exact within_bind (within_bind within_raiseIf fun _ => within_modify fun store =>
      follows_put store message) fun _ => within_pure _
  | completeIn mid expected =>
    refine within_bind (within_bind within_get fun store => ?_) fun _ => within_pure _
    cases store.inbound.get? mid with
    | none => exact within_pure _
    | some message =>
      refine within_ite ?_ (within_pure _)
      exact within_bind (within_modify fun store => follows_erase store mid) fun _ => within_pure _
  | transitionIn mid expected next userAcked =>
    refine within_bind (within_bind within_get fun store => ?_) fun _ => within_pure _
    cases store.inbound.get? mid with
    | none => exact within_pure _
    | some message =>
      refine within_ite ?_ (within_pure _)
      exact within_bind (within_modify fun store =>
        follows_modify (MemoryInflightStore.movedIn next userAcked) (fun _ => ⟨rfl, rfl⟩) store mid)
        fun _ => within_pure _
  | markInDelivered mid =>
    refine within_bind (within_bind within_get fun store => ?_) fun _ => within_pure _
    cases store.inbound.get? mid with
    | none => exact within_pure _
    | some message =>
      refine within_ite (within_pure _) ?_
      exact within_bind (within_modify fun store =>
        follows_modify (fun row => { row with delivered := true }) (fun _ => ⟨rfl, rfl⟩) store mid)
        fun _ => within_pure _
  | clearIn =>
    refine within_bind (within_modify fun store => ?_) fun _ => within_pure _
    intro mid message found
    cases found
  | putOut message =>
    exact within_bind (within_bind within_raiseIf fun _ => within_modify fun _ => follows_same rfl)
      fun _ => within_pure _
  | deleteOut mid =>
    exact within_bind (within_bind within_get fun _ => within_bind
      (within_modify fun _ => follows_same rfl) fun _ => within_pure _) fun _ => within_pure _
  | completeOut mid expected =>
    refine within_bind (within_bind within_get fun store => ?_) fun _ => within_pure _
    cases store.out.get? mid with
    | none => exact within_pure _
    | some message =>
      refine within_ite ?_ (within_pure _)
      exact within_bind (within_bind within_get fun _ => within_bind
        (within_modify fun _ => follows_same rfl) fun _ => within_pure _) fun _ => within_pure _
  | transitionOut mid expected next compact =>
    refine within_bind (within_bind within_get fun store => ?_) fun _ => within_pure _
    cases store.out.get? mid with
    | none => exact within_pure _
    | some message =>
      refine within_ite ?_ (within_pure _)
      exact within_bind (within_modify fun _ => follows_same rfl) fun _ => within_pure _
  | clearOut => exact within_bind (within_modify fun _ => follows_same rfl) fun _ => within_pure _
  | getOut mid => exact within_bind within_get fun _ => within_pure _
  | outSummaryPages pageSize =>
    exact within_bind (within_bind within_get fun _ => within_bind within_fromExcept fun _ =>
      within_pure _) fun _ => within_pure _
  | outMeta mid =>
    exact within_bind (within_bind within_get fun _ => within_pure _) fun _ => within_pure _
  | getIn mid => exact within_bind within_get fun _ => within_pure _
  | inCount => exact within_bind within_get fun _ => within_pure _
  | inReplayPages maxMessages maxBytes =>
    exact within_bind (within_bind within_fromExcept fun _ => within_bind within_get fun _ =>
      within_pure _) fun _ => within_pure _
  | inMeta mid =>
    exact within_bind (within_bind within_get fun _ => within_pure _) fun _ => within_pure _
  | inIndexPages pageSize =>
    exact within_bind (within_bind within_get fun _ => within_bind within_raiseIf fun _ =>
      within_pure _) fun _ => within_pure _

/-- The rule for one operation, however it ends. -/
theorem follows_ended (operation : Operation) (store : MemoryInflightStore) :
    Follows operation store (ended (MemoryInflightStore.perform operation) store).2 := by
  have within := sat_ended.mp (perform_follows operation store)
  revert within
  cases ended (MemoryInflightStore.perform operation) store with
  | mk result after => cases result <;> exact id

end Follows

/-! What a listing relies on -/

/-- Rows lie under their own identifiers. -/
def Keyed (store : MemoryInflightStore) : Prop :=
  ∀ mid message, store.inbound.get? mid = some message → message.mid = mid

/-- The rows of a snapshot keep the sizes that its pages were cut by. -/
def Sized (first store : MemoryInflightStore) : Prop :=
  ∀ mid ∈ first.inbound.keys, ∀ message, store.inbound.get? mid = some message →
    ∃ row, first.inbound.get? mid = some row ∧ message.logicalSize = row.logicalSize

theorem Follows.keyed {operation : Operation} {before after : MemoryInflightStore}
    (follows : Follows operation before after) (keyed : Keyed before) : Keyed after := by
  intro mid message found
  rcases follows mid message found with ⟨row, present, same, _⟩ | ⟨same, _⟩
  · exact same.trans (keyed mid row present)
  · exact same

theorem Follows.sized {operation : Operation} {first before after : MemoryInflightStore}
    (follows : Follows operation before after) (sized : Sized first before)
    (spares : ∀ message, operation = .putIn message → message.mid ∉ first.inbound.keys) :
    Sized first after := by
  intro mid listed message found
  rcases follows mid message found with ⟨row, present, _, size⟩ | ⟨_, put, named, placed⟩
  · obtain ⟨original, held, same⟩ := sized mid listed row present
    exact ⟨original, held, size.trans same⟩
  · exact absurd listed (placed ▸ spares put named)

/-- Where no row is put, the rows stay below the sizes of the snapshot. -/
theorem Sized.self (store : MemoryInflightStore) : Sized store store :=
  fun _ _ message found => ⟨message, found, rfl⟩

namespace MemoryObjects

/-- A table that `_out` names no longer is empty: it was left when it emptied. -/
structure Sound (objects : MemoryObjects) : Prop where
  left : ∀ name, name ≠ objects.outTable → objects.former name = .empty
  keyed : Keyed objects.store

theorem store_perform (objects : MemoryObjects) (operation : Operation) :
    (objects.perform operation).store =
      (ended (MemoryInflightStore.perform operation) objects.store).2 := by
  unfold perform
  dsimp only
  split <;> rfl

theorem out_of_renews {operation : Operation} {store after : MemoryInflightStore}
    (ran : (ended (MemoryInflightStore.perform operation) store).2 = after)
    (renews : store.renewsOut after operation = true) : after.out = .empty := by
  have emptied : after.out.isEmpty = true → after.out = .empty := by
    intro empty
    apply Dict.ext_entries
    exact List.isEmpty_iff.mp empty
  cases operation with
  | deleteOut mid =>
    simp only [MemoryInflightStore.renewsOut, Bool.and_eq_true] at renews
    exact emptied renews.2
  | completeOut mid expected =>
    simp only [MemoryInflightStore.renewsOut, Bool.and_eq_true] at renews
    exact emptied renews.2
  | clearOut => exact ran ▸ rfl
  | _ => cases renews

theorem Sound.perform {objects : MemoryObjects} (sound : objects.Sound) (operation : Operation) :
    (objects.perform operation).Sound where
  left := by
    unfold MemoryObjects.perform
    dsimp only
    split
    · rename_i renews
      intro name other
      simp only [Function.update_apply]
      split
      · exact out_of_renews rfl renews
      · exact sound.left name ‹_›
    · exact sound.left
  keyed := by
    rw [store_perform]
    exact (follows_ended operation objects.store).keyed sound.keyed

theorem Sound.fresh : Sound {} where
  left _ _ := rfl
  keyed _ _ found := by cases found

/-- The rule of a sequence of operations. -/
theorem performAll_induct {invariant : MemoryObjects → Prop} {operations : List Operation}
    (step : ∀ operation ∈ operations, ∀ objects, invariant objects →
      invariant (objects.perform operation))
    {objects : MemoryObjects} (start : invariant objects) :
    invariant (objects.performAll operations) := by
  unfold performAll
  induction operations generalizing objects with
  | nil => exact start
  | cons operation rest ih =>
    exact ih (fun other member => step other (List.mem_cons_of_mem operation member))
      (step operation List.mem_cons_self objects start)

/-- What a listing finds under an identifier. -/
def seen (records : Nat) (call : ListingCall) (objects : MemoryObjects) (mid : Nat) :
    Option call.Record :=
  match call with
  | .outSummaryPages _ => ((objects.table records).get? mid).map OutboundMessageSummary.fromMessage
  | .inIndexPages _ => objects.store.lookup (.inIndexPages _) mid
  | .inReplayPages _ _ => objects.store.lookup (.inReplayPages _ _) mid

theorem fetch_eq (records : Nat) (call : ListingCall) (objects : MemoryObjects) (page : List Nat) :
    fetch records call objects page = .ok (page.filterMap (seen records call objects)) := by
  cases call with
  | outSummaryPages pageSize =>
    simp only [fetch, List.map_filterMap]
    rfl
  | inIndexPages pageSize => rfl
  | inReplayPages maxMessages maxBytes => rfl

/-- A listing may miss a row, and it shows no other. -/
theorem Sound.sparse {objects : MemoryObjects} (sound : objects.Sound) (records : Nat)
    (call : ListingCall) (mid : Nat) :
    seen records call objects mid = objects.store.lookup call mid ∨
      seen records call objects mid = none := by
  cases call with
  | outSummaryPages pageSize =>
    simp only [seen, table, MemoryInflightStore.lookup]
    split
    · exact .inl rfl
    · right
      rw [sound.left records ‹_›]
      rfl
  | inIndexPages pageSize => exact .inl rfl
  | inReplayPages maxMessages maxBytes => exact .inl rfl

end MemoryObjects

end Mqttium.Persistence
