import Mqttium.Persistence.Listing

/-! A listing that is read while its rows are deleted, replaced and inserted, on both
backends. -/

namespace Mqttium.Persistence

open Library

variable {codecs : TextCodecs}

/-! Pages of inbound rows -/

/-- The size of a row when the listing started. -/
def firstSize (first : MemoryInflightStore) (mid : Nat) : Nat :=
  match first.inbound.get? mid with
  | some message => message.logicalSize
  | none => 0

theorem sum_page_le {lookup : Nat → Option InboundMessage} {sizeOf : Nat → Nat} {mids : List Nat}
    (sized : ∀ mid ∈ mids, ∀ message, lookup mid = some message →
      message.logicalSize = sizeOf mid) :
    ((mids.filterMap lookup).map InboundMessage.logicalSize).sum ≤ (mids.map sizeOf).sum := by
  induction mids with
  | nil => simp
  | cons mid rest ih =>
    obtain ⟨here, others⟩ := List.forall_mem_cons.mp sized
    have later := ih others
    rw [List.map_cons, List.sum_cons]
    cases found : lookup mid with
    | none =>
      rw [List.filterMap_cons_none found]
      omega
    | some message =>
      rw [List.filterMap_cons_some found, List.map_cons, List.sum_cons, here message found]
      omega

/-- A page of rows that kept their sizes keeps the limits its identifiers were cut by. -/
theorem bounded_of_fits {maxMessages maxBytes : Int} {lookup : Nat → Option InboundMessage}
    {sizeOf : Nat → Nat} {mids : List Nat}
    (fits : Store.Fits maxMessages.toNat maxBytes.toNat sizeOf mids)
    (sized : ∀ mid ∈ mids, ∀ message, lookup mid = some message →
      message.logicalSize = sizeOf mid) (filled : mids.filterMap lookup ≠ []) :
    (ListingCall.inReplayPages maxMessages maxBytes).Bounded (mids.filterMap lookup) := by
  have fewer := List.length_filterMap_le lookup mids
  refine ⟨Nat.le_trans fewer fits.messages, ?_⟩
  rcases fits.bytes with room | single
  · left
    exact Nat.le_trans (sum_page_le sized) room
  · right
    have nonzero := List.length_pos_iff.mpr filled
    omega

theorem Keyed.index {store : MemoryInflightStore} (keyed : Keyed store) :
    (MemoryInflightStore.replayIndex store.inbound).map Prod.fst = store.inbound.keys ∧
      ∀ entry ∈ MemoryInflightStore.replayIndex store.inbound, entry.2 = firstSize store entry.1 := by
  have each : ∀ entry ∈ store.inbound.entries, store.inbound.get? entry.1 = some entry.2 ∧
      entry.2.mid = entry.1 := by
    intro entry member
    have found := Dict.get?_eq_some_iff.mpr member
    exact ⟨found, keyed _ _ found⟩
  constructor
  · simp only [MemoryInflightStore.replayIndex, Dict.values, Dict.keys, List.map_map]
    exact List.map_congr_left fun entry member => (each entry member).2
  · simp only [MemoryInflightStore.replayIndex, Dict.values, List.map_map, List.mem_map,
      Function.comp_apply]
    rintro _ ⟨entry, member, rfl⟩
    obtain ⟨found, same⟩ := each entry member
    simp [firstSize, same, found]

/-- The pages of a listing hold every identifier, in order; those of a replay keep its limits. -/
structure Cuts (call : ListingCall) (store : MemoryInflightStore) (groups : List (List Nat)) :
    Prop where
  flatten : groups.flatten = store.mids call
  fits : ∀ maxMessages maxBytes, call = .inReplayPages maxMessages maxBytes → ∀ group ∈ groups,
    Store.Fits maxMessages.toNat maxBytes.toNat (firstSize store) group

theorem Keyed.snapshot {store : MemoryInflightStore} (keyed : Keyed store) {call : ListingCall}
    (valid : call.Valid) : ∃ groups, store.snapshot call = .ok groups ∧ Cuts call store groups := by
  cases call with
  | outSummaryPages pageSize =>
    refine ⟨_, if_neg (Int.not_le.mpr valid), flatten_pagesOf (Int.pos_iff_toNat_pos.mp valid) _ _
      (Nat.le_refl _), ?_⟩
    intro _ _ other
    cases other
  | inIndexPages pageSize =>
    refine ⟨_, if_neg (Int.not_le.mpr valid), flatten_pagesOf (Int.pos_iff_toNat_pos.mp valid) _ _
      (Nat.le_refl _), ?_⟩
    intro _ _ other
    cases other
  | inReplayPages maxMessages maxBytes =>
    obtain ⟨messages, bytes⟩ := valid
    have checked : checkReplayLimits maxMessages maxBytes = .ok ⟨⟩ := by
      rw [checkReplayLimits, if_neg (Int.not_le.mpr messages), if_neg (Int.not_le.mpr bytes)]
    refine ⟨Store.replayGroups maxMessages.toNat maxBytes.toNat
      (MemoryInflightStore.replayIndex store.inbound) [] 0, ?_, ?_, ?_⟩
    · rw [MemoryInflightStore.snapshot, checked]
      rfl
    · exact (Store.flatten_replayGroups _ [] 0).trans keyed.index.1
    · rintro _ _ ⟨⟩
      exact Store.replayGroups_fit (Int.pos_iff_toNat_pos.mp messages)
        (Int.pos_iff_toNat_pos.mp bytes) keyed.index.2
        (.nil (Int.pos_iff_toNat_pos.mp messages) (Int.pos_iff_toNat_pos.mp bytes))

/-- The rows of the identifiers are all rows. -/
theorem records_eq (store : MemoryInflightStore) (call : ListingCall) :
    (store.mids call).filterMap (store.lookup call) = store.records call := by
  cases call with
  | outSummaryPages pageSize =>
    have each := Dict.filterMap_keys store.out fun _ message =>
      OutboundMessageSummary.fromMessage message
    refine each.trans ?_
    simp [MemoryInflightStore.records, Dict.values, Function.comp_def]
  | inIndexPages pageSize => exact Dict.filterMap_keys store.inbound MemoryInflightStore.metaFor
  | inReplayPages maxMessages maxBytes =>
    have each := Dict.filterMap_keys store.inbound fun _ message => message
    simp only [Option.map_id_fun', id_eq] at each
    exact each

theorem Sized.firstSize {first store : MemoryInflightStore} (sized : Sized first store) {mid : Nat}
    (listed : mid ∈ first.inbound.keys) {message : InboundMessage}
    (found : store.inbound.get? mid = some message) :
    message.logicalSize = firstSize first mid := by
  obtain ⟨row, held, same⟩ := sized mid listed message found
  rw [Persistence.firstSize, held]
  exact same

/-- A replay over rows that kept their sizes keeps its limits on every page. -/
theorem bounded_of_shows {State : Type} {maxMessages maxBytes : Int}
    {lookup : State → Nat → Option InboundMessage} {sizeOf : Nat → Nat}
    {reading : Reading State Nat InboundMessage} (shows : Shows lookup reading)
    (fits : ∀ look ∈ reading.fetched,
      Store.Fits maxMessages.toNat maxBytes.toNat sizeOf look.1)
    (sized : ∀ look ∈ reading.fetched, ∀ mid ∈ look.1, ∀ message, lookup look.2 mid = some message →
      message.logicalSize = sizeOf mid) :
    ∀ page ∈ reading.pages, (ListingCall.inReplayPages maxMessages maxBytes).Bounded page := by
  intro page member
  obtain ⟨filled, look, listed, rfl⟩ := shows.page member
  exact bounded_of_fits (fits look listed) (sized look listed) filled

/-! Sequences of operations -/

/-- The memory backend after the same operations. -/
def twin (memory : MemoryInflightStore) (operations : List Operation) : MemoryInflightStore :=
  operations.foldl (fun store operation =>
    (ended (MemoryInflightStore.perform operation) store).2) memory

theorem sized_twin {first memory : MemoryInflightStore} {operations : List Operation}
    (spares : ∀ message, .putIn message ∈ operations → message.mid ∉ first.inbound.keys)
    (sized : Sized first memory) : Sized first (twin memory operations) := by
  unfold twin
  induction operations generalizing memory with
  | nil => exact sized
  | cons operation rest ih =>
    refine ih (fun message member => spares message (List.mem_cons_of_mem operation member)) ?_
    apply (follows_ended operation memory).sized sized
    rintro message rfl
    exact spares message List.mem_cons_self

theorem store_performAll (objects : MemoryObjects) (operations : List Operation) :
    (objects.performAll operations).store = twin objects.store operations := by
  unfold MemoryObjects.performAll twin
  induction operations generalizing objects with
  | nil => rfl
  | cons operation rest ih =>
    rw [List.foldl_cons, List.foldl_cons, ih, MemoryObjects.store_perform]

/-! The memory backend -/

namespace MemoryObjects

variable {objects : MemoryObjects} {call : ListingCall} {bodies : List (List Operation)}

/-- Operations keep a property of the rows that each of them keeps. -/
theorem Sound.performAll {operations : List Operation} (sound : objects.Sound) :
    (objects.performAll operations).Sound :=
  performAll_induct (fun operation _ _ sound => sound.perform operation) sound

/-- A listing of sound objects returns, having looked at every page once. -/
theorem Sound.list (sound : objects.Sound) (valid : call.Valid) :
    ∃ reading, objects.list call bodies = .ok reading ∧
      (reading.fetched.map Prod.fst).flatten = objects.store.mids call ∧
      Shows (seen objects.outTable call) reading ∧
      (∀ look ∈ reading.fetched, look.2.Sound) ∧
      ((∀ body ∈ bodies, body = []) → ∀ look ∈ reading.fetched, look.2 = objects) ∧
      ((∀ message, .putIn message ∈ bodies.flatten → message.mid ∉ objects.store.inbound.keys) →
        ∀ look ∈ reading.fetched, Sized objects.store look.2.store ∧
          ∀ maxMessages maxBytes, call = .inReplayPages maxMessages maxBytes →
            Store.Fits maxMessages.toNat maxBytes.toNat (firstSize objects.store) look.1) := by
  obtain ⟨groups, cut, cuts⟩ := sound.keyed.snapshot valid
  have run : ∀ invariant : MemoryObjects → Prop, invariant objects →
      (∀ body ∈ bodies, ∀ objects, invariant objects → invariant (objects.performAll body)) →
      ∃ reading, objects.list call bodies = .ok reading ∧
        reading.fetched.map Prod.fst = groups ∧ Shows (seen objects.outTable call) reading ∧
        ∀ look ∈ reading.fetched, invariant look.2 := by
    intro invariant start moves
    simp only [MemoryObjects.list, cut, bind, Except.bind]
    exact readPages_ok invariant (fun objects keys _ => fetch_eq _ call objects keys) start moves
  obtain ⟨reading, ran, covers, shows, held⟩ :=
    run Sound sound fun body _ _ sound => sound.performAll
  refine ⟨reading, ran, covers ▸ cuts.flatten, shows, held, ?_, ?_⟩
  · intro idle
    obtain ⟨_, again, _, _, same⟩ := run (· = objects) rfl fun body member _ same => by
      rw [idle body member]
      exact same
    cases ran.symm.trans again
    exact same
  · intro spares look member
    obtain ⟨_, again, _, _, sized⟩ := run (fun now => Sized objects.store now.store)
      (.self objects.store) fun body listed now sized => by
        rw [store_performAll]
        exact sized_twin (fun message put =>
          spares message (List.mem_flatten.mpr ⟨body, listed, put⟩)) sized
    cases ran.symm.trans again
    refine ⟨sized look member, fun maxMessages maxBytes replay => ?_⟩
    exact cuts.fits maxMessages maxBytes replay look.1
      (covers ▸ List.mem_map_of_mem member)

/-- A page misses no row exactly where the listing is attached. -/
theorem seen_eq_lookup_iff (sound : objects.Sound) (records : Nat) (page : List Nat) :
    (∀ mid ∈ page, seen records call objects mid = objects.store.lookup call mid) ↔
      match call with
      | .outSummaryPages _ => objects.outTable = records ∨
          ∀ mid ∈ page, objects.store.out.get? mid = none
      | .inIndexPages _ => True
      | .inReplayPages _ _ => True := by
  cases call with
  | outSummaryPages pageSize =>
    simp only [seen, table, MemoryInflightStore.lookup]
    by_cases same : records = objects.outTable
    · simp [same]
    · rw [if_neg same, sound.left records same]
      simp only [Dict.get?_empty, Option.map_none, Ne.symm same, false_or]
      refine forall₂_congr fun mid _ => ?_
      rw [eq_comm, Option.map_eq_none_iff]
  | inIndexPages pageSize => simp [seen]
  | inReplayPages maxMessages maxBytes => simp [seen]

/-- The law of a listing, and when the memory backend keeps it. -/
theorem Sound.lawful_iff (sound : objects.Sound) (valid : call.Valid) :
    ∃ reading, objects.list call bodies = .ok reading ∧
      (Lawful call (objects.store.mids call) (fun now => now.store.lookup call)
          (.ok (objects.store.records call)) bodies reading ↔
        Attached call objects.outTable reading) := by
  obtain ⟨reading, ran, covers, shows, held, idle, spares⟩ := @Sound.list objects call bodies sound valid
  have exact : Shows (fun now => now.store.lookup call) reading ↔
      Attached call objects.outTable reading := by
    rw [shows.iff_of_sparse fun look member mid => (held look member).sparse _ call mid]
    have each : ∀ look ∈ reading.fetched, _ := fun look member =>
      @seen_eq_lookup_iff _ call (held look member) objects.outTable look.1
    rw [forall₂_congr each]
    cases call with
    | outSummaryPages pageSize => rfl
    | inIndexPages pageSize => simp [Attached]
    | inReplayPages maxMessages maxBytes => simp [Attached]
  refine ⟨reading, ran, fun lawful => exact.mp lawful.shows, fun attached => ?_⟩
  have complete := exact.mpr attached
  refine ⟨?_, covers, complete, fun nothing => ?_, fun keeps => ?_⟩
  · cases call with
    | outSummaryPages pageSize => exact Dict.keys_nodup _
    | inIndexPages pageSize => exact Dict.keys_nodup _
    | inReplayPages maxMessages maxBytes => exact Dict.keys_nodup _
  · rw [complete.still (idle nothing), covers, records_eq]
  · cases call with
    | outSummaryPages pageSize => exact fun _ _ => trivial
    | inIndexPages pageSize => exact fun _ _ => trivial
    | inReplayPages maxMessages maxBytes =>
      have kept := spares keeps
      refine bounded_of_shows complete
        (fun look member => (kept look member).2 _ _ rfl) fun look member mid inside message found => ?_
      have listed : mid ∈ objects.store.inbound.keys := by
        have all : mid ∈ (reading.fetched.map Prod.fst).flatten :=
          List.mem_flatten.mpr ⟨look.1, List.mem_map_of_mem member, inside⟩
        rw [covers] at all
        exact all
      exact (kept look member).1.firstSize listed found

end MemoryObjects

/-! The SQLite backend -/

section Sqlite

variable {memory : MemoryInflightStore} {sqlite : SqliteInflightStore} {call : ListingCall}

theorem Related.keyed (related : Related codecs memory sqlite) : Keyed memory := by
  intro mid message found
  obtain ⟨rows, holds⟩ := related.inbound
  obtain ⟨row, _, _, stores⟩ := holds.row_of_get? found
  exact stores.mid

theorem Related.ended (related : Related codecs memory sqlite) {operation : Operation}
    (storable : operation.Storable codecs) :
    Related codecs (ended (MemoryInflightStore.perform operation) memory).2
      (ended (SqliteInflightStore.perform codecs operation) sqlite).2 := by
  have agreed := agree related storable
  unfold Agree Sat at agreed
  unfold Library.ended
  cases left : MemoryInflightStore.perform operation memory with
  | ok response after =>
    cases right : SqliteInflightStore.perform codecs operation sqlite with
    | ok other final =>
      simp only [left, right] at agreed
      exact agreed.2
    | error failure final => simp [left, right] at agreed
  | error failure after =>
    cases right : SqliteInflightStore.perform codecs operation sqlite with
    | ok other final => simp [left, right] at agreed
    | error other final =>
      simp only [left, right] at agreed
      exact agreed.2

section Readable

variable {Columns Value Record : Type} {stores : Nat → Value → Columns → Prop}
  {dict : Dict Nat Value} {last : Nat} {table : Table Columns} {rows : List (Row Columns)}
  {build : Row Columns → Except Failure Record} {view : Nat → Value → Record}

/-- Reading one row. -/
theorem Readable.lookup (readable : Readable table dict build view) (mid : Nat) :
    ((table.fetchOne mid).bind fun row => (build row).toOption) = (dict.get? mid).map (view mid) := by
  rcases readable.build mid with ⟨absent, missing⟩ | ⟨value, row, found, fetched, built⟩
  · rw [absent, missing]
    rfl
  · rw [found, fetched]
    simp [built, Except.toOption]

/-- Reading a page is reading its rows. -/
theorem Readable.fetch (readable : Readable table dict build view) (page : List Nat) :
    fetchByMids table page build =
      .ok (page.filterMap fun mid =>
        (table.fetchOne mid).bind fun row => (build row).toOption) := by
  rw [fetchByMids_ok readable, pageOf]
  congr 1
  exact List.filterMap_congr fun mid _ => (readable.lookup mid).symm

/-- Reading the table in the order of insertion is reading the rows of its identifiers. -/
theorem Readable.records (readable : Readable table dict build view)
    (holds : Table.Holds stores dict last table rows) :
    table.orderBySeq.mapM build =
      .ok (dict.keys.filterMap fun mid =>
        (table.fetchOne mid).bind fun row => (build row).toOption) := by
  have fetched : dict.keys.filterMap table.fetchOne = rows := by
    have each : ∀ row ∈ rows, (table.fetchOne ∘ Row.key) row = some row :=
      fun row member => holds.fetchOne_some.mpr ⟨member, rfl⟩
    rw [← holds.keys_eq, List.filterMap_map, List.filterMap_congr each]
    exact List.filterMap_some
  have read := mapM_fetched readable dict.keys
  rw [fetched, pageOf] at read
  rw [holds.orderBySeq_eq, read]
  congr 1
  exact List.filterMap_congr fun mid _ => (readable.lookup mid).symm

end Readable

theorem Related.fetch (related : Related codecs memory sqlite) (page : List Nat) :
    SqliteInflightStore.fetch codecs call sqlite page =
      .ok (page.filterMap (sqlite.lookup codecs call)) := by
  cases call with
  | outSummaryPages pageSize =>
    obtain ⟨rows, holds⟩ := related.outbound
    exact (readable_of_holds holds (fun _ _ _ stores => stores.legal)
      fun _ _ _ _ stores => rowToOutSummary_ok stores).fetch page
  | inIndexPages pageSize =>
    obtain ⟨rows, holds⟩ := related.inbound
    exact (readable_of_holds holds (fun _ _ _ stores => stores.legal)
      fun _ _ _ _ stores => rowToInMeta_ok stores).fetch page
  | inReplayPages maxMessages maxBytes =>
    obtain ⟨rows, holds⟩ := related.inbound
    exact (readable_of_holds holds (fun _ _ _ stores => stores.legal)
      fun _ _ _ _ stores => rowToIn_ok stores).fetch page

theorem Related.records (related : Related codecs memory sqlite) :
    sqlite.records codecs call =
      .ok ((memory.mids call).filterMap (sqlite.lookup codecs call)) := by
  cases call with
  | outSummaryPages pageSize =>
    obtain ⟨rows, holds⟩ := related.outbound
    exact (readable_of_holds holds (fun _ _ _ stores => stores.legal)
      fun _ _ _ _ stores => rowToOutSummary_ok stores).records holds
  | inIndexPages pageSize =>
    obtain ⟨rows, holds⟩ := related.inbound
    exact (readable_of_holds holds (fun _ _ _ stores => stores.legal)
      fun _ _ _ _ stores => rowToInMeta_ok stores).records holds
  | inReplayPages maxMessages maxBytes =>
    obtain ⟨rows, holds⟩ := related.inbound
    exact (readable_of_holds holds (fun _ _ _ stores => stores.legal)
      fun _ _ _ _ stores => rowToIn_ok stores).records holds

/-- Both backends cut a listing into the same pages. -/
theorem Related.snapshot (related : Related codecs memory sqlite) :
    sqlite.snapshot call = memory.snapshot call := by
  obtain ⟨outRows, outbound⟩ := related.outbound
  obtain ⟨inRows, inbound⟩ := related.inbound
  have outLegal := legal_of_holds outbound fun _ _ _ stores => stores.legal
  have inLegal := legal_of_holds inbound fun _ _ _ stores => stores.legal
  cases call with
  | outSummaryPages pageSize =>
    simp only [SqliteInflightStore.snapshot, MemoryInflightStore.snapshot,
      orderedMids_ok outbound outLegal]
    rfl
  | inIndexPages pageSize =>
    simp only [SqliteInflightStore.snapshot, MemoryInflightStore.snapshot,
      orderedMids_ok inbound inLegal]
    rfl
  | inReplayPages maxMessages maxBytes =>
    simp only [SqliteInflightStore.snapshot, MemoryInflightStore.snapshot, replayIndex_ok inbound]
    rfl

/-- What a replay shows of a row has the size of the row. -/
theorem Related.sized (related : Related codecs memory sqlite) {maxMessages maxBytes : Int}
    {mid : Nat} {message : InboundMessage}
    (found : sqlite.lookup codecs (.inReplayPages maxMessages maxBytes) mid = some message) :
    ∃ row, memory.inbound.get? mid = some row ∧ message.logicalSize = row.logicalSize := by
  obtain ⟨rows, holds⟩ := related.inbound
  have readable := readable_of_holds holds (fun _ _ _ stores => stores.legal)
    (fun _ _ _ _ stores => rowToIn_ok stores)
  have shown := (readable.lookup mid).symm.trans found
  obtain ⟨row, present, rfl⟩ := Option.map_eq_some_iff.mp shown
  exact ⟨row, present, rfl⟩

theorem Related.performAll {operations : List Operation}
    (storable : ∀ operation ∈ operations, operation.Storable codecs)
    (related : Related codecs memory sqlite) :
    Related codecs (twin memory operations) (sqlite.performAll codecs operations) := by
  unfold twin SqliteInflightStore.performAll
  induction operations generalizing memory sqlite with
  | nil => exact related
  | cons operation rest ih =>
    exact ih (fun other member => storable other (List.mem_cons_of_mem operation member))
      (related.ended (storable operation List.mem_cons_self))

/-- The SQLite backend keeps the law. -/
theorem Related.lawful (related : Related codecs memory sqlite) (valid : call.Valid)
    {bodies : List (List Operation)}
    (storable : ∀ operation ∈ bodies.flatten, operation.Storable codecs) :
    ∃ reading, sqlite.list codecs call bodies = .ok reading ∧
      Lawful call (memory.mids call) (fun now => now.lookup codecs call)
        (sqlite.records codecs call) bodies reading := by
  obtain ⟨groups, cut, cuts⟩ := related.keyed.snapshot valid
  have stores : ∀ body ∈ bodies, ∀ operation ∈ body, operation.Storable codecs :=
    fun body member operation inside =>
      storable operation (List.mem_flatten.mpr ⟨body, member, inside⟩)
  have run : ∀ invariant : MemoryInflightStore → SqliteInflightStore → Prop,
      invariant memory sqlite →
      (∀ body ∈ bodies, ∀ memory sqlite, invariant memory sqlite →
        invariant (twin memory body) (sqlite.performAll codecs body)) →
      ∃ reading, sqlite.list codecs call bodies = .ok reading ∧
        reading.fetched.map Prod.fst = groups ∧
        Shows (fun now => now.lookup codecs call) reading ∧
        ∀ look ∈ reading.fetched, ∃ memory, Related codecs memory look.2 ∧
          invariant memory look.2 := by
    intro invariant start moves
    simp only [SqliteInflightStore.list, related.snapshot, cut, bind, Except.bind]
    refine readPages_ok (fun now => ∃ memory, Related codecs memory now ∧ invariant memory now)
      ?_ ⟨memory, related, start⟩ ?_
    · rintro now page ⟨memory, related, _⟩
      exact related.fetch page
    · rintro body member now ⟨memory, related, held⟩
      exact ⟨twin memory body, related.performAll (stores body member),
        moves body member memory now held⟩
  obtain ⟨reading, ran, covers, shows, _⟩ :=
    run (fun _ _ => True) trivial fun _ _ _ _ _ => trivial
  refine ⟨reading, ran, ?_, covers ▸ cuts.flatten, shows, fun idle => ?_, fun keeps => ?_⟩
  · cases call with
    | outSummaryPages pageSize => exact Dict.keys_nodup _
    | inIndexPages pageSize => exact Dict.keys_nodup _
    | inReplayPages maxMessages maxBytes => exact Dict.keys_nodup _
  · obtain ⟨_, again, _, _, still⟩ := run (fun _ now => now = sqlite) rfl
      fun body member memory now same => by
        rw [idle body member]
        exact same
    cases ran.symm.trans again
    have same : ∀ look ∈ reading.fetched, look.2 = sqlite := by
      intro look member
      obtain ⟨_, _, same⟩ := still look member
      exact same
    rw [shows.still same, covers, cuts.flatten]
    exact related.records
  · cases call with
    | outSummaryPages pageSize => exact fun _ _ => trivial
    | inIndexPages pageSize => exact fun _ _ => trivial
    | inReplayPages maxMessages maxBytes =>
      obtain ⟨_, again, _, _, sized⟩ := run (fun now _ => Sized memory now) (.self memory)
        fun body member now _ sized => sized_twin (fun message put =>
          keeps message (List.mem_flatten.mpr ⟨body, member, put⟩)) sized
      cases ran.symm.trans again
      refine bounded_of_shows shows (fun look member => cuts.fits _ _ rfl look.1
        (covers ▸ List.mem_map_of_mem member)) fun look member mid inside message found => ?_
      obtain ⟨now, related, kept⟩ := sized look member
      obtain ⟨row, present, same⟩ := related.sized found
      have listed : mid ∈ memory.inbound.keys := by
        have all : mid ∈ (reading.fetched.map Prod.fst).flatten :=
          List.mem_flatten.mpr ⟨look.1, List.mem_map_of_mem member, inside⟩
        rw [covers, cuts.flatten] at all
        exact all
      exact same.trans (kept.firstSize listed present)

end Sqlite

/-- A listing that is read while rows are deleted, replaced and inserted shows, page after
page, the current row of every identifier that has one. The SQLite backend keeps this law, and
so do the inbound listings of the memory backend. Its outbound listing keeps it exactly where no
page is read from a table that was left empty in between while the table in use has a row of it. -/
theorem listing_lawful (codecs : TextCodecs) (operations : List Operation) (call : ListingCall)
    (valid : call.Valid) (bodies : List (List Operation)) :
    let objects := MemoryObjects.performAll {} operations
    let sqlite := SqliteInflightStore.performAll codecs {} operations
    (∃ reading, objects.list call bodies = .ok reading ∧
      (Lawful call (objects.store.mids call) (fun now => now.store.lookup call)
          (.ok (objects.store.records call)) bodies reading ↔
        Attached call objects.outTable reading)) ∧
    ((∀ operation ∈ operations ++ bodies.flatten, operation.Storable codecs) →
      ∃ reading, sqlite.list codecs call bodies = .ok reading ∧
        Lawful call (objects.store.mids call) (fun now => now.lookup codecs call)
          (sqlite.records codecs call) bodies reading) := by
  dsimp only
  constructor
  · exact MemoryObjects.Sound.fresh.performAll.lawful_iff valid
  · intro storable
    rw [store_performAll]
    have related : Related codecs (twin {} operations)
        (SqliteInflightStore.performAll codecs {} operations) :=
      related_empty.performAll fun operation member =>
        storable operation (List.mem_append_left _ member)
    exact related.lawful valid fun operation member =>
      storable operation (List.mem_append_right _ member)

/-- Two publications to list. -/
def listed (mid : Nat) : OutboundMessage := { correlated with mid, properties := none }

theorem listing_lawful_listed :
    ∃ reading, (SqliteInflightStore.performAll correlatedCodecs {}
        [.putOut (listed 1), .putOut (listed 2)]).list correlatedCodecs (.outSummaryPages 1)
          [[.deleteOut 1, .deleteOut 2, .putOut (listed 2)]] = .ok reading ∧
      Shows (fun now => now.lookup correlatedCodecs (.outSummaryPages 1)) reading := by
  obtain ⟨reading, ran, lawful⟩ := (listing_lawful correlatedCodecs
    [.putOut (listed 1), .putOut (listed 2)] (.outSummaryPages 1) Int.one_pos
    [[.deleteOut 1, .deleteOut 2, .putOut (listed 2)]]).2 (by
      have put : ∀ mid, 1 ≤ mid ∧ mid ≤ 65535 →
          (Operation.putOut (listed mid)).Storable correlatedCodecs := by
        intro mid legal
        have topic : correlated.topic.encodeUtf8.isSome = true := by decide
        refine ⟨legal, topic, ⟨_, rfl⟩, ?_⟩
        rintro table ⟨⟩
      simp only [List.flatten_cons, List.flatten_nil, List.append_nil, List.cons_append,
        List.nil_append, List.forall_mem_cons]
      exact ⟨put 1 (by decide), put 2 (by decide), trivial, trivial, put 2 (by decide), by simp⟩)
  exact ⟨reading, ran, lawful.shows⟩

/-- A row that is deleted and put again between two pages is missing from the second one. -/
theorem listing_loses :
    ∃ reading, (MemoryObjects.performAll {} [.putOut (listed 1), .putOut (listed 2)]).list
        (.outSummaryPages 1) [[.deleteOut 1, .deleteOut 2, .putOut (listed 2)]] = .ok reading ∧
      ¬ Lawful (.outSummaryPages 1) [1, 2] (fun now => now.store.lookup (.outSummaryPages 1))
        (.ok [.fromMessage (listed 1), .fromMessage (listed 2)])
        [[.deleteOut 1, .deleteOut 2, .putOut (listed 2)]] reading := by
  refine ⟨_, rfl, fun lawful => ?_⟩
  have shows := lawful.shows
  unfold Shows at shows
  revert shows
  decide

end Mqttium.Persistence
