import Mqttium.Persistence.Memory
import Mqttium.Persistence.Paging
import Mqttium.Persistence.Revival

/-! The two backends answer alike. Every record of the memory backend is a row of
the SQLite one, and sorting the rows by number gives the insertion order. -/

namespace Mqttium.Persistence

open Library Codec

variable {codecs : TextCodecs}

/-- What the engine stores: a packet identifier, a topic that is well-formed text, and
a size. -/
structure StorableOut (codecs : TextCodecs) (message : OutboundMessage) : Prop where
  legal : 1 ≤ message.mid ∧ message.mid ≤ 65535
  sized : message.logicalSize ≠ 0
  topic : message.topic.encodeUtf8.isSome = true
  revives : Revives codecs message.properties

structure StorableIn (codecs : TextCodecs) (message : InboundMessage) : Prop where
  legal : 1 ≤ message.mid ∧ message.mid ≤ 65535
  sized : message.logicalSize ≠ 0
  topic : message.topic.encodeUtf8.isSome = true
  revives : Revives codecs message.properties

/-- The columns of a row hold the record. -/
structure OutStores (codecs : TextCodecs) (mid : Nat) (message : OutboundMessage)
    (columns : OutboundColumns) : Prop where
  mid : message.mid = mid
  columns : columns = SqliteInflightStore.outColumns codecs message
  storable : StorableOut codecs message

structure InStores (codecs : TextCodecs) (mid : Nat) (message : InboundMessage)
    (columns : InboundColumns) : Prop where
  mid : message.mid = mid
  columns : columns = SqliteInflightStore.inColumns codecs message
  storable : StorableIn codecs message

theorem storedMid_ok {mid : Nat} (legal : 1 ≤ mid ∧ mid ≤ 65535) : storedMid mid = .ok mid :=
  if_pos legal

theorem storedBool_toNat (column : String) (value : Bool) :
    storedBool column value.toNat = .ok value := by
  cases value <;> rfl

theorem storedLogicalSize_ok {size : Nat} (sized : size ≠ 0) : storedLogicalSize size = .ok size :=
  if_neg sized

theorem storedQos_level (qos : QoS) : storedQos qos.level = .ok qos := by
  cases qos <;> rfl

theorem storedOutState_code (state : OutboundQoSState) : storedOutState state.code = .ok state := by
  cases state <;> rfl

theorem storedInState_code (state : InboundQoSState) : storedInState state.code = .ok state := by
  cases state <;> rfl

variable {mid seq : Nat}

theorem rowToOut_ok {message : OutboundMessage} {columns : OutboundColumns}
    (stores : OutStores codecs mid message columns) :
    rowToOut codecs { key := mid, seq, columns } = .ok (canonicalOut message) := by
  obtain ⟨rfl, rfl, storable⟩ := stores
  have revives := storable.revives
  unfold Revives at revives
  simp only [rowToOut, SqliteInflightStore.outColumns, storedMid_ok storable.legal,
    storedQos_level, storedBool_toNat, storedOutState_code, revives,
    storedLogicalSize_ok storable.sized, bind, Except.bind]
  rfl

theorem rowToOutSummary_ok {message : OutboundMessage} {columns : OutboundColumns}
    (stores : OutStores codecs mid message columns) :
    rowToOutSummary codecs { key := mid, seq, columns } =
      .ok (canonicalSummary (.fromMessage message)) := by
  obtain ⟨rfl, rfl, storable⟩ := stores
  have revives := storable.revives
  unfold Revives at revives
  simp only [rowToOutSummary, SqliteInflightStore.outColumns, storedMid_ok storable.legal,
    storedQos_level, storedBool_toNat, storedOutState_code, revives,
    storedLogicalSize_ok storable.sized, bind, Except.bind]
  rfl

theorem storedOutTransition_ok {message : OutboundMessage} {columns : OutboundColumns}
    (stores : OutStores codecs mid message columns) :
    storedOutTransition { key := mid, seq, columns } =
      .ok (message.state, message.logicalSize, seq) := by
  obtain ⟨rfl, rfl, storable⟩ := stores
  simp only [storedOutTransition, SqliteInflightStore.outColumns, storedOutState_code,
    storedLogicalSize_ok storable.sized, bind, Except.bind]
  rfl

theorem rowToIn_ok {message : InboundMessage} {columns : InboundColumns}
    (stores : InStores codecs mid message columns) :
    rowToIn codecs { key := mid, seq, columns } = .ok (canonicalIn message) := by
  obtain ⟨rfl, rfl, storable⟩ := stores
  have revives := storable.revives
  unfold Revives at revives
  simp only [rowToIn, SqliteInflightStore.inColumns, storedMid_ok storable.legal,
    storedQos_level, storedBool_toNat, storedInState_code, revives,
    storedLogicalSize_ok storable.sized, bind, Except.bind]
  rfl

theorem rowToInMeta_ok {message : InboundMessage} {columns : InboundColumns}
    (stores : InStores codecs mid message columns) :
    rowToInMeta { key := mid, seq, columns } = .ok (MemoryInflightStore.metaFor mid message) := by
  obtain ⟨rfl, rfl, storable⟩ := stores
  simp only [rowToInMeta, SqliteInflightStore.inColumns, storedMid_ok storable.legal,
    storedBool_toNat, storedInState_code, storedLogicalSize_ok storable.sized, bind, Except.bind]
  rfl

theorem storedInTransition_ok {message : InboundMessage} {columns : InboundColumns}
    (stores : InStores codecs mid message columns) :
    storedInTransition { key := mid, seq, columns } =
      .ok (message.state, message.userAcked, message.delivered, message.logicalSize, seq) := by
  obtain ⟨rfl, rfl, storable⟩ := stores
  simp only [storedInTransition, SqliteInflightStore.inColumns, storedBool_toNat,
    storedInState_code, storedLogicalSize_ok storable.sized, bind, Except.bind]
  rfl

/-- The backends hold the same records in the same order. -/
structure Related (codecs : TextCodecs) (memory : MemoryInflightStore)
    (sqlite : SqliteInflightStore) : Prop where
  outbound : ∃ rows,
    Table.Holds (OutStores codecs) memory.out sqlite.outSeq sqlite.outbound rows
  inbound : ∃ rows,
    Table.Holds (InStores codecs) memory.inbound sqlite.inSeq sqlite.inbound rows

theorem related_empty : Related codecs {} {} :=
  ⟨⟨[], .empty⟩, ⟨[], .empty⟩⟩

/-- Both calls return, with the same canonical response, or both raise the same
exception; either way the backends stay related. -/
def Agree (codecs : TextCodecs) (left : MemoryM Response) (right : SqliteM Response)
    (memory : MemoryInflightStore) (sqlite : SqliteInflightStore) : Prop :=
  Sat left memory
    (fun response after => Sat right sqlite
      (fun other final => response.canonical = other.canonical ∧ Related codecs after final)
      (fun _ _ => False))
    (fun failure after => Sat right sqlite (fun _ _ => False)
      (fun other final => failure = other ∧ Related codecs after final))

variable {memory : MemoryInflightStore} {sqlite : SqliteInflightStore}

theorem legal_of_holds {Columns Value : Type} {stores : Nat → Value → Columns → Prop}
    {dict : Dict Nat Value} {last : Nat} {table : Table Columns} {rows : List (Row Columns)}
    (holds : Table.Holds stores dict last table rows)
    (legal : ∀ key value columns, stores key value columns → 1 ≤ key ∧ key ≤ 65535) :
    Legal table := by
  intro row member
  obtain ⟨value, _, stored⟩ := holds.mem_rows (holds.perm.subset member)
  exact legal _ _ _ stored

theorem nodup_of_holds {Columns Value : Type} {stores : Nat → Value → Columns → Prop}
    {dict : Dict Nat Value} {last : Nat} {table : Table Columns} {rows : List (Row Columns)}
    (holds : Table.Holds stores dict last table rows) : (table.map Row.key).Nodup :=
  (holds.perm.map Row.key).nodup_iff.mpr holds.nodup

theorem readable_of_holds {Columns Value Record : Type} {stores : Nat → Value → Columns → Prop}
    {dict : Dict Nat Value} {last : Nat} {table : Table Columns} {rows : List (Row Columns)}
    (holds : Table.Holds stores dict last table rows)
    (legal : ∀ key value columns, stores key value columns → 1 ≤ key ∧ key ≤ 65535)
    {build : Row Columns → Except Failure Record} {view : Nat → Value → Record}
    (built : ∀ key seq value columns, stores key value columns →
      build { key, seq, columns } = .ok (view key value)) :
    Readable table dict build view where
  legal := legal_of_holds holds legal
  nodup := nodup_of_holds holds
  build := by
    intro key
    rcases holds.fetchOne key with absent | ⟨value, row, found, fetched, _, rfl, stored⟩
    · exact .inl absent
    · exact .inr ⟨value, row, found, fetched, built _ _ _ _ stored⟩

theorem OutStores.legal {message : OutboundMessage} {columns : OutboundColumns}
    (stores : OutStores codecs mid message columns) : 1 ≤ mid ∧ mid ≤ 65535 :=
  stores.mid ▸ stores.storable.legal

theorem InStores.legal {message : InboundMessage} {columns : InboundColumns}
    (stores : InStores codecs mid message columns) : 1 ≤ mid ∧ mid ≤ 65535 :=
  stores.mid ▸ stores.storable.legal

/-- The record a call may put. -/
def Operation.Storable (codecs : TextCodecs) : Operation → Prop
  | .putOut message =>
    (1 ≤ message.mid ∧ message.mid ≤ 65535) ∧ message.topic.encodeUtf8.isSome = true ∧
      (∃ data, encodeProperties message.properties .publish = .ok data) ∧
      ∀ table, message.properties = some table → RoundTrips codecs table
  | .putIn message =>
    (1 ≤ message.mid ∧ message.mid ≤ 65535) ∧ message.topic.encodeUtf8.isSome = true ∧
      (∃ data, encodeProperties message.properties .publish = .ok data) ∧
      ∀ table, message.properties = some table → RoundTrips codecs table
  | _ => True

section

attribute [local simp] MemoryInflightStore.perform SqliteInflightStore.perform

theorem agree_putOut (related : Related codecs memory sqlite) {message : OutboundMessage}
    (storable : (Operation.putOut message).Storable codecs) :
    Agree codecs (MemoryInflightStore.perform (.putOut message))
      (SqliteInflightStore.perform codecs (.putOut message)) memory sqlite := by
  obtain ⟨legal, topic, ⟨data, encodes⟩, roundTrips⟩ := storable
  obtain ⟨rows, holds⟩ := related.outbound
  simp only [Agree, MemoryInflightStore.perform, SqliteInflightStore.perform,
    MemoryInflightStore.putOut, SqliteInflightStore.putOut, sat_bind, sat_raiseIf, sat_modify,
    sat_pure, bindText, topic, ↓reduceIte, sat_fromExcept_ok]
  by_cases sized : message.logicalSize = 0
  · simp only [sized, not_true_eq_false, false_imp_iff, true_imp_iff, and_true]
    exact ⟨trivial, related⟩
  · simp only [sized, not_false_eq_true, false_imp_iff, true_imp_iff, true_and]
    have stored : OutStores codecs message.mid message
        (SqliteInflightStore.outColumns codecs message) :=
      ⟨rfl, rfl, legal, sized, topic, revives encodes roundTrips⟩
    exact ⟨holds.upsert stored, related.inbound⟩

theorem canonicalProperties_idem (properties : Option Properties) :
    canonicalProperties (canonicalProperties properties) = canonicalProperties properties := by
  unfold canonicalProperties
  split
  · simp
  · rfl

theorem canonicalOut_idem (message : OutboundMessage) :
    canonicalOut (canonicalOut message) = canonicalOut message := by
  simp [canonicalOut, canonicalProperties_idem]

theorem canonicalIn_idem (message : InboundMessage) :
    canonicalIn (canonicalIn message) = canonicalIn message := by
  simp [canonicalIn, canonicalProperties_idem]

theorem canonicalSummary_idem (summary : OutboundMessageSummary) :
    canonicalSummary (canonicalSummary summary) = canonicalSummary summary := by
  simp [canonicalSummary, canonicalProperties_idem]

theorem agree_getOut (related : Related codecs memory sqlite) (mid : Nat) :
    Agree codecs (MemoryInflightStore.perform (.getOut mid))
      (SqliteInflightStore.perform codecs (.getOut mid)) memory sqlite := by
  obtain ⟨rows, holds⟩ := related.outbound
  simp only [Agree, MemoryInflightStore.perform, SqliteInflightStore.perform,
    SqliteInflightStore.getOut, sat_bind, sat_get, sat_pure]
  rcases holds.fetchOne mid with ⟨absent, missing⟩ | ⟨message, row, found, fetched, _, rfl, stored⟩
  · rw [absent, missing]
    exact ⟨rfl, related⟩
  · rw [found, fetched]
    simp only [sat_bind, rowToOut_ok stored, sat_fromExcept_ok, sat_pure]
    refine ⟨?_, related⟩
    simp [Response.canonical, canonicalOut_idem]

theorem agree_deleteOut (related : Related codecs memory sqlite) (mid : Nat) :
    Agree codecs (MemoryInflightStore.perform (.deleteOut mid))
      (SqliteInflightStore.perform codecs (.deleteOut mid)) memory sqlite := by
  obtain ⟨rows, holds⟩ := related.outbound
  have aimed : ∀ row ∈ rows, decide (row.key = mid) = decide (row.key = mid) := fun _ _ => rfl
  have counted := holds.countP_eq_zero aimed
  simp only [Agree, MemoryInflightStore.perform, SqliteInflightStore.perform,
    MemoryInflightStore.deleteOut, SqliteInflightStore.deleteOut, sat_bind, sat_get, sat_modify,
    sat_pure, Table.deleteWhere]
  refine ⟨?_, ⟨_, holds.delete aimed⟩, related.inbound⟩
  cases found : memory.out.get? mid with
  | none => simp [Response.canonical, counted.mpr found]
  | some message =>
    simp [Response.canonical, Nat.pos_of_ne_zero (holds.hit aimed found)]

theorem agree_outSummaryPages (related : Related codecs memory sqlite) (pageSize : Int) :
    Agree codecs (MemoryInflightStore.perform (.outSummaryPages pageSize))
      (SqliteInflightStore.perform codecs (.outSummaryPages pageSize)) memory sqlite := by
  obtain ⟨rows, holds⟩ := related.outbound
  have readable := readable_of_holds holds (fun _ _ _ stores => stores.legal)
    (fun _ _ _ _ stores => rowToOutSummary_ok stores)
  simp only [Agree, MemoryInflightStore.perform, SqliteInflightStore.perform,
    MemoryInflightStore.outSummaryPages, SqliteInflightStore.outSummaryPages,
    MemoryInflightStore.pages, tablePages_ok holds readable, sat_bind, sat_get]
  split
  · simp only [sat_fromExcept_error]
    exact ⟨trivial, related⟩
  · simp only [sat_fromExcept_ok, sat_pure]
    refine ⟨?_, related⟩
    rw [pageOf_self]
    simp only [Response.canonical, map_pages, canonicalSummary_idem]

theorem agree_outMeta (related : Related codecs memory sqlite) (mid : Nat) :
    Agree codecs (MemoryInflightStore.perform (.outMeta mid))
      (SqliteInflightStore.perform codecs (.outMeta mid)) memory sqlite := by
  obtain ⟨rows, holds⟩ := related.outbound
  simp only [Agree, MemoryInflightStore.perform, SqliteInflightStore.perform,
    MemoryInflightStore.outMeta, SqliteInflightStore.outMeta, sat_bind, sat_get, sat_pure]
  rcases holds.fetchOne mid with ⟨absent, missing⟩ | ⟨message, row, found, fetched, _, rfl, stored⟩
  · rw [absent, missing]
    exact ⟨rfl, related⟩
  · rw [found, fetched]
    simp only [sat_bind, storedOutTransition_ok stored, sat_fromExcept_ok, sat_pure]
    exact ⟨rfl, related⟩

theorem agree_completeOut (related : Related codecs memory sqlite) (mid : Nat)
    (expected : OutboundQoSState) :
    Agree codecs (MemoryInflightStore.perform (.completeOut mid expected))
      (SqliteInflightStore.perform codecs (.completeOut mid expected)) memory sqlite := by
  obtain ⟨rows, holds⟩ := related.outbound
  simp only [Agree, MemoryInflightStore.perform, SqliteInflightStore.perform,
    MemoryInflightStore.completeOut, SqliteInflightStore.completeOut, sat_bind, sat_get, sat_pure]
  rcases holds.fetchOne mid with
    ⟨absent, missing⟩ | ⟨message, row, found, fetched, member, rfl, stored⟩
  · rw [absent, missing]
    exact ⟨rfl, related⟩
  · rw [found, fetched]
    simp only [sat_bind, storedOutTransition_ok stored, sat_fromExcept_ok]
    by_cases state : message.state = expected
    · have itself : row.columns.state = expected.code ∧ row.seq = row.seq := by
        rw [stored.columns, ← state]
        exact ⟨rfl, rfl⟩
      have aimed := holds.aimed member
        (fun other => other.columns.state = expected.code ∧ other.seq = row.seq) itself
      have counted := holds.hit aimed found
      simp only [state, ne_eq, not_true_eq_false, ↓reduceIte, MemoryInflightStore.deleteOut,
        Table.deleteWhere, sat_bind, sat_get, sat_modify, sat_pure, counted]
      exact ⟨trivial, ⟨_, holds.delete aimed⟩, related.inbound⟩
    · simp only [state, ne_eq, not_false_eq_true, ↓reduceIte, sat_pure]
      exact ⟨trivial, related⟩

theorem OutStores.moved {message : OutboundMessage} {columns : OutboundColumns}
    (stores : OutStores codecs mid message columns) (next : OutboundQoSState) (compact : Bool) :
    OutStores codecs mid (MemoryInflightStore.movedOut next compact message)
      (SqliteInflightStore.assignedOut next compact columns) := by
  obtain ⟨rfl, rfl, storable⟩ := stores
  cases compact with
  | false => exact ⟨rfl, rfl, storable.legal, storable.sized, storable.topic, storable.revives⟩
  | true => exact ⟨rfl, rfl, storable.legal, storable.sized, rfl, revives_none⟩

theorem agree_transitionOut (related : Related codecs memory sqlite) (mid : Nat)
    (expected next : OutboundQoSState) (compact : Bool) :
    Agree codecs (MemoryInflightStore.perform (.transitionOut mid expected next compact))
      (SqliteInflightStore.perform codecs (.transitionOut mid expected next compact))
      memory sqlite := by
  obtain ⟨rows, holds⟩ := related.outbound
  simp only [Agree, MemoryInflightStore.perform, SqliteInflightStore.perform,
    MemoryInflightStore.transitionOut, SqliteInflightStore.transitionOut, sat_bind, sat_get]
  rcases holds.fetchOne mid with
    ⟨absent, missing⟩ | ⟨message, row, found, fetched, member, rfl, stored⟩
  · rw [absent, missing]
    exact ⟨rfl, related⟩
  · rw [found, fetched]
    simp only [sat_bind, storedOutTransition_ok stored, sat_fromExcept_ok]
    by_cases state : message.state = expected
    · have itself : row.columns.state = expected.code ∧ row.seq = row.seq := by
        rw [stored.columns, ← state]
        exact ⟨rfl, rfl⟩
      have aimed := holds.aimed member
        (fun other => other.columns.state = expected.code ∧ other.seq = row.seq) itself
      have counted := holds.hit aimed found
      simp only [state, ne_eq, not_true_eq_false, ↓reduceIte, Table.updateWhere, sat_bind, sat_get,
        sat_modify, sat_pure, counted]
      have updated := holds.update aimed (MemoryInflightStore.movedOut next compact)
        (SqliteInflightStore.assignedOut next compact) fun _ _ _ kept => kept.moved next compact
      exact ⟨trivial, updated, related.inbound⟩
    · simp only [state, ne_eq, not_false_eq_true, ↓reduceIte, sat_pure]
      exact ⟨trivial, related⟩

theorem agree_clearOut (related : Related codecs memory sqlite) :
    Agree codecs (MemoryInflightStore.perform .clearOut)
      (SqliteInflightStore.perform codecs .clearOut) memory sqlite := by
  simp only [Agree, MemoryInflightStore.perform, SqliteInflightStore.perform, sat_bind, sat_modify,
    sat_pure, Table.deleteWhere, Bool.not_true, List.filter_false]
  exact ⟨trivial, ⟨[], .empty⟩, related.inbound⟩

theorem agree_putIn (related : Related codecs memory sqlite) {message : InboundMessage}
    (storable : (Operation.putIn message).Storable codecs) :
    Agree codecs (MemoryInflightStore.perform (.putIn message))
      (SqliteInflightStore.perform codecs (.putIn message)) memory sqlite := by
  obtain ⟨legal, topic, ⟨data, encodes⟩, roundTrips⟩ := storable
  obtain ⟨rows, holds⟩ := related.inbound
  simp only [Agree, MemoryInflightStore.perform, SqliteInflightStore.perform,
    MemoryInflightStore.putIn, SqliteInflightStore.putIn, sat_bind, sat_raiseIf, sat_modify,
    sat_pure, bindText, topic, ↓reduceIte, sat_fromExcept_ok]
  by_cases sized : message.logicalSize = 0
  · simp only [sized, not_true_eq_false, false_imp_iff, true_imp_iff, and_true]
    exact ⟨trivial, related⟩
  · simp only [sized, not_false_eq_true, false_imp_iff, true_imp_iff, true_and]
    have stored : InStores codecs message.mid message
        (SqliteInflightStore.inColumns codecs message) :=
      ⟨rfl, rfl, legal, sized, topic, revives encodes roundTrips⟩
    exact ⟨related.outbound, holds.upsert stored⟩

theorem agree_getIn (related : Related codecs memory sqlite) (mid : Nat) :
    Agree codecs (MemoryInflightStore.perform (.getIn mid))
      (SqliteInflightStore.perform codecs (.getIn mid)) memory sqlite := by
  obtain ⟨rows, holds⟩ := related.inbound
  simp only [Agree, MemoryInflightStore.perform, SqliteInflightStore.perform,
    SqliteInflightStore.getIn, sat_bind, sat_get, sat_pure]
  rcases holds.fetchOne mid with ⟨absent, missing⟩ | ⟨message, row, found, fetched, _, rfl, stored⟩
  · rw [absent, missing]
    exact ⟨rfl, related⟩
  · rw [found, fetched]
    simp only [sat_bind, rowToIn_ok stored, sat_fromExcept_ok, sat_pure]
    refine ⟨?_, related⟩
    simp [Response.canonical, canonicalIn_idem]

theorem agree_inCount (related : Related codecs memory sqlite) :
    Agree codecs (MemoryInflightStore.perform .inCount)
      (SqliteInflightStore.perform codecs .inCount) memory sqlite := by
  obtain ⟨rows, holds⟩ := related.inbound
  simp only [Agree, MemoryInflightStore.perform, SqliteInflightStore.perform, sat_bind, sat_get,
    sat_pure]
  refine ⟨?_, related⟩
  have length : memory.inbound.size = sqlite.inbound.length := by
    rw [holds.perm.length_eq]
    exact holds.entries.length_eq
  rw [length]

/-- Both replay indexes list the same identifiers and sizes. -/
theorem replayIndex_ok {rows : List (Row InboundColumns)}
    (holds : Table.Holds (InStores codecs) memory.inbound sqlite.inSeq sqlite.inbound rows) :
    SqliteInflightStore.replayIndex sqlite.inbound =
      .ok (MemoryInflightStore.replayIndex memory.inbound) := by
  have entries := holds.entries
  rw [SqliteInflightStore.replayIndex, MemoryInflightStore.replayIndex, Dict.values,
    holds.orderBySeq_eq]
  clear holds
  generalize memory.inbound.entries = listed at entries
  induction entries with
  | nil => rfl
  | cons matched _ ih =>
    obtain ⟨same, stores⟩ := matched
    rw [List.mapM_cons, ih, ← same, storedMid_ok stores.legal, stores.columns]
    simp only [bind, Except.bind, pure, Except.pure, List.map_cons, stores.mid]
    rfl

theorem agree_inReplayPages (related : Related codecs memory sqlite) (maxMessages maxBytes : Int) :
    Agree codecs (MemoryInflightStore.perform (.inReplayPages maxMessages maxBytes))
      (SqliteInflightStore.perform codecs (.inReplayPages maxMessages maxBytes)) memory sqlite := by
  obtain ⟨rows, holds⟩ := related.inbound
  have readable := readable_of_holds holds (fun _ _ _ stores => stores.legal)
    (fun _ _ _ _ stores => rowToIn_ok stores)
  simp only [Agree, MemoryInflightStore.perform, SqliteInflightStore.perform,
    MemoryInflightStore.inReplayPages, SqliteInflightStore.inReplayPages, sat_bind]
  cases checked : checkReplayLimits maxMessages maxBytes with
  | error failure =>
    simp only [sat_fromExcept_error]
    exact ⟨trivial, related⟩
  | ok _ =>
    simp only [sat_fromExcept_ok, sat_get, sat_pure, replayIndex_ok holds,
      hydratePages_ok readable]
    refine ⟨?_, related⟩
    rw [pageOf_self]
    simp only [Response.canonical, map_pages, canonicalIn_idem]

theorem agree_inMeta (related : Related codecs memory sqlite) (mid : Nat) :
    Agree codecs (MemoryInflightStore.perform (.inMeta mid))
      (SqliteInflightStore.perform codecs (.inMeta mid)) memory sqlite := by
  obtain ⟨rows, holds⟩ := related.inbound
  simp only [Agree, MemoryInflightStore.perform, SqliteInflightStore.perform,
    MemoryInflightStore.inMeta, SqliteInflightStore.inMeta, sat_bind, sat_get, sat_pure]
  rcases holds.fetchOne mid with ⟨absent, missing⟩ | ⟨message, row, found, fetched, _, rfl, stored⟩
  · rw [absent, missing]
    exact ⟨rfl, related⟩
  · rw [found, fetched]
    simp only [sat_bind, storedInTransition_ok stored, sat_fromExcept_ok, sat_pure]
    exact ⟨rfl, related⟩

theorem agree_inIndexPages (related : Related codecs memory sqlite) (pageSize : Int) :
    Agree codecs (MemoryInflightStore.perform (.inIndexPages pageSize))
      (SqliteInflightStore.perform codecs (.inIndexPages pageSize)) memory sqlite := by
  obtain ⟨rows, holds⟩ := related.inbound
  have readable := readable_of_holds holds (fun _ _ _ stores => stores.legal)
    (fun _ _ _ _ stores => rowToInMeta_ok stores)
  simp only [Agree, MemoryInflightStore.perform, SqliteInflightStore.perform,
    MemoryInflightStore.inIndexPages, SqliteInflightStore.inIndexPages,
    tablePages_ok holds readable, sat_bind, sat_get, sat_raiseIf, sat_pure]
  by_cases refused : pageSize ≤ 0
  · simp only [refused, ↓reduceIte, sat_fromExcept_error, not_true_eq_false, false_imp_iff,
      true_imp_iff, and_true]
    exact ⟨trivial, related⟩
  · simp only [refused, ↓reduceIte, sat_fromExcept_ok, not_false_eq_true, false_imp_iff,
      true_imp_iff, true_and]
    exact ⟨rfl, related⟩

theorem InStores.marked {message : InboundMessage} {columns : InboundColumns}
    (stores : InStores codecs mid message columns) :
    InStores codecs mid { message with delivered := true } { columns with delivered := 1 } := by
  obtain ⟨rfl, rfl, storable⟩ := stores
  exact ⟨rfl, rfl, storable.legal, storable.sized, storable.topic, storable.revives⟩

theorem agree_markInDelivered (related : Related codecs memory sqlite) (mid : Nat) :
    Agree codecs (MemoryInflightStore.perform (.markInDelivered mid))
      (SqliteInflightStore.perform codecs (.markInDelivered mid)) memory sqlite := by
  obtain ⟨rows, holds⟩ := related.inbound
  simp only [Agree, MemoryInflightStore.perform, SqliteInflightStore.perform,
    MemoryInflightStore.markInDelivered, SqliteInflightStore.markInDelivered, sat_bind, sat_get,
    sat_modify, sat_pure]
  rcases holds.fetchOne mid with
    ⟨absent, _⟩ | ⟨message, row, found, fetched, member, rfl, stored⟩
  · have none : ∀ row ∈ sqlite.inbound,
        decide (row.key = mid ∧ row.columns.delivered = 0) = false := by
      intro row member
      obtain ⟨value, present, _⟩ := holds.mem_rows (holds.perm.subset member)
      simp only [decide_eq_false_iff_not, not_and]
      rintro rfl
      rw [absent] at present
      cases present
    rw [absent, Table.updateWhere_none _ none]
    exact ⟨rfl, related⟩
  · rw [found]
    cases delivered : message.delivered with
    | true =>
      have none : ∀ other ∈ sqlite.inbound,
          decide (other.key = row.key ∧ other.columns.delivered = 0) = false := by
        intro other also
        simp only [decide_eq_false_iff_not, not_and]
        intro same
        rw [(holds.key_eq_iff member (holds.perm.subset also)).mp same, stored.columns]
        simp [SqliteInflightStore.inColumns, delivered]
      rw [Table.updateWhere_none _ none]
      simp only [delivered, ↓reduceIte, sat_pure]
      exact ⟨rfl, related⟩
    | false =>
      have itself : row.columns.delivered = 0 := by
        rw [stored.columns]
        simp [SqliteInflightStore.inColumns, delivered]
      have aimed := holds.aimed member (fun other => other.columns.delivered = 0) itself
      have counted := holds.hit aimed found
      have updated := holds.update aimed (fun message => { message with delivered := true })
        (fun columns => { columns with delivered := 1 }) fun _ _ _ kept => kept.marked
      simp only [delivered, Bool.false_eq_true, ↓reduceIte, sat_bind, sat_modify, sat_pure,
        Table.updateWhere]
      refine ⟨?_, related.outbound, updated⟩
      rw [decide_eq_true (Nat.pos_of_ne_zero counted)]

theorem InStores.moved {message : InboundMessage} {columns : InboundColumns}
    (stores : InStores codecs mid message columns) (next : InboundQoSState)
    (userAcked : Option Bool) :
    InStores codecs mid (MemoryInflightStore.movedIn next userAcked message)
      (SqliteInflightStore.assignedIn next userAcked columns) := by
  obtain ⟨rfl, rfl, storable⟩ := stores
  cases userAcked <;>
    exact ⟨rfl, rfl, storable.legal, storable.sized, storable.topic, storable.revives⟩

theorem agree_transitionIn (related : Related codecs memory sqlite) (mid : Nat)
    (expected next : InboundQoSState) (userAcked : Option Bool) :
    Agree codecs (MemoryInflightStore.perform (.transitionIn mid expected next userAcked))
      (SqliteInflightStore.perform codecs (.transitionIn mid expected next userAcked))
      memory sqlite := by
  obtain ⟨rows, holds⟩ := related.inbound
  simp only [Agree, MemoryInflightStore.perform, SqliteInflightStore.perform,
    MemoryInflightStore.transitionIn, SqliteInflightStore.transitionIn, sat_bind, sat_get]
  rcases holds.fetchOne mid with
    ⟨absent, missing⟩ | ⟨message, row, found, fetched, member, rfl, stored⟩
  · rw [absent, missing]
    exact ⟨rfl, related⟩
  · rw [found, fetched]
    simp only [sat_bind, storedInTransition_ok stored, sat_fromExcept_ok]
    by_cases state : message.state = expected
    · have itself : row.columns.state = expected.code ∧
          row.columns.userAcked = message.userAcked.toNat ∧ row.seq = row.seq := by
        rw [stored.columns, ← state]
        exact ⟨rfl, rfl, rfl⟩
      have aimed := holds.aimed member (fun other => other.columns.state = expected.code ∧
        other.columns.userAcked = message.userAcked.toNat ∧ other.seq = row.seq) itself
      have counted := holds.hit aimed found
      have updated := holds.update aimed (MemoryInflightStore.movedIn next userAcked)
        (SqliteInflightStore.assignedIn next userAcked) fun _ _ _ kept => kept.moved next userAcked
      simp only [state, ne_eq, not_true_eq_false, ↓reduceIte, Table.updateWhere, sat_bind, sat_get,
        sat_modify, sat_pure, counted]
      exact ⟨rfl, related.outbound, updated⟩
    · simp only [state, ne_eq, not_false_eq_true, ↓reduceIte, sat_pure]
      exact ⟨trivial, related⟩

theorem agree_completeIn (related : Related codecs memory sqlite) (mid : Nat)
    (expected : InboundQoSState) :
    Agree codecs (MemoryInflightStore.perform (.completeIn mid expected))
      (SqliteInflightStore.perform codecs (.completeIn mid expected)) memory sqlite := by
  obtain ⟨rows, holds⟩ := related.inbound
  simp only [Agree, MemoryInflightStore.perform, SqliteInflightStore.perform,
    MemoryInflightStore.completeIn, SqliteInflightStore.completeIn, sat_bind, sat_get]
  rcases holds.fetchOne mid with
    ⟨absent, missing⟩ | ⟨message, row, found, fetched, member, rfl, stored⟩
  · rw [absent, missing]
    exact ⟨rfl, related⟩
  · rw [found, fetched]
    simp only [sat_bind, storedInTransition_ok stored, sat_fromExcept_ok]
    by_cases state : message.state = expected
    · have itself : row.columns.state = expected.code ∧
          row.columns.userAcked = message.userAcked.toNat ∧ row.seq = row.seq := by
        rw [stored.columns, ← state]
        exact ⟨rfl, rfl, rfl⟩
      have aimed := holds.aimed member (fun other => other.columns.state = expected.code ∧
        other.columns.userAcked = message.userAcked.toNat ∧ other.seq = row.seq) itself
      have counted := holds.hit aimed found
      simp only [state, ne_eq, not_true_eq_false, ↓reduceIte, Table.deleteWhere, sat_bind, sat_get,
        sat_modify, sat_pure, counted]
      refine ⟨?_, related.outbound, ⟨_, holds.delete aimed⟩⟩
      simp only [MemoryInflightStore.metaFor, state]
    · simp only [state, ne_eq, not_false_eq_true, ↓reduceIte, sat_pure]
      exact ⟨trivial, related⟩

theorem agree_clearIn (related : Related codecs memory sqlite) :
    Agree codecs (MemoryInflightStore.perform .clearIn)
      (SqliteInflightStore.perform codecs .clearIn) memory sqlite := by
  simp only [Agree, MemoryInflightStore.perform, SqliteInflightStore.perform, sat_bind, sat_modify,
    sat_pure, Table.deleteWhere, Bool.not_true, List.filter_false]
  exact ⟨trivial, related.outbound, ⟨[], .empty⟩⟩

end

theorem agree (related : Related codecs memory sqlite) {operation : Operation}
    (storable : operation.Storable codecs) :
    Agree codecs (MemoryInflightStore.perform operation)
      (SqliteInflightStore.perform codecs operation) memory sqlite := by
  cases operation with
  | putOut message => exact agree_putOut related storable
  | getOut mid => exact agree_getOut related mid
  | deleteOut mid => exact agree_deleteOut related mid
  | outSummaryPages pageSize => exact agree_outSummaryPages related pageSize
  | outMeta mid => exact agree_outMeta related mid
  | completeOut mid expected => exact agree_completeOut related mid expected
  | transitionOut mid expected next compact =>
    exact agree_transitionOut related mid expected next compact
  | clearOut => exact agree_clearOut related
  | putIn message => exact agree_putIn related storable
  | getIn mid => exact agree_getIn related mid
  | inCount => exact agree_inCount related
  | inReplayPages maxMessages maxBytes => exact agree_inReplayPages related maxMessages maxBytes
  | inMeta mid => exact agree_inMeta related mid
  | inIndexPages pageSize => exact agree_inIndexPages related pageSize
  | markInDelivered mid => exact agree_markInDelivered related mid
  | transitionIn mid expected next userAcked =>
    exact agree_transitionIn related mid expected next userAcked
  | completeIn mid expected => exact agree_completeIn related mid expected
  | clearIn => exact agree_clearIn related

/-- One call at a time, the responses agree and the backends stay related. -/
theorem answers_agree (related : Related codecs memory sqlite) {operations : List Operation}
    (storable : ∀ operation ∈ operations, operation.Storable codecs) :
    (answers MemoryInflightStore.perform memory operations).1 =
        (answers (SqliteInflightStore.perform codecs) sqlite operations).1 ∧
      Related codecs (answers MemoryInflightStore.perform memory operations).2
        (answers (SqliteInflightStore.perform codecs) sqlite operations).2 := by
  induction operations generalizing memory sqlite with
  | nil => exact ⟨rfl, related⟩
  | cons operation rest ih =>
    have one := agree related (storable operation List.mem_cons_self)
    have others := fun other member => storable other (List.mem_cons_of_mem operation member)
    simp only [answers]
    unfold Agree Sat at one
    cases left : MemoryInflightStore.perform operation memory with
    | ok response after =>
      cases right : SqliteInflightStore.perform codecs operation sqlite with
      | ok other final =>
        simp only [left, right] at one
        obtain ⟨same, held⟩ := ih one.2 others
        exact ⟨by simp only [one.1, same], held⟩
      | error failure final => simp [left, right] at one
    | error failure after =>
      cases right : SqliteInflightStore.perform codecs operation sqlite with
      | ok other final => simp [left, right] at one
      | error other final =>
        simp only [left, right] at one
        obtain ⟨same, held⟩ := ih one.2 others
        exact ⟨by simp only [one.1, same], held⟩

theorem contents_read {Columns Value Record : Type} {stores : Nat → Value → Columns → Prop}
    {dict : Dict Nat Value} {last : Nat} {table : Table Columns} {rows : List (Row Columns)}
    (holds : Table.Holds stores dict last table rows)
    {build : Row Columns → Except Failure Record} {view : Value → Record}
    (built : ∀ key seq value columns, stores key value columns →
      build { key, seq, columns } = .ok (view value)) :
    table.orderBySeq.mapM build = .ok (dict.values.map view) := by
  have entries := holds.entries
  rw [holds.orderBySeq_eq, Dict.values]
  clear holds
  generalize dict.entries = listed at entries
  induction entries with
  | nil => rfl
  | cons matched _ ih =>
    obtain ⟨same, stored⟩ := matched
    rw [same] at stored
    rw [List.mapM_cons, ih, built _ _ _ _ stored]
    rfl

/-- Started empty, the two backends give the same answers to every sequence of
calls and hold the same records in the same order. -/
theorem stores_agree (codecs : TextCodecs) (operations : List Operation)
    (storable : ∀ operation ∈ operations, operation.Storable codecs) :
    (answers MemoryInflightStore.perform {} operations).1 =
        (answers (SqliteInflightStore.perform codecs) {} operations).1 ∧
      (answers (SqliteInflightStore.perform codecs) {} operations).2.outbound.orderBySeq.mapM
          (rowToOut codecs) =
        .ok ((answers MemoryInflightStore.perform {} operations).2.out.values.map canonicalOut) ∧
      (answers (SqliteInflightStore.perform codecs) {} operations).2.inbound.orderBySeq.mapM
          (rowToIn codecs) =
        .ok ((answers MemoryInflightStore.perform {} operations).2.inbound.values.map
          canonicalIn) := by
  obtain ⟨same, related⟩ := answers_agree related_empty storable
  obtain ⟨outRows, outbound⟩ := related.outbound
  obtain ⟨inRows, inbound⟩ := related.inbound
  exact ⟨same, contents_read outbound fun _ _ _ _ stored => rowToOut_ok stored,
    contents_read inbound fun _ _ _ _ stored => rowToIn_ok stored⟩

/-- A publication with one byte string among its properties. -/
def correlated : OutboundMessage where
  mid := 7
  topic := Text.ofString "a/b"
  payload := [1, 2]
  qos := .atLeastOnce
  retain := false
  state := .waitPuback
  properties := some ⟨Dict.empty.insert .correlationData (.scalar (.bytes [1]))⟩
  logicalSize := 9

def correlatedJson : Json :=
  .object [(.correlationData, .object [(bytesMarker, .str (Text.ofString "AQ=="))])]

def correlatedText : Text :=
  Text.ofString "\x7b\"correlation_data\":\x7b\"__mqttium_bytes__\":\"AQ==\"\x7d\x7d"

/-- `json` and `base64` on that publication. -/
def correlatedCodecs : TextCodecs where
  dumps _ := correlatedText
  loads text := if text = correlatedText then .ok correlatedJson else .error (.value "Expecting value")
  b64encode _ := Text.ofString "AQ=="
  b64decode text := if text = Text.ofString "AQ==" then .ok [1] else .error (.value "Incorrect padding")

theorem stores_agree_correlated :
    (answers MemoryInflightStore.perform {} [.putOut correlated, .getOut 7,
        .transitionOut 7 .waitPuback .queued false, .outSummaryPages 1]).1 =
      (answers (SqliteInflightStore.perform correlatedCodecs) {} [.putOut correlated, .getOut 7,
        .transitionOut 7 .waitPuback .queued false, .outSummaryPages 1]).1 := by
  refine (stores_agree correlatedCodecs _ ?_).1
  intro operation member
  simp only [List.mem_cons, List.not_mem_nil, or_false] at member
  rcases member with rfl | rfl | rfl | rfl
  · refine ⟨by decide, by decide, ⟨_, rfl⟩, ?_⟩
    rintro table ⟨⟩
    refine ⟨rfl, ?_⟩
    intro entry listed bytes inside
    have single : entry = (.correlationData, .scalar (.bytes [1])) := by
      simpa [correlated, Dict.insert, Dict.empty] using listed
    subst single
    have only : bytes = [1] := by simpa [PropertyValue.scalars] using inside
    subst only
    decide
  · trivial
  · trivial
  · trivial

end Mqttium.Persistence
