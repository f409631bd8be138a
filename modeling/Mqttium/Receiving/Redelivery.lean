import Mqttium.Persistence.Groups
import Mqttium.Receiving.Bookkeeping

/-! The replay of stored inbound messages, one bounded batch at a time. -/

namespace Mqttium

open Library Persistence Protocol Inbound

/-! One batch as a function of the rows of the page -/

section Batch

variable {wanted : InRow → Bool}

/-- The rows of the page that one batch emits, and the rows it leaves for the next. -/
def replayBatch (wanted : InRow → Bool) : List InRow → Nat → Nat → List InRow × List InRow
  | [], _, _ => ([], [])
  | row :: rest, emitted, bytes =>
    if replayBatchMessages ≤ emitted ∨ replayBatchBytes ≤ bytes then ([], row :: rest)
    else if wanted row = false then replayBatch wanted rest emitted bytes
    else if emitted ≠ 0 ∧ replayBatchBytes < bytes + row.message.logicalSize then ([], row :: rest)
    else
      let (sent, left) := replayBatch wanted rest (emitted + 1) (bytes + row.message.logicalSize)
      (row :: sent, left)

def sizes (rows : List InRow) : Nat := (rows.map fun row => row.message.logicalSize).sum

/-- Nothing that is wanted is skipped. -/
theorem replayBatch_filter (rows : List InRow) (emitted bytes : Nat) :
    (replayBatch wanted rows emitted bytes).1 ++ (replayBatch wanted rows emitted bytes).2.filter wanted =
      rows.filter wanted := by
  induction rows generalizing emitted bytes with
  | nil => rfl
  | cons row rest ih =>
    simp only [replayBatch]
    split
    · rfl
    · split
      · rw [ih, List.filter_cons_of_neg (by simpa using ‹wanted row = false›)]
      · split
        · rfl
        · rename_i desired _
          rw [List.filter_cons_of_pos (by simpa using desired), ← ih]
          rfl

theorem length_replayBatch_le (rows : List InRow) (emitted bytes : Nat) :
    (replayBatch wanted rows emitted bytes).2.length ≤ rows.length := by
  induction rows generalizing emitted bytes with
  | nil => exact Nat.le_refl _
  | cons row rest ih =>
    simp only [replayBatch]
    split
    · exact Nat.le_refl _
    · split
      · exact Nat.le_succ_of_le (ih emitted bytes)
      · split
        · exact Nat.le_refl _
        · exact Nat.le_succ_of_le (ih _ _)

/-- A fresh batch takes the first row in any case. -/
theorem length_replayBatch_lt {rows : List InRow} (some : rows ≠ []) :
    (replayBatch wanted rows 0 0).2.length < rows.length := by
  cases rows with
  | nil => exact absurd rfl some
  | cons row rest =>
    have room : ¬ (replayBatchMessages ≤ 0 ∨ replayBatchBytes ≤ 0) := by decide
    simp only [replayBatch, if_neg room]
    split
    · exact Nat.lt_succ_of_le (length_replayBatch_le rest 0 0)
    · rw [if_neg (by simp)]
      exact Nat.lt_succ_of_le (length_replayBatch_le rest _ _)

/-- A batch that has begun keeps both limits. -/
theorem replayBatch_room (rows : List InRow) {emitted bytes : Nat} (begun : emitted ≠ 0)
    (room : emitted ≤ replayBatchMessages) :
    emitted + (replayBatch wanted rows emitted bytes).1.length ≤ replayBatchMessages ∧
      ((replayBatch wanted rows emitted bytes).1 = [] ∨
        bytes + sizes (replayBatch wanted rows emitted bytes).1 ≤ replayBatchBytes) := by
  induction rows generalizing emitted bytes with
  | nil => exact ⟨room, .inl rfl⟩
  | cons row rest ih =>
    simp only [replayBatch]
    split
    · exact ⟨room, .inl rfl⟩
    · rename_i below
      simp only [not_or, Nat.not_le] at below
      split
      · exact ih begun room
      · split
        · exact ⟨room, .inl rfl⟩
        · rename_i fits
          simp only [begun, ne_eq, not_false_eq_true, true_and, Nat.not_lt] at fits
          obtain ⟨count, total⟩ :=
            @ih (emitted + 1) (bytes + row.message.logicalSize) (Nat.succ_ne_zero _) below.1
          refine ⟨?_, .inr ?_⟩
          · simp only [List.length_cons]
            omega
          · rcases total with none | total
            · simpa [none, sizes] using fits
            · simp only [sizes, List.map_cons, List.sum_cons] at total ⊢
              omega

/-- At most 64 messages, and at most 1 MiB unless it is one message. -/
theorem replayBatch_bounded (rows : List InRow) :
    (replayBatch wanted rows 0 0).1.length ≤ replayBatchMessages ∧
      (sizes (replayBatch wanted rows 0 0).1 ≤ replayBatchBytes ∨
        (replayBatch wanted rows 0 0).1.length = 1) := by
  induction rows with
  | nil => exact ⟨Nat.zero_le _, .inl (Nat.zero_le _)⟩
  | cons row rest ih =>
    have room : ¬ (replayBatchMessages ≤ 0 ∨ replayBatchBytes ≤ 0) := by decide
    simp only [replayBatch, if_neg room]
    split
    · exact ih
    · rw [if_neg (by simp)]
      obtain ⟨count, total⟩ :=
        @replayBatch_room wanted rest 1 (0 + row.message.logicalSize) Nat.one_ne_zero (by decide)
      refine ⟨?_, ?_⟩
      · simp only [List.length_cons, Nat.zero_add] at count ⊢
        omega
      · rcases total with none | total
        · right
          simp only [Nat.zero_add] at none ⊢
          simp [none]
        · left
          simp only [sizes, List.map_cons, List.sum_cons, Nat.zero_add] at total ⊢
          exact total

end Batch

/-! The effects of a replay -/

/-- The effect hands the stored row to the application again. -/
def Redelivers (manual : Bool) (row : InRow) (effect : Effect) : Prop :=
  ∃ token, effect = .message
    { topic := row.message.topic, payload := row.message.payload, qos := row.message.qos
      retain := row.message.retain, dup := true, mid := some row.message.mid
      properties := row.message.properties
      ackToken := if manual then some token else none } true (some token)

/-- The effect is part of a replay. -/
def Protocol.Effect.Replays (effect : Effect) : Prop :=
  effect = .continueInboundReplay ∨ effect.Delivers

instance (effect : Effect) : Decidable effect.Replays :=
  inferInstanceAs (Decidable (_ ∨ _))

theorem Redelivers.replays {manual : Bool} {row : InRow} {effect : Effect}
    (redelivers : Redelivers manual row effect) : effect.Replays := by
  obtain ⟨token, rfl⟩ := redelivers
  exact .inr trivial

theorem replays_of_redelivers {manual : Bool} {rows : List InRow} {effects : List Effect}
    (emits : List.Forall₂ (Redelivers manual) rows effects) : ∀ effect ∈ effects, effect.Replays := by
  induction emits with
  | nil => simp
  | cons redelivers _ ih => exact List.forall_mem_cons.mpr ⟨redelivers.replays, ih⟩

/-- The step appends effects and moves exchange identities; the replay waits as it did. -/
structure Grows (effects : List Effect) (before after : Engine) : Prop where
  config : after.config = before.config
  store : after.store = before.store
  recovered : after.inbound.recoveredMids = before.inbound.recoveredMids
  replay : after.inbound.replay = before.inbound.replay
  effects : after.effects = before.effects ++ effects

theorem Grows.refl (engine : Engine) : Grows [] engine engine :=
  ⟨rfl, rfl, rfl, rfl, (List.append_nil _).symm⟩

theorem Grows.trans {first second : List Effect} {before between after : Engine}
    (early : Grows first before between) (late : Grows second between after) :
    Grows (first ++ second) before after :=
  ⟨late.config.trans early.config, late.store.trans early.store,
    late.recovered.trans early.recovered, late.replay.trans early.replay, by
      rw [late.effects, early.effects, List.append_assoc]⟩

/-- The identity of an exchange, which it has from then on. -/
theorem sat_exchangeToken (mid : Nat) (engine : Engine) :
    Sat (exchangeToken mid) engine
      (fun token after => Grows [] engine after ∧ after.inbound.exchangeTokens.get? mid = some token)
      (fun _ _ => False) := by
  simp only [exchangeToken, sat_bind, sat_get]
  cases held : engine.inbound.exchangeTokens.get? mid with
  | some token =>
    simp only [sat_pure]
    exact ⟨.refl engine, held⟩
  | none =>
    simp only [freshToken, sat_bind, sat_get, modifyInbound, sat_modify, sat_pure]
    exact ⟨⟨rfl, rfl, rfl, rfl, (List.append_nil _).symm⟩, Dict.get?_insert_self _ _ _⟩

theorem sat_emitMessage (row : InRow) (engine : Engine) :
    Sat (emitMessage row.message true) engine
      (fun _ after => ∃ effect, Redelivers engine.config.manualAck row effect ∧
        Grows [effect] engine after)
      (fun _ _ => False) := by
  have emits : ∀ (before : Engine) (effect : Effect), Redelivers engine.config.manualAck row effect →
      Grows [] engine before → Sat (emit effect) before
        (fun _ after => ∃ effect, Redelivers engine.config.manualAck row effect ∧
          Grows [effect] engine after) (fun _ _ => False) := by
    intro before effect redelivers grows
    simp only [emit, sat_modify]
    have emitted : Grows [effect] before { before with effects := before.effects ++ [effect] } :=
      ⟨rfl, rfl, rfl, rfl, rfl⟩
    exact ⟨effect, redelivers, grows.trans emitted⟩
  simp only [emitMessage, bindAckToken, sat_bind, sat_get, sat_ite, sat_pure]
  constructor
  · intro manual
    apply (sat_exchangeToken row.message.mid engine).mono
    · rintro token between ⟨grows, held⟩
      simp only [exchangeToken, sat_bind, sat_get, held, sat_pure]
      exact emits between _ ⟨token, by simp [manual]⟩ grows
    · exact fun _ _ impossible => impossible
  · intro automatic
    apply (sat_exchangeToken row.message.mid engine).mono
    · rintro token between ⟨grows, _⟩
      exact emits between _ ⟨token, by simp [automatic]⟩ grows
    · exact fun _ _ impossible => impossible

/-! The cursor -/

/-- The rows of the page at hand. -/
def Protocol.InboundReplayCursor.hand (cursor : InboundReplayCursor) : List InRow :=
  cursor.pending.toList ++ cursor.pageMessages.getD []

/-- A page that is used up is not kept. -/
def Protocol.InboundReplayCursor.Tidy (cursor : InboundReplayCursor) : Prop :=
  cursor.pageMessages ≠ some []

section Cursor

variable {cursor : InboundReplayCursor}

theorem nextPageMessage_none (tidy : cursor.Tidy) (used : cursor.hand = []) :
    nextPageMessage cursor = (none, cursor) := by
  obtain ⟨groups, page, pending, remaining⟩ := cursor
  simp only [InboundReplayCursor.hand, List.append_eq_nil_iff] at used
  cases pending with
  | some row => simp at used
  | none =>
    cases page with
    | none => rfl
    | some rows =>
      have empty : rows = [] := by simpa using used.2
      exact absurd (congrArg some empty) tidy

theorem nextPageMessage_some (tidy : cursor.Tidy) {row : InRow} {rest : List InRow}
    (held : cursor.hand = row :: rest) :
    ∃ after, nextPageMessage cursor = (some row, after) ∧ after.hand = rest ∧ after.Tidy ∧
      after.pending = none ∧ after.groups = cursor.groups ∧ after.remaining = cursor.remaining := by
  obtain ⟨groups, page, pending, remaining⟩ := cursor
  cases pending with
  | some first =>
    simp only [InboundReplayCursor.hand, Option.toList_some, List.singleton_append,
      List.cons.injEq] at held
    obtain ⟨rfl, rfl⟩ := held
    exact ⟨_, rfl, rfl, tidy, rfl, rfl, rfl⟩
  | none =>
    simp only [InboundReplayCursor.hand, Option.toList_none, List.nil_append] at held
    cases page with
    | none => cases held
    | some rows =>
      change rows = row :: rest at held
      subst held
      refine ⟨_, rfl, ?_, ?_, rfl, rfl, rfl⟩
      · cases rest <;> rfl
      · unfold InboundReplayCursor.Tidy
        cases rest <;> simp

theorem hand_eq_nil_iff (tidy : cursor.Tidy) :
    cursor.hand = [] ↔ cursor.pending = none ∧ cursor.pageMessages = none := by
  obtain ⟨groups, page, pending, remaining⟩ := cursor
  cases pending with
  | some row => simp [InboundReplayCursor.hand]
  | none =>
    cases page with
    | none => simp [InboundReplayCursor.hand]
    | some rows =>
      have filled : rows ≠ [] := fun empty => tidy (congrArg some empty)
      simp [InboundReplayCursor.hand, filled]

end Cursor

/-- What the engine redelivers. -/
def Protocol.Engine.redelivers (engine : Engine) (row : InRow) : Bool :=
  shouldRedeliver engine.config.manualAck engine.inbound.recoveredMids row.message

theorem Grows.redelivers {effects : List Effect} {before after : Engine}
    (grows : Grows effects before after) : after.redelivers = before.redelivers := by
  funext row
  simp only [Engine.redelivers, grows.config, grows.recovered]

/-- The loop emitted one batch of the page at hand and left the rest of it. -/
structure Replayed (cursor : InboundReplayCursor) (emitted bytes : Nat) (before : Engine)
    (after : InboundReplayCursor) (final : Engine) : Prop where
  emits : ∃ effects, List.Forall₂ (Redelivers before.config.manualAck)
      (replayBatch before.redelivers cursor.hand emitted bytes).1 effects ∧ Grows effects before final
  hand : after.hand = (replayBatch before.redelivers cursor.hand emitted bytes).2
  tidy : after.Tidy
  groups : after.groups = cursor.groups
  remaining : after.remaining = cursor.remaining

section Loop

variable {cursor rest : InboundReplayCursor} {emitted bytes : Nat} {engine between : Engine}
  {row : InRow} {rows : List InRow}

theorem replayed_stop (tidy : cursor.Tidy)
    (stops : replayBatch engine.redelivers cursor.hand emitted bytes = ([], cursor.hand)) :
    Replayed cursor emitted bytes engine cursor engine where
  emits := ⟨[], by simp [stops], .refl engine⟩
  hand := by rw [stops]
  tidy := tidy
  groups := rfl
  remaining := rfl

/-- A row that is not wanted is passed over. -/
theorem Replayed.skip {after : InboundReplayCursor} {final : Engine}
    (hand : rest.hand = rows) (groups : rest.groups = cursor.groups)
    (remaining : rest.remaining = cursor.remaining)
    (skips : replayBatch engine.redelivers cursor.hand emitted bytes =
      replayBatch engine.redelivers rows emitted bytes)
    (later : Replayed rest emitted bytes engine after final) :
    Replayed cursor emitted bytes engine after final where
  emits := by
    rw [skips, ← hand]
    exact later.emits
  hand := by
    rw [skips, ← hand]
    exact later.hand
  tidy := later.tidy
  groups := later.groups.trans groups
  remaining := later.remaining.trans remaining

/-- A row that is emitted comes before the rest of the batch. -/
theorem Replayed.emit {after : InboundReplayCursor} {final : Engine} {effect : Effect}
    (hand : rest.hand = rows) (groups : rest.groups = cursor.groups)
    (remaining : rest.remaining = cursor.remaining)
    (emits : replayBatch engine.redelivers cursor.hand emitted bytes =
      (row :: (replayBatch engine.redelivers rows (emitted + 1) (bytes + row.message.logicalSize)).1,
        (replayBatch engine.redelivers rows (emitted + 1) (bytes + row.message.logicalSize)).2))
    (redelivers : Redelivers engine.config.manualAck row effect)
    (grows : Grows [effect] engine between)
    (later : Replayed rest (emitted + 1) (bytes + row.message.logicalSize) between after final) :
    Replayed cursor emitted bytes engine after final where
  emits := by
    obtain ⟨effects, matched, grown⟩ := later.emits
    rw [hand, grows.redelivers, grows.config] at matched
    rw [emits]
    exact ⟨effect :: effects, .cons redelivers matched, grows.trans grown⟩
  hand := by
    rw [emits, later.hand, hand, grows.redelivers]
  tidy := later.tidy
  groups := later.groups.trans groups
  remaining := later.remaining.trans remaining

theorem sat_replayFor {fuel : Nat} (tidy : cursor.Tidy) (enough : cursor.hand.length < fuel) :
    Sat (replayFor fuel cursor emitted bytes) engine (Replayed cursor emitted bytes engine)
      (fun _ _ => False) := by
  induction fuel generalizing cursor engine emitted bytes with
  | zero => exact absurd enough (Nat.not_lt_zero _)
  | succ fuel ih =>
    simp only [replayFor, sat_ite]
    cases held : cursor.hand with
    | nil =>
      rw [nextPageMessage_none tidy held]
      have stops : Replayed cursor emitted bytes engine cursor engine :=
        replayed_stop tidy (by rw [held]; rfl)
      exact ⟨fun _ => stops, fun _ => stops⟩
    | cons row rows =>
      obtain ⟨rest, taken, hand, restTidy, pending, groups, remaining⟩ :=
        nextPageMessage_some tidy held
      have shorter : rest.hand.length < fuel := by
        rw [hand]
        rw [held, List.length_cons] at enough
        exact Nat.lt_of_succ_lt_succ enough
      rw [taken]
      simp only [sat_bind, sat_get, sat_ite, sat_pure]
      refine ⟨fun full => replayed_stop tidy ?_, fun room =>
        ⟨fun (unwanted : engine.redelivers row = false) => ?_, fun (desired : ¬ engine.redelivers row = false) =>
          ⟨fun heavy => ?_, fun light => ?_⟩⟩⟩
      · rw [held, replayBatch, if_pos full]
      · have skips : replayBatch engine.redelivers cursor.hand emitted bytes =
            replayBatch engine.redelivers rows emitted bytes := by
          rw [held, replayBatch, if_neg room, if_pos unwanted]
        apply (ih restTidy shorter).mono
        · exact fun _ _ later => later.skip hand groups remaining skips
        · exact fun _ _ impossible => impossible
      · -- The row goes back to the cursor as its pending one.
        have stops : replayBatch engine.redelivers cursor.hand emitted bytes = ([], row :: rows) := by
          rw [held, replayBatch, if_neg room, if_neg desired, if_pos heavy]
        refine ⟨⟨[], by simp [stops], .refl engine⟩, ?_, restTidy, groups, remaining⟩
        rw [stops]
        simp only [InboundReplayCursor.hand, pending, Option.toList_none, List.nil_append] at hand
        simp [InboundReplayCursor.hand, hand]
      · have emits : replayBatch engine.redelivers cursor.hand emitted bytes =
            (row :: (replayBatch engine.redelivers rows (emitted + 1)
                (bytes + row.message.logicalSize)).1,
              (replayBatch engine.redelivers rows (emitted + 1)
                (bytes + row.message.logicalSize)).2) := by
          rw [held, replayBatch, if_neg room, if_neg desired, if_neg light]
        apply (sat_emitMessage row engine).mono
        · rintro _ between ⟨effect, redelivers, grows⟩
          apply (ih restTidy shorter).mono
          · exact fun _ _ later => later.emit hand groups remaining emits redelivers grows
          · exact fun _ _ impossible => impossible
        · exact fun _ _ impossible => impossible

end Loop

/-! The pages still to come -/

/-- The rows of the pages, as the store holds them now. -/
def Persistence.Store.hydrated (store : Store) (groups : List (List Nat)) : List InRow :=
  groups.flatMap store.hydratePage

/-- The cursor has these rows still to visit. -/
structure Tracks (store : Store) (cursor : InboundReplayCursor) (rows : List InRow) : Prop where
  tidy : cursor.Tidy
  counted : cursor.remaining = (store.hydrated cursor.groups).length
  rows : cursor.hand ++ store.hydrated cursor.groups = rows

/-- The replay has these rows still to visit; it is over once there are none. -/
def Owes (engine : Engine) (rows : List InRow) : Prop :=
  match engine.inbound.replay with
  | none => rows = []
  | some cursor => rows ≠ [] ∧ Tracks engine.store cursor rows

theorem sat_storeRead_quiet {Value : Type} {call : StoreCall} {read : Store → Value}
    {engine : Engine} {returned : Value → Engine → Prop} {raised : Failure → Engine → Prop}
    (quiet : engine.store.faults call = []) :
    Sat (storeRead call read) engine returned raised ↔ returned (read engine.store) engine := by
  have none : engine.store.nextFault call = (.none, engine.store) := by
    simp [Store.nextFault, quiet]
  simp only [storeRead, storeCall, sat_bind, sat_get, none]
  exact Iff.rfl

section Drain

variable {engine : Engine}

theorem sat_nextPage (quiet : engine.store.faults .inReplayPage = []) (groups : List (List Nat)) :
    Sat (nextPage groups) engine
      (fun found after => after = engine ∧ match found with
        | none => engine.store.hydrated groups = []
        | some (page, rest) => page ≠ [] ∧
          page ++ engine.store.hydrated rest = engine.store.hydrated groups)
      (fun _ _ => False) := by
  induction groups with
  | nil => exact ⟨rfl, rfl⟩
  | cons mids rest ih =>
    simp only [nextPage, sat_bind, sat_storeRead_quiet quiet]
    have joined : engine.store.hydrated (mids :: rest) =
        engine.store.hydratePage mids ++ engine.store.hydrated rest := List.flatMap_cons
    cases page : engine.store.hydratePage mids with
    | nil =>
      rw [joined, page]
      exact ih
    | cons row rows =>
      refine ⟨rfl, (by rintro ⟨⟩), ?_⟩
      rw [joined, page]

/-- A cursor with rows to visit has a page at hand afterwards. -/
theorem sat_beginPage (quiet : engine.store.faults .inReplayPage = []) {cursor : InboundReplayCursor}
    {rows : List InRow} (tracks : Tracks engine.store cursor rows) (some : rows ≠ []) :
    Sat (beginPage cursor) engine
      (fun begun after => (∃ replay, after = { engine with inbound := { engine.inbound with replay } }) ∧
        begun.1 = true ∧ Tracks engine.store begun.2 rows ∧ begun.2.hand ≠ [])
      (fun _ _ => False) := by
  simp only [beginPage, sat_ite]
  refine ⟨fun held => ⟨⟨_, rfl⟩, rfl, tracks, ?_⟩, fun used => ?_⟩
  · intro empty
    obtain ⟨pending, page⟩ := (hand_eq_nil_iff tracks.tidy).mp empty
    simp [pending, page] at held
  · have pending : cursor.pending = none := by simpa using fun present => used (.inl present)
    have page : cursor.pageMessages = none := by simpa using fun present => used (.inr present)
    have empty := (hand_eq_nil_iff tracks.tidy).mpr ⟨pending, page⟩
    have total := tracks.rows
    rw [empty, List.nil_append] at total
    simp only [sat_bind, sat_modifyInbound]
    let emptied := { engine with inbound :=
      { engine.inbound with replay := Option.some { cursor with groups := [] } } }
    have still : emptied.store.faults .inReplayPage = [] := quiet
    apply (sat_nextPage still cursor.groups).mono
    · rintro found _ ⟨rfl, shows⟩
      cases found with
      | none => exact absurd (total.symm.trans shows) some
      | some next =>
        obtain ⟨first, groups⟩ := next
        have filled : first ≠ [] := shows.1
        have joined : first ++ engine.store.hydrated groups = engine.store.hydrated cursor.groups :=
          shows.2
        refine ⟨⟨_, rfl⟩, rfl, ⟨?_, ?_, ?_⟩, ?_⟩
        · unfold InboundReplayCursor.Tidy
          simpa using filled
        · have counted := tracks.counted
          rw [← joined, List.length_append, Int.natCast_add] at counted
          simp only [counted, add_sub_cancel_left]
        · simp only [InboundReplayCursor.hand, pending, Option.toList_none, List.nil_append,
            Option.getD_some, joined, total]
        · simpa [InboundReplayCursor.hand, pending] using filled
    · exact fun _ _ impossible => impossible

/-- What one batch of a replay does. -/
structure Batched (rows : List InRow) (before : Engine) (sent left : List InRow)
    (effects : List Effect) (after : Engine) : Prop where
  config : after.config = before.config
  quiet : after.store.faults .inReplayPage = []
  recovered : left ≠ [] → after.inbound.recoveredMids = before.inbound.recoveredMids
  wanted : sent ++ left.filter before.redelivers = rows.filter before.redelivers
  progress : left = [] ∨ left.length < rows.length
  messages : sent.length ≤ replayBatchMessages
  bytes : sizes sent ≤ replayBatchBytes ∨ sent.length = 1
  emits : List.Forall₂ (Redelivers before.config.manualAck) sent effects
  effects : ∃ fresh, after.effects = before.effects ++ fresh ∧
    fresh.filter (·.Replays) = effects ++ if left = [] then [] else [.continueInboundReplay]
  owes : Owes after left

/-- A batch leaves nothing of the cursor it began from. -/
theorem Batched.unturned {rows sent left : List InRow} {effects : List Effect} {between after : Engine}
    {replay : Option InboundReplayCursor} (batched : Batched rows between sent left effects after)
    (turned : between = { engine with inbound := { engine.inbound with replay } }) :
    Batched rows engine sent left effects after := by
  subst turned
  exact { batched with }

theorem boundedComplete_iff {store : Store} {cursor : InboundReplayCursor} {rows : List InRow}
    (tracks : Tracks store cursor rows) : boundedComplete cursor = true ↔ rows = [] := by
  have hand := hand_eq_nil_iff tracks.tidy
  simp only [boundedComplete, Bool.and_eq_true, decide_eq_true_eq, Option.isNone_iff_eq_none]
  rw [← tracks.rows, List.append_eq_nil_iff, hand, ← List.length_eq_zero_iff, tracks.counted,
    Int.natCast_eq_zero]
  constructor
  · exact fun ⟨⟨counted, pending⟩, page⟩ => ⟨⟨pending, page⟩, counted⟩
  · exact fun ⟨⟨pending, page⟩, counted⟩ => ⟨⟨counted, pending⟩, page⟩

/-- Where the loop has ended, the batch is complete and so is the replay, or it goes on. -/
theorem Replayed.batched {cursor after : InboundReplayCursor} {final : Engine} {rows : List InRow}
    (quiet : engine.store.faults .inReplayPage = []) (replayed : Replayed cursor 0 0 engine after final)
    (tracks : Tracks engine.store cursor rows) (held : cursor.hand ≠ []) :
    let waits := { final with inbound := { final.inbound with replay := some after } }
    (boundedComplete after = true → ∃ sent left effects, Batched rows engine sent left effects
      { waits with inbound := { waits.inbound with replay := none, recoveredMids := ∅ } }) ∧
    (boundedComplete after = false → ∃ sent left effects, Batched rows engine sent left effects
      { waits with effects := waits.effects ++ [.continueInboundReplay] }) := by
  obtain ⟨effects, matched, grows⟩ := replayed.emits
  have store : final.store = engine.store := grows.store
  have kept : effects.filter (·.Replays) = effects :=
    List.filter_eq_self.mpr fun effect member =>
      decide_eq_true (replays_of_redelivers matched effect member)
  have fresh : Tracks engine.store after
      ((replayBatch engine.redelivers cursor.hand 0 0).2 ++ engine.store.hydrated cursor.groups) := by
    refine ⟨replayed.tidy, ?_, ?_⟩
    · rw [replayed.remaining, replayed.groups, tracks.counted]
    · rw [replayed.hand, replayed.groups]
  have wanted : (replayBatch engine.redelivers cursor.hand 0 0).1 ++
      ((replayBatch engine.redelivers cursor.hand 0 0).2 ++
        engine.store.hydrated cursor.groups).filter engine.redelivers =
      rows.filter engine.redelivers := by
    rw [← tracks.rows, List.filter_append, List.filter_append, ← List.append_assoc, replayBatch_filter]
  have progress : ((replayBatch engine.redelivers cursor.hand 0 0).2 ++
      engine.store.hydrated cursor.groups).length < rows.length := by
    have shorter := @length_replayBatch_lt engine.redelivers cursor.hand held
    rw [← tracks.rows, List.length_append, List.length_append]
    omega
  obtain ⟨messages, bytes⟩ := @replayBatch_bounded engine.redelivers cursor.hand
  constructor
  · intro complete
    have none := (boundedComplete_iff fresh).mp complete
    rw [none] at wanted
    exact ⟨_, [], effects, {
      config := grows.config
      quiet := by rw [← quiet, ← store]
      recovered := fun some => absurd rfl some
      wanted := wanted
      progress := .inl rfl
      messages := messages
      bytes := bytes
      emits := matched
      effects := ⟨effects, grows.effects, by simpa using kept⟩
      owes := rfl }⟩
  · intro goes
    have some : (replayBatch engine.redelivers cursor.hand 0 0).2 ++
        engine.store.hydrated cursor.groups ≠ [] := by
      intro none
      rw [(boundedComplete_iff fresh).mpr none] at goes
      cases goes
    exact ⟨_, _, effects, {
      config := grows.config
      quiet := by rw [← quiet, ← store]
      recovered := fun _ => grows.recovered
      wanted := wanted
      progress := .inr progress
      messages := messages
      bytes := bytes
      emits := matched
      effects := ⟨effects ++ [.continueInboundReplay],
        by rw [← List.append_assoc, ← grows.effects], by
          rw [List.filter_append, kept, if_neg some]
          rfl⟩
      owes := ⟨some, by
        rw [store]
        exact fresh⟩ }⟩

theorem sat_drainReplay (quiet : engine.store.faults .inReplayPage = []) {rows : List InRow}
    (owes : Owes engine rows) (some : rows ≠ []) :
    Sat drainReplay engine
      (fun _ after => ∃ sent left effects, Batched rows engine sent left effects after)
      (fun _ _ => False) := by
  simp only [drainReplay, sat_bind, sat_get]
  unfold Owes at owes
  cases waits : engine.inbound.replay with
  | none =>
    rw [waits] at owes
    exact absurd owes some
  | some cursor =>
    rw [waits] at owes
    simp only [sat_bind]
    apply (sat_beginPage quiet owes.2 some).mono
    · rintro ⟨begun, page⟩ between ⟨⟨replay, turned⟩, rfl, tracks, held⟩
      have store : between.store = engine.store := by rw [turned]
      rw [← store] at quiet tracks
      have fuel : page.hand.length = cursorFuel page := by
        simp [cursorFuel, InboundReplayCursor.hand]
      simp only [sat_ite, true_imp_iff, not_true_eq_false, false_imp_iff, and_true, sat_bind]
      apply (sat_replayFor tracks.tidy (Nat.lt_succ_of_le (Nat.le_of_eq fuel))).mono
      · intro after final replayed
        obtain ⟨ends, goes⟩ := replayed.batched quiet tracks held
        simp only [modifyInbound, sat_modify, endReplay, emit, Bool.not_eq_true]
        constructor
        · intro complete
          obtain ⟨sent, left, effects, batched⟩ := ends complete
          exact ⟨sent, left, effects, batched.unturned turned⟩
        · intro more
          obtain ⟨sent, left, effects, batched⟩ := goes more
          exact ⟨sent, left, effects, batched.unturned turned⟩
      · exact fun _ _ impossible => impossible
    · exact fun _ _ impossible => impossible

end Drain

/-! The replay of a session -/

/-- The stored inbound messages, as the store reads them, in their order. -/
def Persistence.Store.inRows (store : Store) : List InRow :=
  store.inbound.values.map fun row => { row with message := Store.readIn store.kind row.message }

/-- The pages of a replay hold every row once, in stored order. -/
theorem hydrated_inReplayGroups (store : Store) (maxMessages maxBytes : Nat) :
    store.hydrated (store.inReplayGroups maxMessages maxBytes) = store.inRows := by
  have joined : ∀ groups, store.hydrated groups = store.hydratePage groups.flatten := by
    intro groups
    induction groups with
    | nil => rfl
    | cons mids rest ih =>
      rw [List.flatten_cons, Store.hydratePage, List.filterMap_append]
      exact congrArg (store.hydratePage mids ++ ·) ih
  have keys : (store.inReplayGroups maxMessages maxBytes).flatten = store.inbound.keys := by
    rw [Store.inReplayGroups, Store.flatten_replayGroups, List.nil_append, List.map_map]
    rfl
  rw [joined, keys, Store.hydratePage, Dict.filterMap_keys, Store.inRows, Dict.values, List.map_map]
  rfl

theorem sat_inCount {engine : Engine} :
    Sat (storeRead .inCount (·.inCount)) engine
      (fun persisted after => persisted = engine.store.inRows.length ∧
        ∃ store : Store, after = { engine with store } ∧ store.inRows = engine.store.inRows ∧
          store.faults .inReplayPage = engine.store.faults .inReplayPage)
      (fun _ _ => True) := by
  have counted : engine.store.inCount = engine.store.inRows.length := by
    simp [Store.inCount, Store.inRows, Dict.size, Dict.values]
  simp only [storeRead, storeCall, sat_bind, sat_get, Store.nextFault]
  cases script : engine.store.faults .inCount with
  | nil => exact ⟨counted, engine.store, rfl, rfl, rfl⟩
  | cons fault rest =>
    cases fault with
    | none =>
      have other : StoreCall.inReplayPage ≠ .inCount := by decide
      exact ⟨counted, _, rfl, rfl, Function.update_of_ne other rest _⟩
    | some fault => cases fault <;> trivial

theorem sat_replaySession {engine : Engine} (quiet : engine.store.faults .inReplayPage = [])
    (idle : engine.inbound.replay = none) :
    Sat Inbound.replaySession engine
      (fun _ after => ∃ sent left effects,
        Batched engine.store.inRows engine sent left effects after)
      (fun _ _ => True) := by
  simp only [Inbound.replaySession, sat_bind]
  apply sat_inCount.mono
  · rintro persisted _ ⟨rfl, store, rfl, rows, faults⟩
    simp only [modifyInbound, sat_modify, sat_ite, sat_bind, sat_get]
    constructor
    · intro empty
      have none : engine.store.inRows = [] := List.eq_nil_of_length_eq_zero empty
      refine ⟨[], [], [], ?_⟩
      exact {
        config := rfl
        quiet := faults.trans quiet
        recovered := fun some => absurd rfl some
        wanted := by rw [none]; rfl
        progress := .inl rfl
        messages := Nat.zero_le _
        bytes := .inl (Nat.zero_le _)
        emits := .nil
        effects := ⟨[], by simp, rfl⟩
        owes := by simp only [Owes, idle] }
    · intro filled
      have some : engine.store.inRows ≠ [] := fun empty => filled (by rw [empty]; rfl)
      have owes : Owes { engine with
          store
          inbound := { engine.inbound with
            currentPersistedMids := ∅
            replay := .some { groups := store.inReplayGroups replayBatchMessages replayBatchBytes
                              remaining := engine.store.inRows.length } } } engine.store.inRows := by
        refine ⟨some, ?_, ?_, ?_⟩
        · rintro ⟨⟩
        · rw [hydrated_inReplayGroups, rows]
        · rw [hydrated_inReplayGroups, rows]
          rfl
      apply (sat_drainReplay (faults.trans quiet) owes some).mono
      · rintro _ after ⟨sent, left, effects, batched⟩
        exact ⟨sent, left, effects, { batched with }⟩
      · exact fun _ _ impossible => impossible.elim
  · exact fun _ _ _ => trivial

end Mqttium
