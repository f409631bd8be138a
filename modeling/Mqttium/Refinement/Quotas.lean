import Mqttium.Refinement.Histories

/-! The send quota and the order of the publications, over runs that seal publications
only before they close the transport. -/

namespace Mqttium

open Codec Library Packets Persistence Protocol

/-- Every seal is followed at once by the transport's close, or ends the run. -/
def SealsLast : List Command → Prop
  | [] => True
  | [_] => True
  | command :: next :: rest =>
    (command.seals = true → next = .notifyTransportClosed) ∧ SealsLast (next :: rest)

/-! The ledger of a connection -/

namespace Ledger

section

variable {ledger after : Ledger} {mid : Nat} {entry : Entry}

/-- The slots are held by the publications of this connection that are not answered. -/
theorem Sound.holders_exact (sound : Sound ledger) (intact : (observe ledger.log).intact = true)
    (seq : Nat) : seq ∈ (observe ledger.log).outstanding ↔
      ∃ mid ∈ ledger.holders, ∃ entry, ledger.rows.get? mid = some entry ∧ entry.seq = seq := by
  simp only [Observer.outstanding, Finset.mem_sdiff, List.mem_toFinset]
  constructor
  · rintro ⟨published, open_⟩
    obtain ⟨mid, entry, found, rfl⟩ :=
      (sound.quota.stored intact seq published).resolve_left open_
    exact ⟨mid, (sound.quota.held intact mid entry found).mpr published, entry, found, rfl⟩
  · rintro ⟨mid, held, entry, found, rfl⟩
    exact ⟨(sound.quota.held intact mid entry found).mp held, sound.quota.answered mid entry found⟩

/-- There is one slot for each of them. -/
theorem Sound.holders_card (sound : Sound ledger) (intact : (observe ledger.log).intact = true) :
    ledger.holders.card = (observe ledger.log).outstanding.card := by
  have named : ∀ mid ∈ ledger.holders, ∃ entry, ledger.rows.get? mid = some entry :=
    fun mid member => Option.isSome_iff_exists.mp (sound.accounts.heldRow mid member).2.1
  refine Finset.card_bij (fun mid _ => (ledger.seqOf mid).getD 0) ?_ ?_ ?_
  · intro mid member
    obtain ⟨entry, found⟩ := named mid member
    exact (sound.holders_exact intact _).mpr ⟨mid, member, entry, found, by simp [seqOf, found]⟩
  · intro left leftHeld right rightHeld same
    obtain ⟨entry, found⟩ := named left leftHeld
    obtain ⟨other, stored⟩ := named right rightHeld
    exact sound.accounts.seq_injective found stored (by simpa [seqOf, found, stored] using same)
  · intro seq member
    obtain ⟨mid, held, entry, found, rfl⟩ := (sound.holders_exact intact seq).mp member
    exact ⟨mid, held, by simp [seqOf, found]⟩

/-- There are no more of them than the window allows. -/
theorem Sound.outstanding_le (sound : Sound ledger) (intact : (observe ledger.log).intact = true) :
    (observe ledger.log).outstanding.card ≤ ledger.limit :=
  sound.holders_card intact ▸ sound.accounts.quota

theorem Move.cap (move : Move ledger after) : after.cap = ledger.cap := by
  cases move <;> rfl

theorem cap_steps (steps : Steps ledger after) : after.cap = ledger.cap := by
  induction steps with
  | refl => rfl
  | tail _ move ih => exact move.cap.trans ih

end

end Ledger

theorem observe_events (log events : List Event) :
    observe (log ++ events) = events.foldl Observer.see (observe log) := by
  simp [observe, List.foldl_append]

/-- Nothing but a seal breaks what an observer knows of a connection. -/
theorem intact_append {log events : List Event} (intact : (observe log).intact = true)
    (unsealed : ∀ seq, .sealed seq ∉ events) : (observe (log ++ events)).intact = true := by
  rw [observe_events]
  generalize observe log = observer at intact
  induction events generalizing observer with
  | nil => exact intact
  | cons event rest ih =>
    refine ih (fun seq member => unsealed seq (List.mem_cons_of_mem _ member)) _ ?_
    cases event with
    | recovered _ _ sent => cases sent <;> exact intact
    | sent _ packet => cases packet <;> exact intact
    | «sealed» seq => exact absurd List.mem_cons_self (unsealed seq)
    | session _ _ => rfl
    | _ => exact intact

section

variable {chronicle : Chronicle} {command : Command} {engine : Engine} {ordered : Prop}

/-- A closed transport leaves no connection. -/
theorem after_closed (engine : Engine) :
    (engine.after .notifyTransportClosed).state ≠ .connected := by
  have clears : Within Undisturbed (do
      modifyOutbound fun outbound => { outbound with topicAliases := .empty }
      Inbound.transportClosed
      releasePendingSubscriptionRequests
      onlyIf (engine.state ≠ .disconnected) (emit (.disconnected 0 none false))) :=
    within_bind (heedless_modifyAliases fun _ => rfl) fun _ =>
      within_bind beside_transportClosed fun _ => within_bind Onlooker.endSubs fun _ =>
      within_onlyIf (beside_emit trivial)
  have runs : Sat Command.notifyTransportClosed.run engine
      (fun _ after => after.state ≠ .connected) (fun _ after => after.state ≠ .connected) := by
    simp only [Command.run, sat_map]
    rw [notifyTransportClosed, sat_bind, sat_get, sat_bind, enterDisconnected, sat_modify]
    refine (clears _).mono ?_ ?_
    · exact fun _ after cleared connected => by simpa using cleared.state connected
    · exact fun _ after cleared connected => by simpa using cleared.state connected
  exact Engine.after_sat runs

/-! Runs -/

/-- What holds between the calls of a client, but between a seal and its close. -/
structure Fluent (ordered : Prop) (chronicle : Chronicle) : Prop where
  recorded : chronicle.Recorded
  busy : Busy chronicle.engine
  intact : chronicle.engine.state = .connected → (observe chronicle.log).intact = true
  order : ordered → Ledger.Order chronicle.ledger

/-- Effects show no seals. -/
theorem shown_unsealed {who : Nat → Option Nat} {effects : List Effect} (seq : Nat) :
    .sealed seq ∉ effects.filterMap (effectEvent who) := by
  intro shown
  obtain ⟨effect, _, shown⟩ := List.mem_filterMap.mp shown
  rcases effectEvent_kinds shown with same | ⟨_, _, same⟩ | ⟨_, same⟩ <;> cases same

/-- Besides a seal, a call keeps what the observer knows of the connection. -/
theorem Fluent.intact_step (fluent : Fluent ordered chronicle) (other : command.seals = false)
    (connected : (chronicle.step command).engine.state = .connected) :
    (observe (chronicle.step command).log).intact = true := by
  rw [Chronicle.log_step]
  refine intact_append ?_ shown_unsealed
  rcases (fluent.recorded.follows_step command).opened connected with before | ⟨present, window, tells⟩
  · exact intact_append (fluent.intact before) fun seq => Command.tells_sealed other
  · simp [tells, Observer.see]

/-- A publication goes straight to the wire only past an empty queue. -/
theorem Fluent.order_step (fluent : Fluent ordered chronicle) (command : Command)
    (given : ordered) : Ledger.Order (chronicle.step command).ledger := by
  have order := fluent.order given
  have sound := fluent.recorded.sound
  rcases (fluent.recorded.follows_step command).turn with steps | ⟨connected, mid, size, target, ready, same⟩
  · exact order.steps sound steps
  · rw [same]
    refine order.admitLaunched sound.accounts sound.quota ready ?_
    rcases fluent.busy connected with empty | full
    · exact List.map_eq_nil_iff.mpr empty
    · exact absurd ready.slot (Nat.not_lt.mpr full)

theorem Fluent.step (fluent : Fluent ordered chronicle) (other : command.seals = false) :
    Fluent ordered (chronicle.step command) where
  recorded := (fluent.recorded.follows_step command).recorded
  busy := (fluent.recorded.follows_step command).busy other fluent.busy
  intact := fluent.intact_step other
  order := fluent.order_step command

/-- A client that has sealed publications and is about to close its transport. -/
structure Closing (ordered : Prop) (chronicle : Chronicle) (commands : List Command) : Prop where
  recorded : chronicle.Recorded
  order : ordered → Ledger.Order chronicle.ledger
  due : commands.head? = some .notifyTransportClosed

theorem Closing.closed {commands : List Command} (closing : Closing ordered chronicle commands) :
    Fluent ordered (chronicle.step .notifyTransportClosed) where
  recorded := (closing.recorded.follows_step .notifyTransportClosed).recorded
  busy connected := absurd connected (after_closed chronicle.engine)
  intact connected := absurd connected (after_closed chronicle.engine)
  order given := (closing.order given).steps closing.recorded.sound
    (closing.recorded.steps_beside trivial)

theorem SealsLast.tail {rest : List Command} (last : SealsLast (command :: rest)) : SealsLast rest := by
  cases rest with
  | nil => trivial
  | cons _ _ => exact last.2

theorem SealsLast.next {rest : List Command} (last : SealsLast (command :: rest))
    (seals : command.seals = true) : rest = [] ∨ rest.head? = some .notifyTransportClosed := by
  cases rest with
  | nil => exact .inl rfl
  | cons _ _ => exact .inr (congrArg some (last.1 seals))

theorem Protocol.Command.seals_iff : command.seals = true ↔ ∃ mids, command = .sealPublications mids := by
  cases command <;> simp [seals]

/-- Whatever a client does, an observer keeps up with it, up to a seal at the end. -/
theorem Fluent.run {commands : List Command} (last : SealsLast commands)
    (start : Fluent ordered chronicle ∨ Closing ordered chronicle commands) :
    Fluent ordered (chronicle.run commands) ∨ ∃ front mids,
      commands = front ++ [.sealPublications mids] ∧ Fluent ordered (chronicle.run front) := by
  induction commands generalizing chronicle with
  | nil => exact .inl (start.resolve_right fun closing => nomatch closing.due)
  | cons command rest ih =>
    have later (goes : Fluent ordered (chronicle.step command) ∨
          Closing ordered (chronicle.step command) rest) :
        Fluent ordered (chronicle.run (command :: rest)) ∨ ∃ front mids,
          command :: rest = front ++ [.sealPublications mids] ∧
            Fluent ordered (chronicle.run front) := by
      refine (ih last.tail goes).imp id ?_
      rintro ⟨front, mids, rfl, fluent⟩
      exact ⟨command :: front, mids, rfl, fluent⟩
    rcases start with fluent | closing
    · cases seals : command.seals with
      | false => exact later (.inl (fluent.step seals))
      | true =>
        obtain ⟨mids, rfl⟩ := Command.seals_iff.mp seals
        rcases last.next seals with rfl | closes
        · exact .inr ⟨[], mids, rfl, fluent⟩
        · exact later (.inr ⟨(fluent.recorded.follows_step _).recorded, fluent.order_step _, closes⟩)
    · obtain rfl : command = .notifyTransportClosed := by simpa using closing.due
      exact later (.inl closing.closed)

theorem create_fluent {config : EngineConfig} {store : Store} (written : store.Written)
    (created : Engine.create config store = .ok engine) :
    Fluent store.FlyingFirst (Chronicle.start engine) := by
  obtain ⟨done, log, hydrating⟩ := create_hydrating created written
  have unopened : (Chronicle.start engine).engine.state ≠ .connected := by
    simp [Chronicle.start, hydrating.unopened]
  exact ⟨create_recorded written created, fun connected => absurd connected unopened,
    fun connected => absurd connected unopened, create_order written created⟩

/-! The send quota -/

/-- The publications of this connection that are not terminally answered on it. -/
def Chronicle.outstanding (chronicle : Chronicle) : Finset Nat := (observe chronicle.log).outstanding

/-- No more publications are outstanding than the broker and the local cap allow. -/
def Chronicle.Bounded (chronicle : Chronicle) : Prop :=
  chronicle.outstanding.card ≤ (observe chronicle.log).receiveMaximum ∧
    ∀ cap, chronicle.engine.config.maxOutboundInflight = some cap → chronicle.outstanding.card ≤ cap

/-- The slots are held by the outstanding publications, one each: every holder names the row
of one, every one has a holder, and there are as many holders as outstanding publications. -/
structure Chronicle.HeldExactly (chronicle : Chronicle) : Prop where
  outstanding : ∀ seq, seq ∈ chronicle.outstanding ↔
    ∃ mid ∈ chronicle.engine.outbound.flow.holders,
      ∃ row, chronicle.engine.store.out.get? mid = some row ∧ row.seq = seq
  stored : ∀ mid ∈ chronicle.engine.outbound.flow.holders,
    ∃ row, chronicle.engine.store.out.get? mid = some row ∧ row.seq ∈ chronicle.outstanding
  count : chronicle.engine.outbound.flow.holders.card = chronicle.outstanding.card

theorem Fluent.bounded (fluent : Fluent ordered chronicle)
    (connected : chronicle.engine.state = .connected) : chronicle.Bounded := by
  have sound := fluent.recorded.sound
  have intact : (observe chronicle.ledger.log).intact = true := by
    simpa using fluent.intact connected
  obtain ⟨granted, capped⟩ := sound.quota.fits intact
  have few := sound.outstanding_le intact
  rw [Chronicle.ledger_log] at few granted
  exact ⟨few.trans granted, fun cap local_ => few.trans (capped cap local_)⟩

theorem Fluent.heldExactly (fluent : Fluent ordered chronicle)
    (connected : chronicle.engine.state = .connected) : chronicle.HeldExactly := by
  have sound := fluent.recorded.sound
  have intact : (observe chronicle.ledger.log).intact = true := by
    simpa using fluent.intact connected
  have outstanding : ∀ seq, seq ∈ chronicle.outstanding ↔
      ∃ mid ∈ chronicle.engine.outbound.flow.holders,
        ∃ row, chronicle.engine.store.out.get? mid = some row ∧ row.seq = seq := by
    intro seq
    have held := sound.holders_exact intact seq
    rw [Chronicle.ledger_log] at held
    refine held.trans ⟨?_, ?_⟩
    · rintro ⟨mid, member, entry, found, rfl⟩
      obtain ⟨row, stored, rfl⟩ := Option.map_eq_some_iff.mp (view_row.symm.trans found)
      exact ⟨mid, member, row, stored, rfl⟩
    · rintro ⟨mid, member, row, stored, rfl⟩
      exact ⟨mid, member, entryOf row, by simp [Chronicle.ledger, stored], rfl⟩
  have stored : ∀ mid ∈ chronicle.engine.outbound.flow.holders,
      ∃ row, chronicle.engine.store.out.get? mid = some row ∧ row.seq ∈ chronicle.outstanding := by
    intro mid member
    obtain ⟨entry, found⟩ := Option.isSome_iff_exists.mp (sound.accounts.heldRow mid member).2.1
    obtain ⟨row, stored, _⟩ := Option.map_eq_some_iff.mp (view_row.symm.trans found)
    exact ⟨row, stored, (outstanding row.seq).mpr ⟨mid, member, row, stored, rfl⟩⟩
  refine ⟨outstanding, stored, ?_⟩
  have count := sound.holders_card intact
  rw [Chronicle.ledger_log] at count
  exact count

theorem Chronicle.Recorded.cap_step (recorded : chronicle.Recorded) (command : Command) :
    (chronicle.step command).engine.config.maxOutboundInflight =
      chronicle.engine.config.maxOutboundInflight := by
  rcases (recorded.follows_step command).turn with steps | ⟨_, _, _, _, _, same⟩
  · exact Ledger.cap_steps steps
  · exact congrArg Ledger.cap same

/-- A seal is noted, and nothing else. -/
theorem Chronicle.Recorded.log_seal (recorded : chronicle.Recorded) (mids : List Nat) :
    (chronicle.step (.sealPublications mids)).log =
      chronicle.log ++ (Command.sealPublications mids).tells chronicle.engine := by
  have runs : Sat (Command.sealPublications mids).run chronicle.engine
      (fun _ after => after.effects = chronicle.engine.effects)
      (fun _ after => after.effects = chronicle.engine.effects) := by
    simp only [Command.run, sat_map]
    exact (sealPublications_sat recorded rfl).mono (fun _ _ done => done.2.2)
      fun _ _ failed => failed.elim
  have same := Engine.after_sat runs
  rw [Chronicle.log_step, same, List.drop_length, List.filterMap_nil, List.append_nil]

/-- Seals change nothing that an observer remembers of the connection's packets. -/
theorem observe_seals {log : List Event} (seals : List Nat) :
    (observe (log ++ seals.map .sealed)).outstanding = (observe log).outstanding ∧
      (observe (log ++ seals.map .sealed)).receiveMaximum = (observe log).receiveMaximum := by
  induction seals using List.reverseRecOn with
  | nil => simp
  | append_singleton seals seq ih =>
    rw [List.map_append, ← List.append_assoc, List.map_singleton, observe_append]
    exact ih

theorem sealedSince_seals (before after : Engine) :
    ∃ seals : List Nat, sealedSince before after = seals.map .sealed := by
  refine ⟨(after.outbound.sealed.keys.filter (· ∉ before.outbound.sealed.keys)).filterMap
    fun mid => (before.store.out.get? mid).map OutRow.seq, ?_⟩
  simp only [sealedSince, sealEvents, List.map_filterMap, Option.map_map, Function.comp_def]

theorem Chronicle.Recorded.observe_seal (recorded : chronicle.Recorded) (mids : List Nat) :
    (chronicle.step (.sealPublications mids)).outstanding = chronicle.outstanding ∧
      (observe (chronicle.step (.sealPublications mids)).log).receiveMaximum =
        (observe chronicle.log).receiveMaximum := by
  obtain ⟨seals, same⟩ := sealedSince_seals chronicle.engine
    (chronicle.engine.after (.sealPublications mids))
  have told : (Command.sealPublications mids).tells chronicle.engine = seals.map .sealed := same
  rw [Chronicle.outstanding, recorded.log_seal mids, told]
  exact observe_seals seals

/-- Between a seal and the close of the transport the bounds still hold. -/
theorem Fluent.bounded_seal (fluent : Fluent ordered chronicle) (mids : List Nat)
    (connected : (chronicle.step (.sealPublications mids)).engine.state = .connected) :
    (chronicle.step (.sealPublications mids)).Bounded := by
  have apart : (Command.sealPublications mids).Apart := trivial
  obtain ⟨granted, capped⟩ := fluent.bounded (stays_connected apart connected)
  obtain ⟨outstanding, window⟩ := fluent.recorded.observe_seal mids
  refine ⟨?_, fun cap local_ => ?_⟩
  · rw [outstanding, window]
    exact granted
  · rw [outstanding]
    exact capped cap (fluent.recorded.cap_step _ ▸ local_)

/-- What a run ends with, if not with a seal. -/
theorem Fluent.ended {commands : List Command} (fluent : Fluent ordered chronicle)
    (last : SealsLast commands)
    (unsealed : ∀ front mids, commands ≠ front ++ [.sealPublications mids]) :
    Fluent ordered (chronicle.run commands) := by
  refine (Fluent.run last (.inl fluent)).resolve_right ?_
  rintro ⟨front, mids, same, _⟩
  exact unsealed front mids same

/-- While a client is connected, the outstanding publications of the connection keep to the
broker's Receive Maximum and to the local cap, and they hold the slots until a seal. -/
theorem send_quota {config : EngineConfig} {store : Store} {engine : Engine}
    (written : store.Written) (created : Engine.create config store = .ok engine)
    {commands : List Command} (last : SealsLast commands)
    (connected : ((Chronicle.start engine).run commands).engine.state = .connected) :
    .foreign ∉ ((Chronicle.start engine).run commands).log ∧
      ((Chronicle.start engine).run commands).Bounded ∧
      ((∀ front mids, commands ≠ front ++ [.sealPublications mids]) →
        ((Chronicle.start engine).run commands).HeldExactly) := by
  have fluent := create_fluent written created
  refine ⟨create_native written created commands, ?_, fun unsealed => ?_⟩
  · rcases Fluent.run last (.inl fluent) with fluent | ⟨front, mids, rfl, fluent⟩
    · exact fluent.bounded connected
    · rw [Chronicle.run_concat] at connected ⊢
      exact fluent.bounded_seal mids connected
  · exact (fluent.ended last unsealed).heldExactly connected

/-- A connection, and publications of QoS 1. -/
def published (count : Nat) : List Command :=
  [.beginConnect, .handleRaw ⟨.connack, 0, [0, 0]⟩] ++
    .replicate count (.queuePublish 0 { topic := [116], payload := [1], qos := .atLeastOnce })

set_option maxRecDepth 8000 in
theorem send_quota_published : .foreign ∉ ((Chronicle.start durableEngine).run (published 2)).log ∧
    ((Chronicle.start durableEngine).run (published 2)).Bounded ∧
    ((∀ front mids, published 2 ≠ front ++ [.sealPublications mids]) →
      ((Chronicle.start durableEngine).run (published 2)).HeldExactly) :=
  send_quota memory_written durableEngine_created (by simp [published, SealsLast, Command.seals])
    (by decide)

set_option maxRecDepth 8000 in
/-- A seal gives the slots of its publications back before the broker has answered them. -/
theorem send_quota_sealed : ¬ ∀ commands, SealsLast commands →
    ((Chronicle.start durableEngine).run commands).engine.state = .connected →
    ((Chronicle.start durableEngine).run commands).HeldExactly := by
  intro exactly
  have last : SealsLast (published 1 ++ [.sealPublications [1]]) := by
    simp [published, SealsLast, Command.seals]
  have held := exactly _ last (by decide)
  have outstanding : 1 ∈ ((Chronicle.start durableEngine).run
      (published 1 ++ [.sealPublications [1]])).outstanding := by decide
  have free : ((Chronicle.start durableEngine).run
      (published 1 ++ [.sealPublications [1]])).engine.outbound.flow.holders = ∅ := by decide
  obtain ⟨mid, member, _⟩ := (held.outstanding 1).mp outstanding
  rw [free] at member
  exact Finset.notMem_empty mid member

/-! First in, first out -/

/-- While a client is connected, nothing waits for a free slot until a seal, and the
publications leave in the order of their admission, each once. -/
theorem first_in_first_out {config : EngineConfig} {store : Store} {engine : Engine}
    (written : store.Written) (flyingFirst : store.FlyingFirst)
    (created : Engine.create config store = .ok engine) {commands : List Command}
    (last : SealsLast commands)
    (connected : ((Chronicle.start engine).run commands).engine.state = .connected) :
    .foreign ∉ ((Chronicle.start engine).run commands).log ∧
      (observe ((Chronicle.start engine).run commands).log).published.Pairwise (· < ·) ∧
      ((∀ front mids, commands ≠ front ++ [.sealPublications mids]) →
        ((Chronicle.start engine).run commands).engine.outbound.queued ≠ [] →
          ((Chronicle.start engine).run commands).engine.outbound.flow.available = 0) := by
  have fluent := create_fluent written created
  refine ⟨create_native written created commands, ?_, fun unsealed waits => ?_⟩
  · have order : Ledger.Order ((Chronicle.start engine).run commands).ledger := by
      rcases Fluent.run last (.inl fluent) with fluent | ⟨front, mids, rfl, fluent⟩
      · exact fluent.order flyingFirst
      · rw [Chronicle.run_concat]
        exact fluent.order_step _ flyingFirst
    simpa using order.increasing
  · have full := ((fluent.ended last unsealed).busy connected).resolve_left waits
    exact Nat.sub_eq_zero_of_le full

theorem memory_flyingFirst : Store.FlyingFirst { kind := .memory } := .nil

set_option maxRecDepth 8000 in
theorem first_in_first_out_published :
    .foreign ∉ ((Chronicle.start durableEngine).run (published 2)).log ∧
    (observe ((Chronicle.start durableEngine).run (published 2)).log).published.Pairwise (· < ·) ∧
    ((∀ front mids, published 2 ≠ front ++ [.sealPublications mids]) →
      ((Chronicle.start durableEngine).run (published 2)).engine.outbound.queued ≠ [] →
        ((Chronicle.start durableEngine).run (published 2)).engine.outbound.flow.available = 0) :=
  first_in_first_out memory_written memory_flyingFirst durableEngine_created
    (by simp [published, SealsLast, Command.seals]) (by decide)

/-- A client that keeps its session and has one publication in flight at a time. -/
def singleConfig : EngineConfig :=
  { clientId := [97], cleanStart := false, maxOutboundInflight := some 1, accepted := rfl }

def singleEngine : Engine := Engine.started singleConfig { kind := .memory } (∅, 0, [])

set_option maxRecDepth 8000 in
/-- A seal gives a slot back while publications wait, and sends none of them. -/
theorem first_in_first_out_sealed :
    Engine.create singleConfig { kind := .memory } = .ok singleEngine ∧ ¬ ∀ commands, SealsLast commands →
      ((Chronicle.start singleEngine).run commands).engine.state = .connected →
      ((Chronicle.start singleEngine).run commands).engine.outbound.queued ≠ [] →
        ((Chronicle.start singleEngine).run commands).engine.outbound.flow.available = 0 := by
  refine ⟨rfl, fun full => ?_⟩
  have last : SealsLast (published 2 ++ [.sealPublications [1]]) := by
    simp [published, SealsLast, Command.seals]
  have taken := full _ last (by decide) (by decide)
  exact absurd taken (by decide)

end

end Mqttium
