import Mqttium.Receiving.Commands

/-! Manual QoS 1 acknowledgements leave in arrival order. An observer writes down, for
the current connection, which exchanges were announced, acknowledged and answered. -/

namespace Mqttium

open Codec Library Packets Persistence Protocol

/-- The arrival numbers of the exchange of `mid` that waits for PUBACK. -/
def Protocol.Engine.numbers (engine : Engine) (mid : Nat) : List Nat :=
  (engine.store.waiting.filter fun entry => entry.1 = mid).map Prod.snd

/-- A session and what an observer wrote down of its current connection: the arrival
numbers of the exchanges whose PUBLISH came and of those the application acknowledged,
and the exchanges that were answered. -/
structure Journal where
  session : Protocol.Session
  announced : List Nat := []
  accepted : List Nat := []
  answered : List (Nat × Nat) := []

namespace Journal

/-- Write a step down. On an open connection an exchange no longer waits once it is answered. -/
def note (journal : Journal) (session : Protocol.Session) (announced accepted : List Nat) :
    Journal where
  session := session
  announced := journal.announced ++ announced
  accepted := journal.accepted ++ accepted
  answered := journal.answered ++
    if journal.session.engine.state = .connected then
      journal.session.engine.store.waiting.filter fun entry => entry ∉ session.engine.store.waiting
    else []

def step (journal : Journal) (command : Command) : Journal :=
  let before := journal.session.engine
  let session := journal.session.step command
  match command, command.run before with
  | .beginConnect, .ok _ _ => { session }
  | .handleRaw raw, _ =>
    journal.note session ((announcedMid before raw).toList.flatMap fun mid =>
      before.numbers mid ++ session.engine.numbers mid) []
  | .ack mid _, .ok _ _ => journal.note session [] (before.numbers mid)
  | _, _ => journal.note session [] []

def run (journal : Journal) (commands : List Command) : Journal := commands.foldl step journal

@[simp] theorem run_nil (journal : Journal) : journal.run [] = journal := rfl

@[simp] theorem run_concat (journal : Journal) (commands : List Command) (command : Command) :
    journal.run (commands ++ [command]) = (journal.run commands).step command := by
  simp [run]

/-- The observer does not disturb the session. -/
theorem step_session (journal : Journal) (command : Command) :
    (journal.step command).session = journal.session.step command := by
  simp only [step]
  split <;> rfl

theorem run_session (journal : Journal) (commands : List Command) :
    (journal.run commands).session = journal.session.run commands := by
  induction commands using List.reverseRecOn with
  | nil => rfl
  | append_singleton commands command ih =>
    rw [run_concat, step_session, ih, Protocol.Session.run_concat]

end Journal

/-- What holds of the observer's notes after every call. -/
structure Journal.Fair (journal : Journal) : Prop where
  tended : Tended journal.session.engine
  pubacks : journal.session.sent.filter IsPuback =
    journal.answered.map fun entry => pubackFrame entry.1
  ordered : (journal.answered.map Prod.snd).Pairwise (· < ·)
  numbered : ∀ entry ∈ journal.answered, entry.2 ≤ journal.session.engine.store.inSeq
  behind : ∀ entry ∈ journal.answered, ∀ waits ∈ journal.session.engine.store.waiting,
    entry.2 < waits.2
  proper : ∀ entry ∈ journal.answered, entry.2 ∈ journal.announced ∧ entry.2 ∈ journal.accepted
  bounded : ∀ number ∈ journal.accepted, number ≤ journal.session.engine.store.inSeq
  unasked : journal.session.engine.state = .connecting → journal.accepted = []
  linked : journal.session.engine.live → ∀ waits ∈ journal.session.engine.store.waiting,
    (waits.1 ∈ journal.session.engine.inbound.pendingManualQos1Acks ↔ waits.2 ∈ journal.accepted) ∧
      (waits.1 ∈ journal.session.engine.inbound.currentPersistedMids → waits.2 ∈ journal.announced)

/-! Steps -/

section

variable {before after : Engine} {announced accepted : Option Nat} {done : List (Nat × Nat)}
  {mid number : Nat}

theorem mem_numbers : number ∈ before.numbers mid ↔ (mid, number) ∈ before.store.waiting := by
  simp [Engine.numbers]

theorem Drifts.numbered (drifts : Drifts before after) (kept : before.kept) :
    before.store.inSeq ≤ after.store.inSeq :=
  have sound : before.exchanges.Sound := kept.identities
  (sound.follows drifts.steps).serials

theorem Tended.drifts (tended : Tended before) (drifts : Drifts before after) (kept : after.kept)
    (honest : Honest NoPuback after) : Tended after :=
  ⟨kept, by rw [drifts.config, tended.manual], drifts.reliable tended.reliable, honest⟩

/-- The exchanges that leave are those that were answered. -/
theorem Turns.answered (turns : Turns announced accepted done before after)
    (kept : before.kept) :
    before.store.waiting.filter (fun entry => entry ∉ after.store.waiting) = done := by
  obtain ⟨rest, fresh, was, now, new⟩ := turns.waiting
  have nodup : before.store.waiting.Nodup := (waiting_nodup).of_map
  rw [was] at nodup
  have outside (entry : Nat × Nat) (member : entry ∈ done) : entry ∉ after.store.waiting := by
    rw [now, List.mem_append]
    rintro (stays | comes)
    · exact (List.disjoint_of_nodup_append nodup) member stays
    · have old : entry ∈ before.store.waiting := was ▸ List.mem_append_left _ member
      obtain ⟨row, found, _, same⟩ := mem_waiting.mp old
      have bounded := kept.numbered found
      have later := (new entry comes).2
      omega
  have inside (entry : Nat × Nat) (member : entry ∈ rest) : entry ∈ after.store.waiting := by
    rw [now]
    exact List.mem_append_left _ member
  rw [was, List.filter_append]
  have first : done.filter (fun entry => entry ∉ after.store.waiting) = done :=
    List.filter_eq_self.mpr fun entry member => by simpa using outside entry member
  have second : rest.filter (fun entry => entry ∉ after.store.waiting) = [] :=
    List.filter_eq_nil_iff.mpr fun entry member => by simpa using inside entry member
  rw [first, second, List.append_nil]

theorem emitted_turns (turns : Turns announced accepted done before after) :
    (emitted before after).filter IsPuback = done.map fun entry => pubackFrame entry.1 := by
  obtain ⟨fresh, grown, pubacks, _⟩ := turns.effects
  simpa [emitted, grown] using pubacks

theorem emitted_adds (adds : Adds NoPuback before after) :
    (emitted before after).filter IsPuback = [] :=
  List.filter_eq_nil_iff.mpr fun item member => by simpa using adds_frames adds item member

/-- The waiting exchanges are known by number. -/
theorem waiting_name (kept : before.kept) {left right : Nat}
    (first : (left, number) ∈ before.store.waiting)
    (second : (right, number) ∈ before.store.waiting) :
    left = right := by
  have strict := kept.toArranged.waiting_ordered
  have nodup : (before.store.waiting.map Prod.snd).Nodup :=
    strict.imp fun less same => less.ne same
  have same := List.inj_on_of_nodup_map nodup first second rfl
  exact congrArg Prod.fst same

end

section

variable {journal : Journal} {after : Engine} {announced accepted : Option Nat}
  {done : List (Nat × Nat)} {frames : List WriteItem}

/-- The journal after a call that brought the PUBLISH of `announced` and acknowledged `accepted`. -/
def Journal.following (journal : Journal) (after : Engine) (frames : List WriteItem)
    (announced accepted : Option Nat) : Journal :=
  journal.note { engine := after, sent := journal.session.sent ++ frames }
    (announced.toList.flatMap fun mid => journal.session.engine.numbers mid ++ after.numbers mid)
    (accepted.toList.flatMap journal.session.engine.numbers)

theorem mem_accepts {number : Nat} :
    number ∈ accepted.toList.flatMap journal.session.engine.numbers ↔
      ∃ mid ∈ accepted, (mid, number) ∈ journal.session.engine.store.waiting := by
  simp [mem_numbers]

theorem mem_announces {number : Nat} :
    number ∈ (announced.toList.flatMap fun mid =>
        journal.session.engine.numbers mid ++ after.numbers mid) ↔
      ∃ mid ∈ announced, (mid, number) ∈ journal.session.engine.store.waiting ∨
        (mid, number) ∈ after.store.waiting := by
  simp [mem_numbers]

/-- The exchanges that leave come before those that stay and those that are new. -/
theorem Turns.overtakes {before : Engine} (turns : Turns announced accepted done before after)
    (kept : before.kept) : ∀ entry ∈ done, ∀ waits ∈ after.store.waiting, entry.2 < waits.2 := by
  obtain ⟨rest, fresh, was, now, new⟩ := turns.waiting
  have strict := kept.toArranged.waiting_ordered
  rw [was, List.map_append, List.pairwise_append] at strict
  intro entry member waits stays
  rw [now, List.mem_append] at stays
  rcases stays with old | comes
  · exact strict.2.2 _ (List.mem_map_of_mem member) _ (List.mem_map_of_mem old)
  · obtain ⟨row, found, _, same⟩ := mem_waiting.mp (was ▸ List.mem_append_left _ member)
    have bounded := kept.numbered found
    have later := (new waits comes).2
    omega

/-- After an answer the link between names and numbers still holds. -/
theorem Journal.Fair.linked_turns (fair : journal.Fair)
    (open_ : journal.session.engine.state = .connected)
    (turns : Turns announced accepted done journal.session.engine after)
    (awaits : ∀ mid ∈ accepted, mid ∈ journal.session.engine.store.waiting.map Prod.fst)
    {name number : Nat} (waits : (name, number) ∈ after.store.waiting) :
    (name ∈ after.inbound.pendingManualQos1Acks ↔
      number ∈ (journal.following after frames announced accepted).accepted) ∧
    (name ∈ after.inbound.currentPersistedMids →
      number ∈ (journal.following after frames announced accepted).announced) := by
  have linked := fair.linked (.inr open_)
  obtain ⟨rest, fresh, was, now, new⟩ := turns.waiting
  simp only [Journal.following, Journal.note, List.mem_append, mem_accepts, mem_announces]
  refine ⟨?_, fun here => ?_⟩
  · rw [turns.acked]
    have member := waits
    rw [now, List.mem_append] at member
    rcases member with old | comes
    · have there : (name, number) ∈ journal.session.engine.store.waiting :=
        was ▸ List.mem_append_right _ old
      have outside : name ∉ done.map Prod.fst := by
        have nodup : (journal.session.engine.store.waiting.map Prod.fst).Nodup := waiting_nodup
        rw [was, List.map_append] at nodup
        exact fun gone => List.disjoint_of_nodup_append nodup gone (List.mem_map_of_mem old)
      have asked : some name = accepted ↔
          ∃ mid ∈ accepted, (mid, number) ∈ journal.session.engine.store.waiting := by
        constructor
        · exact fun same => ⟨name, same.symm, there⟩
        · rintro ⟨mid, same, also⟩
          have name_eq := waiting_name fair.tended.kept there also
          rw [name_eq, same]
      rw [(linked _ there).1, asked]
      exact ⟨And.left, fun given => ⟨given, outside⟩⟩
    · have young := (new _ comes).2
      have gone (present : name ∈ journal.session.engine.store.waiting.map Prod.fst) :
          name ∈ done.map Prod.fst := by
        rw [was, List.map_append, List.mem_append] at present
        rcases present with left | stays
        · exact left
        · have nodup : (after.store.waiting.map Prod.fst).Nodup := waiting_nodup
          rw [now, List.map_append] at nodup
          exact absurd (List.mem_map_of_mem comes) (List.disjoint_of_nodup_append nodup stays)
      constructor
      · rintro ⟨held | same, outside⟩
        · exact absurd (gone (fair.tended.kept.acked name held).2) outside
        · exact absurd (gone (awaits name same.symm)) outside
      · rintro (old | ⟨mid, _, also⟩)
        · have bounded := fair.bounded number old
          omega
        · obtain ⟨row, found, _, same⟩ := mem_waiting.mp also
          have bounded := fair.tended.kept.numbered found
          omega
  · rcases turns.current name (List.mem_map_of_mem waits) here with held | same
    · have member := waits
      rw [now, List.mem_append] at member
      rcases member with old | comes
      · have there : (name, number) ∈ journal.session.engine.store.waiting :=
          was ▸ List.mem_append_right _ old
        exact .inl ((linked _ there).2 held)
      · exact .inr ⟨name, (new _ comes).1.symm, .inr waits⟩
    · exact .inr ⟨name, same.symm, .inr waits⟩

/-- A step on an open connection. -/
theorem Journal.Fair.turns (fair : journal.Fair) (open_ : journal.session.engine.state = .connected)
    (stays : Stays journal.session.engine after) (kept : after.kept)
    (honest : Honest NoPuback after)
    (turns : Turns announced accepted done journal.session.engine after)
    (awaits : ∀ mid ∈ accepted, mid ∈ journal.session.engine.store.waiting.map Prod.fst)
    (framed : frames.filter IsPuback =
      (emitted journal.session.engine after).filter IsPuback) :
    (journal.following after frames announced accepted).Fair := by
  have before := fair.tended.kept
  have later := turns.toDrifts.numbered before
  have linked := fair.linked (.inr open_)
  have answered : (journal.following after frames announced accepted).answered =
      journal.answered ++ done := by
    simp only [Journal.following, Journal.note, if_pos open_]
    rw [turns.answered before]
  have was : ∀ entry ∈ done, entry ∈ journal.session.engine.store.waiting := by
    obtain ⟨rest, fresh, was, _⟩ := turns.waiting
    exact fun entry member => was ▸ List.mem_append_left _ member
  refine ⟨fair.tended.drifts turns.toDrifts kept honest, ?_, ?_, ?_, ?_, ?_, ?_, ?_, ?_⟩
  · rw [answered]
    simp only [Journal.following, Journal.note, List.filter_append, List.map_append, fair.pubacks,
      framed, emitted_turns turns]
  · rw [answered, List.map_append, List.pairwise_append]
    refine ⟨fair.ordered, ?_, ?_⟩
    · obtain ⟨rest, fresh, split, _⟩ := turns.waiting
      have strict := before.toArranged.waiting_ordered
      rw [split, List.map_append, List.pairwise_append] at strict
      exact strict.1
    · rintro early first last second
      obtain ⟨entry, member, rfl⟩ := List.mem_map.mp first
      obtain ⟨waits, leaves, rfl⟩ := List.mem_map.mp second
      exact fair.behind entry member waits (was waits leaves)
  · rw [answered]
    intro entry member
    rcases List.mem_append.mp member with old | fresh
    · exact (fair.numbered entry old).trans later
    · obtain ⟨row, found, _, same⟩ := mem_waiting.mp (was entry fresh)
      have bounded := before.numbered found
      rw [same] at bounded
      exact bounded.trans later
  · rw [answered]
    intro entry member waits here
    rcases List.mem_append.mp member with old | fresh
    · obtain ⟨rest, fresh, split, now, new⟩ := turns.waiting
      change waits ∈ after.store.waiting at here
      rw [now, List.mem_append] at here
      rcases here with stays | comes
      · exact fair.behind entry old waits (split ▸ List.mem_append_right _ stays)
      · exact (fair.numbered entry old).trans_lt (new waits comes).2
    · exact turns.overtakes before entry fresh waits here
  · rw [answered]
    intro entry member
    simp only [Journal.following, Journal.note, List.mem_append, mem_accepts, mem_announces]
    rcases List.mem_append.mp member with old | fresh
    · exact ⟨.inl (fair.proper entry old).1, .inl (fair.proper entry old).2⟩
    · obtain ⟨acked, here⟩ := turns.ready entry fresh
      have waits := was entry fresh
      refine ⟨?_, ?_⟩
      · rcases here with held | same
        · exact .inl ((linked entry waits).2 held)
        · exact .inr ⟨entry.1, same.symm, .inl waits⟩
      · rcases acked with held | same
        · exact .inl ((linked entry waits).1.mp held)
        · exact .inr ⟨entry.1, same.symm, waits⟩
  · intro number member
    simp only [Journal.following, Journal.note, List.mem_append, mem_accepts] at member
    rcases member with old | ⟨mid, _, waits⟩
    · exact (fair.bounded number old).trans later
    · obtain ⟨row, found, _, rfl⟩ := mem_waiting.mp waits
      exact (before.numbered found).trans later
  · intro opening
    change after.state = .connecting at opening
    rcases stays with same | ceased
    · rw [same, open_] at opening
      cases opening
    · exact absurd opening ceased.not_connecting
  · exact fun _ waits member => fair.linked_turns open_ turns awaits member

/-- What is owed to the answers when no exchange is answered. -/
theorem Journal.Fair.silent (fair : journal.Fair) (kept : after.kept)
    (honest : Honest NoPuback after)
    (drifts : Drifts journal.session.engine after)
    (stays : ∀ waits ∈ after.store.waiting, waits ∈ journal.session.engine.store.waiting)
    (leaves : journal.session.engine.state = .connected →
      after.store.waiting = journal.session.engine.store.waiting)
    (framed : frames.filter IsPuback = [])
    (unasked : after.state = .connecting →
      (journal.following after frames announced accepted).accepted = [])
    (linked : after.live → ∀ waits ∈ after.store.waiting,
      (waits.1 ∈ after.inbound.pendingManualQos1Acks ↔
        waits.2 ∈ (journal.following after frames announced accepted).accepted) ∧
      (waits.1 ∈ after.inbound.currentPersistedMids →
        waits.2 ∈ (journal.following after frames announced accepted).announced)) :
    (journal.following after frames announced accepted).Fair := by
  have before := fair.tended.kept
  have later := drifts.numbered before
  have answered : (journal.following after frames announced accepted).answered =
      journal.answered := by
    simp only [Journal.following, Journal.note]
    split
    · rename_i open_
      have none : journal.session.engine.store.waiting.filter
          (fun entry => entry ∉ after.store.waiting) = [] := by
        rw [leaves open_]
        exact List.filter_eq_nil_iff.mpr fun entry member => by simpa using member
      rw [none, List.append_nil]
    · rw [List.append_nil]
  refine ⟨fair.tended.drifts drifts kept honest, ?_, ?_, ?_, ?_, ?_, ?_, unasked, linked⟩
  · rw [answered]
    simp only [Journal.following, Journal.note, List.filter_append, framed, List.append_nil,
      fair.pubacks]
  · rw [answered]
    exact fair.ordered
  · rw [answered]
    exact fun entry member => (fair.numbered entry member).trans later
  · rw [answered]
    exact fun entry member waits here => fair.behind entry member waits (stays waits here)
  · rw [answered]
    intro entry member
    obtain ⟨told, asked⟩ := fair.proper entry member
    exact ⟨List.mem_append_left _ told, List.mem_append_left _ asked⟩
  · intro number member
    simp only [Journal.following, Journal.note, List.mem_append, mem_accepts] at member
    rcases member with old | ⟨mid, _, waits⟩
    · exact (fair.bounded number old).trans later
    · obtain ⟨row, found, _, rfl⟩ := mem_waiting.mp waits
      exact (before.numbered found).trans later

/-- A step while the connection is being opened. -/
theorem Journal.Fair.opens (fair : journal.Fair)
    (opening : journal.session.engine.state = .connecting)
    (kept : after.kept) (honest : Honest NoPuback after)
    (shrinks : Shrinks journal.session.engine after) (framed : frames.filter IsPuback = []) :
    (journal.following after frames announced none).Fair := by
  have unasked := fair.unasked opening
  have linked := fair.linked (.inl opening)
  have accepted : (journal.following after frames announced none).accepted = [] := by
    simp [Journal.following, Journal.note, unasked]
  refine fair.silent kept honest shrinks.toDrifts (fun _ member => shrinks.waiting.subset member)
    ?_ framed
    (fun _ => accepted) ?_
  · intro open_
    rw [opening] at open_
    cases open_
  · rintro _ ⟨name, number⟩ waits
    have there := shrinks.waiting.subset waits
    rw [accepted]
    refine ⟨⟨fun held => ?_, nofun⟩, fun here => ?_⟩
    · have acked := (linked _ there).1.mp (shrinks.acked name held)
      rw [unasked] at acked
      exact acked
    · have held := shrinks.current name (List.mem_map_of_mem waits) here
      exact List.mem_append_left _ ((linked _ there).2 held)

theorem Journal.Fair.shift (fair : journal.Fair)
    (shifted : Shifted announced accepted journal.session.engine after)
    (awaits : ∀ mid ∈ accepted, mid ∈ journal.session.engine.store.waiting.map Prod.fst)
    (framed : frames.filter IsPuback = (emitted journal.session.engine after).filter IsPuback) :
    (journal.following after frames announced accepted).Fair := by
  obtain ⟨kept, honest, shift⟩ := shifted
  cases shift with
  | turns done open_ stays turns => exact fair.turns open_ stays kept honest turns awaits framed
  | opens opening passive shrinks adds =>
    subst passive
    exact fair.opens opening kept honest shrinks (framed.trans (emitted_adds adds))
  | ends ended unannounced same drifts adds =>
    refine fair.silent kept honest drifts (fun waits member => same ▸ member) (fun _ => same)
      (framed.trans (emitted_adds adds)) (fun opening => absurd (.inl opening) ended)
      fun live => absurd live ended

end

/-! Runs -/

section

variable {journal : Journal} {command : Command}

theorem returned_no_puback (command : Command) (engine : Engine) :
    Sat command.run engine (fun returned _ => returned.toList.filter IsPuback = [])
      (fun _ _ => True) := by
  have nothing {Value : Type} (program : EngineM Value) :
      Sat ((fun _ => none) <$> program : EngineM (Option WriteItem)) engine
        (fun returned _ => returned.toList.filter IsPuback = []) (fun _ _ => True) := by
    rw [sat_map]
    exact Sat.of_forall (fun _ _ => rfl) (fun _ _ => trivial)
  have one {item : WriteItem} {packetType : PacketType}
      (coded : frameCode item.header = some packetType.code) (other : packetType ≠ .puback) :
      (some item).toList.filter IsPuback = [] := by
    have asks := adds_code coded other
    simpa using asks
  cases command with
  | beginConnect =>
    simp only [Command.run, sat_map]
    exact (beginConnect_sat engine).mono (fun _ _ coded => one coded (by decide))
      fun _ _ _ => trivial
  | beginDisconnect reasonCode properties =>
    simp only [Command.run, beginDisconnect, sat_map, sat_bind, sat_get, sat_raiseIf,
      sat_fromExcept]
    refine ⟨fun _ => trivial, fun _ => ⟨fun _ _ => ⟨fun wire encoded => ?_, fun _ _ => trivial⟩,
      fun _ _ => trivial⟩⟩
    refine sat_checkOutboundSize ?_ fun _ => trivial
    exact one (frameCode_encodeDisconnect encoded) (by decide)
  | tryDirectQos0Publish call admitted =>
    simp only [Command.run, tryDirectQos0Publish, sat_bind, sat_get, sat_ite, sat_onlyIf, sat_pure]
    refine ⟨fun _ => rfl, fun _ => (prepareQos0_sat engine call).mono ?_ fun _ _ _ => trivial⟩
    rintro item _ ⟨rfl, prepared⟩
    obtain ⟨_, _, _, _, _, _, encoded⟩ := prepared.shape
    have coded := one (frameCode_encodePublishItem encoded) (by decide)
    exact ⟨fun _ => ⟨fun _ => Sat.of_forall (fun _ _ => coded) fun _ _ => trivial, fun _ => coded⟩,
      fun _ => rfl⟩
  | _ => exact nothing _

theorem awaited_accepted (engine : Engine) (mid : Nat) :
    (engine.awaited mid).toList.flatMap engine.numbers = engine.numbers mid := by
  unfold Engine.awaited
  split
  · simp
  · rename_i idle
    symm
    apply List.eq_nil_iff_forall_not_mem.mpr
    intro number member
    exact idle (List.mem_map_of_mem (mem_numbers.mp member))

theorem accepts_waits (engine : Engine) (command : Command) :
    ∀ mid ∈ command.accepts engine, mid ∈ engine.store.waiting.map Prod.fst := by
  intro mid member
  cases command with
  | ack name message =>
    simp only [Command.accepts, Engine.awaited] at member
    split at member
    · cases member
      assumption
    · cases member
  | _ => cases member

/-- A connection starts with nothing announced or acknowledged. -/
theorem beginConnect_opens {engine : Engine} (tended : Tended engine) :
    Sat Command.beginConnect.run engine
      (fun _ after => Tended after ∧ after.inbound.pendingManualQos1Acks = ∅ ∧
        after.inbound.currentPersistedMids = ∅)
      (fun _ after => after = engine) := by
  have keeps : Within (Keeps Shrinks) beginConnect := keeps_beginConnect
  have sends : Within (Sends NoPuback) beginConnect := heedless_beginConnect
  have clears : Sat beginConnect engine
      (fun _ after => after.inbound.pendingManualQos1Acks = ∅ ∧
        after.inbound.currentPersistedMids = ∅) (fun _ after => after = engine) := by
    simp [beginConnect, Inbound.startConnection]
  rw [Command.run, sat_map]
  apply (((keeps.settles tended.kept).and (sends engine)).and clears).mono
  · rintro _ _ ⟨⟨⟨kept, shrinks⟩, sends⟩, clears⟩
    exact ⟨tended.drifts shrinks.toDrifts kept (sends tended.honest).1, clears⟩
  · rintro _ _ ⟨_, same⟩
    exact same

theorem Journal.Fair.effects (fair : journal.Fair) (effects : List Effect) :
    { journal with session := { journal.session with
      engine := { journal.session.engine with effects } } : Journal }.Fair :=
  { fair with
    tended := ⟨{ fair.tended.kept with }, fair.tended.manual, fair.tended.reliable,
      ⟨fair.tended.honest.rows, fair.tended.honest.queue⟩⟩ }

/-- Taking the effects away frees what their acknowledgements held. -/
theorem takeEffects_calm {engine : Engine} (tended : Tended engine) :
    Sat Command.takeEffects.run engine
      (fun returned after => returned = none ∧ ∃ released, Calm engine released ∧
        after = { released with effects := [] })
      (fun _ _ => False) := by
  have sheds : Sheds engine.inbound
      { engine.inbound with
        autoackHandoffRequired := false
        pendingAutoQos1Mids := ∅
        pendingPubcomps := ∅
        pendingPubcompSlots :=
          if engine.inbound.pendingPubcomps = ∅ then engine.inbound.pendingPubcompSlots else 0 } :=
    ⟨rfl, rfl, rfl, rfl, rfl, fun _ => id, fun _ => id, fun _ => id⟩
  have released : Calm engine { engine with inbound := _ } :=
    ⟨sheds.rests rfl, Kept.sheds tended.kept sheds, ⟨tended.honest.rows, tended.honest.queue⟩,
      adds_nothing rfl, .inl rfl⟩
  simp only [Command.run, takeEffects, sat_map, sat_bind, sat_get, sat_modify, sat_onlyIf, sat_pure,
    Inbound.releasePendingAcks, sat_modifyInbound]
  exact ⟨fun _ => ⟨trivial, _, released, rfl⟩, fun _ => ⟨trivial, engine, tended.same, rfl⟩⟩

theorem Journal.Fair.step (fair : journal.Fair) (command : Command) :
    (journal.step command).Fair := by
  by_cases connects : command = .beginConnect
  · subst connects
    have opens := beginConnect_opens fair.tended
    have asks := returned_no_puback .beginConnect journal.session.engine
    cases ended : Command.beginConnect.run journal.session.engine with
    | ok returned after =>
      obtain ⟨tended, acked, current⟩ := opens.ok ended
      simp only [Journal.step, ended, Protocol.Session.step_connect ended]
      exact ⟨tended, asks.ok ended, .nil, nofun, nofun, nofun, nofun, fun _ => rfl,
        fun _ waits _ => ⟨by simp [acked], by simp [current]⟩⟩
    | error failure after =>
      have same := opens.error ended
      simp only [Journal.step, ended, Protocol.Session.step_error ended]
      subst same
      have stays : (journal.following journal.session.engine
          (emitted journal.session.engine journal.session.engine) none none).Fair :=
        fair.shift fair.tended.same.shifted nofun rfl
      exact stays
  · by_cases takes : command = .takeEffects
    · subst takes
      have calm := takeEffects_calm fair.tended
      cases ended : Command.takeEffects.run journal.session.engine with
      | error failure after => exact (calm.error ended).elim
      | ok returned after =>
        obtain ⟨rfl, released, calm, rfl⟩ := calm.ok ended
        have nothing : emitted journal.session.engine { released with effects := [] } = [] := by
          simp [emitted]
        have stays : (journal.following released [] none none).Fair :=
          fair.shift calm.shifted nofun (emitted_adds calm.adds).symm
        have cleared := stays.effects []
        simp only [Journal.step, Protocol.Session.step_ok ended connects, nothing]
        simpa [Journal.following, Journal.note] using cleared
    · have shifts := run_shifted fair.tended command connects takes
      have asks := returned_no_puback command journal.session.engine
      have awaits := accepts_waits journal.session.engine command
      cases ended : command.run journal.session.engine with
      | ok returned after =>
        have stays : (journal.following after
            (emitted journal.session.engine after ++ returned.toList)
            (command.announces journal.session.engine)
            (command.accepts journal.session.engine)).Fair :=
          fair.shift (shifts.ok ended) awaits
            (by rw [List.filter_append, asks.ok ended, List.append_nil])
        simp only [Journal.step, ended, Protocol.Session.step_ok ended connects, List.append_assoc]
        cases command with
        | beginConnect => exact absurd rfl connects
        | handleRaw raw => exact stays
        | ack mid message =>
          rw [Command.accepts, Journal.following, awaited_accepted] at stays
          exact stays
        | _ => exact stays
      | error failure after =>
        have stays : (journal.following after (emitted journal.session.engine after)
            (command.announces journal.session.engine) none).Fair :=
          fair.shift (shifts.error ended) nofun rfl
        simp only [Journal.step, ended, Protocol.Session.step_error ended]
        cases command with
        | beginConnect => exact absurd rfl connects
        | _ => exact stays

theorem Journal.Fair.run (fair : journal.Fair) (commands : List Command) :
    (journal.run commands).Fair := by
  induction commands using List.reverseRecOn with
  | nil => exact fair
  | append_singleton commands command ih =>
    rw [Journal.run_concat]
    exact ih.step command

end

section

variable {config : EngineConfig} {store : Store} {engine : Engine}

theorem create_fair (created : Engine.create config store = .ok engine)
    (manual : config.manualAck = true) (reliable : store.Reliable) (arranged : store.Arranged)
    (caches : store.Caches NoPuback) : Journal.Fair { session := ⟨engine, []⟩ } := by
  obtain ⟨recovered, started, kept, rests⟩ := create_kept created arranged
  obtain ⟨again, _, hydrated⟩ := create_ok created
  have hydrates : Within (Minds NoPuback) Outbound.hydrate := outward_hydrate
  have honest : Honest NoPuback (Engine.started config store again) :=
    ⟨caches, by simp [Engine.started, Engine.blank]⟩
  obtain ⟨keeps, stays⟩ := (hydrates _).ok hydrated honest
  have blank : ¬ (Engine.started config store again).live := by
    rintro (opening | open_)
    · cases opening
    · cases open_
  have dead := stays.not_live blank
  have same : engine.config = config := rests.config
  exact ⟨⟨kept, by rw [same, manual], rests.reliable reliable, keeps⟩, rfl, .nil, (by simp), (by simp), (by simp),
    (by simp), fun _ => rfl, fun live => absurd live dead⟩

/-- The PUBLISH of an exchange that the application acknowledged on this connection
does not bring the message again. -/
theorem Journal.Fair.announces {journal : Journal} (fair : journal.Fair) {raw : RawPacket}
    {mid number : Nat}
    (announced : announcedMid journal.session.engine raw = some mid)
    (waits : (mid, number) ∈ journal.session.engine.store.waiting)
    (accepted : number ∈ journal.accepted) :
    ∀ effect ∈ (journal.session.step (.handleRaw raw)).engine.effects.drop
      journal.session.engine.effects.length, ¬ effect.Delivers := by
  have open_ : journal.session.engine.state = .connected := by
    by_contra closed
    simp [announcedMid_closed closed] at announced
  have acked := ((fair.linked (.inr open_) _ waits).1).mpr accepted
  have quiet {after : Engine}
      (shifted : Shifted (announcedMid journal.session.engine raw) none journal.session.engine after) :
      ∀ effect ∈ after.effects.drop journal.session.engine.effects.length, ¬ effect.Delivers := by
    cases shifted.shift with
    | turns done _ _ turns =>
      obtain ⟨fresh, grown, _, silent⟩ := turns.effects
      rw [grown, List.drop_left]
      exact silent mid announced acked
    | opens opening => simp [open_] at opening
    | ends ended unannounced => simp [announced] at unannounced
  have shifts := run_shifted fair.tended (.handleRaw raw) nofun nofun
  cases ended : (Command.handleRaw raw).run journal.session.engine with
  | ok returned after =>
    rw [Protocol.Session.step_ok ended nofun]
    exact quiet (shifts.ok ended)
  | error failure after =>
    rw [Protocol.Session.step_error ended]
    exact quiet (shifts.error ended)

/-- On each connection the PUBACKs leave in the arrival order of their exchanges, for
exchanges that were announced and acknowledged on it; no exchange that still waits came
before one that was answered. An exchange acknowledged on the connection is not
delivered again when its PUBLISH comes again. -/
theorem manual_pubacks_in_order (created : Engine.create config store = .ok engine)
    (manual : config.manualAck = true) (reliable : store.Reliable) (arranged : store.Arranged)
    (caches : store.Caches NoPuback) (commands : List Command) :
    let journal := Journal.run { session := ⟨engine, []⟩ } commands
    journal.session = Protocol.Session.run ⟨engine, []⟩ commands ∧
    journal.session.sent.filter IsPuback = journal.answered.map (fun entry => pubackFrame entry.1) ∧
    (journal.answered.map Prod.snd).Pairwise (· < ·) ∧
    (∀ entry ∈ journal.answered, entry.2 ∈ journal.announced ∧ entry.2 ∈ journal.accepted) ∧
    (∀ entry ∈ journal.answered, ∀ waits ∈ journal.session.engine.store.waiting,
      entry.2 < waits.2) ∧
    ∀ raw mid number, announcedMid journal.session.engine raw = some mid →
      (mid, number) ∈ journal.session.engine.store.waiting → number ∈ journal.accepted →
      ∀ effect ∈ (journal.session.step (.handleRaw raw)).engine.effects.drop
        journal.session.engine.effects.length, ¬ effect.Delivers := by
  have fair := (create_fair created manual reliable arranged caches).run commands
  exact ⟨Journal.run_session _ commands, fair.pubacks, fair.ordered, fair.proper, fair.behind,
    fun _ _ _ => fair.announces⟩

/-- The default configuration with manual acknowledgement. -/
def manualConfig : EngineConfig := { manualAck := true, accepted := rfl }

def manualEngine : Engine := Engine.started manualConfig { kind := .memory } (∅, 0, [])

/-- Two messages come. -/
def twoArrived : List Command :=
  [.beginConnect, .handleRaw ⟨.connack, 0, [0, 0]⟩, .handleRaw ⟨.publish, 2, [0, 1, 97, 0, 1, 104]⟩,
   .handleRaw ⟨.publish, 2, [0, 1, 97, 0, 2, 105]⟩, .takeEffects]

set_option maxRecDepth 4000 in
/-- The second message waits for the first. -/
theorem manual_pubacks_in_order_waits :
    (Protocol.Session.run ⟨manualEngine, []⟩ (twoArrived ++ [.ack 2 none])).sent.filter IsPuback = [] ∧
    ((Journal.run { session := ⟨manualEngine, []⟩ }
      (twoArrived ++ [.ack 1 none])).answered.map fun entry => pubackFrame entry.1) =
      [pubackFrame 1] := by
  have created : Engine.create manualConfig { kind := .memory } = .ok manualEngine := rfl
  obtain ⟨session, pubacks, _⟩ := manual_pubacks_in_order created rfl (fun _ => rfl)
    ⟨by simp [Store.Atomic], by simp, by simp [Dict.empty]⟩
    (by intro mid row found; simp at found) (twoArrived ++ [.ack 1 none])
  have sent :
      (Protocol.Session.run ⟨manualEngine, []⟩ (twoArrived ++ [.ack 1 none])).sent.filter IsPuback =
      [pubackFrame 1] := by decide
  refine ⟨by decide, ?_⟩
  rw [← pubacks, session]
  exact sent

end

end Mqttium
