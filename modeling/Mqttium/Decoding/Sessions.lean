import Mqttium.Decoding.Reading

/-! Runs of the decoder between its receiver and its reader. -/

namespace Mqttium.Codec

open Library Packets

namespace IncrementalDecoder

/-- The receive path: offer a window, let the receiver fill as much of it as is
ready, publish that much. Returns what arrived. -/
def receive (preferred : Int) (ready : Bytes) : DecoderM Bytes := do
  let (offset, limit) ← writableWindow preferred
  let arrived := ready.take (limit - offset)
  let decoder ← get
  let buffer ← fromExcept (assignSlice decoder.buffer offset arrived)
  modify fun decoder => { decoder with buffer }
  commit arrived.length
  return arrived

end IncrementalDecoder

/-- The calls a connection makes. -/
inductive Call where
  | feed (data : Bytes)
  | receive (preferred : Int) (ready : Bytes)
  | nextPacket
  | clear
  deriving DecidableEq, Repr

/-- A decoder, with what its callers handed in and were told since the last `clear`,
and the largest backlog and window request ever. -/
structure Session where
  decoder : IncrementalDecoder
  received : Bytes := []
  answers : List (Except Failure RawPacket) := []
  mostBuffered : Nat := 0
  widestWindow : Nat := 0

namespace Session

/-- The decoder after a call that was handed `data`. -/
def accept (session : Session) (decoder : IncrementalDecoder) (data : Bytes) : Session :=
  { session with
    decoder
    received := session.received ++ data
    mostBuffered := max session.mostBuffered decoder.buffered }

/-- Only an exception of `next_packet` is an answer; the other calls must not raise. -/
def perform (session : Session) : Call → Except Failure Session
  | .feed data =>
    match IncrementalDecoder.feed data session.decoder with
    | .ok _ decoder => .ok (session.accept decoder data)
    | .error failure _ => .error failure
  | .receive preferred ready =>
    match IncrementalDecoder.receive preferred ready session.decoder with
    | .ok arrived decoder =>
      .ok { session.accept decoder arrived with
        widestWindow := max session.widestWindow (session.decoder.requestedWindow preferred) }
    | .error failure _ => .error failure
  | .nextPacket =>
    match IncrementalDecoder.nextPacket session.decoder with
    | .ok none decoder => .ok { session with decoder }
    | .ok (some packet) decoder =>
      .ok { session with decoder, answers := session.answers ++ [.ok packet] }
    | .error failure decoder =>
      .ok { session with decoder, answers := session.answers ++ [.error failure] }
  | .clear =>
    match IncrementalDecoder.clear session.decoder with
    | .ok _ decoder => .ok { session with decoder, received := [], answers := [] }
    | .error failure _ => .error failure

def run (session : Session) (calls : List Call) : Except Failure Session :=
  calls.foldlM perform session

end Session

/-- An answer up to the text of its exception. -/
def told : Except Failure RawPacket → Except (Option FramingError) RawPacket
  | .ok packet => .ok packet
  | .error failure => .error (framingError failure)

/-- What `next_packet` would answer. -/
def nextAnswer (decoder : IncrementalDecoder) : Option (Except (Option FramingError) RawPacket) :=
  match IncrementalDecoder.nextPacket decoder with
  | .ok none _ => none
  | .ok (some packet) _ => some (.ok packet)
  | .error failure _ => some (.error (framingError failure))

open IncrementalDecoder

theorem receive_sat {decoder : IncrementalDecoder} (sound : decoder.Sound) (preferred : Int)
    (ready : Bytes) :
    Sat (receive preferred ready) decoder
      (fun arrived after => Extended decoder arrived after ∧ after.capacity ≤ max decoder.capacity
        (max minCapacity (2 * (decoder.stop - decoder.start + decoder.requestedWindow preferred))))
      (fun _ _ => False) := by
  simp only [receive, sat_bind]
  refine (writableWindow_sat sound preferred).mono ?_ (fun _ _ raised => raised)
  intro window after offered
  obtain ⟨offset, limit⟩ := window
  have behind : offset = after.stop := offered.behind
  have nonempty : offset < limit := offered.nonempty
  have inside : limit ≤ after.capacity := offered.inside
  have promised : after.offered = limit - offset := offered.offered
  subst behind
  have fits : (ready.take (limit - after.stop)).length ≤ limit - after.stop := by
    simp only [List.length_take]
    omega
  have room : after.stop + (ready.take (limit - after.stop)).length ≤ after.buffer.length := by
    rw [offered.moved.sound.sized]
    omega
  simp only [sat_get, assignSlice_ok room, sat_fromExcept_ok, sat_modify]
  have filled : IncrementalDecoder.Sound
      { after with
        buffer := after.buffer.take after.stop ++ ready.take (limit - after.stop) ++
          after.buffer.drop (after.stop + (ready.take (limit - after.stop)).length) } :=
    ⟨offered.moved.sound.ordered, offered.moved.sound.within,
      (length_overwritten room).trans offered.moved.sound.sized, offered.moved.sound.wide⟩
  refine (commit_sat filled ?_ ?_).mono ?_ (fun _ _ raised => raised)
  · exact Nat.le_trans fits (Nat.le_of_eq promised.symm)
  · exact offered.moved.sound.sized ▸ room
  · rintro _ final ⟨sound', pending, sameLimit, capacity⟩
    refine ⟨⟨sound', ?_, sameLimit.trans offered.moved.limit⟩, capacity ▸ offered.bounded⟩
    rw [pending, ← offered.moved.pending]
    exact slice_overwritten offered.moved.sound.ordered
      (offered.moved.sound.sized ▸ offered.moved.sound.within)

/-- What holds between calls. -/
structure Session.Sound (limit : Nat) (session : Session) : Prop where
  decoder : session.decoder.Sound
  limited : session.decoder.maxPacketSize = limit
  answered : ∃ packets errors,
    (framing limit).Told session.received session.decoder.pending packets errors ∧
      session.answers.map told = packets.map .ok ++ errors.map (.error ∘ some)
  peak : session.decoder.buffered ≤ session.mostBuffered
  bounded : session.decoder.capacity ≤
    max minCapacity (2 * (session.mostBuffered + session.widestWindow))

namespace Session

variable {limit : Nat} {session : Session}

/-- A backlog of `data` behind the pending bytes, in storage the policy allows. -/
theorem Sound.accept (sound : session.Sound limit) {decoder : IncrementalDecoder} {data : Bytes}
    {requested : Nat} (extended : Extended session.decoder data decoder)
    (bounded : decoder.capacity ≤
      max minCapacity (2 * (max session.mostBuffered decoder.buffered + requested))) :
    Sound limit { session.accept decoder data with widestWindow := requested } where
  decoder := extended.sound
  limited := extended.limit.trans sound.limited
  answered := by
    obtain ⟨packets, errors, heard, answers⟩ := sound.answered
    refine ⟨packets, errors, ?_, answers⟩
    simp only [Session.accept, extended.pending]
    exact heard.arrive data
  peak := Nat.le_max_right _ _
  bounded := bounded

theorem buffered_extended {before after : IncrementalDecoder} {data : Bytes}
    (sound : before.Sound) (extended : Extended before data after) :
    after.buffered = before.stop - before.start + data.length := by
  rw [buffered, ← extended.sound.length_pending, extended.pending, List.length_append,
    sound.length_pending]

theorem Sound.feed (sound : session.Sound limit) (data : Bytes) :
    ∃ next, session.perform (.feed data) = .ok next ∧ next.Sound limit ∧
      next.received = session.received ++ data ∧ next.answers = session.answers := by
  have sat := feed_sat sound.decoder data
  have bounded := sound.bounded
  unfold Sat at sat
  simp only [perform]
  cases ended : IncrementalDecoder.feed data session.decoder with
  | error failure decoder => simp [ended] at sat
  | ok _ decoder =>
    simp only [ended] at sat
    obtain ⟨extended, capacity⟩ := sat
    have backlog := buffered_extended sound.decoder extended
    exact ⟨_, rfl, sound.accept extended (by omega), rfl, rfl⟩

theorem Sound.receive (sound : session.Sound limit) (preferred : Int) (ready : Bytes) :
    ∃ next, session.perform (.receive preferred ready) = .ok next ∧ next.Sound limit := by
  have sat := receive_sat sound.decoder preferred ready
  have bounded := sound.bounded
  unfold Sat at sat
  simp only [perform]
  cases ended : IncrementalDecoder.receive preferred ready session.decoder with
  | error failure decoder => simp [ended] at sat
  | ok arrived decoder =>
    simp only [ended] at sat
    obtain ⟨extended, capacity⟩ := sat
    have backlog := buffered_extended sound.decoder extended
    exact ⟨_, rfl, sound.accept extended (by omega)⟩

theorem Sound.clear (sound : session.Sound limit) :
    ∃ next, session.perform .clear = .ok next ∧ next.Sound limit := by
  have sat := clear_sat sound.decoder
  have bounded := sound.bounded
  unfold Sat at sat
  simp only [perform]
  cases ended : IncrementalDecoder.clear session.decoder with
  | error failure decoder => simp [ended] at sat
  | ok _ decoder =>
    simp only [ended] at sat
    obtain ⟨kept, pending, sameLimit, capacity⟩ := sat
    refine ⟨_, rfl, kept, sameLimit.trans sound.limited, ⟨[], [], ?_, rfl⟩, ?_, ?_⟩
    · simp only [pending]
      exact .start
    · simp only [buffered, ← kept.length_pending, pending]
      exact Nat.zero_le _
    · exact Nat.le_trans capacity bounded

/-- The reader gets the verdict on the pending bytes. -/
theorem nextAnswer_eq {decoder : IncrementalDecoder} (sound : decoder.Sound) :
    nextAnswer decoder =
      (frame decoder.maxPacketSize decoder.pending).answer.map (Except.mapError some) := by
  have sat := nextPacket_sat sound
  unfold Sat at sat
  unfold nextAnswer
  cases ended : IncrementalDecoder.nextPacket decoder with
  | error failure after =>
    simp only [ended] at sat
    cases sat with
    | refused named verdict => simp [verdict, Verdict.answer, named, Except.mapError]
  | ok answer after =>
    simp only [ended] at sat
    generalize frame decoder.maxPacketSize decoder.pending = verdict at sat
    cases sat with
    | waiting => rfl
    | packet kept pending sameLimit smaller => rfl

/-- An answer was given, of this kind; otherwise the reader has to wait. -/
inductive Asked (limit : Nat) (session next : Session) : Prop where
  | waiting (verdict : frame limit session.decoder.pending = .waiting) (same : next = session)
  | packet {packet rest} (verdict : frame limit session.decoder.pending = .packet packet rest)
      (pending : next.decoder.pending = rest)
      (answers : next.answers = session.answers ++ [.ok packet])
  | refused {failure error} (verdict : frame limit session.decoder.pending = .refused error)
      (named : framingError failure = some error)
      (pending : next.decoder.pending = session.decoder.pending)
      (answers : next.answers = session.answers ++ [.error failure])

theorem Sound.asked (sound : session.Sound limit) :
    ∃ next, session.perform .nextPacket = .ok next ∧ next.decoder.Sound ∧
      next.decoder.maxPacketSize = limit ∧ next.received = session.received ∧
      next.decoder.capacity ≤ session.decoder.capacity ∧
      next.mostBuffered = session.mostBuffered ∧ next.widestWindow = session.widestWindow ∧
      Asked limit session next := by
  have sat := nextPacket_sat sound.decoder
  have limited := sound.limited
  unfold Sat at sat
  simp only [perform]
  cases ended : IncrementalDecoder.nextPacket session.decoder with
  | error failure decoder =>
    simp only [ended] at sat
    cases sat with
    | refused named verdict =>
      rw [limited] at verdict
      exact ⟨_, rfl, sound.decoder, limited, rfl, Nat.le_refl _, rfl, rfl,
        .refused verdict named rfl rfl⟩
  | ok answer decoder =>
    simp only [ended, limited] at sat
    generalize given : frame limit session.decoder.pending = verdict at sat
    cases sat with
    | waiting =>
      exact ⟨_, rfl, sound.decoder, limited, rfl, Nat.le_refl _, rfl, rfl, .waiting given rfl⟩
    | packet kept pending sameLimit smaller =>
      exact ⟨_, rfl, kept, sameLimit.trans limited, rfl, smaller, rfl, rfl,
        .packet given pending rfl⟩

theorem Asked.shrinks {next : Session} (asked : Asked limit session next) :
    next.decoder.pending.length ≤ session.decoder.pending.length := by
  cases asked with
  | waiting verdict same => exact Nat.le_of_eq (by rw [same])
  | packet verdict pending answers =>
    obtain ⟨encoded, _, split⟩ := frame_encodes verdict
    rw [pending, split, List.length_append]
    exact Nat.le_add_left _ _
  | refused verdict named pending answers => exact Nat.le_of_eq (by rw [pending])

theorem Asked.answered {next : Session} (asked : Asked limit session next)
    (same : next.received = session.received)
    (answered : ∃ packets errors,
      (framing limit).Told session.received session.decoder.pending packets errors ∧
        session.answers.map told = packets.map .ok ++ errors.map (.error ∘ some)) :
    ∃ packets errors,
      (framing limit).Told next.received next.decoder.pending packets errors ∧
        next.answers.map told = packets.map .ok ++ errors.map (.error ∘ some) := by
  obtain ⟨packets, errors, heard, answers⟩ := answered
  rw [same]
  cases asked with
  | waiting verdict same =>
    subst same
    exact ⟨packets, errors, heard, answers⟩
  | @packet packet rest verdict pending more =>
    refine ⟨packets ++ [packet], [], pending ▸ heard.take verdict, ?_⟩
    have unstopped := heard.no_errors verdict
    simp [more, answers, unstopped, told]
  | @refused failure error verdict named pending more =>
    refine ⟨packets, errors ++ [error], pending ▸ heard.refuse verdict, ?_⟩
    simp [more, answers, told, named]

theorem Sound.next (sound : session.Sound limit) :
    ∃ next, session.perform .nextPacket = .ok next ∧ next.Sound limit ∧
      next.received = session.received ∧ Asked limit session next := by
  obtain ⟨next, performed, kept, limited, received, smaller, most, widest, asked⟩ := sound.asked
  refine ⟨next, performed, ⟨kept, limited, asked.answered received sound.answered, ?_, ?_⟩,
    received, asked⟩
  · have shrinks := asked.shrinks
    rw [kept.length_pending, sound.decoder.length_pending] at shrinks
    rw [most]
    exact Nat.le_trans shrinks sound.peak
  · rw [most, widest]
    exact Nat.le_trans smaller sound.bounded

/-- No call but `next_packet` raises, and every one keeps the invariant. -/
theorem Sound.perform (sound : session.Sound limit) (call : Call) :
    ∃ next, session.perform call = .ok next ∧ next.Sound limit := by
  cases call with
  | feed data =>
    obtain ⟨next, performed, kept, _⟩ := sound.feed data
    exact ⟨next, performed, kept⟩
  | receive preferred ready => exact sound.receive preferred ready
  | nextPacket =>
    obtain ⟨next, performed, kept, _⟩ := sound.next
    exact ⟨next, performed, kept⟩
  | clear => exact sound.clear

theorem Sound.run (sound : session.Sound limit) (calls : List Call) :
    ∃ final, session.run calls = .ok final ∧ final.Sound limit := by
  induction calls generalizing session with
  | nil => exact ⟨session, rfl, sound⟩
  | cons call rest ih =>
    obtain ⟨next, performed, kept⟩ := sound.perform call
    obtain ⟨final, ran, held⟩ := ih kept
    refine ⟨final, ?_, held⟩
    simp only [Session.run, List.foldlM_cons, performed]
    exact ran

theorem fresh_sound {fresh : IncrementalDecoder} (created : create limit = .ok fresh) :
    Sound limit { decoder := fresh } := by
  unfold create at created
  split at created
  · cases created
  · cases created
    refine ⟨⟨Nat.le_refl 0, Nat.le_refl 0, rfl, Nat.zero_lt_succ _⟩, rfl, ⟨[], [], .start, rfl⟩, ?_, ?_⟩
    · exact Nat.le_refl 0
    · exact Nat.zero_le _

theorem run_cons (call : Call) (rest : List Call) :
    session.run (call :: rest) = session.perform call >>= fun next => next.run rest :=
  List.foldlM_cons

/-- Asking as often as another reader of the same bytes was answered. -/
theorem Sound.ask {remaining : Bytes} {others : List RawPacket} {failures : List FramingError}
    (sound : session.Sound limit) (count : Nat)
    (other : (framing limit).Told session.received remaining others failures)
    (enough : session.answers.length + count ≤ others.length + failures.length) :
    ∃ final, session.run (List.replicate count .nextPacket) = .ok final ∧ final.Sound limit ∧
      final.received = session.received ∧
      final.answers.length = session.answers.length + count := by
  induction count generalizing session with
  | zero => exact ⟨session, rfl, sound, rfl, rfl⟩
  | succ count ih =>
    obtain ⟨next, performed, kept, received, asked⟩ := sound.next
    obtain ⟨packets, errors, heard, answers⟩ := sound.answered
    have heardLength := congrArg List.length answers
    simp only [List.length_map, List.length_append] at heardLength
    have due := heard.not_waiting other (by omega)
    have another : next.answers.length = session.answers.length + 1 := by
      cases asked with
      | waiting verdict same => exact absurd verdict due
      | packet verdict pending answers => simp [answers]
      | refused verdict named pending answers => simp [answers]
    obtain ⟨final, ran, held, same, length⟩ := ih kept (received ▸ other) (by omega)
    refine ⟨final, ?_, held, same.trans received, by omega⟩
    rw [List.replicate_succ, run_cons, performed]
    exact ran

end Session

theorem error_among {failure : Failure} {packets : List RawPacket} {errors : List FramingError}
    (member : told (.error failure) ∈ packets.map .ok ++ errors.map (.error ∘ some)) :
    ∃ error ∈ errors, some error = framingError failure := by
  rcases List.mem_append.mp member with first | second
  · obtain ⟨packet, _, same⟩ := List.mem_map.mp first
    cases same
  · obtain ⟨error, named, same⟩ := List.mem_map.mp second
    exact ⟨error, named, Except.error.inj same⟩

/-- Behind an error no packet is told. -/
theorem behind_error {failure : Failure} {packets : List RawPacket} {errors : List FramingError}
    {earlier later : List (Except (Option FramingError) RawPacket)}
    (split : earlier ++ told (.error failure) :: later =
      packets.map .ok ++ errors.map (.error ∘ some)) :
    ∀ answer ∈ later, answer ∈ errors.map (.error ∘ some) := by
  intro answer member
  rcases List.append_eq_append_iff.mp split with ⟨more, packets_eq, rest⟩ | ⟨more, _, rest⟩
  · cases more with
    | nil =>
      rw [List.nil_append] at rest
      rw [← rest]
      exact List.mem_cons_of_mem _ member
    | cons head tail =>
      have heads := (List.cons.inj rest).1
      have inside : head ∈ packets.map Except.ok := by simp [packets_eq]
      obtain ⟨packet, _, same⟩ := List.mem_map.mp inside
      rw [← same] at heads
      cases heads
  · rw [rest]
    exact List.mem_append_right _ (List.mem_cons_of_mem _ member)

open Session

/-- However a stream is cut into chunks, and whenever the reader asks, it is told what
it would be told of the whole stream; once it was told an error, it is told that error at
every later call until `clear`. -/
theorem chunking_independent {limit : Nat} {fresh : IncrementalDecoder}
    (created : create limit = .ok fresh) (calls : List Call) :
    ∃ session whole, Session.run { decoder := fresh } calls = .ok session ∧
      Session.run { decoder := fresh }
        (.feed session.received :: List.replicate session.answers.length .nextPacket) = .ok whole ∧
      whole.answers.map told = session.answers.map told ∧
      nextAnswer whole.decoder = nextAnswer session.decoder ∧
      (∀ failure, .error failure ∈ session.answers → framingError failure ≠ none ∧
        nextAnswer session.decoder = some (.error (framingError failure))) ∧
      ∀ earlier failure later, session.answers = earlier ++ .error failure :: later →
        ∀ answer ∈ later, told answer = .error (framingError failure) := by
  obtain ⟨session, ran, sound⟩ := (fresh_sound created).run calls
  obtain ⟨packets, errors, heard, answers⟩ := sound.answered
  have length := congrArg List.length answers
  simp only [List.length_map, List.length_append] at length
  obtain ⟨fed, performed, kept, received, unanswered⟩ := (fresh_sound created).feed session.received
  simp only [List.nil_append] at received unanswered
  obtain ⟨whole, asked, held, same, answered⟩ :=
    kept.ask session.answers.length (received ▸ heard) (by simp [unanswered, length])
  obtain ⟨packets', errors', heard', answers'⟩ := held.answered
  have length' := congrArg List.length answers'
  simp only [List.length_map, List.length_append] at length'
  rw [same, received] at heard'
  simp only [unanswered, List.length_nil, Nat.zero_add] at answered
  obtain ⟨rfl, rfl, pending⟩ := heard'.agree heard (by omega)
  refine ⟨session, whole, ran, ?_, answers'.trans answers.symm, ?_, ?_, ?_⟩
  · rw [run_cons, performed]
    exact asked
  · rw [nextAnswer_eq held.decoder, nextAnswer_eq sound.decoder, held.limited, sound.limited,
      pending]
  · intro failure member
    have among : told (.error failure) ∈ session.answers.map told := List.mem_map_of_mem member
    rw [answers] at among
    obtain ⟨error, errorMember, named⟩ := error_among among
    refine ⟨by simp [← named], ?_⟩
    have refused : frame limit session.decoder.pending = .refused error :=
      heard.stopped error errorMember
    rw [nextAnswer_eq sound.decoder, sound.limited, refused, ← named]
    rfl
  · intro earlier failure later split answer member
    rw [split, List.map_append, List.map_cons] at answers
    have among := behind_error answers (told answer) (List.mem_map_of_mem member)
    have first : told (.error failure) ∈ packets'.map .ok ++ errors'.map (.error ∘ some) := by
      simp [← answers]
    obtain ⟨error, errorMember, named⟩ := error_among first
    obtain ⟨other, otherMember, stated⟩ := List.mem_map.mp among
    have same : framingError failure = some other := by
      have verdicts := (heard.stopped error errorMember).symm.trans (heard.stopped other otherMember)
      rw [← named, Verdict.refused.inj verdicts]
    rw [same, ← stated]
    rfl

/-- A chunk boundary in the length field, then a frame of an unknown type. -/
theorem chunking_independent_split :
    ∃ session whole, Session.run { decoder := { maxPacketSize := 64 } }
        [.feed [0xD0], .nextPacket, .receive 0 [0x00, 0x00, 0x00], .nextPacket, .nextPacket] =
          .ok session ∧
      Session.run { decoder := { maxPacketSize := 64 } }
        (.feed session.received :: List.replicate session.answers.length .nextPacket) = .ok whole ∧
      whole.answers.map told = session.answers.map told ∧
      nextAnswer whole.decoder = nextAnswer session.decoder ∧
      (∀ failure, .error failure ∈ session.answers → framingError failure ≠ none ∧
        nextAnswer session.decoder = some (.error (framingError failure))) ∧
      ∀ earlier failure later, session.answers = earlier ++ .error failure :: later →
        ∀ answer ∈ later, told answer = .error (framingError failure) :=
  @chunking_independent 64 _ rfl _

/-- The packets handed out since the last `clear`. -/
def Session.packets (session : Session) : List RawPacket :=
  session.answers.filterMap Except.toOption

theorem packets_eq {session : Session} {packets : List RawPacket} {errors : List FramingError}
    (answers : session.answers.map told = packets.map .ok ++ errors.map (.error ∘ some)) :
    session.packets = packets := by
  have same : Except.toOption ∘ told = Except.toOption := by
    funext answer
    cases answer <;> rfl
  have given : (fun packet : RawPacket =>
      (Except.ok packet : Except (Option FramingError) RawPacket).toOption) = some := rfl
  have refused : (fun error : FramingError =>
      (Except.error (some error) : Except (Option FramingError) RawPacket).toOption) =
      fun _ => none := rfl
  calc session.packets
    _ = (session.answers.map told).filterMap Except.toOption := by
      rw [List.filterMap_map, same, Session.packets]
    _ = packets := by
      rw [answers, List.filterMap_append, List.filterMap_map, List.filterMap_map]
      simp only [Function.comp_def, given, refused]
      simp

/-- Packets are read off the encodings the stream consists of. -/
theorem reads_encoded {limit : Nat} {received unread : Bytes} {packets : List RawPacket}
    (reads : (framing limit).Reads received packets unread) :
    ∃ frames, List.Forall₂ (fun packet encoded =>
        encodeFrame packet.packetType packet.flags packet.remaining = .ok encoded) packets frames ∧
      received = frames.flatten ++ unread := by
  induction reads with
  | nothing bytes => exact ⟨[], .nil, rfl⟩
  | packet framed later ih =>
    obtain ⟨frames, encodings, split⟩ := ih
    obtain ⟨encoded, encodes, whole⟩ := frame_encodes framed
    refine ⟨encoded :: frames, .cons encodes encodings, ?_⟩
    rw [whole, split, List.flatten_cons, List.append_assoc]

/-- The offsets stay in the storage, the live bytes are what was received behind the
packets handed out, a window never overlaps them, and the storage is at most twice
the largest backlog and window. -/
theorem slab_invariant {limit : Nat} {fresh : IncrementalDecoder}
    (created : create limit = .ok fresh) (calls : List Call) :
    ∃ session, Session.run { decoder := fresh } calls = .ok session ∧
      session.decoder.start ≤ session.decoder.stop ∧
      session.decoder.stop ≤ session.decoder.capacity ∧
      session.decoder.capacity = session.decoder.buffer.length ∧
      (∃ frames, List.Forall₂ (fun packet encoded =>
          encodeFrame packet.packetType packet.flags packet.remaining = .ok encoded)
          session.packets frames ∧
        session.received = frames.flatten ++
          slice session.decoder.buffer session.decoder.start session.decoder.stop) ∧
      session.decoder.capacity ≤
        max (16 * 1024) (2 * (session.mostBuffered + session.widestWindow)) ∧
      ∀ preferred, ∃ window after, writableWindow preferred session.decoder = .ok window after ∧
        window.1 < window.2 ∧ after.stop = window.1 ∧ window.2 ≤ after.buffer.length ∧
        slice after.buffer after.start after.stop =
          slice session.decoder.buffer session.decoder.start session.decoder.stop ∧
        after.capacity ≤ max (16 * 1024) (2 * (session.mostBuffered +
          max session.widestWindow (session.decoder.requestedWindow preferred))) := by
  obtain ⟨session, ran, sound⟩ := (fresh_sound created).run calls
  obtain ⟨packets, errors, heard, answers⟩ := sound.answered
  have peak : session.decoder.stop - session.decoder.start ≤ session.mostBuffered := sound.peak
  have bounded := sound.bounded
  refine ⟨session, ran, sound.decoder.ordered, sound.decoder.within, sound.decoder.sized.symm, ?_,
    sound.bounded, fun preferred => ?_⟩
  · rw [packets_eq answers]
    exact reads_encoded heard.reads
  · have sat := writableWindow_sat sound.decoder preferred
    unfold Sat at sat
    cases ended : writableWindow preferred session.decoder with
    | error failure after => simp [ended] at sat
    | ok window after =>
      simp only [ended] at sat
      refine ⟨window, after, rfl, sat.nonempty, sat.behind.symm, ?_, sat.moved.pending, ?_⟩
      · rw [sat.moved.sound.sized]
        exact sat.inside
      · have capacity := sat.bounded
        unfold minCapacity at capacity bounded
        omega

theorem slab_invariant_split :
    ∃ session, Session.run { decoder := { maxPacketSize := 64 } }
        [.feed [0xD0], .nextPacket, .receive 0 [0x00, 0x30, 0x01], .nextPacket] = .ok session ∧
      session.decoder.start ≤ session.decoder.stop ∧
      session.decoder.stop ≤ session.decoder.capacity ∧
      session.decoder.capacity = session.decoder.buffer.length ∧
      (∃ frames, List.Forall₂ (fun packet encoded =>
          encodeFrame packet.packetType packet.flags packet.remaining = .ok encoded)
          session.packets frames ∧
        session.received = frames.flatten ++
          slice session.decoder.buffer session.decoder.start session.decoder.stop) ∧
      session.decoder.capacity ≤
        max (16 * 1024) (2 * (session.mostBuffered + session.widestWindow)) ∧
      ∀ preferred, ∃ window after, writableWindow preferred session.decoder = .ok window after ∧
        window.1 < window.2 ∧ after.stop = window.1 ∧ window.2 ≤ after.buffer.length ∧
        slice after.buffer after.start after.stop =
          slice session.decoder.buffer session.decoder.start session.decoder.stop ∧
        after.capacity ≤ max (16 * 1024) (2 * (session.mostBuffered +
          max session.widestWindow (session.decoder.requestedWindow preferred))) :=
  @slab_invariant 64 _ rfl _

end Mqttium.Codec
