import Mqttium.Decoding.Frames

/-! The slab behind the decoder: every operation is determined by the bytes between
the two offsets, wherever in the storage they lie. -/

namespace Mqttium.Codec

open Library Packets

theorem length_slice {buffer : Bytes} {start stop : Nat} (within : stop ≤ buffer.length) :
    (slice buffer start stop).length = stop - start := by
  simp [slice, Nat.min_eq_left within]

theorem slice_cons {buffer : Bytes} {start stop : Nat} (more : start < stop)
    (within : stop ≤ buffer.length) :
    slice buffer start stop = buffer.getD start 0 :: slice buffer (start + 1) stop := by
  have inside : start < (buffer.take stop).length := by
    simp only [List.length_take]
    omega
  rw [slice, List.drop_eq_getElem_cons inside, List.getElem_take, slice,
    List.getD_eq_getElem?_getD, List.getElem?_eq_getElem (by omega), Option.getD_some]

theorem slice_drop (buffer : Bytes) (start stop count : Nat) :
    (slice buffer start stop).drop count = slice buffer (start + count) stop := by
  simp [slice, List.drop_drop]

theorem slice_take {buffer : Bytes} {start stop count : Nat} (within : start + count ≤ stop) :
    (slice buffer start stop).take count = slice buffer start (start + count) := by
  simp only [slice, List.take_drop, List.take_take]
  rw [Nat.min_eq_left within]

theorem slice_self (buffer : Bytes) (start : Nat) : slice buffer start start = [] := by
  simp [slice]

/-- Overwriting behind `stop` extends the slice that ends there. -/
theorem slice_overwritten {buffer data : Bytes} {start stop : Nat} (ordered : start ≤ stop)
    (within : stop ≤ buffer.length) :
    slice (buffer.take stop ++ data ++ buffer.drop (stop + data.length)) start
      (stop + data.length) = slice buffer start stop ++ data := by
  have taken : (buffer.take stop).length = stop := by
    simp only [List.length_take]
    omega
  have kept : (buffer.take stop ++ data).length = stop + data.length := by
    simp [taken]
  rw [slice, ← kept, List.take_left, List.drop_append_of_le_length (by omega), slice]

theorem slice_moved (buffer data : Bytes) :
    slice (buffer.take 0 ++ data ++ buffer.drop (0 + data.length)) 0 data.length = data := by
  simp [slice]

theorem length_overwritten {buffer data : Bytes} {offset : Nat}
    (within : offset + data.length ≤ buffer.length) :
    (buffer.take offset ++ data ++ buffer.drop (offset + data.length)).length = buffer.length := by
  simp only [List.length_append, List.length_take, List.length_drop]
  omega

theorem assignSlice_ok {buffer data : Bytes} {offset : Nat}
    (within : offset + data.length ≤ buffer.length) :
    assignSlice buffer offset data =
      .ok (buffer.take offset ++ data ++ buffer.drop (offset + data.length)) :=
  if_pos within

namespace IncrementalDecoder

/-- The bytes received and not yet consumed. -/
def pending (decoder : IncrementalDecoder) : Bytes :=
  slice decoder.buffer decoder.start decoder.stop

/-- The offsets lie in the storage, and the adaptive window is never empty. -/
structure Sound (decoder : IncrementalDecoder) : Prop where
  ordered : decoder.start ≤ decoder.stop
  within : decoder.stop ≤ decoder.capacity
  sized : decoder.buffer.length = decoder.capacity
  wide : 0 < decoder.targetWindow

theorem Sound.length_pending {decoder : IncrementalDecoder} (sound : decoder.Sound) :
    decoder.pending.length = decoder.stop - decoder.start :=
  length_slice (sound.sized ▸ sound.within)

/-- Only where the bytes lie has changed. -/
structure Moved (before after : IncrementalDecoder) : Prop where
  sound : after.Sound
  pending : after.pending = before.pending
  limit : after.maxPacketSize = before.maxPacketSize
  target : after.targetWindow = before.targetWindow

theorem Moved.refl {decoder : IncrementalDecoder} (sound : decoder.Sound) :
    Moved decoder decoder :=
  ⟨sound, rfl, rfl, rfl⟩

theorem Moved.length {before after : IncrementalDecoder} (moved : Moved before after)
    (sound : before.Sound) : after.stop - after.start = before.stop - before.start := by
  rw [← moved.sound.length_pending, moved.pending, sound.length_pending]

/-- The live bytes at the front of a slab. -/
theorem Moved.placed {decoder : IncrementalDecoder} {buffer : Bytes} {capacity : Nat}
    (sound : decoder.Sound) (sized : buffer.length = capacity)
    (room : decoder.stop - decoder.start ≤ capacity)
    (copied : slice buffer 0 (decoder.stop - decoder.start) = decoder.pending) :
    Moved decoder
      { decoder with buffer, capacity, start := 0, stop := decoder.stop - decoder.start } where
  sound := ⟨Nat.zero_le _, room, sized, sound.wide⟩
  pending := copied
  limit := rfl
  target := rfl

/-- Copying the live bytes to the front of storage with room for them. -/
theorem Sound.copied {decoder : IncrementalDecoder} (sound : decoder.Sound) (target : Bytes)
    (room : decoder.stop - decoder.start ≤ target.length) :
    ∃ buffer, assignSlice target 0 (slice decoder.buffer decoder.start decoder.stop) = .ok buffer ∧
      buffer.length = target.length ∧
      slice buffer 0 (decoder.stop - decoder.start) = decoder.pending := by
  have copied := sound.length_pending
  have fits : 0 + decoder.pending.length ≤ target.length := by omega
  refine ⟨_, assignSlice_ok fits, length_overwritten fits, ?_⟩
  rw [← copied]
  exact slice_moved target decoder.pending

theorem reallocate_sat {decoder : IncrementalDecoder} {capacity : Nat} (sound : decoder.Sound)
    (room : decoder.stop - decoder.start ≤ capacity) :
    Sat (reallocate capacity) decoder
      (fun _ after => Moved decoder after ∧ after.capacity = capacity ∧
        after.stop = decoder.stop - decoder.start)
      (fun _ _ => False) := by
  simp only [reallocate, sat_bind, sat_get]
  split
  · rename_i empty
    have nothing : decoder.pending = [] :=
      List.length_eq_zero_iff.mp (by rw [sound.length_pending, empty])
    refine ⟨Moved.placed sound List.length_replicate room ?_, rfl, rfl⟩
    rw [nothing, empty, slice_self]
  · obtain ⟨buffer, assigned, sized, copied⟩ :=
      sound.copied (List.replicate capacity 0) (by simpa using room)
    simp only [sat_bind, assigned, sat_fromExcept_ok, sat_modify, and_self, and_true]
    exact Moved.placed sound (by simpa using sized) room copied

/-- The policy never grows past twice what is needed. -/
theorem grownCapacity_le {decoder : IncrementalDecoder} {need : Nat} (exactTotal : Option Nat)
    (short : decoder.capacity < decoder.stop - decoder.start + need) :
    decoder.grownCapacity need exactTotal ≤
      max minCapacity (2 * (decoder.stop - decoder.start + need)) := by
  unfold grownCapacity
  cases exactTotal with
  | none =>
    simp only
    split <;> omega
  | some total =>
    simp only
    split <;> omega

theorem le_grownCapacity (decoder : IncrementalDecoder) (need : Nat) (exactTotal : Option Nat) :
    decoder.stop - decoder.start + need ≤ decoder.grownCapacity need exactTotal := by
  unfold grownCapacity
  cases exactTotal with
  | none =>
    simp only
    split <;> omega
  | some total =>
    simp only
    split <;> omega

theorem ensure_sat {decoder : IncrementalDecoder} (need : Nat) (exactTotal : Option Nat)
    (sound : decoder.Sound) :
    Sat (ensure need exactTotal) decoder
      (fun _ after => Moved decoder after ∧ after.stop + need ≤ after.capacity ∧
        after.capacity ≤ max decoder.capacity
          (max minCapacity (2 * (decoder.stop - decoder.start + need))))
      (fun _ _ => False) := by
  have within := sound.within
  have ordered := sound.ordered
  simp only [ensure, sat_bind, sat_get]
  split
  · rename_i roomy
    simp only [sat_pure]
    exact ⟨Moved.refl sound, by omega, Nat.le_max_left _ _⟩
  · split
    · rename_i _ compact
      obtain ⟨buffer, assigned, sized, copied⟩ :=
        sound.copied decoder.buffer (by rw [sound.sized]; omega)
      simp only [sat_bind, assigned, sat_fromExcept_ok, sat_modify]
      refine ⟨Moved.placed sound (sized.trans sound.sized) (by omega) copied, ?_, ?_⟩
      · omega
      · exact Nat.le_max_left _ _
    · rename_i _ short
      have enough := le_grownCapacity decoder need exactTotal
      refine (reallocate_sat sound (by omega)).mono ?_ (fun _ _ raised => raised)
      rintro _ after ⟨moved, capacity, stop⟩
      have bounded := grownCapacity_le exactTotal (by omega : decoder.capacity <
        decoder.stop - decoder.start + need)
      refine ⟨moved, by omega, ?_⟩
      rw [capacity]
      exact Nat.le_trans bounded (Nat.le_max_right _ _)

theorem requestedWindow_pos {decoder : IncrementalDecoder} (sound : decoder.Sound)
    (preferred : Int) : 0 < decoder.requestedWindow preferred := by
  have wide := sound.wide
  unfold requestedWindow
  split <;> omega

/-- A known frame only ever shortens the window. -/
theorem wantedWindow_bounds {decoder : IncrementalDecoder} (sound : decoder.Sound)
    (preferred : Int) :
    0 < (decoder.wantedWindow preferred).1 ∧
      (decoder.wantedWindow preferred).1 ≤ decoder.requestedWindow preferred := by
  have positive := requestedWindow_pos sound preferred
  unfold wantedWindow
  simp only
  split
  · split
    · exact ⟨positive, Nat.le_refl _⟩
    · simp only
      split
      · rename_i shortened
        exact ⟨shortened.1, Nat.le_of_lt shortened.2⟩
      · exact ⟨positive, Nat.le_refl _⟩
  · exact ⟨positive, Nat.le_refl _⟩

/-- A window handed out: behind the live bytes, in the storage and not empty. -/
structure Window (before : IncrementalDecoder) (requested : Nat) (window : Nat × Nat)
    (after : IncrementalDecoder) : Prop where
  moved : Moved before after
  behind : window.1 = after.stop
  nonempty : window.1 < window.2
  inside : window.2 ≤ after.capacity
  offered : after.offered = window.2 - window.1
  bounded : after.capacity ≤ max before.capacity
    (max minCapacity (2 * (before.stop - before.start + requested)))

theorem writableWindow_sat {decoder : IncrementalDecoder} (sound : decoder.Sound)
    (preferred : Int) :
    Sat (writableWindow preferred) decoder
      (Window decoder (decoder.requestedWindow preferred)) (fun _ _ => False) := by
  obtain ⟨positive, atMost⟩ := wantedWindow_bounds sound preferred
  simp only [writableWindow, sat_bind, sat_get]
  refine (ensure_sat _ _ sound).mono ?_ (fun _ _ raised => raised)
  rintro _ after ⟨moved, room, bounded⟩
  simp only [sat_modify, sat_pure]
  refine ⟨⟨⟨?_, ?_, ?_, ?_⟩, ?_, ?_, ?_⟩, rfl, ?_, ?_, rfl, ?_⟩
  · exact moved.sound.ordered
  · exact moved.sound.within
  · exact moved.sound.sized
  · exact moved.sound.wide
  · exact moved.pending
  · exact moved.limit
  · exact moved.target
  · simp only
    omega
  · exact Nat.min_le_right _ _
  · refine Nat.le_trans bounded ?_
    omega

/-- What has arrived behind the live bytes is theirs. -/
structure Extended (before : IncrementalDecoder) (data : Bytes) (after : IncrementalDecoder) :
    Prop where
  sound : after.Sound
  pending : after.pending = before.pending ++ data
  limit : after.maxPacketSize = before.maxPacketSize

theorem commit_sat {decoder : IncrementalDecoder} {count : Nat} (sound : decoder.Sound)
    (offered : count ≤ decoder.offered) (inside : decoder.stop + count ≤ decoder.capacity) :
    Sat (commit count) decoder
      (fun _ after => after.Sound ∧
        after.pending = slice decoder.buffer decoder.start (decoder.stop + count) ∧
        after.maxPacketSize = decoder.maxPacketSize ∧ after.capacity = decoder.capacity)
      (fun _ _ => False) := by
  have ordered := sound.ordered
  have wide := sound.wide
  simp only [commit, sat_onlyIf, sat_bind, sat_get, sat_raiseIf, sat_modify]
  refine ⟨fun _ => ⟨fun exceeds => ?_, fun _ => ⟨⟨?_, ?_, ?_, ?_⟩, ?_, rfl, rfl⟩⟩, fun nothing => ?_⟩
  · omega
  · simp only [advance, Int.toNat_natCast]
    omega
  · simpa only [advance, Int.toNat_natCast] using inside
  · exact sound.sized
  · simp only [advance]
    split <;> omega
  · rfl
  · have none : count = 0 := by omega
    subst none
    simpa [pending] using sound

/-- Data written behind the live bytes. -/
theorem Extended.written {before decoder : IncrementalDecoder} {data : Bytes}
    (moved : Moved before decoder) (room : decoder.stop + data.length ≤ decoder.capacity) :
    Extended before data
      ({ decoder with
        buffer := decoder.buffer.take decoder.stop ++ data ++
          decoder.buffer.drop (decoder.stop + data.length) }.advance data.length) where
  sound := by
    have ordered := moved.sound.ordered
    refine ⟨?_, room, ?_, moved.sound.wide⟩
    · simp only [advance]
      omega
    · rw [← moved.sound.sized]
      exact length_overwritten (moved.sound.sized ▸ room)
  pending := by
    rw [← moved.pending]
    exact slice_overwritten moved.sound.ordered (moved.sound.sized ▸ moved.sound.within)
  limit := moved.limit

theorem feed_sat {decoder : IncrementalDecoder} (sound : decoder.Sound) (data : Bytes) :
    Sat (feed data) decoder
      (fun _ after => Extended decoder data after ∧ after.capacity ≤ max decoder.capacity
        (max minCapacity (2 * (decoder.stop - decoder.start + data.length))))
      (fun _ _ => False) := by
  simp only [feed, sat_onlyIf, sat_bind, sat_get]
  refine ⟨fun _ => ?_, fun empty => ?_⟩
  · have write : ∀ after : IncrementalDecoder, Moved decoder after →
        after.stop + data.length ≤ after.capacity →
        assignSlice after.buffer after.stop data = .ok (after.buffer.take after.stop ++ data ++
          after.buffer.drop (after.stop + data.length)) :=
      fun after moved room => assignSlice_ok (moved.sound.sized ▸ room)
    refine ⟨fun short => ?_, fun roomy => ?_⟩
    · refine (ensure_sat _ _ sound).mono ?_ (fun _ _ raised => raised)
      rintro _ after ⟨moved, room, bounded⟩
      simp only [write after moved room, sat_fromExcept_ok, sat_modify]
      exact ⟨Extended.written moved room, bounded⟩
    · have within := sound.within
      have room : decoder.stop + data.length ≤ decoder.capacity := by omega
      have moved := Moved.refl sound
      simp only [write decoder moved room, sat_fromExcept_ok, sat_modify]
      exact ⟨Extended.written moved room, Nat.le_max_left _ _⟩
  · simp only [ne_eq, Decidable.not_not] at empty
    subst empty
    exact ⟨⟨sound, by simp, rfl⟩, Nat.le_max_left _ _⟩

theorem clear_sat {decoder : IncrementalDecoder} (sound : decoder.Sound) :
    Sat clear decoder
      (fun _ after => after.Sound ∧ after.pending = [] ∧
        after.maxPacketSize = decoder.maxPacketSize ∧ after.capacity ≤ decoder.capacity)
      (fun _ _ => False) := by
  simp only [clear, sat_bind, sat_get, sat_modify, sat_onlyIf]
  have rewound : Sound
      { decoder with
        start := 0, stop := 0, idleDrains := 0, windowPeak := 0, drainHadLargeFrame := false
        offered := 0, targetWindow := initialWindow, fullFills := 0 } :=
    ⟨Nat.le_refl 0, Nat.zero_le _, sound.sized, Nat.zero_lt_succ _⟩
  refine ⟨fun oversized => ?_, fun _ => ⟨rewound, slice_self _ 0, trivial, Nat.le_refl _⟩⟩
  refine (reallocate_sat rewound (Nat.zero_le _)).mono ?_ (fun _ _ raised => raised)
  rintro _ after ⟨moved, capacity, _⟩
  refine ⟨moved.sound, moved.pending.trans (slice_self _ 0), moved.limit, ?_⟩
  rw [capacity]
  exact Nat.le_of_lt oversized

theorem retireOversize_sat {decoder : IncrementalDecoder} (sound : decoder.Sound)
    (drained : decoder.stop - decoder.start = 0) :
    Sat retireOversize decoder
      (fun _ after => Moved decoder after ∧ after.capacity ≤ decoder.capacity)
      (fun _ _ => False) := by
  simp only [retireOversize, sat_bind, sat_get]
  split
  · exact ⟨⟨⟨sound.ordered, sound.within, sound.sized, sound.wide⟩, rfl, rfl, rfl⟩, Nat.le_refl _⟩
  · simp only [sat_bind, sat_modify, sat_onlyIf]
    have kept : ∀ idleDrains windowPeak, Sound { decoder with idleDrains, windowPeak } :=
      fun _ _ => ⟨sound.ordered, sound.within, sound.sized, sound.wide⟩
    refine ⟨fun _ => ⟨fun smaller => ?_, fun _ => ?_⟩, fun _ => ?_⟩
    · refine (reallocate_sat (kept 0 0) (Nat.le_trans (Nat.le_of_eq drained) (Nat.zero_le _))).mono
        ?_ (fun _ _ raised => raised)
      rintro _ after ⟨moved, capacity, _⟩
      refine ⟨⟨moved.sound, moved.pending, moved.limit, moved.target⟩, ?_⟩
      rw [capacity]
      exact Nat.le_of_lt smaller
    · exact ⟨⟨kept _ _, rfl, rfl, rfl⟩, Nat.le_refl _⟩
    · exact ⟨⟨kept _ _, rfl, rfl, rfl⟩, Nat.le_refl _⟩

/-- The frame in front of `bodyEnd` is dropped, the bytes behind it stay. -/
theorem consume_sat {decoder : IncrementalDecoder} {total : Nat} (sound : decoder.Sound)
    (arrived : total ≤ decoder.stop - decoder.start) :
    Sat (consume total (decoder.start + total)) decoder
      (fun _ after => after.Sound ∧ after.pending = decoder.pending.drop total ∧
        after.maxPacketSize = decoder.maxPacketSize ∧ after.capacity ≤ decoder.capacity)
      (fun _ _ => False) := by
  have within := sound.within
  have ordered := sound.ordered
  have rest : decoder.pending.drop total =
      slice decoder.buffer (decoder.start + total) decoder.stop := slice_drop _ _ _ _
  simp only [consume, sat_bind, sat_get, sat_modify, sat_onlyIf]
  refine ⟨fun drained => ?_, fun _ => ⟨⟨?_, within, sound.sized, sound.wide⟩, rest.symm, trivial,
    Nat.le_refl _⟩⟩
  · rw [rest, drained, slice_self]
    have rewound : ∀ drainHadLargeFrame,
        Sound { decoder with start := 0, stop := 0, drainHadLargeFrame } :=
      fun _ => ⟨Nat.le_refl 0, Nat.zero_le _, sound.sized, sound.wide⟩
    refine ⟨fun _ => ?_, fun _ => ⟨rewound _, slice_self _ 0, trivial, Nat.le_refl _⟩⟩
    refine (retireOversize_sat (rewound _) rfl).mono ?_ (fun _ _ raised => raised)
    rintro _ after ⟨moved, smaller⟩
    exact ⟨moved.sound, moved.pending.trans (slice_self _ 0), moved.limit, smaller⟩
  · simp only
    omega

end IncrementalDecoder

end Mqttium.Codec
