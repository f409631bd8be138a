import Mqttium.Protocol.PacketIds

/-! The packet identifier allocator over whole histories of calls: a finite set of
identifiers and nothing else. -/

namespace Mqttium.Protocol

/-- The allocator takes any integer; a negative one fails the first range test. -/
inductive PoolCall where
  | allocate (choice : Nat)
  | reserve (mid : Int)
  | release (mid : Int)
  | clear
  deriving DecidableEq, Repr

/-- What a call answers: an allocation answers an identifier, any other call nothing. -/
abbrev PoolAnswer := Except Failure (Option Nat)

namespace PoolState

def length (pool : PoolState) : Int :=
  (pool.next : Int) - 1 - pool.freeCount + (pool.reserved.elim 0 Finset.card : Nat)

def available (pool : PoolState) : Int := maxPacketId - pool.length

def holds (pool : PoolState) (mid : Int) : Bool := 0 ≤ mid && pool.inUse mid.toNat

def call (pool : PoolState) : PoolCall → PoolAnswer × PoolState
  | .allocate choice =>
    let (answer, after) := pool.allocate choice
    (answer.map some, after)
  | .reserve mid =>
    if mid < 0 then (.error (.value s!"Invalid packet id {mid}"), pool)
    else
      match pool.reserve mid.toNat with
      | .ok after => (.ok none, after)
      | .error failure => (.error failure, pool)
  | .release mid => (.ok none, if mid < 0 then pool else pool.release mid.toNat)
  | .clear => (.ok none, clear)

/-- Make calls one after the other, with what each was answered. -/
def run (pool : PoolState) : List PoolCall → List (PoolCall × PoolAnswer) × PoolState
  | [] => ([], pool)
  | call :: rest =>
    let (answer, after) := pool.call call
    let (history, last) := after.run rest
    ((call, answer) :: history, last)

end PoolState

/-- The identifiers there are. -/
def packetIds : Finset Nat := Finset.Icc 1 maxPacketId

def InRange (mid : Int) : Prop := 1 ≤ mid ∧ mid ≤ maxPacketId

instance (mid : Int) : Decidable (InRange mid) := inferInstanceAs (Decidable (_ ∧ _))

/-- The set a call leaves, from what it answered alone. -/
def PoolCall.leaves (used : Finset Nat) : PoolCall × PoolAnswer → Finset Nat
  | (.allocate _, .ok (some mid)) => insert mid used
  | (.reserve mid, .ok _) => insert mid.toNat used
  | (.release mid, _) => if InRange mid then used.erase mid.toNat else used
  | (.clear, _) => ∅
  | _ => used

/-- What a set of identifiers may answer to a call. -/
def PoolCall.Answers (used : Finset Nat) : PoolCall × PoolAnswer → Prop
  | (.allocate _, .ok (some mid)) => mid ∉ used ∧ mid ∈ packetIds
  | (.allocate _, .error failure) =>
    used = packetIds ∧ failure = .flowControl "No free MQTT packet identifiers"
  | (.reserve mid, .ok none) => InRange mid
  | (.reserve mid, .error failure) =>
    ¬ InRange mid ∧ failure = .value s!"Invalid packet id {mid}"
  | (.release _, .ok none) => True
  | (.clear, .ok none) => True
  | _ => False

/-- A history a set with these identifiers may have. -/
def Behaves : Finset Nat → List (PoolCall × PoolAnswer) → Prop
  | _, [] => True
  | used, entry :: rest => PoolCall.Answers used entry ∧ Behaves (PoolCall.leaves used entry) rest

namespace PoolState

variable {pool : PoolState}

theorem Valid.used_subset (valid : pool.Valid) : pool.used ⊆ packetIds := by
  intro mid member
  have low := valid.next_pos
  have high := valid.next_le
  rw [packetIds, Finset.mem_Icc]
  rcases mem_used.mp member with ⟨above, below, _⟩ | reserved
  · omega
  · have inside := Finset.mem_Ico.mp (valid.reserved_above reserved)
    omega

theorem Valid.length_eq (valid : pool.Valid) : pool.length = pool.used.card := by
  have below : (Finset.Ico 1 pool.next \ pool.freed).card = pool.next - 1 - pool.freeCount := by
    rw [Finset.card_sdiff_of_subset valid.freed_below, Nat.card_Ico, valid.counted]
  have enough : pool.freeCount ≤ pool.next - 1 := by
    rw [valid.counted, ← Nat.card_Ico]
    exact Finset.card_le_card valid.freed_below
  have apart : Disjoint (Finset.Ico 1 pool.next \ pool.freed) (pool.reserved.getD ∅) := by
    rw [Finset.disjoint_left]
    intro mid low reserved
    have before := Finset.mem_Ico.mp (Finset.mem_sdiff.mp low).1
    have above := Finset.mem_Ico.mp (valid.reserved_above reserved)
    omega
  have count : pool.reserved.elim 0 Finset.card = (pool.reserved.getD ∅).card := by
    cases pool.reserved <;> rfl
  have positive := valid.next_pos
  rw [length, used, Finset.card_union_of_disjoint apart, below, count]
  omega

/-- Only a pool without a free identifier refuses to allocate. -/
theorem allocate_full (valid : pool.Valid) {choice : Nat} {failure : Failure} {after : PoolState}
    (done : pool.allocate choice = (.error failure, after)) : pool.used = packetIds := by
  unfold allocate at done
  by_cases single : pool.freeOne ≠ 0
  · rw [if_pos single] at done
    cases done
  rw [if_neg single] at done
  cases many : pool.freeMany with
  | some free =>
    simp only [many] at done
    cases done
  | none =>
    obtain ⟨mid, rest, reached⟩ : ∃ mid rest, pool.frontier = (mid, rest) := ⟨_, _, rfl⟩
    obtain ⟨_, same, _, _⟩ := frontier_spec valid reached
    simp only [many, reached] at done
    by_cases beyond : maxPacketId < mid
    · refine Finset.Subset.antisymm valid.used_subset fun other inside => ?_
      have range := Finset.mem_Icc.mp inside
      rw [← same, mem_used, mem_freed]
      refine Or.inl ⟨range.1, by show other < mid; omega, ?_⟩
      simp only [many, Option.getD_none, Finset.notMem_empty, false_or, not_and]
      exact fun _ => single
    · rw [if_neg beyond] at done
      cases done

theorem reserve_error {mid : Nat} (outside : ¬ InRange mid) :
    pool.reserve mid = .error (.value s!"Invalid packet id {mid}") := by
  have wrong : mid < 1 ∨ maxPacketId < mid := by
    unfold InRange at outside
    omega
  unfold reserve
  rw [if_pos wrong]

theorem release_outside {mid : Nat} (outside : ¬ InRange mid) : pool.release mid = pool := by
  have wrong : mid < 1 ∨ maxPacketId < mid := by
    unfold InRange at outside
    omega
  unfold release
  rw [if_pos wrong]

/-- One call of the allocator is one call of the set of its identifiers. -/
theorem call_refines (valid : pool.Valid) (call : PoolCall) {answer : PoolAnswer}
    {after : PoolState} (done : pool.call call = (answer, after)) :
    after.Valid ∧ PoolCall.Answers pool.used (call, answer) ∧
      after.used = PoolCall.leaves pool.used (call, answer) := by
  cases call with
  | allocate choice =>
    obtain ⟨result, reached, allocated⟩ :
      ∃ result reached, pool.allocate choice = (result, reached) := ⟨_, _, rfl⟩
    simp only [PoolState.call, allocated, Prod.mk.injEq] at done
    obtain ⟨rfl, rfl⟩ := done
    obtain ⟨kept, spec⟩ := allocate_spec valid allocated
    cases result with
    | ok mid =>
      obtain ⟨fresh, low, high, grown⟩ := spec
      exact ⟨kept, ⟨fresh, Finset.mem_Icc.mpr ⟨low, high⟩⟩, grown⟩
    | error failure => exact ⟨kept, ⟨allocate_full valid allocated, spec.1⟩, spec.2⟩
  | reserve mid =>
    simp only [PoolState.call] at done
    by_cases negative : mid < 0
    · rw [if_pos negative, Prod.mk.injEq] at done
      obtain ⟨rfl, rfl⟩ := done
      refine ⟨valid, ⟨fun inside => ?_, rfl⟩, rfl⟩
      exact absurd inside.1 (by omega)
    · obtain ⟨mid, rfl⟩ := Int.eq_ofNat_of_zero_le (not_lt.mp negative)
      rw [if_neg negative, Int.toNat_natCast] at done
      by_cases inside : InRange mid
      · obtain ⟨reached, reserved, kept, grown⟩ := reserve_spec valid
          (Int.ofNat_le.mp inside.1) (Int.ofNat_le.mp inside.2)
        rw [reserved, Prod.mk.injEq] at done
        obtain ⟨rfl, rfl⟩ := done
        exact ⟨kept, inside, grown⟩
      · rw [reserve_error inside, Prod.mk.injEq] at done
        obtain ⟨rfl, rfl⟩ := done
        exact ⟨valid, ⟨inside, rfl⟩, rfl⟩
  | release mid =>
    simp only [PoolState.call, Prod.mk.injEq] at done
    obtain ⟨rfl, rfl⟩ := done
    by_cases negative : mid < 0
    · have outside : ¬ InRange mid := fun inside => absurd inside.1 (by omega)
      rw [if_pos negative, PoolCall.leaves, if_neg outside]
      exact ⟨valid, trivial, rfl⟩
    · obtain ⟨mid, rfl⟩ := Int.eq_ofNat_of_zero_le (not_lt.mp negative)
      rw [if_neg negative, Int.toNat_natCast, PoolCall.leaves]
      by_cases inside : InRange mid
      · obtain ⟨kept, released⟩ := release_spec valid mid
        rw [if_pos inside]
        exact ⟨kept, trivial, released⟩
      · rw [if_neg inside, release_outside inside]
        exact ⟨valid, trivial, rfl⟩
  | clear =>
    simp only [PoolState.call, Prod.mk.injEq] at done
    obtain ⟨rfl, rfl⟩ := done
    exact ⟨valid_clear, trivial, used_clear⟩

theorem run_refines (valid : pool.Valid) {calls : List PoolCall}
    {history : List (PoolCall × PoolAnswer)} {last : PoolState}
    (done : pool.run calls = (history, last)) :
    last.Valid ∧ history.map Prod.fst = calls ∧ Behaves pool.used history ∧
      last.used = history.foldl PoolCall.leaves pool.used := by
  induction calls generalizing pool history with
  | nil =>
    simp only [run, Prod.mk.injEq] at done
    obtain ⟨rfl, rfl⟩ := done
    exact ⟨valid, rfl, trivial, rfl⟩
  | cons call rest ih =>
    obtain ⟨answer, after, called⟩ :
      ∃ answer after, pool.call call = (answer, after) := ⟨_, _, rfl⟩
    obtain ⟨tail, final, ran⟩ : ∃ tail final, after.run rest = (tail, final) := ⟨_, _, rfl⟩
    simp only [run, called, ran, Prod.mk.injEq] at done
    obtain ⟨rfl, rfl⟩ := done
    obtain ⟨kept, answers, leaves⟩ := call_refines valid call called
    obtain ⟨valid', calls, behaves, used⟩ := ih kept ran
    rw [leaves] at behaves used
    exact ⟨valid', by rw [List.map_cons, calls], ⟨answers, behaves⟩, used⟩

end PoolState

/-- An identifier stays in use until it is released or everything is. -/
theorem stays_used {history : List (PoolCall × PoolAnswer)} {mid : Nat}
    (unreleased : ∀ entry ∈ history, entry.1 ≠ .clear ∧ entry.1 ≠ .release mid)
    {used : Finset Nat} (member : mid ∈ used) : mid ∈ history.foldl PoolCall.leaves used := by
  induction history generalizing used with
  | nil => exact member
  | cons entry rest ih =>
    obtain ⟨notClear, notRelease⟩ := unreleased entry List.mem_cons_self
    refine ih (fun other later => unreleased other (List.mem_cons_of_mem entry later)) ?_
    unfold PoolCall.leaves
    split
    · exact Finset.mem_insert_of_mem member
    · exact Finset.mem_insert_of_mem member
    · rename_i released _
      split
      · rename_i range
        refine Finset.mem_erase.mpr ⟨fun same => notRelease ?_, member⟩
        rw [same, Int.toNat_of_nonneg (le_trans zero_le_one range.1)]
      · exact member
    · exact absurd rfl notClear
    · exact member

theorem Behaves.append {front back : List (PoolCall × PoolAnswer)} {used : Finset Nat}
    (behaves : Behaves used (front ++ back)) :
    Behaves used front ∧ Behaves (front.foldl PoolCall.leaves used) back := by
  induction front generalizing used with
  | nil => exact ⟨trivial, behaves⟩
  | cons entry rest ih =>
    obtain ⟨before, after⟩ := ih behaves.2
    exact ⟨⟨behaves.1, before⟩, after⟩

/-- Between two allocations of one identifier it was released. -/
theorem Behaves.released {before between after : List (PoolCall × PoolAnswer)}
    {first second mid : Nat} {used : Finset Nat}
    (behaves : Behaves used (before ++ (.allocate first, .ok (some mid)) :: between ++
      (.allocate second, .ok (some mid)) :: after)) :
    ∃ entry ∈ between, entry.1 = .clear ∨ entry.1 = .release mid := by
  by_contra none
  have unreleased : ∀ entry ∈ between, entry.1 ≠ .clear ∧ entry.1 ≠ .release mid :=
    fun entry member => not_or.mp fun freed => none ⟨entry, member, freed⟩
  rw [List.append_assoc] at behaves
  obtain ⟨⟨_, inside⟩, rest⟩ := behaves.append.2
  obtain ⟨⟨fresh, _⟩, _⟩ := Behaves.append rest |>.2
  exact fresh (stays_used unreleased (Finset.mem_insert_self mid _))

/-- Over any history the allocator is the set of the identifiers in use: every answer is
one the set allows, and the set follows from the answers. -/
theorem pool_refines_set (calls : List PoolCall) :
    let history := (PoolState.clear.run calls).1
    let pool := (PoolState.clear.run calls).2
    let used := history.foldl PoolCall.leaves ∅
    history.map Prod.fst = calls ∧ Behaves ∅ history ∧ used ⊆ packetIds ∧
      (∀ mid : Int, pool.holds mid = true ↔ InRange mid ∧ mid.toNat ∈ used) ∧
      pool.length = used.card ∧ pool.available = 65535 - used.card ∧
      ∀ before between after first second mid,
        history = before ++ (.allocate first, .ok (some mid)) :: between ++
          (.allocate second, .ok (some mid)) :: after →
        ∃ entry ∈ between, entry.1 = .clear ∨ entry.1 = .release mid := by
  obtain ⟨valid, same, behaves, reached⟩ :=
    @PoolState.run_refines _ PoolState.valid_clear calls _ _ rfl
  rw [PoolState.used_clear] at behaves reached
  have inside := valid.used_subset
  have count := valid.length_eq
  rw [reached] at inside count
  refine ⟨same, behaves, inside, fun mid => ?_, count, ?_, ?_⟩
  · rw [PoolState.holds, Bool.and_eq_true, decide_eq_true_eq, PoolState.inUse_iff valid, reached]
    refine and_congr_left fun member => ?_
    have range := Finset.mem_Icc.mp (inside member)
    unfold InRange
    omega
  · rw [PoolState.available, count]
    rfl
  · intro before between after first second mid split
    rw [split] at behaves
    exact behaves.released

end Mqttium.Protocol
