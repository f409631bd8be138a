import Mathlib.Data.Finset.Sort
import Mathlib.Order.Interval.Finset.Nat
import Mqttium.Errors

/-! The outbound packet identifier allocator. Identifiers below the frontier are
in use unless recorded as free; those at or above it are free unless reserved. -/

namespace Mqttium.Protocol

def maxPacketId : Nat := 65535

/-- The allocator's fields. `freeOne` is zero when there is no single free slot. -/
structure PoolState where
  freeCount : Nat := 0
  freeOne : Nat := 0
  freeMany : Option (Finset Nat) := none
  reserved : Option (Finset Nat) := none
  next : Nat := 1
  deriving DecidableEq

namespace PoolState

variable (pool : PoolState)

/-- A set that became empty is dropped. -/
private def keep (rest : Finset Nat) : Option (Finset Nat) := if rest = ∅ then none else some rest

/-- `set.pop()` takes an element of the runtime's choosing. -/
def popFrom (free : Finset Nat) (choice : Nat) : Nat :=
  (free.sort (· ≤ ·)).getD (choice % free.card) 0

/-- Move the frontier over the reservations that touch it. -/
def absorb : Nat → Nat → Finset Nat → Nat × Finset Nat
  | 0, frontier, reserved => (frontier, reserved)
  | fuel + 1, frontier, reserved =>
    if frontier ∈ reserved then absorb fuel (frontier + 1) (reserved.erase frontier)
    else (frontier, reserved)

/-- The frontier an allocation reaches, and the reservations left above it. -/
def frontier : Nat × Option (Finset Nat) :=
  match pool.reserved with
  | none => (pool.next, none)
  | some reserved =>
    let (mid, rest) := absorb reserved.card pool.next reserved
    (mid, keep rest)

def allocate (choice : Nat) : Except Failure Nat × PoolState :=
  if pool.freeOne ≠ 0 then
    (.ok pool.freeOne, { pool with freeOne := 0, freeCount := pool.freeCount - 1 })
  else match pool.freeMany with
    | some free =>
      let mid := popFrom free choice
      (.ok mid, { pool with freeMany := keep (free.erase mid), freeCount := pool.freeCount - 1 })
    | none =>
      let (mid, reserved) := pool.frontier
      if maxPacketId < mid then
        (.error (.flowControl "No free MQTT packet identifiers"), { pool with reserved, next := mid })
      else (.ok mid, { pool with reserved, next := mid + 1 })

/-- Mark an existing identifier as in use, such as one hydrated from persistence. -/
def reserve (mid : Nat) : Except Failure PoolState :=
  if mid < 1 ∨ maxPacketId < mid then .error (.value s!"Invalid packet id {mid}")
  else if mid < pool.next then
    if pool.freeOne = mid then .ok { pool with freeOne := 0, freeCount := pool.freeCount - 1 }
    else match pool.freeMany with
      | some free =>
        if mid ∈ free then
          .ok { pool with freeMany := keep (free.erase mid), freeCount := pool.freeCount - 1 }
        else .ok pool
      | none => .ok pool
  else if mid = pool.next then
    match pool.reserved with
    | none => .ok { pool with next := pool.next + 1 }
    | some reserved =>
      let rest := reserved.erase mid
      let (reached, left) := absorb rest.card (pool.next + 1) rest
      .ok { pool with next := reached, reserved := keep left }
  else .ok { pool with reserved := some (insert mid (pool.reserved.getD ∅)) }

def clear : PoolState := {}

def release (mid : Nat) : PoolState :=
  if mid < 1 ∨ maxPacketId < mid then pool
  else if mid < pool.next then
    if pool.freeOne = mid ∨ mid ∈ pool.freeMany.getD ∅ then pool
    else if pool.freeCount + 1 = pool.next - 1 ∧ pool.reserved = none then clear
    else if pool.freeOne = 0 then { pool with freeOne := mid, freeCount := pool.freeCount + 1 }
    else
      { pool with
        freeMany := some (insert mid (pool.freeMany.getD ∅))
        freeCount := pool.freeCount + 1 }
  else match pool.reserved with
    | none => pool
    | some reserved =>
      if mid ∉ reserved then pool
      else if reserved.erase mid ≠ ∅ then { pool with reserved := some (reserved.erase mid) }
      else if pool.freeCount = pool.next - 1 then clear
      else { pool with reserved := none }

def inUse (mid : Nat) : Bool :=
  if mid < 1 ∨ maxPacketId < mid then false
  else if mid < pool.next then mid ≠ pool.freeOne ∧ mid ∉ pool.freeMany.getD ∅
  else mid ∈ pool.reserved.getD ∅

/-- The identifiers below the frontier that are recorded as free. -/
def freed : Finset Nat :=
  pool.freeMany.getD ∅ ∪ (if pool.freeOne = 0 then ∅ else {pool.freeOne})

/-- The identifiers in use, as a set. -/
def used : Finset Nat := (Finset.Ico 1 pool.next \ pool.freed) ∪ pool.reserved.getD ∅

structure Valid : Prop where
  next_pos : 1 ≤ pool.next
  next_le : pool.next ≤ maxPacketId + 1
  freed_below : pool.freed ⊆ Finset.Ico 1 pool.next
  single : pool.freeOne ∉ pool.freeMany.getD ∅
  counted : pool.freeCount = pool.freed.card
  free_nonempty : pool.freeMany ≠ some ∅
  reserved_above : pool.reserved.getD ∅ ⊆ Finset.Ico pool.next (maxPacketId + 1)
  reserved_nonempty : pool.reserved ≠ some ∅

theorem valid_clear : clear.Valid where
  next_pos := by decide
  next_le := by decide
  freed_below := by decide
  single := by decide
  counted := by decide
  free_nonempty := by decide
  reserved_above := by simp [clear]
  reserved_nonempty := by decide

@[simp] theorem used_clear : clear.used = ∅ := by decide

private theorem keep_getD (rest : Finset Nat) : (keep rest).getD ∅ = rest := by
  unfold keep
  split <;> simp_all

private theorem keep_ne (rest : Finset Nat) : keep rest ≠ some ∅ := by
  unfold keep
  split <;> simp_all

/-- Absorbing takes exactly the run of reservations that starts at the frontier. -/
private theorem absorb_spec {fuel start reached : Nat} {reserved left : Finset Nat}
    (enough : reserved.card ≤ fuel) (done : absorb fuel start reserved = (reached, left)) :
    start ≤ reached ∧ Finset.Ico start reached ⊆ reserved ∧
      left = reserved \ Finset.Ico start reached ∧ reached ∉ left := by
  induction fuel generalizing start reserved with
  | zero =>
    simp only [absorb, Prod.mk.injEq] at done
    obtain ⟨rfl, rfl⟩ := done
    simp_all
  | succ fuel ih =>
    by_cases touches : start ∈ reserved
    · simp only [absorb, touches, ↓reduceIte] at done
      have smaller : (reserved.erase start).card ≤ fuel := by
        rw [Finset.card_erase_of_mem touches]
        omega
      obtain ⟨after, run, rest, stop⟩ := ih smaller done
      have split : Finset.Ico start reached = insert start (Finset.Ico (start + 1) reached) := by
        ext mid
        simp only [Finset.mem_Ico, Finset.mem_insert]
        omega
      refine ⟨by omega, ?_, ?_, stop⟩
      · rw [split]
        exact Finset.insert_subset touches (run.trans (Finset.erase_subset _ _))
      · rw [rest, split]
        ext mid
        simp only [Finset.mem_sdiff, Finset.mem_erase, Finset.mem_insert]
        tauto
    · simp only [absorb, touches, ↓reduceIte, Prod.mk.injEq] at done
      obtain ⟨rfl, rfl⟩ := done
      simp [touches]

private theorem popFrom_mem {free : Finset Nat} (nonempty : free ≠ ∅) (choice : Nat) :
    popFrom free choice ∈ free := by
  have positive : 0 < free.card := Finset.card_pos.mpr (Finset.nonempty_iff_ne_empty.mpr nonempty)
  have inside : choice % free.card < (free.sort (· ≤ ·)).length := by
    rw [Finset.length_sort]
    exact Nat.mod_lt _ positive
  have found : popFrom free choice ∈ free.sort (· ≤ ·) := by
    simp only [popFrom, List.getD, List.getElem?_eq_getElem inside, Option.getD_some]
    exact List.getElem_mem inside
  exact (Finset.mem_sort _).mp found

variable {pool}

theorem mem_freed {mid : Nat} :
    mid ∈ pool.freed ↔ mid ∈ pool.freeMany.getD ∅ ∨ (mid = pool.freeOne ∧ pool.freeOne ≠ 0) := by
  unfold freed
  by_cases none : pool.freeOne = 0 <;> simp [none, or_comm]

theorem mem_used {mid : Nat} :
    mid ∈ pool.used ↔
      (1 ≤ mid ∧ mid < pool.next ∧ mid ∉ pool.freed) ∨ mid ∈ pool.reserved.getD ∅ := by
  simp [used, and_assoc]

/-- The code's membership test decides the abstract set. -/
theorem inUse_iff (valid : pool.Valid) (mid : Nat) : pool.inUse mid = true ↔ mid ∈ pool.used := by
  have above := valid.reserved_above
  have low := valid.next_pos
  have high := valid.next_le
  rw [mem_used, mem_freed]
  by_cases outside : mid < 1 ∨ maxPacketId < mid
  · simp only [inUse, outside, ↓reduceIte, Bool.false_eq_true, false_iff, not_or]
    refine ⟨by omega, ?_⟩
    intro member
    have := Finset.mem_Ico.mp (above member)
    omega
  · by_cases below : mid < pool.next
    · have notReserved : mid ∉ pool.reserved.getD ∅ := by
        intro member
        have := Finset.mem_Ico.mp (above member)
        omega
      simp only [inUse, outside, ↓reduceIte, below, decide_eq_true_eq, notReserved, or_false]
      constructor
      · rintro ⟨different, absent⟩
        refine ⟨by omega, trivial, ?_⟩
        rintro (member | ⟨same, _⟩)
        · exact absent member
        · exact different same
      · rintro ⟨low, _, absent⟩
        refine ⟨?_, fun member => absent (Or.inl member)⟩
        intro same
        exact absent (Or.inr ⟨same, by omega⟩)
    · simp only [inUse, outside, ↓reduceIte, below, decide_eq_true_eq, false_and, and_false,
        false_or]

/-- Dropping the single free slot puts it back in use. -/
private theorem takeOne (valid : pool.Valid) (single : pool.freeOne ≠ 0) :
    let taken : PoolState := { pool with freeOne := 0, freeCount := pool.freeCount - 1 }
    taken.Valid ∧ taken.used = insert pool.freeOne pool.used ∧ pool.freeOne ∉ pool.used := by
  intro taken
  have freedEq : taken.freed = pool.freed.erase pool.freeOne := by
    ext mid
    have := valid.single
    simp only [Finset.mem_erase, mem_freed, taken]
    by_cases same : mid = pool.freeOne
    · subst same
      simpa using this
    · simp [same]
  have inFreed : pool.freeOne ∈ pool.freed := mem_freed.mpr (Or.inr ⟨rfl, single⟩)
  have range := Finset.mem_Ico.mp (valid.freed_below inFreed)
  have unreserved : pool.freeOne ∉ pool.reserved.getD ∅ := by
    intro member
    have := Finset.mem_Ico.mp (valid.reserved_above member)
    omega
  refine ⟨{ valid with
    freed_below := by
      rw [freedEq]
      exact (Finset.erase_subset _ _).trans valid.freed_below
    single := ?_
    counted := ?_ }, ?_, ?_⟩
  · intro member
    have : (0 : Nat) ∈ pool.freed := mem_freed.mpr (Or.inl member)
    have := Finset.mem_Ico.mp (valid.freed_below this)
    omega
  · rw [freedEq, Finset.card_erase_of_mem inFreed, ← valid.counted]
  · ext mid
    rw [Finset.mem_insert, mem_used, mem_used, freedEq]
    by_cases same : mid = pool.freeOne
    · subst same
      simp [taken, range.1, range.2]
    · simp [taken, same]
  · rw [mem_used]
    simp [inFreed, unreserved]

/-- Dropping an element of the free set puts it back in use. -/
private theorem takeMany (valid : pool.Valid) {free : Finset Nat} (many : pool.freeMany = some free)
    {mid : Nat} (member : mid ∈ free) :
    let taken : PoolState :=
      { pool with freeMany := keep (free.erase mid), freeCount := pool.freeCount - 1 }
    taken.Valid ∧ taken.used = insert mid pool.used ∧ mid ∉ pool.used := by
  intro taken
  have inFreed : mid ∈ pool.freed := mem_freed.mpr (Or.inl (by simpa [many] using member))
  have range := Finset.mem_Ico.mp (valid.freed_below inFreed)
  have different : pool.freeOne ≠ mid := by
    rintro same
    apply valid.single
    rw [many, same]
    exact member
  have freedEq : taken.freed = pool.freed.erase mid := by
    ext other
    simp only [Finset.mem_erase, mem_freed, taken, keep_getD, many, Option.getD_some]
    by_cases same : other = mid
    · subst same
      simp [Ne.symm different]
    · simp [same]
  have unreserved : mid ∉ pool.reserved.getD ∅ := by
    intro reserved
    have := Finset.mem_Ico.mp (valid.reserved_above reserved)
    omega
  refine ⟨{ valid with
    freed_below := by
      rw [freedEq]
      exact (Finset.erase_subset _ _).trans valid.freed_below
    single := ?_
    counted := by rw [freedEq, Finset.card_erase_of_mem inFreed, ← valid.counted]
    free_nonempty := keep_ne _ }, ?_, ?_⟩
  · intro held
    apply valid.single
    rw [many]
    exact Finset.mem_of_mem_erase (by simpa [taken, keep_getD] using held)
  · ext other
    rw [Finset.mem_insert, mem_used, mem_used, freedEq]
    by_cases same : other = mid
    · subst same
      simp [taken, range.1, range.2]
    · simp [taken, same]
  · rw [mem_used]
    simp [inFreed, unreserved]

/-- Moving the frontier over reservations keeps the used set. -/
private theorem advance (valid : pool.Valid) {start reached : Nat} {held left : Finset Nat}
    (above : held ⊆ Finset.Ico start (maxPacketId + 1)) (low : pool.next ≤ start)
    (high : start ≤ maxPacketId + 1) (done : absorb held.card start held = (reached, left)) :
    let moved : PoolState := { pool with reserved := keep left, next := reached }
    moved.Valid ∧ moved.freed = pool.freed ∧ start ≤ reached ∧ reached ∉ left ∧
      moved.used = (Finset.Ico 1 start \ pool.freed) ∪ held := by
  intro moved
  obtain ⟨after, run, rest, stop⟩ := absorb_spec le_rfl done
  have positive := valid.next_pos
  have bounded : reached ≤ maxPacketId + 1 := by
    by_contra beyond
    have member : maxPacketId + 1 ∈ held := run (Finset.mem_Ico.mpr ⟨high, by omega⟩)
    have := Finset.mem_Ico.mp (above member)
    omega
  have freedLow : ∀ mid ∈ pool.freed, mid < start := by
    intro mid member
    have := Finset.mem_Ico.mp (valid.freed_below member)
    omega
  refine ⟨⟨?_, bounded, ?_, valid.single, valid.counted, valid.free_nonempty, ?_, keep_ne _⟩,
    rfl, after, stop, ?_⟩
  · show 1 ≤ reached
    omega
  · intro mid member
    have := Finset.mem_Ico.mp (valid.freed_below member)
    exact Finset.mem_Ico.mpr ⟨this.1, by show mid < reached; omega⟩
  · intro mid member
    have held : mid ∈ left := by simpa [moved, keep_getD] using member
    rw [rest, Finset.mem_sdiff, Finset.mem_Ico] at held
    have := Finset.mem_Ico.mp (above held.1)
    exact Finset.mem_Ico.mpr ⟨by show reached ≤ mid; omega, this.2⟩
  · ext mid
    have := freedLow mid
    have inRun := @run mid
    rw [mem_used]
    simp only [moved, keep_getD, rest, Finset.mem_union, Finset.mem_sdiff, Finset.mem_Ico] at inRun ⊢
    show 1 ≤ mid ∧ mid < reached ∧ mid ∉ pool.freed ∨ _ ↔ _
    by_cases inHeld : mid ∈ held
    · have := Finset.mem_Ico.mp (above inHeld)
      simp only [inHeld, true_and, or_true, iff_true]
      by_cases reachedIt : mid < reached
      · left
        exact ⟨by omega, reachedIt, fun member => absurd (freedLow mid member) (by omega)⟩
      · right
        omega
    · simp only [inHeld, false_and, or_false]
      constructor
      · rintro ⟨one, before, notFreed⟩
        refine ⟨⟨one, ?_⟩, notFreed⟩
        by_contra atLeast
        exact inHeld (inRun ⟨by omega, before⟩)
      · rintro ⟨⟨one, before⟩, notFreed⟩
        exact ⟨one, by omega, notFreed⟩

/-- The frontier an allocation reaches is not reserved, and reaching it changes nothing. -/
theorem frontier_spec (valid : pool.Valid) {mid : Nat} {rest : Option (Finset Nat)}
    (reached : pool.frontier = (mid, rest)) :
    let moved : PoolState := { pool with reserved := rest, next := mid }
    moved.Valid ∧ moved.used = pool.used ∧ pool.next ≤ mid ∧ mid ∉ rest.getD ∅ := by
  intro moved
  unfold frontier at reached
  cases held : pool.reserved with
  | none =>
    simp only [held, Prod.mk.injEq] at reached
    obtain ⟨rfl, rfl⟩ := reached
    have same : moved = pool := by simp [moved, ← held]
    rw [same]
    exact ⟨valid, rfl, le_rfl, by simp⟩
  | some reserved =>
    obtain ⟨stop, left, absorbed⟩ :
      ∃ stop left, absorb reserved.card pool.next reserved = (stop, left) := ⟨_, _, rfl⟩
    simp only [held, absorbed, Prod.mk.injEq] at reached
    obtain ⟨rfl, rfl⟩ := reached
    have above : reserved ⊆ Finset.Ico pool.next (maxPacketId + 1) := by
      simpa [held] using valid.reserved_above
    obtain ⟨kept, _, low, fresh, usedEq⟩ := advance valid above le_rfl valid.next_le absorbed
    refine ⟨kept, ?_, low, by simpa [keep_getD] using fresh⟩
    rw [usedEq]
    simp [used, held]

/-- Issuing the identifier at the frontier. -/
private theorem issue_spec (valid : pool.Valid) (fresh : pool.next ∉ pool.reserved.getD ∅)
    (inside : pool.next ≤ maxPacketId) :
    let issued : PoolState := { pool with next := pool.next + 1 }
    issued.Valid ∧ issued.used = insert pool.next pool.used ∧ pool.next ∉ pool.used := by
  intro issued
  have positive := valid.next_pos
  have notFreed : pool.next ∉ pool.freed := by
    intro member
    have := Finset.mem_Ico.mp (valid.freed_below member)
    omega
  refine ⟨{ valid with
    next_pos := by show 1 ≤ pool.next + 1; omega
    next_le := by show pool.next + 1 ≤ maxPacketId + 1; omega
    freed_below := ?_
    reserved_above := ?_ }, ?_, ?_⟩
  · intro mid member
    have := Finset.mem_Ico.mp (valid.freed_below member)
    exact Finset.mem_Ico.mpr ⟨this.1, by show mid < pool.next + 1; omega⟩
  · intro mid member
    have := Finset.mem_Ico.mp (valid.reserved_above member)
    have different : mid ≠ pool.next := by
      rintro rfl
      exact fresh member
    exact Finset.mem_Ico.mpr ⟨by show pool.next + 1 ≤ mid; omega, this.2⟩
  · ext mid
    rw [Finset.mem_insert, mem_used, mem_used]
    show 1 ≤ mid ∧ mid < pool.next + 1 ∧ mid ∉ pool.freed ∨ mid ∈ pool.reserved.getD ∅ ↔ _
    by_cases same : mid = pool.next
    · subst same
      simp [positive, notFreed]
    · simp only [same, false_or]
      have : mid < pool.next + 1 ↔ mid < pool.next := by omega
      rw [this]
  · rw [mem_used]
    simp [fresh]

/-- Allocation returns an identifier that was free, or finds none and changes nothing. -/
theorem allocate_spec (valid : pool.Valid) {choice : Nat} {answer : Except Failure Nat}
    {after : PoolState} (done : pool.allocate choice = (answer, after)) :
    after.Valid ∧ match answer with
      | .ok mid => mid ∉ pool.used ∧ 1 ≤ mid ∧ mid ≤ maxPacketId ∧ after.used = insert mid pool.used
      | .error failure => failure = .flowControl "No free MQTT packet identifiers" ∧
          after.used = pool.used := by
  have high := valid.next_le
  unfold allocate at done
  by_cases single : pool.freeOne ≠ 0
  · rw [if_pos single, Prod.mk.injEq] at done
    obtain ⟨rfl, rfl⟩ := done
    obtain ⟨kept, taken, fresh⟩ := takeOne valid single
    have inFreed : pool.freeOne ∈ pool.freed := mem_freed.mpr (Or.inr ⟨rfl, single⟩)
    have range := Finset.mem_Ico.mp (valid.freed_below inFreed)
    exact ⟨kept, fresh, range.1, by omega, taken⟩
  rw [if_neg single] at done
  cases many : pool.freeMany with
  | some free =>
    simp only [many, Prod.mk.injEq] at done
    obtain ⟨rfl, rfl⟩ := done
    have nonempty : free ≠ ∅ := by
      rintro rfl
      exact valid.free_nonempty many
    have member := popFrom_mem nonempty choice
    obtain ⟨kept, taken, fresh⟩ := takeMany valid many member
    have inFreed : popFrom free choice ∈ pool.freed :=
      mem_freed.mpr (Or.inl (by simpa [many] using member))
    have range := Finset.mem_Ico.mp (valid.freed_below inFreed)
    exact ⟨kept, fresh, range.1, by omega, taken⟩
  | none =>
    obtain ⟨mid, rest, reached⟩ : ∃ mid rest, pool.frontier = (mid, rest) := ⟨_, _, rfl⟩
    obtain ⟨kept, same, low, stop⟩ := frontier_spec valid reached
    have positive := valid.next_pos
    simp only [many, reached] at done
    by_cases beyond : maxPacketId < mid
    · rw [if_pos beyond, Prod.mk.injEq] at done
      obtain ⟨rfl, rfl⟩ := done
      simp only [many] at kept same
      exact ⟨kept, rfl, same⟩
    · rw [if_neg beyond, Prod.mk.injEq] at done
      obtain ⟨rfl, rfl⟩ := done
      obtain ⟨valid', grown, fresh⟩ := issue_spec kept stop (by show mid ≤ maxPacketId; omega)
      rw [same] at grown fresh
      simp only [many] at valid' grown
      exact ⟨valid', fresh, by omega, by omega, grown⟩

/-- Reserving puts one identifier in use; it is refused only outside the range. -/
theorem reserve_spec (valid : pool.Valid) {mid : Nat} (low : 1 ≤ mid) (high : mid ≤ maxPacketId) :
    ∃ after, pool.reserve mid = .ok after ∧ after.Valid ∧ after.used = insert mid pool.used := by
  have inside : ¬ (mid < 1 ∨ maxPacketId < mid) := by omega
  unfold reserve
  rw [if_neg inside]
  by_cases below : mid < pool.next
  · rw [if_pos below]
    by_cases single : pool.freeOne = mid
    · rw [if_pos single]
      obtain ⟨kept, taken, _⟩ := takeOne valid (by omega)
      exact ⟨_, rfl, kept, by rw [taken, single]⟩
    rw [if_neg single]
    -- An identifier below the frontier that is in no free container is already in use.
    have already : mid ∉ pool.freeMany.getD ∅ → pool.used = insert mid pool.used := by
      intro absent
      refine (Finset.insert_eq_of_mem (mem_used.mpr (Or.inl ⟨low, below, ?_⟩))).symm
      rw [mem_freed]
      rintro (member | ⟨same, _⟩)
      · exact absent member
      · exact single same.symm
    cases many : pool.freeMany with
    | none => exact ⟨pool, rfl, valid, already (by simp [many])⟩
    | some free =>
      by_cases member : mid ∈ free
      · obtain ⟨kept, taken, _⟩ := takeMany valid many member
        simp only [member, ↓reduceIte]
        exact ⟨_, rfl, kept, taken⟩
      · simp only [member, ↓reduceIte]
        exact ⟨pool, rfl, valid, already (by simpa [many] using member)⟩
  rw [if_neg below]
  by_cases atFrontier : mid = pool.next
  · subst atFrontier
    rw [if_pos rfl]
    cases held : pool.reserved with
    | none =>
      obtain ⟨kept, grown, _⟩ := issue_spec valid (by simp [held]) high
      exact ⟨_, rfl, by simpa [held] using kept, by simpa [held] using grown⟩
    | some reserved =>
      have above : reserved.erase pool.next ⊆ Finset.Ico (pool.next + 1) (maxPacketId + 1) := by
        intro other member
        rw [Finset.mem_erase] at member
        have range := Finset.mem_Ico.mp (valid.reserved_above (by simpa [held] using member.2))
        exact Finset.mem_Ico.mpr ⟨by omega, range.2⟩
      obtain ⟨reached, left, absorbed⟩ : ∃ reached left,
        absorb (reserved.erase pool.next).card (pool.next + 1) (reserved.erase pool.next) =
          (reached, left) := ⟨_, _, rfl⟩
      obtain ⟨kept, _, _, _, usedEq⟩ := advance valid above (by omega) (by omega) absorbed
      simp only [absorbed]
      refine ⟨_, rfl, kept, ?_⟩
      rw [usedEq]
      ext other
      have positive := valid.next_pos
      have notFreed : pool.next ∉ pool.freed := by
        intro member
        have := Finset.mem_Ico.mp (valid.freed_below member)
        omega
      simp only [used, held, Option.getD_some, Finset.mem_union, Finset.mem_sdiff, Finset.mem_Ico,
        Finset.mem_erase, Finset.mem_insert]
      by_cases same : other = pool.next
      · subst same
        simp [positive, notFreed]
      · have : other < pool.next + 1 ↔ other < pool.next := by omega
        simp [same, this]
  · rw [if_neg atFrontier]
    refine ⟨_, rfl, { valid with reserved_above := ?_, reserved_nonempty := by simp }, ?_⟩
    · intro other member
      simp only [Option.getD_some, Finset.mem_insert] at member
      rcases member with rfl | member
      · exact Finset.mem_Ico.mpr ⟨by show pool.next ≤ other; omega, by omega⟩
      · exact valid.reserved_above member
    · ext other
      simp only [Finset.mem_insert, mem_used, Option.getD_some]
      show _ ∨ (other = mid ∨ _) ↔ _
      rw [or_left_comm]
      rfl

/-- When as many identifiers are free as lie below the frontier, none of them is in use. -/
private theorem all_freed (valid : pool.Valid) (full : pool.freeCount = pool.next - 1) :
    Finset.Ico 1 pool.next \ pool.freed = ∅ := by
  have same : pool.freed = Finset.Ico 1 pool.next := by
    apply Finset.eq_of_subset_of_card_le valid.freed_below
    rw [Nat.card_Ico, ← valid.counted, full]
  rw [same, Finset.sdiff_self]

/-- Recording one more free identifier below the frontier. -/
private theorem free_spec (valid : pool.Valid) {after : PoolState} {mid : Nat} (low : 1 ≤ mid)
    (below : mid < pool.next) (fresh : mid ∉ pool.freed)
    (same : after.next = pool.next) (kept : after.reserved = pool.reserved)
    (freedEq : after.freed = insert mid pool.freed) (counted : after.freeCount = pool.freeCount + 1)
    (single : after.freeOne ∉ after.freeMany.getD ∅) (nonempty : after.freeMany ≠ some ∅) :
    after.Valid ∧ after.used = pool.used.erase mid := by
  refine ⟨⟨same ▸ valid.next_pos, same ▸ valid.next_le, ?_, single, ?_, nonempty, ?_, ?_⟩, ?_⟩
  · rw [freedEq, same]
    exact Finset.insert_subset (Finset.mem_Ico.mpr ⟨low, below⟩) valid.freed_below
  · rw [freedEq, Finset.card_insert_of_notMem fresh, counted, valid.counted]
  · rw [kept, same]
    exact valid.reserved_above
  · rw [kept]
    exact valid.reserved_nonempty
  · ext other
    have unreserved : mid ∉ pool.reserved.getD ∅ := by
      intro member
      have := Finset.mem_Ico.mp (valid.reserved_above member)
      omega
    rw [Finset.mem_erase, mem_used, mem_used, freedEq, same, kept]
    by_cases equal : other = mid
    · subst equal
      simp [unreserved]
    · simp [equal]

/-- Releasing takes one identifier out of use; an identifier not in use changes nothing. -/
theorem release_spec (valid : pool.Valid) (mid : Nat) :
    (pool.release mid).Valid ∧ (pool.release mid).used = pool.used.erase mid := by
  have absent : mid ∉ pool.used → pool.used = pool.used.erase mid :=
    fun unused => (Finset.erase_eq_of_notMem unused).symm
  have test := inUse_iff valid mid
  unfold release
  by_cases outside : mid < 1 ∨ maxPacketId < mid
  · rw [if_pos outside]
    refine ⟨valid, absent ?_⟩
    rw [← test]
    simp only [inUse, outside, ↓reduceIte, Bool.false_eq_true, not_false_eq_true]
  rw [if_neg outside]
  by_cases below : mid < pool.next
  · rw [if_pos below]
    by_cases free : pool.freeOne = mid ∨ mid ∈ pool.freeMany.getD ∅
    · rw [if_pos free]
      refine ⟨valid, absent ?_⟩
      rw [← test]
      simp only [inUse, outside, ↓reduceIte, below, decide_eq_true_eq]
      rcases free with single | many
      · exact fun used => used.1 single.symm
      · exact fun used => used.2 many
    rw [if_neg free]
    rw [not_or] at free
    have low : 1 ≤ mid := by omega
    have notFreed : mid ∉ pool.freed := by
      rw [mem_freed]
      rintro (member | ⟨same, _⟩)
      · exact free.2 member
      · exact free.1 same.symm
    by_cases last : pool.freeCount + 1 = pool.next - 1 ∧ pool.reserved = none
    · rw [if_pos last]
      refine ⟨valid_clear, ?_⟩
      have everything : insert mid pool.freed = Finset.Ico 1 pool.next := by
        apply Finset.eq_of_subset_of_card_le
        · exact Finset.insert_subset (Finset.mem_Ico.mpr ⟨low, below⟩) valid.freed_below
        · rw [Nat.card_Ico, Finset.card_insert_of_notMem notFreed, ← valid.counted, last.1]
      rw [used_clear, used, last.2, ← everything]
      ext other
      simp only [Option.getD_none, Finset.union_empty, Finset.mem_erase, Finset.mem_sdiff,
        Finset.mem_insert]
      constructor
      · simp
      · rintro ⟨different, same | member, unfree⟩
        · exact absurd same different
        · exact absurd member unfree
    rw [if_neg last]
    by_cases none : pool.freeOne = 0
    · rw [if_pos none]
      refine free_spec valid low below notFreed rfl rfl ?_ rfl free.2 valid.free_nonempty
      have : mid ≠ 0 := by omega
      simp [freed, none, this]
    · rw [if_neg none]
      refine free_spec valid low below notFreed rfl rfl ?_ rfl ?_ (by simp)
      · simp [freed, none]
      · simp only [Option.getD_some, Finset.mem_insert, not_or]
        exact ⟨free.1, valid.single⟩
  · rw [if_neg below]
    cases held : pool.reserved with
    | none =>
      refine ⟨valid, absent ?_⟩
      rw [mem_used]
      simp [held, below]
    | some reserved =>
      by_cases member : mid ∈ reserved
      · simp only [member, not_true_eq_false, ↓reduceIte]
        have usedErase : (Finset.Ico 1 pool.next \ pool.freed) ∪ reserved.erase mid =
            pool.used.erase mid := by
          ext other
          simp only [used, held, Option.getD_some, Finset.mem_union, Finset.mem_sdiff,
            Finset.mem_Ico, Finset.mem_erase]
          by_cases same : other = mid
          · subst same
            simp [below]
          · simp [same]
        by_cases others : reserved.erase mid ≠ ∅
        · rw [if_pos others]
          refine ⟨{ valid with
            reserved_above := ?_
            reserved_nonempty := by simpa using others }, usedErase⟩
          have above := valid.reserved_above
          rw [held, Option.getD_some] at above
          exact (Finset.erase_subset _ _).trans above
        · rw [if_neg others]
          simp only [ne_eq, not_not] at others
          rw [others, Finset.union_empty] at usedErase
          by_cases full : pool.freeCount = pool.next - 1
          · rw [if_pos full]
            exact ⟨valid_clear, by rw [used_clear, ← usedErase, all_freed valid full]⟩
          · rw [if_neg full]
            refine ⟨{ valid with reserved_above := by simp, reserved_nonempty := by simp }, ?_⟩
            rw [← usedErase]
            simp [used, freed]
      · simp only [member, not_false_eq_true, ↓reduceIte]
        refine ⟨valid, absent ?_⟩
        rw [mem_used]
        simp [held, below, member]

end PoolState

/-- An allocator in a state its operations can reach. -/
structure PacketIdPool where
  state : PoolState
  valid : state.Valid

namespace PacketIdPool

variable (pool : PacketIdPool)

/-- The identifiers in use. -/
def used : Finset Nat := pool.state.used

def inUse (mid : Nat) : Bool := pool.state.inUse mid

def allocate (choice : Nat) : Except Failure Nat × PacketIdPool :=
  ((pool.state.allocate choice).1,
    ⟨(pool.state.allocate choice).2, (PoolState.allocate_spec pool.valid rfl).1⟩)

def reserve (mid : Nat) : Except Failure PacketIdPool :=
  if inside : 1 ≤ mid ∧ mid ≤ maxPacketId then
    match reserved : pool.state.reserve mid with
    | .ok state =>
      .ok ⟨state, by
        obtain ⟨after, done, valid, _⟩ := PoolState.reserve_spec pool.valid inside.1 inside.2
        rw [reserved, Except.ok.injEq] at done
        exact done ▸ valid⟩
    | .error failure => .error failure
  else .error (.value s!"Invalid packet id {mid}")

def release (mid : Nat) : PacketIdPool :=
  ⟨pool.state.release mid, (PoolState.release_spec pool.valid mid).1⟩

def clear : PacketIdPool := ⟨.clear, PoolState.valid_clear⟩

variable {pool}

theorem inUse_iff (mid : Nat) : pool.inUse mid = true ↔ mid ∈ pool.used :=
  PoolState.inUse_iff pool.valid mid

theorem used_range {mid : Nat} (member : mid ∈ pool.used) : 1 ≤ mid ∧ mid ≤ maxPacketId := by
  have high := pool.valid.next_le
  have low := pool.valid.next_pos
  rcases PoolState.mem_used.mp member with ⟨above, below, _⟩ | reserved
  · omega
  · have inside := Finset.mem_Ico.mp (pool.valid.reserved_above reserved)
    omega

theorem used_allocate {choice mid : Nat} {after : PacketIdPool}
    (done : pool.allocate choice = (.ok mid, after)) :
    mid ∉ pool.used ∧ 1 ≤ mid ∧ mid ≤ maxPacketId ∧ after.used = insert mid pool.used := by
  simp only [allocate, Prod.mk.injEq] at done
  obtain ⟨answer, rfl⟩ := done
  exact (PoolState.allocate_spec pool.valid (Prod.ext answer rfl)).2

theorem used_allocate_error {choice : Nat} {failure : Failure} {after : PacketIdPool}
    (done : pool.allocate choice = (.error failure, after)) :
    failure = .flowControl "No free MQTT packet identifiers" ∧ after.used = pool.used := by
  simp only [allocate, Prod.mk.injEq] at done
  obtain ⟨answer, rfl⟩ := done
  exact (PoolState.allocate_spec pool.valid (Prod.ext answer rfl)).2

theorem used_reserve {mid : Nat} (low : 1 ≤ mid) (high : mid ≤ maxPacketId) :
    ∃ after, pool.reserve mid = .ok after ∧ after.used = insert mid pool.used := by
  obtain ⟨state, done, valid, grown⟩ := PoolState.reserve_spec pool.valid low high
  refine ⟨⟨state, valid⟩, ?_, grown⟩
  unfold reserve
  rw [dif_pos ⟨low, high⟩]
  split
  · next reserved =>
    rw [done, Except.ok.injEq] at reserved
    simp [reserved]
  · next reserved => simp [done] at reserved

@[simp] theorem used_release (mid : Nat) : (pool.release mid).used = pool.used.erase mid :=
  (PoolState.release_spec pool.valid mid).2

@[simp] theorem used_clear : clear.used = ∅ := PoolState.used_clear

end PacketIdPool

end Mqttium.Protocol
