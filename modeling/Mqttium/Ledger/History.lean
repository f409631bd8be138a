import Mqttium.Ledger.Accounts

/-! What the log of a ledger says: the send quota, the phases of an exchange and
its DUP flag, and the terminal reports. -/

namespace Mqttium

open Library

/-- Every event of the log meets a condition on the events before it. -/
def Always (condition : List Event → Event → Prop) (log : List Event) : Prop :=
  ∀ before event after, log = before ++ event :: after → condition before event

theorem always_nil {condition : List Event → Event → Prop} : Always condition [] := by
  intro before event after split
  simp at split

theorem always_append {condition : List Event → Event → Prop} {log : List Event} {event : Event}
    (past : Always condition log) (last : condition log event) :
    Always condition (log ++ [event]) := by
  intro before found after split
  rcases List.eq_nil_or_concat after with rfl | ⟨middle, final, rfl⟩
  · obtain ⟨rfl, single⟩ := List.append_inj' split rfl
    cases single
    exact last
  · have shorter : log = before ++ found :: middle := by
      have longer : log ++ [event] = (before ++ found :: middle) ++ [final] := by simpa using split
      exact (List.append_inj' longer rfl).1
    exact past before found middle shorter

/-- The events that neither start nor end a publication. -/
def Event.passing : Event → Bool
  | .session _ _ | .sent _ _ | .advanced _ | .answered _ => true
  | _ => false

/-- DUP says whether the PUBLISH already left within this broker session. -/
def dupExact (before : List Event) (event : Event) : Prop :=
  ∀ seq dup, event = .sent seq (.publish dup) →
    (dup = true ↔ seq ∈ (observe before).sessionSent)

/-- After a successful PUBREC only PUBREL leaves. -/
def releasedOnly (before : List Event) (event : Event) : Prop :=
  ∀ seq packet, event = .sent seq packet → .advanced seq ∈ before → packet = .pubrel

/-- A publication of this identifier, admitted here or found in the store. -/
def owns (log : List Event) (seq mid : Nat) : Prop :=
  .admitted seq mid ∈ log ∨ ∃ sent, .recovered seq mid sent ∈ log

@[simp] theorem owns_admitted {log : List Event} {seq mid last given : Nat} :
    owns (log ++ [.admitted last given]) seq mid ↔
      owns log seq mid ∨ (seq = last ∧ mid = given) := by
  simp [owns, or_right_comm]

@[simp] theorem owns_recovered {log : List Event} {seq mid last given : Nat} {sent : Bool} :
    owns (log ++ [.recovered last given sent]) seq mid ↔
      owns log seq mid ∨ (seq = last ∧ mid = given) := by
  simp [owns, exists_or, or_assoc]

/-- An identifier is given out again only when its earlier owners were reported or
sealed. -/
def reusedAfterReport (before : List Event) (event : Event) : Prop :=
  ∀ seq mid, event = .admitted seq mid → ∀ other, owns before other mid →
    .reported other ∈ before ∨ .sealed other ∈ before

namespace Ledger

def seqOf (ledger : Ledger) (mid : Nat) : Option Nat := (ledger.rows.get? mid).map Entry.seq

/-- A row with this number is stored. -/
def hasSeq (rows : Dict Nat Entry) (seq : Nat) : Prop :=
  ∃ mid entry, rows.get? mid = some entry ∧ entry.seq = seq

/-- The slots are owned by what this connection published and has not seen answered. -/
structure Quota (ledger : Ledger) : Prop where
  held : (observe ledger.log).intact = true → ∀ mid entry, ledger.rows.get? mid = some entry →
    (mid ∈ ledger.holders ↔ entry.seq ∈ (observe ledger.log).published)
  stored : (observe ledger.log).intact = true → ∀ seq ∈ (observe ledger.log).published,
    seq ∈ (observe ledger.log).answered ∨ hasSeq ledger.rows seq
  answered : ∀ mid entry, ledger.rows.get? mid = some entry →
    entry.seq ∉ (observe ledger.log).answered
  answeredKnown : ∀ seq ∈ (observe ledger.log).answered, seq ≤ ledger.lastSeq
  publishedKnown : ∀ seq ∈ (observe ledger.log).published, seq ≤ ledger.lastSeq
  fits : (observe ledger.log).intact = true →
    Fits ledger.cap (observe ledger.log).receiveMaximum ledger.limit

section

variable {ledger : Ledger} {mid : Nat} {entry : Entry}

attribute [local simp] Observer.see

@[grind =] theorem hasSeq_insert {rows : Dict Nat Entry} (absent : rows.get? mid = none)
    (seq : Nat) : hasSeq (rows.insert mid entry) seq ↔ hasSeq rows seq ∨ entry.seq = seq := by
  constructor
  · rintro ⟨other, stored, found, same⟩
    rw [Dict.get?_insert] at found
    split at found
    · cases found
      exact .inr same
    · exact .inl ⟨other, stored, found, same⟩
  · rintro (⟨other, stored, found, same⟩ | same)
    · have different : other ≠ mid := by
        rintro rfl
        simp [absent] at found
      exact ⟨other, stored, (Dict.get?_insert_of_ne _ different).trans found, same⟩
    · exact ⟨mid, entry, Dict.get?_insert_self _ _ _, same⟩

@[simp] theorem hasSeq_modify {rows : Dict Nat Entry} (state : OutboundQoSState) (seq : Nat) :
    hasSeq (rows.modify mid fun entry => { entry with state }) seq ↔ hasSeq rows seq := by
  constructor
  · rintro ⟨other, stored, found, same⟩
    rw [Dict.get?_modify] at found
    split at found
    · obtain ⟨old, present, rfl⟩ := Option.map_eq_some_iff.mp found
      exact ⟨mid, old, present, same⟩
    · exact ⟨other, stored, found, same⟩
  · rintro ⟨other, stored, found, same⟩
    by_cases here : other = mid
    · subst here
      exact ⟨other, { stored with state }, by simp [Dict.get?_modify, found], same⟩
    · exact ⟨other, stored, by simp [Dict.get?_modify, here, found], same⟩

theorem hasSeq_erase {rows : Dict Nat Entry} {seq : Nat} (present : hasSeq rows seq)
    (found : rows.get? mid = some entry) (different : seq ≠ entry.seq) :
    hasSeq (rows.erase mid) seq := by
  obtain ⟨other, stored, member, same⟩ := present
  refine ⟨other, stored, ?_, same⟩
  rw [Dict.get?_erase_of_ne, member]
  rintro rfl
  cases found.symm.trans member
  exact different same.symm

theorem observe_recovered {held : Bool} (ready : Recoverable ledger mid entry held) :
    (observe ledger.log).intact = false ∧ (observe ledger.log).published = [] ∧
      (observe ledger.log).answered = [] ∧
      ∀ seq ∈ (observe ledger.log).sessionSent, seq < entry.seq := by
  have early := ready.early
  generalize ledger.log = log at early ⊢
  induction log using List.reverseRecOn with
  | nil => simp
  | append_singleton log event ih =>
    obtain ⟨seq, other, sent, rfl, before⟩ := early event (by simp)
    obtain ⟨intact, published, answered, older⟩ :=
      ih fun event member => early event (List.mem_append_left _ member)
    cases sent with
    | false => simpa [Observer.see] using ⟨intact, published, answered, older⟩
    | true =>
      simp only [observe_append, Observer.see, List.mem_append, List.mem_singleton]
      refine ⟨intact, published, answered, ?_⟩
      rintro other (member | rfl)
      · exact older other member
      · exact before

/-! The send quota -/

theorem Quota.admitQueued (quota : Quota ledger) (valid : Accounts ledger) {size : Nat}
    (free : mid ∉ ledger.used) : Quota (ledger.admitQueued mid size) := by
  have absent := valid.absent free
  have holders := valid.heldRow mid
  obtain ⟨held, stored, answered, answeredKnown, publishedKnown, fits⟩ := quota
  constructor <;>
  · simp only [Ledger.admitQueued, Ledger.store, observe_append, Observer.see] at *
    grind -ring -linarith

theorem Quota.admitLaunched (quota : Quota ledger) (valid : Accounts ledger) {size : Nat}
    {target : OutboundQoSState} (ready : Launchable ledger mid size target) :
    Quota (ledger.admitLaunched mid size target) := by
  have absent := valid.absent ready.free
  have numbered := valid.numbered
  obtain ⟨held, stored, answered, answeredKnown, publishedKnown, fits⟩ := quota
  constructor <;>
  · simp only [Ledger.admitLaunched, acquire, Ledger.note, Ledger.store, observe_append,
      Observer.see] at *
    grind -ring -linarith

theorem Quota.launch (quota : Quota ledger) (valid : Accounts ledger) {target : OutboundQoSState}
    (found : ledger.rows.get? mid = some entry) : Quota (ledger.launch mid entry target) := by
  have numbered := valid.numbered
  have injective := @valid.seq_injective
  have here : hasSeq ledger.rows entry.seq := ⟨mid, entry, found, rfl⟩
  obtain ⟨held, stored, answered, answeredKnown, publishedKnown, fits⟩ := quota
  constructor <;>
  · simp only [Ledger.launch, acquire, Ledger.note, setState, unqueue, observe_append,
      Observer.see, hasSeq_modify] at *
    grind -ring -linarith

theorem Quota.resend (quota : Quota ledger) (valid : Accounts ledger)
    (found : ledger.rows.get? mid = some entry) : Quota (ledger.resend mid entry) := by
  have numbered := valid.numbered
  have injective := @valid.seq_injective
  have here : hasSeq ledger.rows entry.seq := ⟨mid, entry, found, rfl⟩
  obtain ⟨held, stored, answered, answeredKnown, publishedKnown, fits⟩ := quota
  constructor <;>
  · simp only [Ledger.resend, acquire, Ledger.note, unqueue, observe_append, Observer.see] at *
    grind -ring -linarith

theorem Quota.drop (quota : Quota ledger) (found : ledger.rows.get? mid = some entry)
    (idle : mid ∉ ledger.holders) : Quota (ledger.drop mid entry) := by
  obtain ⟨held, stored, answered, answeredKnown, publishedKnown, fits⟩ := quota
  constructor
  case stored =>
    intro intact seq published
    simp only [Ledger.drop, Ledger.note, unqueue, refund, forget, observe_append,
      Observer.see] at intact published ⊢
    rcases stored intact seq published with settled | present
    · exact .inl settled
    · refine .inr (hasSeq_erase present found ?_)
      rintro rfl
      exact idle ((held intact mid entry found).mpr published)
  all_goals
    simp only [Ledger.drop, Ledger.note, unqueue, refund, forget, observe_append, Observer.see] at *
    grind -ring -linarith

theorem Quota.settle (quota : Quota ledger) (valid : Accounts ledger)
    (found : ledger.rows.get? mid = some entry) : Quota (ledger.settle mid entry) := by
  have numbered := valid.numbered
  have injective := @valid.seq_injective
  obtain ⟨held, stored, answered, answeredKnown, publishedKnown, fits⟩ := quota
  constructor
  case stored =>
    intro intact seq published
    simp only [Ledger.settle, Ledger.note, releaseSlot, unqueue, refund, forget, observe_append,
      Observer.see, List.mem_append, List.mem_singleton] at intact published ⊢
    by_cases same : seq = entry.seq
    · exact .inl (.inr same)
    · rcases stored intact seq published with settled | present
      · exact .inl (.inl settled)
      · exact .inr (hasSeq_erase present found same)
  all_goals
    simp only [Ledger.settle, Ledger.note, releaseSlot, unqueue, refund, forget, observe_append,
      Observer.see] at *
    grind -ring -linarith

theorem Quota.dropSealed (quota : Quota ledger) (valid : Accounts ledger)
    (dead : ledger.isSealed mid = true) : Quota (ledger.dropSealed mid) := by
  obtain ⟨entry, found⟩ := valid.sealed_row dead
  have idle : mid ∉ ledger.holders := by
    intro holder
    have live := (valid.heldRow mid holder).1
    simp [dead] at live
  obtain ⟨held, stored, answered, answeredKnown, publishedKnown, fits⟩ := quota
  constructor
  case stored =>
    intro intact seq published
    simp only [Ledger.dropSealed, clearSeal, forget] at intact published ⊢
    rcases stored intact seq published with settled | present
    · exact .inl settled
    · refine .inr (hasSeq_erase present found ?_)
      rintro rfl
      exact idle ((held intact mid entry found).mpr published)
  all_goals
    simp only [Ledger.dropSealed, clearSeal, forget] at *
    grind -ring -linarith

theorem Quota.settleSealed (quota : Quota ledger) (valid : Accounts ledger)
    (found : ledger.rows.get? mid = some entry) (dead : ledger.isSealed mid = true) :
    Quota (ledger.settleSealed mid entry) := by
  have numbered := valid.numbered
  have injective := @valid.seq_injective
  obtain ⟨held, stored, answered, answeredKnown, publishedKnown, fits⟩ := quota.dropSealed valid dead
  constructor <;>
  · simp only [Ledger.settleSealed, Ledger.dropSealed, Ledger.note, clearSeal, forget,
      observe_append, Observer.see] at *
    grind -ring -linarith

theorem Quota.advance (quota : Quota ledger) (found : ledger.rows.get? mid = some entry) :
    Quota (ledger.advance mid entry) := by
  obtain ⟨held, stored, answered, answeredKnown, publishedKnown, fits⟩ := quota
  constructor <;>
  · simp only [Ledger.advance, Ledger.note, setState, unqueue, observe_append, Observer.see,
      hasSeq_modify] at *
    grind -ring -linarith

theorem Quota.release (quota : Quota ledger) (seq : Nat) :
    Quota (ledger.note (.sent seq .pubrel)) := by
  obtain ⟨held, stored, answered, answeredKnown, publishedKnown, fits⟩ := quota
  constructor <;> simpa only [Ledger.note, observe_append, Observer.see]

theorem Quota.sealRow (quota : Quota ledger) : Quota (ledger.sealRow mid entry) := by
  obtain ⟨held, stored, answered, answeredKnown, publishedKnown, fits⟩ := quota
  constructor <;>
  · simp only [Ledger.sealRow, Ledger.note, releaseSlot, unqueue, refund, observe_append,
      Observer.see] at *
    grind -ring -linarith

theorem Quota.resume {receiveMaximum limit : Nat} (fits : Fits ledger.cap receiveMaximum limit) :
    Quota (ledger.resume receiveMaximum limit) := by
  constructor <;> simp [Ledger.resume, Observer.see, fits]

theorem Quota.restart {receiveMaximum limit : Nat} (fits : Fits ledger.cap receiveMaximum limit) :
    Quota (ledger.restart receiveMaximum limit) := by
  constructor <;> simp [Ledger.restart, Observer.see, fits]

theorem Quota.recover {held : Bool} (ready : Recoverable ledger mid entry held) :
    Quota (ledger.recover mid entry held) := by
  obtain ⟨broken, published, answered, _⟩ := observe_recovered ready
  constructor <;> simp only [Ledger.recover, observe_append] <;>
    cases sent : decide (entry.state ≠ .queued) <;> simp [Observer.see, broken, published, answered]

/-! Phases and DUP -/

structure Phases (ledger : Ledger) : Prop where
  fresh : ∀ mid entry, ledger.rows.get? mid = some entry → entry.state = .queued →
    entry.seq ∉ (observe ledger.log).sessionSent
  sent : ledger.settling = false → ∀ mid entry, ledger.rows.get? mid = some entry →
    ledger.isSealed mid = false → entry.state.waiting = true →
    entry.seq ∈ (observe ledger.log).sessionSent
  known : ∀ seq ∈ (observe ledger.log).sessionSent, seq ≤ ledger.lastSeq
  advanced : ∀ mid entry, ledger.rows.get? mid = some entry → .advanced entry.seq ∈ ledger.log →
    entry.state = .waitPubcomp
  advancedKnown : ∀ seq, .advanced seq ∈ ledger.log → seq ≤ ledger.lastSeq
  dup : Always dupExact ledger.log
  released : Always releasedOnly ledger.log

theorem phases_append (event : Event) (quiet : ∀ seq packet, event ≠ .sent seq packet)
    (log : List Event) : dupExact log event ∧ releasedOnly log event :=
  ⟨fun seq _ same => absurd same (quiet seq _), fun seq packet same _ => absurd same (quiet seq packet)⟩

theorem Phases.admitQueued (phases : Phases ledger) (valid : Accounts ledger) {size : Nat}
    (free : mid ∉ ledger.used) : Phases (ledger.admitQueued mid size) := by
  have absent := valid.absent free
  have numbered := valid.numbered
  have quiet := phases_append (.admitted (ledger.lastSeq + 1) mid) (by simp) ledger.log
  obtain ⟨fresh, sent, known, advanced, advancedKnown, dup, released⟩ := phases
  constructor
  case dup => exact always_append dup quiet.1
  case released => exact always_append released quiet.2
  all_goals
    simp only [Ledger.admitQueued, Ledger.store, observe_append, Observer.see, isSealed, List.mem_append,
      List.mem_singleton, reduceCtorEq, or_false] at *
    grind -ring -linarith [OutboundQoSState.waiting]

theorem Phases.publish (phases : Phases ledger) (seq : Nat) (dup : Bool)
    (dupRight : dup = true ↔ seq ∈ (observe ledger.log).sessionSent)
    (pending : .advanced seq ∉ ledger.log) :
    Always dupExact (ledger.log ++ [.sent seq (.publish dup)]) ∧
      Always releasedOnly (ledger.log ++ [.sent seq (.publish dup)]) := by
  constructor
  · apply always_append phases.dup
    rintro _ _ ⟨rfl, rfl⟩
    exact dupRight
  · apply always_append phases.released
    rintro _ _ ⟨rfl, rfl⟩ advanced
    exact absurd advanced pending

theorem Phases.launch (phases : Phases ledger) (valid : Accounts ledger)
    {target : OutboundQoSState} (found : ledger.rows.get? mid = some entry)
    (queued : entry.state = .queued) (waits : target.waiting = true) :
    Phases (ledger.launch mid entry target) := by
  have numbered := valid.numbered
  have injective := @valid.seq_injective
  have unsent := phases.fresh mid entry found queued
  have opened : .advanced entry.seq ∉ ledger.log := by
    intro advanced
    simp [phases.advanced mid entry found advanced] at queued
  have left := phases.publish entry.seq false (by simpa using unsent) opened
  obtain ⟨fresh, sent, known, advanced, advancedKnown, dup, released⟩ := phases
  constructor
  case dup => exact left.1
  case released => exact left.2
  all_goals
    simp only [Ledger.launch, acquire, Ledger.note, setState, unqueue, observe_append, Observer.see,
      isSealed, List.mem_append, List.mem_singleton, reduceCtorEq, or_false] at *
    grind -ring -linarith [OutboundQoSState.waiting]

theorem Phases.admitLaunched (phases : Phases ledger) (valid : Accounts ledger) {size : Nat}
    {target : OutboundQoSState} (ready : Launchable ledger mid size target) :
    Phases (ledger.admitLaunched mid size target) := by
  have absent := valid.absent ready.free
  have numbered := valid.numbered
  have waits := ready.waits
  have quiet := phases_append (.admitted (ledger.lastSeq + 1) mid) (by simp) ledger.log
  obtain ⟨fresh, sent, known, advanced, advancedKnown, dup, released⟩ := phases
  constructor
  case dup =>
    apply always_append (always_append dup quiet.1)
    rintro seq dup ⟨rfl, rfl⟩
    simp only [observe_append, Observer.see, Bool.false_eq_true, false_iff]
    intro sentBefore
    have := known _ sentBefore
    omega
  case released =>
    apply always_append (always_append released quiet.2)
    rintro seq packet ⟨rfl, rfl⟩ before
    have := advancedKnown (ledger.lastSeq + 1)
      (by simpa [Ledger.acquire, Ledger.store] using before)
    omega
  all_goals
    simp only [Ledger.admitLaunched, acquire, Ledger.note, Ledger.store, observe_append,
      Observer.see, isSealed, List.mem_append, List.mem_singleton, reduceCtorEq, or_false] at *
    grind -ring -linarith [OutboundQoSState.waiting]

theorem Phases.resend (phases : Phases ledger) (valid : Accounts ledger)
    (parked : mid ∈ ledger.parked) (found : ledger.rows.get? mid = some entry)
    (calm : ledger.settling = false) : Phases (ledger.resend mid entry) := by
  have numbered := valid.numbered
  have injective := @valid.seq_injective
  obtain ⟨live, state⟩ := valid.parkedRow mid parked
  simp only [stateOf, found, Option.map_some, Option.some.injEq] at state
  have waits : entry.state.waiting = true := by rcases state with same | same <;> simp [same, OutboundQoSState.waiting]
  have opened : .advanced entry.seq ∉ ledger.log := by
    intro advanced
    simp [phases.advanced mid entry found advanced] at state
  have left := phases.publish entry.seq true
    (by simpa using phases.sent calm mid entry found live waits) opened
  obtain ⟨fresh, sent, known, advanced, advancedKnown, dup, released⟩ := phases
  constructor
  case dup => exact left.1
  case released => exact left.2
  all_goals
    simp only [Ledger.resend, acquire, Ledger.note, unqueue, observe_append, Observer.see, isSealed,
      List.mem_append, List.mem_singleton, reduceCtorEq, or_false] at *
    grind -ring -linarith [OutboundQoSState.waiting]

theorem Phases.drop (phases : Phases ledger) : Phases (ledger.drop mid entry) := by
  have quiet := phases_append (.reported entry.seq) (by simp) ledger.log
  obtain ⟨fresh, sent, known, advanced, advancedKnown, dup, released⟩ := phases
  constructor
  case dup => exact always_append dup quiet.1
  case released => exact always_append released quiet.2
  all_goals
    simp only [Ledger.drop, Ledger.note, unqueue, refund, forget, observe_append, Observer.see,
      isSealed, List.mem_append, List.mem_singleton, reduceCtorEq, or_false] at *
    grind -ring -linarith

theorem Phases.answer (phases : Phases ledger) (seq : Nat) :
    Phases (ledger.note (.answered seq)) := by
  have quiet := phases_append (.answered seq) (by simp) ledger.log
  obtain ⟨fresh, sent, known, advanced, advancedKnown, dup, released⟩ := phases
  constructor
  case dup => exact always_append dup quiet.1
  case released => exact always_append released quiet.2
  all_goals
    simpa only [Ledger.note, observe_append, Observer.see, isSealed, List.mem_append,
      List.mem_singleton, reduceCtorEq, or_false]

theorem Phases.dropSealed (phases : Phases ledger) : Phases (ledger.dropSealed mid) := by
  obtain ⟨fresh, sent, known, advanced, advancedKnown, dup, released⟩ := phases
  constructor
  case dup => exact dup
  case released => exact released
  all_goals
    simp only [Ledger.dropSealed, clearSeal, forget, isSealed, Dict.contains] at *
    grind -ring -linarith

theorem Phases.settle (phases : Phases ledger) : Phases (ledger.settle mid entry) := by
  have dropped : Phases ((ledger.note (.answered entry.seq)).drop mid entry) :=
    (phases.answer entry.seq).drop
  exact ⟨dropped.fresh, dropped.sent, dropped.known, dropped.advanced, dropped.advancedKnown,
    dropped.dup, dropped.released⟩

theorem Phases.settleSealed (phases : Phases ledger) : Phases (ledger.settleSealed mid entry) := by
  have quiet := phases_append (.reported entry.seq) (by simp)
    (ledger.log ++ [.answered entry.seq])
  have buried : Phases ((ledger.note (.answered entry.seq)).dropSealed mid) :=
    (phases.answer entry.seq).dropSealed
  obtain ⟨fresh, sent, known, advanced, advancedKnown, dup, released⟩ := buried
  constructor
  case dup => exact always_append dup quiet.1
  case released => exact always_append released quiet.2
  all_goals
    simp only [Ledger.settleSealed, Ledger.dropSealed, Ledger.note, clearSeal, forget, isSealed,
      observe_append, Observer.see, List.mem_append, List.mem_singleton, reduceCtorEq,
      or_false] at *
    assumption

theorem Phases.pubrel (phases : Phases ledger) (seq : Nat) :
    Phases (ledger.note (.sent seq .pubrel)) := by
  obtain ⟨fresh, sent, known, advanced, advancedKnown, dup, released⟩ := phases
  constructor
  case dup =>
    apply always_append dup
    rintro _ _ same
    cases same
  case released =>
    apply always_append released
    rintro _ _ ⟨rfl, rfl⟩ _
    rfl
  all_goals
    simpa only [Ledger.note, observe_append, Observer.see, isSealed, List.mem_append,
      List.mem_singleton, reduceCtorEq, or_false]

theorem Phases.advance (phases : Phases ledger) (valid : Accounts ledger)
    (found : ledger.rows.get? mid = some entry) : Phases (ledger.advance mid entry) := by
  have numbered := valid.numbered
  have injective := @valid.seq_injective
  have quiet := phases_append (.advanced entry.seq) (by simp) ledger.log
  obtain ⟨fresh, sent, known, advanced, advancedKnown, dup, released⟩ := phases
  constructor
  case dup =>
    apply always_append (always_append dup quiet.1)
    rintro _ _ same
    cases same
  case released =>
    apply always_append (always_append released quiet.2)
    rintro _ _ ⟨rfl, rfl⟩ _
    rfl
  all_goals
    simp only [Ledger.advance, Ledger.note, setState, unqueue, observe_append, Observer.see,
      isSealed, List.mem_append, List.mem_singleton, reduceCtorEq, or_false,
      Event.advanced.injEq] at *
    grind -ring -linarith [OutboundQoSState.waiting]

theorem Phases.sealRow (phases : Phases ledger) : Phases (ledger.sealRow mid entry) := by
  have quiet := phases_append (.sealed entry.seq) (by simp) ledger.log
  obtain ⟨fresh, sent, known, advanced, advancedKnown, dup, released⟩ := phases
  constructor
  case dup => exact always_append dup quiet.1
  case released => exact always_append released quiet.2
  all_goals
    simp only [Ledger.sealRow, Ledger.note, releaseSlot, unqueue, refund, observe_append,
      Observer.see, isSealed, Dict.contains, List.mem_append, List.mem_singleton, reduceCtorEq,
      or_false] at *
    grind -ring -linarith

theorem Phases.resume (phases : Phases ledger) (receiveMaximum limit : Nat) :
    Phases (ledger.resume receiveMaximum limit) := by
  have quiet := phases_append (.session true receiveMaximum) (by simp) ledger.log
  obtain ⟨fresh, sent, known, advanced, advancedKnown, dup, released⟩ := phases
  constructor
  case dup => exact always_append dup quiet.1
  case released => exact always_append released quiet.2
  all_goals
    simpa only [Ledger.resume, observe_append, Observer.see, isSealed, ↓reduceIte, List.mem_append,
      List.mem_singleton, reduceCtorEq, or_false]

theorem Phases.restart (phases : Phases ledger) (receiveMaximum limit : Nat) :
    Phases (ledger.restart receiveMaximum limit) := by
  have quiet := phases_append (.session false receiveMaximum) (by simp) ledger.log
  obtain ⟨fresh, sent, known, advanced, advancedKnown, dup, released⟩ := phases
  constructor
  case dup => exact always_append dup quiet.1
  case released => exact always_append released quiet.2
  case advanced =>
    intro mid entry found
    obtain ⟨stored, member, rfl⟩ := Option.map_eq_some_iff.mp ((restart_row _ _).symm.trans found)
    simp only [Ledger.restart, List.mem_append, List.mem_singleton, reduceCtorEq, or_false,
      requeue_seq]
    intro before
    have final := advanced mid stored member before
    simp [requeue, final]
  all_goals
    simp only [Ledger.restart, observe_append, Observer.see, Bool.false_eq_true, ↓reduceIte,
      List.mem_append, List.mem_singleton, reduceCtorEq, or_false]
    grind -ring -linarith

theorem Phases.recover (phases : Phases ledger) (valid : Accounts ledger) {held : Bool}
    (ready : Recoverable ledger mid entry held) : Phases (ledger.recover mid entry held) := by
  have absent := valid.absent ready.free
  have later := ready.later
  have bound := ready.known
  have quiet := phases_append
    (.recovered entry.seq mid (decide (entry.state ≠ .queued))) (by simp) ledger.log
  obtain ⟨_, _, _, older⟩ := observe_recovered ready
  have unadvanced : ∀ seq, .advanced seq ∉ ledger.log := by
    intro seq member
    obtain ⟨_, _, _, same, _⟩ := ready.early _ member
    cases same
  obtain ⟨fresh, sent, known, advanced, advancedKnown, dup, released⟩ := phases
  constructor
  case dup => exact always_append dup quiet.1
  case released => exact always_append released quiet.2
  all_goals
    by_cases queued : entry.state = .queued <;>
    · simp only [Ledger.recover, queued, ne_eq, not_true_eq_false, not_false_eq_true, decide_true,
        decide_false, observe_append, Observer.see, isSealed, List.mem_append, List.mem_singleton,
        reduceCtorEq, or_false] at sent ⊢
      grind -ring -linarith [OutboundQoSState.waiting]

/-! Terminal reports -/

structure Reports (ledger : Ledger) : Prop where
  once : ∀ seq, ledger.log.count (.reported seq) ≤ 1
  gone : ∀ mid entry, ledger.rows.get? mid = some entry → .reported entry.seq ∉ ledger.log
  known : ∀ seq, .reported seq ∈ ledger.log → seq ≤ ledger.lastSeq
  origin : ∀ mid entry, ledger.rows.get? mid = some entry → owns ledger.log entry.seq mid
  ownKnown : ∀ seq mid, owns ledger.log seq mid → seq ≤ ledger.lastSeq
  kept : ∀ seq mid, owns ledger.log seq mid → ledger.seqOf mid = some seq ∨
    .reported seq ∈ ledger.log ∨ .sealed seq ∈ ledger.log
  sealedRow : ∀ mid entry, ledger.rows.get? mid = some entry →
    (ledger.isSealed mid = true ↔ .sealed entry.seq ∈ ledger.log)
  sealedKnown : ∀ seq, .sealed seq ∈ ledger.log → seq ≤ ledger.lastSeq
  reuse : Always reusedAfterReport ledger.log

private theorem reports_append {event : Event} (log : List Event)
    (quiet : ∀ seq mid, event ≠ .admitted seq mid) : reusedAfterReport log event :=
  fun seq mid same => absurd same (quiet seq mid)

private theorem count_append {log : List Event} {event : Event} (quiet : ∀ seq, event ≠ .reported seq)
    (once : ∀ seq, log.count (.reported seq) ≤ 1) (seq : Nat) :
    (log ++ [event]).count (.reported seq) ≤ 1 := by
  rw [List.count_append, List.count_singleton, if_neg (by simpa using quiet seq)]
  exact once seq

private theorem count_report {log : List Event} {seq : Nat} (new : Event.reported seq ∉ log)
    (once : ∀ seq, log.count (.reported seq) ≤ 1) (other : Nat) :
    (log ++ [Event.reported seq]).count (Event.reported other) ≤ 1 := by
  rw [List.count_append, List.count_singleton]
  by_cases same : seq = other
  · subst same
    simp [List.count_eq_zero_of_not_mem new]
  · have different : (Event.reported seq == Event.reported other) = false := by simpa using same
    simpa [different] using once other

theorem Reports.passing (reports : Reports ledger) (event : Event) (calm : event.passing = true) :
    Reports (ledger.note event) := by
  have reported : ∀ seq, .reported seq ∈ ledger.log ++ [event] ↔ .reported seq ∈ ledger.log := by
    cases event <;> simp_all [Event.passing]
  have dead : ∀ seq, .sealed seq ∈ ledger.log ++ [event] ↔ .sealed seq ∈ ledger.log := by
    cases event <;> simp_all [Event.passing]
  have owned : ∀ seq mid, owns (ledger.log ++ [event]) seq mid ↔ owns ledger.log seq mid := by
    cases event <;> simp_all [Event.passing, owns]
  obtain ⟨once, gone, known, origin, ownKnown, kept, sealedRow, sealedKnown, reuse⟩ := reports
  constructor
  case once => exact count_append (by rintro seq rfl; simp [Event.passing] at calm) once
  case reuse =>
    exact always_append reuse (reports_append _ (by rintro seq mid rfl; simp [Event.passing] at calm))
  all_goals
    simp only [Ledger.note, reported, dead, owned]
    assumption

theorem Reports.store (reports : Reports ledger) (valid : Accounts ledger)
    (state : OutboundQoSState) (size : Nat) (free : mid ∉ ledger.used) :
    Reports (ledger.store mid state size) := by
  have absent := valid.absent free
  have live := valid.row_live absent
  have numbered := valid.numbered
  obtain ⟨once, gone, known, origin, ownKnown, kept, sealedRow, sealedKnown, reuse⟩ := reports
  constructor
  case once => exact count_append (by simp) once
  case reuse =>
    apply always_append reuse
    rintro _ _ ⟨rfl, rfl⟩ other owned
    rcases kept other mid owned with found | settled
    · simp [seqOf, absent] at found
    · exact settled
  all_goals
    simp only [Ledger.store, owns_admitted, seqOf, isSealed, List.mem_append, List.mem_singleton,
      reduceCtorEq, or_false] at *
    grind -ring -linarith

theorem Reports.admitQueued (reports : Reports ledger) (valid : Accounts ledger) {size : Nat}
    (free : mid ∉ ledger.used) : Reports (ledger.admitQueued mid size) := by
  have stored := reports.store valid .queued size free
  exact ⟨stored.once, stored.gone, stored.known, stored.origin, stored.ownKnown, stored.kept,
    stored.sealedRow, stored.sealedKnown, stored.reuse⟩

theorem Reports.admitLaunched (reports : Reports ledger) (valid : Accounts ledger) {size : Nat}
    {target : OutboundQoSState} (free : mid ∉ ledger.used) :
    Reports (ledger.admitLaunched mid size target) := by
  have stored := (reports.store valid target size free).passing
    (.sent (ledger.lastSeq + 1) (.publish false)) rfl
  exact ⟨stored.once, stored.gone, stored.known, stored.origin, stored.ownKnown, stored.kept,
    stored.sealedRow, stored.sealedKnown, stored.reuse⟩

theorem Reports.recover (reports : Reports ledger) (valid : Accounts ledger) {held : Bool}
    (ready : Recoverable ledger mid entry held) : Reports (ledger.recover mid entry held) := by
  have absent := valid.absent ready.free
  have live := valid.row_live absent
  have bound := ready.known
  have unreported : ∀ seq, .reported seq ∉ ledger.log := by
    intro seq member
    obtain ⟨_, _, _, same, _⟩ := ready.early _ member
    cases same
  have unsealed : ∀ seq, .sealed seq ∉ ledger.log := by
    intro seq member
    obtain ⟨_, _, _, same, _⟩ := ready.early _ member
    cases same
  obtain ⟨once, gone, known, origin, ownKnown, kept, sealedRow, sealedKnown, reuse⟩ := reports
  constructor
  case once => exact count_append (by simp) once
  case reuse => exact always_append reuse (reports_append _ (by simp))
  all_goals
    simp only [Ledger.recover, owns_recovered, seqOf, isSealed, List.mem_append, List.mem_singleton,
      reduceCtorEq, or_false] at *
    grind -ring -linarith

theorem Reports.drop (reports : Reports ledger) (valid : Accounts ledger)
    (found : ledger.rows.get? mid = some entry) (live : ledger.isSealed mid = false) :
    Reports (ledger.drop mid entry) := by
  have numbered := valid.numbered
  have injective := @valid.seq_injective
  obtain ⟨once, gone, known, origin, ownKnown, kept, sealedRow, sealedKnown, reuse⟩ := reports
  constructor
  case once => exact count_report (gone mid entry found) once
  case reuse => exact always_append reuse (reports_append _ (by simp))
  all_goals
    simp only [Ledger.drop, Ledger.note, unqueue, refund, forget, owns, seqOf, isSealed,
      List.mem_append, List.mem_singleton, reduceCtorEq, or_false, Event.reported.injEq] at *
    grind -ring -linarith

theorem Reports.settle (reports : Reports ledger) (valid : Accounts ledger)
    (found : ledger.rows.get? mid = some entry) (live : ledger.isSealed mid = false) :
    Reports (ledger.settle mid entry) := by
  have dropped := (reports.passing (.answered entry.seq) rfl).drop
    (valid.note (.answered entry.seq)) found live
  exact ⟨dropped.once, dropped.gone, dropped.known, dropped.origin, dropped.ownKnown, dropped.kept,
    dropped.sealedRow, dropped.sealedKnown, dropped.reuse⟩

theorem Reports.dropSealed (reports : Reports ledger) (valid : Accounts ledger)
    (dead : ledger.isSealed mid = true) : Reports (ledger.dropSealed mid) := by
  obtain ⟨entry, found⟩ := valid.sealed_row dead
  have injective := @valid.seq_injective
  obtain ⟨once, gone, known, origin, ownKnown, kept, sealedRow, sealedKnown, reuse⟩ := reports
  constructor
  case once => exact once
  case reuse => exact reuse
  all_goals
    simp only [Ledger.dropSealed, clearSeal, forget, seqOf, isSealed, Dict.contains] at *
    grind -ring -linarith

theorem Reports.settleSealed (reports : Reports ledger) (valid : Accounts ledger)
    (found : ledger.rows.get? mid = some entry) (dead : ledger.isSealed mid = true) :
    Reports (ledger.settleSealed mid entry) := by
  have numbered := valid.numbered mid entry found
  have injective := @valid.seq_injective
  have unreported := (reports.passing (.answered entry.seq) rfl).gone mid entry found
  obtain ⟨once, gone, known, origin, ownKnown, kept, sealedRow, sealedKnown, reuse⟩ :=
    (reports.passing (.answered entry.seq) rfl).dropSealed
      (valid.note (.answered entry.seq)) dead
  constructor
  case once => exact count_report unreported once
  case reuse => exact always_append reuse (reports_append _ (by simp))
  all_goals
    simp only [Ledger.settleSealed, Ledger.dropSealed, Ledger.note, clearSeal, forget, owns, seqOf,
      isSealed, Dict.contains, List.mem_append, List.mem_singleton, reduceCtorEq, or_false,
      Event.reported.injEq] at *
    grind -ring -linarith

theorem Reports.setState (reports : Reports ledger) (mid : Nat) (state : OutboundQoSState) :
    Reports (ledger.setState mid state) := by
  obtain ⟨once, gone, known, origin, ownKnown, kept, sealedRow, sealedKnown, reuse⟩ := reports
  constructor
  case once => exact once
  case reuse => exact reuse
  all_goals
    simp only [Ledger.setState, seqOf, isSealed] at *
    cases found : ledger.rows.get? mid <;> grind -ring -linarith

theorem Reports.launch (reports : Reports ledger) {target : OutboundQoSState} :
    Reports (ledger.launch mid entry target) := by
  have launched := (reports.setState mid target).passing
    (.sent entry.seq (.publish false)) rfl
  exact ⟨launched.once, launched.gone, launched.known, launched.origin, launched.ownKnown,
    launched.kept, launched.sealedRow, launched.sealedKnown, launched.reuse⟩

theorem Reports.resend (reports : Reports ledger) : Reports (ledger.resend mid entry) := by
  have sent := reports.passing (.sent entry.seq (.publish true)) rfl
  exact ⟨sent.once, sent.gone, sent.known, sent.origin, sent.ownKnown, sent.kept, sent.sealedRow,
    sent.sealedKnown, sent.reuse⟩

theorem Reports.advance (reports : Reports ledger) : Reports (ledger.advance mid entry) := by
  have moved := ((reports.passing (.advanced entry.seq) rfl).setState mid
    .waitPubcomp).passing (.sent entry.seq .pubrel) rfl
  exact ⟨moved.once, moved.gone, moved.known, moved.origin, moved.ownKnown, moved.kept,
    moved.sealedRow, moved.sealedKnown, moved.reuse⟩

theorem Reports.sealRow (reports : Reports ledger) (valid : Accounts ledger)
    (found : ledger.rows.get? mid = some entry) : Reports (ledger.sealRow mid entry) := by
  have numbered := valid.numbered mid entry found
  have injective := @valid.seq_injective
  obtain ⟨once, gone, known, origin, ownKnown, kept, sealedRow, sealedKnown, reuse⟩ := reports
  constructor
  case once => exact count_append (by simp) once
  case reuse => exact always_append reuse (reports_append _ (by simp))
  all_goals
    simp only [Ledger.sealRow, Ledger.note, releaseSlot, unqueue, refund, owns, seqOf, isSealed,
      Dict.contains, List.mem_append, List.mem_singleton, reduceCtorEq, or_false,
      Event.sealed.injEq] at *
    grind -ring -linarith

theorem Reports.resume (reports : Reports ledger) (receiveMaximum limit : Nat) :
    Reports (ledger.resume receiveMaximum limit) := by
  have resumed := reports.passing (.session true receiveMaximum) rfl
  exact ⟨resumed.once, resumed.gone, resumed.known, resumed.origin, resumed.ownKnown, resumed.kept,
    resumed.sealedRow, resumed.sealedKnown, resumed.reuse⟩

theorem Reports.restart (reports : Reports ledger) (receiveMaximum limit : Nat) :
    Reports (ledger.restart receiveMaximum limit) := by
  have numbers : ∀ mid, (ledger.restart receiveMaximum limit).seqOf mid = ledger.seqOf mid := by
    intro mid
    unfold seqOf
    rw [restart_row]
    cases ledger.rows.get? mid <;> simp
  have rows : ∀ mid entry, (ledger.restart receiveMaximum limit).rows.get? mid = some entry →
      ∃ stored, ledger.rows.get? mid = some stored ∧ entry.seq = stored.seq := by
    intro mid entry found
    obtain ⟨stored, member, rfl⟩ := Option.map_eq_some_iff.mp ((restart_row _ _).symm.trans found)
    exact ⟨stored, member, requeue_seq⟩
  obtain ⟨once, gone, known, origin, ownKnown, kept, sealedRow, sealedKnown, reuse⟩ :=
    reports.passing (.session false receiveMaximum) rfl
  constructor
  case once => exact once
  case known => exact known
  case ownKnown => exact ownKnown
  case sealedKnown => exact sealedKnown
  case reuse => exact reuse
  case kept =>
    intro seq mid owned
    rw [numbers]
    exact kept seq mid owned
  all_goals
    intro mid entry found
    obtain ⟨stored, member, same⟩ := rows mid entry found
    rw [same]
  · exact gone mid stored member
  · exact origin mid stored member
  · exact sealedRow mid stored member

end

/-- What the log promises of a ledger with its accounts in order. -/
structure Sound (ledger : Ledger) : Prop where
  accounts : Accounts ledger
  quota : Quota ledger
  phases : Phases ledger
  reports : Reports ledger

namespace Sound

variable {ledger after : Ledger} {mid : Nat}

theorem admitLaunched (sound : Sound ledger) {size : Nat} {target : OutboundQoSState}
    (ready : Launchable ledger mid size target) : Sound (ledger.admitLaunched mid size target) :=
  ⟨sound.accounts.admitLaunched ready, sound.quota.admitLaunched sound.accounts ready,
    sound.phases.admitLaunched sound.accounts ready,
    sound.reports.admitLaunched sound.accounts ready.free⟩

theorem recover (sound : Sound ledger) {entry : Entry} {held : Bool}
    (ready : Recoverable ledger mid entry held) : Sound (ledger.recover mid entry held) :=
  ⟨sound.accounts.recover ready, Quota.recover ready, sound.phases.recover sound.accounts ready,
    sound.reports.recover sound.accounts ready⟩

/-- Changing who owns which identifier changes no history. -/
private theorem identifiers {used subs : Finset Nat} (sound : Sound ledger)
    (accounts : Accounts { ledger with used, subs }) : Sound { ledger with used, subs } := by
  obtain ⟨_, quota, phases, reports⟩ := sound
  exact ⟨accounts,
    ⟨quota.held, quota.stored, quota.answered, quota.answeredKnown, quota.publishedKnown, quota.fits⟩,
    ⟨phases.fresh, phases.sent, phases.known, phases.advanced, phases.advancedKnown, phases.dup,
      phases.released⟩,
    ⟨reports.once, reports.gone, reports.known, reports.origin, reports.ownKnown, reports.kept,
      reports.sealedRow, reports.sealedKnown, reports.reuse⟩⟩

private theorem settled (sound : Sound ledger)
    (clear : ∀ mid entry, ledger.rows.get? mid = some entry → entry.state = .queued) :
    Sound { ledger with settling := false } := by
  obtain ⟨accounts, quota, phases, reports⟩ := sound
  have sent : ∀ mid entry, ledger.rows.get? mid = some entry → ledger.isSealed mid = false →
      entry.state.waiting = true → entry.seq ∈ (observe ledger.log).sessionSent := by
    intro mid entry found _ waits
    simp [clear mid entry found, OutboundQoSState.waiting] at waits
  exact ⟨accounts.settled,
    ⟨quota.held, quota.stored, quota.answered, quota.answeredKnown, quota.publishedKnown, quota.fits⟩,
    ⟨phases.fresh, fun _ => sent, phases.known, phases.advanced, phases.advancedKnown, phases.dup,
      phases.released⟩,
    ⟨reports.once, reports.gone, reports.known, reports.origin, reports.ownKnown, reports.kept,
      reports.sealedRow, reports.sealedKnown, reports.reuse⟩⟩

/-- Every move keeps the ledger sound. -/
theorem move (sound : Sound ledger) (move : Move ledger after) : Sound after := by
  have accounts := sound.accounts.move move
  obtain ⟨valid, quota, phases, reports⟩ := sound
  cases move with
  | admitQueued free _ =>
    exact ⟨accounts, quota.admitQueued valid free, phases.admitQueued valid free, reports.admitQueued valid free⟩
  | launch _ found queued waits _ _ =>
    exact ⟨accounts, quota.launch valid found, phases.launch valid found queued waits,
      reports.launch⟩
  | resend _ _ parked found _ calm =>
    exact ⟨accounts, quota.resend valid found, phases.resend valid parked found calm,
      reports.resend⟩
  | drop found live idle =>
    exact ⟨accounts, quota.drop found idle, phases.drop, reports.drop valid found live⟩
  | settle found live =>
    exact ⟨accounts, quota.settle valid found, phases.settle, reports.settle valid found live⟩
  | settleSealed found dead =>
    exact ⟨accounts, quota.settleSealed valid found dead, phases.settleSealed,
      reports.settleSealed valid found dead⟩
  | dropSealed dead =>
    exact ⟨accounts, quota.dropSealed valid dead, phases.dropSealed, reports.dropSealed valid dead⟩
  | advance found _ =>
    exact ⟨accounts, quota.advance found, phases.advance valid found, reports.advance⟩
  | release _ _ => exact ⟨accounts, quota.release _, phases.pubrel _, reports.passing _ rfl⟩
  | sealRow found _ =>
    exact ⟨accounts, quota.sealRow, phases.sealRow, reports.sealRow valid found⟩
  | subscribe _ => exact identifiers ⟨valid, quota, phases, reports⟩ accounts
  | unsubscribe _ => exact identifiers ⟨valid, quota, phases, reports⟩ accounts
  | endSubs => exact identifiers ⟨valid, quota, phases, reports⟩ accounts
  | resume _ fits => exact ⟨accounts, Quota.resume fits, phases.resume _ _, reports.resume _ _⟩
  | restart _ fits => exact ⟨accounts, Quota.restart fits, phases.restart _ _, reports.restart _ _⟩
  | settled clear => exact settled ⟨valid, quota, phases, reports⟩ clear

end Sound

/-- The ledger of an engine before it hydrates. -/
theorem sound_blank (lastSeq limit : Nat) (cap : Option Nat) : Sound { lastSeq, limit, cap } := by
  refine ⟨accounts_blank lastSeq limit cap, ?_, ?_, ?_⟩ <;> constructor
  all_goals first
    | exact always_nil
    | simp [Dict.get?, Dict.empty, owns]

end Ledger

end Mqttium
