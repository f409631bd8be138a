import Mqttium.Ledger.History

/-! First in, first out: on each connection the publications leave in the order of
their row numbers. -/

namespace Mqttium.Ledger

open Library

/-- Whatever is stored under the first identifier was admitted earlier. -/
def precedes (ledger : Ledger) (left right : Nat) : Prop :=
  ∀ first second, ledger.rows.get? left = some first → ledger.rows.get? right = some second →
    first.seq < second.seq

/-- No live publication that was never sent precedes one that waits for its first
acknowledgement. -/
def FlyingFirst (ledger : Ledger) : Prop :=
  ∀ left right unsent flying, ledger.rows.get? left = some unsent →
    ledger.rows.get? right = some flying → ledger.isSealed left = false →
    ledger.isSealed right = false → unsent.state = .queued → flying.state.waiting = true →
    flying.seq < unsent.seq

structure Order (ledger : Ledger) : Prop where
  sorted : ledger.queue.Pairwise ledger.precedes
  behind : ∀ seq ∈ (observe ledger.log).published, ∀ mid ∈ ledger.queue, ∀ entry,
    ledger.rows.get? mid = some entry → seq < entry.seq
  increasing : (observe ledger.log).published.Pairwise (· < ·)
  flyingFirst : ledger.settling = false → ledger.FlyingFirst

section

variable {ledger after : Ledger} {mid : Nat} {entry : Entry}

/-- A step that keeps row numbers and takes from the queue keeps its order. -/
private theorem sorted_sublist (sorted : ledger.queue.Pairwise ledger.precedes)
    (shorter : after.queue.Sublist ledger.queue)
    (numbers : ∀ mid entry, after.rows.get? mid = some entry →
      ∃ stored, ledger.rows.get? mid = some stored ∧ stored.seq = entry.seq) :
    after.queue.Pairwise after.precedes := by
  apply (sorted.sublist shorter).imp
  intro left right before first second found other
  obtain ⟨stored, present, same⟩ := numbers left first found
  obtain ⟨next, member, equal⟩ := numbers right second other
  rw [← same, ← equal]
  exact before stored next present member

private theorem numbers_modify (state : OutboundQoSState) : ∀ other entry,
    (ledger.rows.modify mid fun entry => { entry with state }).get? other = some entry →
      ∃ stored, ledger.rows.get? other = some stored ∧ stored.seq = entry.seq := by
  intro other entry found
  rw [Dict.get?_modify] at found
  split at found
  · rename_i same
    subst same
    obtain ⟨stored, present, rfl⟩ := Option.map_eq_some_iff.mp found
    exact ⟨stored, present, rfl⟩
  · exact ⟨entry, found, rfl⟩

private theorem numbers_erase : ∀ other entry, (ledger.rows.erase mid).get? other = some entry →
    ∃ stored, ledger.rows.get? other = some stored ∧ stored.seq = entry.seq := by
  intro other entry found
  rw [Dict.get?_erase] at found
  split at found
  · cases found
  · exact ⟨entry, found, rfl⟩

theorem Order.admitQueued (order : Order ledger) (valid : Accounts ledger) (quota : Quota ledger)
    {size : Nat} (free : mid ∉ ledger.used) : Order (ledger.admitQueued mid size) := by
  have absent := valid.absent free
  have numbered := valid.numbered
  have published := quota.publishedKnown
  have unlined := valid.unlined absent
  obtain ⟨sorted, behind, increasing, flyingFirst⟩ := order
  constructor
  case sorted =>
    refine List.pairwise_append.mpr ⟨?_, by simp, ?_⟩
    · apply sorted.imp_of_mem
      intro left right member next before first second found other
      simp only [Ledger.admitQueued, Ledger.store] at member next found other
      grind -ring -linarith [precedes]
    · intro left member right single first second found other
      simp only [Ledger.admitQueued, Ledger.store] at member single found other
      grind -ring -linarith
  case increasing => simpa [Ledger.admitQueued, Ledger.store, Observer.see] using increasing
  all_goals
    simp only [Ledger.admitQueued, Ledger.store, FlyingFirst, isSealed, observe_append,
      Observer.see] at *
    grind -ring -linarith [OutboundQoSState.waiting]

theorem Order.admitLaunched (order : Order ledger) (valid : Accounts ledger) (quota : Quota ledger)
    {size : Nat} {target : OutboundQoSState} (ready : Launchable ledger mid size target)
    (empty : ledger.queue = []) : Order (ledger.admitLaunched mid size target) := by
  have absent := valid.absent ready.free
  have numbered := valid.numbered
  have published := quota.publishedKnown
  have waits := ready.waits
  have lineup := valid.lineup
  obtain ⟨sorted, behind, increasing, flyingFirst⟩ := order
  constructor
  case sorted => simp [Ledger.admitLaunched, Ledger.note, acquire, Ledger.store, empty]
  case increasing =>
    simp only [Ledger.admitLaunched, Ledger.note, acquire, Ledger.store, observe_append,
      Observer.see]
    refine List.pairwise_append.mpr ⟨increasing, by simp, ?_⟩
    intro seq member new single
    have := published seq member
    simp only [List.mem_singleton] at single
    omega
  all_goals
    simp only [Ledger.admitLaunched, Ledger.note, acquire, Ledger.store, FlyingFirst, lined,
      stateOf, isSealed, observe_append, Observer.see, empty, List.not_mem_nil] at *
    grind -ring -linarith [OutboundQoSState.waiting]

/-- Sending the head of the queue. -/
private theorem published_head (order : Order ledger) {rest : List Nat}
    (head : ledger.queue = mid :: rest) (found : ledger.rows.get? mid = some entry) :
    ((observe ledger.log).published ++ [entry.seq]).Pairwise (· < ·) := by
  refine List.pairwise_append.mpr ⟨order.increasing, by simp, ?_⟩
  intro seq member next single
  rw [List.mem_singleton] at single
  rw [single]
  exact order.behind seq member mid (by simp [head]) entry found

theorem Order.launch (order : Order ledger) (valid : Accounts ledger) {target : OutboundQoSState}
    {rest : List Nat} (head : ledger.queue = mid :: rest)
    (found : ledger.rows.get? mid = some entry) (waits : target.waiting = true)
    (calm : ledger.settling = false) : Order (ledger.launch mid entry target) := by
  have increasing := published_head order head found
  have lineup := valid.lineup
  have once := valid.once
  have first : ∀ other ∈ rest, ∀ next, ledger.rows.get? other = some next →
      entry.seq < next.seq := by
    intro other member next present
    have sorted := order.sorted
    rw [head, List.pairwise_cons] at sorted
    exact sorted.1 other member entry next found present
  constructor
  case sorted =>
    exact sorted_sublist order.sorted (List.erase_sublist) (numbers_modify target)
  case increasing =>
    simpa [Ledger.launch, Ledger.note, acquire, unqueue, setState, Observer.see] using increasing
  all_goals
    have behind := order.behind
    have flyingFirst := order.flyingFirst calm
    simp only [Ledger.launch, Ledger.note, acquire, unqueue, setState, FlyingFirst, lined, stateOf,
      isSealed, observe_append, Observer.see, head] at *
    grind -ring -linarith [OutboundQoSState.waiting]

/-- In order, a parked publication with only never-sent ones before it is the head. -/
theorem Order.parked_head (order : Order ledger) (valid : Accounts ledger)
    {earlier later : List Nat} (place : ledger.queue = earlier ++ mid :: later)
    (unsent : ∀ other ∈ earlier, other ∉ ledger.parked) (parked : mid ∈ ledger.parked)
    (found : ledger.rows.get? mid = some entry) (calm : ledger.settling = false) :
    earlier = [] := by
  rcases earlier with _ | ⟨first, between⟩
  · rfl
  · obtain ⟨live, state⟩ := valid.parkedRow mid parked
    simp only [stateOf, found, Option.map_some, Option.some.injEq] at state
    have waits : entry.state.waiting = true := by
      rcases state with same | same <;> simp [same, OutboundQoSState.waiting]
    have queued : first ∈ ledger.queue := by simp [place]
    rcases (valid.lineup first).mp queued with ⟨fresh, alive⟩ | parkedToo
    · obtain ⟨stored, present, same⟩ := Option.map_eq_some_iff.mp fresh
      have flying := order.flyingFirst calm first mid stored entry present found alive live same waits
      have sorted := order.sorted
      rw [place, List.cons_append, List.pairwise_cons] at sorted
      have ahead := sorted.1 mid (by simp) stored entry present found
      omega
    · exact absurd parkedToo (unsent first (by simp))

theorem Order.resend (order : Order ledger) (valid : Accounts ledger) {earlier later : List Nat}
    (place : ledger.queue = earlier ++ mid :: later)
    (unsent : ∀ other ∈ earlier, other ∉ ledger.parked) (parked : mid ∈ ledger.parked)
    (found : ledger.rows.get? mid = some entry) (calm : ledger.settling = false) :
    Order (ledger.resend mid entry) := by
  have none := order.parked_head valid place unsent parked found calm
  subst none
  have head : ledger.queue = mid :: later := place
  have increasing := published_head order head found
  have first : ∀ other ∈ later, ∀ next, ledger.rows.get? other = some next →
      entry.seq < next.seq := by
    intro other member next present
    have sorted := order.sorted
    rw [head, List.pairwise_cons] at sorted
    exact sorted.1 other member entry next found present
  constructor
  case sorted =>
    exact sorted_sublist order.sorted List.erase_sublist fun _ entry found => ⟨entry, found, rfl⟩
  case increasing =>
    simpa [Ledger.resend, Ledger.note, acquire, unqueue, Observer.see] using increasing
  all_goals
    have behind := order.behind
    have flyingFirst := order.flyingFirst calm
    simp only [Ledger.resend, Ledger.note, acquire, unqueue, FlyingFirst, isSealed, observe_append,
      Observer.see, head] at *
    grind -ring -linarith

/-- A step that sends nothing, keeps row numbers and takes from the queue keeps order. -/
private theorem Order.shrink (order : Order ledger) (after : Ledger)
    (shorter : after.queue.Sublist ledger.queue)
    (numbers : ∀ mid entry, after.rows.get? mid = some entry →
      ∃ stored, ledger.rows.get? mid = some stored ∧ stored.seq = entry.seq)
    (published : (observe after.log).published = (observe ledger.log).published)
    (flyingFirst : after.settling = false → after.FlyingFirst) : Order after := by
  constructor
  case sorted => exact sorted_sublist order.sorted shorter numbers
  case behind =>
    intro seq sent mid queued entry found
    obtain ⟨stored, present, same⟩ := numbers mid entry found
    rw [← same]
    exact order.behind seq (published ▸ sent) mid (shorter.subset queued) stored present
  case increasing => simpa only [published] using order.increasing
  case flyingFirst => exact flyingFirst

theorem Order.drop (order : Order ledger) : Order (ledger.drop mid entry) := by
  apply order.shrink _ List.erase_sublist numbers_erase
  · simp [Ledger.drop, Ledger.note, unqueue, refund, forget, Observer.see]
  · have flyingFirst := order.flyingFirst
    simp only [Ledger.drop, Ledger.note, unqueue, refund, forget, FlyingFirst, isSealed] at *
    grind -ring -linarith

theorem Order.settle (order : Order ledger) : Order (ledger.settle mid entry) := by
  apply order.shrink _ List.erase_sublist numbers_erase
  · simp only [Ledger.settle, Ledger.note, releaseSlot, unqueue, refund, forget, observe_append,
      Observer.see]
  · have flyingFirst := order.flyingFirst
    simp only [Ledger.settle, Ledger.note, releaseSlot, unqueue, refund, forget, FlyingFirst,
      isSealed] at *
    grind -ring -linarith

theorem Order.dropSealed (order : Order ledger) : Order (ledger.dropSealed mid) := by
  refine order.shrink (ledger.dropSealed mid) (List.Sublist.refl _) numbers_erase rfl ?_
  have flyingFirst := order.flyingFirst
  simp only [Ledger.dropSealed, clearSeal, forget, FlyingFirst, isSealed, Dict.contains] at *
  grind -ring -linarith

theorem Order.settleSealed (order : Order ledger) : Order (ledger.settleSealed mid entry) := by
  refine order.shrink (ledger.settleSealed mid entry) (List.Sublist.refl _) numbers_erase
    ?_ ?_
  · simp only [Ledger.settleSealed, Ledger.note, clearSeal, forget, observe_append, Observer.see]
  · have flyingFirst := order.flyingFirst
    simp only [Ledger.settleSealed, Ledger.note, clearSeal, forget, FlyingFirst, isSealed,
      Dict.contains] at *
    grind -ring -linarith

theorem Order.advance (order : Order ledger) (found : ledger.rows.get? mid = some entry) :
    Order (ledger.advance mid entry) := by
  apply order.shrink _ List.erase_sublist (numbers_modify .waitPubcomp)
  · simp only [Ledger.advance, Ledger.note, unqueue, setState, observe_append, Observer.see]
  · have flyingFirst := order.flyingFirst
    simp only [Ledger.advance, Ledger.note, unqueue, setState, FlyingFirst, isSealed] at *
    grind -ring -linarith [OutboundQoSState.waiting]

theorem Order.pubrel (order : Order ledger) (seq : Nat) :
    Order (ledger.note (.sent seq .pubrel)) := by
  refine order.shrink _ (List.Sublist.refl _) (fun _ entry found => ⟨entry, found, rfl⟩) ?_
    order.flyingFirst
  simp [Ledger.note, Observer.see]

theorem Order.sealRow (order : Order ledger) : Order (ledger.sealRow mid entry) := by
  refine order.shrink _ List.erase_sublist (fun _ entry found => ⟨entry, found, rfl⟩) ?_ ?_
  · simp [Ledger.sealRow, Ledger.note, releaseSlot, unqueue, refund, Observer.see]
  · have flyingFirst := order.flyingFirst
    simp only [Ledger.sealRow, Ledger.note, releaseSlot, unqueue, refund, FlyingFirst, isSealed,
      Dict.contains] at *
    grind -ring -linarith

private theorem live_sorted (valid : Accounts ledger) (kind : OutboundQoSState → Bool) :
    (ledger.live kind).Pairwise ledger.precedes := by
  unfold live
  rw [List.pairwise_map]
  apply (valid.ordered.sublist List.filter_sublist).imp_of_mem
  rintro ⟨left, stored⟩ ⟨right, next⟩ member other before first second found present
  rw [List.mem_filter, ← Dict.get?_eq_some_iff] at member other
  cases found.symm.trans member.1
  cases present.symm.trans other.1
  exact before

theorem Order.resume (order : Order ledger) (valid : Accounts ledger)
    (receiveMaximum limit : Nat) : Order (ledger.resume receiveMaximum limit) := by
  constructor
  case sorted => exact live_sorted valid fun state => state == .queued || state.waiting
  case behind => simp [Ledger.resume, Observer.see]
  case increasing => simp [Ledger.resume, Observer.see]
  case flyingFirst => exact order.flyingFirst

theorem Order.restart (order : Order ledger) (valid : Accounts ledger)
    (calm : ledger.settling = false) (receiveMaximum limit : Nat) :
    Order (ledger.restart receiveMaximum limit) := by
  have numbers : ∀ mid entry, (ledger.restart receiveMaximum limit).rows.get? mid = some entry →
      ∃ stored, ledger.rows.get? mid = some stored ∧ stored.seq = entry.seq := by
    intro mid entry found
    obtain ⟨stored, member, rfl⟩ := Option.map_eq_some_iff.mp ((restart_row _ _).symm.trans found)
    exact ⟨stored, member, requeue_seq.symm⟩
  have transfer : ∀ {left right}, ledger.precedes left right →
      (ledger.restart receiveMaximum limit).precedes left right := by
    intro left right before first second found other
    obtain ⟨stored, present, same⟩ := numbers left first found
    obtain ⟨next, member, equal⟩ := numbers right second other
    rw [← same, ← equal]
    exact before stored next present member
  constructor
  case sorted =>
    refine List.pairwise_append.mpr ⟨?_, ?_, ?_⟩
    · exact (live_sorted valid _).imp transfer
    · exact (order.sorted.sublist List.filter_sublist).imp transfer
    · -- Requeued work was in flight, so it precedes whatever was never sent.
      intro left requeued right kept
      apply transfer
      intro first second found other
      simp only [mem_live_qos1, stateOf, found, Option.map_some, Option.some.injEq] at requeued
      simp only [List.mem_filter, valid.lineup, lined, stateOf, other, Option.map_some,
        Option.some.injEq, decide_eq_true_eq] at kept
      rcases kept.1 with ⟨fresh, alive⟩ | parked
      · exact order.flyingFirst calm right left second first other found alive requeued.1 fresh
          (by simp [requeued.2, OutboundQoSState.waiting])
      · exact absurd parked kept.2
  case behind => simp [Ledger.restart, Observer.see]
  case increasing => simp [Ledger.restart, Observer.see]
  case flyingFirst =>
    intro settled
    simp [Ledger.restart] at settled

/-- Every move keeps publications in order. -/
theorem Order.move (order : Order ledger) (sound : Sound ledger) (move : Move ledger after) :
    Order after := by
  have valid := sound.accounts
  cases move with
  | admitQueued free _ => exact order.admitQueued valid sound.quota free
  | launch head found _ waits _ calm => exact order.launch valid head found waits calm
  | resend place unsent parked found _ calm => exact order.resend valid place unsent parked found calm
  | drop _ _ _ => exact order.drop
  | settle _ _ => exact order.settle
  | settleSealed _ _ => exact order.settleSealed
  | dropSealed _ => exact order.dropSealed
  | advance found _ => exact order.advance found
  | release _ _ => exact order.pubrel _
  | sealRow _ _ => exact order.sealRow
  | subscribe _ => exact ⟨order.sorted, order.behind, order.increasing, order.flyingFirst⟩
  | unsubscribe _ => exact ⟨order.sorted, order.behind, order.increasing, order.flyingFirst⟩
  | endSubs => exact ⟨order.sorted, order.behind, order.increasing, order.flyingFirst⟩
  | resume _ _ => exact order.resume valid _ _
  | restart calm _ => exact order.restart valid calm _ _
  | settled clear =>
    refine ⟨order.sorted, order.behind, order.increasing, ?_⟩
    intro _ left right unsent flying _ found _ _ _ waits
    simp [clear right flying found, OutboundQoSState.waiting] at waits

/-- Recovering rows in store order, none in flight after one that was never sent. -/
theorem Order.recover (order : Order ledger) (valid : Accounts ledger) {held : Bool}
    (ready : Recoverable ledger mid entry held)
    (inOrder : entry.state.waiting = true → ∀ other stored, ledger.rows.get? other = some stored →
      stored.state ≠ .queued) : Order (ledger.recover mid entry held) := by
  have absent := valid.absent ready.free
  have unlined := valid.unlined absent
  have later := ready.later
  obtain ⟨_, published, _⟩ := observe_recovered ready
  have silent : (observe (ledger.recover mid entry held).log).published = [] := by
    simp only [Ledger.recover, observe_append]
    cases decide (entry.state ≠ .queued) <;> simpa [Observer.see] using published
  obtain ⟨sorted, behind, increasing, flyingFirst⟩ := order
  constructor
  case sorted =>
    have kept : ledger.queue.Pairwise (ledger.recover mid entry held).precedes := by
      apply sorted.imp_of_mem
      intro left right member next before first second found other
      simp only [Ledger.recover] at found other
      grind -ring -linarith [precedes]
    by_cases queued : entry.state = .queued
    · simp only [Ledger.recover, queued, ↓reduceIte] at kept ⊢
      refine List.pairwise_append.mpr ⟨kept, by simp, ?_⟩
      intro left member right single first second found other
      simp only at found other
      grind -ring -linarith
    · simpa only [Ledger.recover, queued, ↓reduceIte] using kept
  case behind => simp [silent]
  case increasing => simp [silent]
  case flyingFirst =>
    simp only [Ledger.recover, FlyingFirst, isSealed] at *
    grind -ring -linarith [OutboundQoSState.waiting]

end

theorem order_blank (lastSeq limit : Nat) (cap : Option Nat) : Order { lastSeq, limit, cap } := by
  constructor <;> simp [FlyingFirst, Dict.get?, Dict.empty]

end Mqttium.Ledger
