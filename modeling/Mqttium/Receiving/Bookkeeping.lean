import Mqttium.Connection.Closing
import Mqttium.Receiving.Exchanges

/-! How the steps of the engine move what the inbound direction owns. -/

namespace Mqttium

open Codec Library Packets Persistence Protocol

/-- The inbound bookkeeping of the engine agrees with its store. -/
def Protocol.Engine.kept (engine : Engine) : Prop :=
  Kept engine.config.manualAck engine.store engine.inbound

def Protocol.Engine.exchanges (engine : Engine) : Leases Nat :=
  Mqttium.exchanges engine.store engine.inbound

/-- The inbound direction stays as it is. -/
structure Apart (before after : Engine) : Prop where
  config : after.config = before.config
  inbound : after.inbound = before.inbound
  rows : after.store.inbound = before.store.inbound
  seq : after.store.inSeq = before.store.inSeq
  left : before.store.Atomic → before.store.Leaves after.store.faults

/-- Exchanges come and go, each with an identity of its own. -/
structure Drifts (before after : Engine) : Prop where
  config : after.config = before.config
  steps : before.exchanges.Steps after.exchanges
  reliable : before.store.Reliable → after.store.Reliable

/-- No exchange is added to those that wait for PUBACK, announced or acknowledged. -/
structure Shrinks (before after : Engine) : Prop extends Drifts before after where
  waiting : List.Sublist after.store.waiting before.store.waiting
  acked : ∀ mid ∈ after.inbound.pendingManualQos1Acks, mid ∈ before.inbound.pendingManualQos1Acks
  current : ∀ mid ∈ after.store.waiting.map Prod.fst, mid ∈ after.inbound.currentPersistedMids →
    mid ∈ before.inbound.currentPersistedMids

/-- The exchanges that wait for PUBACK stay, and those acknowledged among them. -/
structure Rests (before after : Engine) : Prop extends Drifts before after where
  waiting : after.store.waiting = before.store.waiting
  acked : after.inbound.pendingManualQos1Acks = before.inbound.pendingManualQos1Acks
  current : ∀ mid ∈ before.store.waiting.map Prod.fst, mid ∈ after.inbound.currentPersistedMids →
    mid ∈ before.inbound.currentPersistedMids

instance : IsPreorder Engine Apart where
  refl _ := ⟨rfl, rfl, rfl, rfl, Store.Atomic.leaves⟩
  trans _ _ _ first second := ⟨second.config.trans first.config, second.inbound.trans first.inbound,
    second.rows.trans first.rows, second.seq.trans first.seq, fun atomic =>
      have between := first.left atomic
      have last := second.left between.atomic
      ⟨last.atomic, fun reliable => last.reliable (between.reliable reliable)⟩⟩

theorem Drifts.trans {before between after : Engine} (first : Drifts before between)
    (second : Drifts between after) : Drifts before after :=
  ⟨second.config.trans first.config, first.steps.trans second.steps, second.reliable ∘ first.reliable⟩

instance : IsPreorder Engine Drifts where
  refl _ := ⟨rfl, .refl, id⟩
  trans _ _ _ := Drifts.trans

instance : IsPreorder Engine Shrinks where
  refl _ := ⟨⟨rfl, .refl, id⟩, .refl _, fun _ => id, fun _ _ => id⟩
  trans _ _ _ first second := ⟨first.toDrifts.trans second.toDrifts,
    second.waiting.trans first.waiting, fun mid member => first.acked mid (second.acked mid member),
    fun mid waits here => first.current mid ((second.waiting.map Prod.fst).subset waits)
      (second.current mid waits here)⟩

instance : IsPreorder Engine Rests where
  refl _ := ⟨⟨rfl, .refl, id⟩, rfl, rfl, fun _ _ => id⟩
  trans _ _ _ first second := ⟨first.toDrifts.trans second.toDrifts,
    second.waiting.trans first.waiting, second.acked.trans first.acked,
    fun mid waits here => first.current mid waits (second.current mid (first.waiting ▸ waits) here)⟩

theorem Rests.shrinks {before after : Engine} (rests : Rests before after) :
    Shrinks before after where
  toDrifts := rests.toDrifts
  waiting := rests.waiting ▸ .refl _
  acked _ member := rests.acked ▸ member
  current _ waits := rests.current _ (rests.waiting ▸ waits)

/-- A relation that holds of every step at rest. -/
class Calming (moves : Engine → Engine → Prop) : Prop extends IsPreorder Engine moves where
  rests : ∀ {before after}, Rests before after → moves before after

/-- A relation that also holds where exchanges are given up. -/
class Yielding (moves : Engine → Engine → Prop) : Prop extends Calming moves where
  shrinks : ∀ {before after}, Shrinks before after → moves before after

instance : Calming Rests where
  rests := id

instance : Yielding Shrinks where
  rests := Rests.shrinks
  shrinks := id

instance : Yielding Drifts where
  rests rests := rests.toDrifts
  shrinks shrinks := shrinks.toDrifts

section

variable {before after : Engine}

theorem Apart.exchanges (apart : Apart before after) : after.exchanges = before.exchanges := by
  simp only [Engine.exchanges, Mqttium.exchanges, apart.inbound, apart.rows, apart.seq]

theorem Apart.waiting (apart : Apart before after) : after.store.waiting = before.store.waiting := by
  simp only [Store.waiting, apart.rows]

theorem Apart.kept (apart : Apart before after) (kept : before.kept) : after.kept := by
  have waiting := apart.waiting
  unfold Engine.kept
  rw [apart.config, apart.inbound]
  refine ⟨⟨(apart.left kept.atomic).atomic, ?_, ?_⟩, ?_, ?_, ?_, ?_, ?_, ?_, ?_⟩
  · rw [apart.rows, apart.seq]
    exact kept.numbered
  · rw [apart.rows]
    exact kept.ordered
  · rw [apart.rows]
    exact kept.sized
  · rw [apart.rows]
    exact kept.count
  · rw [apart.rows]
    exact kept.bytes
  · rw [waiting]
    exact kept.order
  · rw [waiting]
    exact kept.acked
  · rw [apart.rows]
    exact kept.completions
  · have sound : before.exchanges.Sound := kept.identities
    rw [← apart.exchanges, Engine.exchanges, apart.inbound] at sound
    exact sound

theorem Apart.rests (apart : Apart before after) : Rests before after :=
  ⟨⟨apart.config, apart.exchanges ▸ .refl, fun reliable => (apart.left reliable.atomic).reliable reliable⟩,
    apart.waiting, by rw [apart.inbound],
    fun mid _ here => by rwa [apart.inbound] at here⟩

end

/-! Steps of the connection and of the outbound direction -/

/-- A call of the store changes what it runs and may use up a fault. -/
theorem sat_storeCall_atomic {Value : Type} {engine : Engine} {call : StoreCall}
    {run : Store → Value × Store} {returned : Value → Engine → Prop}
    {raised : Failure → Engine → Prop} (atomic : engine.store.Atomic)
    (ran : ∀ faults, engine.store.Leaves faults →
      returned (run { engine.store with faults }).1
        { engine with store := (run { engine.store with faults }).2 })
    (failed : ∀ faults, engine.store.Leaves faults → ¬ engine.store.Reliable →
      raised .backend { engine with store := { engine.store with faults } }) :
    Sat (storeCall call run) engine returned raised := by
  simp only [storeCall, sat_bind, sat_get]
  cases script : engine.store.faults call with
  | nil =>
    simp only [Store.nextFault, script]
    exact ran engine.store.faults atomic.leaves
  | cons fault rest =>
    simp only [Store.nextFault, script]
    have unreliable : ¬ engine.store.Reliable := fun reliable => by
      simpa [script] using reliable call
    have left : engine.store.Leaves (Function.update engine.store.faults call rest) := by
      refine ⟨fun other => ?_, fun reliable => absurd reliable unreliable⟩
      by_cases here : other = call
      · subst here
        have whole := atomic other
        rw [script] at whole
        simpa using fun member => whole (List.mem_cons_of_mem _ member)
      · simpa [here] using atomic other
    match fault with
    | none => exact ran _ left
    | some .beforeEffect => exact failed _ left unreliable
    | some .afterEffect =>
      have whole := atomic call
      simp [script] at whole

/-- The next fault comes from a script of its own. -/
theorem nextFault_rest (store : Store) (call : StoreCall) :
    ∃ faults, (store.nextFault call).2 = { store with faults } ∧
      ∀ other, store.faults other = [] → faults other = [] := by
  unfold Store.nextFault
  cases script : store.faults call with
  | nil => exact ⟨store.faults, rfl, fun _ none => none⟩
  | cons fault rest =>
    refine ⟨_, rfl, fun other none => ?_⟩
    have different : other ≠ call := by
      rintro rfl
      rw [none] at script
      cases script
    exact (Function.update_of_ne different rest _).trans none

theorem apart_storeCall {Value : Type} {call : StoreCall} {run : Store → Value × Store}
    {engine : Engine} {holds : Value → Prop} (apart : LeavesIn fun store => (run store).2)
    (atomic : engine.store.Atomic) (given : ∀ store, holds (run store).1) :
    Sat (storeCall call run) engine (fun value after => holds value ∧ Apart engine after)
      (fun _ after => Apart engine after) := by
  apply sat_storeCall_atomic atomic
  · intro faults fine
    refine ⟨given _, rfl, rfl, ?_, ?_, fun _ => ?_⟩
    · exact apart.rows _
    · exact apart.seq _
    · have same := apart.faults { engine.store with faults }
      change engine.store.Leaves (run { engine.store with faults }).2.faults
      rw [same]
      exact fine
  · exact fun faults fine _ => ⟨rfl, rfl, rfl, rfl, fun _ => fine⟩

/-- Where the bookkeeping agrees it does so afterwards, and the step is one of `moves`. -/
abbrev Keeps (moves : Engine → Engine → Prop) : Engine → Engine → Prop :=
  Guarded Engine.kept moves

section

variable {moves : Engine → Engine → Prop} [Calming moves] {Value : Type}

theorem Apart.keeps {before after : Engine} (apart : Apart before after) : Keeps moves before after :=
  fun kept => ⟨apart.kept kept, Calming.rests apart.rests⟩

theorem keeps_storeCall {call : StoreCall} {run : Store → Value × Store} {holds : Value → Prop}
    (apart : LeavesIn fun store => (run store).2) (given : ∀ store, holds (run store).1) :
    Yields holds (Keeps moves) (storeCall call run) := by
  refine yields_guarded fun engine kept => ?_
  apply (apart_storeCall apart kept.atomic given).mono
  · exact fun _ _ done => ⟨done.1, done.2.keeps kept⟩
  · exact fun _ _ done => done.keeps kept

instance : Standby (Keeps moves) where
  remote still inbound store := Apart.keeps ⟨still.quiet.config, inbound, by rw [store],
    by rw [store], fun atomic => store ▸ atomic.leaves⟩
  read call read := by
    have yields : Yields (fun _ => True) (Keeps moves) (storeRead call read) :=
      keeps_storeCall ⟨fun _ => rfl, fun _ => rfl, fun _ => rfl, fun _ => rfl⟩ fun _ => trivial
    exact yields.within
  endSubs _ := sat_releasePendingSubscriptionRequests fun _ _ =>
    Apart.keeps ⟨rfl, rfl, rfl, rfl, Store.Atomic.leaves⟩

theorem keeps_emit (effect : Effect) : Within (Keeps moves) (emit effect) :=
  fun _ => Apart.keeps ⟨rfl, rfl, rfl, rfl, Store.Atomic.leaves⟩

instance : Speaking (Keeps moves) where
  speak _ := keeps_emit _

instance : Outward (Keeps moves) where
  good := fun _ => True
  facts _ _ later := fun engine => later engine (honest_any engine) engine
  session _ _ := Apart.keeps ⟨rfl, rfl, rfl, rfl, Store.Atomic.leaves⟩
  store apart caches := keeps_storeCall apart fun store => (caches store (honest_any_store store)).1
  assign apart _ engine := Apart.keeps ⟨rfl, rfl, apart.rows _, apart.seq _, fun atomic => by
    have same := apart.faults engine.store
    rw [same]
    exact atomic.leaves⟩
  subs _ := within_modify fun _ => Apart.keeps ⟨rfl, rfl, rfl, rfl, Store.Atomic.leaves⟩
  report _ := keeps_emit _

instance : Sending (Keeps moves) where
  sendable := inferInstanceAs (Sendable fun _ => True)
  send _ := keeps_emit _

end

/-- The effect hands a message to the application. -/
def Protocol.Effect.Delivers : Effect → Prop
  | .message _ _ _ => True
  | .decodedMessage _ _ _ _ => True
  | _ => False

instance (effect : Effect) : Decidable effect.Delivers := by
  cases effect <;> unfold Effect.Delivers <;> infer_instance

/-- The inbound direction stays as it is, nothing is delivered and nothing but a
DISCONNECT is sent. -/
structure Parts (before after : Engine) : Prop extends Apart before after where
  effects : ∃ fresh, after.effects = before.effects ++ fresh ∧
    ∀ effect ∈ fresh, ¬ effect.Delivers ∧ ∀ item, effect.frame? = some item → IsDisconnect item

theorem parts_protocolDisconnect (engine : Engine) (reasonCode : Nat) :
    Sat (protocolDisconnect reasonCode) engine (fun _ => Parts engine) (fun _ => Parts engine) := by
  simp only [protocolDisconnect, sat_bind, sat_get]
  apply (announces engine reasonCode).mono
  · rintro _ _ ⟨sent, rfl, spoken⟩
    simp only [enterDisconnected, sat_modify]
    apply sat_releasePendingSubscriptionRequests
    intro pool subs
    rw [sat_emit]
    refine ⟨⟨rfl, rfl, rfl, rfl, Store.Atomic.leaves⟩, sent ++ [.disconnected reasonCode none false],
      by simp, ?_⟩
    rcases spoken with rfl | ⟨item, rfl, closing⟩
    · simp [Effect.Delivers, Effect.frame?]
    · simpa [Effect.Delivers, Effect.frame?] using closing
  · rintro _ _ rfl
    exact ⟨Std.Refl.refl _, [], by simp, by simp⟩

instance (moves : Engine → Engine → Prop) [Calming moves] : Parting (Keeps moves) (Keeps moves) where
  goodbye reasonCode engine := (parts_protocolDisconnect engine reasonCode).mono
    (fun _ _ parts => parts.toApart.keeps) (fun _ _ parts => parts.toApart.keeps)

end Mqttium
