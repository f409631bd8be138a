import Mathlib.Algebra.Order.Ring.Nat
import Mathlib.Data.List.Basic

/-! Cutting a stream into packets. A framer looks at the unread symbols only, and
what it has decided does not change when more of them arrive; the order in which a
reader receives and takes is then immaterial. -/

namespace Mqttium.Library

universe u

variable {Symbol Packet Error : Type u}

/-- What a framer makes of the unread symbols. -/
inductive Verdict (Symbol Packet Error : Type u) where
  | waiting
  | packet (next : Packet) (rest : List Symbol)
  | refused (error : Error)

/-- What the reader is told: the unread symbols stay with the framer. -/
def Verdict.answer : Verdict Symbol Packet Error → Option (Except Error Packet)
  | waiting => none
  | packet next _ => some (.ok next)
  | refused error => some (.error error)

structure Framer (Symbol Packet Error : Type u) where
  frame : List Symbol → Verdict Symbol Packet Error
  packet_append : ∀ {symbols packet rest} (more : List Symbol),
    frame symbols = .packet packet rest → frame (symbols ++ more) = .packet packet (rest ++ more)
  refused_append : ∀ {symbols error} (more : List Symbol),
    frame symbols = .refused error → frame (symbols ++ more) = .refused error

namespace Framer

variable {framer : Framer Symbol Packet Error}

/-- The packets at the head of the stream, and the symbols behind them. -/
inductive Reads (framer : Framer Symbol Packet Error) :
    List Symbol → List Packet → List Symbol → Prop where
  | nothing (symbols) : Reads framer symbols [] symbols
  | packet {symbols packet rest packets unread} (framed : framer.frame symbols = .packet packet rest)
      (later : Reads framer rest packets unread) : Reads framer symbols (packet :: packets) unread

theorem Reads.append {symbols packets unread} (reads : framer.Reads symbols packets unread)
    (more : List Symbol) : framer.Reads (symbols ++ more) packets (unread ++ more) := by
  induction reads with
  | nothing symbols => exact .nothing _
  | packet framed later ih => exact .packet (framer.packet_append more framed) ih

theorem Reads.next {symbols packets unread packet rest} (reads : framer.Reads symbols packets unread)
    (framed : framer.frame unread = .packet packet rest) :
    framer.Reads symbols (packets ++ [packet]) rest := by
  induction reads with
  | nothing symbols => exact .packet framed (.nothing _)
  | packet first later ih => exact .packet first (ih framed)

/-- As many packets of one stream are the same packets. -/
theorem Reads.unique {symbols packets unread others remaining}
    (reads : framer.Reads symbols packets unread)
    (alternative : framer.Reads symbols others remaining) (same : packets.length = others.length) :
    packets = others ∧ unread = remaining := by
  induction reads generalizing others with
  | nothing symbols =>
    cases alternative with
    | nothing => exact ⟨rfl, rfl⟩
    | packet framed later => simp at same
  | packet framed later ih =>
    cases alternative with
    | nothing => simp at same
    | packet framed' later' =>
      rw [framed] at framed'
      cases framed'
      obtain ⟨rfl, rfl⟩ := ih later' (by simpa using same)
      exact ⟨rfl, rfl⟩

/-- A reader who took fewer packets has another one before it. -/
theorem Reads.behind {symbols packets unread others remaining}
    (reads : framer.Reads symbols packets unread)
    (further : framer.Reads symbols others remaining) (fewer : packets.length < others.length) :
    ∃ packet rest, framer.frame unread = .packet packet rest := by
  induction reads generalizing others with
  | nothing symbols =>
    cases further with
    | nothing => simp at fewer
    | packet framed later => exact ⟨_, _, framed⟩
  | packet framed later ih =>
    cases further with
    | nothing => simp at fewer
    | packet framed' later' =>
      rw [framed] at framed'
      cases framed'
      exact ih later' (by simpa using fewer)

/-- What a reader was told about the stream that reached it: packets, and behind
them the error the framer stopped at, as often as the reader asked. -/
structure Told (framer : Framer Symbol Packet Error) (received unread : List Symbol)
    (packets : List Packet) (errors : List Error) : Prop where
  reads : framer.Reads received packets unread
  stopped : ∀ error ∈ errors, framer.frame unread = .refused error

variable {received unread remaining rest : List Symbol} {packets others : List Packet}
  {errors failures : List Error} {packet : Packet} {error : Error}

theorem Told.start : framer.Told [] [] [] [] where
  reads := .nothing _
  stopped := by simp

theorem Told.arrive (told : framer.Told received unread packets errors) (more : List Symbol) :
    framer.Told (received ++ more) (unread ++ more) packets errors where
  reads := told.reads.append more
  stopped := fun error member => framer.refused_append more (told.stopped error member)

theorem Told.no_errors (told : framer.Told received unread packets errors)
    (framed : framer.frame unread = .packet packet rest) : errors = [] := by
  rw [List.eq_nil_iff_forall_not_mem]
  intro error member
  rw [told.stopped error member] at framed
  cases framed

theorem Told.take (told : framer.Told received unread packets errors)
    (framed : framer.frame unread = .packet packet rest) :
    framer.Told received rest (packets ++ [packet]) [] where
  reads := told.reads.next framed
  stopped := by simp

theorem Told.refuse (told : framer.Told received unread packets errors)
    (framed : framer.frame unread = .refused error) :
    framer.Told received unread packets (errors ++ [error]) where
  reads := told.reads
  stopped := by
    intro other member
    rcases List.mem_append.mp member with earlier | last
    · exact told.stopped other earlier
    · rw [List.mem_singleton.mp last]
      exact framed

/-- There is only one error to be told of. -/
theorem Told.errors_eq (told : framer.Told received unread packets errors)
    (member : error ∈ errors) : errors = List.replicate errors.length error := by
  rw [List.eq_replicate_iff]
  refine ⟨rfl, fun other also => ?_⟩
  have same := (told.stopped other also).symm.trans (told.stopped error member)
  injection same

/-- A reader who was told as much took at least as many packets. -/
theorem Told.packets_le (told : framer.Told received unread packets errors)
    (other : framer.Told received remaining others failures)
    (same : packets.length + errors.length = others.length + failures.length) :
    others.length ≤ packets.length := by
  by_contra fewer
  obtain ⟨packet, rest, framed⟩ := told.reads.behind other.reads (by omega)
  have unstopped := told.no_errors framed
  simp only [unstopped, List.length_nil] at same
  omega

/-- Two readers of one stream who were told as much were told the same. -/
theorem Told.agree (told : framer.Told received unread packets errors)
    (other : framer.Told received remaining others failures)
    (same : packets.length + errors.length = others.length + failures.length) :
    packets = others ∧ errors = failures ∧ unread = remaining := by
  have asMany := told.packets_le other same
  have noMore := other.packets_le told same.symm
  obtain ⟨rfl, rfl⟩ := told.reads.unique other.reads (by omega)
  refine ⟨rfl, ?_, rfl⟩
  cases failures with
  | nil => exact List.length_eq_zero_iff.mp (by simpa using same)
  | cons failure more =>
    have both : framer.Told received unread packets (errors ++ failure :: more) :=
      ⟨told.reads, fun error member => (List.mem_append.mp member).elim (told.stopped error)
        (other.stopped error)⟩
    have named : failure ∈ errors ++ failure :: more := by simp
    have all := both.errors_eq named
    rw [List.eq_replicate_iff] at all
    refine List.ext_getElem (by simpa using same) fun index first second => ?_
    rw [all.2 _ (List.mem_append_left _ (List.getElem_mem first)),
      all.2 _ (List.mem_append_right _ (List.getElem_mem second))]

/-- A reader who was told less does not have to wait. -/
theorem Told.not_waiting (told : framer.Told received unread packets errors)
    (other : framer.Told received remaining others failures)
    (fewer : packets.length + errors.length < others.length + failures.length) :
    framer.frame unread ≠ .waiting := by
  intro waiting
  rcases Nat.lt_trichotomy packets.length others.length with less | same | more
  · obtain ⟨packet, rest, framed⟩ := told.reads.behind other.reads less
    rw [waiting] at framed
    cases framed
  · obtain ⟨rfl, rfl⟩ := told.reads.unique other.reads same
    cases failures with
    | nil => simp only [List.length_nil] at fewer; omega
    | cons failure rest =>
      have stopped := other.stopped failure (by simp)
      rw [waiting] at stopped
      cases stopped
  · obtain ⟨packet, rest, framed⟩ := other.reads.behind told.reads more
    have unstopped := other.no_errors framed
    simp only [unstopped, List.length_nil] at fewer
    omega

end Framer

end Mqttium.Library
