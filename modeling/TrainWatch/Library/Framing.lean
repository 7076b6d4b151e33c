import TrainWatch.Library.Transition
import Mathlib.Data.List.TakeWhile

/-! # Streams that arrive in pieces

A reader holds what has arrived and not been read.  `next` is one round of its loop: what
it hands over, and the reader after it, or `none` while it needs more.  A complete item
is not changed by what arrives after it.  Then it does not matter how the stream is cut,
nor when the reader gets to run: what is handed over in the end is a function of what was
sent.
-/

namespace TrainWatch.Library

universe u v w x

/-! ## Up to a delimiter -/

section Delimiter

variable {α : Type u} {inside : α → Bool} {before rest : List α} {stop : α}

theorem takeWhile_stop (within : ∀ c ∈ before, inside c = true) (stops : inside stop = false) :
    (before ++ stop :: rest).takeWhile inside = before := by
  rw [List.takeWhile_append_of_pos within, List.takeWhile_cons_of_neg (by simp [stops]),
    List.append_nil]

theorem dropWhile_stop (within : ∀ c ∈ before, inside c = true) (stops : inside stop = false) :
    (before ++ stop :: rest).dropWhile inside = stop :: rest := by
  rw [List.dropWhile_append_of_pos within, List.dropWhile_cons_of_neg (by simp [stops])]

theorem of_dropWhile_eq_cons {text : List α} (found : text.dropWhile inside = stop :: rest) :
    text = text.takeWhile inside ++ stop :: rest ∧ (∀ c ∈ text.takeWhile inside, inside c = true) ∧
      inside stop = false := by
  refine ⟨?_, fun c member => List.mem_takeWhile_imp member, ?_⟩
  · rw [← found, List.takeWhile_append_dropWhile]
  · have outside := List.head?_dropWhile_not inside text
    simpa [found] using outside

end Delimiter

/-! ## Readers -/

structure Reader (σ : Type u) (α : Type v) (ω : Type w) where
  next : σ → Option (List ω × σ)
  feed : σ → List α → σ
  size : σ → Nat
  next_smaller : ∀ {reader reader' : σ} {handed : List ω},
    next reader = some (handed, reader') → size reader' < size reader
  feed_nil : ∀ reader : σ, feed reader [] = reader
  feed_append : ∀ (reader : σ) (first second : List α), feed reader (first ++ second) =
    feed (feed reader first) second
  next_feed : ∀ {reader reader' : σ} {handed : List ω}, next reader = some (handed, reader') →
    ∀ more : List α, next (feed reader more) = some (handed, feed reader' more)

namespace Reader

variable {σ : Type u} {α : Type v} {ω : Type w} {β : Type x} (system : Reader σ α ω)

/-- Everything that can be read now, in order, and the reader after it. -/
def drain (reader : σ) : List ω × σ :=
  match _round : system.next reader with
  | none => ([], reader)
  | some (handed, reader') => (handed ++ (drain reader').1, (drain reader').2)
termination_by system.size reader
decreasing_by
  all_goals exact system.next_smaller _round

def handedOver (reader : σ) : List ω := (system.drain reader).1

def settled (reader : σ) : σ := (system.drain reader).2

variable {system}

theorem handedOver_of_waiting {reader : σ} (waiting : system.next reader = none) :
    system.handedOver reader = [] := by
  rw [handedOver, drain]
  split
  · rfl
  · rename_i round
    rw [waiting] at round
    cases round

theorem settled_of_waiting {reader : σ} (waiting : system.next reader = none) :
    system.settled reader = reader := by
  rw [settled, drain]
  split
  · rfl
  · rename_i round
    rw [waiting] at round
    cases round

section Round

variable {reader reader' : σ} {handed : List ω}

theorem drain_of_next (round : system.next reader = some (handed, reader')) :
    system.drain reader = (handed ++ (system.drain reader').1, (system.drain reader').2) := by
  rw [drain]
  split
  · rename_i waiting
    rw [round] at waiting
    cases waiting
  · rename_i round'
    rw [round] at round'
    cases round'
    rfl

theorem handedOver_of_next (round : system.next reader = some (handed, reader')) :
    system.handedOver reader = handed ++ system.handedOver reader' := by
  rw [handedOver, drain_of_next round, handedOver]

theorem settled_of_next (round : system.next reader = some (handed, reader')) :
    system.settled reader = system.settled reader' := by
  rw [settled, drain_of_next round, settled]

end Round

/-- Induction on the rounds of a reader, up to the one where it needs more. -/
theorem rounds_induction {motive : σ → Prop}
    (waits : ∀ reader, system.next reader = none → motive reader)
    (reads : ∀ reader reader' handed, system.next reader = some (handed, reader') → motive reader' →
      motive reader)
    (reader : σ) : motive reader := by
  cases round : system.next reader with
  | none => exact waits reader round
  | some result =>
    obtain ⟨handed, reader'⟩ := result
    exact reads reader reader' handed round (rounds_induction waits reads reader')
termination_by system.size reader
decreasing_by exact system.next_smaller round

theorem next_settled (reader : σ) : system.next (system.settled reader) = none := by
  induction reader using system.rounds_induction with
  | waits reader waiting => rw [settled_of_waiting waiting, waiting]
  | reads reader reader' handed round inductionHypothesis =>
      rw [settled_of_next round, inductionHypothesis]

/-- Reading what is there first, and the rest when it comes, is reading all of it. -/
theorem handedOver_feed (reader : σ) (more : List α) : system.handedOver (system.feed reader more) =
    system.handedOver reader ++ system.handedOver (system.feed (system.settled reader) more) := by
  induction reader using system.rounds_induction with
  | waits reader waiting => rw [handedOver_of_waiting waiting, settled_of_waiting waiting,
      List.nil_append]
  | reads reader reader' handed round inductionHypothesis =>
    rw [handedOver_of_next round, settled_of_next round,
      handedOver_of_next (system.next_feed round more),
      inductionHypothesis, List.append_assoc]

theorem settled_feed (reader : σ) (more : List α) :
    system.settled (system.feed reader more) = system.settled
      (system.feed (system.settled reader) more) := by
  induction reader using system.rounds_induction with
  | waits reader waiting => rw [settled_of_waiting waiting]
  | reads reader reader' handed round inductionHypothesis =>
    rw [settled_of_next round, settled_of_next (system.next_feed round more), inductionHypothesis]

/-- A property of what is handed over, from an invariant of the reader. -/
theorem forall_handedOver {invariant : σ → Prop} {property : ω → Prop}
    (kept : ∀ reader reader' handed, invariant reader →
      system.next reader = some (handed, reader') →
      invariant reader' ∧ ∀ item ∈ handed, property item)
    {reader : σ} (holds : invariant reader) : ∀ item ∈ system.handedOver reader, property item := by
  induction reader using system.rounds_induction with
  | waits reader waiting =>
    rw [handedOver_of_waiting waiting]
    intro item member
    cases member
  | reads reader reader' handed round inductionHypothesis =>
    obtain ⟨later, here⟩ := kept reader reader' handed holds round
    rw [handedOver_of_next round]
    intro item member
    obtain now | after := List.mem_append.mp member
    · exact here item now
    · exact inductionHypothesis later item after

/-! ## Frames written one behind the other -/

/-- A writer whose frames the reader takes one in a round, coming back to where it started. -/
def Reads (system : Reader σ α ω) (idle : σ) (write : β → List α) (item : β → ω) (frame : β) :
    Prop :=
  system.next (system.feed idle (write frame)) = some ([item frame], idle)

section Frames

variable {idle : σ} {write : β → List α} {item : β → ω} {frames : List β}

theorem handedOver_frames (read : ∀ frame ∈ frames, Reads system idle write item frame)
    (more : List α) :
    system.handedOver (system.feed idle (frames.flatMap write ++ more)) =
      frames.map item ++ system.handedOver (system.feed idle more) := by
  induction frames with
  | nil => rfl
  | cons frame frames inductionHypothesis =>
    have rest := inductionHypothesis fun other member =>
      read other (List.mem_cons_of_mem frame member)
    have first := system.next_feed (read frame List.mem_cons_self) (frames.flatMap write ++ more)
    rw [List.flatMap_cons, List.append_assoc, system.feed_append, handedOver_of_next first, rest,
      List.map_cons,
      List.singleton_append, List.cons_append]

end Frames

end Reader

/-! ## A connection

What is sent is under way for a time, arrives in pieces of any size, and is read when the
reader's thread runs. -/

structure Connection (σ : Type u) (α : Type v) (ω : Type w) where
  underWay : List α
  reader : σ
  handed : List ω

inductive ConnectionAction (α : Type v) where
  | send (piece : List α)
  | arrive (count : Nat)
  | read
deriving DecidableEq, Repr

namespace Connection

variable {σ : Type u} {α : Type v} {ω : Type w} (system : Reader σ α ω)

def start (reader : σ) : Connection σ α ω := ⟨[], reader, []⟩

def step (connection : Connection σ α ω) : ConnectionAction α → Option (Connection σ α ω)
  | .send piece => some { connection with underWay := connection.underWay ++ piece }
  | .arrive count => some
      { connection with underWay := connection.underWay.drop count
                        reader := system.feed connection.reader (connection.underWay.take count) }
  | .read => (system.next connection.reader).map fun result =>
      { connection with reader := result.2, handed := connection.handed ++ result.1 }

def sent (trace : List (ConnectionAction α)) : List α :=
  trace.flatMap fun
    | .send piece => piece
    | .arrive _ => []
    | .read => []

/-- Nothing is under way, and the reader needs more. -/
def Quiet (connection : Connection σ α ω) : Prop :=
  connection.underWay = [] ∧ system.next connection.reader = none

variable {system} {initial : σ} {trace : List (ConnectionAction α)} {stream : List α}
    {connection connection' : Connection σ α ω}

/-- What is handed over and what still will be make up what the whole stream gives. -/
structure Carries (system : Reader σ α ω) (initial : σ) (stream : List α)
    (connection : Connection σ α ω) : Prop where
  handed : connection.handed ++ system.handedOver
    (system.feed connection.reader connection.underWay) =
    system.handedOver (system.feed initial stream)
  settled : system.settled (system.feed connection.reader connection.underWay) = system.settled
    (system.feed initial stream)

theorem carries_start (initial : σ) : Carries system initial [] (start initial) := ⟨rfl, rfl⟩

theorem carries_send (carries : Carries system initial stream connection) (piece : List α) :
    Carries system initial
      (stream ++ piece) { connection with underWay := connection.underWay ++ piece } := by
  obtain ⟨handed, settled⟩ := carries
  constructor
  · rw [system.feed_append, system.feed_append, Reader.handedOver_feed, ← List.append_assoc, handed,
      settled,
      ← Reader.handedOver_feed]
  · rw [system.feed_append, system.feed_append, Reader.settled_feed, settled, ← Reader.settled_feed]

theorem carries_step (carries : Carries system initial stream connection)
    {action : ConnectionAction α}
    (stepped : step system connection action = some connection') :
    Carries system initial (stream ++ sent [action]) connection' := by
  cases action with
  | send piece =>
    cases stepped
    have one : sent [ConnectionAction.send piece] = piece := List.append_nil piece
    rw [one]
    exact carries_send carries piece
  | arrive count =>
    cases stepped
    have nothing : sent [ConnectionAction.arrive (α := α) count] = [] := rfl
    -- what arrives leaves the bytes under way: the two together are the same stream
    obtain ⟨handed, settled⟩ := carries
    rw [nothing, List.append_nil]
    constructor
    · rw [← system.feed_append, List.take_append_drop]
      exact handed
    · rw [← system.feed_append, List.take_append_drop]
      exact settled
  | read =>
    have nothing : sent [ConnectionAction.read (α := α)] = [] := rfl
    obtain ⟨result, round, rfl⟩ := Option.map_eq_some_iff.mp stepped
    obtain ⟨now, reader'⟩ := result
    obtain ⟨handed, settled⟩ := carries
    -- reading early changes nothing: a frame read now is read with more behind it too
    have later := system.next_feed round connection.underWay
    rw [Reader.handedOver_of_next later, ← List.append_assoc] at handed
    rw [Reader.settled_of_next later] at settled
    rw [nothing, List.append_nil]
    exact ⟨handed, settled⟩

theorem Carries.handed_isPrefix (carries : Carries system initial stream connection) :
    connection.handed <+: system.handedOver (system.feed initial stream) := ⟨_, carries.handed⟩

theorem Carries.handed_of_quiet (carries : Carries system initial stream connection)
    (quiet : connection.Quiet system) :
    connection.handed = system.handedOver (system.feed initial stream) := by
  obtain ⟨nothing, waiting⟩ := quiet
  rw [← carries.handed, nothing, system.feed_nil, Reader.handedOver_of_waiting waiting,
    List.append_nil]

theorem handed_step {action : ConnectionAction α}
    (stepped : step system connection action = some connection') :
    connection.handed <+: connection'.handed := by
  cases action with
  | send piece =>
    cases stepped
    exact List.prefix_refl _
  | arrive count =>
    cases stepped
    exact List.prefix_refl _
  | read =>
    obtain ⟨result, _, rfl⟩ := Option.map_eq_some_iff.mp stepped
    exact List.prefix_append _ _

theorem run_carries (reached : run (step system) (start initial) trace = some connection) :
    Carries system initial (sent trace) connection := by
  refine run_history (fun history s => Carries system initial (sent history) s)
    (carries_start initial) ?_ reached
  intro history action s s' _ _ holds stepped
  have both : sent (history ++ [action]) = sent history ++ sent [action] := List.flatMap_append
  rw [both]
  exact carries_step holds stepped

theorem run_send (pieces : List (List α)) (connection : Connection σ α ω) :
    run (step system) connection (pieces.map .send) =
      some { connection with underWay := connection.underWay ++ pieces.flatten } := by
  induction pieces generalizing connection with
  | nil => simp
  | cons piece pieces inductionHypothesis =>
    rw [List.map_cons, run_cons, step, Option.bind_some, inductionHypothesis, List.flatten_cons,
      List.append_assoc]

/-- Whatever is under way can arrive, and be read until the reader needs more. -/
theorem exists_quiet (connection : Connection σ α ω) : ∃ (rounds : Nat) (final : Connection σ α ω),
    run (step system) connection
      (.arrive connection.underWay.length :: List.replicate rounds .read) = some final ∧
      final.Quiet system := by
  have reads : ∀ (reader : σ) (handed : List ω), ∃ (rounds : Nat) (final : Connection σ α ω),
      run (step system) ⟨[], reader, handed⟩ (List.replicate rounds .read) = some final ∧
        final.Quiet system := by
    intro reader
    induction reader using system.rounds_induction with
    | waits reader waiting => exact fun handed => ⟨0, _, rfl, rfl, waiting⟩
    | reads reader reader' now round inductionHypothesis =>
      intro handed
      obtain ⟨rounds, final, reached, quiet⟩ := inductionHypothesis (handed ++ now)
      refine ⟨rounds + 1, final, ?_, quiet⟩
      rw [List.replicate_succ, run_cons, step, round]
      exact reached
  obtain ⟨rounds, final, reached, quiet⟩ :=
    reads (system.feed connection.reader connection.underWay) connection.handed
  refine ⟨rounds, final, ?_, quiet⟩
  rw [run_cons, step, List.drop_length, List.take_length]
  exact reached

end Connection

end TrainWatch.Library
