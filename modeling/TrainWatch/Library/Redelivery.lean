import TrainWatch.Library.BlindWrites
import TrainWatch.Library.Transition

/-! # At-least-once delivery of a log

One worker goes through a log of records, performing the writes of each record one
at a time.  It can crash anywhere, also between two writes, and then resumes at any
offset that is not past the record it was at.  When it has reached the end of the
log, the state is that of a single crash-free pass: whatever a replay put back is
overwritten again before the end is reached.
-/

namespace TrainWatch.Library

universe u v w x z

/-- The state, the offset of the record the worker is at, and the writes left of that
    record once it is begun. -/
structure Delivery (σ : Type u) (ω : Type v) where
  state : σ
  position : Nat
  pending : Option (List ω)

inductive DeliveryAction where
  | begin
  | perform
  | complete
  | crash (resume : Nat)
deriving DecidableEq, Repr

namespace Delivery

variable {σ : Type u} {ω : Type v} {κ : Type w} {ν : Type x} {ρ : Type z} [DecidableEq κ]
variable (system : WriteSystem σ ω κ ν) (calls : ρ → Option (List ω)) (log : List ρ)

def start (state : σ) : Delivery σ ω := ⟨state, 0, none⟩

def step (delivery : Delivery σ ω) : DeliveryAction → Option (Delivery σ ω)
  | .begin =>
    match delivery.pending, log[delivery.position]? with
    | none, some record => (calls record).map fun writes => { delivery with pending := some writes }
    | _, _ => none
  | .perform =>
    match delivery.pending with
    | some (write :: writes) => some
        { delivery with state := system.perform delivery.state write, pending := some writes }
    | _ => none
  | .complete =>
    match delivery.pending with
    | some [] => some { delivery with position := delivery.position + 1, pending := none }
    | _ => none
  | .crash resume =>
    if resume ≤ delivery.position then some { delivery with position := resume, pending := none }
    else none

def QuietFrom (offset : Nat) (cell : κ) : Prop :=
  ∀ write ∈ writesOf calls (log.drop offset), system.target write ≠ cell

/-- Cells that no remaining record writes hold their final value; and so they will once the
    record in progress, whose remaining writes are a part of its own, is finished. -/
structure Converging (initial : σ) (delivery : Delivery σ ω) : Prop where
  settled : ∀ cell, QuietFrom system calls log delivery.position cell →
    system.read delivery.state cell =
      system.read (system.performAll initial (writesOf calls log)) cell
  current : ∀ writes, delivery.pending = some writes →
    (∃ record, log[delivery.position]? = some record ∧
      ∀ write ∈ writes, write ∈ (calls record).getD []) ∧
    ∀ cell, QuietFrom system calls log (delivery.position + 1) cell →
      system.read (system.performAll delivery.state writes) cell =
        system.read (system.performAll initial (writesOf calls log)) cell

variable {system calls log}

theorem writesOf_drop {offset : Nat} {record : ρ} (here : log[offset]? = some record) :
    writesOf calls (log.drop offset) =
      (calls record).getD [] ++ writesOf calls (log.drop (offset + 1)) := by
  obtain ⟨bound, rfl⟩ := List.getElem?_eq_some_iff.mp here
  rw [List.drop_eq_getElem_cons bound, writesOf_cons]

theorem writesOf_split {offset : Nat} {record : ρ} (here : log[offset]? = some record) :
    writesOf calls log = writesOf calls (log.take offset) ++
      ((calls record).getD [] ++ writesOf calls (log.drop (offset + 1))) := by
  rw [← writesOf_drop here, ← writesOf_append, List.take_append_drop]

/-- A cell quiet from the next record on is quiet from this one on, or this record writes it. -/
theorem QuietFrom.of_succ {offset : Nat} {cell : κ} {record : ρ}
    (quiet : QuietFrom system calls log (offset + 1) cell) (here : log[offset]? = some record)
    (misses : ∀ write ∈ (calls record).getD [], system.target write ≠ cell) :
    QuietFrom system calls log offset cell := by
  intro write member
  rw [writesOf_drop here] at member
  rcases List.mem_append.mp member with ours | later
  · exact misses write ours
  · exact quiet write later

theorem QuietFrom.mono {earlier later : Nat} {cell : κ} (ordered : earlier ≤ later)
    (quiet : QuietFrom system calls log earlier cell) : QuietFrom system calls log later cell := by
  intro write member
  apply quiet write
  have split := List.take_append_drop (later - earlier) (log.drop earlier)
  rw [List.drop_drop, Nat.add_sub_cancel' ordered] at split
  rw [← split, writesOf_append]
  exact List.mem_append_right _ member

/-- If this record is the last to write the cell, its writes alone give the final value. -/
theorem read_final_of_last (initial state : σ) {offset : Nat} {cell : κ} {record : ρ}
    (here : log[offset]? = some record) (quiet : QuietFrom system calls log (offset + 1) cell)
    (touched : ∃ write ∈ (calls record).getD [], system.target write = cell) :
    system.read (system.performAll state ((calls record).getD [])) cell =
      system.read (system.performAll initial (writesOf calls log)) cell := by
  rw [writesOf_split here, system.performAll_append, system.performAll_append,
    system.read_performAll_untouched _ quiet]
  exact system.read_performAll_touched _ _ touched

theorem converging_start (initial : σ) :
    Converging system calls log initial (start initial) := by
  refine ⟨fun cell quiet => ?_, fun writes impossible => by cases impossible⟩
  exact (system.read_performAll_untouched initial quiet).symm

theorem converging_step {initial : σ} {delivery delivery' : Delivery σ ω} {action : DeliveryAction}
    (converging : Converging system calls log initial delivery)
    (stepped : step system calls log delivery action = some delivery') :
    Converging system calls log initial delivery' := by
  cases action with
  | begin =>
    simp only [step] at stepped
    split at stepped
    · rename_i record idle here
      obtain ⟨writes, called, rfl⟩ := Option.map_eq_some_iff.mp stepped
      refine ⟨converging.settled, fun writes' begun => ?_⟩
      cases begun
      have own : (calls record).getD [] = writes := by rw [called]; rfl
      refine ⟨⟨record, here, fun write member => own.symm ▸ member⟩, fun cell quiet => ?_⟩
      -- no later record writes the cell: either this one is the last to do so, or it was settled
      by_cases touched : ∃ write ∈ writes, system.target write = cell
      · have final := read_final_of_last initial delivery.state here quiet
          (by rwa [own])
        rwa [own] at final
      · have misses : ∀ write ∈ writes, system.target write ≠ cell :=
          fun write member same => touched ⟨write, member, same⟩
        rw [system.read_performAll_untouched _ misses]
        exact converging.settled cell (quiet.of_succ here (by rwa [own]))
    · cases stepped
  | perform =>
    simp only [step] at stepped
    split at stepped
    · rename_i write writes current
      cases stepped
      obtain ⟨⟨record, here, own⟩, value⟩ := converging.current _ current
      refine ⟨fun cell quiet => ?_, fun writes' begun => ?_⟩
      · -- the record being processed still counts as remaining, so its writes miss the cell
        have misses : system.target write ≠ cell := by
          apply quiet write
          rw [writesOf_drop here]
          exact List.mem_append_left _ (own write List.mem_cons_self)
        rw [system.read_perform, if_neg misses]
        exact converging.settled cell quiet
      · cases begun
        exact ⟨⟨record, here, fun w member => own w (List.mem_cons_of_mem _ member)⟩, value⟩
    · cases stepped
  | complete =>
    simp only [step] at stepped
    split at stepped
    · rename_i finished
      cases stepped
      exact ⟨(converging.current [] finished).2, fun _ impossible => by cases impossible⟩
    · cases stepped
  | crash resume =>
    simp only [step] at stepped
    split at stepped
    · rename_i notPast
      cases stepped
      -- what no record from the earlier offset on writes, none from the later one on writes
      exact ⟨fun cell quiet => converging.settled cell (quiet.mono notPast),
        fun _ impossible => by cases impossible⟩
    · cases stepped

/-- A delivery that has reached the end of the log left the state of one crash-free pass. -/
theorem state_of_end {initial : σ} {final : Delivery σ ω} {trace : List DeliveryAction}
    (reached : run (step system calls log) (start initial) trace = some final)
    (ended : final.position = log.length) :
    final.state = system.performAll initial (writesOf calls log) := by
  have converging : Converging system calls log initial final :=
    run_invariant _ (fun _ _ _ _ => converging_step) (converging_start initial) reached
  apply system.ext
  intro cell
  apply converging.settled cell
  rw [ended, QuietFrom, List.drop_length]
  intro write member
  cases member

end Delivery

end TrainWatch.Library
