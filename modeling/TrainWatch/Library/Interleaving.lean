import TrainWatch.Library.BlindWrites
import TrainWatch.Library.Transition
import Mathlib.Data.Fintype.Defs
import Mathlib.Logic.Function.Basic

/-! # Interleaved workers over one shared state

Every worker takes the records of its own queue in order and performs the writes
of a record one at a time; the scheduler picks which worker moves.  A cell is
*owned* by a worker when no other worker ever writes it.  If every cell has an
owner, all complete schedules end in the same state.
-/

namespace TrainWatch.Library

universe u v w x y z

/-- A worker: the records it has not begun, and the writes left of the current one. -/
structure Worker (ρ : Type u) (ω : Type v) where
  queue : List ρ
  pending : List ω
deriving DecidableEq, Repr

/-- The shared state and what every worker still has to do. -/
structure Workers (σ : Type u) (π : Type v) (ρ : Type w) (ω : Type x) where
  state : σ
  workers : π → Worker ρ ω

inductive WorkerAction (π : Type u) where
  | begin (worker : π)
  | perform (worker : π)
deriving DecidableEq, Repr

namespace Workers

variable {σ : Type u} {ω : Type v} {κ : Type w} {ν : Type x} {π : Type y} {ρ : Type z}
variable [DecidableEq κ] [DecidableEq π]
variable (system : WriteSystem σ ω κ ν) (calls : ρ → Option (List ω))

/-- `begin` takes the next record, whose writes `calls` gives (`none` when processing
    it fails, and then the worker stays where it is); `perform` does one write. -/
def step (config : Workers σ π ρ ω) : WorkerAction π → Option (Workers σ π ρ ω)
  | .begin worker =>
    match config.workers worker with
    | ⟨record :: queue, []⟩ => (calls record).map fun writes =>
        { config with workers := Function.update config.workers worker ⟨queue, writes⟩ }
    | _ => none
  | .perform worker =>
    match config.workers worker with
    | ⟨queue, write :: pending⟩ => some
        { state := system.perform config.state write
          workers := Function.update config.workers worker ⟨queue, pending⟩ }
    | _ => none

def Idle (config : Workers σ π ρ ω) : Prop := ∀ worker, config.workers worker = ⟨[], []⟩

instance [Fintype π] [DecidableEq ρ] [DecidableEq ω] (config : Workers σ π ρ ω) :
    Decidable config.Idle :=
  inferInstanceAs (Decidable (∀ worker, config.workers worker = ⟨[], []⟩))

def outstanding (worker : Worker ρ ω) : List ω := worker.pending ++ writesOf calls worker.queue

def Owned (config : Workers σ π ρ ω) (owner : π) (cell : κ) : Prop :=
  ∀ worker, worker ≠ owner →
    ∀ write ∈ outstanding calls (config.workers worker), system.target write ≠ cell

/-- `owner` alone has writes to `cell` left, and performing them now would leave in it
    the value that performing `program` from the start leaves. -/
def Determined (start : σ) (program : List ω) (owner : π) (cell : κ)
    (config : Workers σ π ρ ω) : Prop :=
  Owned system calls config owner cell ∧
    system.read (system.performAll config.state (outstanding calls (config.workers owner))) cell =
      system.read (system.performAll start program) cell

variable {system calls}

theorem step_cases {config config' : Workers σ π ρ ω} {action : WorkerAction π}
    (stepped : step system calls config action = some config') :
    (∃ worker record queue writes, config.workers worker = ⟨record :: queue, []⟩ ∧
      calls record = some writes ∧
      config' = { config with workers := Function.update config.workers worker ⟨queue, writes⟩ }) ∨
    (∃ worker queue write pending, config.workers worker = ⟨queue, write :: pending⟩ ∧
      config' = { state := system.perform config.state write
                  workers := Function.update config.workers worker ⟨queue, pending⟩ }) := by
  cases action with
  | begin worker =>
    simp only [step] at stepped
    split at stepped
    · rename_i record queue current
      obtain ⟨writes, called, rfl⟩ := Option.map_eq_some_iff.mp stepped
      exact .inl ⟨worker, record, queue, writes, current, called, rfl⟩
    · cases stepped
  | perform worker =>
    simp only [step] at stepped
    split at stepped
    · rename_i queue write pending current
      cases stepped
      exact .inr ⟨worker, queue, write, pending, current, rfl⟩
    · cases stepped

theorem outstanding_begin {record : ρ} {queue : List ρ} {writes : List ω}
    (called : calls record = some writes) :
    outstanding calls ⟨queue, writes⟩ = outstanding calls ⟨record :: queue, []⟩ := by
  simp [outstanding, writesOf, called]

theorem outstanding_perform (queue : List ρ) (write : ω) (pending : List ω) :
    outstanding calls ⟨queue, write :: pending⟩ = write :: outstanding calls ⟨queue, pending⟩ := rfl

theorem determined_step {start : σ} {program : List ω} {owner : π} {cell : κ}
    {config config' : Workers σ π ρ ω} {action : WorkerAction π}
    (determined : Determined system calls start program owner cell config)
    (stepped : step system calls config action = some config') :
    Determined system calls start program owner cell config' := by
  obtain ⟨owned, value⟩ := determined
  rcases step_cases stepped with ⟨worker, record, queue, writes, current, called, rfl⟩ |
    ⟨worker, queue, write, pending, current, rfl⟩
  · -- beginning a record only unfolds what the worker has outstanding
    have same :
        ∀ other, outstanding calls (Function.update config.workers worker ⟨queue, writes⟩ other) =
        outstanding calls (config.workers other) := by
      intro other
      by_cases this : other = worker
      · rw [this, Function.update_self, current, outstanding_begin called]
      · rw [Function.update_of_ne this]
    refine ⟨fun other different write member => ?_, ?_⟩
    · simp only [same] at member
      exact owned other different write member
    · simpa only [same] using value
  · refine ⟨fun other different write' member => ?_, ?_⟩
    · by_cases this : other = worker
      · subst this
        simp only [Function.update_self] at member
        apply owned other different
        rw [current, outstanding_perform]
        exact List.mem_cons_of_mem _ member
      · simp only [Function.update_of_ne this] at member
        exact owned other different write' member
    · by_cases this : owner = worker
      · subst this
        simpa only [Function.update_self, current, outstanding_perform,
          WriteSystem.performAll_cons] using value
      · -- the write of another worker misses the cell
        have misses : system.target write ≠ cell := by
          apply owned worker (Ne.symm this)
          rw [current, outstanding_perform]
          exact List.mem_cons_self
        simp only [Function.update_of_ne this]
        rw [← value]
        apply system.read_performAll_congr
        rw [system.read_perform, if_neg misses]

/-- In every complete schedule an owned cell ends as its owner's program leaves it. -/
theorem read_of_idle {config final : Workers σ π ρ ω} {trace : List (WorkerAction π)}
    {owner : π} {cell : κ} (owned : Owned system calls config owner cell)
    (reached : run (step system calls) config trace = some final) (idle : final.Idle) :
    system.read final.state cell =
      system.read
        (system.performAll config.state (outstanding calls (config.workers owner))) cell := by
  have determined : Determined system calls config.state
      (outstanding calls (config.workers owner)) owner cell final :=
    run_invariant _ (fun _ _ _ _ => determined_step) ⟨owned, rfl⟩ reached
  rw [← determined.2, idle owner]
  rfl

theorem writesTo_writesOf_filter {records : List ρ} {keep : ρ → Bool} {cell : κ}
    (unkept : ∀ record ∈ records, keep record = false →
      ∀ write ∈ (calls record).getD [], system.target write ≠ cell) :
    system.writesTo cell (writesOf calls (records.filter keep)) =
      system.writesTo cell (writesOf calls records) := by
  induction records with
  | nil => rfl
  | cons record records inductionHypothesis =>
    have tail := inductionHypothesis fun other member =>
      unkept other (List.mem_cons_of_mem _ member)
    rw [writesOf_cons, system.writesTo_append, ← tail]
    cases kept : keep record with
    | true => rw [List.filter_cons_of_pos kept, writesOf_cons, system.writesTo_append]
    | false =>
      have misses := unkept record List.mem_cons_self kept
      rw [List.filter_cons_of_neg (by simp [kept]), system.writesTo_eq_nil.mpr misses,
        List.nil_append]

/-- A log divided over workers: if every record that writes a cell is in the queue of the cell's
    owner and in no other, every complete schedule has the effect of the whole log in order. -/
theorem state_of_idle {log : List ρ} {keep : π → ρ → Bool} {start : σ} {final : Workers σ π ρ ω}
    {trace : List (WorkerAction π)} (owner : κ → π)
    (divided : ∀ record ∈ log, ∀ write ∈ (calls record).getD [], ∀ worker,
      keep worker record = true ↔ worker = owner (system.target write))
    (reached : run (step system calls) ⟨start, fun worker => ⟨log.filter (keep worker), []⟩⟩ trace =
      some final)
    (idle : final.Idle) : final.state = system.performAll start (writesOf calls log) := by
  apply system.ext
  intro cell
  have owned :
      Owned system calls ⟨start, fun worker => ⟨log.filter (keep worker), []⟩⟩
      (owner cell) cell := by
    intro worker different write member same
    obtain ⟨record, queued, own⟩ := (mem_writesOf calls).mp member
    obtain ⟨inLog, kept⟩ := List.mem_filter.mp queued
    have here := (divided record inLog write own worker).mp kept
    rw [same] at here
    exact different here
  rw [read_of_idle owned reached idle]
  -- the owner's queue holds every record that writes the cell, in the order of the log
  apply system.read_performAll_of_writesTo_eq
  apply writesTo_writesOf_filter
  intro record inLog unkept write own same
  have kept := (divided record inLog write own (owner cell)).mpr (by rw [same])
  rw [unkept] at kept
  cases kept

end Workers

end TrainWatch.Library
