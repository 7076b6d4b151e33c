import Mathlib.Data.List.Basic

/-! # States written blindly, cell by cell

A write names a cell and the value the cell has afterwards; it never depends on
what the cell held.  So the final value of a cell is decided by the last write to
it, and two lists of writes that agree cell by cell have the same effect.  The
modules `Interleaving` and `Redelivery` rest on nothing else.
-/

namespace TrainWatch.Library

universe u v w x

/-- A state `σ` read through cells `κ`, whose operations `ω` are blind writes. -/
structure WriteSystem (σ : Type u) (ω : Type v) (κ : Type w) (ν : Type x) [DecidableEq κ] where
  read : σ → κ → ν
  perform : σ → ω → σ
  target : ω → κ
  value : ω → ν
  read_perform : ∀ state write cell,
    read (perform state write) cell = if target write = cell then value write else read state cell
  ext : ∀ state state', (∀ cell, read state cell = read state' cell) → state = state'

namespace WriteSystem

variable {σ : Type u} {ω : Type v} {κ : Type w} {ν : Type x} [DecidableEq κ]
variable (system : WriteSystem σ ω κ ν)

def performAll (state : σ) (writes : List ω) : σ := writes.foldl system.perform state

def writesTo (cell : κ) (writes : List ω) : List ω :=
  writes.filter fun write => system.target write = cell

@[simp] theorem performAll_cons (state : σ) (write : ω) (writes : List ω) :
    system.performAll state (write :: writes) =
      system.performAll (system.perform state write) writes := rfl

theorem performAll_append (state : σ) (first second : List ω) :
    system.performAll state (first ++ second) =
      system.performAll (system.performAll state first) second := List.foldl_append

theorem writesTo_append (cell : κ) (first second : List ω) :
    system.writesTo cell (first ++ second) =
      system.writesTo cell first ++ system.writesTo cell second := List.filter_append first second

theorem writesTo_eq_nil {cell : κ} {writes : List ω} :
    system.writesTo cell writes = [] ↔ ∀ write ∈ writes, system.target write ≠ cell := by
  simp [writesTo, List.filter_eq_nil_iff]

/-- The last write to a cell decides what the cell holds. -/
theorem read_performAll (state : σ) (writes : List ω) (cell : κ) :
    system.read (system.performAll state writes) cell =
      ((system.writesTo cell writes).getLast?.map system.value).getD (system.read state cell) := by
  induction writes generalizing state with
  | nil => rfl
  | cons write writes inductionHypothesis =>
    rw [performAll_cons, inductionHypothesis, system.read_perform]
    by_cases same : system.target write = cell
    · simp only [writesTo, List.filter_cons, same, decide_true, if_true, List.getLast?_cons]
      cases (writes.filter fun write => system.target write = cell).getLast? <;> rfl
    · simp [writesTo, same]

theorem read_performAll_untouched {writes : List ω} {cell : κ} (state : σ)
    (untouched : ∀ write ∈ writes, system.target write ≠ cell) :
    system.read (system.performAll state writes) cell = system.read state cell := by
  rw [read_performAll, system.writesTo_eq_nil.mpr untouched]
  rfl

theorem read_performAll_touched {writes : List ω} {cell : κ} (state state' : σ)
    (touched : ∃ write ∈ writes, system.target write = cell) :
    system.read (system.performAll state writes) cell =
      system.read (system.performAll state' writes) cell := by
  have nonempty : system.writesTo cell writes ≠ [] := by
    intro empty
    obtain ⟨write, member, same⟩ := touched
    exact system.writesTo_eq_nil.mp empty write member same
  simp only [read_performAll, List.getLast?_eq_some_getLast nonempty, Option.map_some,
    Option.getD_some]

theorem read_performAll_congr {state state' : σ} {cell : κ} (writes : List ω)
    (same : system.read state cell = system.read state' cell) :
    system.read (system.performAll state writes) cell =
      system.read (system.performAll state' writes) cell := by
  simp only [read_performAll, same]

theorem read_performAll_of_writesTo_eq {writes writes' : List ω} {cell : κ} (state : σ)
    (same : system.writesTo cell writes = system.writesTo cell writes') :
    system.read (system.performAll state writes) cell =
      system.read (system.performAll state writes') cell := by
  simp only [read_performAll, same]

end WriteSystem

/-! ## Records that stand for writes -/

section Records

variable {ω : Type v} {ρ : Type w} (calls : ρ → Option (List ω))

/-- All the writes a list of records stands for; a record whose processing fails has none. -/
def writesOf (records : List ρ) : List ω := records.flatMap fun record => (calls record).getD []

theorem writesOf_cons (record : ρ) (records : List ρ) :
    writesOf calls (record :: records) = (calls record).getD [] ++ writesOf calls records := rfl

theorem writesOf_append (first second : List ρ) :
    writesOf calls (first ++ second) = writesOf calls first ++ writesOf calls second :=
  List.flatMap_append

theorem mem_writesOf {write : ω} {records : List ρ} :
    write ∈ writesOf calls records ↔ ∃ record ∈ records, write ∈ (calls record).getD [] :=
  List.mem_flatMap

end Records

end TrainWatch.Library
