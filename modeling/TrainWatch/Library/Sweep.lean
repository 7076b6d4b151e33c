import TrainWatch.Library.IMap
import TrainWatch.Library.Transition

/-! # Check-then-act sweeps of a shared map

A sweep first selects the keys to evict from a snapshot and then evicts them one by
one, while other clients go on writing.  The eviction is by key alone: it does not
look at the entry again.  So an entry written in between survives exactly when its
key is not waiting to be evicted at that moment.
-/

namespace TrainWatch.Library

universe u v

/-- The map and the selected keys that are still to be evicted. -/
structure Sweep (κ : Type u) (ν : Type v) where
  map : IMap κ ν
  pending : List κ

inductive SweepAction (ν : Type v) where
  | put (value : ν)
  | evict
deriving DecidableEq, Repr

namespace Sweep

variable {κ : Type u} {ν : Type v} [DecidableEq κ] (key : ν → κ)

def step (sweep : Sweep κ ν) : SweepAction ν → Option (Sweep κ ν)
  | .put value => some { sweep with map := sweep.map.set (key value) value }
  | .evict =>
    match sweep.pending with
    | next :: pending => some { map := sweep.map.evict next, pending := pending }
    | [] => none

variable {key}

/-- With no further write to `k`, the rest of the sweep takes `k` away exactly if it is pending. -/
theorem get_of_finished {start final : Sweep κ ν} {trace : List (SweepAction ν)} {k : κ}
    (reached : run (step key) start trace = some final) (finished : final.pending = [])
    (unwritten : ∀ value, .put value ∈ trace → key value ≠ k) :
    final.map.get k = if k ∈ start.pending then none else start.map.get k := by
  induction trace generalizing start with
  | nil =>
    cases reached
    simp [finished]
  | cons action trace inductionHypothesis =>
    obtain ⟨next, first, rest⟩ := run_cons_eq_some.mp reached
    -- an entry that nobody writes is there at the end unless the sweep still has to evict it
    have tail := inductionHypothesis rest fun value member =>
      unwritten value (List.mem_cons_of_mem _ member)
    cases action with
    | put value =>
      cases first
      have different : k ≠ key value := (unwritten value List.mem_cons_self).symm
      rw [tail, IMap.get_set_of_ne _ _ different]
    | evict =>
      simp only [step] at first
      split at first
      · rename_i evicted pending current
        cases first
        rw [tail, current, IMap.get_evict]
        by_cases waiting : k ∈ pending
        · simp [waiting]
        · by_cases same : k = evicted <;> simp [waiting, same]
      · cases first

def evictions (trace : List (SweepAction ν)) : Nat :=
  trace.countP fun action => match action with
    | .put _ => false
    | .evict => true

theorem pending_of_run {start final : Sweep κ ν} {trace : List (SweepAction ν)}
    (reached : run (step key) start trace = some final) :
    final.pending = start.pending.drop (evictions trace) := by
  induction trace generalizing start with
  | nil =>
    cases reached
    simp [evictions]
  | cons action trace inductionHypothesis =>
    obtain ⟨next, first, rest⟩ := run_cons_eq_some.mp reached
    have tail := inductionHypothesis rest
    cases action with
    | put value =>
      cases first
      simpa [evictions] using tail
    | evict =>
      simp only [step] at first
      split at first
      · rename_i evicted pending current
        cases first
        simpa [evictions, current] using tail
      · cases first

/-- A put made during the sweep, and not written over, is still there at the end if and only
    if its key was not waiting to be evicted when it was made. -/
theorem put_survives_iff {start final : Sweep κ ν} {before after : List (SweepAction ν)} {value : ν}
    (reached : run (step key) start (before ++ .put value :: after) = some final)
    (finished : final.pending = []) (last : ∀ other, .put other ∈ after → key other ≠ key value) :
    final.map.get (key value) = some value ↔ key value ∉ start.pending.drop (evictions before) := by
  obtain ⟨middle, earlier, rest⟩ := run_append_eq_some.mp reached
  obtain ⟨written, put, later⟩ := run_cons_eq_some.mp rest
  cases put
  rw [get_of_finished later finished last, IMap.get_set_self, ← pending_of_run earlier]
  by_cases waiting : key value ∈ middle.pending
  · simp [waiting]
  · simp [waiting]

/-- A put under a key that was not selected stays, whenever it is made. -/
theorem put_survives_of_unselected {start final : Sweep κ ν} {before after : List (SweepAction ν)}
    {value : ν}
    (reached : run (step key) start (before ++ .put value :: after) = some final)
    (finished : final.pending = []) (last : ∀ other, .put other ∈ after → key other ≠ key value)
    (unselected : key value ∉ start.pending) : final.map.get (key value) = some value :=
  (put_survives_iff reached finished last).mpr fun waiting =>
    unselected (List.mem_of_mem_drop waiting)

/-- Undisturbed, a sweep is the eviction of all its keys. -/
theorem run_undisturbed (map : IMap κ ν) (keys : List κ) :
    run (step key) ⟨map, keys⟩
      (keys.map fun _ => SweepAction.evict) = some ⟨map.evictAll keys, []⟩ := by
  induction keys generalizing map with
  | nil => rfl
  | cons k keys inductionHypothesis => exact inductionHypothesis (map.evict k)

end Sweep

end TrainWatch.Library
