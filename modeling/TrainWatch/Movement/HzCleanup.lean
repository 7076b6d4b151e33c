import TrainWatch.Movement.Pipeline

/-! # The cleanup job beside the pipeline

`HzCleanup` schedules two periodic tasks on one thread.  A pass selects the stale entries
of a snapshot and evicts their train ids one by one; producer and processor go on in
between.  A task that throws is not run again.
-/

namespace TrainWatch.Movement

open TrainWatch.Java TrainWatch.RefData TrainWatch.Library

/-- A pass with the train ids it has still to evict. -/
inductive Pass where
  | movements (pending : List String)
  | activations (pending : List String)
deriving DecidableEq, Repr

structure HzCleanup where
  system : State
  pass : Option Pass
  activationTask : Bool

namespace HzCleanup

inductive Action where
  | beginMovements (now : LocalDateTime) (values : List TrainMovement)
  | beginActivations (now : LocalDateTime) (values : List TrainActivation)
  | evict
  | finish
  | others (action : Movement.Action)

def start : HzCleanup := ⟨State.empty, none, true⟩

/-- The thread evicts the next train id, if it has one. -/
def evict (c : HzCleanup) : Option HzCleanup :=
  match c.pass with
  | some (.movements (trainId :: pending)) =>
    some { c with
      system := { c.system with movements := c.system.movements.evict trainId }
      pass := some (.movements pending) }
  | some (.activations (trainId :: pending)) =>
    some { c with
      system := { c.system with activations := c.system.activations.evict trainId }
      pass := some (.activations pending) }
  | _ => none

def step (repos : ReferenceRepos) (c : HzCleanup) : Action → Option HzCleanup
  | .beginMovements now values =>
    if c.pass = none ∧ (values : Multiset _) = IMap.values c.system.movements then
      some { c with
        pass :=
          some (.movements (c.system.movements.beginPass now movementThreshold values).pending) }
    else none
  | .beginActivations now values =>
    if c.pass = none ∧ c.activationTask = true ∧
      (values : Multiset _) = IMap.values c.system.activations then
      match c.system.activations.beginPass now activationThreshold values with
      | .ok sweep => some { c with pass := some (.activations sweep.pending) }
      | .error _ => some { c with activationTask := false }
    else none
  | .evict => c.evict
  | .finish =>
    match c.pass with
    | some (.movements []) => some { c with pass := none }
    | some (.activations []) => some { c with pass := none }
    | _ => none
  | .others action =>
    match action with
    | .evictMovements _ _ _ => none
    | .evictActivations _ _ _ => none
    | action => (c.system.step repos action).map fun system => { c with system := system }

/-! ## What a step can do -/

variable {repos : ReferenceRepos} {c c' : HzCleanup}

theorem step_beginActivations {now : LocalDateTime} {values : List TrainActivation}
    (stepped : c.step repos (.beginActivations now values) = some c') :
    c.pass = none ∧ c.activationTask = true ∧
      (values : Multiset _) = IMap.values c.system.activations ∧
      ((∃ sweep, c.system.activations.beginPass now activationThreshold values = .ok sweep ∧
          c' = { c with pass := some (.activations sweep.pending) }) ∨
        (∃ thrown, c.system.activations.beginPass now activationThreshold values = .error thrown) ∧
          c' = { c with activationTask := false }) := by
  simp only [step] at stepped
  split at stepped
  · rename_i free
    obtain ⟨idle, scheduled, snapshot⟩ := free
    refine ⟨idle, scheduled, snapshot, ?_⟩
    split at stepped
    · rename_i sweep begun
      cases stepped
      exact .inl ⟨sweep, begun, rfl⟩
    · rename_i thrown threw
      cases stepped
      exact .inr ⟨⟨thrown, threw⟩, rfl⟩
  · cases stepped

theorem step_others {action : Movement.Action} (stepped : c.step repos (.others action) = some c') :
    (∀ now ageInHours values, action ≠ .evictActivations now ageInHours values) ∧
      ∃ system, c.system.step repos action = some system ∧ c' = { c with system := system } := by
  simp only [step] at stepped
  split at stepped
  · cases stepped
  · cases stepped
  · rename_i _ notEvict
    obtain ⟨system, ran, same⟩ := Option.map_eq_some_iff.mp stepped
    exact ⟨notEvict, system, ran, same.symm⟩

theorem evict_eq_some (stepped : c.evict = some c') :
    (∃ trainId pending, c.pass = some (.movements (trainId :: pending)) ∧
      c' = { c with
        system := { c.system with movements := c.system.movements.evict trainId }
        pass := some (.movements pending) }) ∨
    ∃ trainId pending, c.pass = some (.activations (trainId :: pending)) ∧
      c' = { c with
        system := { c.system with activations := c.system.activations.evict trainId }
        pass := some (.activations pending) } := by
  unfold evict at stepped
  split at stepped
  · rename_i trainId pending pass
    cases stepped
    exact .inl ⟨trainId, pending, pass, rfl⟩
  · rename_i trainId pending pass
    cases stepped
    exact .inr ⟨trainId, pending, pass, rfl⟩
  · cases stepped

/-- The selection throws where it meets an entry that is not too old and has no departure. -/
theorem beginPass_throws_iff {map : HzTrainActivationRepo} {now : LocalDateTime} {ageInHours : Int}
    {values : List TrainActivation} :
    (∃ thrown, map.beginPass now ageInHours values = .error thrown) ↔
      ∃ ta ∈ values, ta.timestamp.isBefore (now.minusHours ageInHours) = false ∧
        ta.schedule.departure = none := by
  have same : (∃ thrown, map.beginPass now ageInHours values = .error thrown) ↔
      ¬ ∃ map', map.evictOlderThan now ageInHours values = .ok map' := by
    unfold HzTrainActivationRepo.beginPass HzTrainActivationRepo.evictOlderThan
    cases selection : HzTrainActivationRepo.stale now ageInHours values with
    | ok selected => exact ⟨fun ⟨_, threw⟩ => (nomatch threw), fun stuck => absurd ⟨_, rfl⟩ stuck⟩
    | error thrown => exact ⟨fun _ ⟨_, evicted⟩ => (nomatch evicted), fun _ => ⟨thrown, rfl⟩⟩
  rw [same, HzTrainActivationRepo.evictOlderThan_completes]
  simp only [not_forall, not_or, Bool.not_eq_true, Option.isSome_eq_false_iff,
    Option.isNone_iff_eq_none, exists_prop]

end HzCleanup

end TrainWatch.Movement
