import TrainWatch.Verified.Steps

/-! # Puts that race with a cleanup pass

A pass selects stale entries from a snapshot and then evicts their train ids one by one,
without another look at the entries.  A put that falls in between survives the pass
unless its train id is one of those still to be evicted, however fresh the entry is.
-/

namespace TrainWatch.Verified.CleanupRaces

open TrainWatch.Java TrainWatch.RefData TrainWatch.Library TrainWatch.Movement

/-- `evictOlderThan` of the movements is a pass without interruption. -/
theorem movement_pass_undisturbed (map : HzTrainMovementRepo) (now : LocalDateTime)
    (ageInHours : Int)
    (values : List TrainMovement) :
    ∃ trace, run (Sweep.step TrainMovement.trainId) (map.beginPass now ageInHours values) trace =
      some ⟨map.evictOlderThan now ageInHours values, []⟩ :=
  ⟨_, Sweep.run_undisturbed map _⟩

/-- And so is that of the activations, when its selection does not throw. -/
theorem activation_pass_undisturbed {map evicted : HzTrainActivationRepo} {now : LocalDateTime}
    {ageInHours : Int} {values : List TrainActivation}
    (completed : map.evictOlderThan now ageInHours values = .ok evicted) :
    ∃ started trace, map.beginPass now ageInHours values = .ok started ∧
      run (Sweep.step TrainActivation.trainId) started trace = some ⟨evicted, []⟩ := by
  obtain ⟨selected, selection, rfl⟩ := HzTrainActivationRepo.evictOlderThan_eq_ok.mp completed
  exact ⟨⟨map, selected.map (·.trainId)⟩, _, by simp [HzTrainActivationRepo.beginPass, selection],
    Sweep.run_undisturbed map _⟩

/-- In every interleaving of a pass over either store with puts, an entry put after the snapshot,
    and not put again, is in the store when the pass ends if and only if its train id was not
    among the selected ones still to be evicted. -/
theorem put_during_pass_survives_iff :
    (∀ (map : HzTrainMovementRepo) now ageInHours values before tm after final,
      run (Sweep.step TrainMovement.trainId) (map.beginPass now ageInHours values)
        (before ++ .put tm :: after) = some final →
      final.pending = [] → (∀ other, .put other ∈ after → other.trainId ≠ tm.trainId) →
      (IMap.get final.map tm.trainId = some tm ↔
        tm.trainId ∉ ((HzTrainMovementRepo.stale now ageInHours values).map (·.trainId)).drop
          (Sweep.evictions before))) ∧
    (∀ (map : HzTrainActivationRepo) now ageInHours values selected before ta after started final,
      HzTrainActivationRepo.stale now ageInHours values = .ok selected →
      map.beginPass now ageInHours values = .ok started →
      run (Sweep.step TrainActivation.trainId) started (before ++ .put ta :: after) = some final →
      final.pending = [] → (∀ other, .put other ∈ after → other.trainId ≠ ta.trainId) →
      (IMap.get final.map ta.trainId = some ta ↔
        ta.trainId ∉ (selected.map (·.trainId)).drop (Sweep.evictions before))) := by
  constructor
  · intro map now ageInHours values before tm after final reached finished last
    exact Sweep.put_survives_iff reached finished last
  · intro map now ageInHours values selected before ta after started final selection begun reached
      finished last
    have start : started = ⟨map, selected.map (·.trainId)⟩ := by
      simpa [HzTrainActivationRepo.beginPass, selection] using begun.symm
    subst start
    exact Sweep.put_survives_iff reached finished last

/-- So a movement survives whose train has no stale entry in the snapshot, at whatever moment it is
    put. -/
theorem unselected_movement_survives {map : HzTrainMovementRepo} {now : LocalDateTime}
    {ageInHours : Int}
    {values : List TrainMovement} {before after : List (SweepAction TrainMovement)}
    {tm : TrainMovement}
    {final : Sweep String TrainMovement}
    (reached : run (Sweep.step TrainMovement.trainId) (map.beginPass now ageInHours values)
      (before ++ .put tm :: after) = some final)
    (finished : final.pending = [])
    (last : ∀ other, .put other ∈ after → other.trainId ≠ tm.trainId)
    (noneStale : ∀ stored ∈ values, stored.timestamp.isBefore (now.minusHours ageInHours) = true →
      stored.trainId ≠ tm.trainId) :
    IMap.get final.map tm.trainId = some tm := by
  refine Sweep.put_survives_of_unselected reached finished last fun selected => ?_
  obtain ⟨stored, stale, same⟩ := List.mem_map.mp selected
  obtain ⟨inSnapshot, isStale⟩ := List.mem_filter.mp stale
  exact noneStale stored inSnapshot isStale same

/-- And so does an activation. -/
theorem unselected_activation_survives {map : HzTrainActivationRepo} {now : LocalDateTime}
    {ageInHours : Int}
    {values : List TrainActivation} {before after : List (SweepAction TrainActivation)}
    {ta : TrainActivation}
    {started final : Sweep String TrainActivation}
    (begun : map.beginPass now ageInHours values = .ok started)
    (reached :
      run (Sweep.step TrainActivation.trainId) started (before ++ .put ta :: after) = some final)
    (finished : final.pending = [])
    (last : ∀ other, .put other ∈ after → other.trainId ≠ ta.trainId)
    (noneStale : ∀ stored ∈ values, HzTrainActivationRepo.Stale now ageInHours stored →
      stored.trainId ≠ ta.trainId) :
    IMap.get final.map ta.trainId = some ta := by
  obtain ⟨selected, selection, same⟩ := bind_eq_ok.mp begun
  cases same
  refine Sweep.put_survives_of_unselected reached finished last fun isSelected => ?_
  obtain ⟨stored, stale, same⟩ := List.mem_map.mp isSelected
  obtain ⟨inSnapshot, isStale⟩ := (HzTrainActivationRepo.mem_stale selection).mp stale
  exact noneStale stored inSnapshot isStale same

/-! ## A late movement of the sample train -/

open Sample

/-- What the store holds of the train at 10:41, more than two hours after it last moved. -/
def oldMovement : TrainMovement := { movement with timestamp := clock 8 0 }

def oldActivation : TrainActivation :=
  { activation with timestamp := ⟨(clock 9 0).epochMilli - millisPerDay⟩ }

/-- The rule at puts that come after the eviction of their train id. -/
theorem put_after_eviction_survives :
    (∃ final, run (Sweep.step TrainMovement.trainId)
        (HzTrainMovementRepo.beginPass (IMap.set ∅ oldMovement.trainId oldMovement) (clock 10 41)
          HzCleanup.movementThreshold [oldMovement]) [.evict, .put movement] = some final ∧
      IMap.get final.map movement.trainId = some movement) ∧
    (∃ started final, HzTrainActivationRepo.beginPass
      (IMap.set ∅ oldActivation.trainId oldActivation)
        (clock 9 0) HzCleanup.activationThreshold [oldActivation] = .ok started ∧
      run (Sweep.step TrainActivation.trainId) started [.evict, .put activation] = some final ∧
      IMap.get final.map activation.trainId = some activation) := by
  constructor
  · refine ⟨_, rfl, (put_during_pass_survives_iff.1 _ (clock 10 41) HzCleanup.movementThreshold
      [oldMovement] [.evict] movement [] _ rfl rfl (by simp)).mpr (by decide)⟩
  · have selection : HzTrainActivationRepo.stale (clock 9 0) HzCleanup.activationThreshold
        [oldActivation] = .ok [oldActivation] := by decide
    refine ⟨_, _, by rw [HzTrainActivationRepo.beginPass, selection]; rfl, rfl, ?_⟩
    exact (put_during_pass_survives_iff.2 (IMap.set ∅ oldActivation.trainId oldActivation)
      (clock 9 0)
      HzCleanup.activationThreshold [oldActivation] [oldActivation] [.evict] activation [] _ _
      selection
      (by rw [HzTrainActivationRepo.beginPass, selection]; rfl) rfl rfl (by simp)).mpr (by decide)

/-- The old movement is selected, a new one arrives, and the eviction takes the new one. -/
theorem put_before_eviction_is_lost :
    ∃ final, run (Sweep.step TrainMovement.trainId)
        (HzTrainMovementRepo.beginPass (IMap.set ∅ oldMovement.trainId oldMovement) (clock 10 41)
          HzCleanup.movementThreshold [oldMovement]) [.put movement, .evict] = some final ∧
      final.pending = [] ∧
      ([oldMovement] : Multiset TrainMovement) =
        IMap.values (IMap.set ∅ oldMovement.trainId oldMovement) ∧
      movement.timestamp.isBefore ((clock 10 41).minusHours HzCleanup.movementThreshold) = false ∧
      IMap.get final.map movement.trainId = none := by
  have evaluated : (run (Sweep.step TrainMovement.trainId)
      (HzTrainMovementRepo.beginPass (IMap.set ∅ oldMovement.trainId oldMovement) (clock 10 41)
        HzCleanup.movementThreshold [oldMovement]) [.put movement, .evict]).map
      (fun final => decide (final.pending = [] ∧
        IMap.get final.map movement.trainId = none)) = some true := by decide
  obtain ⟨final, reached, lost⟩ := Option.map_eq_some_iff.mp evaluated
  obtain ⟨finished, gone⟩ := of_decide_eq_true lost
  exact ⟨final, reached, finished, by decide, by decide, gone⟩

end TrainWatch.Verified.CleanupRaces
