import TrainWatch.Movement.Model
import TrainWatch.Java.Streams
import TrainWatch.Library.Sweep

/-! # The two shared stores and their cleanup

Both repositories write an entry under the train id of its value.  `evictOlderThan`
reads the clock, selects the stale values of a snapshot and evicts their train ids;
`values` stands for the order in which the snapshot lists the entries.
-/

namespace TrainWatch.Movement

open TrainWatch.Java TrainWatch.RefData TrainWatch.Library

abbrev HzTrainActivationRepo := IMap String TrainActivation

namespace HzTrainActivationRepo

/-- The map rejects a null key. -/
def get (map : HzTrainActivationRepo) (trainId : Option String) :
    Except JavaException (Option TrainActivation) := do
  let trainId ← nonNull trainId
  pure (IMap.get map trainId)

def put (map : HzTrainActivationRepo) (t : TrainActivation) : HzTrainActivationRepo :=
  IMap.set map t.trainId t

def delete (map : HzTrainActivationRepo) (trainId : String) : HzTrainActivationRepo :=
  IMap.delete map trainId

/-- Stored before the age threshold, or due to depart, by time of day, before the departed
    threshold.  The departure is only dereferenced when the first test fails. -/
def isStale (ageThreshold : LocalDateTime) (departedThreshold : LocalTime) (ta : TrainActivation) :
    Except JavaException Bool :=
  if ta.timestamp.isBefore ageThreshold then .ok true
  else do
    let departure ← nonNull ta.schedule.departure
    pure (departure.isBefore departedThreshold)

/-- The selection of a pass, at one reading of the clock. -/
def stale (now : LocalDateTime) (ageInHours : Int) (values : List TrainActivation) :
    Except JavaException (List TrainActivation) :=
  let ageThreshold := now.minusHours ageInHours
  let departedThreshold := now.toLocalTime.minusMinutes 1
  filterE (isStale ageThreshold departedThreshold) values

def evictOlderThan (map : HzTrainActivationRepo) (now : LocalDateTime) (ageInHours : Int)
    (values : List TrainActivation) : Except JavaException HzTrainActivationRepo := do
  let stale ← stale now ageInHours values
  pure (IMap.evictAll map (stale.map (·.trainId)))

/-- The pass after its selection, which other threads can still interrupt. -/
def beginPass (map : HzTrainActivationRepo) (now : LocalDateTime) (ageInHours : Int)
    (values : List TrainActivation) : Except JavaException (Sweep String TrainActivation) := do
  let stale ← stale now ageInHours values
  pure ⟨map, stale.map (·.trainId)⟩

end HzTrainActivationRepo

abbrev HzTrainMovementRepo := IMap String TrainMovement

namespace HzTrainMovementRepo

def put (map : HzTrainMovementRepo) (tm : TrainMovement) : HzTrainMovementRepo :=
  IMap.set map tm.trainId tm

def delete (map : HzTrainMovementRepo) (tm : TrainMovement) : HzTrainMovementRepo :=
  IMap.delete map tm.trainId

def stale (now : LocalDateTime) (ageInHours : Int) (values : List TrainMovement) :
    List TrainMovement :=
  let cutoff := now.minusHours ageInHours
  values.filter fun tm => tm.timestamp.isBefore cutoff

def evictOlderThan (map : HzTrainMovementRepo) (now : LocalDateTime) (ageInHours : Int)
    (values : List TrainMovement) : HzTrainMovementRepo :=
  IMap.evictAll map ((stale now ageInHours values).map (·.trainId))

/-- The pass after its selection, which other threads can still interrupt. -/
def beginPass (map : HzTrainMovementRepo) (now : LocalDateTime) (ageInHours : Int)
    (values : List TrainMovement) : Sweep String TrainMovement :=
  ⟨map, (stale now ageInHours values).map (·.trainId)⟩

end HzTrainMovementRepo

/-! ## The cleanup job -/

namespace HzCleanup

def movementThreshold : Int := 2

def activationThreshold : Int := 12

end HzCleanup

/-! ## Selection and eviction -/

/-- What a pass over the activations is to take: too old, or departed by time of day. -/
def HzTrainActivationRepo.Stale (now : LocalDateTime) (ageInHours : Int) (ta : TrainActivation) :
    Prop :=
  ta.timestamp.isBefore (now.minusHours ageInHours) = true ∨
    ∃ departure, ta.schedule.departure = some departure ∧
      departure.isBefore (now.toLocalTime.minusMinutes 1) = true

theorem HzTrainActivationRepo.mem_stale {now : LocalDateTime} {ageInHours : Int}
    {values selected : List TrainActivation}
    (selection : HzTrainActivationRepo.stale now ageInHours values = .ok selected)
    {ta : TrainActivation} :
    ta ∈ selected ↔ ta ∈ values ∧ Stale now ageInHours ta := by
  rw [mem_of_filterE selection]
  refine and_congr_right fun member => ?_
  -- the selection completed, so the test of this entry did not throw
  have selects :
      ∃ verdict, isStale (now.minusHours ageInHours) (now.toLocalTime.minusMinutes 1) ta =
      .ok verdict := ok_of_filterE selection member
  unfold isStale at selects ⊢
  unfold Stale
  by_cases old : ta.timestamp.isBefore (now.minusHours ageInHours) = true
  · simp [old]
  · cases departs : ta.schedule.departure <;> simp_all

theorem HzTrainActivationRepo.evictOlderThan_eq_ok {map map' : HzTrainActivationRepo}
    {now : LocalDateTime} {ageInHours : Int} {values : List TrainActivation} :
    map.evictOlderThan now ageInHours values = .ok map' ↔
      ∃ selected, stale now ageInHours values = .ok selected ∧
        map' = IMap.evictAll map (selected.map (·.trainId)) := by
  simp only [evictOlderThan, bind_eq_ok, pure_eq_ok, Except.ok.injEq]
  constructor
  · rintro ⟨selected, selection, rfl⟩
    exact ⟨selected, selection, rfl⟩
  · rintro ⟨selected, selection, rfl⟩
    exact ⟨selected, selection, rfl⟩

theorem HzTrainActivationRepo.isStale_completes {ageThreshold : LocalDateTime}
    {departedThreshold : LocalTime}
    {ta : TrainActivation} : (∃ verdict, isStale ageThreshold departedThreshold ta = .ok verdict) ↔
      ta.timestamp.isBefore ageThreshold = true ∨ ta.schedule.departure.isSome := by
  unfold isStale
  cases ta.timestamp.isBefore ageThreshold with
  | true => simp
  | false => cases ta.schedule.departure <;> simp

/-- The selection throws where it meets an entry that is not too old and has no departure. -/
theorem HzTrainActivationRepo.evictOlderThan_completes {map : HzTrainActivationRepo}
    {now : LocalDateTime}
    {ageInHours : Int} {values : List TrainActivation} :
    (∃ map', map.evictOlderThan now ageInHours values = .ok map') ↔
      ∀ ta ∈ values, ta.timestamp.isBefore (now.minusHours ageInHours) = true ∨
        ta.schedule.departure.isSome := by
  constructor
  · rintro ⟨map', evicted⟩ ta member
    obtain ⟨selected, selection, _⟩ := evictOlderThan_eq_ok.mp evicted
    exact isStale_completes.mp (ok_of_filterE selection member)
  · intro decides
    obtain ⟨selected, selection⟩ : ∃ selected, stale now ageInHours values = .ok selected :=
      filterE_completes fun ta member => isStale_completes.mpr (decides ta member)
    exact ⟨_, evictOlderThan_eq_ok.mpr ⟨selected, selection, rfl⟩⟩

/-- Every entry under its own train id: a pass that completes takes the stale entries and no other.
    -/
theorem HzTrainActivationRepo.get_evictOlderThan {map map' : HzTrainActivationRepo}
    {now : LocalDateTime} {ageInHours : Int} {values : List TrainActivation}
    (keyed : IMap.Keyed TrainActivation.trainId map)
    (snapshot : (values : Multiset _) = IMap.values map)
    (evicted : map.evictOlderThan now ageInHours values = .ok map') {trainId : String}
    {ta : TrainActivation} :
    IMap.get map' trainId = some ta ↔ IMap.get map trainId = some ta ∧
      ¬ Stale now ageInHours ta := by
  obtain ⟨selected, selection, rfl⟩ := evictOlderThan_eq_ok.mp evicted
  refine keyed.get_evictAll_iff fun value => ?_
  rw [mem_stale selection, ← snapshot, Multiset.mem_coe]

theorem HzTrainActivationRepo.get_evictOlderThan_of_fresh {map map' : HzTrainActivationRepo}
    {now : LocalDateTime} {ageInHours : Int} {values : List TrainActivation}
    (keyed : IMap.Keyed TrainActivation.trainId map)
    (snapshot : (values : Multiset _) = IMap.values map)
    (evicted : map.evictOlderThan now ageInHours values = .ok map') {trainId : String}
    {ta : TrainActivation} (found : IMap.get map trainId = some ta)
    (young : ta.timestamp.isBefore (now.minusHours ageInHours) = false)
    (waiting : ∀ departure, ta.schedule.departure = some departure →
      departure.isBefore (now.toLocalTime.minusMinutes 1) = false) :
    IMap.get map' trainId = some ta := by
  refine (get_evictOlderThan keyed snapshot evicted).mpr ⟨found, ?_⟩
  rintro (old | ⟨departure, departs, departed⟩)
  · rw [young] at old
    cases old
  · rw [waiting departure departs] at departed
    cases departed

theorem HzTrainMovementRepo.mem_stale {map : HzTrainMovementRepo} {now : LocalDateTime}
    {ageInHours : Int}
    {values : List TrainMovement} (snapshot : (values : Multiset _) = IMap.values map)
    {tm : TrainMovement} :
    tm ∈ stale now ageInHours values ↔
      tm ∈ IMap.values map ∧ tm.timestamp.isBefore (now.minusHours ageInHours) = true := by
  rw [stale, List.mem_filter, ← snapshot, Multiset.mem_coe]

/-- The same for a pass over the movements. -/
theorem HzTrainMovementRepo.get_evictOlderThan {map : HzTrainMovementRepo} {now : LocalDateTime}
    {ageInHours : Int}
    {values : List TrainMovement} (keyed : IMap.Keyed TrainMovement.trainId map)
    (snapshot : (values : Multiset _) = IMap.values map) {trainId : String} {tm : TrainMovement} :
    IMap.get (map.evictOlderThan now ageInHours values) trainId = some tm ↔
      IMap.get map trainId = some tm ∧ ¬ tm.timestamp.isBefore (now.minusHours ageInHours) = true :=
  keyed.get_evictAll_iff fun _ => mem_stale snapshot

end TrainWatch.Movement
