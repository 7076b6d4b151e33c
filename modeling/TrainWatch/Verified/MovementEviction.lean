import TrainWatch.Verified.Steps

/-! # What passes over the movements leave

The pass selects values and evicts train ids.  Every operation of the repository keeps
each movement under its own train id, so the two are the same entries: a pass leaves
exactly the movements that are not too old, and two passes leave what the stricter of
them leaves.
-/

namespace TrainWatch.Verified.MovementEviction

open TrainWatch.Java TrainWatch.Library TrainWatch.Movement

def Snapshot (map : HzTrainMovementRepo) (values : List TrainMovement) : Prop :=
  (values : Multiset TrainMovement) = IMap.values map

instance (map : HzTrainMovementRepo) (values : List TrainMovement) :
    Decidable (Snapshot map values) :=
  inferInstanceAs (Decidable (_ = _))

/-- The stores that calls of the repository build from the empty one. -/
inductive Built : HzTrainMovementRepo → Prop where
  | empty : Built ∅
  | put {map : HzTrainMovementRepo} (built : Built map) (tm : TrainMovement) : Built (map.put tm)
  | delete {map : HzTrainMovementRepo} (built : Built map) (tm : TrainMovement) :
      Built (map.delete tm)
  | evictOlderThan {map : HzTrainMovementRepo} (built : Built map) (now : LocalDateTime)
      (ageInHours : Int)
      {values : List TrainMovement} (snapshot : Snapshot map values) :
        Built (map.evictOlderThan now ageInHours values)

theorem Built.keyed {map : HzTrainMovementRepo} (built : Built map) :
    IMap.Keyed TrainMovement.trainId map := by
  induction built with
  | empty => exact IMap.Keyed.empty _
  | put _ tm inductionHypothesis => exact inductionHypothesis.set tm
  | delete _ tm inductionHypothesis => exact inductionHypothesis.delete tm.trainId
  | evictOlderThan _ _ _ _ inductionHypothesis => exact inductionHypothesis.evictAll _

theorem isBefore_minusHours_min (timestamp now : LocalDateTime) (a b : Int) :
    timestamp.isBefore (now.minusHours (min a b)) = true ↔
      timestamp.isBefore (now.minusHours a) = true ∨ timestamp.isBefore
        (now.minusHours b) = true := by
  simp only [LocalDateTime.isBefore_eq_true, LocalDateTime.minusHours_epochMilli, millisPerHour,
    millisPerMinute,
    millisPerSecond]
  omega

theorem get_of_pass {map : HzTrainMovementRepo} (built : Built map) {now : LocalDateTime}
    {ageInHours : Int}
    {values : List TrainMovement} (snapshot : Snapshot map values) {trainId : String}
    {tm : TrainMovement} :
    IMap.get (map.evictOlderThan now ageInHours values) trainId = some tm ↔
      IMap.get map trainId = some tm ∧ tm.timestamp.isBefore
        (now.minusHours ageInHours) = false := by
  rw [HzTrainMovementRepo.get_evictOlderThan built.keyed snapshot, Bool.not_eq_true]

theorem two_passes {map : HzTrainMovementRepo} (built : Built map) {now : LocalDateTime} {a b : Int}
    {first second both : List TrainMovement} (snapshot : Snapshot map first)
    (rest : Snapshot (map.evictOlderThan now a first) second) (whole : Snapshot map both) :
    (map.evictOlderThan now a first).evictOlderThan now b second = map.evictOlderThan now
    (min a b) both := by
  refine built.keyed.evictAll_evictAll (fun _ => HzTrainMovementRepo.mem_stale snapshot)
    (fun _ => HzTrainMovementRepo.mem_stale rest) fun tm => ?_
  rw [HzTrainMovementRepo.mem_stale whole, isBefore_minusHours_min]

/-- A pass over a store that the repository has built is exact at every reading of the clock and for
    every age, in whatever order the entries are listed; and a pass for one age and then for another
    one, at one reading of the clock, leaves what a pass for the lower age leaves. -/
theorem movement_eviction_is_exact_and_composes {map : HzTrainMovementRepo} (built : Built map)
    (now : LocalDateTime) :
    (∀ ageInHours values, Snapshot map values → ∀ trainId tm,
      IMap.get (map.evictOlderThan now ageInHours values) trainId = some tm ↔
        IMap.get map trainId = some tm ∧
          tm.timestamp.isBefore (now.minusHours ageInHours) = false) ∧
    ∀ a b first second both, Snapshot map first → Snapshot (map.evictOlderThan now a first) second →
      Snapshot map both →
      (map.evictOlderThan now a first).evictOlderThan now b second = map.evictOlderThan now
        (min a b) both := by
  constructor
  · intro ageInHours values snapshot trainId tm
    exact get_of_pass built snapshot
  · intro a b first second both snapshot rest whole
    exact two_passes built snapshot rest whole

/-! ## Three movements -/

section Sample

open Sample

/-- A movement of another train, `hours` before noon. -/
def hoursOld (trainId : String) (hours : Int) : TrainMovement :=
  { movement with trainId, timestamp := (clock 12 0).minusHours hours }

def threeMovements : HzTrainMovementRepo :=
  ((HzTrainMovementRepo.put ∅ (hoursOld "1" 0)).put (hoursOld "2" 2)).put (hoursOld "3" 3)

theorem threeMovements_built : Built threeMovements := .put (.put (.put .empty _) _) _

/-- The rule at these three: two passes, one after the other, take what a pass for the lower age
    takes. -/
theorem three_movements_passed_twice :
    IMap.get (threeMovements.evictOlderThan (clock 12 0) 2
      [hoursOld "3" 3, hoursOld "1" 0, hoursOld "2" 2]) "2" =
        some (hoursOld "2" 2) ∧
      (threeMovements.evictOlderThan (clock 12 0) 2
        [hoursOld "3" 3, hoursOld "1" 0, hoursOld "2" 2]).evictOlderThan
          (clock 12 0) 1 [hoursOld "2" 2, hoursOld "1" 0] =
        threeMovements.evictOlderThan (clock 12 0) (min 2 1)
          [hoursOld "1" 0, hoursOld "2" 2, hoursOld "3" 3] := by
  obtain ⟨exact', composes⟩ := movement_eviction_is_exact_and_composes threeMovements_built
    (clock 12 0)
  constructor
  · exact (exact' 2 _ (by decide) "2" (hoursOld "2" 2)).mpr ⟨by decide, by decide⟩
  · exact composes 2 1 _ _ _ (by decide) (by decide) (by decide)

end Sample

end TrainWatch.Verified.MovementEviction
