import TrainWatch.Movement.Departures
import TrainWatch.Verified.Steps

/-! # What a pass over the activations takes

The age of an activation is told from date-times, its departure from times of day alone.
Both sides of the departed test wrap at midnight, so its verdict is that of the scheduled
instant on the day of the threshold, and on other days only by the hour.
-/

namespace TrainWatch.Verified.Eviction

open TrainWatch.Java TrainWatch.RefData TrainWatch.Library TrainWatch.Movement

/-- The stores that calls of `put` and `delete` build. -/
inductive Built : HzTrainActivationRepo → Prop where
  | empty : Built ∅
  | put {map : HzTrainActivationRepo} (built : Built map) (t : TrainActivation) : Built (map.put t)
  | delete {map : HzTrainActivationRepo} (built : Built map) (trainId : String) :
      Built (map.delete trainId)

theorem Built.keyed {map : HzTrainActivationRepo} (built : Built map) :
    IMap.Keyed TrainActivation.trainId map := by
  induction built with
  | empty => exact IMap.Keyed.empty _
  | put _ t inductionHypothesis => exact inductionHypothesis.set t
  | delete _ trainId inductionHypothesis => exact inductionHypothesis.delete trainId

def ScheduledAt (ta : TrainActivation) (wtt : LocalDateTime) : Prop :=
  TrainDeparture.makeDateTimeFrom ta.wttDeparture = .ok wtt

instance (ta : TrainActivation) (wtt : LocalDateTime) : Decidable (ScheduledAt ta wtt) :=
  inferInstanceAs (Decidable (_ = _))

/-- The schedule departs at the time of day of the scheduled instant. -/
def Timed (ta : TrainActivation) : Prop :=
  ∃ wtt, ScheduledAt ta wtt ∧ ta.schedule.departure = some wtt.toLocalTime

def old (now : LocalDateTime) (ageInHours : Int) (ta : TrainActivation) : Bool :=
  ta.timestamp.isBefore (now.minusHours ageInHours)

def oneMinuteBefore (now : LocalDateTime) : LocalDateTime := now.plusMinutes (-1)

/-- The pass takes the activations that are too old or were scheduled more than a minute ago, and
    leaves every other entry as it is. -/
def EvictsExactly (map : HzTrainActivationRepo) (now : LocalDateTime) (ageInHours : Int)
    (values : List TrainActivation) : Prop :=
  ∃ map', map.evictOlderThan now ageInHours values = .ok map' ∧
    ∀ trainId ta, IMap.get map' trainId = some ta ↔ IMap.get map trainId = some ta ∧
      ¬ (old now ageInHours ta = true ∨ ∃ wtt, ScheduledAt ta wtt ∧
        wtt.isBefore (oneMinuteBefore now) = true)

/-! ## Times of day and instants -/

def day (time : LocalDateTime) : Int := time.epochMilli / millisPerDay

/-- On the day of the threshold, or on another day at an hour that does not mislead. -/
def SameVerdict (threshold wtt : LocalDateTime) : Prop :=
  day wtt = day threshold ∨
    day wtt < day threshold ∧ wtt.toLocalTime.isBefore threshold.toLocalTime = true ∨
    day threshold < day wtt ∧ wtt.toLocalTime.isBefore threshold.toLocalTime = false

theorem toLocalTime_minusMinutes (now : LocalDateTime) :
    now.toLocalTime.minusMinutes 1 = (oneMinuteBefore now).toLocalTime := by
  simp only [LocalTime.minusMinutes, LocalDateTime.toLocalTime, oneMinuteBefore,
    LocalDateTime.plusMinutes,
    LocalTime.ofMillis, LocalTime.mk.injEq, millisPerDay, millisPerHour, millisPerMinute,
      millisPerSecond]
  omega

theorem toLocalTime_isBefore {time other : LocalDateTime} :
    time.toLocalTime.isBefore other.toLocalTime = true ↔
      time.epochMilli % millisPerDay < other.epochMilli % millisPerDay := by
  rw [LocalTime.isBefore, decide_eq_true_iff]
  simp only [LocalDateTime.toLocalTime, LocalTime.ofMillis, millisPerDay, millisPerHour,
    millisPerMinute, millisPerSecond]
  omega

theorem sameVerdict_iff {threshold wtt : LocalDateTime} :
    (wtt.toLocalTime.isBefore threshold.toLocalTime = true ↔ wtt.isBefore threshold = true) ↔
      SameVerdict threshold wtt := by
  rw [SameVerdict, ← Bool.not_eq_true, toLocalTime_isBefore, LocalDateTime.isBefore_eq_true,
    day, day]
  -- an instant is its day and its time of day
  have split := Int.mul_ediv_add_emod wtt.epochMilli millisPerDay
  have split' := Int.mul_ediv_add_emod threshold.epochMilli millisPerDay
  simp only [millisPerDay, millisPerHour, millisPerMinute, millisPerSecond] at split split' ⊢
  omega

/-! ## The pass -/

/-- On a timed activation, the code's departed test looks at the time of day of its instant. -/
theorem stale_iff {now : LocalDateTime} {ageInHours : Int} {ta : TrainActivation}
    {wtt : LocalDateTime}
    (departure : ta.schedule.departure = some wtt.toLocalTime) :
    HzTrainActivationRepo.Stale now ageInHours ta ↔
      old now ageInHours ta = true ∨ wtt.toLocalTime.isBefore
        (oneMinuteBefore now).toLocalTime = true := by
  rw [HzTrainActivationRepo.Stale, toLocalTime_minusMinutes, departure]
  refine or_congr Iff.rfl ?_
  constructor
  · rintro ⟨time, same, departed⟩
    cases same
    exact departed
  · intro departed
    exact ⟨_, rfl, departed⟩

theorem scheduledBefore_iff {ta : TrainActivation} {wtt time : LocalDateTime}
    (scheduled : ScheduledAt ta wtt) :
    (∃ other, ScheduledAt ta other ∧ other.isBefore time = true) ↔ wtt.isBefore time = true := by
  constructor
  · rintro ⟨other, scheduledOther, departed⟩
    cases Except.ok.inj (scheduled.symm.trans scheduledOther)
    exact departed
  · intro departed
    exact ⟨wtt, scheduled, departed⟩

/-- A pass over timed activations, at any reading of the clock, is exact if and only if every
    activation that is not too old is scheduled on the day of one minute ago, or on an earlier day
    at an earlier time of day, or on a later day at a time of day that is not earlier. -/
theorem eviction_is_exact_iff {map : HzTrainActivationRepo} (built : Built map)
    (timed : ∀ trainId ta, IMap.get map trainId = some ta → Timed ta)
    {values : List TrainActivation}
    (snapshot : (values : Multiset _) = IMap.values map) (now : LocalDateTime) (ageInHours : Int) :
    EvictsExactly map now ageInHours values ↔
      ∀ trainId ta, IMap.get map trainId = some ta → old now ageInHours ta = false →
        ∀ wtt, ScheduledAt ta wtt → SameVerdict (oneMinuteBefore now) wtt := by
  have stored : ∀ ta ∈ values, ∃ trainId, IMap.get map trainId = some ta := by
    intro ta member
    exact (IMap.mem_values_iff map ta).mp (by rw [← snapshot]; exact member)
  obtain ⟨map', evicted⟩ : ∃ map', map.evictOlderThan now ageInHours values = .ok map' := by
    refine HzTrainActivationRepo.evictOlderThan_completes.mpr fun ta member => .inr ?_
    obtain ⟨trainId, found⟩ := stored ta member
    obtain ⟨wtt, _, departure⟩ := timed trainId ta found
    rw [departure]
    rfl
  have taken : ∀ trainId ta, IMap.get map' trainId = some ta ↔
      IMap.get map trainId = some ta ∧ ¬ HzTrainActivationRepo.Stale now ageInHours ta :=
    fun trainId ta => HzTrainActivationRepo.get_evictOlderThan built.keyed snapshot evicted
  constructor
  · rintro ⟨map'', completed, taken'⟩ trainId ta found young wtt scheduled
    cases evicted.symm.trans completed
    obtain ⟨wtt', scheduled', departure⟩ := timed trainId ta found
    cases Except.ok.inj (scheduled.symm.trans scheduled')
    -- the entry is taken for its departure exactly when the instants say so
    have verdicts := (taken trainId ta).symm.trans (taken' trainId ta)
    rw [stale_iff departure, scheduledBefore_iff scheduled, young] at verdicts
    simp only [found, true_and, Bool.false_eq_true, false_or, not_iff_not] at verdicts
    exact sameVerdict_iff.mp verdicts
  · intro sameVerdict
    -- an entry that is too old is taken either way
    refine ⟨map', evicted, fun trainId ta => ?_⟩
    rw [taken]
    refine and_congr_right fun found => not_congr ?_
    obtain ⟨wtt, scheduled, departure⟩ := timed trainId ta found
    rw [stale_iff departure, scheduledBefore_iff scheduled]
    cases young : old now ageInHours ta with
    | true => simp
    | false => rw [sameVerdict_iff.mpr (sameVerdict trainId ta found young wtt scheduled)]

/-! ## Half a minute past midnight -/

section Sample

open Sample

/-- The time `minutes` after midnight of 18 March 2016, the day on which the train departs. -/
def departsAfter (minutes : Nat) (wttDeparture : String) (stored : LocalDateTime) :
    TrainActivation :=
  ⟨"871A01MN18", { schedule with departure := some (.ofMillis (minutes * millisPerMinute)) },
    some wttDeparture, stored⟩

/-- Departing at ten past midnight, activated at a quarter to. -/
def tenPastMidnight : TrainActivation := departsAfter 10 "1458259800000" ⟨1458258300000⟩

def halfMinutePastMidnight : LocalDateTime := ⟨1458259230000⟩

/-- A train that departs in ten minutes is taken, because a minute ago it was almost midnight. -/
theorem train_is_taken_before_it_departs :
    Built (HzTrainActivationRepo.put ∅ tenPastMidnight) ∧ Timed tenPastMidnight ∧
      ([tenPastMidnight] : Multiset TrainActivation) = IMap.values
        (HzTrainActivationRepo.put ∅ tenPastMidnight) ∧
      old halfMinutePastMidnight 12 tenPastMidnight = false ∧
      ScheduledAt tenPastMidnight ⟨1458259800000⟩ ∧
      LocalDateTime.isBefore ⟨1458259800000⟩ (oneMinuteBefore halfMinutePastMidnight) = false ∧
      HzTrainActivationRepo.evictOlderThan (HzTrainActivationRepo.put ∅ tenPastMidnight)
        halfMinutePastMidnight 12
        [tenPastMidnight] = .ok ∅ := by
  refine ⟨.put .empty _, ⟨⟨1458259800000⟩, by decide, by decide⟩, by decide, by decide,
    by decide, by decide, ?_⟩
  decide

/-- The rule at the same train, an hour before midnight of its day. -/
theorem pass_at_eleven_is_exact :
    EvictsExactly (HzTrainActivationRepo.put ∅ tenPastMidnight) (clock 23 0) 30
      [tenPastMidnight] := by
  have only : ∀ trainId ta,
    IMap.get (HzTrainActivationRepo.put ∅ tenPastMidnight) trainId = some ta →
      ta = tenPastMidnight := by
    intro trainId ta found
    rw [HzTrainActivationRepo.put, IMap.get_set] at found
    split at found
    · exact (Option.some.inj found).symm
    · rw [IMap.get_empty] at found
      cases found
  have timed : ∀ trainId ta, IMap.get (HzTrainActivationRepo.put ∅ tenPastMidnight) trainId =
      some ta → Timed ta := by
    intro trainId ta found
    rw [only trainId ta found]
    exact ⟨⟨1458259800000⟩, by decide, by decide⟩
  refine (eviction_is_exact_iff (.put .empty _) timed (by decide) (clock 23 0) 30).mpr ?_
  intro trainId ta found _ wtt scheduled
  rw [only trainId ta found] at scheduled
  have instant : wtt = ⟨1458259800000⟩ := (Except.ok.inj (scheduled.symm.trans (by decide)))
  rw [instant]
  exact .inl (by decide)

end Sample

end TrainWatch.Verified.Eviction
