import TrainWatch.Verified.Steps
import TrainWatch.Search.HzTrainWatchSearch
import TrainWatch.RefData.ScheduleImport

/-! # When the searches return

A query looks at the activations one by one and ends with the first exception, so a single
entry without an origin, without a description or without a departure instant takes the
query down for all trains.  Such entries come from activation messages; which of them
store one can be said from the message and the schedule it finds.
-/

namespace TrainWatch.Verified.SearchSafety

open TrainWatch.Java TrainWatch.RefData TrainWatch.Library TrainWatch.Movement TrainWatch.Search
open TrainWatch.Movement.TrainMovementProducer TrainWatch.Search.HzTrainWatchSearch

/-- All four queries return on these values, at every reading of the clock, for every station and
    every number of results that is not negative. -/
def Answers (departures : List TrainActivation) (movements : List TrainMovement) : Prop :=
  ∀ (capitalize : String → String) (now : LocalDateTime) (station : Station) (maxResults : Int),
    0 ≤ maxResults →
    (∃ stations, listStations capitalize departures = .ok stations) ∧
    (∃ result, delayedTrainsByAllWindows movements maxResults = .ok result) ∧
    (∃ found, departuresWithinOneHour departures now maxResults = .ok found) ∧
    (∃ found, departuresWithinOneHourAt departures now station maxResults = .ok found)

/-- The queries return in whatever order they meet the entries of the stores. -/
def SearchSafe (s : State) : Prop :=
  ∀ (departures : List TrainActivation) (movements : List TrainMovement),
    (departures : Multiset _) = IMap.values s.activations →
    (movements : Multiset _) = IMap.values s.movements → Answers departures movements

/-- The schedule has an origin with a description, and the message a departure instant. -/
structure Complete (msg : TrustMovementMessage) (schedule : Schedule) : Prop where
  origin : ∃ origin, schedule.origin = some origin ∧ origin.description.isSome
  departs : ∃ body millis, msg.body = some body ∧ Long.parseLong body.originDepTimestamp =
    .ok millis

theorem answers_of_listable {departures : List TrainActivation} (movements : List TrainMovement)
    (listable : ∀ ta ∈ departures, Listable ta) : Answers departures movements := by
  intro capitalize now station maxResults notNegative
  refine ⟨⟨_, listStations_eq_ok listable⟩,
    delayedTrainsByAllWindows_completes movements notNegative, ?_, ?_⟩
  · exact limitSorted_completes
      (fun ta member => departureBefore_completes (listable ta member) _) notNegative
  · exact limitSorted_completes
      (fun ta member => departureFrom_completes (listable ta member) station _) notNegative

theorem searchSafe_iff {s : State} :
    SearchSafe s ↔ ∀ trainId ta, IMap.get s.activations trainId = some ta → Listable ta := by
  constructor
  · intro safe trainId ta found
    have stored : ta ∈ IMap.values s.activations := (IMap.mem_values_iff _ _).mpr ⟨trainId, found⟩
    obtain ⟨others, split⟩ := Multiset.exists_cons_of_mem stored
    -- the order that meets this activation first, so that no query returns before it
    have order :
        ((ta :: others.toList : List TrainActivation) : Multiset _) =
        IMap.values s.activations := by
      rw [split, ← Multiset.cons_coe, Multiset.coe_toList]
    have answers := safe (ta :: others.toList) (IMap.values s.movements).toList order
      (Multiset.coe_toList _)
      id ⟨0⟩ ⟨none, none⟩ 1 (by decide)
    obtain ⟨_, _, ⟨found, departures⟩, ⟨foundAt, departuresAt⟩⟩ := answers
    obtain ⟨kept, parsed⟩ := ok_of_limitSorted (by decide) departures
    obtain ⟨keptAt, filtered⟩ := ok_of_limitSorted (by decide) departuresAt
    exact listable_of_departures filtered parsed
  · intro listable departures movements order _
    apply answers_of_listable
    intro ta member
    have stored : ta ∈ IMap.values s.activations := by rw [← order]; exact member
    obtain ⟨trainId, found⟩ := (IMap.mem_values_iff _ _).mp stored
    exact listable trainId ta found

section

variable {repos : ReferenceRepos}

theorem listable_step {action : Action} {s s' : State}
    (complete : ∀ now msg trainId schedule, action = .sendMessage now msg →
      Activates repos msg trainId schedule → Complete msg schedule)
    (listable : ∀ trainId ta, IMap.get s.activations trainId = some ta → Listable ta)
    (stepped : s.step repos action = some s') :
    ∀ trainId ta, IMap.get s'.activations trainId = some ta → Listable ta := by
  intro trainId ta found
  cases activation_after_step stepped trainId with
  | inl same => exact listable trainId ta (same ▸ found)
  | inr changed =>
    obtain ⟨now, msg, stored, isSend, _, _, activates, ⟨body, hasBody, departure⟩, after⟩ |
      ⟨_, _, _, _, gone⟩ | ⟨_, _, _, _, gone⟩ := changed
    · cases after.symm.trans found
      have ready := complete now msg trainId ta.schedule isSend activates
      obtain ⟨body', millis, hasBody', parsed⟩ := ready.departs
      cases hasBody.symm.trans hasBody'
      exact ⟨ready.origin, millis, by rw [departure]; exact parsed⟩
    · rw [gone] at found; cases found
    · rw [gone] at found; cases found

/-- A run is searchable in all the states it goes through, whatever schedules have been imported, if
    and only if every activation message handled in it is complete or finds no schedule. -/
theorem run_searchSafe_iff {trace : List Action} {final : State}
    (reached : run (State.step repos) .empty trace = some final) :
    (∀ earlier s, earlier <+: trace → run (State.step repos) .empty earlier = some s →
      SearchSafe s) ↔
    (∀ now msg trainId schedule, .sendMessage now msg ∈ trace →
      Activates repos msg trainId schedule →
      Complete msg schedule) := by
  constructor
  · intro safe now msg trainId schedule member activates
    obtain ⟨before, after, rfl⟩ := List.append_of_mem member
    obtain ⟨s, start, rest⟩ := run_append_eq_some.mp reached
    obtain ⟨s', stepped, _⟩ := run_cons_eq_some.mp rest
    have shorter : before ++ [.sendMessage now msg] <+: before ++ .sendMessage now msg :: after :=
      ⟨after, by simp⟩
    have safe' := safe _ s' shorter (run_snoc_eq_some.mpr ⟨s, start, stepped⟩)
    obtain ⟨body, hasBody, handled⟩ := State.handle_of_activates s now activates
    have stored : IMap.get s'.activations trainId =
        some ⟨trainId, schedule, body.originDepTimestamp, now⟩ := by
      rw [← Option.some.inj stepped, handled]
      exact IMap.get_set_self _ _ _
    obtain ⟨origin, millis, parsed⟩ := searchSafe_iff.mp safe' trainId _ stored
    exact ⟨origin, body, millis, hasBody, parsed⟩
  · intro complete earlier s shorter start
    -- every activation stored so far is complete, so every stored entry is listable
    rw [searchSafe_iff]
    refine run_invariant (fun s => ∀ trainId ta, IMap.get s.activations trainId = some ta →
      Listable ta)
      (fun action member s s' listable stepped => listable_step ?_ listable stepped)
      (fun trainId ta found => by simp [State.empty] at found) start
    intro now msg trainId schedule isSend activates
    exact complete now msg trainId schedule (isSend ▸ shorter.subset member) activates

end

/-! ## The sample train, with its origin known and unknown -/

open Sample

/-- The rule at a run whose only activation is complete. -/
theorem shown_run_is_searchSafe :
    ∃ s, run (State.step refData) .empty shown = some s ∧ SearchSafe s := by
  have evaluated : (run (State.step refData) .empty shown).isSome := by decide
  obtain ⟨s, reached⟩ := Option.isSome_iff_exists.mp evaluated
  refine ⟨s, reached, (run_searchSafe_iff reached).mpr ?_ shown s (List.prefix_refl _) reached⟩
  intro now msg trainId schedule' member activates
  obtain ⟨kind, body, hasBody, _, lookup⟩ := activates
  have isActivation : msg = activationMessage := by
    simp only [shown, List.mem_cons, Action.sendMessage.injEq, reduceCtorEq, List.not_mem_nil,
      or_false] at member
    obtain ⟨_, first⟩ | ⟨_, second⟩ := member
    · exact first
    · rw [second] at kind
      exact absurd kind (by decide)
  rw [isActivation, activationMessage_activates.2.choose_spec.2.2] at lookup
  cases lookup
  exact ⟨⟨victoria, rfl, rfl⟩, activationBody, 1458297000000, by rw [isActivation]; rfl, by decide⟩

/-- The sample train's schedule before the join, with a tiploc that has no location. -/
def unknownOrigin : ScheduleRecord (Option String) :=
  { id := some "W12345", trainServiceCode := some "24745000", startDate := some "2016-03-01"
    endDate := some "2016-03-31", origin := some "NOWHERE", destination := some "BRGHTN"
    departure := "1030", arrival := "1130", atocCode := some "SN", isPassenger := "true" }

def written : ScheduleFiles :=
  CreateSchedules.writeToFile (IMap.set ∅ (some "BRGHTN") brightonRecord) ⟨2016, 3, 17, by decide⟩
    ⟨2016, 4, 18, by decide⟩ [unknownOrigin]

def importedRepo : HzScheduleRepo := HzScheduleRepo.empty.put { schedule with origin := none }

def originless : TrainActivation := { activation with schedule := { schedule with origin := none } }

/-- The schedule is written and imported with a null origin; once its train is activated, no station
    and no departure is listed. -/
theorem unknown_origin_takes_search_down :
    ScheduleRepositoryPopulator.populate .empty written.full = .ok importedRepo ∧
      ∃ s, run (State.step ⟨importedRepo, refData.locationRepo⟩) .empty
          [.sendMessage (clock 9 0) activationMessage] = some s ∧
        ([originless] : Multiset TrainActivation) = IMap.values s.activations ∧
        listStations id [originless] = .error .nullPointerException ∧
        departuresWithinOneHourAt [originless] (clock 10 0) ⟨some "BRIGHTON", some "BTN"⟩ 1 =
          .error .nullPointerException := by
  have imported : ScheduleRepositoryPopulator.populate .empty written.full = .ok importedRepo := by
    decide
  have evaluated : (run (State.step ⟨importedRepo, refData.locationRepo⟩) .empty
      [.sendMessage (clock 9 0) activationMessage]).map
        (fun s => decide
          (([originless] : Multiset TrainActivation) = IMap.values s.activations)) = some true := by
    decide
  obtain ⟨s, reached, stored⟩ := Option.map_eq_some_iff.mp evaluated
  exact ⟨imported, s, reached, of_decide_eq_true stored, by decide, by decide⟩

end TrainWatch.Verified.SearchSafety
