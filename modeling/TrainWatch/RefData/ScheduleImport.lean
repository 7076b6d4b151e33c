import TrainWatch.RefData.CreateSchedules
import TrainWatch.Library.Puts
import TrainWatch.Java.Concurrent

/-! # The import of a schedule file

Every line is parsed into a `Schedule` and put into the repository.  The stream is
parallel: the lines are handed over in any order, and when one of them fails the import
ends with some of the others put.
-/

namespace TrainWatch.RefData

open TrainWatch.Java TrainWatch.Library

namespace ScheduleRepositoryPopulator

/-- A null element stays null; a text is parsed. -/
def parseDate (text : Option String) : Except JavaException (Option LocalDate) :=
  match text with
  | none => .ok none
  | some text => do
    let date ← LocalDate.parse text
    pure (some date)

def toSchedule (json : ScheduleRecord (Option LocationRecord)) : Except JavaException Schedule := do
  let startDate ← parseDate json.startDate
  let endDate ← parseDate json.endDate
  let departure ← LocalTime.parseHHmm json.departure
  let arrival ← LocalTime.parseHHmm json.arrival
  pure
    { id := json.id, trainServiceCode := json.trainServiceCode, startDate, endDate
      origin := json.origin.map LocationRecord.toLocation
      destination := json.destination.map LocationRecord.toLocation, departure := some departure
      arrival := some arrival, atocCode := json.atocCode
      isPassenger := some (Boolean.valueOf (some json.isPassenger)) }

/-- The lines in the order in which they are handed over, until one fails. -/
def populate (repo : HzScheduleRepo) (lines : List (ScheduleRecord (Option LocationRecord))) :
    Except JavaException HzScheduleRepo :=
  lines.foldlM (fun repo json => do
    let schedule ← toSchedule json
    pure (repo.put schedule)) repo

/-- The repository holds some of the file's lines, put in some order. -/
def Imported (lines : List (ScheduleRecord (Option LocationRecord))) (repo : HzScheduleRepo) :
    Prop :=
  ∃ handed, List.Subperm handed lines ∧ populate .empty handed = .ok repo

def parsed (json : ScheduleRecord (Option LocationRecord)) : Option Schedule :=
  (toSchedule json).toOption

theorem populate_eq_ok {lines : List (ScheduleRecord (Option LocationRecord))}
    (accepted : ∀ json ∈ lines, ∃ schedule, toSchedule json = .ok schedule)
    (repo : HzScheduleRepo) :
    populate repo lines = .ok ⟨repo.map.putAll Schedule.uniqueKey (lines.filterMap parsed)⟩ := by
  induction lines generalizing repo with
  | nil => rfl
  | cons json lines inductionHypothesis =>
    obtain ⟨schedule, here⟩ := accepted json List.mem_cons_self
    have tail := inductionHypothesis (fun other member =>
      accepted other (List.mem_cons_of_mem _ member))
      (repo.put schedule)
    have first : parsed json = some schedule := by rw [parsed, here]; rfl
    simp only [populate, List.foldlM_cons, here, ok_bind, pure_eq_ok] at tail ⊢
    rw [tail, List.filterMap_cons_some first]
    rfl

/-- The schedule has what the import reads off the record, its locations apart. -/
structure IsScheduleOf {α : Type} (s : ScheduleRecord α) (schedule : Schedule) : Prop where
  id : schedule.id = s.id
  trainServiceCode : schedule.trainServiceCode = s.trainServiceCode
  startDate : parseDate s.startDate = .ok schedule.startDate
  endDate : parseDate s.endDate = .ok schedule.endDate
  departure : ∃ time, LocalTime.parseHHmm s.departure = .ok time ∧ schedule.departure = some time
  arrival : ∃ time, LocalTime.parseHHmm s.arrival = .ok time ∧ schedule.arrival = some time
  atocCode : schedule.atocCode = s.atocCode
  isPassenger : schedule.isPassenger = some (Boolean.valueOf (some s.isPassenger))

theorem toSchedule_fields {json : ScheduleRecord (Option LocationRecord)} {schedule : Schedule}
    (parsed : toSchedule json = .ok schedule) :
    IsScheduleOf json schedule ∧ schedule.origin = json.origin.map LocationRecord.toLocation ∧
      schedule.destination = json.destination.map LocationRecord.toLocation := by
  simp only [toSchedule, bind_eq_ok, pure_eq_ok, Except.ok.injEq] at parsed
  obtain ⟨startDate, starts, endDate, ends, departure, departs, arrival, arrives, rfl⟩ := parsed
  exact ⟨⟨rfl, rfl, starts, ends, ⟨departure, departs, rfl⟩, ⟨arrival, arrives, rfl⟩, rfl, rfl⟩,
    rfl, rfl⟩

theorem getBy_populate {repo final : HzScheduleRepo}
    {lines : List (ScheduleRecord (Option LocationRecord))}
    (populated : populate repo lines = .ok final) {id serviceCode start finish : Option String}
    {schedule : Schedule} (found : final.getBy id serviceCode start finish = some schedule) :
    repo.getBy id serviceCode start finish = some schedule ∨
      schedule.uniqueKey = scheduleKey id serviceCode start finish ∧ ∃ json ∈ lines,
        toSchedule json = .ok schedule := by
  induction lines generalizing repo with
  | nil => cases populated; exact .inl found
  | cons json lines inductionHypothesis =>
    simp only [populate, List.foldlM_cons] at populated
    obtain ⟨next, put, rest⟩ := bind_eq_ok.mp populated
    obtain ⟨added, parsed, result⟩ := bind_eq_ok.mp put
    cases result
    obtain earlier | ⟨key, other, member, source⟩ := inductionHypothesis rest
    · obtain ⟨rfl, key⟩ | before := HzScheduleRepo.getBy_put earlier
      · exact .inr ⟨key, json, List.mem_cons_self, parsed⟩
      · exact .inl before
    · exact .inr ⟨key, other, List.mem_cons_of_mem _ member, source⟩

variable {locations : IMap (Option String) LocationRecord} {minDate maxDate : LocalDate}

/-- A schedule found after the import of a file of `write_to_file` has the key it was looked up by
    and is that of a passenger record, at the locations of the record's tiplocs, if any. -/
theorem imported_schedule {schedules : List (ScheduleRecord (Option String))}
    {lines : List (ScheduleRecord (Option LocationRecord))} {repo : HzScheduleRepo}
    (written : lines = (CreateSchedules.writeToFile locations minDate maxDate schedules).full ∨
      lines = (CreateSchedules.writeToFile locations minDate maxDate schedules).filtered)
    (imported : Imported lines repo) {id serviceCode start finish : Option String}
    {schedule : Schedule}
    (found : repo.getBy id serviceCode start finish = some schedule) :
    schedule.uniqueKey = scheduleKey id serviceCode start finish ∧
      ∃ s ∈ schedules, s.isPassenger = "true" ∧ IsScheduleOf s schedule ∧
        schedule.origin = (locations.get s.origin).map LocationRecord.toLocation ∧
        schedule.destination = (locations.get s.destination).map LocationRecord.toLocation := by
  obtain ⟨handed, part, populated⟩ := imported
  obtain impossible | ⟨key, json, member, parsed⟩ := getBy_populate populated found
  · rw [HzScheduleRepo.getBy_empty] at impossible
    cases impossible
  · have inFile : json ∈ lines := part.subset member
    obtain ⟨s, inSchedules, passenger, rfl⟩ :
        ∃ s ∈ schedules, s.isPassenger = "true" ∧ json = CreateSchedules.join locations s := by
      obtain rfl | rfl := written
      · exact CreateSchedules.mem_writeToFile (.inl inFile)
      · exact CreateSchedules.mem_writeToFile (.inr inFile)
    -- the join leaves every other field of the record as it is
    obtain ⟨⟨id, code, starts, ends, departs, arrives, atocCode, flag⟩, origin, destination⟩ :=
      toSchedule_fields parsed
    exact ⟨key, s, inSchedules, passenger, ⟨id, code, starts, ends, departs, arrives, atocCode,
      flag⟩, origin, destination⟩

/-! ## The outcome of an import -/

/-- What the task does with the outcome of its stream: an exception is only logged. -/
def populateAsync {ε : Type} (traversed : Except (Throwable ε) Unit) :
    List (LogEvent (Throwable ε)) × CompletableFuture (Throwable ε) :=
  match traversed with
  | .ok () => ([], .runAsync (.ok ()))
  | .error (.exception thrown) =>
    ([.error "location file parse error" (.exception thrown)], .runAsync (.ok ()))
  | .error (.error name) => ([], .runAsync (.error (.error name)))

def populateFromFile {ε : Type} (scheduleFile : String) (traversed : Except (Throwable ε) Unit) :
    List (LogEvent (Throwable ε)) × CompletableFuture (Throwable ε) :=
  let (logged, future) := populateAsync traversed
  (.info s!"Starting populating from: {scheduleFile}" :: .info "This may take a while!" :: logged,
    future)

/-- Nothing of a null schedule can be put. -/
def addToRepo (repo : HzScheduleRepo) (schedule : Option Schedule) :
    HzScheduleRepo × Except (Throwable JavaException) Unit :=
  match schedule with
  | none => (repo, .error (.exception .nullPointerException))
  | some schedule => (repo.put schedule, .ok ())

def fromRecord (json : ScheduleRecord (Option LocationRecord)) :
    Except (Throwable JavaException) (Option Schedule) :=
  match toSchedule json with
  | .ok schedule => .ok (some schedule)
  | .error thrown => .error (.exception thrown)

theorem handle_of_toSchedule {json : ScheduleRecord (Option LocationRecord)} {schedule : Schedule}
    (parsed : toSchedule json = .ok schedule) (repo : HzScheduleRepo) :
    ParallelStream.handle fromRecord addToRepo repo json =
      (repo.put schedule, .ok (some schedule)) := by
  have mapped : fromRecord json = .ok (some schedule) := by rw [fromRecord, parsed]
  exact ParallelStream.handle_of_ok mapped rfl

theorem populate_parsed (repo : HzScheduleRepo)
    (order : List (ScheduleRecord (Option LocationRecord))) :
    populate repo (order.filter fun json => (toSchedule json).isOk) =
      .ok (ParallelStream.reached fromRecord addToRepo repo order) := by
  induction order generalizing repo with
  | nil => rfl
  | cons json order inductionHypothesis =>
    cases parsed : toSchedule json with
    | error thrown =>
      have dropped :
          ParallelStream.handle fromRecord addToRepo repo json =
          (repo, .error (.exception thrown)) := by
        simp only [ParallelStream.handle, fromRecord, parsed]
      rw [List.filter_cons_of_neg (by rw [parsed]; exact Bool.false_ne_true), inductionHypothesis,
        ParallelStream.reached, ParallelStream.reached, List.foldl_cons, dropped]
    | ok schedule =>
      have rest := inductionHypothesis (repo.put schedule)
      rw [List.filter_cons_of_pos (by rw [parsed]; rfl)]
      simp only [populate, ParallelStream.reached, List.foldlM_cons, List.foldl_cons, parsed,
        ok_bind, pure_eq_ok,
        handle_of_toSchedule parsed] at rest ⊢
      exact rest

/-- The repository after a stream over the file, however it ended, is one an import can leave. -/
theorem imported_of_traversal {lines order : List (ScheduleRecord (Option LocationRecord))}
    {outcome : Except (Throwable JavaException) Unit}
    (traversal : ParallelStream.Traversal fromRecord addToRepo .empty lines order outcome) :
    Imported lines (ParallelStream.reached fromRecord addToRepo .empty order) := by
  have part : order.Subperm lines := by
    cases traversal with
    | completed all _ => exact all.subperm
    | threw part _ => exact part
  exact ⟨_, List.filter_sublist.subperm.trans part, populate_parsed .empty order⟩

end ScheduleRepositoryPopulator

namespace PopulateSchedulesApp

variable {ε : Type}

/-- `count` schedules in the repository, `seconds` on the stop watch. -/
def onComplete (count seconds : Nat) (error : Option (Throwable ε)) :
    List (LogEvent (Throwable ε)) :=
  match error with
  | none => [.info s!"Done populating {count} schedules", .info s!"Took {seconds}s"]
  | some thrown => [.error "Error populating schedules!" thrown, .info s!"Took {seconds}s"]

def main (count seconds : Nat) (future : CompletableFuture (Throwable ε)) :
    Option (Ending (Throwable ε)) :=
  future.whenCompleteGet (onComplete count seconds)

def ErrorPath (thrown : Throwable ε) (ending : Ending (Throwable ε)) : Prop :=
  .error "Error populating schedules!" thrown ∈ ending.logged ∧ ending.thrown = some thrown

end PopulateSchedulesApp

end TrainWatch.RefData
