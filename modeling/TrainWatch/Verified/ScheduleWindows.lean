import TrainWatch.Java.Calendar
import TrainWatch.RefData.FeedDates
import TrainWatch.RefData.ScheduleImport
import TrainWatch.Verified.Steps

/-! # The window of the filtered schedule file

The script moves both ends of its window by a day and compares strictly; the import does
the same with the end date alone.  On dates that have neighbours this is the overlap of two
intervals of days.  Where the calendar of the script ends, there is no window and no file.
-/

namespace TrainWatch.Verified.ScheduleWindows

open TrainWatch.Java TrainWatch.RefData TrainWatch.Library
open TrainWatch.RefData.CreateSchedules TrainWatch.RefData.ScheduleRepositoryPopulator

/-! ## Schedules that can run -/

/-- A schedule with dates that the script can read, in order. -/
def Dated (s : ScheduleRecord (Option String)) : Prop :=
  ∃ start finish, strptime s.startDate = some start ∧ strptime s.endDate = some finish ∧
    start ≤ finish

/-- One of the days of the schedule is a day from `today` to `lastDay`. -/
def RunsWithin (today lastDay : LocalDate) (s : ScheduleRecord (Option String)) : Prop :=
  ∃ start finish day, strptime s.startDate = some start ∧ strptime s.endDate = some finish ∧
    start ≤ day ∧ day ≤ finish ∧ today ≤ day ∧ day ≤ lastDay

section Windows

variable {today lastDay start finish : LocalDate} {s : ScheduleRecord (Option String)}

theorem runsWithin_iff (starts : strptime s.startDate = some start)
    (ends : strptime s.endDate = some finish) :
    RunsWithin today lastDay s ↔ max start today ≤ min finish lastDay := by
  constructor
  · rintro ⟨start', finish', day, starts', ends', afterStart, beforeFinish, afterToday, beforeLast⟩
    cases starts.symm.trans starts'
    cases ends.symm.trans ends'
    exact (max_le afterStart afterToday).trans (le_min beforeFinish beforeLast)
  · intro overlap
    obtain ⟨beforeFinish, beforeLast⟩ := le_min_iff.mp overlap
    exact ⟨start, finish, max start today, starts, ends, le_max_left _ _, beforeFinish,
      le_max_right _ _, beforeLast⟩

/-- Both days of the window exist in the years that the script can compute with. -/
def Representable (today : LocalDate) (maxDays : Nat) : Prop :=
  (plusTimedelta today (-1)).isSome ∧ (plusTimedelta today (maxDays + 1)).isSome

instance (today : LocalDate) (maxDays : Nat) : Decidable (Representable today maxDays) :=
  inferInstanceAs (Decidable (_ ∧ _))

instance (today lastDay : LocalDate) (s : ScheduleRecord (Option String)) :
    Decidable (RunsWithin today lastDay s) :=
  match starts : strptime s.startDate, ends : strptime s.endDate with
  | some _, some _ => decidable_of_iff _ (runsWithin_iff starts ends).symm
  | none, _ => isFalse fun ⟨_, _, _, starts', _⟩ => by cases starts.symm.trans starts'
  | _, none => isFalse fun ⟨_, _, _, _, ends', _⟩ => by cases ends.symm.trans ends'

theorem plusTimedelta_yesterday {minDate : LocalDate}
    (shifted : plusTimedelta today (-1) = some minDate) :
    today.previous = some minDate := (Option.filter_eq_some_iff.mp shifted).1

theorem plusTimedelta_later {maxDays : Nat} {maxDate : LocalDate}
    (shifted : plusTimedelta today (maxDays + 1) = some maxDate) :
    ∃ lastDay, today.plusDays maxDays = some lastDay ∧ lastDay.next = some maxDate :=
  Option.bind_eq_some_iff.mp (Option.filter_eq_some_iff.mp shifted).1

/-- Both strict comparisons of the script are comparisons with the days inside. -/
theorem inWindow_iff {minDate maxDate : LocalDate} (isPrevious : today.previous = some minDate)
    (isNext : lastDay.next = some maxDate) (open' : today ≤ lastDay) (dated : Dated s) :
    inWindow minDate maxDate s = true ↔ RunsWithin today lastDay s := by
  obtain ⟨start, finish, starts, ends, ordered⟩ := dated
  have test : inWindow minDate maxDate s = (start.isBefore maxDate && minDate.isBefore finish) := by
    simp [inWindow, starts, ends]
  rw [test, Bool.and_eq_true, LocalDate.isBefore_eq_true, LocalDate.isBefore_eq_true,
    LocalDate.lt_next_iff isNext,
    LocalDate.previous_lt_iff isPrevious, runsWithin_iff starts ends, max_le_iff, le_min_iff,
      le_min_iff]
  constructor
  · rintro ⟨startsInTime, endsInTime⟩
    exact ⟨⟨ordered, startsInTime⟩, endsInTime, open'⟩
  · rintro ⟨⟨_, startsInTime⟩, endsInTime, _⟩
    exact ⟨startsInTime, endsInTime⟩

theorem isRunning_of_le {minDate : LocalDate} (isPrevious : today.previous = some minDate)
    {schedule : Schedule}
    (ends : schedule.endDate = some finish) (notOver : today ≤ finish) :
    schedule.isRunning today = .ok true := by
  have yesterday : today.minusDays 1 = some minDate := isPrevious
  have after : finish.isAfter minDate = true :=
    LocalDate.isBefore_eq_true.mpr ((LocalDate.previous_lt_iff isPrevious).mpr notOver)
  simp [Schedule.isRunning, yesterday, ends, after]

end Windows

/-! ## The two files -/

section Files

variable {today : LocalDate} {maxDays : Nat} {schedules : List (ScheduleRecord (Option String))}

/-- The full file has the passenger schedules joined with their locations, the filtered file those
    of them that can run from today on for so many days, and these are running for the import of
    today. -/
def FilesExact (today : LocalDate) (maxDays : Nat) (locations : IMap (Option String) LocationRecord)
    (schedules : List (ScheduleRecord (Option String))) : Prop :=
  ∃ files lastDay, writeToFileOn today maxDays locations schedules = some files ∧
    today.plusDays maxDays = some lastDay ∧
    files.full = (schedules.filter fun s => s.isPassenger = "true").map (join locations) ∧
    files.filtered = ((schedules.filter fun s => s.isPassenger = "true").filter
      fun s => RunsWithin today lastDay s).map (join locations) ∧
    ∀ line ∈ files.filtered, ∀ schedule, toSchedule line = .ok schedule → schedule.isRunning today =
      .ok true

theorem isSome_of_dated {s : ScheduleRecord (Option String)} (dated : Dated s) :
    (strptime s.startDate).isSome ∧ (strptime s.endDate).isSome := by
  obtain ⟨start, finish, starts, ends, _⟩ := dated
  exact ⟨Option.isSome_iff_exists.mpr ⟨start, starts⟩, Option.isSome_iff_exists.mpr ⟨finish, ends⟩⟩

theorem endDate_of_toSchedule {locations : IMap (Option String) LocationRecord}
    {s : ScheduleRecord (Option String)}
    {finish : LocalDate} (ends : strptime s.endDate = some finish) {schedule : Schedule}
    (parsed : toSchedule (join locations s) = .ok schedule) : schedule.endDate = some finish := by
  obtain ⟨startDate, _, rest⟩ := bind_eq_ok.mp parsed
  obtain ⟨endDate, isEnd, rest⟩ := bind_eq_ok.mp rest
  obtain ⟨departure, _, rest⟩ := bind_eq_ok.mp rest
  obtain ⟨arrival, _, rest⟩ := bind_eq_ok.mp rest
  cases rest
  have text : (join locations s).endDate = s.endDate := rfl
  rw [text] at isEnd
  cases given : s.endDate with
  | none =>
    rw [given] at ends
    cases ends
  | some text =>
    rw [given] at isEnd ends
    obtain ⟨date, read, same⟩ := bind_eq_ok.mp isEnd
    cases same
    rw [parse_agrees ends read]

theorem representable_of_written {locations : IMap (Option String) LocationRecord}
    {files : ScheduleFiles}
    (written : writeToFileOn today maxDays locations schedules = some files) :
    Representable today maxDays := by
  obtain ⟨maxDate, isMax, rest⟩ := Option.bind_eq_some_iff.mp written
  obtain ⟨minDate, isMin, _⟩ := Option.bind_eq_some_iff.mp rest
  exact ⟨Option.isSome_iff_exists.mpr ⟨minDate, isMin⟩, Option.isSome_iff_exists.mpr
    ⟨maxDate, isMax⟩⟩

/-- On schedules with valid dates the two files are exact if and only if yesterday and the day after
    the window are days that the script can compute with. -/
theorem schedule_files_are_exact_iff (dated : ∀ s ∈ schedules, Dated s)
    (locations : IMap (Option String) LocationRecord)
    (today : LocalDate) (maxDays : Nat) :
    FilesExact today maxDays locations schedules ↔ Representable today maxDays := by
  constructor
  · rintro ⟨files, _, written, _⟩
    exact representable_of_written written
  · rintro ⟨hasMin, hasMax⟩
    obtain ⟨minDate, isMin⟩ := Option.isSome_iff_exists.mp hasMin
    obtain ⟨maxDate, isMax⟩ := Option.isSome_iff_exists.mp hasMax
    have isPrevious := plusTimedelta_yesterday isMin
    obtain ⟨lastDay, shifted, isNext⟩ := plusTimedelta_later isMax
    have open' := LocalDate.le_of_plusDays shifted
    have readable : ∀ s ∈ schedules, s.isPassenger = "true" → (strptime s.startDate).isSome ∧
        (strptime s.endDate).isSome :=
      fun s member _ => isSome_of_dated (dated s member)
    -- the two strict comparisons are those of `RunsWithin`, a day to each side
    have filtered : (writeToFile locations minDate maxDate schedules).filtered =
        ((schedules.filter fun s => s.isPassenger = "true").filter fun s =>
          RunsWithin today lastDay s).map
          (join locations) := by
      rw [filtered_writeToFile readable, List.filter_filter]
      congr 1
      apply List.filter_congr
      intro s member
      have same := inWindow_iff isPrevious isNext open' (dated s member)
      rw [decide_eq_decide.mpr (and_congr_right fun _ => same), Bool.decide_and, Bool.and_comm]
    refine ⟨writeToFile locations minDate maxDate schedules, lastDay, by simp [writeToFileOn, isMin,
      isMax], shifted,
      full_writeToFile readable, filtered, ?_⟩
    intro line member schedule parsed
    rw [filtered] at member
    obtain ⟨s, runs, rfl⟩ := List.mem_map.mp member
    obtain ⟨_, finish, day, _, ends, _, beforeFinish, afterToday, _⟩ :=
      of_decide_eq_true (List.mem_filter.mp runs).2
    exact isRunning_of_le isPrevious (endDate_of_toSchedule ends parsed)
      (afterToday.trans beforeFinish)

theorem serial_of_representable (representable : Representable today maxDays) :
    today.serial + maxDays + 1 ≤ 372 * 9999 + 31 * 12 + 31 := by
  obtain ⟨maxDate, isMax⟩ := Option.isSome_iff_exists.mp representable.2
  obtain ⟨shifted, inRange⟩ := Option.filter_eq_some_iff.mp isMax
  have shifted : today.plusDays (maxDays + 1) = some maxDate := shifted
  have reached := LocalDate.serial_le_of_plusDays shifted
  have lastYear := (of_decide_eq_true inRange).2
  obtain ⟨_, _, _, lastMonth, _, _⟩ := maxDate.valid
  have lastDay := maxDate.day_le
  simp only [LocalDate.serial] at reached ⊢
  omega

end Files

/-! ## A spring timetable -/

theorem eighteenthOfMarch_valid : ValidDate 2016 3 18 := by decide

def eighteenthOfMarch : LocalDate := ⟨2016, 3, 18, eighteenthOfMarch_valid⟩

def record (startDate endDate : String) : ScheduleRecord (Option String) :=
  { id := some "W12345", trainServiceCode := some "24745000"
    startDate := some startDate, endDate := some endDate
    origin := some "VICTRIC", destination := some "BRGHTN", departure := "1030", arrival := "1130"
    atocCode := some "SN", isPassenger := "true" }

/-- One that ends on the day, one that ended the day before, and one that starts on the last day. -/
def timetable : List (ScheduleRecord (Option String)) :=
  [record "2016-03-01" "2016-03-18", record "2016-03-01" "2016-03-17",
    record "2016-04-17" "2016-05-01"]

theorem timetable_dated : ∀ s ∈ timetable, Dated s := by
  simp only [timetable, List.forall_mem_cons, List.not_mem_nil, false_imp_iff, implies_true,
    and_true]
  exact ⟨⟨_, _, rfl, rfl, by decide⟩, ⟨_, _, rfl, rfl, by decide⟩, ⟨_, _, rfl, rfl, by decide⟩⟩

/-- The rule at these, for a window of thirty days. -/
theorem timetable_files_are_exact : FilesExact eighteenthOfMarch 30 ∅ timetable :=
  (schedule_files_are_exact_iff timetable_dated ∅ eighteenthOfMarch 30).mpr (by decide)

example :
    (writeToFileOn eighteenthOfMarch 30 ∅ timetable).map
        (fun files => files.filtered.map (·.startDate)) =
      some [some "2016-03-01", some "2016-04-17"] := by decide

/-- For a window of three million days no file is written. -/
theorem window_of_three_million_days : (∀ s ∈ timetable, Dated s) ∧
    writeToFileOn eighteenthOfMarch 3000000 ∅ timetable = none ∧
    ¬ FilesExact eighteenthOfMarch 3000000 ∅ timetable := by
  have raises : ∀ files, writeToFileOn eighteenthOfMarch 3000000 ∅ timetable ≠ some files := by
    intro files written
    have reached := serial_of_representable (representable_of_written written)
    simp only [LocalDate.serial, eighteenthOfMarch] at reached
    omega
  refine ⟨timetable_dated, Option.eq_none_iff_forall_ne_some.mpr raises, ?_⟩
  rintro ⟨files, _, written, _⟩
  exact raises files written

end TrainWatch.Verified.ScheduleWindows
