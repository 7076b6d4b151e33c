import TrainWatch.RefData.Schedule

/-! # The script that writes the schedule files

`write_to_file` replaces the tiplocs of every passenger schedule by their locations and
writes it to the full file, and to the filtered file when its dates fall in a window.
A tiploc without a location becomes null.
-/

namespace TrainWatch.RefData

open TrainWatch.Java TrainWatch.Library

/-- A schedule object as the scripts pass it on; `α` is a nullable tiploc before the join and a
    nullable location after it. -/
structure ScheduleRecord (α : Type) where
  id : Option String
  trainServiceCode : Option String
  startDate : Option String
  endDate : Option String
  origin : α
  destination : α
  departure : String
  arrival : String
  atocCode : Option String
  isPassenger : String
deriving DecidableEq, Repr

structure ScheduleFiles where
  full : List (ScheduleRecord (Option LocationRecord))
  filtered : List (ScheduleRecord (Option LocationRecord))
deriving DecidableEq, Repr

namespace CreateSchedules

/-- The zero digits of all scripts: `\d` and `int` read the digits of each. -/
def decimalZeros : List Nat :=
  Character.decimalZeros ++
    [0x0DE6, 0xA9F0, 0x104A0, 0x10D30, 0x11066, 0x110F0, 0x11136, 0x111D0, 0x112F0, 0x11450,
      0x114D0, 0x11650, 0x116C0, 0x11730, 0x118E0, 0x11950, 0x11C50, 0x11D50, 0x11DA0, 0x11F50,
      0x16A60, 0x16AC0, 0x16B50, 0x1D7CE, 0x1D7D8, 0x1D7E2, 0x1D7EC, 0x1D7F6, 0x1E140, 0x1E2F0,
      0x1E4F0, 0x1E950, 0x1FBF0]

def digit (c : Char) : Option Nat := decimalDigit decimalZeros c

def positiveDigit (c : Char) : Option Nat :=
  if '1' ≤ c ∧ c ≤ '9' then some (c.toNat - '0'.toNat) else none

/-- `%d` at the end of the text: one digit, alone or after a blank or a zero, or two digits up to
    31. -/
def strptimeDay : List Char → Option Nat
  | [c] => positiveDigit c
  | [' ', c] | ['0', c] => positiveDigit c
  | ['1', c] => (digit c).map (10 + ·)
  | ['2', c] => (digit c).map (20 + ·)
  | ['3', '0'] => some 30
  | ['3', '1'] => some 31
  | _ => none

/-- `%m` before a dash: one digit, alone or after a zero, or two digits up to 12. -/
def strptimeMonth : List Char → Option (Nat × List Char)
  | c :: '-' :: rest => (positiveDigit c).map (·, rest)
  | '0' :: c :: '-' :: rest => (positiveDigit c).map (·, rest)
  | '1' :: '0' :: '-' :: rest => some (10, rest)
  | '1' :: '1' :: '-' :: rest => some (11, rest)
  | '1' :: '2' :: '-' :: rest => some (12, rest)
  | _ => none

/-- The date of `datetime.strptime(text, "%Y-%m-%d")`; null and other texts raise. -/
def strptime (text : Option String) : Option LocalDate :=
  match text.map String.toList with
  | some (y₁ :: y₂ :: y₃ :: y₄ :: '-' :: rest) => do
    let year ← decimalNumber digit [y₁, y₂, y₃, y₄]
    let (month, rest) ← strptimeMonth rest
    let day ← strptimeDay rest
    if year = 0 then none else LocalDate.of? year month day
  | _ => none

def join (locations : IMap (Option String) LocationRecord) (s : ScheduleRecord (Option String)) :
    ScheduleRecord (Option LocationRecord) :=
  { s with origin := locations.get s.origin, destination := locations.get s.destination }

/-- The loop of `write_to_file`, given the dates of its window.  A date that does not parse ends it,
    after the line has gone to the full file. -/
def writeToFile (locations : IMap (Option String) LocationRecord) (minDate maxDate : LocalDate) :
    List (ScheduleRecord (Option String)) → ScheduleFiles
  | [] => ⟨[], []⟩
  | s :: schedules =>
    if s.isPassenger = "true" then
      let line := join locations s
      match strptime s.startDate, strptime s.endDate with
      | some start, some finish =>
        let rest := writeToFile locations minDate maxDate schedules
        { full := line :: rest.full
          filtered :=
            if start.isBefore maxDate ∧ minDate.isBefore finish then line :: rest.filtered
              else rest.filtered }
      | _, _ => ⟨[line], []⟩
    else writeToFile locations minDate maxDate schedules

/-- The date of `datetime.now() + timedelta(days=days)`, which raises outside of the years 1 to
    9999. -/
def plusTimedelta (today : LocalDate) (days : Int) : Option LocalDate :=
  let date :=
    match days with
    | .ofNat later => today.plusDays later
    | .negSucc earlier => today.minusDays (earlier + 1)
  date.filter fun date => 1 ≤ date.year ∧ date.year ≤ 9999

/-- `write_to_file` at one reading of the clock's date.  The window is computed before a file is
    opened. -/
def writeToFileOn (today : LocalDate) (maxDays : Nat)
    (locations : IMap (Option String) LocationRecord)
    (schedules : List (ScheduleRecord (Option String))) : Option ScheduleFiles := do
  let maxDate ← plusTimedelta today (maxDays + 1)
  let minDate ← plusTimedelta today (-1)
  pure (writeToFile locations minDate maxDate schedules)

variable {locations : IMap (Option String) LocationRecord} {minDate maxDate : LocalDate}

def inWindow (minDate maxDate : LocalDate) (s : ScheduleRecord (Option String)) : Bool :=
  match strptime s.startDate, strptime s.endDate with
  | some start, some finish => start.isBefore maxDate && minDate.isBefore finish
  | _, _ => false

theorem writeToFile_cons {s : ScheduleRecord (Option String)}
    {schedules : List (ScheduleRecord (Option String))}
    (passenger : s.isPassenger = "true") (starts : (strptime s.startDate).isSome)
    (ends : (strptime s.endDate).isSome) :
    writeToFile locations minDate maxDate (s :: schedules) =
      { full := join locations s :: (writeToFile locations minDate maxDate schedules).full
        filtered :=
          if inWindow minDate maxDate s then join locations s ::
            (writeToFile locations minDate maxDate schedules).filtered
          else (writeToFile locations minDate maxDate schedules).filtered } := by
  obtain ⟨start, hasStart⟩ := Option.isSome_iff_exists.mp starts
  obtain ⟨finish, hasFinish⟩ := Option.isSome_iff_exists.mp ends
  simp only [writeToFile, inWindow, if_pos passenger, hasStart, hasFinish, Bool.and_eq_true]

theorem full_writeToFile {schedules : List (ScheduleRecord (Option String))}
    (dated : ∀ s ∈ schedules, s.isPassenger = "true" → (strptime s.startDate).isSome ∧
      (strptime s.endDate).isSome) :
    (writeToFile locations minDate maxDate schedules).full =
      (schedules.filter fun s => s.isPassenger = "true").map (join locations) := by
  induction schedules with
  | nil => rfl
  | cons s schedules inductionHypothesis =>
    have tail := inductionHypothesis fun other member => dated other (List.mem_cons_of_mem _ member)
    by_cases passenger : s.isPassenger = "true"
    · obtain ⟨starts, ends⟩ := dated s List.mem_cons_self passenger
      simp [writeToFile_cons passenger starts ends, passenger, tail]
    · simp [writeToFile, passenger, tail]

theorem filtered_writeToFile {schedules : List (ScheduleRecord (Option String))}
    (dated : ∀ s ∈ schedules, s.isPassenger = "true" → (strptime s.startDate).isSome ∧
      (strptime s.endDate).isSome) :
    (writeToFile locations minDate maxDate schedules).filtered =
      (schedules.filter fun s => s.isPassenger = "true" ∧ inWindow minDate maxDate s).map
        (join locations) := by
  induction schedules with
  | nil => rfl
  | cons s schedules inductionHypothesis =>
    have tail := inductionHypothesis fun other member => dated other (List.mem_cons_of_mem _ member)
    by_cases passenger : s.isPassenger = "true"
    · obtain ⟨starts, ends⟩ := dated s List.mem_cons_self passenger
      rw [writeToFile_cons passenger starts ends]
      by_cases inside : inWindow minDate maxDate s
      · simp [passenger, inside, tail]
      · simp [inside, tail]
    · simp [writeToFile, passenger, tail]

theorem mem_writeToFile {schedules : List (ScheduleRecord (Option String))}
    {line : ScheduleRecord (Option LocationRecord)}
    (member : line ∈ (writeToFile locations minDate maxDate schedules).full ∨
      line ∈ (writeToFile locations minDate maxDate schedules).filtered) :
    ∃ s ∈ schedules, s.isPassenger = "true" ∧ line = join locations s := by
  induction schedules with
  | nil => simp [writeToFile] at member
  | cons s schedules inductionHypothesis =>
    -- a line of either file is that of the first schedule or of a later one
    have later : (line ∈ (writeToFile locations minDate maxDate schedules).full ∨
        line ∈ (writeToFile locations minDate maxDate schedules).filtered) →
        ∃ s' ∈ s :: schedules, s'.isPassenger = "true" ∧ line = join locations s' := by
      intro inRest
      obtain ⟨s', inTail, found⟩ := inductionHypothesis inRest
      exact ⟨s', List.mem_cons_of_mem _ inTail, found⟩
    simp only [writeToFile] at member
    split at member
    · rename_i passenger
      have own : line = join locations s →
          ∃ s' ∈ s :: schedules, s'.isPassenger = "true" ∧ line = join locations s' :=
        fun same => ⟨s, List.mem_cons_self, passenger, same⟩
      split at member
      · obtain inFull | inFiltered := member
        · obtain same | inRest := List.mem_cons.mp inFull
          · exact own same
          · exact later (.inl inRest)
        · simp only at inFiltered
          split at inFiltered
          · obtain same | inRest := List.mem_cons.mp inFiltered
            · exact own same
            · exact later (.inr inRest)
          · exact later (.inr inFiltered)
      · simp only [List.mem_singleton, List.not_mem_nil, or_false] at member
        exact own member
    · exact later member

end CreateSchedules

end TrainWatch.RefData
