import TrainWatch.RefData.CreateSchedules
import TrainWatch.Java.Texts
import TrainWatch.Library.Dict
import TrainWatch.Library.Json
import TrainWatch.Library.Lines
import Mathlib.Tactic.IntervalCases

/-! # The scripts before `write_to_file`

`extract_schedules_and_tiplocs` sorts the lines of the feed by what stands in their
text; `load_schedules` decodes the schedule lines and keeps what the import needs.  A line
is an object of the feed in its compact text.  A script that raises has no result.  The
fields that are handed on unread are modelled where they are texts or null, and a line
with a number, a truth value, a list or a dictionary there has no result either.
-/

namespace TrainWatch.RefData

open TrainWatch.Java TrainWatch.Library

namespace NetworkRailSchedule

/-- Python's `in` on two texts. -/
def inText (part : String) (line : Json) : Bool := decide (part.toList <:+: line.render)

/-- The lines of the schedule file and those of the tiploc file.  The first test is for the second
    of its two texts alone: a text that is not empty counts as true. -/
def extractSchedulesAndTiplocs : List Json → List Json × List Json
  | [] => ([], [])
  | line :: lines =>
    let (schedules, tiplocs) := extractSchedulesAndTiplocs lines
    if inText "schedule_location" line then (line :: schedules, tiplocs)
    else if inText "TiplocV1" line && inText "stanox\":\"" line then (schedules, line :: tiplocs)
    else (schedules, tiplocs)

end NetworkRailSchedule

namespace CreateSchedules

/-- A text or null.  The scripts would hand on a value of any other type; such values are left out.
    -/
def nullableText : Json → Option (Option String)
  | .null => some none
  | .text value => some (some value)
  | _ => none

theorem readNullable {json : Json} {name : String} {text : Option String}
    (found : json.get? name = some (.ofNullable text)) :
    (json.get? name).bind nullableText = some text := by
  rw [found]
  cases text with
  | none => rfl
  | some text => rfl

def asArray : Json → Option (List Json)
  | .array items => some items
  | _ => none

def asText : Json → Option String
  | .text value => some value
  | _ => none

def nextOfType (locationType : String) : List Json → Option Json
  | [] => none
  | l :: locs =>
    match l.get? "location_type" with
    | none => none
    | some (.text found) => if found = locationType then some l else nextOfType locationType locs
    | some _ => nextOfType locationType locs

def isPassenger (signallingId : Option String) : String :=
  match signallingId with
  | none => "false"
  | some text => if text = "" then "false" else "true"

def slice4 (text : String) : String := String.ofList (text.toList.take 4)

def makeSchedule (line : Json) : Option (ScheduleRecord (Option String)) := do
  -- a name that is missing raises
  let s ← line.get? "JsonScheduleV1"
  let schedId ← (s.get? "CIF_train_uid").bind nullableText
  let atocCode ← (s.get? "atoc_code").bind nullableText
  let startDate ← (s.get? "schedule_start_date").bind nullableText
  let endDate ← (s.get? "schedule_end_date").bind nullableText
  let segment ← s.get? "schedule_segment"
  let locs ← (segment.get? "schedule_location").bind asArray
  let orig ← nextOfType "LO" locs
  let dest ← nextOfType "LT" locs
  let sigId ← (segment.get? "signalling_id").bind nullableText
  let serviceCode ← (segment.get? "CIF_train_service_code").bind nullableText
  let origin ← (orig.get? "tiploc_code").bind nullableText
  let destination ← (dest.get? "tiploc_code").bind nullableText
  let departure ← (orig.get? "departure").bind asText
  let arrival ← (dest.get? "arrival").bind asText
  pure
    { id := schedId, trainServiceCode := serviceCode, startDate, endDate, origin, destination
      departure := slice4 departure, arrival := slice4 arrival, atocCode
      isPassenger := isPassenger sigId }

def loadSchedules (lines : List Json) :
    Option (List (ScheduleRecord (Option String))) := lines.mapM makeSchedule

/-- A text file as Python reads it: every line ends with a line feed. -/
def universalNewlines : List Char → List Char
  | [] => []
  | '\r' :: '\n' :: text => '\n' :: universalNewlines text
  | '\r' :: text => '\n' :: universalNewlines text
  | c :: text => c :: universalNewlines text

/-- `json.loads` of a line, its terminator included, is `decode`; of two locations with one tiploc
    the later one stays. -/
def loadLocations (decode : List Char → Option LocationRecord) (file : List Char) :
    Option (Dict (Option String) LocationRecord) := do
  let locations ← (lines '\n' (universalNewlines file)).mapM decode
  pure (.ofPairs (locations.map fun loc => (loc.tiploc, loc)))

theorem universalNewlines_eq {text : List Char} (noReturn : '\r' ∉ text) :
    universalNewlines text = text := by
  induction text with
  | nil => rfl
  | cons c text inductionHypothesis =>
    rw [List.mem_cons, not_or] at noReturn
    have different : c ≠ '\r' := Ne.symm noReturn.1
    simp [universalNewlines, different, inductionHypothesis noReturn.2]

/-! ## Dates of the feed -/

theorem digit_of_isDigit {c : Char} (isDigit : c.isDigit) : digit c = some (c.toNat - '0'.toNat) :=
  decimalDigit_of_isDigit isDigit

theorem strptimeMonth_padded {month : Nat} (first : 1 ≤ month) (last : month ≤ 12)
    (rest : List Char) :
    strptimeMonth ((LocalDate.padded 2 month).toList ++ '-' :: rest) = some (month, rest) := by
  interval_cases month <;> rfl

theorem strptimeDay_padded {day : Nat} (first : 1 ≤ day) (last : day ≤ 31) :
    strptimeDay (LocalDate.padded 2 day).toList = some day := by
  interval_cases day <;> rfl

theorem strptime_toText {date : LocalDate} (first : 1 ≤ date.year) (last : date.year ≤ 9999) :
    strptime (some date.toText) = some date := by
  obtain ⟨_, _, firstMonth, lastMonth, firstDay, _⟩ := date.valid
  have fourDigits : date.FourDigitYear := ⟨by omega, last⟩
  -- the directive for the year takes exactly four characters
  obtain ⟨y₁, y₂, y₃, y₄, yearText⟩ :
    ∃ y₁ y₂ y₃ y₄, (LocalDate.padded 4 date.year.natAbs).toList = [y₁, y₂, y₃, y₄] := by
    have four := LocalDate.length_year fourDigits
    match read : (LocalDate.padded 4 date.year.natAbs).toList, four with
    | [y₁, y₂, y₃, y₄], _ => exact ⟨y₁, y₂, y₃, y₄, rfl⟩
  have yearRead : decimalNumber digit [y₁, y₂, y₃, y₄] = some date.year.natAbs :=
    decimalNumber_of_asciiNumber (fun _ => digit_of_isDigit)
      (yearText ▸ LocalDate.asciiNumber_padded 4 date.year.natAbs)
  have positive : (date.year.natAbs : Int) = date.year := Int.natAbs_of_nonneg fourDigits.1
  have notZero : date.year.natAbs ≠ 0 := by omega
  have text : date.toText.toList = y₁ :: y₂ :: y₃ :: y₄ :: '-' ::
      ((LocalDate.padded 2 date.month).toList ++ '-' :: (LocalDate.padded 2 date.day).toList) := by
    rw [LocalDate.toList_toText fourDigits, yearText]
    simp
  simp [strptime, text, yearRead, strptimeMonth_padded firstMonth lastMonth,
    strptimeDay_padded firstDay date.day_le,
    notZero, positive, LocalDate.of?_eq_some]

end CreateSchedules

end TrainWatch.RefData
