import TrainWatch.RefData.CreateLocations

/-! # The script that makes the reference data

Of the feed's lines and a stations file, the script writes the tiplocs' locations, reads
them back, and writes the schedules with them.  A file that has been written stays when a
later step raises.
-/

namespace TrainWatch.RefData

open TrainWatch.Java TrainWatch.Library
open CreateSchedules CreateLocations NetworkRailSchedule

/-- The files in the order in which they are written; what is missing was never opened. -/
structure RefDataFiles where
  schedules : List Json
  tiplocs : List Json
  locations : Option (List LocationRecord)
  schedulesWithLocations : Option ScheduleFiles

namespace CreateRefData

def makeLocations (tiplocs : List Json) (stations : Json) : Option (List LocationRecord) := do
  let tiplocs ← tiplocsMap tiplocs
  let stations ← stationsMap stations
  createLocations tiplocs stations

def makeSchedules (encode : LocationRecord → List Char) (decode : List Char → Option LocationRecord)
    (today : LocalDate)
    (schedules : List Json) (written : List LocationRecord) : Option ScheduleFiles := do
  let locations ← loadLocations decode (writeLocations encode written)
  let schedules ← loadSchedules schedules
  writeToFileOn today 30 locations.toMap schedules

/-- From the downloaded files on. -/
def main (encode : LocationRecord → List Char) (decode : List Char → Option LocationRecord)
    (today : LocalDate) (feed : List Json)
    (stations : Json) : RefDataFiles :=
  let (schedules, tiplocs) := extractSchedulesAndTiplocs feed
  let locations := makeLocations tiplocs stations
  { schedules, tiplocs, locations
    schedulesWithLocations := locations.bind (makeSchedules encode decode today schedules) }

variable {encode : LocationRecord → List Char} {decode : List Char → Option LocationRecord}
    {today : LocalDate}

theorem locations_main (feed : List Json) (stations : Json) :
    (main encode decode today feed stations).locations =
    makeLocations (extractSchedulesAndTiplocs feed).2 stations := rfl

theorem schedulesWithLocations_main (feed : List Json) (stations : Json) :
    (main encode decode today feed stations).schedulesWithLocations =
      (makeLocations (extractSchedulesAndTiplocs feed).2 stations).bind
        (makeSchedules encode decode today (extractSchedulesAndTiplocs feed).1) := rfl

theorem makeSchedules_eq_some {schedules : List Json} {written : List LocationRecord}
    {files : ScheduleFiles}
    (made : makeSchedules encode decode today schedules written = some files) :
    ∃ locations records minDate maxDate,
      loadLocations decode (writeLocations encode written) = some locations ∧
      loadSchedules schedules = some records ∧ plusTimedelta today (-1) = some minDate ∧
        plusTimedelta today 31 = some maxDate ∧
      files = writeToFile locations.toMap minDate maxDate records := by
  obtain ⟨locations, loaded, made⟩ := Option.bind_eq_some_iff.mp made
  obtain ⟨records, loaded', made⟩ := Option.bind_eq_some_iff.mp made
  obtain ⟨maxDate, last, made⟩ := Option.bind_eq_some_iff.mp made
  obtain ⟨minDate, first, made⟩ := Option.bind_eq_some_iff.mp made
  cases made
  exact ⟨locations, records, minDate, maxDate, loaded, loaded', first, last, rfl⟩

theorem nodup_of_makeLocations {tiplocs : List Json} {stations : Json}
    {locations : List LocationRecord}
    (made : makeLocations tiplocs stations = some locations) :
    (locations.map (·.tiploc)).Nodup := by
  obtain ⟨tiplocMap, built, made⟩ := Option.bind_eq_some_iff.mp made
  obtain ⟨stationMap, _, created⟩ := Option.bind_eq_some_iff.mp made
  exact nodup_of_created built created

end CreateRefData

end TrainWatch.RefData
