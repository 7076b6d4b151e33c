import TrainWatch.Verified.LocationIndexes
import TrainWatch.RefData.ScheduleImport

/-! # Which queries depend on the order of an import

The lines of a file reach the repository in an order that nothing fixes.  An index gives
the value put last under a key, so an answer is the same in all orders exactly when the
lines with its key agree; for the tiplocs the scripts see to that, for the other two keys
they do not.
-/

namespace TrainWatch.Verified.ImportOrder

open TrainWatch.Java TrainWatch.RefData TrainWatch.Library
open TrainWatch.RefData.CreateLocations TrainWatch.RefData.CreateSchedules
open TrainWatch.RefData.LocationPopulator TrainWatch.RefData.ScheduleRepositoryPopulator

section Locations

variable {lines : List Json} {tiplocMap stationMap : Dict (Option String) Json}
    {locations : List LocationRecord}

/-- The repository after the locations were handed over in this order. -/
def afterLocations (order : List LocationRecord) : HzLocationRepo :=
  (LocationPopulator.populate .empty order).1

theorem afterLocations_eq (keyed : ∀ location ∈ locations, Keyed location.toLocation)
    {order : List LocationRecord}
    (perm : order.Perm locations) :
    afterLocations order =
      ⟨IMap.putAll stanoxKey ∅ (order.filterMap fun location => some location.toLocation),
      IMap.putAll tiplocKey ∅ (order.filterMap fun location => some location.toLocation)⟩ := by
  have populated := LocationPopulator.populate_eq_ok (fun location member =>
    keyed location (perm.mem_iff.mp member)) .empty
  rw [afterLocations, populated, List.filterMap_eq_map']
  rfl

variable (built : tiplocsMap lines = some tiplocMap)
    (created : createLocations tiplocMap stationMap = some locations)
include built created

theorem toLocation_inj {location other : LocationRecord} (member : location ∈ locations)
    (member' : other ∈ locations)
    (same : location.toLocation = other.toLocation) : location = other :=
  tiploc_inj built created member member' (congrArg Location.tiploc same)

variable (keyed : ∀ location ∈ locations, Keyed location.toLocation)
include keyed

theorem getByTiploc_alike {order order' : List LocationRecord} (perm : order.Perm locations)
    (perm' : order'.Perm locations) (tiploc : Option String) :
    (afterLocations order).getByTiploc tiploc = (afterLocations order').getByTiploc tiploc := by
  rw [afterLocations_eq keyed perm, afterLocations_eq keyed perm']
  cases tiploc with
  | none => rfl
  | some tiploc =>
    refine congrArg Except.ok (IMap.get_putAll_alike_iff.mpr ?_ order order' perm perm')
    rw [List.filterMap_eq_map']
    intro location member other member' here here'
    obtain ⟨line, inFile, rfl⟩ := List.mem_map.mp member
    obtain ⟨line', inFile', rfl⟩ := List.mem_map.mp member'
    have named := (tiplocKey_eq_iff (keyed line inFile)).mp here
    have named' := (tiplocKey_eq_iff (keyed line' inFile')).mp here'
    rw [tiploc_inj built created inFile inFile' (named.trans named'.symm)]

theorem getByStanox_alike_iff (stanox : Option String) :
    (∀ order order' : List LocationRecord, order.Perm locations → order'.Perm locations →
      (afterLocations order).getByStanox stanox = (afterLocations order').getByStanox stanox) ↔
    ∀ location ∈ locations, ∀ other ∈ locations, location.stanox = stanox → other.stanox = stanox →
      location = other := by
  cases stanox with
  | none =>
    -- a null query throws in every order, and no location of the file has a null stanox
    constructor
    · intro _ location member other _ unnamed
      have named := (keyed location member).stanox
      rw [show location.toLocation.stanox = none from unnamed] at named
      cases named
    · intro _ order order' _ _
      rfl
  | some stanox =>
    have agree : (∀ location ∈ locations.filterMap fun location => some location.toLocation,
        ∀ other ∈ locations.filterMap fun location => some location.toLocation,
          stanoxKey location = stanox → stanoxKey other = stanox → location = other) ↔
        ∀ location ∈ locations, ∀ other ∈ locations,
          location.stanox = some stanox → other.stanox = some stanox → location = other := by
      simp only [List.filterMap_eq_map', List.forall_mem_map]
      refine forall₂_congr fun location member => forall₂_congr fun other member' => ?_
      rw [stanoxKey_eq_iff (keyed location member), stanoxKey_eq_iff (keyed other member')]
      exact imp_congr_right fun _ => imp_congr_right fun _ =>
        ⟨toLocation_inj built created member member', congrArg LocationRecord.toLocation⟩
    rw [← agree, ← IMap.get_putAll_alike_iff]
    refine forall₂_congr fun order order' => forall₂_congr fun perm perm' => ?_
    rw [afterLocations_eq keyed perm, afterLocations_eq keyed perm']
    exact ⟨fun same => Except.ok.inj same, fun same => congrArg Except.ok same⟩

end Locations

section Schedules

variable {file : List (ScheduleRecord (Option LocationRecord))}

theorem getBy_alike_iff (accepted : ∀ json ∈ file, ∃ schedule, toSchedule json = .ok schedule)
    (id serviceCode start finish : Option String) :
    (∀ order order' : List (ScheduleRecord (Option LocationRecord)), order.Perm file →
      order'.Perm file →
      (ScheduleRepositoryPopulator.populate .empty order).map
        (·.getBy id serviceCode start finish) =
        (ScheduleRepositoryPopulator.populate .empty order').map
          (·.getBy id serviceCode start finish)) ↔
    ∀ schedule ∈ file.filterMap parsed, ∀ other ∈ file.filterMap parsed,
      schedule.uniqueKey = scheduleKey id serviceCode start finish →
        other.uniqueKey = scheduleKey id serviceCode start finish → schedule = other := by
  rw [← IMap.get_putAll_alike_iff]
  refine forall₂_congr fun order order' => forall₂_congr fun perm perm' => ?_
  rw [populate_eq_ok (fun json member => accepted json (perm.mem_iff.mp member)),
    populate_eq_ok (fun json member => accepted json (perm'.mem_iff.mp member))]
  exact ⟨fun same => Except.ok.inj same, fun same => congrArg Except.ok same⟩

end Schedules

/-- When no line is rejected, the orders of a locations file and of a schedules file answer every
    query by tiploc alike; a query by stanox, if and only if all locations with the stanox are one;
    and a query for a schedule, if and only if all schedules with the key are one. -/
theorem import_order_iff {lines : List Json} {tiplocMap stationMap : Dict (Option String) Json}
    {locations : List LocationRecord}
    (built : tiplocsMap lines = some tiplocMap)
    (created : createLocations tiplocMap stationMap = some locations)
    (keyed : ∀ location ∈ locations, Keyed location.toLocation)
    {file : List (ScheduleRecord (Option LocationRecord))}
    (accepted : ∀ json ∈ file, ∃ schedule, toSchedule json = .ok schedule) :
    (∀ tiploc, ∀ order order' : List LocationRecord, order.Perm locations → order'.Perm locations →
      (afterLocations order).getByTiploc tiploc = (afterLocations order').getByTiploc tiploc) ∧
    (∀ stanox, (∀ order order' : List LocationRecord, order.Perm locations → order'.Perm locations →
      (afterLocations order).getByStanox stanox = (afterLocations order').getByStanox stanox) ↔
      ∀ location ∈ locations, ∀ other ∈ locations, location.stanox = stanox →
        other.stanox = stanox →
        location = other) ∧
    ∀ id serviceCode start finish,
      (∀ order order' : List (ScheduleRecord (Option LocationRecord)), order.Perm file →
        order'.Perm file →
        (ScheduleRepositoryPopulator.populate .empty order).map
          (·.getBy id serviceCode start finish) =
          (ScheduleRepositoryPopulator.populate .empty order').map
            (·.getBy id serviceCode start finish)) ↔
      ∀ schedule ∈ file.filterMap parsed, ∀ other ∈ file.filterMap parsed,
        schedule.uniqueKey = scheduleKey id serviceCode start finish →
          other.uniqueKey = scheduleKey id serviceCode start finish → schedule = other :=
  ⟨fun tiploc _ _ perm perm' => getByTiploc_alike built created keyed perm perm' tiploc,
    getByStanox_alike_iff built created keyed, getBy_alike_iff accepted⟩

/-! ## A yard that shares a stanox, and two schedules with one key -/

open LocationIndexes

def station : LocationRecord :=
  ⟨some "87901", some "BRIGHTON", none, ⟨.str "0.0", .str "0.0"⟩, some "BRGHTN"⟩

def yard : LocationRecord :=
  ⟨some "87901", some "BRIGHTON YARD", none, ⟨.str "0.0", .str "0.0"⟩, some "BRGHTNY"⟩

def stationAndYard : List Json :=
  [tiplocLine "BRGHTN" "87901" "BRIGHTON", tiplocLine "BRGHTNY" "87901" "BRIGHTON YARD"]

def tiplocs : Dict (Option String) Json :=
  .ofPairs (stationAndYard.filterMap fun line => (line.get? "TiplocV1").map fun value =>
    (codeOf value, value))

theorem stationAndYard_tiplocs : tiplocsMap stationAndYard = some tiplocs := rfl

theorem stationAndYard_locations : createLocations tiplocs .empty = some [station, yard] := rfl

/-- A record of the train at BRGHTN or at its yard, under one key. -/
def fromTiploc (tiploc : String) : ScheduleRecord (Option String) :=
  { id := some "W12345", trainServiceCode := some "24745000", startDate := some "2016-03-01"
    endDate := some "2016-03-31", origin := some tiploc, destination := none
    departure := "1030", arrival := "1130", atocCode := some "SN", isPassenger := "true" }

def writtenTwice : ScheduleFiles :=
  writeToFile (((∅ : IMap _ _).set (some "BRGHTN") station).set (some "BRGHTNY") yard)
    ⟨2016, 3, 11, by decide⟩
    ⟨2016, 4, 12, by decide⟩ [fromTiploc "BRGHTN", fromTiploc "BRGHTNY"]

/-- The answer to a query is that of the line handed over last. -/
theorem answers_depend_on_order :
    tiplocsMap stationAndYard = some tiplocs ∧ createLocations tiplocs .empty =
      some [station, yard] ∧
      (afterLocations [station, yard]).getByStanox (some "87901") = .ok (some yard.toLocation) ∧
      (afterLocations [yard, station]).getByStanox (some "87901") = .ok (some station.toLocation) ∧
      (ScheduleRepositoryPopulator.populate .empty writtenTwice.full).map
          (fun repo =>
            (repo.getBy (some "W12345") (some "24745000") (some "2016-03-01")
            (some "2016-03-31")).map (·.origin)) =
        .ok (some (some yard.toLocation)) ∧
      (ScheduleRepositoryPopulator.populate .empty writtenTwice.full.reverse).map
          (fun repo =>
            (repo.getBy (some "W12345") (some "24745000") (some "2016-03-01")
            (some "2016-03-31")).map (·.origin)) =
        .ok (some (some station.toLocation)) :=
  ⟨stationAndYard_tiplocs, stationAndYard_locations, by decide, by decide, by decide, by decide⟩

/-- The rule at these files: by tiploc, both orders answer alike. -/
theorem station_is_found_by_tiploc :
    (afterLocations [station, yard]).getByTiploc (some "BRGHTN") =
      (afterLocations [yard, station]).getByTiploc (some "BRGHTN") := by
  have keyed : ∀ location ∈ [station, yard], Keyed location.toLocation := by
    intro location member
    obtain rfl | rfl : location = station ∨ location = yard := by simpa using member
    · exact ⟨rfl, rfl⟩
    · exact ⟨rfl, rfl⟩
  have accepted : ∀ json ∈ writtenTwice.full, ∃ schedule, toSchedule json = .ok schedule := by
    have each : ∀ json ∈ writtenTwice.full, (parsed json).isSome := by decide
    intro json member
    have read := each json member
    rw [parsed] at read
    cases result : toSchedule json with
    | ok schedule => exact ⟨schedule, rfl⟩
    | error thrown => rw [result] at read; cases read
  exact (import_order_iff stationAndYard_tiplocs stationAndYard_locations keyed accepted).1
    (some "BRGHTN") _ _
    (List.Perm.refl _) (List.Perm.swap _ _ _)

end TrainWatch.Verified.ImportOrder
