import TrainWatch.RefData.CreateRefData
import TrainWatch.Verified.LocationJoin
import TrainWatch.Verified.ScheduleDelivery
import TrainWatch.Verified.FeedClassification
import TrainWatch.Verified.Shown

/-! # The reference data as a whole

The schedules are joined with the locations as they are read back from their file, and the
locations are imported from the same file: so the two repositories agree on every location,
and so does everything that the producer makes of them.  The lines of the feed may be any of
which the scripts make their files, where the fields that they read are texts or null: a
tiploc that is a number would be a text to the import, and no longer what the scripts joined.
-/

namespace TrainWatch.Verified.ReferenceData

open TrainWatch.Java TrainWatch.RefData TrainWatch.Library TrainWatch.Movement
open TrainWatch.RefData.CreateSchedules TrainWatch.RefData.CreateLocations
  TrainWatch.RefData.CreateRefData
open TrainWatch.Verified.LocationIndexes TrainWatch.Verified.LocationJoin
  TrainWatch.Verified.ScheduleDelivery
open TrainWatch.RefData.LocationPopulator (Keyed stanoxKey tiplocKey)
open TrainWatch.RefData.ScheduleRepositoryPopulator (Imported IsScheduleOf)

/-! ## The imported locations -/

section Locations

variable {locations handed : List LocationRecord} {repo : HzLocationRepo}

theorem keyed_of_populate {start : HzLocationRepo}
    (populated : LocationPopulator.populate start handed = (repo, .ok ())) :
    ∀ location ∈ handed, Keyed location.toLocation := by
  induction handed generalizing start with
  | nil =>
    intro location member
    cases member
  | cons first handed inductionHypothesis =>
    rw [LocationPopulator.populate, HzLocationRepo.put] at populated
    -- a null key ends the import, so the first location has both
    cases stanox : first.stanox with
    | none =>
      simp only [LocationRecord.toLocation, stanox] at populated
      cases populated
    | some stanoxText =>
      cases tiploc : first.tiploc with
      | none =>
        simp only [LocationRecord.toLocation, stanox, tiploc] at populated
        cases populated
      | some tiplocText =>
        simp only [LocationRecord.toLocation, stanox, tiploc] at populated
        intro location member
        obtain rfl | later := List.mem_cons.mp member
        · have stanox : location.toLocation.stanox = some stanoxText := stanox
          have tiploc : location.toLocation.tiploc = some tiplocText := tiploc
          exact ⟨by rw [stanoxKey, stanox, Option.getD_some],
            by rw [tiplocKey, tiploc, Option.getD_some]⟩
        · exact inductionHypothesis populated location later

theorem get_byTiplocMap_iff (distinct : (locations.map (·.tiploc)).Nodup)
    (order : handed.Perm locations)
    (populated : LocationPopulator.populate .empty handed = (repo, .ok ())) {tiploc : String}
    {location : Location} :
    repo.byTiplocMap.get tiploc = some location ↔
      ∃ line ∈ locations, line.tiploc = some tiploc ∧ location = line.toLocation := by
  have keyed := keyed_of_populate populated
  rw [LocationPopulator.populate_eq_ok keyed] at populated
  cases populated
  constructor
  · intro found
    obtain ⟨member, rfl⟩ := IMap.of_get_putAll found
    obtain ⟨line, inHanded, rfl⟩ := List.mem_map.mp member
    exact ⟨line, order.mem_iff.mp inHanded, (keyed line inHanded).tiploc, rfl⟩
  · rintro ⟨line, member, named, rfl⟩
    have inHanded : line ∈ handed := order.mem_iff.mpr member
    rw [← (LocationPopulator.tiplocKey_eq_iff (keyed line inHanded)).mpr named]
    refine IMap.get_putAll_of_agree (List.mem_map_of_mem inHanded) fun other member' same => ?_
    obtain ⟨line', inHanded', rfl⟩ := List.mem_map.mp member'
    have sameTiploc : line'.tiploc = line.tiploc :=
      (keyed line' inHanded').tiploc.trans
        ((congrArg some same).trans (keyed line inHanded).tiploc.symm)
    rw [List.inj_on_of_nodup_map distinct (order.mem_iff.mp inHanded') member sameTiploc]

theorem get_byStanoxMap (distinct : (locations.map (·.tiploc)).Nodup)
    (order : handed.Perm locations)
    (populated : LocationPopulator.populate .empty handed = (repo, .ok ())) {stanox : String}
    {location : Location}
    (found : repo.byStanoxMap.get stanox = some location) :
    location.stanox = some stanox ∧ repo.getByTiploc location.tiploc = .ok (some location) := by
  have keyed := keyed_of_populate populated
  have member : location ∈ handed.map LocationRecord.toLocation ∧ stanoxKey location = stanox := by
    rw [LocationPopulator.populate_eq_ok keyed] at populated
    cases populated
    exact IMap.of_get_putAll found
  obtain ⟨member, same⟩ := member
  obtain ⟨line, inHanded, rfl⟩ := List.mem_map.mp member
  obtain ⟨hasStanox, hasTiploc⟩ := keyed line inHanded
  refine ⟨hasStanox.trans (congrArg some same), ?_⟩
  rw [hasTiploc, HzLocationRepo.getByTiploc_some]
  exact congrArg Except.ok ((get_byTiplocMap_iff distinct order populated).mpr
    ⟨line, order.mem_iff.mp inHanded, hasTiploc, rfl⟩)

/-- The dictionary that the schedules are joined with answers like the index; a null tiploc has no
    location in either. -/
theorem get_loaded {encode : LocationRecord → List Char}
    {decode : List Char → Option LocationRecord}
    (distinct : (locations.map (·.tiploc)).Nodup) (lossless : Lossless encode decode locations)
    {loaded : Dict (Option String) LocationRecord}
    (read : loadLocations decode (writeLocations encode locations) = some loaded)
    (order : handed.Perm locations)
    (populated : LocationPopulator.populate .empty handed = (repo, .ok ()))
    (tiploc : Option String) :
    (loaded.toMap.get tiploc).map LocationRecord.toLocation = tiploc.bind repo.byTiplocMap.get := by
  obtain ⟨_, read', gets⟩ := roundTrip_of_nodup distinct encode decode lossless
  cases read.symm.trans read'
  rw [Dict.get_toMap]
  cases tiploc with
  | some tiploc =>
    refine Option.ext fun location => ?_
    rw [Option.map_eq_some_iff, Option.bind_some, get_byTiplocMap_iff distinct order populated]
    simp only [gets, and_assoc, eq_comm]
  | none =>
    have absent : loaded.get none = none := by
      refine Option.eq_none_iff_forall_ne_some.mpr fun location found => ?_
      obtain ⟨member, unnamed⟩ := (gets none location).mp found
      have named := (keyed_of_populate populated location (order.mem_iff.mpr member)).tiploc
      rw [show location.toLocation.tiploc = none from unnamed] at named
      cases named
    rw [absent, Option.map_none, Option.bind_none]

end Locations

/-! ## The two repositories -/

def Found (repo : HzLocationRepo) (location : Option Location) : Prop :=
  ∀ found, location = some found → repo.getByTiploc found.tiploc = .ok (some found)

/-- The repositories agree on all locations, and every schedule found is that of a passenger record,
    with the key it was asked for by and the locations of the record's tiplocs. -/
structure Coherent (repos : ReferenceRepos) (records : List (ScheduleRecord (Option String))) :
    Prop where
  byTiploc : ∀ tiploc location, repos.locationRepo.byTiplocMap.get tiploc = some location →
    location.tiploc = some tiploc
  byStanox : ∀ stanox location, repos.locationRepo.getByStanox stanox = .ok (some location) →
    location.stanox = stanox ∧ repos.locationRepo.getByTiploc location.tiploc = .ok (some location)
  schedules : ∀ id serviceCode startDate endDate schedule,
    repos.scheduleRepo.getBy id serviceCode startDate endDate = some schedule →
    schedule.uniqueKey = scheduleKey id serviceCode startDate endDate ∧
      ∃ s ∈ records, s.isPassenger = "true" ∧ IsScheduleOf s schedule ∧
        schedule.origin = s.origin.bind repos.locationRepo.byTiplocMap.get ∧
        schedule.destination = s.destination.bind repos.locationRepo.byTiplocMap.get

section Coherence

variable {repos : ReferenceRepos} {records : List (ScheduleRecord (Option String))}
    {messages : List TrustMovementMessage}
variable {s : State}

theorem Coherent.found_of_tiploc (coherent : Coherent repos records) (tiploc : Option String) :
    Found repos.locationRepo (tiploc.bind repos.locationRepo.byTiplocMap.get) := by
  intro location found
  obtain ⟨tiploc, rfl, held⟩ := Option.bind_eq_some_iff.mp found
  rw [coherent.byTiploc tiploc location held, HzLocationRepo.getByTiploc_some, held]

theorem Coherent.found_of_activates (coherent : Coherent repos records) {msg : TrustMovementMessage}
    {trainId : String}
    {schedule : Schedule} (activates : TrainMovementProducer.Activates repos msg trainId schedule) :
    Found repos.locationRepo schedule.origin ∧ Found repos.locationRepo schedule.destination := by
  obtain ⟨_, body, hasBody, _, lookup⟩ := activates
  simp only [TrainMovementProducer.lookupSchedule, hasBody, nonNull_some, ok_bind, pure_eq_ok,
    Except.ok.injEq] at lookup
  obtain ⟨_, record, _, _, _, origin, destination⟩ := coherent.schedules _ _ _ _ _ lookup
  rw [origin, destination]
  exact ⟨coherent.found_of_tiploc _, coherent.found_of_tiploc _⟩

def Located (repo : HzLocationRepo) (tm : TrainMovement) : Prop :=
  Found repo tm.origin ∧ Found repo tm.destination ∧ Found repo tm.currentLocation

theorem Coherent.located_of_reported (coherent : Coherent repos records) {tm : TrainMovement}
    (reported : Shown.Reported repos messages tm) : Located repos.locationRepo tm := by
  obtain ⟨_, _, _, body, activation, now, _, _, ⟨_, _, _, _, _, activates, _⟩, _, translation⟩ :=
    reported
  obtain ⟨origin, destination⟩ := coherent.found_of_activates activates
  refine ⟨translation.origin ▸ origin, translation.destination ▸ destination,
    fun location here => ?_⟩
  exact (coherent.byStanox _ _ (translation.currentLocation.trans (congrArg Except.ok here))).2

/-- Every location in the stores and on the topic is found by its tiploc. -/
structure KnowsLocations (repo : HzLocationRepo) (s : State) : Prop where
  activations : ∀ trainId activation, IMap.get s.activations trainId = some activation →
    Found repo activation.schedule.origin ∧ Found repo activation.schedule.destination
  topic : ∀ record ∈ s.topic, Located repo record.value
  movements : ∀ trainId tm, IMap.get s.movements trainId = some tm → Located repo tm

theorem Coherent.knowsLocations (coherent : Coherent repos records) {trace : List Action}
    (reached : run (State.step repos) .empty trace = some s) :
    KnowsLocations repos.locationRepo s := by
  have sourced := Shown.sourced_run reached
  constructor
  · intro trainId activation found
    obtain ⟨_, _, _, _, _, activates, _⟩ := sourced.activations trainId activation found
    exact coherent.found_of_activates activates
  · exact fun record member => coherent.located_of_reported (sourced.topic record member)
  · exact fun trainId tm found => coherent.located_of_reported (sourced.movements trainId tm found)

end Coherence

/-- When the script has written the files of a feed, the locations have been imported in any order,
    and any part of either schedule file has been imported, the repositories agree on all locations;
    and in every run of the pipeline over them each location shown is one that is found by its
    tiploc. -/
theorem reference_data_agrees {encode : LocationRecord → List Char}
    {decode : List Char → Option LocationRecord} {today : LocalDate}
    {feed : List Json} {stations : Json} {locations : List LocationRecord} {files : ScheduleFiles}
    (made : (main encode decode today feed stations).locations = some locations)
    (written : (main encode decode today feed stations).schedulesWithLocations = some files)
    (lossless : Lossless encode decode locations) {locationLines : List LocationRecord}
    (order : locationLines.Perm locations)
    {locationRepo : HzLocationRepo}
    (populated : LocationPopulator.populate .empty locationLines = (locationRepo, .ok ()))
    {lines : List (ScheduleRecord (Option LocationRecord))}
    (chosen : lines = files.full ∨ lines = files.filtered)
    {scheduleRepo : HzScheduleRepo} (imported : Imported lines scheduleRepo) :
    (∃ records, loadSchedules (main encode decode today feed stations).schedules = some records ∧
      Coherent ⟨scheduleRepo, locationRepo⟩ records) ∧
    ∀ trace s, run (State.step ⟨scheduleRepo, locationRepo⟩) .empty trace = some s →
      KnowsLocations locationRepo s := by
  rw [locations_main] at made
  rw [schedulesWithLocations_main, made] at written
  have distinct := nodup_of_makeLocations made
  obtain ⟨loaded, records, minDate, maxDate, read, loads, _, _, rfl⟩ :=
    makeSchedules_eq_some written
  -- by tiploc, by stanox, and at the ends of the schedules
  have coherent : Coherent ⟨scheduleRepo, locationRepo⟩ records := by
    constructor
    · intro tiploc location held
      obtain ⟨_, _, named, rfl⟩ := (get_byTiplocMap_iff distinct order populated).mp held
      exact named
    · intro stanox location found
      obtain ⟨stanox, given, held⟩ := bind_eq_ok.mp found
      rw [nonNull_eq_ok.mp given]
      exact get_byStanoxMap distinct order populated (Except.ok.inj held)
    · intro id serviceCode startDate endDate schedule found
      obtain ⟨key, s, member, passenger, isSchedule, origin, destination⟩ :=
        ScheduleRepositoryPopulator.imported_schedule chosen imported found
      exact ⟨key, s, member, passenger, isSchedule,
        origin.trans (get_loaded distinct lossless read order populated _),
        destination.trans (get_loaded distinct lossless read order populated _)⟩
  exact ⟨⟨records, loads, coherent⟩, fun trace s reached => coherent.knowsLocations reached⟩

/-! ## A feed of all record types -/

inductive FeedRecord where
  | schedule (r : ScheduleEntry)
  | tiploc (r : TiplocRecord)
  | other

/-- The line is the record, and the marker texts of the extraction stand in the lines that they are
    for. -/
def IsRecord (line : Json) : FeedRecord → Prop
  | .schedule r => JsonScheduleV1 line r
  | .tiploc r => TiplocV1 line r ∧ ¬ FeedClassification.Mentions "schedule_location" line
  | .other => ¬ FeedClassification.Mentions "schedule_location" line ∧
      ¬ (FeedClassification.Mentions "TiplocV1" line ∧ FeedClassification.NamesText "stanox" line)

def schedulesOf (records : List FeedRecord) : List ScheduleEntry :=
  records.filterMap fun
    | .schedule r => some r
    | _ => none

def tiplocsOf (records : List FeedRecord) : List TiplocRecord :=
  records.filterMap fun
    | .tiploc r => some r
    | _ => none

section Delivery

open NetworkRailSchedule

variable {feed : List Json} {records : List FeedRecord}

theorem not_inText_scheduleLocation {line : Json}
    (unmarked : ¬ FeedClassification.Mentions "schedule_location" line) :
    inText "schedule_location" line = false := by
  rw [← Bool.not_eq_true, FeedClassification.inText_scheduleLocation]
  exact unmarked

theorem extract_schedule {line : Json} {r : ScheduleEntry} (isRecord : IsRecord line (.schedule r))
    (feed : List Json) :
    extractSchedulesAndTiplocs (line :: feed) =
      (line :: (extractSchedulesAndTiplocs feed).1, (extractSchedulesAndTiplocs feed).2) := by
  simp only [extractSchedulesAndTiplocs, inText_of_record isRecord, if_true]

theorem extract_tiploc {line : Json} {r : TiplocRecord} (isRecord : IsRecord line (.tiploc r))
    (feed : List Json) :
    extractSchedulesAndTiplocs (line :: feed) =
      ((extractSchedulesAndTiplocs feed).1, line :: (extractSchedulesAndTiplocs feed).2) := by
  obtain ⟨⟨value, found, fields⟩, unmarked⟩ := isRecord
  obtain ⟨named, stanox⟩ := FeedClassification.marked_of_hasStanoxText
    (FeedClassification.hasStanoxText_eq_true.mpr ⟨value, _, found, fields.stanox⟩)
  simp only [extractSchedulesAndTiplocs, not_inText_scheduleLocation unmarked,
    FeedClassification.inText_tiplocV1.mpr named,
    FeedClassification.inText_stanox.mpr stanox, Bool.false_eq_true, if_false, Bool.and_self,
      if_true]

theorem extract_other {line : Json} (isRecord : IsRecord line .other) (feed : List Json) :
    extractSchedulesAndTiplocs (line :: feed) = extractSchedulesAndTiplocs feed := by
  obtain ⟨unmarked, notBoth⟩ := isRecord
  have notTiploc : (inText "TiplocV1" line && inText "stanox\":\"" line) = false := by
    rw [← Bool.not_eq_true, Bool.and_eq_true, FeedClassification.inText_tiplocV1,
      FeedClassification.inText_stanox]
    exact notBoth
  simp only [extractSchedulesAndTiplocs, not_inText_scheduleLocation unmarked, notTiploc,
    Bool.false_eq_true, if_false]

theorem extract_of_records (feedRecords : List.Forall₂ IsRecord feed records) :
    List.Forall₂ JsonScheduleV1 (extractSchedulesAndTiplocs feed).1 (schedulesOf records) ∧
      List.Forall₂ TiplocV1 (extractSchedulesAndTiplocs feed).2 (tiplocsOf records) := by
  induction feedRecords with
  | nil => exact ⟨.nil, .nil⟩
  | @cons line record feed records isRecord _ inductionHypothesis =>
    obtain ⟨schedules, tiplocs⟩ := inductionHypothesis
    cases record with
    | schedule r =>
      rw [extract_schedule isRecord]
      exact ⟨.cons isRecord schedules, tiplocs⟩
    | tiploc r =>
      rw [extract_tiploc isRecord]
      exact ⟨schedules, .cons isRecord.1 tiplocs⟩
    | other =>
      rw [extract_other isRecord]
      exact ⟨schedules, tiplocs⟩

variable {locations : IMap (Option String) LocationRecord} {minDate maxDate : LocalDate}
    {entries kept : List ScheduleEntry}

/-- The record's dates meet the window of the filtered file. -/
def InWindow (minDate maxDate : LocalDate) (r : ScheduleEntry) : Prop :=
  r.startDate.date.isBefore maxDate = true ∧ minDate.isBefore r.endDate.date = true

instance : DecidablePred (InWindow minDate maxDate) := fun _ => inferInstanceAs (Decidable (_ ∧ _))

theorem dated_of_record (r : ScheduleEntry) :
    strptime r.record.startDate = some r.startDate.date ∧ strptime r.record.endDate =
      some r.endDate.date :=
  ⟨strptime_toText r.startDate.first r.startDate.last,
    strptime_toText r.endDate.first r.endDate.last⟩

theorem filtered_of_entries (locations : IMap (Option String) LocationRecord)
    (minDate maxDate : LocalDate)
    (entries : List ScheduleEntry) :
    (writeToFile locations minDate maxDate (entries.map ScheduleEntry.record)).filtered =
      (entries.filter fun r => r.record.isPassenger = "true" ∧ InWindow minDate maxDate r).map
        fun r => join locations r.record := by
  rw [filtered_writeToFile, List.filter_map, List.map_map]
  · congr 2
    funext r
    obtain ⟨started, ended⟩ := dated_of_record r
    rw [Bool.eq_iff_iff, decide_eq_true_iff, InWindow]
    simp [inWindow, started, ended]
  · intro s member _
    obtain ⟨r, _, rfl⟩ := List.mem_map.mp member
    obtain ⟨started, ended⟩ := dated_of_record r
    exact ⟨Option.isSome_iff_exists.mpr ⟨_, started⟩, Option.isSome_iff_exists.mpr ⟨_, ended⟩⟩

theorem import_of_entries (passengers : ∀ r ∈ kept, r.Passenger)
    (distinct : (kept.map ScheduleEntry.key).Nodup)
    {lines : List (ScheduleRecord (Option LocationRecord))}
    (order : lines.Perm (kept.map fun r => join locations r.record)) :
    ∃ repo, ScheduleRepositoryPopulator.populate .empty lines = .ok repo ∧
      ∀ key schedule, repo.map.get key = some schedule ↔ ∃ r ∈ kept, r.key = key ∧
        schedule = r.schedule locations := by
  have accepted : ∀ json ∈ lines, ∃ r ∈ kept, ScheduleRepositoryPopulator.toSchedule json =
      .ok (r.schedule locations) := by
    intro json member
    obtain ⟨r, isKept, rfl⟩ := List.mem_map.mp (order.subset member)
    exact ⟨r, isKept, toSchedule_join locations (passengers r isKept)⟩
  have parsed : ∀ schedule, schedule ∈ lines.filterMap ScheduleRepositoryPopulator.parsed ↔
      ∃ r ∈ kept, schedule = r.schedule locations := by
    intro schedule
    rw [(order.filterMap _).mem_iff, List.filterMap_map, List.mem_filterMap]
    refine exists_congr fun r => and_congr_right fun isKept => ?_
    rw [Function.comp_apply, ScheduleRepositoryPopulator.parsed, toSchedule_join locations
      (passengers r isKept)]
    exact ⟨fun same => (Option.some.inj same).symm, fun same => congrArg some same.symm⟩
  refine ⟨_, ScheduleRepositoryPopulator.populate_eq_ok (fun json member => ?_) .empty,
    fun key schedule => ?_⟩
  · obtain ⟨r, _, read⟩ := accepted json member
    exact ⟨_, read⟩
  constructor
  · intro found
    obtain ⟨putToo, rfl⟩ := IMap.of_get_putAll found
    obtain ⟨r, isKept, rfl⟩ := (parsed schedule).mp putToo
    exact ⟨r, isKept, rfl, rfl⟩
  · rintro ⟨r, isKept, rfl, rfl⟩
    -- no two schedules have one key, so the order of the lines does not matter
    have agree : ∀ other ∈ lines.filterMap ScheduleRepositoryPopulator.parsed,
        other.uniqueKey = (r.schedule locations).uniqueKey → other = r.schedule locations := by
      intro other putToo same
      obtain ⟨r', isKept', rfl⟩ := (parsed other).mp putToo
      have sameKey : r'.key = r.key := same
      rw [List.inj_on_of_nodup_map distinct isKept' isKept sameKey]
    have held :
        (IMap.putAll Schedule.uniqueKey ∅ (lines.filterMap ScheduleRepositoryPopulator.parsed)).get
        (r.schedule locations).uniqueKey = some (r.schedule locations) :=
      IMap.get_putAll_of_agree ((parsed _).mpr ⟨r, isKept, rfl⟩) agree
    exact held

/-- Exactly these records have a schedule; each is found by its activation message, with what the
    index has at its tiplocs. -/
structure Delivers (repos : ReferenceRepos) (kept : List ScheduleEntry) : Prop where
  found : ∀ r ∈ kept, ∀ (msg : TrustMovementMessage) body, msg.body = some body →
    body.trainUid = r.uid →
    body.trainServiceCode = r.serviceCode → body.scheduleStartDate = some r.startDate.text →
    body.scheduleEndDate = some r.endDate.text →
    ∃ schedule, TrainMovementProducer.lookupSchedule repos msg = .ok (some schedule) ∧
      schedule.origin = r.origin.tiploc.bind repos.locationRepo.byTiplocMap.get ∧
      schedule.destination = r.destination.tiploc.bind repos.locationRepo.byTiplocMap.get ∧
      schedule.departure = some r.origin.time ∧ schedule.arrival = some r.destination.time
  only : ∀ key schedule, repos.scheduleRepo.map.get key = some schedule → ∃ r ∈ kept, r.key = key

theorem delivers_of_entries {locationRepo : HzLocationRepo} (passengers : ∀ r ∈ kept, r.Passenger)
    (distinct : (kept.map ScheduleEntry.key).Nodup)
    (agree : ∀ tiploc, (locations.get tiploc).map LocationRecord.toLocation =
      tiploc.bind locationRepo.byTiplocMap.get)
    {lines : List (ScheduleRecord (Option LocationRecord))}
    (order : lines.Perm (kept.map fun r => join locations r.record)) :
    ∃ repo, ScheduleRepositoryPopulator.populate .empty lines = .ok repo ∧
      Delivers ⟨repo, locationRepo⟩ kept := by
  obtain ⟨repo, populated, holds⟩ := import_of_entries passengers distinct order
  refine ⟨repo, populated, ?_, fun key schedule held => ?_⟩
  · intro r isKept msg body hasBody uid serviceCode startDate endDate
    refine ⟨r.schedule locations, ?_, agree _, agree _, rfl, rfl⟩
    simp only [TrainMovementProducer.lookupSchedule, hasBody, nonNull_some, ok_bind, pure_eq_ok,
      HzScheduleRepo.getBy,
      uid, serviceCode, startDate, endDate]
    exact congrArg Except.ok ((holds _ _).mpr ⟨r, isKept, rfl, rfl⟩)
  · obtain ⟨r, isKept, named, _⟩ := (holds key schedule).mp held
    exact ⟨r, isKept, named⟩

def passengersOf (records : List FeedRecord) : List ScheduleEntry :=
  (schedulesOf records).filter fun r => r.record.isPassenger = "true"

structure IsLocationOf (r : TiplocRecord) (location : Location) : Prop where
  stanox : location.stanox = some r.stanox
  description : location.description = r.tpsDescription
  crs : location.crs = r.crsCode
  tiploc : location.tiploc = some r.tiplocCode

/-- Of a feed that mixes schedules, tiplocs and other records, the script writes all files; the
    imports complete in any order of the lines; the index by tiploc has the last record of every
    tiploc; and after the import of the full file every passenger record is found by its activation
    message, with the locations of the index, and nothing else, after that of the filtered file
    those whose dates meet the window. -/
theorem reference_data_is_delivered (encode : LocationRecord → List Char)
    (decode : List Char → Option LocationRecord) {today : LocalDate}
    (feedRecords : List.Forall₂ IsRecord feed records)
    (distinct : ((schedulesOf records).map ScheduleEntry.key).Nodup)
    {stations : Json} {stationRecords : List StationRecord}
    (stationsFile : StationsFile stations stationRecords)
    (first : plusTimedelta today (-1) = some minDate)
    (last : plusTimedelta today 31 = some maxDate) :
    ∃ locations, (main encode decode today feed stations).locations = some locations ∧
      (Lossless encode decode locations →
        ∃ files, (main encode decode today feed stations).schedulesWithLocations = some files ∧
          ∀ locationLines, locationLines.Perm locations →
            ∃ locationRepo, LocationPopulator.populate .empty locationLines =
              (locationRepo, .ok ()) ∧
              (∀ tiploc, Option.Rel IsLocationOf (lastRecord (tiplocsOf records) tiploc)
                (locationRepo.byTiplocMap.get tiploc)) ∧
              (∀ lines, lines.Perm files.full →
                ∃ repo, ScheduleRepositoryPopulator.populate .empty lines = .ok repo ∧
                Delivers ⟨repo, locationRepo⟩ (passengersOf records)) ∧
              ∀ lines, lines.Perm files.filtered →
                ∃ repo, ScheduleRepositoryPopulator.populate .empty lines = .ok repo ∧
                Delivers ⟨repo, locationRepo⟩
                  ((passengersOf records).filter fun r => InWindow minDate maxDate r)) := by
  obtain ⟨schedules, tiplocs⟩ := extract_of_records feedRecords
  obtain ⟨stationMap, mapped, held⟩ := stationsMap_of_file stationsFile
  -- `create_locations` reads the latitude of every station that it joins
  have located : LocationIndexes.Located stationMap := by
    intro key value found
    obtain ⟨station, _, isStation⟩ := exists_of_rel_some (found ▸ held key)
    exact ⟨station.lat, isStation.lat⟩
  obtain ⟨tiplocMap, locations, built, created, members⟩ := locations_of_file tiplocs located
  have made : makeLocations (extractSchedulesAndTiplocs feed).2 stations = some locations := by
    simp [makeLocations, built, mapped, created]
  have singly := nodup_of_created built created
  refine ⟨locations, made, fun lossless => ?_⟩
  obtain ⟨loaded, read, _⟩ := roundTrip_of_nodup singly encode decode lossless
  -- the schedules are joined with the locations read back, which are those written
  have joins : makeSchedules encode decode today (extractSchedulesAndTiplocs feed).1 locations =
      some (writeToFile loaded.toMap minDate maxDate
        ((schedulesOf records).map ScheduleEntry.record)) := by
    simp [makeSchedules, read, loadSchedules_eq_some schedules, writeToFileOn, first, last]
  refine ⟨_, (congrArg (Option.bind · _) made).trans joins, fun locationLines order => ?_⟩
  have inFile := mem_imported order members
  have populated := LocationPopulator.populate_eq_ok
    (fun location member => keyed_of_inFile inFile _ (List.mem_map_of_mem member)) .empty
  -- the repository and the script's own dictionary have the same location at each tiploc
  have agree := get_loaded singly lossless read order populated
  have passenger : ∀ r ∈ passengersOf records, r.Passenger := fun r member =>
    (mem_passengers.mp member).2
  have distinctPassengers : ((passengersOf records).map ScheduleEntry.key).Nodup :=
    distinct.sublist (List.filter_sublist.map _)
  refine ⟨_, populated, fun tiploc => ?_, fun lines fullOrder => ?_, fun lines filteredOrder => ?_⟩
  · show Option.Rel IsLocationOf _
      ((IMap.putAll tiplocKey ∅ (locationLines.map LocationRecord.toLocation)).get tiploc)
    rw [get_byTiploc inFile]
    cases lastRecord (tiplocsOf records) tiploc with
    | none => exact .none
    | some r => exact .some ⟨rfl, rfl, rfl, rfl⟩
  · rw [full_of_entries] at fullOrder
    exact delivers_of_entries passenger distinctPassengers agree fullOrder
  · rw [filtered_of_entries] at filteredOrder
    refine delivers_of_entries (fun r member => passenger r (List.mem_of_mem_filter member))
      (distinctPassengers.sublist (List.filter_sublist.map _)) agree ?_
    rw [passengersOf, List.filter_filter]
    simpa [and_comm] using filteredOrder

end Delivery

/-! ## The sample train in a feed with Brighton -/

section Brighton

open Sample NetworkRailSchedule

def brightonFeed : List Json :=
  FeedClassification.associationLine "none" :: sampleLine :: brightonLines

def brightonFeedRecords : List FeedRecord :=
  .other :: .schedule sampleEntry :: brightonRecords.map .tiploc

theorem brightonLines_isRecord :
    List.Forall₂ IsRecord brightonLines (brightonRecords.map .tiploc) := by
  refine .cons ⟨tiplocLine_record _ _ _, by decide⟩ (.cons ⟨tiplocLine_record _ _ _, by decide⟩
    (.cons ⟨tiplocLine_record _ _ _, by decide⟩ .nil))

theorem association_isRecord : IsRecord (FeedClassification.associationLine "none") .other := by
  have noTiploc :
      ¬ FeedClassification.Mentions "TiplocV1" (FeedClassification.associationLine "none") := by
      decide
  exact ⟨by decide, fun both => noTiploc both.1⟩

theorem brightonFeed_records : List.Forall₂ IsRecord brightonFeed brightonFeedRecords :=
  .cons association_isRecord (.cons sampleLine_record brightonLines_isRecord)

theorem extract_brightonFeed :
    extractSchedulesAndTiplocs brightonFeed = ([sampleLine], brightonLines) := by
  obtain _ | ⟨first, _ | ⟨second, _ | ⟨third, _⟩⟩⟩ := brightonLines_isRecord
  rw [brightonFeed, extract_other association_isRecord, extract_schedule sampleLine_record,
    brightonLines,
    extract_tiploc first, extract_tiploc second, extract_tiploc third, extractSchedulesAndTiplocs]

theorem march_eleventh : ValidDate 2016 3 11 := by decide

def today : LocalDate := ⟨2016, 3, 11, march_eleventh⟩

def withoutStation : Json := stationsOf "VICTRIC" "51.495" "-0.144"

theorem locations_of_brightonFeed :
    (main dump load today brightonFeed withoutStation).locations = some
    (brightonAt "0.0" "0.0") := by
  rw [locations_main, extract_brightonFeed]
  exact Option.bind_eq_some_iff.mpr ⟨_, rfl, Option.bind_eq_some_iff.mpr ⟨_, rfl, rfl⟩⟩

def loadedBrighton : Dict (Option String) LocationRecord :=
  .ofPairs ((brightonAt "0.0" "0.0").map fun loc => (loc.tiploc, loc))

def brightonFiles : ScheduleFiles :=
  writeToFile loadedBrighton.toMap ⟨2016, 3, 10, by decide⟩ ⟨2016, 4, 11, by decide⟩
    [sampleEntry.record]

theorem schedules_of_brightonFeed :
    (main dump load today brightonFeed withoutStation).schedulesWithLocations =
    some brightonFiles := by
  have joins :
      makeSchedules dump load today [sampleLine] (brightonAt "0.0" "0.0") = some brightonFiles := by
    rw [makeSchedules, loadLocations_writeLocations dump_lossless, loadSchedules_eq_some
      (.cons sampleLine_record .nil)]
    rfl
  have made := locations_of_brightonFeed
  rw [locations_main] at made
  rw [schedulesWithLocations_main, made, extract_brightonFeed, Option.bind_some]
  exact joins

def importedLocations : HzLocationRepo :=
  (LocationPopulator.populate .empty (brightonAt "0.0" "0.0").reverse).1

def importedSchedules : HzScheduleRepo :=
  HzScheduleRepo.empty.put (sampleEntry.schedule loadedBrighton.toMap)

theorem brightonFiles_imported : Imported brightonFiles.full importedSchedules := by
  refine ⟨brightonFiles.full, List.Subperm.refl _, ?_⟩
  have full : brightonFiles.full = [join loadedBrighton.toMap sampleEntry.record] :=
    full_of_entries loadedBrighton.toMap _ _ [sampleEntry]
  rw [full, ScheduleRepositoryPopulator.populate, List.foldlM_cons,
    toSchedule_join loadedBrighton.toMap ⟨"1A01", rfl, by decide⟩]
  rfl

/-- The train is activated and arrives at Brighton. -/
def arrived : State :=
  (run (State.step ⟨importedSchedules, importedLocations⟩) .empty
    [.sendMessage (clock 9 0) activationMessage, .sendMessage (clock 11 31) arrivalMessage]).get
      (by decide)

theorem arrived_is_located :
    arrived.topic.map (·.value.currentLocation.bind (·.stanox)) = [some "87901"] ∧
    KnowsLocations importedLocations arrived := by
  have populated : LocationPopulator.populate .empty (brightonAt "0.0" "0.0").reverse =
    (importedLocations, .ok ()) := rfl
  obtain ⟨_, knows⟩ :=
    reference_data_agrees locations_of_brightonFeed schedules_of_brightonFeed dump_lossless
    (List.reverse_perm _) populated (.inl rfl) brightonFiles_imported
  exact ⟨by decide, knows _ arrived (Option.some_get _).symm⟩

/-- The rule at this feed: the activation message finds the schedule to Brighton, as its last record
    has it. -/
theorem brighton_is_delivered : ∃ locationRepo repo schedule,
    LocationPopulator.populate .empty (brightonAt "0.0" "0.0").reverse = (locationRepo, .ok ()) ∧
      ScheduleRepositoryPopulator.populate .empty brightonFiles.full = .ok repo ∧
      TrainMovementProducer.lookupSchedule ⟨repo, locationRepo⟩ activationMessage =
        .ok (some schedule) ∧
      schedule.destination.bind (·.description) = some "BRIGHTON" := by
  have first : plusTimedelta today (-1) = some ⟨2016, 3, 10, by decide⟩ := rfl
  have last : plusTimedelta today 31 = some ⟨2016, 4, 11, by decide⟩ := rfl
  obtain ⟨locations, made, files⟩ := reference_data_is_delivered dump load brightonFeed_records
    (List.nodup_singleton _)
    (stationsOf_file "VICTRIC" "51.495" "-0.144") first last
  cases locations_of_brightonFeed.symm.trans made
  obtain ⟨files, written, imports⟩ := files dump_lossless
  cases schedules_of_brightonFeed.symm.trans written
  obtain ⟨locationRepo, locationsPut, byTiploc, full, _⟩ := imports _ (List.reverse_perm _)
  obtain ⟨repo, schedulesPut, delivers⟩ := full _ (List.Perm.refl _)
  obtain ⟨schedule, lookup, _, destination, _⟩ :=
    delivers.found sampleEntry (by decide) activationMessage activationBody
    rfl rfl rfl (by decide) (by decide)
  refine ⟨locationRepo, repo, schedule, locationsPut, schedulesPut, lookup, ?_⟩
  have lastOf :
      lastRecord (tiplocsOf brightonFeedRecords) "BRGHTN" = some ⟨"BRGHTN", "87901",
      some "BRIGHTON", none⟩ := by decide
  obtain ⟨location, held, isLocation⟩ := exists_of_rel_some (lastOf ▸ byTiploc "BRGHTN")
  rw [destination]
  show (locationRepo.byTiplocMap.get "BRGHTN").bind _ = _
  rw [held]
  exact isLocation.description

end Brighton

end TrainWatch.Verified.ReferenceData
