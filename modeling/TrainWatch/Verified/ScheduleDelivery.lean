import TrainWatch.RefData.LoadSchedules
import TrainWatch.RefData.ScheduleImport
import TrainWatch.Library.Related
import TrainWatch.Verified.Steps

/-! # From the feed to the lookup of a schedule

A schedule record of the feed goes through five stages before an activation message can
find it, and two of them build the key it is found under: the import from dates, the
lookup from texts.  `ScheduleEntry` says what such a record is about, independently of how
the feed writes it down; every stage is shown to hand it on.
-/

namespace TrainWatch.Verified.ScheduleDelivery

open TrainWatch.Java TrainWatch.RefData TrainWatch.Library TrainWatch.Movement
open TrainWatch.RefData.CreateSchedules TrainWatch.RefData.ScheduleRepositoryPopulator

/-! ## Well-formed records -/

/-- The first or last call of a train: where, and at what minute of the day; `half` is the mark of
    another half minute. -/
structure Stop where
  tiploc : Option String
  hour : Nat
  minute : Nat
  half : Bool
  hours : hour < 24
  minutes : minute < 60
deriving DecidableEq

namespace Stop

def hhmm (stop : Stop) : String := LocalDate.padded 2 stop.hour ++ LocalDate.padded 2 stop.minute

/-- The time as the feed writes it: `HHMM` or `HHMMH`. -/
def text (stop : Stop) : String := stop.hhmm ++ if stop.half then "H" else ""

def time (stop : Stop) : LocalTime :=
  .ofMillis (stop.hour * millisPerHour + stop.minute * millisPerMinute)

end Stop

/-- A date written with four digits for its year. -/
structure IsoDate where
  date : LocalDate
  first : 1 ≤ date.year
  last : date.year ≤ 9999
deriving DecidableEq

def IsoDate.text (iso : IsoDate) : String := iso.date.toText

structure ScheduleEntry where
  uid : Option String
  serviceCode : Option String
  atocCode : Option String
  signallingId : Option String
  startDate : IsoDate
  endDate : IsoDate
  origin : Stop
  destination : Stop
deriving DecidableEq

namespace ScheduleEntry

/-- The texts of the four fields that identify a record, one after the other. -/
def key (r : ScheduleEntry) : String :=
  scheduleKey r.uid r.serviceCode (some r.startDate.text) (some r.endDate.text)

/-- A record with a signalling id that is not empty. -/
def Passenger (r : ScheduleEntry) : Prop := ∃ id, r.signallingId = some id ∧ id ≠ ""

end ScheduleEntry

/-- The first entry of the location type is about the stop, its time in `timeField`. -/
def FirstStop (locationType timeField : String) (locs : List Json) (stop : Stop) : Prop :=
  ∃ before entry after, locs = before ++ entry :: after ∧
    entry.get? "location_type" = some (.text locationType) ∧
    (∀ other ∈ before, ∃ found, other.get? "location_type" = some (.text found) ∧
      found ≠ locationType) ∧
    entry.get? "tiploc_code" = some (.ofNullable stop.tiploc) ∧
      entry.get? timeField = some (.text stop.text)

structure ScheduleSegment (segment : Json) (r : ScheduleEntry) : Prop where
  signallingId : segment.get? "signalling_id" = some (.ofNullable r.signallingId)
  serviceCode : segment.get? "CIF_train_service_code" = some (.ofNullable r.serviceCode)
  locations : ∃ locs, segment.get? "schedule_location" = some (.array locs) ∧
    FirstStop "LO" "departure" locs r.origin ∧ FirstStop "LT" "arrival" locs r.destination

/-- A line of the feed that is a well-formed schedule record, whatever else it contains. -/
structure JsonScheduleV1 (line : Json) (r : ScheduleEntry) : Prop where
  schedule : ∃ s, line.get? "JsonScheduleV1" = some s ∧
    s.get? "CIF_train_uid" = some (.ofNullable r.uid) ∧
      s.get? "atoc_code" = some (.ofNullable r.atocCode) ∧
    s.get? "schedule_start_date" = some (.text r.startDate.text) ∧
    s.get? "schedule_end_date" = some (.text r.endDate.text) ∧
    ∃ segment, s.get? "schedule_segment" = some segment ∧ ScheduleSegment segment r

/-! ## The stages -/

section Stages

variable {line : Json} {r : ScheduleEntry}

def ScheduleEntry.record (r : ScheduleEntry) : ScheduleRecord (Option String) :=
  { id := r.uid, trainServiceCode := r.serviceCode, startDate := some r.startDate.text
    endDate := some r.endDate.text, origin := r.origin.tiploc, destination := r.destination.tiploc
    departure := r.origin.hhmm, arrival := r.destination.hhmm, atocCode := r.atocCode
    isPassenger := isPassenger r.signallingId }

def ScheduleEntry.schedule (locations : IMap (Option String) LocationRecord) (r : ScheduleEntry) :
    Schedule :=
  { id := r.uid, trainServiceCode := r.serviceCode, startDate := some r.startDate.date
    endDate := some r.endDate.date
    origin := (locations.get r.origin.tiploc).map LocationRecord.toLocation
    destination := (locations.get r.destination.tiploc).map LocationRecord.toLocation
    departure := some r.origin.time, arrival := some r.destination.time, atocCode := r.atocCode
    isPassenger := some true }

theorem inText_of_record (record : JsonScheduleV1 line r) :
    NetworkRailSchedule.inText "schedule_location" line = true := by
  obtain ⟨s, found, _, _, _, _, segment, inSchedule, parts⟩ := record.schedule
  obtain ⟨locs, listed, _⟩ := parts.locations
  have named : "schedule_location".toList <:+: Json.quoted "schedule_location" :=
    Json.infix_quoted (by decide)
  have inSegment := named.trans (Json.infix_of_get? listed).1
  have inRecord := inSegment.trans (Json.infix_of_get? inSchedule).2
  exact decide_eq_true (inRecord.trans (Json.infix_of_get? found).2)

theorem extract_records {feed : List Json} {entries : List ScheduleEntry}
    (records : List.Forall₂ JsonScheduleV1 feed entries) :
    NetworkRailSchedule.extractSchedulesAndTiplocs feed = (feed, []) := by
  induction records with
  | nil => rfl
  | cons record _ inductionHypothesis =>
    simp [NetworkRailSchedule.extractSchedulesAndTiplocs, inductionHypothesis,
      inText_of_record record]

theorem nextOfType_eq_some {locationType timeField : String} {locs : List Json} {stop : Stop}
    (first : FirstStop locationType timeField locs stop) :
    ∃ entry, nextOfType locationType locs = some entry ∧
      entry.get? "tiploc_code" = some (.ofNullable stop.tiploc) ∧ entry.get? timeField = some
        (.text stop.text) := by
  obtain ⟨before, entry, after, rfl, typed, others, tiploc, time⟩ := first
  refine ⟨entry, ?_, tiploc, time⟩
  induction before with
  | nil => simp [nextOfType, typed]
  | cons other before inductionHypothesis =>
    obtain ⟨found, otherType, different⟩ := others other List.mem_cons_self
    have tail := inductionHypothesis fun another member =>
      others another (List.mem_cons_of_mem _ member)
    simp [nextOfType, otherType, different, tail]

theorem slice4_text (stop : Stop) : slice4 stop.text = stop.hhmm := by
  have hourLength := LocalDate.length_padded_two (by have := stop.hours; omega : stop.hour < 100)
  have minuteLength :=
    LocalDate.length_padded_two (by have := stop.minutes; omega : stop.minute < 100)
  have four : stop.hhmm.toList.length = 4 := by
    rw [Stop.hhmm, String.toList_append, List.length_append, hourLength, minuteLength]
  rw [slice4, Stop.text, String.toList_append, ← four, List.take_left, String.ofList_toList]

theorem makeSchedule_eq_some (record : JsonScheduleV1 line r) :
    makeSchedule line = some r.record := by
  obtain ⟨s, found, uid, atocCode, startDate, endDate, segment, inSchedule, parts⟩ :=
    record.schedule
  obtain ⟨locs, listed, departs, arrives⟩ := parts.locations
  obtain ⟨orig, isFirst, origin, departure⟩ := nextOfType_eq_some departs
  obtain ⟨dest, isLast, destination, arrival⟩ := nextOfType_eq_some arrives
  -- one field after the other, as the function reads them
  refine Option.bind_eq_some_iff.mpr ⟨s, found, ?_⟩
  refine Option.bind_eq_some_iff.mpr ⟨r.uid, readNullable uid, ?_⟩
  refine Option.bind_eq_some_iff.mpr ⟨r.atocCode, readNullable atocCode, ?_⟩
  refine Option.bind_eq_some_iff.mpr ⟨some r.startDate.text, by rw [startDate]; rfl, ?_⟩
  refine Option.bind_eq_some_iff.mpr ⟨some r.endDate.text, by rw [endDate]; rfl, ?_⟩
  refine Option.bind_eq_some_iff.mpr ⟨segment, inSchedule, ?_⟩
  refine Option.bind_eq_some_iff.mpr ⟨locs, by rw [listed]; rfl, ?_⟩
  refine Option.bind_eq_some_iff.mpr ⟨orig, isFirst, ?_⟩
  refine Option.bind_eq_some_iff.mpr ⟨dest, isLast, ?_⟩
  refine Option.bind_eq_some_iff.mpr ⟨r.signallingId, readNullable parts.signallingId, ?_⟩
  refine Option.bind_eq_some_iff.mpr ⟨r.serviceCode, readNullable parts.serviceCode, ?_⟩
  refine Option.bind_eq_some_iff.mpr ⟨r.origin.tiploc, readNullable origin, ?_⟩
  refine Option.bind_eq_some_iff.mpr ⟨r.destination.tiploc, readNullable destination, ?_⟩
  refine Option.bind_eq_some_iff.mpr ⟨r.origin.text, by rw [departure]; rfl, ?_⟩
  refine Option.bind_eq_some_iff.mpr ⟨r.destination.text, by rw [arrival]; rfl, ?_⟩
  rw [slice4_text, slice4_text]
  rfl

theorem loadSchedules_eq_some {feed : List Json} {entries : List ScheduleEntry}
    (records : List.Forall₂ JsonScheduleV1 feed entries) :
    loadSchedules feed = some (entries.map ScheduleEntry.record) := by
  rw [loadSchedules, mapM_eq_some_iff, List.forall₂_map_right_iff]
  exact records.imp fun _ _ => makeSchedule_eq_some

theorem passenger_iff : r.Passenger ↔ r.record.isPassenger = "true" := by
  unfold ScheduleEntry.Passenger ScheduleEntry.record isPassenger
  cases r.signallingId with
  | none => simp
  | some text => by_cases empty : text = "" <;> simp [empty]

theorem full_of_entries (locations : IMap (Option String) LocationRecord)
    (minDate maxDate : LocalDate)
    (entries : List ScheduleEntry) :
    (writeToFile locations minDate maxDate (entries.map ScheduleEntry.record)).full =
      (entries.filter fun r => r.record.isPassenger = "true").map fun r =>
        join locations r.record := by
  rw [full_writeToFile, List.filter_map, List.map_map]
  · rfl
  · intro s member _
    obtain ⟨r, _, rfl⟩ := List.mem_map.mp member
    have started := strptime_toText r.startDate.first r.startDate.last
    have ended := strptime_toText r.endDate.first r.endDate.last
    exact ⟨Option.isSome_iff_exists.mpr ⟨_, started⟩, Option.isSome_iff_exists.mpr ⟨_, ended⟩⟩

theorem parse_text (iso : IsoDate) : LocalDate.parse iso.text = .ok iso.date :=
  LocalDate.parse_toText ⟨by have := iso.first; omega, iso.last⟩

theorem toSchedule_join (locations : IMap (Option String) LocationRecord)
    (passenger : r.Passenger) :
    toSchedule (join locations r.record) = .ok (r.schedule locations) := by
  have flag : r.record.isPassenger = "true" := passenger_iff.mp passenger
  have flag' : isPassenger r.signallingId = "true" := flag
  have departs := LocalTime.parseHHmm_padded r.origin.hours r.origin.minutes
  have arrives := LocalTime.parseHHmm_padded r.destination.hours r.destination.minutes
  have isTrue : Boolean.valueOf (some "true") = true := by decide
  simp only [toSchedule, join, ScheduleEntry.record, parseDate, parse_text, Stop.hhmm, departs,
    arrives, ok_bind,
    pure_eq_ok, flag', isTrue]
  rfl

end Stages

/-! ## What the import puts -/

section Import

variable {locations : IMap (Option String) LocationRecord} {minDate maxDate : LocalDate}
    {entries : List ScheduleEntry}
variable {lines : List (ScheduleRecord (Option LocationRecord))}

theorem mem_passengers {r : ScheduleEntry} :
    r ∈ entries.filter (fun r => r.record.isPassenger = "true") ↔ r ∈ entries ∧ r.Passenger := by
  rw [List.mem_filter, decide_eq_true_iff, passenger_iff]

theorem accepted_of_order
    (order : lines.Perm
      (writeToFile locations minDate maxDate (entries.map ScheduleEntry.record)).full) :
    ∀ json ∈ lines, ∃ schedule, toSchedule json = .ok schedule := by
  rw [full_of_entries] at order
  intro json member
  obtain ⟨r, shown, rfl⟩ := List.mem_map.mp (order.subset member)
  exact ⟨_, toSchedule_join locations (mem_passengers.mp shown).2⟩

theorem mem_filterMap_parsed
    (order : lines.Perm
      (writeToFile locations minDate maxDate (entries.map ScheduleEntry.record)).full)
    {schedule : Schedule} :
    schedule ∈ lines.filterMap parsed ↔ ∃ r ∈ entries, r.Passenger ∧
      schedule = r.schedule locations := by
  rw [full_of_entries] at order
  have schedules : (lines.filterMap parsed).Perm
      ((entries.filter fun r => r.record.isPassenger = "true").map
        (ScheduleEntry.schedule locations)) := by
    refine (order.filterMap parsed).trans (List.Perm.of_eq ?_)
    rw [List.filterMap_map, ← List.filterMap_eq_map]
    apply List.filterMap_congr
    intro r shown
    have read := toSchedule_join locations (mem_passengers.mp shown).2
    simp only [Function.comp_apply, parsed, read]
    rfl
  rw [schedules.mem_iff, List.mem_map]
  constructor
  · rintro ⟨r, shown, rfl⟩
    exact ⟨r, (mem_passengers.mp shown).1, (mem_passengers.mp shown).2, rfl⟩
  · rintro ⟨r, member, isPassenger, rfl⟩
    exact ⟨r, mem_passengers.mpr ⟨member, isPassenger⟩, rfl⟩

end Import

/-! ## The whole pipeline -/

/-- Of a feed of well-formed records with distinct keys, every passenger record is found after the
    import, whatever the order of the lines was, by the fields of its activation messages, with the
    data of the record; and nothing else is found under any key. -/
theorem passenger_schedules_are_delivered {feed : List Json} {entries : List ScheduleEntry}
    (records : List.Forall₂ JsonScheduleV1 feed entries)
    (distinct : (entries.map ScheduleEntry.key).Nodup)
    (locations : IMap (Option String) LocationRecord) (minDate maxDate : LocalDate) :
    ∃ schedules,
      loadSchedules (NetworkRailSchedule.extractSchedulesAndTiplocs feed).1 = some schedules ∧
      ∀ lines : List (ScheduleRecord (Option LocationRecord)),
        lines.Perm (writeToFile locations minDate maxDate schedules).full →
        ∃ repo, populate .empty lines = .ok repo ∧
          (∀ r ∈ entries, r.Passenger → ∀ (locationRepo : HzLocationRepo) msg body,
            msg.body = some body →
            body.trainUid = r.uid → body.trainServiceCode = r.serviceCode →
            body.scheduleStartDate = some r.startDate.text →
              body.scheduleEndDate = some r.endDate.text →
            TrainMovementProducer.lookupSchedule ⟨repo, locationRepo⟩ msg =
              .ok (some (r.schedule locations))) ∧
          ∀ key schedule, repo.map.get key = some schedule →
            ∃ r ∈ entries, r.Passenger ∧ key = r.key ∧ schedule = r.schedule locations := by
  refine ⟨entries.map ScheduleEntry.record, by
    rw [extract_records records]; exact loadSchedules_eq_some records, ?_⟩
  intro lines order
  refine ⟨_, populate_eq_ok (accepted_of_order order) .empty, ?_, ?_⟩
  · intro r member isPassenger locationRepo msg body hasBody uid serviceCode startDate endDate
    have agree :
        ∀ other ∈ lines.filterMap parsed, other.uniqueKey = (r.schedule locations).uniqueKey →
        other = r.schedule locations := by
      intro other putToo same
      obtain ⟨r', member', _, rfl⟩ := (mem_filterMap_parsed order).mp putToo
      rw [List.inj_on_of_nodup_map distinct member' member same]
    -- no other schedule put has the key of this one, so it does not matter which line came last
    have found :
        (IMap.putAll Schedule.uniqueKey ∅ (lines.filterMap parsed)).get
      (r.schedule locations).uniqueKey =
        some (r.schedule locations) :=
      IMap.get_putAll_of_agree ((mem_filterMap_parsed order).mpr ⟨r, member, isPassenger,
        rfl⟩) agree
    simp only [TrainMovementProducer.lookupSchedule, hasBody, nonNull_some, ok_bind, pure_eq_ok,
      HzScheduleRepo.getBy,
      uid, serviceCode, startDate, endDate]
    exact congrArg Except.ok found
  · intro key schedule found
    obtain ⟨putToo, rfl⟩ := IMap.of_get_putAll found
    obtain ⟨r, member, isPassenger, rfl⟩ := (mem_filterMap_parsed order).mp putToo
    exact ⟨r, member, isPassenger, rfl, rfl⟩

/-! ## A feed of one record -/

section Sample

open Sample

theorem march_first : ValidDate 2016 3 1 := by decide

theorem march_last : ValidDate 2016 3 31 := by decide

def sampleEntry : ScheduleEntry :=
  { uid := some "W12345", serviceCode := some "24745000", atocCode := some "SN"
    signallingId := some "1A01"
    startDate := ⟨⟨2016, 3, 1, march_first⟩, by decide, by decide⟩
    endDate := ⟨⟨2016, 3, 31, march_last⟩, by decide, by decide⟩
    origin := ⟨some "VICTRIC", 10, 30, false, by decide, by decide⟩
    destination := ⟨some "BRGHTN", 11, 30, true, by decide, by decide⟩ }

def sampleOrigin : Json :=
  .object [.mk "location_type" (.text "LO"), .mk "tiploc_code" (.text "VICTRIC"),
    .mk "departure" (.text "1030")]

def sampleDestination : Json :=
  .object [.mk "location_type" (.text "LT"), .mk "tiploc_code" (.text "BRGHTN"),
    .mk "arrival" (.text "1130H")]

def sampleSegment : Json :=
  .object [.mk "signalling_id" (.text "1A01"), .mk "CIF_train_service_code" (.text "24745000"),
    .mk "schedule_location" (.array [sampleOrigin, sampleDestination])]

def sampleLine : Json :=
  .object [.mk "JsonScheduleV1" (.object [.mk "CIF_train_uid" (.text "W12345"),
    .mk "atoc_code" (.text "SN"),
    .mk "schedule_start_date" (.text "2016-03-01"), .mk "schedule_end_date" (.text "2016-03-31"),
    .mk "schedule_segment" sampleSegment])]

theorem sampleOrigin_first :
    FirstStop "LO" "departure" [sampleOrigin, sampleDestination] sampleEntry.origin :=
  ⟨[], sampleOrigin, [sampleDestination], rfl, rfl, by simp, rfl, rfl⟩

theorem sampleDestination_first :
    FirstStop "LT" "arrival" [sampleOrigin, sampleDestination] sampleEntry.destination := by
  refine ⟨[sampleOrigin], sampleDestination, [], rfl, rfl, ?_, rfl, rfl⟩
  intro other member
  cases List.mem_singleton.mp member
  exact ⟨"LO", rfl, by decide⟩

theorem sampleLine_record : JsonScheduleV1 sampleLine sampleEntry :=
  ⟨_, rfl, rfl, rfl, rfl, rfl, sampleSegment, rfl, rfl, rfl, _, rfl, sampleOrigin_first,
    sampleDestination_first⟩

def sampleLocations : IMap (Option String) LocationRecord :=
  ((∅ : IMap _ _).set (some "VICTRIC") victoriaRecord).set (some "BRGHTN") brightonRecord

/-- The rule at a feed of one line: the sample train's activation message finds its schedule. -/
theorem sample_schedule_is_delivered :
    ∃ schedules, loadSchedules (NetworkRailSchedule.extractSchedulesAndTiplocs [sampleLine]).1 =
      some schedules ∧
      ∃ repo, populate .empty (writeToFile sampleLocations ⟨2016, 3, 10, by decide⟩
        ⟨2016, 4, 11, by decide⟩
          schedules).full = .ok repo ∧
        TrainMovementProducer.lookupSchedule ⟨repo, refData.locationRepo⟩ activationMessage =
          .ok (some schedule) := by
  have records : List.Forall₂ JsonScheduleV1 [sampleLine] [sampleEntry] :=
    .cons sampleLine_record .nil
  obtain ⟨schedules, loaded, imports⟩ :=
    passenger_schedules_are_delivered records (List.nodup_singleton _)
    sampleLocations ⟨2016, 3, 10, by decide⟩ ⟨2016, 4, 11, by decide⟩
  obtain ⟨repo, populated, delivered, _⟩ := imports _ (List.Perm.refl _)
  have found :=
    delivered sampleEntry List.mem_cons_self ⟨"1A01", rfl, by decide⟩ refData.locationRepo
    activationMessage activationBody rfl rfl rfl (by decide) (by decide)
  have same : sampleEntry.schedule sampleLocations = schedule := by decide
  exact ⟨schedules, loaded, repo, populated, same ▸ found⟩

end Sample

end TrainWatch.Verified.ScheduleDelivery
