import TrainWatch.RefData.CreateLocations
import TrainWatch.RefData.LocationImport
import TrainWatch.Library.Related

/-! # From the tiploc extract to the two location indexes

The dictionary of the script keeps the last record of every tiploc, so each tiploc stands
in one line of the locations file: whatever the order of the lines, the index by tiploc
holds them all, and the index by stanox holds for each stanox one of the same locations.
-/

namespace TrainWatch.Verified.LocationIndexes

open TrainWatch.Java TrainWatch.RefData TrainWatch.Library
open TrainWatch.RefData.CreateSchedules TrainWatch.RefData.CreateLocations
  TrainWatch.RefData.LocationPopulator

/-! ## Well-formed records -/

/-- A record of the extract.  It has a stanox, or its line would not have been extracted. -/
structure TiplocRecord where
  tiplocCode : String
  stanox : String
  tpsDescription : Option String
  crsCode : Option String
deriving DecidableEq

/-- The value of a line, whatever else it contains. -/
structure IsTiploc (value : Json) (r : TiplocRecord) : Prop where
  tiplocCode : value.get? "tiploc_code" = some (.text r.tiplocCode)
  stanox : value.get? "stanox" = some (.text r.stanox)
  tpsDescription : value.get? "tps_description" = some (.ofNullable r.tpsDescription)
  crsCode : value.get? "crs_code" = some (.ofNullable r.crsCode)

def TiplocV1 (line : Json) (r : TiplocRecord) : Prop :=
  ∃ value, line.get? "TiplocV1" = some value ∧ IsTiploc value r

/-- Every station has a latitude, and none that is a list or a dictionary. -/
def Located (stationMap : Dict (Option String) Json) : Prop :=
  ∀ key station, stationMap.get key = some station →
    ∃ lat, (station.get? "lat").bind Python.Scalar.ofJson = some lat

def lastRecord (records : List TiplocRecord) (tiploc : String) : Option TiplocRecord :=
  (records.filter fun r => r.tiplocCode = tiploc).getLast?

def latOf (stationMap : Dict (Option String) Json) (tiploc : String) : Python.Scalar :=
  ((((stationMap.get (some tiploc)).getD nowhere).get? "lat").bind Python.Scalar.ofJson).getD .none

def locationOf (stationMap : Dict (Option String) Json) (r : TiplocRecord) : LocationRecord :=
  { stanox := some r.stanox, description := r.tpsDescription, crs := r.crsCode
    tiploc := some r.tiplocCode
    latLon := ⟨latOf stationMap r.tiplocCode, latOf stationMap r.tiplocCode⟩ }

theorem lastRecord_code {records : List TiplocRecord} {tiploc : String} {r : TiplocRecord}
    (last : lastRecord records tiploc = some r) : r ∈ records ∧ r.tiplocCode = tiploc := by
  have member := List.mem_of_getLast? last
  simpa using member

theorem lastRecord_isSome {records : List TiplocRecord} {tiploc : String} :
    (lastRecord records tiploc).isSome ↔ ∃ r ∈ records, r.tiplocCode = tiploc := by
  rw [lastRecord, Option.isSome_iff_ne_none, ne_eq, List.getLast?_eq_none_iff]
  simp [List.filter_eq_nil_iff]

/-! ## The stages -/

section Stages

variable {lines values : List Json} {records : List TiplocRecord}
    {stationMap : Dict (Option String) Json}

theorem values_of_lines (file : List.Forall₂ TiplocV1 lines records) :
    ∃ values, (lines.mapM fun line => line.get? "TiplocV1") = some values ∧
      List.Forall₂ IsTiploc values records := by
  induction file with
  | nil => exact ⟨[], rfl, .nil⟩
  | cons here _ inductionHypothesis =>
    obtain ⟨value, found, isTiploc⟩ := here
    obtain ⟨values, rest, areTiplocs⟩ := inductionHypothesis
    exact ⟨value :: values, by simp [List.mapM_cons, found, rest], .cons isTiploc areTiplocs⟩

def codeOf (value : Json) : Option String :=
  ((value.get? "tiploc_code").bind nullableText).getD none

theorem codeOf_eq {value : Json} {r : TiplocRecord} (isTiploc : IsTiploc value r) :
    codeOf value = some r.tiplocCode := by
  rw [codeOf, isTiploc.tiplocCode]
  rfl

theorem get_tiplocMap (areTiplocs : List.Forall₂ IsTiploc values records) (tiploc : String) :
    Option.Rel IsTiploc ((Dict.ofPairs (values.map fun value => (codeOf value, value))).get
      (some tiploc))
      (lastRecord records tiploc) := by
  have agree : ∀ value r, IsTiploc value r → codeOf value = some r.tiplocCode := fun _ _ =>
    codeOf_eq
  have related := Dict.rel_get_ofPairs agree areTiplocs (some tiploc)
  simp only [Option.some.injEq] at related
  exact related

theorem get_none_tiplocMap (areTiplocs : List.Forall₂ IsTiploc values records) :
    (Dict.ofPairs (values.map fun value => (codeOf value, value))).get none = none := by
  rw [Dict.get_eq_none_iff, Dict.mem_keys_ofPairs]
  rintro ⟨pair, member, unnamed⟩
  obtain ⟨value, inValues, rfl⟩ := List.mem_map.mp member
  obtain ⟨r, _, isTiploc⟩ := exists_of_mem_left areTiplocs inValues
  rw [codeOf_eq isTiploc] at unnamed
  cases unnamed

theorem mem_items_tiplocMap (areTiplocs : List.Forall₂ IsTiploc values records)
    {key : Option String} {value : Json}
    (member : (key, value) ∈ (Dict.ofPairs (values.map fun value => (codeOf value, value))).items) :
    ∃ tiploc r, key = some tiploc ∧ lastRecord records tiploc = some r ∧ IsTiploc value r := by
  have held := (Dict.mem_items_iff _ key value).mp member
  cases key with
  | none =>
    rw [get_none_tiplocMap areTiplocs] at held
    cases held
  | some tiploc =>
    obtain ⟨r, last, isTiploc⟩ := exists_of_rel_some (held ▸ get_tiplocMap areTiplocs tiploc)
    exact ⟨tiploc, r, rfl, last, isTiploc⟩

theorem exists_item_tiplocMap (areTiplocs : List.Forall₂ IsTiploc values records) {tiploc : String}
    {r : TiplocRecord}
    (last : lastRecord records tiploc = some r) :
    ∃ value, (some tiploc, value) ∈
      (Dict.ofPairs (values.map fun value => (codeOf value, value))).items ∧
      IsTiploc value r := by
  obtain ⟨value, held, isTiploc⟩ :=
    exists_of_rel_some (last ▸ rel_swap (get_tiplocMap areTiplocs tiploc))
  exact ⟨value, (Dict.mem_items_iff _ _ value).mpr held, isTiploc⟩

theorem createLocation_eq_some (located : Located stationMap) {value : Json} {r : TiplocRecord}
    (isTiploc : IsTiploc value r) :
    createLocation stationMap (some r.tiplocCode) value = some (locationOf stationMap r) := by
  have lat :
      (((stationMap.get (some r.tiplocCode)).getD nowhere).get? "lat").bind Python.Scalar.ofJson =
      some (latOf stationMap r.tiplocCode) := by
    rw [latOf]
    cases found : stationMap.get (some r.tiplocCode) with
    | none => rfl
    | some station =>
      obtain ⟨lat, read⟩ := located _ station found
      rw [Option.getD_some, read]
      rfl
  -- one field after the other, the latitude twice
  refine Option.bind_eq_some_iff.mpr ⟨latOf stationMap r.tiplocCode, lat, ?_⟩
  refine Option.bind_eq_some_iff.mpr ⟨latOf stationMap r.tiplocCode, lat, ?_⟩
  refine Option.bind_eq_some_iff.mpr ⟨some r.stanox, by rw [isTiploc.stanox]; rfl, ?_⟩
  refine Option.bind_eq_some_iff.mpr ⟨r.tpsDescription, readNullable isTiploc.tpsDescription, ?_⟩
  refine Option.bind_eq_some_iff.mpr ⟨r.crsCode, readNullable isTiploc.crsCode, ?_⟩
  refine Option.bind_eq_some_iff.mpr ⟨some r.tiplocCode, by rw [isTiploc.tiplocCode]; rfl, ?_⟩
  rfl

/-- The file has the location of the last record of every tiploc, and no other. -/
theorem locations_of_file (file : List.Forall₂ TiplocV1 lines records)
    (located : Located stationMap) :
    ∃ tiplocMap locations, tiplocsMap lines = some tiplocMap ∧
      createLocations tiplocMap stationMap = some locations ∧
      ∀ location, location ∈ locations ↔
        ∃ tiploc r, lastRecord records tiploc = some r ∧ location = locationOf stationMap r := by
  obtain ⟨values, read, areTiplocs⟩ := values_of_lines file
  have keyed :
      ∀ value ∈ values, (value.get? "tiploc_code").bind nullableText = some (codeOf value) := by
    intro value member
    obtain ⟨r, _, isTiploc⟩ := exists_of_mem_left areTiplocs member
    rw [codeOf_eq isTiploc, isTiploc.tiplocCode]
    rfl
  have built :
      tiplocsMap lines = some (.ofPairs (values.map fun value => (codeOf value, value))) := by
    rw [tiplocsMap, read]
    exact dictBy_eq_some keyed
  -- every item of the map has the record it was made of, so its location is built
  have created : ∀ pair ∈ (Dict.ofPairs (values.map fun value => (codeOf value, value))).items,
      ∃ location, createLocation stationMap pair.1 pair.2 = some location := by
    intro pair member
    obtain ⟨tiploc, r, named, last, isTiploc⟩ := mem_items_tiplocMap areTiplocs member
    rw [named, ← (lastRecord_code last).2]
    exact ⟨_, createLocation_eq_some located isTiploc⟩
  obtain ⟨locations, mapped⟩ := createLocations_completes created
  refine ⟨_, locations, built, mapped, fun location => ?_⟩
  rw [mem_createLocations mapped]
  constructor
  · rintro ⟨⟨key, value⟩, member, made⟩
    obtain ⟨tiploc, r, rfl, last, isTiploc⟩ := mem_items_tiplocMap areTiplocs member
    refine ⟨tiploc, r, last, ?_⟩
    rw [← (lastRecord_code last).2, createLocation_eq_some located isTiploc] at made
    exact (Option.some.inj made).symm
  · rintro ⟨tiploc, r, last, rfl⟩
    obtain ⟨value, member, isTiploc⟩ := exists_item_tiplocMap areTiplocs last
    refine ⟨(some tiploc, value), member, ?_⟩
    rw [← (lastRecord_code last).2]
    exact createLocation_eq_some located isTiploc

theorem mem_imported {locations handed : List LocationRecord} (order : handed.Perm locations)
    (members : ∀ location, location ∈ locations ↔
      ∃ tiploc r, lastRecord records tiploc = some r ∧ location = locationOf stationMap r)
        (location : Location) :
    location ∈ handed.map LocationRecord.toLocation ↔
      ∃ tiploc r, lastRecord records tiploc = some r ∧ location =
        (locationOf stationMap r).toLocation := by
  rw [List.mem_map]
  constructor
  · rintro ⟨line, member, rfl⟩
    obtain ⟨tiploc, r, last, rfl⟩ := (members line).mp (order.mem_iff.mp member)
    exact ⟨tiploc, r, last, rfl⟩
  · rintro ⟨tiploc, r, last, rfl⟩
    exact ⟨_, order.mem_iff.mpr ((members _).mpr ⟨tiploc, r, last, rfl⟩), rfl⟩

end Stages

/-! ## What the indexes find -/

section Indexes

variable {records : List TiplocRecord} {stationMap : Dict (Option String) Json}
    {handed : List Location}
variable (inFile : ∀ location, location ∈ handed ↔
  ∃ tiploc r, lastRecord records tiploc = some r ∧ location = (locationOf stationMap r).toLocation)

include inFile

theorem keyed_of_inFile : ∀ location ∈ handed, Keyed location := by
  intro location member
  obtain ⟨tiploc, r, _, rfl⟩ := (inFile location).mp member
  exact ⟨rfl, rfl⟩

theorem get_byTiploc (tiploc : String) :
    (IMap.putAll tiplocKey ∅ handed).get tiploc =
      (lastRecord records tiploc).map fun r => (locationOf stationMap r).toLocation := by
  cases last : lastRecord records tiploc with
  | some r =>
    have code : tiplocKey (locationOf stationMap r).toLocation = tiploc := (lastRecord_code last).2
    -- another location with this tiploc would be built from the same last record
    have agree :
        ∀ other ∈ handed, tiplocKey other = tiplocKey (locationOf stationMap r).toLocation →
        other = (locationOf stationMap r).toLocation := by
      intro other member same
      obtain ⟨tiploc', r', last', rfl⟩ := (inFile other).mp member
      have code' : r'.tiplocCode = tiploc := same.trans code
      rw [(lastRecord_code last').2] at code'
      cases code'
      cases last.symm.trans last'
      rfl
    rw [← code]
    exact IMap.get_putAll_of_agree ((inFile _).mpr ⟨tiploc, r, last, rfl⟩) agree
  | none =>
    rw [Option.map_none, ← Option.not_isSome_iff_eq_none, IMap.get_putAll_isSome]
    rintro ⟨location, member, code⟩
    obtain ⟨tiploc', r, last', rfl⟩ := (inFile location).mp member
    have named : r.tiplocCode = tiploc := code
    rw [(lastRecord_code last').2] at named
    cases named
    cases last.symm.trans last'

theorem get_byStanox_iff (stanox : String) :
    (∃ location, (IMap.putAll stanoxKey ∅ handed).get stanox = some location) ↔
      ∃ tiploc r, lastRecord records tiploc = some r ∧ r.stanox = stanox := by
  rw [← Option.isSome_iff_exists, IMap.get_putAll_isSome]
  constructor
  · rintro ⟨location, member, same⟩
    obtain ⟨tiploc, r, last, rfl⟩ := (inFile location).mp member
    exact ⟨tiploc, r, last, same⟩
  · rintro ⟨tiploc, r, last, same⟩
    exact ⟨_, (inFile _).mpr ⟨tiploc, r, last, rfl⟩, same⟩

theorem get_byTiploc_of_byStanox {stanox : String} {location : Location}
    (found : (IMap.putAll stanoxKey ∅ handed).get stanox = some location) :
    location.stanox = some stanox ∧ ∃ tiploc, location.tiploc = some tiploc ∧
      (IMap.putAll tiplocKey ∅ handed).get tiploc = some location := by
  obtain ⟨member, rfl⟩ := IMap.of_get_putAll found
  obtain ⟨tiploc, r, last, rfl⟩ := (inFile location).mp member
  refine ⟨rfl, tiploc, congrArg some (lastRecord_code last).2, ?_⟩
  rw [get_byTiploc inFile, last, Option.map_some]

end Indexes

/-! ## The whole pipeline -/

/-- After the import of the file made of a tiploc extract, in any order of its lines, the index by
    tiploc has the location of the last record of every tiploc, the index by stanox exactly the
    stanoxes of these records, and what it finds is the location that the other index has. -/
theorem location_indexes_are_coherent {lines : List Json} {records : List TiplocRecord}
    (file : List.Forall₂ TiplocV1 lines records) {stationMap : Dict (Option String) Json}
    (located : Located stationMap) :
    ∃ tiplocMap locations, tiplocsMap lines = some tiplocMap ∧
      createLocations tiplocMap stationMap = some locations ∧
      ∀ handed : List LocationRecord, handed.Perm locations →
        ∃ repo, populate .empty handed = (repo, .ok ()) ∧
          (∀ tiploc, repo.getByTiploc (some tiploc) =
            .ok ((lastRecord records tiploc).map fun r => (locationOf stationMap r).toLocation)) ∧
          (∀ tiploc, (lastRecord records tiploc).isSome ↔ ∃ r ∈ records, r.tiplocCode = tiploc) ∧
          (∀ stanox, (∃ location, repo.getByStanox (some stanox) = .ok (some location)) ↔
            ∃ tiploc r, lastRecord records tiploc = some r ∧ r.stanox = stanox) ∧
          ∀ stanox location, repo.getByStanox (some stanox) = .ok (some location) →
            location.stanox = some stanox ∧ repo.getByTiploc location.tiploc = .ok
              (some location) := by
  obtain ⟨tiplocMap, locations, built, created, members⟩ := locations_of_file file located
  refine ⟨tiplocMap, locations, built, created, fun handed order => ?_⟩
  have inFile := mem_imported order members
  refine ⟨_, populate_eq_ok (fun location member =>
    keyed_of_inFile inFile _ (List.mem_map_of_mem member)) .empty, ?_,
    fun tiploc => lastRecord_isSome, ?_, ?_⟩
  · intro tiploc
    rw [HzLocationRepo.getByTiploc_some]
    exact congrArg Except.ok (get_byTiploc inFile tiploc)
  · intro stanox
    simp only [HzLocationRepo.getByStanox_some, Except.ok.injEq]
    exact get_byStanox_iff inFile stanox
  · intro stanox location found
    rw [HzLocationRepo.getByStanox_some, Except.ok.injEq] at found
    -- what is held by stanox was put under its tiploc in the same step
    obtain ⟨stanoxOf, tiploc, hasTiploc, held⟩ := get_byTiploc_of_byStanox inFile found
    rw [hasTiploc, HzLocationRepo.getByTiploc_some]
    exact ⟨stanoxOf, congrArg Except.ok held⟩

/-! ## Two records of one tiploc, and a yard with the same stanox -/

def tiplocLine (code stanox description : String) : Json :=
  .object [.mk "TiplocV1" (.object [.mk "tiploc_code" (.text code), .mk "stanox" (.text stanox),
    .mk "crs_code" .null, .mk "tps_description" (.text description)])]

theorem tiplocLine_record (code stanox description : String) :
    TiplocV1 (tiplocLine code stanox description) ⟨code, stanox, some description, none⟩ :=
  ⟨_, rfl, rfl, rfl, rfl, rfl⟩

def brightonLines : List Json :=
  [tiplocLine "BRGHTN" "87901" "BRIGHTON OLD", tiplocLine "BRGHTNY" "87901" "BRIGHTON YARD",
    tiplocLine "BRGHTN" "87901" "BRIGHTON"]

def brightonRecords : List TiplocRecord :=
  [⟨"BRGHTN", "87901", some "BRIGHTON OLD", none⟩, ⟨"BRGHTNY", "87901", some "BRIGHTON YARD", none⟩,
    ⟨"BRGHTN", "87901", some "BRIGHTON", none⟩]

theorem brightonLines_records : List.Forall₂ TiplocV1 brightonLines brightonRecords :=
  .cons (tiplocLine_record _ _ _) (.cons (tiplocLine_record _ _ _)
    (.cons (tiplocLine_record _ _ _) .nil))

theorem located_empty : Located .empty := fun _ _ found => by cases found

/-- The rule at these lines, without any station. -/
theorem brighton_indexes_are_coherent :
    ∃ tiplocMap locations, tiplocsMap brightonLines = some tiplocMap ∧
      createLocations tiplocMap .empty = some locations ∧
      ∃ repo, populate .empty locations.reverse = (repo, .ok ()) ∧
        repo.getByTiploc (some "BRGHTN") =
          .ok (some ⟨some "87901", some "BRIGHTON", none, some ⟨some "0.0", some "0.0"⟩,
            some "BRGHTN"⟩) ∧
        ∃ location, repo.getByStanox (some "87901") = .ok (some location) ∧
          repo.getByTiploc location.tiploc = .ok (some location) := by
  obtain ⟨tiplocMap, locations, built, created, everyOrder⟩ :=
    location_indexes_are_coherent brightonLines_records located_empty
  obtain ⟨repo, populated, byTiploc, _, byStanox, coherent⟩ :=
    everyOrder locations.reverse (List.reverse_perm _)
  obtain ⟨location, found⟩ :=
    (byStanox "87901").mpr ⟨"BRGHTN", ⟨"BRGHTN", "87901", some "BRIGHTON", none⟩, by decide, rfl⟩
  refine ⟨tiplocMap, locations, built, created, repo, populated, ?_, location, found,
    (coherent _ _ found).2⟩
  rw [byTiploc]
  rfl

end TrainWatch.Verified.LocationIndexes
