import TrainWatch.Verified.LocationIndexes

/-! # Tiplocs joined with stations

Two dictionaries keep the last record of every tiploc and the last station at it; the list
of locations is their left join, but for the longitude, which is read from the latitude.
Coordinates are equal when Python finds them equal, so a number may be written in two ways.
The file that is written of the list is read back as a dictionary of the same locations.
-/

namespace TrainWatch.Verified.LocationJoin

open TrainWatch.Java TrainWatch.RefData TrainWatch.Library TrainWatch.Verified.LocationIndexes
open TrainWatch.RefData.CreateSchedules TrainWatch.RefData.CreateLocations

/-! ## Stations -/

structure StationRecord where
  tiploc : Option String
  lat : Python.Scalar
  lon : Python.Scalar
deriving DecidableEq

structure IsStation (value : Json) (station : StationRecord) : Prop where
  tiploc : (value.get? "tiploc").bind nullableText = some station.tiploc
  lat : (value.get? "lat").bind Python.Scalar.ofJson = some station.lat
  lon : (value.get? "lon").bind Python.Scalar.ofJson = some station.lon

def StationsFile (file : Json) (stations : List StationRecord) : Prop :=
  ∃ values, file.get? "locations" = some (.array values) ∧ List.Forall₂ IsStation values stations

def lastStation (stations : List StationRecord) (tiploc : String) : Option StationRecord :=
  (stations.filter fun station => station.tiploc = some tiploc).getLast?

def coordinatesAt (stations : List StationRecord) (tiploc : String) : Coordinates :=
  match lastStation stations tiploc with
  | some station => ⟨station.lat, station.lon⟩
  | none => ⟨.str "0.0", .str "0.0"⟩

/-- The location of a record, at the coordinates of its station. -/
structure Joined (stations : List StationRecord) (r : TiplocRecord) (location : LocationRecord) :
    Prop where
  stanox : location.stanox = some r.stanox
  description : location.description = r.tpsDescription
  crs : location.crs = r.crsCode
  tiploc : location.tiploc = some r.tiplocCode
  lat : location.latLon.lat.equals (coordinatesAt stations r.tiplocCode).lat
  lon : location.latLon.lon.equals (coordinatesAt stations r.tiplocCode).lon

/-- One location for every tiploc of the extract: that of its last record, joined. -/
structure IsLeftJoin (records : List TiplocRecord) (stations : List StationRecord)
    (locations : List LocationRecord) :
    Prop where
  distinct : (locations.map (·.tiploc)).Nodup
  joined : ∀ location ∈ locations, ∃ tiploc r, lastRecord records tiploc = some r ∧
    Joined stations r location
  complete : ∀ tiploc r, lastRecord records tiploc = some r → ∃ location ∈ locations,
    Joined stations r location

/-- The text of one location is on one line and read back. -/
structure Lossless (encode : LocationRecord → List Char)
    (decode : List Char → Option LocationRecord) (locations : List LocationRecord) :
    Prop where
  reads : ∀ location ∈ locations, decode (encode location ++ ['\n']) = some location
  oneLine : ∀ location ∈ locations, '\n' ∉ encode location ∧ '\r' ∉ encode location

/-- The file of the locations is read as the dictionary that has each of them under its tiploc. -/
def RoundTrip (locations : List LocationRecord) : Prop :=
  ∀ encode decode, Lossless encode decode locations → ∃ loaded,
    loadLocations decode (writeLocations encode locations) = some loaded ∧
      ∀ tiploc location, loaded.get tiploc = some location ↔ location ∈ locations ∧
        location.tiploc = tiploc

/-! ## Writing and reading -/

section Files

variable {encode : LocationRecord → List Char} {decode : List Char → Option LocationRecord}
    {locations : List LocationRecord}

theorem writeLocations_eq :
    writeLocations encode locations = unlines '\n' (locations.map encode) := by
  rw [writeLocations, unlines, List.flatMap_map]

theorem loadLocations_writeLocations (lossless : Lossless encode decode locations) :
    loadLocations decode (writeLocations encode locations) =
      some (.ofPairs (locations.map fun loc => (loc.tiploc, loc))) := by
  have noReturn : '\r' ∉ writeLocations encode locations := by
    intro member
    obtain ⟨location, written, inLine⟩ := List.mem_flatMap.mp member
    obtain inText | terminator := List.mem_append.mp inLine
    · exact (lossless.oneLine location written).2 inText
    · exact absurd (List.mem_singleton.mp terminator) (by decide)
  have oneLine : ∀ text ∈ locations.map encode, '\n' ∉ text := by
    intro text member
    obtain ⟨location, written, rfl⟩ := List.mem_map.mp member
    exact (lossless.oneLine location written).1
  have decoded : ((locations.map encode).map (· ++ ['\n'])).mapM decode = some locations := by
    rw [mapM_eq_some_iff, List.map_map, List.forall₂_map_left_iff, List.forall₂_same]
    exact lossless.reads
  rw [loadLocations, universalNewlines_eq noReturn, writeLocations_eq, lines_unlines oneLine,
    decoded]
  rfl

theorem roundTrip_of_nodup (distinct : (locations.map (·.tiploc)).Nodup) : RoundTrip locations := by
  intro encode decode lossless
  refine ⟨_, loadLocations_writeLocations lossless, fun tiploc location => ?_⟩
  have keys : ((locations.map fun loc => (loc.tiploc, loc)).map Prod.fst).Nodup := by
    rw [List.map_map]
    exact distinct
  rw [← Dict.mem_items_iff, Dict.items_ofPairs keys, List.mem_map]
  constructor
  · rintro ⟨other, member, same⟩
    cases same
    exact ⟨member, rfl⟩
  · rintro ⟨member, rfl⟩
    exact ⟨location, member, rfl⟩

end Files

/-! ## The join -/

section Join

variable {values : List Json} {records : List TiplocRecord} {stations : List StationRecord}
    {lines : List Json} {file : Json}

def stationKey (value : Json) : Option String := ((value.get? "tiploc").bind nullableText).getD none

theorem stationKey_eq {value : Json} {station : StationRecord}
    (isStation : IsStation value station) :
    stationKey value = station.tiploc := by
  rw [stationKey, isStation.tiploc, Option.getD_some]

theorem stationsMap_of_file (stationsFile : StationsFile file stations) :
    ∃ stationMap, stationsMap file = some stationMap ∧
      ∀ key, Option.Rel IsStation (stationMap.get key)
      (stations.filter fun station => station.tiploc = key).getLast? := by
  obtain ⟨values, listed, areStations⟩ := stationsFile
  have agree : ∀ value station, IsStation value station → stationKey value = station.tiploc :=
    fun _ _ => stationKey_eq
  have keyed :
      ∀ value ∈ values, (value.get? "tiploc").bind nullableText = some (stationKey value) := by
    clear listed
    induction areStations with
    | nil => intro value member; cases member
    | cons here _ inductionHypothesis =>
      intro value member
      obtain rfl | later := List.mem_cons.mp member
      · rw [stationKey_eq here, here.tiploc]
      · exact inductionHypothesis value later
  refine ⟨.ofPairs (values.map fun value => (stationKey value, value)), ?_,
    Dict.rel_get_ofPairs agree areStations⟩
  simp [stationsMap, listed, asArray, dictBy_eq_some keyed]

variable {stationMap : Dict (Option String) Json}

theorem latOf_eq (held : ∀ key, Option.Rel IsStation (stationMap.get key)
      (stations.filter fun station => station.tiploc = key).getLast?) (tiploc : String) :
    latOf stationMap tiploc = (coordinatesAt stations tiploc).lat := by
  have here := held (some tiploc)
  rw [coordinatesAt, lastStation, latOf]
  generalize stationMap.get (some tiploc) = found at here
  generalize (stations.filter fun station => station.tiploc = some tiploc).getLast? = last at here
  cases here with
  | some isStation => simp [isStation.lat]
  | none => rfl

/-- What the script makes of a record is its location, unless the two coordinates differ. -/
theorem joined_locationOf_iff (held : ∀ key, Option.Rel IsStation (stationMap.get key)
      (stations.filter fun station => station.tiploc = key).getLast?) {r : TiplocRecord} :
    Joined stations r (locationOf stationMap r) ↔
      ∀ station, lastStation stations r.tiplocCode = some station →
        station.lat.equals station.lon := by
  have lat := latOf_eq held r.tiplocCode
  constructor
  · rintro ⟨_, _, _, _, _, lon⟩ station isLast
    have lon :
        (latOf stationMap r.tiplocCode).equals (coordinatesAt stations r.tiplocCode).lon := lon
    rw [lat, coordinatesAt, isLast] at lon
    exact lon
  · intro square
    refine ⟨rfl, rfl, rfl, rfl, ?_, ?_⟩
    · show (latOf stationMap r.tiplocCode).equals _
      rw [lat, Python.Scalar.equals_self]
    · show (latOf stationMap r.tiplocCode).equals _
      rw [lat, coordinatesAt]
      cases isLast : lastStation stations r.tiplocCode with
      | none => rfl
      | some station => exact square station isLast

theorem isLeftJoin_iff (held : ∀ key, Option.Rel IsStation (stationMap.get key)
      (stations.filter fun station => station.tiploc = key).getLast?)
    {locations : List LocationRecord}
    (distinct : (locations.map (·.tiploc)).Nodup)
    (members : ∀ location, location ∈ locations ↔
      ∃ tiploc r, lastRecord records tiploc = some r ∧ location = locationOf stationMap r) :
    IsLeftJoin records stations locations ↔ ∀ tiploc station, (lastRecord records tiploc).isSome →
      lastStation stations tiploc = some station → station.lat.equals station.lon := by
  constructor
  · intro joins tiploc station recorded isLast
    obtain ⟨r, last⟩ := Option.isSome_iff_exists.mp recorded
    obtain ⟨location, member, joined⟩ := joins.complete tiploc r last
    obtain ⟨tiploc', r', last', rfl⟩ := (members location).mp member
    -- the location of this tiploc is made of the same record
    have codes : r'.tiplocCode = r.tiplocCode := Option.some.inj joined.tiploc
    rw [(lastRecord_code last').2, (lastRecord_code last).2] at codes
    rw [codes, last] at last'
    cases last'
    exact (joined_locationOf_iff held).mp joined station ((lastRecord_code last).2.symm ▸ isLast)
  · intro square
    have joins : ∀ {tiploc r}, lastRecord records tiploc = some r →
        Joined stations r (locationOf stationMap r) := by
      intro tiploc r last
      refine (joined_locationOf_iff held).mpr fun station isLast => ?_
      rw [(lastRecord_code last).2] at isLast
      exact square tiploc station (by rw [last]; rfl) isLast
    refine ⟨distinct, fun location member => ?_, fun tiploc r last => ?_⟩
    · obtain ⟨tiploc, r, last, rfl⟩ := (members location).mp member
      exact ⟨tiploc, r, last, joins last⟩
    · exact ⟨_, (members _).mpr ⟨tiploc, r, last, rfl⟩, joins last⟩

/-- Of an extract and a stations file the script makes the left join of the tiplocs with the
    stations, which is read back from its file, if and only if the last station at every tiploc of
    the extract has a latitude that equals its longitude. -/
theorem locations_are_the_left_join_iff (extract : List.Forall₂ TiplocV1 lines records)
    (stationsFile : StationsFile file stations) :
    ∃ tiplocMap stationMap locations, tiplocsMap lines = some tiplocMap ∧
      stationsMap file = some stationMap ∧
      createLocations tiplocMap stationMap = some locations ∧
      (IsLeftJoin records stations locations ∧ RoundTrip locations ↔ ∀ tiploc station,
        (lastRecord records tiploc).isSome → lastStation stations tiploc = some station →
          station.lat.equals station.lon) := by
  obtain ⟨stationMap, mapped, held⟩ := stationsMap_of_file stationsFile
  have located : Located stationMap := by
    intro key value found
    obtain ⟨station, _, isStation⟩ := exists_of_rel_some (found ▸ held key)
    exact ⟨station.lat, isStation.lat⟩
  obtain ⟨tiplocMap, locations, built, created, members⟩ := locations_of_file extract located
  have distinct := nodup_of_created built created
  refine ⟨tiplocMap, stationMap, locations, built, mapped, created, ?_⟩
  rw [← isLeftJoin_iff held distinct members]
  exact and_iff_left (roundTrip_of_nodup distinct)

end Join

/-! ## Brighton and its yard, with and without a station -/

def stationsOf (tiploc lat lon : String) : Json :=
  .object [.mk "locations"
    (.array [.object [.mk "tiploc" (.text tiploc), .mk "lat" (.text lat), .mk "lon" (.text lon)]])]

theorem stationsOf_file (tiploc lat lon : String) :
    StationsFile (stationsOf tiploc lat lon) [⟨some tiploc, .str lat, .str lon⟩] :=
  ⟨_, rfl, .cons ⟨rfl, rfl, rfl⟩ .nil⟩

/-- The locations of `brightonLines` at the given coordinates of the station. -/
def brightonAt (lat lon : String) : List LocationRecord :=
  [⟨some "87901", some "BRIGHTON", none, ⟨.str lat, .str lon⟩, some "BRGHTN"⟩,
    ⟨some "87901", some "BRIGHTON YARD", none, ⟨.str "0.0", .str "0.0"⟩, some "BRGHTNY"⟩]

def jsonText : Option String → String
  | none => "null"
  | some text => "\"" ++ text ++ "\""

def scalarText : Python.Scalar → String
  | .none => "null"
  | .bool value => if value then "true" else "false"
  | .number value => value.text
  | .str text => "\"" ++ text ++ "\""

/-- The text of `json.dump` for a location without characters to escape. -/
def dump (l : LocationRecord) : List Char :=
  let latLon := "\x7b\"lat\": " ++ scalarText l.latLon.lat ++ ", \"lon\": " ++
    scalarText l.latLon.lon ++ "\x7d"
  ("\x7b\"stanox\": " ++ jsonText l.stanox ++ ", \"description\": " ++ jsonText l.description ++
    ", \"crs\": " ++
    jsonText l.crs ++ ", \"tiploc\": " ++ jsonText l.tiploc ++ ", \"latLon\": " ++ latLon ++
      "\x7d").toList

/-- The location with this text, of the two. -/
def load (line : List Char) : Option LocationRecord :=
  (brightonAt "0.0" "0.0").find? fun location => dump location ++ ['\n'] = line

theorem dump_lossless : Lossless dump load (brightonAt "0.0" "0.0") where
  reads := by
    intro location member
    simp only [brightonAt, List.mem_cons, List.not_mem_nil, or_false] at member
    obtain rfl | rfl := member
    · exact List.find?_cons_of_pos (decide_eq_true rfl)
    · refine (List.find?_cons_of_neg ?_).trans (List.find?_cons_of_pos (decide_eq_true rfl))
      -- the lines differ in their descriptions
      intro same
      have texts := of_decide_eq_true same
      simp only [dump, jsonText, scalarText, String.toList_append, List.append_assoc,
        List.append_cancel_left_eq] at texts
      cases texts
  oneLine := by
    simp [brightonAt, dump, jsonText, scalarText, String.toList_append]

/-- The rule at a stations file without Brighton: the locations file is read back with both tiplocs.
    -/
theorem brighton_without_station :
    ∃ tiplocMap stationMap, tiplocsMap brightonLines = some tiplocMap ∧
      stationsMap (stationsOf "VICTRIC" "51.495" "-0.144") = some stationMap ∧
      createLocations tiplocMap stationMap = some (brightonAt "0.0" "0.0") ∧
      ∃ loaded, loadLocations load (writeLocations dump (brightonAt "0.0" "0.0")) = some loaded ∧
        loaded.get (some "BRGHTNY") =
          some ⟨some "87901", some "BRIGHTON YARD", none, ⟨.str "0.0", .str "0.0"⟩,
            some "BRGHTNY"⟩ := by
  obtain ⟨tiplocMap, stationMap, locations, built, mapped, created, rule⟩ :=
    locations_are_the_left_join_iff brightonLines_records
      (stationsOf_file "VICTRIC" "51.495" "-0.144")
  cases Option.some.inj (built.symm.trans rfl)
  cases Option.some.inj (mapped.symm.trans rfl)
  cases Option.some.inj (created.symm.trans rfl)
  have square : ∀ tiploc station, (lastRecord brightonRecords tiploc).isSome →
      lastStation [⟨some "VICTRIC", .str "51.495", .str "-0.144"⟩] tiploc = some station →
        station.lat.equals station.lon := by
    intro tiploc station recorded isLast
    obtain ⟨member, named⟩ := List.mem_filter.mp (List.mem_of_getLast? isLast)
    cases List.mem_singleton.mp member
    cases Option.some.inj (of_decide_eq_true named)
    exact absurd recorded (by decide)
  obtain ⟨_, roundTrip⟩ := rule.mpr square
  obtain ⟨loaded, read, gets⟩ := roundTrip dump load dump_lossless
  exact ⟨_, _, rfl, rfl, rfl, loaded, read, (gets _ _).mpr ⟨by decide, rfl⟩⟩

/-- The rule is broken at Brighton's station: its longitude becomes its latitude. -/
theorem brighton_lies_on_the_diagonal :
    List.Forall₂ TiplocV1 brightonLines brightonRecords ∧
      StationsFile (stationsOf "BRGHTN" "50.829" "-0.141")
        [⟨some "BRGHTN", .str "50.829", .str "-0.141"⟩] ∧
      ∃ tiplocMap stationMap, tiplocsMap brightonLines = some tiplocMap ∧
        stationsMap (stationsOf "BRGHTN" "50.829" "-0.141") = some stationMap ∧
        createLocations tiplocMap stationMap = some (brightonAt "50.829" "50.829") ∧
        ¬ IsLeftJoin brightonRecords [⟨some "BRGHTN", .str "50.829", .str "-0.141"⟩]
          (brightonAt "50.829" "50.829") := by
  refine ⟨brightonLines_records, stationsOf_file _ _ _, _, _, rfl, rfl, rfl, ?_⟩
  intro joins
  have brighton :
      lastRecord brightonRecords "BRGHTN" = some ⟨"BRGHTN", "87901", some "BRIGHTON", none⟩ := by
      decide
  obtain ⟨location, member, joined⟩ := joins.complete _ _ brighton
  obtain rfl | rfl := by simpa [brightonAt] using member
  · exact absurd joined.lon (by decide)
  · exact absurd joined.tiploc (by decide)

end TrainWatch.Verified.LocationJoin
