import TrainWatch.RefData.LoadSchedules
import TrainWatch.Library.Related

/-! # The script that writes the locations file

`tiplocs_map` keeps the last record of every tiploc, and `create_locations` makes one
location of each, with the coordinates of the station at the tiploc.  A line of the file
is such a location.  Coordinates may be any scalars; the other fields are texts or null.
-/

namespace TrainWatch.RefData

open TrainWatch.Java TrainWatch.Library

namespace CreateLocations

open CreateSchedules

def dictBy (field : String) (values : List Json) : Option (Dict (Option String) Json) :=
  values.foldlM (fun result value => do
    let key ← (value.get? field).bind nullableText
    pure (result.set key value)) .empty

def tiplocsMap (lines : List Json) : Option (Dict (Option String) Json) := do
  let values ← lines.mapM fun line => line.get? "TiplocV1"
  dictBy "tiploc_code" values

def stationsMap (file : Json) : Option (Dict (Option String) Json) := do
  let stationList ← (file.get? "locations").bind asArray
  dictBy "tiploc" stationList

def nowhere : Json := .object [.mk "lat" (.text "0.0"), .mk "lon" (.text "0.0")]

/-- One turn of the loop; both coordinates are the station's `lat`. -/
def createLocation (stationMap : Dict (Option String) Json) (key : Option String) (value : Json) :
    Option LocationRecord := do
  let station := (stationMap.get key).getD nowhere
  let lat ← (station.get? "lat").bind Python.Scalar.ofJson
  let lon ← (station.get? "lat").bind Python.Scalar.ofJson
  let stanox ← (value.get? "stanox").bind nullableText
  let description ← (value.get? "tps_description").bind nullableText
  let crs ← (value.get? "crs_code").bind nullableText
  let tiploc ← (value.get? "tiploc_code").bind nullableText
  pure { stanox, description, crs, tiploc, latLon := ⟨lat, lon⟩ }

def createLocations (tiplocMap stationMap : Dict (Option String) Json) :
    Option (List LocationRecord) :=
  tiplocMap.items.mapM fun item => createLocation stationMap item.1 item.2

/-- `encode` is the text of `json.dump`. -/
def writeLocations (encode : LocationRecord → List Char) (locations : List LocationRecord) :
    List Char :=
  locations.flatMap fun l => encode l ++ ['\n']

/-! ## What the dictionary holds -/

theorem dictBy_append {field : String} {values : List Json} {value : Json}
    {dict : Dict (Option String) Json} :
    dictBy field (values ++ [value]) = some dict ↔
      ∃ result key, dictBy field values = some result ∧
        (value.get? field).bind nullableText = some key ∧
        dict = result.set key value := by
  rw [dictBy, List.foldlM_append, Option.bind_eq_bind, Option.bind_eq_some_iff]
  simp only [List.foldlM_cons, List.foldlM_nil, Option.bind_eq_bind, Option.bind_eq_some_iff,
    Option.pure_def,
    Option.some.injEq]
  constructor
  · rintro ⟨result, earlier, _, ⟨key, read, rfl⟩, rfl⟩
    exact ⟨result, key, earlier, read, rfl⟩
  · rintro ⟨result, key, earlier, read, rfl⟩
    exact ⟨result, earlier, _, ⟨key, read, rfl⟩, rfl⟩

theorem dictBy_eq_some {field : String} {values : List Json} {keyOf : Json → Option String}
    (keyed : ∀ value ∈ values, (value.get? field).bind nullableText = some (keyOf value)) :
    dictBy field values = some (.ofPairs (values.map fun value => (keyOf value, value))) := by
  induction values using List.reverseRecOn with
  | nil => rfl
  | append_singleton values value inductionHypothesis =>
    have earlier := inductionHypothesis fun other member =>
      keyed other (List.mem_append_left _ member)
    have last := keyed value (List.mem_append_right _ (List.mem_singleton_self value))
    refine dictBy_append.mpr ⟨_, _, earlier, last, ?_⟩
    simp [Dict.ofPairs, List.foldl_append]

theorem key_of_dictBy {field : String} {values : List Json} {dict : Dict (Option String) Json}
    (built : dictBy field values = some dict) {key : Option String} {value : Json}
    (found : dict.get key = some value) : (value.get? field).bind nullableText = some key := by
  induction values using List.reverseRecOn generalizing dict key value with
  | nil =>
    cases built
    cases found
  | append_singleton values last inductionHypothesis =>
    obtain ⟨result, key', earlier, read, rfl⟩ := dictBy_append.mp built
    rw [Dict.get_set] at found
    split at found
    · rename_i same
      cases found
      rw [read, same]
    · exact inductionHypothesis earlier found

/-! ## The list of locations -/

variable {tiplocMap stationMap : Dict (Option String) Json} {locations : List LocationRecord}

theorem createLocations_completes
    (each : ∀ item ∈ tiplocMap.items, ∃ location, createLocation stationMap item.1 item.2 =
      some location) :
    ∃ locations, createLocations tiplocMap stationMap = some locations := exists_mapM_eq_some each

theorem mem_createLocations (created : createLocations tiplocMap stationMap = some locations)
    {location : LocationRecord} :
    location ∈ locations ↔ ∃ item ∈ tiplocMap.items,
      createLocation stationMap item.1 item.2 = some location :=
  mem_of_mapM created

theorem tiploc_of_createLocation {key : Option String} {value : Json} {location : LocationRecord}
    (made : createLocation stationMap key value = some location) :
    (value.get? "tiploc_code").bind nullableText = some location.tiploc := by
  obtain ⟨lat, _, made⟩ := Option.bind_eq_some_iff.mp made
  obtain ⟨lon, _, made⟩ := Option.bind_eq_some_iff.mp made
  obtain ⟨stanox, _, made⟩ := Option.bind_eq_some_iff.mp made
  obtain ⟨description, _, made⟩ := Option.bind_eq_some_iff.mp made
  obtain ⟨crs, _, made⟩ := Option.bind_eq_some_iff.mp made
  obtain ⟨tiploc, read, made⟩ := Option.bind_eq_some_iff.mp made
  cases made
  exact read

theorem map_tiploc_createLocations (keyed : ∀ key value, tiplocMap.get key = some value →
      (value.get? "tiploc_code").bind nullableText = some key)
    (created : createLocations tiplocMap stationMap = some locations) :
    locations.map (·.tiploc) = tiplocMap.keys := by
  have each : ∀ item ∈ tiplocMap.items, ∀ location,
    createLocation stationMap item.1 item.2 = some location →
      location.tiploc = item.1 := by
    intro item member location made
    have named := keyed item.1 item.2 ((tiplocMap.mem_items_iff _ _).mp member)
    exact Option.some.inj ((tiploc_of_createLocation made).symm.trans named)
  rw [Dict.keys]
  have pointwise := mapM_eq_some_iff.mp created
  generalize tiplocMap.items = items at each pointwise
  clear created
  induction pointwise with
  | nil => rfl
  | cons made _ inductionHypothesis =>
    rw [List.map_cons, List.map_cons, each _ List.mem_cons_self _ made,
      inductionHypothesis fun item member => each item (List.mem_cons_of_mem _ member)]

theorem nodup_of_created {lines : List Json} (built : tiplocsMap lines = some tiplocMap)
    (created : createLocations tiplocMap stationMap = some locations) :
    (locations.map (·.tiploc)).Nodup := by
  obtain ⟨values, _, dict⟩ := Option.bind_eq_some_iff.mp built
  rw [map_tiploc_createLocations (fun _ _ found => key_of_dictBy dict found) created]
  exact tiplocMap.nodup

theorem tiploc_inj {lines : List Json} (built : tiplocsMap lines = some tiplocMap)
    (created : createLocations tiplocMap stationMap = some locations)
    {location other : LocationRecord}
    (member : location ∈ locations) (member' : other ∈ locations)
    (same : location.tiploc = other.tiploc) :
    location = other :=
  List.inj_on_of_nodup_map (nodup_of_created built created) member member' same

end CreateLocations

end TrainWatch.RefData
