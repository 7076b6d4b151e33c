import TrainWatch.Java.Time
import TrainWatch.Library.IMap
import TrainWatch.Python.Scalars

/-! # Locations, schedules and their repositories

Every field of `Location` and `Schedule` is nullable: both are filled by the JSON
parser, which leaves null where the file has it.
-/

namespace TrainWatch.RefData

open TrainWatch.Java TrainWatch.Library

structure LatLon where
  lat : Option String
  lon : Option String
deriving DecidableEq, Repr

structure Location where
  stanox : Option String
  description : Option String
  crs : Option String
  latLon : Option LatLon
  tiploc : Option String
deriving DecidableEq, Repr

structure Schedule where
  id : Option String
  trainServiceCode : Option String
  startDate : Option LocalDate
  endDate : Option LocalDate
  origin : Option Location
  destination : Option Location
  departure : Option LocalTime
  arrival : Option LocalTime
  atocCode : Option String
  isPassenger : Option Bool := some true
deriving DecidableEq, Repr

/-- At one reading of the clock's date.  The argument is computed before the end date is
    dereferenced. -/
def Schedule.isRunning (today : LocalDate) (schedule : Schedule) : Except JavaException Bool :=
  match today.minusDays 1 with
  | none => .error .dateTimeException
  | some yesterday => do
    let endDate ← nonNull schedule.endDate
    pure (endDate.isAfter yesterday)

/-- Four texts joined without a separator, null spelled out. -/
def scheduleKey (id serviceCode startDate endDate : Option String) : String :=
  concatOperand id ++ concatOperand serviceCode ++ concatOperand startDate ++ concatOperand endDate

def Schedule.uniqueKey (schedule : Schedule) : String :=
  scheduleKey schedule.id schedule.trainServiceCode (schedule.startDate.map LocalDate.toText)
    (schedule.endDate.map LocalDate.toText)

def Schedule.equals (schedule other : Schedule) : Bool := schedule.uniqueKey = other.uniqueKey

/-! ## Locations in files -/

open TrainWatch.Python in
structure Coordinates where
  lat : Scalar
  lon : Scalar
deriving DecidableEq, Repr

/-- A location object as the scripts pass it on and write it. -/
structure LocationRecord where
  stanox : Option String
  description : Option String
  crs : Option String
  latLon : Coordinates
  tiploc : Option String
deriving DecidableEq, Repr

namespace LocationRecord

/-- A text is read of whatever scalar the file has. -/
def asString : Python.Scalar → Option String
  | .none => none
  | .bool value => some (if value then "true" else "false")
  | .number value => some value.text
  | .str value => some value

def toLocation (location : LocationRecord) : Location :=
  { stanox := location.stanox, description := location.description, crs := location.crs
    tiploc := location.tiploc
    latLon := some ⟨asString location.latLon.lat, asString location.latLon.lon⟩ }

end LocationRecord

/-! ## Repositories -/

structure HzScheduleRepo where
  map : IMap String Schedule
deriving DecidableEq

namespace HzScheduleRepo

def empty : HzScheduleRepo := ⟨∅⟩

def put (repo : HzScheduleRepo) (schedule : Schedule) : HzScheduleRepo :=
  ⟨repo.map.set schedule.uniqueKey schedule⟩

def getBy (repo : HzScheduleRepo) (id serviceCode startDate endDate : Option String) :
    Option Schedule :=
  repo.map.get (scheduleKey id serviceCode startDate endDate)

theorem getBy_empty (id serviceCode startDate endDate : Option String) :
    empty.getBy id serviceCode startDate endDate = none := IMap.get_empty _

theorem getBy_put {repo : HzScheduleRepo} {added found : Schedule}
    {id serviceCode startDate endDate : Option String}
    (lookup : (repo.put added).getBy id serviceCode startDate endDate = some found) :
    (found = added ∧ added.uniqueKey = scheduleKey id serviceCode startDate endDate) ∨
      repo.getBy id serviceCode startDate endDate = some found := by
  rw [getBy, put, IMap.get_set] at lookup
  split at lookup
  · rename_i key
    exact .inl ⟨(Option.some.inj lookup).symm, key.symm⟩
  · exact .inr lookup

end HzScheduleRepo

structure HzLocationRepo where
  byStanoxMap : IMap String Location
  byTiplocMap : IMap String Location
deriving DecidableEq

namespace HzLocationRepo

def empty : HzLocationRepo := ⟨∅, ∅⟩

/-- Both maps reject a null key; the first is written before the second is asked. -/
def put (repo : HzLocationRepo) (location : Location) :
    HzLocationRepo × Except JavaException Unit :=
  match location.stanox with
  | none => (repo, .error .nullPointerException)
  | some stanox =>
    let repo := { repo with byStanoxMap := repo.byStanoxMap.set stanox location }
    match location.tiploc with
    | none => (repo, .error .nullPointerException)
    | some tiploc => ({ repo with byTiplocMap := repo.byTiplocMap.set tiploc location }, .ok ())

/-- The map rejects a null key. -/
def getByStanox (repo : HzLocationRepo) (stanox : Option String) :
    Except JavaException (Option Location) := do
  let stanox ← nonNull stanox
  pure (repo.byStanoxMap.get stanox)

def getByTiploc (repo : HzLocationRepo) (tiploc : Option String) :
    Except JavaException (Option Location) := do
  let tiploc ← nonNull tiploc
  pure (repo.byTiplocMap.get tiploc)

@[simp] theorem getByStanox_some (repo : HzLocationRepo) (stanox : String) :
    repo.getByStanox (some stanox) = .ok (repo.byStanoxMap.get stanox) := rfl

@[simp] theorem getByTiploc_some (repo : HzLocationRepo) (tiploc : String) :
    repo.getByTiploc (some tiploc) = .ok (repo.byTiplocMap.get tiploc) := rfl

end HzLocationRepo

structure ReferenceRepos where
  scheduleRepo : HzScheduleRepo
  locationRepo : HzLocationRepo

end TrainWatch.RefData
