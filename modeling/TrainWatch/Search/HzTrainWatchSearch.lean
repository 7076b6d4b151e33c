import TrainWatch.Movement.Departures
import TrainWatch.Java.Streams
import Mathlib.Logic.Function.Basic

/-! # The searches

The four queries of the search service over the two shared stores.  `departures` and
`movements` are the values of the stores in the order in which the stream meets them.
`capitalize` is the library function applied to a text; it leaves null as it is.
-/

namespace TrainWatch.Search

open TrainWatch.Java TrainWatch.RefData TrainWatch.Movement

structure Station where
  name : Option String
  crs : Option String
deriving DecidableEq, Repr

/-- The UTF-16 code units of a text, by which texts are compared. -/
def utf16 (text : String) : List Nat :=
  text.toList.flatMap fun c =>
    if c.toNat < 0x10000 then [c.toNat]
    else [0xD800 + (c.toNat - 0x10000) / 0x400, 0xDC00 + (c.toNat - 0x10000) % 0x400]

namespace Station

/-- `compareTo` is not positive: the station may stand before the other.  Both names are
    dereferenced. -/
def notAfter (s o : Station) : Except JavaException Bool := do
  let name ← nonNull s.name
  let other ← nonNull o.name
  pure (decide (utf16 name ≤ utf16 other))

/-- Stations are equal when their names are; the first of several is kept. -/
def distinct (stations : List Station) : List Station :=
  stations.foldl (fun seen s => if seen.any (·.name == s.name) then seen else seen ++ [s]) []

end Station

namespace HzTrainWatchSearch

def makeStation (capitalize : String → String) (ta : TrainActivation) :
    Except JavaException Station := do
  let origin ← nonNull ta.schedule.origin
  pure ⟨origin.description.map capitalize, origin.crs⟩

def listStations (capitalize : String → String) (departures : List TrainActivation) :
    Except JavaException (List Station) := do
  let stations ← departures.mapM (makeStation capitalize)
  sortedE Station.notAfter (Station.distinct stations)

def sortMovements (movements : List TrainMovement) : List TrainMovement :=
  movements.insertionSort fun tm o => o.timestamp.epochMilli ≤ tm.timestamp.epochMilli

def collectSortedMovements (movements : List TrainMovement) :
    DelayWindow → Option (List TrainMovement) :=
  fun dw =>
    match (sortMovements movements).filter fun tm => DelayWindow.fromDelay tm.delay = dw with
    | [] => none
    | group => some group

/-- `subList` from zero; the end is never past the list's. -/
def subList (toIndex : Int) (values : List TrainMovement) :
    Except JavaException (List TrainMovement) :=
  if 0 ≤ toIndex then .ok (values.take toIndex.toNat) else .error .illegalArgumentException

def limit (max : Int) (movements : DelayWindow → Option (List TrainMovement)) :
    Except JavaException (DelayWindow → Option (List TrainMovement)) :=
  DelayWindow.sortedValues.foldlM (fun result dw =>
    match movements dw with
    | none => pure result
    | some values => do
      let shown ← subList (min max values.length) values
      pure (Function.update result dw (some shown))) (fun _ => none)

def delayedTrainsByAllWindows (movements : List TrainMovement) (maxResults : Int) :
    Except JavaException (DelayWindow → Option (List TrainMovement)) :=
  limit maxResults (collectSortedMovements movements)

def toDeparture (t : TrainActivation) : Except JavaException TrainDeparture :=
  TrainDeparture.create t.trainId t.wttDeparture t.schedule

/-- The stages that map an activation to its departure and keep it before the cut-off. -/
def departureBefore (cutOff : LocalDateTime) (t : TrainActivation) :
    Except JavaException (Option TrainDeparture) := do
  let td ← toDeparture t
  pure (if td.scheduledDeparture.isBefore cutOff then some td else none)

/-- The station's filter stands in front of them. -/
def departureFrom (station : Station) (cutOff : LocalDateTime) (t : TrainActivation) :
    Except JavaException (Option TrainDeparture) := do
  let origin ← nonNull t.schedule.origin
  let description ← nonNull origin.description
  if some description = station.name then departureBefore cutOff t else pure none

/-- `limit(maxResults).sorted()`, after the stages before them. -/
def limitSorted (stage : TrainActivation → Except JavaException (Option TrainDeparture))
    (maxResults : Int)
    (departures : List TrainActivation) : Except JavaException (List TrainDeparture) :=
  if maxResults < 0 then .error .illegalArgumentException
  else do
    let found ← limitE stage maxResults.toNat departures
    pure (found.insertionSort fun td o =>
      td.scheduledDeparture.epochMilli ≤ o.scheduledDeparture.epochMilli)

def departuresWithinOneHour (departures : List TrainActivation) (now : LocalDateTime)
    (maxResults : Int) : Except JavaException (List TrainDeparture) :=
  let cutOff := now.plusMinutes 180
  limitSorted (departureBefore cutOff) maxResults departures

def departuresWithinOneHourAt (departures : List TrainActivation) (now : LocalDateTime)
    (station : Station)
    (maxResults : Int) : Except JavaException (List TrainDeparture) :=
  let cutOff := now.plusMinutes 60
  limitSorted (departureFrom station cutOff) maxResults departures

/-! ## When the queries return -/

/-- The data of an activation that the queries dereference or parse. -/
structure Listable (ta : TrainActivation) : Prop where
  origin : ∃ origin, ta.schedule.origin = some origin ∧ origin.description.isSome
  departs : ∃ millis, Long.parseLong ta.wttDeparture = .ok millis

theorem mem_of_mem_distinct {stations : List Station} {s : Station}
    (member : s ∈ Station.distinct stations) :
    s ∈ stations := by
  have grown : ∀ (rest seen : List Station), s ∈ rest.foldl (fun seen s =>
      if seen.any (·.name == s.name) then seen else seen ++ [s]) seen → s ∈ seen ∨ s ∈ rest := by
    intro rest
    induction rest with
    | nil => exact fun seen here => .inl here
    | cons o rest inductionHypothesis =>
      intro seen here
      rw [List.foldl_cons] at here
      obtain earlier | later := inductionHypothesis _ here
      · split at earlier
        · exact .inl earlier
        · obtain old | new := List.mem_append.mp earlier
          · exact .inl old
          · exact .inr (List.mem_singleton.mp new ▸ List.mem_cons_self)
      · exact .inr (List.mem_cons_of_mem _ later)
  obtain impossible | found := grown stations [] member
  · cases impossible
  · exact found

def stationOf (capitalize : String → String) (ta : TrainActivation) : Station :=
  ⟨(ta.schedule.origin.bind (·.description)).map capitalize, ta.schedule.origin.bind (·.crs)⟩

theorem listStations_eq_ok {capitalize : String → String} {departures : List TrainActivation}
    (listable : ∀ ta ∈ departures, Listable ta) :
    listStations capitalize departures =
      .ok ((Station.distinct (departures.map (stationOf capitalize))).insertionSort
        fun s o => utf16 (s.name.getD "") ≤ utf16 (o.name.getD "")) := by
  have mapped :
      departures.mapM (makeStation capitalize) = .ok (departures.map (stationOf capitalize)) := by
    apply mapM_eq_ok
    intro ta member
    obtain ⟨origin, hasOrigin, _⟩ := (listable ta member).origin
    simp [makeStation, stationOf, hasOrigin]
  have named : ∀ s ∈ Station.distinct (departures.map (stationOf capitalize)), ∃ name,
      s.name = some name := by
    intro s member
    obtain ⟨ta, inDepartures, rfl⟩ := List.mem_map.mp (mem_of_mem_distinct member)
    obtain ⟨origin, hasOrigin, described⟩ := (listable ta inDepartures).origin
    obtain ⟨description, hasDescription⟩ := Option.isSome_iff_exists.mp described
    exact ⟨capitalize description, by simp [stationOf, hasOrigin, hasDescription]⟩
  rw [listStations, mapped, ok_bind]
  apply sortedE_eq_ok
  intro s member o member'
  obtain ⟨name, hasName⟩ := named s member
  obtain ⟨other, hasOther⟩ := named o member'
  simp [Station.notAfter, hasName, hasOther]

theorem subList_min {max : Int} (notNegative : 0 ≤ max) (values : List TrainMovement) :
    subList (min max values.length) values = .ok (values.take max.toNat) := by
  have inside : 0 ≤ min max (values.length : Int) := by omega
  rw [subList, if_pos inside]
  by_cases short : max ≤ values.length
  · rw [min_eq_left short]
  · have room : values.length ≤ max.toNat := by omega
    rw [min_eq_right (by omega), Int.toNat_natCast, List.take_length, List.take_of_length_le room]

theorem limit_eq_ok {max : Int} (notNegative : 0 ≤ max)
    (movements : DelayWindow → Option (List TrainMovement)) :
    limit max movements = .ok fun dw => (movements dw).map (·.take max.toNat) := by
  -- over the windows still to be cut: the others keep what they have
  have folded : ∀ (windows : List DelayWindow) (result : DelayWindow → Option (List TrainMovement)),
      windows.foldlM (fun result dw =>
        match movements dw with
        | none => pure result
        | some values => do
          let shown ← subList (min max values.length) values
          pure (Function.update result dw (some shown))) result =
        (.ok fun dw => if dw ∈ windows then ((movements dw).map (·.take max.toNat)).or (result dw)
          else result dw :
          Except JavaException _) := by
    intro windows
    induction windows with
    | nil =>
      intro result
      simp
    | cons dw windows inductionHypothesis =>
      intro result
      rw [List.foldlM_cons]
      cases grouped : movements dw with
      | none =>
        refine (inductionHypothesis result).trans (congrArg Except.ok ?_)
        funext other
        by_cases same : other = dw
        · simp [same, grouped]
        · simp [same]
      | some values =>
        dsimp only
        rw [subList_min notNegative]
        refine (inductionHypothesis
          (Function.update result dw (some (values.take max.toNat)))).trans
          (congrArg Except.ok ?_)
        funext other
        by_cases same : other = dw
        · simp [same, grouped]
        · simp [same]
  rw [limit, folded]
  congr 1
  funext dw
  simp [DelayWindow.mem_sortedValues]

theorem mem_of_limit {max : Int} {movements result : DelayWindow → Option (List TrainMovement)}
    (completed : limit max movements = .ok result) {dw : DelayWindow} {shown : List TrainMovement}
    (here : result dw = some shown) :
    ∃ values, movements dw = some values ∧ ∀ tm ∈ shown, tm ∈ values := by
  -- over the windows still to be cut: what stands in the result so far is of its group
  have folded :
      ∀ (windows : List DelayWindow) (earlier : DelayWindow → Option (List TrainMovement)),
      (∀ dw shown, earlier dw = some shown → ∃ values, movements dw = some values ∧ ∀ tm ∈ shown,
        tm ∈ values) →
      windows.foldlM (fun result dw =>
        match movements dw with
        | none => pure result
        | some values => do
          let shown ← subList (min max values.length) values
          pure (Function.update result dw (some shown))) earlier = .ok result →
      ∃ values, movements dw = some values ∧ ∀ tm ∈ shown, tm ∈ values := by
    intro windows
    induction windows with
    | nil =>
      rintro earlier grouped ⟨⟩
      exact grouped dw shown here
    | cons window windows inductionHypothesis =>
      intro earlier grouped ended
      rw [List.foldlM_cons] at ended
      obtain ⟨next, updated, rest⟩ := bind_eq_ok.mp ended
      refine inductionHypothesis next ?_ rest
      cases group : movements window with
      | none =>
        rw [group] at updated
        cases updated
        exact grouped
      | some values =>
        rw [group] at updated
        obtain ⟨cut, taken, result⟩ := bind_eq_ok.mp updated
        cases result
        intro other shown' here'
        by_cases same : other = window
        · subst same
          rw [Function.update_self] at here'
          cases here'
          refine ⟨values, group, fun tm member => ?_⟩
          rw [subList] at taken
          split at taken
          · cases taken
            exact List.mem_of_mem_take member
          · cases taken
        · rw [Function.update_of_ne same] at here'
          exact grouped other shown' here'
  exact folded DelayWindow.sortedValues (fun _ =>
    none) (fun _ _ absent => by cases absent) completed

theorem limit_completes {max : Int} (notNegative : 0 ≤ max)
    (movements : DelayWindow → Option (List TrainMovement)) :
    ∃ result, limit max movements = .ok result :=
  ⟨_, limit_eq_ok notNegative movements⟩

theorem delayedTrainsByAllWindows_completes (movements : List TrainMovement) {maxResults : Int}
    (notNegative : 0 ≤ maxResults) :
    ∃ result, delayedTrainsByAllWindows movements maxResults = .ok result :=
  limit_completes notNegative _

theorem departureBefore_completes {ta : TrainActivation} (listable : Listable ta)
    (cutOff : LocalDateTime) :
    ∃ kept, departureBefore cutOff ta = .ok kept := by
  obtain ⟨td, created⟩ : ∃ td, toDeparture ta = .ok td :=
    TrainDeparture.create_completes.mpr listable.departs
  simp [departureBefore, created]

theorem departureFrom_completes {ta : TrainActivation} (listable : Listable ta) (station : Station)
    (cutOff : LocalDateTime) : ∃ kept, departureFrom station cutOff ta = .ok kept := by
  obtain ⟨origin, hasOrigin, described⟩ := listable.origin
  obtain ⟨description, hasDescription⟩ := Option.isSome_iff_exists.mp described
  simp only [departureFrom, hasOrigin, nonNull_some, ok_bind, hasDescription]
  split
  · exact departureBefore_completes listable cutOff
  · exact ⟨none, rfl⟩

theorem listable_of_departures {ta : TrainActivation} {station : Station}
    {cutOff cutOff' : LocalDateTime}
    {kept kept' : Option TrainDeparture} (filtered : departureFrom station cutOff ta = .ok kept)
    (parsed : departureBefore cutOff' ta = .ok kept') : Listable ta where
  origin := by
    obtain ⟨origin, hasOrigin, rest⟩ := bind_eq_ok.mp filtered
    obtain ⟨description, hasDescription, _⟩ := bind_eq_ok.mp rest
    exact ⟨origin, nonNull_eq_ok.mp hasOrigin, by rw [nonNull_eq_ok.mp hasDescription]; rfl⟩
  departs := by
    obtain ⟨td, created, _⟩ := bind_eq_ok.mp parsed
    exact TrainDeparture.create_completes.mp ⟨td, created⟩

/-- The order of `TrainDeparture.compareTo`. -/
abbrev SoonestFirst (td o : TrainDeparture) : Prop :=
  td.scheduledDeparture.epochMilli ≤ o.scheduledDeparture.epochMilli

instance : Std.Total SoonestFirst := ⟨fun _ _ => Int.le_total _ _⟩

instance : IsTrans TrainDeparture SoonestFirst := ⟨fun _ _ _ => Int.le_trans⟩

section LimitSorted

variable {stage : TrainActivation → Except JavaException (Option TrainDeparture)}
    {departures : List TrainActivation}

theorem limitSorted_eq {maxResults : Int} (notNegative : 0 ≤ maxResults) :
    limitSorted stage maxResults departures =
      limitE stage maxResults.toNat departures >>= fun found => pure
        (found.insertionSort SoonestFirst) := by
  rw [limitSorted, if_neg (Int.not_lt.mpr notNegative)]

theorem limitSorted_eq_ok (completes : ∀ ta ∈ departures, ∃ kept, stage ta = .ok kept)
    {maxResults : Int}
    (notNegative : 0 ≤ maxResults) :
    limitSorted stage maxResults departures =
      .ok (((departures.filterMap (keptBy stage)).take maxResults.toNat).insertionSort
        SoonestFirst) := by
  rw [limitSorted_eq notNegative, limitE_eq_ok completes]
  rfl

theorem limitSorted_completes (completes : ∀ ta ∈ departures, ∃ kept, stage ta = .ok kept)
    {maxResults : Int} (notNegative : 0 ≤ maxResults) :
    ∃ found, limitSorted stage maxResults departures = .ok found :=
  ⟨_, limitSorted_eq_ok completes notNegative⟩

theorem ok_of_limitSorted {ta : TrainActivation} {found : List TrainDeparture} {maxResults : Int}
    (positive : 0 < maxResults)
    (completed : limitSorted stage maxResults (ta :: departures) = .ok found) :
    ∃ kept, stage ta = .ok kept := by
  rw [limitSorted_eq (Int.le_of_lt positive)] at completed
  obtain ⟨taken, limited, _⟩ := bind_eq_ok.mp completed
  obtain ⟨limit, same⟩ : ∃ limit, maxResults.toNat = limit + 1 := ⟨maxResults.toNat - 1, by omega⟩
  rw [same] at limited
  exact ok_of_limitE limited

/-- A query with room for all activations looks at all of them. -/
theorem completes_of_limitSorted {found : List TrainDeparture} {maxResults : Int}
    (room : (departures.length : Int) ≤ maxResults)
    (completed : limitSorted stage maxResults departures = .ok found) :
    ∀ ta ∈ departures, ∃ kept, stage ta = .ok kept := by
  rw [limitSorted_eq (by omega)] at completed
  obtain ⟨taken, limited, _⟩ := bind_eq_ok.mp completed
  exact completes_of_limitE (by omega) limited

end LimitSorted

end HzTrainWatchSearch

end TrainWatch.Search
