import TrainWatch.Search.HzTrainWatchSearch
import TrainWatch.Verified.Steps
import TrainWatch.Library.Selection

/-! # What the two departure searches return

Both searches cut the stream of matching activations to the limit before they sort it,
and each has a cut-off of its own.  So which departures are returned depends, beyond the
limit, on the order in which the map is met, and what "within one hour" means differs
between the two.
-/

namespace TrainWatch.Verified.DepartureSearches

open TrainWatch.Java TrainWatch.Library TrainWatch.Movement TrainWatch.RefData TrainWatch.Search
open TrainWatch.Search.HzTrainWatchSearch

/-! ## Matching activations -/

def Parsable (ta : TrainActivation) : Prop := ∃ millis, Long.parseLong ta.wttDeparture = .ok millis

def originName (origin : Option Location) : Option String := origin.bind (·.description)

def departureOf (ta : TrainActivation) : Option TrainDeparture := (toDeparture ta).toOption

/-- The departure, if it is before the cut-off. -/
def soon (cutOff : LocalDateTime) (ta : TrainActivation) : Option TrainDeparture :=
  (departureOf ta).filter fun td => td.scheduledDeparture.isBefore cutOff

/-- The same for the activations at a station. -/
def soonFrom (station : Station) (cutOff : LocalDateTime) (ta : TrainActivation) :
    Option TrainDeparture :=
  if (originName ta.schedule.origin).isSome ∧ originName ta.schedule.origin = station.name
    then soon cutOff ta else none

section Stages

variable {ta : TrainActivation} {station : Station} {cutOff : LocalDateTime}

theorem departureOf_eq_some {td : TrainDeparture} :
    departureOf ta = some td ↔ toDeparture ta = .ok td := by
  rw [departureOf]
  cases toDeparture ta with
  | ok value => simp [Except.toOption]
  | error thrown => simp [Except.toOption]

theorem toDeparture_completes : (∃ td, toDeparture ta = .ok td) ↔ Parsable ta :=
    TrainDeparture.create_completes

theorem origin_of_toDeparture {td : TrainDeparture} (created : toDeparture ta = .ok td) :
    td.origin = ta.schedule.origin := by
  obtain ⟨wtt, _, built⟩ := bind_eq_ok.mp created
  cases built
  rfl

theorem departureBefore_completes_iff : (∃ kept, departureBefore cutOff ta = .ok kept) ↔
    Parsable ta := by
  rw [← toDeparture_completes, departureBefore]
  cases toDeparture ta with
  | ok td => simp
  | error thrown => simp

theorem keptBy_departureBefore : keptBy (departureBefore cutOff) = soon cutOff := by
  funext ta
  rw [keptBy, departureBefore, soon, departureOf]
  cases toDeparture ta with
  | ok td =>
    simp only [ok_bind, pure_eq_ok, Except.toOption]
    rfl
  | error thrown => rfl

theorem departureFrom_eq : departureFrom station cutOff ta =
    match originName ta.schedule.origin with
    | none => .error .nullPointerException
    | some name => if some name = station.name then departureBefore cutOff ta else .ok none := by
  rw [departureFrom, originName]
  cases ta.schedule.origin with
  | none => rfl
  | some origin => cases described : origin.description <;> simp [described]

theorem departureFrom_completes_iff : (∃ kept, departureFrom station cutOff ta = .ok kept) ↔
    (originName ta.schedule.origin).isSome ∧
    (originName ta.schedule.origin = station.name → Parsable ta) := by
  rw [departureFrom_eq]
  cases originName ta.schedule.origin with
  | none => simp
  | some name =>
    by_cases here : some name = station.name
    · simp [← here, departureBefore_completes_iff]
    · simp [here]

theorem keptBy_departureFrom : keptBy (departureFrom station cutOff) = soonFrom station cutOff := by
  funext ta
  rw [keptBy, departureFrom_eq, soonFrom, ← keptBy_departureBefore]
  cases originName ta.schedule.origin with
  | none => simp
  | some name =>
    by_cases here : some name = station.name
    · simp only [← here, if_true, Option.isSome_some, and_self]
      rfl
    · simp [here]

end Stages

/-! ## The soonest departures -/

/-- What a limited search over the entries of a store is for. -/
structure ReturnsSoonest (query : List TrainActivation → Except JavaException (List TrainDeparture))
    (matching : TrainActivation → Option TrainDeparture) (max : Nat)
    (entries : Multiset TrainActivation) : Prop where
  selects : ∀ order : List TrainActivation, (order : Multiset _) = entries →
    ∃ found, query order = .ok found ∧ Selects SoonestFirst max (order.filterMap matching) found
  times : ∀ (order order' : List TrainActivation) (found found' : List TrainDeparture),
    (order : Multiset _) = entries → (order' : Multiset _) = entries →
    query order = .ok found → query order' = .ok found' →
    found.map (·.scheduledDeparture) = found'.map (·.scheduledDeparture)

theorem times_eq {max : Nat} {items found found' : List TrainDeparture}
    (selected : Selects SoonestFirst max items found)
    (selected' : Selects SoonestFirst max items found') :
    found.map (·.scheduledDeparture) = found'.map (·.scheduledDeparture) := by
  have keys := selected.keys_eq (fun _ _ => Iff.rfl) selected'
  have instants := congrArg (List.map LocalDateTime.mk) keys
  rw [List.map_map, List.map_map] at instants
  exact instants

section LimitedSearch

variable {stage : TrainActivation → Except JavaException (Option TrainDeparture)}
    {listed : List TrainActivation}
variable {maxResults : Int}

/-- Some order meets each entry first, so a search that returns in every order looks at all of them.
    -/
theorem completes_of_returnsSoonest (positive : 0 < maxResults)
    (soonest : ReturnsSoonest (limitSorted stage maxResults)
      (keptBy stage) maxResults.toNat listed) :
    ∀ ta ∈ listed, ∃ kept, stage ta = .ok kept := by
  intro ta member
  obtain ⟨front, back, rfl⟩ := List.append_of_mem member
  -- the order that meets this activation first
  obtain ⟨found, completed, _⟩ :=
    soonest.selects (ta :: (front ++ back)) (Multiset.coe_eq_coe.mpr List.perm_middle.symm)
  exact ok_of_limitSorted positive completed

theorem returnsSoonest_iff_selects (notNegative : 0 ≤ maxResults)
    (completes : ∀ ta ∈ listed, ∃ kept, stage ta = .ok kept) :
    ReturnsSoonest (limitSorted stage maxResults) (keptBy stage) maxResults.toNat listed ↔
      ∀ order : List TrainActivation, order.Perm listed →
        Selects SoonestFirst maxResults.toNat (listed.filterMap (keptBy stage))
          (((order.filterMap (keptBy stage)).take maxResults.toNat).insertionSort
            SoonestFirst) := by
  -- the search completes in every order of the store
  have returned : ∀ order : List TrainActivation, order.Perm listed →
      limitSorted stage maxResults order = .ok _ :=
    fun order perm => limitSorted_eq_ok (fun ta member =>
      completes ta (perm.mem_iff.mp member)) notNegative
  constructor
  · intro soonest order perm
    obtain ⟨found, completed, selected⟩ := soonest.selects order (Multiset.coe_eq_coe.mpr perm)
    cases completed.symm.trans (returned order perm)
    exact selected.of_perm (perm.filterMap _)
  · intro selects
    constructor
    · intro order same
      have perm : order.Perm listed := Multiset.coe_eq_coe.mp same
      exact ⟨_, returned order perm, (selects order perm).of_perm (perm.filterMap _).symm⟩
    · intro order order' found found' same same' completed completed'
      have perm : order.Perm listed := Multiset.coe_eq_coe.mp same
      have perm' : order'.Perm listed := Multiset.coe_eq_coe.mp same'
      cases completed.symm.trans (returned order perm)
      cases completed'.symm.trans (returned order' perm')
      exact times_eq (selects order perm) (selects order' perm')

theorem returnsSoonest_zero : ReturnsSoonest (limitSorted stage 0) (keptBy stage) 0 listed := by
  have nothing : ∀ order, limitSorted stage 0 order = .ok [] := by
    intro order
    rw [limitSorted_eq (Int.le_refl 0)]
    cases order <;> rfl
  constructor
  · intro order _
    exact ⟨[], nothing order, .nil, by simp, _, List.Perm.refl _, by simp⟩
  · intro order order' found found' _ _ completed completed'
    cases completed.symm.trans (nothing order)
    cases completed'.symm.trans (nothing order')
    rfl

end LimitedSearch

/-- A search that limits before it sorts returns the soonest if and only if it returns nothing, or
    completes on every entry and has nothing to choose. -/
theorem returnsSoonest_limitSorted_iff {maxResults : Int} (notNegative : 0 ≤ maxResults)
    (entries : Multiset TrainActivation)
    (stage : TrainActivation → Except JavaException (Option TrainDeparture)) :
    ReturnsSoonest (limitSorted stage maxResults) (keptBy stage) maxResults.toNat entries ↔
      maxResults = 0 ∨ (∀ ta ∈ entries, ∃ kept, stage ta = .ok kept) ∧
        ((((entries.filterMap (keptBy stage)).card : Nat) : Int) ≤ maxResults ∨
          ∀ td ∈ entries.filterMap (keptBy stage), ∀ o ∈ entries.filterMap (keptBy stage),
            td.scheduledDeparture = o.scheduledDeparture) := by
  obtain ⟨listed, rfl⟩ : ∃ listed : List TrainActivation, (listed : Multiset _) = entries :=
    Quot.exists_rep entries
  rw [Multiset.filterMap_coe, Multiset.coe_card]
  simp only [Multiset.mem_coe]
  obtain rfl | positive : maxResults = 0 ∨ 0 < maxResults := by omega
  · exact iff_of_true returnsSoonest_zero (.inl rfl)
  constructor
  · intro soonest
    have completes := completes_of_returnsSoonest positive soonest
    refine .inr ⟨completes, ?_⟩
    -- taking before sorting is right if nothing is cut off or all departures are equal
    obtain none | all | same :=
      selects_sort_take_iff.mp ((returnsSoonest_iff_selects notNegative completes).mp soonest)
    · omega
    · exact .inl (by omega)
    · refine .inr fun td member o member' => ?_
      have first := same td member o member'
      have second := same o member' td member
      exact congrArg LocalDateTime.mk (Int.le_antisymm first second)
  · rintro (rfl | ⟨completes, few | equal⟩)
    · exact returnsSoonest_zero
    · refine (returnsSoonest_iff_selects notNegative completes).mpr
        (selects_sort_take_iff.mpr (.inr (.inl ?_)))
      omega
    · refine (returnsSoonest_iff_selects notNegative completes).mpr
        (selects_sort_take_iff.mpr (.inr (.inr ?_)))
      intro td member o member'
      have same := equal td member o member'
      exact Int.le_of_eq (congrArg LocalDateTime.epochMilli same)

/-- Each of the two searches returns the soonest departures, in whatever order it meets the entries,
    if and only if it is asked for none, or no entry makes it throw and either at most as many match
    as are asked for or all that match are scheduled for one instant. -/
theorem limited_departures_are_soonest_iff (store : HzTrainActivationRepo) (now : LocalDateTime)
    (station : Station)
    {maxResults : Int} (notNegative : 0 ≤ maxResults) :
    (ReturnsSoonest (fun order => departuresWithinOneHour order now maxResults)
      (soon (now.plusMinutes 180))
        maxResults.toNat (IMap.values store) ↔
      maxResults = 0 ∨ (∀ ta ∈ IMap.values store, Parsable ta) ∧
        ((((IMap.values store).filterMap (soon (now.plusMinutes 180))).card : Int) ≤ maxResults ∨
          ∀ td ∈ (IMap.values store).filterMap (soon (now.plusMinutes 180)),
            ∀ o ∈ (IMap.values store).filterMap (soon (now.plusMinutes 180)),
              td.scheduledDeparture = o.scheduledDeparture)) ∧
    (ReturnsSoonest (fun order => departuresWithinOneHourAt order now station maxResults)
        (soonFrom station (now.plusMinutes 60)) maxResults.toNat (IMap.values store) ↔
      maxResults = 0 ∨
        (∀ ta ∈ IMap.values store, (originName ta.schedule.origin).isSome ∧
          (originName ta.schedule.origin = station.name → Parsable ta)) ∧
        ((((IMap.values store).filterMap (soonFrom station (now.plusMinutes 60))).card : Int) ≤
          maxResults ∨
          ∀ td ∈ (IMap.values store).filterMap (soonFrom station (now.plusMinutes 60)),
            ∀ o ∈ (IMap.values store).filterMap (soonFrom station (now.plusMinutes 60)),
              td.scheduledDeparture = o.scheduledDeparture)) := by
  constructor
  · have soonest := returnsSoonest_limitSorted_iff notNegative (IMap.values store)
      (departureBefore (now.plusMinutes 180))
    simp only [keptBy_departureBefore, departureBefore_completes_iff] at soonest
    exact soonest
  · have soonest := returnsSoonest_limitSorted_iff notNegative (IMap.values store)
      (departureFrom station (now.plusMinutes 60))
    simp only [keptBy_departureFrom, departureFrom_completes_iff] at soonest
    exact soonest

section Sample

open Sample

/-- A train from Victoria, with its departure in milliseconds. -/
def departing (trainId millis : String) : TrainActivation :=
  ⟨trainId, schedule, some millis, clock 9 0⟩

def tenPastTen : TrainActivation := departing "871A01MN18" "1458295800000"

def twentyPastTen : TrainActivation := departing "871A02MN18" "1458296400000"

def bothTrains : HzTrainActivationRepo := (HzTrainActivationRepo.put ∅ tenPastTen).put twentyPastTen

def atVictoria : Station := ⟨some "LONDON VICTORIA", some "VIC"⟩

/-- Asked for one departure at ten o'clock, both searches return the later train when they meet it
    first, and the sooner one in the other order. -/
theorem limit_hides_the_sooner :
    ([twentyPastTen, tenPastTen] : Multiset TrainActivation) = IMap.values bothTrains ∧
      ([tenPastTen, twentyPastTen] : Multiset TrainActivation) = IMap.values bothTrains ∧
      ∃ sooner later, departureOf tenPastTen = some sooner ∧
        departureOf twentyPastTen = some later ∧
        sooner.scheduledDeparture.epochMilli < later.scheduledDeparture.epochMilli ∧
        departuresWithinOneHour [twentyPastTen, tenPastTen] (clock 10 0) 1 = .ok [later] ∧
        departuresWithinOneHour [tenPastTen, twentyPastTen] (clock 10 0) 1 = .ok [sooner] ∧
        departuresWithinOneHourAt [twentyPastTen, tenPastTen] (clock 10 0) atVictoria 1 =
          .ok [later] ∧
        departuresWithinOneHourAt [tenPastTen, twentyPastTen] (clock 10 0) atVictoria 1 = .ok
          [sooner] := by
  refine ⟨by decide, by decide, ?_⟩
  obtain ⟨sooner, hasSooner⟩ : ∃ sooner, departureOf tenPastTen = some sooner :=
    Option.isSome_iff_exists.mp (by decide)
  obtain ⟨later, hasLater⟩ : ∃ later, departureOf twentyPastTen = some later :=
    Option.isSome_iff_exists.mp (by decide)
  refine ⟨sooner, later, hasSooner, hasLater, ?_⟩
  cases hasSooner
  cases hasLater
  decide

/-- The rule at both trains and a search for two departures. -/
theorem both_trains_are_the_soonest :
    ReturnsSoonest (fun order => departuresWithinOneHour order (clock 10 0) 2)
      (soon ((clock 10 0).plusMinutes 180)) 2
      (IMap.values bothTrains) := by
  have rule :=
    (limited_departures_are_soonest_iff bothTrains (clock 10 0) atVictoria
    (by decide : (0 : Int) ≤ 2)).1
  have entries : IMap.values bothTrains = ([tenPastTen, twentyPastTen] : List TrainActivation) := by
    decide
  refine rule.mpr (.inr ⟨?_, .inl (by decide)⟩)
  intro ta member
  rw [entries, Multiset.mem_coe, List.mem_pair] at member
  obtain rfl | rfl := member
  · exact ⟨1458295800000, by decide⟩
  · exact ⟨1458296400000, by decide⟩

end Sample

/-! ## The two windows -/

/-- With room for every activation, both searches return, the one at a station what the other has of
    the station in the same order, and all they return departs within an hour from now. -/
def Agree (departures : List TrainActivation) (now : LocalDateTime) (station : Station)
    (maxResults : Int) : Prop :=
  ∃ everywhere here, departuresWithinOneHour departures now maxResults = .ok everywhere ∧
    departuresWithinOneHourAt departures now station maxResults = .ok here ∧
    here = everywhere.filter (fun td => originName td.origin = station.name) ∧
    ∀ td, td ∈ everywhere ∨ td ∈ here →
      now.epochMilli ≤ td.scheduledDeparture.epochMilli ∧
        td.scheduledDeparture.epochMilli < (now.plusMinutes 60).epochMilli

/-- Departing within the hour from now, or not before the longer cut-off. -/
def Unambiguous (now : LocalDateTime) (td : TrainDeparture) : Prop :=
  now.epochMilli ≤ td.scheduledDeparture.epochMilli ∧
      td.scheduledDeparture.epochMilli < (now.plusMinutes 60).epochMilli ∨
    (now.plusMinutes 180).epochMilli ≤ td.scheduledDeparture.epochMilli

section Agreement

variable {departures : List TrainActivation} {now : LocalDateTime} {station : Station}
    {ta : TrainActivation}

theorem listable_iff : Listable ta ↔ (originName ta.schedule.origin).isSome ∧ Parsable ta := by
  rw [originName]
  constructor
  · rintro ⟨⟨origin, hasOrigin, described⟩, departs⟩
    rw [hasOrigin]
    exact ⟨described, departs⟩
  · rintro ⟨described, departs⟩
    refine ⟨?_, departs⟩
    cases hasOrigin : ta.schedule.origin with
    | none => rw [hasOrigin] at described; cases described
    | some origin => exact ⟨origin, rfl, by rw [hasOrigin] at described; exact described⟩

theorem departureOf_listable (listable : Listable ta) :
    ∃ td, departureOf ta = some td ∧ td.origin = ta.schedule.origin := by
  obtain ⟨td, created⟩ := toDeparture_completes.mpr (listable_iff.mp listable).2
  exact ⟨td, departureOf_eq_some.mpr created, origin_of_toDeparture created⟩

theorem departuresWithinOneHour_eq_ok (listable : ∀ ta ∈ departures, Listable ta) {maxResults : Int}
    (room : (departures.length : Int) ≤ maxResults) (now : LocalDateTime) (station : Station) :
    departuresWithinOneHour departures now maxResults =
        .ok ((departures.filterMap (soon (now.plusMinutes 180))).insertionSort SoonestFirst) ∧
      departuresWithinOneHourAt departures now station maxResults =
        .ok ((departures.filterMap (soonFrom station (now.plusMinutes 60))).insertionSort
          SoonestFirst) := by
  have uncut : ∀ matching : TrainActivation → Option TrainDeparture,
      (departures.filterMap matching).take maxResults.toNat = departures.filterMap matching := by
    intro matching
    apply List.take_of_length_le
    have fewer := List.length_filterMap_le matching departures
    omega
  constructor
  · rw [departuresWithinOneHour, limitSorted_eq_ok
      (fun ta member => departureBefore_completes (listable ta member) _) (by omega),
        keptBy_departureBefore, uncut]
  · rw [departuresWithinOneHourAt, limitSorted_eq_ok
      (fun ta member => departureFrom_completes (listable ta member) station _) (by omega),
        keptBy_departureFrom, uncut]

theorem filter_soon (listable : Listable ta)
    (unambiguous : ∀ td, departureOf ta = some td → Unambiguous now td) :
    (soon (now.plusMinutes 180) ta).filter (fun td => originName td.origin = station.name) =
      soonFrom station (now.plusMinutes 60) ta := by
  obtain ⟨td, departs, origin⟩ := departureOf_listable listable
  have described := (listable_iff.mp listable).1
  have window := unambiguous td departs
  have sooner : (now.plusMinutes 60).epochMilli ≤ (now.plusMinutes 180).epochMilli := by
    simp only [LocalDateTime.plusMinutes, millisPerMinute, millisPerSecond]
    omega
  have verdicts : td.scheduledDeparture.isBefore (now.plusMinutes 180) =
      td.scheduledDeparture.isBefore (now.plusMinutes 60) := by
    obtain ⟨_, early⟩ | late := window
    · rw [LocalDateTime.isBefore_eq_true.mpr early, LocalDateTime.isBefore_eq_true]
      omega
    · rw [LocalDateTime.isBefore_eq_false.mpr late, eq_comm, LocalDateTime.isBefore_eq_false]
      omega
  rw [soonFrom, soon, soon, departs, Option.filter_some, Option.filter_some, verdicts]
  by_cases early : td.scheduledDeparture.isBefore (now.plusMinutes 60) = true
  · rw [if_pos early]
    by_cases here : originName ta.schedule.origin = station.name
    · simp [origin, here, here ▸ described]
    · simp [origin, here]
  · rw [if_neg early]
    simp

end Agreement

/-- With room for every activation, the two searches agree on what departs within one hour from now
    if and only if every activation has an origin with a description and a departure instant that is
    within the hour or not before the other search's cut-off of three hours. -/
theorem searches_agree_iff {departures : List TrainActivation} {maxResults : Int}
    (room : (departures.length : Int) ≤ maxResults) (now : LocalDateTime) (station : Station) :
    Agree departures now station maxResults ↔
      ∀ ta ∈ departures, Listable ta ∧ ∀ td, departureOf ta = some td → Unambiguous now td := by
  constructor
  · rintro ⟨everywhere, here, completed, completedAt, _, window⟩ ta member
    have listable : ∀ ta ∈ departures, Listable ta := by
      intro ta member
      have parsable :=
        departureBefore_completes_iff.mp (completes_of_limitSorted room completed ta member)
      have described :=
        (departureFrom_completes_iff.mp (completes_of_limitSorted room completedAt ta member)).1
      exact listable_iff.mpr ⟨described, parsable⟩
    refine ⟨listable ta member, fun td departs => ?_⟩
    rw [(departuresWithinOneHour_eq_ok listable room now station).1] at completed
    cases completed
    -- a departure before the longer cut-off is returned, and what is returned is in the hour
    by_cases before : td.scheduledDeparture.isBefore (now.plusMinutes 180) = true
    · refine .inl (window td (.inl ?_))
      rw [List.mem_insertionSort, List.mem_filterMap]
      refine ⟨ta, member, ?_⟩
      rw [soon, departs, Option.filter_some, if_pos before]
    · rw [Bool.not_eq_true, LocalDateTime.isBefore_eq_false] at before
      exact .inr before
  · intro each
    have listable : ∀ ta ∈ departures, Listable ta := fun ta member => (each ta member).1
    obtain ⟨completed, completedAt⟩ := departuresWithinOneHour_eq_ok listable room now station
    have filtered :
        (departures.filterMap (soonFrom station (now.plusMinutes 60))).insertionSort SoonestFirst =
        ((departures.filterMap (soon (now.plusMinutes 180))).insertionSort SoonestFirst).filter
          fun td => originName td.origin = station.name := by
      rw [filter_insertionSort, List.filter_filterMap]
      congr 1
      apply List.filterMap_congr
      intro ta member
      exact (filter_soon (each ta member).1 (each ta member).2).symm
    refine ⟨_, _, completed, completedAt, filtered, fun td shown => ?_⟩
    have inAll : td ∈ departures.filterMap (soon (now.plusMinutes 180)) := by
      rw [filtered] at shown
      obtain first | second := shown
      · exact (List.mem_insertionSort SoonestFirst).mp first
      · exact (List.mem_insertionSort SoonestFirst).mp (List.mem_filter.mp second).1
    obtain ⟨ta, member, kept⟩ := List.mem_filterMap.mp inAll
    obtain ⟨departs, before⟩ := Option.filter_eq_some_iff.mp kept
    obtain inHour | late := (each ta member).2 td departs
    · exact inHour
    · rw [LocalDateTime.isBefore_eq_true] at before
      omega

section Sample

open Sample

/-- At ten o'clock, the train of half past eleven is within one hour of the one search alone. -/
theorem ninety_minutes_are_within_one_hour :
    ∃ td, departureOf (departing "871A03MN18" "1458300600000") = some td ∧
      departuresWithinOneHour [departing "871A03MN18" "1458300600000"] (clock 10 0) 1 = .ok [td] ∧
      departuresWithinOneHourAt [departing "871A03MN18" "1458300600000"] (clock 10 0) atVictoria 1 =
        .ok [] ∧
      originName td.origin = atVictoria.name ∧
      ((clock 10 0).plusMinutes 60).epochMilli ≤ td.scheduledDeparture.epochMilli := by
  obtain ⟨td, departs⟩ : ∃ td, departureOf (departing "871A03MN18" "1458300600000") = some td :=
    Option.isSome_iff_exists.mp (by decide)
  refine ⟨td, departs, ?_⟩
  cases departs
  decide

/-- It departs more than three hours after ten o'clock. -/
def halfPastOne : TrainActivation := departing "871A04MN18" "1458307800000"

/-- The rule at two trains within the hour, the later one first, and one behind both windows. -/
theorem searches_agree_on_three_trains :
    Agree [twentyPastTen, tenPastTen, halfPastOne] (clock 10 0) atVictoria 3 := by
  refine (searches_agree_iff (by decide) (clock 10 0) atVictoria).mpr ?_
  intro ta member
  simp only [List.mem_cons, List.not_mem_nil, or_false] at member
  obtain rfl | rfl | rfl := member
  · refine ⟨⟨⟨victoria, rfl, rfl⟩, 1458296400000, by decide⟩, fun td departs => ?_⟩
    cases departs
    exact .inl (by decide)
  · refine ⟨⟨⟨victoria, rfl, rfl⟩, 1458295800000, by decide⟩, fun td departs => ?_⟩
    cases departs
    exact .inl (by decide)
  · refine ⟨⟨⟨victoria, rfl, rfl⟩, 1458307800000, by decide⟩, fun td departs => ?_⟩
    cases departs
    exact .inr (by decide)

end Sample

end TrainWatch.Verified.DepartureSearches
