import TrainWatch.Verified.DepartureSearches
import Mathlib.Tactic.IntervalCases

/-! # Stations listed and stations queried

The list of stations capitalizes the descriptions of the origins and tells stations apart
by the result; the search at a station compares its name with the descriptions as they
are.  A listed station can be queried when capitalizing has not changed its name.
-/

namespace TrainWatch.Verified.Stations

open TrainWatch.Java TrainWatch.Library TrainWatch.Movement TrainWatch.RefData TrainWatch.Search
open TrainWatch.Search.HzTrainWatchSearch TrainWatch.Verified.DepartureSearches

/-! ## Capitalizing -/

/-- What the library function knows about characters: upper case is final, and no letter becomes
    a blank or the other way around. -/
structure WordUtils where
  upper : Char → Char
  isWhitespace : Char → Bool
  upper_upper : ∀ c, upper (upper c) = upper c
  isWhitespace_upper : ∀ c, isWhitespace (upper c) = isWhitespace c

namespace WordUtils

variable (words : WordUtils)

/-- The first character of every word in upper case. -/
def capitalizeFrom : Bool → List Char → List Char
  | _, [] => []
  | capitalizeNext, c :: cs =>
    if words.isWhitespace c then c :: capitalizeFrom true cs
    else (if capitalizeNext then words.upper c else c) :: capitalizeFrom false cs

def capitalize (text : String) : String := String.ofList (words.capitalizeFrom true text.toList)

theorem capitalizeFrom_capitalizeFrom (capitalizeNext : Bool) (cs : List Char) :
    words.capitalizeFrom capitalizeNext
      (words.capitalizeFrom capitalizeNext cs) = words.capitalizeFrom capitalizeNext cs := by
  induction cs generalizing capitalizeNext with
  | nil => rfl
  | cons c cs inductionHypothesis =>
    rw [capitalizeFrom]
    by_cases blank : words.isWhitespace c = true
    · rw [if_pos blank, capitalizeFrom, if_pos blank, inductionHypothesis]
    · rw [if_neg blank]
      cases capitalizeNext with
      | true =>
        -- the letter in upper case is no blank either, so the second pass treats it alike
        have letter : ¬ words.isWhitespace (words.upper c) = true := by
          rwa [words.isWhitespace_upper]
        rw [if_pos rfl, capitalizeFrom, if_neg letter, if_pos rfl, words.upper_upper,
          inductionHypothesis]
      | false =>
        rw [if_neg Bool.false_ne_true, capitalizeFrom, if_neg blank, if_neg Bool.false_ne_true,
          inductionHypothesis]

theorem capitalize_capitalize (text : String) :
    words.capitalize (words.capitalize text) = words.capitalize text := by
  rw [capitalize, capitalize, String.toList_ofList, capitalizeFrom_capitalizeFrom]

end WordUtils

/-! ## Names -/

def units (c : Char) : List Nat :=
  if c.toNat < 0x10000 then [c.toNat]
  else [0xD800 + (c.toNat - 0x10000) / 0x400, 0xDC00 + (c.toNat - 0x10000) % 0x400]

theorem utf16_eq (text : String) : utf16 text = text.toList.flatMap units := rfl

theorem toNat_scalar (c : Char) :
    c.toNat < 0xD800 ∨ 0xDFFF < c.toNat ∧ c.toNat < 0x110000 := c.valid

theorem units_append_inj {c d : Char} {rest rest' : List Nat}
    (same : units c ++ rest = units d ++ rest') :
    c = d ∧ rest = rest' := by
  have scalar := toNat_scalar c
  have scalar' := toNat_scalar d
  unfold units at same
  by_cases small : c.toNat < 0x10000
  · rw [if_pos small] at same
    by_cases small' : d.toNat < 0x10000
    · rw [if_pos small'] at same
      obtain ⟨head, tail⟩ := List.cons_eq_cons.mp same
      exact ⟨Char.toNat_inj.mp head, tail⟩
    · -- a unit of the basic plane is no high surrogate
      rw [if_neg small'] at same
      obtain ⟨head, _⟩ := List.cons_eq_cons.mp same
      omega
  · rw [if_neg small] at same
    by_cases small' : d.toNat < 0x10000
    · rw [if_pos small'] at same
      obtain ⟨head, _⟩ := List.cons_eq_cons.mp same
      omega
    · rw [if_neg small'] at same
      obtain ⟨high, next⟩ := List.cons_eq_cons.mp same
      obtain ⟨low, tail⟩ := List.cons_eq_cons.mp next
      exact ⟨Char.toNat_inj.mp (by omega), tail⟩

theorem units_ne_nil (c : Char) : units c ≠ [] := by
  unfold units
  split
  · exact List.cons_ne_nil _ _
  · exact List.cons_ne_nil _ _

theorem utf16_injective {text text' : String} (same : utf16 text = utf16 text') : text = text' := by
  rw [utf16_eq, utf16_eq] at same
  have lists : ∀ cs ds : List Char, cs.flatMap units = ds.flatMap units → cs = ds := by
    intro cs
    induction cs with
    | nil =>
      intro ds same
      cases ds with
      | nil => rfl
      | cons d ds =>
        rw [List.flatMap_cons] at same
        exact absurd (List.append_eq_nil_iff.mp same.symm).1 (units_ne_nil d)
    | cons c cs inductionHypothesis =>
      intro ds same
      cases ds with
      | nil =>
        rw [List.flatMap_cons] at same
        exact absurd (List.append_eq_nil_iff.mp same).1 (units_ne_nil c)
      | cons d ds =>
        rw [List.flatMap_cons, List.flatMap_cons] at same
        obtain ⟨rfl, rest⟩ := units_append_inj same
        rw [inductionHypothesis ds rest]
  exact String.toList_inj.mp (lists _ _ same)

/-! ## Distinct stations -/

theorem exists_distinct {stations : List Station} {s : Station} (member : s ∈ stations) :
    ∃ o ∈ Station.distinct stations, o.name = s.name := by
  have grown : ∀ (rest seen : List Station), (∃ o ∈ seen, o.name = s.name) ∨ s ∈ rest →
      ∃ o ∈ rest.foldl (fun seen s => if seen.any (·.name == s.name) then seen else seen ++
        [s]) seen,
        o.name = s.name := by
    intro rest
    induction rest with
    | nil =>
      intro seen here
      obtain earlier | impossible := here
      · exact earlier
      · cases impossible
    | cons first rest inductionHypothesis =>
      intro seen here
      rw [List.foldl_cons]
      apply inductionHypothesis
      obtain ⟨o, inSeen, same⟩ | inRest := here
      · left
        split
        · exact ⟨o, inSeen, same⟩
        · exact ⟨o, List.mem_append_left _ inSeen, same⟩
      · obtain rfl | later := List.mem_cons.mp inRest
        · -- the station is appended, or one of its name has been seen
          left
          split
          · rename_i present
            obtain ⟨o, inSeen, same⟩ := List.any_eq_true.mp present
            exact ⟨o, inSeen, eq_of_beq same⟩
          · exact ⟨s, List.mem_append_right _ (List.mem_singleton_self s), rfl⟩
        · exact .inr later
  exact grown stations [] (.inr member)

theorem nodup_distinct (stations : List Station) :
    ((Station.distinct stations).map (·.name)).Nodup := by
  have kept : ∀ (rest seen : List Station), (seen.map (·.name)).Nodup →
      ((rest.foldl (fun seen s => if seen.any (·.name == s.name) then seen else seen ++
        [s]) seen).map (·.name)).Nodup := by
    intro rest
    induction rest with
    | nil => exact fun seen nodup => nodup
    | cons first rest inductionHypothesis =>
      intro seen nodup
      rw [List.foldl_cons]
      apply inductionHypothesis
      split
      · exact nodup
      · -- a name is only appended when no station seen has it
        rename_i absent
        rw [List.map_append, List.map_singleton, List.nodup_append]
        refine ⟨nodup, List.nodup_singleton _, ?_⟩
        intro name member other same equal
        rw [List.mem_singleton.mp same] at equal
        obtain ⟨o, inSeen, rfl⟩ := List.mem_map.mp member
        exact absent (List.any_eq_true.mpr ⟨o, inSeen, beq_iff_eq.mpr equal⟩)
  exact kept stations [] List.nodup_nil

/-! ## The list and the queries -/

/-- The station answers for the activation: every query with room for all activations returns, with
    the activation's departure if it is before the cut-off. -/
def Answers (departures : List TrainActivation) (s : Station) (ta : TrainActivation) : Prop :=
  ∃ td, departureOf ta = some td ∧ ∀ (now : LocalDateTime) (maxResults : Int),
    (departures.length : Int) ≤ maxResults →
    td.scheduledDeparture.isBefore (now.plusMinutes 60) = true →
      ∃ found, departuresWithinOneHourAt departures now s maxResults = .ok found ∧ td ∈ found

/-- The stations are listed in the strict order of their names, every activation has a station that
    answers for it, and every station an activation for which it answers. -/
def ListedStationsAnswer (capitalize : String → String) (departures : List TrainActivation) :
    Prop :=
  ∃ stations, listStations capitalize departures = .ok stations ∧
    stations.Pairwise (fun s o => utf16 (s.name.getD "") < utf16 (o.name.getD "")) ∧
    (∀ ta ∈ departures, ∃ s ∈ stations, Answers departures s ta) ∧
    (∀ s ∈ stations, ∃ ta ∈ departures, Answers departures s ta)

section Listed

variable {departures : List TrainActivation}

theorem name_of_answers {s : Station} {ta : TrainActivation} (answers : Answers departures s ta) :
    Parsable ta ∧ s.name = originName ta.schedule.origin := by
  obtain ⟨td, departs, everyQuery⟩ := answers
  have created := departureOf_eq_some.mp departs
  refine ⟨toDeparture_completes.mp ⟨td, created⟩, ?_⟩
  -- a query at the very instant of the departure
  have before : td.scheduledDeparture.isBefore (td.scheduledDeparture.plusMinutes 60) = true := by
    rw [LocalDateTime.isBefore_eq_true]
    simp only [LocalDateTime.plusMinutes, millisPerMinute, millisPerSecond]
    omega
  obtain ⟨found, completed, member⟩ :=
    everyQuery td.scheduledDeparture departures.length le_rfl before
  have completes := completes_of_limitSorted le_rfl completed
  rw [departuresWithinOneHourAt, limitSorted_eq_ok completes (by omega)] at completed
  cases completed
  have taken := (List.mem_insertionSort SoonestFirst).mp member
  obtain ⟨other, _, kept⟩ := List.mem_filterMap.mp (List.mem_of_mem_take taken)
  rw [keptBy_departureFrom, soonFrom] at kept
  split at kept
  · rename_i here
    obtain ⟨departs', _⟩ := Option.filter_eq_some_iff.mp kept
    have origin := origin_of_toDeparture (departureOf_eq_some.mp departs')
    rw [← here.2, ← origin, origin_of_toDeparture created]
  · cases kept

theorem answers_of_name (listable : ∀ ta ∈ departures, Listable ta) {s : Station}
    {ta : TrainActivation}
    (member : ta ∈ departures) (named : s.name = originName ta.schedule.origin) :
    Answers departures s ta := by
  obtain ⟨td, departs, _⟩ := departureOf_listable (listable ta member)
  refine ⟨td, departs, fun now maxResults room before => ?_⟩
  refine ⟨_, (departuresWithinOneHour_eq_ok listable room now s).2, ?_⟩
  rw [List.mem_insertionSort, List.mem_filterMap]
  refine ⟨ta, member, ?_⟩
  rw [soonFrom, if_pos ⟨(listable_iff.mp (listable ta member)).1, named.symm⟩, soon, departs,
    Option.filter_some,
    if_pos before]

theorem sorted_stations {stations : List Station} (named : ∀ s ∈ stations, s.name.isSome)
    (nodup : (stations.map (·.name)).Nodup) :
    (stations.insertionSort fun s o => utf16 (s.name.getD "") ≤ utf16 (o.name.getD "")).Pairwise
      fun s o => utf16 (s.name.getD "") < utf16 (o.name.getD "") := by
  have total : Std.Total fun s o : Station => utf16 (s.name.getD "") ≤ utf16 (o.name.getD "") :=
    ⟨fun _ _ => le_total _ _⟩
  have trans : IsTrans Station fun s o => utf16 (s.name.getD "") ≤ utf16 (o.name.getD "") :=
    ⟨fun _ _ _ => le_trans⟩
  have perm := List.perm_insertionSort (fun s o : Station =>
    utf16 (s.name.getD "") ≤ utf16 (o.name.getD "")) stations
  have inOrder := List.pairwise_insertionSort (fun s o : Station =>
    utf16 (s.name.getD "") ≤ utf16 (o.name.getD "")) stations
  have distinct := List.pairwise_map.mp ((perm.map (·.name)).nodup_iff.mpr nodup)
  -- in order and distinct by name, and no two names have the same code units
  have both := inOrder.and distinct
  refine both.imp_of_mem ?_
  intro s o member member' related
  refine lt_of_le_of_ne related.1 fun same => related.2 ?_
  obtain ⟨name, hasName⟩ := Option.isSome_iff_exists.mp (named s (perm.mem_iff.mp member))
  obtain ⟨other, hasOther⟩ := Option.isSome_iff_exists.mp (named o (perm.mem_iff.mp member'))
  rw [hasName, hasOther] at same ⊢
  exact congrArg some (utf16_injective same)

end Listed

/-- With a description for every origin, the listed stations answer if and only if every departure
    instant can be read and no description is changed by capitalizing it. -/
theorem listed_stations_answer_iff (words : WordUtils) {departures : List TrainActivation}
    (described : ∀ ta ∈ departures, (originName ta.schedule.origin).isSome) :
    ListedStationsAnswer words.capitalize departures ↔
      ∀ ta ∈ departures, Parsable ta ∧
        ∀ description, originName ta.schedule.origin = some description →
          words.capitalize description = description := by
  constructor
  · rintro ⟨stations, listed, _, forward, _⟩ ta member
    obtain ⟨s, inList, answers⟩ := forward ta member
    obtain ⟨parsable, named⟩ := name_of_answers answers
    refine ⟨parsable, fun description hasDescription => ?_⟩
    have listable : ∀ ta ∈ departures, Listable ta := by
      intro other member'
      obtain ⟨_, _, answers'⟩ := forward other member'
      exact listable_iff.mpr ⟨described other member', (name_of_answers answers').1⟩
    rw [listStations_eq_ok listable] at listed
    cases listed
    -- the name of a listed station is capitalized already
    have inDistinct := (List.mem_insertionSort _).mp inList
    obtain ⟨other, member', rfl⟩ := List.mem_map.mp (mem_of_mem_distinct inDistinct)
    rw [hasDescription] at named
    obtain ⟨first, _, capitalized⟩ := Option.map_eq_some_iff.mp named
    rw [← capitalized, words.capitalize_capitalize]
  · intro unchanged
    have listable : ∀ ta ∈ departures, Listable ta := fun ta member =>
      listable_iff.mpr ⟨described ta member, (unchanged ta member).1⟩
    have named :
        ∀ ta ∈ departures, (stationOf words.capitalize ta).name =
        originName ta.schedule.origin := by
      intro ta member
      obtain ⟨description, hasDescription⟩ := Option.isSome_iff_exists.mp (described ta member)
      have same := (unchanged ta member).2 description hasDescription
      have name :
          (stationOf words.capitalize ta).name =
        (originName ta.schedule.origin).map words.capitalize := rfl
      rw [name, hasDescription, Option.map_some, same]
    -- so the names that are sorted are all there
    have hasName : ∀ s ∈ Station.distinct (departures.map (stationOf words.capitalize)),
        s.name.isSome := by
      intro s member
      obtain ⟨ta, member', rfl⟩ := List.mem_map.mp (mem_of_mem_distinct member)
      rw [named ta member']
      exact described ta member'
    refine ⟨_, listStations_eq_ok listable, sorted_stations hasName (nodup_distinct _), ?_, ?_⟩
    · intro ta member
      obtain ⟨s, inDistinct, same⟩ := exists_distinct (List.mem_map.mpr ⟨ta, member, rfl⟩)
      refine ⟨s, (List.mem_insertionSort _).mpr inDistinct, answers_of_name listable member ?_⟩
      rw [same, named ta member]
    · intro s inList
      have inDistinct := (List.mem_insertionSort _).mp inList
      obtain ⟨ta, member, rfl⟩ := List.mem_map.mp (mem_of_mem_distinct inDistinct)
      exact ⟨ta, member, answers_of_name listable member (named ta member)⟩

/-! ## A description in small letters -/

section Sample

open Sample

theorem toUpper_cases (c : Char) : c.toUpper = c ∨ ∃ n, 97 ≤ n ∧ n ≤ 122 ∧ c = Char.ofNat n := by
  by_cases small : 'a'.val ≤ c.val ∧ c.val ≤ 'z'.val
  · exact .inr ⟨c.toNat, small.1, small.2, (Char.ofNat_toNat c).symm⟩
  · exact .inl (dif_neg small)

theorem toUpper_toUpper (c : Char) : c.toUpper.toUpper = c.toUpper := by
  obtain same | ⟨n, first, last, rfl⟩ := toUpper_cases c
  · rw [same, same]
  · interval_cases n <;> rfl

theorem isWhitespace_toUpper (c : Char) : c.toUpper.isWhitespace = c.isWhitespace := by
  obtain same | ⟨n, first, last, rfl⟩ := toUpper_cases c
  · rw [same]
  · interval_cases n <;> rfl

/-- The library function on texts of ASCII characters. -/
def ascii : WordUtils := ⟨Char.toUpper, Char.isWhitespace, toUpper_toUpper, isWhitespace_toUpper⟩

def smallLetters : TrainActivation :=
  { tenPastTen with
    schedule :=
      { schedule with origin := some { victoria with description := some "london victoria" } } }

/-- The station is listed under a name that finds none of its departures. -/
theorem small_letters_are_not_found :
    listStations ascii.capitalize [smallLetters] = .ok [⟨some "London Victoria", some "VIC"⟩] ∧
      ∃ td, departureOf smallLetters = some td ∧
        td.scheduledDeparture.isBefore ((clock 10 0).plusMinutes 60) = true ∧
        departuresWithinOneHourAt [smallLetters]
          (clock 10 0) ⟨some "London Victoria", some "VIC"⟩ 1 = .ok [] := by
  refine ⟨by decide, ?_⟩
  obtain ⟨td, departs⟩ : ∃ td, departureOf smallLetters = some td :=
    Option.isSome_iff_exists.mp (by decide)
  refine ⟨td, departs, ?_⟩
  cases departs
  decide

def fromBrighton : TrainActivation :=
  { twentyPastTen with schedule := { schedule with origin := some brighton } }

/-- The rule at two trains of one station and one of another, in capital letters. -/
theorem capital_letters_are_found :
    ListedStationsAnswer ascii.capitalize
      [fromBrighton, tenPastTen, departing "871A03MN18" "1458300600000"] := by
  have described : ∀ ta ∈ [fromBrighton, tenPastTen, departing "871A03MN18" "1458300600000"],
      (originName ta.schedule.origin).isSome := by
    simp only [List.mem_cons, List.not_mem_nil, or_false]
    rintro ta (rfl | rfl | rfl) <;> rfl
  refine (listed_stations_answer_iff ascii described).mpr ?_
  intro ta member
  simp only [List.mem_cons, List.not_mem_nil, or_false] at member
  obtain rfl | rfl | rfl := member
  · refine ⟨⟨1458296400000, by decide⟩, fun description same => ?_⟩
    cases same
    decide
  · refine ⟨⟨1458295800000, by decide⟩, fun description same => ?_⟩
    cases same
    decide
  · refine ⟨⟨1458300600000, by decide⟩, fun description same => ?_⟩
    cases same
    decide

end Sample

end TrainWatch.Verified.Stations
