import TrainWatch.RefData.Schedule
import TrainWatch.Java.Texts
import TrainWatch.Library.Puts

/-! # The schedule a lookup finds

A schedule is stored and looked up under its four fields joined without a separator, so
the repository cannot tell two schedules apart whose texts join to the same.  `Confused`
is that relation on the fields; the lookup is exact as long as it stays out of play.
-/

namespace TrainWatch.Verified.ScheduleLookup

open TrainWatch.Java TrainWatch.RefData TrainWatch.Library

structure Fields where
  id : Option String
  trainServiceCode : Option String
  startDate : Option LocalDate
  endDate : Option LocalDate
deriving DecidableEq

def fieldsOf (schedule : Schedule) : Fields :=
  ⟨schedule.id, schedule.trainServiceCode, schedule.startDate, schedule.endDate⟩

namespace Fields

def text (fields : Fields) : String :=
  scheduleKey fields.id fields.trainServiceCode (fields.startDate.map LocalDate.toText)
    (fields.endDate.map LocalDate.toText)

/-- The lookup with the dates in the form in which Java prints them. -/
def getBy (repo : HzScheduleRepo) (fields : Fields) : Option Schedule :=
  repo.getBy fields.id fields.trainServiceCode (fields.startDate.map LocalDate.toText)
    (fields.endDate.map LocalDate.toText)

/-- Different fields with one text. -/
def Confused (fields other : Fields) : Prop := fields ≠ other ∧ fields.text = other.text

instance (fields other : Fields) : Decidable (fields.Confused other) :=
  inferInstanceAs (Decidable (_ ∧ _))

/-- Dates as every feed has them: null, or a year of four digits. -/
structure FourDigitYears (fields : Fields) : Prop where
  startDate : ∀ date, fields.startDate = some date → date.FourDigitYear
  endDate : ∀ date, fields.endDate = some date → date.FourDigitYear

end Fields

theorem map_puts (puts : List Schedule) (repo : HzScheduleRepo) :
    (puts.foldl HzScheduleRepo.put repo).map = repo.map.putAll Schedule.uniqueKey puts := by
  induction puts generalizing repo with
  | nil => rfl
  | cons schedule puts inductionHypothesis => exact inductionHypothesis (repo.put schedule)

/-! ## Which fields are confused -/

theorem toText_injective {date other : LocalDate} (year : date.FourDigitYear)
    (year' : other.FourDigitYear)
    (same : date.toText = other.toText) : date = other := by
  have read := LocalDate.parse_toText year
  rw [same, LocalDate.parse_toText year'] at read
  exact (Except.ok.inj read).symm

theorem length_toText {date : LocalDate} (year : date.FourDigitYear) :
    date.toText.toList.length = 10 := by
  rw [LocalDate.toList_toText year]
  simp only [List.length_append, List.length_cons, LocalDate.length_year year, date.length_month,
    date.length_day]

theorem getLast?_toText {date : LocalDate} (year : date.FourDigitYear) :
    ∃ c, date.toText.toList.getLast? = some c ∧ c.isDigit := by
  -- the last character is that of the day
  have nonempty : (LocalDate.padded 2 date.day).toList ≠ [] := by
    have two := date.length_day
    intro empty
    rw [empty] at two
    cases two
  refine ⟨(LocalDate.padded 2 date.day).toList.getLast nonempty, ?_, ?_⟩
  · rw [LocalDate.toList_toText year, List.getLast?_append, List.getLast?_cons_of_ne_nil nonempty,
      List.getLast?_eq_some_getLast nonempty, Option.some_or]
  · exact LocalDate.isDigit_of_mem_padded (List.getLast_mem nonempty)

theorem append_date_inj {front front' : String} {date other : Option LocalDate}
    (year : ∀ d, date = some d → d.FourDigitYear) (year' : ∀ d, other = some d → d.FourDigitYear)
    (same : front ++ concatOperand (date.map LocalDate.toText) = front' ++ concatOperand
      (other.map LocalDate.toText)) :
    front = front' ∧ date = other := by
  have characters := congrArg String.toList same
  rw [String.toList_append, String.toList_append] at characters
  -- a null ends in a letter, a date in a digit
  have apart : ∀ (front front' : List Char) (d : LocalDate), d.FourDigitYear →
      front ++ "null".toList ≠ front' ++ d.toText.toList := by
    intro front front' d year same
    obtain ⟨c, last, digit⟩ := getLast?_toText year
    have ends := congrArg List.getLast? same
    rw [List.getLast?_append, List.getLast?_append, last] at ends
    have letter : 'l' = c := by simpa using ends
    rw [← letter] at digit
    exact absurd digit (by decide)
  cases date with
  | none =>
    cases other with
    | none => exact ⟨String.toList_inj.mp (List.append_cancel_right characters), rfl⟩
    | some d => exact absurd characters (apart _ _ d (year' d rfl))
  | some d =>
    cases other with
    | none => exact absurd characters.symm (apart _ _ d (year d rfl))
    | some d' =>
      have lengths : d.toText.toList.length = d'.toText.toList.length := by
        rw [length_toText (year d rfl), length_toText (year' d' rfl)]
      obtain ⟨fronts, dates⟩ := List.append_inj' characters lengths
      have sameDate := toText_injective (year d rfl) (year' d' rfl) (String.toList_inj.mp dates)
      exact ⟨String.toList_inj.mp fronts, congrArg some sameDate⟩

/-- With dates as feeds have them, confused fields are those that agree on both dates and on the
    concatenation of id and service code, but not on where the id ends. -/
theorem confused_iff {fields other : Fields} (years : fields.FourDigitYears)
    (years' : other.FourDigitYears) :
    fields.Confused other ↔ fields.startDate = other.startDate ∧ fields.endDate = other.endDate ∧
      concatOperand fields.id ++ concatOperand fields.trainServiceCode =
        concatOperand other.id ++ concatOperand other.trainServiceCode ∧
      ¬ (fields.id = other.id ∧ fields.trainServiceCode = other.trainServiceCode) := by
  constructor
  · rintro ⟨different, same⟩
    obtain ⟨front, ends⟩ := append_date_inj years.endDate years'.endDate same
    obtain ⟨first, starts⟩ := append_date_inj years.startDate years'.startDate front
    refine ⟨starts, ends, first, ?_⟩
    rintro ⟨id, code⟩
    apply different
    cases fields
    cases other
    simp_all
  · rintro ⟨starts, ends, first, different⟩
    refine ⟨?_, ?_⟩
    · rintro rfl
      exact different ⟨rfl, rfl⟩
    · rw [Fields.text, Fields.text, scheduleKey, scheduleKey, first, starts, ends]

/-! ## The lookup -/

/-- A lookup finds the last schedule put with the fields asked for if and only if every schedule put
    that is confused with them is followed by one with those fields; two schedules are taken to be
    equal without agreeing on the fields exactly when these are confused. -/
theorem lookup_is_exact_iff (puts : List Schedule) (asked : Fields) (schedule other : Schedule) :
    (asked.getBy (puts.foldl HzScheduleRepo.put .empty) =
        (puts.filter fun schedule => fieldsOf schedule = asked).getLast? ↔
      ∀ before schedule after, puts = before ++ schedule :: after →
        (fieldsOf schedule).Confused asked →
        ∃ later ∈ after, fieldsOf later = asked) ∧
    ((schedule.equals other = true → fieldsOf schedule = fieldsOf other) ↔
      ¬ (fieldsOf schedule).Confused (fieldsOf other)) ∧
    ((fieldsOf schedule).FourDigitYears → asked.FourDigitYears →
      ((fieldsOf schedule).Confused asked ↔ schedule.startDate = asked.startDate ∧
        schedule.endDate = asked.endDate ∧
        concatOperand schedule.id ++ concatOperand schedule.trainServiceCode =
          concatOperand asked.id ++ concatOperand asked.trainServiceCode ∧
        ¬ (schedule.id = asked.id ∧ schedule.trainServiceCode = asked.trainServiceCode))) := by
  refine ⟨?_, ?_, confused_iff⟩
  · -- the store is keyed by the text of the fields, which does not determine them
    have stored : asked.getBy (puts.foldl HzScheduleRepo.put .empty) =
        (IMap.putAll (fun schedule => (fieldsOf schedule).text) ∅ puts).get asked.text := by
      rw [Fields.getBy, HzScheduleRepo.getBy, map_puts]
      rfl
    rw [stored, IMap.get_putAll_encoded_iff]
    constructor
    · intro followed before schedule after split confused
      exact followed before schedule after split confused.1 confused.2
    · intro followed before schedule after split different same
      exact followed before schedule after split ⟨different, same⟩
  · have compared : schedule.equals other = true ↔
      (fieldsOf schedule).text = (fieldsOf other).text :=
      decide_eq_true_iff
    rw [compared, Fields.Confused]
    constructor
    · intro onlyAgreeing confused
      exact confused.1 (onlyAgreeing confused.2)
    · intro notConfused same
      by_contra different
      exact notConfused ⟨different, same⟩

/-! ## Two schedules that are taken for one another -/

def dated (id trainServiceCode : String) : Schedule :=
  { id := some id, trainServiceCode := some trainServiceCode
    startDate := some ⟨2005, 12, 15, by decide⟩, endDate := some ⟨2005, 12, 22, by decide⟩
    origin := none, destination := none, departure := none, arrival := none, atocCode := none }

/-- The rule where a confused schedule is put before the one asked for. -/
theorem lookup_finds_the_last :
    (fieldsOf (dated "100" "1abc")).getBy
      ([dated "1001" "abc", dated "100" "1abc"].foldl HzScheduleRepo.put .empty) =
      some (dated "100" "1abc") := by
  refine (lookup_is_exact_iff [dated "1001" "abc", dated "100" "1abc"]
    (fieldsOf (dated "100" "1abc"))
    (dated "1001" "abc") (dated "100" "1abc")).1.mpr ?_
  intro before schedule after split confused
  cases before with
  | nil =>
    cases split
    exact ⟨dated "100" "1abc", List.mem_singleton_self _, rfl⟩
  | cons first before =>
    have later : schedule ∈ [dated "100" "1abc"] := by
      rw [(List.cons.inj split).2]
      exact List.mem_append_right _ List.mem_cons_self
    rw [List.mem_singleton.mp later] at confused
    exact absurd rfl confused.1

/-- The second schedule overwrites the first and answers for it, and the two count as equal. -/
theorem digit_moves_between_fields :
    fieldsOf (dated "100" "1abc") ≠ fieldsOf (dated "1001" "abc") ∧
      (fieldsOf (dated "100" "1abc")).getBy
        ([dated "100" "1abc", dated "1001" "abc"].foldl HzScheduleRepo.put .empty) =
        some (dated "1001" "abc") ∧
      ([dated "100" "1abc", dated "1001" "abc"].filter fun schedule =>
        fieldsOf schedule = fieldsOf (dated "100" "1abc")).getLast? = some (dated "100" "1abc") ∧
      (dated "100" "1abc").equals (dated "1001" "abc") = true := by
  decide

end TrainWatch.Verified.ScheduleLookup
