import TrainWatch.Java.Lang

/-! # Local dates and times

`LocalTime` and `LocalDate` carry their own validity.  A `LocalDateTime` is counted
in milliseconds from the epoch of its own zone-less line; the clock of the services
ticks in milliseconds.
-/

namespace TrainWatch.Java

def millisPerSecond : Nat := 1000

def millisPerMinute : Nat := 60 * millisPerSecond

def millisPerHour : Nat := 60 * millisPerMinute

def millisPerDay : Nat := 24 * millisPerHour

/-! ## Time of day -/

structure LocalTime where
  milliOfDay : Nat
  inDay : milliOfDay < millisPerDay
deriving DecidableEq, Repr

namespace LocalTime

def isBefore (time other : LocalTime) : Bool := time.milliOfDay < other.milliOfDay

def ofMillis (millis : Int) : LocalTime :=
  ⟨(millis % millisPerDay).toNat, by
    have positive : (0 : Int) < millisPerDay := by decide
    have lower := Int.emod_nonneg millis (Int.ne_of_gt positive)
    have upper := Int.emod_lt_of_pos millis positive
    omega⟩

/-- Subtraction wraps around midnight. -/
def minusMinutes (time : LocalTime) (minutes : Int) : LocalTime :=
  ofMillis (time.milliOfDay - minutes * millisPerMinute)

end LocalTime

/-! ## Dates -/

def isLeapYear (year : Int) : Bool := year % 4 = 0 ∧ (year % 100 ≠ 0 ∨ year % 400 = 0)

def lengthOfMonth (year : Int) (month : Nat) : Nat :=
  if month = 2 then (if isLeapYear year then 29 else 28)
  else if month = 4 ∨ month = 6 ∨ month = 9 ∨ month = 11 then 30
  else 31

def ValidDate (year : Int) (month day : Nat) : Prop :=
  -999999999 ≤ year ∧ year ≤ 999999999 ∧ 1 ≤ month ∧ month ≤ 12 ∧
    1 ≤ day ∧ day ≤ lengthOfMonth year month

instance (year : Int) (month day : Nat) : Decidable (ValidDate year month day) :=
  inferInstanceAs (Decidable (_ ∧ _))

structure LocalDate where
  year : Int
  month : Nat
  day : Nat
  valid : ValidDate year month day
deriving DecidableEq, Repr

namespace LocalDate

/-- A number of fewer than `width` digits is padded with zeros on the left. -/
def padded (width : Nat) (value : Nat) : String :=
  String.ofList (List.replicate (width - (toString value).length) '0') ++ toString value

/-- ISO text: years below 1000 are padded to four digits, years above 9999 get a sign. -/
def toText (date : LocalDate) : String :=
  let year :=
    if date.year < 0 then "-" ++ padded 4 date.year.natAbs
    else if date.year > 9999 then "+" ++ toString date.year.natAbs
    else padded 4 date.year.natAbs
  year ++ "-" ++ padded 2 date.month ++ "-" ++ padded 2 date.day

def isBefore (date other : LocalDate) : Bool :=
  date.year < other.year ∨ date.year = other.year ∧
    (date.month < other.month ∨ date.month = other.month ∧ date.day < other.day)

def isAfter (date other : LocalDate) : Bool := other.isBefore date

def of? (year : Int) (month day : Nat) : Option LocalDate :=
  if valid : ValidDate year month day then some ⟨year, month, day, valid⟩ else none

def next (date : LocalDate) : Option LocalDate :=
  if date.day < lengthOfMonth date.year date.month then of? date.year date.month (date.day + 1)
  else if date.month < 12 then of? date.year (date.month + 1) 1
  else of? (date.year + 1) 1 1

def previous (date : LocalDate) : Option LocalDate :=
  if 1 < date.day then of? date.year date.month (date.day - 1)
  else if 1 < date.month then of? date.year (date.month - 1)
    (lengthOfMonth date.year (date.month - 1))
  else of? (date.year - 1) 12 31

def plusDays (date : LocalDate) : Nat → Option LocalDate
  | 0 => some date
  | days + 1 => (date.plusDays days).bind next

def minusDays (date : LocalDate) : Nat → Option LocalDate
  | 0 => some date
  | days + 1 => (date.minusDays days).bind previous

end LocalDate

/-! ## Date-times -/

structure LocalDateTime where
  epochMilli : Int
deriving DecidableEq, Repr

namespace LocalDateTime

def isBefore (time other : LocalDateTime) : Bool := time.epochMilli < other.epochMilli

def minusHours (time : LocalDateTime) (hours : Int) : LocalDateTime :=
  ⟨time.epochMilli - hours * millisPerHour⟩

def plusMinutes (time : LocalDateTime) (minutes : Int) : LocalDateTime :=
  ⟨time.epochMilli + minutes * millisPerMinute⟩

@[simp] theorem isBefore_eq_true {time other : LocalDateTime} :
    time.isBefore other = true ↔ time.epochMilli < other.epochMilli := decide_eq_true_iff

@[simp] theorem isBefore_eq_false {time other : LocalDateTime} :
    time.isBefore other = false ↔ other.epochMilli ≤ time.epochMilli := by
  simp [isBefore]

@[simp] theorem minusHours_epochMilli (time : LocalDateTime) (hours : Int) :
    (time.minusHours hours).epochMilli = time.epochMilli - hours * millisPerHour := rfl

def toLocalTime (time : LocalDateTime) : LocalTime := .ofMillis time.epochMilli

/-- `LocalDateTime.ofInstant` at UTC; every number of milliseconds a long can hold is in range. -/
def ofEpochMilli (millis : Int) : LocalDateTime := ⟨millis⟩

/-- `LocalDateTime.ofEpochSecond` with no nanoseconds, at UTC. -/
def ofEpochSecond (seconds : Int) : LocalDateTime := ⟨seconds * millisPerSecond⟩

end LocalDateTime

/-! ## Parsing -/

def asciiDigit (c : Char) : Option Nat :=
  if '0' ≤ c ∧ c ≤ '9' then some (c.toNat - '0'.toNat) else none

def asciiNumber (digits : List Char) : Option Nat := decimalNumber asciiDigit digits

/-- The pattern `HHmm`: exactly four digits, an hour and a minute of the day, or the end of the day,
    which is read as midnight. -/
def LocalTime.parseHHmm (text : String) : Except JavaException LocalTime :=
  match text.toList with
  | [h₁, h₂, m₁, m₂] =>
    match asciiNumber [h₁, h₂], asciiNumber [m₁, m₂] with
    | some hour, some minute =>
      if (hour < 24 ∧ minute < 60) ∨ (hour = 24 ∧ minute = 0) then
        .ok (.ofMillis (hour * millisPerHour + minute * millisPerMinute))
      else .error (.dateTimeParseException text)
    | _, _ => .error (.dateTimeParseException text)
  | _ => .error (.dateTimeParseException text)

namespace LocalDate

/-- The optional offset at the end of an ISO date: `Z`, `±HH:MM` or `±HH:MM:ss`. -/
def isOffset (text : List Char) : Bool :=
  let sexagesimal (tens units : Char) : Bool :=
    ((asciiNumber [tens, units]).map fun n => decide (n < 60)).getD false
  let sign (c : Char) : Bool := c = '+' ∨ c = '-'
  match text with
  | [] => true
  | [z] => z = 'Z' ∨ z = 'z'
  | [s, h₁, h₂, ':', m₁, m₂] => sign s && sexagesimal h₁ h₂ && sexagesimal m₁ m₂
  | [s, h₁, h₂, ':', m₁, m₂, ':', s₁, s₂] =>
    sign s && sexagesimal h₁ h₂ && sexagesimal m₁ m₂ && sexagesimal s₁ s₂
  | _ => false

/-- The digits of the year and their sign: four digits without a plus sign, five to ten with
    one, and no negative zero. -/
def parseYear (text : List Char) : Option (Int × List Char) :=
  let split (unsigned : List Char) := unsigned.span fun c => (asciiDigit c).isSome
  match text with
  | '+' :: unsigned =>
    let (digits, rest) := split unsigned
    if 4 < digits.length ∧ digits.length ≤ 10 then
      (asciiNumber digits).map fun year => ((year : Int), rest)
    else none
  | '-' :: unsigned =>
    let (digits, rest) := split unsigned
    if 4 ≤ digits.length ∧ digits.length ≤ 10 ∧ asciiNumber digits ≠ some 0 then
      (asciiNumber digits).map fun year => (-(year : Int), rest)
    else none
  | unsigned =>
    let (digits, rest) := split unsigned
    if digits.length = 4 then (asciiNumber digits).map fun year => ((year : Int), rest) else none

/-- `LocalDate.parse` with `ISO_DATE`. -/
def parse (text : String) : Except JavaException LocalDate :=
  let parsed : Option LocalDate :=
    match parseYear text.toList with
    | some (year, '-' :: m₁ :: m₂ :: '-' :: d₁ :: d₂ :: offset) =>
      match asciiNumber [m₁, m₂], asciiNumber [d₁, d₂] with
      | some month, some day => if isOffset offset then of? year month day else none
      | _, _ => none
    | _ => none
  match parsed with
  | some date => .ok date
  | none => .error (.dateTimeParseException text)

end LocalDate

example : LocalTime.parseHHmm "2400" = LocalTime.parseHHmm "0000" := by decide

example : (LocalDate.parse "2005-12-15").map LocalDate.toText = .ok "2005-12-15" := by decide

end TrainWatch.Java
