import TrainWatch.Java.Time
import Mathlib.Algebra.Ring.Nat
import Mathlib.Data.List.TakeDrop

/-! # Numbers, dates and times written and read again

A decimal number, signed or padded with zeros, is read back by the parsers; so is the
text of a date whose year has four digits, and a time of day in the form `HHmm`.
-/

namespace TrainWatch.Java

/-! ## Digits -/

theorem asciiDigit_of_isDigit {c : Char} (digit : c.isDigit) :
    asciiDigit c = some (c.toNat - '0'.toNat) := by
  have bounds : '0' ≤ c ∧ c ≤ '9' := by
    simp only [Char.isDigit, Bool.and_eq_true, decide_eq_true_eq] at digit
    exact digit
  rw [asciiDigit, if_pos bounds]

theorem decimalDigit_of_isDigit {zeros : List Nat} {c : Char} (digit : c.isDigit) :
    decimalDigit (0x0030 :: zeros) c = some (c.toNat - '0'.toNat) := by
  obtain ⟨lower, upper⟩ := Char.isDigit_iff_toNat.mp digit
  have inside : 0x0030 ≤ c.toNat ∧ c.toNat < 0x0030 + 10 := ⟨lower, Nat.lt_succ_of_le upper⟩
  rw [decimalDigit, List.find?_cons_of_pos (by simpa using inside)]
  rfl

theorem digit_of_isDigit {c : Char} (digit : c.isDigit) :
    Character.digit c = some (c.toNat - '0'.toNat) := decimalDigit_of_isDigit digit

section Numbers

variable {digit : Char → Option Nat}
    (reads : ∀ c : Char, c.isDigit → digit c = some (c.toNat - '0'.toNat))
include reads

theorem foldlM_digits {digits : List Char} (allDigits : ∀ c ∈ digits, c.isDigit) (value : Nat) :
    digits.foldlM (fun value c => (digit c).map (10 * value + ·)) value =
      some (Nat.ofDigitChars 10 digits value) := by
  induction digits generalizing value with
  | nil => rfl
  | cons c rest inductionHypothesis =>
    rw [List.foldlM_cons, reads c (allDigits c List.mem_cons_self)]
    exact inductionHypothesis (fun d member => allDigits d (List.mem_cons_of_mem c member)) _

theorem decimalNumber_of_digits {digits : List Char} (allDigits : ∀ c ∈ digits, c.isDigit) :
    decimalNumber digit digits = some (Nat.ofDigitChars 10 digits 0) :=
      foldlM_digits reads allDigits 0

end Numbers

theorem asciiNumber_of_digits {digits : List Char} (allDigits : ∀ c ∈ digits, c.isDigit) :
    asciiNumber digits = some (Nat.ofDigitChars 10 digits 0) :=
  decimalNumber_of_digits (fun _ => asciiDigit_of_isDigit) allDigits

theorem parseDigits_of_digits {digits : List Char} (allDigits : ∀ c ∈ digits, c.isDigit) :
    parseDigits digits = some (Nat.ofDigitChars 10 digits 0) :=
  decimalNumber_of_digits (fun _ => digit_of_isDigit) allDigits

theorem asciiDigit_eq_some {c : Char} {value : Nat} (read : asciiDigit c = some value) :
    c.isDigit ∧ value = c.toNat - '0'.toNat := by
  unfold asciiDigit at read
  split at read
  · rename_i bounds
    cases read
    exact ⟨Char.isDigit_iff_toNat.mpr bounds, rfl⟩
  · cases read

theorem asciiNumber_pair {tens units : Char} {value : Nat}
    (read : asciiNumber [tens, units] = some value) :
    ∃ t u, asciiDigit tens = some t ∧ asciiDigit units = some u ∧ value = 10 * t + u := by
  cases isTens : asciiDigit tens with
  | none => simp [asciiNumber, decimalNumber, isTens] at read
  | some t =>
    cases isUnits : asciiDigit units with
    | none => simp [asciiNumber, decimalNumber, isTens, isUnits] at read
    | some u =>
      simp only [asciiNumber, decimalNumber, List.foldlM_cons, List.foldlM_nil, isTens, isUnits,
        Option.map_some, Option.bind_eq_bind,
        Option.bind_some, Option.pure_def, Option.some.injEq, Nat.mul_zero, Nat.zero_add] at read
      exact ⟨t, u, rfl, rfl, read.symm⟩

theorem asciiNumber_after {tens units : Char} {t value : Nat} (isTens : asciiDigit tens = some t)
    (read : asciiNumber [tens, units] = some value) :
    ∃ u, asciiDigit units = some u ∧ value = 10 * t + u := by
  obtain ⟨t', u, isTens', isUnits, rfl⟩ := asciiNumber_pair read
  cases isTens.symm.trans isTens'
  exact ⟨u, isUnits, rfl⟩

/-- Every reader of the ASCII digits reads the same number. -/
theorem decimalNumber_of_asciiNumber {digit : Char → Option Nat}
    (reads : ∀ c : Char, c.isDigit → digit c = some (c.toNat - '0'.toNat)) {digits : List Char}
    {value : Nat}
    (read : asciiNumber digits = some value) : decimalNumber digit digits = some value := by
  have allDigits :
      ∀ start value,
        digits.foldlM (fun value c => (asciiDigit c).map (10 * value + ·)) start = some value →
      ∀ c ∈ digits, c.isDigit := by
    clear read
    induction digits with
    | nil => intro _ _ _ c member; cases member
    | cons first digits inductionHypothesis =>
      intro start value read c member
      rw [List.foldlM_cons, Option.bind_eq_bind, Option.bind_eq_some_iff] at read
      obtain ⟨next, here, rest⟩ := read
      obtain ⟨digit, isDigit, _⟩ := Option.map_eq_some_iff.mp here
      obtain rfl | later := List.mem_cons.mp member
      · exact (asciiDigit_eq_some isDigit).1
      · exact inductionHypothesis next value rest c later
  have letters := allDigits 0 value read
  rw [decimalNumber_of_digits reads letters, ← asciiNumber_of_digits letters, read]

/-! ## Decimal texts -/

/-- A number written in decimal digits, one at least; zeros in front are allowed. -/
structure DecimalText (number : Nat) (text : String) : Prop where
  nonempty : text ≠ ""
  digits : ∀ c ∈ text.toList, c.isDigit
  value : Nat.ofDigitChars 10 text.toList 0 = number

/-- The same with a minus sign in front of a negative number. -/
def SignedDecimalText (number : Int) (text : String) : Prop :=
  (∃ size : Nat, number = size ∧ DecimalText size text) ∨
    ∃ (size : Nat) (digits : String), number = -size ∧ text = "-" ++ digits ∧
      DecimalText size digits

section DecimalTexts

variable {number : Nat} {text : String}

theorem decimalText_toString (number : Nat) : DecimalText number (toString number) where
  nonempty := by
    rw [ne_eq, ← String.toList_eq_nil_iff, Nat.toString_eq_repr, Nat.toList_repr]
    exact Nat.toDigits_ne_nil
  digits := by
    intro c member
    rw [Nat.toString_eq_repr, Nat.toList_repr] at member
    exact Nat.isDigit_of_mem_toDigits (by decide) (by decide) member
  value := by rw [Nat.toString_eq_repr, Nat.toList_repr, Nat.ofDigitChars_ten_toDigits]

theorem exists_toList_decimal (decimal : DecimalText number text) :
    ∃ c rest, text.toList = c :: rest ∧ c ≠ '-' ∧ c ≠ '+' ∧ parseDigits
      (c :: rest) = some number := by
  obtain ⟨nonempty, digits, rfl⟩ := decimal
  have read := parseDigits_of_digits digits
  cases letters : text.toList with
  | nil => exact absurd (String.toList_eq_nil_iff.mp letters) nonempty
  | cons c rest =>
    rw [letters] at digits read
    -- a digit is no sign
    have isDigit := digits c List.mem_cons_self
    refine ⟨c, rest, rfl, ?_, ?_, read⟩
    · rintro rfl
      exact absurd isDigit (by decide)
    · rintro rfl
      exact absurd isDigit (by decide)

theorem parseSigned_decimal (decimal : DecimalText number text) :
    parseSigned text = some (number : Int) := by
  obtain ⟨c, rest, letters, notMinus, notPlus, read⟩ := exists_toList_decimal decimal
  simp [parseSigned, letters, notMinus, notPlus, read]

theorem parseSigned_negated (decimal : DecimalText number text) :
    parseSigned ("-" ++ text) = some (-number : Int) := by
  obtain ⟨c, rest, letters, _, _, read⟩ := exists_toList_decimal decimal
  have signed : ("-" ++ text).toList = '-' :: c :: rest := by
    rw [String.toList_append, letters]
    rfl
  simp [parseSigned, signed, read]

theorem parseSigned_signed {number : Int} (decimal : SignedDecimalText number text) :
    parseSigned text = some number := by
  obtain ⟨size, rfl, unsigned⟩ | ⟨size, digits, rfl, rfl, unsigned⟩ := decimal
  · exact parseSigned_decimal unsigned
  · exact parseSigned_negated unsigned

theorem parseWithin_of_parseSigned {bits : Nat} {number : Int}
    (read : parseSigned text = some number)
    (fits : -2 ^ (bits - 1) ≤ number ∧ number < 2 ^ (bits - 1)) :
    parseWithin bits (some text) = .ok number := by
  simp [parseWithin, read, fits]

end DecimalTexts

/-! ## The word true -/

theorem toNat_toLower (c : Char) :
    c.toLower.toNat = if 0x41 ≤ c.toNat ∧ c.toNat ≤ 0x5A then c.toNat + 0x20 else c.toNat := by
  by_cases upper : 0x41 ≤ c.toNat ∧ c.toNat ≤ 0x5A
  · have bounds : c.val ≥ 'A'.val ∧ c.val ≤ 'Z'.val := upper
    delta Char.toLower
    rw [if_pos upper, dif_pos bounds]
    show (c.toNat + 0x20) % 2 ^ 32 = c.toNat + 0x20
    omega
  · have bounds : ¬ (c.val ≥ 'A'.val ∧ c.val ≤ 'Z'.val) := upper
    delta Char.toLower
    rw [if_neg upper, dif_neg bounds]

theorem toLower_eq_iff (upper lower c : Char) (isUpper : 0x41 ≤ upper.toNat ∧ upper.toNat ≤ 0x5A)
    (pair : lower.toNat = upper.toNat + 0x20) : c.toLower = lower ↔ c = lower ∨ c = upper := by
  rw [← Char.toNat_inj, toNat_toLower, ← @Char.toNat_inj c lower, ← @Char.toNat_inj c upper]
  split
  · omega
  · omega

/-- The word true, every letter in either case. -/
def ReadsTrue (text : String) : Prop :=
  ∃ t r u e, text.toList = [t, r, u, e] ∧
    (t = 't' ∨ t = 'T') ∧ (r = 'r' ∨ r = 'R') ∧ (u = 'u' ∨ u = 'U') ∧ (e = 'e' ∨ e = 'E')

theorem valueOf_iff {text : String} : Boolean.valueOf (some text) = true ↔ ReadsTrue text := by
  have isT := fun c => toLower_eq_iff 'T' 't' c (by decide) rfl
  have isR := fun c => toLower_eq_iff 'R' 'r' c (by decide) rfl
  have isU := fun c => toLower_eq_iff 'U' 'u' c (by decide) rfl
  have isE := fun c => toLower_eq_iff 'E' 'e' c (by decide) rfl
  simp only [Boolean.valueOf, beq_iff_eq, ReadsTrue]
  constructor
  · intro same
    obtain ⟨t, rest, letters, first, same⟩ := List.map_eq_cons_iff.mp same
    obtain ⟨r, rest, rfl, second, same⟩ := List.map_eq_cons_iff.mp same
    obtain ⟨u, rest, rfl, third, same⟩ := List.map_eq_cons_iff.mp same
    obtain ⟨e, rest, rfl, fourth, same⟩ := List.map_eq_cons_iff.mp same
    rw [List.map_eq_nil_iff.mp same] at letters
    exact ⟨t, r, u, e, letters, (isT t).mp first, (isR r).mp second, (isU u).mp third,
      (isE e).mp fourth⟩
  · rintro ⟨t, r, u, e, letters, first, second, third, fourth⟩
    rw [letters]
    simp only [List.map_cons, List.map_nil, (isT t).mpr first, (isR r).mpr second,
      (isU u).mpr third, (isE e).mpr fourth]

/-! ## Padded numbers -/

namespace LocalDate

theorem toList_padded (width value : Nat) : (padded width value).toList =
    List.replicate (width - (Nat.toDigits 10 value).length) '0' ++ Nat.toDigits 10 value := by
  simp [padded, Nat.toString_eq_repr, Nat.toList_repr, ← String.length_toList]

theorem isDigit_of_mem_padded {width value : Nat} {c : Char}
    (member : c ∈ (padded width value).toList) :
    c.isDigit := by
  rw [toList_padded] at member
  obtain zero | digit := List.mem_append.mp member
  · rw [(List.mem_replicate.mp zero).2]
    decide
  · exact Nat.isDigit_of_mem_toDigits (by decide) (by decide) digit

theorem length_padded {width value : Nat} (positive : 0 < width) (fits : value < 10 ^ width) :
    (padded width value).toList.length = width := by
  have short : (Nat.toDigits 10 value).length ≤ width :=
    (Nat.length_toDigits_le_iff (by decide) positive).mpr fits
  rw [toList_padded, List.length_append, List.length_replicate]
  omega

theorem length_padded_two {value : Nat} (fits : value < 100) : (padded 2 value).toList.length = 2 :=
  length_padded (by decide) fits

theorem asciiNumber_padded (width value : Nat) :
    asciiNumber (padded width value).toList = some value := by
  rw [asciiNumber_of_digits fun c => isDigit_of_mem_padded, toList_padded, Nat.ofDigitChars_append]
  simp

/-! ## Dates -/

/-- Dates whose text has a year of four digits and no sign. -/
def FourDigitYear (date : LocalDate) : Prop := 0 ≤ date.year ∧ date.year ≤ 9999

theorem toList_toText {date : LocalDate} (year : date.FourDigitYear) :
    date.toText.toList =
      (padded 4 date.year.natAbs).toList ++ '-' :: (padded 2 date.month).toList ++
      '-' :: (padded 2 date.day).toList := by
  have notNegative : ¬ date.year < 0 := Int.not_lt.mpr year.1
  have notLarge : ¬ date.year > 9999 := Int.not_lt.mpr year.2
  simp [toText, notNegative, notLarge]

theorem span_digits {digits : List Char} (allDigits : ∀ c ∈ digits, c.isDigit) (rest : List Char) :
    (digits ++ '-' :: rest).span (fun c => (asciiDigit c).isSome) = (digits, '-' :: rest) := by
  have isDigit : ∀ c ∈ digits, (asciiDigit c).isSome = true := by
    intro c member
    rw [asciiDigit_of_isDigit (allDigits c member)]
    rfl
  have stops : (asciiDigit '-').isSome = false := by decide
  rw [List.span_eq_takeWhile_dropWhile, List.takeWhile_append_of_pos isDigit,
    List.dropWhile_append_of_pos isDigit]
  simp [stops]

theorem parseYear_digits {digits : List Char} (allDigits : ∀ c ∈ digits, c.isDigit)
    (four : digits.length = 4)
    (rest : List Char) : parseYear (digits ++ '-' :: rest) =
      (asciiNumber digits).map fun year => ((year : Int), '-' :: rest) := by
  obtain ⟨first, others, rfl⟩ : ∃ first others, digits = first :: others := by
    cases digits with
    | nil => cases four
    | cons first others => exact ⟨first, others, rfl⟩
  have isDigit : first.isDigit := allDigits first List.mem_cons_self
  -- a digit is no sign, so the year is read by the last of the three forms
  have unsigned : first ≠ '+' ∧ first ≠ '-' := by
    constructor
    · rintro rfl
      exact absurd isDigit (by decide)
    · rintro rfl
      exact absurd isDigit (by decide)
  have read := span_digits allDigits rest
  simp only [List.cons_append] at read ⊢
  simp [parseYear, unsigned, read, four, -List.span_eq_takeWhile_dropWhile]

theorem of?_eq_some (date : LocalDate) : of? date.year date.month date.day = some date := by
  rw [of?, dif_pos date.valid]

theorem lengthOfMonth_le {year : Int} {month : Nat} : lengthOfMonth year month ≤ 31 := by
  unfold lengthOfMonth
  split
  · split <;> decide
  · split <;> decide

theorem day_le (date : LocalDate) : date.day ≤ 31 := by
  obtain ⟨_, _, _, _, _, day⟩ := date.valid
  exact Nat.le_trans day lengthOfMonth_le

theorem length_month (date : LocalDate) : (padded 2 date.month).toList.length = 2 := by
  obtain ⟨_, _, _, month, _, _⟩ := date.valid
  exact length_padded_two (by omega)

theorem length_day (date : LocalDate) : (padded 2 date.day).toList.length = 2 :=
  length_padded_two (by have := date.day_le; omega)

theorem length_year {date : LocalDate} (year : date.FourDigitYear) :
    (padded 4 date.year.natAbs).toList.length = 4 := by
  obtain ⟨notNegative, notLarge⟩ := year
  exact length_padded (by decide) (by omega)

theorem parse_toText {date : LocalDate} (year : date.FourDigitYear) :
    parse date.toText = .ok date := by
  -- month and day have two digits each, and the offset after them is empty
  obtain ⟨m₁, m₂, months⟩ := List.length_eq_two.mp date.length_month
  obtain ⟨d₁, d₂, days⟩ := List.length_eq_two.mp date.length_day
  have monthRead : asciiNumber [m₁, m₂] = some date.month :=
    months ▸ asciiNumber_padded 2 date.month
  have dayRead : asciiNumber [d₁, d₂] = some date.day := days ▸ asciiNumber_padded 2 date.day
  have yearRead :
      parseYear date.toText.toList = some (date.year, '-' :: m₁ :: m₂ :: '-' :: d₁ :: d₂ ::
      []) := by
    rw [toList_toText year, months, days, List.append_assoc, List.cons_append,
      parseYear_digits (fun c => isDigit_of_mem_padded) (length_year year), asciiNumber_padded]
    simp [Int.natAbs_of_nonneg year.1]
  simp only [parse, yearRead, monthRead, dayRead, isOffset, if_true, of?_eq_some]

/-! ## What was read -/

theorem span_before_dash (front rest : List Char) :
    let split := (front ++ '-' :: rest).span fun c => (asciiDigit c).isSome
    split.1.length ≤ front.length ∧ (split.1.length = front.length →
      split = (front, '-' :: rest)) := by
  have stops : (asciiDigit '-').isSome = false := by decide
  simp only [List.span_eq_takeWhile_dropWhile]
  induction front with
  | nil => simp [stops]
  | cons c front inductionHypothesis =>
    obtain ⟨bound, whole⟩ := inductionHypothesis
    by_cases digit : (asciiDigit c).isSome = true
    · simp only [List.cons_append, List.takeWhile_cons, List.dropWhile_cons, digit, if_true,
        List.length_cons,
        Nat.add_le_add_iff_right, Nat.add_right_cancel_iff, Prod.mk.injEq, List.cons.injEq,
          true_and] at bound whole ⊢
      exact ⟨bound, whole⟩
    · simp [digit]

theorem parseYear_four {y₁ y₂ y₃ y₄ : Char} {rest after : List Char} {year : Int}
    (read : parseYear (y₁ :: y₂ :: y₃ :: y₄ :: '-' :: rest) = some (year, after)) :
    ∃ number : Nat, asciiNumber [y₁, y₂, y₃, y₄] = some number ∧ year = number ∧
      after = '-' :: rest := by
  -- a sign would leave three digits only, so the four are read as they stand
  have three := (span_before_dash [y₂, y₃, y₄] rest).1
  have four := (span_before_dash [y₁, y₂, y₃, y₄] rest).2
  simp only [List.cons_append, List.nil_append, List.length_cons, List.length_nil] at three four
  unfold parseYear at read
  split at read
  · rename_i unsigned same
    cases same
    simp only at read
    generalize List.span (fun c => (asciiDigit c).isSome) (y₂ :: y₃ :: y₄ :: '-' :: rest) =
      split at three read
    rw [if_neg (by omega)] at read
    cases read
  · rename_i unsigned same
    cases same
    simp only at read
    generalize List.span (fun c => (asciiDigit c).isSome) (y₂ :: y₃ :: y₄ :: '-' :: rest) =
      split at three read
    rw [if_neg (by omega)] at read
    cases read
  · simp only at read
    split at read
    · rename_i length
      simp only [four length, Option.map_eq_some_iff] at read
      obtain ⟨number, digits, same⟩ := read
      cases same
      obtain ⟨size, digits', same⟩ := Option.bind_eq_some_iff.mp digits
      cases same
      exact ⟨size, digits', rfl, rfl⟩
    · cases read

theorem of_parse {text : String} {date : LocalDate} (read : parse text = .ok date) :
    ∃ year m₁ m₂ d₁ d₂ offset month day,
      parseYear text.toList = some (year, '-' :: m₁ :: m₂ :: '-' :: d₁ :: d₂ :: offset) ∧
      asciiNumber [m₁, m₂] = some month ∧ asciiNumber [d₁, d₂] = some day ∧
      of? year month day = some date := by
  unfold parse at read
  simp only at read
  split at read
  · rename_i date' parsed
    cases read
    split at parsed
    · rename_i year m₁ m₂ d₁ d₂ offset isYear
      split at parsed
      · rename_i month day isMonth isDay
        split at parsed
        · exact ⟨year, m₁, m₂, d₁, d₂, offset, month, day, isYear, isMonth, isDay, parsed⟩
        · cases parsed
      · cases parsed
    · cases parsed
  · cases read

end LocalDate

/-! ## Times of day -/

theorem LocalTime.parseHHmm_padded {hour minute : Nat} (hours : hour < 24) (minutes : minute < 60) :
    LocalTime.parseHHmm (LocalDate.padded 2 hour ++ LocalDate.padded 2 minute) =
      .ok (.ofMillis (hour * millisPerHour + minute * millisPerMinute)) := by
  obtain ⟨h₁, h₂, hourText⟩ := List.length_eq_two.mp
    (LocalDate.length_padded_two (by omega : hour < 100))
  obtain ⟨m₁, m₂, minuteText⟩ := List.length_eq_two.mp
    (LocalDate.length_padded_two (by omega : minute < 100))
  have hourRead : asciiNumber [h₁, h₂] = some hour := hourText ▸ LocalDate.asciiNumber_padded 2 hour
  have minuteRead : asciiNumber [m₁, m₂] = some minute :=
    minuteText ▸ LocalDate.asciiNumber_padded 2 minute
  simp [parseHHmm, hourText, minuteText, hourRead, minuteRead, hours, minutes]

end TrainWatch.Java
