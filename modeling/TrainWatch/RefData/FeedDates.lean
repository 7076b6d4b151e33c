import TrainWatch.RefData.LoadSchedules

/-! # Dates as the script and as the import read them

`strptime` accepts texts that `LocalDate.parse` rejects, with a month of one digit or with
digits of another script, and the other way round.  Where both accept, they agree.
-/

namespace TrainWatch.RefData

open TrainWatch.Java

namespace CreateSchedules

theorem asciiDigit_mem {c : Char} {value : Nat} (read : asciiDigit c = some value) :
    c ∈ ['0', '1', '2', '3', '4', '5', '6', '7', '8', '9'] := by
  obtain ⟨lower, upper⟩ : 48 ≤ c.toNat ∧ c.toNat ≤ 57 :=
    Char.isDigit_iff_toNat.mp (asciiDigit_eq_some read).1
  rw [← Char.ofNat_toNat c]
  generalize c.toNat = point at lower upper ⊢
  interval_cases point <;> decide

theorem digit_agrees {c : Char} {value value' : Nat} (read : digit c = some value)
    (read' : asciiDigit c = some value') :
    value = value' := by
  obtain ⟨isDigit, rfl⟩ := asciiDigit_eq_some read'
  exact Option.some.inj (read.symm.trans (digit_of_isDigit isDigit))

theorem positiveDigit_agrees {c : Char} {value value' : Nat} (read : positiveDigit c = some value)
    (read' : asciiDigit c = some value') : value = value' := by
  unfold positiveDigit at read
  split at read
  · cases read
    exact (asciiDigit_eq_some read').2.symm
  · cases read

theorem strptimeMonth_agrees {m₁ m₂ : Char} {rest rest' : List Char} {month month' : Nat}
    (read : strptimeMonth (m₁ :: m₂ :: '-' :: rest) = some (month, rest'))
    (read' : asciiNumber [m₁, m₂] = some month') : month = month' ∧ rest' = rest := by
  unfold strptimeMonth at read
  split at read
  · -- one digit: its dash would have to be a digit
    rename_i c others same
    cases same
    obtain ⟨_, _, _, units, _⟩ := asciiNumber_pair read'
    cases units
  · rename_i c others _ same
    cases same
    obtain ⟨value, positive, same⟩ := Option.map_eq_some_iff.mp read
    cases same
    obtain ⟨u, units, rfl⟩ := asciiNumber_after (by decide : asciiDigit '0' = some 0) read'
    exact ⟨by rw [positiveDigit_agrees positive units]; omega, rfl⟩
  · rename_i others same
    cases same
    cases read
    exact ⟨Option.some.inj ((rfl : asciiNumber ['1', '0'] = some 10).symm.trans read'), rfl⟩
  · rename_i others same
    cases same
    cases read
    exact ⟨Option.some.inj ((rfl : asciiNumber ['1', '1'] = some 11).symm.trans read'), rfl⟩
  · rename_i others same
    cases same
    cases read
    exact ⟨Option.some.inj ((rfl : asciiNumber ['1', '2'] = some 12).symm.trans read'), rfl⟩
  · cases read

theorem strptimeDay_agrees {d₁ d₂ : Char} {offset : List Char} {day day' : Nat}
    (read : strptimeDay (d₁ :: d₂ :: offset) = some day)
    (read' : asciiNumber [d₁, d₂] = some day') :
    day = day' ∧ offset = [] := by
  obtain ⟨t, u, isTens, isUnits, rfl⟩ := asciiNumber_pair read'
  have tens := asciiDigit_mem isTens
  simp only [List.mem_cons, List.not_mem_nil, or_false] at tens
  cases offset with
  | cons third rest =>
      rcases tens with rfl | rfl | rfl | rfl | rfl | rfl | rfl | rfl | rfl | rfl <;> cases read
  | nil =>
    refine ⟨?_, rfl⟩
    rcases tens with rfl | rfl | rfl | rfl | rfl | rfl | rfl | rfl | rfl | rfl
    · cases isTens
      have alone : positiveDigit d₂ = some day := read
      exact (positiveDigit_agrees alone isUnits).trans (Nat.zero_add u).symm
    · cases isTens
      obtain ⟨value, digit, rfl⟩ := Option.map_eq_some_iff.mp read
      exact congrArg (10 + ·) (digit_agrees digit isUnits)
    · cases isTens
      obtain ⟨value, digit, rfl⟩ := Option.map_eq_some_iff.mp read
      exact congrArg (20 + ·) (digit_agrees digit isUnits)
    · -- a month has no more than thirty-one days
      have units := asciiDigit_mem isUnits
      simp only [List.mem_cons, List.not_mem_nil, or_false] at units
      rcases units with rfl | rfl | rfl | rfl | rfl | rfl | rfl | rfl | rfl | rfl
      · cases isTens; cases isUnits; cases read; rfl
      · cases isTens; cases isUnits; cases read; rfl
      all_goals cases read
    all_goals cases read

/-- A text that both the script and the import read as a date is the same date to them. -/
theorem parse_agrees {text : String} {date date' : LocalDate}
    (read : strptime (some text) = some date)
    (read' : LocalDate.parse text = .ok date') : date' = date := by
  obtain ⟨year', m₁, m₂, d₁, d₂, offset, month', day', isYear', isMonth', isDay', made'⟩ :=
    LocalDate.of_parse read'
  unfold strptime at read
  split at read
  · rename_i y₁ y₂ y₃ y₄ rest letters
    have letters : text.toList = y₁ :: y₂ :: y₃ :: y₄ :: '-' :: rest := Option.some.inj letters
    simp only [Option.bind_eq_bind, Option.bind_eq_some_iff] at read
    obtain ⟨year, isYear, ⟨month, afterMonth⟩, isMonth, day, isDay, made⟩ := read
    -- year, month and day one after the other
    rw [letters] at isYear'
    obtain ⟨number, isNumber, rfl, sameRest⟩ := LocalDate.parseYear_four isYear'
    cases (decimalNumber_of_asciiNumber (fun _ => digit_of_isDigit) isNumber).symm.trans isYear
    cases sameRest
    obtain ⟨rfl, rfl⟩ := strptimeMonth_agrees isMonth isMonth'
    obtain ⟨rfl, rfl⟩ := strptimeDay_agrees isDay isDay'
    split at made
    · cases made
    · exact Option.some.inj (made'.symm.trans made)
  · cases read

end CreateSchedules

end TrainWatch.RefData
