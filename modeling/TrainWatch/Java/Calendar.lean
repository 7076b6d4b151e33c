import TrainWatch.Java.Texts
import Mathlib.Data.Int.Order.Basic
import Mathlib.Data.Prod.Lex

/-! # The order of the dates

Dates are ordered by year, month and day.  The day after a date is the least one above it
and the day before is the greatest one below, so a strict comparison with either is a
comparison with the date itself.
-/

namespace TrainWatch.Java

namespace LocalDate

def key (date : LocalDate) : ℤ ×ₗ ℕ ×ₗ ℕ := toLex (date.year, toLex (date.month, date.day))

theorem key_injective : Function.Injective key := by
  intro date other same
  have fields : (date.year, date.month, date.day) = (other.year, other.month, other.day) := same
  simp only [Prod.mk.injEq] at fields
  cases date
  cases other
  simp_all

instance : LinearOrder LocalDate := LinearOrder.lift' key key_injective

theorem lt_iff (date other : LocalDate) :
    date < other ↔ date.year < other.year ∨ date.year = other.year ∧
    (date.month < other.month ∨ date.month = other.month ∧ date.day < other.day) := by
  have keys : date < other ↔ key date < key other := Iff.rfl
  rw [keys, key, key, Prod.Lex.toLex_lt_toLex, Prod.Lex.toLex_lt_toLex]

theorem isBefore_eq_true {date other : LocalDate} : date.isBefore other = true ↔ date < other := by
  rw [lt_iff, isBefore, decide_eq_true_iff]

/-! ## Neighbours -/

section Neighbours

variable {date neighbour other : LocalDate}

theorem of?_eq_some_iff {year : Int} {month day : Nat} :
    of? year month day = some date ↔ date.year = year ∧ date.month = month ∧ date.day = day := by
  constructor
  · intro made
    unfold of? at made
    split at made
    · cases made
      exact ⟨rfl, rfl, rfl⟩
    · cases made
  · rintro ⟨rfl, rfl, rfl⟩
    exact of?_eq_some date

/-- The day after is in the same month, or starts the next one, or starts the next year. -/
theorem next_cases (isNext : date.next = some neighbour) :
    (neighbour.year = date.year ∧ neighbour.month = date.month ∧ neighbour.day = date.day + 1) ∨
      date.day = lengthOfMonth date.year date.month ∧
        ((neighbour.year = date.year ∧ neighbour.month = date.month + 1 ∧ neighbour.day = 1) ∨
          date.month = 12 ∧ neighbour.year = date.year + 1 ∧ neighbour.month = 1 ∧
            neighbour.day = 1) := by
  obtain ⟨_, _, _, lastMonth, _, lastDay⟩ := date.valid
  unfold next at isNext
  split at isNext
  · exact .inl (of?_eq_some_iff.mp isNext)
  · rename_i monthEnds
    have last : date.day = lengthOfMonth date.year date.month :=
      le_antisymm lastDay (not_lt.mp monthEnds)
    split at isNext
    · exact .inr ⟨last, .inl (of?_eq_some_iff.mp isNext)⟩
    · rename_i yearEnds
      exact .inr ⟨last, .inr ⟨le_antisymm lastMonth (not_lt.mp yearEnds),
        of?_eq_some_iff.mp isNext⟩⟩

theorem lt_next_iff (isNext : date.next = some neighbour) : other < neighbour ↔ other ≤ date := by
  obtain ⟨_, _, firstMonth, lastMonth, firstDay, lastDay⟩ := date.valid
  obtain ⟨_, _, _, lastMonth', firstDay', lastDay'⟩ := other.valid
  rw [← not_lt, lt_iff, lt_iff]
  obtain ⟨year, month, day⟩ | ⟨last, starts⟩ := next_cases isNext
  · omega
  · -- no date of this month comes after its last day
    have noLater : other.year = date.year → other.month = date.month → other.day ≤ date.day := by
      intro sameYear sameMonth
      rw [sameYear, sameMonth] at lastDay'
      omega
    omega

theorem previous_lt_iff (isPrevious : date.previous = some neighbour) :
    neighbour < other ↔ date ≤ other := by
  obtain ⟨_, _, firstMonth, lastMonth, firstDay, lastDay⟩ := date.valid
  obtain ⟨_, _, firstMonth', lastMonth', firstDay', lastDay'⟩ := other.valid
  rw [← not_lt, lt_iff, lt_iff]
  unfold previous at isPrevious
  split at isPrevious
  · obtain ⟨year, month, day⟩ := of?_eq_some_iff.mp isPrevious
    omega
  · split at isPrevious
    · obtain ⟨year, month, day⟩ := of?_eq_some_iff.mp isPrevious
      have noLater : other.year = neighbour.year → other.month = neighbour.month →
          other.day ≤ neighbour.day := by
        intro sameYear sameMonth
        rw [sameYear, sameMonth, year, month] at lastDay'
        omega
      omega
    · obtain ⟨year, month, day⟩ := of?_eq_some_iff.mp isPrevious
      have noLater : other.month = 12 → other.day ≤ 31 := by
        intro december
        rw [december] at lastDay'
        exact lastDay'
      omega

end Neighbours

/-! ## Some days later -/

section DaysLater

variable {date later : LocalDate}

theorem le_of_plusDays {days : Nat} (shifted : date.plusDays days = some later) : date ≤ later := by
  induction days generalizing later with
  | zero =>
    cases shifted
    exact le_refl _
  | succ days inductionHypothesis =>
    obtain ⟨dayBefore, earlier, isNext⟩ := Option.bind_eq_some_iff.mp shifted
    exact (inductionHypothesis earlier).trans ((lt_next_iff isNext).mpr (le_refl _)).le

/-- The number of a date in a calendar whose months all have thirty-one days. -/
def serial (date : LocalDate) : Int := 372 * date.year + 31 * date.month + date.day

theorem serial_lt_of_next (isNext : date.next = some later) : date.serial < later.serial := by
  obtain ⟨_, _, _, lastMonth, _, _⟩ := date.valid
  have lastDay := date.day_le
  have cases := next_cases isNext
  unfold serial
  omega

/-- That calendar has every day and some more, so its numbers grow by as many at least. -/
theorem serial_le_of_plusDays {days : Nat} (shifted : date.plusDays days = some later) :
    date.serial + days ≤ later.serial := by
  induction days generalizing later with
  | zero =>
    cases shifted
    omega
  | succ days inductionHypothesis =>
    obtain ⟨dayBefore, earlier, isNext⟩ := Option.bind_eq_some_iff.mp shifted
    have reached := inductionHypothesis earlier
    have step := serial_lt_of_next isNext
    omega

end DaysLater

end LocalDate

end TrainWatch.Java
