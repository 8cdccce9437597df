import Mathlib.Tactic.IntervalCases
import Wavetable.Catalogue.Timestamp

/-!
Counts of seconds as dates. The year, the month and the day of a second within the years 1 to 9999
are those of a day of the calendar.
-/

namespace Wavetable.Catalogue.Timestamp

theorem isLeapYear_iff {year : Nat}
    : isLeapYear year = true ↔ year % 4 = 0 ∧ (year % 100 ≠ 0 ∨ year % 400 = 0) := by
  simp [isLeapYear]

/-- A day of a cycle of four hundred years, by its century, the four years and the year in them and
the day of the year. A year has a day more only at the end of four years, and a century only at the
end of the cycle.
-/
structure CycleDay where
  century : Nat
  leap : Nat
  year : Nat
  day : Nat
  century_lt : century < 4
  leap_lt : leap < 25
  year_lt : year < 4
  day_le : day ≤ 365
  leapDay : day = 365 → year = 3 ∧ (leap < 24 ∨ century = 3)

namespace CycleDay

/-- The day, counted from the beginning of the cycle. -/
def ofCycle (d : CycleDay) : Nat :=
  36524 * d.century + 1461 * d.leap + 365 * d.year + d.day

/-- The year, counted from the beginning of the cycle. -/
def yearOfCycle (d : CycleDay) : Nat :=
  100 * d.century + 4 * d.leap + d.year

/-- Every day of a cycle has such parts. -/
theorem exists_ofCycle {day : Nat} (inside : day < 146097) : ∃ d : CycleDay, d.ofCycle = day := by
  let century := min 3 (day / 36524)
  let ofCentury := day - 36524 * century
  let leap := ofCentury / 1461
  let ofLeap := ofCentury % 1461
  let year := min 3 (ofLeap / 365)
  refine ⟨⟨century, leap, year, ofLeap - 365 * year, ?_, ?_, ?_, ?_, ?_⟩, ?_⟩ <;>
    simp only [ofCycle, century, ofCentury, leap, ofLeap, year] <;> omega

variable (d : CycleDay)

theorem ofCycle_div_cycle
    : d.ofCycle / 146096
      = if d.century = 3 ∧ d.leap = 24 ∧ d.year = 3 ∧ d.day = 365 then 1 else 0 := by
  obtain ⟨century, leap, year, day, _, _, _, _, _⟩ := d
  simp only [ofCycle]
  split <;> omega

theorem ofCycle_div_century : d.ofCycle / 36524 = d.century + d.ofCycle / 146096 := by
  rw [ofCycle_div_cycle]
  obtain ⟨century, leap, year, day, _, _, _, _, _⟩ := d
  simp only [ofCycle]
  split <;> omega

theorem ofCycle_div_leap
    : d.ofCycle / 1460
      = 25 * d.century + d.leap
        + if 1460 ≤ 24 * d.century + d.leap + 365 * d.year + d.day then 1 else 0 := by
  obtain ⟨century, leap, year, day, _, _, _, _, _⟩ := d
  simp only [ofCycle]
  split <;> omega

theorem ofCycle_lt : d.ofCycle < 146097 := by
  obtain ⟨century, leap, year, day, _, _, _, _, _⟩ := d
  simp only [ofCycle]
  omega

/-- The year of a day is computed from the days alone. -/
theorem yearOfCycle_eq
    : (d.ofCycle - d.ofCycle / 1460 + d.ofCycle / 36524 - d.ofCycle / 146096) / 365
      = d.yearOfCycle := by
  rw [ofCycle_div_century, ofCycle_div_leap]
  obtain ⟨century, leap, year, day, _, _, _, _, _⟩ := d
  simp only [ofCycle, yearOfCycle]
  split <;> omega

/-- So is the day of the year. -/
theorem day_eq
    : d.ofCycle - (365 * d.yearOfCycle + d.yearOfCycle / 4 - d.yearOfCycle / 100) = d.day := by
  obtain ⟨century, leap, year, day, _, _, _, _, _⟩ := d
  simp only [ofCycle, yearOfCycle]
  omega

/-- The additional day of a year that begins in March lies in a leap year. -/
theorem isLeapYear_of_leapDay (last : d.day = 365) (cycle : Nat)
    : isLeapYear (d.yearOfCycle + 400 * cycle + 1) = true := by
  obtain ⟨century, leap, year, day, _, _, _, _, leapDay⟩ := d
  obtain ⟨rfl, full⟩ := leapDay last
  rw [isLeapYear_iff]
  simp only [yearOfCycle]
  omega

end CycleDay

/-- The month of a day of a year that begins in March, by a count from March on. -/
def monthOfShifted (shifted : Nat) : Nat :=
  if shifted < 10 then shifted + 3 else shifted - 9

/-- The days from the first of January on are at the end of a year that begins in March. -/
theorem monthOfShifted_le_two_iff {day : Nat} (inside : day ≤ 365)
    : monthOfShifted ((5 * day + 2) / 153) ≤ 2 ↔ 306 ≤ day := by
  unfold monthOfShifted
  split <;> omega

/-- A day of a year that begins in March is a day of its month. -/
theorem day_of_month {day year : Nat} (inside : day ≤ 365)
    (leapDay : day = 365 → isLeapYear year = true)
    : let shifted := (5 * day + 2) / 153
      1 ≤ monthOfShifted shifted ∧ monthOfShifted shifted ≤ 12
        ∧ day - (153 * shifted + 2) / 5 + 1 ≤ daysInMonth year (monthOfShifted shifted) := by
  intro shifted
  have few : shifted < 12 := by omega
  have fromDay : 153 * shifted ≤ 5 * day + 2 := by omega
  have upToDay : 5 * day + 2 < 153 * shifted + 153 := by omega
  clear_value shifted
  by_cases february : shifted = 11
  · subst february
    have month : monthOfShifted 11 = 2 := rfl
    have days : daysInMonth year 2 = if isLeapYear year then 29 else 28 := rfl
    rw [month, days]
    split
    next => omega
    next common =>
      have short : day ≠ 365 := fun last => common (leapDay last)
      omega
  · interval_cases shifted <;> simp [monthOfShifted, daysInMonth] <;> omega

/-- The date of a second whose day is a day of a cycle. A year that begins in March ends in the next
year of the calendar.
-/
theorem civil_eq {second : Int} {cycle : Nat} {d : CycleDay}
    (day : second / 86400 + daysToEpoch = 146097 * cycle + d.ofCycle)
    : civil second
      = (((d.yearOfCycle + 400 * cycle
            + if monthOfShifted ((5 * d.day + 2) / 153) ≤ 2 then 1 else 0 : Nat) : Int),
          monthOfShifted ((5 * d.day + 2) / 153),
          d.day - (153 * ((5 * d.day + 2) / 153) + 2) / 5 + 1) := by
  have inside := d.ofCycle_lt
  have whole : (146097 * (cycle : Int) + d.ofCycle) / 146097 = cycle := by omega
  have part : ((146097 * (cycle : Int) + d.ofCycle) % 146097).toNat = d.ofCycle := by omega
  simp only [civil, day, whole, part, CycleDay.yearOfCycle_eq, CycleDay.day_eq]
  push_cast
  rfl

/-- The date of a second within the years 1 to 9999 is a day of the calendar. -/
theorem civil_valid {second : Int} (after : firstSecond ≤ second) (before : second ≤ lastSecond)
    : ∃ year month day : Nat, civil second = ((year : Int), month, day)
        ∧ 1 ≤ year ∧ year ≤ 9999 ∧ 1 ≤ month ∧ month ≤ 12
        ∧ 1 ≤ day ∧ day ≤ daysInMonth year month := by
  have first : 306 ≤ second / 86400 + daysToEpoch := by
    simp only [firstSecond, daysToEpoch] at *
    omega
  have last : second / 86400 + daysToEpoch ≤ 3652364 := by
    simp only [lastSecond, daysToEpoch] at *
    omega
  generalize written : second / 86400 + daysToEpoch = days at *
  have inside : (days % 146097).toNat < 146097 := by omega
  obtain ⟨d, part⟩ := CycleDay.exists_ofCycle inside
  obtain ⟨cycle, whole⟩ : ∃ cycle : Nat, days / 146097 = cycle := ⟨(days / 146097).toNat, by omega⟩
  have sum : days = 146097 * cycle + d.ofCycle := by omega
  refine ⟨_, _, _, civil_eq (written.trans sum), ?_⟩
  have january := monthOfShifted_le_two_iff d.day_le
  have leapDay : d.day = 365 → isLeapYear (d.yearOfCycle + 400 * cycle
      + if monthOfShifted ((5 * d.day + 2) / 153) ≤ 2 then 1 else 0) = true := by
    intro longYear
    rw [if_pos (january.mpr (by omega))]
    exact d.isLeapYear_of_leapDay longYear cycle
  obtain ⟨fromOne, upToTwelve, inMonth⟩ := day_of_month d.day_le leapDay
  refine ⟨?_, ?_, fromOne, upToTwelve, Nat.succ_pos _, inMonth⟩ <;>
    simp only [january] <;>
    obtain ⟨century, leap, year, day, _, _, _, _, _⟩ := d <;>
    simp only [CycleDay.ofCycle, CycleDay.yearOfCycle] at * <;>
    split <;> omega

end Wavetable.Catalogue.Timestamp
