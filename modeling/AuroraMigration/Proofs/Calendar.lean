import AuroraMigration.Instant
import Mathlib.Data.Int.Init
import Mathlib.Tactic.IntervalCases

/-!
# The Gregorian calendar

The calendar, stated by the lengths of its years and months, in both directions
without an end. The number of a day is found by counting whole years, whole
months and days from the start of 1970. The main statement says that the date
that is found for a number of days is a date of the calendar, and the one that
day has.
-/

namespace AuroraMigration

/-! ## Years, months and days -/

/-- Whether a year has a leap day: every fourth year has, of full centuries only every fourth. -/
def isLeapYear (year : Int) : Bool :=
  year % 4 == 0 && (year % 100 != 0 || year % 400 == 0)

/-- Number of days of a year. -/
def yearLength (year : Int) : Int :=
  if isLeapYear year then 366 else 365

/-- Number of days of a month of a year, months counted from one. -/
def monthLength (year : Int) (month : Nat) : Nat :=
  if month = 2 then if isLeapYear year then 29 else 28
  else if month = 4 ∨ month = 6 ∨ month = 9 ∨ month = 11 then 30
  else 31

theorem monthLength_le (year : Int) (month : Nat) : monthLength year month ≤ 31 := by
  unfold monthLength
  split
  · split <;> omega
  · split <;> omega

/-- Whether the calendar has this date. -/
structure Date.Valid (date : Date) : Prop where
  month_pos : 1 ≤ date.month
  month_le : date.month ≤ 12
  day_pos : 1 ≤ date.day
  day_le : date.day ≤ monthLength date.year date.month

/-- Number of days of a year and the years after it, as many in all as `count`. -/
def yearsLength (first : Int) (count : Nat) : Int :=
  ((List.range count).map fun n : Nat => yearLength (first + n)).sum

/-- Number of days from the start of 1970 to the start of a year, negative for years before. -/
def daysToYear (year : Int) : Int :=
  yearsLength 1970 (year - 1970).toNat - yearsLength year (1970 - year).toNat

/-- Number of days from the start of a year to the start of a month of it. -/
def daysToMonth (year : Int) (month : Nat) : Nat :=
  ((List.range (month - 1)).map fun n => monthLength year (n + 1)).sum

/-- Number of days from the first of January 1970 to a date. -/
def Date.dayNumber (date : Date) : Int :=
  daysToYear date.year + daysToMonth date.year date.month + (date.day - 1)

theorem Date.valid_mk {year : Int} {month day : Nat} (hmonth : 1 ≤ month ∧ month ≤ 12)
    (hday : 1 ≤ day ∧ day ≤ monthLength year month) : Date.Valid ⟨year, month, day⟩ :=
  ⟨hmonth.1, hmonth.2, hday.1, hday.2⟩

theorem Date.dayNumber_mk (year : Int) (month day : Nat) :
    Date.dayNumber ⟨year, month, day⟩ =
      daysToYear year + daysToMonth year month + (day - 1) := rfl

/-! ## Counting years -/

@[simp] theorem yearsLength_zero (first : Int) : yearsLength first 0 = 0 := rfl

theorem yearsLength_last (first : Int) (count : Nat) :
    yearsLength first (count + 1) = yearsLength first count + yearLength (first + count) := by
  simp [yearsLength, List.range_succ]

theorem yearsLength_first (first : Int) (count : Nat) :
    yearsLength first (count + 1) = yearLength first + yearsLength (first + 1) count := by
  have hshift : ∀ n : Nat, first + ((n : Int) + 1) = first + 1 + n := by omega
  simp [yearsLength, List.range_succ_eq_map, Function.comp_def, hshift]

theorem daysToYear_succ (year : Int) :
    daysToYear (year + 1) = daysToYear year + yearLength year := by
  unfold daysToYear
  by_cases h : 1970 ≤ year
  · have hcount : (year + 1 - 1970).toNat = (year - 1970).toNat + 1 := by omega
    have hlast : 1970 + ((year - 1970).toNat : Int) = year := by omega
    have hnone : (1970 - year).toNat = 0 ∧ (1970 - (year + 1)).toNat = 0 := by omega
    rw [hcount, yearsLength_last, hlast, hnone.1, hnone.2, yearsLength_zero, yearsLength_zero]
    omega
  · have hcount : (1970 - year).toNat = (1970 - (year + 1)).toNat + 1 := by omega
    have hnone : (year - 1970).toNat = 0 ∧ (year + 1 - 1970).toNat = 0 := by omega
    rw [hcount, yearsLength_first, hnone.1, hnone.2, yearsLength_zero]
    omega

/-- A year has 365 days, and one more for each leap year before the year. -/
theorem daysToYear_eq (year : Int) :
    daysToYear year =
      365 * (year - 1970) + ((year - 1) / 4 - (year - 1) / 100 + (year - 1) / 400) - 477 := by
  have hstep : ∀ y : Int, yearLength y = 365 + (y / 4 - y / 100 + y / 400) -
      ((y - 1) / 4 - (y - 1) / 100 + (y - 1) / 400) := by
    intro y
    simp only [yearLength, isLeapYear, Bool.and_eq_true, Bool.or_eq_true, beq_iff_eq, bne_iff_ne]
    split <;> omega
  induction year using Int.inductionOn' (b := 1970) with
  | zero => rfl
  | succ year _ ih =>
      rw [daysToYear_succ, ih, hstep, Int.add_sub_cancel]
      omega
  | pred year _ ih =>
      have hprevious := daysToYear_succ (year - 1)
      rw [Int.sub_add_cancel, ih, hstep] at hprevious
      omega

/-! ## Finding the date of a day -/

/-- A span that is found holds the place, and the spans before it make up the rest. -/
theorem locate_spec (lengths : List Nat) {offset : Nat} (h : offset < lengths.sum) :
    ∃ length, lengths[(locate lengths offset).1]? = some length ∧
      (locate lengths offset).2 < length ∧
      (lengths.take (locate lengths offset).1).sum + (locate lengths offset).2 = offset := by
  induction lengths generalizing offset with
  | nil => simp at h
  | cons first lengths ih =>
      by_cases hfirst : offset < first
      · exact ⟨first, by simp [locate, hfirst]⟩
      · rw [List.sum_cons] at h
        obtain ⟨length, hlength, hplace, hsum⟩ :=
          ih (show offset - first < lengths.sum by omega)
        simp only [locate, hfirst, if_false]
        refine ⟨length, hlength, hplace, ?_⟩
        rw [List.take_succ_cons, List.sum_cons]
        omega

/--
The years before a day of a cycle of 400 years have 365 days each and leap days
between them, and the last day of a year that has 366 is a leap day.
-/
theorem yearInCycle_spec {day : Nat} (h : day < 146097) :
    (yearInCycle day).1 < 400 ∧
      day + (yearInCycle day).1 / 100 =
        365 * (yearInCycle day).1 + (yearInCycle day).1 / 4 + (yearInCycle day).2 ∧
      (yearInCycle day).2 ≤ 365 ∧
      ((yearInCycle day).2 = 365 → isLeapYear ((yearInCycle day).1 + 1) = true) := by
  simp only [yearInCycle, isLeapYear, Bool.and_eq_true, Bool.or_eq_true, beq_iff_eq, bne_iff_ne]
  generalize hcentury : min 3 (day / 36524) = century
  have hinCentury : century ≤ 3 ∧ 36524 * century ≤ day ∧
      (day - 36524 * century < 36524 ∨ (century = 3 ∧ day - 36524 * century < 36525)) := by omega
  generalize hrest : day - 36524 * century = inCentury at hinCentury ⊢
  generalize hgroup : inCentury / 1461 = group
  have hinGroup : group ≤ 24 ∧ 1461 * group ≤ inCentury ∧ inCentury - 1461 * group < 1461 := by
    omega
  generalize hrest' : inCentury - 1461 * group = inGroup at hinGroup ⊢
  generalize hyear : min 3 (inGroup / 365) = year
  have hinYear : year ≤ 3 ∧ 365 * year ≤ inGroup ∧
      (inGroup - 365 * year < 365 ∨ (year = 3 ∧ inGroup - 365 * year = 365)) := by omega
  have hfourth : (100 * century + 4 * group + year) / 4 = 25 * century + group := by omega
  have hhundredth : (100 * century + 4 * group + year) / 100 = century := by omega
  refine ⟨by omega, ?_, by omega, fun hlast => ?_⟩
  · rw [hfourth, hhundredth]
    omega
  · omega

/-! ## Months from March on -/

/-- The months of a year from March on have the same lengths in all years. -/
theorem monthLength_from_march (year : Int) {index : Nat} (h : index < 10) :
    monthLengths[index]? = some (monthLength year (index + 3)) := by
  interval_cases index <;> rfl

/-- A month from March on starts as many days before the next year as the calendar says. -/
theorem daysToMonth_from_march (year : Int) {index : Nat} (h : index < 10) :
    daysToMonth year (index + 3) + 306 = yearLength year + (monthLengths.take index).sum := by
  unfold daysToMonth yearLength
  interval_cases index <;>
    simp [List.range_succ, monthLength, monthLengths] <;> split <;> rfl

/--
The date of a day that is given by a year from March on, a month of it and a
place in the month. The last of 366 days is the leap day of the next year.
-/
theorem date_from_march (year : Int) {index place length : Nat}
    (hlength : monthLengths[index]? = some length) (hplace : place < length)
    (hleap : (monthLengths.take index).sum + place = 365 → isLeapYear (year + 1) = true) :
    let date : Date :=
      { year := year + (if index < 10 then 0 else 1)
        month := if index < 10 then index + 3 else index - 9
        day := place + 1 }
    date.Valid ∧
      date.dayNumber =
        daysToYear (year + 1) - 306 + ((monthLengths.take index).sum + place : Nat) := by
  intro date
  have hindex : index < 12 := (List.getElem?_eq_some_iff.1 hlength).1
  by_cases hmarch : index < 10
  · have hdate : date = ⟨year, index + 3, place + 1⟩ := by simp [date, hmarch]
    rw [monthLength_from_march year hmarch, Option.some.injEq] at hlength
    have hmonth := daysToMonth_from_march year hmarch
    rw [hdate, Date.dayNumber_mk, daysToYear_succ]
    exact ⟨Date.valid_mk (by omega) (by omega), by omega⟩
  · obtain rfl | rfl : index = 10 ∨ index = 11 := by omega
    · have hdate : date = ⟨year + 1, 1, place + 1⟩ := rfl
      cases hlength
      have hsum : (monthLengths.take 10).sum = 306 := rfl
      have hjanuary : monthLength (year + 1) 1 = 31 := rfl
      have hdays : daysToMonth (year + 1) 1 = 0 := rfl
      rw [hdate, Date.dayNumber_mk]
      exact ⟨Date.valid_mk (by omega) (by omega), by omega⟩
    · have hdate : date = ⟨year + 1, 2, place + 1⟩ := rfl
      cases hlength
      have hsum : (monthLengths.take 11).sum = 337 := rfl
      have hfebruary : place + 1 ≤ monthLength (year + 1) 2 := by
        simp only [monthLength, if_true]
        split
        · omega
        · rename_i hcommon
          have hlast : place ≠ 28 := fun hlast => hcommon (hleap (by omega))
          omega
      have hdays : daysToMonth (year + 1) 2 = 31 := rfl
      rw [hdate, Date.dayNumber_mk]
      exact ⟨Date.valid_mk (by omega) (by omega), by omega⟩

/-- Leap years come back after 400 years. -/
theorem isLeapYear_cycle (cycle year : Int) :
    isLeapYear (400 * cycle + year) = isLeapYear year := by
  have hfour : (400 * cycle + year) % 4 = year % 4 := by omega
  have hhundred : (400 * cycle + year) % 100 = year % 100 := by omega
  have hcycle : (400 * cycle + year) % 400 = year % 400 := by omega
  simp only [isLeapYear, hfour, hhundred, hcycle]

/-- A cycle of 400 years has 146097 days. -/
theorem daysToYear_cycle (cycle : Int) {year : Nat} (h : year < 400) :
    daysToYear (400 * cycle + year + 1) =
      146097 * cycle + 365 * year + (year / 4 : Nat) - (year / 100 : Nat) - 719162 := by
  have hfour : (400 * cycle + year) / 4 = 100 * cycle + (year / 4 : Nat) := by omega
  have hhundred : (400 * cycle + year) / 100 = 4 * cycle + (year / 100 : Nat) := by omega
  have hcycle : (400 * cycle + year) / 400 = cycle := by omega
  rw [daysToYear_eq, Int.add_sub_cancel, hfour, hhundred, hcycle]
  omega

/-- The date of a day is a date of the calendar and has that day's number. -/
theorem ofDays_spec (days : Int) :
    (Date.ofDays days).Valid ∧ (Date.ofDays days).dayNumber = days := by
  unfold Date.ofDays
  dsimp only
  have hcycle : ((days + 719468) % 146097).toNat < 146097 := by omega
  obtain ⟨hyear, hday, hlast, hleap⟩ := yearInCycle_spec hcycle
  generalize yearInCycle ((days + 719468) % 146097).toNat = found at hyear hday hlast hleap ⊢
  obtain ⟨year, dayOfYear⟩ := found
  dsimp only at hyear hday hlast hleap ⊢
  obtain ⟨length, hlength, hplace, hsum⟩ :=
    locate_spec monthLengths (show dayOfYear < monthLengths.sum from Nat.lt_succ_of_le hlast)
  generalize locate monthLengths dayOfYear = span at hlength hplace hsum ⊢
  obtain ⟨index, place⟩ := span
  dsimp only at hlength hplace hsum ⊢
  have hleapDay : (monthLengths.take index).sum + place = 365 →
      isLeapYear (400 * ((days + 719468) / 146097) + year + 1) = true := by
    rw [hsum, Int.add_assoc, isLeapYear_cycle]
    exact hleap
  obtain ⟨hvalid, hnumber⟩ := date_from_march _ hlength hplace hleapDay
  refine ⟨hvalid, hnumber.trans ?_⟩
  rw [hsum, daysToYear_cycle _ hyear]
  omega

end AuroraMigration
