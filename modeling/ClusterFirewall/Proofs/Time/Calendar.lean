import ClusterFirewall.Time
import Mathlib.Tactic.IntervalCases

/-!
# Days and dates

Days are counted in eras of 400 years, years of an era and days of a year that begins in March, and
months of such a year begin where five months have 153 days. Every day has a date of the calendar
(`Date.isValid_ofDays`), from which the day is counted again (`Date.toDays_ofDays`).
-/

namespace ClusterFirewall.Date

/-! ## Years of an era -/

/-- The year of an era that a day of the era lies in. -/
def yearOfEra (day : Int) : Int := (day - day / 1460 + day / 36524 - day / 146096) / 365

/-- The days of an era before a year of it. -/
def daysBefore (year : Int) : Int := 365 * year + year / 4 - year / 100

/-- The day lies in its year: not before it, and not after its last day, which is the 366th in a
year before the 29th of a leap year only. -/
theorem yearOfEra_spec {day : Int} (hday : 0 ≤ day) (hlast : day < 146097) :
    0 ≤ yearOfEra day ∧ yearOfEra day < 400 ∧ daysBefore (yearOfEra day) ≤ day ∧
      day ≤ daysBefore (yearOfEra day) + 365 ∧
      (day = daysBefore (yearOfEra day) + 365 → isLeap (yearOfEra day + 1)) := by
  have hleap : ∀ year : Int, isLeap year ↔ year % 4 = 0 ∧ (year % 100 ≠ 0 ∨ year % 400 = 0) := by
    intro year
    simp [isLeap]
  rw [hleap]
  unfold daysBefore yearOfEra
  generalize hfours : day / 1460 = fours
  generalize hhundreds : day / 36524 = hundreds
  generalize hera : day / 146096 = era
  generalize hyear : (day - fours + hundreds - era) / 365 = year
  generalize hfour : year / 4 = four
  generalize hhundred : year / 100 = hundred
  rcases (by omega : era = 0 ∨ day = 146096) with hzero | hend
  · -- Within a century and a span of four years the bounds are linear.
    have hcentury : hundreds = 0 ∨ hundreds = 1 ∨ hundreds = 2 ∨ hundreds = 3 := by omega
    have hcentury' : hundred = 0 ∨ hundred = 1 ∨ hundred = 2 ∨ hundred = 3 := by omega
    have hspan : fours = four ∨ fours = four + 1 ∨ fours = four - 1 := by omega
    have hplace : year % 4 = 0 ∨ year % 4 = 1 ∨ year % 4 = 2 ∨ year % 4 = 3 := by omega
    omega
  · -- The last day of an era is that of its last year.
    omega

/-! ## Months of a year that begins in March -/

/-- The month of a year from March that a day of the year lies in. -/
def monthFromMarch (day : Int) : Int := (5 * day + 2) / 153

/-- The days before a month of a year from March. -/
def daysBeforeMonth (month : Int) : Int := (153 * month + 2) / 5

theorem monthFromMarch_spec {day : Int} (hday : 0 ≤ day) (hlast : day ≤ 365) :
    0 ≤ monthFromMarch day ∧ monthFromMarch day < 12 ∧
      daysBeforeMonth (monthFromMarch day) ≤ day ∧
      day < daysBeforeMonth (monthFromMarch day + 1) := by
  unfold daysBeforeMonth monthFromMarch
  omega

/-! ## Dates -/

/-- The date of a day of a month, both counted from March. -/
def fromMarch (year month day : Int) : Date :=
  let month' := if month < 10 then month + 3 else month - 9
  ⟨if month' ≤ 2 then year + 1 else year, month'.toNat, day.toNat⟩

theorem ofDays_eq (days : Int) :
    let era := (days + 719468) / 146097
    let day := days + 719468 - era * 146097
    let day' := day - daysBefore (yearOfEra day)
    ofDays days = fromMarch (yearOfEra day + era * 400) (monthFromMarch day')
      (day' - daysBeforeMonth (monthFromMarch day') + 1) := rfl

theorem fromMarch_of_lt {month : Int} (h : month < 10) (hmonth : 0 ≤ month) (year day : Int) :
    fromMarch year month day = ⟨year, (month + 3).toNat, day.toNat⟩ := by
  simp only [fromMarch, if_pos h, if_neg (show ¬ month + 3 ≤ 2 by omega)]

/-- January and February are the last months of a year from March. -/
theorem fromMarch_of_ge {month : Int} (h : 10 ≤ month) (hmonths : month < 12) (year day : Int) :
    fromMarch year month day = ⟨year + 1, (month - 9).toNat, day.toNat⟩ := by
  simp only [fromMarch, if_neg (Int.not_lt.2 h), if_pos (show month - 9 ≤ 2 by omega)]

theorem month_fromMarch {month : Int} (hmonth : 0 ≤ month) (hmonths : month < 12) (year day : Int) :
    1 ≤ (fromMarch year month day).month ∧ (fromMarch year month day).month ≤ 12 := by
  simp only [fromMarch]
  split <;> omega

theorem day_fromMarch {day : Int} (hday : 0 ≤ day) (year month : Int) :
    ((fromMarch year month day).day : Int) = day :=
  Int.toNat_of_nonneg hday

theorem toDays_fromMarch {era year month day : Int} (hyear : 0 ≤ year) (hlast : year < 400)
    (hmonth : 0 ≤ month) (hmonths : month < 12) (hday : 0 ≤ day) :
    (fromMarch (year + era * 400) month day).toDays =
      era * 146097 + (daysBefore year + (daysBeforeMonth month + day - 1)) - 719468 := by
  unfold daysBefore daysBeforeMonth
  by_cases h : month < 10
  · rw [fromMarch_of_lt h hmonth]
    simp only [toDays, if_neg (show ¬ (month + 3).toNat ≤ 2 by omega)]
    omega
  · rw [fromMarch_of_ge (Int.not_lt.1 h) hmonths]
    simp only [toDays, if_pos (show (month - 9).toNat ≤ 2 by omega)]
    omega

/-- The number of days of a month from March. -/
theorem daysOf_fromMarch {month : Int} (hmonth : 0 ≤ month) (hmonths : month < 12)
    (year day : Int) :
    (daysOf (fromMarch year month day).year (fromMarch year month day).month : Int) =
      if month = 11 then if isLeap (year + 1) then 29 else 28
      else daysBeforeMonth (month + 1) - daysBeforeMonth month := by
  obtain ⟨m, rfl⟩ := Int.eq_ofNat_of_zero_le hmonth
  have hm : m < 12 := by omega
  interval_cases m <;> simp [fromMarch, daysOf, daysBeforeMonth]

theorem isLeap_add_eras (year era : Int) : isLeap (year + era * 400) = isLeap year := by
  have hfour : (year + era * 400) % 4 = year % 4 := by omega
  have hhundred : (year + era * 400) % 100 = year % 100 := by omega
  have hera : (year + era * 400) % 400 = year % 400 := by omega
  rw [isLeap, hfour, hhundred, hera, isLeap]

/-! ## Days -/

/-- A day of the count is a day of a year of an era. -/
theorem exists_ofDays_eq_fromMarch (days : Int) :
    ∃ era year month day, ofDays days = fromMarch (year + era * 400) month day ∧
      days = era * 146097 + (daysBefore year + (daysBeforeMonth month + day - 1)) - 719468 ∧
      0 ≤ year ∧ year < 400 ∧ 0 ≤ month ∧ month < 12 ∧ 1 ≤ day ∧
      day ≤ daysBeforeMonth (month + 1) - daysBeforeMonth month ∧
      (month = 11 → day ≤ if isLeap (year + 1) then 29 else 28) := by
  generalize hera : (days + 719468) / 146097 = era
  generalize hday : days + 719468 - era * 146097 = day
  obtain ⟨hyear, hlast, hbefore, hafter, hleap⟩ :=
    yearOfEra_spec (show 0 ≤ day by omega) (by omega)
  generalize hofYear : day - daysBefore (yearOfEra day) = ofYear
  obtain ⟨hmonth, hmonths, hfirst, hnext⟩ :=
    monthFromMarch_spec (show 0 ≤ ofYear by omega) (by omega)
  refine ⟨era, yearOfEra day, monthFromMarch ofYear,
    ofYear - daysBeforeMonth (monthFromMarch ofYear) + 1, ?_, by omega, hyear, hlast, hmonth,
    hmonths, by omega, by omega, ?_⟩
  · simp only [ofDays_eq, hera, hday, hofYear]
  · -- The last day of a year from March is the 29th of February.
    intro hfebruary
    rw [hfebruary]
    have hbeforeLast : daysBeforeMonth 11 = 337 := rfl
    split
    · omega
    · rename_i hcommon
      have hnot : day ≠ daysBefore (yearOfEra day) + 365 := fun h => hcommon (hleap h)
      omega

/-- The days before the date of a day are counted back to it. -/
theorem toDays_ofDays (days : Int) : (ofDays days).toDays = days := by
  obtain ⟨era, year, month, day, hofDays, hdays, hyear, hlast, hmonth, hmonths, hday, -⟩ :=
    exists_ofDays_eq_fromMarch days
  rw [hofDays, toDays_fromMarch hyear hlast hmonth hmonths (by omega), ← hdays]

/-- Every day has a date, which the calendar has as long as it has the year. -/
theorem isValid_ofDays {days : Int} (hyear : yearInRange (ofDays days).year) :
    (ofDays days).isValid := by
  obtain ⟨era, year, month, day, hofDays, -, -, -, hmonth, hmonths, hday, hlength, hfebruary⟩ :=
    exists_ofDays_eq_fromMarch days
  have hdaysOf := daysOf_fromMarch hmonth hmonths (year + era * 400) day
  rw [Int.add_right_comm, isLeap_add_eras] at hdaysOf
  have hmonth' := month_fromMarch hmonth hmonths (year + era * 400) day
  have hcast := day_fromMarch (show 0 ≤ day by omega) (year + era * 400) month
  rw [← hofDays] at hdaysOf hmonth' hcast
  have hday' : 1 ≤ (ofDays days).day ∧
      (ofDays days).day ≤ daysOf (ofDays days).year (ofDays days).month := by
    refine ⟨by omega, Int.ofNat_le.1 ?_⟩
    rw [hdaysOf, hcast]
    split
    · exact hfebruary ‹_›
    · exact hlength
  simp [isValid, hyear, hmonth', hday']

end ClusterFirewall.Date
