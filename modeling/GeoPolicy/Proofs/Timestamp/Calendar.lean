import GeoPolicy.Timestamp
import Mathlib.Tactic.IntervalCases
import Mathlib.Tactic.SplitIfs

/-!
# Dates and numbers of days

Every number of days is the number of the date that it leads to, in all cycles of 400 years, those
before 1970 and before the year 0 included. Dates are reached through years that start in March: a
day of a cycle lies in one of 400 such years, and only a last day of February, which ends the year,
depends on the leap years.

## Main definitions

* `Calendar.afterMarch` — the date that lies a number of days after the first of March of a year.
* `Calendar.yearLength` — the number of days from the first of March of a year to the next one.
-/

namespace GeoPolicy

namespace Calendar

/-! ## Dates -/

theorem monthLength_le (year : Int) (month : Nat) : monthLength year month ≤ 31 := by
  unfold monthLength
  split_ifs <;> omega

theorem Date.le_of_isValid {d : Date} (h : d.isValid = true) : d.month ≤ 12 ∧ d.day ≤ 31 := by
  simp only [isValid, Bool.and_eq_true, decide_eq_true_eq] at h
  exact ⟨h.1.1.2, h.2.trans (monthLength_le d.year d.month)⟩

/-! ## Years of a cycle -/

/-- A day of a cycle in centuries, in spans of four years, in years and in days. Only the last year
of a span has one day more, and the last span of a century only at the end of the cycle. -/
theorem exists_spans {day : Nat} (h : day < 146097) :
    ∃ c q y r, day = 36524 * c + 1461 * q + 365 * y + r ∧ c < 4 ∧ q < 25 ∧ y < 4 ∧
      (r < 365 ∨ r = 365 ∧ y = 3 ∧ (q < 24 ∨ c = 3)) := by
  obtain ⟨c, n, hc, hday, hn⟩ : ∃ c n, c < 4 ∧ day = 36524 * c + n ∧
      (n < 36524 ∨ n = 36524 ∧ c = 3) :=
    ⟨min 3 (day / 36524), day - 36524 * min 3 (day / 36524), by omega, by omega, by omega⟩
  obtain ⟨q, m, hq, hspan, hm⟩ : ∃ q m, q < 25 ∧ n = 1461 * q + m ∧
      (m < 1460 ∨ m = 1460 ∧ (q < 24 ∨ c = 3)) :=
    ⟨n / 1461, n % 1461, by omega, by omega, by omega⟩
  refine ⟨c, q, min 3 (m / 365), m - 365 * min 3 (m / 365), ?_, hc, hq, ?_, ?_⟩ <;> omega

/-- The number of years of a cycle that end before a day, and the days after the last of them. -/
theorem exists_yearOfCycle {day : Nat} (h : day < 146097) :
    ∃ year r, (day - day / 1460 + day / 36524 - day / 146096) / 365 = year ∧ year < 400 ∧
      day = 365 * year + year / 4 - year / 100 + r ∧
      (r < 365 ∨ r = 365 ∧ isLeap (year + 1) = true) := by
  obtain ⟨c, q, y, r, hday, hc, hq, hy, hr⟩ := exists_spans h
  have hcenturies : day / 36524 - day / 146096 = c := by
    have hnext : day < 36524 * (c + 1) ∨ day = 146096 ∧ c = 3 := by omega
    obtain hnext | ⟨rfl, rfl⟩ := hnext <;> omega
  have hle : day / 146096 ≤ day / 36524 := by omega
  -- The divisor 1460 loses one day in each span, so late in a span it is one ahead of the spans.
  obtain ⟨ahead, hahead, hlate⟩ : ∃ ahead, day / 1460 = 25 * c + q + ahead ∧
      (ahead = 0 ∨ ahead = 1 ∧ 1460 ≤ 24 * c + q + 365 * y + r) :=
    ⟨(24 * c + q + 365 * y + r) / 1460, by omega, by omega⟩
  have hyear : (day - day / 1460 + day / 36524 - day / 146096) / 365 = 100 * c + 4 * q + y := by
    have hdays : day - day / 1460 + day / 36524 - day / 146096 =
        365 * (100 * c + 4 * q + y) + (r - ahead) := by omega
    omega
  have hcentury : (100 * c + 4 * q + y) / 100 = c := by omega
  have hspan : (100 * c + 4 * q + y) / 4 = 25 * c + q := by omega
  refine ⟨100 * c + 4 * q + y, r, hyear, by omega, ?_, hr.imp_right ?_⟩
  · rw [hcentury, hspan]
    omega
  · rintro ⟨rfl, rfl, hlast⟩
    refine ⟨rfl, ?_⟩
    simp only [isLeap, Bool.and_eq_true, Bool.or_eq_true, decide_eq_true_eq]
    omega

theorem isLeap_add_cycles (year cycles : Int) :
    isLeap (year + 400 * cycles) = isLeap year := by
  have h4 : (year + 400 * cycles) % 4 = year % 4 := by omega
  have h100 : (year + 400 * cycles) % 100 = year % 100 := by omega
  have h400 : (year + 400 * cycles) % 400 = year % 400 := by omega
  rw [isLeap, isLeap, h4, h100, h400]

/-! ## Days of a year -/

/-- The date that lies a number of days after the first of March of a year. -/
def afterMarch (year : Int) (days : Nat) : Date :=
  let month := (5 * days + 2) / 153
  { year := if month < 10 then year else year + 1
    month := if month < 10 then month + 3 else month - 9
    day := days - (153 * month + 2) / 5 + 1 }

/-- The number of days from the first of March of a year to the next one. -/
def yearLength (year : Int) : Nat :=
  if isLeap (year + 1) then 366 else 365

theorem yearLength_le (year : Int) : yearLength year ≤ 366 := by
  unfold yearLength
  split <;> omega

theorem dayNumber_afterMarch (year : Int) {days : Nat} (h : days < 366) :
    dayNumber (afterMarch year days) = year / 400 * 146097 + year % 400 * 365 + year % 400 / 4 -
      year % 400 / 100 + days - 719468 := by
  obtain ⟨month, hmonth⟩ : ∃ month, (5 * days + 2) / 153 = month := ⟨_, rfl⟩
  have hfirst : (153 * month + 2) / 5 ≤ days := by omega
  simp only [dayNumber, afterMarch, hmonth]
  by_cases hm : month < 10
  · have hindex : (month + 3 + 9) % 12 = month := by omega
    rw [if_pos hm, if_pos hm, if_neg (by omega), hindex]
    omega
  · have hindex : (month - 9 + 9) % 12 = month := by omega
    rw [if_neg hm, if_neg hm, if_pos (by omega), hindex, Int.add_sub_cancel]
    omega

theorem isValid_afterMarch {year : Int} {days : Nat} (h : days < yearLength year) :
    (afterMarch year days).isValid = true := by
  have hdays := h.trans_le (yearLength_le year)
  obtain ⟨month, hmonth⟩ : ∃ month, (5 * days + 2) / 153 = month := ⟨_, rfl⟩
  have hle : month < 12 := by omega
  simp only [Date.isValid, afterMarch, hmonth, Bool.and_eq_true, decide_eq_true_eq, monthLength]
  unfold yearLength at h
  -- Only the last month depends on the year.
  obtain hearlier | rfl := Nat.lt_succ_iff_lt_or_eq.1 hle
  · interval_cases month <;> simp <;> omega
  · cases hleap : isLeap (year + 1) <;> simp [hleap] at h ⊢ <;> omega

/-! ## Numbers of days -/

/-- Every number of days leads into a year that starts in March. -/
theorem exists_ofDayNumber_eq (days : Int) :
    ∃ year r, ofDayNumber days = afterMarch year r ∧ r < yearLength year ∧
      days = year / 400 * 146097 + year % 400 * 365 + year % 400 / 4 - year % 400 / 100 + r -
        719468 := by
  have hday : ((days + 719468) % 146097).toNat < 146097 := by omega
  obtain ⟨year, r, hyear, hlt, hsum, hr⟩ := exists_yearOfCycle hday
  have hrest : ((days + 719468) % 146097).toNat - (365 * year + year / 4 - year / 100) = r := by
    omega
  refine ⟨year + (days + 719468) / 146097 * 400, r, ?_, ?_, ?_⟩
  · simp only [ofDayNumber, hyear, hrest, afterMarch]
  · have hnext : (year : Int) + (days + 719468) / 146097 * 400 + 1 =
        (year + 1) + 400 * ((days + 719468) / 146097) := by omega
    rw [yearLength, hnext, isLeap_add_cycles]
    obtain hr | ⟨rfl, hleap⟩ := hr
    · split <;> omega
    · rw [if_pos hleap]
      omega
  · have hcycle : ((year : Int) + (days + 719468) / 146097 * 400) / 400 =
        (days + 719468) / 146097 := by omega
    have hyearOfCycle : ((year : Int) + (days + 719468) / 146097 * 400) % 400 = year := by omega
    rw [hcycle, hyearOfCycle]
    clear hyear hrest
    omega

theorem dayNumber_ofDayNumber (days : Int) : dayNumber (ofDayNumber days) = days := by
  obtain ⟨year, r, hdate, hr, hdays⟩ := exists_ofDayNumber_eq days
  rw [hdate, dayNumber_afterMarch year (hr.trans_le (yearLength_le year)), ← hdays]

/-- A number of days leads to a date that exists. -/
theorem isValid_ofDayNumber (days : Int) : (ofDayNumber days).isValid = true := by
  obtain ⟨year, r, hdate, hr, -⟩ := exists_ofDayNumber_eq days
  rw [hdate]
  exact isValid_afterMarch hr

end Calendar

end GeoPolicy
