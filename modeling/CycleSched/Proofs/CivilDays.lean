import Mathlib.Algebra.Group.Int.Defs
import Mathlib.Tactic.IntervalCases
import Mathlib.Tactic.Ring
import Mathlib.Tactic.SplitIfs
import CycleSched.Calendar

/-!
# Counting the days of the proleptic Gregorian calendar

Two formulas count days from a civil date, and a third reads a date back from a count. This
module shows that they count as the calendar does.

* `Calendar.daysFromCivil`, which reads the Unix second of a written date-time, counts the days
  year by year and month by month with the calendar's month lengths and leap years
  (`Calendar.daysFromCivil_eq_count`); so `Calendar.unixOf` is the Unix second of a date-time
  (`Calendar.unixOf_eq_civilSecond`).
* The dates of instants are read from a day count in the reckoning of `Instant`, which counts
  from 1 March of a year a multiple of 400 years back, in whole centuries of 36524 or 36525
  days, years of 365 or 366 days, and the day of the year (`Calendar.reckonSplit`). Read back so,
  a day count gives a real date (`Calendar.reckonDate_valid`) whose count by `daysFromCivil` is
  the day count moved to the Unix epoch (`Calendar.daysFromCivil_reckonDate`).
-/

namespace CycleSched.Calendar

/-! ## The calendar counted year by year -/

/-- The days of a year: 366 in a leap year, else 365. -/
def yearLength (y : Int) : Nat := if isLeap y then 366 else 365

/-- Days from 1 January of year 0 to 1 January of year `y`, counted year by year. -/
def daysBeforeYear : Nat → Nat
  | 0 => 0
  | y + 1 => daysBeforeYear y + yearLength y

/-- Days from 1 January of year `y` to the first day of month `m`, counted month by month. -/
def daysBeforeMonth (y : Int) : Nat → Nat
  | 0 => 0
  | 1 => 0
  | m + 2 => daysBeforeMonth y (m + 1) + daysInMonth y (m + 1)

/-- The Unix second of a date and time of a year from 0 on, its days counted year by year and
month by month as the calendar has them, and 1970-01-01T00:00 its second 0. -/
def civilSecond (y m : Nat) (d h mi s : Int) : Int :=
  ((daysBeforeYear y + daysBeforeMonth y m : Nat) - (daysBeforeYear 1970 : Int) + (d - 1)) * 86400 +
    h * 3600 + mi * 60 + s

theorem isLeap_iff (y : Int) : isLeap y = true ↔ y % 4 = 0 ∧ (y % 100 ≠ 0 ∨ y % 400 = 0) := by
  simp [isLeap]

theorem yearLength_eq (y : Int) :
    (yearLength y : Int) = 365 + if y % 4 = 0 ∧ (y % 100 ≠ 0 ∨ y % 400 = 0) then 1 else 0 := by
  unfold yearLength
  by_cases h : isLeap y = true
  · rw [if_pos h, if_pos ((isLeap_iff y).1 h)]
    rfl
  · rw [if_neg h, if_neg fun h' => h ((isLeap_iff y).2 h')]
    rfl

/-- The days before a year are 365 for each year, one more for each leap year. -/
theorem daysBeforeYear_eq (y : Nat) :
    (daysBeforeYear y : Int) = 365 * y + (y + 3) / 4 - (y + 99) / 100 + (y + 399) / 400 := by
  induction y with
  | zero => rfl
  | succ y ih =>
    rw [daysBeforeYear, Int.natCast_add, ih, yearLength_eq]
    push_cast
    -- one more multiple of 4, 100 or 400 is passed exactly when `y` is one
    have h4 : ((y : Int) + 1 + 3) / 4 = (y + 3) / 4 + if (y : Int) % 4 = 0 then 1 else 0 := by
      split_ifs <;> omega
    have h100 : ((y : Int) + 1 + 99) / 100 = (y + 99) / 100 +
        if (y : Int) % 100 = 0 then 1 else 0 := by
      split_ifs <;> omega
    have h400 : ((y : Int) + 1 + 399) / 400 = (y + 399) / 400 +
        if (y : Int) % 400 = 0 then 1 else 0 := by
      split_ifs <;> omega
    rw [h4, h100, h400]
    split_ifs <;> omega

theorem daysBeforeYear_epoch : daysBeforeYear 1970 = 719528 := by
  have h := daysBeforeYear_eq 1970
  omega

/-- New Year's Day of a year from 0 on lies as many days from 1970-01-01 as the calendar counts
between them. -/
theorem daysFromCivil_newYear (y : Nat) :
    daysFromCivil y 1 1 = daysBeforeYear y - daysBeforeYear 1970 := by
  rw [daysBeforeYear_eq, daysBeforeYear_epoch]
  simp only [daysFromCivil]
  norm_num
  omega

/-- The day of the month counts on one by one. -/
theorem daysFromCivil_day (y : Int) (m : Nat) (d : Int) :
    daysFromCivil y m d = daysFromCivil y m 1 + (d - 1) := by
  simp only [daysFromCivil]
  omega

/-- The first of the next month lies a month's length after the first of a month. -/
theorem daysFromCivil_nextMonth (y : Int) {m : Nat} (h₁ : 1 ≤ m) (h₂ : m ≤ 11) :
    daysFromCivil y (m + 1) 1 = daysFromCivil y m 1 + daysInMonth y m := by
  obtain ⟨k, rfl⟩ : ∃ k, m = k + 1 := ⟨m - 1, by omega⟩
  have hk : k ≤ 10 := by omega
  -- one case per month; February's length is the one that depends on the year
  interval_cases k <;> simp [daysFromCivil, daysInMonth, isLeap] <;> omega

/-- `daysFromCivil` counts the days from 1970-01-01 as the calendar does. -/
theorem daysFromCivil_eq_count (y : Nat) {m : Nat} (h₁ : 1 ≤ m) (h₂ : m ≤ 12) (d : Int) :
    daysFromCivil y m d =
      (daysBeforeYear y + daysBeforeMonth y m : Nat) - (daysBeforeYear 1970 : Int) + (d - 1) := by
  -- the first of the month, counted month by month from New Year's Day
  have hfirst : ∀ m, 1 ≤ m → m ≤ 12 → daysFromCivil y m 1 =
      (daysBeforeYear y + daysBeforeMonth y m : Nat) - (daysBeforeYear 1970 : Int) := by
    intro m h₁ h₂
    induction m with
    | zero => omega
    | succ m ih =>
      rcases Nat.eq_zero_or_pos m with rfl | hm
      · rw [daysFromCivil_newYear, daysBeforeMonth, Nat.add_zero]
      · obtain ⟨k, rfl⟩ : ∃ k, m = k + 1 := ⟨m - 1, by omega⟩
        rw [daysFromCivil_nextMonth _ (by omega) (by omega), ih (by omega) (by omega),
          daysBeforeMonth]
        push_cast
        ring
  rw [daysFromCivil_day, hfirst m h₁ h₂]

/-- The Unix second of a date and time counts the day of the month on one by one. -/
theorem unixOf_day (y m d h mi s : Int) : unixOf y m d h mi s = unixOf y m 0 h mi s + d * 86400 := by
  simp only [unixOf]
  ring

/-- The Unix second of a date and time of a month within its year: its day count from
1970-01-01 in seconds and its time of day. -/
theorem unixOf_of_month (y : Int) {m : Nat} (h₁ : 1 ≤ m) (h₂ : m ≤ 12) (d h mi s : Int) :
    unixOf y m d h mi s = daysFromCivil y m d * 86400 + h * 3600 + mi * 60 + s := by
  have hy : y + ((m : Int) - 1) / 12 = y := by omega
  have hm : (((m : Int) - 1) % 12 + 1).toNat = m := by omega
  simp only [unixOf, hy, hm]
  rw [daysFromCivil_day y m d]

/-- `unixOf` answers the Unix second of a date and time of a year from 0 on, its days counted as
the calendar has them. -/
theorem unixOf_eq_civilSecond (y : Nat) {m : Nat} (h₁ : 1 ≤ m) (h₂ : m ≤ 12) (d h mi s : Int) :
    unixOf y m d h mi s = civilSecond y m d h mi s := by
  have hy : ((y : Int) + ((m : Int) - 1) / 12) = y := by omega
  have hm : (((m : Int) - 1) % 12 + 1).toNat = m := by omega
  simp only [unixOf, civilSecond, hy, hm]
  rw [daysFromCivil_eq_count y h₁ h₂]
  ring

/-! ## Reading a day count of the reckoning -/

/-- Years from the start of the reckoning to year 0: a multiple of 400. -/
def reckonYears : Nat := 292277022400

/-- Days from the start of the reckoning, 1 March of year `-reckonYears`, to 1970-01-01. -/
def reckonEpochDays : Nat := 106751991073400

/-- A day count of the reckoning read as whole centuries, the year of the century and the day of
that year, all counted from 1 March, so that every leap day ends its year. -/
def reckonSplit (n : Nat) : Nat × Nat × Nat :=
  let c := (4 * n + 3) % 146097 / 4
  ((4 * n + 3) / 146097, (4 * c + 3) / 1461, (4 * c + 3) % 1461 / 4)

/-- The month, 3 for March up to 14 for February of the next year, and the day of the month of a
day of a year counted from 1 March. -/
def monthOfYearDay (yd : Nat) : Nat × Nat :=
  let e := 2141 * yd + 197913
  (e / 65536, 1 + e % 65536 / 2141)

/-- One for a day of January or February, which count with the next year, else zero. -/
def janFeb (yd : Nat) : Nat := if 306 ≤ yd then 1 else 0

/-- The civil date of a day count of the reckoning: year, month from 1 to 12, and day. -/
def reckonDate (n : Nat) : Int × Nat × Nat :=
  let (c, y, yd) := reckonSplit n
  let (m, d) := monthOfYearDay yd
  ((100 * c - reckonYears + y + janFeb yd : Int), m - 12 * janFeb yd, d)

/-- The day of the century is the last one only in the fourth century of 400 years. -/
theorem century_last (n : Nat) (h : (4 * n + 3) % 146097 / 4 = 36524) :
    (4 * n + 3) / 146097 % 4 = 3 := by
  have hr : (4 * n + 3) % 146097 = 146096 := by
    have := Nat.mod_lt (4 * n + 3) (show 146097 > 0 by decide)
    generalize (4 * n + 3) % 146097 = r at *
    omega
  have hd := Nat.div_add_mod (4 * n + 3) 146097
  rw [hr] at hd
  generalize (4 * n + 3) / 146097 = c at hd ⊢
  -- both sides of `146097 * c + 146096 = 4 * n + 3` leave the same remainder by 4
  have h4 : 4 * (36524 * c + 36524) + c = 4 * n + 3 := by
    rw [← hd]
    ring
  have h4' := congrArg (· % 4) h4
  simp only [Nat.mul_add_mod] at h4'
  omega

/-- What the split of a day count says: the count is made of its centuries, years and day of the
year; the year of the century is at most 99 and the day of the year at most 365, the 366th day
coming only at the end of a fourth year, and of a fourth century when the year is the century's
last. -/
theorem reckonSplit_spec (n : Nat) :
    n = 36524 * (reckonSplit n).1 + (reckonSplit n).1 / 4 + 365 * (reckonSplit n).2.1 +
        (reckonSplit n).2.1 / 4 + (reckonSplit n).2.2 ∧
      (reckonSplit n).2.1 ≤ 99 ∧ (reckonSplit n).2.2 ≤ 365 ∧
      ((reckonSplit n).2.2 = 365 → (reckonSplit n).2.1 % 4 = 3) ∧
      ((reckonSplit n).2.2 = 365 → (reckonSplit n).2.1 = 99 → (reckonSplit n).1 % 4 = 3) := by
  have hn : n = 36524 * ((4 * n + 3) / 146097) + (4 * n + 3) / 146097 / 4 +
      (4 * n + 3) % 146097 / 4 := by omega
  have hc : (4 * n + 3) % 146097 / 4 ≤ 36524 := by omega
  have hlast := century_last n
  simp only [reckonSplit]
  generalize (4 * n + 3) % 146097 / 4 = c at hn hc hlast ⊢
  refine ⟨by omega, by omega, by omega, by omega, fun h₁ h₂ => hlast (by omega)⟩

/-- What the split of a day of the year says, one day at a time: a month from March on, a day
from 1 within that month's length (February of a leap year has the 366th day), the days of the
months before and the day making up the day of the year, and the months of the next year starting
at day 306. -/
theorem monthOfYearDay_spec :
    ∀ yd < 366, 3 ≤ (monthOfYearDay yd).1 ∧ (monthOfYearDay yd).1 ≤ 14 ∧
      1 ≤ (monthOfYearDay yd).2 ∧
      (153 * ((monthOfYearDay yd).1 - 3) + 2) / 5 + (monthOfYearDay yd).2 - 1 = yd ∧
      (979 * (monthOfYearDay yd).1 - 2919) / 32 = (153 * ((monthOfYearDay yd).1 - 3) + 2) / 5 ∧
      (13 ≤ (monthOfYearDay yd).1 ↔ 306 ≤ yd) ∧
      ((monthOfYearDay yd).2 ≤ daysInMonth 1 ((monthOfYearDay yd).1 - 12 * janFeb yd) ∨
        ((monthOfYearDay yd).1 = 14 ∧ (monthOfYearDay yd).2 = 29 ∧ yd = 365)) := by
  set_option maxRecDepth 10000 in decide +kernel

/-- The days before a month counted from March, by the two formulas for it. -/
theorem monthStart_eq : ∀ m, 3 ≤ m → m ≤ 14 → (979 * m - 2919) / 32 = (153 * (m - 3) + 2) / 5 := by
  decide

/-- Hinnant's count at a date of the reckoning, given by its century `c`, year of the century
`y` and month `m` and day `d` from March on. -/
theorem daysFromCivil_split (c y yd m d j : Nat) (hy : y ≤ 99)
    (hj : (j = 1 ∧ 13 ≤ m ∧ m ≤ 14) ∨ (j = 0 ∧ 3 ≤ m ∧ m ≤ 12))
    (hdoy : (153 * (m - 3) + 2) / 5 + d - 1 = yd) (hd : 1 ≤ d) :
    daysFromCivil (100 * c - reckonYears + y + j) (m - 12 * j) d =
      36524 * c + c / 4 + 365 * y + y / 4 + yd - reckonEpochDays := by
  -- the year starts in March, so January and February count with the year before
  have hmp : (if m - 12 * j > 2 then ((m - 12 * j : Nat) : Int) - 3
      else ((m - 12 * j : Nat) : Int) + 9) = (m : Int) - 3 := by
    rcases hj with ⟨rfl, h₁, h₂⟩ | ⟨rfl, h₁, h₂⟩
    · rw [if_neg (by omega)]
      omega
    · rw [if_pos (by omega)]
      omega
  have hyear : (if m - 12 * j ≤ 2 then (100 * c - reckonYears + y + j : Int) - 1
      else 100 * c - reckonYears + y + j) = 100 * c - reckonYears + y := by
    rcases hj with ⟨rfl, h₁, h₂⟩ | ⟨rfl, h₁, h₂⟩
    · rw [if_pos (by omega)]
      omega
    · rw [if_neg (by omega)]
      omega
  have hdoy' : (153 * ((m : Int) - 3) + 2) / 5 + d - 1 = yd := by
    have : 3 ≤ m := by omega
    omega
  -- the reckoning starts a whole number of 400-year eras before year 0
  have hera : (100 * (c : Int) - reckonYears + y) / 400 = c / 4 - 730692556 := by
    simp only [reckonYears]
    omega
  unfold daysFromCivil
  simp only [hyear, hmp]
  rw [hdoy', hera]
  simp only [reckonYears, reckonEpochDays]
  omega

/-- January and February count with the next year: the months from March on are those of the
day's year, the two after them of the next. -/
theorem janFeb_spec {yd : Nat} (h : yd < 366) :
    (janFeb yd = 1 ∧ 13 ≤ (monthOfYearDay yd).1 ∧ (monthOfYearDay yd).1 ≤ 14) ∨
      (janFeb yd = 0 ∧ 3 ≤ (monthOfYearDay yd).1 ∧ (monthOfYearDay yd).1 ≤ 12) := by
  obtain ⟨hm₁, hm₂, -, -, -, hjan, -⟩ := monthOfYearDay_spec yd h
  by_cases hj : 306 ≤ yd
  · exact .inl ⟨if_pos hj, hjan.2 hj, hm₂⟩
  · exact .inr ⟨if_neg hj, hm₁, by omega⟩

/-- Read back from a day count of the reckoning, a date counts by `daysFromCivil` as the day count
moved to the Unix epoch. -/
theorem daysFromCivil_reckonDate (n : Nat) :
    daysFromCivil (reckonDate n).1 (reckonDate n).2.1 (reckonDate n).2.2 = n - reckonEpochDays := by
  obtain ⟨hsum, hy, hyd, -, -⟩ := reckonSplit_spec n
  obtain ⟨-, -, hd, hdoy, -, -, -⟩ := monthOfYearDay_spec (reckonSplit n).2.2 (by omega)
  simp only [reckonDate]
  rw [daysFromCivil_split _ _ _ _ _ _ hy (janFeb_spec (by omega)) hdoy hd]
  omega

/-- Year 1 is a common year, so none of its months is longer than the same month of any year. -/
theorem daysInMonth_common_le (y : Int) (k : Nat) : daysInMonth 1 k ≤ daysInMonth y k := by
  unfold daysInMonth
  split
  · rw [if_neg (by decide)]
    split <;> omega
  all_goals exact le_refl _

/-- Read back from a day count of the reckoning, a date is a real date: its month runs from 1 to
12 and its day from 1 to the length of that month in that year. -/
theorem reckonDate_valid (n : Nat) :
    1 ≤ (reckonDate n).2.1 ∧ (reckonDate n).2.1 ≤ 12 ∧ 1 ≤ (reckonDate n).2.2 ∧
      (reckonDate n).2.2 ≤ daysInMonth (reckonDate n).1 (reckonDate n).2.1 := by
  obtain ⟨-, hy, hyd, hlast₁, hlast₂⟩ := reckonSplit_spec n
  obtain ⟨-, -, hd, -, -, -, hlen⟩ := monthOfYearDay_spec (reckonSplit n).2.2 (by omega)
  have hj := @janFeb_spec (reckonSplit n).2.2 (by omega)
  simp only [reckonDate]
  generalize janFeb (reckonSplit n).2.2 = j at hj hlen ⊢
  have hmonth : 1 ≤ (monthOfYearDay (reckonSplit n).2.2).1 - 12 * j ∧
      (monthOfYearDay (reckonSplit n).2.2).1 - 12 * j ≤ 12 := by
    rcases hj with ⟨rfl, h₁, h₂⟩ | ⟨rfl, h₁, h₂⟩ <;> omega
  refine ⟨hmonth.1, hmonth.2, hd, ?_⟩
  rcases hlen with hlen | ⟨hfeb, h29, h365⟩
  · exact le_trans hlen (daysInMonth_common_le _ _)
  · -- the 366th day is 29 February of a leap year
    obtain rfl : j = 1 := by omega
    have hleap : isLeap (100 * ((reckonSplit n).1 : Int) - reckonYears + (reckonSplit n).2.1 + 1) :=
      by
      rw [isLeap_iff]
      have h4 := hlast₁ h365
      simp only [reckonYears]
      by_cases h99 : (reckonSplit n).2.1 = 99
      · have hc := hlast₂ h365 h99
        omega
      · omega
    rw [h29, hfeb]
    simp [daysInMonth, hleap]

/-- The year of a day count of the reckoning lies from the start of the reckoning on, past its
first year in January and February, and well within `2^40` years of it, for the day counts of
64-bit words of seconds. -/
theorem reckonDate_year_bounds {n : Nat} (h : n < 213503982334602) :
    0 ≤ (reckonDate n).1 + reckonYears ∧
      ((reckonDate n).2.1 < 3 → 1 ≤ (reckonDate n).1 + reckonYears) ∧
      (reckonDate n).1 + reckonYears < 2 ^ 40 := by
  obtain ⟨-, hy, hyd, -, -⟩ := reckonSplit_spec n
  have hj := @janFeb_spec (reckonSplit n).2.2 (by omega)
  have hc : (reckonSplit n).1 ≤ 5845545814 := by
    simp only [reckonSplit]
    omega
  have hyear : (reckonDate n).1 = 100 * ((reckonSplit n).1 : Int) - reckonYears +
      (reckonSplit n).2.1 + janFeb (reckonSplit n).2.2 := rfl
  have hmonth : (reckonDate n).2.1 = (monthOfYearDay (reckonSplit n).2.2).1 -
      12 * janFeb (reckonSplit n).2.2 := rfl
  rw [hyear, hmonth]
  rcases hj with ⟨hj, h₁, h₂⟩ | ⟨hj, h₁, h₂⟩ <;> rw [hj] <;> omega

end CycleSched.Calendar
