import Mathlib.Tactic.IntervalCases
import CycleSched.Proofs.CivilDays
import CycleSched.Proofs.Recurrence

/-!
# Dates of instants, reckoned in words

`Instant` reads the date of an instant from its count of days since the start of the reckoning,
1 March of a year a multiple of 400 years before year 0, by Neri and Schneider's arithmetic in
64- and 32-bit words: a multiplication and a shift stand for each division. For every instant
the words compute exactly what the day count gives by whole-number division (`reckonSplit`,
`monthOfYearDay`, `reckonDate`), because the day count of a 64-bit word of seconds is far below
where any of the products overflow (`Instant.dateOfDays_eq`, `Instant.date_eq`). Counting the
days back from a date is exact as well (`Instant.daysOfDate_toInt64`), so an instant built from a
date and time is the Unix second of that date and time moved to year 1 (`Instant.ofDate_eq`).

Together these give the one fact the calendar arithmetic of points needs: rebuilt from its date
with the day moved by `k` and from its time of day, every instant moves by exactly `k` days of
86400 seconds, in words (`Instant.ofDate_date_clock`, `Instant.addDate_days`). Whole seconds are
added exactly while their nanoseconds fit a word and the count of seconds stays within its word
(`Instant.add_whole_seconds`).
-/

namespace CycleSched.Instant

open Calendar

/-! ## Splitting a day count in words -/

theorem or_three (x : Nat) : x ||| 3 = 4 * (x / 4) + 3 := by
  have hlt : x % 4 < 2 ^ 2 := Nat.mod_lt _ (by decide)
  have hsmall : x % 4 ||| 3 = 3 := by
    have : x % 4 < 4 := Nat.mod_lt _ (by decide)
    interval_cases x % 4 <;> rfl
  conv_lhs => rw [show x = 2 ^ 2 * (x / 4) + x % 4 by omega]
  rw [Nat.two_pow_add_eq_or_of_lt hlt, Nat.or_assoc, hsmall,
    ← Nat.two_pow_add_eq_or_of_lt (by decide : 3 < 2 ^ 2)]

theorem mul_split {cd : Nat} (h : cd ≤ 146099) :
    2939745 * cd / 2 ^ 32 = cd / 1461 ∧ 2939745 * cd % 2 ^ 32 / 2939745 = cd % 1461 := by
  have hsplit : 2939745 * cd = 2 ^ 32 * (cd / 1461) + (149 * (cd / 1461) + 2939745 * (cd % 1461)) := by
    have := Nat.div_add_mod cd 1461
    omega
  have hq : cd / 1461 ≤ 100 := by omega
  have hr : cd % 1461 < 1461 := Nat.mod_lt _ (by decide)
  have hlo : 149 * (cd / 1461) + 2939745 * (cd % 1461) < 2 ^ 32 := by omega
  rw [hsplit, Nat.mul_add_div (by decide), Nat.div_eq_of_lt hlo, Nat.mul_add_mod, Nat.mod_eq_of_lt hlo]
  constructor
  · rfl
  · omega

/-- The centuries, the year of the century and the day of the year of a day count, in words, are
those of the whole-number split. -/
theorem splitDays_eq {n : UInt64} (h : n.toNat < 2 ^ 62) :
    splitDays n = (UInt64.ofNat (reckonSplit n.toNat).1, UInt64.ofNat (reckonSplit n.toNat).2.1,
      UInt64.ofNat (reckonSplit n.toNat).2.2) := by
  have hd : (4 * n + 3).toNat = 4 * n.toNat + 3 := by
    simp only [UInt64.toNat_add, UInt64.toNat_mul, UInt64.reduceToNat]
    omega
  have hc : (4 * n.toNat + 3) % 146097 / 4 ≤ 36524 := by omega
  have hp : (2939745 * ((4 * n + 3) % 146097 ||| 3)).toNat =
      2939745 * (4 * ((4 * n.toNat + 3) % 146097 / 4) + 3) := by
    simp only [UInt64.toNat_mul, UInt64.toNat_or, UInt64.toNat_mod, hd, UInt64.reduceToNat, or_three]
    omega
  obtain ⟨hhi, hlo⟩ := mul_split (by omega : 4 * ((4 * n.toNat + 3) % 146097 / 4) + 3 ≤ 146099)
  obtain ⟨-, hy, hyd, -, -⟩ := reckonSplit_spec n.toNat
  have hcen : (reckonSplit n.toNat).1 < 2 ^ 64 := by
    simp only [reckonSplit]
    omega
  simp only [splitDays, Prod.mk.injEq]
  refine ⟨?_, ?_, ?_⟩ <;> apply UInt64.toNat.inj
  · rw [UInt64.toNat_ofNat', Nat.mod_eq_of_lt hcen]
    simp only [UInt64.toNat_div, hd, UInt64.reduceToNat, reckonSplit]
  · rw [UInt64.toNat_ofNat', Nat.mod_eq_of_lt (by omega)]
    simp only [UInt64.toNat_shiftRight, hp, UInt64.reduceToNat, Nat.reduceMod,
      Nat.shiftRight_eq_div_pow, hhi, reckonSplit]
  · have hmask : (4294967295 : Nat) = 2 ^ 32 - 1 := rfl
    rw [UInt64.toNat_ofNat', Nat.mod_eq_of_lt (by omega)]
    simp only [UInt64.toNat_div, UInt64.toNat_and, hp, UInt64.reduceToNat]
    rw [hmask, Nat.and_two_pow_sub_one_eq_mod, hlo]
    rfl

/-- The month and day of a day of the year, in words, are those of the whole-number split. -/
theorem splitYearDay_eq {yd : UInt64} (h : yd.toNat < 366) :
    splitYearDay yd = (UInt64.ofNat (monthOfYearDay yd.toNat).1,
      UInt64.ofNat (monthOfYearDay yd.toNat).2) := by
  have he : ((2141 * yd + 197913) % 4294967296).toNat = 2141 * yd.toNat + 197913 := by
    simp only [UInt64.toNat_mod, UInt64.toNat_add, UInt64.toNat_mul, UInt64.reduceToNat]
    omega
  have hmask : (65535 : Nat) = 2 ^ 16 - 1 := rfl
  simp only [splitYearDay, monthOfYearDay, Prod.mk.injEq]
  refine ⟨?_, ?_⟩ <;> apply UInt64.toNat.inj
  · rw [UInt64.toNat_ofNat', Nat.mod_eq_of_lt (by omega)]
    simp only [UInt64.toNat_shiftRight, he, UInt64.reduceToNat, Nat.reduceMod,
      Nat.shiftRight_eq_div_pow]
  · have hq : ((2141 * yd + 197913) % 4294967296 &&& 65535) / 2141 =
        UInt64.ofNat ((2141 * yd.toNat + 197913) % 65536 / 2141) := by
      apply UInt64.toNat.inj
      rw [UInt64.toNat_ofNat', Nat.mod_eq_of_lt (by omega)]
      simp only [UInt64.toNat_div, UInt64.toNat_and, he, UInt64.reduceToNat]
      rw [hmask, Nat.and_two_pow_sub_one_eq_mod]
    rw [hq, UInt64.toNat_ofNat', UInt64.toNat_add, UInt64.toNat_ofNat']
    simp only [UInt64.reduceToNat]
    omega

/-- The year of a split day count, in words: the centuries and years since the start of the
reckoning moved to year 0, one more for January and February. -/
theorem year_word (c y j : Nat) :
    (UInt64.ofNat c * 100 - reckonYears).toInt64 + (UInt64.ofNat y).toInt64 +
      (UInt64.ofNat j).toInt64 = Int64.ofInt (100 * (c : Int) - Calendar.reckonYears + y + j) := by
  simp only [UInt64.toInt64_sub, UInt64.toInt64_mul, UInt64.toInt64_ofNat', Int64.ofInt_add,
    Int64.ofInt_sub, Int64.ofInt_mul, reckonYears, Calendar.reckonYears, Int64.ofInt_eq_ofNat,
    UInt64.toInt64_ofNat]
  grind

/-- The date of a day count of the reckoning, in words, is the whole-number date. -/
theorem dateOfDays_eq {n : UInt64} (h : n.toNat < 2 ^ 62) :
    dateOfDays n = (Int64.ofInt (reckonDate n.toNat).1, Int64.ofNat (reckonDate n.toNat).2.1,
      Int64.ofNat (reckonDate n.toNat).2.2) := by
  obtain ⟨-, hy, hyd, -, -⟩ := reckonSplit_spec n.toNat
  have hydw : (UInt64.ofNat (reckonSplit n.toNat).2.2).toNat = (reckonSplit n.toNat).2.2 := by
    rw [UInt64.toNat_ofNat', Nat.mod_eq_of_lt (by omega)]
  have hj : (if UInt64.ofNat (reckonSplit n.toNat).2.2 ≥ 306 then (1 : UInt64) else 0) =
      UInt64.ofNat (janFeb (reckonSplit n.toNat).2.2) := by
    unfold janFeb
    by_cases h306 : 306 ≤ (reckonSplit n.toNat).2.2
    · rw [if_pos h306, if_pos (UInt64.le_iff_toNat_le.2 (by rw [hydw]; exact h306))]
      rfl
    · rw [if_neg h306, if_neg (fun h' => h306 (by rw [← hydw]; exact UInt64.le_iff_toNat_le.1 h'))]
      rfl
  have hmonth := @janFeb_spec (reckonSplit n.toNat).2.2 (by omega)
  simp only [dateOfDays, splitDays_eq h, splitYearDay_eq (by rw [hydw]; omega), hydw, hj,
    year_word, reckonDate, Prod.mk.injEq]
  refine ⟨trivial, ?_, UInt64.toInt64_ofNat'⟩
  have hle : 12 * janFeb (reckonSplit n.toNat).2.2 ≤ (monthOfYearDay (reckonSplit n.toNat).2.2).1 := by
    rcases hmonth with ⟨h1, h13, -⟩ | ⟨h0, -, -⟩ <;> omega
  rw [UInt64.toInt64_ofNat', UInt64.toInt64_ofNat', Int64.ofNat_sub _ _ hle, Int64.ofNat_mul]
  rfl

/-! ## Counting the days of a date in words -/

/-- A word read back as an unsigned word and moved to a signed one is the same word. -/
theorem toUInt64_eq_ofNat {x : Int64} {k : Nat} (h : x = Int64.ofNat k) : x.toUInt64 = UInt64.ofNat k := by
  rw [h, Int64.toUInt64_ofNat']

/-- The year of the reckoning that a date of a month counts in: January and February count with
the year before. -/
theorem reckonYear_word {Y : Int} {j : Nat} (hY : 0 ≤ Y + Calendar.reckonYears - j) :
    (Int64.ofInt Y).toUInt64 - UInt64.ofNat j + reckonYears =
      UInt64.ofNat (Y + Calendar.reckonYears - j).toNat := by
  have h : (Int64.ofInt Y).toUInt64 - UInt64.ofNat j + reckonYears =
      (Int64.ofInt (Y - j + Calendar.reckonYears)).toUInt64 := by
    simp only [Int64.ofInt_add, Int64.ofInt_sub, Int64.toUInt64_add, Int64.toUInt64_sub,
      Int64.ofInt_eq_ofNat, Int64.toUInt64_ofNat', reckonYears, Calendar.reckonYears]
    rfl
  rw [h]
  apply toUInt64_eq_ofNat
  rw [← Int64.ofInt_eq_ofNat, Int.toNat_of_nonneg hY]
  congr 1
  omega

/-- Whether a month counts with the year before, as a 32-bit word. -/
theorem marchFlag_word {m : Nat} (h₂ : m ≤ 12) :
    (if UInt32.ofNat m < 3 then (1 : UInt32) else 0) = UInt32.ofNat (if m < 3 then 1 else 0) := by
  have hm : (UInt32.ofNat m).toNat = m := by
    rw [UInt32.toNat_ofNat', Nat.mod_eq_of_lt (by omega)]
  by_cases hm3 : m < 3
  · rw [if_pos (UInt32.lt_iff_toNat_lt.2 (by rw [hm]; exact hm3)), if_pos hm3]
    rfl
  · rw [if_neg (fun h => hm3 (by rw [← hm]; exact UInt32.lt_iff_toNat_lt.1 h)), if_neg hm3]
    rfl

/-- The days before a month counted from March, as a 32-bit word. -/
theorem monthStart_word {m j : Nat} (h₁ : 3 ≤ m + 12 * j) (h₂ : m + 12 * j ≤ 14) :
    (979 * (UInt32.ofNat m + 12 * UInt32.ofNat j) - 2919) >>> 5 =
      UInt32.ofNat ((153 * (m + 12 * j - 3) + 2) / 5) := by
  have hM := monthStart_eq (m + 12 * j) h₁ h₂
  have hprod : 979 * (UInt32.ofNat m + 12 * UInt32.ofNat j) = UInt32.ofNat (979 * (m + 12 * j)) := by
    simp only [UInt32.ofNat_mul, UInt32.ofNat_add]
    rfl
  have hval : (UInt32.ofNat (979 * (m + 12 * j))).toNat = 979 * (m + 12 * j) := by
    rw [UInt32.toNat_ofNat', Nat.mod_eq_of_lt (by omega)]
  have hle : (2919 : UInt32) ≤ UInt32.ofNat (979 * (m + 12 * j)) := by
    rw [UInt32.le_iff_toNat_le, hval]
    simp only [UInt32.reduceToNat]
    omega
  apply UInt32.toNat.inj
  rw [hprod, UInt32.toNat_shiftRight, UInt32.toNat_sub_of_le _ _ hle, hval]
  simp only [UInt32.reduceToNat, Nat.reduceMod, Nat.shiftRight_eq_div_pow, UInt32.toNat_ofNat']
  rw [Nat.mod_eq_of_lt (by omega)]
  omega

/-- The days before a year of its century, as a 32-bit word. -/
theorem yearStart_word {yy : Nat} (h : yy < 2 ^ 64) :
    1461 * (UInt64.ofNat yy % 100).toUInt32 / 4 = UInt32.ofNat (1461 * (yy % 100) / 4) := by
  have hyy : (UInt64.ofNat yy).toNat = yy := by
    rw [UInt64.toNat_ofNat', Nat.mod_eq_of_lt h]
  apply UInt32.toNat.inj
  rw [UInt32.toNat_ofNat', Nat.mod_eq_of_lt (by omega)]
  simp only [UInt32.toNat_div, UInt32.toNat_mul, UInt64.toNat_toUInt32, UInt64.toNat_mod, hyy,
    UInt32.reduceToNat, UInt64.reduceToNat]
  rw [Nat.mod_eq_of_lt (a := yy % 100) (by omega), Nat.mod_eq_of_lt (by omega)]

/-- The days before a century of the reckoning, as a 64-bit word. -/
theorem centuryStart_word {yy : Nat} (h : yy < 2 ^ 40) :
    146097 * (UInt64.ofNat yy / 100) / 4 = UInt64.ofNat (146097 * (yy / 100) / 4) := by
  have hyy : (UInt64.ofNat yy).toNat = yy := by
    rw [UInt64.toNat_ofNat', Nat.mod_eq_of_lt (by omega)]
  apply UInt64.toNat.inj
  rw [UInt64.toNat_ofNat', Nat.mod_eq_of_lt (by omega)]
  simp only [UInt64.toNat_div, UInt64.toNat_mul, hyy, UInt64.reduceToNat]
  rw [Nat.mod_eq_of_lt (by omega)]

/-- The day count of the reckoning of a date of a month within its year, in words, is Hinnant's
count from 1970-01-01 moved to the start of the reckoning. -/
theorem daysOfDate_toInt64 {Y : Int} {m : Nat} (h₁ : 1 ≤ m) (h₂ : m ≤ 12)
    (hY₀ : 0 ≤ Y + Calendar.reckonYears) (hY₁ : m < 3 → 1 ≤ Y + Calendar.reckonYears)
    (hY₂ : Y + Calendar.reckonYears < 2 ^ 40) (day : Int64) :
    (daysOfDate (Int64.ofInt Y) (Int64.ofNat m) day).toInt64 =
      Int64.ofInt (daysFromCivil Y m day.toInt + reckonEpochDays) := by
  -- January and February count as months 13 and 14 of the year before
  obtain ⟨j, hj⟩ : ∃ j : Nat, (if m < 3 then 1 else 0) = j := ⟨_, rfl⟩
  have hjm : (j = 1 ∧ 13 ≤ m + 12 * j ∧ m + 12 * j ≤ 14 ∧ 1 ≤ Y + Calendar.reckonYears) ∨
      (j = 0 ∧ 3 ≤ m + 12 * j ∧ m + 12 * j ≤ 12) := by
    by_cases hm3 : m < 3
    · rw [if_pos hm3] at hj
      exact .inl ⟨hj.symm, by omega, by omega, hY₁ hm3⟩
    · rw [if_neg hm3] at hj
      exact .inr ⟨hj.symm, by omega, by omega⟩
  have hjw : (UInt32.ofNat j).toUInt64 = UInt64.ofNat j :=
    UInt32.toUInt64_ofNat' (Nat.lt_of_le_of_lt (by omega : j ≤ 1) (by decide))
  have hR : Calendar.reckonYears = 292277022400 := rfl
  -- the year of the reckoning that the month counts in
  obtain ⟨yy, hyy⟩ : ∃ yy : Nat, (yy : Int) = Y + Calendar.reckonYears - j :=
    ⟨(Y + Calendar.reckonYears - j).toNat, Int.toNat_of_nonneg (by omega)⟩
  have hy : (Int64.ofInt Y).toUInt64 - UInt64.ofNat j + reckonYears = UInt64.ofNat yy := by
    rw [reckonYear_word (by omega), ← hyy, Int.toNat_natCast]
  have hlow : ((UInt32.ofNat (1461 * (yy % 100) / 4) +
      UInt32.ofNat ((153 * (m + 12 * j - 3) + 2) / 5)).toUInt64).toInt64 =
      Int64.ofNat (1461 * (yy % 100) / 4 + (153 * (m + 12 * j - 3) + 2) / 5) := by
    rw [← UInt32.ofNat_add, UInt32.toUInt64_ofNat' (by unfold UInt32.size; omega),
      UInt64.toInt64_ofNat']
  simp only [daysOfDate, Int64.toUInt64_ofNat', UInt64.toUInt32_ofNat', marchFlag_word h₂, hj, hjw,
    hy, @monthStart_word m j (by omega) (by omega), @yearStart_word yy (by omega),
    @centuryStart_word yy (by omega), hlow]
  -- Hinnant's count of the first of the month, from its century and year of the century
  have hcount := daysFromCivil_split (yy / 100) (yy % 100) ((153 * (m + 12 * j - 3) + 2) / 5)
    (m + 12 * j) 1 j (by omega) (by omega) (by omega) le_rfl
  have hY : 100 * ((yy / 100 : Nat) : Int) - Calendar.reckonYears + (yy % 100 : Nat) + j = Y := by
    omega
  rw [hY, show m + 12 * j - 12 * j = m by omega, Nat.cast_one] at hcount
  -- four centuries of 146097 days and four years of 1461 days, each with its leap day
  have hcentury : 146097 * (yy / 100) / 4 = 36524 * (yy / 100) + yy / 100 / 4 := by omega
  have hyear : 1461 * (yy % 100) / 4 = 365 * (yy % 100) + yy % 100 / 4 := by omega
  have hrhs : daysFromCivil Y m day.toInt + reckonEpochDays =
      ((146097 * (yy / 100) / 4 + (1461 * (yy % 100) / 4 + (153 * (m + 12 * j - 3) + 2) / 5) :
        Nat) : Int) + day.toInt - 1 := by
    rw [daysFromCivil_day, hcount, hcentury, hyear]
    push_cast
    omega
  rw [hrhs, UInt64.toInt64_add, UInt64.toInt64_ofNat', Int64.toInt64_toUInt64, Int64.ofInt_sub,
    Int64.ofInt_add, Int64.ofInt_toInt, Int64.ofInt_eq_ofNat]
  simp only [Int64.ofNat_add]
  grind

/-! ## Instants of dates, and dates of instants -/

/-- A low field already within `0 ≤ lo < base` carries nothing. -/
theorem carry_of_lt {hi lo base : Int64} (h₀ : 0 ≤ lo) (h₁ : lo < base) : carry hi lo base = (hi, lo) := by
  unfold carry
  rw [if_neg (by intro h; exact absurd h₀ (Int64.not_le.2 h))]
  simp only
  rw [if_neg (Int64.not_le.2 h₁)]

/-- The seconds from year 1 of a date and time whose fields lie in their ranges: its Unix second
moved to year 1. -/
theorem ofDate_eq {Y : Int} {m : Nat} (h₁ : 1 ≤ m) (h₂ : m ≤ 12)
    (hY₀ : 0 ≤ Y + Calendar.reckonYears) (hY₁ : m < 3 → 1 ≤ Y + Calendar.reckonYears)
    (hY₂ : Y + Calendar.reckonYears < 2 ^ 40) (d : Int64) {h mi s ns : Int64} (hh : 0 ≤ h ∧ h < 24) (hmi : 0 ≤ mi ∧ mi < 60)
    (hs : 0 ≤ s ∧ s < 60) (hns : 0 ≤ ns ∧ ns < 1000000000) :
    ofDate (Int64.ofInt Y) (Int64.ofNat m) d h mi s ns =
      ⟨Int64.ofInt (unixOf Y m d.toInt h.toInt mi.toInt s.toInt) + epochOffset, ns.toInt.toNat⟩ := by
  have hm : (0 : Int64) ≤ Int64.ofNat m - 1 ∧ Int64.ofNat m - 1 < 12 := by
    interval_cases m <;> decide
  simp only [ofDate, carry_of_lt hm.1 hm.2, carry_of_lt hns.1 hns.2, carry_of_lt hs.1 hs.2,
    carry_of_lt hmi.1 hmi.2, carry_of_lt hh.1 hh.2, Int64.sub_add_cancel,
    daysOfDate_toInt64 h₁ h₂ hY₀ hY₁ hY₂, Instant.mk.injEq, and_true]
  -- the days of `reckonEpochDays` are the seconds of `unixOffset`
  have hE : Int64.ofInt (reckonEpochDays : Int) * 86400 = unixOffset := by decide
  rw [unixOf_of_month Y h₁ h₂]
  simp only [Int64.ofInt_add, Int64.ofInt_mul, Int64.ofInt_toInt, ← hE]
  grind

/-- The seconds of an instant from the start of the reckoning, read back as a signed word, are its
seconds from year 1 moved by `yearOneOffset`. -/
theorem ofNat_reckoned (t : Instant) : Int64.ofNat t.reckoned.toNat = t.seconds + yearOneOffset := by
  rw [← UInt64.toInt64_ofNat', UInt64.ofNat_toNat]
  rfl

/-- The day count of an instant in the reckoning, as a number. -/
def dayCount (t : Instant) : Nat := t.reckoned.toNat / 86400

/-- The second of the day of an instant, as a number. -/
def secondOfDay (t : Instant) : Nat := t.reckoned.toNat % 86400

theorem dayCount_lt (t : Instant) : t.dayCount < 213503982334602 := by
  have := t.reckoned.toNat_lt
  unfold dayCount
  omega

theorem secondOfDay_lt (t : Instant) : t.secondOfDay < 86400 := Nat.mod_lt _ (by decide)

/-- The date of an instant is the date of its day count in the reckoning. -/
theorem date_eq (t : Instant) :
    t.date = (Int64.ofInt (reckonDate t.dayCount).1, Int64.ofNat (reckonDate t.dayCount).2.1,
      Int64.ofNat (reckonDate t.dayCount).2.2) := by
  have hn : (t.reckoned / 86400).toNat = t.dayCount := by
    simp only [UInt64.toNat_div, UInt64.reduceToNat, dayCount]
  rw [date, dateOfDays_eq (by rw [hn]; exact Nat.lt_trans t.dayCount_lt (by decide)), hn]

/-- The time of day of an instant is its second of the day split into hours, minutes and seconds. -/
theorem clock_eq (t : Instant) :
    t.clock = (Int64.ofNat (t.secondOfDay / 3600), Int64.ofNat (t.secondOfDay % 3600 / 60),
      Int64.ofNat (t.secondOfDay % 60)) := by
  have hr := t.secondOfDay_lt
  have hw : t.reckoned % 86400 = UInt64.ofNat t.secondOfDay := by
    apply UInt64.toNat.inj
    simp only [UInt64.toNat_mod, UInt64.reduceToNat, UInt64.toNat_ofNat', secondOfDay]
    omega
  have hs : (t.reckoned % 86400).toInt64 = Int64.ofNat t.secondOfDay := by
    rw [hw, UInt64.toInt64_ofNat']
  simp only [clock, hs]
  rw [Int64.ofNat_div (by omega) (by decide), Int64.ofNat_div (by omega) (by decide),
    Int64.ofNat_mod (by omega) (by decide), Int64.ofNat_mod (by omega) (by decide)]
  rfl

/-- A small number as a word lies in a range below a small bound. -/
theorem ofNat_range {a b : Nat} (h : a < b) (hb : b < 2 ^ 63) :
    0 ≤ Int64.ofNat a ∧ Int64.ofNat a < Int64.ofNat b := by
  show Int64.ofNat 0 ≤ _ ∧ _
  rw [Int64.ofNat_le_iff_le (by decide) (by omega), Int64.ofNat_lt_iff_lt (by omega) hb]
  omega

/-- The Unix second of the date and time of an instant is its second of the reckoning less the
seconds from the start of the reckoning to the Unix epoch. -/
theorem unixOf_date (t : Instant) :
    unixOf (reckonDate t.dayCount).1 (reckonDate t.dayCount).2.1 (reckonDate t.dayCount).2.2
        (t.secondOfDay / 3600 : Nat) (t.secondOfDay % 3600 / 60 : Nat) (t.secondOfDay % 60 : Nat) =
      t.reckoned.toNat - 9223372028741760000 := by
  obtain ⟨hm₁, hm₂, -, -⟩ := reckonDate_valid t.dayCount
  rw [unixOf_of_month _ hm₁ hm₂, daysFromCivil_reckonDate]
  have hsplit := Nat.div_add_mod t.reckoned.toNat 86400
  simp only [dayCount, secondOfDay, reckonEpochDays] at hsplit ⊢
  omega

/-- Rebuilt from its date, with the day moved by `k`, and its time of day, an instant moves by `k`
days. -/
theorem ofDate_date_clock (t : Instant) (k : Int64) (hn : t.nanos < 1000000000) :
    ofDate t.date.1 t.date.2.1 (t.date.2.2 + k) t.clock.1 t.clock.2.1 t.clock.2.2
        (Int64.ofNat t.nanos) = ⟨t.seconds + k * 86400, t.nanos⟩ := by
  obtain ⟨hm₁, hm₂, hd₁, hd₂⟩ := reckonDate_valid t.dayCount
  obtain ⟨hY₀, hY₁, hY₂⟩ := reckonDate_year_bounds t.dayCount_lt
  have hr := t.secondOfDay_lt
  have hdays : (reckonDate t.dayCount).2.2 ≤ 31 :=
    le_trans hd₂ (by unfold daysInMonth; split <;> (try split) <;> omega)
  rw [date_eq, clock_eq, ofDate_eq hm₁ hm₂ hY₀ hY₁ hY₂ _ (ofNat_range (b := 24) (by omega) (by decide))
    (ofNat_range (b := 60) (by omega) (by decide)) (ofNat_range (b := 60) (by omega) (by decide))
    (ofNat_range (b := 1000000000) hn (by decide)), Instant.mk.injEq]
  refine ⟨?_, by rw [Int64.toInt_ofNat_of_lt (by omega)]; rfl⟩
  -- the day moved by `k` moves the Unix second by `k` days, in words
  have hunix := unixOf_date t
  rw [unixOf_day] at hunix ⊢
  dsimp only
  rw [Int64.toInt_ofNat_of_lt (show t.secondOfDay / 3600 < 2 ^ 63 by omega),
    Int64.toInt_ofNat_of_lt (show t.secondOfDay % 3600 / 60 < 2 ^ 63 by omega),
    Int64.toInt_ofNat_of_lt (show t.secondOfDay % 60 < 2 ^ 63 by omega),
    show unixOf (reckonDate t.dayCount).1 (reckonDate t.dayCount).2.1 0 (t.secondOfDay / 3600 : Nat)
        (t.secondOfDay % 3600 / 60 : Nat) (t.secondOfDay % 60 : Nat) =
      t.reckoned.toNat - 9223372028741760000 - (reckonDate t.dayCount).2.2 * 86400 by omega]
  have hU : Int64.ofInt 9223372028741760000 = yearOneOffset + epochOffset := by decide
  simp only [Int64.ofInt_add, Int64.ofInt_sub, Int64.ofInt_mul, Int64.ofInt_toInt,
    Int64.ofInt_eq_ofNat, ofNat_reckoned, hU]
  grind

/-- Adding days to the date of an instant moves it by whole days of 86400 seconds, for every
instant and every count of days, in words. -/
theorem addDate_days (t : Instant) (k : Int64) (hn : t.nanos < 1000000000) :
    t.addDate 0 0 k = ⟨t.seconds + k * 86400, t.nanos⟩ := by
  simp only [addDate, Int64.add_zero]
  exact ofDate_date_clock t k hn

/-- Adding whole seconds that keep the count within the word adds them. -/
theorem addSeconds_of_fits (t : Instant) {d : Int64}
    (h₁ : -9223372036854775808 ≤ t.seconds.toInt + d.toInt)
    (h₂ : t.seconds.toInt + d.toInt < 9223372036854775808) :
    t.addSeconds d = { t with seconds := t.seconds + d } := by
  have hsum := Int64.toInt_add_of_fits h₁ h₂
  unfold addSeconds
  rw [if_pos]
  simp only [beq_iff_eq, decide_eq_decide, Int64.lt_iff_toInt_lt, hsum, Int64.toInt_zero]
  omega

/-- Adding a length of whole seconds, given in nanoseconds that fit a word, to an instant on a
whole second adds the seconds, while the count stays within the word. -/
theorem add_whole_seconds (t : Instant) (ht : t.nanos = 0) {s : Int64}
    (hs : -9223372036 ≤ s.toInt ∧ s.toInt ≤ 9223372036)
    (h₁ : -9223372036854775808 ≤ t.seconds.toInt + s.toInt)
    (h₂ : t.seconds.toInt + s.toInt < 9223372036854775808) :
    t.add (s * 1000000000) = ⟨t.seconds + s, 0⟩ := by
  have hmul : (s * 1000000000).toInt = s.toInt * 1000000000 := by
    rw [Int64.toInt_mul]
    exact Int.bmod_eq_of_le_mul_two (by simp; omega) (by simp; omega)
  have hdiv : s * 1000000000 / second = s := by
    apply Int64.toInt_inj.1
    rw [Int64.toInt_div_of_ne_right _ _ (by decide), hmul]
    simp [second, Int.mul_tdiv_cancel]
  have hmod : (s * 1000000000 % second).toInt = 0 := by
    rw [Int64.toInt_mod, hmul]
    simp [second]
  unfold add
  simp only [hdiv, hmod, ht]
  rw [if_neg (by decide), if_neg (by decide)]
  show addSeconds ⟨t.seconds, 0⟩ s = _
  rw [addSeconds_of_fits ⟨t.seconds, 0⟩ h₁ h₂]

end CycleSched.Instant
