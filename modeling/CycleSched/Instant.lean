/-!
# Instants

An instant is a count of whole seconds since the start of year 1 (UTC), held in a signed 64-bit
word, and the nanoseconds within that second. The Unix epoch comes 62135596800 seconds after
the start of year 1. The start of year 1 itself stands for no time at all, so an instant that
lands on it by arithmetic also reads as no time.

The arithmetic is that of the 64-bit word. An instant built from Unix seconds wraps around when
the count since year 1 passes the end of the word, and so does reading it back as Unix seconds,
so the two wraps cancel. Adding a duration instead sticks at the largest or smallest count.
Instants are ordered by their count and then by their nanoseconds, so an instant whose count
wrapped comes before every ordinary one.

Civil dates are reckoned in unsigned words of days counted from 1 March of year -292277022400,
a multiple of 400 years before year 0, so that every leap day ends its year: four centuries are
146097 days, a century 36524 or 36525 days, and a year 365 or 366 days. All of the reckoning is
done in fixed-width words, so far outside the ordinary years the dates wrap around as the words
do, and a date read back from an instant there need not be the date it was built from.
-/

namespace CycleSched

/-- A point in time: whole seconds since the start of year 1, and nanoseconds within the second
(below 10^9). -/
structure Instant where
  seconds : Int64
  nanos : Nat
  deriving DecidableEq, Repr, Inhabited

namespace Instant

/-- Seconds from the start of year 1 to the Unix epoch. -/
def epochOffset : Int64 := 62135596800

/-- Nanoseconds in a second. -/
def second : Int64 := 1000000000

/-- No time at all: the start of year 1. -/
def zero : Instant := ⟨0, 0⟩

/-- The instant stands for no time. -/
def isZero (t : Instant) : Bool := t.seconds == 0 && t.nanos == 0

/-- The instant named by whole Unix seconds. -/
def ofUnix (s : Int64) : Instant := ⟨s + epochOffset, 0⟩

/-- The whole Unix seconds of an instant. -/
def unix (t : Instant) : Int64 := t.seconds - epochOffset

/-- Adds whole seconds; a sum past either end of the word sticks one short of the smallest
count, or at the largest. -/
def addSeconds (t : Instant) (d : Int64) : Instant :=
  let sum := t.seconds + d
  if decide (sum > t.seconds) == decide (d > 0) then { t with seconds := sum }
  else if d > 0 then { t with seconds := Int64.maxValue }
  else { t with seconds := -Int64.maxValue }

/-- Adds a duration in nanoseconds. The whole seconds of the duration are truncated towards
zero, and its remainder carries into or borrows from the seconds. -/
def add (t : Instant) (d : Int64) : Instant :=
  let secs := d / second
  let n := (t.nanos : Int) + (d % second).toInt
  if n ≥ second.toInt then addSeconds ⟨t.seconds, (n - second.toInt).toNat⟩ (secs + 1)
  else if n < 0 then addSeconds ⟨t.seconds, (n + second.toInt).toNat⟩ (secs - 1)
  else addSeconds ⟨t.seconds, n.toNat⟩ secs

/-- `t` comes strictly before `u`. -/
def before (t u : Instant) : Bool :=
  t.seconds < u.seconds || (t.seconds == u.seconds && t.nanos < u.nanos)

/-! ### Civil dates -/

/-- Years from the start of the reckoning to year 0. -/
def reckonYears : UInt64 := 292277022400

/-- Seconds from the start of the reckoning to the start of year 1. -/
def yearOneOffset : Int64 := 9223371966606163200

/-- Seconds from the start of the reckoning to the Unix epoch. -/
def unixOffset : Int64 := 9223372028741760000

/-- The seconds of an instant counted from the start of the reckoning. -/
def reckoned (t : Instant) : UInt64 := (t.seconds + yearOneOffset).toUInt64

/-- Splits a count of days into whole centuries, the year within the century, and the day of
that year counted from 1 March. -/
def splitDays (days : UInt64) : UInt64 × UInt64 × UInt64 :=
  let d := 4 * days + 3
  let p := 2939745 * ((d % 146097) ||| 3)
  (d / 146097, p >>> 32, (p &&& 0xFFFFFFFF) / 2939745 / 4)

/-- The month (3 for March up to 14 for February of the next year) and the day of the month of
a day of the year counted from 1 March. -/
def splitYearDay (yearDay : UInt64) : UInt64 × UInt64 :=
  let d := (2141 * yearDay + 197913) % 4294967296
  (d >>> 16, 1 + (d &&& 0xFFFF) / 2141)

/-- The year, month (1 to 12) and day of the month of a count of days. -/
def dateOfDays (days : UInt64) : Int64 × Int64 × Int64 :=
  let (century, year, yearDay) := splitDays days
  let (month, day) := splitYearDay yearDay
  let janFeb : UInt64 := if yearDay ≥ 306 then 1 else 0
  ((century * 100 - reckonYears).toInt64 + year.toInt64 + janFeb.toInt64,
    month.toInt64 - 12 * janFeb.toInt64, day.toInt64)

/-- The year, month and day of the month of an instant, in UTC. -/
def date (t : Instant) : Int64 × Int64 × Int64 := dateOfDays (t.reckoned / 86400)

/-- The hour, minute and second of an instant, in UTC. -/
def clock (t : Instant) : Int64 × Int64 × Int64 :=
  let s := (t.reckoned % 86400).toInt64
  (s / 3600, s % 3600 / 60, s % 60)

/-- Days from the start of the reckoning to a day of a month (1 to 12) of a year; the day may
lie outside the month and counts on from its first day. -/
def daysOfDate (year month day : Int64) : UInt64 :=
  let m := month.toUInt64.toUInt32
  let janFeb : UInt32 := if m < 3 then 1 else 0
  let m := m + 12 * janFeb
  let y := year.toUInt64 - janFeb.toUInt64 + reckonYears
  let yearDay := (979 * m - 2919) >>> 5
  let cday := 1461 * (y % 100).toUInt32 / 4
  146097 * (y / 100) / 4 + ((cday + yearDay).toUInt64.toInt64 + day - 1).toUInt64

/-- Carries a low field outside `0 ≤ lo < base` into the high field. -/
def carry (hi lo base : Int64) : Int64 × Int64 :=
  let (hi, lo) := if lo < 0 then
      let n := (-lo - 1) / base + 1
      (hi - n, lo + n * base)
    else (hi, lo)
  if lo ≥ base then (hi + lo / base, lo - lo / base * base) else (hi, lo)

/-- The instant of a date and time in UTC. A field outside its range carries into the next
larger one: the month into the year, and the nanoseconds, seconds, minutes and hours up to the
day, which counts on from the first day of the month. -/
def ofDate (year month day hour minute second nanos : Int64) : Instant :=
  let (year, month) := carry year (month - 1) 12
  let (second, nanos) := carry second nanos 1000000000
  let (minute, second) := carry minute second 60
  let (hour, minute) := carry hour minute 60
  let (day, hour) := carry day hour 24
  let unix := (daysOfDate year (month + 1) day).toInt64 * 86400 +
    (hour * 3600 + minute * 60 + second) - unixOffset
  ⟨unix + epochOffset, nanos.toInt.toNat⟩

/-- Adds years, months and days to the date of an instant, keeping its time of day; the fields
carry as in `ofDate`. -/
def addDate (t : Instant) (years months days : Int64) : Instant :=
  let (y, m, d) := t.date
  let (h, mi, s) := t.clock
  ofDate (y + years) (m + months) (d + days) h mi s (Int64.ofNat t.nanos)

/-- The number of days of a month of a year: the day before the first of the next month. -/
def daysIn (year month : Int64) : Int64 := (ofDate year (month + 1) 0 0 0 0 0).date.2.2

end Instant

end CycleSched
