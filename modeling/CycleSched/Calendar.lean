/-!
# The proleptic Gregorian calendar

Civil dates and times of day on the proleptic Gregorian calendar, counted against Unix seconds
(seconds since 1970-01-01T00:00 UTC, leap seconds not counted). A year is a leap year when it is
divisible by 4, except centuries not divisible by 400. Days are counted in eras of 400 years,
146097 days each, with the year starting in March so that the leap day comes last.
-/

namespace CycleSched.Calendar

/-- Leap years: divisible by 4, except centuries not divisible by 400. -/
def isLeap (y : Int) : Bool :=
  y % 4 == 0 && (y % 100 != 0 || y % 400 == 0)

/-- The number of days of month `m` (1 to 12) of year `y`. -/
def daysInMonth (y : Int) (m : Nat) : Nat :=
  match m with
  | 2 => if isLeap y then 29 else 28
  | 4 | 6 | 9 | 11 => 30
  | _ => 31

/-- Days from 1970-01-01 to the first day of month `m` (1 to 12) of year `y`, plus `d - 1`. -/
def daysFromCivil (y : Int) (m : Nat) (d : Int) : Int :=
  let y' := if m ≤ 2 then y - 1 else y
  let era := y' / 400
  let yoe := y' - era * 400
  let mp : Int := if m > 2 then m - 3 else m + 9
  let doy := (153 * mp + 2) / 5 + d - 1
  let doe := yoe * 365 + yoe / 4 - yoe / 100 + doy
  era * 146097 + doe - 719468

/-- A civil date and time of day in UTC. -/
structure Civil where
  year : Int
  month : Nat
  day : Nat
  hour : Nat
  minute : Nat
  second : Nat
  deriving DecidableEq, Repr

/-- The civil date of the day that lies `z` days after 1970-01-01. -/
def civilOfDays (z : Int) : Int × Nat × Nat :=
  let z := z + 719468
  let era := z / 146097
  let doe := z - era * 146097
  let yoe := (doe - doe / 1460 + doe / 36524 - doe / 146096) / 365
  let doy := doe - (365 * yoe + yoe / 4 - yoe / 100)
  let mp := (5 * doy + 2) / 153
  let d := doy - (153 * mp + 2) / 5 + 1
  let m := if mp < 10 then mp + 3 else mp - 9
  let y := yoe + era * 400 + (if m ≤ 2 then 1 else 0)
  (y, m.toNat, d.toNat)

/-- The civil date and time of a Unix second. -/
def Civil.ofUnix (v : Int) : Civil :=
  let days := v / 86400
  let secs := (v % 86400).toNat
  let (y, m, d) := civilOfDays days
  { year := y, month := m, day := d, hour := secs / 3600, minute := secs % 3600 / 60,
    second := secs % 60 }

/-- The Unix second of a date and time whose month, day, hour, minute and second may lie outside
their ranges: a month beyond 12 or below 1 moves the year, and the other fields count on from
the first day of the month at midnight. -/
def unixOf (y : Int) (m : Int) (d h mi s : Int) : Int :=
  let y' := y + (m - 1) / 12
  let m' := ((m - 1) % 12 + 1).toNat
  (daysFromCivil y' m' 1 + (d - 1)) * 86400 + h * 3600 + mi * 60 + s

/-- The Unix second of a civil date and time. -/
def Civil.toUnix (c : Civil) : Int :=
  unixOf c.year c.month c.day c.hour c.minute c.second

end CycleSched.Calendar
