import CycleSched.Cycle.Mode
import CycleSched.Text.Blank
import CycleSched.Text.Decimal

/-!
# Intervals

An interval offsets a cycle point. An integer interval counts steps. A Gregorian interval keeps
nominal years and months apart from exact days and seconds, so that calendar arithmetic stays
exact; its components are meant to share one sign. The zero offset that belongs to no mode
stands for "no offset". Components are 64-bit words and wrap on overflow.

Intervals are written in ISO 8601 form: `P3` for integers, `P1Y2M3DT4H5M6S` for Gregorian
intervals, with a leading `-` when negative. Seconds are written split into hours, minutes and
seconds, weeks as days, and a zero Gregorian interval as `P0D`.
-/

namespace CycleSched

/-- A signed offset between cycle points. -/
inductive Interval where
  /-- The zero offset of no mode. -/
  | zero
  /-- An integer interval of `n` steps. -/
  | steps (n : Int64)
  /-- A Gregorian interval. -/
  | calendar (years months days secs : Int64)
  deriving DecidableEq, Repr, Inhabited

namespace Interval

/-- The mode an interval belongs to, if any. -/
def mode? : Interval → Option Mode
  | zero => none
  | steps _ => some .integer
  | calendar .. => some .gregorian

/-- The integer step count (zero for other intervals). -/
def count : Interval → Int64
  | steps n => n
  | _ => 0

/-- The Gregorian components `(years, months, days, secs)` (zero for other intervals). -/
def parts : Interval → Int64 × Int64 × Int64 × Int64
  | calendar y m d s => (y, m, d, s)
  | _ => (0, 0, 0, 0)

/-- A Gregorian interval of exactly `s` seconds. -/
def seconds (s : Int64) : Interval := calendar 0 0 0 s

/-- The interval has no length. -/
def isZero : Interval → Bool
  | zero => true
  | steps n => n == 0
  | calendar y m d s => y == 0 && m == 0 && d == 0 && s == 0

/-- Some component points backwards. -/
def isNegative : Interval → Bool
  | zero => false
  | steps n => n < 0
  | calendar y m d s => y < 0 || m < 0 || d < 0 || s < 0

/-- The interval has year or month components, whose length depends on where it is applied. -/
def isNominal : Interval → Bool
  | calendar y m _ _ => y != 0 || m != 0
  | _ => false

/-- The interval multiplied by `k`, component by component. -/
def scale (d : Interval) (k : Int64) : Interval :=
  match d with
  | zero => zero
  | steps n => steps (n * k)
  | calendar y m dd s => calendar (y * k) (m * k) (dd * k) (s * k)

/-- The interval pointing the other way. -/
def neg (d : Interval) : Interval := d.scale (-1)

/-- The component-wise sum; the zero offset of no mode is neutral on both sides. -/
def plus : Interval → Interval → Interval
  | zero, e => e
  | d, zero => d
  | steps a, steps b => steps (a + b)
  | calendar y m d s, calendar y' m' d' s' => calendar (y + y') (m + m') (d + d') (s + s')
  | d, _ => d

/-- The length in seconds with a year of 365.2425 days and a month of 30.436875 days. -/
def approxSeconds (d : Interval) : Float :=
  let (y, m, dd, s) := d.parts
  Float.ofInt y.toInt * 365.2425 * 86400 + Float.ofInt m.toInt * 30.436875 * 86400 +
    Float.ofInt dd.toInt * 86400 + Float.ofInt s.toInt

/-- Orders intervals by length: integer intervals by their count, Gregorian intervals by their
mean length in seconds. -/
def compare (d e : Interval) : Ordering :=
  let integral := d.mode? == some .integer || e.mode? == some .integer
  let a := if integral then Float.ofInt d.count.toInt else d.approxSeconds
  let b := if integral then Float.ofInt e.count.toInt else e.approxSeconds
  if a < b then .lt else if a > b then .gt else .eq

/-- The decimal digits of a word, with a `-` when negative. -/
def wordText (n : Int64) : String := toString n

/-- The written form of a Gregorian interval whose components are taken as they are. -/
def calendarText (y m d s : Int64) : String :=
  let unit (n : Int64) (u : String) := if n == 0 then "" else wordText n ++ u
  let clock :=
    if s == 0 then ""
    else "T" ++ unit (s / 3600) "H" ++ unit (s % 3600 / 60) "M" ++ unit (s % 60) "S"
  "P" ++ unit y "Y" ++ unit m "M" ++ unit d "D" ++ clock

/-- The canonical ISO 8601 form. -/
def toText : Interval → String
  | steps n => if n < 0 then "-P" ++ wordText (-n) else "P" ++ wordText n
  | zero => "P0D"
  | d@(calendar y m dd s) =>
    if d.isZero then "P0D"
    else if d.isNegative then
      "-" ++ calendarText (-y) (-m) (-dd) (-s)
    else calendarText y m dd s

instance : ToString Interval := ⟨toText⟩

/-- The wall-clock length in nanoseconds, for a Gregorian interval without years and months. -/
def duration (d : Interval) : Except Failure Int64 :=
  match d with
  | calendar y m dd s =>
    if y != 0 || m != 0 then .error (.plain s!"interval {d.toText} has year or month components")
    else .ok ((dd * 86400 + s) * 1000000000)
  | _ => .error (.plain s!"interval {d.toText} is not a wall-clock duration")

/-- A run of ASCII digits at the head of a text and the rest. -/
def spanDigits (cs : List Char) : List Char × List Char :=
  (cs.takeWhile Char.isDigit, cs.dropWhile Char.isDigit)

/-- The value of a non-empty run of digits, clamped to the largest word. -/
def digitsWord (ds : List Char) : Int64 :=
  (Text.readDecimal (String.ofList ds)).value

/-- Reads an optional component `digits letter` at the head of a text: the digits, if the
component is there, and the rest. -/
def component (letter : Char) (cs : List Char) : Option (List Char) × List Char :=
  match spanDigits cs with
  | (ds@(_ :: _), l :: rest) => if l = letter then (some ds, rest) else (none, cs)
  | _ => (none, cs)

/-- The sign and body of an interval text: an optional `+` or `-`, then `P`. -/
def signed (cs : List Char) : Option (Bool × List Char) :=
  match cs with
  | '+' :: 'P' :: r => some (false, r)
  | '-' :: 'P' :: r => some (true, r)
  | 'P' :: r => some (false, r)
  | _ => none

/-- The Gregorian components of the body of an interval text after `P`: either weeks alone, or
optional years, months and days, then optionally `T` and optional hours, minutes and seconds. -/
def calendarBody (cs : List Char) : Option Interval :=
  match spanDigits cs with
  | (ds@(_ :: _), ['W']) => some (calendar 0 0 (digitsWord ds * 7) 0)
  | _ =>
    let word (o : Option (List Char)) := (o.map digitsWord).getD 0
    let (y, r) := component 'Y' cs
    let (m, r) := component 'M' r
    let (d, r) := component 'D' r
    match r with
    | [] => some (calendar (word y) (word m) (word d) 0)
    | 'T' :: r =>
      let (h, r) := component 'H' r
      let (mi, r) := component 'M' r
      let (s, r) := component 'S' r
      if r.isEmpty then
        some (calendar (word y) (word m) (word d) (word h * 3600 + word mi * 60 + word s))
      else none
    | _ => none

/-- Reads an interval of a mode, after trimming blanks: `P<n>` in integer mode, an ISO 8601
duration in Gregorian mode, each with an optional sign. Digit runs too long for a word are
clamped to the largest word. -/
def parse (mode : Mode) (text : String) : Except Failure Interval :=
  let s := Text.trimBlank text
  match mode with
  | .integer =>
    let bad := Failure.malformed s "not an integer interval (want P<n>)"
    match signed s.toList with
    | some (neg, ds@(_ :: _)) =>
      if ds.all Char.isDigit then
        let n := digitsWord ds
        .ok (steps (if neg then -n else n))
      else .error bad
    | _ => .error bad
  | .gregorian =>
    let bad := Failure.malformed s "not an ISO 8601 duration"
    if s.endsWith "P" || s.endsWith "T" then .error bad
    else
      match signed s.toList with
      | some (neg, body) =>
        match calendarBody body with
        | some d => .ok (if neg then d.neg else d)
        | none => .error bad
      | none => .error bad

/-- Reads an ISO 8601 duration as a wall-clock length in nanoseconds. -/
def parseDuration (text : String) : Except Failure Int64 := do
  let d ← parse .gregorian text
  d.duration

end Interval

end CycleSched
