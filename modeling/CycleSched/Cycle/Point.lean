import CycleSched.Cycle.Interval
import CycleSched.Calendar
import CycleSched.Instant

/-!
# Cycle points

An integer point holds its value; a Gregorian point holds UTC seconds since the Unix epoch.
Points are ordered by their value alone. Adding an interval to a Gregorian point applies years
and months first, clamping the day to the length of the month reached (31 January plus one month
is the last day of February), then days, then seconds. The dates are those of `Instant`,
reckoned in fixed-width words, so far from the ordinary years they wrap as the words do.

Gregorian points are read from ISO 8601 date-times of reduced precision in basic or extended
form, with an optional time zone offset that converts them to UTC, and written as
`YYYYMMDDThhmmZ`, with seconds when they are not zero.
-/

namespace CycleSched

/-- A cycle point of a mode. -/
structure Point where
  mode : Mode
  val : Int64
  deriving Repr, Inhabited

/-- Points are equal when their modes and values are. The decision compares the fields' values,
so evaluating it evaluates both points rather than matching how they were computed. -/
instance : DecidableEq Point := fun p q =>
  decidable_of_iff (p.mode = q.mode ∧ p.val = q.val) (by cases p; cases q; simp)

namespace Point

/-- Orders points by value. -/
def compare (p q : Point) : Ordering :=
  if p.val < q.val then .lt else if p.val > q.val then .gt else .eq

/-- Whether `p` comes strictly before `q`. -/
def before (p q : Point) : Bool := p.val < q.val

/-- Whether `p` comes strictly after `q`. -/
def after (p q : Point) : Bool := q.val < p.val

/-- The instant of a Gregorian point. -/
def time (p : Point) : Instant := Instant.ofUnix p.val

/-- The Gregorian point of an instant, at its whole Unix second. -/
def ofInstant (t : Instant) : Point := ⟨.gregorian, t.unix⟩

/-- The point at a Unix second given as an integer, wrapped to a word. -/
def ofUnix (v : Int) : Point := ⟨.gregorian, Int64.ofInt v⟩

/-- The instant some years and months after `t`, the day clamped to the month reached. -/
def monthsLater (t : Instant) (years months : Int64) : Instant :=
  let (year, month, day) := t.date
  let total := year * 12 + (month - 1) + years * 12 + months
  let y := total / 12
  let m := total % 12
  let (y, m) := if m < 0 then (y - 1, m + 12) else (y, m)
  let last := Instant.daysIn y (m + 1)
  let (h, mi, s) := t.clock
  Instant.ofDate y (m + 1) (if day > last then last else day) h mi s 0

/-- Adds years and months to a Gregorian point, clamping the day to the month reached. -/
def addMonths (p : Point) (years months : Int64) : Point :=
  ofInstant (monthsLater p.time years months)

/-- Adds days to a Gregorian point; the day of the month counts on in a word. -/
def addDays (p : Point) (days : Int64) : Point :=
  ofInstant (p.time.addDate 0 0 days)

/-- Adds seconds to a Gregorian point through a length in nanoseconds held in a word. -/
def addSeconds (p : Point) (secs : Int64) : Point :=
  ofInstant (p.time.add (secs * 1000000000))

/-- Offsets a point by an interval. -/
def add (p : Point) (d : Interval) : Point :=
  match p.mode with
  | .integer => ⟨.integer, p.val + d.count⟩
  | .gregorian =>
    let (y, m, dd, s) := d.parts
    let p := if y != 0 || m != 0 then p.addMonths y m else p
    let p := if dd != 0 then p.addDays dd else p
    if s != 0 then p.addSeconds s else p

/-- The exact distance `p - q`; for Gregorian points in seconds. -/
def sub (p q : Point) : Interval :=
  match p.mode with
  | .integer => .steps (p.val - q.val)
  | .gregorian => .seconds (p.val - q.val)

/-- The decimal digits of `n`, padded with zeros to at least `width`, after a `-` when
negative. -/
def padded (width : Nat) (n : Int) : String :=
  let digits := toString n.natAbs
  let body := String.ofList (List.replicate (width - digits.length) '0') ++ digits
  if n < 0 then "-" ++ body else body

/-- The canonical form: the integer value, or `YYYYMMDDThhmmZ` with seconds appended when
they are not zero. -/
def toText (p : Point) : String :=
  match p.mode with
  | .integer => toString p.val
  | .gregorian =>
    let t := p.time
    let (year, month, day) := t.date
    let (hour, minute, second) := t.clock
    let two (n : Int64) := padded 2 n.toInt
    padded 4 year.toInt ++ two month ++ two day ++ "T" ++ two hour ++ two minute ++
      (if second = 0 then "" else two second) ++ "Z"

instance : ToString Point := ⟨toText⟩

/-! ### Reading ISO 8601 date-times -/

/-- The fields of an ISO 8601 date-time as written, before they are checked. -/
structure IsoFields where
  year : Nat
  month : Option Nat := none
  day : Option Nat := none
  hour : Option Nat := none
  minute : Option Nat := none
  second : Option Nat := none
  /-- The zone: `none` when absent, `some none` for `Z`, else sign, hours and minutes. -/
  zone : Option (Option (Bool × Nat × Nat)) := none
  deriving Repr

/-- Two ASCII digits at the head of a text, their value and the rest. -/
def twoDigits : List Char → Option (Nat × List Char)
  | a :: b :: r => if a.isDigit && b.isDigit then
      some ((a.toNat - 48) * 10 + (b.toNat - 48), r) else none
  | _ => none

/-- The ways to read an optional character: with it first, when it is there, then without. -/
def optChar (c : Char) (cs : List Char) : List (List Char) :=
  match cs with
  | d :: r => if d = c then [r, cs] else [cs]
  | [] => [cs]

/-- The ways to read `sep? dd` at the head of a text, in order of preference. -/
def sepTwo (sep : Char) (cs : List Char) : List (Nat × List Char) :=
  (optChar sep cs).filterMap twoDigits

/-- Readings of the optional month and day, the longest first. -/
def dateReadings (cs : List Char) : List ((Option Nat × Option Nat) × List Char) :=
  ((sepTwo '-' cs).flatMap fun (mo, r) =>
    ((sepTwo '-' r).map fun (d, r') => ((some mo, some d), r')) ++ [((some mo, none), r)]) ++
  [((none, none), cs)]

/-- Readings of the optional time of day, the longest first. -/
def timeReadings (cs : List Char) :
    List ((Option Nat × Option Nat × Option Nat) × List Char) :=
  (match cs with
    | 'T' :: r =>
      (twoDigits r).toList.flatMap fun (h, r) =>
        ((sepTwo ':' r).flatMap fun (mi, r') =>
          ((sepTwo ':' r').map fun (s, r'') => ((some h, some mi, some s), r'')) ++
            [((some h, some mi, none), r')]) ++
        [((some h, none, none), r)]
    | _ => []) ++
  [((none, none, none), cs)]

/-- Readings of the optional zone, the longest first. -/
def zoneReadings (cs : List Char) : List (Option (Option (Bool × Nat × Nat)) × List Char) :=
  (match cs with
    | 'Z' :: r => [(some none, r)]
    | c :: r =>
      if c = '+' || c = '-' then
        (twoDigits r).toList.flatMap fun (h, r) =>
          ((sepTwo ':' r).map fun (mi, r') => (some (some (c == '-', h, mi)), r')) ++
            [(some (some (c == '-', h, 0)), r)]
      else []
    | [] => []) ++
  [(none, cs)]

/-- The fields of a whole ISO 8601 date-time text: four digits of year, then the optional
parts, each read as long as the rest of the text still fits. -/
def readIso (s : String) : Option IsoFields :=
  let all := (List.range 4).all fun i => (s.toList.getD i ' ').isDigit
  if !all then none else
  let yearDigits := s.toList.take 4
  let year := yearDigits.foldl (fun a c => a * 10 + (c.toNat - 48)) 0
  let readings :=
    (dateReadings (s.toList.drop 4)).flatMap fun ((mo, d), r) =>
      (timeReadings r).flatMap fun ((h, mi, sec), r') =>
        (zoneReadings r').filterMap fun (z, r'') =>
          if r''.isEmpty then
            some { year, month := mo, day := d, hour := h, minute := mi, second := sec,
                   zone := z : IsoFields }
          else none
  readings.head?

/-- Reads a Gregorian point from an ISO 8601 date-time. -/
def parseIso (s : String) : Except Failure Point :=
  match readIso s with
  | none => .error (.malformed s "not an ISO 8601 date-time")
  | some f =>
    let offset : Except Failure Int :=
      match f.zone with
      | some (some (neg, h, mi)) =>
        if h > 23 || mi > 59 then .error (.malformed s "time zone offset out of range")
        else .ok ((if neg then -1 else 1) * ((h : Int) * 3600 + mi * 60))
      | _ => .ok 0
    match offset with
    | .error e => .error e
    | .ok off =>
      let month := f.month.getD 1
      let day := f.day.getD 1
      let hour := f.hour.getD 0
      let minute := f.minute.getD 0
      let second := f.second.getD 0
      if month < 1 || month > 12 || day < 1 || day > Calendar.daysInMonth f.year month ||
          hour > 23 || minute > 59 || second > 59 then
        .error (.malformed s "date-time field out of range")
      else .ok (ofUnix (Calendar.unixOf f.year month day hour minute second - off))

/-- Reads a point of a mode, after trimming blanks. An integer point may have one extra
leading `+`. -/
def parse (mode : Mode) (text : String) : Except Failure Point :=
  let s := Text.trimBlank text
  match mode with
  | .integer =>
    let body := if s.startsWith "+" then String.ofList (s.toList.drop 1) else s
    match (Text.readDecimal body).inRange? with
    | some v => .ok ⟨.integer, v⟩
    | none => .error (.malformed s "not an integer cycle point")
  | .gregorian => parseIso s

end Point

end CycleSched
