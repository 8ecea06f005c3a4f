import CycleSched.Decimal.Text
import CycleSched.Calendar

/-!
# Scalar values

A plain scalar stands for a null, a boolean, an integer, a float, a timestamp or a string,
decided by its text; a quoted or block scalar is always a string.

* null: the empty text, `~`, `null`, `Null`, `NULL`;
* booleans: `true`, `True`, `TRUE`, `false`, `False`, `FALSE`;
* special floats: `.inf`, `+.inf`, `-.inf`, `.nan` in three letter cases;
* a text starting with a digit or a sign is, in this order of trial: a timestamp (four digits
  and `-` first), an integer (underscores removed; `0x`, `0o`, `0b` or a leading `0` choose the
  base, and a sign may also come right after `0b` or `0o`) in the range of signed or unsigned
  64-bit words, a decimal float in range;
* a text starting with `.` may be a float;
* everything else is a string.
-/

namespace CycleSched.Yaml

/-- A point in time with its zone offset, as a timestamp scalar gives it. -/
structure Timestamp where
  /-- Seconds since the Unix epoch. -/
  unix : Int
  nanos : Nat
  /-- The zone offset in seconds east of UTC. -/
  offset : Int
  deriving DecidableEq, Repr

namespace Timestamp

/-- The same instant seen at zone offset zero. -/
def utc (t : Timestamp) : Timestamp := { t with offset := 0 }

/-- A number written with at least `width` digits, a minus sign in front when negative. -/
def padded (width : Nat) (n : Int) : String :=
  let digits := toString n.natAbs
  let body := String.ofList (List.replicate (width - digits.length) '0') ++ digits
  if n < 0 then "-" ++ body else body

/-- The fraction of a second, without its trailing zeros, and nothing when it is zero. -/
def fraction (nanos : Nat) : String :=
  if nanos = 0 then ""
  else
    let digits := (padded 9 nanos).toList.reverse.dropWhile (· = '0') |>.reverse
    "." ++ String.ofList digits

/-- The instant as `YYYY-MM-DDThh:mm:ss[.f]` and its zone, `Z` for offset zero or `±hh:mm`. -/
def toText (t : Timestamp) : String :=
  let c := Calendar.Civil.ofUnix (t.unix + t.offset)
  let zone :=
    if t.offset = 0 then "Z"
    else
      let m := t.offset.natAbs / 60
      (if t.offset < 0 then "-" else "+") ++ padded 2 (m / 60) ++ ":" ++ padded 2 (m % 60)
  padded 4 c.year ++ "-" ++ padded 2 c.month ++ "-" ++ padded 2 c.day ++ "T" ++
    padded 2 c.hour ++ ":" ++ padded 2 c.minute ++ ":" ++ padded 2 c.second ++
    fraction t.nanos ++ zone

end Timestamp

/-- The typed value of a scalar. -/
inductive Scalar where
  | null
  | bool (b : Bool)
  | int (n : Int)
  | float (f : Float)
  | time (t : Timestamp)
  | str (s : String)
  deriving Repr

namespace Scalar

/-- The short tag of a value's type. -/
def tag : Scalar → String
  | null => "!!null"
  | bool _ => "!!bool"
  | int _ => "!!int"
  | float _ => "!!float"
  | time _ => "!!timestamp"
  | str _ => "!!str"

/-- Whether two values are the same key of a table: of one kind and equal; a NaN equals
nothing, and two instants are the same only at zone offset zero. -/
def sameKey : Scalar → Scalar → Bool
  | null, null => true
  | bool a, bool b => a == b
  | int a, int b => a == b
  | float a, float b => a == b
  | time a, time b => a.offset = 0 && b.offset = 0 && a.unix = b.unix && a.nanos = b.nanos
  | str a, str b => a == b
  | _, _ => false

end Scalar

/-- Reads a run of one or two digits at the head of a text. -/
def upToTwoDigits : List Char → Option (Nat × List Char)
  | a :: b :: r =>
    if a.isDigit then
      if b.isDigit then some ((a.toNat - 48) * 10 + (b.toNat - 48), r)
      else some (a.toNat - 48, b :: r)
    else none
  | [a] => if a.isDigit then some (a.toNat - 48, []) else none
  | [] => none

/-- Reads the time of day `h:m:s[.fraction]` of a timestamp. -/
def readClock (cs : List Char) : Option ((Nat × Nat × Nat × Nat) × List Char) := do
  let (h, cs) ← upToTwoDigits cs
  let cs ← match cs with | ':' :: r => some r | _ => none
  let (mi, cs) ← upToTwoDigits cs
  let cs ← match cs with | ':' :: r => some r | _ => none
  let (s, cs) ← upToTwoDigits cs
  if h ≥ 24 || mi ≥ 60 || s ≥ 60 then none
  let (nanos, cs) := match cs with
    | c :: d :: r =>
      if (c = '.' || c = ',') && d.isDigit then
        let ds := (d :: r).takeWhile Char.isDigit
        let rest := (d :: r).dropWhile Char.isDigit
        let nine := (ds.take 9 ++ List.replicate (9 - min 9 ds.length) '0')
        (nine.foldl (fun a c => a * 10 + (c.toNat - 48)) 0, rest)
      else (0, cs)
    | _ => (0, cs)
  return ((h, mi, s, nanos), cs)

/-- Reads the date `yyyy-m-d` of a timestamp, checking that the day exists. -/
def readDate (cs : List Char) : Option ((Int × Nat × Nat) × List Char) := do
  let yds := cs.take 4
  if yds.length < 4 || !yds.all Char.isDigit then none
  let year : Int := (yds.foldl (fun a c => a * 10 + (c.toNat - 48)) 0 : Nat)
  let cs ← match cs.drop 4 with | '-' :: r => some r | _ => none
  let (m, cs) ← upToTwoDigits cs
  let cs ← match cs with | '-' :: r => some r | _ => none
  let (d, cs) ← upToTwoDigits cs
  if m < 1 || m > 12 || d < 1 || d > Calendar.daysInMonth year m then none
  return ((year, m, d), cs)

/-- Reads a timestamp: a date alone, a date and time separated by a run of spaces, or a date and time
separated by `T` or `t` followed by `Z` or a `±hh:mm` offset. -/
def readTimestamp (s : String) : Option Timestamp := do
  let ((y, m, d), rest) ← readDate s.toList
  let moment (h mi sec : Nat) (off : Int) : Int := Calendar.unixOf y m d h mi sec - off
  match rest with
  | [] => some ⟨moment 0 0 0 0, 0, 0⟩
  | sep :: r =>
    let r := if sep = ' ' then r.dropWhile (· = ' ') else r
    let ((h, mi, sec, ns), r) ← readClock r
    if sep = ' ' then
      if r.isEmpty then some ⟨moment h mi sec 0, ns, 0⟩ else none
    else if sep = 'T' || sep = 't' then
      match r with
      | ['Z'] => some ⟨moment h mi sec 0, ns, 0⟩
      | [sg, a, b, ':', c, e] =>
        if !(a.isDigit && b.isDigit && c.isDigit && e.isDigit) then none
        else
          let oh := (a.toNat - 48) * 10 + (b.toNat - 48)
          let om := (c.toNat - 48) * 10 + (e.toNat - 48)
          if oh > 24 || om > 60 then none
          else
            let off : Int := (oh * 60 + om) * 60
            let off := if sg = '+' then some off else if sg = '-' then some (-off) else none
            off.map fun o => ⟨moment h mi sec o, ns, o⟩
      | _ => none
    else none

/-- The value of digits in a base, if all are digits of it and there is at least one. -/
def digitsIn (base : Nat) (cs : List Char) : Option Nat :=
  let vals := cs.map fun c =>
    if c.isDigit then c.toNat - 48
    else if 'a' ≤ c && c ≤ 'z' then c.toNat - 87
    else if 'A' ≤ c && c ≤ 'Z' then c.toNat - 55
    else 99
  if cs.isEmpty || vals.any (· ≥ base) then none
  else some (vals.foldl (fun a v => a * base + v) 0)

/-- Reads an integer with its base chosen by its prefix, with an optional sign. -/
def readBasedInt (s : List Char) : Option (Bool × Nat) :=
  let (neg, signed, cs) := match s with
    | '-' :: r => (true, true, r)
    | '+' :: r => (false, true, r)
    | r => (false, false, r)
  let _ := signed
  let v := match cs with
    | '0' :: 'x' :: r | '0' :: 'X' :: r => digitsIn 16 r
    | '0' :: 'o' :: r | '0' :: 'O' :: r => digitsIn 8 r
    | '0' :: 'b' :: r | '0' :: 'B' :: r => digitsIn 2 r
    | '0' :: r@(_ :: _) => digitsIn 8 r
    | r => digitsIn 10 r
  v.map fun n => (neg, n)

/-- The integer a text stands for with its sign first: in the signed 64-bit range, or, without
a sign, in the unsigned one. -/
def readSignFirst (cs : List Char) : Option Int := do
  let (neg, n) ← readBasedInt cs
  let signed := cs.head? = some '-' || cs.head? = some '+'
  let v : Int := if neg then -(n : Int) else n
  if -Int.pow 2 63 ≤ v && v < Int.pow 2 63 then some v
  else if !signed && n < Nat.pow 2 64 then some v
  else none

/-- The integer a text stands for when a lower-case `0b` or `0o` prefix comes before the sign,
as in `0b-101`: the digits after the prefix read in base 2 or 8, signed or not, as words of 64
bits are. -/
def readSignAfterPrefix (cs : List Char) : Option Int :=
  match cs with
  | '0' :: 'b' :: r => signed 2 r
  | '0' :: 'o' :: r => signed 8 r
  | _ => none
where
  /-- Digits of a base after an optional sign, in the range of their sign. -/
  signed (base : Nat) : List Char → Option Int
    | '-' :: ds => (digitsIn base ds).bind fun n => if n ≤ Nat.pow 2 63 then some (-(n : Int)) else none
    | '+' :: ds => (digitsIn base ds).bind fun n => if n < Nat.pow 2 63 then some (n : Int) else none
    | ds => (digitsIn base ds).bind fun n => if n < Nat.pow 2 64 then some (n : Int) else none

/-- The integer a text stands for: read with its sign first, or else with the sign after a
`0b` or `0o` prefix. -/
def readWord (cs : List Char) : Option Int :=
  readSignFirst cs <|> readSignAfterPrefix cs

/-- A float text as floats are written in YAML: sign, digits with an optional point (or a point
and digits), optional exponent. -/
def isYamlFloat (cs : List Char) : Bool :=
  let cs := match cs with | '-' :: r | '+' :: r => r | r => r
  let (body, rest) := match cs with
    | '.' :: r =>
      let ds := r.takeWhile Char.isDigit
      (!ds.isEmpty, r.dropWhile Char.isDigit)
    | r =>
      let ds := r.takeWhile Char.isDigit
      let r := r.dropWhile Char.isDigit
      match r with
      | '.' :: r' => (!ds.isEmpty, r'.dropWhile Char.isDigit)
      | r' => (!ds.isEmpty, r')
  body && match rest with
    | [] => true
    | e :: r =>
      (e = 'e' || e = 'E') &&
        let r := match r with | '-' :: r' | '+' :: r' => r' | r' => r'
        !r.isEmpty && r.all Char.isDigit

/-- The short form of a tag: `tag:yaml.org,2002:x` is written `!!x`. -/
def shortTag (tag : String) : String :=
  if tag.startsWith "tag:yaml.org,2002:" then "!!" ++ (tag.drop 18).toString else tag

/-- The tags whose scalars are resolved from their text; a scalar with any other tag is its
text as it stands. -/
def isResolvable (tag : String) : Bool :=
  tag == "" || tag == "!!str" || tag == "!!bool" || tag == "!!int" || tag == "!!float" ||
    tag == "!!timestamp" || tag == "!!null"

/-- The words that stand for a value whatever else the text could be. -/
def fixedWord (s : String) : Option (String × Scalar) :=
  match s with
  | "" | "~" | "null" | "Null" | "NULL" => some ("!!null", .null)
  | "true" | "True" | "TRUE" => some ("!!bool", .bool true)
  | "false" | "False" | "FALSE" => some ("!!bool", .bool false)
  | ".nan" | ".NaN" | ".NAN" => some ("!!float", .float (0 / 0))
  | ".inf" | ".Inf" | ".INF" | "+.inf" | "+.Inf" | "+.INF" => some ("!!float", .float (1 / 0))
  | "-.inf" | "-.Inf" | "-.INF" => some ("!!float", .float (-1 / 0))
  | _ => none

/-- What the first character of a text says it may be: a sign, a digit, a letter of a fixed
word, a point, or nothing. -/
def hintOf (s : String) : Char :=
  match s.toList with
  | [] => 'N'
  | c :: _ =>
    if c = '+' || c = '-' then 'S'
    else if c.isDigit then 'D'
    else if "yYnNtTfFoO~".contains c then 'M'
    else if c = '.' then '.'
    else ' '

/-- The tag and value a text resolves to under `tag` (empty, or one of the resolvable ones): a
fixed word; after a point, a float; after a digit or sign, a timestamp (only when untagged or
tagged as one), an integer (underscores dropped) or a float; otherwise a string. -/
def resolveText (tag s : String) : String × Scalar :=
  let hint := hintOf s
  if hint = ' ' || tag == "!!str" then ("!!str", .str s)
  else match fixedWord s with
  | some r => r
  | none =>
    if hint = '.' then
      match Decimal.readFloat? s with
      | some (some f) => ("!!float", .float f)
      | _ => ("!!str", .str s)
    else if hint = 'D' || hint = 'S' then
      let stamp := if tag == "" || tag == "!!timestamp" then readTimestamp s else none
      match stamp with
      | some t => ("!!timestamp", .time t)
      | none =>
        let plain := s.toList.filter (· != '_')
        match readWord plain with
        | some n => ("!!int", .int n)
        | none =>
          if isYamlFloat plain then
            match Decimal.readFloat? (String.ofList plain) with
            | some (some f) => ("!!float", .float f)
            | _ => ("!!str", .str s)
          else ("!!str", .str s)
    else ("!!str", .str s)

/-- Resolves a scalar's text under its tag. An unresolvable tag keeps the text as a string; a
resolvable one must agree with what the text is, except that an integer may be read as a float.
The failure text names what the text is and what it was tagged as. -/
def resolve (tag text : String) : Except String (String × Scalar) := do
  let tag := shortTag tag
  if !isResolvable tag then return (tag, .str text)
  let (rtag, v) := resolveText tag text
  if tag == "" || tag == rtag || tag == "!!str" then return (rtag, v)
  if tag == "!!float" then
    if let .int n := v then
      if n < Int.pow 2 63 then return ("!!float", .float (Float.ofInt n))
  throw s!"cannot decode {rtag} `{text}` as a {tag}"

/-- The value of a plain scalar's text without a tag. -/
def resolvePlain (s : String) : Scalar := (resolveText "" s).2

/-- The tag a plain scalar's text resolves to. -/
def plainTag (s : String) : String := (resolveText "" s).1

end CycleSched.Yaml
