import CycleSched.Decimal.Shortest

/-!
# Writing and reading floats as decimal text

Floats are written in the general form with the shortest digits that read back: positional
notation when the power of ten of the first digit lies between -4 and 5, else one digit, a point
and the rest of the digits, then `e`, a sign and at least two exponent digits. Infinities are
`+Inf` and `-Inf`, and a NaN is `NaN`.

A decimal text (sign, digits with an optional point, optional exponent) is read as the double
nearest to its value; a value beyond the largest double is out of range.
-/

namespace CycleSched.Decimal

/-- Digits as text. -/
def digitText (ds : List Nat) : String := String.ofList (ds.map fun d => Char.ofNat (48 + d))

/-- The general form of a float with its shortest digits. -/
def general (f : Float) : String :=
  if f.isNaN then "NaN"
  else if f.isInf then (if f > 0 then "+Inf" else "-Inf")
  else
    let bits := f.toBits
    let neg := bits >>> 63 == 1
    let sign := if neg then "-" else ""
    if bits &&& 0x7FFFFFFFFFFFFFFF == 0 then sign ++ "0"
    else
      let d := shortestOfBits (bits &&& 0x7FFFFFFFFFFFFFFF)
      let nd := d.digits.length
      let x := d.exponent
      if x < -4 || x ≥ 6 then
        let mant := match d.digits with
          | first :: rest => digitText [first] ++ (if rest.isEmpty then "" else "." ++ digitText rest)
          | [] => "0"
        let ex := x.natAbs
        let exText := (if ex < 10 then "0" else "") ++ toString ex
        sign ++ mant ++ "e" ++ (if x < 0 then "-" else "+") ++ exText
      else if x < 0 then
        sign ++ "0." ++ String.ofList (List.replicate (x.natAbs - 1) '0') ++ digitText d.digits
      else
        let intLen := x.toNat + 1
        let intPart := digitText (d.digits.take intLen) ++
          String.ofList (List.replicate (intLen - min intLen nd) '0')
        let frac := d.digits.drop intLen
        sign ++ intPart ++ (if frac.isEmpty then "" else "." ++ digitText frac)

/-- A float cut toward zero into a signed 64-bit integer. A NaN or a float beyond the range
gives the least integer, as the processor's conversion does. -/
def toWord (f : Float) : Int64 :=
  if f.isNaN || f ≥ 9223372036854775808.0 || f < -9223372036854775808.0 then Int64.minValue
  else f.toInt64

/-- The double nearest to `±mantissa · 10^exp`; `none` when it lies beyond the largest double. -/
def nearest (neg : Bool) (mantissa : Nat) (exp : Int) : Option Float :=
  let mag : Float :=
    if mantissa = 0 then 0
    else
      let size : Int := (toString mantissa).length
      if exp + size > 311 then 1 / 0
      else if exp + size < -343 then 0
      else if exp ≥ 0 then Float.ofScientific mantissa false exp.toNat
      else Float.ofScientific mantissa true (-exp).toNat
  if mag.isInf then none else some (if neg then -mag else mag)

/-- Underscores may separate digits: each one stands between two digits (a sign is skipped). -/
def separatorsFit (cs : List Char) : Bool :=
  let cs := match cs with
    | '-' :: r | '+' :: r => r
    | r => r
  let rec walk : Char → List Char → Bool
    | saw, [] => saw != '_'
    | saw, c :: r =>
      if c.isDigit then walk '0' r
      else if c = '_' then saw == '0' && walk '_' r
      else saw != '_' && walk '!' r
  walk '^' cs

/-- Reads `[sign] digits [. digits] [e [sign] digits]` or `[sign] . digits [e ...]`, at least
one digit before or after the point; underscores between digits are skipped. -/
def readFloat? (s : String) : Option (Option Float) :=
  let cs := s.toList
  if cs.contains '_' && !separatorsFit cs then none else
  let cs := cs.filter (· != '_')
  let (neg, cs) := match cs with
    | '-' :: r => (true, r)
    | '+' :: r => (false, r)
    | r => (false, r)
  let intDs := cs.takeWhile Char.isDigit
  let cs := cs.dropWhile Char.isDigit
  let (fracDs, cs) := match cs with
    | '.' :: r => (r.takeWhile Char.isDigit, r.dropWhile Char.isDigit)
    | r => ([], r)
  if intDs.isEmpty && fracDs.isEmpty then none
  else
    let expPart : Option Int := match cs with
      | [] => some 0
      | e :: r =>
        if e = 'e' || e = 'E' then
          let (eneg, r) := match r with
            | '-' :: r' => (true, r')
            | '+' :: r' => (false, r')
            | r' => (false, r')
          if r.isEmpty || !r.all Char.isDigit then none
          else
            let v : Int := (r.foldl (fun a c => a * 10 + (c.toNat - 48)) 0 : Nat)
            some (if eneg then -v else v)
        else none
    expPart.map fun ex =>
      let mant := (intDs ++ fracDs).foldl (fun a c => a * 10 + (c.toNat - 48)) 0
      nearest neg mant (ex - fracDs.length)

end CycleSched.Decimal
