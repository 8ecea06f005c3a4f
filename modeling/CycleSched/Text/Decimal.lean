/-!
# Signed decimals in a 64-bit word

A signed decimal is an optional `+` or `-` followed by one or more ASCII digits. Read into a
64-bit word, a value outside the word's range is clamped to the nearest bound, and the reading
says so.
-/

namespace CycleSched.Text

/-- What reading a signed decimal into a 64-bit word gives. -/
inductive DecimalRead where
  /-- The text is a decimal whose value fits the word. -/
  | exact (v : Int64)
  /-- The text is a decimal outside the word's range; `v` is the nearest bound. -/
  | clamped (v : Int64)
  /-- The text is not a signed decimal. -/
  | invalid
  deriving DecidableEq, Repr

/-- The value of a list of ASCII digits, most significant first. -/
def digitsValue (ds : List Char) : Nat :=
  ds.foldl (fun acc d => acc * 10 + (d.toNat - '0'.toNat)) 0

/-- Reads a non-empty run of ASCII digits with an optional sign. -/
def readInt? (s : String) : Option Int :=
  let cs := s.toList
  let (neg, ds) := match cs with
    | '+' :: r => (false, r)
    | '-' :: r => (true, r)
    | r => (false, r)
  if ds.isEmpty || !ds.all Char.isDigit then none
  else
    let n : Int := digitsValue ds
    some (if neg then -n else n)

/-- Reads a signed decimal into a 64-bit word, clamping a value that does not fit. -/
def readDecimal (s : String) : DecimalRead :=
  match readInt? s with
  | none => .invalid
  | some n =>
    if n < Int64.minValue.toInt then .clamped Int64.minValue
    else if Int64.maxValue.toInt < n then .clamped Int64.maxValue
    else .exact (Int64.ofInt n)

/-- The word read, with a value out of range clamped and a text that is no decimal read as 0. -/
def DecimalRead.value : DecimalRead → Int64
  | .exact v => v
  | .clamped v => v
  | .invalid => 0

/-- The word read, when the text is a decimal that fits. -/
def DecimalRead.inRange? : DecimalRead → Option Int64
  | .exact v => some v
  | _ => none

end CycleSched.Text
