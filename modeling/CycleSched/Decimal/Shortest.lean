/-!
# Shortest decimal digits of a float

A finite double `v = m · 2^e` is read back from any decimal inside its rounding interval: the
reals nearer to `v` than to its neighbours, with the ends included when `m` is even (ties go to
the even neighbour). The shortest digits of `v` are those of the decimal with the fewest
significant digits inside that interval, and the nearest to `v` among those.

All comparisons are exact: the interval is scaled to integers, and decimal candidates are
compared by cross-multiplying with powers of ten.
-/

namespace CycleSched.Decimal

/-- A decimal `digits · 10^(exponent + 1 - digits.length)`, so that `exponent` is the power of
ten of the first digit. -/
structure Digits where
  digits : List Nat
  exponent : Int
  deriving Repr, DecidableEq

/-- The integer mantissa and binary exponent of a finite positive double given by its bits. -/
def unpack (bits : UInt64) : Nat × Int :=
  let mant := (bits &&& 0xFFFFFFFFFFFFF).toNat
  let ex := ((bits >>> 52) &&& 0x7FF).toNat
  if ex = 0 then (mant, -1074) else (mant + Nat.pow 2 52, (ex : Int) - 1075)

/-- The decimal digits of a natural number, most significant first. -/
def digitsOf (n : Nat) : List Nat :=
  (toString n).toList.map fun c => c.toNat - 48

/-- The power of ten of the first digit of `a / b`, for positive `a` and `b`. -/
def leadExponent (a b : Nat) : Int :=
  if a ≥ b then ((toString (a / b)).length : Int) - 1
  else
    let rec go : Nat → Nat → Int
      | 0, t => -(t : Int)
      | fuel + 1, t => if a * Nat.pow 10 t ≥ b then -(t : Int) else go fuel (t + 1)
    go 400 1

/-- The shortest digits of a finite positive double given by its bits. -/
def shortestOfBits (bits : UInt64) : Digits :=
  let (m, e) := unpack bits
  let boundary := m = Nat.pow 2 52 && e > -1074
  -- the value `V / den` and the interval `[(V - L) / den, (V + U) / den]`
  let s : Nat := if e < 2 then (2 - e).toNat else 0
  let den := Nat.pow 2 s
  let V := m * Nat.pow 2 (e + s).toNat
  let U := Nat.pow 2 (e - 1 + s).toNat
  let L := if boundary then Nat.pow 2 (e - 2 + s).toNat else U
  let inclusive := m % 2 = 0
  let p := leadExponent V den
  -- `c · 10^k` compared with the interval, as integers
  let inside (c : Nat) (k : Int) : Bool :=
    let (x, lo, hi) :=
      if k ≥ 0 then (c * Nat.pow 10 k.toNat * den, V - L, V + U)
      else (c * den, (V - L) * Nat.pow 10 (-k).toNat, (V + U) * Nat.pow 10 (-k).toNat)
    if inclusive then lo ≤ x && x ≤ hi else lo < x && x < hi
  -- the distance of `c · 10^k` to the value, scaled alike for both candidates of one `k`
  let dist (c : Nat) (k : Int) : Nat :=
    let (x, v) := if k ≥ 0 then (c * Nat.pow 10 k.toNat * den, V) else (c * den, V * Nat.pow 10 (-k).toNat)
    if x ≥ v then x - v else v - x
  let rec search : Nat → Nat → Digits
    | 0, _ => ⟨digitsOf m, p⟩
    | fuel + 1, n =>
      let k := p - n + 1
      let d0 := if k ≥ 0 then V / (den * Nat.pow 10 k.toNat) else V * Nat.pow 10 (-k).toNat / den
      let d1 := d0 + 1
      let h0 := inside d0 k
      let h1 := inside d1 k
      let pick (c : Nat) : Digits :=
        let ds := digitsOf c
        -- a carry to a new digit moves the exponent up by one
        ⟨ds, k + ds.length - 1⟩
      if h0 && h1 then
        if dist d0 k < dist d1 k then pick d0
        else if dist d1 k < dist d0 k then pick d1
        else if d0 % 2 = 0 then pick d0 else pick d1
      else if h0 then pick d0
      else if h1 then pick d1
      else search fuel (n + 1)
  let r := search 17 1
  -- drop trailing zeros, which change nothing
  let trimmed := (r.digits.reverse.dropWhile (· = 0)).reverse
  ⟨if trimmed.isEmpty then [0] else trimmed, r.exponent⟩

end CycleSched.Decimal
