import CycleSched.Cycle.Point
import CycleSched.Decimal.Text

/-!
# Sequences

A sequence (a recurrence) is the set of points `start + k * step` for `k ≥ 0`, fewer than
`count` of them when a count is set, none before a lower bound and none after an upper bound.
A sequence with a zero step holds only its start. The `k`-th point is always computed from the
start, never by repeated offsetting, so that long walks do not drift.

Recurrence expressions are resolved against a context: `^` is the initial point and `$` the
final point. The forms are `R1`, `R1/<anchor>`, `<step>`, `<anchor>/<step>`, `R<n>/<step>` and
`R<n>/<anchor>/<step>`, where an anchor is `^`, `$`, either followed by a signed interval, a
signed interval alone (relative to `^`), or an explicit point.
-/

namespace CycleSched

/-- The bounds recurrence expressions resolve against. -/
structure Context where
  mode : Mode
  initial : Point
  final : Option Point
  deriving Repr

/-- A recurrence producing ascending cycle points. -/
structure Sequence where
  /-- The expression the sequence was read from, with the offsets applied to it since. -/
  text : String
  start : Point
  /-- The zero interval for a single-point sequence. -/
  step : Interval
  /-- The number of points; zero means unbounded. -/
  count : Int64
  /-- No point comes before this one. -/
  lower : Point
  /-- No point comes after this one. -/
  upper : Option Point
  deriving Repr, DecidableEq

namespace Sequence

/-- The `k`-th point of the unbounded recurrence. -/
def nth (s : Sequence) (k : Int64) : Point :=
  if k == 0 then s.start else s.start.add (s.step.scale k)

/-- The `k`-th point `p` is within the count and the upper bound. -/
def inRange (s : Sequence) (k : Int64) (p : Point) : Bool :=
  !(s.count > 0 && k >= s.count) && !(s.upper.any p.after)

/-- A first guess at the index of the first point at or after `p`. -/
def estimate (s : Sequence) (p : Point) : Int64 :=
  let k : Int64 := match s.step with
    | .steps n => (p.val - s.start.val) / n
    | step =>
      let secs := step.approxSeconds
      if secs > 0 then Decimal.toWord (Float.ofInt (p.val - s.start.val).toInt / secs) else 0
  if k < 0 then 0 else k

/-- The number of steps any walk towards an index may take. The guess of `estimate` is off by a
few steps for points within the words' reach, so the walks end long before this bound. -/
def walkLimit : Nat := 1 <<< 22

/-- Walks down from `k` while the point before is still acceptable. -/
def walkDown (s : Sequence) (ok : Point → Bool) : Nat → Int64 → Int64
  | 0, k => k
  | fuel + 1, k => if k > 0 && ok (s.nth (k - 1)) then walkDown s ok fuel (k - 1) else k

/-- Walks up from `k` until the point is acceptable. -/
def walkUp (s : Sequence) (ok : Point → Bool) : Nat → Int64 → Int64
  | 0, k => k
  | fuel + 1, k => if ok (s.nth k) then k else walkUp s ok fuel (k + 1)

/-- The first point of the sequence at or after `p`, or strictly after it when `strict`. -/
def ceil (s : Sequence) (p : Point) (strict : Bool) : Option Point :=
  let (p, strict) := if s.lower.after p then (s.lower, false) else (p, strict)
  let ok (q : Point) : Bool := if strict then q.after p else !q.before p
  if s.step.isZero then
    if ok s.start && s.inRange 0 s.start then some s.start else none
  else
    let k :=
      if ok s.start then 0
      else walkUp s ok walkLimit (walkDown s ok walkLimit (s.estimate p))
    let q := s.nth k
    if s.inRange k q then some q else none

/-- The first point of the sequence. -/
def first (s : Sequence) : Option Point := s.ceil s.start false

/-- The first point strictly after `p`. -/
def next (s : Sequence) (p : Point) : Option Point := s.ceil p true

/-- Whether `p` is a point of the sequence. -/
def contains (s : Sequence) (p : Point) : Bool := s.ceil p false == some p

/-- The first `n` points, fewer if the sequence runs out. -/
def take (s : Sequence) (n : Nat) : List Point :=
  let rec go : Nat → Point → List Point
    | 0, _ => []
    | m + 1, p => p :: match s.next p with
      | some q => go m q
      | none => []
  match n, s.first with
  | 0, _ => []
  | n, some p => go n p
  | _, none => []

/-- The sequence moved by `d`: every point `p` becomes `p + d`. -/
def shift (s : Sequence) (d : Interval) : Sequence :=
  { s with text := s.text ++ "(" ++ d.toText ++ ")", start := s.start.add d,
           lower := s.lower.add d, upper := s.upper.map (·.add d) }

/-- The sequence without the points before `p`. -/
def atOrAfter (s : Sequence) (p : Point) : Sequence :=
  if s.lower.before p then { s with lower := p } else s

/-- The sequence without the points after `p`. -/
def bounded (s : Sequence) (p : Point) : Sequence :=
  match s.upper with
  | some u => if p.before u then { s with upper := some p } else s
  | none => { s with upper := some p }

/-- The greatest common divisor of two words, as a word. -/
def gcdWord (a b : Int64) : Int64 := Int64.ofInt (Int.gcd a.toInt b.toInt)

/-- The least common multiple of two words, computed as `a / gcd * b` in words. -/
def lcmWord (a b : Int64) : Int64 :=
  let g := gcdWord a b
  if g == 0 then 0 else a / g * b

/-- The most leapfrog steps a coincidence search takes. -/
def maxCoincideSteps : Int64 := 100000

/-- The number of leapfrog steps that covers one common period of two steps: a few for a zero
step, the steps of both within their least common multiple when that is computable (integer
steps, exact steps, or steps of whole months), and `maxCoincideSteps` otherwise. It is `none`
when the period of a step, counted in 64-bit words, wraps to zero: the steps within the least
common multiple are then a division by zero. -/
def coincideWindow (a b : Interval) : Option Int64 :=
  if a.isZero || b.isZero then some 4 else
  let (ay, am, ad, as) := a.parts
  let (by', bm, bd, bs) := b.parts
  let periods : Option (Int64 × Int64) :=
    if a.mode? == some .integer then some (a.count, b.count)
    else if !a.isNominal && !b.isNominal then some (ad * 86400 + as, bd * 86400 + bs)
    else if ad == 0 && as == 0 && bd == 0 && bs == 0 then some (ay * 12 + am, by' * 12 + bm)
    else none
  match periods with
  | none => some maxCoincideSteps
  | some (x, y) =>
    if x == 0 || y == 0 then none
    else
      let l := lcmWord x y
      let n := l / x + l / y + 2
      some (if n <= 0 || n > maxCoincideSteps then maxCoincideSteps else n)

/-- Leapfrogs the two current points towards each other for at most `steps` steps. -/
def leapfrog (s o : Sequence) : Nat → Option Point → Option Point → Bool
  | 0, _, _ => false
  | steps + 1, some p, some q =>
    match p.compare q with
    | .eq => true
    | .lt => leapfrog s o steps (s.ceil q false) (some q)
    | .gt => leapfrog s o steps (some p) (o.ceil p false)
  | _ + 1, _, _ => false

/-- The two sequences share a point, as far as a search of one common period shows; `none` when
the common period cannot be counted. -/
def coincides (s o : Sequence) : Option Bool :=
  (coincideWindow s.step o.step).map fun w => leapfrog s o w.toInt.toNat s.first o.first

end Sequence

namespace Context

/-- Resolves an anchor: `^` or `$`, each optionally followed by a signed interval, a signed
interval alone (relative to `^`), or an explicit point. -/
def resolve (ctx : Context) (text : String) : Except Failure Point := do
  let s := Text.trimBlank text
  let (base, rest) ←
    if s.startsWith "^" then pure (ctx.initial, String.ofList (s.toList.drop 1))
    else if s.startsWith "$" then
      match ctx.final with
      | some f => pure (f, String.ofList (s.toList.drop 1))
      | none => throw (.malformed s "$ used without a final cycle point")
    else if (s.startsWith "+" || s.startsWith "-") && s.toList.contains 'P' then pure (ctx.initial, s)
    else return ← Point.parse ctx.mode s
  if rest.isEmpty then return base
  let d ← Interval.parse ctx.mode rest
  return base.add d

/-- Reads a positive recurrence step. -/
def parseStep (ctx : Context) (s : String) : Except Failure Interval := do
  let d ← Interval.parse ctx.mode s
  if d.isZero || d.isNegative then throw (.malformed s "recurrence interval must be positive")
  return d

/-- Reads a recurrence expression. -/
def parseSequence (ctx : Context) (raw : String) : Except Failure Sequence := do
  let expr := Text.trimBlank raw
  let bad (reason : String) : Failure := .malformed raw reason
  if expr.isEmpty then throw (bad "empty recurrence")
  let base : Sequence :=
    { text := expr, start := ctx.initial, step := .zero, count := 0, lower := ctx.initial,
      upper := ctx.final }
  match (expr.toList.splitOn '/').map String.ofList with
  | head :: parts =>
    if head.startsWith "R" then
      let rep := String.ofList (head.toList.drop 1)
      let count ←
        if rep.isEmpty then pure 0
        else match (Text.readDecimal rep).inRange? with
          | some n => if n < 1 then throw (bad "bad repetition count") else pure n
          | none => throw (bad "bad repetition count")
      let s := { base with count }
      match parts with
      | [] =>
        if count != 1 then throw (bad "repetition without interval")
        return s
      | [one] =>
        if count == 1 then return { s with start := ← ctx.resolve one }
        return { s with step := ← ctx.parseStep one }
      | [anchor, step] =>
        let start ← ctx.resolve anchor
        let step ← ctx.parseStep step
        return { s with start, step }
      | _ => throw (bad "too many fields")
    else
      match parts with
      | [] => return { base with step := ← ctx.parseStep head }
      | [step] =>
        let start ← ctx.resolve head
        let step ← ctx.parseStep step
        return { base with start, step }
      | _ => throw (bad "too many fields")
  | [] => throw (bad "too many fields")

end Context

end CycleSched
