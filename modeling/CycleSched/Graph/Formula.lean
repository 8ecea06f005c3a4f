import CycleSched.Graph.Token

/-!
# Graph formulas

The left of `=>` is a formula over task references: `&` joins conditions that must all hold and
binds tighter than `|`, which joins alternatives; parentheses group. The right of `=>` lists the
dependent tasks joined by `&`. A line `a => b => c` is two edges, `a => b` and `b => c`; a line
without `=>` only names tasks.

The parser descends the precedence levels on the same tokens and consumes at least one token
before it climbs back into a parenthesised formula, so three calls for each token bound how
deep it goes.
-/

namespace CycleSched.Graph

/-- A trigger formula as written. -/
inductive Formula where
  | ref (r : TaskRef)
  /-- All of the parts must hold. -/
  | all (parts : List Formula)
  /-- One of the parts must hold. -/
  | any (parts : List Formula)
  deriving Repr

mutual

/-- The references of a formula, left to right. -/
def Formula.refs : Formula → List TaskRef
  | .ref r => [r]
  | .all parts => Formula.refsOf parts
  | .any parts => Formula.refsOf parts

/-- The references of a list of formulas, left to right. -/
def Formula.refsOf : List Formula → List TaskRef
  | [] => []
  | f :: rest => f.refs ++ Formula.refsOf rest

end

/-- One part, or the parts joined by a connective. -/
def joined (mk : List Formula → Formula) : List Formula → Formula
  | [f] => f
  | parts => mk parts

/-! Each reader takes a budget of calls and answers what it read with the tokens after it. -/

mutual

/-- Reads a factor: `factor := ref | ( formula )`. -/
def factor : Nat → List Token → Except String (Formula × List Token)
  | 0, _ => .error "expression too deep"
  | _ + 1, [] => .error "expression ends early"
  | _ + 1, .ref r :: rest => .ok (.ref r, rest)
  | fuel + 1, .lparen :: rest =>
    match formula fuel rest with
    | .error e => .error e
    | .ok (f, .rparen :: r2) => .ok (f, r2)
    | .ok _ => .error "missing )"
  | _ + 1, _ :: _ => .error "expected a task name"

/-- Reads `&` followed by a factor, any number of times, collected after `acc`. -/
def allTail : Nat → List Formula → List Token → Except String (List Formula × List Token)
  | 0, _, _ => .error "expression too deep"
  | fuel + 1, acc, .and :: rest =>
    match factor fuel rest with
    | .error e => .error e
    | .ok (f, r) => allTail fuel (acc ++ [f]) r
  | _ + 1, acc, other => .ok (acc, other)

/-- Reads a term: `term := factor (& factor)*`. -/
def term : Nat → List Token → Except String (Formula × List Token)
  | 0, _ => .error "expression too deep"
  | fuel + 1, ts =>
    match factor fuel ts with
    | .error e => .error e
    | .ok (f, r) =>
      match allTail fuel [f] r with
      | .error e => .error e
      | .ok (parts, r2) => .ok (joined .all parts, r2)

/-- Reads `|` followed by a term, any number of times, collected after `acc`. -/
def anyTail : Nat → List Formula → List Token → Except String (List Formula × List Token)
  | 0, _, _ => .error "expression too deep"
  | fuel + 1, acc, .or :: rest =>
    match term fuel rest with
    | .error e => .error e
    | .ok (f, r) => anyTail fuel (acc ++ [f]) r
  | _ + 1, acc, other => .ok (acc, other)

/-- Reads a formula: `formula := term (| term)*`. -/
def formula : Nat → List Token → Except String (Formula × List Token)
  | 0, _ => .error "expression too deep"
  | fuel + 1, ts =>
    match term fuel ts with
    | .error e => .error e
    | .ok (f, r) =>
      match anyTail fuel [f] r with
      | .error e => .error e
      | .ok (parts, r2) => .ok (joined .any parts, r2)

end

/-- Reads a whole token list as one formula. Every call reads at least one token before it
descends from a factor into a parenthesised formula again, and below that the levels formula,
term and factor are three, so three calls a token are enough. -/
def parseFormula (ts : List Token) : Except String Formula :=
  match formula (3 * ts.length + 3) ts with
  | .error e => .error e
  | .ok (f, []) => .ok f
  | .ok _ => .error "unexpected token after expression"

/-- Reads the right of `=>`: task names without offsets, joined by `&`. -/
def parseTargets (ts : List Token) : Except String (List TaskRef) :=
  let rec go : Nat → List Token → Except String (List TaskRef)
    | _, [] => .ok []
    | i, t :: rest =>
      if i % 2 == 1 then
        match t with
        | .and => go (i + 1) rest
        | .or => .error "| is not allowed on the right of =>"
        | _ => .error "expected & between targets"
      else
        match t with
        | .ref r =>
          if r.offset.isSome then
            .error s!"cycle point offset on {Text.quote r.name} is not allowed on the right of =>"
          else (r :: ·) <$> go (i + 1) rest
        | _ => .error "the right of => must be task names joined by &"
  match go 0 ts with
  | .error e => .error e
  | .ok refs => if ts.length % 2 == 0 then .error "dangling & on the right of =>" else .ok refs

/-- One dependency written in a graph line: the formula on the left (none for a line that only
names tasks) and the tasks on the right. -/
structure Edge where
  line : String
  lhs : Option Formula
  rhs : List TaskRef
  deriving Repr

/-- Splits tokens at every `=>`. -/
def splitArrows (ts : List Token) : List (List Token) :=
  ts.foldr (fun t acc =>
    match t, acc with
    | .arrow, _ => [] :: acc
    | _, seg :: segs => (t :: seg) :: segs
    | _, [] => [[t]]) [[]]

/-- Reads one logical graph line into its edges. -/
def parseLine (line : String) : Except String (List Edge) := do
  let ts ← lex line.toList
  let segs := splitArrows ts
  if segs.any (·.isEmpty) then throw "empty expression around =>"
  match segs with
  | [one] =>
    let f ← parseFormula one
    return [{ line, lhs := none, rhs := f.refs }]
  | _ =>
    let pairs := segs.zip segs.tail
    pairs.mapM fun (l, r) => do
      let lhs ← parseFormula l
      let rhs ← parseTargets r
      return { line, lhs := some lhs, rhs }

/-- Ends with an operator, so the next line continues it. -/
def continues (s : String) : Bool := s.endsWith "=>" || s.endsWith "&" || s.endsWith "|"

/-- Starts with an operator, so it continues the line before. -/
def leads (s : String) : Bool := s.startsWith "=>" || s.startsWith "&" || s.startsWith "|"

/-- The logical lines of a graph text: comments from `#` cut, blanks trimmed, empty lines
dropped, and a line joined to the one before when either carries the operator between them. -/
def logicalLines (text : String) : List String :=
  let step (acc : List String × String) (raw : String) : List String × String :=
    let (out, cur) := acc
    let line := Text.trimBlank (String.ofList (raw.toList.takeWhile (· != '#')))
    if line.isEmpty then (out, cur)
    else if !cur.isEmpty && (continues cur || leads line) then (out, cur ++ " " ++ line)
    else if cur.isEmpty then (out, line)
    else (out ++ [cur], line)
  let (out, cur) := ((text.toList.splitOn '\n').map String.ofList).foldl step ([], "")
  if cur.isEmpty then out else out ++ [cur]

end CycleSched.Graph
