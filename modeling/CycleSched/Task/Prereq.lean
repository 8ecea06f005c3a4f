import CycleSched.Graph.Task

/-!
# Prerequisites

A prerequisite is a dependency of a task instantiated at its cycle point: each trigger becomes
a term naming one output of one task instance, and the term's state changes as outputs are
emitted or become impossible. A term on a point before the initial cycle point is dropped: it
counts as met under `&` and is ignored under `|`. Once the condition has held, the
prerequisite stays satisfied.
-/

namespace CycleSched

open CycleSched.Graph

/-- The state of one trigger term. -/
inductive Bit where
  | unsatisfied
  | satisfied
  /-- The term names a point before the initial cycle point. -/
  | dropped
  /-- The output can no longer be emitted. -/
  | impossible
  deriving DecidableEq, Repr

namespace Bit

/-- The digit a term's state is saved as. -/
def digit : Bit → Char
  | unsatisfied => '0'
  | satisfied => '1'
  | dropped => '2'
  | impossible => '3'

/-- The term state a saved digit stands for. -/
def ofDigit? : Char → Option Bit
  | '0' => some unsatisfied
  | '1' => some satisfied
  | '2' => some dropped
  | '3' => some impossible
  | _ => none

end Bit

/-- One output of one task instance. -/
structure OutputKey where
  point : Point
  task : String
  output : String
  deriving Repr

instance : DecidableEq OutputKey := fun k l =>
  decidable_of_iff (k.point = l.point ∧ k.task = l.task ∧ k.output = l.output)
    (by cases k; cases l; simp)

/-- The output written as `point/task:output`. -/
def OutputKey.toText (k : OutputKey) : String := k.point.toText ++ "/" ++ k.task ++ ":" ++ k.output

/-- The three-valued result of a condition, with dropped terms kept apart until the top. -/
inductive Verdict where
  | unsatisfied
  | satisfied
  | impossible
  | dropped
  deriving DecidableEq, Repr

/-- A dependency at a cycle point: its condition, the output each trigger names, and the state of
each term. -/
structure Prereq where
  condition : Option Condition
  keys : List OutputKey
  bits : List Bit
  satisfied : Bool := false
  deriving Repr

namespace Prereq

/-- The verdict of a condition under `&`: impossible if a part is, else unsatisfied if a part
is, else satisfied if a part is, else dropped. -/
def allOf (vs : List Verdict) : Verdict :=
  if vs.contains .impossible then .impossible
  else if vs.contains .unsatisfied then .unsatisfied
  else if vs.contains .satisfied then .satisfied
  else .dropped

/-- The verdict of a condition under `|`: satisfied if a part is, else unsatisfied if a part
is, else impossible if a part is, else dropped. -/
def anyOf (vs : List Verdict) : Verdict :=
  if vs.contains .satisfied then .satisfied
  else if vs.contains .unsatisfied then .unsatisfied
  else if vs.contains .impossible then .impossible
  else .dropped

/-- The verdict of a condition over term states. -/
def verdict (bits : List Bit) : Condition → Verdict
  | .trigger i =>
    match bits[i]? with
    | some .satisfied => .satisfied
    | some .dropped => .dropped
    | some .impossible => .impossible
    | _ => .unsatisfied
  | .all parts => allOf (verdicts bits parts)
  | .any parts => anyOf (verdicts bits parts)
where
  verdicts (bits : List Bit) : List Condition → List Verdict
    | [] => []
    | c :: rest => verdict bits c :: verdicts bits rest

/-- The verdict of the prerequisite now; no condition, or only dropped terms, is satisfied. -/
def eval (pr : Prereq) : Verdict :=
  match pr.condition with
  | none => .satisfied
  | some c =>
    match verdict pr.bits c with
    | .dropped => .satisfied
    | v => v

/-- Records that the condition holds, once it does. -/
def update (pr : Prereq) : Prereq :=
  if !pr.satisfied && pr.eval == .satisfied then { pr with satisfied := true } else pr

/-- The dependency instantiated for a task at `p`; terms before `initial` are dropped. -/
def make (dep : Dependency) (p initial : Point) : Prereq :=
  let keys := dep.triggers.map fun t => ({ point := t.pointFor p, task := t.task, output := t.output } : OutputKey)
  update { condition := dep.condition, keys,
           bits := keys.map fun k => if k.point.before initial then .dropped else .unsatisfied }

/-- Sets the terms that name `k` and are neither met nor dropped; reports a change. -/
def satisfy (pr : Prereq) (k : OutputKey) : Prereq × Bool :=
  let hit (key : OutputKey) (b : Bit) := key == k && b != .satisfied && b != .dropped
  let changed := (pr.keys.zip pr.bits).any fun (key, b) => hit key b
  if changed then
    (update { pr with bits := (pr.keys.zip pr.bits).map fun (key, b) => if hit key b then .satisfied else b }, true)
  else (pr, false)

/-- Marks the unmet terms that name `k` impossible; reports a change. -/
def markImpossible (pr : Prereq) (k : OutputKey) : Prereq × Bool :=
  let hit (key : OutputKey) (b : Bit) := key == k && b == .unsatisfied
  let changed := (pr.keys.zip pr.bits).any fun (key, b) => hit key b
  if changed then
    (update { pr with bits := (pr.keys.zip pr.bits).map fun (key, b) => if hit key b then .impossible else b }, true)
  else (pr, false)

/-- No future output can satisfy the prerequisite. -/
def isImpossible (pr : Prereq) : Bool := !pr.satisfied && pr.eval == .impossible

/-- The terms not yet met, as `point/task:output`; none once satisfied. -/
def unmet (pr : Prereq) : List String :=
  if pr.satisfied then []
  else (pr.keys.zip pr.bits).filterMap fun (k, b) =>
    if b == .unsatisfied || b == .impossible then some k.toText else none

/-- Loads saved term states, which must be as many as the terms. -/
def load (pr : Prereq) (bits : List Bit) (satisfied : Bool) : Except Failure Prereq :=
  if bits.length != pr.bits.length then
    .error (.plain s!"prerequisite has {pr.bits.length} terms, checkpoint has {bits.length}")
  else .ok (update { pr with bits, satisfied })

/-- The term states as saved digits. -/
def bitsText (pr : Prereq) : String := String.ofList (pr.bits.map Bit.digit)

end Prereq

end CycleSched
