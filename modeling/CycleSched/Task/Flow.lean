import CycleSched.Failure
import CycleSched.Text.Json

/-!
# Flow sets

A flow is one wave of activation through the graph, named by a number. A task instance belongs
to a set of flows, kept sorted and without repeats; the empty set is flow "none", whose outputs
spawn nothing downstream. A flow set is written as a JSON list, such as `[1,2]`.
-/

namespace CycleSched

/-- A set of flow numbers, ascending and without repeats. -/
structure FlowSet where
  nums : List Int
  deriving DecidableEq, Repr, Inhabited

namespace FlowSet

/-- Inserts a number into an ascending list without repeats. -/
def insertSorted (n : Int) : List Int → List Int
  | [] => [n]
  | m :: r => if n < m then n :: m :: r else if n = m then m :: r else m :: insertSorted n r

/-- The set of the given numbers. -/
def ofList (l : List Int) : FlowSet := ⟨l.foldr insertSorted []⟩

/-- Flow "none". -/
def none : FlowSet := ⟨[]⟩

/-- The union of two sets. -/
def merge (f g : FlowSet) : FlowSet := ofList (f.nums ++ g.nums)

/-- The two sets share a flow. -/
def intersects (f g : FlowSet) : Bool := f.nums.any g.nums.contains

/-- Every flow of `g` is in `f`. -/
def containsAll (f g : FlowSet) : Bool := g.nums.all f.nums.contains

/-- The set is flow "none". -/
def isNone (f : FlowSet) : Bool := f.nums.isEmpty

/-- The written form, a JSON list. -/
def toText (f : FlowSet) : String := "[" ++ ",".intercalate (f.nums.map toString) ++ "]"

/-- Reads the written form. -/
def parse (s : String) : Except Failure FlowSet :=
  match Text.Json.readIntList s with
  | .ok l => .ok (ofList l)
  | .error e => .error (.plain s!"parse flow numbers {Text.quote s}: {e}")

end FlowSet

end CycleSched
