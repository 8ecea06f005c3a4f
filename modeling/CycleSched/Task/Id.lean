import CycleSched.Failure
import CycleSched.Text.Glob

/-!
# Task ids

A task instance is named `point/name`. As a selector either part may be a glob pattern, and a
pattern without `/` stands for that name at every cycle point.
-/

namespace CycleSched

/-- A task instance's name: its cycle point and its task name, as written. -/
structure TaskId where
  point : String
  name : String
  deriving DecidableEq, Repr, Inhabited

namespace TaskId

/-- The written form `point/name`. -/
def toText (id : TaskId) : String := id.point ++ "/" ++ id.name

instance : ToString TaskId := ⟨toText⟩

/-- The parts of a text between its slashes. -/
def splitSlash (s : String) : List String := (s.toList.splitOn '/').map String.ofList

/-- Reads `point/name`: both parts non-empty, and no second `/`. -/
def parse (s : String) : Except Failure TaskId :=
  match splitSlash s with
  | [p, n] =>
    if p.isEmpty || n.isEmpty then .error (.plain s!"invalid task id {Text.quote s}: want point/name")
    else .ok ⟨p, n⟩
  | _ => .error (.plain s!"invalid task id {Text.quote s}: want point/name")

/-- The id matches a `point/name` glob; a pattern without `/` matches the name at every point. -/
def matchesGlob (id : TaskId) (pattern : String) : Bool :=
  let (pp, np) := match splitSlash pattern with
    | [single] => ("*", single)
    | p :: rest => (p, "/".intercalate rest)
    | [] => ("*", pattern)
  Text.Glob.accepts pp id.point && Text.Glob.accepts np id.name

end TaskId

end CycleSched
