import CycleSched.Graph.Compile

/-!
# Validating a workflow file

`validate` checks a workflow file without running it: it reads the settings, checks every one,
and compiles the graph, reporting every problem found rather than only the first. A workflow
without a name takes the name of the directory that holds its file.
-/

namespace CycleSched

/-- What checking a workflow file found. -/
inductive Validation where
  /-- The workflow is valid; the lines describe it. -/
  | valid (lines : List String)
  /-- The workflow is invalid: the problems listed one per line when there are several, and
  the error. -/
  | invalid (problems : List String) (error : String)

/-- The directory part of a path, `.` when it has none. -/
def pathDir (path : String) : String :=
  match (path.splitOn "/").dropLast with
  | [] => "."
  | [""] => "/"
  | parts => "/".intercalate parts

/-- The last element of a path. -/
def pathBase (path : String) : String :=
  match (path.splitOn "/").filter (· != "") with
  | [] => if path.isEmpty then "." else "/"
  | parts => parts.getLast?.getD ""

/-- A count with its noun, plural unless the count is one. -/
def plural (n : Nat) (noun : String) : String :=
  toString n ++ " " ++ (if n == 1 then noun else noun ++ "s")

/-- Checks the text of the workflow file `file`. -/
def validateWorkflow (file text : String) : Validation :=
  let invalid (fs : List Failure) : Validation :=
    match fs with
    | [f] => .invalid [] ("invalid workflow: " ++ file ++ ": " ++ f.message)
    | fs => .invalid ((fs.map Failure.message).mergeSort fun a b => decide (a ≤ b))
        ("invalid workflow: " ++ plural fs.length "problem" ++ " found")
  match parseWorkflow text with
  | .error fs => invalid fs
  | .ok cfg =>
    let cfg := if cfg.name.isEmpty then { cfg with name := pathBase (pathDir file) } else cfg
    match Graph.compile cfg with
    | .error fs => invalid fs
    | .ok wf =>
      let final := match wf.context.final with
        | some p => " to " ++ p.toText
        | none => ""
      .valid ["Valid workflow " ++ Text.quote wf.name,
        "  Cycling: " ++ wf.context.mode.name ++ " from " ++ wf.context.initial.toText ++ final,
        "  Tasks:   " ++ plural wf.order.length "task" ++ " (" ++ ", ".intercalate wf.order ++ ")"]

end CycleSched
