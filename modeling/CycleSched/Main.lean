import CycleSched.Validate

/-!
# The command line

`cycleflow validate <workflow>` checks a workflow file and describes it. Errors go to standard
error after `Error:`; the exit code is 2 for an invalid workflow and 1 for any other error.
-/

open CycleSched

/-- The text of an error reading a file. -/
def readErrorText (file : String) : IO.Error → String
  | .noFileOrDirectory .. => "read workflow: open " ++ file ++ ": no such file or directory"
  | .permissionDenied .. => "read workflow: open " ++ file ++ ": permission denied"
  | e => "read workflow: " ++ toString e

/-- Runs `validate` on one workflow file. -/
def validateCommand (file : String) : IO UInt32 := do
  let stderr ← IO.getStderr
  match ← (IO.FS.readFile file).toBaseIO with
  | .error e =>
    stderr.putStrLn ("Error: " ++ readErrorText file e)
    return 1
  | .ok text =>
    match validateWorkflow file text with
    | .valid lines =>
      for l in lines do IO.println l
      return 0
    | .invalid problems error =>
      for p in problems do stderr.putStrLn ("  - " ++ p)
      stderr.putStrLn ("Error: " ++ error)
      return 2

/-- The command line. -/
def main (args : List String) : IO UInt32 := do
  match args with
  | ["validate", file] => validateCommand file
  | "validate" :: rest =>
    IO.eprintln ("Error: accepts 1 arg(s), received " ++ toString rest.length)
    return 1
  | cmd :: _ =>
    IO.eprintln ("Error: unknown command " ++ Text.quote cmd ++ " for " ++ Text.quote "cycleflow")
    return 1
  | [] =>
    IO.println "usage: cycleflow validate <workflow>"
    return 0
