import VirtualPad.CommandLine
import VirtualPad.Replay

/-!
# The program

Checks a configuration, lists the controls or replays a script.  All that is done here is to read
files and to print: what is printed is decided by `Config.check`, `controlLines` and
`Config.replayText`.
-/

namespace VirtualPad

/-- The content of a file, if it can be read. -/
def readText (path : String) : IO (Option String) := do
  try
    return some (← IO.FS.readFile path)
  catch _ =>
    return none

/-- Prints a report and answers the exit code. -/
def printReport (r : Report) : IO UInt32 := do
  for line in r.lines do
    IO.println line
  for line in Report.problemText r.problem do
    IO.eprintln line
  return if r.problem.isEmpty then 0 else 1

def printProblem (problem : List String) : IO UInt32 :=
  printReport { lines := [], problem }

/-- Reads the configuration file at a path, or says what is wrong with it. -/
def loadConfig (path : String) : IO (Except (List String) Config) := do
  match ← readText path with
  | none => return .error ["failed to load " ++ path, "IO error"]
  | some text =>
    match Config.ofText? text with
    | none => return .error ["failed to load " ++ path, "TOML parse error"]
    | some config => return .ok config

def runWith (asked : CommandLine) (config : Config) : IO UInt32 := do
  if asked.lists then printReport { lines := controlLines config }
  else if asked.checks then printReport config.check
  else match asked.script with
    | none =>
      printProblem ["nothing to do: pass --check-config, --list-controls or --replay"]
    | some path =>
      match ← readText path with
      | none => printProblem ["failed to read " ++ path]
      | some text => printReport (config.replayText text)

end VirtualPad

open VirtualPad in
def main (args : List String) : IO UInt32 := do
  match CommandLine.read {} args with
  | none => printProblem [CommandLine.usage]
  | some asked =>
    match asked.config with
    | none =>
      if asked.lists then printReport { lines := controlLines none }
      else printProblem ["no configuration directory; pass --config"]
    | some path =>
      match ← loadConfig path with
      | .error problem => printProblem problem
      | .ok config => runWith asked config
