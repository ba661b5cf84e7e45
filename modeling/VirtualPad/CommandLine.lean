import VirtualPad.Report

/-!
# The command line

Which of its three jobs the program is asked to do, and on which files.
-/

namespace VirtualPad

/-- What the command line asks for. -/
structure CommandLine where
  config : Option String := none
  checks : Bool := false
  lists : Bool := false
  script : Option String := none
  deriving DecidableEq, Repr

namespace CommandLine

def usage : String :=
  "usage: virtualpad --config FILE (--check-config | --list-controls | --replay FILE)"

/-- Reads the arguments on top of what earlier ones have asked for. -/
def read (asked : CommandLine) : List String → Option CommandLine
  | [] => some asked
  | "-v" :: rest | "--verbose" :: rest => asked.read rest
  | "--check-config" :: rest => { asked with checks := true }.read rest
  | "--list-controls" :: rest => { asked with lists := true }.read rest
  | "-c" :: file :: rest | "--config" :: file :: rest =>
    { asked with config := some file }.read rest
  | "--replay" :: file :: rest => { asked with script := some file }.read rest
  | _ => none

end CommandLine

/-- What went wrong as it is printed: the outermost message and then its causes. -/
def Report.problemText : List String → List String
  | [] => []
  | [message] => ["Error: " ++ message]
  | message :: causes =>
    ["Error: " ++ message, "", "Caused by:"] ++ causes.map fun cause => "    " ++ cause

end VirtualPad
