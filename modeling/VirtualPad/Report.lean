import VirtualPad.Config

/-!
# Reports

What the program prints.  A report is a list of lines and, if something went wrong, the messages
that say what, from the outermost to its cause.
-/

namespace VirtualPad

/-- Lines to print, and what went wrong after them. -/
structure Report where
  lines : List String
  problem : List String := []
  deriving Repr

/-- A line without the carriage return at its end, if there is one. -/
def dropReturn (line : String) : String :=
  match line.toList.reverse with
  | '\r' :: rest => String.ofList rest.reverse
  | _ => line

/-- The lines that a printed text takes up. -/
def printedLines (text : String) : List String := (text.splitOn "\n").map dropReturn

def Report.printed (r : Report) : List String := r.lines.flatMap printedLines

/-! ## §1 Checking a configuration -/

/-- The diagnostics of a configuration, its size, and whether it is valid. -/
def Config.check (c : Config) : Report :=
  let warnings := c.diagnostics.map fun d => "warning: " ++ d.message
  let size :=
    Nat.repr c.mappings.length ++ " mappings for " ++ Nat.repr c.settings.users ++ " users, " ++
      Nat.repr c.vocabulary.size ++ " custom controls"
  if c.hadError then
    { lines := warnings ++ [size]
      problem := ["configuration has " ++ Nat.repr c.diagnostics.length ++ " problem(s)"] }
  else { lines := warnings ++ [size, "Configuration is valid"] }

/-! ## §2 Listing the controls -/

/-- One line of the list of controls. -/
def controlLine (code : Nat) (name domain role : String) : String :=
  hexText code 4 ++ "  " ++ padRight name 20 ++ " " ++ padRight domain 8 ++ " " ++ role

/-- What a control can be used as; nothing if it cannot be used at all. -/
def Descriptor.role? (d : Descriptor) : Option String :=
  match d.isSource, d.isDestination with
  | true, true => some "in/out"
  | true, false => some "in"
  | false, true => some "out"
  | false, false => none

/-- The built-in controls that can be used. -/
def builtinLines : List String :=
  Control.builtins.filterMap fun (name, code) =>
    let d := Descriptor.builtin ⟨code⟩
    d.role?.map (controlLine code.toNat name d.domain.text)

/-- The list of all controls, with the custom ones of a configuration at the end. -/
def controlLines (config : Option Config) : List String :=
  let customs := match config with
    | none => []
    | some c => c.vocabulary.toList.map fun (name, control, kind) =>
      controlLine control.number name "Custom" kind.text
  builtinLines ++ customs

end VirtualPad
