import VirtualPad.Number.Binary64

/-!
# Documents

A document is a tree of tables, lists and plain values, as a configuration file or a script writes
it down.  `Record` reads the entries of one table by name.  Reading is strict: an entry that nobody
asks for, a value of the wrong kind and a missing entry all spoil the document.

A table may also be written as the bare list of its values.  They are then taken in the order in
which the table declares its entries, and an optional entry cannot be skipped.
-/

namespace VirtualPad

/-- A value in a document. -/
inductive Value where
  /-- No value, in formats that can say so. -/
  | null
  | text (s : String)
  | integer (n : Int)
  | number (x : Float)
  | truth (b : Bool)
  /-- A date, a time of day or both, as it is written. -/
  | moment (written : String)
  | list (items : List Value)
  | table (entries : List (String × Value))
  deriving Inhabited

/-- What documents are written in.  The formats differ in two details of reading. -/
inductive Format where
  | toml
  | json
  deriving DecidableEq, Repr

namespace Format

/-- A bare list that stands for a table may be longer than the table; the rest does not count. -/
def allowsSurplus : Format → Bool
  | .toml => true
  | .json => false

/-- The value says nothing. -/
def isNothing : Format → Value → Bool
  | .toml, .list [] => true
  | .toml, .table [] => true
  | .json, .null => true
  | _, _ => false

end Format

namespace Value

def text? : Value → Option String
  | .text s => some s
  | _ => none

/-- The unsigned 64-bit number that a value is. -/
def natural? : Value → Option Nat
  | .integer n => if 0 ≤ n ∧ n < twoTo 64 then some n.toNat else none
  | _ => none

/-- The number that a value is; whole numbers count as numbers. -/
def number? : Value → Option Float
  | .number x => some x
  | .integer n => some (Float.ofInt n)
  | _ => none

def truth? : Value → Option Bool
  | .truth b => some b
  | _ => none

/-- The items of a list, each of them read by `item`. -/
def list? {α : Type} (item : Value → Option α) : Value → Option (List α)
  | .list items => items.mapM item
  | _ => none

/-- The list of texts that a value is. -/
def texts? : Value → Option (List String) := list? text?

/-- The choice that a value makes by name.  The name may also be the only entry of a table, with a
value that says nothing. -/
def choice? {α : Type} (format : Format) (named : String → Option α) : Value → Option α
  | .text name => named name
  | .table [(name, v)] => if format.isNothing v then named name else none
  | _ => none

end Value

/-- The entries of a table. -/
structure Record where
  entries : List (String × Value)
  /-- The table was written as a bare list of values. -/
  bare : Bool

namespace Record

/-- The entries of a table that declares these names. -/
def ofValue? (format : Format) (names : List String) : Value → Option Record
  | .table entries =>
    if entries.all fun (name, _) => names.contains name then some { entries, bare := false }
    else none
  | .list items =>
    if items.length ≤ names.length ∨ format.allowsSurplus then
      some { entries := names.zip items, bare := true }
    else none
  | _ => none

variable {α : Type}

def find? (r : Record) (name : String) : Option Value := r.entries.lookup name

/-- An entry that has to be there. -/
def required (r : Record) (name : String) (read : Value → Option α) : Option α :=
  (r.find? name).bind read

/-- An entry that may be missing. -/
def optional (r : Record) (name : String) (read : Value → Option α) : Option (Option α) :=
  match r.find? name with
  | none => if r.bare then none else some none
  | some .null => some none
  | some value => (read value).map some

/-- An entry that has a value to fall back on. -/
def orElse (r : Record) (name : String) (read : Value → Option α) (fallback : α) : Option α :=
  match r.find? name with
  | none => some fallback
  | some value => read value

end Record

end VirtualPad
