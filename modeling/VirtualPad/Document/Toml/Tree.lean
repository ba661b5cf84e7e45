import VirtualPad.Document

/-!
# TOML: the tree of tables

A document names its tables in three ways: by a header of their own, by a header of a table inside
of them, and by keys with dots.  Which of them came first decides what may still be added, so the
tree remembers it for every table until the document is complete.

Going to a place by a header and going there by a dotted key are different walks: a dotted key may
neither enter a table that has a header nor end in one that it did not make.
-/

namespace VirtualPad
namespace Toml

/-- How a table came to be. -/
inductive Origin where
  /-- It has a header of its own, or is the element of an array. -/
  | header
  /-- It is named by the header of a table inside of it. -/
  | implied
  /-- It was made by a dotted key. -/
  | dotted
  deriving DecidableEq, Repr

/-- What a key stands for. -/
inductive Node where
  | value (v : Value)
  | table (origin : Origin) (entries : List (String × Node))
  /-- An array of tables; the last one is the one that is meant by its name. -/
  | array (tables : List (List (String × Node)))
  deriving Inhabited

/-- The entries of a table. -/
abbrev Entries := List (String × Node)

namespace Entries

/-- The entries with the node of a key changed. -/
def replace (entries : Entries) (key : String) (node : Node) : Entries :=
  entries.map fun (k, old) => if k == key then (k, node) else (k, old)

/-- Makes a change to the last table of an array. -/
def changeLast (tables : List Entries) (change : Entries → Option Entries) :
    Option (List Entries) := do
  let last ← tables.getLast?
  return tables.dropLast ++ [← change last]

/-- Makes a change to the table that a header means.  Tables on the way that are not there yet are
implied. -/
def within : List String → (Entries → Option Entries) → Entries → Option Entries
  | [], change, entries => change entries
  | key :: path, change, entries =>
    match entries.lookup key with
    | none => do
      return entries ++ [(key, .table .implied (← within path change []))]
    | some (.value _) => none
    | some (.table origin inner) => do
      return entries.replace key (.table origin (← within path change inner))
    | some (.array tables) => do
      return entries.replace key (.array (← changeLast tables (within path change)))

/-- Sets a value by a dotted key, given as its path and its last part. -/
def assign : List String → String → Value → Entries → Option Entries
  | [], key, v, entries =>
    if (entries.lookup key).isSome then none else some (entries ++ [(key, .value v)])
  | part :: path, key, v, entries =>
    match entries.lookup part with
    | none => do
      return entries ++ [(part, .table .dotted (← assign path key v []))]
    | some (.table .dotted inner) => do
      return entries.replace part (.table .dotted (← assign path key v inner))
    | some (.table .implied inner) =>
      if path.isEmpty then none
      else do
        return entries.replace part (.table .implied (← assign path key v inner))
    | some (.array tables) =>
      if path.isEmpty then none
      else do
        return entries.replace part (.array (← changeLast tables (assign path key v)))
    | some (.table .header _) | some (.value _) => none

/-- Begins the table of a header, given as its path and its last key. -/
def openTable (path : List String) (key : String) (entries : Entries) : Option Entries :=
  entries.within path fun entries =>
    match entries.lookup key with
    | none => some (entries ++ [(key, .table .header [])])
    | some (.table .implied inner) => some (entries.replace key (.table .header inner))
    | some _ => none

/-- Begins the next table of an array, given as its path and its last key. -/
def openElement (path : List String) (key : String) (entries : Entries) : Option Entries :=
  entries.within path fun entries =>
    match entries.lookup key with
    | none => some (entries ++ [(key, .array [[]])])
    | some (.array tables) => some (entries.replace key (.array (tables ++ [[]])))
    | some _ => none

end Entries

mutual

/-- What a node comes to in the complete document. -/
def Node.toValue : Node → Value
  | .value v => v
  | .table _ entries => .table (entryValues entries)
  | .array tables => .list (tableValues tables)

/-- What the entries of a table come to. -/
def entryValues : List (String × Node) → List (String × Value)
  | [] => []
  | (key, node) :: rest => (key, node.toValue) :: entryValues rest

/-- What the tables of an array come to. -/
def tableValues : List (List (String × Node)) → List Value
  | [] => []
  | entries :: rest => .table (entryValues entries) :: tableValues rest

end

end Toml
end VirtualPad
