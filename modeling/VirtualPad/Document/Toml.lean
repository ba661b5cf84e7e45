import VirtualPad.Document.Toml.Dates
import VirtualPad.Document.Toml.Strings
import VirtualPad.Document.Toml.Tree
import VirtualPad.Document.Toml.Words

/-!
# TOML

Reads TOML documents, version 1.0.  A document is read line by line: a header says which table the
lines after it belong to, and every other line gives a key a value.  A document that breaks a rule
is no document at all; nothing is said about where it does.
-/

namespace VirtualPad
namespace Toml

/-- How deep arrays and tables in values may nest, and how many parts a key may have. -/
def nestingLimit : Nat := 79

/-! ## §1 Values -/

/-- The items of an array up to its closing bracket, over any number of lines.  A comma may follow
the last item.  The number bounds how many. -/
def items? (value : Reader Value) : Nat → Reader (List Value)
  | 0, _ => none
  | bound + 1, cs =>
    match skipLines false cs with
    | ']' :: rest => some ([], rest)
    | cs => do
      let (v, rest) ← value cs
      match skipLines false rest with
      | ',' :: rest => do
        let (vs, rest) ← items? value bound rest
        return (v :: vs, rest)
      | ']' :: rest => return ([v], rest)
      | _ => none

/-- A key with its value: the path and the last part of the key, and the value. -/
def pair? (value : Reader Value) (cs : List Char) :
    Option (Taken ((List String × String) × Value)) := do
  let (key, rest) ← path? nestingLimit cs
  match rest with
  | '=' :: rest => do
    let (v, rest) ← value (skipSpaces rest)
    return ((key, v), rest)
  | _ => none

/-- The entries of a table, if its closing brace comes next. -/
def closeTable? (entries : Entries) : Reader Entries
  | c :: rest => if c.toNat == 0x7D then some (entries, rest) else none
  | [] => none

/-- The pairs of a table on one line up to its closing brace, added to the entries so far.  The
number bounds how many. -/
def pairs? (value : Reader Value) : Nat → Entries → Reader Entries
  | 0, _, _ => none
  | bound + 1, entries, cs => do
    let (((path, key), v), rest) ← pair? value cs
    let entries ← entries.assign path key v
    match skipSpaces rest with
    | ',' :: rest => pairs? value bound entries rest
    | rest => closeTable? entries rest

/-- A table on one line after its opening brace. -/
def inlineTable? (value : Reader Value) (cs : List Char) : Option (Taken Value) :=
  let entries := match closeTable? [] (skipSpaces cs) with
    | some empty => some empty
    | none => pairs? value (cs.length + 1) [] cs
  entries.map fun (entries, rest) => (.table (entryValues entries), rest)

/-- A value without brackets and braces. -/
def plainValue? : Reader Value
  | [] => none
  | c :: rest =>
    if c == '"' || c == '\'' then (string? (c :: rest)).map fun (s, rest) => (.text s, rest)
    else match moment? (c :: rest) with
    | some moment => some moment
    | none =>
      let word := (c :: rest).takeWhile isWordChar
      (word? word).map fun v => (v, (c :: rest).drop word.length)

/-- A value of any kind.  Arrays and tables nest no deeper than the number says. -/
def value? : Nat → Reader Value
  | _, [] => none
  | 0, cs => plainValue? cs
  | depth + 1, c :: rest =>
    if c == '[' then
      (items? (value? depth) (rest.length + 1) rest).map fun (vs, rest) => (.list vs, rest)
    else if c.toNat == 0x7B then inlineTable? (value? depth) rest
    else plainValue? (c :: rest)

/-! ## §2 Lines -/

/-- A header after its opening bracket: its path and its last key, and what follows its closing
bracket or brackets. -/
def header? (close : List Char) (cs : List Char) : Option (Taken (List String × String)) := do
  let (key, rest) ← path? nestingLimit cs
  if close.isPrefixOf rest then some (key, rest.drop close.length) else none

/-- Reads the lines of a document into its tables.  `here` is the path of the table that pairs
belong to at present.  The number bounds how many lines there are. -/
def lines? : Nat → List String → Entries → List Char → Option Entries
  | 0, _, _, _ => none
  | bound + 1, here, entries, cs =>
    match skipSpaces cs with
    | [] => some entries
    | '#' :: rest => do lines? bound here entries (← endOfLine? ('#' :: rest))
    | '\n' :: rest => lines? bound here entries rest
    | '\r' :: rest => do lines? bound here entries (← newline? ('\r' :: rest))
    | '[' :: '[' :: rest => do
      let ((path, key), rest) ← header? [']', ']'] rest
      lines? bound (path ++ [key]) (← entries.openElement path key) (← endOfLine? rest)
    | '[' :: rest => do
      let ((path, key), rest) ← header? [']'] rest
      lines? bound (path ++ [key]) (← entries.openTable path key) (← endOfLine? rest)
    | cs => do
      let (((path, key), v), rest) ← pair? (value? nestingLimit) cs
      let entries ← entries.within here fun inner => inner.assign path key v
      lines? bound here entries (← endOfLine? rest)

/-- The characters after a byte order mark, if there is one at the front. -/
def skipMark : List Char → List Char
  | c :: rest => if c.toNat == 0xFEFF then rest else c :: rest
  | [] => []

def parse (text : String) : Option Value := do
  let cs := skipMark text.toList
  let entries ← lines? (cs.length + 1) [] [] cs
  return .table (entryValues entries)

end Toml

end VirtualPad
