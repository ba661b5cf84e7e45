/-!
# TOML: characters, strings and keys

The parts of a TOML document that are made of characters alone.  A reading takes what it needs from
the front of the characters and answers the rest with its result; it answers nothing if the front
does not fit.

A line ends with a line feed, before which a carriage return may stand.  Inside of a string a line
end always counts as a line feed.
-/

namespace VirtualPad
namespace Toml

/-- What a reading has taken from the front, and the characters after it. -/
abbrev Taken (α : Type) := α × List Char

/-- Takes something from the front of the characters. -/
abbrev Reader (α : Type) := List Char → Option (Taken α)

/-! ## §1 Blanks, lines and comments -/

/-- Blanks within a line. -/
def isSpace (c : Char) : Bool := c == ' ' || c == '\t'

/-- The characters after the blanks at the front. -/
def skipSpaces (cs : List Char) : List Char := cs.dropWhile isSpace

/-- The characters after a line end. -/
def newline? : List Char → Option (List Char)
  | '\n' :: rest => some rest
  | '\r' :: '\n' :: rest => some rest
  | _ => none

/-- A character that may stand as it is in a comment and, apart from its own signs, in any string:
no control character of ASCII but the tabulator. -/
def isPlainChar (c : Char) : Bool :=
  c == '\t' || (decide (0x20 ≤ c.toNat) && c.toNat != 0x7F)

/-- The characters after a comment, if there is one at the front. -/
def skipComment : List Char → List Char
  | '#' :: rest => rest.dropWhile isPlainChar
  | cs => cs

/-- The characters after the end of a line, which may begin with blanks and a comment.  The end of
the document ends a line too. -/
def endOfLine? (cs : List Char) : Option (List Char) :=
  match skipComment (skipSpaces cs) with
  | [] => some []
  | cs => newline? cs

/-- The characters after blanks, line ends and comments.  The flag says that a comment has begun; a
comment has to end with its line. -/
def skipLines : Bool → List Char → List Char
  | _, [] => []
  | _, '\n' :: rest => skipLines false rest
  | _, '\r' :: '\n' :: rest => skipLines false rest
  | true, c :: rest => if isPlainChar c then skipLines true rest else c :: rest
  | false, c :: rest =>
    if isSpace c then skipLines false rest
    else if c == '#' then skipLines true rest
    else c :: rest

/-- The characters after blanks and line ends. -/
def skipBlankLines : List Char → List Char
  | '\n' :: rest => skipBlankLines rest
  | '\r' :: '\n' :: rest => skipBlankLines rest
  | c :: rest => if isSpace c then skipBlankLines rest else c :: rest
  | [] => []

/-! ## §2 Strings -/

def hexValue? (c : Char) : Option Nat :=
  if '0' ≤ c ∧ c ≤ '9' then some (c.toNat - '0'.toNat)
  else if 'a' ≤ c ∧ c ≤ 'f' then some (c.toNat - 'a'.toNat + 10)
  else if 'A' ≤ c ∧ c ≤ 'F' then some (c.toNat - 'A'.toNat + 10)
  else none

/-- The character whose code point is written with so many hexadecimal digits. -/
def codePoint? (width : Nat) (cs : List Char) : Option (Taken Char) := do
  let digits ← (cs.take width).mapM hexValue?
  let code := digits.foldl (fun n d => 16 * n + d) 0
  if digits.length = width ∧ code.isValidChar then some (Char.ofNat code, cs.drop width) else none

/-- The character that the signs after a backslash stand for. -/
def escape? : List Char → Option (Taken Char)
  | 'b' :: rest => some (Char.ofNat 0x08, rest)
  | 't' :: rest => some ('\t', rest)
  | 'n' :: rest => some ('\n', rest)
  | 'f' :: rest => some (Char.ofNat 0x0C, rest)
  | 'r' :: rest => some ('\r', rest)
  | '"' :: rest => some ('"', rest)
  | '\\' :: rest => some ('\\', rest)
  | 'u' :: rest => codePoint? 4 rest
  | 'U' :: rest => codePoint? 8 rest
  | _ => none

/-- A reading with more characters in front of its result. -/
def prepend (front : List Char) (r : Option (Taken (List Char))) : Option (Taken (List Char)) :=
  r.map fun (cs, rest) => (front ++ cs, rest)

/-- The characters up to the closing quote of a string on one line.  The number bounds how many. -/
def basicLine : Nat → List Char → Option (Taken (List Char))
  | 0, _ | _, [] => none
  | _ + 1, '"' :: rest => some ([], rest)
  | bound + 1, '\\' :: rest => do
    let (c, rest) ← escape? rest
    prepend [c] (basicLine bound rest)
  | bound + 1, c :: rest => if isPlainChar c then prepend [c] (basicLine bound rest) else none

/-- The characters up to the closing quote of a literal string on one line. -/
def literalLine : List Char → Option (Taken (List Char))
  | [] => none
  | c :: rest =>
    if c == '\'' then some ([], rest)
    else if isPlainChar c then prepend [c] (literalLine rest)
    else none

/-- A row of quotes in a string of several lines: one or two are part of the string, three end it,
and up to two more may stand before those three.  `more` reads on. -/
def quoteRun (quote : Char) (cs : List Char) (more : Reader (List Char)) :
    Option (Taken (List Char)) :=
  let count := (cs.takeWhile (· == quote)).length
  let rest := cs.drop count
  if count < 3 then prepend (List.replicate count quote) (more rest)
  else if count ≤ 5 then some (List.replicate (count - 3) quote, rest)
  else none

/-- The characters after a backslash that ends a line, and after the blanks and lines that
follow. -/
def continuation? (cs : List Char) : Option (List Char) :=
  (newline? (skipSpaces cs)).map skipBlankLines

/-- The characters up to the closing quotes of a string of several lines.  The number bounds how
many. -/
def basicLines : Nat → List Char → Option (Taken (List Char))
  | 0, _ | _, [] => none
  | bound + 1, '"' :: rest => quoteRun '"' ('"' :: rest) (basicLines bound)
  | bound + 1, '\\' :: rest =>
    match continuation? rest with
    | some rest => basicLines bound rest
    | none => do
      let (c, rest) ← escape? rest
      prepend [c] (basicLines bound rest)
  | bound + 1, c :: rest =>
    match newline? (c :: rest) with
    | some rest => prepend ['\n'] (basicLines bound rest)
    | none => if isPlainChar c then prepend [c] (basicLines bound rest) else none

/-- The characters up to the closing quotes of a literal string of several lines.  The number bounds
how many. -/
def literalLines : Nat → List Char → Option (Taken (List Char))
  | 0, _ | _, [] => none
  | bound + 1, c :: rest =>
    if c == '\'' then quoteRun '\'' (c :: rest) (literalLines bound)
    else match newline? (c :: rest) with
    | some rest => prepend ['\n'] (literalLines bound rest)
    | none => if isPlainChar c then prepend [c] (literalLines bound rest) else none

/-- The characters after the line end that may follow the opening quotes of a string of several
lines. -/
def dropFirstNewline (cs : List Char) : List Char := (newline? cs).getD cs

/-- A string of any of the four kinds. -/
def string? (cs : List Char) : Option (Taken String) :=
  let chars := match cs with
    | '"' :: '"' :: '"' :: rest => basicLines (rest.length + 1) (dropFirstNewline rest)
    | '"' :: rest => basicLine (rest.length + 1) rest
    | '\'' :: '\'' :: '\'' :: rest => literalLines (rest.length + 1) (dropFirstNewline rest)
    | '\'' :: rest => literalLine rest
    | _ => none
  chars.map fun (cs, rest) => (String.ofList cs, rest)

/-! ## §3 Keys -/

/-- A character of a key without quotes. -/
def isKeyChar (c : Char) : Bool := c.isAlphanum || c == '-' || c == '_'

/-- A single key, with or without quotes. -/
def key? (cs : List Char) : Option (Taken String) :=
  match cs with
  | '"' :: rest => (basicLine (rest.length + 1) rest).map fun (cs, rest) => (String.ofList cs, rest)
  | '\'' :: rest => (literalLine rest).map fun (cs, rest) => (String.ofList cs, rest)
  | _ =>
    let word := cs.takeWhile isKeyChar
    if word.isEmpty then none else some (String.ofList word, cs.drop word.length)

/-- Keys joined by dots, with blanks around each of them: the last key and those before it.  There
may be no more of them than the number says. -/
def path? : Nat → List Char → Option (Taken (List String × String))
  | 0, _ => none
  | bound + 1, cs => do
    let (key, rest) ← key? (skipSpaces cs)
    match skipSpaces rest with
    | '.' :: rest => do
      let ((front, last), rest) ← path? bound rest
      return ((key :: front, last), rest)
    | rest => return (([], key), rest)

end Toml
end VirtualPad
