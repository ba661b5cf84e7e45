import VirtualPad.Condition
import VirtualPad.Vocabulary

/-!
# Condition expressions

A condition is written with control names, `&`, `|`, `!`, `~` and parentheses.  `&` binds tighter
than `|`; the words `and`, `or` and `not` stand for the first three signs; `!` asks for the opposite
and `~` for the toggle of a single control.  A control may carry the user it is asked of after an
`@`.

Reading goes in two steps, from characters to tokens and from tokens to the tree.  Both follow their
input from left to right and report the first thing that does not fit.
-/

namespace VirtualPad

/-- Why a control reference or a condition could not be read. -/
inductive ExpressionError where
  | emptyInput
  | unknownControl (name : String)
  | invalidUser (text : String)
  | unexpectedToken (token : String)
  | unexpectedEnd
  | toggleOnGroup
  deriving DecidableEq, Repr

def ExpressionError.message : ExpressionError → String
  | .emptyInput => "condition expression cannot be empty"
  | .unknownControl name => "unknown control name: '" ++ name ++ "'"
  | .invalidUser text => "invalid user reference: '" ++ text ++ "'"
  | .unexpectedToken token => "unexpected '" ++ token ++ "' in condition"
  | .unexpectedEnd => "condition ends unexpectedly"
  | .toggleOnGroup => "'~' applies to a single control, not a group"

/-! ## §1 Control references -/

/-- The characters before the first `@`, and those after it if there is one. -/
def splitAtSign : List Char → List Char × Option (List Char)
  | [] => ([], none)
  | c :: rest =>
    if c = '@' then ([], some rest)
    else
      let (name, user) := splitAtSign rest
      (c :: name, user)

/-- Reads a control name, with or without `@` and a user. -/
def Vocabulary.readRef (v : Vocabulary) (text : String) :
    Except ExpressionError (Control × Option UserRef) :=
  let trimmed := trimBlanks text.toList
  if trimmed.isEmpty then .error .emptyInput
  else
    let (name, user) := splitAtSign trimmed
    let finish (user : Option UserRef) : Except ExpressionError (Control × Option UserRef) :=
      let name := String.ofList (trimBlanks name)
      match v.resolve? name with
      | some c => .ok (c, user)
      | none => .error (.unknownControl name)
    match user with
    | none => finish none
    | some user =>
      match UserRef.parse (String.ofList user) with
      | .ok ref => finish (some ref)
      | .error _ => .error (.invalidUser (String.ofList user))

/-! ## §2 Tokens -/

/-- A word or sign of an expression. -/
inductive Token where
  | openParen
  | closeParen
  | and
  | or
  | not
  | toggle
  | name (text : String)
  deriving DecidableEq, Repr

namespace Token

def text : Token → String
  | .openParen => "("
  | .closeParen => ")"
  | .and => "&"
  | .or => "|"
  | .not => "!"
  | .toggle => "~"
  | .name text => text

/-- The token that a single character stands for. -/
def sign? : Char → Option Token
  | '(' => some .openParen
  | ')' => some .closeParen
  | '&' => some .and
  | '|' => some .or
  | '!' => some .not
  | '~' => some .toggle
  | _ => none

def ofWord (word : String) : Token :=
  let folded := foldCase word
  if folded == "and" then .and
  else if folded == "or" then .or
  else if folded == "not" then .not
  else .name word

/-- The token of the characters collected so far, which are kept in reverse. -/
def ofCollected : List Char → List Token
  | [] => []
  | c :: rest => [ofWord (String.ofList (c :: rest).reverse)]

/-- Splits characters into tokens, given the characters of the word that has begun. -/
def scan (collected : List Char) : List Char → List Token
  | [] => ofCollected collected
  | c :: rest =>
    if isBlank c then ofCollected collected ++ scan [] rest
    else match sign? c with
      | some token => ofCollected collected ++ token :: scan [] rest
      | none => scan (c :: collected) rest

def ofText (text : String) : List Token := scan [] text.toList

end Token

/-! ## §3 The tree -/

/-- What two steps come to when neither of them fails. -/
theorem Except.bind_eq_ok {ε α β : Type} {x : Except ε α} {next : α → Except ε β} {b : β}
    (h : (x >>= next) = .ok b) : ∃ a, x = .ok a ∧ next a = .ok b := by
  cases x with
  | error e => cases h
  | ok a => exact ⟨a, rfl, h⟩

namespace Condition

/-- What a step of reading leaves: a condition and the tokens after it. -/
abbrev Reading := Except ExpressionError (Condition × List Token)

/-- The condition of one control name. -/
def ofName (v : Vocabulary) (text : String) : Except ExpressionError Condition := do
  let (control, user) ← v.readRef text
  -- Controls without users keep their state under the first one.
  let user := if (v.descriptor control).flags.ofUser then user.getD (.index 0) else .index 0
  return .test { control, user }

/-- Asks for the toggle of a single control. -/
def askToggle : Condition → Except ExpressionError Condition
  | .test t => .ok (.test { t with toggle := true })
  | _ => .error .toggleOnGroup

/-- Reads further parts as long as each is announced by `sign`.  The number bounds how many. -/
def readMore (sign : Token) (part : List Token → Reading) :
    Nat → List Token → Except ExpressionError (List Condition × List Token)
  | 0, tokens => .ok ([], tokens)
  | bound + 1, tokens =>
    match tokens with
    | [] => .ok ([], [])
    | token :: rest =>
      if token = sign then do
        let (first, rest) ← part rest
        let (others, rest) ← readMore sign part bound rest
        return (first :: others, rest)
      else .ok ([], token :: rest)

/-- Reads one part or several parts with `sign` between them.  A single part stays what it is; of
several `group` makes one condition. -/
def readRun (sign : Token) (group : List Condition → Condition) (part : List Token → Reading)
    (tokens : List Token) : Reading := do
  let (first, rest) ← part tokens
  let (others, rest) ← readMore sign part rest.length rest
  return (if others.isEmpty then first else group (first :: others), rest)

/-- Reads parts joined by `|`, each of which is one of parts joined by `&`. -/
def readAny (part : List Token → Reading) (tokens : List Token) : Reading :=
  readRun .or .any (readRun .and .all part) tokens

/-- Reads a control or a group with the signs before it.  The number bounds how deep signs and
parentheses nest; the number of tokens is always enough. -/
def readOperand (v : Vocabulary) : Nat → List Token → Reading
  | 0, _ => .error .unexpectedEnd
  | _ + 1, [] => .error .unexpectedEnd
  | bound + 1, .not :: rest => do
    let (c, rest) ← readOperand v bound rest
    return (c.negate, rest)
  | bound + 1, .toggle :: rest => do
    let (c, rest) ← readOperand v bound rest
    return (← askToggle c, rest)
  | bound + 1, .openParen :: rest => do
    match ← readAny (readOperand v bound) rest with
    | (c, .closeParen :: rest) => return (c, rest)
    | (_, token :: _) => throw (.unexpectedToken token.text)
    | (_, []) => throw .unexpectedEnd
  | _ + 1, .name text :: rest => do
    return (← ofName v text, rest)
  | _ + 1, token :: _ => .error (.unexpectedToken token.text)

/-- Reads a whole row of tokens as one condition. -/
def ofTokens (v : Vocabulary) (tokens : List Token) : Except ExpressionError Condition :=
  if tokens.isEmpty then .error .emptyInput
  else do
    match ← readAny (readOperand v tokens.length) tokens with
    | (c, []) => return c
    | (_, token :: _) => throw (.unexpectedToken token.text)

/-- Reads a condition expression. -/
def parse (v : Vocabulary) (text : String) : Except ExpressionError Condition :=
  ofTokens v (Token.ofText text)

end Condition

end VirtualPad
