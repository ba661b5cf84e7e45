import VirtualPad.Document
import VirtualPad.Number.Reading

/-!
# TOML: numbers and words

A value without quotes or brackets is one word: a truth value, a whole number or a floating-point
number.  Underscores may stand between the digits of a number.  Whole numbers have 64 bits with
sign.
-/

namespace VirtualPad
namespace Toml

def isWordChar (c : Char) : Bool := c.isAlphanum || c == '+' || c == '-' || c == '.' || c == '_'

/-- A nonempty row of digits without the underscores between them. -/
def digits? (isDigit : Char → Bool) : List Char → Option (List Char)
  | [] => none
  | [c] => if isDigit c then some [c] else none
  | c :: '_' :: rest => if isDigit c then (digits? isDigit rest).map (c :: ·) else none
  | c :: rest => if isDigit c then (digits? isDigit rest).map (c :: ·) else none

/-- The value of a digit in any base up to sixteen. -/
def digitValue (c : Char) : Nat :=
  if c.isDigit then c.toNat - '0'.toNat else c.toLower.toNat - 'a'.toNat + 10

def rowValue (base : Nat) (digits : List Char) : Nat :=
  digits.foldl (fun n c => base * n + digitValue c) 0

/-- The digits of a decimal number before its point: no zero in front of other digits. -/
def leading? (cs : List Char) : Option (List Char) :=
  (digits? Char.isDigit cs).filter fun row => row.length == 1 || row.head? != some '0'

/-- A whole number in 64 bits with sign. -/
def integer? (negative : Bool) (magnitude : Nat) : Option Value :=
  let n : Int := if negative then -magnitude else magnitude
  if -(twoTo 63 : Int) ≤ n ∧ n < twoTo 63 then some (.integer n) else none

/-- A whole number in the base that its second character names. -/
def prefixed? (isDigit : Char → Bool) (base : Nat) (cs : List Char) : Option Value :=
  (digits? isDigit cs).bind fun row => integer? false (rowValue base row)

/-- An exponent after its `e`. -/
def exponent? : List Char → Option Int
  | '-' :: cs => (digits? Char.isDigit cs).map fun row => -(rowValue 10 row : Int)
  | '+' :: cs => (digits? Char.isDigit cs).map fun row => (rowValue 10 row : Int)
  | cs => (digits? Char.isDigit cs).map fun row => (rowValue 10 row : Int)

/-- The character begins an exponent. -/
def startsExponent (c : Char) : Bool := c == 'e' || c == 'E'

/-- A floating-point number from its digits and its exponent.  One that is too large is refused,
unless it is negative: then it counts as minus infinity. -/
def float? (negative : Bool) (row fraction : List Char) (exponent : Int) : Option Value :=
  let d : Decimal := ⟨rowValue 10 (row ++ fraction), exponent - fraction.length⟩
  let x := d.toFloat
  if negative then some (.number (-x)) else if x.isFinite then some (.number x) else none

/-- A decimal number without its sign. -/
def decimal? (negative : Bool) (cs : List Char) : Option Value := do
  let front := cs.takeWhile fun c => c != '.' && !startsExponent c
  let row ← leading? front
  match cs.drop front.length with
  | [] => integer? negative (rowValue 10 row)
  | '.' :: rest =>
    let places := rest.takeWhile fun c => !startsExponent c
    let fraction ← digits? Char.isDigit places
    match rest.drop places.length with
    | [] => float? negative row fraction 0
    | _ :: rest => float? negative row fraction (← exponent? rest)
  | _ :: rest => float? negative row [] (← exponent? rest)

/-- A number with a sign, or a special value. -/
def signed? (negative : Bool) (cs : List Char) : Option Value :=
  if cs == ['i', 'n', 'f'] then some (.number (if negative then -1 / 0 else 1 / 0))
  else if cs == ['n', 'a', 'n'] then some (.number (0 / 0))
  else decimal? negative cs

/-- The value that a word is. -/
def word? : List Char → Option Value
  | ['t', 'r', 'u', 'e'] => some (.truth true)
  | ['f', 'a', 'l', 's', 'e'] => some (.truth false)
  | '0' :: 'x' :: rest => prefixed? (fun c => c.isDigit || ('a' ≤ c && c ≤ 'f') ||
      ('A' ≤ c && c ≤ 'F')) 16 rest
  | '0' :: 'o' :: rest => prefixed? (fun c => '0' ≤ c && c ≤ '7') 8 rest
  | '0' :: 'b' :: rest => prefixed? (fun c => c == '0' || c == '1') 2 rest
  | '+' :: rest => signed? false rest
  | '-' :: rest => signed? true rest
  | cs => signed? false cs

end Toml
end VirtualPad
