import VirtualPad.Number.Shortest

/-!
# Writing numbers

Two ways to write a floating-point value.  `plainText` writes the fewest digits that read back,
always in positional form, for values that come from a configuration.  `fixedText` writes a fixed
number of places, for reports.  Both keep the sign of zero.
-/

namespace VirtualPad

/-- The digits of `n`, padded with zeros on the left to at least `width`. -/
def paddedDigits (n width : Nat) : String :=
  let digits := Nat.repr n
  String.ofList (List.replicate (width - digits.length) '0') ++ digits

/-- `digits * 10 ^ -places` with its point set; no point when there are no places. -/
def withPoint (digits places : Nat) : String :=
  if places = 0 then Nat.repr digits
  else
    let scale := tenTo places
    Nat.repr (digits / scale) ++ "." ++ paddedDigits (digits % scale) places

/-- A positive decimal in positional form.  A whole number has no point. -/
def Decimal.text (d : Decimal) : String :=
  if 0 ≤ d.exponent then Nat.repr (d.digits * tenTo d.exponent.toNat)
  else withPoint d.digits (-d.exponent).toNat

/-- The names of the values that are not finite numbers. -/
def specialText (x : Float) : String :=
  if x.isNaN then "NaN" else if x < 0 then "-inf" else "inf"

/-- The fewest digits that read back, in positional form: `1`, `0.5`, `-0`. -/
def plainText (x : Float) : String :=
  if !x.isFinite then specialText x
  else
    let b := Binary64.ofFloat x
    let magnitude := if b.mantissa = 0 then "0" else b.shortest.text
    if b.negative then "-" ++ magnitude else magnitude

/-- The exact value rounded to a fixed number of places; an exact half goes to the even digit. -/
def fixedText (places : Nat) (x : Float) : String :=
  if !x.isFinite then specialText x
  else
    let b := Binary64.ofFloat x
    let (num, den) := b.quotient
    let magnitude := withPoint (roundDiv (num * tenTo places) den .toEven) places
    if b.negative then "-" ++ magnitude else magnitude

/-- A natural number in hexadecimal after `0x`, padded with zeros to at least `width` digits. -/
def hexText (n width : Nat) : String :=
  let digits := String.ofList (Nat.toDigits 16 n)
  "0x" ++ String.ofList (List.replicate (width - digits.length) '0') ++ digits

/-- `s` followed by blanks up to `width` characters. -/
def padRight (s : String) (width : Nat) : String :=
  s ++ String.ofList (List.replicate (width - s.length) ' ')

/-- `s` preceded by blanks up to `width` characters. -/
def padLeft (s : String) (width : Nat) : String :=
  String.ofList (List.replicate (width - s.length) ' ') ++ s

end VirtualPad
