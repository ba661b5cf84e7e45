import VirtualPad.Control
import VirtualPad.Text.Blank

/-!
# Users

Each virtual pad belongs to a user.  Users are counted from zero here and from one in texts.  A
mapping or a condition names a user by number, or means whoever is active, or everyone.
-/

namespace VirtualPad

/-- The number of users there can be. -/
abbrev userLimit : Nat := 8

/-- A user that a pad exists for. -/
abbrev User := Fin userLimit

/-- The user of everything that belongs to no user. -/
def User.first : User := ⟨0, by decide⟩

/-- Which user a mapping or a condition means. -/
inductive UserRef where
  /-- Whoever is the active user at the time. -/
  | active
  | index (user : Nat)
  | everyone
  deriving DecidableEq, Repr

/-- A text that names no user. -/
structure BadUserRef where
  text : String
  deriving DecidableEq, Repr

def BadUserRef.message (e : BadUserRef) : String :=
  "Invalid user reference: " ++ e.text

/-- The value of a nonempty row of decimal digits. -/
def digitsValue? (cs : List Char) : Option Nat :=
  if cs.isEmpty then none
  else if cs.all Char.isDigit then
    some (cs.foldl (fun value c => 10 * value + (c.toNat - '0'.toNat)) 0)
  else none

/-- The value of a 64-bit number written with decimal digits after at most one plus sign. -/
def wordValue? (cs : List Char) : Option Nat :=
  let digits := match cs with
    | '+' :: rest => rest
    | _ => cs
  (digitsValue? digits).filter fun value => decide (value < twoTo 64)

namespace UserRef

/-- An event of `user` is meant while `active` is the active user. -/
def covers (ref : UserRef) (user active : Nat) : Bool :=
  match ref with
  | .active => user == active
  | .index u => user == u
  | .everyone => true

/-- The reference can be written: counted from one, the user is a 64-bit number. -/
def hasText : UserRef → Bool
  | .index user => decide (user + 1 < twoTo 64)
  | _ => true

/-- How a reference is written. -/
def text : UserRef → String
  | .active => "active"
  | .index user => Nat.repr (user + 1)
  | .everyone => "all"

/-- Reads `active`, `all` or a number counted from one, in any letter case and with blanks
around. -/
def parse (s : String) : Except BadUserRef UserRef :=
  let word := foldCase (trimText s)
  if word == "active" then .ok .active
  else if word == "all" then .ok .everyone
  else match wordValue? word.toList with
    | some (n + 1) => .ok (.index n)
    | _ => .error ⟨s⟩

end UserRef

end VirtualPad
