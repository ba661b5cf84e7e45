import VirtualPad.Switchboard
import VirtualPad.User

/-!
# Conditions

A condition is a tree of tests.  A test asks whether a control is in a given state for a given
user; groups ask for all or for any of their parts.  A control without a line on the switchboard
satisfies no test, whichever state is asked for.
-/

namespace VirtualPad

/-- One question about one control. -/
structure Test where
  control : Control
  user : UserRef := .index 0
  /-- The state the control has to be in. -/
  desired : Bool := true
  /-- Ask for the toggle instead of the press. -/
  toggle : Bool := false
  deriving DecidableEq, Repr

/-- A tree of tests. -/
inductive Condition where
  | test (test : Test)
  | all (parts : List Condition)
  | any (parts : List Condition)
  deriving Repr, BEq, Inhabited

def Test.holdsFor (t : Test) (board : Switchboard) (user : Nat) : Bool :=
  let state := if t.toggle then board.isToggled? t.control user else board.isDown? t.control user
  match state with
  | some state => state == t.desired
  | none => false

/-- The test holds on the board.  A test of every user holds as soon as it holds for one. -/
def Test.holds (t : Test) (board : Switchboard) (active : Nat) : Bool :=
  match t.user with
  | .index user => t.holdsFor board user
  | .active => t.holdsFor board active
  | .everyone => (List.range userLimit).any fun user => t.holdsFor board user

namespace Condition

def pressed (c : Control) : Condition := .test { control := c }

def released (c : Control) : Condition := .test { control := c, desired := false }

mutual

/-- The condition holds on the board while `active` is the active user. -/
def holds (board : Switchboard) (active : Nat) : Condition → Bool
  | .test t => t.holds board active
  | .all parts => allHold board active parts
  | .any parts => anyHolds board active parts

def allHold (board : Switchboard) (active : Nat) : List Condition → Bool
  | [] => true
  | c :: rest => c.holds board active && allHold board active rest

def anyHolds (board : Switchboard) (active : Nat) : List Condition → Bool
  | [] => false
  | c :: rest => c.holds board active || anyHolds board active rest

end

mutual

/-- The tests of a condition, from left to right. -/
def tests : Condition → List Test
  | .test t => [t]
  | .all parts => testsOf parts
  | .any parts => testsOf parts

/-- The tests of a list of conditions, from left to right. -/
def testsOf : List Condition → List Test
  | [] => []
  | c :: rest => c.tests ++ testsOf rest

end

/-- The controls that a list of conditions reads, each once, in the order of their first test. -/
def controlsOf (conditions : List Condition) : List Control :=
  ((testsOf conditions).map Test.control).eraseDups

def controls (c : Condition) : List Control := controlsOf [c]

mutual

/-- The opposite condition, with the signs pushed to the tests: each asks for the other state, and
all and any change places. -/
def negate : Condition → Condition
  | .test t => .test { t with desired := !t.desired }
  | .all parts => .any (negateEach parts)
  | .any parts => .all (negateEach parts)

def negateEach : List Condition → List Condition
  | [] => []
  | c :: rest => c.negate :: negateEach rest

end

end Condition

end VirtualPad
