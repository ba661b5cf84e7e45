import VirtualPad.Control
import VirtualPad.Mask

/-!
# The switchboard

The switchboard has a line for every control that something listens to.  A line remembers for which
users the control is down and whether the number of its presses so far is odd, and it lists who has
to be told when the control moves: the mappings it drives, the mappings whose conditions read it and
the pairs it is a part of.
-/

namespace VirtualPad

/-- What is known about one control, and who listens to it. -/
structure Line where
  /-- The mappings that the control drives, in the order of declaration. -/
  chain : List Nat := []
  /-- The mappings whose conditions read the control. -/
  watchers : List Nat := []
  /-- The pairs that the control is a component of. -/
  pairs : List Control := []
  /-- The users for whom the control is down. -/
  down : Mask := Mask.none
  /-- The users who have pressed the control an odd number of times. -/
  toggled : Mask := Mask.none
  deriving Inhabited

namespace Line

def isDown (l : Line) (user : Nat) : Bool := l.down.has user

def isToggled (l : Line) (user : Nat) : Bool := l.toggled.has user

/-- Setting the control for `user` would change it. -/
def moves (l : Line) (user : Nat) (down : Bool) : Bool :=
  decide (user < maskWidth) && (l.isDown user != down)

/-- The line after the control went down or up for `user`.  Only a press counts for the toggle. -/
def set (l : Line) (user : Nat) (down : Bool) : Line :=
  { l with
    down := l.down.put user down
    toggled :=
      if down && !l.isDown user then l.toggled.put user (!l.isToggled user) else l.toggled }

end Line

/-- Every control that something listens to. -/
structure Switchboard where
  lines : Std.TreeMap Control Line := ∅
  deriving Inhabited

namespace Switchboard

/-- The line of a control, if it has one. -/
def line? (b : Switchboard) (c : Control) : Option Line := b.lines[c]?

def size (b : Switchboard) : Nat := b.lines.size

def isEmpty (b : Switchboard) : Bool := b.lines.isEmpty

/-- The board with a line for `c`; a line that exists stays as it is. -/
def connect (b : Switchboard) (c : Control) : Switchboard :=
  { b with lines := b.lines.insertIfNew c {} }

/-- The board with the line of `c` changed, if there is one. -/
def adjust (b : Switchboard) (c : Control) (change : Line → Line) : Switchboard :=
  { b with lines := b.lines.modify c change }

/-- The board after `c` went down or up for `user`. -/
def set (b : Switchboard) (c : Control) (user : Nat) (down : Bool) : Switchboard :=
  b.adjust c fun l => l.set user down

/-- Whether `c` is down for `user`; no answer without a line. -/
def isDown? (b : Switchboard) (c : Control) (user : Nat) : Option Bool :=
  (b.line? c).map fun l => l.isDown user

/-- Whether `user` has pressed `c` an odd number of times; no answer without a line. -/
def isToggled? (b : Switchboard) (c : Control) (user : Nat) : Option Bool :=
  (b.line? c).map fun l => l.isToggled user

/-- `c` has a line and is down for `user`. -/
def isDown (b : Switchboard) (c : Control) (user : Nat) : Bool :=
  (b.isDown? c user).getD false

end Switchboard

end VirtualPad
