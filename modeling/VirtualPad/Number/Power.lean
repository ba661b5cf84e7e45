/-!
# Powers of two and ten

The two powers that numbers are made of: those of two in the machine, those of ten on paper.
-/

namespace VirtualPad

/-- One, doubled `n` times. -/
def twoTo (n : Nat) : Nat := Nat.pow 2 n

/-- One, made ten times as large `n` times. -/
def tenTo (n : Nat) : Nat := Nat.pow 10 n

theorem twoTo_pos (n : Nat) : 0 < twoTo n := Nat.two_pow_pos n

end VirtualPad
