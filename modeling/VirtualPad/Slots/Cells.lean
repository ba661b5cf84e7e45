import VirtualPad.Slots
import VirtualPad.Number.Scalar

/-!
# Cells

The three kinds of destination that slots feed.  A button is pressed while anything holds it.  A
strength is the largest of its pushes, and its weight is their number.  A modifier is the product of
its factors.  What a cell shows is a function of its slots, so it cannot depend on the order in
which they were written.
-/

namespace VirtualPad

/-! ## §1 Buttons -/

/-- One slot's hold on a button. -/
structure Hold where
  /-- While this hold lasts, only replacing ones count. -/
  replaces : Bool
  deriving DecidableEq, Repr

/-- A destination that is on or off. -/
abbrev ButtonCell := Slots Hold

namespace ButtonCell

/-- Some slot holds the button. -/
def pressed (c : ButtonCell) : Bool := !(c.effective Hold.replaces).isEmpty

/-- One slot takes or lets go of the button. -/
def set (c : ButtonCell) (slot : Slot) (down replaces : Bool) : ButtonCell :=
  c.put slot (if down then some { replaces } else none)

/-- The two states look different from outside. -/
def differs (before after : ButtonCell) : Bool := before.pressed != after.pressed

/-- A button is pressed just when some slot holds it. -/
theorem pressed_iff (c : ButtonCell) :
    c.pressed = true ↔ ∃ slot, (c.held slot).isSome = true := by
  have hnone : (c.effective Hold.replaces).isEmpty = true ↔ ∀ slot, c.held slot = none := by
    rw [List.isEmpty_iff, Slots.effective_eq_nil, Slots.live_eq_nil]
  rw [pressed, Bool.not_eq_true', ← Bool.not_eq_true, hnone]
  simp [Option.ne_none_iff_isSome]

/-- Letting go of a button does not press it. -/
theorem pressed_of_set_up {c : ButtonCell} {slot : Slot} {replaces : Bool}
    (h : (ButtonCell.set c slot false replaces).pressed = true) : c.pressed = true := by
  obtain ⟨other, hother⟩ := (pressed_iff _).mp h
  refine (pressed_iff c).mpr ⟨other, ?_⟩
  unfold ButtonCell.set at hother
  rw [Slots.held_put] at hother
  split at hother
  · simp at hother
  · exact hother

end ButtonCell

/-! ## §2 Strengths -/

/-- One slot's push. -/
structure Push (α : Type) where
  strength : α
  /-- While this push lasts, only replacing ones count. -/
  replaces : Bool
  /-- The push was built up by adding. -/
  adds : Bool
  deriving DecidableEq, Repr

/-- A destination that is pushed with a strength. -/
abbrev StrengthCell (α : Type) := Slots (Push α)

namespace StrengthCell

variable {α : Type} [Scalar α]

/-- The pushes that count. -/
def pushes (c : StrengthCell α) : List (Push α) := c.effective Push.replaces

/-- The largest push that counts; nothing pushed is zero. -/
def value (c : StrengthCell α) : α :=
  c.pushes.foldl (fun best push => Scalar.maximum best push.strength) 0

/-- How many pushes count. -/
def weight (c : StrengthCell α) : Nat := c.pushes.length

/-- Something pushes. -/
def pressed (c : StrengthCell α) : Bool := decide (0 < c.weight)

/-- One slot pushes with a strength or stops pushing. -/
def set (c : StrengthCell α) (slot : Slot) (down : Bool) (strength : α) (replaces : Bool) :
    StrengthCell α :=
  c.put slot (if down then
    some { strength := Scalar.maximum strength 0, replaces, adds := false } else none)

/-- One slot pushes more by `amount`, up to full strength. -/
def add (c : StrengthCell α) (slot : Slot) (amount : α) (replaces : Bool) : StrengthCell α :=
  let before := match c.held slot with
    | some push => push.strength
    | none => 0
  c.put slot (some { strength := Scalar.clamp (before + amount) 0 1, replaces, adds := true })

/-- Takes away every push that was built up by adding. -/
def resetAdds (c : StrengthCell α) : StrengthCell α :=
  c.filter fun push => !push.adds

def differs (before after : StrengthCell α) : Bool :=
  before.value != after.value || before.weight != after.weight

end StrengthCell

/-! ## §3 Modifiers -/

/-- A destination that scales others: each slot holds a factor. -/
abbrev ModifierCell (α : Type) := Slots α

namespace ModifierCell

variable {α : Type} [Scalar α]

/-- The product of the factors; one when there are none. -/
def product (c : ModifierCell α) : α :=
  c.live.foldl (fun product factor => product * factor) 1

/-- One slot holds a factor or lets go of it. -/
def set (c : ModifierCell α) (slot : Slot) (down : Bool) (factor : α) : ModifierCell α :=
  c.put slot (if down then some factor else none)

def differs (before after : ModifierCell α) : Bool := before.product != after.product

end ModifierCell

end VirtualPad
