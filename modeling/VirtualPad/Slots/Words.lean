import VirtualPad.Slots.Cells

/-!
# Cells in words

A cell fits into a few words.  One mask says which slots are live, others which of these replace and
which have built up what they push with, a row has a number for every slot, live or not, and what the
cell shows is kept from one change to the next.  Every operation brings each of these up to date by
itself, and answers whether what is shown has changed.
-/

namespace VirtualPad

namespace Mask

/-- The slots that count: while a replacing slot is live, only replacing slots do. -/
def counting (live replacing : Mask) : Mask :=
  let replaced := live &&& replacing
  if replaced = none then live else replaced

/-- The members in order. -/
def members (m : Mask) : List Slot :=
  (List.finRange maskWidth).filter fun slot => m.has slot

end Mask

/-- A number for every slot, live or not. -/
abbrev Row (α : Type) : Type := Vector α maskWidth

namespace Row

variable {α : Type}

/-- What a row has for a slot. -/
def ofSlot (row : Row α) (slot : Slot) : α := getElem row slot slot.isLt

/-- The row has just this for the slot from now on. -/
def put (row : Row α) (slot : Slot) (number : α) : Row α := row.set slot number slot.isLt

end Row

/-! ## §1 Buttons -/

/-- A button in words. -/
structure ButtonWords where
  live : Mask := Mask.none
  replacing : Mask := Mask.none
  /-- What the button shows. -/
  pressed : Bool := false

namespace ButtonWords

/-- Brings what is shown up to date, and answers whether it has changed. -/
def refresh (w : ButtonWords) : ButtonWords × Bool :=
  let pressed := w.live.counting w.replacing != Mask.none
  ({ w with pressed }, pressed != w.pressed)

def set (w : ButtonWords) (slot : Slot) (down replaces : Bool) : ButtonWords × Bool :=
  refresh { w with
    live := w.live.put slot down
    replacing := w.replacing.put slot (down && replaces) }

def releaseAll (w : ButtonWords) : ButtonWords × Bool :=
  refresh { w with live := Mask.none, replacing := Mask.none }

end ButtonWords

/-! ## §2 Strengths -/

/-- A strength in words. -/
structure StrengthWords (α : Type) [Scalar α] where
  live : Mask := Mask.none
  replacing : Mask := Mask.none
  adding : Mask := Mask.none
  strengths : Row α := .replicate maskWidth 0
  /-- The strength that the cell shows. -/
  value : α := 0
  /-- How many slots it counts. -/
  weight : Nat := 0

namespace StrengthWords

variable {α : Type} [Scalar α]

/-- Brings what is shown up to date, and answers whether it has changed. -/
def refresh (w : StrengthWords α) : StrengthWords α × Bool :=
  let slots := (w.live.counting w.replacing).members
  let value := slots.foldl (fun best slot => Scalar.maximum best (w.strengths.ofSlot slot)) 0
  let weight := slots.length
  ({ w with value, weight }, value != w.value || weight != w.weight)

def set (w : StrengthWords α) (slot : Slot) (down : Bool) (strength : α) (replaces : Bool) :
    StrengthWords α × Bool :=
  refresh { w with
    live := w.live.put slot down
    replacing := w.replacing.put slot (down && replaces)
    adding := w.adding.put slot false
    strengths := w.strengths.put slot (if down then Scalar.maximum strength 0 else 0) }

def add (w : StrengthWords α) (slot : Slot) (amount : α) (replaces : Bool) :
    StrengthWords α × Bool :=
  refresh { w with
    live := w.live.put slot true
    replacing := w.replacing.put slot replaces
    adding := w.adding.put slot true
    strengths := w.strengths.put slot (Scalar.clamp (w.strengths.ofSlot slot + amount) 0 1) }

def resetAdds (w : StrengthWords α) : StrengthWords α × Bool :=
  refresh { w with
    live := w.live &&& ~~~w.adding
    replacing := w.replacing &&& ~~~w.adding
    adding := Mask.none
    strengths := w.strengths.mapFinIdx fun place strength _ =>
      if w.adding.has place then 0 else strength }

def releaseAll (w : StrengthWords α) : StrengthWords α × Bool :=
  refresh { w with
    live := Mask.none
    replacing := Mask.none
    adding := Mask.none
    strengths := Vector.replicate maskWidth 0 }

end StrengthWords

/-! ## §3 Modifiers -/

/-- A modifier in words. -/
structure ModifierWords (α : Type) [Scalar α] where
  live : Mask := Mask.none
  factors : Row α := .replicate maskWidth 1
  /-- The product that the cell shows. -/
  product : α := 1

namespace ModifierWords

variable {α : Type} [Scalar α]

/-- Brings what is shown up to date, and answers whether it has changed. -/
def refresh (w : ModifierWords α) : ModifierWords α × Bool :=
  let product := w.live.members.foldl (fun product slot => product * w.factors.ofSlot slot) 1
  ({ w with product }, product != w.product)

def set (w : ModifierWords α) (slot : Slot) (down : Bool) (factor : α) : ModifierWords α × Bool :=
  refresh { w with
    live := w.live.put slot down
    factors := w.factors.put slot (if down then factor else 1) }

def releaseAll (w : ModifierWords α) : ModifierWords α × Bool :=
  refresh { w with
    live := Mask.none
    factors := Vector.replicate maskWidth 1 }

end ModifierWords

end VirtualPad
