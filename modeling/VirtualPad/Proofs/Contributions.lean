import Mathlib.Logic.Basic
import VirtualPad.Proofs.Moves

/-!
# What the slots of a pad hold

A pad is written in many ways, but all that matters to a mapping is which slots contribute and which
are taken.  `Pad.view` shows just that: the slots of a place, and for each of them whether it was
written as it is or built up by adding.  Every operation on a pad is one operation on the views, and
there is one lemma for each that says which.  Nothing further on looks into buttons, sticks and
triggers again.

The lemmas hold of any way to look at contributions (`Look`), be it that one sees all of them or, as
with views, little.

A place is a cell that has slots of its own.  A diagonal has none: it writes into the two directions
that it consists of.
-/

namespace VirtualPad

/-! ## §1 Slots seen from outside -/

namespace Slots

variable {κ α : Type}

/-- The slots with every contribution looked at through a function. -/
def map (look : κ → α) (s : Slots κ) : Slots α :=
  { owned := s.owned, contributions := s.contributions.map fun held => held.map look }

variable (look : κ → α) (s : Slots κ)

@[simp] theorem held_map (slot : Slot) : (s.map look).held slot = (s.held slot).map look := by
  simp [map, held]

@[simp] theorem map_default : ({} : Slots κ).map look = {} := by
  simp [map]

theorem map_put (slot : Slot) (contribution : Option κ) :
    (s.put slot contribution).map look = (s.map look).put slot (contribution.map look) := by
  simp only [map, put, Vector.map_set]

theorem map_clear : s.clear.map look = (s.map look).clear := by
  simp [map, clear]

theorem map_filter {keep : κ → Bool} {keep' : α → Bool} (hkeep : ∀ x, keep x = keep' (look x)) :
    (s.filter keep).map look = (s.map look).filter keep' := by
  simp only [map, filter, Vector.map_map, Function.comp_def]
  congr 2
  funext held
  cases held with
  | none => rfl
  | some x => cases h : keep' (look x) <;> simp [Option.filter, hkeep, h]

end Slots

/-- How a slot contributes. -/
inductive Share where
  | plain
  | builtUp
  deriving DecidableEq, Repr

/-- How a push contributes. -/
def Push.share (p : Push Float) : Share := if p.adds then .builtUp else .plain

/-! ## §2 Places and views -/

namespace PadCell

/-- The places that a cell writes into. -/
def places : PadCell → List PadCell
  | .diagonal stick x y => [.direction stick .x x, .direction stick .y y]
  | cell => [cell]

/-- The cell is pushed with a strength. -/
def isStrength : PadCell → Bool
  | .trigger _ | .direction _ _ _ | .diagonal _ _ _ => true
  | _ => false

/-- The trigger that a place is a part of. -/
def trigger? : PadCell → Option (Fin 2)
  | .trigger index | .triggerModifier index => some index
  | _ => none

/-- The stick that a place is a part of. -/
def stick? : PadCell → Option (Fin 2)
  | .direction index _ _ | .stickModifier index | .rotateModifier index => some index
  | _ => none

/-- The side of a stick that a place is. -/
def part? : PadCell → Option (Axis × Side)
  | .direction _ axis side => some (axis, side)
  | _ => none

end PadCell

/-- The slots of a place of a trigger. -/
def Trigger.view (t : Trigger) : PadCell → Slots Share
  | .trigger _ => t.cell.map Push.share
  | .triggerModifier _ => t.modifier.map fun _ => .plain
  | _ => {}

/-- The slots of a place of a stick. -/
def Stick.view (s : Stick) : PadCell → Slots Share
  | .direction _ axis side => ((s.axis axis).side side).map Push.share
  | .stickModifier _ => s.modifier.map fun _ => .plain
  | .rotateModifier _ => s.rotateModifier.map fun _ => .plain
  | _ => {}

/-- The slots of a place of the pad. -/
def Pad.view (p : Pad) (place : PadCell) : Slots Share :=
  match place with
  | .button index => (p.button index).map fun _ => .plain
  | .trigger index | .triggerModifier index => (p.trigger index).view place
  | .direction index _ _ | .stickModifier index | .rotateModifier index =>
    (p.stick index).view place
  | .diagonal _ _ _ => {}

/-- A way to look at what the slots of a pad hold. -/
structure Look (α : Type) where
  hold : Hold → α
  push : Push Float → α
  factor : Float → α

/-- To see no more than how something contributes. -/
def Look.share : Look Share where
  hold _ := .plain
  push := Push.share
  factor _ := .plain

section

variable {α : Type} (l : Look α)

def Trigger.look (t : Trigger) : PadCell → Slots α
  | .trigger _ => t.cell.map l.push
  | .triggerModifier _ => t.modifier.map l.factor
  | _ => {}

def Stick.look (s : Stick) : PadCell → Slots α
  | .direction _ axis side => ((s.axis axis).side side).map l.push
  | .stickModifier _ => s.modifier.map l.factor
  | .rotateModifier _ => s.rotateModifier.map l.factor
  | _ => {}

/-- What is seen of the slots of a place of the pad. -/
def Pad.look (p : Pad) (place : PadCell) : Slots α :=
  match place with
  | .button index => (p.button index).map l.hold
  | .trigger index | .triggerModifier index => (p.trigger index).look l place
  | .direction index _ _ | .stickModifier index | .rotateModifier index =>
    (p.stick index).look l place
  | .diagonal _ _ _ => {}

/-- Pads with the same contributions look the same. -/
theorem Pad.SameCells.look {p q : Pad} (h : p.SameCells q) (place : PadCell) :
    p.look l place = q.look l place := by
  obtain ⟨hbuttons, htriggers, hsticks⟩ := h
  cases place <;> simp [Pad.look, button, trigger, stick, hbuttons, htriggers, hsticks]

@[simp] theorem Trigger.look_recompute (t : Trigger) (place : PadCell) :
    t.recompute.look l place = t.look l place := rfl

@[simp] theorem Stick.look_recompute (s : Stick) (place : PadCell) :
    s.recompute.look l place = s.look l place := by
  cases place with
  | direction index axis side => cases axis <;> rfl
  | _ => rfl

@[simp] theorem Stick.look_rotate (s : Stick) (delta : Float) (clockwise : Bool)
    (place : PadCell) : (s.rotate delta clockwise).look l place = s.look l place := by
  unfold Stick.rotate
  rw [Stick.look_recompute]
  rfl

@[simp] theorem Stick.look_touched (before after : Stick) (parts : List (Axis × Side))
    (place : PadCell) : (Pad.touched before after parts).look l place = after.look l place := by
  unfold Pad.touched
  rw [Stick.look_recompute]
  split <;> rfl

end

theorem Pad.view_eq_look (p : Pad) (place : PadCell) : p.view place = p.look .share place := by
  cases place <;> rfl

theorem Pad.SameCells.view {p q : Pad} (h : p.SameCells q) (place : PadCell) :
    p.view place = q.view place := by
  rw [view_eq_look, view_eq_look, h.look]

/-! ## §3 Putting one part in place -/

namespace Pad

variable {α : Type} {l : Look α} (p : Pad) (place : PadCell)

theorem look_setButton (index : Fin 15) (b : ButtonCell) :
    (p.setButton index b).look l place =
      if place = .button index then b.map l.hold else p.look l place := by
  cases place with
  | button other =>
    by_cases hsame : index = other
    · simp [look, button, setButton, hsame]
    · have hne : index.val ≠ other.val := fun h => hsame (Fin.ext h)
      simp [look, button, setButton, hne, Ne.symm hsame]
  | _ => rfl

theorem look_setTrigger (index : Fin 2) (t : Trigger) :
    (p.setTrigger index t).look l place =
      if place.trigger? = some index then t.look l place else p.look l place := by
  have hget : ∀ other, (p.setTrigger index t).trigger other =
      if other = index then t else p.trigger other := by
    intro other
    by_cases hsame : other = index
    · simp [trigger, setTrigger, hsame]
    · have hne : index.val ≠ other.val := fun h => hsame (Fin.ext h.symm)
      simp [trigger, setTrigger, hne, hsame]
  cases place with
  | trigger other | triggerModifier other =>
    simp only [look, hget, PadCell.trigger?, Option.some.injEq]
    split <;> rfl
  | _ => rfl

theorem look_setStick (index : Fin 2) (s : Stick) :
    (p.setStick index s).look l place =
      if place.stick? = some index then s.look l place else p.look l place := by
  have hget : ∀ other, (p.setStick index s).stick other =
      if other = index then s else p.stick other := by
    intro other
    by_cases hsame : other = index
    · simp [stick, setStick, hsame]
    · have hne : index.val ≠ other.val := fun h => hsame (Fin.ext h.symm)
      simp [stick, setStick, hne, hsame]
  cases place with
  | direction other axis side | stickModifier other | rotateModifier other =>
    simp only [look, hget, PadCell.stick?, Option.some.injEq]
    split <;> rfl
  | _ => rfl

variable {p place}

/-- A trigger that is put in place changes nothing at a place that it shows as it was. -/
theorem look_setTrigger_of_same {index : Fin 2} {t : Trigger}
    (hsame : place.trigger? = some index → t.look l place = (p.trigger index).look l place) :
    (p.setTrigger index t).look l place = p.look l place := by
  rw [look_setTrigger]
  split
  · rename_i htrigger
    rw [hsame htrigger]
    cases place with
    | trigger other | triggerModifier other =>
      obtain rfl : other = index := Option.some.inj htrigger
      rfl
    | _ => simp [PadCell.trigger?] at htrigger
  · rfl

/-- A stick that is put in place changes nothing at a place that it shows as it was. -/
theorem look_setStick_of_same {index : Fin 2} {s : Stick}
    (hsame : place.stick? = some index → s.look l place = (p.stick index).look l place) :
    (p.setStick index s).look l place = p.look l place := by
  rw [look_setStick]
  split
  · rename_i hstick
    rw [hsame hstick]
    cases place with
    | direction other axis side | stickModifier other | rotateModifier other =>
      obtain rfl : other = index := Option.some.inj hstick
      rfl
    | _ => simp [PadCell.stick?] at hstick
  · rfl

theorem look_setStick_modifier (p : Pad) (place : PadCell) (index : Fin 2)
    (m : ModifierCell Float) {s : Stick}
    (hs : s.look l place = ({ p.stick index with modifier := m } : Stick).look l place) :
    (p.setStick index s).look l place =
      if place = .stickModifier index then m.map l.factor else p.look l place := by
  by_cases hplace : place = .stickModifier index
  · subst hplace
    refine (look_setStick p _ index s).trans ((if_pos rfl).trans ?_)
    rw [hs, if_pos rfl]
    rfl
  · rw [if_neg hplace]
    refine look_setStick_of_same fun hstick => hs.trans ?_
    cases place with
    | direction other axis side => cases axis <;> rfl
    | stickModifier other => exact absurd hstick (by simpa [PadCell.stick?] using hplace)
    | _ => rfl

theorem look_setStick_rotateModifier (p : Pad) (place : PadCell) (index : Fin 2)
    (m : ModifierCell Float) :
    (p.setStick index { p.stick index with rotateModifier := m }).look l place =
      if place = .rotateModifier index then m.map l.factor else p.look l place := by
  by_cases hplace : place = .rotateModifier index
  · subst hplace
    refine (look_setStick p _ index _).trans ((if_pos rfl).trans ?_)
    rw [if_pos rfl]
    rfl
  · rw [if_neg hplace]
    refine look_setStick_of_same fun hstick => ?_
    cases place with
    | direction other axis side => cases axis <;> rfl
    | rotateModifier other => exact absurd hstick (by simpa [PadCell.stick?] using hplace)
    | _ => rfl

theorem look_setTrigger_modifier (p : Pad) (place : PadCell) (index : Fin 2)
    (m : ModifierCell Float) {t : Trigger}
    (ht : t.look l place = ({ p.trigger index with modifier := m } : Trigger).look l place) :
    (p.setTrigger index t).look l place =
      if place = .triggerModifier index then m.map l.factor else p.look l place := by
  by_cases hplace : place = .triggerModifier index
  · subst hplace
    refine (look_setTrigger p _ index t).trans ((if_pos rfl).trans ?_)
    rw [ht, if_pos rfl]
    rfl
  · rw [if_neg hplace]
    refine look_setTrigger_of_same fun htrigger => ht.trans ?_
    cases place with
    | triggerModifier other => exact absurd htrigger (by simpa [PadCell.trigger?] using hplace)
    | _ => rfl

end Pad

/-! ## §4 Changing strengths -/

section

variable {α : Type} {l : Look α} {change : StrengthCell Float → StrengthCell Float}
  {f : Slots α → Slots α} (hchange : ∀ c : StrengthCell Float, (change c).map l.push = f (c.map l.push))

include hchange

/-- Changing one strength of a stick changes the place that it is. -/
theorem Stick.look_mapSide (s : Stick) (axis : Axis) (side : Side) (place : PadCell) :
    (s.mapSide axis side change).look l place =
      if place.part? = some (axis, side) then f (s.look l place) else s.look l place := by
  cases place with
  | direction index axis' side' =>
    cases axis <;> cases axis' <;> cases side <;> cases side' <;>
      first | exact hchange _ | rfl
  | _ => cases axis <;> rfl

/-- Changing several strengths of a stick changes the places that they are. -/
theorem Stick.look_mapParts (s : Stick) {parts : List (Axis × Side)} (hparts : parts.Nodup)
    (place : PadCell) :
    (Pad.mapParts s parts change).look l place =
      if ∃ part ∈ parts, place.part? = some part then f (s.look l place) else s.look l place := by
  induction parts generalizing s with
  | nil => simp [Pad.mapParts]
  | cons part rest ih =>
    obtain ⟨hnot, hrest⟩ := List.nodup_cons.mp hparts
    have hstep : (Pad.mapParts s (part :: rest) change).look l place =
        (Pad.mapParts (s.mapSide part.1 part.2 change) rest change).look l place := rfl
    rw [hstep, ih _ hrest, Stick.look_mapSide hchange]
    by_cases hplace : place.part? = some part
    · -- The place is this part, so none of the others.
      have hothers : ¬ ∃ other ∈ rest, place.part? = some other := by
        rintro ⟨other, hother, hsame⟩
        obtain rfl : part = other := Option.some.inj (hplace.symm.trans hsame)
        exact hnot hother
      rw [if_neg hothers, if_pos hplace, if_pos ⟨part, List.mem_cons_self, hplace⟩]
    · rw [if_neg hplace]
      refine if_congr ?_ rfl rfl
      simp [hplace]

theorem Pad.look_setStick_mapParts (p : Pad) {cell : PadCell} {index : Fin 2}
    (hplaces : cell.places = (parts cell).map fun part => .direction index part.1 part.2)
    {s : Stick} (place : PadCell)
    (hs : s.look l place = (mapParts (p.stick index) (parts cell) change).look l place) :
    (p.setStick index s).look l place =
      if place ∈ cell.places then f (p.look l place) else p.look l place := by
  have hparts : (parts cell).Nodup := by
    cases cell <;> simp [parts]
  rw [look_setStick, hs, Stick.look_mapParts hchange _ hparts, hplaces]
  cases place with
  | direction other axis side =>
    by_cases hsame : other = index
    · subst hsame
      simp [PadCell.stick?, PadCell.part?, look]
    · simp [PadCell.stick?, hsame, Ne.symm hsame]
  | stickModifier other | rotateModifier other =>
    by_cases hsame : other = index
    · subst hsame
      simp [PadCell.stick?, PadCell.part?, look]
    · simp [PadCell.stick?, hsame]
  | _ => simp [PadCell.stick?]

theorem Pad.look_setTrigger_cell (p : Pad) (index : Fin 2) {t : Trigger} (place : PadCell)
    (ht : t.look l place =
      ({ p.trigger index with cell := change (p.trigger index).cell } : Trigger).look l place) :
    (p.setTrigger index t).look l place =
      if place ∈ (PadCell.trigger index).places then f (p.look l place) else p.look l place := by
  rw [look_setTrigger, ht]
  cases place with
  | trigger other =>
    by_cases hsame : other = index
    · subst hsame
      simp only [PadCell.trigger?, PadCell.places, List.mem_singleton, if_true]
      exact hchange _
    · simp [PadCell.trigger?, PadCell.places, hsame]
  | triggerModifier other =>
    by_cases hsame : other = index
    · subst hsame
      simp [PadCell.trigger?, PadCell.places, look, Trigger.look]
    · simp [PadCell.trigger?, PadCell.places, hsame]
  | _ => simp [PadCell.trigger?, PadCell.places]

/-- Changing the strengths of a cell changes its places. -/
theorem Pad.look_updateStrengths (p : Pad) (cell place : PadCell) :
    (p.updateStrengths cell change).1.look l place =
      if place ∈ cell.places ∧ place.isStrength = true then f (p.look l place)
      else p.look l place := by
  have hstrength : cell.isStrength = true → ∀ other ∈ cell.places, other.isStrength = true := by
    cases cell <;> simp [PadCell.isStrength, PadCell.places]
  cases cell with
  | trigger index =>
    have hset := look_setTrigger_cell hchange p index place (t := Trigger.recompute
      { p.trigger index with cell := change (p.trigger index).cell }) rfl
    refine hset.trans (if_congr ?_ rfl rfl)
    exact ⟨fun h => ⟨h, hstrength rfl place h⟩, fun h => h.1⟩
  | direction index axis side | diagonal index x y =>
    refine (look_setStick_mapParts hchange p rfl place (Stick.look_recompute l _ _)).trans
      (if_congr ?_ rfl rfl)
    exact ⟨fun h => ⟨h, hstrength rfl place h⟩, fun h => h.1⟩
  | _ =>
    rw [if_neg]
    · rfl
    · rintro ⟨hmem, hstrong⟩
      obtain rfl := List.mem_singleton.mp hmem
      simp [PadCell.isStrength] at hstrong

end

/-! ## §5 The operations on a pad -/

namespace Pad

/-- What a contribution leaves in its slot of a place. -/
def Contribution.share (c : Contribution) (place : PadCell) : Option Share :=
  if c.down then some (if c.adds && place.isStrength then .builtUp else .plain) else none

/-- At each place, this is what one sees of a contribution in its slot. -/
structure Contribution.Seen {α : Type} (c : Contribution) (slot : Slot) (l : Look α)
    (seen : PadCell → Option α) : Prop where
  hold (index : Fin 15) :
    seen (.button index) = if c.down then some (l.hold { replaces := c.replaces }) else none
  push (place : PadCell) : place.isStrength = true → ∀ cell : StrengthCell Float,
    (c.into slot cell).map l.push = (cell.map l.push).put slot (seen place)
  factor (index : Fin 2) : ∀ place ∈
    [PadCell.stickModifier index, .triggerModifier index, .rotateModifier index],
      seen place = if c.down then some (l.factor c.strength) else none

theorem Contribution.seen_share (c : Contribution) (slot : Slot) :
    c.Seen slot .share c.share where
  hold index := by simp [share, PadCell.isStrength, Look.share]
  push place hplace cell := by
    unfold Contribution.into
    split
    · rename_i hadds
      simp only [Bool.and_eq_true] at hadds
      unfold StrengthCell.add
      rw [Slots.map_put]
      simp [Contribution.share, Look.share, Push.share, hadds, hplace]
    · rename_i hplain
      unfold StrengthCell.set
      rw [Slots.map_put]
      cases hdown : c.down with
      | false => simp [Contribution.share, hdown]
      | true =>
        have hadds : c.adds = false := by simpa [hdown] using hplain
        simp [Contribution.share, Look.share, Push.share, hdown, hadds]
  factor index := by simp [share, PadCell.isStrength, Look.share]

section

variable {α : Type} {l : Look α}

theorem map_setModifier (m : ModifierCell Float) (slot : Slot) (down : Bool) (factor : Float) :
    (ModifierCell.set m slot down factor).map l.factor =
      (m.map l.factor).put slot (if down then some (l.factor factor) else none) := by
  unfold ModifierCell.set
  rw [Slots.map_put]
  cases down <;> rfl

/-- What happens to a place of the cell happens to the cell itself, unless it is a diagonal. -/
theorem ite_places {cell place : PadCell} {x y z : Slots α}
    (hplaces : cell.places = [cell]) (hxy : place = cell → x = y) :
    (if place = cell then x else z) = if place ∈ cell.places then y else z := by
  rw [hplaces]
  by_cases hplace : place = cell
  · rw [if_pos hplace, if_pos (List.mem_singleton.mpr hplace), hxy hplace]
  · rw [if_neg hplace, if_neg fun hmem => hplace (List.mem_singleton.mp hmem)]

/-- Writing a contribution puts it into its slot at the places of the cell. -/
theorem look_write (p : Pad) (cell : PadCell) {slot : Slot} (place : PadCell) {c : Contribution}
    {seen : PadCell → Option α} (hseen : c.Seen slot l seen) :
    (p.write cell slot c).1.look l place =
      if place ∈ cell.places then (p.look l place).put slot (seen place) else p.look l place := by
  -- The two sticks and the two ways to push them.
  have hdrive : ∀ index, cell.places = (parts cell).map (fun part =>
      .direction index part.1 part.2) → (p.setStick index (touched (p.stick index)
        (mapParts (p.stick index) (parts cell) (c.into slot)) (parts cell))).look l place =
      if place ∈ cell.places then (p.look l place).put slot (seen place) else p.look l place := by
    intro index hplaces
    by_cases hstrength : place.isStrength = true
    · exact look_setStick_mapParts (f := fun view => view.put slot (seen place))
        (hseen.push place hstrength) p hplaces place (Stick.look_touched _ _ _ _ _)
    · have hmem : place ∉ cell.places := by
        rw [hplaces]
        intro hmem
        obtain ⟨part, -, rfl⟩ := List.mem_map.mp hmem
        exact hstrength rfl
      rw [look_setStick_mapParts (f := fun view => view.put slot (seen (.trigger 0)))
        (hseen.push (.trigger 0) rfl) p hplaces place (Stick.look_touched _ _ _ _ _), if_neg hmem,
        if_neg hmem]
  -- Each cell writes the slots of its own places.
  cases cell with
  | button index =>
    refine (look_setButton p place index _).trans ?_
    unfold ButtonCell.set
    rw [Slots.map_put]
    refine ite_places rfl fun hplace => ?_
    rw [hplace, hseen.hold]
    cases c.down <;> rfl
  | trigger index =>
    refine (look_setTrigger_cell (f := fun view => view.put slot (seen (.trigger index)))
      (hseen.push (.trigger index) rfl) p index place (Trigger.look_recompute _ _ _)).trans ?_
    by_cases hmem : place ∈ (PadCell.trigger index).places
    · obtain rfl := List.mem_singleton.mp hmem
      rfl
    · rw [if_neg hmem, if_neg hmem]
  | direction index axis side => exact hdrive index rfl
  | diagonal index x y => exact hdrive index rfl
  | stickModifier index =>
    refine (look_setStick_modifier p place index _ (Stick.look_recompute _ _ _)).trans ?_
    refine ite_places rfl fun hplace => ?_
    rw [hplace, map_setModifier, hseen.factor index _ (by simp)]
    rfl
  | triggerModifier index =>
    refine (look_setTrigger_modifier p place index _ (Trigger.look_recompute _ _ _)).trans ?_
    refine ite_places rfl fun hplace => ?_
    rw [hplace, map_setModifier, hseen.factor index _ (by simp)]
    rfl
  | rotateModifier index =>
    refine (look_setStick_rotateModifier p place index _).trans ?_
    refine ite_places rfl fun hplace => ?_
    rw [hplace, map_setModifier, hseen.factor index _ (by simp)]
    rfl

end

variable (p : Pad) (cell : PadCell) (slot : Slot) (place : PadCell)

theorem view_write (c : Contribution) :
    (p.write cell slot c).1.view place =
      if place ∈ cell.places then (p.view place).put slot (c.share place) else p.view place := by
  simp only [view_eq_look]
  exact look_write p cell place (c.seen_share slot)

/-- Adding leaves something built up in the slot, at the strengths among the places of the cell. -/
theorem view_add (amount : Float) (replaces : Bool) :
    (p.add cell slot amount replaces).1.view place =
      if place ∈ cell.places ∧ place.isStrength = true then
        (p.view place).put slot (some .builtUp)
      else p.view place := by
  have hadd : ∀ c : StrengthCell Float, (c.add slot amount replaces).map Push.share =
      (c.map Push.share).put slot (some .builtUp) := fun c => Slots.map_put Push.share c slot _
  simp only [view_eq_look]
  exact look_updateStrengths (l := .share) (f := fun view => view.put slot (some .builtUp)) hadd p
    cell place

/-- Clearing what was built up leaves what was written as it is. -/
theorem view_resetAdds :
    (p.resetAdds cell).1.view place =
      if place ∈ cell.places ∧ place.isStrength = true then (p.view place).filter (· = .plain)
      else p.view place := by
  simp only [view_eq_look]
  refine look_updateStrengths (l := .share) (f := fun view => view.filter (· = .plain))
    (fun c => ?_) p cell place
  refine Slots.map_filter Push.share c fun push => ?_
  cases hadds : push.adds <;> simp [Push.share, hadds]

@[simp] theorem view_rotate (stick : Fin 2) (delta : Float) (clockwise : Bool) :
    (p.rotate stick delta clockwise).1.view place = p.view place := by
  simp only [view_eq_look]
  exact look_setStick_of_same fun _ => Stick.look_rotate _ _ _ _ _

@[simp] theorem view_releaseAll : p.releaseAll.1.view place = (p.view place).clear := by
  have hstick : ∀ s : Stick, s.releaseAll.look .share place = (s.look .share place).clear := by
    intro s
    unfold Stick.releaseAll
    rw [Stick.look_recompute]
    cases place with
    | direction index axis side => cases axis <;> cases side <;> exact Slots.map_clear _ _
    | stickModifier index | rotateModifier index => exact Slots.map_clear _ _
    | _ => rfl
  have htrigger : ∀ t : Trigger, t.releaseAll.look .share place = (t.look .share place).clear := by
    intro t
    unfold Trigger.releaseAll
    rw [Trigger.look_recompute]
    cases place with
    | trigger index | triggerModifier index => exact Slots.map_clear _ _
    | _ => rfl
  simp only [view_eq_look]
  cases place with
  | button index => simp [look, button, releaseAll, Slots.map_clear]
  | trigger index | triggerModifier index =>
    simpa [look, trigger, releaseAll] using htrigger (p.trigger index)
  | direction index axis side | stickModifier index | rotateModifier index =>
    simpa [look, stick, releaseAll] using hstick (p.stick index)
  | diagonal index x y => rfl

@[simp] theorem look_reset {α : Type} (l : Look α) (shape : StickShape) (connected : Bool) :
    (p.reset shape connected).1.look l place = {} := by
  cases place with
  | direction index axis side =>
    cases axis <;> cases side <;>
      simp [look, stick, reset, Stick.look, Stick.axis, AxisCells.side]
  | _ => simp [look, button, trigger, stick, reset, Trigger.look, Stick.look]

@[simp] theorem view_reset (shape : StickShape) (connected : Bool) :
    (p.reset shape connected).1.view place = {} := by
  rw [view_eq_look, look_reset]

/-- Giving a slot of a cell away takes it at the places of the cell. -/
theorem look_claim {α : Type} (l : Look α) :
    (p.claim cell slot).look l place =
      if place ∈ cell.places then (p.look l place).claim slot else p.look l place := by
  have hclaim : ∀ c : StrengthCell Float,
      (c.claim slot).map l.push = (c.map l.push).claim slot := fun _ => rfl
  cases cell with
  | button index =>
    refine (look_setButton p place index _).trans (ite_places rfl fun hplace => ?_)
    rw [hplace]
    rfl
  | trigger index =>
    exact look_setTrigger_cell (f := fun view => view.claim slot) hclaim p index place rfl
  | direction index axis side | diagonal index x y =>
    exact look_setStick_mapParts (f := fun view => view.claim slot) hclaim p rfl place rfl
  | stickModifier index =>
    refine (look_setStick_modifier p place index _ rfl).trans (ite_places rfl fun hplace => ?_)
    rw [hplace]
    rfl
  | triggerModifier index =>
    refine (look_setTrigger_modifier p place index _ rfl).trans (ite_places rfl fun hplace => ?_)
    rw [hplace]
    rfl
  | rotateModifier index =>
    refine (look_setStick_rotateModifier p place index _).trans (ite_places rfl fun hplace => ?_)
    rw [hplace]
    rfl

theorem view_claim :
    (p.claim cell slot).view place =
      if place ∈ cell.places then (p.view place).claim slot else p.view place := by
  simp only [view_eq_look]
  exact look_claim p cell slot place .share

/-- A slot of a cell is taken if it is taken at one of its places. -/
theorem has_owned :
    (p.owned cell).has slot = true ↔
      ∃ place ∈ cell.places, (p.view place).owned.has slot = true := by
  cases cell with
  | direction index axis side | diagonal index x y =>
    simp [owned, parts, PadCell.places, view, Stick.view, Slots.map, Mask.has_or]
  | _ => simp [owned, PadCell.places, view, Stick.view, Trigger.view, Slots.map]

end Pad

end VirtualPad
