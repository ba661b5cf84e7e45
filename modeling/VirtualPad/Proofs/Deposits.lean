import VirtualPad.Proofs.Looks
import VirtualPad.Proofs.RestingPads

/-!
# What a pad shows goes by its slots

A deposit is all that a slot holds: a hold on a button, a push or a factor.  The values of triggers
and sticks are kept beside the slots, so they could be left over from what was held before.  As long
as no rotator is in charge they are not: writing, claiming and committing keep them to what the slots
come to (`Pad.Direct`).

* `Pad.deposit_write`: writing leaves its deposit at the places of the cell and nothing else.
* `Pad.Direct.controls`: pads of the same shape with the same deposits show the same.
-/

namespace VirtualPad

/-! ## §1 Cells with the same contributions -/

namespace Slots

variable {κ α : Type} {s s' : Slots κ}

/-- Contributions that look the same are the same, if one sees all of them. -/
theorem contributions_of_map {look : κ → α} (hlook : Function.Injective look)
    (h : ∀ slot, (s.map look).held slot = (s'.map look).held slot) :
    s.contributions = s'.contributions := by
  refine Vector.ext fun place hplace => ?_
  have hsame := h ⟨place, hplace⟩
  rw [held_map, held_map] at hsame
  exact Option.map_injective hlook hsame

theorem live_congr (h : s.contributions = s'.contributions) : s.live = s'.live := by
  unfold live
  rw [h]

theorem effective_congr (h : s.contributions = s'.contributions) (replaces : κ → Bool) :
    s.effective replaces = s'.effective replaces := by
  unfold effective
  rw [live_congr h]

end Slots

section

variable {α : Type}

theorem ButtonCell.pressed_congr {c c' : ButtonCell} (h : c.contributions = c'.contributions) :
    c.pressed = c'.pressed := by
  unfold ButtonCell.pressed
  rw [Slots.effective_congr h]

theorem StrengthCell.pushes_congr {c c' : StrengthCell α} (h : c.contributions = c'.contributions) :
    c.pushes = c'.pushes :=
  Slots.effective_congr h _

variable [Scalar α]

theorem ModifierCell.product_congr {c c' : ModifierCell α}
    (h : c.contributions = c'.contributions) : c.product = c'.product := by
  unfold ModifierCell.product
  rw [Slots.live_congr h]

theorem mergeSides_congr {negative negative' positive positive' : StrengthCell α}
    (hnegative : negative.contributions = negative'.contributions)
    (hpositive : positive.contributions = positive'.contributions) :
    mergeSides negative positive = mergeSides negative' positive' := by
  unfold mergeSides StrengthCell.value StrengthCell.weight
  rw [StrengthCell.pushes_congr hnegative, StrengthCell.pushes_congr hpositive]

end

/-! ## §2 Bringing up to date -/

namespace Stick

@[simp] theorem engaged_recompute (s : Stick) :
    s.recompute.rotation.engaged = s.rotation.engaged := by
  unfold recompute
  dsimp only
  split <;> rfl

/-- Nothing is left to do when a stick has just been brought up to date. -/
theorem recompute_recompute (s : Stick) : s.recompute.recompute = s.recompute := by
  unfold recompute direct
  dsimp only
  split <;> simp_all

/-- A stick that no rotator is in charge of shows what its strengths and its modifier come to. -/
theorem shown_recompute {s : Stick} (h : s.rotation.engaged = false) :
    (s.recompute.x, s.recompute.y) = shaped s.shape
      (Scalar.clamp (s.direct.1 * ModifierCell.product s.modifier) (-1) 1)
      (Scalar.clamp (s.direct.2 * ModifierCell.product s.modifier) (-1) 1) := by
  unfold recompute
  simp [h]

@[simp] theorem rotation_mapParts (s : Stick) (parts : List (Axis × Side))
    (change : StrengthCell Float → StrengthCell Float) :
    (Pad.mapParts s parts change).rotation = s.rotation := by
  induction parts generalizing s with
  | nil => rfl
  | cons part rest ih =>
    refine (ih _).trans ?_
    obtain ⟨axis, side⟩ := part
    cases axis <;> rfl

/-- Giving slots away does not touch the value. -/
theorem recompute_claimParts (s : Stick) (parts : List (Axis × Side)) (slot : Slot) :
    (Pad.mapParts s parts fun c => c.claim slot).recompute =
      Pad.mapParts s.recompute parts fun c => c.claim slot := by
  induction parts generalizing s with
  | nil => rfl
  | cons part rest ih =>
    refine (ih _).trans (congrArg (fun s => Pad.mapParts s rest fun c => c.claim slot) ?_)
    obtain ⟨axis, side⟩ := part
    cases axis <;> cases side <;> rfl

end Stick

theorem Trigger.recompute_recompute (t : Trigger) : t.recompute.recompute = t.recompute := rfl

/-! ## §3 Pads without rotators -/

namespace Pad

/-- The pad shows what its slots come to, and no rotator is in charge of a stick. -/
structure Direct (p : Pad) : Prop where
  triggers (index : Fin 2) : (p.trigger index).recompute = p.trigger index
  sticks (index : Fin 2) : (p.stick index).recompute = p.stick index
  engaged (index : Fin 2) : (p.stick index).rotation.engaged = false

namespace Direct

variable {p : Pad}

theorem congr (hp : p.Direct) {q : Pad} (h : q.SameCells p) : q.Direct := by
  obtain ⟨-, htriggers, hsticks⟩ := h
  constructor
  · simpa [trigger, htriggers] using hp.triggers
  · simpa [stick, hsticks] using hp.sticks
  · simpa [stick, hsticks] using hp.engaged

theorem setButton (hp : p.Direct) (index : Fin 15) (b : ButtonCell) : (p.setButton index b).Direct :=
  ⟨hp.triggers, hp.sticks, hp.engaged⟩

theorem setTrigger (hp : p.Direct) (index : Fin 2) {t : Trigger} (ht : t.recompute = t) :
    (p.setTrigger index t).Direct := by
  refine ⟨fun other => ?_, hp.sticks, hp.engaged⟩
  by_cases hsame : index = other
  · simpa [trigger, Pad.setTrigger, hsame] using ht
  · have hne : index.val ≠ other.val := fun h => hsame (Fin.ext h)
    simpa [trigger, Pad.setTrigger, hne] using hp.triggers other

theorem setStick (hp : p.Direct) (index : Fin 2) {s : Stick} (hs : s.recompute = s)
    (hengaged : s.rotation.engaged = false) : (p.setStick index s).Direct := by
  have hget : ∀ other, (p.setStick index s).stick other = s ∨
      (p.setStick index s).stick other = p.stick other := by
    intro other
    by_cases hsame : index = other
    · simp [stick, Pad.setStick, hsame]
    · have hne : index.val ≠ other.val := fun h => hsame (Fin.ext h)
      simp [stick, Pad.setStick, hne]
  refine ⟨hp.triggers, fun other => ?_, fun other => ?_⟩
  · obtain h | h := hget other <;> rw [h]
    · exact hs
    · exact hp.sticks other
  · obtain h | h := hget other <;> rw [h]
    · exact hengaged
    · exact hp.engaged other

/-- **Writing keeps a pad to its slots.** -/
theorem write (hp : p.Direct) (cell : PadCell) (slot : Slot) (c : Contribution) :
    (p.write cell slot c).1.Direct := by
  cases cell with
  | button index => exact hp.setButton index _
  | trigger index | triggerModifier index => exact hp.setTrigger index (Trigger.recompute_recompute _)
  | direction index axis side | diagonal index x y =>
    refine hp.setStick index (Stick.recompute_recompute _) ?_
    unfold touched
    rw [Stick.engaged_recompute]
    split
    · rfl
    · rw [Stick.rotation_mapParts]
      exact hp.engaged index
  | stickModifier index =>
    refine hp.setStick index (Stick.recompute_recompute _) ?_
    rw [Stick.engaged_recompute]
    exact hp.engaged index
  | rotateModifier index =>
    refine hp.setStick index ?_ (hp.engaged index)
    exact congrArg (fun s : Stick => { s with
      rotateModifier := ModifierCell.set (p.stick index).rotateModifier slot c.down c.strength })
      (hp.sticks index)

theorem claim (hp : p.Direct) (cell : PadCell) (slot : Slot) : (p.claim cell slot).Direct := by
  cases cell with
  | button index => exact hp.setButton index _
  | trigger index =>
    exact hp.setTrigger index (congrArg (fun t : Trigger =>
      { t with cell := (p.trigger index).cell.claim slot }) (hp.triggers index))
  | triggerModifier index =>
    exact hp.setTrigger index (congrArg (fun t : Trigger =>
      { t with modifier := (p.trigger index).modifier.claim slot }) (hp.triggers index))
  | direction index axis side | diagonal index x y =>
    refine hp.setStick index ((Stick.recompute_claimParts _ _ slot).trans ?_) ?_
    · rw [hp.sticks index]
    · rw [Stick.rotation_mapParts]
      exact hp.engaged index
  | stickModifier index =>
    exact hp.setStick index (congrArg (fun s : Stick =>
      { s with modifier := (p.stick index).modifier.claim slot }) (hp.sticks index))
      (hp.engaged index)
  | rotateModifier index =>
    exact hp.setStick index (congrArg (fun s : Stick =>
      { s with rotateModifier := (p.stick index).rotateModifier.claim slot }) (hp.sticks index))
      (hp.engaged index)

end Direct

/-- A pad is direct when it is switched on. -/
theorem direct_reset (p : Pad) (shape : StickShape) (connected : Bool) :
    (p.reset shape connected).1.Direct := by
  -- An empty stick is as a release leaves it, and a release brings it up to date.
  have hstick : Stick.recompute { shape } = { shape } := Stick.releaseAll_eq { shape }
  have htrigger : Trigger.recompute {} = {} := Trigger.releaseAll_eq {}
  refine ⟨fun index => ?_, fun index => ?_, fun index => ?_⟩
  · simpa [trigger, reset] using htrigger
  · simpa [stick, reset] using hstick
  · simp [stick, reset, Rotation.rest]

end Pad

/-! ## §4 Deposits -/

/-- All that a slot can hold. -/
inductive Deposit where
  | hold (h : Hold)
  | push (p : Push Float)
  | factor (f : Float)

/-- To see all of what is held. -/
def Look.whole : Look Deposit := ⟨.hold, .push, .factor⟩

namespace Pad

/-- What a slot of a place holds. -/
def deposit (p : Pad) (place : PadCell) (slot : Slot) : Option Deposit :=
  (p.look .whole place).held slot

/-- What a contribution leaves in its slot of a place, unless it adds. -/
def Contribution.deposit (c : Contribution) (place : PadCell) : Option Deposit :=
  if c.down then
    some <| match place with
      | .button _ => .hold { replaces := c.replaces }
      | .trigger _ | .direction _ _ _ | .diagonal _ _ _ =>
        .push { strength := Scalar.maximum c.strength 0, replaces := c.replaces, adds := false }
      | .stickModifier _ | .triggerModifier _ | .rotateModifier _ => .factor c.strength
  else none

theorem Contribution.seen_deposit {c : Contribution} (hadds : c.adds = false) (slot : Slot) :
    c.Seen slot .whole c.deposit where
  hold index := rfl
  push place hplace cell := by
    have hset : c.into slot cell = cell.set slot c.down c.strength c.replaces := by
      unfold Contribution.into
      rw [hadds]
      rfl
    have hput : (cell.set slot c.down c.strength c.replaces).map Look.whole.push =
        (cell.map Look.whole.push).put slot (if c.down then some (Deposit.push
          { strength := Scalar.maximum c.strength 0, replaces := c.replaces, adds := false })
          else none) := by
      unfold StrengthCell.set
      rw [Slots.map_put]
      cases c.down <;> rfl
    rw [hset, hput]
    cases place with
    | trigger index => rfl
    | direction index axis side => rfl
    | diagonal index x y => rfl
    | _ => contradiction
  factor index place hplace := by
    simp only [List.mem_cons, List.not_mem_nil, or_false] at hplace
    obtain rfl | rfl | rfl := hplace <;> rfl

/-- **Writing leaves its deposit** in its slot at the places of the cell, and nothing else. -/
theorem deposit_write (p : Pad) (cell : PadCell) (slot : Slot) {c : Contribution}
    (hadds : c.adds = false) (place : PadCell) (other : Slot) :
    (p.write cell slot c).1.deposit place other =
      if place ∈ cell.places ∧ slot = other then c.deposit place else p.deposit place other := by
  unfold deposit
  rw [look_write p cell place (Contribution.seen_deposit hadds slot)]
  by_cases hmem : place ∈ cell.places
  · rw [if_pos hmem, Slots.held_put]
    exact if_congr ⟨fun h => ⟨hmem, h⟩, fun h => h.2⟩ rfl rfl
  · rw [if_neg hmem, if_neg fun h => hmem h.1]

/-- A slot holds a deposit just if it is seen to contribute. -/
theorem isSome_deposit (p : Pad) (place : PadCell) (slot : Slot) :
    (p.deposit place slot).isSome = ((p.view place).held slot).isSome := by
  rw [view_eq_look]
  cases place <;> simp [deposit, look, Trigger.look, Stick.look]

/-! ## §5 Pads with the same deposits -/

section

variable {p q : Pad} (h : ∀ place slot, p.deposit place slot = q.deposit place slot)

include h

theorem contributions_button (index : Fin 15) :
    (p.button index).contributions = (q.button index).contributions :=
  Slots.contributions_of_map (fun _ _ => Deposit.hold.inj) (h (.button index))

theorem contributions_trigger (index : Fin 2) :
    (p.trigger index).cell.contributions = (q.trigger index).cell.contributions :=
  Slots.contributions_of_map (fun _ _ => Deposit.push.inj) (h (.trigger index))

theorem contributions_side (index : Fin 2) (axis : Axis) (side : Side) :
    (((p.stick index).axis axis).side side).contributions =
      (((q.stick index).axis axis).side side).contributions :=
  Slots.contributions_of_map (fun _ _ => Deposit.push.inj) (h (.direction index axis side))

theorem contributions_stickModifier (index : Fin 2) :
    (p.stick index).modifier.contributions = (q.stick index).modifier.contributions :=
  Slots.contributions_of_map (fun _ _ => Deposit.factor.inj) (h (.stickModifier index))

theorem contributions_triggerModifier (index : Fin 2) :
    (p.trigger index).modifier.contributions = (q.trigger index).modifier.contributions :=
  Slots.contributions_of_map (fun _ _ => Deposit.factor.inj) (h (.triggerModifier index))

namespace Direct

theorem value_congr (hp : p.Direct) (hq : q.Direct) (index : Fin 2) :
    (p.trigger index).value = (q.trigger index).value := by
  rw [← hp.triggers index, ← hq.triggers index]
  unfold Trigger.recompute StrengthCell.value
  dsimp only
  rw [StrengthCell.pushes_congr (contributions_trigger h index),
    ModifierCell.product_congr (contributions_triggerModifier h index)]

theorem shown_congr (hp : p.Direct) (hq : q.Direct)
    (hshape : ∀ index, (p.stick index).shape = (q.stick index).shape) (index : Fin 2) :
    ((p.stick index).x, (p.stick index).y) = ((q.stick index).x, (q.stick index).y) := by
  have hdirect : (p.stick index).direct = (q.stick index).direct :=
    Prod.ext
      (mergeSides_congr (contributions_side h index .x .negative)
        (contributions_side h index .x .positive))
      (mergeSides_congr (contributions_side h index .y .negative)
        (contributions_side h index .y .positive))
  rw [← hp.sticks index, ← hq.sticks index, Stick.shown_recompute (hp.engaged index),
    Stick.shown_recompute (hq.engaged index), hdirect, hshape index,
    ModifierCell.product_congr (contributions_stickModifier h index)]

end Direct

end

end Pad

/-- The buttons, triggers and axes that a reader sees. -/
def Snapshot.controls (s : Snapshot) : Nat × (Float × Float) × (Float × Float × Float × Float) :=
  (s.buttons, s.triggers, s.axes)

/-- **What a pad shows goes by its slots**: pads of the same shape with the same deposits show the same
while no rotator is in charge. -/
theorem Pad.Direct.controls {p q : Pad} (hp : p.Direct) (hq : q.Direct)
    (h : ∀ place slot, p.deposit place slot = q.deposit place slot)
    (hshape : ∀ index, (p.stick index).shape = (q.stick index).shape) (user : Nat) :
    (p.snapshot user).controls = (q.snapshot user).controls := by
  have hmask : p.buttonMask = q.buttonMask :=
    buttonMask_congr fun index => ButtonCell.pressed_congr (contributions_button h index)
  have hleft := Direct.shown_congr h hp hq hshape leftPart
  have hright := Direct.shown_congr h hp hq hshape rightPart
  rw [Prod.mk.injEq] at hleft hright
  unfold Snapshot.controls Pad.snapshot
  dsimp only
  rw [hmask, Direct.value_congr h hp hq leftPart, Direct.value_congr h hp hq rightPart,
    hleft.1, hleft.2, hright.1, hright.2]

end VirtualPad
