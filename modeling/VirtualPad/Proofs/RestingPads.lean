import VirtualPad.Proofs.Contributions

/-!
# Pads at rest

Releasing a pad drops all that contributes to it and turns its sticks back.  What the pad shows then
is brought up to date from nothing: every value is zero.  A pad at rest is one that a release leaves
as it is, and every pad is at rest after a release, so a second release cannot be seen.
-/

namespace VirtualPad

/-! ## §1 Cells without contributions -/

section

variable {κ α : Type}

theorem Slots.live_clear (s : Slots κ) : s.clear.live = [] :=
  (Slots.live_eq_nil _).mpr (Slots.held_clear s)

theorem Slots.effective_clear (s : Slots κ) (replaces : κ → Bool) :
    s.clear.effective replaces = [] :=
  (Slots.effective_eq_nil _ _).mpr s.live_clear

@[simp] theorem ButtonCell.pressed_clear (c : ButtonCell) :
    ButtonCell.pressed (Slots.clear c) = false := by
  unfold ButtonCell.pressed
  rw [Slots.effective_clear]
  rfl

@[simp] theorem StrengthCell.weight_clear (c : StrengthCell α) :
    StrengthCell.weight (Slots.clear c) = 0 := by
  unfold StrengthCell.weight StrengthCell.pushes
  rw [Slots.effective_clear]
  rfl

variable [Scalar α]

@[simp] theorem StrengthCell.value_clear (c : StrengthCell α) :
    StrengthCell.value (Slots.clear c) = 0 := by
  unfold StrengthCell.value StrengthCell.pushes
  rw [Slots.effective_clear]
  rfl

@[simp] theorem ModifierCell.product_clear (c : ModifierCell α) :
    ModifierCell.product (Slots.clear c) = 1 := by
  unfold ModifierCell.product
  rw [Slots.live_clear]
  rfl

/-- Two sides without pushes merge into nothing. -/
theorem mergeSides_clear (negative positive : StrengthCell α) :
    mergeSides (Slots.clear negative) (Slots.clear positive) = 0 := by
  unfold mergeSides
  simp

end

/-! ## §2 Sticks and triggers -/

/-- A release leaves the shape of a stick and who owns its slots, and nothing else. -/
theorem Stick.releaseAll_eq (s : Stick) : s.releaseAll =
    { xCells := s.xCells.clear
      yCells := s.yCells.clear
      modifier := s.modifier.clear
      rotateModifier := s.rotateModifier.clear
      shape := s.shape } := by
  -- Nothing pushes, so the stick is centred: these are the sums that `recompute` comes to.
  have hquiet : ¬ (Scalar.epsilon < (0 : Float).abs ∨ Scalar.epsilon < (0 : Float).abs) := by
    decide +kernel
  have hcentre : Scalar.clamp ((0 : Float) * 1) (-1) 1 = 0 := by decide +kernel
  have hsmall : (0 : Float).abs < Scalar.epsilon ∧ (0 : Float).abs < Scalar.epsilon := by
    decide +kernel
  have hshaped : shaped s.shape 0 0 = (0, 0) := by
    unfold shaped
    rw [if_pos (.inr hsmall)]
  have hidle : (Rotation.rest : Rotation Float).engaged = false := rfl
  unfold Stick.releaseAll Stick.recompute Stick.direct AxisCells.clear
  simp only [mergeSides_clear, ModifierCell.product_clear, hidle, Bool.false_and,
    Bool.false_eq_true, if_false, if_neg hquiet, hcentre, hshaped]

theorem Trigger.releaseAll_eq (t : Trigger) : t.releaseAll =
    { cell := t.cell.clear, modifier := t.modifier.clear } := by
  have hzero : Scalar.clamp ((0 : Float) * 1) 0 1 = 0 := by decide +kernel
  unfold Trigger.releaseAll Trigger.recompute
  simp only [StrengthCell.value_clear, ModifierCell.product_clear, hzero, StrengthCell.pressed,
    StrengthCell.weight_clear, Nat.lt_irrefl, decide_false]

/-- Releasing twice is releasing once. -/
theorem Stick.releaseAll_releaseAll (s : Stick) : s.releaseAll.releaseAll = s.releaseAll := by
  rw [Stick.releaseAll_eq s, Stick.releaseAll_eq]
  rfl

theorem Trigger.releaseAll_releaseAll (t : Trigger) : t.releaseAll.releaseAll = t.releaseAll := by
  rw [Trigger.releaseAll_eq t, Trigger.releaseAll_eq]
  rfl

namespace Pad

/-! ## §3 Pads -/

/-- A release leaves the pad as it is. -/
structure AtRest (p : Pad) : Prop where
  buttons (index : Fin 15) : Slots.clear (p.button index) = p.button index
  triggers (index : Fin 2) : (p.trigger index).releaseAll = p.trigger index
  sticks (index : Fin 2) : (p.stick index).releaseAll = p.stick index

/-- Nothing contributes to the pad, and it shows nothing. -/
structure Neutral (p : Pad) : Prop where
  /-- No slot of any place contributes, be it written or built up. -/
  held (place : PadCell) (slot : Slot) : (p.view place).held slot = none
  /-- Modifiers scale by one. -/
  modifiers (index : Fin 2) : ModifierCell.product (p.trigger index).modifier = 1 ∧
    ModifierCell.product (p.stick index).modifier = 1 ∧
    ModifierCell.product (p.stick index).rotateModifier = 1
  /-- Rotators are at their default. -/
  rotation (index : Fin 2) : (p.stick index).rotation = Rotation.rest
  buttons (index : Fin 15) : ButtonCell.pressed (p.button index) = false
  triggers (index : Fin 2) : (p.trigger index).value = 0 ∧ (p.trigger index).pressed = false
  sticks (index : Fin 2) : (p.stick index).x = 0 ∧ (p.stick index).y = 0

theorem AtRest.congr {p q : Pad} (hp : p.AtRest) (h : q.SameCells p) : q.AtRest := by
  obtain ⟨hbuttons, htriggers, hsticks⟩ := h
  constructor
  · simpa [button, hbuttons] using hp.buttons
  · simpa [trigger, htriggers] using hp.triggers
  · simpa [stick, hsticks] using hp.sticks

/-- **After a release a pad is at rest.** -/
theorem atRest_releaseAll (p : Pad) : p.releaseAll.1.AtRest := by
  constructor
  · intro index
    simp [releaseAll, button, Slots.clear]
  · intro index
    simp [releaseAll, trigger, Trigger.releaseAll_releaseAll]
  · intro index
    simp [releaseAll, stick, Stick.releaseAll_releaseAll]

/-- Nothing that has changed is seen in a row, if it is seen at no place of it. -/
theorem any_zip_self {κ : Type} {n : Nat} (v : Vector κ n) {differs : κ → κ → Bool}
    (h : ∀ index : Fin n, differs v[index] v[index] = false) :
    (v.zip v).any (fun (before, after) => differs before after) = false := by
  rw [Vector.any_eq_false]
  intro index hindex
  simpa using h ⟨index, hindex⟩

/-- **Releasing a pad at rest does nothing**, and nobody sees it. -/
theorem AtRest.releaseAll {p : Pad} (hp : p.AtRest) : p.releaseAll = (p, false) := by
  have hbuttons : p.buttons.map Slots.clear = p.buttons :=
    Vector.ext fun index hindex => by simpa [button] using hp.buttons ⟨index, hindex⟩
  have htriggers : p.triggers.map Trigger.releaseAll = p.triggers :=
    Vector.ext fun index hindex => by simpa [trigger] using hp.triggers ⟨index, hindex⟩
  have hsticks : p.sticks.map Stick.releaseAll = p.sticks :=
    Vector.ext fun index hindex => by simpa [stick] using hp.sticks ⟨index, hindex⟩
  -- Zero looks like itself, as not every number does.
  have hzero : ((0 : Float) != 0) = false := by decide +kernel
  have htrigger : ∀ index : Fin 2, (p.trigger index).differs (p.trigger index) = false := by
    intro index
    rw [← hp.triggers index, Trigger.releaseAll_eq]
    simp [Trigger.differs, hzero]
  have hstick : ∀ index : Fin 2, (p.stick index).differs (p.stick index) = false := by
    intro index
    rw [← hp.sticks index, Stick.releaseAll_eq]
    simp [Stick.differs, hzero]
  unfold Pad.releaseAll
  simp only [hbuttons, htriggers, hsticks]
  rw [any_zip_self p.buttons fun index => by simp [ButtonCell.differs],
    any_zip_self p.triggers htrigger, any_zip_self p.sticks hstick]
  rfl

/-- **A pad at rest shows nothing.** -/
theorem AtRest.neutral {p : Pad} (hp : p.AtRest) : p.Neutral := by
  constructor
  · intro place slot
    have hview := p.view_releaseAll place
    rw [hp.releaseAll] at hview
    rw [hview]
    exact Slots.held_clear _ slot
  · intro index
    rw [← hp.triggers index, ← hp.sticks index, Trigger.releaseAll_eq, Stick.releaseAll_eq]
    exact ⟨ModifierCell.product_clear _, ModifierCell.product_clear _, ModifierCell.product_clear _⟩
  · intro index
    rw [← hp.sticks index, Stick.releaseAll_eq]
  · intro index
    rw [← hp.buttons index]
    exact ButtonCell.pressed_clear _
  · intro index
    rw [← hp.triggers index, Trigger.releaseAll_eq]
    exact ⟨rfl, rfl⟩
  · intro index
    rw [← hp.sticks index, Stick.releaseAll_eq]
    exact ⟨rfl, rfl⟩

end Pad

end VirtualPad
