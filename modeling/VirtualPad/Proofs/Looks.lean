import Mathlib.Order.Compare
import VirtualPad.Proofs.Steps

/-!
# What a reader makes of a pad

A reader sees whether a pad is connected, its pressed buttons, the values of its triggers and where its
sticks point.  Values are compared as numbers: the two zeros are one number, and a value that is no
number is the same only as itself.

Every way to write to a pad answers whether the change can be seen.  The answer may be a false alarm,
but never the other way round: what is said to be unseen leaves the pad alike to any reader.

* `float_beq_iff`: the comparison of values looks at the number that each of them stands for.
* `Pad.Writing.alike`: a writing that answers "unseen" changes nothing that a reader sees.
* `Pad.Alike.agrees`: pads that are alike have snapshots that agree.
-/

namespace VirtualPad

open Float.Model (UnpackedFloat)

/-! ## §1 Values -/

/-- The number that a value stands for: nothing for zero, otherwise a sign and, unless it is infinite,
an exponent and a mantissa.  Some values stand for no number. -/
def numeral? : UnpackedFloat → Option (Option (UnpackedFloat.Sign × Option (Int × Nat)))
  | .notANumber => none
  | .zero _ => some none
  | .infinity sign => some (some (sign, none))
  | .finite sign mantissa exponent _ => some (some (sign, some (exponent, mantissa)))

theorem unpacked_beq_iff (a b : UnpackedFloat) :
    a.beq b = true ↔ (numeral? a).isSome = true ∧ numeral? a = numeral? b := by
  have hsign : ∀ s s' : UnpackedFloat.Sign, compare s s' = .eq ↔ s = s' := by
    intro s s'
    cases s <;> cases s' <;> simp [compare]
  -- Numbers of the same sign are compared by their exponents first.
  have hsize : ∀ (e e' : Int) (m m' : Nat),
      (compare e e').then (compare m m') = .eq ↔ e = e' ∧ m = m' := by
    intro e e' m m'
    simp [Ordering.then_eq_eq]
  -- In each case the comparison of the two values computes.
  cases a with
  | notANumber =>
    cases b <;> dsimp only [numeral?, UnpackedFloat.beq, UnpackedFloat.compare] <;> simp
  | zero s =>
    cases b with
    | finite s' m e h | infinity s' =>
      cases s' <;> dsimp only [numeral?, UnpackedFloat.beq, UnpackedFloat.compare] <;> simp
    | notANumber | zero s' =>
      dsimp only [numeral?, UnpackedFloat.beq, UnpackedFloat.compare]
      simp
  | infinity s =>
    cases s <;> cases b <;> dsimp only [numeral?, UnpackedFloat.beq, UnpackedFloat.compare] <;>
      simp [hsign]
  | finite s m e h =>
    cases b with
    | finite s' m' e' h' =>
      cases s <;> cases s' <;>
        dsimp only [numeral?, UnpackedFloat.beq, UnpackedFloat.compare] <;> simp [hsize]
    | infinity s' =>
      cases s <;> cases s' <;>
        dsimp only [numeral?, UnpackedFloat.beq, UnpackedFloat.compare] <;> simp
    | notANumber | zero s' =>
      cases s <;> dsimp only [numeral?, UnpackedFloat.beq, UnpackedFloat.compare] <;> simp

/-- Values compare equal if they stand for the same number. -/
theorem float_beq_iff (x y : Float) : (x == y) = true ↔
    (numeral? x.toModel.unpack).isSome = true ∧
      numeral? x.toModel.unpack = numeral? y.toModel.unpack :=
  unpacked_beq_iff _ _

/-- The values are the same to a reader. -/
def SameNumber (x y : Float) : Prop := x = y ∨ (x == y) = true

namespace SameNumber

variable {x y z : Float}

@[simp] theorem refl (x : Float) : SameNumber x x := .inl rfl

theorem symm (h : SameNumber x y) : SameNumber y x := by
  rcases h with rfl | hxy
  · exact refl x
  · obtain ⟨hnumber, hsame⟩ := (float_beq_iff x y).mp hxy
    exact .inr ((float_beq_iff y x).mpr ⟨hsame ▸ hnumber, hsame.symm⟩)

theorem trans (h : SameNumber x y) (h' : SameNumber y z) : SameNumber x z := by
  rcases h with rfl | hxy
  · exact h'
  · rcases h' with rfl | hyz
    · exact .inr hxy
    · obtain ⟨hnumber, hsame⟩ := (float_beq_iff x y).mp hxy
      have hlast := ((float_beq_iff y z).mp hyz).2
      exact .inr ((float_beq_iff x z).mpr ⟨hnumber, hsame.trans hlast⟩)

/-- What does not differ is the same. -/
theorem of_bne (h : (y != x) = false) : SameNumber x y := by
  have hyx : (y == x) = true := by simpa [bne] using h
  exact symm (.inr hyx)

end SameNumber

/-! ## §2 Snapshots and pads -/

/-- The snapshots show the same buttons, triggers and sticks. -/
structure Snapshot.SameControls (a b : Snapshot) : Prop where
  buttons : a.buttons = b.buttons
  triggers (index : Fin 2) : SameNumber (a.triggerAt index) (b.triggerAt index)
  sticks (index : Fin 2) : SameNumber (a.stick index).1 (b.stick index).1 ∧
    SameNumber (a.stick index).2 (b.stick index).2

/-- The snapshots show the same values. -/
structure Snapshot.Agrees (a b : Snapshot) : Prop extends Snapshot.SameControls a b where
  connected : a.connected = b.connected

theorem Snapshot.SameControls.trans {a b c : Snapshot} (h : a.SameControls b)
    (h' : b.SameControls c) : a.SameControls c where
  buttons := h.buttons.trans h'.buttons
  triggers index := (h.triggers index).trans (h'.triggers index)
  sticks index := ⟨(h.sticks index).1.trans (h'.sticks index).1,
    (h.sticks index).2.trans (h'.sticks index).2⟩

theorem Snapshot.Agrees.trans {a b c : Snapshot} (h : a.Agrees b) (h' : b.Agrees c) : a.Agrees c :=
  ⟨h.toSameControls.trans h'.toSameControls, h.connected.trans h'.connected⟩

namespace Pad

/-- The buttons, triggers and sticks of the pads look the same. -/
structure SameControls (p q : Pad) : Prop where
  buttons (index : Fin 15) : ButtonCell.pressed (p.button index) = ButtonCell.pressed (q.button index)
  triggers (index : Fin 2) : SameNumber (p.trigger index).value (q.trigger index).value
  sticks (index : Fin 2) : SameNumber (p.stick index).x (q.stick index).x ∧
    SameNumber (p.stick index).y (q.stick index).y

/-- The pads look the same. -/
structure Alike (p q : Pad) : Prop extends SameControls p q where
  connected : p.connected = q.connected

variable {p q r : Pad}

theorem SameControls.refl (p : Pad) : SameControls p p := by
  refine ⟨fun _ => rfl, fun _ => ?_, fun _ => ?_⟩ <;> simp

theorem SameControls.symm (h : SameControls p q) : SameControls q p where
  buttons index := (h.buttons index).symm
  triggers index := (h.triggers index).symm
  sticks index := ⟨(h.sticks index).1.symm, (h.sticks index).2.symm⟩

theorem SameControls.trans (h : SameControls p q) (h' : SameControls q r) : SameControls p r where
  buttons index := (h.buttons index).trans (h'.buttons index)
  triggers index := (h.triggers index).trans (h'.triggers index)
  sticks index := ⟨(h.sticks index).1.trans (h'.sticks index).1,
    (h.sticks index).2.trans (h'.sticks index).2⟩

theorem Alike.refl (p : Pad) : Alike p p := ⟨.refl p, rfl⟩

theorem Alike.trans (h : Alike p q) (h' : Alike q r) : Alike p r :=
  ⟨h.toSameControls.trans h'.toSameControls, h.connected.trans h'.connected⟩

/-- The mask tells the pressed buttons and nothing else. -/
theorem buttonMask_congr
    (h : ∀ index, ButtonCell.pressed (p.button index) = ButtonCell.pressed (q.button index)) :
    p.buttonMask = q.buttonMask := by
  have hpressed : p.buttons.map ButtonCell.pressed = q.buttons.map ButtonCell.pressed := by
    apply Vector.ext
    intro index hindex
    simpa [button] using h ⟨index, hindex⟩
  -- The mask is made up from the row of what is pressed.
  have hmask : ∀ pad : Pad, pad.buttonMask = (pad.buttons.map ButtonCell.pressed).toList.zipIdx.foldl
      (fun mask (pressed, i) => if pressed then mask + twoTo i else mask) 0 := by
    intro pad
    rw [Vector.toList_map, List.zipIdx_map, List.foldl_map]
    rfl
  rw [hmask p, hmask q, hpressed]

/-- **Pads that look the same** have snapshots that show the same. -/
theorem SameControls.snapshot (h : SameControls p q) (user user' : Nat) :
    (p.snapshot user).SameControls (q.snapshot user') := by
  refine ⟨buttonMask_congr h.buttons, fun index => ?_, fun index => ?_⟩
  · match index with
    | 0 => exact h.triggers leftPart
    | 1 => exact h.triggers rightPart
  · match index with
    | 0 => exact h.sticks leftPart
    | 1 => exact h.sticks rightPart

theorem Alike.agrees (h : Alike p q) (user user' : Nat) :
    (p.snapshot user).Agrees (q.snapshot user') :=
  ⟨h.toSameControls.snapshot user user', h.connected⟩

/-! ## §3 What cannot be seen -/

/-- A part that shows the same can be put in place of another one. -/
theorem setButton_alike (p : Pad) (index : Fin 15) {b : ButtonCell}
    (h : ButtonCell.pressed (p.button index) = ButtonCell.pressed b) :
    p.Alike (p.setButton index b) := by
  refine ⟨⟨fun other => ?_, fun _ => .refl _, fun _ => ⟨.refl _, .refl _⟩⟩, rfl⟩
  by_cases hother : index.val = other.val
  · obtain rfl := Fin.ext hother
    simpa [setButton, button] using h
  · simp [setButton, button, hother]

theorem setTrigger_alike (p : Pad) (index : Fin 2) {t : Trigger}
    (h : SameNumber (p.trigger index).value t.value) : p.Alike (p.setTrigger index t) := by
  refine ⟨⟨fun _ => rfl, fun other => ?_, fun _ => ⟨.refl _, .refl _⟩⟩, rfl⟩
  by_cases hother : index.val = other.val
  · obtain rfl := Fin.ext hother
    simpa [setTrigger, trigger] using h
  · simp [setTrigger, trigger, hother]

theorem setStick_alike (p : Pad) (index : Fin 2) {s : Stick}
    (h : SameNumber (p.stick index).x s.x ∧ SameNumber (p.stick index).y s.y) :
    p.Alike (p.setStick index s) := by
  refine ⟨⟨fun _ => rfl, fun _ => .refl _, fun other => ?_⟩, rfl⟩
  by_cases hother : index.val = other.val
  · obtain rfl := Fin.ext hother
    simpa [setStick, stick] using h
  · simp [setStick, stick, hother]

theorem updateButton_alike (p : Pad) (index : Fin 15) (change : ButtonCell → ButtonCell)
    (h : (p.updateButton index change).2 = false) : p.Alike (p.updateButton index change).1 := by
  apply setButton_alike
  simpa [updateButton, ButtonCell.differs] using h

theorem updateTrigger_alike (p : Pad) (index : Fin 2) (change : Trigger → Trigger)
    (h : (p.updateTrigger index change).2 = false) : p.Alike (p.updateTrigger index change).1 := by
  simp only [updateTrigger, Trigger.differs, Bool.or_eq_false_iff] at h
  exact setTrigger_alike p index (.of_bne h.1)

theorem Stick.same_of_differs {before after : Stick} (h : before.differs after = false) :
    SameNumber before.x after.x ∧ SameNumber before.y after.y := by
  simp only [Stick.differs, Bool.or_eq_false_iff] at h
  exact ⟨.of_bne h.1, .of_bne h.2⟩

theorem updateStick_alike (p : Pad) (index : Fin 2) (change : Stick → Stick)
    (h : (p.updateStick index change).2 = false) : p.Alike (p.updateStick index change).1 :=
  setStick_alike p index (Stick.same_of_differs h)

theorem updateStrengths_alike (p : Pad) (cell : PadCell)
    (change : StrengthCell Float → StrengthCell Float)
    (h : (p.updateStrengths cell change).2 = false) :
    p.Alike (p.updateStrengths cell change).1 := by
  cases cell with
  | trigger index => exact updateTrigger_alike p index _ h
  | direction index axis side | diagonal index x y => exact updateStick_alike p index _ h
  | _ => exact .refl p

theorem write_alike (p : Pad) (cell : PadCell) (slot : Slot) (c : Contribution)
    (h : (p.write cell slot c).2 = false) : p.Alike (p.write cell slot c).1 := by
  cases cell with
  | button index => exact updateButton_alike p index _ h
  | trigger index | triggerModifier index => exact updateTrigger_alike p index _ h
  | direction index axis side | diagonal index x y | stickModifier index =>
    exact updateStick_alike p index _ h
  | rotateModifier index =>
    -- This one is never seen: it does not touch what the stick shows.
    apply setStick_alike
    simp

theorem releaseAll_alike (p : Pad) (h : p.releaseAll.2 = false) : p.Alike p.releaseAll.1 := by
  simp only [releaseAll, Bool.or_eq_false_iff, Vector.any_eq_false, Vector.getElem_zip,
    Vector.getElem_map] at h
  obtain ⟨⟨hbuttons, htriggers⟩, hsticks⟩ := h
  refine ⟨⟨fun index => ?_, fun index => ?_, fun index => ?_⟩, rfl⟩
  · simpa [releaseAll, button, ButtonCell.differs] using hbuttons index.val index.isLt
  · have hsame := htriggers index.val index.isLt
    simp only [Trigger.differs, Bool.or_eq_true, not_or, Bool.not_eq_true] at hsame
    simpa [releaseAll, trigger] using SameNumber.of_bne hsame.1
  · have hsame := hsticks index.val index.isLt
    rw [Bool.not_eq_true] at hsame
    simpa [releaseAll, stick] using Stick.same_of_differs hsame

/-- **What is unseen leaves the pad alike**, however the pad is written to. -/
theorem Writing.alike {change : Pad → Pad × Bool} (h : Writing change) (p : Pad)
    (hunseen : (change p).2 = false) : p.Alike (change p).1 := by
  cases h with
  | write cell slot c => exact p.write_alike cell slot c hunseen
  | add cell slot amount replaces => exact p.updateStrengths_alike cell _ hunseen
  | resetAdds cell => exact p.updateStrengths_alike cell _ hunseen
  | rotate stick delta clockwise => exact p.updateStick_alike stick _ hunseen
  | releaseAll => exact p.releaseAll_alike hunseen
  | connect => exact Bool.noConfusion hunseen

/-- The version and the time of a pad. -/
def label (p : Pad) : Nat × Nat := (p.version, p.timestamp)

/-- Writing to a pad commits nothing. -/
theorem Writing.label {change : Pad → Pad × Bool} (h : Writing change) (p : Pad) :
    (change p).1.label = p.label := by
  have hstrengths : ∀ cell change, (p.updateStrengths cell change).1.label = p.label := by
    intro cell change
    cases cell <;> rfl
  cases h with
  | write cell slot c => cases cell <;> rfl
  | add cell slot amount replaces => exact hstrengths cell _
  | resetAdds cell => exact hstrengths cell _
  | rotate | releaseAll | connect => rfl

end Pad

end VirtualPad
