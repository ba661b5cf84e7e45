import VirtualPad.Proofs.CountingSlots

/-!
# Words that are up to date

Every operation on a cell in words brings each mask, each row of numbers and what is shown up to date by
itself.  `Tidy` says that none has been forgotten: no mask speaks of a slot that is not live, such a slot
has the neutral number, and what is shown is what would be worked out anew.

Tidy words are determined by what their slots contribute (`ext_contribution`), every operation keeps
words tidy, and says of each slot alone what it contributes afterwards (`contribution_set` and the like).
-/

namespace VirtualPad

namespace Row

variable {α : Type} {row row' : Row α}

theorem ofSlot_put (slot other : Slot) (number : α) :
    (row.put slot number).ofSlot other = if slot = other then number else row.ofSlot other := by
  simp only [ofSlot, put, Fin.getElem_fin, Vector.getElem_set, Fin.val_inj]

@[simp] theorem ofSlot_replicate (number : α) (slot : Slot) :
    ofSlot (Vector.replicate maskWidth number) slot = number :=
  Vector.getElem_replicate slot.isLt

theorem ofSlot_mapFinIdx (f : (place : Nat) → α → place < maskWidth → α) (slot : Slot) :
    ofSlot (row.mapFinIdx f) slot = f slot (row.ofSlot slot) slot.isLt :=
  Vector.getElem_mapFinIdx slot.isLt

/-- A row is what it has for each slot. -/
theorem ext_ofSlot (h : ∀ slot, row.ofSlot slot = row'.ofSlot slot) : row = row' :=
  Vector.ext fun place hin => h ⟨place, hin⟩

end Row

/-! ## §1 Buttons -/

namespace ButtonWords

/-- What a slot contributes, read off the masks. -/
def contribution (w : ButtonWords) (slot : Slot) : Option Hold :=
  if w.live.has slot then some { replaces := w.replacing.has slot } else none

/-- No mask speaks of a slot that is not live, and what is shown is up to date. -/
structure Tidy (w : ButtonWords) : Prop where
  replacing_live : ∀ slot : Slot, w.replacing.has slot = true → w.live.has slot = true
  shown : w.refresh.1 = w

theorem contribution_set (w : ButtonWords) (slot other : Slot) (down replaces : Bool) :
    (w.set slot down replaces).1.contribution other =
      if slot = other then (if down then some { replaces } else none) else w.contribution other := by
  simp only [set, refresh, contribution, Mask.has_put_slot]
  by_cases hsame : slot = other
  · cases down <;> simp [hsame]
  · simp [hsame]

theorem tidy_set {w : ButtonWords} (hw : w.Tidy) (slot : Slot) (down replaces : Bool) :
    (w.set slot down replaces).1.Tidy where
  shown := rfl
  replacing_live other hother := by
    simp only [set, refresh, Mask.has_put_slot] at hother ⊢
    by_cases hsame : slot = other
    · simp only [if_pos hsame, Bool.and_eq_true] at hother ⊢
      exact hother.1
    · simp only [if_neg hsame] at hother ⊢
      exact hw.replacing_live other hother

theorem contribution_releaseAll (w : ButtonWords) (slot : Slot) :
    w.releaseAll.1.contribution slot = none := by
  simp [releaseAll, refresh, contribution]

theorem tidy_releaseAll (w : ButtonWords) : w.releaseAll.1.Tidy where
  shown := rfl
  replacing_live slot hslot := by simp [releaseAll, refresh] at hslot

theorem live_has (w : ButtonWords) (slot : Slot) : w.live.has slot = (w.contribution slot).isSome := by
  unfold contribution
  cases w.live.has slot <;> rfl

namespace Tidy

variable {w w' : ButtonWords}

theorem replacing_has (hw : w.Tidy) (slot : Slot) :
    w.replacing.has slot = (w.contribution slot).any Hold.replaces := by
  have hlive := hw.replacing_live slot
  unfold contribution
  cases hl : w.live.has slot
  · cases hr : w.replacing.has slot
    · rfl
    · rw [hlive hr] at hl
      contradiction
  · rfl

/-- A tidy button is what its slots contribute. -/
theorem ext_contribution (hw : w.Tidy) (hw' : w'.Tidy)
    (h : ∀ slot, w.contribution slot = w'.contribution slot) : w = w' := by
  have hlive : w.live = w'.live := Mask.ext_has fun slot => by rw [live_has, live_has, h]
  have hreplacing : w.replacing = w'.replacing :=
    Mask.ext_has fun slot => by rw [hw.replacing_has, hw'.replacing_has, h]
  rw [← hw.shown, ← hw'.shown]
  unfold refresh
  simp only [hlive, hreplacing]

/-- It shows whether any slot counts. -/
theorem pressed_iff (hw : w.Tidy) :
    w.pressed = true ↔ countingSlots w.contribution Hold.replaces ≠ [] := by
  have hshown : w.pressed = (w.live.counting w.replacing != Mask.none) :=
    congrArg pressed hw.shown.symm
  have hnone : w.live.counting w.replacing = Mask.none ↔
      (w.live.counting w.replacing).members = [] := by
    rw [Mask.eq_none_iff, Mask.members, List.filter_eq_nil_iff]
    simp
  rw [hshown, bne_iff_ne, ne_eq, hnone, members_counting w.live_has hw.replacing_has]

end Tidy

end ButtonWords

/-! ## §2 Strengths -/

/-- The strength of what a slot holds; nothing pushes with zero. -/
def strengthOf {α : Type} [Scalar α] : Option (Push α) → α
  | some push => push.strength
  | none => 0

namespace StrengthWords

variable {α : Type} [Scalar α]

/-- What a slot contributes, read off the masks and the row of strengths. -/
def contribution (w : StrengthWords α) (slot : Slot) : Option (Push α) :=
  if w.live.has slot then
    some {
      strength := w.strengths.ofSlot slot
      replaces := w.replacing.has slot
      adds := w.adding.has slot }
  else none

/-- No mask speaks of a slot that is not live, such a slot pushes with zero, and what is shown is up to
date. -/
structure Tidy (w : StrengthWords α) : Prop where
  replacing_live : ∀ slot : Slot, w.replacing.has slot = true → w.live.has slot = true
  adding_live : ∀ slot : Slot, w.adding.has slot = true → w.live.has slot = true
  dead : ∀ slot : Slot, w.live.has slot = false → w.strengths.ofSlot slot = 0
  shown : w.refresh.1 = w

theorem live_has (w : StrengthWords α) (slot : Slot) :
    w.live.has slot = (w.contribution slot).isSome := by
  unfold contribution
  cases w.live.has slot <;> rfl

theorem contribution_set (w : StrengthWords α) (slot other : Slot) (down : Bool) (strength : α)
    (replaces : Bool) :
    (w.set slot down strength replaces).1.contribution other =
      if slot = other then
        (if down then some { strength := Scalar.maximum strength 0, replaces, adds := false } else none)
      else w.contribution other := by
  simp only [set, refresh, contribution, Mask.has_put_slot, Row.ofSlot_put]
  by_cases hsame : slot = other
  · cases down <;> simp [hsame]
  · simp [hsame]

theorem contribution_resetAdds (w : StrengthWords α) (slot : Slot) :
    w.resetAdds.1.contribution slot = (w.contribution slot).filter fun push => !push.adds := by
  simp only [resetAdds, refresh, contribution, Mask.has_sub, Mask.has_none,
    Row.ofSlot_mapFinIdx]
  cases w.live.has slot <;> cases w.adding.has slot <;> simp [Option.filter]

theorem contribution_releaseAll (w : StrengthWords α) (slot : Slot) :
    w.releaseAll.1.contribution slot = none := by
  simp [releaseAll, refresh, contribution]

namespace Tidy

variable {w w' : StrengthWords α}

theorem replacing_has (hw : w.Tidy) (slot : Slot) :
    w.replacing.has slot = (w.contribution slot).any Push.replaces := by
  have hlive := hw.replacing_live slot
  unfold contribution
  cases hl : w.live.has slot
  · cases hr : w.replacing.has slot
    · rfl
    · rw [hlive hr] at hl
      contradiction
  · rfl

theorem adding_has (hw : w.Tidy) (slot : Slot) :
    w.adding.has slot = (w.contribution slot).any Push.adds := by
  have hlive := hw.adding_live slot
  unfold contribution
  cases hl : w.live.has slot
  · cases hr : w.adding.has slot
    · rfl
    · rw [hlive hr] at hl
      contradiction
  · rfl

theorem strength_eq (hw : w.Tidy) (slot : Slot) : w.strengths.ofSlot slot = strengthOf (w.contribution slot) := by
  unfold contribution
  cases hl : w.live.has slot
  · exact hw.dead slot hl
  · rfl

theorem contribution_add (hw : w.Tidy) (slot other : Slot) (amount : α) (replaces : Bool) :
    (w.add slot amount replaces).1.contribution other =
      if slot = other then
        some {
          strength := Scalar.clamp (strengthOf (w.contribution other) + amount) 0 1
          replaces
          adds := true }
      else w.contribution other := by
  rw [← hw.strength_eq]
  simp only [add, refresh, contribution, Mask.has_put_slot, Row.ofSlot_put]
  by_cases hsame : slot = other
  · simp [hsame]
  · simp [hsame]

/-- Words whose masks and strengths are those of some contributions are tidy. -/
theorem of_contribution
    (hreplacing : ∀ slot : Slot, w.replacing.has slot = (w.contribution slot).any Push.replaces)
    (hadding : ∀ slot : Slot, w.adding.has slot = (w.contribution slot).any Push.adds)
    (hstrength : ∀ slot : Slot, w.strengths.ofSlot slot = strengthOf (w.contribution slot))
    (hshown : w.refresh.1 = w) : w.Tidy where
  shown := hshown
  replacing_live slot hslot := by
    rw [hreplacing] at hslot
    rw [live_has]
    exact Option.isSome_of_any hslot
  adding_live slot hslot := by
    rw [hadding] at hslot
    rw [live_has]
    exact Option.isSome_of_any hslot
  dead slot hslot := by
    rw [live_has, Option.isSome_eq_false_iff, Option.isNone_iff_eq_none] at hslot
    rw [hstrength, hslot]
    rfl

theorem set (hw : w.Tidy) (slot : Slot) (down : Bool) (strength : α) (replaces : Bool) :
    (w.set slot down strength replaces).1.Tidy := by
  refine of_contribution (fun other => ?_) (fun other => ?_) (fun other => ?_) rfl <;>
    rw [contribution_set] <;>
    simp only [StrengthWords.set, refresh, Mask.has_put_slot, Row.ofSlot_put] <;>
    by_cases hsame : slot = other
  · cases down <;> simp [hsame]
  · simp only [if_neg hsame]
    exact hw.replacing_has other
  · cases down <;> simp [hsame]
  · simp only [if_neg hsame]
    exact hw.adding_has other
  · cases down <;> simp [hsame, strengthOf]
  · simp only [if_neg hsame]
    exact hw.strength_eq other

theorem add (hw : w.Tidy) (slot : Slot) (amount : α) (replaces : Bool) :
    (w.add slot amount replaces).1.Tidy := by
  refine of_contribution (fun other => ?_) (fun other => ?_) (fun other => ?_) rfl <;>
    rw [hw.contribution_add] <;>
    simp only [StrengthWords.add, refresh, Mask.has_put_slot, Row.ofSlot_put] <;>
    by_cases hsame : slot = other
  · simp [hsame]
  · simp only [if_neg hsame]
    exact hw.replacing_has other
  · simp [hsame]
  · simp only [if_neg hsame]
    exact hw.adding_has other
  · rw [if_pos hsame, if_pos hsame, hsame, ← hw.strength_eq]
    rfl
  · simp only [if_neg hsame]
    exact hw.strength_eq other

theorem resetAdds (hw : w.Tidy) : w.resetAdds.1.Tidy where
  shown := rfl
  replacing_live slot hslot := by
    simp only [StrengthWords.resetAdds, refresh, Mask.has_sub, Bool.and_eq_true] at hslot ⊢
    exact ⟨hw.replacing_live slot hslot.1, hslot.2⟩
  adding_live slot hslot := by simp [StrengthWords.resetAdds, refresh] at hslot
  dead slot hslot := by
    simp only [StrengthWords.resetAdds, refresh, Mask.has_sub, Row.ofSlot_mapFinIdx] at hslot ⊢
    cases hadding : w.adding.has slot
    · have hlive : w.live.has slot = false := by simpa [hadding] using hslot
      simpa using hw.dead slot hlive
    · rfl

/-- A tidy strength is what its slots contribute. -/
theorem ext_contribution (hw : w.Tidy) (hw' : w'.Tidy)
    (h : ∀ slot, w.contribution slot = w'.contribution slot) : w = w' := by
  have hlive : w.live = w'.live := Mask.ext_has fun slot => by rw [live_has, live_has, h]
  have hreplacing : w.replacing = w'.replacing :=
    Mask.ext_has fun slot => by rw [hw.replacing_has, hw'.replacing_has, h]
  have hadding : w.adding = w'.adding :=
    Mask.ext_has fun slot => by rw [hw.adding_has, hw'.adding_has, h]
  have hstrengths : w.strengths = w'.strengths :=
    Row.ext_ofSlot fun slot => by rw [hw.strength_eq, hw'.strength_eq, h]
  rw [← hw.shown, ← hw'.shown]
  unfold refresh
  simp only [hlive, hreplacing, hadding, hstrengths]

/-- It shows the largest strength of the slots that count. -/
theorem value_eq (hw : w.Tidy) :
    w.value = (countingSlots w.contribution Push.replaces).foldl
      (fun best slot => Scalar.maximum best (strengthOf (w.contribution slot))) 0 := by
  have hshown : w.value = (w.live.counting w.replacing).members.foldl
      (fun best slot => Scalar.maximum best (w.strengths.ofSlot slot)) 0 := congrArg value hw.shown.symm
  rw [hshown, members_counting w.live_has hw.replacing_has]
  simp only [hw.strength_eq]

/-- It counts the slots that count. -/
theorem weight_eq (hw : w.Tidy) :
    w.weight = (countingSlots w.contribution Push.replaces).length := by
  have hshown : w.weight = (w.live.counting w.replacing).members.length :=
    congrArg weight hw.shown.symm
  rw [hshown, members_counting w.live_has hw.replacing_has]

end Tidy

theorem tidy_releaseAll (w : StrengthWords α) : w.releaseAll.1.Tidy where
  shown := rfl
  replacing_live slot hslot := by simp [releaseAll, refresh] at hslot
  adding_live slot hslot := by simp [releaseAll, refresh] at hslot
  dead slot _ := by simp [releaseAll, refresh]

end StrengthWords

/-! ## §3 Modifiers -/

/-- The factor of what a slot holds; nothing scales by one. -/
def factorOf {α : Type} [Scalar α] (held : Option α) : α := held.getD 1

namespace ModifierWords

variable {α : Type} [Scalar α]

/-- What a slot contributes, read off the mask and the row of factors. -/
def contribution (w : ModifierWords α) (slot : Slot) : Option α :=
  if w.live.has slot then some (w.factors.ofSlot slot) else none

/-- A slot that is not live scales by one, and what is shown is up to date. -/
structure Tidy (w : ModifierWords α) : Prop where
  dead : ∀ slot : Slot, w.live.has slot = false → w.factors.ofSlot slot = 1
  shown : w.refresh.1 = w

theorem live_has (w : ModifierWords α) (slot : Slot) :
    w.live.has slot = (w.contribution slot).isSome := by
  unfold contribution
  cases w.live.has slot <;> rfl

theorem contribution_set (w : ModifierWords α) (slot other : Slot) (down : Bool) (factor : α) :
    (w.set slot down factor).1.contribution other =
      if slot = other then (if down then some factor else none) else w.contribution other := by
  simp only [set, refresh, contribution, Mask.has_put_slot, Row.ofSlot_put]
  by_cases hsame : slot = other
  · cases down <;> simp [hsame]
  · simp [hsame]

theorem tidy_set {w : ModifierWords α} (hw : w.Tidy) (slot : Slot) (down : Bool) (factor : α) :
    (w.set slot down factor).1.Tidy where
  shown := rfl
  dead other hother := by
    simp only [set, refresh, Mask.has_put_slot, Row.ofSlot_put] at hother ⊢
    by_cases hsame : slot = other
    · rw [if_pos hsame] at hother ⊢
      rw [hother]
      rfl
    · rw [if_neg hsame] at hother ⊢
      exact hw.dead other hother

theorem contribution_releaseAll (w : ModifierWords α) (slot : Slot) :
    w.releaseAll.1.contribution slot = none := by
  simp [releaseAll, refresh, contribution]

theorem tidy_releaseAll (w : ModifierWords α) : w.releaseAll.1.Tidy where
  shown := rfl
  dead slot _ := by simp [releaseAll, refresh]

namespace Tidy

variable {w w' : ModifierWords α}

theorem factor_eq (hw : w.Tidy) (slot : Slot) : w.factors.ofSlot slot = factorOf (w.contribution slot) := by
  unfold contribution
  cases hl : w.live.has slot
  · exact hw.dead slot hl
  · rfl

/-- A tidy modifier is what its slots contribute. -/
theorem ext_contribution (hw : w.Tidy) (hw' : w'.Tidy)
    (h : ∀ slot, w.contribution slot = w'.contribution slot) : w = w' := by
  have hlive : w.live = w'.live := Mask.ext_has fun slot => by rw [live_has, live_has, h]
  have hfactors : w.factors = w'.factors :=
    Row.ext_ofSlot fun slot => by rw [hw.factor_eq, hw'.factor_eq, h]
  rw [← hw.shown, ← hw'.shown]
  unfold refresh
  simp only [hlive, hfactors]

/-- It shows the product of what its live slots hold. -/
theorem product_eq (hw : w.Tidy) :
    w.product = (liveSlots w.contribution).foldl
      (fun product slot => product * factorOf (w.contribution slot)) 1 := by
  have hshown : w.product = w.live.members.foldl
      (fun product slot => product * w.factors.ofSlot slot) 1 := congrArg product hw.shown.symm
  rw [hshown, Mask.members, liveSlots]
  simp only [hw.factor_eq, live_has]

end Tidy

end ModifierWords

end VirtualPad
