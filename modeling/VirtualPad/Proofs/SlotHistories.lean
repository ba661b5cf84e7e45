import VirtualPad.Proofs.TidyWords

/-!
# What a cell remembers

A cell may have been written to in any order and any number of times.  What it shows depends only on
what the operations have left in each of its slots, and what is left in a slot depends only on the
operations that concern that slot: the last time it was set or released, and what has been added to it
since.  The same is true of the cells in words, since tidy words are determined by what their slots
contribute: two ways to come to the same contributions come to the same words.

Buttons, strengths and modifiers differ in what a slot holds and in their operations.  What they have in
common is a `CellKind`, and what follows for all of them is `CellKind.forgets`.

The main result is `cells_forget_history`.
-/

namespace VirtualPad

/-! ## §1 What operations leave in a slot -/

/-- A kind of destination: the slots that run, the words they fit into, and the operations on both. -/
structure CellKind (κ W A : Type) where
  onCell : Slots κ → A → Slots κ
  start : W
  onWords : W → A → W
  /-- What a slot contributes, read off the words. -/
  contribution : W → Slot → Option κ
  /-- The slot that an operation writes into, if it is a single one. -/
  slot? : A → Option Slot
  /-- What an operation leaves in a slot, of what was there before. -/
  leaves : Slot → Option κ → A → Option κ
  /-- The words of which nothing is out of date. -/
  Tidy : W → Prop
  owned_onCell : ∀ c act, (onCell c act).owned = c.owned
  held_onCell : ∀ c act slot, (onCell c act).held slot = leaves slot (c.held slot) act
  tidy_start : Tidy start
  contribution_start : ∀ slot, contribution start slot = none
  tidy_onWords : ∀ w act, Tidy w → Tidy (onWords w act)
  contribution_onWords : ∀ w act slot, Tidy w →
    contribution (onWords w act) slot = leaves slot (contribution w slot) act
  ext_contribution : ∀ w w', Tidy w → Tidy w' →
    (∀ slot, contribution w slot = contribution w' slot) → w = w'
  leaves_other : ∀ act place slot before, slot? act = some place → place ≠ slot →
    leaves slot before act = before

namespace CellKind

variable {κ W A : Type} (kind : CellKind κ W A)

/-- What a row of operations leaves in a slot that was empty. -/
def left (acts : List A) (slot : Slot) : Option κ := acts.foldl (kind.leaves slot) none

def cellAfter (acts : List A) : Slots κ := acts.foldl kind.onCell {}

def wordsAfter (acts : List A) : W := acts.foldl kind.onWords kind.start

/-- The operation writes into this slot and no other. -/
def Writes (slot : Slot) (act : A) : Prop := kind.slot? act = some slot

/-- The operation writes into another slot. -/
def Elsewhere (slot : Slot) (act : A) : Prop := ∃ place, kind.slot? act = some place ∧ place ≠ slot

/-- The operation empties this slot and touches no other. -/
def Releases (slot : Slot) (act : A) : Prop :=
  kind.Writes slot act ∧ ∀ before, kind.leaves slot before act = none

/-- What a row of operations does to a cell and to its words, and what an operation more does. -/
structure Forgets (acts : List A) : Prop where
  cell : ∀ slot, (kind.cellAfter acts).held slot = kind.left acts slot
  words : ∀ slot, kind.contribution (kind.wordsAfter acts) slot = kind.left acts slot
  /-- What is in a slot was left by the last operation that was not on another one. -/
  last : ∀ earlier act later slot, acts = earlier ++ act :: later →
    (∀ other ∈ later, kind.Elsewhere slot other) →
      kind.left acts slot = kind.leaves slot (kind.left earlier slot) act
  cell_comm : ∀ one other slot slot', kind.Writes slot one → kind.Writes slot' other → slot ≠ slot' →
    kind.onCell (kind.onCell (kind.cellAfter acts) one) other =
      kind.onCell (kind.onCell (kind.cellAfter acts) other) one
  words_comm : ∀ one other slot slot', kind.Writes slot one → kind.Writes slot' other → slot ≠ slot' →
    kind.onWords (kind.onWords (kind.wordsAfter acts) one) other =
      kind.onWords (kind.onWords (kind.wordsAfter acts) other) one
  cell_restored : ∀ press release slot, kind.Writes slot press → kind.Releases slot release →
    kind.left acts slot = none →
      kind.onCell (kind.onCell (kind.cellAfter acts) press) release = kind.cellAfter acts
  words_restored : ∀ press release slot, kind.Writes slot press → kind.Releases slot release →
    kind.left acts slot = none →
      kind.onWords (kind.onWords (kind.wordsAfter acts) press) release = kind.wordsAfter acts

variable {kind} {slot slot' : Slot} {one other press release : A}

/-- Operations on two slots leave the same in every slot, whichever comes first. -/
theorem leaves_comm (hone : kind.Writes slot one) (hother : kind.Writes slot' other)
    (hne : slot ≠ slot') (place : Slot) (before : Option κ) :
    kind.leaves place (kind.leaves place before one) other =
      kind.leaves place (kind.leaves place before other) one := by
  by_cases hplace : slot = place
  · have hapart : slot' ≠ place := fun h => hne (hplace.trans h.symm)
    rw [kind.leaves_other other slot' place _ hother hapart,
      kind.leaves_other other slot' place _ hother hapart]
  · rw [kind.leaves_other one slot place _ hone hplace, kind.leaves_other one slot place _ hone hplace]

/-- An empty slot that is written into and released leaves every slot as it was. -/
theorem leaves_restored {before : Slot → Option κ} (hpress : kind.Writes slot press)
    (hrelease : kind.Releases slot release) (hdead : before slot = none) (place : Slot) :
    kind.leaves place (kind.leaves place (before place) press) release = before place := by
  by_cases hplace : slot = place
  · rw [← hplace, hrelease.2, hdead]
  · rw [kind.leaves_other release slot place _ hrelease.1 hplace,
      kind.leaves_other press slot place _ hpress hplace]

theorem foldl_leaves_elsewhere (later : List A) (before : Option κ)
    (h : ∀ act ∈ later, kind.Elsewhere slot act) : later.foldl (kind.leaves slot) before = before := by
  induction later with
  | nil => rfl
  | cons act rest ih =>
    obtain ⟨place, hwrites, hne⟩ := h act List.mem_cons_self
    rw [List.foldl_cons, kind.leaves_other act place slot before hwrites hne]
    exact ih fun other hother => h other (List.mem_cons_of_mem _ hother)

theorem held_cell (acts : List A) (c : Slots κ) (slot : Slot) :
    (acts.foldl kind.onCell c).held slot = acts.foldl (kind.leaves slot) (c.held slot) := by
  induction acts generalizing c with
  | nil => rfl
  | cons act rest ih => rw [List.foldl_cons, ih, kind.held_onCell, List.foldl_cons]

theorem tidy_words (acts : List A) {w : W} (hw : kind.Tidy w) :
    kind.Tidy (acts.foldl kind.onWords w) ∧ ∀ slot,
      kind.contribution (acts.foldl kind.onWords w) slot =
        acts.foldl (kind.leaves slot) (kind.contribution w slot) := by
  induction acts generalizing w with
  | nil => exact ⟨hw, fun _ => rfl⟩
  | cons act rest ih =>
    obtain ⟨htidy, hholds⟩ := ih (kind.tidy_onWords w act hw)
    refine ⟨htidy, fun slot => (hholds slot).trans ?_⟩
    rw [kind.contribution_onWords w act slot hw, List.foldl_cons]

variable (kind) in
theorem tidy_wordsAfter (acts : List A) : kind.Tidy (kind.wordsAfter acts) :=
  (tidy_words acts kind.tidy_start).1

theorem contribution_wordsAfter (acts : List A) (slot : Slot) :
    kind.contribution (kind.wordsAfter acts) slot = kind.left acts slot := by
  rw [wordsAfter, (tidy_words acts kind.tidy_start).2, kind.contribution_start, left]

variable (kind) in
theorem forgets (acts : List A) : kind.Forgets acts where
  cell slot := by rw [cellAfter, held_cell, Slots.held_default, left]
  words := contribution_wordsAfter acts
  last earlier act later slot hacts helse := by
    rw [left, hacts, List.foldl_append, List.foldl_cons, foldl_leaves_elsewhere later _ helse, left]
  cell_comm one other slot slot' hone hother hne := by
    refine Slots.ext_held (by simp only [kind.owned_onCell]) fun place => ?_
    simp only [kind.held_onCell]
    exact leaves_comm hone hother hne place _
  words_comm one other slot slot' hone hother hne := by
    have hw : kind.Tidy (kind.wordsAfter acts) := kind.tidy_wordsAfter acts
    have hw₁ := kind.tidy_onWords _ one hw
    have hw₂ := kind.tidy_onWords _ other hw
    refine kind.ext_contribution _ _ (kind.tidy_onWords _ other hw₁) (kind.tidy_onWords _ one hw₂)
      fun place => ?_
    rw [kind.contribution_onWords _ other place hw₁, kind.contribution_onWords _ one place hw,
      kind.contribution_onWords _ one place hw₂, kind.contribution_onWords _ other place hw]
    exact leaves_comm hone hother hne place _
  cell_restored press release slot hpress hrelease hdead := by
    refine Slots.ext_held (by simp only [kind.owned_onCell]) fun place => ?_
    have hempty : (kind.cellAfter acts).held slot = none := by
      rw [← hdead, cellAfter, held_cell, Slots.held_default, left]
    simp only [kind.held_onCell]
    exact leaves_restored hpress hrelease hempty place
  words_restored press release slot hpress hrelease hdead := by
    have hw : kind.Tidy (kind.wordsAfter acts) := kind.tidy_wordsAfter acts
    have hw₁ := kind.tidy_onWords _ press hw
    have hempty : kind.contribution (kind.wordsAfter acts) slot = none :=
      (contribution_wordsAfter acts slot).trans hdead
    refine kind.ext_contribution _ _ (kind.tidy_onWords _ release hw₁) hw fun place => ?_
    rw [kind.contribution_onWords _ release place hw₁, kind.contribution_onWords _ press place hw]
    exact leaves_restored hpress hrelease hempty place

end CellKind

/-! ## §2 Buttons -/

/-- An operation on a button. -/
inductive ButtonAct where
  | set (slot : Slot) (down replaces : Bool)
  | releaseAll

namespace ButtonAct

def onCell (c : ButtonCell) : ButtonAct → ButtonCell
  | .set slot down replaces => ButtonCell.set c slot down replaces
  | .releaseAll => c.clear

def onWords (w : ButtonWords) : ButtonAct → ButtonWords × Bool
  | .set slot down replaces => w.set slot down replaces
  | .releaseAll => w.releaseAll

/-- What the operation leaves in a slot, of what was there before. -/
def leaves (slot : Slot) (before : Option Hold) : ButtonAct → Option Hold
  | .set other down replaces =>
    if other = slot then (if down then some { replaces } else none) else before
  | .releaseAll => none

theorem held_onCell (c : ButtonCell) (act : ButtonAct) (slot : Slot) :
    (act.onCell c).held slot = act.leaves slot (c.held slot) := by
  cases act with
  | set other down replaces => exact Slots.held_put c other slot _
  | releaseAll => exact Slots.held_clear c slot

theorem tidy_onWords {w : ButtonWords} (hw : w.Tidy) (act : ButtonAct) : (act.onWords w).1.Tidy := by
  cases act with
  | set slot down replaces => exact w.tidy_set hw slot down replaces
  | releaseAll => exact w.tidy_releaseAll

theorem contribution_onWords (w : ButtonWords) (act : ButtonAct) (slot : Slot) :
    (act.onWords w).1.contribution slot = act.leaves slot (w.contribution slot) := by
  cases act with
  | set other down replaces => exact w.contribution_set other slot down replaces
  | releaseAll => exact w.contribution_releaseAll slot

def slot? : ButtonAct → Option Slot
  | .set slot _ _ => some slot
  | .releaseAll => none

end ButtonAct

def buttons : CellKind Hold ButtonWords ButtonAct where
  onCell := ButtonAct.onCell
  start := {}
  onWords w act := (act.onWords w).1
  contribution := ButtonWords.contribution
  slot? := ButtonAct.slot?
  leaves := ButtonAct.leaves
  Tidy := ButtonWords.Tidy
  owned_onCell _ act := by cases act <;> rfl
  held_onCell := ButtonAct.held_onCell
  tidy_start := ⟨fun slot h => by simp at h, rfl⟩
  contribution_start slot := by simp [ButtonWords.contribution]
  tidy_onWords _ act hw := ButtonAct.tidy_onWords hw act
  contribution_onWords w act slot _ := ButtonAct.contribution_onWords w act slot
  ext_contribution _ _ hw hw' h := hw.ext_contribution hw' h
  leaves_other act place slot before hplace hne := by
    cases act with
    | set other down replaces =>
      obtain rfl : other = place := Option.some.inj hplace
      exact if_neg hne
    | releaseAll => contradiction

/-! ## §3 Strengths -/

/-- An operation on a strength. -/
inductive StrengthAct (α : Type) where
  | set (slot : Slot) (down : Bool) (strength : α) (replaces : Bool)
  | add (slot : Slot) (amount : α) (replaces : Bool)
  | resetAdds
  | releaseAll

namespace StrengthAct

variable {α : Type} [Scalar α]

def onCell (c : StrengthCell α) : StrengthAct α → StrengthCell α
  | .set slot down strength replaces => StrengthCell.set c slot down strength replaces
  | .add slot amount replaces => StrengthCell.add c slot amount replaces
  | .resetAdds => StrengthCell.resetAdds c
  | .releaseAll => c.clear

def onWords (w : StrengthWords α) : StrengthAct α → StrengthWords α × Bool
  | .set slot down strength replaces => w.set slot down strength replaces
  | .add slot amount replaces => w.add slot amount replaces
  | .resetAdds => w.resetAdds
  | .releaseAll => w.releaseAll

/-- What the operation leaves in a slot, of what was there before. -/
def leaves (slot : Slot) (before : Option (Push α)) : StrengthAct α → Option (Push α)
  | .set other down strength replaces =>
    if other = slot then
      (if down then some { strength := Scalar.maximum strength 0, replaces, adds := false } else none)
    else before
  | .add other amount replaces =>
    if other = slot then
      some { strength := Scalar.clamp (strengthOf before + amount) 0 1, replaces, adds := true }
    else before
  | .resetAdds => before.filter fun push => !push.adds
  | .releaseAll => none

theorem held_add (c : StrengthCell α) (slot other : Slot) (amount : α) (replaces : Bool) :
    (StrengthCell.add c slot amount replaces).held other =
      if slot = other then
        some {
          strength := Scalar.clamp (strengthOf (c.held other) + amount) 0 1
          replaces
          adds := true }
      else c.held other := by
  unfold StrengthCell.add
  dsimp only
  rw [Slots.held_put]
  by_cases hsame : slot = other
  · rw [if_pos hsame, if_pos hsame, hsame]
    cases c.held other <;> rfl
  · rw [if_neg hsame, if_neg hsame]

theorem held_onCell (c : StrengthCell α) (act : StrengthAct α) (slot : Slot) :
    (act.onCell c).held slot = act.leaves slot (c.held slot) := by
  cases act with
  | set other down strength replaces => exact Slots.held_put c other slot _
  | add other amount replaces => exact held_add c other slot amount replaces
  | resetAdds => exact Slots.held_filter c _ slot
  | releaseAll => exact Slots.held_clear c slot

theorem tidy_onWords {w : StrengthWords α} (hw : w.Tidy) (act : StrengthAct α) :
    (act.onWords w).1.Tidy := by
  cases act with
  | set slot down strength replaces => exact hw.set slot down strength replaces
  | add slot amount replaces => exact hw.add slot amount replaces
  | resetAdds => exact hw.resetAdds
  | releaseAll => exact w.tidy_releaseAll

theorem contribution_onWords {w : StrengthWords α} (hw : w.Tidy) (act : StrengthAct α) (slot : Slot) :
    (act.onWords w).1.contribution slot = act.leaves slot (w.contribution slot) := by
  cases act with
  | set other down strength replaces => exact w.contribution_set other slot down strength replaces
  | add other amount replaces => exact hw.contribution_add other slot amount replaces
  | resetAdds => exact w.contribution_resetAdds slot
  | releaseAll => exact w.contribution_releaseAll slot

def slot? : StrengthAct α → Option Slot
  | .set slot _ _ _ => some slot
  | .add slot _ _ => some slot
  | .resetAdds => none
  | .releaseAll => none

end StrengthAct

def strengths (α : Type) [Scalar α] : CellKind (Push α) (StrengthWords α) (StrengthAct α) where
  onCell := StrengthAct.onCell
  start := {}
  onWords w act := (act.onWords w).1
  contribution := StrengthWords.contribution
  slot? := StrengthAct.slot?
  leaves := StrengthAct.leaves
  Tidy := StrengthWords.Tidy
  owned_onCell _ act := by cases act <;> rfl
  held_onCell := StrengthAct.held_onCell
  tidy_start := ⟨fun slot h => by simp at h, fun slot h => by simp at h, fun slot _ => by simp,
    by simp [StrengthWords.refresh, Mask.counting, Mask.members]⟩
  contribution_start slot := by simp [StrengthWords.contribution]
  tidy_onWords _ act hw := StrengthAct.tidy_onWords hw act
  contribution_onWords _ act slot hw := StrengthAct.contribution_onWords hw act slot
  ext_contribution _ _ hw hw' h := hw.ext_contribution hw' h
  leaves_other act place slot before hplace hne := by
    cases act with
    | set other down strength replaces =>
      obtain rfl : other = place := Option.some.inj hplace
      exact if_neg hne
    | add other amount replaces =>
      obtain rfl : other = place := Option.some.inj hplace
      exact if_neg hne
    | resetAdds => contradiction
    | releaseAll => contradiction

/-! ## §4 Modifiers -/

/-- An operation on a modifier. -/
inductive ModifierAct (α : Type) where
  | set (slot : Slot) (down : Bool) (factor : α)
  | releaseAll

namespace ModifierAct

variable {α : Type} [Scalar α]

def onCell (c : ModifierCell α) : ModifierAct α → ModifierCell α
  | .set slot down factor => ModifierCell.set c slot down factor
  | .releaseAll => c.clear

def onWords (w : ModifierWords α) : ModifierAct α → ModifierWords α × Bool
  | .set slot down factor => w.set slot down factor
  | .releaseAll => w.releaseAll

/-- What the operation leaves in a slot, of what was there before. -/
def leaves (slot : Slot) (before : Option α) : ModifierAct α → Option α
  | .set other down factor =>
    if other = slot then (if down then some factor else none) else before
  | .releaseAll => none

omit [Scalar α] in
theorem held_onCell (c : ModifierCell α) (act : ModifierAct α) (slot : Slot) :
    (act.onCell c).held slot = act.leaves slot (c.held slot) := by
  cases act with
  | set other down factor => exact Slots.held_put c other slot _
  | releaseAll => exact Slots.held_clear c slot

theorem tidy_onWords {w : ModifierWords α} (hw : w.Tidy) (act : ModifierAct α) :
    (act.onWords w).1.Tidy := by
  cases act with
  | set slot down factor => exact w.tidy_set hw slot down factor
  | releaseAll => exact w.tidy_releaseAll

theorem contribution_onWords (w : ModifierWords α) (act : ModifierAct α) (slot : Slot) :
    (act.onWords w).1.contribution slot = act.leaves slot (w.contribution slot) := by
  cases act with
  | set other down factor => exact w.contribution_set other slot down factor
  | releaseAll => exact w.contribution_releaseAll slot

def slot? : ModifierAct α → Option Slot
  | .set slot _ _ => some slot
  | .releaseAll => none

end ModifierAct

def modifiers (α : Type) [Scalar α] : CellKind α (ModifierWords α) (ModifierAct α) where
  onCell := ModifierAct.onCell
  start := {}
  onWords w act := (act.onWords w).1
  contribution := ModifierWords.contribution
  slot? := ModifierAct.slot?
  leaves := ModifierAct.leaves
  Tidy := ModifierWords.Tidy
  owned_onCell _ act := by cases act <;> rfl
  held_onCell := ModifierAct.held_onCell
  tidy_start := ⟨fun slot _ => by simp, by simp [ModifierWords.refresh, Mask.members]⟩
  contribution_start slot := by simp [ModifierWords.contribution]
  tidy_onWords _ act hw := ModifierAct.tidy_onWords hw act
  contribution_onWords w act slot _ := ModifierAct.contribution_onWords w act slot
  ext_contribution _ _ hw hw' h := hw.ext_contribution hw' h
  leaves_other act place slot before hplace hne := by
    cases act with
    | set other down factor =>
      obtain rfl : other = place := Option.some.inj hplace
      exact if_neg hne
    | releaseAll => contradiction

/-! ## §5 What the cells show -/

/-- What a button is after a row of operations. -/
structure ButtonForgets (acts : List ButtonAct) : Prop extends buttons.Forgets acts where
  writes_set : ∀ slot down replaces, buttons.Writes slot (.set slot down replaces)
  releases_set : ∀ slot replaces, buttons.Releases slot (.set slot false replaces)
  pressed_iff : (buttons.wordsAfter acts).pressed = true ↔
    countingSlots (buttons.left acts) Hold.replaces ≠ []
  cell_pressed : ButtonCell.pressed (buttons.cellAfter acts) = (buttons.wordsAfter acts).pressed
  replacing_live : ∀ slot : Slot, (buttons.wordsAfter acts).replacing.has slot = true →
    (buttons.wordsAfter acts).live.has slot = true
  changed_iff : ∀ slot down replaces,
    ((buttons.wordsAfter acts).set slot down replaces).2 = true ↔
      ((buttons.wordsAfter acts).set slot down replaces).1.pressed ≠ (buttons.wordsAfter acts).pressed

/-- What a strength is after a row of operations. -/
structure StrengthForgets (α : Type) [Scalar α] (acts : List (StrengthAct α)) : Prop
    extends (strengths α).Forgets acts where
  writes_set : ∀ slot down strength replaces,
    (strengths α).Writes slot (.set slot down strength replaces)
  writes_add : ∀ slot amount replaces, (strengths α).Writes slot (.add slot amount replaces)
  releases_set : ∀ slot strength replaces,
    (strengths α).Releases slot (.set slot false strength replaces)
  value_eq : ((strengths α).wordsAfter acts).value =
    (countingSlots ((strengths α).left acts) Push.replaces).foldl
      (fun best slot => Scalar.maximum best (strengthOf ((strengths α).left acts slot))) 0
  weight_eq : ((strengths α).wordsAfter acts).weight =
    (countingSlots ((strengths α).left acts) Push.replaces).length
  cell_value : StrengthCell.value ((strengths α).cellAfter acts) = ((strengths α).wordsAfter acts).value
  cell_weight : StrengthCell.weight ((strengths α).cellAfter acts) =
    ((strengths α).wordsAfter acts).weight
  replacing_live : ∀ slot : Slot, ((strengths α).wordsAfter acts).replacing.has slot = true →
    ((strengths α).wordsAfter acts).live.has slot = true
  adding_live : ∀ slot : Slot, ((strengths α).wordsAfter acts).adding.has slot = true →
    ((strengths α).wordsAfter acts).live.has slot = true
  dead : ∀ slot : Slot, ((strengths α).wordsAfter acts).live.has slot = false →
    ((strengths α).wordsAfter acts).strengths.ofSlot slot = 0
  resetAdds : ∀ slot, ((strengths α).wordsAfter acts).resetAdds.1.contribution slot =
    if ((strengths α).left acts slot).any Push.adds then none else (strengths α).left acts slot

/-- What a modifier is after a row of operations. -/
structure ModifierForgets (α : Type) [Scalar α] (acts : List (ModifierAct α)) : Prop
    extends (modifiers α).Forgets acts where
  writes_set : ∀ slot down factor, (modifiers α).Writes slot (.set slot down factor)
  releases_set : ∀ slot factor, (modifiers α).Releases slot (.set slot false factor)
  product_eq : ((modifiers α).wordsAfter acts).product =
    (liveSlots ((modifiers α).left acts)).foldl
      (fun product slot => product * factorOf ((modifiers α).left acts slot)) 1
  cell_product : ModifierCell.product ((modifiers α).cellAfter acts) =
    ((modifiers α).wordsAfter acts).product
  dead : ∀ slot : Slot, ((modifiers α).wordsAfter acts).live.has slot = false →
    ((modifiers α).wordsAfter acts).factors.ofSlot slot = 1

theorem button_forgets (acts : List ButtonAct) : ButtonForgets acts := by
  have hforgets := buttons.forgets acts
  have htidy : ButtonWords.Tidy (buttons.wordsAfter acts) := buttons.tidy_wordsAfter acts
  have hleft : (buttons.wordsAfter acts).contribution = buttons.left acts := funext hforgets.words
  have hheld : (buttons.cellAfter acts).held = buttons.left acts := funext hforgets.cell
  have hpressed := htidy.pressed_iff
  rw [hleft] at hpressed
  refine ⟨hforgets, fun _ _ _ => rfl, fun slot _ => ⟨rfl, fun _ => if_pos rfl⟩, hpressed, ?_,
    htidy.replacing_live, fun _ _ _ => bne_iff_ne⟩
  rw [Bool.eq_iff_iff, hpressed, ButtonCell.pressed, Slots.effective_eq, hheld, Bool.not_eq_true',
    ← Bool.not_eq_true, List.isEmpty_iff, List.filterMap_eq_nil_iff]
  constructor
  · intro hsome hnil
    exact hsome fun slot hslot => by simp [hnil] at hslot
  · intro hsome hnone
    obtain ⟨slot, hslot⟩ := List.exists_mem_of_ne_nil _ hsome
    have hlive := isSome_of_mem_countingSlots hslot
    rw [hnone slot hslot] at hlive
    contradiction

theorem strength_forgets {α : Type} [Scalar α] (acts : List (StrengthAct α)) :
    StrengthForgets α acts := by
  have hforgets := (strengths α).forgets acts
  have htidy : StrengthWords.Tidy ((strengths α).wordsAfter acts) := (strengths α).tidy_wordsAfter acts
  have hleft : ((strengths α).wordsAfter acts).contribution = (strengths α).left acts :=
    funext hforgets.words
  have hheld : ((strengths α).cellAfter acts).held = (strengths α).left acts := funext hforgets.cell
  have hvalue := htidy.value_eq
  have hweight := htidy.weight_eq
  rw [hleft] at hvalue hweight
  refine ⟨hforgets, fun _ _ _ _ => rfl, fun _ _ _ => rfl, fun slot _ _ => ⟨rfl, fun _ => if_pos rfl⟩,
    hvalue, hweight, ?_, ?_, htidy.replacing_live, htidy.adding_live, htidy.dead, fun slot => ?_⟩
  · rw [hvalue, StrengthCell.value, StrengthCell.pushes, Slots.effective_eq, hheld]
    refine (foldl_countingSlots _ _ _ (fun slot push hslot best => ?_) _
      fun slot hslot => isSome_of_mem_countingSlots hslot).symm
    rw [hslot, strengthOf]
  · rw [hweight, StrengthCell.weight, StrengthCell.pushes, Slots.effective_eq, hheld]
    exact length_filterMap_held fun slot hslot => isSome_of_mem_countingSlots hslot
  · rw [StrengthWords.contribution_resetAdds, hleft]
    cases (strengths α).left acts slot with
    | none => rfl
    | some push => cases hadds : push.adds <;> simp [hadds, Option.filter]

theorem modifier_forgets {α : Type} [Scalar α] (acts : List (ModifierAct α)) :
    ModifierForgets α acts := by
  have hforgets := (modifiers α).forgets acts
  have htidy : ModifierWords.Tidy ((modifiers α).wordsAfter acts) := (modifiers α).tidy_wordsAfter acts
  have hleft : ((modifiers α).wordsAfter acts).contribution = (modifiers α).left acts :=
    funext hforgets.words
  have hheld : ((modifiers α).cellAfter acts).held = (modifiers α).left acts := funext hforgets.cell
  have hproduct := htidy.product_eq
  rw [hleft] at hproduct
  refine ⟨hforgets, fun _ _ _ => rfl, fun slot _ => ⟨rfl, fun _ => if_pos rfl⟩, hproduct, ?_,
    htidy.dead⟩
  rw [hproduct, ModifierCell.product, Slots.live_eq, hheld]
  refine (foldl_countingSlots _ _ _ (fun slot factor hslot product => ?_) _
    fun slot hslot => (List.mem_filter.mp hslot).2).symm
  rw [hslot, factorOf, Option.getD_some]

/-- What a cell shows is a function of what the operations have left in its slots, and so are its words,
however many operations there were and in whichever order they came. -/
theorem cells_forget_history (α : Type) [Scalar α] :
    (∀ acts, ButtonForgets acts) ∧ (∀ acts, StrengthForgets α acts) ∧ ∀ acts, ModifierForgets α acts :=
  ⟨button_forgets, strength_forgets, modifier_forgets⟩

end VirtualPad
