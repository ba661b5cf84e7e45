import Mathlib.Data.Nat.Init
import VirtualPad.Vocabulary

/-!
# Facts about single controls

A vocabulary says of each control what it is, by a table for the built-in ones.  What the rest of
the theory wants to know of the table is little: motion has no slots, the components of a pair are
keys or directions, and only a custom control can be a variable.
-/

namespace VirtualPad

namespace Descriptor

theorem relative_ofNumber (n : Nat) (hslot : (ofNumber n).needsSlot = true) :
    (ofNumber n).flags.relative = false := by
  unfold ofNumber at hslot ⊢
  split at hslot
  · rename_i hbutton
    rw [dif_pos hbutton]
    rfl
  · rename_i hbutton
    rw [dif_neg hbutton]
    split at hslot
    -- Numbers without a case of their own are keys and mouse buttons, or nothing at all.
    all_goals first | rfl | contradiction | (repeat' split) <;> rfl

/-- What is relative is motion and nothing else. -/
theorem moving_ofNumber {n : Nat} (hrelative : (ofNumber n).flags.relative = true) :
    ∃ cell, ofNumber n = moving cell := by
  unfold ofNumber at hrelative ⊢
  split at hrelative
  · contradiction
  · rename_i hbutton
    rw [dif_neg hbutton]
    split at hrelative
    all_goals first
      | contradiction
      | exact ⟨_, rfl⟩
      | (repeat' split at hrelative) <;> contradiction

theorem cell_ofNumber_ne_var (n : Nat) : (ofNumber n).cell ≠ .output .var := by
  intro hvar
  unfold ofNumber at hvar
  split at hvar
  · contradiction
  · split at hvar
    all_goals first | contradiction | (repeat' split at hvar) <;> contradiction

/-- A component of a pair, by itself: it is built in, it is no pair, and if users have one of their own
it is a direction: then they have one of the pair too, and that is down when both directions are. -/
def IsComponent (pair : Descriptor) (c : Control) : Prop :=
  c.isCustom = false ∧ (ofNumber c.number).pair = none ∧
    ((ofNumber c.number).flags.ofUser = true → pair.flags.andPair = true ∧ pair.flags.ofUser = true)

instance (pair : Descriptor) (c : Control) : Decidable (IsComponent pair c) :=
  inferInstanceAs (Decidable (_ ∧ _ ∧ _))

theorem pair_ofNumber {n : Nat} {first second : Control}
    (hpair : (ofNumber n).pair = some (first, second)) :
    IsComponent (ofNumber n) first ∧ IsComponent (ofNumber n) second := by
  unfold ofNumber at hpair
  split at hpair
  · contradiction
  · split at hpair
    all_goals first
      | contradiction
      | (obtain ⟨rfl, rfl⟩ := Prod.mk.inj (Option.some.inj hpair); decide)
      | (repeat' split at hpair) <;> contradiction

end Descriptor

namespace Vocabulary

variable (v : Vocabulary) {c : Control}

/-- What a custom control or an unknown one is, is not in the table. -/
theorem descriptor_cases (c : Control) : (c.isCustom = true ∧
      (v.descriptor c = Descriptor.inert ∨ ∃ kind : CustomKind, v.descriptor c = kind.descriptor)) ∨
    (c.isCustom = false ∧
      (v.descriptor c = Descriptor.inert ∨ v.descriptor c = Descriptor.ofNumber c.number)) := by
  unfold descriptor Descriptor.builtin
  cases c.isCustom with
  | true =>
    left
    cases v.custom? c with
    | none => exact ⟨rfl, .inl rfl⟩
    | some custom => exact ⟨rfl, .inr ⟨custom.kind, rfl⟩⟩
  | false =>
    right
    cases c.name?.isSome with
    | true => exact ⟨rfl, .inr rfl⟩
    | false => exact ⟨rfl, .inl rfl⟩

/-- What moves has no slots. -/
theorem relative_of_needsSlot (hslot : (v.descriptor c).needsSlot = true) :
    (v.descriptor c).flags.relative = false := by
  rcases v.descriptor_cases c with ⟨-, h | ⟨kind, h⟩⟩ | ⟨-, h | h⟩
  · rw [h]
    rfl
  · rw [h]
    cases kind <;> rfl
  · rw [h]
    rfl
  · rw [h] at hslot ⊢
    exact Descriptor.relative_ofNumber _ hslot

/-- A variable is a custom control, and has one state for all users. -/
theorem of_var (hvar : (v.descriptor c).cell = .output .var) :
    c.isCustom = true ∧ v.descriptor c = CustomKind.var.descriptor := by
  rcases v.descriptor_cases c with ⟨hcustom, h | ⟨kind, h⟩⟩ | ⟨-, h | h⟩
  · rw [h] at hvar
    contradiction
  · rw [h] at hvar ⊢
    cases kind with
    | var => exact ⟨hcustom, rfl⟩
    | key => contradiction
  · rw [h] at hvar
    contradiction
  · rw [h] at hvar
    exact absurd hvar (Descriptor.cell_ofNumber_ne_var _)

/-- A relative control is motion: users do not have it of their own, it does not repeat, it is no
variable and no pair. -/
theorem moving_of_relative (hrelative : (v.descriptor c).flags.relative = true) :
    ∃ cell, v.descriptor c = Descriptor.moving cell := by
  rcases v.descriptor_cases c with ⟨-, h | ⟨kind, h⟩⟩ | ⟨-, h | h⟩
  · rw [h] at hrelative
    contradiction
  · rw [h] at hrelative
    cases kind <;> contradiction
  · rw [h] at hrelative
    contradiction
  · rw [h] at hrelative ⊢
    exact Descriptor.moving_ofNumber hrelative

/-- Only built-in controls are pairs. -/
theorem builtin_of_pair {both : Control × Control} (hpair : (v.descriptor c).pair = some both) :
    c.isCustom = false := by
  rcases v.descriptor_cases c with ⟨-, h | ⟨kind, h⟩⟩ | ⟨hbuiltin, -⟩
  · rw [h] at hpair
    contradiction
  · rw [h] at hpair
    cases kind <;> contradiction
  · exact hbuiltin

/-- The components of a pair are what the table says. -/
theorem components_ofNumber {first second : Control}
    (hpair : (v.descriptor c).pair = some (first, second)) :
    (v.descriptor c).IsComponent first ∧ (v.descriptor c).IsComponent second := by
  rcases v.descriptor_cases c with ⟨-, h | ⟨kind, h⟩⟩ | ⟨-, h | h⟩
  · rw [h] at hpair
    contradiction
  · rw [h] at hpair
    cases kind <;> contradiction
  · rw [h] at hpair
    contradiction
  · rw [h] at hpair ⊢
    exact Descriptor.pair_ofNumber hpair

/-- A component is no pair itself, and if users have one of their own they have one of the pair, which
needs both components. -/
theorem of_isComponent {d : Descriptor} (h : d.IsComponent c) : (v.descriptor c).pair = none ∧
    ((v.descriptor c).flags.ofUser = true → d.flags.andPair = true ∧ d.flags.ofUser = true) := by
  obtain ⟨hbuiltin, hpair, huser⟩ := h
  rcases v.descriptor_cases c with ⟨hcustom, -⟩ | ⟨-, h | h⟩
  · rw [hbuiltin] at hcustom
    contradiction
  · rw [h]
    exact ⟨rfl, fun hof => by contradiction⟩
  · rw [h]
    exact ⟨hpair, huser⟩

end Vocabulary

end VirtualPad
