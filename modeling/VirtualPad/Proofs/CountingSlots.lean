import Mathlib.Data.List.FinRange
import VirtualPad.Slots.Words

/-!
# The slots that count

While some live slot of a cell replaces, only the live slots that replace count.  A cell finds them by
going through its contributions; a cell in words by cutting one mask down to another.  Both come to
`countingSlots`, in the order of the slots.
-/

namespace VirtualPad

namespace Mask

variable {m n : Mask} {place : Nat}

@[simp] theorem has_and : (m &&& n).has place = (m.has place && n.has place) := by
  unfold has
  cases decide (place < maskWidth) <;> simp

@[simp] theorem has_sub : (m &&& ~~~n).has place = (m.has place && !n.has place) := by
  unfold has
  by_cases hin : place < maskWidth <;> simp [hin]

/-- A mask is the set of its members. -/
theorem ext_has (h : ∀ slot : Slot, m.has slot = n.has slot) : m = n := by
  refine BitVec.eq_of_getLsbD_eq fun place hin => ?_
  have hplace := h ⟨place, hin⟩
  unfold has at hplace
  simpa [hin] using hplace

theorem has_put_slot (slot other : Slot) (isIn : Bool) :
    (m.put slot isIn).has other = if slot = other then isIn else m.has other := by
  rw [has_put]
  simp only [slot.isLt, and_true, Fin.val_inj]

theorem eq_none_iff : m = none ↔ ∀ slot : Slot, m.has slot = false := by
  constructor
  · rintro rfl slot
    exact has_none _
  · intro h
    exact ext_has fun slot => (h slot).trans (has_none _).symm

end Mask

section

variable {κ : Type} {held : Slot → Option κ} {replaces : κ → Bool}

/-- The slots that contribute something, in order. -/
def liveSlots (held : Slot → Option κ) : List Slot :=
  (List.finRange maskWidth).filter fun slot => (held slot).isSome

/-- The slots whose contributions count, in order: the live replacing ones, if there are any, and
otherwise all that are live. -/
def countingSlots (held : Slot → Option κ) (replaces : κ → Bool) : List Slot :=
  let replacing := (liveSlots held).filter fun slot => (held slot).any replaces
  if replacing.isEmpty then liveSlots held else replacing

theorem isSome_of_mem_countingSlots {slot : Slot} (h : slot ∈ countingSlots held replaces) :
    (held slot).isSome = true := by
  have hlive : slot ∈ liveSlots held := by
    unfold countingSlots at h
    dsimp only at h
    split at h
    · exact h
    · exact (List.mem_filter.mp h).1
  exact (List.mem_filter.mp hlive).2

/-- Masks that say which slots are live and which replace single out the slots that count. -/
theorem members_counting {live replacing : Mask}
    (hlive : ∀ slot : Slot, live.has slot = (held slot).isSome)
    (hreplacing : ∀ slot : Slot, replacing.has slot = (held slot).any replaces) :
    (live.counting replacing).members = countingSlots held replaces := by
  have hall : live.members = liveSlots held := by
    unfold Mask.members liveSlots
    simp only [hlive]
  have hboth : (live &&& replacing).members =
      (liveSlots held).filter fun slot => (held slot).any replaces := by
    unfold Mask.members liveSlots
    rw [List.filter_filter]
    refine List.filter_congr fun slot _ => ?_
    rw [Mask.has_and, hlive, hreplacing, Bool.and_comm]
  have hnone : live &&& replacing = Mask.none ↔
      ((liveSlots held).filter fun slot => (held slot).any replaces).isEmpty = true := by
    rw [← hboth, List.isEmpty_iff, Mask.eq_none_iff, Mask.members, List.filter_eq_nil_iff]
    simp
  unfold Mask.counting countingSlots
  dsimp only
  by_cases hempty : live &&& replacing = Mask.none
  · rw [if_pos hempty, if_pos (hnone.mp hempty), hall]
  · rw [if_neg hempty, if_neg fun h => hempty (hnone.mpr h), hboth]

namespace Slots

/-- The contributions are those of the live slots, in order. -/
theorem live_eq (s : Slots κ) : s.live = (liveSlots s.held).filterMap s.held := by
  have hrow : s.contributions.toList = (List.finRange maskWidth).map s.held := by
    refine List.ext_getElem (by simp) fun place _ _ => ?_
    simp [held]
  unfold live liveSlots
  rw [hrow, List.filterMap_map, List.filterMap_filter]
  refine List.filterMap_congr fun slot _ => ?_
  cases h : s.held slot <;> simp [h]

/-- The contributions that count are those of the slots that count. -/
theorem effective_eq (s : Slots κ) (replaces : κ → Bool) :
    s.effective replaces = (countingSlots s.held replaces).filterMap s.held := by
  have hreplacing : s.live.filter replaces =
      ((liveSlots s.held).filter fun slot => (s.held slot).any replaces).filterMap s.held := by
    rw [live_eq, List.filter_filterMap, List.filterMap_filter]
    refine List.filterMap_congr fun slot _ => ?_
    cases h : s.held slot <;> simp [Option.filter]
  have hsame : (s.live.filter replaces).isEmpty =
      ((liveSlots s.held).filter fun slot => (s.held slot).any replaces).isEmpty := by
    rw [hreplacing, Bool.eq_iff_iff, List.isEmpty_iff, List.isEmpty_iff, List.filterMap_eq_nil_iff]
    constructor
    · refine fun hnone => List.eq_nil_iff_forall_not_mem.mpr fun slot hmem => ?_
      have hlive := (List.mem_filter.mp (List.mem_filter.mp hmem).1).2
      rw [hnone slot hmem] at hlive
      contradiction
    · intro hnil slot hmem
      rw [hnil] at hmem
      contradiction
  unfold effective countingSlots
  dsimp only
  rw [hsame]
  split
  · exact live_eq s
  · exact hreplacing

/-- Slots are what they hold, and who owns them. -/
theorem ext_held {s s' : Slots κ} (howned : s.owned = s'.owned) (hheld : ∀ slot, s.held slot = s'.held slot) :
    s = s' := by
  obtain ⟨owned, contributions⟩ := s
  obtain ⟨owned', contributions'⟩ := s'
  obtain rfl : owned = owned' := howned
  congr 1
  exact Vector.ext fun place hin => hheld ⟨place, hin⟩

end Slots

/-- Going through the slots that count is going through their contributions. -/
theorem foldl_countingSlots {β : Type} (f : β → κ → β) (g : β → Slot → β) (b : β)
    (h : ∀ slot k, held slot = some k → ∀ b, g b slot = f b k) (slots : List Slot)
    (hlive : ∀ slot ∈ slots, (held slot).isSome = true) :
    slots.foldl g b = (slots.filterMap held).foldl f b := by
  induction slots generalizing b with
  | nil => rfl
  | cons slot rest ih =>
    obtain ⟨k, hk⟩ := Option.isSome_iff_exists.mp (hlive slot List.mem_cons_self)
    rw [List.filterMap_cons_some hk, List.foldl_cons, List.foldl_cons, h slot k hk]
    exact ih _ fun other hother => hlive other (List.mem_cons_of_mem _ hother)

/-- Every live slot has one contribution. -/
theorem length_filterMap_held {slots : List Slot} (hlive : ∀ slot ∈ slots, (held slot).isSome = true) :
    (slots.filterMap held).length = slots.length := by
  induction slots with
  | nil => rfl
  | cons slot rest ih =>
    obtain ⟨k, hk⟩ := Option.isSome_iff_exists.mp (hlive slot List.mem_cons_self)
    rw [List.filterMap_cons_some hk, List.length_cons, List.length_cons]
    rw [ih fun other hother => hlive other (List.mem_cons_of_mem _ hother)]

end

end VirtualPad
