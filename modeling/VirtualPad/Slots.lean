import VirtualPad.Mask

/-!
# Slots

Several mappings can drive one destination.  Each of them owns a slot there and writes only into
its own, so a contribution that ends never takes another one with it.  `Slots κ` holds one optional
contribution of type `κ` per slot, and remembers which slots are owned; who owns a slot and whether
it holds a contribution are independent.

The view is `held`; `held_put` says what the one writing operation does to it.
-/

namespace VirtualPad

/-- A place for one contribution. -/
abbrev Slot := Fin maskWidth

def Slot.ofNat? (n : Nat) : Option Slot :=
  if h : n < maskWidth then some ⟨n, h⟩ else none

/-- The contributions to one destination. -/
structure Slots (κ : Type) where
  /-- The slots that belong to some mapping. -/
  owned : Mask := Mask.none
  /-- What each slot contributes at present. -/
  contributions : Vector (Option κ) maskWidth := Vector.replicate maskWidth none

namespace Slots

variable {κ : Type}

instance : Inhabited (Slots κ) := ⟨{}⟩

/-- What a slot contributes. -/
def held (s : Slots κ) (slot : Slot) : Option κ := s.contributions[slot]

/-- A slot contributes something. -/
def isLive (s : Slots κ) (slot : Slot) : Bool := (s.held slot).isSome

/-- The slot contributes just this from now on. -/
def put (s : Slots κ) (slot : Slot) (contribution : Option κ) : Slots κ :=
  { s with contributions := s.contributions.set slot contribution }

/-- The slot belongs to a mapping from now on. -/
def claim (s : Slots κ) (slot : Slot) : Slots κ :=
  { s with owned := s.owned.put slot true }

/-- The contributions that `keep` lets through; ownership stays. -/
def filter (s : Slots κ) (keep : κ → Bool) : Slots κ :=
  { s with contributions := s.contributions.map fun held => held.filter keep }

/-- No contributions; ownership stays. -/
def clear (s : Slots κ) : Slots κ :=
  { owned := s.owned }

/-- The contributions in slot order. -/
def live (s : Slots κ) : List κ := s.contributions.toList.filterMap id

/-- The slots that contribute, as a mask. -/
def liveMask (s : Slots κ) : Mask :=
  Mask.ofList (((List.finRange maskWidth).filter s.isLive).map Fin.val)

/-- The contributions that count, in slot order: while a replacing slot is live, only replacing
slots do. -/
def effective (s : Slots κ) (replaces : κ → Bool) : List κ :=
  let replacing := s.live.filter replaces
  if replacing.isEmpty then s.live else replacing

@[simp] theorem held_default (slot : Slot) : ({} : Slots κ).held slot = none := by
  simp [held]

@[simp] theorem held_clear (s : Slots κ) (slot : Slot) : s.clear.held slot = none := by
  simp [held, clear]

/-- Writing into one slot leaves every other slot alone. -/
theorem held_put (s : Slots κ) (slot other : Slot) (contribution : Option κ) :
    (s.put slot contribution).held other = if slot = other then contribution else s.held other := by
  simp only [held, put, Fin.getElem_fin, Vector.getElem_set, Fin.val_inj]

@[simp] theorem held_claim (s : Slots κ) (slot other : Slot) :
    (s.claim slot).held other = s.held other := rfl

@[simp] theorem held_filter (s : Slots κ) (keep : κ → Bool) (slot : Slot) :
    (s.filter keep).held slot = (s.held slot).filter keep := by
  simp [held, filter]

/-- Nothing is contributed just when every slot is empty. -/
theorem live_eq_nil (s : Slots κ) : s.live = [] ↔ ∀ slot, s.held slot = none := by
  unfold live held
  rw [List.filterMap_eq_nil_iff]
  constructor
  · intro hnone slot
    exact hnone _ (Vector.mem_toList_iff.mpr (Vector.getElem_mem slot.isLt))
  · intro hnone contribution hmem
    obtain ⟨place, hplace, rfl⟩ := Vector.getElem_of_mem (Vector.mem_toList_iff.mp hmem)
    exact hnone ⟨place, hplace⟩

/-- Whatever replaces what, something counts as long as something is contributed. -/
theorem effective_eq_nil (s : Slots κ) (replaces : κ → Bool) :
    s.effective replaces = [] ↔ s.live = [] := by
  unfold effective
  dsimp only
  split
  · rfl
  · rename_i hreplacing
    have hsome : s.live.filter replaces ≠ [] := by simpa using hreplacing
    constructor
    · intro hnone
      exact absurd hnone hsome
    · intro hnone
      rw [hnone] at hsome
      exact absurd rfl hsome

end Slots

end VirtualPad
