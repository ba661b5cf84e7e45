import VirtualPad.Proofs.Alone
import VirtualPad.Proofs.Installation
import VirtualPad.Proofs.Stability

/-!
# Every mapping gets slots of its own

Mappings are served one after another, and each takes a slot that is free at every spot it drives.
So whatever slots the mappings have in the end, no two mappings that drive a common spot have the
same one.  Nothing is held anywhere while this goes on, since all pads have been reset before.
-/

namespace VirtualPad

/-- The lowest free place is free. -/
theorem Mask.has_lowestFree {m : Mask} {place : Fin maskWidth} (h : m.lowestFree? = some place) :
    m.has place = false := by
  have hfree := List.find?_some h
  simpa using hfree

namespace PadBank

/-- A slot is taken for some users if it is taken at one of the places of the cell. -/
theorem has_owned (b : PadBank) (users : List User) (cell : PadCell) (slot : Slot) :
    (b.owned users cell).has slot = true ↔
      ∃ user ∈ users, ∃ place ∈ cell.places, ((b.pad user).view place).owned.has slot = true := by
  have hfold : ∀ m : Mask, (users.foldl (fun m user => m ||| (b.pad user).owned cell) m).has slot =
      true ↔ m.has slot = true ∨ ∃ user ∈ users, ((b.pad user).owned cell).has slot = true := by
    induction users with
    | nil => simp
    | cons user rest ih =>
      intro m
      rw [List.foldl_cons, ih, Mask.has_or, Bool.or_eq_true, or_assoc]
      simp
  unfold owned
  rw [hfold]
  simp [Pad.has_owned]

/-- Giving a slot away changes no contribution. -/
theorem held_claim (b : PadBank) (users : List User) (cell : PadCell) (slot : Slot) (user : User)
    (place : PadCell) (other : Slot) :
    (((b.claim users cell slot).pad user).view place).held other =
      ((b.pad user).view place).held other := by
  unfold claim
  induction users generalizing b with
  | nil => rfl
  | cons first rest ih =>
    rw [List.foldl_cons, ih]
    by_cases hsame : first.val = user.val
    · obtain rfl := Fin.ext hsame
      simp only [pad, set, Vector.getElem_set_self, Fin.getElem_fin, Pad.view_claim]
      split <;> rfl
    · simp [pad, set, hsame]

/-- Giving a slot away takes it for the users, at the places of the cell. -/
theorem taken_claim (b : PadBank) (users : List User) (cell : PadCell) (slot : Slot) (user : User)
    (place : PadCell) (other : Slot) :
    (((b.claim users cell slot).pad user).view place).owned.has other = true ↔
      ((b.pad user).view place).owned.has other = true ∨
        (user ∈ users ∧ place ∈ cell.places) ∧ slot = other := by
  unfold claim
  induction users generalizing b with
  | nil => simp
  | cons first rest ih =>
    rw [List.foldl_cons, ih]
    have hfirst : ((((b.set first ((b.pad first).claim cell slot)).pad user).view place).owned.has
        other = true) ↔ ((b.pad user).view place).owned.has other = true ∨
          (user = first ∧ place ∈ cell.places) ∧ slot = other := by
      by_cases hsame : first.val = user.val
      · obtain rfl := Fin.ext hsame
        simp only [pad, set, Vector.getElem_set_self, Fin.getElem_fin, Pad.view_claim]
        by_cases hplace : place ∈ cell.places
        · simp [hplace, Slots.claim, Mask.has_put, Fin.val_inj]
          by_cases hslot : slot = other <;> simp [hslot]
        · simp [hplace]
      · have hne : user ≠ first := fun h => hsame (congrArg Fin.val h.symm)
        simp [pad, set, hsame, hne]
    rw [hfirst, List.mem_cons]
    constructor
    · rintro ((h | ⟨⟨h, hplace⟩, hslot⟩) | ⟨⟨h, hplace⟩, hslot⟩)
      · exact .inl h
      · exact .inr ⟨⟨.inl h, hplace⟩, hslot⟩
      · exact .inr ⟨⟨.inr h, hplace⟩, hslot⟩
    · rintro (h | ⟨⟨h | h, hplace⟩, hslot⟩)
      · exact .inl (.inl h)
      · exact .inl (.inr ⟨⟨h, hplace⟩, hslot⟩)
      · exact .inr ⟨⟨h, hplace⟩, hslot⟩

end PadBank

theorem PadBank.view_set_sameCells (b : PadBank) {user : User} {pad : Pad}
    (hcells : pad.SameCells (b.pad user)) (other : User) (place : PadCell) :
    ((b.set user pad).pad other).view place = (b.pad other).view place := by
  by_cases hsame : user.val = other.val
  · obtain rfl := Fin.ext hsame
    simpa [PadBank.pad, set] using hcells.view place
  · simp [PadBank.pad, set, hsame]

namespace Engine

/-- The slot belongs to some mapping at the spot. -/
def Taken (e : Engine) (spot : Spot) (slot : Slot) : Prop := (e.view spot).owned.has slot = true

/-! ## §1 One claim -/

/-- What one claim does. -/
structure Claims (e e' : Engine) (m : Mapping) (claimed : Option Slot) : Prop where
  frame : ∃ pads outputs, e' = e.write pads outputs ∧ pads.count = e.pads.count
  held (spot : Spot) (slot : Slot) : e'.held spot slot = e.held spot slot
  taken (spot : Spot) (slot : Slot) :
    e'.Taken spot slot ↔ e.Taken spot slot ∨ e.Drives m spot ∧ claimed = some slot
  fresh (spot : Spot) (slot : Slot) : claimed = some slot → e.Drives m spot → ¬ e.Taken spot slot
  outputs (c : Control) : (e.outputs[c]?).isSome → (e'.outputs[c]?).isSome
  present (kind : OutputKind) : (e.descriptor m.target).cell = .output kind →
    (e'.outputs[m.target]?).isSome

/-- A mapping that finds no slot on the pads, or needs none, changes nothing. -/
theorem Claims.nothing (e : Engine) {m : Mapping}
    (hcell : ∀ kind, (e.descriptor m.target).cell ≠ .output kind) : Claims e e m none := by
  constructor
  · exact ⟨e.pads, e.outputs, rfl, rfl⟩
  · exact fun _ _ => rfl
  · simp
  · simp
  · exact fun _ h => h
  · exact fun kind hkind => absurd hkind (hcell kind)

theorem Claims.pad (e : Engine) {m : Mapping} {cell : PadCell} {slot : Slot}
    (hcell : (e.descriptor m.target).cell = .pad cell)
    (hfree : (e.pads.owned (e.slotUsers m.targetUser) cell).lowestFree? = some slot) :
    Claims e (e.write (e.pads.claim (e.slotUsers m.targetUser) cell slot) e.outputs) m
      (some slot) := by
  -- None of the users has the slot taken at any place of the cell.
  have hnone := Mask.has_lowestFree hfree
  rw [← Bool.not_eq_true, PadBank.has_owned] at hnone
  have hdrives : ∀ user place, e.Drives m (.pad user place) ↔
      place ∈ cell.places ∧ user ∈ e.slotUsers m.targetUser :=
    fun _ _ => Descriptor.covers_pad hcell
  have hnot : ∀ c, ¬ e.Drives m (.output c) := Descriptor.not_covers_output hcell
  constructor
  · exact ⟨_, e.outputs, rfl, PadBank.count_claim _ _ _ _⟩
  · intro spot other
    cases spot with
    | pad user place => exact PadBank.held_claim _ _ _ _ _ _ _
    | output c => rfl
  · intro spot other
    cases spot with
    | pad user place =>
      refine (PadBank.taken_claim e.pads _ cell slot user place other).trans ?_
      rw [hdrives, Option.some.injEq, @and_comm (place ∈ cell.places)]
      rfl
    | output c =>
      simp only [hnot, false_and, or_false]
      rfl
  · intro spot other hsame hdrives'
    obtain rfl := Option.some.inj hsame
    cases spot with
    | pad user place =>
      obtain ⟨hplace, huser⟩ := (hdrives user place).mp hdrives'
      exact fun htaken => hnone ⟨user, huser, place, hplace, htaken⟩
    | output c => exact absurd hdrives' (hnot c)
  · exact fun _ h => h
  · intro kind hkind
    rw [hcell] at hkind
    contradiction

/-- A cell of an output, with one more slot taken or none. -/
theorem Claims.output (e : Engine) {m : Mapping} {kind : OutputKind} {before after : ButtonCell}
    {claimed : Option Slot} (hcell : (e.descriptor m.target).cell = .output kind)
    (hbefore : (e.outputs[m.target]?).getD {} = before)
    (hheld : ∀ slot, after.held slot = before.held slot)
    (hafter : ∀ slot : Slot, after.owned.has slot = true ↔
      before.owned.has slot = true ∨ claimed = some slot)
    (hfree : ∀ slot : Slot, claimed = some slot → before.owned.has slot = false) :
    Claims e (e.write e.pads (e.outputs.insert m.target after)) m claimed := by
  have hdrives : ∀ c, e.Drives m (.output c) ↔ c = m.target := fun _ => Descriptor.covers_output hcell
  have hnot : ∀ user place, ¬ e.Drives m (.pad user place) := Descriptor.not_covers_pad hcell
  have hown : e.view (.output m.target) = before.map fun _ => .plain := by
    rw [← hbefore]
    rfl
  constructor
  · exact ⟨e.pads, _, rfl, rfl⟩
  -- No contribution changes, and the cell of the target has one more slot taken.
  · intro spot slot
    cases spot with
    | pad user place => rfl
    | output c =>
      unfold Engine.held
      rw [view_insert]
      by_cases hsame : c = m.target
      · subst hsame
        rw [if_pos rfl, hown, Slots.held_map, Slots.held_map, hheld]
      · rw [if_neg hsame]
  · intro spot slot
    cases spot with
    | pad user place =>
      simp only [hnot, false_and, or_false]
      rfl
    | output c =>
      unfold Taken
      rw [view_insert, hdrives]
      by_cases hsame : c = m.target
      · subst hsame
        rw [if_pos rfl, hown]
        simp only [true_and]
        exact hafter slot
      · simp [hsame]
  · intro spot slot hclaimed hdrives'
    cases spot with
    | pad user place => exact absurd hdrives' (hnot user place)
    | output c =>
      obtain rfl := (hdrives c).mp hdrives'
      unfold Taken
      rw [hown, Bool.not_eq_true]
      exact hfree slot hclaimed
  -- The cells that are there stay, and the target has one now.
  · intro c hc
    show ((e.outputs.insert m.target after)[c]?).isSome
    rw [Std.TreeMap.getElem?_insert]
    split
    · rfl
    · exact hc
  · intro _ _
    show ((e.outputs.insert m.target after)[m.target]?).isSome
    rw [Std.TreeMap.getElem?_insert_self]
    rfl

/-- **A claim** takes a slot that is free at every spot of the mapping. -/
theorem claims_claimSlot (e : Engine) (m : Mapping) :
    Claims e (e.claimSlot m).1 m (e.claimSlot m).2 := by
  unfold claimSlot
  cases hcell : (e.descriptor m.target).cell with
  | pad cell =>
    dsimp only
    cases hfree : (e.pads.owned (e.slotUsers m.targetUser) cell).lowestFree? with
    | none => exact .nothing e fun kind hkind => by simp [hcell] at hkind
    | some slot => exact .pad e hcell hfree
  | output kind =>
    dsimp only
    cases hfree : Mask.lowestFree? ((e.outputs[m.target]?).getD {}).owned with
    | none => exact .output e hcell rfl (fun _ => rfl) (by simp) (by simp)
    | some slot =>
      refine .output e hcell rfl (fun _ => rfl) (fun other => ?_) (fun other hother => ?_)
      · by_cases hsame : slot = other
        · simp [Slots.claim, Mask.has_put, hsame]
        · simp [Slots.claim, Mask.has_put, hsame, Fin.val_inj]
      · obtain rfl := Option.some.inj hother
        exact Mask.has_lowestFree hfree
  | _ => exact .nothing e fun kind hkind => by simp [hcell] at hkind

/-! ## §2 All claims -/

section

variable {e : Engine} {m : Mapping}

theorem bindings_bind (e : Engine) (m : Mapping) :
    (e.bind m).bindings = e.bindings.push { mapping := m, slot := (e.claimSlot m).2 } := by
  obtain ⟨pads, outputs, hframe, -⟩ := (claims_claimSlot e m).frame
  show (e.claimSlot m).1.bindings.push _ = _
  rw [hframe]
  rfl

/-- After a mapping has been served, a binding is one that was there already or the new one. -/
theorem getElem?_bind {id : Nat} {b : Binding} (hb : (e.bind m).bindings[id]? = some b) :
    e.bindings[id]? = some b ∨
      id = e.bindings.size ∧ b = { mapping := m, slot := (e.claimSlot m).2 } := by
  rw [bindings_bind, Array.getElem?_push] at hb
  split at hb
  · rename_i hsize
    exact .inr ⟨hsize, (Option.some.inj hb).symm⟩
  · exact .inl hb

theorem descriptor_bind (c : Control) : (e.bind m).descriptor c = e.descriptor c := by
  obtain ⟨pads, outputs, slot, hbind, -⟩ := bind_frame e m
  rw [hbind]
  rfl

theorem drives_bind {m' : Mapping} {spot : Spot} :
    (e.bind m).Drives m' spot ↔ e.Drives m' spot := by
  have husers : ∀ ref, (e.bind m).slotUsers ref = e.slotUsers ref := by
    intro ref
    obtain ⟨pads, outputs, slot, hbind, hcount⟩ := bind_frame e m
    have hsame : (e.bind m).userCount = e.userCount := by
      rw [hbind]
      exact hcount
    cases ref <;> simp [slotUsers, targetUsers, hsame]
  unfold Drives
  rw [descriptor_bind, husers]

theorem taken_bind (e : Engine) (m : Mapping) (spot : Spot) (slot : Slot) :
    (e.bind m).Taken spot slot ↔
      e.Taken spot slot ∨ e.Drives m spot ∧ (e.claimSlot m).2 = some slot :=
  (claims_claimSlot e m).taken spot slot

end

/-- Nothing is held, all latches are at rest, and every mapping that has been served has slots of
its own. -/
structure Assigned (e : Engine) : Prop where
  present : e.activeUser < e.userCount
  idle : e.timers = []
  rest (id : Nat) (b : Binding) : e.bindings[id]? = some b → b.latch = {}
  outputs (id : Nat) (b : Binding) (kind : OutputKind) : e.bindings[id]? = some b →
    (e.descriptor b.mapping.target).cell = .output kind → (e.outputs[b.mapping.target]?).isSome
  empty (spot : Spot) (slot : Slot) : e.held spot slot = none
  taken (id : Nat) (b : Binding) (spot : Spot) (slot : Slot) : e.bindings[id]? = some b →
    b.slot = some slot → e.Drives b.mapping spot → e.Taken spot slot
  apart (id id' : Nat) (b b' : Binding) (spot : Spot) (slot : Slot) :
    e.bindings[id]? = some b → e.bindings[id']? = some b' → b.slot = some slot →
    b'.slot = some slot → e.Drives b.mapping spot → e.Drives b'.mapping spot → id = id'

/-- **Serving a mapping** leaves those alone that have been served before. -/
theorem Assigned.bind {e : Engine} (he : Assigned e) (m : Mapping) : Assigned (e.bind m) := by
  have hclaims := claims_claimSlot e m
  obtain ⟨pads, outputs, hframe, hcount⟩ := hclaims.frame
  -- What was taken before is not given away again.
  have hapart : ∀ (id : Nat) (b : Binding) (spot : Spot) (slot : Slot), e.bindings[id]? = some b →
      b.slot = some slot → (e.claimSlot m).2 = some slot → e.Drives b.mapping spot →
      ¬ e.Drives m spot :=
    fun id b spot slot hb hslot hsame hdrives₁ hdrives₂ =>
      hclaims.fresh spot slot hsame hdrives₂ (he.taken id b spot slot hb hslot hdrives₁)
  constructor
  · show (e.claimSlot m).1.activeUser.val < (e.claimSlot m).1.pads.count
    rw [hframe]
    show e.activeUser.val < pads.count
    rw [hcount]
    exact he.present
  · show (e.claimSlot m).1.timers = []
    rw [hframe]
    exact he.idle
  · intro id b hb
    rcases getElem?_bind hb with hold | ⟨-, rfl⟩
    · exact he.rest id b hold
    · rfl
  · intro id b kind hb hkind
    rw [descriptor_bind] at hkind
    rcases getElem?_bind hb with hold | ⟨-, rfl⟩
    · exact hclaims.outputs _ (he.outputs id b kind hold hkind)
    · exact hclaims.present kind hkind
  · exact fun spot slot => (hclaims.held spot slot).trans (he.empty spot slot)
  · intro id b spot slot hb hslot hdrives
    rw [drives_bind] at hdrives
    refine (taken_bind e m spot slot).mpr ?_
    rcases getElem?_bind hb with hold | ⟨-, rfl⟩
    · exact .inl (he.taken id b spot slot hold hslot hdrives)
    · exact .inr ⟨hdrives, hslot⟩
  · intro id id' b b' spot slot hb hb' hslot hslot' hd hd'
    rw [drives_bind] at hd hd'
    rcases getElem?_bind hb with hold | ⟨hid, rfl⟩ <;>
      rcases getElem?_bind hb' with hold' | ⟨hid', rfl⟩
    · exact he.apart id id' b b' spot slot hold hold' hslot hslot' hd hd'
    · exact absurd hd' (hapart id b spot slot hold hslot hslot' hd)
    · exact absurd hd (hapart id' b' spot slot hold' hslot' hslot hd')
    · exact hid.trans hid'.symm

/-- Nothing is held or taken, and there are no bindings. -/
structure Vacant (e : Engine) : Prop where
  present : e.activeUser < e.userCount
  idle : e.timers = []
  unbound : e.bindings = #[]
  view (spot : Spot) : e.view spot = {}

theorem Vacant.chore {e e' : Engine} (h : Chore e e') (he : Vacant e) : Vacant e' := by
  cases h with
  | note | enable | advance => exact ⟨he.present, he.idle, he.unbound, he.view⟩
  | label user pad hcells =>
    refine ⟨he.present, he.idle, he.unbound, fun spot => ?_⟩
    rw [← he.view spot]
    cases spot with
    | pad other place => exact PadBank.view_set_sameCells e.pads hcells other place
    | output c => rfl
  | activate user huser => exact ⟨huser, he.idle, he.unbound, he.view⟩
  | remember id user =>
    refine ⟨he.present, he.idle, ?_, he.view⟩
    simp [mapLatch, mapBinding, he.unbound]

/-- Resetting the pads empties the views of every one of them. -/
theorem view_resetPads (config : Config) (t : Turn) (user : User) (place : PadCell) :
    ((resetPads config t).engine.pads.pad user).view place = {} := by
  have hmem : user ∈ List.finRange userLimit ∨ (t.engine.pads.pad user).view place = {} :=
    .inl (List.mem_finRange user)
  unfold resetPads
  -- A pad is either still to be reset or empty already.
  generalize List.finRange userLimit = users at hmem ⊢
  induction users generalizing t with
  | nil => exact hmem.resolve_left List.not_mem_nil
  | cons first rest ih =>
    apply ih
    rw [Turn.engine_updatePad]
    by_cases hsame : first.val = user.val
    · obtain rfl := Fin.ext hsame
      right
      simp [PadBank.pad, PadBank.set]
    · rcases hmem with hmem | hview
      · rcases List.mem_cons.mp hmem with rfl | hrest
        · exact absurd rfl hsame
        · exact .inl hrest
      · right
        simpa [PadBank.pad, PadBank.set, hsame] using hview

/-- Before the first mapping is served, all pads are as they are when switched on. -/
theorem vacant_reset (e : Engine) (config : Config) (time : Nat) :
    Vacant ((e.vacate config).inTurn time (resetPads config)) := by
  obtain ⟨pads, hreset, hcount⟩ := resetPads_frame config { engine := e.vacate config, time }
  refine Turn.commit_keeps Vacant.chore _ ?_
  constructor
  · rw [hreset]
    show (e.vacate config).activeUser.val < pads.count
    rw [hcount]
    show (if e.activeUser < clampUsers config.settings.users then e.activeUser else User.first).val <
      clampUsers config.settings.users
    split
    · assumption
    · exact Nat.le_max_left 1 _
  · rw [hreset]
    rfl
  · rw [hreset]
    rfl
  · intro spot
    cases spot with
    | pad user place => exact view_resetPads config _ user place
    | output c =>
      rw [hreset]
      show (((∅ : Std.TreeMap Control ButtonCell)[c]?).getD {}).map _ = _
      simp

theorem Vacant.assigned {e : Engine} (he : Vacant e) : Assigned e := by
  have hnone : ∀ id : Nat, e.bindings[id]? = none := by
    rw [he.unbound]
    exact fun _ => rfl
  constructor
  · exact he.present
  · exact he.idle
  · simp [hnone]
  · simp [hnone]
  · intro spot slot
    unfold held
    rw [he.view]
    exact Slots.held_default slot
  · simp [hnone]
  · simp [hnone]

/-- **The induction over an installation.** What holds before the first mapping is served, and is kept
by serving one, holds after the installation. -/
theorem install_keeps {P : Engine → Prop} (hvacant : ∀ {e : Engine}, Vacant e → P e)
    (hbind : ∀ {e : Engine} (m : Mapping), P e → P (e.bind m)) (e : Engine) (config : Config)
    (time : Nat) : P (e.install config time) := by
  unfold install
  have hstart := hvacant (vacant_reset e config time)
  generalize (e.vacate config).inTurn time (resetPads config) = start at hstart ⊢
  generalize config.mappings = mappings
  induction mappings generalizing start with
  | nil => exact hstart
  | cons m rest ih => exact ih (start.bind m) (hbind m hstart)

/-- **After an installation every mapping has slots of its own.** -/
theorem assigned_install (e : Engine) (config : Config) (time : Nat) :
    Assigned (e.install config time) :=
  install_keeps Vacant.assigned (fun m he => he.bind m) e config time

/-- So no output is pressed. -/
theorem pressed_install {e : Engine} {config : Config} {time : Nat} {c : Control} {cell : ButtonCell}
    (hcell : (e.install config time).outputs[c]? = some cell) : cell.pressed = false := by
  rw [← Bool.not_eq_true, ButtonCell.pressed_iff]
  rintro ⟨slot, hslot⟩
  have hempty := (assigned_install e config time).empty (.output c) slot
  simp only [held, view, hcell, Option.getD_some, Slots.held_map, Option.map_eq_none_iff] at hempty
  simp [hempty] at hslot

end Engine

end VirtualPad
