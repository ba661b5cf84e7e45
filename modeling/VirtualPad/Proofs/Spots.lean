import VirtualPad.Proofs.Contributions

/-!
# Where the mappings write

A *spot* is a place of a user's pad or an output.  A mapping drives some spots, and there it has a
slot of its own.  Whatever one binding does, it does in its own slot of the spots that it drives:
nothing else changes, except that what was built up somewhere may be cleared.  `Engine.Alone` says
this of two engines, and there is one lemma for each operation.
-/

namespace VirtualPad

/-- Where mappings write. -/
inductive Spot where
  | pad (user : User) (place : PadCell)
  | output (control : Control)
  deriving DecidableEq, Repr

/-- How a mapping contributes to a spot, if it does. -/
def Spot.share (adds : Bool) : Spot → Share
  | .pad _ place => if adds && place.isStrength then .builtUp else .plain
  | .output _ => .plain

theorem Spot.share_false (spot : Spot) : spot.share false = .plain := by
  cases spot <;> rfl

/-- The target stands for a spot, on the pads of some users. -/
def Descriptor.Covers (target : Descriptor) (control : Control) (users : List User) : Spot → Prop
  | .pad user place => (∃ cell, target.cell = .pad cell ∧ place ∈ cell.places) ∧ user ∈ users
  | .output other => (∃ kind, target.cell = .output kind) ∧ other = control

section

variable {target : Descriptor} {control : Control} {users : List User} {cell : PadCell}
  {kind : OutputKind}

theorem Descriptor.covers_pad (hcell : target.cell = .pad cell) {user : User} {place : PadCell} :
    target.Covers control users (.pad user place) ↔ place ∈ cell.places ∧ user ∈ users := by
  simp [Covers, hcell]

theorem Descriptor.not_covers_output (hcell : target.cell = .pad cell) (other : Control) :
    ¬ target.Covers control users (.output other) := by
  simp [Covers, hcell]

theorem Descriptor.covers_output (hcell : target.cell = .output kind) {other : Control} :
    target.Covers control users (.output other) ↔ other = control := by
  simp [Covers, hcell]

theorem Descriptor.not_covers_pad (hcell : target.cell = .output kind) (user : User)
    (place : PadCell) : ¬ target.Covers control users (.pad user place) := by
  simp [Covers, hcell]

end

theorem Descriptor.padCell?_eq_some_iff {target : Descriptor} {cell : PadCell} :
    target.padCell? = some cell ↔ target.cell = .pad cell := by
  unfold padCell?
  cases target.cell <;> simp

/-- With more users a target covers more. -/
theorem Descriptor.Covers.mono {target : Descriptor} {control : Control} {users users' : List User}
    {spot : Spot} (h : target.Covers control users spot) (husers : ∀ u ∈ users, u ∈ users') :
    target.Covers control users' spot := by
  cases spot with
  | pad user place => exact ⟨h.1, husers user h.2⟩
  | output other => exact h

/-- A target that covers a spot has slots. -/
theorem Descriptor.Covers.needsSlot {target : Descriptor} {control : Control} {users : List User}
    {spot : Spot} (h : target.Covers control users spot) : target.needsSlot = true := by
  cases spot with
  | pad user place =>
    obtain ⟨⟨cell, hcell, -⟩, -⟩ := h
    simp [Descriptor.needsSlot, hcell]
  | output other =>
    obtain ⟨⟨kind, hcell⟩, -⟩ := h
    simp [Descriptor.needsSlot, hcell]

namespace Engine

/-- The slots of a spot. -/
def view (e : Engine) : Spot → Slots Share
  | .pad user place => (e.pads.pad user).view place
  | .output control => ((e.outputs[control]?).getD {}).map fun _ => .plain

/-- What a slot of a spot contributes. -/
def held (e : Engine) (spot : Spot) (slot : Slot) : Option Share := (e.view spot).held slot

/-- The mapping drives the spot. -/
def Drives (e : Engine) (m : Mapping) (spot : Spot) : Prop :=
  (e.descriptor m.target).Covers m.target (e.slotUsers m.targetUser) spot

/-- The binding writes to the spot at present. -/
def Touches (e : Engine) (b : Binding) (spot : Spot) : Prop :=
  (e.descriptor b.mapping.target).Covers b.mapping.target b.latch.applied spot

variable {e e' : Engine}

/-- The number of users that a target means does not hang on who is active. -/
theorem length_targetUsers_congr (hlayout : e'.layout = e.layout) (ref : UserRef) :
    (e'.targetUsers ref).length = (e.targetUsers ref).length := by
  cases ref with
  | index user => rfl
  | active => rfl
  | everyone =>
    have hcount : e'.userCount = e.userCount := congrArg Layout.users hlayout
    unfold targetUsers
    rw [hcount]

theorem slotUsers_congr (hlayout : e'.layout = e.layout) (ref : UserRef) :
    e'.slotUsers ref = e.slotUsers ref := by
  have hcount : e'.userCount = e.userCount := congrArg Layout.users hlayout
  cases ref <;> simp [slotUsers, targetUsers, hcount]

theorem drives_congr (hlayout : e'.layout = e.layout) (m : Mapping) (spot : Spot) :
    e'.Drives m spot ↔ e.Drives m spot := by
  unfold Drives
  rw [descriptor_congr hlayout, slotUsers_congr hlayout]

theorem touches_congr (hlayout : e'.layout = e.layout) (b : Binding) (spot : Spot) :
    e'.Touches b spot ↔ e.Touches b spot := by
  unfold Touches
  rw [descriptor_congr hlayout]

/-- Whoever is active has a slot where everyone has one. -/
theorem targetUsers_subset_slotUsers (hactive : e.activeUser < e.userCount) (ref : UserRef) :
    ∀ user ∈ e.targetUsers ref, user ∈ e.slotUsers ref := by
  intro user huser
  cases ref with
  | index other => exact huser
  | everyone => exact huser
  | active =>
    obtain rfl := List.mem_singleton.mp huser
    simpa [slotUsers, targetUsers] using hactive

/-! ## §1 What writing does to the views -/

/-- What one sees of a pad after some users' pads were changed alike, if what the change makes of it goes
by what was seen before.  A user may be listed twice. -/
theorem seen_change {β : Type} (seen : Pad → β) (b : PadBank) (users : List User)
    {change : Pad → Pad × Bool} {f : β → β} (hchange : ∀ p, seen (change p).1 = f (seen p))
    (htwice : ∀ x, f (f x) = f x) (user : User) :
    seen ((b.change users change).pad user) =
      if users.contains user then f (seen (b.pad user)) else seen (b.pad user) := by
  induction users generalizing b with
  | nil => simp [PadBank.change]
  | cons first rest ih =>
    have hstep : b.change (first :: rest) change =
        (b.set first (change (b.pad first)).1).change rest change := rfl
    rw [hstep, ih]
    have hpad : seen ((b.set first (change (b.pad first)).1).pad user) =
        if user = first then f (seen (b.pad user)) else seen (b.pad user) := by
      by_cases hsame : user = first
      · subst hsame
        simp [PadBank.pad, PadBank.set, hchange]
      · have hne : first.val ≠ user.val := fun h => hsame (Fin.ext h.symm)
        simp [PadBank.pad, PadBank.set, hne, hsame]
    rw [hpad]
    by_cases hsame : user = first
    · simp [hsame, htwice]
    · simp [hsame]

/-- A change made to the pads of several users, in a slot where making it twice is making it once. -/
theorem held_change (b : PadBank) (users : List User) {change : Pad → Pad × Bool} {place : PadCell}
    {slot : Slot} {f : Option Share → Option Share}
    (hchange : ∀ p : Pad, ((change p).1.view place).held slot = f ((p.view place).held slot))
    (htwice : ∀ x, f (f x) = f x) (user : User) :
    (((b.change users change).pad user).view place).held slot =
      if users.contains user then f (((b.pad user).view place).held slot)
      else ((b.pad user).view place).held slot :=
  seen_change (fun p => (p.view place).held slot) b users hchange htwice user

/-- Pads that are written to several users, as the engine sees it. -/
theorem held_updatePads (t : Turn) (users : List User) (change : Pad → Pad × Bool) (spot : Spot)
    (slot : Slot) {f : PadCell → Option Share → Option Share}
    (hchange : ∀ (p : Pad) place,
      ((change p).1.view place).held slot = f place ((p.view place).held slot))
    (htwice : ∀ place x, f place (f place x) = f place x) :
    (t.updatePads users change).engine.held spot slot =
      match spot with
      | .pad user place =>
        if users.contains user then f place (t.engine.held spot slot) else t.engine.held spot slot
      | .output _ => t.engine.held spot slot := by
  rw [Turn.engine_updatePads]
  cases spot with
  | pad user place => exact held_change _ users (fun p => hchange p place) (htwice place) user
  | output control => rfl

/-- One cell of the outputs is another, and the others are as they were. -/
theorem view_insert (e : Engine) (control : Control) (cell : ButtonCell) (c : Control) :
    (e.write e.pads (e.outputs.insert control cell)).view (.output c) =
      if c = control then cell.map fun _ => .plain else e.view (.output c) := by
  show (((e.outputs.insert control cell)[c]?).getD {}).map _ = _
  simp only [Std.TreeMap.getElem?_insert, Std.LawfulEqCmp.compare_eq_iff_eq, eq_comm (a := c)]
  split <;> rfl

theorem held_insert (e : Engine) {control : Control} {before : ButtonCell}
    (hbefore : e.outputs[control]? = some before) (slot : Slot) (down replaces : Bool) (spot : Spot)
    (other : Slot) :
    (e.write e.pads (e.outputs.insert control
        (ButtonCell.set before slot down replaces))).held spot other =
      if spot = .output control ∧ slot = other then (if down then some .plain else none)
      else e.held spot other := by
  cases spot with
  | pad user place => simp [held, view, write]
  | output c =>
    unfold held
    rw [view_insert]
    by_cases hsame : c = control
    · subst hsame
      simp only [view, if_true, hbefore, Option.getD_some, Slots.held_map, ButtonCell.set,
        Slots.held_put]
      cases down <;> split <;> simp_all
    · simp [hsame]

end Engine

/-! ## §2 What the operations of a turn do to the views -/

namespace Turn

open Engine (Drives Touches)

variable (t : Turn) {id : Nat} {b : Binding}

/-- Writing to a part of a pad puts the contribution into the slot, at the spots that the target
covers. -/
theorem held_writePads {target : Descriptor} {cell : PadCell} (hcell : target.cell = .pad cell)
    (control : Control) (users : List User) (own : Slot) (c : Pad.Contribution) (spot : Spot)
    (slot : Slot) :
    (own = slot → target.Covers control users spot →
      (t.updatePads users fun pad => pad.write cell own c).engine.held spot slot =
        if c.down then some (spot.share c.adds) else none) ∧
    (¬ (own = slot ∧ target.Covers control users spot) →
      (t.updatePads users fun pad => pad.write cell own c).engine.held spot slot =
        t.engine.held spot slot) := by
  have hheld := Engine.held_updatePads t users (fun pad => pad.write cell own c) spot slot
    (f := fun place x => if place ∈ cell.places ∧ own = slot then
      (if c.down then some (if c.adds && place.isStrength then .builtUp else .plain) else none) else x)
    (fun p place => by
      rw [Pad.view_write]
      by_cases hmem : place ∈ cell.places
      · simp [hmem, Slots.held_put, Pad.Contribution.share]
      · simp [hmem])
    (fun place x => by split <;> simp_all)
  rw [hheld]
  cases spot with
  | pad user place =>
    rw [Descriptor.covers_pad hcell]
    dsimp only
    constructor
    · rintro rfl ⟨hplace, huser⟩
      simp [hplace, huser, Spot.share]
    · intro hnot
      by_cases huser : user ∈ users
      · rw [if_pos (List.contains_iff_mem.mpr huser), if_neg]
        rintro ⟨hplace, hown⟩
        exact hnot ⟨hown, hplace, huser⟩
      · rw [if_neg fun h => huser (List.contains_iff_mem.mp h)]
  | output other => simp [Descriptor.not_covers_output hcell]

/-- So does writing to an output. -/
theorem held_writeOutput {target : Descriptor} {kind : OutputKind} (hcell : target.cell = .output kind)
    {control : Control} (hpresent : (t.engine.outputs[control]?).isSome) (users : List User)
    (own : Slot) (down replaces adds : Bool) (spot : Spot) (slot : Slot) :
    (own = slot → target.Covers control users spot →
      (t.writeOutput kind control own down replaces).1.engine.held spot slot =
        if down then some (spot.share adds) else none) ∧
    (¬ (own = slot ∧ target.Covers control users spot) →
      (t.writeOutput kind control own down replaces).1.engine.held spot slot =
        t.engine.held spot slot) := by
  obtain ⟨before, hbefore⟩ := Option.isSome_iff_exists.mp hpresent
  rw [engine_writeOutput, hbefore]
  dsimp only
  rw [Engine.held_insert t.engine hbefore]
  cases spot with
  | pad user place => simp [Descriptor.not_covers_pad hcell]
  | output other =>
    rw [Descriptor.covers_output hcell]
    constructor
    · rintro rfl rfl
      simp [Spot.share]
    · intro hnot
      rw [if_neg]
      rintro ⟨hsame, hown⟩
      exact hnot ⟨hown, Spot.output.inj hsame⟩

/-- **Writing a target** puts the contribution into the slot of the binding, at the spots that it
writes to at present. -/
theorem held_writeTarget (hb : t.engine.bindings[id]? = some b)
    (hpresent : ∀ kind, (t.targetOf b).cell = .output kind →
      (t.engine.outputs[b.mapping.target]?).isSome)
    (source : Descriptor) (down : Bool) (strength : Float) (spot : Spot) (slot : Slot) :
    (b.slot = some slot → t.engine.Touches b spot →
      (t.writeTarget id source (t.targetOf b) down strength).1.engine.held spot slot =
        if down then some (spot.share b.mapping.options.add) else none) ∧
    (¬ (b.slot = some slot ∧ t.engine.Touches b spot) →
      (t.writeTarget id source (t.targetOf b) down strength).1.engine.held spot slot =
        t.engine.held spot slot) := by
  have htouches : t.engine.Touches b spot ↔
      (t.targetOf b).Covers b.mapping.target b.latch.applied spot := Iff.rfl
  rw [htouches]
  unfold writeTarget
  rw [hb]
  dsimp only
  cases hcell : (t.targetOf b).cell with
  | pad cell =>
    cases hslot : b.slot with
    | none => exact ⟨fun h => by simp at h, fun _ => rfl⟩
    | some own =>
      rw [Option.some.injEq]
      exact held_writePads t hcell b.mapping.target b.latch.applied own _ spot slot
  | output kind =>
    cases hslot : b.slot with
    | none => exact ⟨fun h => by simp at h, fun _ => rfl⟩
    | some own =>
      rw [Option.some.injEq]
      exact held_writeOutput t hcell (hpresent kind hcell) b.latch.applied own down _ _ spot slot
  -- What else there is has no slots.
  | motion dx dy | wheel dx dy =>
    refine ⟨fun _ hcovers => absurd hcovers.needsSlot (by simp [Descriptor.needsSlot, hcell]), ?_⟩
    intro _
    dsimp only
    split <;> rfl
  | _ =>
    refine ⟨fun _ hcovers => absurd hcovers.needsSlot (by simp [Descriptor.needsSlot, hcell]), ?_⟩
    exact fun _ => rfl

/-- Going on adds something built up in the slot of a binding that adds, and changes nothing else. -/
theorem held_goOn (hb : t.engine.bindings[id]? = some b) (spot : Spot) (slot : Slot) :
    (t.goOn id (t.targetOf b)).engine.held spot slot = t.engine.held spot slot ∨
      (t.goOn id (t.targetOf b)).engine.held spot slot = some .builtUp ∧
        b.mapping.options.add = true ∧ b.slot = some slot ∧ t.engine.Touches b spot := by
  unfold goOn
  rw [hb]
  dsimp only
  split
  · exact .inl rfl
  · exact .inl rfl
  · rename_i cell own hcell hslot
    split
    · rename_i hadd
      -- It is built up in its own slot, wherever the target has a strength.
      have hheld := Engine.held_updatePads t b.latch.applied (fun pad => pad.add cell own
          (b.latch.strength * t.engine.settings.motionInterval.toSeconds / b.mapping.rate)
          b.mapping.options.replace)
        spot slot (f := fun place x => if (place ∈ cell.places ∧ place.isStrength = true) ∧
          own = slot then some .builtUp else x)
        (fun p place => by
          rw [Pad.view_add]
          by_cases hmem : place ∈ cell.places ∧ place.isStrength = true
          · simp [hmem, Slots.held_put]
          · simp [hmem])
        (fun place x => by split <;> simp_all)
      rw [hheld]
      cases spot with
      | output other => exact .inl rfl
      | pad user place =>
        dsimp only
        split
        · rename_i huser
          split
          · rename_i hplace
            obtain ⟨⟨hplace, -⟩, rfl⟩ := hplace
            exact .inr ⟨rfl, hadd, hslot, ⟨cell, hcell, hplace⟩, List.contains_iff_mem.mp huser⟩
          · exact .inl rfl
        · exact .inl rfl
    · exact .inl rfl
  · exact .inl rfl

/-- Turning a stick changes no contribution. -/
theorem held_turnStick (id : Nat) (target : Descriptor) (spot : Spot) (slot : Slot) :
    (t.turnStick id target).engine.held spot slot = t.engine.held spot slot := by
  unfold turnStick
  split
  · dsimp only
    rw [Engine.held_updatePads t _ _ _ _ (f := fun _ x => x) (fun p place => by rw [Pad.view_rotate])
      (fun _ _ => rfl)]
    cases spot with
    | pad user place => exact ite_self _
    | output other => rfl
  · rfl

/-- Clearing what has been built up changes nothing else, and only on the strengths that the target
covers. -/
theorem held_resetAdds {target : Descriptor} {cell : PadCell} (hcell : target.cell = .pad cell)
    (control : Control) (users : List User) (spot : Spot) (slot : Slot) :
    (t.updatePads users (·.resetAdds cell)).engine.held spot slot = t.engine.held spot slot ∨
      (t.engine.held spot slot = some .builtUp ∧
        (t.updatePads users (·.resetAdds cell)).engine.held spot slot = none) ∧
      spot.share true = .builtUp ∧ target.Covers control users spot := by
  rw [Engine.held_updatePads t _ _ _ _ (f := fun place x =>
      if place ∈ cell.places ∧ place.isStrength = true then x.filter (· = .plain) else x)
    (fun p place => by
      rw [Pad.view_resetAdds]
      split <;> simp)
    (fun place x => by split <;> simp)]
  cases spot with
  | output other => exact .inl rfl
  | pad user place =>
    dsimp only
    split
    · rename_i huser
      split
      · rename_i hplace
        rcases t.engine.held (.pad user place) slot with _ | share
        · exact .inl rfl
        · cases share with
          | plain => exact .inl rfl
          | builtUp =>
            exact .inr ⟨⟨rfl, rfl⟩, by simp [Spot.share, hplace.2],
              (Descriptor.covers_pad hcell).mpr ⟨hplace.1, List.contains_iff_mem.mp huser⟩⟩
      · exact .inl rfl
    · exact .inl rfl

/-- Coming into effect with the reset option clears what was built up in the cell, for the users of the
binding, and changes no other contribution. -/
theorem held_rise_cases (id : Nat) (m : Mapping) (target : Descriptor) (user : User) (spot : Spot)
    (slot : Slot) :
    (t.rise id m target user).engine.held spot slot = t.engine.held spot slot ∨
      (t.engine.held spot slot = some .builtUp ∧
        (t.rise id m target user).engine.held spot slot = none) ∧
      m.options.reset = true ∧ spot.share true = .builtUp ∧
        target.Covers m.target (t.engine.targetUsers m.targetUser) spot := by
  unfold rise
  dsimp only
  obtain ⟨risen, hrisen⟩ : ∃ risen, risen = t.mapLatch id fun l =>
    { l with sourceUser := user, applied := t.engine.targetUsers m.targetUser } := ⟨_, rfl⟩
  have hsame : risen.engine.held spot slot = t.engine.held spot slot := by
    rw [hrisen]
    rfl
  rw [← hrisen, ← hsame]
  split
  · rename_i cell hcell
    split
    · rename_i hreset
      exact (held_resetAdds risen (Descriptor.padCell?_eq_some_iff.mp hcell) m.target _ spot
        slot).imp_right fun ⟨hcleared, hcovers⟩ => ⟨hcleared, hreset, hcovers⟩
    · exact .inl rfl
  · exact .inl rfl

/-- Coming into effect may clear what was built up, and changes no other contribution. -/
theorem held_rise (id : Nat) (m : Mapping) (target : Descriptor) (user : User) (spot : Spot) (slot : Slot) :
    (t.rise id m target user).engine.held spot slot = t.engine.held spot slot ∨
      t.engine.held spot slot = some .builtUp ∧
        (t.rise id m target user).engine.held spot slot = none :=
  (held_rise_cases t id m target user spot slot).imp_right And.left

end Turn

end VirtualPad
