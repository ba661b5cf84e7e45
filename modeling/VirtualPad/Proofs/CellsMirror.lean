import VirtualPad.Proofs.Assignment
import VirtualPad.Proofs.Compilation
import VirtualPad.Proofs.Mirror
import VirtualPad.Proofs.Releases

/-!
# The cells mirror the bindings at every reachable engine

What is left to look at after the moves: chores, sources, forced releases, timers that go off and
installations.  A forced release of everything also empties the pads; by then no binding is in effect
any more, so there is nothing for the cells to mirror.
-/

namespace VirtualPad

/-- The binding is on: it is in effect and, if it blinks, lit. -/
def Binding.IsOn (b : Binding) : Prop :=
  b.latch.active = true ∧ (b.mapping.options.turbo = true → b.latch.lit = true)

namespace Engine

variable {e e' : Engine}

/-! ## §1 Between the moves -/

theorem Mirrors.chore (h : Chore e e') (he : Mirrors e) : Mirrors e' := by
  cases h with
  | note | enable | advance =>
    exact he.congr rfl he.present he.blinks (fun _ h => h) (fun _ _ => rfl) fun _ => rfl
  | label user pad hcells =>
    refine he.congr rfl he.present he.blinks (fun _ h => h) (fun spot slot => ?_) fun _ => rfl
    cases spot with
    | pad other place =>
      exact congrArg (fun view => Slots.held view slot)
        (PadBank.view_set_sameCells e.pads hcells other place)
    | output c => rfl
  | activate user huser =>
    exact he.congr rfl huser he.blinks (fun _ h => h) (fun _ _ => rfl) fun _ => rfl
  | remember id user =>
    have hlayout := layout_mapLatch e id fun l => { l with restoreUser := user }
    exact he.congr hlayout he.present (he.blinks.congr hlayout fun _ huse => .inl huse)
      (fun _ h => h) (fun _ _ => rfl) (latch_mapLatch_congr Latch.stake rfl)

theorem Mirrors.mark {t : Turn} (c : Control) (user : User) (down : Bool) (ht : Mirrors t.engine) :
    Mirrors (t.mark c user down).engine := by
  have hlayout := layout_setBoard t.engine c user down
  exact ht.congr hlayout ht.present (ht.blinks.congr hlayout fun _ huse => .inl huse)
    (fun _ h => h) (fun _ _ => rfl) fun _ => rfl

/-- Emptying pads takes contributions away at most. -/
theorem held_emptied (e : Engine) (users : List User) (spot : Spot) (slot : Slot) :
    (e.write (e.pads.change users Pad.releaseAll) e.outputs).held spot slot = e.held spot slot ∨
      (e.write (e.pads.change users Pad.releaseAll) e.outputs).held spot slot = none := by
  cases spot with
  | output c => exact .inl rfl
  | pad user place =>
    have hchange : (((e.pads.change users Pad.releaseAll).pad user).view place).held slot =
        if users.contains user then none else ((e.pads.pad user).view place).held slot :=
      held_change e.pads users (f := fun _ => none)
        (fun p => by rw [Pad.view_releaseAll, Slots.held_clear]) (fun _ => rfl) user
    by_cases huser : users.contains user = true
    · rw [if_pos huser] at hchange
      exact .inr hchange
    · rw [if_neg huser] at hchange
      exact .inl hchange

/-- The pads may be emptied while nothing is in effect. -/
theorem Mirrors.clear (he : Mirrors e) (hidle : ∀ id, (e.latch id).active = false)
    (users : List User) :
    Mirrors (e.write (e.pads.change users Pad.releaseAll) e.outputs) := by
  have hlayout := layout_write e e.outputs (PadBank.count_change e.pads users Pad.releaseAll)
  have hheld := held_emptied e users
  obtain ⟨e', he'⟩ : ∃ e', e.write (e.pads.change users Pad.releaseAll) e.outputs = e' := ⟨_, rfl⟩
  have hbindings : e'.bindings = e.bindings := by
    rw [← he']
    rfl
  rw [he'] at hlayout hheld ⊢
  constructor
  · constructor
    · rw [← he']
      show e.activeUser.val < (e.pads.change users Pad.releaseAll).count
      rw [PadBank.count_change]
      exact he.present
    · refine he.blinks.congr hlayout ?_
      rw [← he']
      exact fun _ huse => .inl huse
    · intro id b hb
      rw [hbindings] at hb
      refine (he.keeping id b hb).congr hlayout ?_ rfl (he.keeping id b hb).within
      rw [← he']
      exact fun _ h => h
    · exact he.apart_congr hlayout
    · intro id b spot slot hb hadd hslot hd
      rw [hbindings] at hb
      rcases hheld spot slot with hsame | hnone
      · rw [hsame]
        exact he.plain id b spot slot hb hadd hslot ((drives_congr hlayout _ _).mp hd)
      · simp [hnone]
    · intro spot slot hlive
      rcases hheld spot slot with hsame | hnone
      · rw [hsame] at hlive
        exact he.owned_congr hlayout hlive
      · exact absurd hnone hlive
  -- No binding contributes, and where that was seen before, nothing is held.
  · intro id b hb hadd spot slot hslot hd
    rw [hbindings] at hb
    have hrest := hidle id
    rw [latch_of_getElem? hb] at hrest
    have hnot : ∀ e : Engine, ¬ e.Contributes b spot := by
      rintro _ ⟨hactive, -⟩
      rw [hrest] at hactive
      contradiction
    have hempty := (he.shows id b hb hadd).held_eq_none hslot ((drives_congr hlayout _ _).mp hd)
      (hnot e)
    have hstays : e'.held spot slot = none := by
      rcases hheld spot slot with hsame | hnone
      · rw [hsame, hempty]
      · exact hnone
    simp [hstays, hnot]

/-- What a timer becomes when it goes off is nothing to the slots. -/
theorem Mirrors.lapse (he : Mirrors e) {use : TimerUse} (huse : use ∈ e.timers) :
    Mirrors (e.lapse use) := by
  refine he.of_untimed (untimed_lapse e use) ?_
  have hlayout := layout_of_untimed (untimed_lapse e use)
  unfold Engine.lapse at hlayout ⊢
  cases hkind : use.kind with
  | release =>
    rw [hkind] at hlayout
    exact he.blinks.congr hlayout fun use' huse' => .inl (List.mem_of_mem_filter huse')
  | keyRepeatDelay =>
    -- A key repeats if it does not blink.
    refine he.blinks.startTimer (fun b hb => ?_) _
    have hblinks := he.blinks use huse b hb
    simpa [hkind] using hblinks
  | turbo | repeating | rotate | keyRepeat => exact he.blinks

/-- **After an installation there is nothing to mirror**, and all mappings have slots of their
own. -/
theorem Assigned.mirrors (he : Assigned e) : Mirrors e := by
  have hnot : ∀ (id : Nat) (b : Binding) spot, e.bindings[id]? = some b → ¬ e.Contributes b spot := by
    rintro id b spot hb ⟨hactive, -⟩
    rw [he.rest id b hb] at hactive
    contradiction
  constructor
  · constructor
    · exact he.present
    · intro use huse
      rw [he.idle] at huse
      contradiction
    · intro id b hb
      refine ⟨?_, fun kind => he.outputs id b kind hb⟩
      rw [he.rest id b hb]
      exact fun user huser => absurd huser List.not_mem_nil
    · exact he.apart
    · intro id b spot slot _ _ _ _
      simp [he.empty]
    · intro spot slot hlive
      exact absurd (he.empty spot slot) hlive
  · intro id b hb _ spot slot _ _
    simp [he.empty, hnot id b spot hb]

/-! ## §2 At every reachable engine -/

/-- What the mirror needs at all times. -/
structure Mirrored (e : Engine) : Prop where
  mirrors : Mirrors e
  settled : ActiveWithin (fun _ => True) e

theorem Mirrored.move {t t' : Turn} (h : Turn.Move t t') (ht : Mirrored t.engine) :
    Mirrored t'.engine :=
  ⟨ht.mirrors.move h, ht.settled.move h⟩

theorem Mirrored.chore (h : Chore e e') (he : Mirrored e) : Mirrored e' :=
  ⟨he.mirrors.chore h, he.settled.chore h⟩

theorem Mirrored.clock (he : Mirrored e) (clock : Clock) : Mirrored { e with clock } := by
  constructor
  · exact he.mirrors.congr rfl he.mirrors.present he.mirrors.blinks (fun _ h => h) (fun _ _ => rfl)
      fun _ => rfl
  · exact he.settled.congr rfl fun _ => rfl

theorem Mirrored.feed (room : Nat) : Turn.Keeps Mirrored (Turn.feed room) :=
  Turn.feed_keeps Mirrored.move (fun {_} {c} _ user down _ ht =>
    ⟨ht.mirrors.mark c user down, ht.settled.mark c user down⟩) room

/-- Nothing is left in effect when the pads are emptied. -/
theorem Mirrored.emptied (he : Mirrored e) (time : Nat) (users : List User) :
    Mirrored (((List.range e.bindings.size).foldl forceRelease { engine := e, time }).updatePads
      users Pad.releaseAll).engine := by
  rw [Turn.engine_updatePads]
  have hreleased := he.settled.released e time
  have hmirrored := forceRelease_keeps Mirrored.move Mirrored.feed { engine := e, time }
    (List.range e.bindings.size) he
  constructor
  · refine hmirrored.mirrors.clear (fun id => ?_) _
    rw [← Bool.not_eq_true]
    exact hreleased.within id
  · exact hmirrored.settled.congr (layout_write _ _ (PadBank.count_change _ _ _)) fun _ => rfl

theorem Mirrored.forceReleaseAll (he : Mirrored e) (time : Nat) :
    Mirrored (e.forceReleaseAll time) :=
  Turn.commit_keeps Mirrored.chore _ (he.emptied time _)

/-- **The mirror is stable.** -/
theorem mirrored_stable (admits : Config → Prop) : Stable admits Mirrored where
  move := Mirrored.move
  feed := Mirrored.feed
  chore := Mirrored.chore
  force e time he := by
    have hforced := he.forceReleaseAll time
    refine ⟨hforced, ?_, hforced.settled.congr rfl fun _ => rfl⟩
    exact hforced.mirrors.congr rfl hforced.mirrors.present hforced.mirrors.blinks (fun _ h => h)
      (fun _ _ => rfl) fun _ => rfl
  lapse {_ _ _ _ clock _ _} _ huse _ he := by
    have hclock := he.clock clock
    exact ⟨hclock.mirrors.lapse (List.mem_of_find?_eq_some huse),
      hclock.settled.of_untimed (untimed_lapse _ _)⟩
  stray {_ _ _ _ clock} _ _ he := he.clock clock
  install e config time _ _ :=
    ⟨(assigned_install _ config time).mirrors, ActiveWithin.ofInstall _ config time⟩

theorem Operated.mirrored {admits : Config → Prop} (he : Operated admits e) : Mirrored e :=
  (mirrored_stable admits).operated (fun _ clock he => he.clock clock)
    (fun _ => ⟨(assigned_install _ _ 0).mirrors, ActiveWithin.ofInstall _ _ 0⟩) he

/-! ## §3 What the cells show -/

/-- The cells show which bindings are on, and for whom. -/
structure CellsMirror (e : Engine) : Prop where
  /-- On the pads where a mapping has its slot, the slot is live just where the binding is on. -/
  pads (id : Nat) (b : Binding) (slot : Slot) (cell : PadCell) (user : User) :
    e.bindings[id]? = some b → b.mapping.options.add = false → b.slot = some slot →
    (e.descriptor b.mapping.target).cell = .pad cell → user ∈ e.slotUsers b.mapping.targetUser →
    ∀ place ∈ cell.places,
      (((e.pads.pad user).view place).isLive slot = true ↔ b.IsOn ∧ user ∈ b.latch.applied)
  /-- To the other pads a mapping is never written. -/
  elsewhere (id : Nat) (b : Binding) : e.bindings[id]? = some b →
    ∀ user ∈ b.latch.applied, user ∈ e.slotUsers b.mapping.targetUser
  /-- Outputs are the same for all users. -/
  outputs (id : Nat) (b : Binding) (slot : Slot) (kind : OutputKind) :
    e.bindings[id]? = some b → b.mapping.options.add = false → b.slot = some slot →
    (e.descriptor b.mapping.target).cell = .output kind →
    ∃ cell, e.outputs[b.mapping.target]? = some cell ∧ (cell.isLive slot = true ↔ b.IsOn)
  /-- Whatever is live in a cell of a pad belongs to a mapping that has its slot there. -/
  padOwners (user : User) (place : PadCell) (slot : Slot) :
    ((e.pads.pad user).view place).isLive slot = true →
    ∃ (id : Nat) (b : Binding) (cell : PadCell), e.bindings[id]? = some b ∧ b.slot = some slot ∧
      (e.descriptor b.mapping.target).cell = .pad cell ∧ place ∈ cell.places ∧
      user ∈ e.slotUsers b.mapping.targetUser
  /-- Whatever is live in the cell of an output belongs to a mapping to that output. -/
  outputOwners (control : Control) (cell : ButtonCell) (slot : Slot) :
    e.outputs[control]? = some cell → cell.isLive slot = true →
    ∃ (id : Nat) (b : Binding), e.bindings[id]? = some b ∧ b.slot = some slot ∧
      b.mapping.target = control
  /-- A button of a pad is pressed just if some binding to it is on for that user. -/
  buttons (user : User) (index : Fin 15) :
    ButtonCell.pressed ((e.pads.pad user).button index) = true ↔
      ∃ (id : Nat) (b : Binding), e.bindings[id]? = some b ∧ b.slot.isSome = true ∧
        (e.descriptor b.mapping.target).cell = .pad (.button index) ∧ b.IsOn ∧
        user ∈ b.latch.applied

variable {id : Nat} {b : Binding} {slot : Slot} {user : User}

theorem drives_pad {m : Mapping} {cell : PadCell} {place : PadCell}
    (hcell : (e.descriptor m.target).cell = .pad cell) (hplace : place ∈ cell.places)
    (huser : user ∈ e.slotUsers m.targetUser) : e.Drives m (.pad user place) :=
  ⟨⟨cell, hcell, hplace⟩, huser⟩

theorem contributes_pad {cell : PadCell} {place : PadCell}
    (hcell : (e.descriptor b.mapping.target).cell = .pad cell) (hplace : place ∈ cell.places) :
    e.Contributes b (.pad user place) ↔ b.IsOn ∧ user ∈ b.latch.applied := by
  have htouches : e.Touches b (.pad user place) ↔ user ∈ b.latch.applied :=
    ⟨fun h => h.2, fun h => ⟨⟨cell, hcell, hplace⟩, h⟩⟩
  unfold Contributes Binding.IsOn
  rw [htouches, and_assoc]

theorem contributes_output {kind : OutputKind}
    (hcell : (e.descriptor b.mapping.target).cell = .output kind) :
    e.Contributes b (.output b.mapping.target) ↔ b.IsOn := by
  have htouches : e.Touches b (.output b.mapping.target) := ⟨⟨kind, hcell⟩, rfl⟩
  unfold Contributes Binding.IsOn
  simp [htouches]

/-- A button is pressed by what holds it, and nothing that is built up holds a button. -/
theorem Mirrors.buttons (he : Mirrors e)
    (hadds : ∀ (id : Nat) (b : Binding), e.bindings[id]? = some b → b.mapping.options.add = true →
      MappingTable.buildsUp (e.descriptor b.mapping.target) = true) (user : User) (index : Fin 15) :
    ButtonCell.pressed ((e.pads.pad user).button index) = true ↔
      ∃ (id : Nat) (b : Binding), e.bindings[id]? = some b ∧ b.slot.isSome = true ∧
        (e.descriptor b.mapping.target).cell = .pad (.button index) ∧ b.IsOn ∧
        user ∈ b.latch.applied := by
  have hlive : ∀ slot, (e.held (.pad user (.button index)) slot).isSome =
      (((e.pads.pad user).button index).held slot).isSome := by
    intro slot
    simp [held, view, Pad.view]
  -- Nothing builds up a button, so each of its slots shows whether the mapping is on.
  have hplain : ∀ (id : Nat) (b : Binding), e.bindings[id]? = some b →
      (e.descriptor b.mapping.target).cell = .pad (.button index) →
      b.mapping.options.add = false := by
    intro id b hb hcell
    rw [← Bool.not_eq_true]
    intro hadd
    have hbuilds := hadds id b hb hadd
    unfold MappingTable.buildsUp at hbuilds
    rw [hcell] at hbuilds
    contradiction
  rw [ButtonCell.pressed_iff]
  constructor
  · rintro ⟨slot, hslot⟩
    rw [← hlive] at hslot
    obtain ⟨id, b, hb, hown, hdrives⟩ := he.owned (.pad user (.button index)) slot
      (Option.isSome_iff_ne_none.mp hslot)
    obtain ⟨⟨cell, hcell, hplace⟩, huser⟩ := hdrives
    obtain rfl : cell = .button index := by
      cases cell <;> simp_all [PadCell.places]
    have hshows := he.shows id b hb (hplain id b hb hcell) _ slot hown
      (drives_pad hcell hplace huser)
    have hon := (contributes_pad hcell hplace).mp (hshows.mp hslot)
    exact ⟨id, b, hb, by rw [hown]; rfl, hcell, hon⟩
  · rintro ⟨id, b, hb, hown, hcell, hon⟩
    obtain ⟨slot, hslot⟩ := Option.isSome_iff_exists.mp hown
    have hplace : PadCell.button index ∈ (PadCell.button index).places := List.mem_singleton.mpr rfl
    have hshows := he.shows id b hb (hplain id b hb hcell) _ slot hslot
      (drives_pad hcell hplace ((he.keeping id b hb).within user hon.2))
    refine ⟨slot, ?_⟩
    rw [← hlive]
    exact hshows.mpr ((contributes_pad hcell hplace).mpr hon)

/-- **Between two calls the cells mirror the bindings.** -/
theorem cells_mirror (he : Reachable Config.IsCompiled e) : CellsMirror e := by
  have hmirrors : Mirrors e := ((mirrored_stable Config.IsCompiled).reachable (fun _ =>
    ⟨(assigned_install _ _ 0).mirrors, ActiveWithin.ofInstall _ _ 0⟩) he).mirrors
  constructor
  · intro id b slot cell user hb hadd hslot hcell huser place hplace
    have hshows := hmirrors.shows id b hb hadd (.pad user place) slot hslot
      (drives_pad hcell hplace huser)
    exact hshows.trans (contributes_pad hcell hplace)
  · exact fun id b hb => (hmirrors.keeping id b hb).within
  · intro id b slot kind hb hadd hslot hcell
    obtain ⟨cell, hpresent⟩ :=
      Option.isSome_iff_exists.mp ((hmirrors.keeping id b hb).present kind hcell)
    refine ⟨cell, hpresent, ?_⟩
    have hshows := hmirrors.shows id b hb hadd (.output b.mapping.target) slot hslot
      ⟨⟨kind, hcell⟩, rfl⟩
    rw [contributes_output hcell] at hshows
    refine Iff.trans ?_ hshows
    simp [held, view, hpresent, Slots.isLive]
  · intro user place slot hlive
    obtain ⟨id, b, hb, hslot, ⟨cell, hcell, hplace⟩, huser⟩ :=
      hmirrors.owned (.pad user place) slot (Option.isSome_iff_ne_none.mp hlive)
    exact ⟨id, b, cell, hb, hslot, hcell, hplace, huser⟩
  · intro control cell slot hcell hlive
    have hheld : e.held (.output control) slot ≠ none := by
      rw [← Option.isSome_iff_ne_none]
      simpa [held, view, hcell, Slots.isLive] using hlive
    obtain ⟨id, b, hb, hslot, -, hcontrol⟩ := hmirrors.owned _ slot hheld
    exact ⟨id, b, hb, hslot, hcontrol.symm⟩
  · exact hmirrors.buttons fun id b hb hadd => adds_of_reachable he hb hadd

/-- The keys A and C press the same button for different users. -/
def twoPads : ConfigFile :=
  { general := { users := some 2 }
    mappings := [{ source := "A", target := "PadA@1" }, { source := "C", target := "PadA@2" }] }

/-- The engine that presses the button of the second user, with C held. -/
def pressingSecond : Engine := (ofConfig twoPads.compile).after (.input ⟨0x43⟩ 0 true 1 0)

theorem reachable_pressingSecond : Reachable Config.IsCompiled pressingSecond := by
  have hpress : (Call.input ⟨0x43⟩ 0 true 1 0).Admitted Config.IsCompiled := trivial
  have hstart : Reachable Config.IsCompiled (ofConfig twoPads.compile) := .start ⟨twoPads, rfl⟩
  exact hstart.call hpress

/-- The button of the second user is pressed by the second mapping, and so is on. -/
theorem cells_mirror_pressed : Reachable Config.IsCompiled pressingSecond ∧
    ButtonCell.pressed ((pressingSecond.pads.pad 1).button 0) = true ∧
    ∃ (id : Nat) (b : Binding), pressingSecond.bindings[id]? = some b ∧ b.slot.isSome = true ∧
      (pressingSecond.descriptor b.mapping.target).cell = .pad (.button 0) ∧ b.IsOn ∧
      1 ∈ b.latch.applied := by
  have hpressed : ButtonCell.pressed ((pressingSecond.pads.pad 1).button 0) = true := by
    decide +kernel
  have hmirror := cells_mirror reachable_pressingSecond
  exact ⟨reachable_pressingSecond, hpressed, (hmirror.buttons 1 0).mp hpressed⟩

/-- Slots are counted for each pad, so on a pad where a mapping has none, its slot number may be
live although the mapping is not in effect: it belongs to another mapping there. -/
theorem slot_live_elsewhere : Reachable Config.IsCompiled pressingSecond ∧
    ¬ ∀ (id : Nat) (b : Binding) (slot : Slot) (cell : PadCell) (user : User),
      pressingSecond.bindings[id]? = some b → b.mapping.options.add = false →
      b.slot = some slot → (pressingSecond.descriptor b.mapping.target).cell = .pad cell →
      ∀ place ∈ cell.places, (((pressingSecond.pads.pad user).view place).isLive slot = true ↔
        b.IsOn ∧ user ∈ b.latch.applied) := by
  refine ⟨reachable_pressingSecond, ?_⟩
  intro hall
  have hstate : (pressingSecond.bindings[0]?.map fun b =>
      (b.mapping.options.add, b.slot, (pressingSecond.descriptor b.mapping.target).cell,
        b.latch.active)) = some (false, some 0, .pad (.button 0), false) := by
    decide +kernel
  obtain ⟨b, hb, hrest⟩ := Option.map_eq_some_iff.mp hstate
  simp only [Prod.mk.injEq] at hrest
  obtain ⟨hadd, hslot, hcell, hactive⟩ := hrest
  have hlive : ((pressingSecond.pads.pad 1).view (.button 0)).isLive 0 = true := by decide +kernel
  have hshown := (hall 0 b 0 _ 1 hb hadd hslot hcell _ (List.mem_singleton.mpr rfl)).mp hlive
  exact absurd (hshown.1.1.symm.trans hactive) (by decide)

end Engine

end VirtualPad
