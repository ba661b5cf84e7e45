import VirtualPad.Proofs.Compilation
import VirtualPad.Proofs.Deeds
import VirtualPad.Proofs.Spots
import VirtualPad.Proofs.Wiring

/-!
# What an installation fits

Installing a configuration gives slots away and sets the shapes of the sticks.  Nothing else does:
writing, releasing and committing change what the slots contribute and what the pads show, but never
whose the slots are.  So whatever is said about the owners of slots right after an installation holds
until the next one.
-/

namespace VirtualPad

/-! ## §1 Sticks keep their shape -/

namespace Stick

@[simp] theorem shape_recompute (s : Stick) : s.recompute.shape = s.shape := rfl

@[simp] theorem shape_mapSide (s : Stick) (axis : Axis) (side : Side)
    (change : StrengthCell Float → StrengthCell Float) :
    (s.mapSide axis side change).shape = s.shape := by
  cases axis <;> rfl

@[simp] theorem shape_mapParts (s : Stick) (parts : List (Axis × Side))
    (change : StrengthCell Float → StrengthCell Float) :
    (Pad.mapParts s parts change).shape = s.shape := by
  induction parts generalizing s with
  | nil => rfl
  | cons part rest ih => exact (ih _).trans (shape_mapSide s part.1 part.2 change)

@[simp] theorem shape_touched (before after : Stick) (parts : List (Axis × Side)) :
    (Pad.touched before after parts).shape = after.shape := by
  unfold Pad.touched
  rw [shape_recompute]
  split <;> rfl

end Stick

namespace Pad

/-- The same slots are given away on both pads, and their sticks have the same shapes. -/
structure SameFittings (p q : Pad) : Prop where
  owned (place : PadCell) : (p.view place).owned = (q.view place).owned
  shape (index : Fin 2) : (p.stick index).shape = (q.stick index).shape

theorem SameCells.sameFittings {p q : Pad} (h : p.SameCells q) : p.SameFittings q where
  owned place := by rw [h.view place]
  shape index := by simp only [stick, h.2.2]

theorem shape_updateStick (p : Pad) (index : Fin 2) {change : Stick → Stick}
    (hchange : ∀ s, (change s).shape = s.shape) (other : Fin 2) :
    ((p.updateStick index change).1.stick other).shape = (p.stick other).shape := by
  by_cases hsame : index.val = other.val
  · obtain rfl := Fin.ext hsame
    simpa [updateStick, stick, setStick] using hchange _
  · simp [updateStick, stick, setStick, hsame]

/-- Changing the strengths of a cell reshapes no stick. -/
theorem shape_updateStrengths (p : Pad) (cell : PadCell)
    (change : StrengthCell Float → StrengthCell Float) (other : Fin 2) :
    ((p.updateStrengths cell change).1.stick other).shape = (p.stick other).shape := by
  cases cell with
  | direction index axis side | diagonal index x y =>
    refine shape_updateStick p index (fun s => ?_) other
    exact Stick.shape_mapParts s _ _
  | _ => rfl

theorem shape_write (p : Pad) (cell : PadCell) (slot : Slot) (c : Contribution) (other : Fin 2) :
    ((p.write cell slot c).1.stick other).shape = (p.stick other).shape := by
  cases cell with
  | direction index axis side | diagonal index x y =>
    refine shape_updateStick p index (fun s => ?_) other
    exact (Stick.shape_touched _ _ _).trans (Stick.shape_mapParts s _ _)
  | stickModifier index => exact shape_updateStick p index (fun s => by rfl) other
  | rotateModifier index =>
    have hkeep : ∀ change : ModifierCell Float → ModifierCell Float,
        ((p.updateStick index fun s =>
          { s with rotateModifier := change s.rotateModifier }).1.stick other).shape =
          (p.stick other).shape :=
      fun change => shape_updateStick p index (fun s => by rfl) other
    exact hkeep fun m => ModifierCell.set m slot c.down c.strength
  | _ => rfl

/-- **Writing to a pad leaves its fittings alone.** -/
theorem Writing.sameFittings {change : Pad → Pad × Bool} (h : Writing change) (p : Pad) :
    (change p).1.SameFittings p := by
  -- What a writing does to a place is said place by place: there it changes contributions only.
  have howned : ∀ {place : PadCell} {P : Prop} [Decidable P] {view : Slots Share},
      view.owned = (p.view place).owned →
      (if P then view else p.view place).owned = (p.view place).owned := by
    intro place P _ view hview
    split
    · exact hview
    · rfl
  cases h with
  | write cell slot c =>
    exact ⟨fun place => (congrArg Slots.owned (p.view_write cell slot place c)).trans (howned rfl),
      p.shape_write cell slot c⟩
  | add cell slot amount replaces =>
    exact ⟨fun place => (congrArg Slots.owned (p.view_add cell slot place amount replaces)).trans
      (howned rfl), p.shape_updateStrengths cell _⟩
  | resetAdds cell =>
    exact ⟨fun place => (congrArg Slots.owned (p.view_resetAdds cell place)).trans (howned rfl),
      p.shape_updateStrengths cell _⟩
  | rotate stick delta clockwise =>
    exact ⟨fun place => congrArg Slots.owned (p.view_rotate place stick (delta p) clockwise),
      p.shape_updateStick stick fun _ => rfl⟩
  | releaseAll =>
    refine ⟨fun place => (congrArg Slots.owned (p.view_releaseAll place)).trans rfl, fun index => ?_⟩
    simp [Pad.releaseAll, Pad.stick, Stick.releaseAll]
  | connect => exact ⟨fun _ => rfl, fun _ => rfl⟩

end Pad

namespace Engine

/-! ## §2 The fittings of an engine -/

/-- The same slots are given away in both engines, and the sticks have the same shapes. -/
structure SameFittings (e e' : Engine) : Prop where
  owned (spot : Spot) : (e'.view spot).owned = (e.view spot).owned
  shape (user : User) (index : Fin 2) :
    ((e'.pads.pad user).stick index).shape = ((e.pads.pad user).stick index).shape

namespace SameFittings

variable {e e' e'' : Engine}

theorem refl (e : Engine) : SameFittings e e := ⟨fun _ => rfl, fun _ _ => rfl⟩

theorem trans (h : SameFittings e e') (h' : SameFittings e' e'') : SameFittings e e'' :=
  ⟨fun spot => (h'.owned spot).trans (h.owned spot),
    fun user index => (h'.shape user index).trans (h.shape user index)⟩

/-- Pads and outputs are all that matters. -/
theorem of_same (hpads : e'.pads = e.pads) (houtputs : e'.outputs = e.outputs) :
    SameFittings e e' := by
  constructor
  · intro spot
    cases spot <;> simp only [view, hpads, houtputs]
  · intro user index
    rw [hpads]

/-- A pad takes the place of one with the same fittings. -/
theorem set {user : User} {pad : Pad} (h : pad.SameFittings (e.pads.pad user)) :
    SameFittings e { e with pads := e.pads.set user pad } := by
  have hpad : ∀ other, ((e.pads.set user pad).pad other).SameFittings (e.pads.pad other) := by
    intro other
    by_cases hsame : user.val = other.val
    · obtain rfl := Fin.ext hsame
      simpa [PadBank.pad, PadBank.set] using h
    · simpa [PadBank.pad, PadBank.set, hsame] using
        (⟨fun _ => rfl, fun _ => rfl⟩ : (e.pads.pad other).SameFittings (e.pads.pad other))
  constructor
  · intro spot
    cases spot with
    | pad other place => exact (hpad other).owned place
    | output c => rfl
  · exact fun other index => (hpad other).shape index

/-- Pads that are written to keep their fittings. -/
theorem change {change : Pad → Pad × Bool} (h : Pad.Writing change) (e : Engine)
    (users : List User) : SameFittings e { e with pads := e.pads.change users change } := by
  induction users generalizing e with
  | nil => exact refl e
  | cons user rest ih =>
    exact (set (h.sameFittings _)).trans
      (ih { e with pads := e.pads.set user (change (e.pads.pad user)).1 })

/-- An output that is written to keeps its owners. -/
theorem insert {control : Control} {before : ButtonCell}
    (hbefore : e.outputs[control]? = some before) (slot : Slot) (down replaces : Bool) :
    SameFittings e (e.write e.pads
      (e.outputs.insert control (ButtonCell.set before slot down replaces))) := by
  refine ⟨fun spot => ?_, fun _ _ => rfl⟩
  cases spot with
  | pad user place => rfl
  | output c =>
    show (((e.outputs.insert control _)[c]?).getD {}).owned = ((e.outputs[c]?).getD {}).owned
    by_cases hsame : compare control c = .eq
    · obtain rfl := Std.LawfulEqOrd.eq_of_compare hsame
      rw [Std.TreeMap.getElem?_insert_self, hbefore]
      rfl
    · rw [Std.TreeMap.getElem?_insert, if_neg hsame]

theorem of_untimed (h : e'.untimed = e.untimed) : SameFittings e e' := by
  have hpads := congrArg Engine.pads h
  have houtputs := congrArg Engine.outputs h
  exact of_same hpads houtputs

theorem chore (h : Chore e e') : SameFittings e e' := by
  cases h with
  | note | enable | activate | remember | advance => exact of_same rfl rfl
  | label user pad hcells => exact set hcells.sameFittings

end SameFittings

end Engine

/-! ## §3 No deed changes them -/

theorem Turn.Step.sameFittings {t t' : Turn} (h : Turn.Step t t') :
    Engine.SameFittings t.engine t'.engine := by
  cases h with
  | latch | mark | pointer | wheel | request | resend => exact .of_same rfl rfl
  | plan id plan => exact .of_untimed (Engine.untimed_followPlan _ id plan)
  | lapse use => exact .of_untimed (Engine.untimed_lapse _ use)
  | pads users hwriting =>
    rw [engine_updatePads]
    exact .change hwriting _ users
  | @output kind target slot down replaces hkind =>
    rw [engine_writeOutput]
    split
    · exact .refl _
    · -- The cell that is put in place has the owners of the one before.
      rename_i before hbefore
      exact .insert hbefore slot down replaces

namespace Engine

theorem Errand.sameFittings {e e' : Engine} (h : Errand e e') : SameFittings e e' := by
  cases h with
  | take | forward | enable | activate | remember | pass => exact .of_same rfl rfl

/-- **No deed changes the fittings.** -/
theorem Deed.sameFittings {e e' : Engine} (h : Deed e e') : SameFittings e e' :=
  h.keeps (P := SameFittings e) (T := fun t => SameFittings e t.engine)
    (fun _ _ he => he.trans (.of_same rfl rfl)) (fun hstep ht => ht.trans hstep.sameFittings)
    (fun {t} ht => Turn.commit_keeps (fun hchore he => he.trans (.chore hchore)) t ht)
    (fun herrand he => he.trans herrand.sameFittings) (fun he => he.trans (.of_same rfl rfl))
    (.refl e)

theorem Deeds.sameFittings {e e' : Engine} (h : Deeds e e') : SameFittings e e' := by
  induction h with
  | refl => exact .refl e
  | tail _ hdeed ih => exact ih.trans hdeed.sameFittings

/-! ## §4 The layout stays -/

/-- Nor does a deed change the layout. -/
theorem Deed.layout {e e' : Engine} (h : Deed e e') : e'.layout = e.layout :=
  h.keeps (P := fun e' => e'.layout = e.layout) (T := fun t => t.engine.layout = e.layout)
    (fun _ _ he => he) (fun hstep ht => hstep.layout.trans ht)
    (fun {t} ht => Turn.commit_keeps (fun hchore he => (Chore.layout hchore).trans he) t ht)
    (fun herrand he => by
      cases herrand with
      | remember id user => exact (layout_mapLatch _ id _).trans he
      | take | forward | enable | activate | pass => exact he)
    (fun he => he) rfl

theorem Deeds.layout {e e' : Engine} (h : Deeds e e') : e'.layout = e.layout := by
  induction h with
  | refl => rfl
  | tail _ hdeed ih => exact hdeed.layout.trans ih

/-- Some binding listens to the control. -/
def Heeded (e : Engine) (c : Control) : Prop :=
  ∃ (id : Nat) (b : Binding), e.bindings[id]? = some b ∧ b.mapping.ListensTo c

/-- The board knows who listens to a control: the bindings that it is the source of, those that read it
in their conditions, and the pairs that it is a component of, if somebody listens to these. -/
structure Wired (e : Engine) : Prop where
  chain (c : Control) (id : Nat) : e.board.Lists Line.chain c id ↔
    ∃ b, e.bindings[id]? = some b ∧ b.mapping.source = c
  watchers (c : Control) (id : Nat) : e.board.Lists Line.watchers c id ↔
    ∃ b, e.bindings[id]? = some b ∧
      ∃ test ∈ Condition.testsOf b.mapping.conditions, test.control = c
  pairs (c pair : Control) : e.board.Lists Line.pairs c pair ↔
    c ∈ Switchboard.components e.vocabulary pair ∧ e.Heeded pair

theorem Heeded.congr {e e' : Engine} (hlayout : e'.layout = e.layout) {c : Control}
    (h : e.Heeded c) : e'.Heeded c :=
  h.imp fun id hb => (exists_binding_congr hlayout (fun m => m.ListensTo c) id).mpr hb

theorem Wired.congr {e e' : Engine} (he : Wired e) (hlayout : e'.layout = e.layout) : Wired e' := by
  have hvocabulary : e'.vocabulary = e.vocabulary := congrArg Layout.vocabulary hlayout
  constructor
  · intro c id
    refine (lists_congr Wiring.chain (fun _ => rfl) hlayout c id).trans ((he.chain c id).trans ?_)
    exact (exists_binding_congr hlayout (fun m => m.source = c) id).symm
  · intro c id
    refine (lists_congr Wiring.watchers (fun _ => rfl) hlayout c id).trans
      ((he.watchers c id).trans ?_)
    exact (exists_binding_congr hlayout
      (fun m => ∃ test ∈ Condition.testsOf m.conditions, test.control = c) id).symm
  · intro c pair
    refine (lists_congr Wiring.pairs (fun _ => rfl) hlayout c pair).trans ((he.pairs c pair).trans ?_)
    rw [hvocabulary]
    exact and_congr_right' ⟨.congr hlayout, .congr hlayout.symm⟩

/-- What somebody listens to has a line. -/
theorem Wired.line {e : Engine} (he : Wired e) {c : Control} (h : e.Heeded c) :
    ∃ line, e.board.line? c = some line := by
  obtain ⟨id, b, hb, hsource | hread⟩ := h
  · obtain ⟨line, hline, -⟩ := (he.chain c id).mpr ⟨b, hb, hsource⟩
    exact ⟨line, hline⟩
  · obtain ⟨line, hline, -⟩ := (he.watchers c id).mpr ⟨b, hb, hread⟩
    exact ⟨line, hline⟩

/-- What goes with a control is a pair: it is built in, and it is part of no other pair. -/
theorem Wired.of_pairs {e : Engine} (he : Wired e) {c pair : Control}
    (h : e.board.Lists Line.pairs c pair) : (e.descriptor pair).pair.isSome = true ∧
      pair.isCustom = false ∧ ∀ outer, ¬ e.board.Lists Line.pairs pair outer := by
  obtain ⟨first, second, hpair, -⟩ := Switchboard.mem_components.mp ((he.pairs c pair).mp h).1
  refine ⟨Option.isSome_of_mem hpair, e.vocabulary.builtin_of_pair hpair, fun outer houter => ?_⟩
  rw [Switchboard.pair_of_component ((he.pairs pair outer).mp houter).1] at hpair
  contradiction

theorem wired_install (e : Engine) (config : Config) (time : Nat) :
    Wired (e.install config time) := by
  have hwires := Switchboard.wires_ofMappings config.vocabulary config.mappings
  -- The bindings are those of the mappings, in the same order.
  have hbindings : ∀ (id : Nat) (P : Mapping → Prop), (∃ m, config.mappings[id]? = some m ∧ P m) ↔
      ∃ b, (e.install config time).bindings[id]? = some b ∧ P b.mapping := by
    intro id P
    constructor
    · rintro ⟨m, hm, hlistens⟩
      have hin : id < (e.install config time).bindings.size := by
        rw [size_install]
        exact (List.getElem?_eq_some_iff.mp hm).1
      have hb := Array.getElem?_eq_getElem hin
      obtain ⟨hmapping, -⟩ := install_binding hb
      obtain rfl := Option.some.inj (hm.symm.trans hmapping)
      exact ⟨_, hb, hlistens⟩
    · rintro ⟨b, hb, hlistens⟩
      exact ⟨b.mapping, (install_binding hb).1, hlistens⟩
  have hheeded : ∀ c, (∃ m ∈ config.mappings, m.ListensTo c) ↔
      (e.install config time).Heeded c := by
    intro c
    constructor
    · rintro ⟨m, hm, hlistens⟩
      obtain ⟨id, hid⟩ := List.mem_iff_getElem?.mp hm
      exact ⟨id, (hbindings id fun m => m.ListensTo c).mp ⟨m, hid, hlistens⟩⟩
    · rintro ⟨id, hb⟩
      obtain ⟨m, hid, hlistens⟩ := (hbindings id fun m => m.ListensTo c).mpr hb
      exact ⟨m, List.mem_of_getElem? hid, hlistens⟩
  constructor
  · intro c id
    rw [install_board, hwires.chain]
    exact hbindings id fun m => m.source = c
  · intro c id
    rw [install_board, hwires.watchers]
    exact hbindings id fun m => ∃ test ∈ Condition.testsOf m.conditions, test.control = c
  · intro c pair
    rw [install_board, install_vocabulary, hwires.pairs, hheeded]

/-- After an installation everything is up. -/
theorem isDown_install (e : Engine) (config : Config) (time : Nat) (c : Control) (user : Nat) :
    (e.install config time).board.isDown c user = false := by
  have hquiet := (Switchboard.wires_ofMappings config.vocabulary config.mappings).quiet
  rw [install_board]
  unfold Switchboard.isDown Switchboard.isDown?
  cases hline : (Switchboard.ofMappings config.vocabulary config.mappings).line? c with
  | none => rfl
  | some line => simp [Line.isDown, (hquiet c line hline).1]

/-- **Between any two operations the board knows its listeners.** -/
theorem Operated.wired {admits : Config → Prop} {e : Engine} (he : Operated admits e) : Wired e :=
  he.of_deeds (fun _ => wired_install _ _ 0) (fun hdeed he => he.congr hdeed.layout)
    fun _ _ _ => wired_install _ _ _

end Engine

end VirtualPad
