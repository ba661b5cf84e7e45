import Mathlib.Data.List.Chain
import VirtualPad.Proofs.Neutral

/-!
# What the host is told about a key

For every key, mouse button and custom output the host is told when it goes down and when it goes up.
Between two operations the last thing it has heard is how the cell of the output stands, and an up comes
only right after a down.  What is told within a turn waits until the turn is committed, so it is what
was told together with what waits that follows the cells step by step.

A reload throws the cells away.  By then everything has been released, so the host has heard of an up
for whatever was down.
-/

namespace VirtualPad

/-! ## §1 Edges -/

/-- The event tells the host that the control goes down or up. -/
def HostEvent.edge? (c : Control) : HostEvent → Option Bool
  | .key control down | .mouseButton control down | .custom control down =>
    if control = c then some down else none
  | .motion _ _ | .scroll _ _ | .command _ => none

/-- What the host is told about a control, in order: `true` for down and `false` for up. -/
def edges (c : Control) (events : List HostEvent) : List Bool := events.filterMap (HostEvent.edge? c)

theorem edges_append (c : Control) (events more : List HostEvent) :
    edges c (events ++ more) = edges c events ++ edges c more :=
  List.filterMap_append

/-- The control is a key of the keyboard. -/
def Control.isKey (c : Control) : Bool :=
  !c.isCustom && (Descriptor.builtin c).cell == .output .keyboard

theorem Vocabulary.isKey_of_keyboard (v : Vocabulary) {c : Control}
    (h : (v.descriptor c).cell = .output .keyboard) : c.isKey = true := by
  unfold descriptor at h
  cases hcustom : c.isCustom with
  | false =>
    rw [hcustom] at h
    simpa [Control.isKey, hcustom] using h
  | true =>
    rw [hcustom, if_pos rfl] at h
    split at h
    · rename_i custom _
      cases hkind : custom.kind <;> rw [hkind] at h <;> contradiction
    · contradiction

/-- The edges are those of an output that is down or up now.  Only keys of the keyboard are sent
again while they are down. -/
structure EdgesFollow (isKey held : Bool) (told : List Bool) : Prop where
  paired : (false :: told).IsChain fun before now => now = false → before = true
  alternate : isKey = false → (false :: told).IsChain (· ≠ ·)
  last : told.getLastD false = held

/-- A change that can be seen is one of being pressed. -/
theorem ButtonCell.differs_iff {before after : ButtonCell} :
    before.differs after = true ↔ after.pressed ≠ before.pressed := by
  unfold ButtonCell.differs
  rw [bne_iff_ne]
  exact ne_comm

namespace EdgesFollow

variable {isKey held : Bool} {told : List Bool}

/-- One more link at the end of a chain. -/
theorem isChain_snoc {R : Bool → Bool → Prop} {now : Bool}
    (h : (false :: told).IsChain R) (hlast : R (told.getLastD false) now) :
    (false :: (told ++ [now])).IsChain R := by
  have hsplit : (false :: (told ++ [now])) = (false :: told) ++ [now] := rfl
  rw [hsplit, List.isChain_append]
  refine ⟨h, List.isChain_singleton now, ?_⟩
  simpa [List.getLast?_cons] using hlast

/-- Nothing has been told, and nothing is down. -/
theorem nil (isKey : Bool) : EdgesFollow isKey false [] :=
  ⟨List.isChain_singleton _, fun _ => List.isChain_singleton _, rfl⟩

/-- **One more edge**: the output has changed, or a key that is down is sent again. -/
theorem snoc (h : EdgesFollow isKey held told) {now : Bool}
    (hnow : now ≠ held ∨ isKey = true ∧ now = true) : EdgesFollow isKey now (told ++ [now]) where
  paired := by
    refine isChain_snoc h.paired fun hup => ?_
    rw [h.last]
    rcases hnow with hchanged | ⟨-, hdown⟩
    · simpa [hup] using hchanged
    · rw [hup] at hdown
      contradiction
  alternate hkey := by
    refine isChain_snoc (h.alternate hkey) ?_
    rw [h.last]
    rcases hnow with hchanged | ⟨hkey', -⟩
    · exact Ne.symm hchanged
    · rw [hkey] at hkey'
      contradiction
  last := by simp

end EdgesFollow

/-- Cells that the host hears of. -/
def Cell.isTold : Cell → Bool
  | .output .var => false
  | .output _ => true
  | _ => false

namespace Engine

/-- The control is an output that the host hears of, and it is pressed. -/
def keyHeld (e : Engine) (c : Control) : Bool :=
  (e.descriptor c).cell.isTold && ((e.outputs[c]?).map ButtonCell.pressed).getD false

/-- What the host has been told goes with the cells. -/
def HostFollows (e : Engine) : Prop :=
  ∀ c : Control, EdgesFollow c.isKey (e.keyHeld c) (edges c e.journal.events.toList)

theorem HostFollows.congr {e e' : Engine} (he : HostFollows e)
    (hheld : ∀ c, e'.keyHeld c = e.keyHeld c)
    (hevents : ∀ c, edges c e'.journal.events.toList = edges c e.journal.events.toList) :
    HostFollows e' := by
  intro c
  rw [hheld, hevents]
  exact he c

theorem keyHeld_congr {e e' : Engine} (hvocabulary : e'.vocabulary = e.vocabulary)
    (houtputs : e'.outputs = e.outputs) (c : Control) : e'.keyHeld c = e.keyHeld c := by
  simp only [keyHeld, descriptor, hvocabulary, houtputs]

/-- Writing to an output leaves the other ones alone. -/
theorem keyHeld_insert (e : Engine) (target : Control) (cell : ButtonCell) (c : Control) :
    (e.write e.pads (e.outputs.insert target cell)).keyHeld c =
      if target = c then (e.descriptor c).cell.isTold && cell.pressed else e.keyHeld c := by
  show ((e.descriptor c).cell.isTold &&
    (((e.outputs.insert target cell)[c]?).map ButtonCell.pressed).getD false) = _
  by_cases hsame : target = c
  · subst hsame
    simp
  · have hapart : compare target c ≠ .eq := fun h => hsame (Std.LawfulEqOrd.eq_of_compare h)
    rw [Std.TreeMap.getElem?_insert, if_neg hapart, if_neg hsame]
    rfl

end Engine

namespace Turn

/-! ## §2 In the middle of a turn -/

@[simp] theorem effects_updatePad (t : Turn) (user : User) (change : Pad → Pad × Bool) :
    (t.updatePad user change).effects = t.effects := by
  simp only [updatePad]
  split
  · unfold noteChange
    split <;> rfl
  · rfl

@[simp] theorem effects_updatePads (t : Turn) (users : List User) (change : Pad → Pad × Bool) :
    (t.updatePads users change).effects = t.effects := by
  induction users generalizing t with
  | nil => rfl
  | cons user rest ih => exact (ih _).trans (effects_updatePad t user change)

/-- What the host has been told and what waits to be told go with the cells. -/
def HostFollows (t : Turn) : Prop :=
  ∀ c : Control, EdgesFollow c.isKey (t.engine.keyHeld c)
    (edges c (t.engine.journal.events.toList ++ t.effects.toList))

/-- Nothing is told, and all cells stand as before. -/
theorem HostFollows.congr {t t' : Turn} (ht : HostFollows t)
    (hheld : ∀ c, t'.engine.keyHeld c = t.engine.keyHeld c)
    (hevents : t'.engine.journal.events = t.engine.journal.events)
    (heffects : t'.effects = t.effects) : HostFollows t' := by
  intro c
  rw [hheld, hevents, heffects]
  exact ht c

/-- What becomes of timers is nothing to the host. -/
theorem HostFollows.of_untimed {t t' : Turn} (ht : HostFollows t)
    (h : t'.engine.untimed = t.engine.untimed) (heffects : t'.effects = t.effects) :
    HostFollows t' := by
  have hvocabulary := congrArg Engine.vocabulary h
  have houtputs := congrArg Engine.outputs h
  have hevents := congrArg (fun e : Engine => e.journal.events) h
  exact ht.congr (Engine.keyHeld_congr hvocabulary houtputs) hevents heffects

/-- The host is told about one control, and that is how its cell stands now. -/
theorem HostFollows.tell {t t' : Turn} (ht : HostFollows t) {target : Control} {now : Bool}
    {event : HostEvent} (hevent : ∀ c, event.edge? c = if target = c then some now else none)
    (hheld : ∀ c, t'.engine.keyHeld c = if target = c then now else t.engine.keyHeld c)
    (hevents : t'.engine.journal.events = t.engine.journal.events)
    (heffects : t'.effects = t.effects.push event)
    (hnow : now ≠ t.engine.keyHeld target ∨ target.isKey = true ∧ now = true) :
    HostFollows t' := by
  intro c
  have hedges : edges c (t'.engine.journal.events.toList ++ t'.effects.toList) =
      edges c (t.engine.journal.events.toList ++ t.effects.toList) ++
        (if target = c then [now] else []) := by
    rw [hevents, heffects, Array.toList_push, ← List.append_assoc, edges_append]
    congr 1
    show (List.filterMap (HostEvent.edge? c) [event]) = _
    rw [List.filterMap_cons, hevent]
    split <;> simp_all
  rw [hedges, hheld]
  by_cases hsame : target = c
  · subst hsame
    rw [if_pos rfl, if_pos rfl]
    exact (ht target).snoc hnow
  · rw [if_neg hsame, if_neg hsame, List.append_nil]
    exact ht c

section

variable {t : Turn} {kind : OutputKind} {target : Control} {before after : ButtonCell}

theorem keyHeld_written (hkind : (t.engine.descriptor target).cell = .output kind) (c : Control) :
    (t.mapEngine fun e => { e with outputs := e.outputs.insert target after }).engine.keyHeld c =
      if target = c then Cell.isTold (.output kind) && after.pressed else t.engine.keyHeld c := by
  refine (t.engine.keyHeld_insert target after c).trans ?_
  split
  · rename_i hsame
    rw [← hsame, hkind]
  · rfl

/-- The cell of an output is another, of which the host need not be told: it is never told of that
output, or the cell stands as before. -/
theorem HostFollows.untold (ht : HostFollows t)
    (hkind : (t.engine.descriptor target).cell = .output kind)
    (hbefore : t.engine.outputs[target]? = some before)
    (hsame : Cell.isTold (.output kind) = false ∨ ¬ before.differs after = true) :
    HostFollows (t.mapEngine fun e => { e with outputs := e.outputs.insert target after }) := by
  refine ht.congr (fun c => ?_) rfl rfl
  rw [keyHeld_written hkind]
  split
  · rename_i hc
    have hstood : t.engine.keyHeld target = (Cell.isTold (.output kind) && before.pressed) := by
      simp [Engine.keyHeld, hkind, hbefore]
    rw [← hc, hstood]
    rcases hsame with hvar | hsame
    · simp [hvar]
    · rw [ButtonCell.differs_iff, not_not] at hsame
      rw [hsame]
  · rfl

/-- The host is told how the cell stands now: it has changed, or it is a key that is sent again. -/
theorem HostFollows.told (ht : HostFollows t)
    (hkind : (t.engine.descriptor target).cell = .output kind)
    (hbefore : t.engine.outputs[target]? = some before)
    (htold : Cell.isTold (.output kind) = true) {event : HostEvent}
    (hevent : ∀ c, event.edge? c = if target = c then some after.pressed else none)
    (hnow : before.differs after = true ∨ target.isKey = true ∧ after.pressed = true) :
    HostFollows ((t.mapEngine fun e =>
      { e with outputs := e.outputs.insert target after }).tell event) := by
  refine ht.tell hevent (fun c => ?_) rfl rfl ?_
  · rw [engine_tell, keyHeld_written hkind, htold, Bool.true_and]
  · have hstood : t.engine.keyHeld target = before.pressed := by
      simp [Engine.keyHeld, hkind, hbefore, htold]
    rw [hstood]
    exact hnow.imp ButtonCell.differs_iff.mp fun hagain => hagain

/-- **Writing to an output** tells the host of every change. -/
theorem HostFollows.writeOutput (ht : HostFollows t) (slot : Slot) (down replaces : Bool)
    (hkind : (t.engine.descriptor target).cell = .output kind) :
    HostFollows (t.writeOutput kind target slot down replaces).1 := by
  unfold Turn.writeOutput
  cases hbefore : t.engine.outputs[target]? with
  | none => exact ht
  | some before =>
    dsimp only
    generalize ButtonCell.set before slot down replaces = after
    cases kind with
    | keyboard =>
      dsimp only
      split
      · rename_i hsent
        refine ht.told hkind hbefore rfl (fun _ => rfl) ?_
        rw [Bool.or_eq_true, Bool.and_eq_true] at hsent
        exact hsent.imp (fun h => h) fun h => ⟨Vocabulary.isKey_of_keyboard _ hkind, h.2⟩
      · rename_i hquiet
        exact ht.untold hkind hbefore (.inr fun hchanged => hquiet (by rw [hchanged, Bool.true_or]))
    | mouseButton =>
      dsimp only
      split
      · exact ht.told hkind hbefore rfl (fun _ => rfl) (.inl ‹_›)
      · exact ht.untold hkind hbefore (.inr ‹_›)
    | customKey =>
      dsimp only
      split
      · exact ht.told hkind hbefore rfl (fun _ => rfl) (.inl ‹_›)
      · exact ht.untold hkind hbefore (.inr ‹_›)
    | var => exact ht.untold hkind hbefore (.inl rfl)

end

/-- **Every step keeps the host following.** -/
theorem HostFollows.step {t t' : Turn} (h : Step t t') (ht : HostFollows t) : HostFollows t' := by
  cases h with
  | latch | mark | pointer | wheel | request =>
    exact ht.congr (Engine.keyHeld_congr rfl rfl) rfl rfl
  | plan id plan => exact ht.of_untimed (Engine.untimed_followPlan t.engine id plan) rfl
  | lapse use => exact ht.of_untimed (Engine.untimed_lapse t.engine use) rfl
  | pads users hwriting =>
    refine ht.congr (fun c => ?_) ?_ (effects_updatePads t users _)
    · rw [engine_updatePads]
      exact Engine.keyHeld_congr rfl rfl c
    · rw [engine_updatePads]
  | output slot down replaces hkind => exact ht.writeOutput slot down replaces hkind
  | @resend key cell hkind hcell hheld =>
    -- A key that repeats is down, and the host is told so once more.
    have hstands : t.engine.keyHeld key = true := by
      simp [Engine.keyHeld, hkind, hcell, hheld, Cell.isTold]
    refine ht.tell (fun _ => rfl) (fun c => ?_) rfl rfl
      (.inr ⟨Vocabulary.isKey_of_keyboard _ hkind, rfl⟩)
    rw [engine_tell]
    split
    · rename_i hsame
      rw [← hsame, hstands]
    · rfl

section

variable {β : Type} {part : HostEvent → Option β} (hmotion : ∀ dx dy, part (.motion dx dy) = none)
  (hscroll : ∀ dx dy, part (.scroll dx dy) = none)

include hmotion hscroll

/-- Motion that has built up is told as motion. -/
theorem filterMap_flush (r : MotionRemainder Float) (pointer wheel : Motion Float) :
    (r.flush pointer wheel).2.filterMap part = [] := by
  refine List.filterMap_eq_nil_iff.mpr fun event hevent => ?_
  unfold MotionRemainder.flush MotionRemainder.announce at hevent
  simp only [List.mem_append] at hevent
  rcases hevent with h | h
  · split at h
    · rw [List.mem_singleton.mp h, hmotion]
    · contradiction
  · split at h
    · rw [List.mem_singleton.mp h, hscroll]
    · contradiction

/-- Committing a turn tells the host what was waiting, and of motion. -/
theorem filterMap_commit (t : Turn) : t.commit.journal.events.toList.filterMap part =
    (t.engine.journal.events.toList ++ t.effects.toList).filterMap part := by
  have hpads : (t.changed.foldl (commitPad t.time) t.engine).journal.events =
      t.engine.journal.events := by
    generalize t.changed = users
    generalize t.engine = e
    induction users generalizing e with
    | nil => rfl
    | cons user rest ih => exact ih _
  unfold commit
  dsimp only
  split
  · simp only [tellHost, hpads, Array.toList_append, List.filterMap_append,
      filterMap_flush hmotion hscroll, List.append_nil]
  · simp only [tellHost, hpads, Array.toList_append]

end

/-- Motion is no edge. -/
theorem edges_commit (t : Turn) (c : Control) : edges c t.commit.journal.events.toList =
    edges c (t.engine.journal.events.toList ++ t.effects.toList) :=
  filterMap_commit (fun _ _ => rfl) (fun _ _ => rfl) t

end Turn

namespace Engine

/-! ## §3 Between two turns -/

theorem HostFollows.commit {t : Turn} (ht : t.HostFollows) : HostFollows t.commit := by
  obtain ⟨pads, queue, remainder, snapshots, events, hcommit, -⟩ := t.commit_frame
  have hheld : ∀ c, t.commit.keyHeld c = t.engine.keyHeld c := by
    rw [hcommit]
    exact keyHeld_congr rfl rfl
  intro c
  rw [hheld, Turn.edges_commit]
  exact ht c

theorem HostFollows.errand {e e' : Engine} (h : Errand e e') (he : HostFollows e) :
    HostFollows e' := by
  cases h with
  | take | enable | activate | remember | pass =>
    exact he.congr (keyHeld_congr rfl rfl) fun _ => rfl
  | @forward r hcommand =>
    refine he.congr (keyHeld_congr rfl rfl) fun c => ?_
    -- A command is no edge.
    show edges c (e.journal.events ++ #[HostEvent.command r]).toList = _
    rw [Array.toList_append, edges_append]
    exact List.append_nil _

/-- **Every deed keeps the host following.** -/
theorem HostFollows.deed {e e' : Engine} (h : Deed e e') (he : HostFollows e) : HostFollows e' := by
  refine h.keeps (P := HostFollows) (T := Turn.HostFollows) (fun {e} lastTime time he c => ?_)
    Turn.HostFollows.step HostFollows.commit HostFollows.errand
    (fun he => he.congr (keyHeld_congr rfl rfl) fun _ => rfl) he
  -- When a turn begins nothing waits to be told.
  show EdgesFollow c.isKey (e.keyHeld c) (edges c (e.journal.events.toList ++ []))
  rw [List.append_nil]
  exact he c

/-- An installation tells the host nothing. -/
theorem filterMap_events_install {β : Type} {part : HostEvent → Option β}
    (hmotion : ∀ dx dy, part (.motion dx dy) = none)
    (hscroll : ∀ dx dy, part (.scroll dx dy) = none) (e : Engine) (config : Config) (time : Nat) :
    (e.install config time).journal.events.toList.filterMap part =
      e.journal.events.toList.filterMap part := by
  have hreset := resetPads_same Turn.effects_updatePad config
  obtain ⟨pads, houtside, -⟩ := resetPads_frame config { engine := e.vacate config, time }
  obtain ⟨bindings, pads', outputs, hbind, -⟩ :=
    bindAll_frame config.mappings ((e.vacate config).inTurn time (resetPads config))
  unfold install
  rw [hbind]
  show ((e.vacate config).inTurn time (resetPads config)).journal.events.toList.filterMap part = _
  rw [inTurn, Turn.filterMap_commit hmotion hscroll, hreset, houtside]
  exact congrArg (List.filterMap part) (List.append_nil _)

theorem edges_install (e : Engine) (config : Config) (time : Nat) (c : Control) :
    edges c (e.install config time).journal.events.toList = edges c e.journal.events.toList :=
  filterMap_events_install (fun _ _ => rfl) (fun _ _ => rfl) e config time

/-- After an installation no output is pressed. -/
theorem keyHeld_install (e : Engine) (config : Config) (time : Nat) (c : Control) :
    (e.install config time).keyHeld c = false := by
  unfold keyHeld
  cases hcell : (e.install config time).outputs[c]? with
  | none => simp
  | some cell => simp [pressed_install hcell]

/-- The host follows an installation, if all it has heard of is up. -/
theorem HostFollows.install {e : Engine} (he : HostFollows e) (hup : ∀ c, e.keyHeld c = false)
    (config : Config) (time : Nat) : HostFollows (e.install config time) := by
  intro c
  rw [edges_install, keyHeld_install, ← hup c]
  exact he c

theorem Neutral.keyHeld {e : Engine} (he : Neutral e) (c : Control) : e.keyHeld c = false := by
  unfold Engine.keyHeld
  cases hcell : e.outputs[c]? with
  | none => simp
  | some cell => simp [he.outputs c cell hcell]

/-- Cancelling timers is nothing to the host. -/
theorem hostFollows_cancelTimers {e : Engine} (he : HostFollows e) (hup : ∀ c, e.keyHeld c = false) :
    HostFollows e.cancelTimers ∧ ∀ c, e.cancelTimers.keyHeld c = false := by
  unfold cancelTimers
  generalize e.timers = uses
  induction uses generalizing e with
  | nil => exact ⟨he, hup⟩
  | cons use rest ih =>
    exact ih (he.congr (keyHeld_congr rfl rfl) fun _ => rfl)
      fun c => (keyHeld_congr rfl rfl c).trans (hup c)

/-! ## §4 Between any two operations -/

/-- **Between two operations the host knows how every output stands.** -/
theorem Operated.hostFollows {e : Engine} (he : Operated Config.IsCompiled e) :
    HostFollows e := by
  refine Operated.of_deeds (P := HostFollows) (fun _ => ?_) HostFollows.deed
    (fun {e config} _ he hreleased => ?_) he
  · -- At first nothing has been told, and there is no output.
    have hnew : ∀ (pads : PadBank) c, ({ pads } : Engine).keyHeld c = false := by
      intro pads c
      simp [keyHeld]
    refine HostFollows.install (fun c => ?_) (hnew _) _ 0
    rw [hnew]
    exact .nil _
  · -- Before a reload everything is released, so the host has heard of every up.
    have hup := (neutral_releaseAll he.releasable e.lastTime).keyHeld
    obtain ⟨hfreed, hup⟩ := hostFollows_cancelTimers hreleased hup
    exact hfreed.install hup config e.lastTime

/-- Right after a reload no output is pressed. -/
theorem keyHeld_reload {e : Engine} (he : Measured e) (config : Config) (c : Control) :
    (e.reload config).keyHeld c = false := by
  rw [reload_eq_reinstall he]
  exact keyHeld_install _ config _ c

/-- What the host has been told, control by control. -/
structure HostInStep (e : Engine) : Prop where
  /-- An up comes only right after a down. -/
  paired (c : Control) : (false :: edges c e.journal.events.toList).IsChain
    fun before now => now = false → before = true
  /-- What is no key of the keyboard goes down and up by turns. -/
  alternate (c : Control) : c.isKey = false →
    (false :: edges c e.journal.events.toList).IsChain (· ≠ ·)
  /-- The last that was told is how the cell stands.  Without a cell the control counts as up. -/
  last (c : Control) : (edges c e.journal.events.toList).getLastD false = true ↔
    (e.descriptor c).cell.isTold = true ∧ ∃ cell, e.outputs[c]? = some cell ∧ cell.pressed = true
  /-- So a control is down as long as some binding to it is on. -/
  holders (c : Control) : (edges c e.journal.events.toList).getLastD false = true ↔
    (e.descriptor c).cell.isTold = true ∧ ∃ (id : Nat) (b : Binding), e.bindings[id]? = some b ∧
      b.slot.isSome = true ∧ b.mapping.target = c ∧ b.IsOn

/-- **The host is told of every output in step with its cell**, and after a reload nothing is left
down. -/
theorem host_in_step {e : Engine} (he : Operated Config.IsCompiled e) :
    HostInStep e ∧ ∀ config : Config, config.IsCompiled → ∀ c,
      (edges c (e.reload config).journal.events.toList).getLastD false = false := by
  have hfollows := he.hostFollows
  have hlast : ∀ c, (edges c e.journal.events.toList).getLastD false = true ↔
      (e.descriptor c).cell.isTold = true ∧ ∃ cell, e.outputs[c]? = some cell ∧ cell.pressed = true := by
    intro c
    rw [(hfollows c).last, keyHeld, Bool.and_eq_true]
    cases e.outputs[c]? <;> simp
  have hmirrors := he.mirrored.mirrors
  have hadds := he.releasable.adds
  refine ⟨⟨fun c => (hfollows c).paired, fun c => (hfollows c).alternate, hlast, fun c => ?_⟩, ?_⟩
  · rw [hlast]
    -- A cell is pressed just if some binding that drives it is on.
    refine and_congr_right fun htold => ?_
    constructor
    · rintro ⟨cell, hcell, hpressed⟩
      obtain ⟨id, b, kind, hb, hslot, htarget, -, hon⟩ :=
        (hmirrors.outputs_pressed hadds hcell).mp hpressed
      exact ⟨id, b, hb, hslot, htarget, hon⟩
    · rintro ⟨id, b, hb, hslot, rfl, hon⟩
      obtain ⟨kind, hkind⟩ : ∃ kind, (e.descriptor b.mapping.target).cell = .output kind := by
        unfold Cell.isTold at htold
        split at htold
        · contradiction
        · exact ⟨_, ‹_›⟩
        · contradiction
      have hpresent := (hmirrors.keeping id b hb).present kind hkind
      obtain ⟨cell, hcell⟩ := Option.isSome_iff_exists.mp hpresent
      exact ⟨cell, hcell, (hmirrors.outputs_pressed hadds hcell).mpr
        ⟨id, b, kind, hb, hslot, rfl, hkind, hon⟩⟩
  · intro config hconfig c
    have hreload : (Call.reload config).Admitted Config.IsCompiled := hconfig
    have hafter := (Operated.call hreload he).hostFollows c
    exact hafter.last.trans (keyHeld_reload he.measured config c)

/-- The key A holds the key B and the left mouse button. -/
def clickingConfig : ConfigFile :=
  { mappings := [{ source := "A", target := "B" }, { source := "A", target := "LButton" }] }

/-- The engine after A has been pressed and released, and pressed again. -/
def clicking : Engine :=
  ((((ofConfig clickingConfig.compile).after (.input ⟨0x41⟩ 0 true 1 0)).after
    (.input ⟨0x41⟩ 0 false 1 1)).after (.input ⟨0x41⟩ 0 true 1 2))

/-- What the host has been told of the two is in step with their cells. -/
theorem host_in_step_clicking : Reachable Config.IsCompiled clicking ∧
    edges ⟨0x42⟩ clicking.journal.events.toList = [true, false, true] ∧
    edges ⟨0x101⟩ clicking.journal.events.toList = [true, false, true] ∧
    HostInStep clicking ∧ ∀ config : Config, config.IsCompiled → ∀ c,
      (edges c (clicking.reload config).journal.events.toList).getLastD false = false := by
  have hreachable : Reachable Config.IsCompiled clicking :=
    (((Reachable.compiled _).input ..).input ..).input ..
  have htold : (edges ⟨0x42⟩ clicking.journal.events.toList,
      edges ⟨0x101⟩ clicking.journal.events.toList) = ([true, false, true], [true, false, true]) := by
    decide +kernel
  obtain ⟨hkey, hbutton⟩ := Prod.mk.inj htold
  exact ⟨hreachable, hkey, hbutton, host_in_step hreachable.operated⟩

end Engine

end VirtualPad
