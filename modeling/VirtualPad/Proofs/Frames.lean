import VirtualPad.Engine

/-!
# What the operations leave alone

Each operation of the engine touches few of its parts.  A frame lemma says which: it gives the
engine after the operation as the engine before it with those parts replaced, so that whatever is
said about any other part carries over by rewriting.

The *layout* of an engine is what installing a configuration fixes once and for all: which mapping
and slot each binding has, who listens to which control, and how many users there are.  No other
operation changes it.
-/

namespace VirtualPad

/-! ## §1 Latches -/

namespace Engine

theorem getElem?_mapLatch (e : Engine) (id : Nat) (change : Latch → Latch) (other : Nat) :
    (e.mapLatch id change).bindings[other]? =
      if id = other then e.bindings[other]?.map fun b => { b with latch := change b.latch }
      else e.bindings[other]? := by
  simp [mapLatch, mapBinding, Array.getElem?_modify]

@[simp] theorem size_mapLatch (e : Engine) (id : Nat) (change : Latch → Latch) :
    (e.mapLatch id change).bindings.size = e.bindings.size := by
  simp [mapLatch, mapBinding]

theorem latch_of_getElem? {e : Engine} {id : Nat} {b : Binding} (hb : e.bindings[id]? = some b) :
    e.latch id = b.latch := by
  simp [latch, hb]

theorem latch_of_le {e : Engine} {id : Nat} (hout : e.bindings.size ≤ id) : e.latch id = {} := by
  simp [latch, Array.getElem?_eq_none hout]

/-- Changing one latch changes no other one. -/
theorem latch_mapLatch (e : Engine) (id : Nat) (change : Latch → Latch) (other : Nat) :
    (e.mapLatch id change).latch other =
      if id = other ∧ other < e.bindings.size then change (e.latch other) else e.latch other := by
  unfold latch
  rw [getElem?_mapLatch]
  by_cases hsame : id = other
  · by_cases hin : other < e.bindings.size
    · simp [hsame, hin]
    · simp [hsame, hin]
  · simp [hsame]

/-- What a change leaves alone in one latch it leaves alone in all of them. -/
theorem latch_mapLatch_congr {β : Type} (part : Latch → β) {e : Engine} {id : Nat}
    {change : Latch → Latch} (hchange : part (change (e.latch id)) = part (e.latch id))
    (other : Nat) : part ((e.mapLatch id change).latch other) = part (e.latch other) := by
  rw [latch_mapLatch]
  split
  · rename_i hsame
    rw [← hsame.1]
    exact hchange
  · rfl

theorem mapLatch_id (e : Engine) (id : Nat) : (e.mapLatch id fun l => l) = e := by
  have hbindings : (e.bindings.modify id fun b => { b with latch := b.latch }) = e.bindings := by
    apply Array.ext
    · simp
    · intro place hleft hright
      simp [Array.getElem_modify]
  simp only [mapLatch, mapBinding, hbindings]

theorem mapLatch_mapLatch (e : Engine) (id : Nat) (first second : Latch → Latch) :
    (e.mapLatch id first).mapLatch id second = e.mapLatch id fun l => second (first l) := by
  have hbindings : (e.bindings.modify id fun b => { b with latch := first b.latch }).modify id
      (fun b => { b with latch := second b.latch }) =
      e.bindings.modify id fun b => { b with latch := second (first b.latch) } := by
    apply Array.ext
    · simp
    · intro place hleft hright
      by_cases hsame : id = place <;> simp [Array.getElem_modify, hsame]
  simp only [mapLatch, mapBinding, hbindings]

end Engine

/-! ## §2 The layout -/

/-- Who listens to a control. -/
structure Wiring where
  chain : List Nat
  watchers : List Nat
  pairs : List Control
  deriving DecidableEq

/-- Who listens to the control of a line. -/
def Line.wiring (l : Line) : Wiring := ⟨l.chain, l.watchers, l.pairs⟩

/-- What installing a configuration fixes. -/
structure Layout where
  settings : Settings
  vocabulary : Vocabulary
  /-- The mapping and the slot of each binding. -/
  rules : Array (Mapping × Option Slot)
  wiring : Control → Option Wiring
  users : Nat

/-- The layout that an engine works in. -/
def Engine.layout (e : Engine) : Layout where
  settings := e.settings
  vocabulary := e.vocabulary
  rules := e.bindings.map fun b => (b.mapping, b.slot)
  wiring c := (e.board.line? c).map Line.wiring
  users := e.pads.count

namespace Engine

variable {e e' : Engine}

theorem descriptor_congr (hlayout : e'.layout = e.layout) (c : Control) :
    e'.descriptor c = e.descriptor c := by
  have hvocabulary : e'.vocabulary = e.vocabulary := congrArg Layout.vocabulary hlayout
  simp [descriptor, hvocabulary]

theorem size_congr (hlayout : e'.layout = e.layout) : e'.bindings.size = e.bindings.size := by
  simpa [layout] using congrArg (fun l : Layout => l.rules.size) hlayout

/-- In the same layout the bindings stand for the same mappings. -/
theorem mappings_congr (hlayout : e'.layout = e.layout) :
    e'.bindings.toList.map Binding.mapping = e.bindings.toList.map Binding.mapping := by
  have hrules : ∀ e : Engine, e.bindings.toList.map Binding.mapping =
      e.layout.rules.toList.map Prod.fst := by
    intro e
    simp [layout]
  rw [hrules, hrules, hlayout]

/-- In the same layout a binding has the same mapping and the same slot. -/
theorem binding_congr (hlayout : e'.layout = e.layout) {id : Nat} {b : Binding}
    (hb : e.bindings[id]? = some b) :
    ∃ b', e'.bindings[id]? = some b' ∧ b'.mapping = b.mapping ∧ b'.slot = b.slot := by
  have hrules : e'.bindings[id]?.map (fun b => (b.mapping, b.slot)) =
      some (b.mapping, b.slot) := by
    simpa [layout, hb] using congrArg (fun l : Layout => l.rules[id]?) hlayout
  obtain ⟨b', hb', hsame⟩ := Option.map_eq_some_iff.mp hrules
  exact ⟨b', hb', congrArg Prod.fst hsame, congrArg Prod.snd hsame⟩

/-- So whatever is said of the mapping of a binding is said in every engine with the layout. -/
theorem exists_binding_congr (hlayout : e'.layout = e.layout) (P : Mapping → Prop) (id : Nat) :
    (∃ b, e'.bindings[id]? = some b ∧ P b.mapping) ↔
      ∃ b, e.bindings[id]? = some b ∧ P b.mapping := by
  have himp : ∀ {e e' : Engine}, e'.layout = e.layout → (∃ b, e.bindings[id]? = some b ∧ P b.mapping) →
      ∃ b, e'.bindings[id]? = some b ∧ P b.mapping := by
    rintro e e' hlayout ⟨b, hb, hholds⟩
    obtain ⟨b', hb', hmapping, -⟩ := binding_congr hlayout hb
    exact ⟨b', hb', hmapping ▸ hholds⟩
  exact ⟨himp hlayout.symm, himp hlayout⟩

theorem wiring_congr (hlayout : e'.layout = e.layout) (c : Control) :
    (e'.board.line? c).map Line.wiring = (e.board.line? c).map Line.wiring :=
  congrFun (congrArg Layout.wiring hlayout) c

@[simp] theorem layout_mapLatch (e : Engine) (id : Nat) (change : Latch → Latch) :
    (e.mapLatch id change).layout = e.layout := by
  have hrules : (e.mapLatch id change).bindings.map (fun b => (b.mapping, b.slot)) =
      e.bindings.map fun b => (b.mapping, b.slot) := by
    apply Array.ext
    · simp
    · intro place hleft hright
      by_cases hsame : id = place <;> simp [mapLatch, mapBinding, Array.getElem_modify, hsame]
  simp only [layout, hrules]
  rfl

/-- The engine with other pads and outputs. -/
def write (e : Engine) (pads : PadBank) (outputs : Std.TreeMap Control ButtonCell) : Engine :=
  { e with pads, outputs }

theorem layout_write (e : Engine) {pads : PadBank} (outputs : Std.TreeMap Control ButtonCell)
    (hcount : pads.count = e.pads.count) : (e.write pads outputs).layout = e.layout := by
  simp only [layout, write, hcount]

end Engine

/-! ## §3 The switchboard -/

namespace Switchboard

theorem line?_adjust (b : Switchboard) (c : Control) (change : Line → Line) (other : Control) :
    (b.adjust c change).line? other =
      if c = other then (b.line? other).map change else b.line? other := by
  by_cases hsame : c = other
  · subst hsame
    simp [line?, adjust]
  · have happart : compare c other ≠ .eq := fun h => hsame (Std.LawfulEqOrd.eq_of_compare h)
    simp [line?, adjust, Std.TreeMap.getElem?_modify, happart, hsame]

theorem line?_set (b : Switchboard) (c : Control) (user : Nat) (down : Bool) (other : Control) :
    (b.set c user down).line? other =
      if c = other then (b.line? other).map fun l => l.set user down else b.line? other :=
  line?_adjust b c _ other

/-- Pressing and releasing a control changes its own state for one user, if it has a line. -/
theorem isDown_set (b : Switchboard) (c : Control) (user : Nat) (down : Bool) (other : Control)
    (u : Nat) : (b.set c user down).isDown other u =
      if c = other ∧ user = u ∧ user < maskWidth ∧ (b.line? c).isSome then down
      else b.isDown other u := by
  unfold isDown isDown?
  rw [line?_set]
  by_cases hsame : c = other
  · subst hsame
    cases b.line? c with
    | none => simp
    | some line =>
      by_cases huser : user = u ∧ user < maskWidth
      · simp [Line.isDown, Line.set, Mask.has_put, huser.1.symm, huser.2]
      · have hnot : ¬ (user = u ∧ user < maskWidth ∧ True) := fun h => huser ⟨h.1, h.2.1⟩
        simp [Line.isDown, Line.set, Mask.has_put, huser]
  · simp [hsame]

/-- Pressing and releasing a control does not change who listens to it. -/
theorem wiring_set (b : Switchboard) (c : Control) (user : Nat) (down : Bool) (other : Control) :
    ((b.set c user down).line? other).map Line.wiring = (b.line? other).map Line.wiring := by
  rw [line?_set]
  split
  · rw [Option.map_map]
    rfl
  · rfl

end Switchboard

theorem Engine.layout_setBoard (e : Engine) (c : Control) (user : Nat) (down : Bool) :
    ({ e with board := e.board.set c user down } : Engine).layout = e.layout := by
  simp only [Engine.layout, Switchboard.wiring_set]

/-! ## §4 Writing to pads and outputs -/

namespace PadBank

/-- The pads after the same change was made to those of several users. -/
def change (b : PadBank) (users : List User) (change : Pad → Pad × Bool) : PadBank :=
  users.foldl (fun b user => b.set user (change (b.pad user)).1) b

@[simp] theorem count_change (b : PadBank) (users : List User) (f : Pad → Pad × Bool) :
    (b.change users f).count = b.count := by
  induction users generalizing b with
  | nil => rfl
  | cons user rest ih => exact ih (b.set user (f (b.pad user)).1)

end PadBank

/-- A latch without what writing to the target leaves in it. -/
def Latch.core (l : Latch) : Latch :=
  { l with strength := 0, sourceUser := User.first, applied := [] }

namespace Turn

variable (t : Turn)

@[simp] theorem engine_mapLatch (id : Nat) (change : Latch → Latch) :
    (t.mapLatch id change).engine = t.engine.mapLatch id change := rfl

@[simp] theorem engine_noteChange (user : User) : (t.noteChange user).engine = t.engine := by
  unfold noteChange
  split <;> rfl

@[simp] theorem engine_tell (event : HostEvent) : (t.tell event).engine = t.engine := rfl

theorem engine_updatePad (user : User) (change : Pad → Pad × Bool) :
    (t.updatePad user change).engine =
      { t.engine with pads := t.engine.pads.set user (change (t.engine.pads.pad user)).1 } := by
  simp only [updatePad]
  split
  · exact engine_noteChange _ user
  · rfl

/-- Writing to pads touches nothing but the pads. -/
@[simp] theorem engine_updatePads (users : List User) (change : Pad → Pad × Bool) :
    (t.updatePads users change).engine =
      { t.engine with pads := t.engine.pads.change users change } := by
  induction users generalizing t with
  | nil => rfl
  | cons user rest ih =>
    have hrest := ih (t.updatePad user change)
    rw [engine_updatePad] at hrest
    exact hrest

@[simp] theorem engine_giveCommand (id : Nat) (command : Command) (r : Response) (forced : Bool) :
    (t.giveCommand id command r forced).engine = t.engine := by
  have hrequests : ∀ (users : List User) (make : User → Request) (t : Turn),
      (users.foldl (fun t user => t.request (make user)) t).engine = t.engine := by
    intro users make
    induction users with
    | nil => intro t; rfl
    | cons user rest ih => intro t; exact ih (t.request (make user))
  unfold giveCommand
  cases t.engine.bindings[id]? with
  | none => rfl
  | some b =>
    dsimp only
    rw [apply_ite Turn.engine, hrequests]
    exact ite_self _

theorem engine_writeOutput (kind : OutputKind) (target : Control) (slot : Slot)
    (down replaces : Bool) :
    (t.writeOutput kind target slot down replaces).1.engine =
      match t.engine.outputs[target]? with
      | none => t.engine
      | some before => t.engine.write t.engine.pads
          (t.engine.outputs.insert target (ButtonCell.set before slot down replaces)) := by
  unfold writeOutput
  cases t.engine.outputs[target]? with
  | none => rfl
  | some before =>
    cases kind with
    | keyboard => simp only; split <;> rfl
    | mouseButton => simp only; split <;> rfl
    | customKey => simp only; split <;> rfl
    | var => rfl

/-- Writing to a target touches nothing but the pads and the outputs. -/
theorem writeTarget_frame (id : Nat) (source target : Descriptor) (down : Bool)
    (strength : Float) :
    ∃ pads outputs, (t.writeTarget id source target down strength).1.engine =
      t.engine.write pads outputs ∧ pads.count = t.engine.pads.count := by
  unfold writeTarget
  split
  · exact ⟨_, _, rfl, rfl⟩
  · dsimp only
    split
    · split <;> exact ⟨_, _, rfl, rfl⟩
    · split <;> exact ⟨_, _, rfl, rfl⟩
    · exact ⟨_, _, engine_updatePads t _ _, PadBank.count_change _ _ _⟩
    · rw [engine_writeOutput]
      split <;> exact ⟨_, _, rfl, rfl⟩
    · exact ⟨_, _, rfl, rfl⟩

/-- Coming into effect touches the users of the latch and the pads. -/
theorem rise_frame (id : Nat) (m : Mapping) (target : Descriptor) (user : User) :
    ∃ pads, (t.rise id m target user).engine =
      (t.engine.mapLatch id fun l =>
        { l with sourceUser := user, applied := t.engine.targetUsers m.targetUser }).write pads
        t.engine.outputs ∧
      pads.count = t.engine.pads.count := by
  unfold rise
  dsimp only
  split
  · split
    · exact ⟨_, engine_updatePads _ _ _, PadBank.count_change _ _ _⟩
    · exact ⟨_, rfl, rfl⟩
  · exact ⟨_, rfl, rfl⟩

/-- Doing what a response asks for touches nothing of a latch's core, and nothing but the pads and
the outputs besides.  The latch remembers the user when its binding comes into effect. -/
theorem perform_frame (id : Nat) (m : Mapping) (source target : Descriptor) (user : User)
    (r : Response) (forced : Bool) :
    ∃ change pads outputs, (t.perform id m source target user r forced).1.engine =
      (t.engine.mapLatch id change).write pads outputs ∧
      pads.count = t.engine.pads.count ∧ (∀ l, (change l).core = l.core) ∧
      ∀ l, (change l).sourceUser = if r.now && !r.was then user else l.sourceUser := by
  -- First the rise, which may not happen.
  have hrise : ∃ change pads, (if r.now && !r.was then t.rise id m target user else t).engine =
      (t.engine.mapLatch id change).write pads t.engine.outputs ∧ pads.count = t.engine.pads.count ∧
      (∀ l, (change l).core = l.core) ∧
      ∀ l, (change l).sourceUser = if r.now && !r.was then user else l.sourceUser := by
    split
    · obtain ⟨pads, hengine, hcount⟩ := rise_frame t id m target user
      exact ⟨_, pads, hengine, hcount, fun _ => rfl, fun _ => rfl⟩
    · refine ⟨fun l => l, t.engine.pads, ?_, rfl, fun _ => rfl, fun _ => rfl⟩
      rw [Engine.mapLatch_id]
      rfl
  obtain ⟨change, pads, hengine, hcount, hcore, huser⟩ := hrise
  unfold perform
  generalize (if r.now && !r.was then t.rise id m target user else t) = risen at hengine ⊢
  dsimp only
  split
  · rw [engine_giveCommand]
    exact ⟨change, pads, t.engine.outputs, hengine, hcount, hcore, huser⟩
  · split
    · have hstrength : ∃ change', (if r.now then
          risen.mapLatch id fun l => { l with strength := r.strength } else risen).engine =
          (t.engine.mapLatch id change').write pads t.engine.outputs ∧
          (∀ l, (change' l).core = l.core) ∧
          ∀ l, (change' l).sourceUser = if r.now && !r.was then user else l.sourceUser := by
        split
        · refine ⟨fun l => { change l with strength := r.strength }, ?_, hcore, huser⟩
          have htwice := t.engine.mapLatch_mapLatch id change fun l =>
            { l with strength := r.strength }
          rw [engine_mapLatch, hengine]
          exact congrArg (fun e : Engine => e.write pads t.engine.outputs) htwice
        · exact ⟨change, hengine, hcore, huser⟩
      obtain ⟨change', hengine', hcore', huser'⟩ := hstrength
      generalize (if r.now then
        risen.mapLatch id fun l => { l with strength := r.strength } else risen) = set at hengine' ⊢
      obtain ⟨pads', outputs', hwrite, hcount'⟩ := writeTarget_frame set id source target
        (r.now && (!m.options.turbo || (set.engine.latch id).lit)) r.strength
      refine ⟨change', pads', outputs', ?_, ?_, hcore', huser'⟩
      · rw [hwrite, hengine']
        rfl
      · rw [hcount', hengine']
        exact hcount
    · exact ⟨change, pads, t.engine.outputs, hengine, hcount, hcore, huser⟩

end Turn

/-! ## §5 Timers -/

/-- A latch without its timer. -/
def Latch.untimed (l : Latch) : Latch := { l with timer := none }

def Binding.untimed (b : Binding) : Binding := { b with latch := b.latch.untimed }

namespace Engine

/-- An engine without its timers: no latch has one, the table is empty, and the clock is new. -/
def untimed (e : Engine) : Engine :=
  { e with
    bindings := e.bindings.map Binding.untimed
    clock := {}
    timers := []
    lastToken := 0
    journal := { e.journal with requests := #[] } }

/-- Changing the timer of a latch cannot be seen without timers. -/
theorem untimed_mapLatch (e : Engine) (id : Nat) {change : Latch → Latch}
    (hchange : ∀ l, (change l).untimed = l.untimed) : (e.mapLatch id change).untimed = e.untimed := by
  have hbindings : (e.mapLatch id change).bindings.map Binding.untimed =
      e.bindings.map Binding.untimed := by
    apply Array.ext
    · simp
    · intro place hleft hright
      by_cases hsame : id = place <;>
        simp [mapLatch, mapBinding, Array.getElem_modify, Binding.untimed, hchange, hsame]
  simp only [untimed, hbindings]
  rfl

@[simp] theorem untimed_ask (e : Engine) (request : TimerRequest) :
    (e.ask request).untimed = e.untimed := rfl

@[simp] theorem untimed_forgetTimer (e : Engine) (id : Nat) (token : TimerToken) :
    (e.forgetTimer id token).untimed = e.untimed :=
  untimed_mapLatch (e.dropTimer token) id fun _ => rfl

@[simp] theorem untimed_stopTimer (e : Engine) (id : Nat) :
    (e.stopTimer id).untimed = e.untimed := by
  unfold stopTimer
  split
  · rfl
  · rw [untimed_forgetTimer, untimed_ask]

@[simp] theorem untimed_startTimer (e : Engine) (id : Nat) (kind : TimerKind)
    (request : TimerToken → TimerRequest) :
    (e.startTimer id kind request).untimed = e.untimed := by
  have hstop : (e.stopTimer id).untimed = e.untimed := untimed_stopTimer e id
  unfold startTimer
  dsimp only
  rw [untimed_mapLatch]
  · exact hstop
  · intro l
    rfl

@[simp] theorem untimed_followPlan (e : Engine) (id : Nat) (plan : TimerPlan) :
    (e.followPlan id plan).untimed = e.untimed := by
  cases plan with
  | keep => rfl
  | stop => exact untimed_stopTimer e id
  | once delay kind => exact untimed_startTimer e id kind (.once delay)
  | repeating period kind => exact untimed_startTimer e id kind (.repeating period)

@[simp] theorem untimed_lapse (e : Engine) (use : TimerUse) :
    (e.lapse use).untimed = e.untimed := by
  unfold lapse
  split <;> simp

variable {e e' : Engine}

/-- Engines that differ in their timers only are laid out alike. -/
theorem layout_of_untimed (h : e'.untimed = e.untimed) : e'.layout = e.layout := by
  have hlayout : ∀ e : Engine, e.untimed.layout = e.layout := by
    intro e
    simp [layout, untimed, Binding.untimed, Function.comp_def]
  rw [← hlayout e', ← hlayout e, h]

/-- Engines that differ in their timers only have the same latches apart from the timers. -/
theorem latch_of_untimed (h : e'.untimed = e.untimed) (id : Nat) :
    (e'.latch id).untimed = (e.latch id).untimed := by
  have hlatch : ∀ e : Engine, e.untimed.latch id = (e.latch id).untimed := by
    intro e
    cases hb : e.bindings[id]? <;> simp [latch, untimed, hb, Binding.untimed, Latch.untimed]
  rw [← hlatch e', ← hlatch e, h]

end Engine

/-! ## §6 Ticks -/

namespace Turn

variable (t : Turn)

/-- Blinking touches the phase of a latch, and nothing but the pads and the outputs besides. -/
theorem blink_frame (id : Nat) (source target : Descriptor) :
    ∃ pads outputs, (t.blink id source target).1.engine =
      (t.engine.mapLatch id fun l => { l with lit := !l.lit }).write pads outputs ∧
      pads.count = t.engine.pads.count := by
  unfold blink
  dsimp only
  split
  · exact ⟨_, _, rfl, rfl⟩
  · obtain ⟨pads, outputs, hengine, hcount⟩ := writeTarget_frame
      (t.mapLatch id fun l => { l with lit := !l.lit }) id source target _ _
    exact ⟨pads, outputs, hengine, hcount⟩

theorem goOn_frame (id : Nat) (target : Descriptor) :
    ∃ pads, (t.goOn id target).engine = t.engine.write pads t.engine.outputs ∧
      pads.count = t.engine.pads.count := by
  unfold goOn
  split
  · exact ⟨_, rfl, rfl⟩
  · dsimp only
    split
    · exact ⟨_, rfl, rfl⟩
    · exact ⟨_, rfl, rfl⟩
    · split
      · exact ⟨_, engine_updatePads _ _ _, PadBank.count_change _ _ _⟩
      · exact ⟨_, rfl, rfl⟩
    · exact ⟨_, rfl, rfl⟩

theorem turnStick_frame (id : Nat) (target : Descriptor) :
    ∃ pads, (t.turnStick id target).engine = t.engine.write pads t.engine.outputs ∧
      pads.count = t.engine.pads.count := by
  unfold turnStick
  split
  · exact ⟨_, engine_updatePads _ _ _, PadBank.count_change _ _ _⟩
  · exact ⟨_, rfl, rfl⟩

@[simp] theorem engine_repeatKey (id : Nat) (target : Descriptor) :
    (t.repeatKey id target).engine = t.engine := by
  unfold repeatKey
  split
  · rfl
  · dsimp only
    rw [apply_ite Turn.engine, engine_tell]
    exact ite_self _

end Turn

end VirtualPad
