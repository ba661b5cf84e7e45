import VirtualPad.Proofs.Deeds
import VirtualPad.Proofs.Falls
import VirtualPad.Proofs.Fittings

/-!
# What goes on beneath the keys

A binding may drive a variable, and that is a source again, so a cascade goes on below the binding.
Variables are custom controls, and no pair has one as a component.  So the cascade never gets back to a
built-in control: these move when the host says so, and pairs move with their components.  Nor does it
put a binding with a built-in source into effect.  All that can happen to one is that it is released.

The same goes for timers, for forced releases and for requests.
-/

namespace VirtualPad

/-- Whether there is anything to undo goes by the bits of a latch and its timer. -/
theorem Latch.Idle.congr {l l' : Latch} (hl : l.Idle) (hbits : l'.bits = l.bits)
    (htimer : l'.timer = l.timer) : l'.Idle where
  active := (active_of_bits hbits).trans hl.active
  rawDown := (congrArg Prod.fst hbits).trans hl.rawDown
  timer := htimer.trans hl.timer

theorem Latch.Idle.of_core {l l' : Latch} (hl : l.Idle) (hcore : l'.core = l.core) : l'.Idle := by
  have hbits := congrArg Latch.bits hcore
  have htimer := congrArg Latch.timer hcore
  exact hl.congr hbits htimer

namespace Engine

/-- All of these bindings have built-in sources. -/
def Keyed (A : Nat → Prop) (e : Engine) : Prop :=
  ∀ (id : Nat) (b : Binding), A id → e.bindings[id]? = some b → b.mapping.source.isCustom = false

/-- Those of the bindings that were idle are so still. -/
structure KeptIdle (A : Nat → Prop) (e e' : Engine) : Prop where
  layout : e'.layout = e.layout
  idle (id : Nat) : A id → (e.latch id).Idle → (e'.latch id).Idle

/-- Moreover, no built-in control has moved. -/
structure Beneath (A : Nat → Prop) (e e' : Engine) : Prop extends KeptIdle A e e' where
  line? (c : Control) : c.isCustom = false → e'.board.line? c = e.board.line? c

theorem Keyed.congr {A : Nat → Prop} {e e' : Engine} (he : Keyed A e)
    (hlayout : e'.layout = e.layout) : Keyed A e' := by
  intro id b' hid hb'
  obtain ⟨b, hb, hmapping, -⟩ := binding_congr hlayout.symm hb'
  rw [← hmapping]
  exact he id b hid hb

/-- It is so of no bindings at all. -/
theorem keyed_none (e : Engine) : Keyed (fun _ => False) e := fun _ _ h => h.elim

namespace KeptIdle

variable {A : Nat → Prop} {e e' e'' : Engine}

theorem refl (e : Engine) : KeptIdle A e e := ⟨rfl, fun _ _ h => h⟩

theorem trans (h : KeptIdle A e e') (h' : KeptIdle A e' e'') : KeptIdle A e e'' where
  layout := h'.layout.trans h.layout
  idle id hid hidle := h'.idle id hid (h.idle id hid hidle)

end KeptIdle

namespace Beneath

variable {A : Nat → Prop} {e e' e'' : Engine}

theorem refl (e : Engine) : Beneath A e e := ⟨.refl e, fun _ _ => rfl⟩

theorem trans (h : Beneath A e e') (h' : Beneath A e' e'') : Beneath A e e'' where
  toKeptIdle := h.toKeptIdle.trans h'.toKeptIdle
  line? c hc := (h'.line? c hc).trans (h.line? c hc)

theorem isDown (h : Beneath A e e') (c : Control) (user : Nat) (hc : c.isCustom = false) :
    e'.board.isDown c user = e.board.isDown c user := by
  unfold Switchboard.isDown Switchboard.isDown?
  rw [h.line? c hc]

/-- On the same board it is enough that the latches keep their bits and their timers. -/
theorem of_board (hlayout : e'.layout = e.layout) (hboard : e'.board = e.board)
    (hlatch : ∀ id, A id →
      (e'.latch id).bits = (e.latch id).bits ∧ (e'.latch id).timer = (e.latch id).timer) :
    Beneath A e e' :=
  ⟨⟨hlayout, fun id hid hidle => hidle.congr (hlatch id hid).1 (hlatch id hid).2⟩,
    fun _ _ => by rw [hboard]⟩

/-- One of the bindings may be looked at by itself. -/
theorem of_others (id : Nat) (h : Beneath (fun i => A i ∧ i ≠ id) e e')
    (hown : A id → (e.latch id).Idle → (e'.latch id).Idle) : Beneath A e e' := by
  refine ⟨⟨h.layout, fun i hi hidle => ?_⟩, h.line?⟩
  by_cases hsame : i = id
  · subst hsame
    exact hown hi hidle
  · exact h.idle i ⟨hi, hsame⟩ hidle

theorem mapLatch (id : Nat) {change : Latch → Latch}
    (hbits : (change (e.latch id)).bits = (e.latch id).bits)
    (htimer : (change (e.latch id)).timer = (e.latch id).timer) :
    Beneath A e (e.mapLatch id change) :=
  of_board (layout_mapLatch e id change) rfl fun i _ =>
    ⟨latch_mapLatch_congr Latch.bits hbits i, latch_mapLatch_congr Latch.timer htimer i⟩

theorem write (pads : PadBank) (outputs : Std.TreeMap Control ButtonCell)
    (hcount : pads.count = e.pads.count) : Beneath A e (e.write pads outputs) :=
  of_board (layout_write e outputs hcount) rfl fun _ _ => ⟨rfl, rfl⟩

/-- What becomes of the timer of another binding is nothing to these. -/
theorem of_untimed (h : e'.untimed = e.untimed)
    (htimer : ∀ id, A id → (e'.latch id).timer = (e.latch id).timer) : Beneath A e e' := by
  have hboard := congrArg Engine.board h
  refine of_board (layout_of_untimed h) hboard fun id hid => ⟨?_, htimer id hid⟩
  have hbits := congrArg Latch.bits (latch_of_untimed h id)
  exact hbits

/-- Stopping a timer leaves what is idle idle. -/
theorem stopTimer (e : Engine) (id : Nat) : Beneath A e (e.stopTimer id) := by
  have huntimed := untimed_stopTimer e id
  have hboard := congrArg Engine.board huntimed
  have hstop : Turn.Fall { engine := e, time := 0 } _ := .stop _ id
  exact ⟨⟨layout_of_untimed huntimed, fun i _ hidle => (hstop.latch i).idle hidle⟩,
    fun c _ => congrArg (fun b : Switchboard => b.line? c) hboard⟩

end Beneath

end Engine

namespace Turn

open Engine

variable {A : Nat → Prop}

/-! ## §1 Cascades -/

/-- A listener stays beneath the keys when a variable moves. -/
def StaysBeneath (onVar : Listener) : Prop :=
  ∀ (A : Nat → Prop) (t : Turn) (c : Control) (pulse : Pulse), t.engine.Wired → t.engine.Keyed A →
    c.isCustom = true → Beneath A t.engine (onVar t c pulse).1.engine

theorem beneath_firstStep {t : Turn} {id : Nat} {b : Binding} {pulse : Pulse} {forced : Bool}
    {latch : Latch} {response : Option Response} (hb : t.engine.bindings[id]? = some b)
    (hreaches : t.Reaches b pulse forced)
    (hrespond : b.latch.respond b.mapping (t.sourceOf b) (t.targetOf b) pulse.down pulse.strength
      forced = (latch, response)) (hforced : A id → forced = true) :
    Beneath A t.engine (t.firstStep id b pulse forced latch response).engine := by
  have hmove := Move.firstStep hb hreaches hrespond
  refine ⟨⟨hmove.layout, fun i hi hidle => ?_⟩, fun c _ => by rw [board_of_scene hmove.bits.1]⟩
  have hcore := core_firstStep hb pulse forced latch response i
  by_cases hsame : id = i
  · subst hsame
    rw [if_pos rfl] at hcore
    obtain rfl := hforced hi
    obtain ⟨hactive, hdown⟩ := Latch.respond_forced hrespond
    have htimer := Latch.timer_of_respond hrespond
    rw [latch_of_getElem? hb] at hidle
    have hlatch : latch.Idle := ⟨hactive, hdown, htimer.trans hidle.timer⟩
    exact hlatch.of_core hcore
  · rw [if_neg hsame] at hcore
    exact hidle.of_core hcore

theorem beneath_settle (t : Turn) {id : Nat} (m : Mapping) (source target : Descriptor)
    {r : Response} (hended : A id → r.now = false) :
    Beneath A t.engine (t.settle id m source target r).engine := by
  have huntimed := untimed_followPlan t.engine id
    (m.timerPlan source target t.engine.settings r.was r.now)
  have hboard : (t.settle id m source target r).engine.board = t.engine.board := by
    have hsame := congrArg Engine.board huntimed
    unfold settle
    dsimp only
    split <;> exact hsame
  refine ⟨⟨(steps_settle t id m source target r).layout, fun i hi hidle => ?_⟩,
    fun c _ => by rw [hboard]⟩
  by_cases hsame : id = i
  · -- A binding that is looked at has ended here, and to end is to fall.
    subst hsame
    exact ((falls_settle t id m source target (hended hi)).latch id).idle hidle
  · rw [latch_settle_of_ne t hsame]
    exact hidle

/-- What a binding does stays beneath the keys, apart from the binding itself. -/
theorem beneath_runBinding {onVar : Listener} (hvar : StaysBeneath onVar) {t : Turn}
    (hwired : t.engine.Wired) (hkeyed : t.engine.Keyed A) {id : Nat} {forced : Bool}
    (hforced : A id → forced = true) (pulse : Pulse) :
    Beneath A t.engine (t.runBinding onVar id pulse forced).1.engine := by
  refine runBinding_cases (P := fun t' => Beneath A t.engine t'.engine) (fun _ => .refl _)
    (fun b latch hb hreaches hrespond => beneath_firstStep hb hreaches hrespond hforced)
    fun b latch r hb hreaches hrespond => ?_
  have hfirst := beneath_firstStep hb hreaches hrespond hforced
  have hended : A id → r.now = false := by
    intro hid
    obtain rfl := hforced hid
    exact (Latch.respond_some hrespond).2.trans (Latch.respond_forced hrespond).1
  have hrelayed : Beneath A (t.firstStep id b pulse forced latch (some r)).engine
      (relay onVar b.mapping.target (t.firstStep id b pulse forced latch (some r))
        (t.firstEcho id b pulse forced latch (some r))).engine := by
    cases hecho : t.firstEcho id b pulse forced latch (some r) with
    | none => exact .refl _
    | some echo =>
      -- Only a variable echoes what is written to it.
      have hcustom := (t.engine.vocabulary.of_var (perform_echo _ hecho).1).1
      exact hvar A _ _ echo (hwired.congr hfirst.layout) (hkeyed.congr hfirst.layout) hcustom
  exact hfirst.trans (hrelayed.trans (beneath_settle _ b.mapping _ _ hended))

/-- A binding that does not come into effect on its own stays beneath the keys as well. -/
theorem beneath_unanswered {onVar : Listener} (hvar : StaysBeneath onVar) {t : Turn} {id : Nat}
    {pulse : Pulse} (hwired : t.engine.Wired) (hkeyed : t.engine.Keyed A)
    (hnot : A id → (t.engine.latch id).Idle →
      ∀ b, t.engine.bindings[id]? = some b → ¬ t.Reaches b pulse false) :
    Beneath A t.engine (t.runBinding onVar id pulse false).1.engine := by
  refine .of_others id (beneath_runBinding hvar hwired (fun i b hi hb => hkeyed i b hi.1 hb)
    (fun h => absurd rfl h.2) pulse) fun hid hidle => ?_
  rw [runBinding_of_not_reaches _ (hnot hid hidle)]
  exact hidle

/-- The pulse as a control takes it. -/
def own (t : Turn) (c : Control) (pulse : Pulse) : Pulse :=
  { pulse with user := t.stateUser c pulse.user }

/-- The control moves, and its chain runs. -/
def runChain (room : Nat) (t : Turn) (c : Control) (line : Line) (pulse : Pulse) : Turn × Bool :=
  sweep (fun t id => t.runBinding (feed room) id pulse false) (t.mark c pulse.user pulse.down)
    line.chain

/-- Then the pairs follow. -/
def runPairs (room : Nat) (t : Turn) (c : Control) (line : Line) (pulse : Pulse) : Turn × Bool :=
  sweep (followPair (feed room) pulse) (runChain room t c line pulse).1 line.pairs

theorem stateUser_congr {t t' : Turn} (hlayout : t'.engine.layout = t.engine.layout) (c : Control)
    (user : User) : t'.stateUser c user = t.stateUser c user := by
  unfold stateUser
  rw [descriptor_congr hlayout]

/-- It takes it as it is from then on. -/
theorem stateUser_own {t t' : Turn} (hlayout : t'.engine.layout = t.engine.layout) (c : Control)
    (pulse : Pulse) : t'.stateUser c (t.own c pulse).user = (t.own c pulse).user := by
  rw [stateUser_congr hlayout]
  unfold own stateUser
  split <;> rfl

/-- Nobody hears of a control that has no line. -/
theorem feed_unheard (room : Nat) (t : Turn) (c : Control) (pulse : Pulse)
    (hline : t.engine.board.line? c = none) : feed room t c pulse = (t, false) := by
  cases room with
  | zero => rfl
  | succ room =>
    unfold feed
    simp only [hline]

/-- A source that moves runs its chain and takes its pairs along; then the watchers are reviewed if the
state is new. -/
theorem feed_eq (room : Nat) (t : Turn) (c : Control) (pulse : Pulse) {line : Line}
    (hline : t.engine.board.line? c = some line) : feed (room + 1) t c pulse =
      let followed := runPairs room t c line (t.own c pulse)
      (if line.moves (t.own c pulse).user pulse.down then
        line.watchers.foldl (review (feed room)) followed.1 else followed.1,
        (runChain room t c line (t.own c pulse)).2 || followed.2) := by
  unfold feed
  simp only [hline]
  rfl

/-- None of the bindings comes into effect on the chain of a control that takes the pulse.  When the
proposition holds, that may rest on what they have answered. -/
def PassedBy (A : Nat → Prop) (Q : Prop) (room : Nat) (t : Turn) (line : Line) (pulse : Pulse) :
    Prop :=
  ∀ (t' : Turn), ∀ id ∈ line.chain, A id → t'.engine.layout = t.engine.layout →
    (t'.engine.latch id).Idle → (Q → (t'.runBinding (feed room) id pulse false).2 = false) →
    ∀ b, t'.engine.bindings[id]? = some b → ¬ t'.Reaches b pulse false

/-- What the chain does is beneath the keys, if it passes the bindings by. -/
theorem beneath_runChain {Q : Prop} {room : Nat} (hvar : StaysBeneath (feed room)) {t : Turn}
    (c : Control) (line : Line) (pulse : Pulse) (hwired : t.engine.Wired) (hkeyed : t.engine.Keyed A)
    (hchain : PassedBy A Q room t line pulse)
    (hpassed : Q → (runChain room t c line pulse).2 = false) :
    Beneath A (t.mark c pulse.user pulse.down).engine (runChain room t c line pulse).1.engine :=
  sweep_keeps (P := fun t' => Beneath A (t.mark c pulse.user pulse.down).engine t'.engine)
    (fun t' ht' id hid hpassed => by
      have hlayout := ht'.layout.trans (layout_setBoard t.engine c pulse.user pulse.down)
      exact ht'.trans (beneath_unanswered hvar (hwired.congr hlayout) (hkeyed.congr hlayout)
        fun hA hidle => hchain t' id hid hA hlayout hidle hpassed))
    (.refl _) hpassed

theorem layout_runPairs (room : Nat) (t : Turn) (c : Control) (line : Line) (pulse : Pulse) :
    (runPairs room t c line pulse).1.engine.layout = t.engine.layout := by
  have hbelow : Keeps (fun e => e.layout = t.engine.layout) (feed room) :=
    ⟨feed_layout room, fun t' c pulse ht' => (feed_layout room t' c pulse).trans ht'⟩
  have hrun := foldl_keeps (P := fun e => e.layout = t.engine.layout)
    (fun t' id => (t'.runBinding (feed room) id pulse false).1)
    (fun t' id ht' => runBinding_keeps (fun h ht => h.layout.trans ht) hbelow t' id pulse false ht')
    (t.mark c pulse.user pulse.down) line.chain (layout_setBoard _ c _ _)
  unfold runPairs runChain
  rw [sweep_fst, sweep_fst]
  exact foldl_keeps (P := fun e => e.layout = t.engine.layout)
    (fun t' pair => (followPair (feed room) pulse t' pair).1)
    (fun t' pair ht' => followPair_keeps hbelow pulse t' pair ht') _ line.pairs hrun

/-- So is what the watchers do after the pairs have followed. -/
theorem beneath_reviews {room : Nat} (hvar : StaysBeneath (feed room)) {t : Turn} {c : Control}
    {line : Line} (hwired : t.engine.Wired) (hkeyed : t.engine.Keyed A)
    (hline : t.engine.board.line? c = some line) (pulse : Pulse) :
    Beneath A (runPairs room t c line (t.own c pulse)).1.engine
      (feed (room + 1) t c pulse).1.engine := by
  have hfollowed := layout_runPairs room t c line (t.own c pulse)
  rw [feed_eq room t c pulse hline]
  dsimp only
  generalize (runPairs room t c line (t.own c pulse)).1 = followed at hfollowed ⊢
  split
  · refine List.foldlRecOn (motive := fun t' : Turn => Beneath A followed.engine t'.engine)
      line.watchers _ (.refl _) fun t' ht' id _ => ?_
    have hlayout := ht'.layout.trans hfollowed
    exact review_cases (P := fun t' : Turn => Beneath A followed.engine t'.engine) ht'
      (ht'.trans (beneath_runBinding hvar (hwired.congr hlayout) (hkeyed.congr hlayout)
        (fun _ => rfl) _))
  · exact .refl _

/-- **A variable that moves** stays beneath the keys, however far the cascade goes. -/
theorem beneath_feed (room : Nat) : StaysBeneath (feed room) := by
  induction room with
  | zero => exact fun _ _ _ _ _ _ _ => .refl _
  | succ room ih =>
    intro A t c pulse hwired hkeyed hcustom
    cases hline : t.engine.board.line? c with
    | none =>
      rw [feed_unheard _ t c pulse hline]
      exact .refl _
    | some line =>
      have hmarked : Beneath A t.engine (t.mark c (t.own c pulse).user pulse.down).engine := by
        refine ⟨⟨layout_setBoard _ c _ _, fun _ _ h => h⟩, fun other hother => ?_⟩
        have hne : c ≠ other := by
          rintro rfl
          rw [hcustom] at hother
          contradiction
        show (t.engine.board.set c _ _).line? other = _
        rw [Switchboard.line?_set, if_neg hne]
      -- The bindings of the chain have the variable as their source.
      have hpassed : PassedBy A False room t line (t.own c pulse) := by
        intro t' id hid hA _ _ _ _ _ _
        obtain ⟨b, hb, hsource⟩ := (hwired.chain c id).mp ⟨line, hline, hid⟩
        rw [← hsource, hkeyed id b hA hb] at hcustom
        contradiction
      have hchain := beneath_runChain ih c line (t.own c pulse) hwired hkeyed hpassed False.elim
      have hrest := beneath_reviews ih hwired hkeyed hline pulse
      have hpairs : line.pairs = [] := by
        refine List.eq_nil_iff_forall_not_mem.mpr fun pair hpair => ?_
        have hmem := ((hwired.pairs c pair).mp ⟨line, hline, hpair⟩).1
        rw [Switchboard.component_builtin hmem] at hcustom
        contradiction
      unfold runPairs at hrest
      rw [hpairs] at hrest
      exact (hmarked.trans hchain).trans hrest

/-! ## §2 Timers and forced releases -/

/-- Only a variable echoes that it blinks. -/
theorem blink_echo (t : Turn) {id : Nat} {source target : Descriptor} {echo : Pulse}
    (h : (t.blink id source target).2 = some echo) : target.cell = .output .var := by
  unfold blink at h
  dsimp only at h
  split at h
  · contradiction
  · exact (writeTarget_echo _ h).1

/-- A timer of another binding goes off beneath the keys. -/
theorem beneath_tick_of_other {t : Turn} {use : TimerUse} (hwired : t.engine.Wired)
    (hkeyed : t.engine.Keyed A) (hother : ¬ A use.binding) :
    Beneath A t.engine (t.tick use).engine := by
  have hne : ∀ id, A id → use.binding ≠ id := by
    rintro id hid rfl
    exact hother hid
  have hforced : A use.binding → false = true := fun h => absurd h hother
  have hlapsed : Beneath A t.engine (t.mapEngine fun e => e.lapse use).engine :=
    .of_untimed (untimed_lapse _ use) fun id hid =>
      congrArg Latch.timer (latch_lapse_of_ne t.engine (hne id hid))
  have hlisten := beneath_feed cascadeRoom A
  unfold tick
  dsimp only
  -- A blink or a release may be heard of; what goes on, turns or repeats writes pads or events alone.
  split
  · exact .refl _
  · rename_i b hb
    refine hlapsed.trans ?_
    have hwired' := hwired.congr hlapsed.layout
    have hkeyed' := hkeyed.congr hlapsed.layout
    generalize (t.mapEngine fun e => e.lapse use) = lapsed at hwired' hkeyed' ⊢
    cases use.kind with
    | turbo =>
      obtain ⟨pads, outputs, hengine, hcount⟩ := blink_frame lapsed use.binding
        (t.engine.descriptor b.mapping.source) (t.engine.descriptor b.mapping.target)
      have hblinked : Beneath A lapsed.engine (lapsed.blink use.binding
          (t.engine.descriptor b.mapping.source) (t.engine.descriptor b.mapping.target)).1.engine := by
        rw [hengine]
        exact (Beneath.mapLatch use.binding rfl rfl).trans (.write pads outputs hcount)
      refine hblinked.trans ?_
      cases hecho : (lapsed.blink use.binding (t.engine.descriptor b.mapping.source)
        (t.engine.descriptor b.mapping.target)).2 with
      | none => exact .refl _
      | some echo =>
        have hcustom := (t.engine.vocabulary.of_var (blink_echo lapsed hecho)).1
        exact hlisten _ _ echo (hwired'.congr hblinked.layout) (hkeyed'.congr hblinked.layout) hcustom
    | release => exact beneath_runBinding (beneath_feed cascadeRoom) hwired' hkeyed' hforced _
    | repeating =>
      obtain ⟨pads, hengine, hcount⟩ := goOn_frame lapsed use.binding (t.engine.descriptor _)
      dsimp only
      rw [hengine]
      exact .write pads _ hcount
    | rotate =>
      obtain ⟨pads, hengine, hcount⟩ := turnStick_frame lapsed use.binding (t.engine.descriptor _)
      dsimp only
      rw [hengine]
      exact .write pads _ hcount
    | keyRepeatDelay | keyRepeat =>
      dsimp only
      rw [engine_repeatKey]
      exact .refl _

/-- **A timer that goes off** does so beneath the keys, as what is idle has none. -/
theorem beneath_tick {t : Turn} {use : TimerUse} (hwired : t.engine.Wired)
    (hkeyed : t.engine.Keyed A) (htimer : (t.engine.latch use.binding).timer.isSome = true) :
    Beneath A t.engine (t.tick use).engine := by
  -- The timer is the one of its own binding, so that one has not been idle.
  refine .of_others use.binding (beneath_tick_of_other hwired
    (fun id b hid hb => hkeyed id b hid.1 hb) fun h => h.2 rfl) fun _ hidle => ?_
  rw [hidle.timer] at htimer
  contradiction

theorem beneath_forceRelease {t : Turn} (id : Nat) (hwired : t.engine.Wired)
    (hkeyed : t.engine.Keyed A) : Beneath A t.engine (forceRelease t id).engine := by
  unfold forceRelease
  refine Beneath.trans ?_ (.stopTimer _ id)
  split
  · exact beneath_runBinding (beneath_feed cascadeRoom) hwired hkeyed (fun _ => rfl) _
  · exact .refl _

theorem beneath_forceReleases {t : Turn} (ids : List Nat) (hwired : t.engine.Wired)
    (hkeyed : t.engine.Keyed A) : Beneath A t.engine (ids.foldl forceRelease t).engine :=
  List.foldlRecOn (motive := fun t' : Turn => Beneath A t.engine t'.engine) ids _ (.refl _)
    fun _ ht' id _ => ht'.trans
      (beneath_forceRelease id (hwired.congr ht'.layout) (hkeyed.congr ht'.layout))

end Turn

namespace Engine

variable {A : Nat → Prop} {e e' : Engine}

/-! ## §3 Between two sources -/

namespace Beneath

theorem chore (h : Chore e e') : Beneath A e e' := by
  cases h with
  | note | enable | label | activate | advance => exact .of_board rfl rfl fun _ _ => ⟨rfl, rfl⟩
  | remember id user => exact .mapLatch id rfl rfl

theorem commit (t : Turn) : Beneath A t.engine t.commit :=
  Turn.commit_keeps (P := Beneath A t.engine) (fun hchore ht => ht.trans (.chore hchore)) t (.refl _)

theorem forceReleaseAll (hwired : e.Wired) (hkeyed : e.Keyed A) (time : Nat) :
    Beneath A e (e.forceReleaseAll time) := by
  refine Beneath.trans ?_ (commit _)
  rw [Turn.engine_updatePads]
  exact (Turn.beneath_forceReleases (t := { engine := e, time }) _ hwired hkeyed).trans
    (.write _ _ (PadBank.count_change _ _ _))

theorem duty (h : Duty e e') (hwired : e.Wired) (hkeyed : e.Keyed A) : Beneath A e e' := by
  cases h with
  | errand h =>
    cases h with
    | take | forward | enable | activate | pass => exact .of_board rfl rfl fun _ _ => ⟨rfl, rfl⟩
    | remember id user => exact .mapLatch id rfl rfl
  | switchOff time =>
    exact (forceReleaseAll hwired hkeyed time).trans (.of_board rfl rfl fun _ _ => ⟨rfl, rfl⟩)
  | connect user time =>
    refine Beneath.trans ?_ (commit _)
    rw [Turn.engine_updatePad]
    exact .of_board rfl rfl fun _ _ => ⟨rfl, rfl⟩

theorem duties (h : Duties e e') (hwired : e.Wired) (hkeyed : e.Keyed A) : Beneath A e e' := by
  induction h with
  | refl => exact .refl _
  | tail _ hlast ih => exact ih.trans (duty hlast (hwired.congr ih.layout) (hkeyed.congr ih.layout))

/-- **No deed without a source** moves a built-in control or puts a binding with a built-in source into
effect. -/
theorem unfed (h : Unfed e e') (hwired : e.Wired) (hkeyed : e.Keyed A) (hknown : TimersKnown e) :
    Beneath A e e' := by
  cases h with
  | duty h => exact duty h hwired hkeyed
  | @expire token use huse time =>
    have hopen : Beneath A e { e with lastTime := time } := .of_board rfl rfl fun _ _ => ⟨rfl, rfl⟩
    have htimer : (e.latch use.binding).timer = some (use.token, use.kind) :=
      hknown use (List.mem_of_find?_eq_some huse)
    refine hopen.trans (Beneath.trans ?_ (commit _))
    refine Turn.beneath_tick (t := { engine := { e with lastTime := time }, time })
      (hwired.congr hopen.layout) (hkeyed.congr hopen.layout) ?_
    show (e.latch use.binding).timer.isSome = true
    rw [htimer]
    rfl
  | release time => exact forceReleaseAll hwired hkeyed time

theorem unfeds (h : Unfeds e e') (hwired : e.Wired) (hkeyed : e.Keyed A) (hknown : TimersKnown e) :
    Beneath A e e' := by
  have hall : Beneath A e e' ∧ TimersKnown e' := by
    induction h with
    | refl => exact ⟨.refl _, hknown⟩
    | tail _ hlast ih =>
      refine ⟨ih.1.trans (unfed hlast (hwired.congr ih.1.layout) (hkeyed.congr ih.1.layout) ih.2), ?_⟩
      exact hlast.deed.keeps_stable (timersKnown_stable fun _ => True) (fun _ _ he => he) ih.2
  exact hall.1

end Beneath

end Engine

end VirtualPad
