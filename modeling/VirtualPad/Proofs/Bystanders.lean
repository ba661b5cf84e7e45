import VirtualPad.Proofs.Cascades
import VirtualPad.Proofs.LatePresses

/-!
# Standing aside

Some controls move only when the host says so: motion, keys that are part of no variable.  A binding
with such a source comes into effect by an event of its source and in no other way.  Whatever else
goes on, whether it is another source, a request or the timer of another binding, leaves it in effect
with the timer it has, or ends it.

`Engine.Aside` says so about two points of a run and what has been answered between them.  A binding
that is `Engine.Off` is out of effect and was not pressed last; nothing that stands aside changes that.
-/

namespace VirtualPad

/-- What keeps a binding in effect: whether it is, and the timer that goes with it. -/
def Latch.grip (l : Latch) : Bool × Option (TimerToken × TimerKind) := (l.active, l.timer)

theorem Latch.grip_of_core {l l' : Latch} (h : l'.core = l.core) : l'.grip = l.grip := by
  have hactive := congrArg Latch.active h
  have htimer := congrArg Latch.timer h
  exact Prod.ext hactive htimer

/-- Without the option to toggle only a press puts a binding into effect: after another pulse it is
out of effect, or the pulse was swallowed. -/
theorem Latch.respond_release {l latch : Latch} {m : Mapping} {source target : Descriptor}
    {down forced : Bool} {strength : Float} {response : Option Response}
    (h : l.respond m source target down strength forced = (latch, response))
    (htoggle : m.options.toggle = false) (hup : (down && !forced) = false) :
    latch.active = false ∨ response = none ∧ latch.grip = l.grip := by
  by_cases hstays : (m.options.add && !down && !m.conditions.isEmpty && !forced) = true
  · unfold Latch.respond at h
    dsimp only at h
    split at h
    · obtain ⟨rfl, -⟩ := Prod.mk.inj h
      exact .inl rfl
    · obtain ⟨rfl, rfl⟩ := Prod.mk.inj h
      exact .inr ⟨rfl, rfl⟩
  · have hwanted : l.wanted m down forced = false := by simp [Latch.wanted, htoggle, hup]
    exact .inl (Latch.ended_of_respond h hwanted (Bool.eq_false_iff.mpr hstays))

/-- The last thing that a binding has answered was a press. -/
def PressedLast (history : List Heard) (id : Nat) : Prop :=
  ∃ h, history.find? (fun h => h.id == id) = some h ∧ h.press = true

theorem not_pressedLast_nil (id : Nat) : ¬ PressedLast [] id := nofun

theorem pressedLast_cons (h : Heard) (history : List Heard) (id : Nat) :
    PressedLast (h :: history) id ↔
      if h.id = id then h.press = true else PressedLast history id := by
  unfold PressedLast
  by_cases hid : h.id = id
  · simp [hid]
  · have hother : (h.id == id) = false := by simpa using hid
    simp [hid, hother]

namespace Engine

/-- Nothing but events of its source puts the binding into effect.  The source is no variable and no
pair, so that no other control moves it, and the binding does not toggle. -/
structure Unprompted (id : Nat) (source : Control) (e : Engine) : Prop where
  wired : e.Wired
  rule (b : Binding) : e.bindings[id]? = some b →
    b.mapping.source = source ∧ b.mapping.options.toggle = false
  notVar : (e.descriptor source).cell ≠ .output .var
  notPair : (e.descriptor source).pair = none

/-- The binding is out of effect, and the last thing it has answered was no press. -/
def Off (id : Nat) (history : List Heard) (e : Engine) : Prop :=
  (e.latch id).active = false ∧ ¬ PressedLast history id

/-- From the one engine to the other nothing puts the binding into effect, nor takes its timer away
while it stays in effect. -/
structure Aside (id : Nat) (history : List Heard) (e : Engine) (history' : List Heard)
    (e' : Engine) : Prop where
  layout : e'.layout = e.layout
  held : (e'.latch id).active = true → (e'.latch id).grip = (e.latch id).grip
  heard : PressedLast history' id →
    PressedLast history id ∧ (e'.latch id).grip = (e.latch id).grip

variable {e e' e'' : Engine} {id : Nat} {source : Control} {history history' history'' : List Heard}

theorem Unprompted.congr (he : Unprompted id source e) (hlayout : e'.layout = e.layout) :
    Unprompted id source e' where
  wired := he.wired.congr hlayout
  rule b' hb' := by
    obtain ⟨b, hb, hmapping, -⟩ := binding_congr hlayout.symm hb'
    rw [← hmapping]
    exact he.rule b hb
  notVar := by
    rw [descriptor_congr hlayout]
    exact he.notVar
  notPair := by
    rw [descriptor_congr hlayout]
    exact he.notPair

/-- No pair is the source. -/
theorem Unprompted.pair_ne (he : Unprompted id source e) {c pair : Control}
    (h : e.board.Lists Line.pairs c pair) : pair ≠ source := by
  rintro rfl
  have hsome := (he.wired.of_pairs h).1
  rw [he.notPair] at hsome
  contradiction

namespace Aside

theorem trans (h : Aside id history e history' e') (h' : Aside id history' e' history'' e'') :
    Aside id history e history'' e'' where
  layout := h'.layout.trans h.layout
  held hactive := by
    have hgrip := h'.held hactive
    have hbefore : (e'.latch id).active = true := (congrArg Prod.fst hgrip).symm.trans hactive
    exact hgrip.trans (h.held hbefore)
  heard hpressed := by
    obtain ⟨hbefore, hgrip⟩ := h'.heard hpressed
    obtain ⟨hfirst, hgrip'⟩ := h.heard hbefore
    exact ⟨hfirst, hgrip.trans hgrip'⟩

/-- Nothing happens to the binding. -/
theorem of_grip (hlayout : e'.layout = e.layout) (hgrip : (e'.latch id).grip = (e.latch id).grip) :
    Aside id history e history e' :=
  ⟨hlayout, fun _ => hgrip, fun h => ⟨h, hgrip⟩⟩

theorem refl (history : List Heard) (e : Engine) : Aside id history e history e := of_grip rfl rfl

theorem mapLatch (history : List Heard) (e : Engine) (i : Nat) {change : Latch → Latch}
    (hgrip : (change (e.latch i)).grip = (e.latch i).grip) :
    Aside id history e history (e.mapLatch i change) :=
  of_grip (layout_mapLatch e i change) (latch_mapLatch_congr Latch.grip hgrip id)

theorem write (history : List Heard) (e : Engine) {pads : PadBank}
    (outputs : Std.TreeMap Control ButtonCell) (hcount : pads.count = e.pads.count) :
    Aside id history e history (e.write pads outputs) :=
  of_grip (layout_write e outputs hcount) rfl

/-- What is out of effect in the end has stood aside in any case. -/
theorem of_off (hlayout : e'.layout = e.layout) (hoff : Off id history' e') :
    Aside id history e history' e' where
  layout := hlayout
  held hactive := by
    rw [hoff.1] at hactive
    contradiction
  heard hpressed := absurd hpressed hoff.2

/-- What was out of effect stays out of effect. -/
theorem off (h : Aside id history e history' e') (hoff : Off id history e) : Off id history' e' := by
  refine ⟨Bool.eq_false_iff.mpr fun hactive => ?_, fun hpressed => hoff.2 (h.heard hpressed).1⟩
  have hbefore : (e.latch id).active = true :=
    (congrArg Prod.fst (h.held hactive)).symm.trans hactive
  exact absurd (hoff.1.symm.trans hbefore) Bool.false_ne_true

/-- Stopping the timer of another binding does nothing to this one, and one that holds nothing has no
timer to be stopped. -/
theorem stopTimer (history : List Heard) (e : Engine) {i : Nat}
    (hi : i ≠ id ∨ (e.latch i).timer = none ∨ Off id history e) :
    Aside id history e history (e.stopTimer i) := by
  have huntimed := untimed_stopTimer e i
  rcases hi with hne | hnone | hoff
  · exact of_grip (layout_of_untimed huntimed) (by rw [latch_stopTimer_of_ne e hne])
  · have hsame : e.stopTimer i = e := by
      unfold Engine.stopTimer
      rw [hnone]
    rw [hsame]
    exact .refl history e
  · refine of_off (layout_of_untimed huntimed) ⟨?_, hoff.2⟩
    have hactive := congrArg Latch.active (latch_of_untimed huntimed id)
    exact hactive.trans hoff.1

end Aside

end Engine

namespace Turn

open Engine

variable {id : Nat} {source : Control} {history : List Heard}

/-! ## §1 Cascades -/

/-- A listener stands aside when another control moves than the source. -/
def StandsAside (id : Nat) (source : Control) (onVar : Listener) (log : Logger) : Prop :=
  ∀ (history : List Heard) (t : Turn) (c : Control) (pulse : Pulse),
    t.engine.Unprompted id source → c ≠ source →
    Aside id history t.engine (log t c pulse history) (onVar t c pulse).1.engine

/-- What is relayed is a variable, and that is not the source. -/
theorem aside_relay {onVar : Listener} {log : Logger} (hvar : StandsAside id source onVar log)
    {t : Turn} (ht : t.engine.Unprompted id source) {target : Control} {echo : Option Pulse}
    (hecho : ∀ pulse, echo = some pulse → (t.engine.descriptor target).cell = .output .var) :
    Aside id history t.engine (logEcho log target t history echo)
      (relay onVar target t echo).engine := by
  cases echo with
  | none => exact .refl _ _
  | some pulse =>
    refine hvar _ _ _ pulse ht ?_
    rintro rfl
    exact ht.notVar (hecho pulse rfl)

/-- What an answer relays stands aside. -/
theorem aside_echo {onVar : Listener} {log : Logger} (hvar : StandsAside id source onVar log)
    (history : List Heard) {t : Turn} (ht : t.engine.Unprompted id source) {i : Nat} {b : Binding} {pulse : Pulse}
    {forced : Bool} {latch : Latch} {r : Response}
    (hb : t.engine.bindings[i]? = some b) (hreaches : t.Reaches b pulse forced)
    (hrespond : b.latch.respond b.mapping (t.sourceOf b) (t.targetOf b) pulse.down pulse.strength
      forced = (latch, some r)) :
    Aside id history (t.firstStep i b pulse forced latch (some r)).engine
      (logEcho log b.mapping.target (t.firstStep i b pulse forced latch (some r)) history
        (t.firstEcho i b pulse forced latch (some r)))
      (relay onVar b.mapping.target (t.firstStep i b pulse forced latch (some r))
        (t.firstEcho i b pulse forced latch (some r))).engine := by
  have hlayout := (Move.firstStep hb hreaches hrespond).layout
  refine aside_relay hvar (ht.congr hlayout) fun echo hecho => ?_
  rw [descriptor_congr hlayout]
  exact (perform_echo _ hecho).1

/-- An answer that ends the binding is no press. -/
theorem off_firstStep (history : List Heard) {t : Turn} {b : Binding} {pulse : Pulse}
    {forced : Bool} {latch : Latch} (response : Option Response) (hb : t.engine.bindings[id]? = some b)
    (hup : (pulse.down && !forced) = false) (hended : latch.active = false) :
    Off id (⟨id, pulse.down && !forced, t.engine.sourceDown b⟩ :: history)
      (t.firstStep id b pulse forced latch response).engine := by
  have hcore := (core_firstStep hb pulse forced latch response id).trans (if_pos rfl)
  have hactive := congrArg Latch.active hcore
  refine ⟨hactive.trans hended, ?_⟩
  rw [pressedLast_cons, if_pos rfl, hup]
  exact Bool.false_ne_true

/-- What is done after a response leaves a binding out of effect. -/
theorem off_settle {t : Turn} (hoff : Off id history t.engine) (i : Nat) (m : Mapping)
    (source target : Descriptor) (r : Response) :
    Off id history (t.settle i m source target r).engine :=
  ⟨(Latch.active_of_bits ((quiet_settle t i m source target r).bits id)).trans hoff.1, hoff.2⟩

/-- An answer of another binding stands aside, and so does one of this binding to anything but a
press. -/
theorem aside_firstStep (history : List Heard) {t : Turn} (ht : t.engine.Unprompted id source)
    {i : Nat} {b : Binding} {pulse : Pulse} {forced : Bool} {latch : Latch} {response : Option Response}
    (hb : t.engine.bindings[i]? = some b) (hreaches : t.Reaches b pulse forced)
    (hrespond : b.latch.respond b.mapping (t.sourceOf b) (t.targetOf b) pulse.down pulse.strength
      forced = (latch, response)) (hi : i ≠ id ∨ (pulse.down && !forced) = false) :
    Aside id history t.engine (⟨i, pulse.down && !forced, t.engine.sourceDown b⟩ :: history)
      (t.firstStep i b pulse forced latch response).engine := by
  have hlayout := (Move.firstStep hb hreaches hrespond).layout
  have hcore := core_firstStep hb pulse forced latch response id
  by_cases hown : i = id
  · subst hown
    have hup := hi.resolve_left (not_not_intro rfl)
    rw [if_pos rfl] at hcore
    rcases Latch.respond_release hrespond (ht.rule b hb).2 hup with hended | ⟨-, hgrip⟩
    · exact .of_off hlayout (off_firstStep history response hb hup hended)
    · refine ⟨hlayout, fun _ => ?_, fun hpressed => ?_⟩
      · rw [latch_of_getElem? hb]
        exact (Latch.grip_of_core hcore).trans hgrip
      · rw [pressedLast_cons, if_pos rfl, hup] at hpressed
        contradiction
  · rw [if_neg hown] at hcore
    have hgrip := Latch.grip_of_core hcore
    refine ⟨hlayout, fun _ => hgrip, fun hpressed => ⟨?_, hgrip⟩⟩
    rwa [pressedLast_cons, if_neg hown] at hpressed

/-- Running a binding for a pulse that is no press of this one stands aside. -/
theorem aside_runBinding {onVar : Listener} {log : Logger} (hvar : StandsAside id source onVar log)
    (history : List Heard) {t : Turn} (ht : t.engine.Unprompted id source) {i : Nat} {pulse : Pulse} {forced : Bool}
    (hi : i ≠ id ∨ (pulse.down && !forced) = false) :
    Aside id history t.engine (t.logBinding log i pulse forced history)
      (t.runBinding onVar i pulse forced).1.engine := by
  refine runBinding_cases (P := fun t' => Aside id history t.engine
    (t.logBinding log i pulse forced history) t'.engine) (fun hrefused => ?_)
    (fun b latch hb hreaches hrespond => ?_) fun b latch r hb hreaches hrespond => ?_
  · rw [logBinding_of_not_reaches log hrefused]
    exact .refl _ _
  · rw [logBinding_of_reaches log hb hreaches hrespond]
    exact aside_firstStep history ht hb hreaches hrespond hi
  · rw [logBinding_of_reaches log hb hreaches hrespond]
    have hfirst := aside_firstStep history ht hb hreaches hrespond hi
    have hrelayed := aside_echo hvar (⟨i, pulse.down && !forced, t.engine.sourceDown b⟩ :: history) ht
      hb hreaches hrespond
    by_cases hown : i = id
    · -- A response that is carried out ends the binding.
      subst hown
      have hup := hi.resolve_left (not_not_intro rfl)
      have hended := (Latch.respond_release hrespond (ht.rule b hb).2 hup).resolve_right nofun
      have hoff := hrelayed.off (off_firstStep history (some r) hb hup hended)
      refine .of_off ?_ (off_settle hoff i b.mapping _ _ r)
      exact (steps_settle _ i b.mapping _ _ r).layout.trans (hrelayed.layout.trans hfirst.layout)
    · refine hfirst.trans (hrelayed.trans (.of_grip (steps_settle _ i b.mapping _ _ r).layout ?_))
      rw [latch_settle_of_ne _ hown]

/-- A pulse that ends the binding leaves it out of effect, whatever it leads to. -/
theorem off_runBinding {onVar : Listener} {log : Logger} (hvar : StandsAside id source onVar log)
    (history : List Heard) {t : Turn} (ht : t.engine.Unprompted id source) {b : Binding} {pulse : Pulse} {forced : Bool}
    (hb : t.engine.bindings[id]? = some b) (hreaches : t.Reaches b pulse forced)
    (hup : (pulse.down && !forced) = false)
    (hends : ∀ latch response, b.latch.respond b.mapping (t.sourceOf b) (t.targetOf b) pulse.down
      pulse.strength forced = (latch, response) → latch.active = false) :
    Off id (t.logBinding log id pulse forced history)
      (t.runBinding onVar id pulse forced).1.engine := by
  refine runBinding_cases (P := fun t' => Off id (t.logBinding log id pulse forced history) t'.engine)
    (fun hrefused => absurd hreaches (hrefused b hb)) (fun b' latch hb' _ hrespond => ?_)
    fun b' latch r hb' _ hrespond => ?_
  all_goals
    obtain rfl := Option.some.inj (hb.symm.trans hb')
    rw [logBinding_of_reaches log hb hreaches hrespond]
  · exact off_firstStep history none hb hup (hends _ _ hrespond)
  · have hfirst := off_firstStep history (some r) hb hup (hends _ _ hrespond)
    exact off_settle ((aside_echo hvar _ ht hb hreaches hrespond).off hfirst) id b.mapping _ _ r

/-- **Another source stands aside**, however far its cascade goes. -/
theorem aside_feed (room : Nat) : StandsAside id source (feed room) (logFeed room) := by
  induction room with
  | zero => exact fun history t _ _ _ _ => .refl history t.engine
  | succ room ih =>
    intro history t c pulse ht hc
    cases hline : t.engine.board.line? c with
    | none =>
      rw [feed_none _ t c pulse hline, logFeed_none _ t c pulse hline]
      exact .refl _ _
    | some line =>
      refine feed_succ_logged (P := fun history' t' => Aside id history t.engine history' t'.engine)
        hline (.of_grip (layout_setBoard _ c _ _) rfl) (fun t' i hmem ht' => ?_)
        (fun t' pair hmem down ht' => ?_) fun t' i ht' => ?_
      · refine ht'.trans (aside_runBinding ih _ (ht.congr ht'.layout) (.inl ?_))
        -- The chain has the bindings with this source only.
        rintro rfl
        obtain ⟨b, hb, hsource⟩ := (ht.wired.chain c i).mp ⟨line, hline, hmem⟩
        exact hc (hsource.symm.trans (ht.rule b hb).1)
      · exact ht'.trans (ih _ _ _ _ (ht.congr ht'.layout) (ht.pair_ne ⟨line, hline, hmem⟩))
      · exact ht'.trans (aside_runBinding ih _ (ht.congr ht'.layout) (.inr (Bool.and_false _)))

/-! ## §2 Ticks and forced releases -/

theorem aside_blink (id : Nat) (history : List Heard) (t : Turn) (i : Nat) (source' target : Descriptor) :
    Aside id history t.engine history (t.blink i source' target).1.engine := by
  obtain ⟨pads, outputs, hengine, hcount⟩ := blink_frame t i source' target
  rw [hengine]
  exact (Aside.mapLatch history t.engine i rfl).trans (.write history _ outputs hcount)

theorem aside_goOn (t : Turn) (i : Nat) (target : Descriptor) :
    Aside id history t.engine history (t.goOn i target).engine := by
  obtain ⟨pads, hengine, hcount⟩ := goOn_frame t i target
  rw [hengine]
  exact .write history _ _ hcount

theorem aside_turnStick (t : Turn) (i : Nat) (target : Descriptor) :
    Aside id history t.engine history (t.turnStick i target).engine := by
  obtain ⟨pads, hengine, hcount⟩ := turnStick_frame t i target
  rw [hengine]
  exact .write history _ _ hcount

/-- What becomes of the timer of another binding stands aside, and so does what becomes of the timer
of one that is out of effect. -/
theorem aside_lapse (t : Turn) {use : TimerUse}
    (huse : use.binding ≠ id ∨ Off id history t.engine) :
    Aside id history t.engine history (t.engine.lapse use) := by
  have hlayout := layout_of_untimed (untimed_lapse t.engine use)
  rcases huse with hne | hoff
  · exact .of_grip hlayout (congrArg Latch.grip (latch_lapse_of_ne t.engine hne))
  · refine .of_off hlayout ⟨?_, hoff.2⟩
    have hactive := congrArg Latch.active (latch_of_untimed (untimed_lapse t.engine use) id)
    exact hactive.trans hoff.1

/-- The tick of another binding stands aside.  One of this binding does so too, while the binding is
out of effect. -/
theorem aside_tick {t : Turn} (ht : t.engine.Unprompted id source) {use : TimerUse}
    (huse : use.binding ≠ id ∨ Off id history t.engine) :
    Aside id history t.engine (t.logTick use history) (t.tick use).engine := by
  have hlapse : Aside id history t.engine history (t.mapEngine fun e => e.lapse use).engine :=
    aside_lapse t huse
  unfold logTick tick
  dsimp only
  cases t.engine.bindings[use.binding]? with
  | none => exact .refl _ _
  | some b =>
    dsimp only
    have hlapsed := ht.congr hlapse.layout
    generalize (t.mapEngine fun e => e.lapse use) = t' at hlapse hlapsed ⊢
    refine hlapse.trans ?_
    cases use.kind with
    | turbo =>
      have hblink := aside_blink id history t' use.binding (t.sourceOf b)
        (t.targetOf b)
      refine hblink.trans (aside_relay (aside_feed cascadeRoom) (hlapsed.congr hblink.layout) ?_)
      intro echo hecho
      rw [descriptor_congr (hblink.layout.trans hlapse.layout)]
      exact blink_echo _ hecho
    | release => exact aside_runBinding (aside_feed cascadeRoom) history hlapsed (.inr rfl)
    | repeating => exact aside_goOn t' _ _
    | rotate => exact aside_turnStick t' _ _
    | keyRepeatDelay | keyRepeat =>
      dsimp only
      rw [engine_repeatKey]
      exact .refl _ _

/-- **The end of a hold** puts the binding out of effect, if it heeds its source. -/
theorem off_endHold {t : Turn} (ht : t.engine.Unprompted id source) {b : Binding}
    (hb : t.engine.bindings[id]? = some b) (hheeds : b.latch.active = true → t.engine.Heeds b)
    (husers : (t.sourceOf b).flags.ofUser = false)
    (hadd : b.mapping.options.add = true → b.mapping.conditions = []) :
    ((t.endHold id).engine.latch id).active = false := by
  unfold endHold
  dsimp only
  generalize hpulse : (⟨(t.engine.latch id).sourceUser, false, 0⟩ : Pulse) = pulse
  have hdown : pulse.down = false := by rw [← hpulse]
  by_cases hreaches : t.Reaches b pulse false
  · refine (off_runBinding (aside_feed cascadeRoom) [] ht hb
      hreaches (by rw [hdown]; rfl) fun latch response hrespond => ?_).1
    rw [hdown] at hrespond
    exact Latch.ended_of_release hrespond (ht.rule b hb).2 hadd
  · rw [runBinding_of_not_reaches]
    · -- A binding in effect hears of the end of its hold.
      rw [latch_of_getElem? hb]
      exact Bool.eq_false_iff.mpr fun hactive =>
        hreaches (.inr ((hheeds hactive).accepts_release husers hactive hdown))
    · intro b' hb'
      obtain rfl := Option.some.inj (hb.symm.trans hb')
      exact hreaches

theorem off_tick {t : Turn} (ht : t.engine.Unprompted id source) {use : TimerUse} {b : Binding}
    (huse : use.binding = id) (hkind : use.kind = .release) (hb : t.engine.bindings[id]? = some b)
    (hheeds : b.latch.active = true → t.engine.Heeds b)
    (husers : (t.sourceOf b).flags.ofUser = false)
    (hadd : b.mapping.options.add = true → b.mapping.conditions = []) :
    ((t.tick use).engine.latch id).active = false := by
  subst huse
  have huntimed := untimed_lapse t.engine use
  have hlayout := layout_of_untimed huntimed
  have hdisabled : (t.engine.lapse use).disabled = t.engine.disabled :=
    (congrArg Engine.disabled huntimed :)
  obtain ⟨b', hb', hmapping, hslot⟩ := binding_congr hlayout hb
  have hactive : b'.latch.active = b.latch.active := by
    have hsame := latch_of_untimed huntimed use.binding
    rw [latch_of_getElem? hb, latch_of_getElem? hb'] at hsame
    exact (congrArg Latch.active hsame :)
  unfold tick
  dsimp only
  rw [hb]
  dsimp only
  rw [hkind]
  refine off_endHold (t := t.mapEngine fun e => e.lapse use) (ht.congr hlayout) hb' (fun hon => ?_)
    ?_ ?_
  · exact (heeds_congr hlayout hdisabled hmapping hslot).mpr (hheeds (hactive.symm.trans hon))
  · rw [sourceOf_congr hlayout hmapping]
    exact husers
  · rwa [hmapping]

/-- A forced release of another binding stands aside, and one of this binding puts it out of
effect. -/
theorem aside_forceRelease {t : Turn} (ht : t.engine.Unprompted id source) (i : Nat) :
    Aside id history t.engine (logForceRelease t i history) (forceRelease t i).engine := by
  unfold logForceRelease forceRelease
  by_cases hlatched : (t.engine.latch i).isLatched = true
  · rw [if_pos hlatched, if_pos hlatched]
    have hreleased : Aside id history t.engine (t.logRelease (logFeed cascadeRoom) i history)
        (t.release listen i).engine :=
      aside_runBinding (aside_feed cascadeRoom) history ht (.inr rfl)
    refine hreleased.trans (.stopTimer _ _ ?_)
    by_cases hown : i = id
    · subst hown
      right; right
      cases hb : t.engine.bindings[i]? with
      | none =>
        rw [latch_of_le (Array.getElem?_eq_none_iff.mp hb)] at hlatched
        contradiction
      | some b =>
        exact off_runBinding (aside_feed cascadeRoom) history ht hb (.inl rfl) rfl
          fun latch response hrespond => (Latch.respond_forced hrespond).1
    · exact .inl hown
  · rw [if_neg hlatched, if_neg hlatched]
    exact .stopTimer _ _ (.inr (.inl (Latch.idle_of_not_latched hlatched).timer))

end Turn

namespace Engine

variable {e e' : Engine} {id : Nat} {source : Control} {history : List Heard}

/-! ## §3 Between two turns -/

theorem Aside.chore (history : List Heard) (h : Chore e e') : Aside id history e history e' := by
  refine .of_grip h.layout ?_
  cases h with
  | note | enable | label | activate | advance => rfl
  | remember i user => exact latch_mapLatch_congr Latch.grip rfl id

/-- **Requests stand aside.** -/
theorem Unprompted.requests (he : Unprompted id source e) (history : List Heard) :
    KeptByRequests (Aside id history e) where
  chore h ht := ht.trans (.chore _ h)
  force {before} e' time ht := by
    have hforced : Aside id history e (e'.logForceReleaseAll time before)
        (e'.forceReleaseAll time) := by
      refine Turn.commit_keeps (fun h ht => ht.trans (.chore _ h)) _ ?_
      dsimp only
      rw [Turn.engine_updatePads]
      have hreleased : Aside id history e (e'.logForceReleaseAll time before)
          ((List.range e'.bindings.size).foldl forceRelease { engine := e', time }).engine :=
        Turn.foldl_along (Q := Aside id history e)
          (fun t' i ht' => ht'.trans (Turn.aside_forceRelease (he.congr ht'.layout) i)) _ _ ht
      exact hreleased.trans (.write _ _ _ (PadBank.count_change _ _ _))
    exact ⟨hforced, hforced.trans (.of_grip rfl rfl)⟩

/-- **An event of another source** stands aside, with all that it leads to. -/
theorem aside_accept (he : Unprompted id source e) (history : List Heard) {c : Control}
    (hc : c ≠ source) (pulse : Pulse) (time : Nat) :
    Aside id history e (e.logAccept c pulse time history) (e.accept c pulse time).1 := by
  have htimed : Aside id history e history { e with lastTime := time } := .of_grip rfl rfl
  have hfed := Turn.aside_feed (cascadeRoom + 1) history
    { engine := { e with lastTime := time }, time } c pulse (he.congr htimed.layout) hc
  exact (he.requests history).drainQueue _ time ((he.requests history).commit _ (htimed.trans hfed))

/-- **A timer that goes off** stands aside, if it is one of another binding. -/
theorem aside_onTimer (he : Unprompted id source e) (history : List Heard) {token : TimerToken}
    (huse : ∀ use, e.timerUse? token = some use → use.binding ≠ id ∨ Off id history e) (time : Nat) :
    Aside id history e (e.logTimer token time history) (e.onTimer token time) := by
  unfold logTimer onTimer
  cases hfound : e.timerUse? token with
  | none => exact .refl _ _
  | some use =>
    have htimed : Aside id history e history { e with lastTime := time } := .of_grip rfl rfl
    have hticked := Turn.aside_tick (t := { engine := { e with lastTime := time }, time })
      (he.congr htimed.layout) (huse use hfound)
    exact (he.requests history).drainQueue _ time ((he.requests history).commit _ (htimed.trans hticked))

/-- **When the hold of the binding runs out**, it is out of effect. -/
theorem off_onTimer (he : Unprompted id source e) {token : TimerToken} {use : TimerUse} {b : Binding}
    (huse : e.timerUse? token = some use) (hbinding : use.binding = id) (hkind : use.kind = .release)
    (hb : e.bindings[id]? = some b) (hheeds : b.latch.active = true → e.Heeds b)
    (husers : (e.descriptor b.mapping.source).flags.ofUser = false)
    (hadd : b.mapping.options.add = true → b.mapping.conditions = []) (time : Nat) :
    ((e.onTimer token time).latch id).active = false := by
  have hticked := Turn.off_tick (t := { engine := { e with lastTime := time }, time })
    (he.congr rfl) hbinding hkind hb hheeds husers hadd
  have hlayout := (Turn.steps_tick { engine := { e with lastTime := time }, time } use).layout
  have hrequests := (he.congr hlayout).requests []
  have haside := hrequests.drainQueue _ time (hrequests.commit _ (.refl [] _))
  unfold onTimer
  rw [huse]
  exact (haside.off ⟨hticked, not_pressedLast_nil id⟩).1

end Engine

end VirtualPad
