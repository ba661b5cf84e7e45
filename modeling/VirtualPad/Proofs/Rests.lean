import VirtualPad.Proofs.Deeds
import VirtualPad.Proofs.Mirror
import VirtualPad.Proofs.Wiring

/-!
# Bindings that are not in effect hold on to nothing

When a binding ends it lets go of its users and its timer stops.  Both are done after the cascade
below the binding, so while that runs the binding holds on to what it had.  Between two
operations no binding that is not in effect has users.

With timers there is an exception.  A binding whose target is a variable may be released by the very
cascade that its press has started: then it has ended before its press is settled, and settling the
press starts a timer all the same.  That takes a binding that feeds back on itself.  For all others a
cascade cannot reach the binding at its top, and they have a timer only while they are in effect.
-/

namespace VirtualPad

/-- What a latch holds on to, and whether the binding is in effect. -/
def Latch.holding (l : Latch) : Bool × List User × Option (TimerToken × TimerKind) :=
  (l.active, l.applied, l.timer)

/-- The timer of a binding that has ended is stopped. -/
theorem Mapping.timerPlan_ended (m : Mapping) (source target : Descriptor) (settings : Settings)
    (was : Bool) : m.timerPlan source target settings was false = .stop := by
  simp [Mapping.timerPlan]

namespace Engine

/-! ## §1 What a source may reach -/

/-- A control that moves may reach a binding: through its chain, its watchers or its pairs, or
through a variable that one of these drives. -/
inductive Stirs (e : Engine) : Control → Nat → Prop
  | chain {c : Control} {id : Nat} (h : e.board.Lists Line.chain c id) : Stirs e c id
  | watcher {c : Control} {id : Nat} (h : e.board.Lists Line.watchers c id) : Stirs e c id
  | pair {c pair : Control} {id : Nat} (h : e.board.Lists Line.pairs c pair)
      (hrest : Stirs e pair id) : Stirs e c id
  | through {c : Control} {via id : Nat} {b : Binding} (hvia : Stirs e c via)
      (hb : e.bindings[via]? = some b)
      (hvar : (e.descriptor b.mapping.target).cell = .output .var)
      (hrest : Stirs e b.mapping.target id) : Stirs e c id

/-- What a binding does to its target may reach the binding itself. -/
def FeedsBack (e : Engine) (id : Nat) : Prop :=
  ∃ b, e.bindings[id]? = some b ∧ (e.descriptor b.mapping.target).cell = .output .var ∧
    e.Stirs b.mapping.target id

variable {e e' : Engine}

theorem Stirs.congr (hlayout : e'.layout = e.layout) {c : Control} {id : Nat} (h : e.Stirs c id) :
    e'.Stirs c id := by
  induction h with
  | chain h => exact .chain ((lists_congr Wiring.chain (fun _ => rfl) hlayout _ _).mpr h)
  | watcher h => exact .watcher ((lists_congr Wiring.watchers (fun _ => rfl) hlayout _ _).mpr h)
  | pair h _ ih => exact .pair ((lists_congr Wiring.pairs (fun _ => rfl) hlayout _ _).mpr h) ih
  | through _ hb hvar _ ihvia ihrest =>
    obtain ⟨b', hb', hmapping, -⟩ := binding_congr hlayout hb
    rw [← hmapping] at hvar ihrest
    refine .through ihvia hb' ?_ ihrest
    rw [descriptor_congr hlayout]
    exact hvar

theorem stirs_congr (hlayout : e'.layout = e.layout) (c : Control) (id : Nat) :
    e'.Stirs c id ↔ e.Stirs c id :=
  ⟨Stirs.congr hlayout.symm, Stirs.congr hlayout⟩

theorem feedsBack_congr (hlayout : e'.layout = e.layout) (id : Nat) :
    e'.FeedsBack id ↔ e.FeedsBack id := by
  unfold FeedsBack
  simp only [descriptor_congr hlayout, stirs_congr hlayout]
  exact exists_binding_congr hlayout
    (fun m => (e.descriptor m.target).cell = .output .var ∧ e.Stirs m.target id) id

end Engine

namespace Turn

/-- After the first step of an answer the binding is in effect just if the response says so. -/
theorem active_firstStep {t : Turn} {id : Nat} {b : Binding} {pulse : Pulse} {forced : Bool}
    {latch : Latch} {r : Response} (hb : t.engine.bindings[id]? = some b)
    (hrespond : b.latch.respond b.mapping (t.sourceOf b) (t.targetOf b) pulse.down pulse.strength
      forced = (latch, some r)) :
    ((t.firstStep id b pulse forced latch (some r)).engine.latch id).active = r.now := by
  have hcore := (core_firstStep hb pulse forced latch (some r) id).trans (if_pos rfl)
  have hactive := congrArg Latch.active hcore
  exact hactive.trans (Latch.respond_some hrespond).2.symm

/-- In the second turn a binding is in effect just if it was in the first one, and the layout is the
same. -/
structure Spares (other : Nat) (t t' : Turn) : Prop where
  layout : t'.engine.layout = t.engine.layout
  bits : (t'.engine.latch other).bits = (t.engine.latch other).bits

theorem Spares.trans {other : Nat} {t t' t'' : Turn} (h : Spares other t t')
    (h' : Spares other t' t'') : Spares other t t'' :=
  ⟨h'.layout.trans h.layout, h'.bits.trans h.bits⟩

/-- Running one binding spares another one, if its target cannot reach that. -/
theorem runBinding_spares {onVar : Listener} {other : Nat}
    (hlayout : ∀ t c pulse, (onVar t c pulse).1.engine.layout = t.engine.layout)
    (hvar : ∀ t c pulse, ¬ t.engine.Stirs c other → Spares other t (onVar t c pulse).1)
    {t : Turn} {id : Nat} (hid : id ≠ other)
    (htarget : ∀ b, t.engine.bindings[id]? = some b → (t.targetOf b).cell = .output .var →
      ¬ t.engine.Stirs b.mapping.target other) (pulse : Pulse) (forced : Bool) :
    Spares other t (t.runBinding onVar id pulse forced).1 := by
  by_cases h : ∃ b, t.engine.bindings[id]? = some b ∧ t.Reaches b pulse forced
  · obtain ⟨b, hb, hreaches⟩ := h
    have hkeeps : Keeps (fun e => e.layout = t.engine.layout) onVar :=
      ⟨hlayout, fun t' c pulse ht' => (hlayout t' c pulse).trans ht'⟩
    refine ⟨runBinding_keeps (fun h ht => h.layout.trans ht) hkeeps t id pulse forced rfl, ?_⟩
    refine runBinding_keeps_of_relay (P := fun e => (e.latch other).bits = (t.engine.latch other).bits)
      (fun _ hquiet ht => (hquiet.bits other).trans ht) hlayout hb hreaches
      fun latch response hrespond => ?_
    obtain ⟨-, -, _, _, -, hbits⟩ := answered_firstStep hb hreaches hrespond
    have hfirst := (hbits other).trans (if_neg hid)
    cases hecho : t.firstEcho id b pulse forced latch response with
    | none => exact hfirst
    | some echo =>
      cases response with
      | none => contradiction
      | some r =>
        have hsame := (Move.firstStep hb hreaches hrespond).layout
        refine (hvar _ _ echo ?_).bits.trans hfirst
        rw [Engine.stirs_congr hsame]
        exact htarget b hb (perform_echo _ hecho).1
  · rw [runBinding_of_not_reaches onVar fun b hb hreaches => h ⟨b, hb, hreaches⟩]
    exact ⟨rfl, rfl⟩

/-- **A source spares what it cannot reach.** -/
theorem feed_spares {other : Nat} (room : Nat) (t : Turn) (c : Control) (pulse : Pulse)
    (hother : ¬ t.engine.Stirs c other) : Spares other t (feed room t c pulse).1 := by
  induction room generalizing t c pulse with
  | zero => exact ⟨rfl, rfl⟩
  | succ room ih =>
    cases hline : t.engine.board.line? c with
    | none =>
      rw [feed_none _ t c pulse hline]
      exact ⟨rfl, rfl⟩
    | some line =>
      -- All along the layout stays, and with it what the source can reach.
      have hrun : ∀ t' id, Spares other t t' → t.engine.Stirs c id → ∀ pulse forced,
          Spares other t (t'.runBinding (feed room) id pulse forced).1 := by
        intro t' id ht' hid pulse forced
        have hnot := mt (Engine.stirs_congr ht'.layout c other).mp hother
        refine ht'.trans (runBinding_spares (feed_layout room) ih ?_ ?_ pulse forced)
        · rintro rfl
          exact hother hid
        · intro b hb hvar hstirs
          exact hnot (.through (hid.congr ht'.layout) hb hvar hstirs)
      rw [feed_succ room t c pulse hline]
      dsimp only
      have hmarked : Spares other t (t.mark c (t.stateUser c pulse.user) pulse.down) :=
        ⟨Engine.layout_setBoard _ c _ _, rfl⟩
      have hchain := List.foldlRecOn (motive := Spares other t) line.chain _ hmarked
        fun t' ht' id hid => hrun t' id ht' (.chain ⟨line, hline, hid⟩)
          { pulse with user := t.stateUser c pulse.user } false
      have hpairs := List.foldlRecOn (motive := Spares other t) line.pairs
        (fun t' pair => (followPair (feed room) { pulse with user := t.stateUser c pulse.user } t'
          pair).1) hchain fun t' ht' pair hpair => by
        refine followPair_cases ht' fun down => ht'.trans (ih t' pair _ fun hstirs => ?_)
        rw [Engine.stirs_congr ht'.layout] at hstirs
        exact hother (.pair ⟨line, hline, hpair⟩ hstirs)
      split
      · refine List.foldlRecOn (motive := Spares other t) line.watchers _ hpairs
          fun t' ht' id hid => ?_
        exact review_cases ht' (hrun t' id ht' (.watcher ⟨line, hline, hid⟩) _ true)
      · exact hpairs

end Turn

namespace Engine

/-! ## §2 Other bindings -/

variable {e e' : Engine}

/-- Starting and stopping a timer of one binding leaves the latches of the others alone. -/
theorem latch_stopTimer_of_ne (e : Engine) {id other : Nat} (hne : id ≠ other) :
    (e.stopTimer id).latch other = e.latch other := by
  unfold stopTimer
  split
  · rfl
  · exact (latch_mapLatch _ id _ other).trans (if_neg fun h => hne h.1)

theorem latch_startTimer_of_ne (e : Engine) {id other : Nat} (hne : id ≠ other) (kind : TimerKind)
    (request : TimerToken → TimerRequest) :
    (e.startTimer id kind request).latch other = e.latch other := by
  unfold startTimer
  exact (latch_mapLatch _ id _ other).trans ((if_neg fun h => hne h.1).trans
    (latch_stopTimer_of_ne e hne))

theorem latch_followPlan_of_ne (e : Engine) {id other : Nat} (hne : id ≠ other) (plan : TimerPlan) :
    (e.followPlan id plan).latch other = e.latch other := by
  cases plan with
  | keep => rfl
  | stop => exact latch_stopTimer_of_ne e hne
  | once delay kind => exact latch_startTimer_of_ne e hne kind _
  | repeating period kind => exact latch_startTimer_of_ne e hne kind _

theorem latch_lapse_of_ne (e : Engine) {use : TimerUse} {other : Nat} (hne : use.binding ≠ other) :
    (e.lapse use).latch other = e.latch other := by
  unfold Engine.lapse
  split
  · exact (latch_mapLatch _ _ _ other).trans (if_neg fun h => hne h.1)
  · exact latch_startTimer_of_ne e hne _ _
  all_goals rfl

/-- What is left to do after a response is done for the one binding only. -/
theorem latch_settle_of_ne (t : Turn) {id other : Nat} (hne : id ≠ other) (m : Mapping)
    (source target : Descriptor) (r : Response) :
    (t.settle id m source target r).engine.latch other = t.engine.latch other := by
  have hplan := latch_followPlan_of_ne t.engine hne
    (m.timerPlan source target t.engine.settings r.was r.now)
  unfold Turn.settle
  dsimp only
  split
  · exact hplan
  · exact (latch_mapLatch _ id _ other).trans ((if_neg fun h => hne h.1).trans hplan)

/-! ## §3 Timers in the table -/

/-- Each timer in the table is the one that its binding has. -/
def TimersKnown (e : Engine) : Prop :=
  ∀ use ∈ e.timers, (e.latch use.binding).timer = some (use.token, use.kind)

namespace TimersKnown

theorem congr (he : TimersKnown e) (h : SameTimers e e') : TimersKnown e' := by
  intro use huse
  rw [h.latches]
  rw [h.table] at huse
  exact he use huse

theorem forgetTimer (he : TimersKnown e) {id : Nat} {token : TimerToken} {kind : TimerKind}
    (htimer : (e.latch id).timer = some (token, kind)) : TimersKnown (e.forgetTimer id token) := by
  intro use huse
  obtain ⟨hold, hne⟩ := List.mem_filter.mp huse
  have hknown := he use hold
  -- The binding has one timer only, and that is dropped.
  have hother : id ≠ use.binding := by
    rintro rfl
    rw [hknown] at htimer
    obtain ⟨rfl, -⟩ := Prod.mk.inj (Option.some.inj htimer)
    simp at hne
  show (((e.dropTimer token).mapLatch id _).latch use.binding).timer = _
  rw [latch_mapLatch, if_neg fun h => hother h.1]
  exact hknown

theorem stopTimer (he : TimersKnown e) (id : Nat) : TimersKnown (e.stopTimer id) := by
  unfold Engine.stopTimer
  split
  · exact he
  · exact forgetTimer (e := e.ask _) he ‹_›

theorem startTimer (he : TimersKnown e) {id : Nat} (hin : id < e.bindings.size) (kind : TimerKind)
    (request : TimerToken → TimerRequest) : TimersKnown (e.startTimer id kind request) := by
  have hstop := he.stopTimer id
  have hnone := TimersAgree.stopTimer_timer e id
  have hsize : id < (e.stopTimer id).bindings.size := by
    rwa [size_congr (layout_of_untimed (untimed_stopTimer e id))]
  -- The timer that the binding had is stopped first, so the table has only the new one of it.
  intro use huse
  show ((mapLatch { (e.stopTimer id).ask (request ((e.stopTimer id).lastToken + 1)) with
    lastToken := (e.stopTimer id).lastToken + 1
    timers := ⟨(e.stopTimer id).lastToken + 1, id, kind⟩ :: (e.stopTimer id).timers } id
    fun l => { l with timer := some ((e.stopTimer id).lastToken + 1, kind) }).latch
      use.binding).timer = _
  rw [latch_mapLatch]
  rcases List.mem_cons.mp huse with rfl | hold
  · rw [if_pos ⟨rfl, hsize⟩]
  · have hknown := hstop use hold
    have hother : id ≠ use.binding := by
      rintro rfl
      rw [hnone] at hknown
      contradiction
    rw [if_neg fun h => hother h.1]
    exact hknown

theorem move {t t' : Turn} (h : Turn.Move t t') (ht : TimersKnown t.engine) :
    TimersKnown t'.engine := by
  rcases h.timers with hsame | ⟨id, plan, hplan, hengine⟩
  · exact ht.congr hsame
  · rw [hengine]
    rcases hplan with rfl | ⟨b, hb, -⟩
    · exact ht.stopTimer id
    · have hin : id < t.engine.bindings.size := (Array.getElem?_eq_some_iff.mp hb).1
      cases plan with
      | keep => exact ht
      | stop => exact ht.stopTimer id
      | once delay kind => exact ht.startTimer hin kind _
      | repeating period kind => exact ht.startTimer hin kind _

theorem chore (h : Chore e e') (he : TimersKnown e) : TimersKnown e' := by
  rcases h.timers with hsame | ⟨time, rfl⟩
  · exact he.congr hsame
  · exact he

theorem lapse (he : TimersKnown e) {use : TimerUse} (huse : use ∈ e.timers) {b : Binding}
    (hb : e.bindings[use.binding]? = some b) : TimersKnown (e.lapse use) := by
  unfold Engine.lapse
  cases use.kind with
  | release => exact he.forgetTimer (he use huse)
  | keyRepeatDelay => exact he.startTimer (Array.getElem?_eq_some_iff.mp hb).1 _ _
  | turbo | repeating | rotate | keyRepeat => exact he

theorem ofInstall (e : Engine) (config : Config) (time : Nat) :
    TimersKnown (e.install config time) := by
  obtain ⟨bindings, outputs, pads, queue, remainder, snapshots, events, hinstall, -⟩ :=
    install_frame e config time
  rw [hinstall]
  exact fun use huse => absurd huse List.not_mem_nil

end TimersKnown

theorem timersKnown_stable (admits : Config → Prop) : Stable admits TimersKnown where
  move := TimersKnown.move
  feed room := Turn.feed_keeps TimersKnown.move (fun _ _ _ ht => ht) room
  chore := TimersKnown.chore
  force e time he := by
    have hforced := forceReleaseAll_keeps TimersKnown.move
      (Turn.feed_keeps TimersKnown.move fun _ _ _ ht => ht) TimersKnown.chore (fun _ _ he => he) e
      time he
    exact ⟨hforced, hforced⟩
  lapse {e _ _ _ clock _ _} _ huse hb he :=
    TimersKnown.lapse (e := { e with clock }) he (List.mem_of_find?_eq_some huse) hb
  stray _ _ he := he
  install _ _ time _ _ := TimersKnown.ofInstall _ _ time

theorem Operated.timersKnown {admits : Config → Prop} (he : Operated admits e) : TimersKnown e :=
  (timersKnown_stable admits).operated (fun _ _ he => he) (fun _ => TimersKnown.ofInstall _ _ 0) he

/-! ## §4 What bindings hold on to -/

/-- Apart from these bindings, one that is not in effect has no users, and no timer unless it feeds
back on itself. -/
structure RestsWithin (S : Nat → Prop) (e : Engine) : Prop where
  users (id : Nat) : ¬ S id → (e.latch id).active = false → (e.latch id).applied = []
  timers (id : Nat) : ¬ S id → ¬ e.FeedsBack id → (e.latch id).active = false →
    (e.latch id).timer = none

namespace RestsWithin

variable {S : Nat → Prop}

theorem congr (he : RestsWithin S e) (hlayout : e'.layout = e.layout)
    (hholding : ∀ i, (e'.latch i).holding = (e.latch i).holding) : RestsWithin S e' := by
  constructor
  · intro id hid hactive
    obtain ⟨hsame, husers, -⟩ : _ ∧ _ ∧ _ := by simpa [Latch.holding] using hholding id
    rw [husers]
    exact he.users id hid (hsame.symm.trans hactive)
  · intro id hid hback hactive
    obtain ⟨hsame, -, htimer⟩ : _ ∧ _ ∧ _ := by simpa [Latch.holding] using hholding id
    rw [htimer]
    exact he.timers id hid (fun h => hback ((feedsBack_congr hlayout id).mpr h))
      (hsame.symm.trans hactive)

/-- One binding has changed, and the rest is as it was. -/
theorem change {S' : Nat → Prop} (he : RestsWithin S e) (id : Nat) (hlayout : e'.layout = e.layout)
    (hsub : ∀ i, i ≠ id → S i → S' i)
    (hothers : ∀ i, i ≠ id → (e'.latch i).holding = (e.latch i).holding)
    (husers : ¬ S' id → (e'.latch id).active = false → (e'.latch id).applied = [])
    (htimer : ¬ S' id → ¬ e.FeedsBack id → (e'.latch id).active = false →
      (e'.latch id).timer = none) : RestsWithin S' e' := by
  constructor
  · intro i hi hactive
    by_cases hsame : i = id
    · subst hsame
      exact husers hi hactive
    · obtain ⟨hbefore, hkept, -⟩ : _ ∧ _ ∧ _ := by simpa [Latch.holding] using hothers i hsame
      rw [hkept]
      exact he.users i (fun h => hi (hsub i hsame h)) (hbefore.symm.trans hactive)
  · intro i hi hback hactive
    rw [feedsBack_congr hlayout] at hback
    by_cases hsame : i = id
    · subst hsame
      exact htimer hi hback hactive
    · obtain ⟨hbefore, -, hkept⟩ : _ ∧ _ ∧ _ := by simpa [Latch.holding] using hothers i hsame
      rw [hkept]
      exact he.timers i (fun h => hi (hsub i hsame h)) hback (hbefore.symm.trans hactive)

/-- A pulse that is swallowed leaves in effect what was, and touches nothing else. -/
theorem swallow {t : Turn} {id : Nat} {b : Binding} {down forced : Bool} {strength : Float}
    {latch : Latch} (ht : RestsWithin S t.engine) (hb : t.engine.bindings[id]? = some b)
    (hrespond : b.latch.respond b.mapping (t.sourceOf b) (t.targetOf b) down strength forced =
      (latch, none)) : RestsWithin S (t.mapLatch id fun _ => latch).engine := by
  refine ht.congr (layout_mapLatch _ id _) (latch_mapLatch_congr Latch.holding ?_)
  rw [latch_of_getElem? hb]
  obtain ⟨hactive, -, happlied⟩ : _ ∧ _ ∧ _ := by
    simpa [Latch.stake] using Latch.respond_none hrespond
  simp [Latch.holding, hactive, happlied, Latch.timer_of_respond hrespond]

/-- When a binding ends it holds on to what it had, at first. -/
theorem act {t : Turn} {id : Nat} {b : Binding} {pulse : Pulse} {forced : Bool} {latch : Latch}
    {r : Response} (ht : RestsWithin S t.engine) (hb : t.engine.bindings[id]? = some b)
    (hrespond : b.latch.respond b.mapping (t.sourceOf b) (t.targetOf b) pulse.down pulse.strength
      forced = (latch, some r)) :
    RestsWithin (fun i => S i ∨ i = id ∧ r.now = false)
      (t.firstStep id b pulse forced latch (some r)).engine := by
  have hlayout := (Turn.steps_firstStep t hb pulse forced latch (some r)).layout
  have hactive := Turn.active_firstStep hb hrespond
  -- Only the latch of this binding has changed; and if it is not in effect now, it is an exception.
  obtain ⟨change, pads, outputs, hengine, -⟩ := Turn.perform_frame
    (t.mapLatch id fun _ => latch) id b.mapping (t.sourceOf b) (t.targetOf b) pulse.user r forced
  replace hengine : (t.firstStep id b pulse forced latch (some r)).engine = _ := hengine
  refine ht.change id hlayout (fun i _ hi => .inl hi) (fun i hi => ?_) ?_ ?_
  · rw [hengine]
    show ((((t.engine.mapLatch id fun _ => latch).mapLatch id change).latch i).holding) = _
    rw [latch_mapLatch, if_neg fun h => hi h.1.symm, latch_mapLatch, if_neg fun h => hi h.1.symm]
  · exact fun hid hup => absurd (.inr ⟨rfl, hactive.symm.trans hup⟩) hid
  · exact fun hid _ hup => absurd (.inr ⟨rfl, hactive.symm.trans hup⟩) hid

/-- **Settling an end** makes the binding let go of all. -/
theorem settle_ended {t : Turn} {id : Nat} {b : Binding} {r : Response} (source target : Descriptor)
    (ht : RestsWithin (fun i => S i ∨ i = id) t.engine) (hb : t.engine.bindings[id]? = some b)
    (hnow : r.now = false) :
    RestsWithin S (t.settle id b.mapping source target r).engine := by
  have hsettle : (t.settle id b.mapping source target r).engine =
      (t.engine.stopTimer id).mapLatch id fun l => { l with applied := [] } := by
    simp [Turn.settle, hnow, Mapping.timerPlan_ended, Turn.mapEngine, followPlan]
  have hlayout := layout_of_untimed (untimed_stopTimer t.engine id)
  have hin : id < (t.engine.stopTimer id).bindings.size := by
    rw [size_congr hlayout]
    exact (Array.getElem?_eq_some_iff.mp hb).1
  rw [hsettle]
  refine ht.change id ((layout_mapLatch _ id _).trans hlayout)
    (fun i hi h => h.resolve_right hi) (fun i hi => ?_) ?_ ?_
  · rw [latch_mapLatch, if_neg fun h => hi h.1.symm, latch_stopTimer_of_ne _ (Ne.symm hi)]
  · intro _ _
    rw [latch_mapLatch, if_pos ⟨rfl, hin⟩]
  · intro _ _ _
    rw [latch_mapLatch, if_pos ⟨rfl, hin⟩]
    exact TimersAgree.stopTimer_timer t.engine id

/-- Settling a press may start a timer, which is all right while the binding is in effect. -/
theorem settle_risen {t : Turn} {id : Nat} {r : Response} (m : Mapping) (source target : Descriptor)
    (ht : RestsWithin S t.engine) (hnow : r.now = true)
    (hactive : ¬ t.engine.FeedsBack id → (t.engine.latch id).active = true) :
    RestsWithin S (t.settle id m source target r).engine := by
  obtain ⟨plan, hsettle⟩ : ∃ plan, (t.settle id m source target r).engine =
      t.engine.followPlan id plan := by
    refine ⟨m.timerPlan source target t.engine.settings r.was r.now, ?_⟩
    simp [Turn.settle, hnow, Turn.mapEngine]
  have huntimed := untimed_followPlan t.engine id plan
  have hlatch := latch_of_untimed huntimed id
  rw [hsettle]
  refine ht.change id (layout_of_untimed huntimed) (fun _ _ hi => hi) (fun i hi => ?_) ?_ ?_
  · rw [latch_followPlan_of_ne _ (Ne.symm hi)]
  · intro hid hup
    have hsame := congrArg Latch.active hlatch
    have husers := congrArg Latch.applied hlatch
    exact husers.trans (ht.users id hid (hsame.symm.trans hup))
  · intro _ hback hup
    have hsame := congrArg Latch.active hlatch
    exact absurd ((hsame.symm.trans hup).symm.trans (hactive hback)) (by decide)

/-! ## §5 Cascades -/

/-- Running a binding keeps what the sources below it keep. -/
theorem runBinding {room : Nat} (hbelow : ∀ S t c pulse, RestsWithin S t.engine →
      RestsWithin S (Turn.feed room t c pulse).1.engine)
    (t : Turn) (id : Nat) (pulse : Pulse) (forced : Bool) (ht : RestsWithin S t.engine) :
    RestsWithin S (t.runBinding (Turn.feed room) id pulse forced).1.engine := by
  refine Turn.runBinding_cases (P := fun t' => RestsWithin S t'.engine) (fun _ => ht)
    (fun b latch hb _ hrespond => ht.swallow hb hrespond) fun b latch r hb hreaches hrespond => ?_
  have hfirst := ht.act hb hrespond
  have hlayout := (Turn.steps_firstStep t hb pulse forced latch (some r)).layout
  have hactive := Turn.active_firstStep hb hrespond
  have hecho : ∀ echo, t.firstEcho id b pulse forced latch (some r) = some echo →
      (t.targetOf b).cell = .output .var := fun echo h => (Turn.perform_echo _ h).1
  generalize t.firstStep id b pulse forced latch (some r) = acted at hfirst hlayout hactive ⊢
  generalize t.firstEcho id b pulse forced latch (some r) = echo at hecho ⊢
  -- The cascade below the binding leaves it alone, unless it feeds back on itself.
  obtain ⟨hkept, hspares⟩ : RestsWithin (fun i => S i ∨ i = id ∧ r.now = false)
      (Turn.relay (Turn.feed room) b.mapping.target acted echo).engine ∧
      (¬ acted.engine.FeedsBack id →
        Turn.Spares id acted (Turn.relay (Turn.feed room) b.mapping.target acted echo)) := by
    cases echo with
    | none => exact ⟨hfirst, fun _ => ⟨rfl, rfl⟩⟩
    | some echo =>
      refine ⟨hbelow _ acted _ echo hfirst, fun hback => Turn.feed_spares room acted _ echo ?_⟩
      intro hstirs
      obtain ⟨b', hb', hmapping, -⟩ := binding_congr hlayout hb
      refine hback ⟨b', hb', ?_, hmapping ▸ hstirs⟩
      rw [hmapping, descriptor_congr hlayout]
      exact hecho echo rfl
  have hsame : (Turn.relay (Turn.feed room) b.mapping.target acted echo).engine.layout =
      acted.engine.layout := by
    cases echo with
    | none => rfl
    | some echo => exact Turn.feed_layout room acted _ echo
  generalize Turn.relay (Turn.feed room) b.mapping.target acted echo = relayed at hkept hspares hsame ⊢
  cases hnow : r.now with
  | false =>
    -- The exception for this binding ends here: settling its end makes it let go of all.
    obtain ⟨b', hb', hmapping, -⟩ := binding_congr (hsame.trans hlayout) hb
    rw [← hmapping]
    refine settle_ended _ _ ?_ hb' hnow
    simpa [hnow] using hkept
  | true =>
    refine settle_risen _ _ _ (by simpa [hnow] using hkept) hnow fun hback => ?_
    rw [feedsBack_congr hsame] at hback
    rw [Latch.active_of_bits (hspares hback).bits, hactive, hnow]

/-- **A source that moves** makes every binding that ends let go of all, however far the cascade
goes. -/
theorem feed (room : Nat) (t : Turn) (c : Control) (pulse : Pulse) (ht : RestsWithin S t.engine) :
    RestsWithin S (Turn.feed room t c pulse).1.engine := by
  -- A binding that ends is one more exception for the cascade below it, so the induction is about all
  -- exceptions at once.
  have hrel := Turn.feed_rel
    (R := fun t t' => ∀ S, RestsWithin S t.engine → RestsWithin S t'.engine)
    (fun _ _ ht => ht) (fun h h' S ht => h' S (h S ht))
    (fun t c user down S ht => ht.congr (layout_setBoard _ c user down) fun _ => rfl)
    (fun room hbelow t id pulse forced S ht =>
      runBinding (fun S t c pulse ht => hbelow t c pulse S ht) t id pulse forced ht) room t c pulse
  exact hrel S ht

/-! ## §6 Ticks and forced releases -/

theorem chore (h : Chore e e') (he : RestsWithin S e) : RestsWithin S e' := by
  cases h with
  | note | enable | label | activate | advance => exact he.congr rfl fun _ => rfl
  | remember id user => exact he.congr (layout_mapLatch e id _) (latch_mapLatch_congr Latch.holding rfl)

theorem stopTimer (he : RestsWithin S e) (id : Nat) : RestsWithin S (e.stopTimer id) := by
  have huntimed := untimed_stopTimer e id
  have hlatch := latch_of_untimed huntimed id
  refine he.change id (layout_of_untimed huntimed) (fun _ _ hi => hi) (fun i hi => ?_) ?_ ?_
  · rw [latch_stopTimer_of_ne _ (Ne.symm hi)]
  · intro hid hup
    have hsame := congrArg Latch.active hlatch
    have husers := congrArg Latch.applied hlatch
    exact husers.trans (he.users id hid (hsame.symm.trans hup))
  · exact fun _ _ _ => TimersAgree.stopTimer_timer e id

/-- A timer that lapses was the timer of its binding, so that is in effect or feeds back on
itself. -/
theorem lapse (he : RestsWithin S e) {use : TimerUse}
    (htimer : (e.latch use.binding).timer.isSome = true) : RestsWithin S (e.lapse use) := by
  have huntimed := untimed_lapse e use
  have hlatch := latch_of_untimed huntimed use.binding
  have hsame := congrArg Latch.active hlatch
  refine he.change use.binding (layout_of_untimed huntimed) (fun _ _ hi => hi) (fun i hi => ?_) ?_ ?_
  · rw [latch_lapse_of_ne _ (Ne.symm hi)]
  · intro hid hup
    have husers := congrArg Latch.applied hlatch
    exact husers.trans (he.users _ hid (hsame.symm.trans hup))
  · intro hid hback hup
    rw [he.timers _ hid hback (hsame.symm.trans hup)] at htimer
    contradiction

theorem blink {t : Turn} (ht : RestsWithin S t.engine) (id : Nat) (source target : Descriptor) :
    RestsWithin S (t.blink id source target).1.engine := by
  obtain ⟨pads, outputs, hengine, hcount⟩ := Turn.blink_frame t id source target
  have hlit := ht.congr (layout_mapLatch t.engine id fun l => { l with lit := !l.lit })
    (latch_mapLatch_congr Latch.holding rfl)
  rw [hengine]
  exact hlit.congr (layout_write _ _ hcount) fun _ => rfl

theorem tick {t : Turn} {use : TimerUse} (ht : RestsWithin S t.engine)
    (htimer : (t.engine.latch use.binding).timer.isSome = true) :
    RestsWithin S (t.tick use).engine := by
  have hlapsed : RestsWithin S (t.mapEngine fun e => e.lapse use).engine := ht.lapse htimer
  unfold Turn.tick
  dsimp only
  split
  · exact ht
  · rename_i b _
    generalize (t.mapEngine fun e => e.lapse use) = lapsed at hlapsed ⊢
    cases use.kind with
    | turbo =>
      have hblinked := hlapsed.blink use.binding (t.engine.descriptor b.mapping.source)
        (t.engine.descriptor b.mapping.target)
      dsimp only
      generalize lapsed.blink use.binding (t.engine.descriptor b.mapping.source)
        (t.engine.descriptor b.mapping.target) = blinked at hblinked ⊢
      obtain ⟨blinked, echo⟩ := blinked
      cases echo with
      | none => exact hblinked
      | some echo => exact feed cascadeRoom blinked _ echo hblinked
    | release => exact runBinding (fun S t c pulse ht => feed cascadeRoom t c pulse ht) _ _ _ _ hlapsed
    | repeating =>
      obtain ⟨pads, hengine, hcount⟩ := Turn.goOn_frame lapsed use.binding (t.engine.descriptor _)
      dsimp only
      rw [hengine]
      exact hlapsed.congr (layout_write _ _ hcount) fun _ => rfl
    | rotate =>
      obtain ⟨pads, hengine, hcount⟩ := Turn.turnStick_frame lapsed use.binding
        (t.engine.descriptor _)
      dsimp only
      rw [hengine]
      exact hlapsed.congr (layout_write _ _ hcount) fun _ => rfl
    | keyRepeatDelay | keyRepeat =>
      dsimp only
      rw [Turn.engine_repeatKey]
      exact hlapsed

theorem forceReleases {t : Turn} (ids : List Nat) (ht : RestsWithin S t.engine) :
    RestsWithin S (ids.foldl Engine.forceRelease t).engine := by
  refine Turn.foldl_keeps _ (fun t id ht => ?_) t ids ht
  refine stopTimer ?_ id
  split
  · exact runBinding (fun S t c pulse ht => feed cascadeRoom t c pulse ht) t id _ true ht
  · exact ht

theorem forceReleaseAll (he : RestsWithin S e) (time : Nat) :
    RestsWithin S (e.forceReleaseAll time) := by
  refine Turn.commit_keeps chore _ ?_
  dsimp only
  rw [Turn.engine_updatePads]
  exact (forceReleases (t := { engine := e, time }) _ he).congr
    (layout_write _ _ (PadBank.count_change _ _ _)) fun _ => rfl

/-! ## §7 Between any two operations -/

theorem errand (h : Errand e e') (he : RestsWithin S e) : RestsWithin S e' := by
  cases h with
  | take | forward | enable | activate | pass => exact he.congr rfl fun _ => rfl
  | remember id user => exact he.chore (.remember e id user)

theorem duty (h : Duty e e') (he : RestsWithin S e) : RestsWithin S e' := by
  cases h with
  | errand h => exact he.errand h
  | switchOff time => exact (he.forceReleaseAll time).congr rfl fun _ => rfl
  | connect user time =>
    refine Turn.commit_keeps chore _ ?_
    rw [Turn.engine_updatePad]
    exact he.congr rfl fun _ => rfl

theorem deed (h : Deed e e') (hknown : TimersKnown e) (he : RestsWithin S e) :
    RestsWithin S e' := by
  cases h with
  | duty h => exact he.duty h
  | feed c pulse time =>
    exact Turn.commit_keeps chore _ (feed _ _ c pulse (he.congr rfl fun _ => rfl))
  | @expire token use huse time =>
    have hnoted : RestsWithin S { e with lastTime := time } := he.congr rfl fun _ => rfl
    refine Turn.commit_keeps chore _ (tick (t := { engine := _, time }) hnoted ?_)
    show (e.latch use.binding).timer.isSome = true
    rw [hknown use (List.mem_of_find?_eq_some huse)]
    rfl
  | release time => exact he.forceReleaseAll time

theorem ofInstall (e : Engine) (config : Config) (time : Nat) :
    RestsWithin S (e.install config time) := by
  constructor
  · intro id _ _
    rw [install_latch]
  · intro id _ _ _
    rw [install_latch]

end RestsWithin

/-- **Between two operations, what is not in effect holds on to nothing.** -/
theorem Operated.rests {admits : Config → Prop} (he : Operated admits e) :
    RestsWithin (fun _ => False) e := by
  have hstable := timersKnown_stable admits
  have hboth : RestsWithin (fun _ => False) e ∧ TimersKnown e := by
    refine Operated.of_deeds (P := fun e => RestsWithin (fun _ => False) e ∧ TimersKnown e) ?_ ?_ ?_ he
    · exact fun hconfig => ⟨.ofInstall _ _ 0, (Operated.start hconfig).timersKnown⟩
    · exact fun h he => ⟨he.1.deed h he.2, h.keeps_stable hstable (fun _ _ he => he) he.2⟩
    · exact fun {e _} hconfig _ hfreed =>
        ⟨.ofInstall _ _ _, hstable.install _ e.lastTime hconfig hfreed.2⟩
  exact hboth.1

variable {id : Nat} {b : Binding}

/-- **Timers run only for what is in effect**, unless a binding feeds back on itself. -/
theorem active_of_timer {admits : Config → Prop} (he : Operated admits e)
    (hb : e.bindings[id]? = some b) (hback : ¬ e.FeedsBack id)
    (htimer : b.latch.timer.isSome = true) : b.latch.active = true := by
  by_contra hup
  have hnone := he.rests.timers id (fun h => h) hback
  rw [latch_of_getElem? hb] at hnone
  rw [hnone (by simpa using hup)] at htimer
  contradiction

/-- The key A drives a button that blinks. -/
def flashingConfig : ConfigFile :=
  { mappings := [{ source := "A", target := "PadA", options := ["turbo"] }] }

/-- The engine that makes the button blink while A is held. -/
def flashing : Engine := (ofConfig flashingConfig.compile).after (.input ⟨0x41⟩ 0 true 1 0)

/-- While the button blinks its binding is in effect. -/
theorem active_flashing : Reachable Config.IsCompiled flashing ∧
    ∃ b, flashing.bindings[0]? = some b ∧ ¬ flashing.FeedsBack 0 ∧ b.latch.timer.isSome = true ∧
      b.latch.active = true := by
  have hreachable : Reachable Config.IsCompiled flashing := (Reachable.compiled _).input ..
  have hstate : (flashing.bindings[0]?.map fun b =>
      ((flashing.descriptor b.mapping.target).cell, b.latch.timer.isSome)) =
      some (.pad (.button 0), true) := by
    decide +kernel
  obtain ⟨b, hb, hrest⟩ := Option.map_eq_some_iff.mp hstate
  obtain ⟨hcell, htimer⟩ := Prod.mk.inj hrest
  -- A button is no variable, so nothing comes back from it.
  have hback : ¬ flashing.FeedsBack 0 := by
    rintro ⟨b', hb', hvar, -⟩
    obtain rfl : b = b' := Option.some.inj (hb.symm.trans hb')
    rw [hcell] at hvar
    cases hvar
  exact ⟨hreachable, b, hb, hback, htimer, active_of_timer hreachable.operated hb hback htimer⟩

/-- The key A makes a variable blink unless the variable has been seen. -/
def selfSeenConfig : ConfigFile :=
  { custom := { vars := ["Held", "Seen"] }
    mappings :=
      [{ source := "A", target := "Held", options := ["turbo"], condition := some "!Seen" },
        { source := "Held", target := "Seen" }] }

/-- The engine after A has been pressed: the press was over before it was settled. -/
def selfSeen : Engine := (ofConfig selfSeenConfig.compile).after (.input ⟨0x41⟩ 0 true 1 0)

/-- A binding that has been released within its own press has a timer although it is not in
effect. -/
theorem timer_selfSeen : Reachable Config.IsCompiled selfSeen ∧
    ∃ b, selfSeen.bindings[0]? = some b ∧ b.latch.timer.isSome = true ∧ b.latch.active = false := by
  have hstate : (selfSeen.bindings[0]?.map fun b => (b.latch.timer.isSome, b.latch.active)) =
      some (true, false) := by
    decide +kernel
  obtain ⟨b, hb, hrest⟩ := Option.map_eq_some_iff.mp hstate
  obtain ⟨htimer, hactive⟩ := Prod.mk.inj hrest
  exact ⟨(Reachable.compiled _).input .., b, hb, htimer, hactive⟩

end Engine

end VirtualPad
