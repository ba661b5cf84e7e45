import VirtualPad.Proofs.BackedSlots
import VirtualPad.Proofs.Falls
import VirtualPad.Proofs.Fittings
import VirtualPad.Proofs.SlotOwners

/-!
# A release gets through to what it ends

A source that users have one of each is a part of a pad, and what it has put into effect ends when it
goes up for the same user.  Three things could come in between.  What runs before the binding has its
turn: but when such a source goes up there are only falls, so the binding finds all that it looks at
unchanged, or it has ended already.  What comes after it: falls again, and requests, which put nothing
into effect either.

The third one is the user.  A binding that is meant for one user has come into effect for that one.  A
binding that is meant for the active user is asked again when its source goes up, and does not hear of
the release if another user is active by then.
-/

namespace VirtualPad

/-! ## §1 Whom a binding has come into effect for -/

/-- Whether the binding is in effect, and for whom it has come into effect. -/
def Latch.origin (l : Latch) : Bool × User := (l.active, l.sourceUser)

/-- A pulse leaves the user of a latch alone. -/
theorem Latch.sourceUser_of_respond {l latch : Latch} {m : Mapping} {source target : Descriptor}
    {down forced : Bool} {strength : Float} {response : Option Response}
    (h : l.respond m source target down strength forced = (latch, response)) :
    latch.sourceUser = l.sourceUser := by
  obtain ⟨_, _, _, _, rfl⟩ := respond_frame h
  rfl

namespace Engine

variable {e e' : Engine}

/-- What is in effect and is meant for one user has come into effect for that one. -/
def Sourced (e : Engine) : Prop :=
  ∀ (id : Nat) (b : Binding) (user : Nat), e.bindings[id]? = some b → b.latch.active = true →
    (e.descriptor b.mapping.source).flags.ofUser = true → b.mapping.sourceUser = .index user →
    b.latch.sourceUser.val = user

namespace Sourced

theorem congr (he : Sourced e) (hlayout : e'.layout = e.layout)
    (horigin : ∀ i, (e'.latch i).origin = (e.latch i).origin) : Sourced e' := by
  intro id b' user hb' hactive hof huser
  obtain ⟨b, hb, hmapping, -⟩ := binding_congr hlayout.symm hb'
  have hsame := horigin id
  rw [latch_of_getElem? hb, latch_of_getElem? hb'] at hsame
  obtain ⟨hsameActive, hsameUser⟩ := Prod.mk.inj hsame
  rw [descriptor_congr hlayout, ← hmapping] at hof
  rw [← hmapping] at huser
  rw [hsameUser]
  exact he id b user hb (hsameActive.symm.trans hactive) hof huser

theorem of_untimed (he : Sourced e) (h : e'.untimed = e.untimed) : Sourced e' := by
  refine he.congr (layout_of_untimed h) fun i => ?_
  have hsame := congrArg Latch.origin (latch_of_untimed h i)
  exact hsame

/-- A change of one latch keeps the property, if it does for the binding of that latch. -/
theorem mapLatch (he : Sourced e) {id : Nat} {change : Latch → Latch}
    (hown : ∀ (b : Binding) (user : Nat), e.bindings[id]? = some b →
      (change b.latch).active = true → (e.descriptor b.mapping.source).flags.ofUser = true →
      b.mapping.sourceUser = .index user → (change b.latch).sourceUser.val = user) :
    Sourced (e.mapLatch id change) := by
  intro i b' user hb' hactive hof huser
  rw [descriptor_congr (layout_mapLatch e id change)] at hof
  rw [getElem?_mapLatch] at hb'
  split at hb'
  · rename_i hsame
    subst hsame
    obtain ⟨b, hb, rfl⟩ := Option.map_eq_some_iff.mp hb'
    exact hown b user hb hactive hof huser
  · exact he i b' user hb' hactive hof huser

/-- A binding that comes into effect has accepted a press of a user that it is meant for. -/
theorem act {t : Turn} {id : Nat} {b : Binding} {pulse : Pulse} {forced : Bool} {latch : Latch}
    {r : Response} (ht : Sourced t.engine) (hb : t.engine.bindings[id]? = some b)
    (hreaches : t.Reaches b pulse forced)
    (hrespond : b.latch.respond b.mapping (t.sourceOf b) (t.targetOf b) pulse.down pulse.strength
      forced = (latch, some r)) :
    Sourced (t.firstStep id b pulse forced latch (some r)).engine := by
  obtain ⟨change, pads, outputs, hengine, hcount, hcore, hsource⟩ := Turn.perform_frame
    (t.mapLatch id fun _ => latch) id b.mapping (t.sourceOf b) (t.targetOf b) pulse.user r forced
  obtain ⟨hwas, hnow⟩ := Latch.respond_some hrespond
  have hfirst : (t.firstStep id b pulse forced latch (some r)).engine =
      (t.engine.mapLatch id fun _ => change latch).write pads outputs := by
    refine hengine.trans (congrArg (fun e : Engine => e.write pads outputs) ?_)
    exact mapLatch_mapLatch t.engine id _ change
  rw [hfirst]
  refine congr (ht.mapLatch fun c user hc hactive hof huser => ?_) (layout_write _ _ hcount)
    fun _ => rfl
  obtain rfl : b = c := Option.some.inj (hb.symm.trans hc)
  have hrises : r.now = true := by
    have hsame := congrArg Latch.active (hcore latch)
    exact hnow.trans (hsame.symm.trans hactive)
  rw [hsource]
  split
  · -- It comes into effect now, so the pulse is one that it has accepted.
    rcases hreaches with rfl | haccepts
    · exact absurd (hrises.symm.trans (hnow.trans (Latch.respond_forced hrespond).1)) (by decide)
    · have hcovers := (Turn.accepts_iff.mp haccepts).2.1 hof
      simpa [huser, UserRef.covers] using hcovers
  · -- It has been in effect before.
    rename_i hstays
    rw [Latch.sourceUser_of_respond hrespond]
    refine ht id b user hb ?_ hof huser
    rw [← hwas]
    simpa [hrises] using hstays

theorem move {t t' : Turn} (h : Turn.Move t t') (ht : Sourced t.engine) : Sourced t'.engine := by
  cases h with
  | @swallow id b pulse forced latch hb hreaches hrespond =>
    refine ht.congr (layout_mapLatch _ id _) (latch_mapLatch_congr Latch.origin ?_)
    rw [latch_of_getElem? hb]
    have hactive := congrArg Prod.fst (Latch.respond_none hrespond)
    exact Prod.ext hactive (Latch.sourceUser_of_respond hrespond)
  | act hb hreaches hrespond => exact ht.act hb hreaches hrespond
  | plan was now hb => exact ht.of_untimed (untimed_followPlan _ _ _)
  | letGo hb hpad => exact ht.congr (layout_mapLatch _ _ _) (latch_mapLatch_congr Latch.origin rfl)
  | @blink id b hb huse =>
    obtain ⟨pads, outputs, hengine, hcount⟩ := Turn.blink_frame t id (t.sourceOf b) (t.targetOf b)
    have hlit := ht.congr (layout_mapLatch t.engine id fun l => { l with lit := !l.lit })
      (latch_mapLatch_congr Latch.origin rfl)
    rw [hengine]
    exact hlit.congr (layout_write _ _ hcount) fun _ => rfl
  | @goOn id b hb =>
    obtain ⟨pads, hengine, hcount⟩ := Turn.goOn_frame t id (t.targetOf b)
    rw [hengine]
    exact ht.congr (layout_write _ _ hcount) fun _ => rfl
  | @turnStick id b hb =>
    obtain ⟨pads, hengine, hcount⟩ := Turn.turnStick_frame t id (t.targetOf b)
    rw [hengine]
    exact ht.congr (layout_write _ _ hcount) fun _ => rfl
  | stop id => exact ht.of_untimed (untimed_stopTimer _ id)

theorem chore (h : Chore e e') (he : Sourced e) : Sourced e' := by
  cases h with
  | note | enable | label | activate | advance => exact he.congr rfl fun _ => rfl
  | remember id user =>
    exact he.congr (layout_mapLatch e id _) (latch_mapLatch_congr Latch.origin rfl)

theorem feed (room : Nat) : Turn.Keeps Sourced (Turn.feed room) :=
  Turn.feed_keeps move (fun user down _ ht => ht.congr (layout_setBoard _ _ user down) fun _ => rfl)
    room

theorem ofInstall (e : Engine) (config : Config) (time : Nat) :
    Sourced (e.install config time) := by
  intro id b user hb hactive
  rw [(install_binding hb).2] at hactive
  contradiction

theorem stable (admits : Config → Prop) : Stable admits Sourced where
  move := move
  feed := feed
  chore := chore
  force e time he := by
    have hforced := forceReleaseAll_keeps move feed chore
      (fun e users he => he.congr (layout_write e e.outputs (PadBank.count_change _ users _))
        fun _ => rfl) e time he
    exact ⟨hforced, hforced.congr rfl fun _ => rfl⟩
  lapse {e _ _ _ clock use _} _ _ _ he := by
    have hstays : Sourced { e with clock } := he.congr rfl fun _ => rfl
    exact hstays.of_untimed (untimed_lapse _ use)
  stray _ _ he := he.congr rfl fun _ => rfl
  install e _ time _ _ := ofInstall e.cancelTimers _ time

end Sourced

theorem Operated.sourced {admits : Config → Prop} (he : Operated admits e) : Sourced e :=
  (Sourced.stable admits).operated (fun _ _ he => he.congr rfl fun _ => rfl)
    (fun _ => Sourced.ofInstall _ _ 0) he

end Engine

namespace Turn

/-! ## §2 What goes on around a binding that hears of a release -/

/-- Nothing goes down by a fall. -/
theorem Fall.isDown {t t' : Turn} (h : Fall t t') {c : Control} {user : Nat}
    (hup : t.engine.board.isDown c user = false) : t'.engine.board.isDown c user = false := by
  cases h with
  | @answer id b pulse forced latch response hb hreaches hdown hrespond hend =>
    obtain ⟨pads, outputs, hengine⟩ := firstStep_ended_frame t id b pulse forced latch hend
    rw [hengine]
    exact hup
  | mark other user' =>
    show (t.engine.board.set other user' false).isDown c user = false
    rw [Switchboard.isDown_set]
    split
    · rfl
    · exact hup
  | stop id =>
    have hboard := congrArg Engine.board (Engine.untimed_stopTimer t.engine id)
    exact (congrArg (fun board : Switchboard => board.isDown c user) hboard).trans hup
  | letGo id => exact hup

theorem Falls.isDown {t t' : Turn} (h : Falls t t') {c : Control} {user : Nat}
    (hup : t.engine.board.isDown c user = false) : t'.engine.board.isDown c user = false := by
  induction h with
  | refl => exact hup
  | tail _ hfall ih => exact hfall.isDown ih

/-- A pair that needs both of its components is up while one of them is. -/
theorem pairState_up {t : Turn} {c pair : Control} {user : User} {down : Bool}
    (hmem : c ∈ Switchboard.components t.engine.vocabulary pair)
    (hboth : (t.engine.descriptor pair).flags.andPair = true)
    (hup : t.engine.board.isDown c user = false)
    (hstate : t.pairState? pair user = some down) : down = false := by
  obtain ⟨first, second, hpair, hc⟩ := Switchboard.mem_components.mp hmem
  change (t.engine.descriptor pair).pair = some (first, second) at hpair
  simp only [pairState?, hpair, Option.map_some, Option.some.injEq, hboth, if_true] at hstate
  rcases hc with rfl | rfl
  · rw [← hstate, hup, Bool.false_and]
  · rw [← hstate, hup, Bool.and_false]

/-- A pair of controls that users have one of each only falls when one of them has gone up. -/
theorem falls_followPair {room : Nat} {t : Turn} {c pair : Control} {pulse : Pulse}
    (hwired : t.engine.Wired) (hlists : t.engine.board.Lists Line.pairs c pair)
    (hof : (t.engine.descriptor c).flags.ofUser = true)
    (hup : t.engine.board.isDown c pulse.user = false)
    (ht : Engine.ActiveWithin (fun _ => True) t.engine) :
    Falls t (followPair (feed room) pulse t pair).1 := by
  have hmem := ((hwired.pairs c pair).mp hlists).1
  have hboth := ((t.engine.vocabulary.of_isComponent (Switchboard.isComponent_of_mem hmem)).2 hof).1
  unfold followPair
  split
  · exact .refl
  · rename_i down hstate
    obtain rfl := pairState_up hmem hboth hup hstate
    refine iteInduction (motive := fun r : Turn × Bool => Falls t r.1) (fun _ => ?_) fun _ => .refl
    exact falls_feed room t pair _ rfl (hwired.of_pairs hlists).2.2 ht

/-- **A source that users have one of each goes up**: every binding of its chain has its turn, and
before and after that come falls only. -/
theorem falls_around (room : Nat) {t : Turn} {c : Control} {pulse : Pulse} {id : Nat}
    (hwired : t.engine.Wired) (hid : t.engine.board.Lists Line.chain c id)
    (hof : (t.engine.descriptor c).flags.ofUser = true) (hdown : pulse.down = false)
    (ht : Engine.ActiveWithin (fun _ => True) t.engine) :
    ∃ turn, Falls t turn ∧
      Falls (turn.runBinding (feed room) id pulse false).1 (feed (room + 1) t c pulse).1 := by
  obtain ⟨line, hline, hmem⟩ := hid
  obtain ⟨before, rest, hchain⟩ := List.append_of_mem hmem
  have huser : t.stateUser c pulse.user = pulse.user := if_pos hof
  have hrun : ∀ (t' : Turn) id, Engine.ActiveWithin (fun _ => True) t'.engine →
      Falls t' (t'.runBinding (feed room) id pulse false).1 :=
    fun t' id ht' => falls_runBinding (falls_feed room) id false hdown ht'
  have hmark : Fall t (t.mark c pulse.user pulse.down) := hdown ▸ .mark t c pulse.user
  have hup : (t.mark c pulse.user pulse.down).engine.board.isDown c pulse.user = false := by
    have hin : pulse.user.val < maskWidth := Nat.lt_trans pulse.user.isLt (by decide)
    show (t.engine.board.set c pulse.user pulse.down).isDown c pulse.user = false
    rw [Switchboard.isDown_set, if_pos ⟨rfl, rfl, hin, by rw [hline]; rfl⟩, hdown]
  rw [feed_succ room t c pulse hline]
  dsimp only
  rw [huser, hchain, List.foldl_append, List.foldl_cons]
  have hmarked := hmark.within ht
  have hbefore := falls_foldl hrun before hmarked
  refine ⟨_, .head hmark hbefore, ?_⟩
  generalize before.foldl _ _ = turn at hbefore
  have hheard := hbefore.trans (hrun turn id (Falls.within hbefore hmarked))
  change Falls (turn.runBinding (feed room) id pulse false).1 _
  generalize (turn.runBinding (feed room) id pulse false).1 = heard at hheard
  have hrest := falls_foldl hrun rest (Falls.within hheard hmarked)
  generalize rest.foldl _ heard = ran at hrest
  -- The pairs follow in the layout of the beginning, with the source up.
  have hpairs : Falls ran (line.pairs.foldl (fun t pair => (followPair (feed room) pulse t pair).1)
      ran) := by
    refine List.foldlRecOn (motive := Falls ran) line.pairs _ .refl fun t' ht' pair hpair => ?_
    have hall : Falls (t.mark c pulse.user pulse.down) t' := hheard.trans (hrest.trans ht')
    have hlayout := Steps.layout (hmark.steps.trans hall.steps)
    refine ht'.trans (falls_followPair (c := c) (hwired.congr hlayout) ?_ ?_ (hall.isDown hup)
      (hall.within hmarked))
    · exact (Engine.lists_congr Wiring.pairs (fun _ => rfl) hlayout _ _).mpr ⟨line, hline, hpair⟩
    · rw [Engine.descriptor_congr hlayout]
      exact hof
  have hfollowed := hrest.trans hpairs
  refine iteInduction (motive := Falls heard) (fun _ => hfollowed.trans ?_) fun _ => hfollowed
  exact falls_foldl (fun t' id ht' => review_cases .refl (falls_runBinding (falls_feed room) id true
    rfl ht')) line.watchers (Falls.within (hheard.trans hfollowed) hmarked)

/-- While there are only falls, a binding that is in effect goes on to accept what it would have
accepted. -/
theorem Falls.accepts {t t' : Turn} (h : Falls t t') {id : Nat} {b b' : Binding} {pulse : Pulse}
    (hb : t.engine.bindings[id]? = some b) (hb' : t'.engine.bindings[id]? = some b')
    (hdown : pulse.down = false) (hactive : b'.latch.active = true)
    (haccepts : t.accepts b (t.sourceOf b) (t.targetOf b) pulse = true) :
    t'.accepts b' (t'.sourceOf b') (t'.targetOf b') pulse = true := by
  obtain ⟨huser, hdisabled⟩ := h.steps.gates
  have hlayout := h.steps.layout
  obtain ⟨c, hc, hmapping, hslot⟩ := Engine.binding_congr hlayout hb
  obtain rfl : b' = c := Option.some.inj (hb'.symm.trans hc)
  obtain ⟨henabled, hcovers, hequipped, -⟩ := accepts_iff.mp haccepts
  rw [accepts_iff, sourceOf_congr hlayout hmapping, targetOf_congr hlayout hmapping, huser, hdisabled,
    hmapping, hslot]
  refine ⟨henabled, hcovers, hequipped, ?_⟩
  rw [hdown]
  simp [Latch.isLatched, hactive]

/-- **A source ends what hears of it going up**, whatever else is on its chain. -/
theorem feed_ends (room : Nat) {t : Turn} {id : Nat} {b : Binding} {pulse : Pulse}
    (hwired : t.engine.Wired) (ht : Engine.ActiveWithin (fun _ => True) t.engine)
    (hb : t.engine.bindings[id]? = some b) (hof : (t.sourceOf b).flags.ofUser = true)
    (hdown : pulse.down = false)
    (haccepts : t.accepts b (t.sourceOf b) (t.targetOf b) pulse = true)
    (htoggle : b.mapping.options.toggle = false)
    (hadd : b.mapping.options.add = true → b.mapping.conditions = []) :
    Engine.ActiveWithin (fun i => i ≠ id) (feed (room + 1) t b.mapping.source pulse).1.engine := by
  have hchain := (hwired.chain b.mapping.source id).mpr ⟨b, hb, rfl⟩
  obtain ⟨turn, hbefore, hafter⟩ := falls_around room hwired hchain hof hdown ht
  refine hafter.within ?_
  have hturn := hbefore.within ht
  obtain ⟨b', hb', hmapping, -⟩ := Engine.binding_congr hbefore.steps.layout hb
  by_cases hactive : b'.latch.active = true
  · -- It has its turn, and the release ends it.
    have hreaches : turn.Reaches b' pulse false :=
      .inr (hbefore.accepts hb hb' hdown hactive haccepts)
    refine hturn.runBinding_of_firstStep (Engine.ActiveWithin.calms_feed room) hdown hb' hreaches
      fun latch response hrespond => ?_
    refine hturn.answered (Move.firstStep hb' hreaches hrespond).layout
      (answered_firstStep hb' hreaches hrespond) (fun i hi _ => hi) fun latch response hrespond hon => ?_
    rw [hdown] at hrespond
    rw [← hmapping] at htoggle hadd
    exact absurd (hon.symm.trans (Latch.ended_of_release hrespond htoggle hadd)) (by decide)
  · -- It has ended before its turn.
    refine Engine.ActiveWithin.runBinding (Engine.ActiveWithin.calms_feed room) id pulse false hdown
      ⟨hturn.unpaired, hturn.steady, fun i hon => ?_⟩
    rintro rfl
    rw [Engine.latch_of_getElem? hb'] at hon
    exact hactive hon

end Turn

namespace Engine

variable {e e' : Engine}

/-! ## §3 Requests -/

/-- What is done to carry out requests puts nothing into effect. -/
theorem ActiveWithin.duty {A : Nat → Prop} (h : Duty e e') (he : ActiveWithin A e) :
    ActiveWithin A e' := by
  cases h with
  | errand h =>
    cases h with
    | take | forward | enable | activate | pass => exact he.congr rfl fun _ => rfl
    | remember id user => exact he.chore (.remember e id user)
  | switchOff time =>
    have hnone : ActiveWithin A (e.forceReleaseAll time) :=
      (ActiveWithin.forceReleaseAll e time he).mono fun _ => False.elim
    exact hnone.congr rfl fun _ => rfl
  | connect user time =>
    refine Turn.commit_keeps ActiveWithin.chore _ ?_
    rw [Turn.engine_updatePad]
    exact he.congr rfl fun _ => rfl

theorem ActiveWithin.duties {A : Nat → Prop} (h : Duties e e') (he : ActiveWithin A e) :
    ActiveWithin A e' := by
  induction h with
  | refl => exact he
  | tail _ hduty ih => exact ih.duty hduty

/-! ## §4 Between two operations -/

end Engine

/-- The source of the binding goes up for the user that the binding has come into effect for. -/
def Binding.letUp (b : Binding) (strength : Float) (time : Nat) : Call :=
  .input b.mapping.source b.latch.sourceUser false strength time

namespace Engine

variable {admits : Config → Prop} {e : Engine} {id : Nat} {b : Binding}

/-- A binding in effect is meant for the user that it has come into effect for, unless it is meant for
the active user and that is another one by now. -/
theorem Operated.covers_source (he : Operated admits e) (hb : e.bindings[id]? = some b)
    (hactive : b.latch.active = true) (hof : (e.descriptor b.mapping.source).flags.ofUser = true)
    (hsame : b.mapping.sourceUser = .active → e.activeUser = b.latch.sourceUser) :
    b.mapping.sourceUser.covers b.latch.sourceUser e.activeUser = true := by
  cases huser : b.mapping.sourceUser with
  | active => simp [UserRef.covers, hsame huser]
  | index user => simp [UserRef.covers, he.sourced id b user hb hactive hof huser]
  | everyone => rfl

/-- So it accepts the release, while the mappings are on. -/
theorem Operated.accepts_release (he : Operated admits e) (hb : e.bindings[id]? = some b)
    (hactive : b.latch.active = true) (henabled : e.disabled = false)
    (hcovers : b.mapping.sourceUser.covers b.latch.sourceUser e.activeUser = true)
    (strength : Float) (time : Nat) :
    ({ engine := { e with lastTime := time }, time } : Turn).accepts b
      (e.descriptor b.mapping.source) (e.descriptor b.mapping.target)
      ⟨b.latch.sourceUser, false, strength⟩ = true := by
  have hequipped : OnlyEquipped e :=
    (OnlyEquipped.stable admits).operated (fun _ _ he => he.congr rfl fun _ => rfl)
      (fun _ => ActiveWithin.ofInstall _ _ 0) he
  rw [Turn.accepts_iff]
  refine ⟨fun hoff => absurd (henabled.symm.trans hoff) (by decide), fun _ => hcovers, ?_, ?_⟩
  · refine hequipped.within id ?_ b hb
    rw [latch_of_getElem? hb]
    exact hactive
  · simp [Latch.isLatched, hactive]

/-- A release that is accepted ends the binding, and nothing of the same event puts it into effect
again. -/
theorem Operated.ends_after (he : Operated admits e) (hb : e.bindings[id]? = some b)
    (hactive : b.latch.active = true) (henabled : e.disabled = false)
    (hof : (e.descriptor b.mapping.source).flags.ofUser = true)
    (hcovers : b.mapping.sourceUser.covers b.latch.sourceUser e.activeUser = true)
    (htoggle : b.mapping.options.toggle = false)
    (hadd : b.mapping.options.add = true → b.mapping.conditions = []) (strength : Float)
    (time : Nat) : ((e.after (b.letUp strength time)).latch id).active = false := by
  obtain ⟨amount, hfed⟩ : ∃ amount, e.after (b.letUp strength time) =
      (e.accept b.mapping.source ⟨b.latch.sourceUser, false, amount⟩ time).1 :=
    ⟨_, congrArg Prod.fst (dif_pos b.latch.sourceUser.isLt)⟩
  have hnoted : ({ e with lastTime := time } : Engine).layout = e.layout := rfl
  have hends := Turn.feed_ends cascadeRoom (t := { engine := { e with lastTime := time }, time })
    (he.wired.congr hnoted) (he.mirrored.settled.congr hnoted fun _ => rfl) hb hof rfl
    (he.accepts_release hb hactive henabled hcovers amount time) htoggle hadd
  have hafter := (Turn.commit_keeps ActiveWithin.chore _ hends).duties (duties_drainQueue _ time)
  rw [hfed, ← Bool.not_eq_true]
  exact fun hon => hafter.within id hon rfl

/-- **A release gets through to what it ends**, and nothing is left of that on any pad, whatever else
has happened since the press.  Only a binding that is meant for the active user has to have come into
effect for the one who is active now. -/
theorem release_heard (he : Operated Config.IsCompiled e) (hb : e.bindings[id]? = some b)
    (hactive : b.latch.active = true) (henabled : e.disabled = false)
    (hof : (e.descriptor b.mapping.source).flags.ofUser = true)
    (htoggle : b.mapping.options.toggle = false)
    (hadd : b.mapping.options.add = true → b.mapping.conditions = [])
    (hsame : b.mapping.sourceUser = .active → e.activeUser = b.latch.sourceUser)
    (strength : Float) (time : Nat) :
    ((e.after (b.letUp strength time)).latch id).active = false ∧
      ∀ spot slot, b.slot = some slot → e.Touches b spot →
        (e.after (b.letUp strength time)).held spot slot = none := by
  have hended := he.ends_after hb hactive henabled hof (he.covers_source hb hactive hof hsame) htoggle
    hadd strength time
  refine ⟨hended, fun spot slot hslot htouches => ?_⟩
  -- What the slot held would have to be backed by the binding.
  have hcall : (b.letUp strength time).Admitted Config.IsCompiled := trivial
  have hlayout : (e.after (b.letUp strength time)).layout = e.layout :=
    (deeds_after e fun config h => by contradiction).layout
  obtain ⟨b', hb', hmapping, hsameSlot⟩ := binding_congr hlayout hb
  have hdrives := (he.mirrored.mirrors.keeping id b hb).drives htouches
  rw [← hmapping, ← drives_congr hlayout] at hdrives
  rw [← Option.not_isSome_iff_eq_none]
  intro hlive
  have hbacked := (he.call hcall).backed.backs id b' hb' spot slot (hsameSlot.trans hslot) hdrives hlive
  rw [latch_of_getElem? hb'] at hended
  exact absurd (hended.symm.trans hbacked.1) (by decide)

/-- The button A of the active user's pad presses the button B, and F2 makes the second user the active
one. -/
def handoverConfig : ConfigFile :=
  { mappings :=
      [{ source := "PadA@active", target := "PadB" }, { source := "F2", target := "SetActiveUser@2" }] }

/-- The engine while the first user, who is the active one, holds the button. -/
def holding : Engine := (ofConfig handoverConfig.compile).after (.input ⟨0x200⟩ 0 true 1 0)

/-- The button B is pressed, and it is let go of with the button A. -/
theorem release_heard_holding : Reachable Config.IsCompiled holding ∧
    ∃ b, holding.bindings[0]? = some b ∧ b.mapping.sourceUser = .active ∧ b.latch.active = true ∧
      (holding.held (.pad 0 (.button 1)) 0).isSome = true ∧
      ((holding.after (b.letUp 0 1)).latch 0).active = false ∧
      (holding.after (b.letUp 0 1)).held (.pad 0 (.button 1)) 0 = none := by
  have hreachable : Reachable Config.IsCompiled holding := (Reachable.compiled _).input ..
  have hstate : (holding.bindings[0]?.map fun b => ((b.mapping.sourceUser, b.mapping.options.toggle,
      b.mapping.options.add), (holding.descriptor b.mapping.source).flags.ofUser,
      (holding.descriptor b.mapping.target).cell)) =
        some ((.active, false, false), true, .pad (.button 1)) ∧
      (holding.bindings[0]?.map fun b => (b.slot, b.latch.active, b.latch.applied,
        b.latch.sourceUser)) = some (some 0, true, [0], 0) ∧
      holding.disabled = false ∧ holding.activeUser = 0 ∧
      (holding.held (.pad 0 (.button 1)) 0).isSome = true := by
    decide +kernel
  obtain ⟨hmapping, hlatch, henabled, huser, hlive⟩ := hstate
  obtain ⟨b, hb, hrest⟩ := Option.map_eq_some_iff.mp hlatch
  rw [hb] at hmapping
  simp only [Option.map_some, Option.some.injEq, Prod.mk.injEq] at hmapping hrest
  obtain ⟨⟨hmeant, htoggle, hadd⟩, hof, hcell⟩ := hmapping
  obtain ⟨hslot, hactive, happlied, hsource⟩ := hrest
  have htouches : holding.Touches b (.pad 0 (.button 1)) := by
    refine ⟨⟨.button 1, hcell, List.mem_singleton.mpr rfl⟩, ?_⟩
    rw [happlied]
    exact List.mem_singleton.mpr rfl
  have hheard := release_heard hreachable.operated hb hactive henabled hof htoggle
    (fun h => absurd (hadd.symm.trans h) (by decide)) (fun _ => huser.trans hsource.symm) 0 1
  exact ⟨hreachable, b, hb, hmeant, hactive, hlive, hheard.1, hheard.2 _ 0 hslot htouches⟩

/-- The engine after the second user has become the active one. -/
def handedOver : Engine :=
  (holding.after (.input ⟨0x71⟩ 0 true 1 1)).after (.input ⟨0x71⟩ 0 false 0 2)

/-- When the button A is let go of then, the binding does not hear of it: it stays in effect, and the
button B stays pressed. -/
theorem unheard_handedOver : Reachable Config.IsCompiled handedOver ∧ handedOver.disabled = false ∧
    (∀ b ∈ handedOver.bindings.toList, (handedOver.descriptor b.mapping.target).cell ≠ .output .var) ∧
    ∃ b, handedOver.bindings[0]? = some b ∧ b.latch.active = true ∧
      (handedOver.descriptor b.mapping.source).flags.ofUser = true ∧
      b.mapping.options.toggle = false ∧ b.mapping.options.add = false ∧
      b.slot = some 0 ∧ b.latch.applied = [0] ∧
      ((handedOver.after (b.letUp 0 3)).latch 0).active = true ∧
      ((handedOver.after (b.letUp 0 3)).held (.pad 0 (.button 1)) 0).isSome = true := by
  have hreachable : Reachable Config.IsCompiled handedOver :=
    (((Reachable.compiled _).input ..).input ..).input ..
  have hstate : handedOver.disabled = false ∧
      (∀ b ∈ handedOver.bindings.toList, (handedOver.descriptor b.mapping.target).cell ≠ .output .var) ∧
      (handedOver.bindings[0]?.map fun b => ((handedOver.descriptor b.mapping.source).flags.ofUser,
        b.mapping.options.toggle, b.mapping.options.add)) = some (true, false, false) ∧
      (handedOver.bindings[0]?.map fun b => (b.latch.active, b.slot, b.latch.applied,
        ((handedOver.after (b.letUp 0 3)).latch 0).active,
        ((handedOver.after (b.letUp 0 3)).held (.pad 0 (.button 1)) 0).isSome)) =
        some (true, some 0, [0], true, true) := by
    decide +kernel
  obtain ⟨henabled, hvars, hmapping, hlatch⟩ := hstate
  obtain ⟨b, hb, hrest⟩ := Option.map_eq_some_iff.mp hlatch
  rw [hb] at hmapping
  simp only [Option.map_some, Option.some.injEq, Prod.mk.injEq] at hmapping hrest
  obtain ⟨hof, htoggle, hadd⟩ := hmapping
  obtain ⟨hactive, hslot, happlied, hstays, hlive⟩ := hrest
  exact ⟨hreachable, henabled, hvars, b, hb, hactive, hof, htoggle, hadd, hslot, happlied, hstays,
    hlive⟩

end Engine

end VirtualPad
