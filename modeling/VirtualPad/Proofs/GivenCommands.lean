import VirtualPad.Proofs.LatePresses
import VirtualPad.Proofs.Orders

/-!
# Bindings that give commands to the host

Some commands only the host can carry out: to load a configuration, or to load it again.  A mapping
gives its command when its source is released.

A binding that gives such a command is run by its source alone, if that is neither a variable nor a
pair of keys and if there are no conditions: whatever else moves leaves the binding as it is and
requests nothing in its name (`Turn.Bystands`).  When the source itself moves, the binding is in
effect just if the source is down, and it makes its requests just if it was in effect and the source
goes up (`Turn.Gave`).
-/

namespace VirtualPad

namespace Turn

/-! ## §1 Bystanders -/

/-- The requests made in the name of a binding. -/
def asked (t : Turn) (id : Nat) : List Request := t.requests.filter fun r => r.mapping == id

/-- In the second turn a binding and a control are as in the first one, and nothing has been requested
in the name of the binding. -/
structure Bystands (id : Nat) (k : Control) (t t' : Turn) : Prop where
  layout : t'.engine.layout = t.engine.layout
  latch : t'.engine.latch id = t.engine.latch id
  isDown (user : Nat) : t'.engine.board.isDown k user = t.engine.board.isDown k user
  asked : t'.asked id = t.asked id

namespace Bystands

variable {id : Nat} {k : Control} {t t' t'' : Turn}

theorem refl (t : Turn) : Bystands id k t t := ⟨rfl, rfl, fun _ => rfl, rfl⟩

theorem trans (h : Bystands id k t t') (h' : Bystands id k t' t'') : Bystands id k t t'' where
  layout := h'.layout.trans h.layout
  latch := h'.latch.trans h.latch
  isDown user := (h'.isDown user).trans (h.isDown user)
  asked := h'.asked.trans h.asked

theorem of_board (hlayout : t'.engine.layout = t.engine.layout)
    (hlatch : t'.engine.latch id = t.engine.latch id)
    (hboard : t'.engine.board = t.engine.board) (hasked : t'.asked id = t.asked id) :
    Bystands id k t t' :=
  ⟨hlayout, hlatch, fun user => congrArg (fun b : Switchboard => b.isDown k user) hboard, hasked⟩

/-- What another binding asks for is not in the name of this one. -/
theorem asked_firstStep {other : Nat} (hother : other ≠ id) {b : Binding}
    (hb : t.engine.bindings[other]? = some b) (pulse : Pulse) (forced : Bool) {latch : Latch}
    (happlied : latch.applied = b.latch.applied) (r : Response) :
    (t.firstStep other b pulse forced latch (some r)).asked id = t.asked id := by
  unfold Turn.asked
  rw [requests_firstStep hb pulse forced happlied, List.filter_append]
  have hnone : (t.asks other b r forced).filter (fun r => r.mapping == id) = [] := by
    refine List.filter_eq_nil_iff.mpr fun q hq => ?_
    simpa [(mem_asks hq).2.1] using hother
  rw [hnone, List.append_nil]

theorem firstStep {other : Nat} (hother : other ≠ id) {b : Binding}
    (hb : t.engine.bindings[other]? = some b) {pulse : Pulse} {forced : Bool} {latch : Latch}
    {response : Option Response}
    (hrespond : b.latch.respond b.mapping (t.sourceOf b) (t.targetOf b) pulse.down pulse.strength
      forced = (latch, response)) :
    Bystands id k t (t.firstStep other b pulse forced latch response) := by
  have hlayout := (t.steps_firstStep hb pulse forced latch response).layout
  have hlatch := latch_firstStep_of_ne (t := t) b pulse forced latch response hother
  cases response with
  | none => exact .of_board hlayout hlatch rfl rfl
  | some r =>
    refine .of_board hlayout hlatch ?_
      (asked_firstStep hother hb pulse forced (Latch.respond_applied hrespond) r)
    obtain ⟨change, pads, outputs, hengine, -⟩ := (t.mapLatch other fun _ => latch).perform_frame
      other b.mapping (t.sourceOf b) (t.targetOf b) pulse.user r forced
    show ((t.mapLatch other fun _ => latch).perform other b.mapping (t.sourceOf b) (t.targetOf b)
      pulse.user r forced).1.engine.board = _
    rw [hengine]
    rfl

theorem settle {other : Nat} (hother : other ≠ id) (m : Mapping) (source target : Descriptor)
    (r : Response) : Bystands id k t (t.settle other m source target r) := by
  have hplanned : ∀ plan, Bystands id k t (t.mapEngine fun e => e.followPlan other plan) := by
    exact fun plan => .of_board (Step.plan t other plan).layout
      (Engine.latch_followPlan_of_ne _ hother _) (Engine.board_followPlan _ _ _) rfl
  unfold Turn.settle
  dsimp only
  split
  · exact hplanned _
  · exact (hplanned _).trans (.of_board (Engine.layout_mapLatch _ _ _)
      ((Engine.latch_mapLatch _ _ _ _).trans (if_neg fun h => hother h.1)) rfl rfl)

/-- Another binding runs. -/
theorem runBinding {onVar : Listener} {other : Nat} (hother : other ≠ id)
    (hvar : ∀ (t' : Turn) (c : Control) (pulse : Pulse), t'.engine.layout = t.engine.layout →
      (t.engine.descriptor c).cell = .output .var → Bystands id k t' (onVar t' c pulse).1)
    (pulse : Pulse) (forced : Bool) :
    Bystands id k t (t.runBinding onVar other pulse forced).1 := by
  refine runBinding_cases (P := Bystands id k t) (fun _ => .refl t)
    (fun b latch hb _ hrespond => .firstStep hother hb hrespond) fun b latch r hb _ hrespond => ?_
  have hfirst : Bystands id k t (t.firstStep other b pulse forced latch (some r)) :=
    .firstStep hother hb hrespond
  refine .trans ?_ (.settle hother b.mapping (t.sourceOf b) (t.targetOf b) r)
  cases hecho : t.firstEcho other b pulse forced latch (some r) with
  | none => exact hfirst
  | some echo =>
    exact hfirst.trans (hvar _ _ echo hfirst.layout (perform_echo _ hecho).1)

end Bystands

end Turn

namespace Engine

/-- A binding gives the host a command with every release of its source.  The source has no users and
is neither a variable nor a pair of keys. -/
structure Gives (e : Engine) (id : Nat) (m : Mapping) (command : Command) : Prop where
  wired : e.Wired
  binding : ∃ b, e.bindings[id]? = some b ∧ b.mapping = m
  target : (e.descriptor m.target).cell = .command command
  host : command = .reload ∨ command = .loadConfig
  unconditional : m.conditions = []
  options : m.options.toggle = false ∧ m.options.add = false
  userless : (e.descriptor m.source).flags.ofUser = false
  notVar : (e.descriptor m.source).cell ≠ .output .var
  notPair : (e.descriptor m.source).pair = none

namespace Gives

variable {e e' : Engine} {id : Nat} {m : Mapping} {command : Command}

theorem congr (he : e.Gives id m command) (hlayout : e'.layout = e.layout) :
    e'.Gives id m command where
  wired := he.wired.congr hlayout
  binding := (exists_binding_congr hlayout (· = m) id).mpr he.binding
  target := (congrArg Descriptor.cell (descriptor_congr hlayout _)).trans he.target
  host := he.host
  unconditional := he.unconditional
  options := he.options
  userless := by rw [descriptor_congr hlayout, he.userless]
  notVar := by
    rw [descriptor_congr hlayout]
    exact he.notVar
  notPair := by rw [descriptor_congr hlayout, he.notPair]

theorem chain_iff (he : e.Gives id m command) (c : Control) :
    e.board.Lists Line.chain c id ↔ m.source = c := by
  obtain ⟨b, hb, hmapping⟩ := he.binding
  rw [he.wired.chain c id]
  constructor
  · rintro ⟨b', hb', rfl⟩
    obtain rfl := Option.some.inj (hb.symm.trans hb')
    rw [hmapping]
  · rintro rfl
    exact ⟨b, hb, by rw [hmapping]⟩

theorem not_watcher (he : e.Gives id m command) (c : Control) :
    ¬ e.board.Lists Line.watchers c id := by
  obtain ⟨b, hb, hmapping⟩ := he.binding
  rw [he.wired.watchers c id]
  rintro ⟨b', hb', test, htest, -⟩
  obtain rfl := Option.some.inj (hb.symm.trans hb')
  rw [hmapping, he.unconditional] at htest
  simp [Condition.testsOf] at htest

theorem pair_ne (he : e.Gives id m command) {c pair : Control}
    (h : e.board.Lists Line.pairs c pair) : pair ≠ m.source := by
  rintro rfl
  have hpair := (he.wired.of_pairs h).1
  rw [he.notPair] at hpair
  contradiction

theorem var_ne (he : e.Gives id m command) {c : Control}
    (h : (e.descriptor c).cell = .output .var) : c ≠ m.source :=
  fun hsame => he.notVar (hsame ▸ h)

end Gives

end Engine

namespace Turn

variable {id : Nat} {m : Mapping} {command : Command}

/-- The listener leaves alone a binding that gives a command, whatever moves but its source. -/
def LeavesAlone (id : Nat) (m : Mapping) (command : Command) (onVar : Listener) : Prop :=
  ∀ (t : Turn) (c : Control) (pulse : Pulse), t.engine.Gives id m command → c ≠ m.source →
    Bystands id m.source t (onVar t c pulse).1

/-- So do the other bindings, if what they pass on is left to such a listener. -/
theorem LeavesAlone.runBinding {onVar : Listener} (hbelow : LeavesAlone id m command onVar)
    {t : Turn} (hgives : t.engine.Gives id m command) {other : Nat} (hother : other ≠ id)
    (pulse : Pulse) (forced : Bool) :
    Bystands id m.source t (t.runBinding onVar other pulse forced).1 :=
  .runBinding hother (fun t' c pulse hlayout hvar =>
    hbelow t' c pulse (hgives.congr hlayout) (hgives.var_ne hvar)) pulse forced

/-- The pairs that follow a source and the watchers that are reviewed leave the binding alone. -/
theorem LeavesAlone.follow {room : Nat} (hbelow : LeavesAlone id m command (feed room)) {t₀ t : Turn}
    (hgives : t₀.engine.Gives id m command) {c : Control} {line : Line}
    (hline : t₀.engine.board.line? c = some line) (hlayout : t.engine.layout = t₀.engine.layout)
    (pulse : Pulse) :
    let followed := line.pairs.foldl (fun t pair => (followPair (feed room) pulse t pair).1) t
    Bystands id m.source t (if line.moves pulse.user pulse.down then
      line.watchers.foldl (review (feed room)) followed else followed) := by
  have hfollowed := List.foldlRecOn (motive := Bystands id m.source t) line.pairs
    (fun t' pair => (followPair (feed room) pulse t' pair).1) (.refl t) fun t' ht' pair hpair =>
      followPair_cases ht' fun down => ht'.trans (hbelow t' pair _
        (hgives.congr (ht'.layout.trans hlayout)) (hgives.pair_ne ⟨line, hline, hpair⟩))
  dsimp only
  split
  · refine List.foldlRecOn (motive := Bystands id m.source t) line.watchers _ hfollowed
      fun t' ht' other hmem => review_cases ht' (ht'.trans
        (hbelow.runBinding (hgives.congr (ht'.layout.trans hlayout)) ?_ _ true))
    rintro rfl
    exact hgives.not_watcher c ⟨line, hline, hmem⟩
  · exact hfollowed

/-- **Whatever else moves** leaves a binding that gives a command and its source as they are, and
requests nothing in its name. -/
theorem leavesAlone_feed (room : Nat) : LeavesAlone id m command (feed room) := by
  induction room with
  | zero => exact fun t _ _ _ _ => .refl t
  | succ room ih =>
    intro t c pulse hgives hc
    cases hline : t.engine.board.line? c with
    | none =>
      rw [feed_none _ t c pulse hline]
      exact .refl t
    | some line =>
      rw [feed_succ room t c pulse hline]
      dsimp only
      have hmarked : Bystands id m.source t (t.mark c (t.stateUser c pulse.user) pulse.down) := by
        refine ⟨Engine.layout_setBoard _ c _ _, rfl, fun user => ?_, rfl⟩
        show (t.engine.board.set c _ _).isDown m.source user = _
        rw [Switchboard.isDown_set, if_neg fun h => hc h.1]
      have hothers : ∀ other ∈ line.chain, other ≠ id := by
        rintro other hmem rfl
        exact hc ((hgives.chain_iff c).mp ⟨line, hline, hmem⟩).symm
      have hchain := List.foldlRecOn (motive := Bystands id m.source t) line.chain _ hmarked
        fun t' ht' other hmem => ht'.trans (ih.runBinding (hgives.congr ht'.layout)
          (hothers other hmem) { pulse with user := t.stateUser c pulse.user } false)
      exact hchain.trans (ih.follow hgives hline hchain.layout
        { pulse with user := t.stateUser c pulse.user })

/-! ## §2 The source moves -/

/-- In the second turn a binding has heard its source go down or up, which is all that happened to it:
it has made a number of requests if it ended by that. -/
structure Gave (id : Nat) (k : Control) (command : Command) (count : Nat) (down : Bool)
    (t t' : Turn) : Prop where
  layout : t'.engine.layout = t.engine.layout
  active : (t'.engine.latch id).active = down
  users : down = true → (t'.engine.latch id).applied.length = count
  isDown (user : Nat) : t'.engine.board.isDown k user = t.engine.board.isDown k user
  asked : ∃ made, t'.asked id = t.asked id ++ made ∧
    made.length = (if (t.engine.latch id).active && !down then count else 0) ∧
    ∀ r ∈ made, r.command = command

namespace Gave

variable {k : Control} {count : Nat} {down : Bool} {t t' t'' : Turn}

theorem trans (h : Gave id k command count down t t') (h' : Gave id k command count down t' t'') :
    Gave id k command count down t t'' where
  layout := h'.layout.trans h.layout
  active := h'.active
  users := h'.users
  isDown user := (h'.isDown user).trans (h.isDown user)
  asked := by
    obtain ⟨made, hmade, hlength, hall⟩ := h.asked
    obtain ⟨made', hmade', hlength', -⟩ := h'.asked
    -- The second time there is nothing to end.
    have hnone : made' = [] := by
      apply List.eq_nil_of_length_eq_zero
      rw [hlength', h.active]
      cases down <;> rfl
    rw [hnone, List.append_nil] at hmade'
    exact ⟨made, hmade'.trans hmade, hlength, hall⟩

theorem bystand (h : Gave id k command count down t t') (h' : Bystands id k t' t'') :
    Gave id k command count down t t'' where
  layout := h'.layout.trans h.layout
  active := (congrArg Latch.active h'.latch).trans h.active
  users hdown := by
    rw [h'.latch]
    exact h.users hdown
  isDown user := (h'.isDown user).trans (h.isDown user)
  asked := by
    rw [h'.asked]
    exact h.asked

end Gave

theorem Bystands.gave {k : Control} {count : Nat} {down : Bool} {t t' t'' : Turn}
    (h : Bystands id k t t') (h' : Gave id k command count down t' t'') :
    Gave id k command count down t t'' where
  layout := h'.layout.trans h.layout
  active := h'.active
  users := h'.users
  isDown user := (h'.isDown user).trans (h.isDown user)
  asked := by
    rw [← h.asked, ← h.latch]
    exact h'.asked

/-- What is left to do after a response keeps a binding in effect or not, and its users if it is. -/
theorem gave_settle {k : Control} {count : Nat} {down : Bool} {t t' : Turn}
    (h : Gave id k command count down t t') {r : Response} (hnow : r.now = down) (m : Mapping)
    (source target : Descriptor) :
    Gave id k command count down t (t'.settle id m source target r) := by
  have hplanned : ∀ plan, Gave id k command count down t
      (t'.mapEngine fun e => e.followPlan id plan) := by
    intro plan
    have huntimed := Engine.untimed_followPlan t'.engine id plan
    have hlatch := Engine.latch_of_untimed huntimed id
    exact {
      layout := (Engine.layout_of_untimed huntimed).trans h.layout
      active := (congrArg Latch.active hlatch :).trans h.active
      users := fun hdown => (congrArg (fun l : Latch => l.applied.length) hlatch :).trans
        (h.users hdown)
      isDown := fun user =>
        (congrArg (fun b : Switchboard => b.isDown k user)
          (t'.engine.board_followPlan id plan)).trans (h.isDown user)
      asked := h.asked }
  unfold Turn.settle
  dsimp only
  rw [hnow]
  split
  · exact hplanned _
  · rename_i hup
    have hended := hplanned (m.timerPlan source target t'.engine.settings r.was down)
    exact {
      layout := (Engine.layout_mapLatch _ _ _).trans hended.layout
      active := (Engine.latch_mapLatch_congr Latch.active rfl id).trans hended.active
      users := fun hdown => absurd hdown hup
      isDown := hended.isDown
      asked := hended.asked }

/-- A press is heard while the engine is on, and so is the release of a binding in effect. -/
theorem reaches_gives {t : Turn} {b : Binding} (hgives : t.engine.Gives id b.mapping command)
    (hon : t.engine.disabled = false) {pulse : Pulse}
    (hheard : pulse.down = true ∨ b.latch.active = true) : t.Reaches b pulse false := by
  refine .inr (accepts_iff.mpr ⟨?_, ?_, ?_, ?_⟩)
  · rw [hon]
    simp
  · show (t.engine.descriptor b.mapping.source).flags.ofUser = true → _
    rw [hgives.userless]
    simp
  · unfold Descriptor.needsSlot targetOf
    rw [hgives.target]
    simp
  · split
    · unfold Mapping.allows
      rw [hgives.unconditional]
      rfl
    · rename_i hup
      have hactive := hheard.resolve_left hup
      simp [Latch.isLatched, hactive]

/-- A release that a binding does not hear, because it is not in effect, ends nothing. -/
theorem gave_ignore {k : Control} {count : Nat} {t : Turn}
    (hidle : (t.engine.latch id).active = false) : Gave id k command count false t t where
  layout := rfl
  active := hidle
  users := by simp
  isDown _ := rfl
  asked := ⟨[], by simp, by simp [hidle], by simp⟩

/-- A pulse that a binding swallows finds it where it belongs. -/
theorem gave_swallow {t : Turn} {b : Binding} (hgives : t.engine.Gives id b.mapping command)
    (hb : t.engine.bindings[id]? = some b) {count : Nat}
    (husers : b.latch.active = true → b.latch.applied.length = count) {pulse : Pulse} {latch : Latch}
    (hrespond : b.latch.respond b.mapping (t.sourceOf b) (t.targetOf b) pulse.down pulse.strength
      false = (latch, none)) :
    Gave id b.mapping.source command count pulse.down t
      (t.firstStep id b pulse false latch none) := by
  have hdown := Latch.respond_plain hgives.options.1 hgives.options.2 hrespond
  rw [Bool.not_false, Bool.and_true] at hdown
  have hsame : latch.active = b.latch.active := congrArg Prod.fst (Latch.respond_none hrespond)
  have hbefore : (t.engine.latch id).active = pulse.down := by
    rw [Engine.latch_of_getElem? hb, ← hsame, hdown]
  have hafter : (t.firstStep id b pulse false latch none).engine.latch id = latch :=
    (Engine.latch_mapLatch _ _ _ _).trans (if_pos ⟨rfl, (Array.getElem?_eq_some_iff.mp hb).1⟩)
  refine ⟨Engine.layout_mapLatch _ _ _, (congrArg Latch.active hafter).trans hdown,
    fun hpressed => ?_, fun _ => rfl, [], (List.append_nil _).symm, ?_, by simp⟩
  · rw [hafter, Latch.respond_applied hrespond]
    exact husers (by rw [← hsame, hdown, hpressed])
  · rw [hbefore]
    cases pulse.down <;> rfl

/-- A response asks for something for each user of the binding if it ends, and for nothing else. -/
theorem length_asks_host {t : Turn} {b : Binding} (hgives : t.engine.Gives id b.mapping command)
    {count : Nat} (hcount : (t.engine.targetUsers b.mapping.targetUser).length = count)
    (husers : b.latch.active = true → b.latch.applied.length = count) {r : Response}
    (hwas : r.was = b.latch.active) :
    (t.asks id b r false).length = if b.latch.active && !r.now then count else 0 := by
  have hcommand : command ≠ .holdActiveUser := by
    rcases hgives.host with rfl | rfl <;> decide
  have hgiven : r.gives command false = (b.latch.active && !r.now) := by
    simp [Response.gives, hcommand, hwas]
  unfold asks targetOf
  rw [hgives.target]
  dsimp only
  rw [hgiven]
  split
  · rename_i hends
    rw [List.length_map]
    unfold givenFor
    rw [hwas, hends, Bool.true_and]
    split
    · exact husers (by simp_all)
    · exact hcount
  · rfl

/-- The first step of an answer: the command is given, and nothing is written. -/
theorem gave_answer {t : Turn} {b : Binding} (hgives : t.engine.Gives id b.mapping command)
    (hb : t.engine.bindings[id]? = some b) {count : Nat}
    (hcount : (t.engine.targetUsers b.mapping.targetUser).length = count)
    (husers : b.latch.active = true → b.latch.applied.length = count) {pulse : Pulse} {latch : Latch}
    {r : Response}
    (hrespond : b.latch.respond b.mapping (t.sourceOf b) (t.targetOf b) pulse.down pulse.strength
      false = (latch, some r)) (hnow : r.now = pulse.down) :
    Gave id b.mapping.source command count pulse.down t
      (t.firstStep id b pulse false latch (some r)) := by
  obtain ⟨hwas, hactive⟩ := Latch.respond_some hrespond
  have happlied := Latch.respond_applied hrespond
  have hlatch := Engine.latch_of_getElem? hb
  have hengine := engine_firstStep_command (t := t) (b := b) hgives.target id pulse false latch r
  have hafter := (congrArg (fun e => e.latch id) hengine).trans ((Engine.latch_mapLatch _ _ _ _).trans
    (if_pos ⟨rfl, (Array.getElem?_eq_some_iff.mp hb).1⟩))
  refine ⟨(t.steps_firstStep hb pulse false latch (some r)).layout, ?_, fun hpressed => ?_,
    fun user => ?_, t.asks id b r false, ?_, ?_, fun q hq => ?_⟩
  · refine (congrArg Latch.active hafter).trans ?_
    rw [apply_ite Latch.active, ite_self, ← hactive, hnow]
  · -- Its users are those that it settles on now, or those that it had.
    rw [hafter, hnow, hpressed]
    cases hrises : r.was with
    | false => exact hcount
    | true =>
      show latch.applied.length = count
      rw [happlied]
      exact husers (by rw [← hwas, hrises])
  · rw [hengine]
    rfl
  · unfold asked
    rw [requests_firstStep hb pulse false happlied r, List.filter_append]
    refine congrArg _ (List.filter_eq_self.mpr fun q hq => ?_)
    simp [(mem_asks hq).2.1]
  · rw [length_asks_host hgives hcount husers hwas, hlatch, hnow]
  · have hcell := (mem_asks hq).1
    rw [targetOf, hgives.target] at hcell
    exact (Cell.command.inj hcell).symm

/-- **The binding itself** is in effect just if the pulse was a press, and it requests something for
each of its users if it was in effect before and the pulse is a release. -/
theorem gave_runBinding {onVar : Listener} {t : Turn} (hgives : t.engine.Gives id m command)
    (hon : t.engine.disabled = false) {count : Nat}
    (hcount : (t.engine.targetUsers m.targetUser).length = count)
    (husers : (t.engine.latch id).active = true → (t.engine.latch id).applied.length = count)
    (pulse : Pulse) :
    Gave id m.source command count pulse.down t (t.runBinding onVar id pulse false).1 := by
  obtain ⟨b, hb, rfl⟩ := hgives.binding
  have hlatch := Engine.latch_of_getElem? hb
  rw [hlatch] at husers
  refine runBinding_cases (P := Gave id b.mapping.source command count pulse.down t)
    (fun hdeaf => ?_) (fun b' latch hb' _ hrespond => ?_) fun b' latch r hb' _ hrespond => ?_
  · -- Only the release of a binding that is not in effect goes unheard.
    have hnot := not_or.mp fun h => hdeaf b hb (reaches_gives hgives hon h)
    have hup : pulse.down = false := by simpa using hnot.1
    rw [hup]
    exact gave_ignore (by rw [hlatch]; simpa using hnot.2)
  · obtain rfl := Option.some.inj (hb.symm.trans hb')
    exact gave_swallow hgives hb husers hrespond
  · obtain rfl := Option.some.inj (hb.symm.trans hb')
    have hnow : r.now = pulse.down := by
      have hdown := Latch.respond_plain hgives.options.1 hgives.options.2 hrespond
      rw [Bool.not_false, Bool.and_true] at hdown
      exact (Latch.respond_some hrespond).2.trans hdown
    -- A command is passed on to nobody, so there is no cascade between the steps.
    have hecho : t.firstEcho id b pulse false latch (some r) = none := by
      cases hecho : t.firstEcho id b pulse false latch (some r) with
      | none => rfl
      | some echo =>
        have hvar := (perform_echo _ hecho).1
        rw [targetOf, hgives.target] at hvar
        contradiction
    rw [hecho]
    exact gave_settle (gave_answer hgives hb hcount husers hrespond hnow) hnow _ _ _

/-- A chain with the binding on it, once or more often: the other bindings leave it alone. -/
theorem gave_chain (room : Nat) {t : Turn} (hgives : t.engine.Gives id m command)
    (hon : t.engine.disabled = false) {count : Nat}
    (hcount : (t.engine.targetUsers m.targetUser).length = count)
    (husers : (t.engine.latch id).active = true → (t.engine.latch id).applied.length = count)
    (pulse : Pulse) {chain : List Nat} (hmem : id ∈ chain) :
    Gave id m.source command count pulse.down t
      (chain.foldl (fun t id => (t.runBinding (feed room) id pulse false).1) t) := by
  have hsteps : ∀ t' other, Steps t t' → Steps t (t'.runBinding (feed room) other pulse false).1 :=
    fun t' other h => h.trans (steps_runBinding t' (fun t => steps_feed t room) other pulse false)
  have hothers : ∀ t' other, Steps t t' → other ≠ id →
      Bystands id m.source t' (t'.runBinding (feed room) other pulse false).1 :=
    fun t' other h hother =>
      (leavesAlone_feed room).runBinding (hgives.congr h.layout) hother pulse false
  have hown : ∀ t', Steps t t' →
      ((t'.engine.latch id).active = true → (t'.engine.latch id).applied.length = count) →
      Gave id m.source command count pulse.down t' (t'.runBinding (feed room) id pulse false).1 :=
    fun t' h husers => gave_runBinding (hgives.congr h.layout) (h.gates.2.trans hon)
      ((congrArg List.length (Engine.targetUsers_congr h.layout h.gates.1 _)).trans hcount) husers pulse
  obtain ⟨before, after, rfl, hfirst⟩ := List.eq_append_cons_of_mem hmem
  rw [List.foldl_append, List.foldl_cons]
  have hbefore := List.foldlRecOn (motive := fun t' => Steps t t' ∧ Bystands id m.source t t') before
    (fun t id => (t.runBinding (feed room) id pulse false).1) ⟨.refl, .refl t⟩
    fun t' ht' other hmem => ⟨hsteps t' other ht'.1, ht'.2.trans
      (hothers t' other ht'.1 (ne_of_mem_of_not_mem hmem hfirst))⟩
  have hnow := hbefore.2.gave (hown _ hbefore.1 (by rwa [hbefore.2.latch]))
  -- Having heard of the pulse, the binding may hear of it again.
  refine (List.foldlRecOn (motive := fun t' => Steps t t' ∧
    Gave id m.source command count pulse.down t t') after _ ⟨hsteps _ id hbefore.1, hnow⟩
    fun t' ht' other _ => ⟨hsteps t' other ht'.1, ?_⟩).2
  by_cases hother : other = id
  · subst hother
    exact ht'.2.trans (hown t' ht'.1 fun hactive => ht'.2.users (ht'.2.active ▸ hactive))
  · exact ht'.2.bystand (hothers t' other ht'.1 hother)

/-- **The source moves**, and the binding hears of it. -/
theorem gave_feed (room : Nat) {t : Turn} (hgives : t.engine.Gives id m command)
    (hon : t.engine.disabled = false) {count : Nat}
    (hcount : (t.engine.targetUsers m.targetUser).length = count)
    (husers : (t.engine.latch id).active = true → (t.engine.latch id).applied.length = count)
    (pulse : Pulse) :
    Gave id m.source command count pulse.down (t.mark m.source User.first pulse.down)
      (feed (room + 1) t m.source pulse).1 := by
  obtain ⟨line, hline, hmem⟩ := (hgives.chain_iff m.source).mpr rfl
  have huser : t.stateUser m.source pulse.user = User.first := by
    unfold stateUser
    rw [hgives.userless]
    rfl
  have hmarked : (t.mark m.source User.first pulse.down).engine.layout = t.engine.layout :=
    Engine.layout_setBoard _ _ _ _
  rw [feed_succ room t m.source pulse hline, huser]
  have hchain := gave_chain room (hgives.congr hmarked) hon hcount husers
    { pulse with user := User.first } hmem
  exact hchain.bystand ((leavesAlone_feed room).follow hgives hline (hchain.layout.trans hmarked)
    { pulse with user := User.first })

end Turn

end VirtualPad
