import VirtualPad.Proofs.Conditions
import VirtualPad.Proofs.Releases

/-!
# Bindings that stay on after their variable

A binding whose source is a variable should be in effect only while the variable is down.  When the
variable goes up, every binding on its chain hears of it and ends.  But a source that goes down runs
its chain to the end even if it has gone up again in the meantime, because one of the first bindings
of the chain has made a condition fail that held the variable.  The bindings further on are then
pressed *late*: they come into effect on a variable that is up, and nothing will ever release them
for it.

So what matters is which pulses the bindings have answered, and how the source stood each time: the
history of the engine.  A binding outlives its variable just if the last thing that it answered was a
late press.
-/

namespace VirtualPad

/-- Without the options to toggle and to add, a binding is in effect after a pulse just if that was a
press. -/
theorem Latch.respond_plain {l latch : Latch} {m : Mapping} {source target : Descriptor}
    {down forced : Bool} {strength : Float} {response : Option Response}
    (htoggle : m.options.toggle = false) (hadd : m.options.add = false)
    (h : l.respond m source target down strength forced = (latch, response)) :
    latch.active = (down && !forced) := by
  have hwanted : l.wanted m down forced = (down && !forced) := by simp [Latch.wanted, htoggle]
  unfold Latch.respond at h
  rw [hwanted] at h
  dsimp only at h
  split at h
  · rename_i hmotion
    obtain ⟨rfl, -⟩ := Prod.mk.inj h
    simp only [Bool.and_eq_true, Bool.not_eq_true'] at hmotion
    simp [hmotion.2]
  · rw [if_neg (by simp [hadd])] at h
    split at h
    · rename_i hsettled
      obtain ⟨rfl, -⟩ := Prod.mk.inj h
      unfold Mapping.isSettled at hsettled
      simp only [Bool.and_eq_true, beq_iff_eq] at hsettled
      exact hsettled.1.symm
    · obtain ⟨rfl, -⟩ := Prod.mk.inj h
      rfl

/-! ## §1 Late presses -/

/-- The last thing that a binding has answered was a press while its source was up.  Histories begin
with what happened last. -/
def PressedLate (history : List Heard) (id : Nat) : Prop :=
  ∃ h, history.find? (fun h => h.id == id) = some h ∧ h.press = true ∧ h.sourceDown = false

theorem pressedLate_cons (h : Heard) (history : List Heard) (id : Nat) :
    PressedLate (h :: history) id ↔
      if h.id = id then h.press = true ∧ h.sourceDown = false else PressedLate history id := by
  unfold PressedLate
  by_cases hid : h.id = id
  · simp [hid]
  · have hother : (h.id == id) = false := by simpa using hid
    simp [hid, hother]

namespace Engine

/-- The binding is to follow a variable: that is its source, and it neither toggles nor adds. -/
def Follows (e : Engine) (b : Binding) : Prop :=
  (e.descriptor b.mapping.source).cell = .output .var ∧ b.mapping.options.toggle = false ∧
    b.mapping.options.add = false

/-! ## §2 The invariant -/

/-- The binding heeds its source: the engine is not switched off for it, and it has the slot that it
needs. -/
def Heeds (e : Engine) (b : Binding) : Prop :=
  (e.disabled && (e.descriptor b.mapping.target).cell != .command .toggleDisable) = false ∧
    ((e.descriptor b.mapping.target).needsSlot && b.slot.isNone) = false

/-- Apart from these bindings, only those that were pressed late outlive their variable. -/
structure OutlivesWithin (S : Nat → Prop) (history : List Heard) (e : Engine) : Prop where
  settled : ActiveWithin (fun _ => True) e
  wired (id : Nat) (b : Binding) : e.bindings[id]? = some b →
    e.board.Lists Line.chain b.mapping.source id
  heeding (id : Nat) (b : Binding) : e.bindings[id]? = some b → b.latch.active = true → e.Heeds b
  late (id : Nat) (b : Binding) : e.bindings[id]? = some b → e.Follows b →
    PressedLate history id → b.latch.active = true
  within (id : Nat) (b : Binding) : e.bindings[id]? = some b → e.Follows b →
    b.latch.active = true → e.sourceDown b = false → S id ∨ PressedLate history id

variable {e e' : Engine} {S S' : Nat → Prop} {history : List Heard}

theorem follows_congr (hlayout : e'.layout = e.layout) {b b' : Binding}
    (hmapping : b'.mapping = b.mapping) : e'.Follows b' ↔ e.Follows b := by
  unfold Follows
  rw [hmapping, descriptor_congr hlayout]

theorem heeds_congr (hlayout : e'.layout = e.layout) (hdisabled : e'.disabled = e.disabled)
    {b b' : Binding} (hmapping : b'.mapping = b.mapping) (hslot : b'.slot = b.slot) :
    e'.Heeds b' ↔ e.Heeds b := by
  unfold Heeds
  rw [hmapping, hslot, hdisabled, descriptor_congr hlayout]

/-- A binding in effect that heeds its source hears of a release, if the source has one state for all
users. -/
theorem Heeds.accepts_release {t : Turn} {b : Binding} {pulse : Pulse} (hb : t.engine.Heeds b)
    (husers : (t.sourceOf b).flags.ofUser = false) (hactive : b.latch.active = true)
    (hdown : pulse.down = false) : t.accepts b (t.sourceOf b) (t.targetOf b) pulse = true := by
  unfold Turn.accepts Turn.targetOf
  rw [hb.1, hb.2, husers, hdown]
  simp [Latch.isLatched, hactive]

namespace OutlivesWithin

theorem mono (he : OutlivesWithin S history e) (hsub : ∀ id, S id → S' id) :
    OutlivesWithin S' history e :=
  ⟨he.settled, he.wired, he.heeding, he.late, fun id b hb hfollows hactive hup =>
    (he.within id b hb hfollows hactive hup).imp_left (hsub id)⟩

/-- With the same latches the same bindings outlive their variables, if the board says the same of
these. -/
theorem congr (he : OutlivesWithin S history e) (hlayout : e'.layout = e.layout)
    (hbits : ∀ i, (e'.latch i).bits = (e.latch i).bits)
    (hheeds : ∀ (id : Nat) (b : Binding), e.bindings[id]? = some b → b.latch.active = true →
      e.Heeds b → e'.Heeds b)
    (hwithin : ∀ (id : Nat) (b : Binding), e.bindings[id]? = some b → e.Follows b → e'.sourceDown b = false →
      e.sourceDown b = false ∨ S' id)
    (hsub : ∀ id, S id → S' id) : OutlivesWithin S' history e' := by
  -- Each binding there is now was there before, with the same mapping, slot and bits.
  have hback : ∀ {id : Nat} {b' : Binding}, e'.bindings[id]? = some b' →
      ∃ b, e.bindings[id]? = some b ∧ b.mapping = b'.mapping ∧ b.slot = b'.slot ∧
        b'.latch.active = b.latch.active := by
    intro id b' hb'
    obtain ⟨b, hb, hmapping, hslot⟩ := binding_congr hlayout.symm hb'
    have hsame := hbits id
    rw [latch_of_getElem? hb, latch_of_getElem? hb'] at hsame
    exact ⟨b, hb, hmapping, hslot, Latch.active_of_bits hsame⟩
  constructor
  · exact he.settled.congr hlayout hbits
  · intro id b' hb'
    obtain ⟨b, hb, hmapping, -⟩ := hback hb'
    rw [← hmapping]
    exact (lists_congr Wiring.chain (fun _ => rfl) hlayout _ _).mpr (he.wired id b hb)
  · intro id b' hb' hactive
    obtain ⟨b, hb, hmapping, hslot, hsame⟩ := hback hb'
    rw [hsame] at hactive
    exact (heeds_congr rfl rfl hmapping hslot).mp (hheeds id b hb hactive (he.heeding id b hb hactive))
  · intro id b' hb' hfollows hlate
    obtain ⟨b, hb, hmapping, -, hsame⟩ := hback hb'
    rw [hsame]
    exact he.late id b hb ((follows_congr hlayout hmapping.symm).mp hfollows) hlate
  · intro id b' hb' hfollows hactive hup
    obtain ⟨b, hb, hmapping, -, hsame⟩ := hback hb'
    rw [hsame] at hactive
    have hfollows' := (follows_congr hlayout hmapping.symm).mp hfollows
    have hup' : e'.sourceDown b = false := by
      unfold sourceDown at hup ⊢
      rw [hmapping]
      exact hup
    rcases hwithin id b hb hfollows' hup' with hbefore | hin
    · exact (he.within id b hb hfollows' hactive hbefore).imp_left (hsub id)
    · exact .inl hin

/-- A binding that is in effect after an answer heeds its source: it did before, or it has just been
accepted. -/
theorem heeds_of_respond {t : Turn} {id : Nat} {b : Binding} {pulse : Pulse} {forced : Bool}
    (ht : OutlivesWithin S history t.engine) (hb : t.engine.bindings[id]? = some b)
    (hreaches : t.Reaches b pulse forced) {latch : Latch} {response : Option Response}
    (hrespond : b.latch.respond b.mapping (t.sourceOf b) (t.targetOf b) pulse.down pulse.strength
      forced = (latch, response)) (hactive : latch.active = true) : t.engine.Heeds b := by
  rcases ((ht.settled.steady id b hb).respond hrespond).2 hactive with hbefore | ⟨-, hfree⟩
  · exact ht.heeding id b hb hbefore
  · rcases hreaches with hforced | haccepts
    · rw [hfree] at hforced
      contradiction
    · unfold Turn.accepts at haccepts
      simp only [Bool.and_eq_true, Bool.not_eq_true'] at haccepts
      exact ⟨haccepts.1.1.1, haccepts.1.2⟩

/-- An answer takes the binding out of the set: after it the binding is in effect just if that was a
press, and the history says how its source stood. -/
theorem answered {t t' : Turn} {id : Nat} {b : Binding} {pulse : Pulse} {forced : Bool}
    (ht : OutlivesWithin S history t.engine) (hlayout : t'.engine.layout = t.engine.layout)
    (hscene : t'.engine.scene = t.engine.scene) (h : Turn.Answered t t' id b pulse forced)
    (hsub : ∀ i, i ≠ id → S i → S' i) :
    OutlivesWithin S' (⟨id, pulse.down && !forced, t.engine.sourceDown b⟩ :: history) t'.engine := by
  have hsettled : ActiveWithin (fun _ => True) t'.engine :=
    ht.settled.answered hlayout h (fun _ _ _ => trivial) fun _ _ _ _ => trivial
  obtain ⟨hb, hreaches, latch, response, hrespond, hbits⟩ := h
  have hboard := board_of_scene hscene
  have hdisabled : t'.engine.disabled = t.engine.disabled :=
    congrArg (fun scene => scene.2.2) hscene
  -- Every binding is the one that has answered, or as it was before.
  have hback : ∀ {i : Nat} {c' : Binding}, t'.engine.bindings[i]? = some c' →
      ∃ c, t.engine.bindings[i]? = some c ∧ c.mapping = c'.mapping ∧ c.slot = c'.slot ∧
        (i = id ∧ c = b ∧ c'.latch.active = latch.active ∨
          i ≠ id ∧ c'.latch.active = c.latch.active) := by
    intro i c' hc'
    obtain ⟨c, hc, hmapping, hslot, hown⟩ := Turn.binding_of_answered hlayout hb hbits hc'
    exact ⟨c, hc, hmapping, hslot, hown.imp (fun h => ⟨h.1, h.2.1, Latch.active_of_bits h.2.2⟩)
      fun h => ⟨h.1, Latch.active_of_bits h.2⟩⟩
  have hpressed : ∀ i, PressedLate
      (⟨id, pulse.down && !forced, t.engine.sourceDown b⟩ :: history) i ↔
        if id = i then (pulse.down && !forced) = true ∧ t.engine.sourceDown b = false
        else PressedLate history i := fun i => pressedLate_cons _ _ i
  constructor
  · exact hsettled
  · intro i c' hc'
    obtain ⟨c, hc, hmapping, -⟩ := hback hc'
    rw [← hmapping]
    exact (lists_congr Wiring.chain (fun _ => rfl) hlayout _ _).mpr (ht.wired i c hc)
  · intro i c' hc' hactive
    obtain ⟨c, hc, hmapping, hslot, hown⟩ := hback hc'
    rw [heeds_congr hlayout hdisabled hmapping.symm hslot.symm]
    rcases hown with ⟨rfl, rfl, hsame⟩ | ⟨-, hsame⟩
    · exact ht.heeds_of_respond hc hreaches hrespond (hsame.symm.trans hactive)
    · exact ht.heeding i c hc (hsame.symm.trans hactive)
  -- A late press puts a follower into effect ...
  · intro i c' hc' hfollows hlate
    obtain ⟨c, hc, hmapping, -, hown⟩ := hback hc'
    have hfollows' := (follows_congr hlayout hmapping.symm).mp hfollows
    rw [hpressed] at hlate
    rcases hown with ⟨rfl, rfl, hsame⟩ | ⟨hi, hsame⟩
    · rw [if_pos rfl] at hlate
      rw [hsame, Latch.respond_plain hfollows'.2.1 hfollows'.2.2 hrespond]
      exact hlate.1
    · rw [if_neg (Ne.symm hi)] at hlate
      rw [hsame]
      exact ht.late i c hc hfollows' hlate
  -- ... and nothing else does while its source is up.
  · intro i c' hc' hfollows hactive hup
    obtain ⟨c, hc, hmapping, -, hown⟩ := hback hc'
    have hfollows' := (follows_congr hlayout hmapping.symm).mp hfollows
    have hup' : t.engine.sourceDown c = false := by
      unfold sourceDown at hup ⊢
      rw [hmapping, ← hboard]
      exact hup
    rw [hpressed]
    rcases hown with ⟨rfl, rfl, hsame⟩ | ⟨hi, hsame⟩
    · right
      rw [if_pos rfl]
      rw [hsame, Latch.respond_plain hfollows'.2.1 hfollows'.2.2 hrespond] at hactive
      exact ⟨hactive, hup'⟩
    · rw [hsame] at hactive
      rw [if_neg (Ne.symm hi)]
      exact (ht.within i c hc hfollows' hactive hup').imp_left (hsub i hi)

/-- A variable that goes up lets the bindings on its chain outlive it for the moment. -/
theorem mark {t : Turn} {c : Control} {user : User} {down : Bool}
    (ht : OutlivesWithin S history t.engine)
    (huser : (t.engine.descriptor c).cell = .output .var → user = User.first) :
    OutlivesWithin (fun i => S i ∨ down = false ∧ t.engine.board.Lists Line.chain c i) history
      (t.mark c user down).engine := by
  refine ht.congr (layout_setBoard _ c user down) (fun _ => rfl) (fun _ _ _ _ h => h) ?_
    fun _ h => .inl h
  intro id b hb hfollows hup
  by_cases hsame : c = b.mapping.source
  · right
    subst hsame
    have hwired := ht.wired id b hb
    refine .inr ⟨?_, hwired⟩
    obtain ⟨line, hline, -⟩ := hwired
    rw [← hup]
    -- The line has just been set for the user under whom variables keep their state.
    unfold sourceDown Switchboard.isDown Switchboard.isDown?
    show _ = (((t.engine.board.set _ user down).line? _).map _).getD false
    rw [Switchboard.line?_set, if_pos rfl, hline, huser hfollows.1]
    have hin : (User.first : Nat) < maskWidth := by decide
    simp [Line.isDown, Line.set, Mask.has_put, hin]
  · left
    have hother := (t.engine.board.sameState_set_of_ne hsame user down User.first).1
    exact (congrArg (fun down : Option Bool => down.getD false) hother).symm.trans hup

/-- A binding that follows a variable is not kept from hearing of a release. -/
theorem accepts_release {t : Turn} {id : Nat} {b : Binding} {pulse : Pulse}
    (ht : OutlivesWithin S history t.engine) (hb : t.engine.bindings[id]? = some b)
    (hfollows : t.engine.Follows b) (hactive : b.latch.active = true) (hdown : pulse.down = false) :
    t.accepts b (t.sourceOf b) (t.targetOf b) pulse = true := by
  have hvar := (Vocabulary.of_var _ hfollows.1).2
  refine (ht.heeding id b hb hactive).accepts_release ?_ hactive hdown
  show (t.engine.vocabulary.descriptor b.mapping.source).flags.ofUser = false
  rw [hvar]
  rfl

theorem pass (he : OutlivesWithin S history e) (hlayout : e'.layout = e.layout)
    (hscene : e'.scene = e.scene) (hbits : ∀ i, (e'.latch i).bits = (e.latch i).bits) :
    OutlivesWithin S history e' := by
  have hdisabled : e'.disabled = e.disabled := congrArg (fun scene => scene.2.2) hscene
  refine he.congr hlayout hbits ?_ ?_ fun _ h => h
  · intro id b _ _ hheeds
    exact (heeds_congr hlayout hdisabled rfl rfl).mpr hheeds
  · intro id b _ _ hup
    left
    unfold sourceDown at hup ⊢
    rw [← board_of_scene hscene]
    exact hup

theorem quiet {t t' : Turn} (h : Turn.Move t t') (hquiet : Turn.Quiet t t')
    (ht : OutlivesWithin S history t.engine) : OutlivesWithin S history t'.engine :=
  ht.pass h.layout hquiet.scene hquiet.bits

/-- The first step of an answer takes the binding out of the set. -/
theorem firstStep {t : Turn} {id : Nat} {b : Binding} {pulse : Pulse} {forced : Bool}
    {latch : Latch} {response : Option Response} (hb : t.engine.bindings[id]? = some b)
    (hreaches : t.Reaches b pulse forced)
    (hrespond : b.latch.respond b.mapping (t.sourceOf b) (t.targetOf b) pulse.down pulse.strength
      forced = (latch, response)) (ht : OutlivesWithin S history t.engine)
    (hsub : ∀ i, i ≠ id → S i → S' i) :
    OutlivesWithin S' (⟨id, pulse.down && !forced, t.engine.sourceDown b⟩ :: history)
      (t.firstStep id b pulse forced latch response).engine := by
  have hmove := Turn.Move.firstStep hb hreaches hrespond
  exact ht.answered hmove.layout hmove.bits.1 (Turn.answered_firstStep hb hreaches hrespond) hsub

/-- No answer makes a binding outlive its variable, except by a late press. -/
theorem answer : Turn.AnswerKeeps (OutlivesWithin S) :=
  fun hb hreaches hrespond ht => ht.firstStep hb hreaches hrespond fun _ _ h => h

/-- **On its turn in the chain a binding leaves the set**: it hears of the release, or there is
nothing to release. -/
theorem runBinding_up {room : Nat}
    (hbelow : Turn.KeepsAlong (OutlivesWithin S) (Turn.feed room) (Turn.logFeed room)) {t : Turn}
    {id : Nat} {pulse : Pulse} (hdown : pulse.down = false)
    (ht : OutlivesWithin (fun i => S i ∨ i = id) history t.engine) :
    OutlivesWithin S (t.logBinding (Turn.logFeed room) id pulse false history)
      (t.runBinding (Turn.feed room) id pulse false).1.engine := by
  have hothers : ∀ i, i ≠ id → (S i ∨ i = id) → S i := fun i hi h => h.resolve_right hi
  by_cases h : ∃ b, t.engine.bindings[id]? = some b ∧ t.Reaches b pulse false
  · obtain ⟨b, hb, hreaches⟩ := h
    exact Turn.runBinding_along_of_firstStep quiet hbelow hb hreaches fun latch response hrespond =>
      ht.firstStep hb hreaches hrespond hothers
  · have hrefused : ∀ b, t.engine.bindings[id]? = some b → ¬ t.Reaches b pulse false :=
      fun b hb hreaches => h ⟨b, hb, hreaches⟩
    rw [Turn.runBinding_of_not_reaches _ hrefused, Turn.logBinding_of_not_reaches _ hrefused]
    refine ⟨ht.settled, ht.wired, ht.heeding, ht.late, ?_⟩
    intro i b hb hfollows hactive hup
    refine (ht.within i b hb hfollows hactive hup).imp_left fun hin => hothers i ?_ hin
    rintro rfl
    exact hrefused b hb (.inr (ht.accepts_release hb hfollows hactive hdown))

/-- After its whole chain has run, nothing outlives the variable for having been on it. -/
theorem runChain_up {room : Nat}
    (hbelow : ∀ S, Turn.KeepsAlong (OutlivesWithin S) (Turn.feed room) (Turn.logFeed room))
    {pulse : Pulse} (hdown : pulse.down = false) (ids : List Nat) {t : Turn}
    (ht : OutlivesWithin (fun i => S i ∨ i ∈ ids) history t.engine) :
    OutlivesWithin S
      (Turn.logWalk (fun t id => (t.runBinding (Turn.feed room) id pulse false).1)
        (fun t id => t.logBinding (Turn.logFeed room) id pulse false) t ids history)
      (ids.foldl (fun t id => (t.runBinding (Turn.feed room) id pulse false).1) t).engine := by
  induction ids generalizing t history with
  | nil => exact ht.mono fun i h => h.resolve_right List.not_mem_nil
  | cons id rest ih =>
    apply ih
    refine runBinding_up (hbelow _) hdown (ht.mono fun i h => ?_)
    rcases h with hin | hmem
    · exact .inl (.inl hin)
    · rcases List.mem_cons.mp hmem with hsame | hrest
      · exact .inr hsame
      · exact .inl (.inr hrest)

/-- **A source that moves** makes no binding outlive its variable, except by a late press. -/
theorem feed (room : Nat) (S : Nat → Prop) :
    Turn.KeepsAlong (OutlivesWithin S) (Turn.feed room) (Turn.logFeed room) := by
  induction room generalizing S with
  | zero => exact ⟨fun _ _ _ => rfl, fun _ _ _ ht => ht⟩
  | succ room ih =>
    refine ⟨Turn.feed_layout (room + 1), fun {history} t c pulse ht => ?_⟩
    cases hline : t.engine.board.line? c with
    | none =>
      rw [Turn.feed_none _ t c pulse hline, Turn.logFeed_none _ t c pulse hline]
      exact ht
    | some line =>
      rw [Turn.feed_succ room t c pulse hline, Turn.logFeed_succ room t c pulse hline]
      dsimp only
      -- The mark, the chain, the pairs and the watchers, one after the other.
      have huser : (t.engine.descriptor c).cell = .output .var →
          t.stateUser c pulse.user = User.first := by
        intro hvar
        have hdescriptor : t.engine.descriptor c = CustomKind.var.descriptor :=
          (Vocabulary.of_var _ hvar).2
        unfold Turn.stateUser
        rw [hdescriptor]
        rfl
      have hmarked : OutlivesWithin (fun i => S i ∨ pulse.down = false ∧ i ∈ line.chain) history
          (t.mark c (t.stateUser c pulse.user) pulse.down).engine := by
        refine (ht.mark huser).mono fun i h => ?_
        refine h.imp_right fun ⟨hdown, line', hline', hmem⟩ => ⟨hdown, ?_⟩
        obtain rfl : line = line' := Option.some.inj (hline.symm.trans hline')
        exact hmem
      have hrun : OutlivesWithin S
          (Turn.logWalk (fun t' id => (t'.runBinding (Turn.feed room) id
              { pulse with user := t.stateUser c pulse.user } false).1)
            (fun t' id => t'.logBinding (Turn.logFeed room) id
              { pulse with user := t.stateUser c pulse.user } false)
            (t.mark c (t.stateUser c pulse.user) pulse.down) line.chain history)
          (line.chain.foldl (fun t' id => (t'.runBinding (Turn.feed room) id
            { pulse with user := t.stateUser c pulse.user } false).1)
            (t.mark c (t.stateUser c pulse.user) pulse.down)).engine := by
        -- Those that were up before have the chance to hear of it; with a press there are none.
        cases hdown : pulse.down with
        | true =>
          rw [hdown] at hmarked
          exact Turn.foldl_along (fun t' id ht' => Turn.runBinding_along quiet answer (ih S) t' id _
            false ht') _ line.chain (hmarked.mono fun i h => h.resolve_right (by simp))
        | false =>
          rw [hdown] at hmarked
          exact runChain_up ih rfl line.chain (hmarked.mono fun i h => h.imp_right And.right)
      have hfollowed := Turn.foldl_along (fun t' pair ht' => Turn.followPair_along (ih S)
        { pulse with user := t.stateUser c pulse.user } t' pair ht') _ line.pairs hrun
      by_cases hmoves : line.moves (t.stateUser c pulse.user) pulse.down = true
      · rw [if_pos hmoves, if_pos hmoves]
        exact Turn.foldl_along (fun t' id ht' => Turn.review_along quiet answer (ih S) t' id ht') _
          line.watchers hfollowed
      · rw [if_neg hmoves, if_neg hmoves]
        exact hfollowed

theorem chore (h : Chore e e') (he : OutlivesWithin S history e) : OutlivesWithin S history e' := by
  cases h with
  | note | label | advance => exact he.pass rfl rfl fun _ => rfl
  | remember id user =>
    exact he.pass (layout_mapLatch e id _) rfl (latch_mapLatch_congr Latch.bits rfl)
  | activate user huser =>
    exact he.congr rfl (fun _ => rfl) (fun _ _ _ _ h => h) (fun _ _ _ _ h => .inl h) fun _ h => h
  | enable =>
    -- With the mappings switched on again there is nothing more to be kept from hearing.
    exact he.congr rfl (fun _ => rfl) (fun _ _ _ _ h => ⟨rfl, h.2⟩) (fun _ _ _ _ h => .inl h)
      fun _ h => h

/-- When everything has been released, nothing outlives its variable, and the mappings may be
switched off. -/
theorem force (e : Engine) (time : Nat) (he : OutlivesWithin S history e) :
    OutlivesWithin S (e.logForceReleaseAll time history) (e.forceReleaseAll time) ∧
      OutlivesWithin S (e.logForceReleaseAll time history) (e.forceReleaseAll time).switchOff := by
  have hforced := forceReleaseAll_along quiet answer (fun room => feed room S) history chore
    (fun e _ he => he.pass (layout_write e e.outputs (PadBank.count_change _ _ _)) rfl fun _ => rfl)
    e time he
  refine ⟨hforced, ?_⟩
  have hidle := he.settled.forceReleaseAll e time
  refine hforced.congr rfl (fun _ => rfl) ?_ (fun _ _ _ _ h => .inl h) fun _ h => h
  intro id b hb hactive
  rw [← latch_of_getElem? hb] at hactive
  exact (hidle.within id hactive).elim

theorem of_untimed (he : OutlivesWithin S history e) (h : e'.untimed = e.untimed) :
    OutlivesWithin S history e' := by
  have hscene : e'.untimed.scene = e.untimed.scene := by rw [h]
  refine he.pass (layout_of_untimed h) hscene fun i => ?_
  have hbits := congrArg (fun l : Latch => l.bits) (latch_of_untimed h i)
  exact hbits

theorem ofInstall (e : Engine) (config : Config) (time : Nat) :
    OutlivesWithin S [] (e.install config time) := by
  have hrest : ∀ (id : Nat) (b : Binding), (e.install config time).bindings[id]? = some b →
      b.latch.active ≠ true := by
    intro id b hb
    rw [(install_binding hb).2]
    simp
  constructor
  · exact ActiveWithin.ofInstall e config time
  · intro id b hb
    rw [install_board]
    exact ((Switchboard.wires_ofMappings _ _).chain _ _).mpr ⟨_, (install_binding hb).1, rfl⟩
  · exact fun id b hb hactive => absurd hactive (hrest id b hb)
  · rintro id b - - ⟨h, hfound, -⟩
    contradiction
  · exact fun id b hb _ hactive => absurd hactive (hrest id b hb)

end OutlivesWithin

/-! ## §3 At every reachable engine -/

/-- **That only late presses outlive their variable is stable** along the history. -/
theorem outlived_stable (admits : Config → Prop) :
    StableAlong admits (OutlivesWithin fun _ => False) where
  quiet := OutlivesWithin.quiet
  answer := OutlivesWithin.answer
  feed room := OutlivesWithin.feed room _
  chore := OutlivesWithin.chore
  force := OutlivesWithin.force
  lapse _ _ _ he := (he.pass rfl rfl fun _ => rfl).of_untimed (untimed_lapse _ _)
  stray _ _ he := he.pass rfl rfl fun _ => rfl
  install e config time _ _ := OutlivesWithin.ofInstall e.cancelTimers config time

/-- **A binding outlives its variable just if it was pressed late.** Between two calls a binding that
is to follow a variable does so, except where the last thing it answered was a press that reached it
when the variable was up again; those are in effect whatever the variable does. -/
theorem outlives_iff_pressedLate {admits : Config → Prop} (he : Traced admits history e) {id : Nat}
    {b : Binding} (hb : e.bindings[id]? = some b) (hfollows : e.Follows b) :
    (b.latch.active = true → e.sourceDown b = true) ↔
      (PressedLate history id → e.sourceDown b = true) := by
  have hwithin := (outlived_stable admits).traced (fun _ => OutlivesWithin.ofInstall _ _ 0) he
  constructor
  · intro h hlate
    exact h (hwithin.late id b hb hfollows hlate)
  · intro h hactive
    by_contra hup
    have hlate := hwithin.within id b hb hfollows hactive (by simpa using hup)
    exact hup (h (hlate.resolve_left not_false))

/-- The key A drives a variable unless the variable has been seen; seeing it is the first thing that
the variable does, and pressing a button is the second. -/
def seenConfig : ConfigFile :=
  { custom := { vars := ["Held", "Seen"] }
    mappings :=
      [{ source := "A", target := "Held", condition := some "!Seen" },
        { source := "Held", target := "Seen" }, { source := "Held", target := "PadA" }] }

def pressA : Call := .input ⟨0x41⟩ 0 true 1 0

/-- The engine after A has been pressed: the variable was seen at once, and released. -/
def seen : Engine := (ofConfig seenConfig.compile).after pressA

def seenHistory : List Heard := (ofConfig seenConfig.compile).logCall [] pressA

theorem traced_seen : Traced Config.IsCompiled seenHistory seen := by
  have hpress : pressA.Admitted Config.IsCompiled := trivial
  have hstart : Traced Config.IsCompiled [] (ofConfig seenConfig.compile) := .start ⟨seenConfig, rfl⟩
  exact hstart.call hpress

theorem outlasting_seen : ∃ b, seen.bindings[2]? = some b ∧ seen.Follows b ∧
    b.latch.active = true ∧ seen.sourceDown b = false := by
  have hstate : (seen.bindings[2]?.map fun b => ((seen.descriptor b.mapping.source).cell,
      b.mapping.options.toggle, b.mapping.options.add, b.latch.active, seen.sourceDown b)) =
      some (.output .var, false, false, true, false) := by
    decide +kernel
  obtain ⟨b, hb, hrest⟩ := Option.map_eq_some_iff.mp hstate
  simp only [Prod.mk.injEq] at hrest
  obtain ⟨hvar, htoggle, hadd, hactive, hup⟩ := hrest
  exact ⟨b, hb, ⟨hvar, htoggle, hadd⟩, hactive, hup⟩

/-- The button has been pressed late, and is held although the variable is up. -/
theorem pressedLate_seen : Traced Config.IsCompiled seenHistory seen ∧
    PressedLate seenHistory 2 := by
  refine ⟨traced_seen, ?_⟩
  obtain ⟨b, hb, hfollows, hactive, hup⟩ := outlasting_seen
  have hiff := outlives_iff_pressedLate traced_seen hb hfollows
  by_contra hlate
  have hdown := hiff.mpr (fun h => absurd h hlate) hactive
  exact absurd (hdown.symm.trans hup) (by decide)

/-- So a binding may outlive its variable although only bindings have moved the variable. -/
theorem outlives_seen : Traced Config.IsCompiled seenHistory seen ∧
    ¬ ∀ (id : Nat) (b : Binding), seen.bindings[id]? = some b → seen.Follows b →
      b.latch.active = true → seen.sourceDown b = true := by
  refine ⟨traced_seen, fun hall => ?_⟩
  obtain ⟨b, hb, hfollows, hactive, hup⟩ := outlasting_seen
  exact absurd ((hall 2 b hb hfollows hactive).symm.trans hup) (by decide)

end Engine

end VirtualPad
