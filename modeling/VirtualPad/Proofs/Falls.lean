import VirtualPad.Proofs.CellsMirror
import VirtualPad.Proofs.Rests

/-!
# What a release brings about

A release only makes things fall: bindings end, variables go up, timers stop and users are let go.
`Turn.Fall` lists the steps of a release, and a release takes no other ones, however far the cascade
goes.  So what is at rest stays at rest: a binding that has been released by force stays released
while the others follow, and in the end all of them are.
-/

namespace VirtualPad

/-- A latch has at most lost something. -/
structure Latch.Falls (l l' : Latch) : Prop where
  rawDown : l.rawDown = false → l'.rawDown = false
  active : l.active = false → l'.active = false
  timer : l'.timer = l.timer ∨ l'.timer = none
  applied : l'.applied = l.applied ∨ l'.applied = []

/-- Nothing of the latch has to be undone. -/
structure Latch.Idle (l : Latch) : Prop where
  active : l.active = false
  rawDown : l.rawDown = false
  timer : l.timer = none

namespace Latch

theorem Falls.refl (l : Latch) : l.Falls l := ⟨fun h => h, fun h => h, .inl rfl, .inl rfl⟩

theorem Falls.trans {l l' l'' : Latch} (h : l.Falls l') (h' : l'.Falls l'') : l.Falls l'' where
  rawDown hup := h'.rawDown (h.rawDown hup)
  active hup := h'.active (h.active hup)
  timer := h'.timer.elim (fun hsame => hsame ▸ h.timer) .inr
  applied := h'.applied.elim (fun hsame => hsame ▸ h.applied) .inr

/-- What is idle has nothing to lose. -/
theorem Falls.idle {l l' : Latch} (h : l.Falls l') (hl : l.Idle) : l'.Idle where
  active := h.active hl.active
  rawDown := h.rawDown hl.rawDown
  timer := h.timer.elim (fun hsame => hsame.trans hl.timer) fun hnone => hnone

/-- A latch that is not latched is idle. -/
theorem idle_of_not_latched {l : Latch} (h : ¬ l.isLatched = true) : l.Idle := by
  simp only [isLatched, Bool.or_eq_true, not_or, Bool.not_eq_true, Option.isSome_eq_false_iff,
    Option.isNone_iff_eq_none] at h
  exact ⟨h.1.1, h.1.2, h.2⟩

end Latch

namespace Turn

/-! ## §1 Falls -/

/-- A step of a release. -/
inductive Fall : Turn → Turn → Prop
  /-- A binding hears of a release, and ends or does nothing. -/
  | answer {t : Turn} {id : Nat} {b : Binding} {pulse : Pulse} {forced : Bool} {latch : Latch}
      {response : Option Response} (hb : t.engine.bindings[id]? = some b)
      (hreaches : t.Reaches b pulse forced) (hdown : pulse.down = false)
      (hrespond : b.latch.respond b.mapping (t.sourceOf b) (t.targetOf b) pulse.down pulse.strength
        forced = (latch, response)) (hend : ∀ r, response = some r → r.now = false) :
      Fall t (t.firstStep id b pulse forced latch response)
  | mark (t : Turn) (c : Control) (user : User) : Fall t (t.mark c user false)
  | stop (t : Turn) (id : Nat) : Fall t (t.mapEngine fun e => e.stopTimer id)
  | letGo (t : Turn) (id : Nat) : Fall t (t.mapLatch id fun l => { l with applied := [] })

/-- What a release brings about. -/
abbrev Falls : Turn → Turn → Prop := Relation.ReflTransGen Fall

theorem Fall.steps {t t' : Turn} (h : Fall t t') : Steps t t' := by
  cases h with
  | answer hb hreaches hdown hrespond hend => exact steps_firstStep t hb _ _ _ _
  | mark c user => exact .single (.mark t c user false)
  | stop id => exact .single (.plan t id .stop)
  | letGo id => exact .single (.latch t id _)

theorem Falls.steps {t t' : Turn} (h : Falls t t') : Steps t t' := by
  induction h with
  | refl => exact .refl
  | tail _ hfall ih => exact ih.trans hfall.steps

/-- What a binding does when it hears of a release leaves its latch as the release has made it. -/
theorem firstStep_ended_frame (t : Turn) (id : Nat) (b : Binding) (pulse : Pulse) (forced : Bool)
    (latch : Latch) {response : Option Response} (hend : ∀ r, response = some r → r.now = false) :
    ∃ pads outputs, (t.firstStep id b pulse forced latch response).engine =
      (t.engine.mapLatch id fun _ => latch).write pads outputs := by
  cases response with
  | none => exact ⟨t.engine.pads, t.engine.outputs, rfl⟩
  | some r =>
    have hnow := hend r rfl
    unfold firstStep perform
    simp only [hnow, Bool.false_and, Bool.false_eq_true, if_false]
    split
    · rw [engine_giveCommand]
      exact ⟨t.engine.pads, t.engine.outputs, rfl⟩
    · split
      · obtain ⟨pads, outputs, hengine, -⟩ := writeTarget_frame (t.mapLatch id fun _ => latch) id
          (t.sourceOf b) (t.targetOf b) false r.strength
        exact ⟨pads, outputs, hengine⟩
      · exact ⟨t.engine.pads, t.engine.outputs, rfl⟩

/-- The answer to a release is a fall of the latch. -/
theorem latch_falls_of_respond {l latch : Latch} {m : Mapping} {source target : Descriptor}
    {strength : Float} {forced : Bool} {response : Option Response}
    (hrespond : l.respond m source target false strength forced = (latch, response))
    (hend : ∀ r, response = some r → r.now = false) : l.Falls latch where
  rawDown _ := Latch.rawDown_of_respond hrespond
  active hup := by
    cases response with
    | none => exact (congrArg Prod.fst (Latch.respond_none hrespond)).trans hup
    | some r => exact (Latch.respond_some hrespond).2.symm.trans (hend r rfl)
  timer := .inl (Latch.timer_of_respond hrespond)
  applied := .inl (Latch.respond_applied hrespond)

/-- **A fall takes something from the latches at most.** -/
theorem Fall.latch {t t' : Turn} (h : Fall t t') (i : Nat) :
    (t.engine.latch i).Falls (t'.engine.latch i) := by
  cases h with
  | @answer id b pulse forced latch response hb hreaches hdown hrespond hend =>
    obtain ⟨pads, outputs, hengine⟩ := firstStep_ended_frame t id b pulse forced latch hend
    rw [hdown] at hrespond
    rw [hengine]
    show (t.engine.latch i).Falls ((t.engine.mapLatch id fun _ => latch).latch i)
    rw [Engine.latch_mapLatch]
    split
    · rename_i hsame
      obtain ⟨rfl, -⟩ := hsame
      rw [Engine.latch_of_getElem? hb]
      exact latch_falls_of_respond hrespond hend
    · exact .refl _
  | mark c user => exact .refl _
  | stop id =>
    -- Apart from the timer, stopping it changes no latch.
    have huntimed := Engine.latch_of_untimed (Engine.untimed_stopTimer t.engine id) i
    have hrest : (t.engine.latch i).Falls { (t.engine.stopTimer id).latch i with
        timer := (t.engine.latch i).timer } := by
      have hsame := congrArg (fun l : Latch => { l with timer := (t.engine.latch i).timer }) huntimed
      exact hsame ▸ .refl _
    refine ⟨hrest.rawDown, hrest.active, ?_, hrest.applied⟩
    by_cases hsame : id = i
    · subst hsame
      exact .inr (Engine.TimersAgree.stopTimer_timer t.engine id)
    · exact .inl (congrArg Latch.timer (Engine.latch_stopTimer_of_ne t.engine hsame))
  | letGo id =>
    rw [engine_mapLatch, Engine.latch_mapLatch]
    split
    · exact ⟨fun h => h, fun h => h, .inl rfl, .inr rfl⟩
    · exact .refl _

theorem Falls.latch {t t' : Turn} (h : Falls t t') (i : Nat) :
    (t.engine.latch i).Falls (t'.engine.latch i) := by
  induction h with
  | refl => exact .refl _
  | tail _ hfall ih => exact ih.trans (hfall.latch i)

/-- **A fall puts nothing into effect.** -/
theorem Fall.within {A : Nat → Prop} {t t' : Turn} (h : Fall t t')
    (ht : Engine.ActiveWithin A t.engine) : Engine.ActiveWithin A t'.engine := by
  cases h with
  | @answer id b pulse forced latch response hb hreaches hdown hrespond hend =>
    have hmove := Move.firstStep hb hreaches hrespond
    refine ht.answered hmove.layout (answered_firstStep hb hreaches hrespond)
      (fun i _ hactive => ht.within i hactive) fun latch response hrespond hactive => ?_
    -- Only a press could have brought it into effect.
    rcases ((ht.steady id b hb).respond hrespond).2 hactive with hbefore | ⟨hpress, -⟩
    · exact ht.within id (by rw [Engine.latch_of_getElem? hb, hbefore])
    · rw [hdown] at hpress
      contradiction
  | mark c user => exact ht.mark c user false
  | stop id => exact ht.of_untimed (Engine.untimed_stopTimer _ id)
  | letGo id => exact ht.congr (Engine.layout_mapLatch _ id _) (quiet_letGo t id).bits

theorem Falls.within {A : Nat → Prop} {t t' : Turn} (h : Falls t t')
    (ht : Engine.ActiveWithin A t.engine) : Engine.ActiveWithin A t'.engine := by
  induction h with
  | refl => exact ht
  | tail _ hfall ih => exact hfall.within ih

/-! ## §2 Releases consist of falls -/

/-- A listener brings about falls only, when a control without pairs goes up. -/
def FallsUp (onVar : Listener) : Prop :=
  ∀ t c pulse, pulse.down = false → (∀ pair, ¬ t.engine.board.Lists Line.pairs c pair) →
    Engine.ActiveWithin (fun _ => True) t.engine → Falls t (onVar t c pulse).1

/-- Settling an end stops the timer and lets go of the users. -/
theorem settle_up (t : Turn) (id : Nat) (m : Mapping) (source target : Descriptor) {r : Response}
    (hnow : r.now = false) : t.settle id m source target r =
      (t.mapEngine fun e => e.stopTimer id).mapLatch id fun l => { l with applied := [] } := by
  simp [settle, hnow, Mapping.timerPlan_ended, Engine.followPlan]

theorem falls_settle (t : Turn) (id : Nat) (m : Mapping) (source target : Descriptor) {r : Response}
    (hended : r.now = false) : Falls t (t.settle id m source target r) := by
  rw [settle_up t id m source target hended]
  exact .tail (.single (.stop t id)) (.letGo _ id)

/-- What the end of a binding relays brings about falls only: a variable goes up with its binding, and no
pair listens to a variable. -/
theorem falls_echo {onVar : Listener} (hvar : FallsUp onVar) {t : Turn} {id : Nat} {b : Binding}
    {pulse : Pulse} {forced : Bool} {latch : Latch} {r : Response}
    (hb : t.engine.bindings[id]? = some b) (hreaches : t.Reaches b pulse forced)
    (hrespond : b.latch.respond b.mapping (t.sourceOf b) (t.targetOf b) pulse.down pulse.strength
      forced = (latch, some r)) (hup : r.now = false)
    (ht : Engine.ActiveWithin (fun _ => True) t.engine) :
    Falls (t.firstStep id b pulse forced latch (some r))
      (relay onVar b.mapping.target (t.firstStep id b pulse forced latch (some r))
        (t.firstEcho id b pulse forced latch (some r))) := by
  cases hecho : t.firstEcho id b pulse forced latch (some r) with
  | none => exact .refl
  | some echo =>
    obtain ⟨hcell, hechoUp⟩ := perform_echo _ hecho
    have hfirst := Move.firstStep hb hreaches hrespond
    obtain ⟨b', hb', hmapping, -⟩ := Engine.binding_congr hfirst.layout hb
    have hacted := ht.move hfirst
    refine hvar _ _ echo (hechoUp hup) ?_ hacted
    rw [← hmapping]
    refine hacted.unpaired id b' hb' ?_
    rw [hmapping, Engine.descriptor_congr hfirst.layout]
    exact hcell

/-- A binding that hears of a release answers it, and then come falls only. -/
theorem falls_after_firstStep {onVar : Listener} (hvar : FallsUp onVar) {t : Turn} {id : Nat}
    {b : Binding} {pulse : Pulse} {forced : Bool} (hb : t.engine.bindings[id]? = some b)
    (hreaches : t.Reaches b pulse forced) (hdown : pulse.down = false)
    (ht : Engine.ActiveWithin (fun _ => True) t.engine) :
    ∃ latch response, b.latch.respond b.mapping (t.sourceOf b) (t.targetOf b) pulse.down
        pulse.strength forced = (latch, response) ∧
      Fall t (t.firstStep id b pulse forced latch response) ∧
      Falls (t.firstStep id b pulse forced latch response) (t.runBinding onVar id pulse forced).1 := by
  refine runBinding_cases (P := fun t' => ∃ latch response, b.latch.respond b.mapping
      (t.sourceOf b) (t.targetOf b) pulse.down pulse.strength forced = (latch, response) ∧
    Fall t (t.firstStep id b pulse forced latch response) ∧
    Falls (t.firstStep id b pulse forced latch response) t') (fun hnot => ?_)
    (fun b' latch hb' _ hrespond => ?_) fun b' latch r hb' _ hrespond => ?_
  · exact absurd hreaches (hnot b hb)
  · obtain rfl : b = b' := Option.some.inj (hb.symm.trans hb')
    exact ⟨latch, none, hrespond, .answer hb hreaches hdown hrespond (by simp), .refl⟩
  · obtain rfl : b = b' := Option.some.inj (hb.symm.trans hb')
    have hup : r.now = false := by
      rw [hdown] at hrespond
      exact (ht.steady id b hb).respond_up hrespond
    have hfirst : Fall t (t.firstStep id b pulse forced latch (some r)) :=
      .answer hb hreaches hdown hrespond fun _ h => Option.some.inj h ▸ hup
    refine ⟨latch, some r, hrespond, hfirst, ?_⟩
    exact (falls_echo hvar hb hreaches hrespond hup ht).trans (falls_settle _ id _ _ _ hup)

/-- A binding that hears of a release brings about falls only. -/
theorem falls_runBinding {onVar : Listener} (hvar : FallsUp onVar) {t : Turn} (id : Nat)
    {pulse : Pulse} (forced : Bool) (hdown : pulse.down = false)
    (ht : Engine.ActiveWithin (fun _ => True) t.engine) :
    Falls t (t.runBinding onVar id pulse forced).1 := by
  by_cases h : ∃ b, t.engine.bindings[id]? = some b ∧ t.Reaches b pulse forced
  · obtain ⟨b, hb, hreaches⟩ := h
    obtain ⟨latch, response, -, hfirst, hrest⟩ := falls_after_firstStep hvar hb hreaches hdown ht
    exact .head hfirst hrest
  · rw [runBinding_of_not_reaches onVar fun b hb hreaches => h ⟨b, hb, hreaches⟩]

/-- A series of operations brings about falls only, if each of them does. -/
theorem falls_foldl {α : Type} {run : Turn → α → Turn}
    (hrun : ∀ t item, Engine.ActiveWithin (fun _ => True) t.engine → Falls t (run t item)) {t : Turn}
    (items : List α) (ht : Engine.ActiveWithin (fun _ => True) t.engine) :
    Falls t (items.foldl run t) := by
  induction items generalizing t with
  | nil => exact .refl
  | cons item rest ih =>
    have hhead := hrun t item ht
    exact hhead.trans (ih (hhead.within ht))

/-- **A source without pairs that goes up brings about falls only**, however far the cascade goes. -/
theorem falls_feed (room : Nat) : FallsUp (feed room) := by
  -- The bindings of the chain end with the source, so what they feed goes up as well.
  induction room with
  | zero => exact fun _ _ _ _ _ _ => .refl
  | succ room ih =>
    intro t c pulse hdown hunpaired ht
    cases hline : t.engine.board.line? c with
    | none =>
      rw [feed_none _ t c pulse hline]
    | some line =>
      rw [feed_succ room t c pulse hline]
      dsimp only
      -- So there are only the chain and the watchers, which hear of releases.
      have hpairs : line.pairs = [] :=
        List.eq_nil_iff_forall_not_mem.mpr fun pair hpair => hunpaired pair ⟨line, hline, hpair⟩
      rw [hpairs, hdown]
      have hmark := Fall.mark t c (t.stateUser c pulse.user)
      have hone : ∀ (t' : Turn) id, Engine.ActiveWithin (fun _ => True) t'.engine →
          Falls t' (t'.runBinding (feed room) id
            { user := t.stateUser c pulse.user, down := false, strength := pulse.strength } false).1 :=
        fun t' id ht' => falls_runBinding ih id false rfl ht'
      have hrun := falls_foldl hone line.chain (hmark.within ht)
      have hchain := Relation.ReflTransGen.head hmark hrun
      refine iteInduction (motive := Falls t) (fun _ => hchain.trans ?_) fun _ => hchain
      exact falls_foldl (fun t' id ht' => review_cases .refl (falls_runBinding ih id true rfl ht'))
        line.watchers (Falls.within hchain ht)

theorem falls_forceRelease {t : Turn} (id : Nat)
    (ht : Engine.ActiveWithin (fun _ => True) t.engine) : Falls t (Engine.forceRelease t id) := by
  unfold Engine.forceRelease
  refine Relation.ReflTransGen.tail ?_ (.stop _ id)
  refine iteInduction (motive := Falls t) (fun _ => ?_) fun _ => .refl
  exact falls_runBinding (falls_feed cascadeRoom) id true rfl ht

/-- **Releasing bindings by force brings about falls only.** -/
theorem falls_forceReleases {t : Turn} (ids : List Nat)
    (ht : Engine.ActiveWithin (fun _ => True) t.engine) :
    Falls t (ids.foldl Engine.forceRelease t) :=
  falls_foldl (fun _ id ht => falls_forceRelease id ht) ids ht

/-! ## §3 Nothing is left to undo -/

/-- A binding that a release is forced on has ended, and its source counts as released. -/
theorem latch_release {t : Turn} {id : Nat} {b : Binding} (hb : t.engine.bindings[id]? = some b)
    (ht : Engine.ActiveWithin (fun _ => True) t.engine) :
    ((t.release listen id).engine.latch id).active = false ∧
      ((t.release listen id).engine.latch id).rawDown = false := by
  unfold release
  dsimp only
  generalize hpulse : ({ user := (t.engine.latch id).sourceUser, down := false, strength := 0 } :
    Pulse) = pulse
  have hup : pulse.down = false := hpulse ▸ rfl
  have hreaches : t.Reaches b pulse true := .inl rfl
  obtain ⟨latch, response, hrespond, -, hrest⟩ :=
    falls_after_firstStep (falls_feed cascadeRoom) hb hreaches hup ht
  obtain ⟨-, -, latch', response', hrespond', hbits⟩ := answered_firstStep hb (.inl rfl) hrespond
  obtain ⟨rfl, -⟩ := Prod.mk.inj (hrespond.symm.trans hrespond')
  have hown := (hbits id).trans (if_pos rfl)
  rw [hup] at hrespond
  obtain ⟨hactive, hdown⟩ := Latch.respond_forced hrespond
  -- The cascade below takes nothing back.
  have hfalls := Falls.latch hrest id
  exact ⟨hfalls.active ((Latch.active_of_bits hown).trans hactive),
    hfalls.rawDown ((congrArg Prod.fst hown).trans hdown)⟩

/-- After a forced release a binding is idle. -/
theorem idle_forceRelease {t : Turn} (id : Nat)
    (ht : Engine.ActiveWithin (fun _ => True) t.engine) :
    ((Engine.forceRelease t id).engine.latch id).Idle := by
  -- The timer is stopped last, whether the binding was latched or not.
  have hstop : ∀ t' : Turn, (t'.engine.latch id).active = false →
      (t'.engine.latch id).rawDown = false →
      ((t'.mapEngine fun e => e.stopTimer id).engine.latch id).Idle := fun t' hactive hdown =>
    have hfall := (Fall.stop t' id).latch id
    ⟨hfall.active hactive, hfall.rawDown hdown, Engine.TimersAgree.stopTimer_timer t'.engine id⟩
  unfold Engine.forceRelease
  split
  · rename_i hlatched
    cases hb : t.engine.bindings[id]? with
    | none =>
      rw [Engine.latch, hb] at hlatched
      contradiction
    | some b =>
      obtain ⟨hactive, hdown⟩ := latch_release hb ht
      exact hstop _ hactive hdown
  · rename_i hfree
    have hidle := Latch.idle_of_not_latched hfree
    exact hstop t hidle.active hidle.rawDown

/-- **Forced releases leave all of the bindings idle**: what has been released stays so while the
others follow. -/
theorem idle_forceReleases {t : Turn} (ids : List Nat)
    (ht : Engine.ActiveWithin (fun _ => True) t.engine) {id : Nat}
    (hid : id ∈ ids ∨ (t.engine.latch id).Idle) :
    ((ids.foldl Engine.forceRelease t).engine.latch id).Idle := by
  induction ids generalizing t with
  | nil => exact hid.resolve_left List.not_mem_nil
  | cons first rest ih =>
    have hfirst := falls_forceRelease first ht
    refine ih (Falls.within hfirst ht) ?_
    rcases hid with hmem | hidle
    · rcases List.mem_cons.mp hmem with rfl | hrest
      · exact .inr (idle_forceRelease id ht)
      · exact .inl hrest
    · exact .inr ((Falls.latch hfirst id).idle hidle)

end Turn

end VirtualPad
