import VirtualPad.Proofs.Requests
import VirtualPad.Proofs.Visits
import VirtualPad.Proofs.WellFormed

/-!
# Variables are down as they show

A variable is an output and a source.  As an output it has a cell, in which every mapping to it has a
slot of its own; it shows whether any of the slots presses it.  As a source it is down or up on the
board.  The two are written at different moments: the cell when a binding writes to the variable, the
board when the variable then moves as a source, which may happen deep in a cascade that the same
variable has started.

In between the two moments one variable is out of tune, and the pulse that is on its way brings it in
tune again (`Turn.TunedBy`).  So if no pulse gets lost, because a cascade has become too deep, and
nobody else moves variables, all variables are in tune whenever a binding has been run to its end:
`Turn.tunes_feed` is the induction, and `Engine.Spared` are the engines that it applies to.
-/

namespace VirtualPad

/-- The state that a control is set to is the one that is asked for from then on. -/
theorem Switchboard.isDown?_set (b : Switchboard) (c : Control) (user : User) (down : Bool)
    (other : Control) (u : User) : (b.set c user down).isDown? other u =
      if c = other ∧ user = u then (b.line? other).map fun _ => down else b.isDown? other u := by
  have hin : user.val < maskWidth := Nat.lt_of_lt_of_le user.isLt (by decide)
  unfold isDown?
  rw [line?_set]
  by_cases hsame : c = other
  · cases b.line? other with
    | none => simp
    | some line =>
      by_cases huser : user = u
      · simp [hsame, huser, Line.isDown, Line.set, Mask.has_put, huser ▸ hin]
      · have hne : ¬ user.val = u.val := fun h => huser (Fin.ext h)
        simp [hsame, huser, hne, Line.isDown, Line.set, Mask.has_put]
  · simp [hsame]

/-- The cascade is not cut off here. -/
def Visit.Uncut : Visit → Prop
  | .source _ room _ _ => 0 < room
  | _ => True

instance : DecidablePred Visit.Uncut
  | .source _ room _ _ => inferInstanceAs (Decidable (0 < room))
  | .binding _ _ | .pad _ | .part _ _ | .claim _ => inferInstanceAs (Decidable True)

/-- A variable that moves moves to what it shows. -/
def Visit.Merged : Visit → Prop
  | .source _ _ down shown => ∀ merged ∈ shown, down = merged
  | _ => True

theorem Visit.OfPad.merged {v : Visit} (h : v.OfPad) : v.Merged := by
  rcases h with ⟨user, rfl⟩ | ⟨cell, rfl⟩
  · trivial
  · cases cell <;> trivial

namespace Engine

/-- Every variable that is written to is down on the board just as it shows. -/
def InTune (e : Engine) : Prop :=
  ∀ (c : Control) (shown : Bool), e.shown? c = some shown →
    e.board.isDown? c User.first = some shown

theorem shown?_eq_some {e : Engine} {c : Control} {shown : Bool} : e.shown? c = some shown ↔
    (e.descriptor c).cell = .output .var ∧ ∃ cell, e.outputs[c]? = some cell ∧
      ButtonCell.pressed cell = shown := by
  unfold shown?
  split
  · rename_i hvar
    simp [hvar]
  · rename_i hvar
    simp [hvar]

theorem shown?_of_ne {e : Engine} {c : Control} (h : (e.descriptor c).cell ≠ .output .var) :
    e.shown? c = none :=
  if_neg h

/-- When one output changes, what other variables show stays. -/
theorem shown?_insert {e : Engine} {kind : OutputKind} {target : Control}
    (hkind : (e.descriptor target).cell = .output kind) {after : ButtonCell} {other : Control}
    {shown : Bool}
    (hshown : (e.write e.pads (e.outputs.insert target after)).shown? other = some shown) :
    target = other ∧ kind = .var ∧ ButtonCell.pressed after = shown ∨
      target ≠ other ∧ e.shown? other = some shown := by
  obtain ⟨hvar, cell, hcell, hpressed⟩ := shown?_eq_some.mp hshown
  change (e.outputs.insert target after)[other]? = some cell at hcell
  change (e.descriptor other).cell = .output .var at hvar
  rw [Std.TreeMap.getElem?_insert] at hcell
  split at hcell
  · rename_i hsame
    obtain rfl := Std.LawfulEqOrd.eq_of_compare hsame
    rw [hkind] at hvar
    obtain rfl := Option.some.inj hcell
    exact .inl ⟨rfl, by simpa using hvar, hpressed⟩
  · rename_i hne
    exact .inr ⟨fun h => hne (by simp [h]), shown?_eq_some.mpr ⟨hvar, cell, hcell, hpressed⟩⟩

/-- So all variables stay in tune, if that output is none or is down on the board just as it shows. -/
theorem inTune_insert {e : Engine} (he : InTune e) {kind : OutputKind} {target : Control}
    (hkind : (e.descriptor target).cell = .output kind) {after : ButtonCell}
    (hdown : kind = .var → e.board.isDown? target User.first = some after.pressed) :
    InTune (e.write e.pads (e.outputs.insert target after)) := by
  intro other shown hshown
  rcases shown?_insert hkind hshown with ⟨rfl, hvar, hpressed⟩ | ⟨-, hsame⟩
  · rw [← hpressed]
    exact hdown hvar
  · exact he other shown hsame

/-- The variables show and stand for the same. -/
structure SameVars (e e' : Engine) : Prop where
  layout : e'.layout = e.layout
  board : e'.board = e.board
  outputs : e'.outputs = e.outputs

namespace SameVars

variable {e e' e'' : Engine}

theorem refl (e : Engine) : SameVars e e := ⟨rfl, rfl, rfl⟩

theorem trans (h : SameVars e e') (h' : SameVars e' e'') : SameVars e e'' :=
  ⟨h'.layout.trans h.layout, h'.board.trans h.board, h'.outputs.trans h.outputs⟩

theorem mapLatch (e : Engine) (id : Nat) (change : Latch → Latch) :
    SameVars e (e.mapLatch id change) :=
  ⟨layout_mapLatch e id change, rfl, rfl⟩

theorem write (e : Engine) {pads : PadBank} (hcount : pads.count = e.pads.count) :
    SameVars e (e.write pads e.outputs) :=
  ⟨layout_write e _ hcount, rfl, rfl⟩

theorem advance (e : Engine) (clock : Clock) : SameVars e { e with clock } := ⟨rfl, rfl, rfl⟩

theorem of_untimed (h : e'.untimed = e.untimed) : SameVars e e' where
  layout := layout_of_untimed h
  board := (congrArg Engine.board h :)
  outputs := (congrArg Engine.outputs h :)

theorem commit (t : Turn) : SameVars t.engine t.commit := by
  obtain ⟨pads, queue, remainder, snapshots, events, hcommit, hcount⟩ := t.commit_frame
  rw [hcommit]
  exact ⟨layout_write t.engine t.engine.outputs hcount, rfl, rfl⟩

theorem inTune (h : SameVars e e') (he : InTune e) : InTune e' := by
  intro c shown hshown
  rw [h.board]
  rw [shown?_eq_some, descriptor_congr h.layout, h.outputs] at hshown
  exact he c shown (shown?_eq_some.mpr hshown)

end SameVars

end Engine

/-! ## §1 A pulse on its way -/

namespace Turn

open Engine

variable {t : Turn} {c : Control} {pulse : Pulse}

/-- As soon as the control is marked with the pulse, all variables are in tune. -/
def TunedBy (t : Turn) (c : Control) (pulse : Pulse) : Prop :=
  InTune (t.mark c (t.own c pulse).user pulse.down).engine

/-- No variable is waiting for a pulse of another control. -/
theorem TunedBy.of_other (ht : InTune t.engine) (hother : t.engine.shown? c = none)
    (pulse : Pulse) : TunedBy t c pulse := by
  intro other shown hshown
  have hne : c ≠ other := by
    rintro rfl
    exact absurd (hother.symm.trans hshown) (by simp)
  refine (Switchboard.isDown?_set t.engine.board c _ _ other User.first).trans ?_
  rw [if_neg fun h => hne h.1]
  exact ht other shown hshown

/-- What has no line is no variable. -/
theorem TunedBy.unheard (h : TunedBy t c pulse) (hline : t.engine.board.line? c = none) :
    InTune t.engine := by
  intro other shown hshown
  have hmarked := h other shown hshown
  change (t.engine.board.set c _ _).isDown? other User.first = some shown at hmarked
  rw [Switchboard.isDown?_set] at hmarked
  split at hmarked
  · rename_i hsame
    rw [← hsame.1, hline] at hmarked
    contradiction
  · exact hmarked

/-- A variable keeps its state under the first user. -/
theorem own_of_var (hvar : (t.engine.descriptor c).cell = .output .var) (pulse : Pulse) :
    (t.own c pulse).user = User.first := by
  show t.stateUser c pulse.user = User.first
  unfold stateUser
  rw [show t.engine.descriptor c = _ from (t.engine.vocabulary.of_var hvar).2]
  rfl

/-- The pulse that a variable is waiting for is what it shows. -/
theorem TunedBy.merged (h : TunedBy t c pulse) (room : Nat) : (t.hearing c room pulse).Merged := by
  intro shown hshown
  have hmarked := h c shown hshown
  change (t.engine.board.set c _ _).isDown? c User.first = some shown at hmarked
  rw [Switchboard.isDown?_set, if_pos ⟨rfl, own_of_var (shown?_eq_some.mp hshown).1 pulse⟩] at hmarked
  obtain ⟨line, -, hdown⟩ := Option.map_eq_some_iff.mp hmarked
  exact hdown

/-- Either the variables are in tune after something is written to a target, or its echo brings them
in tune. -/
def Settles (answer : Turn × Option Pulse) (target : Control) : Prop :=
  match answer.2 with
  | none => InTune answer.1.engine
  | some echo => TunedBy answer.1 target echo

/-- **Writing to an output** puts no variable out of tune but the output itself, and then it
echoes. -/
theorem settles_writeOutput (ht : InTune t.engine) {kind : OutputKind} {target : Control}
    (hkind : (t.engine.descriptor target).cell = .output kind) (slot : Slot) (down replaces : Bool) :
    Settles (t.writeOutput kind target slot down replaces) target := by
  cases hbefore : t.engine.outputs[target]? with
  | none =>
    have hnothing : t.writeOutput kind target slot down replaces = (t, none) := by
      unfold writeOutput
      rw [hbefore]
    rw [hnothing]
    exact ht
  | some before =>
    by_cases hvar : kind = .var
    · subst hvar
      have hwas := ht target before.pressed (shown?_eq_some.mpr ⟨hkind, before, hbefore, rfl⟩)
      unfold writeOutput
      rw [hbefore]
      dsimp only
      by_cases hchanged : ButtonCell.differs before (ButtonCell.set before slot down replaces) = true
      · -- The variable is out of tune now, and its echo tells what it shows.
        rw [if_pos hchanged]
        intro other shown hshown
        show (t.engine.board.set target _ _).isDown? other User.first = some shown
        rw [Switchboard.isDown?_set]
        rcases shown?_insert hkind hshown with ⟨rfl, -, hpressed⟩ | ⟨hne, hsame⟩
        · obtain ⟨line, hline, -⟩ := Option.map_eq_some_iff.mp hwas
          rw [if_pos ⟨rfl, own_of_var (t := { t with engine := t.engine }) hkind _⟩, hline, ← hpressed]
          rfl
        · rw [if_neg fun h => hne h.1]
          exact ht other shown hsame
      · -- Nothing that can be seen has changed.
        rw [if_neg hchanged]
        rw [Bool.not_eq_true] at hchanged
        have hstays : before.pressed = (ButtonCell.set before slot down replaces).pressed := by
          simpa [ButtonCell.differs] using hchanged
        exact inTune_insert ht hkind fun _ => hwas.trans (congrArg some hstays)
    · have hsilent : (t.writeOutput kind target slot down replaces).2 = none := by
        unfold writeOutput
        rw [hbefore]
        cases kind with
        | var => exact absurd rfl hvar
        | keyboard | mouseButton | customKey => rfl
      unfold Settles
      rw [hsilent]
      dsimp only
      rw [engine_writeOutput, hbefore]
      exact inTune_insert ht hkind fun h => absurd h hvar

theorem settles_writeTarget (ht : InTune t.engine) {id : Nat} {b : Binding}
    (hb : t.engine.bindings[id]? = some b) (source : Descriptor) (down : Bool) (strength : Float) :
    Settles (t.writeTarget id source (t.targetOf b) down strength) b.mapping.target := by
  unfold writeTarget
  rw [hb]
  dsimp only
  split
  · split <;> exact ht
  · split <;> exact ht
  · show InTune (t.updatePads _ _).engine
    rw [engine_updatePads]
    exact (SameVars.write t.engine (PadBank.count_change _ _ _)).inTune ht
  · rename_i kind slot hcell _
    exact settles_writeOutput ht hcell slot down _
  · exact ht

/-- What has changed only latches and pads can be written to just as well. -/
theorem settles_writeTarget_of_same {t' : Turn} (ht : InTune t.engine)
    (hsame : SameVars t.engine t'.engine) {id : Nat} {b : Binding}
    (hb : t.engine.bindings[id]? = some b) (source : Descriptor) (down : Bool) (strength : Float) :
    Settles (t'.writeTarget id source (t.targetOf b) down strength) b.mapping.target := by
  obtain ⟨b', hb', hmapping, -⟩ := binding_congr hsame.layout hb
  have hwrite := settles_writeTarget (hsame.inTune ht) hb' source down strength
  rw [targetOf_congr hsame.layout hmapping, hmapping] at hwrite
  exact hwrite

theorem settles_perform (ht : InTune t.engine) {id : Nat} {b : Binding}
    (hb : t.engine.bindings[id]? = some b) (source : Descriptor) (user : User) (r : Response)
    (forced : Bool) :
    Settles (t.perform id b.mapping source (t.targetOf b) user r forced) b.mapping.target := by
  have hrisen : SameVars t.engine
      (if r.now && !r.was then t.rise id b.mapping (t.targetOf b) user else t).engine := by
    split
    · obtain ⟨pads, hengine, hcount⟩ := rise_frame t id b.mapping (t.targetOf b) user
      rw [hengine]
      exact (SameVars.mapLatch t.engine id _).trans (.write _ hcount)
    · exact .refl _
  unfold perform
  generalize (if r.now && !r.was then t.rise id b.mapping (t.targetOf b) user else t) = risen
    at hrisen ⊢
  dsimp only
  split
  · show InTune (risen.giveCommand id _ r forced).engine
    rw [engine_giveCommand]
    exact hrisen.inTune ht
  · split
    · refine settles_writeTarget_of_same ht ?_ hb source _ _
      split
      · rw [engine_mapLatch]
        exact hrisen.trans (.mapLatch _ id _)
      · exact hrisen
    · exact hrisen.inTune ht

theorem settles_firstStep (ht : InTune t.engine) {id : Nat} {b : Binding}
    (hb : t.engine.bindings[id]? = some b) (pulse : Pulse) (forced : Bool) (latch : Latch)
    (response : Option Response) :
    Settles (t.firstStep id b pulse forced latch response, t.firstEcho id b pulse forced latch
      response) b.mapping.target := by
  have hlatch := SameVars.mapLatch t.engine id fun _ => latch
  cases response with
  | none => exact hlatch.inTune ht
  | some r =>
    obtain ⟨b', hb', hmapping, -⟩ := binding_congr hlatch.layout hb
    have hperform := settles_perform (t := t.mapLatch id fun _ => latch) (hlatch.inTune ht) hb'
      (t.sourceOf b) pulse.user r forced
    rw [targetOf_congr hlatch.layout hmapping, hmapping] at hperform
    exact hperform

theorem settles_blink (ht : InTune t.engine) {id : Nat} {b : Binding}
    (hb : t.engine.bindings[id]? = some b) (source : Descriptor) :
    Settles (t.blink id source (t.targetOf b)) b.mapping.target := by
  have hlatch := SameVars.mapLatch t.engine id fun l => { l with lit := !l.lit }
  unfold blink
  dsimp only
  split
  · exact hlatch.inTune ht
  · exact settles_writeTarget_of_same ht hlatch hb source _ _

theorem inTune_settle (ht : InTune t.engine) (id : Nat) (m : Mapping) (source target : Descriptor)
    (r : Response) : InTune (t.settle id m source target r).engine := by
  have hplan := (SameVars.of_untimed (untimed_followPlan t.engine id
    (m.timerPlan source target t.engine.settings r.was r.now))).inTune ht
  unfold settle
  dsimp only
  split
  · exact hplan
  · exact (SameVars.mapLatch _ id _).inTune hplan

/-! ## §2 Cascades -/

/-- A pulse brings the variables in tune, unless it gets lost, and whatever moves with it moves to
what it shows. -/
def Tunes (onVar : Listener) (scout : Scout) : Prop :=
  ∀ (t : Turn) (c : Control) (pulse : Pulse), TunedBy t c pulse →
    (∀ v ∈ scout t c pulse, v.Uncut) →
    InTune (onVar t c pulse).1.engine ∧ ∀ v ∈ scout t c pulse, v.Merged

variable {onVar : Listener} {scout : Scout} (hvar : Tunes onVar scout)

include hvar

theorem tunes_relay {echo : Option Pulse} {target : Control} (h : Settles (t, echo) target)
    (huncut : ∀ v ∈ visitsEcho scout target t echo, v.Uncut) :
    InTune (relay onVar target t echo).engine ∧ ∀ v ∈ visitsEcho scout target t echo, v.Merged := by
  cases echo with
  | none => exact ⟨h, List.forall_mem_nil _⟩
  | some echo => exact hvar t target echo h huncut

theorem tunes_runBinding (ht : InTune t.engine) {id : Nat} {pulse : Pulse} {forced : Bool}
    (huncut : ∀ v ∈ t.visitsBinding scout id pulse forced, v.Uncut) :
    InTune (t.runBinding onVar id pulse forced).1.engine ∧
      ∀ v ∈ t.visitsBinding scout id pulse forced, v.Merged := by
  by_cases h : ∃ b, t.engine.bindings[id]? = some b ∧ t.Reaches b pulse forced
  · obtain ⟨b, hb, hreaches⟩ := h
    cases hrespond : b.latch.respond b.mapping (t.sourceOf b) (t.targetOf b) pulse.down
      pulse.strength forced with
    | mk latch response =>
    rw [visitsBinding_of_reaches scout hb hreaches hrespond] at huncut ⊢
    have hrelay := tunes_relay hvar (settles_firstStep ht hb pulse forced latch response)
      fun v hv => huncut v (List.mem_cons_of_mem _ (List.mem_append_right _ hv))
    refine ⟨?_, List.forall_mem_cons.mpr ⟨trivial, List.forall_mem_append.mpr ⟨?_, hrelay.2⟩⟩⟩
    · have hmatch : ∀ {b' latch' response'}, t.engine.bindings[id]? = some b' →
          b'.latch.respond b'.mapping (t.sourceOf b') (t.targetOf b') pulse.down pulse.strength
            forced = (latch', response') → b' = b ∧ latch' = latch ∧ response' = response := by
        intro b' latch' response' hb' hrespond'
        obtain rfl := Option.some.inj (hb.symm.trans hb')
        obtain ⟨rfl, rfl⟩ := Prod.mk.inj (hrespond.symm.trans hrespond')
        exact ⟨rfl, rfl, rfl⟩
      refine runBinding_cases (P := fun t' : Turn => InTune t'.engine)
        (fun hnot => absurd hreaches (hnot b hb)) (fun b' latch' hb' _ hrespond' => ?_)
        fun b' latch' r hb' _ hrespond' => ?_
      · obtain ⟨rfl, rfl, rfl⟩ := hmatch hb' hrespond'
        exact hrelay.1
      · obtain ⟨rfl, rfl, rfl⟩ := hmatch hb' hrespond'
        exact inTune_settle hrelay.1 id _ _ _ r
    · exact fun v hv => (ofPad_visitsFirst t id b pulse latch response v hv).merged
  · rw [runBinding_of_not_reaches onVar fun b hb hreaches => h ⟨b, hb, hreaches⟩,
      visitsBinding_of_not_reaches scout fun b hb hreaches => h ⟨b, hb, hreaches⟩]
    exact ⟨ht, List.forall_mem_singleton.mpr trivial⟩

theorem tunes_review (ht : InTune t.engine) {id : Nat}
    (huncut : ∀ v ∈ t.visitsReview scout id, v.Uncut) :
    InTune (t.review onVar id).engine ∧ ∀ v ∈ t.visitsReview scout id, v.Merged := by
  unfold visitsReview at huncut ⊢
  unfold review
  cases hb : t.engine.bindings[id]? with
  | none => exact ⟨ht, List.forall_mem_singleton.mpr trivial⟩
  | some b =>
    rw [hb] at huncut
    dsimp only at huncut ⊢
    split
    · rename_i hfails
      rw [if_pos hfails] at huncut
      have hreleased := tunes_runBinding hvar ht fun v hv => huncut v (List.mem_cons_of_mem _ hv)
      exact ⟨hreleased.1, List.forall_mem_cons.mpr ⟨trivial, hreleased.2⟩⟩
    · exact ⟨ht, List.forall_mem_singleton.mpr trivial⟩

/-- A pair is no variable. -/
theorem tunes_followPair (ht : InTune t.engine) {pulse : Pulse} {pair : Control}
    (huncut : ∀ v ∈ visitsPair scout pulse t pair, v.Uncut) :
    InTune (followPair onVar pulse t pair).1.engine ∧
      ∀ v ∈ visitsPair scout pulse t pair, v.Merged := by
  unfold visitsPair at huncut ⊢
  unfold followPair
  cases hstate : t.pairState? pair pulse.user with
  | none => exact ⟨ht, List.forall_mem_nil _⟩
  | some down =>
    rw [hstate] at huncut
    dsimp only at huncut ⊢
    split
    · rename_i hmoves
      rw [if_pos hmoves] at huncut
      refine hvar t pair _ (.of_other ht (shown?_of_ne fun hcell => ?_) _) huncut
      obtain ⟨both, hpair, -⟩ := Option.map_eq_some_iff.mp hstate
      rw [show t.engine.descriptor pair = _ from (t.engine.vocabulary.of_var hcell).2] at hpair
      contradiction
    · exact ⟨ht, List.forall_mem_nil _⟩

omit hvar

/-- One thing is done after another, and each keeps the variables in tune. -/
theorem tunes_walk {α : Type} {run : Turn → α → Turn} {visits : Turn → α → List Visit}
    {items : List α}
    (hitem : ∀ (t : Turn) (item : α), InTune t.engine → (∀ v ∈ visits t item, v.Uncut) →
      InTune (run t item).engine ∧ ∀ v ∈ visits t item, v.Merged)
    (ht : InTune t.engine) (huncut : ∀ v ∈ visitsWalk run visits t items, v.Uncut) :
    InTune (items.foldl run t).engine ∧ ∀ v ∈ visitsWalk run visits t items, v.Merged :=
  visitsWalk_along (P := fun t : Turn => InTune t.engine)
    (fun t item _ ht hgiven => hitem t item ht hgiven) ht huncut

/-- **A pulse brings the variables in tune**, however far the cascade goes, as long as it is not cut
off. -/
theorem tunes_feed (room : Nat) : Tunes (feed room) (visitsFeed room) := by
  -- What a binding or a pair feeds has less room left; with no room at all the cascade is cut off.
  induction room with
  | zero => exact fun t c pulse _ huncut => absurd (huncut _ List.mem_cons_self) (Nat.lt_irrefl 0)
  | succ room ih =>
    intro t c pulse htuned huncut
    cases hline : t.engine.board.line? c with
    | none =>
      rw [feed_none _ t c pulse hline, visitsFeed_none _ t c pulse hline]
      exact ⟨htuned.unheard hline, List.forall_mem_singleton.mpr (htuned.merged _)⟩
    | some line =>
      have hheard := htuned.merged (room + 1)
      rw [visitsFeed_succ room t c pulse hline] at huncut ⊢
      rw [feed_eq room t c pulse hline]
      dsimp only at huncut ⊢
      unfold TunedBy at htuned
      have hdown : (t.own c pulse).down = pulse.down := rfl
      rw [← hdown] at htuned ⊢
      generalize t.own c pulse = own at htuned huncut ⊢
      obtain ⟨hfirst, hlast⟩ := List.forall_mem_append.mp (List.forall_mem_cons.mp huncut).2
      obtain ⟨hchain, hpairs⟩ := List.forall_mem_append.mp hfirst
      -- The chain runs, the pairs follow and the watchers are reviewed.
      have hrun := tunes_walk (fun t id ht hgiven => tunes_runBinding ih ht hgiven) htuned hchain
      rw [← fst_runChain room t c line own] at hrun
      have hfollowed := tunes_walk (fun t pair ht hgiven => tunes_followPair ih ht hgiven) hrun.1
        hpairs
      rw [← fst_runPairs room t c line own] at hfollowed
      by_cases hmoves : line.moves own.user own.down = true
      · rw [if_pos hmoves] at hlast ⊢
        rw [if_pos hmoves]
        have hreviewed := tunes_walk (fun t id ht hgiven => tunes_review ih ht hgiven) hfollowed.1
          hlast
        exact ⟨hreviewed.1, List.forall_mem_cons.mpr ⟨hheard, List.forall_mem_append.mpr
          ⟨List.forall_mem_append.mpr ⟨hrun.2, hfollowed.2⟩, hreviewed.2⟩⟩⟩
      · rw [if_neg hmoves, if_neg hmoves]
        exact ⟨hfollowed.1, List.forall_mem_cons.mpr ⟨hheard, List.forall_mem_append.mpr
          ⟨List.forall_mem_append.mpr ⟨hrun.2, hfollowed.2⟩, List.forall_mem_nil _⟩⟩⟩

/-! ## §3 Timers and forced releases -/

theorem tunes_tick (ht : InTune t.engine) {use : TimerUse}
    (huncut : ∀ v ∈ t.visitsTick use, v.Uncut) :
    InTune (t.tick use).engine ∧ ∀ v ∈ t.visitsTick use, v.Merged := by
  -- To let a timer lapse changes no variable.
  have hlapse := SameVars.of_untimed (untimed_lapse t.engine use)
  have hlapsed := hlapse.inTune ht
  unfold visitsTick at huncut ⊢
  unfold tick
  dsimp only at huncut ⊢
  cases hb : t.engine.bindings[use.binding]? with
  | none => exact ⟨ht, List.forall_mem_singleton.mpr trivial⟩
  | some b =>
    rw [hb] at huncut
    obtain ⟨-, huncut⟩ := List.forall_mem_cons.mp huncut
    have hpads : ∀ v ∈ t.visitsWrite use.binding (t.targetOf b), v.Merged := fun v hv =>
      (ofPad_visitsWrite t use.binding (t.targetOf b) v hv).merged
    obtain ⟨b', hb', hmapping, -⟩ := binding_congr hlapse.layout hb
    dsimp only at huncut ⊢
    -- What blinks or ends writes its target; what goes on writes pads alone.
    cases hkind : use.kind with
    | turbo =>
      rw [hkind] at huncut
      have hblink := settles_blink (t := t.mapEngine fun e => e.lapse use) hlapsed hb' (t.sourceOf b)
      rw [targetOf_congr hlapse.layout hmapping, hmapping] at hblink
      have hrelay := tunes_relay (tunes_feed cascadeRoom) hblink (List.forall_mem_append.mp huncut).2
      refine ⟨hrelay.1, List.forall_mem_cons.mpr
        ⟨trivial, List.forall_mem_append.mpr ⟨?_, hrelay.2⟩⟩⟩
      split
      · exact List.forall_mem_nil _
      · exact hpads
    | release =>
      rw [hkind] at huncut
      have hended := tunes_runBinding (tunes_feed cascadeRoom)
        (t := t.mapEngine fun e => e.lapse use) hlapsed huncut
      exact ⟨hended.1, List.forall_mem_cons.mpr ⟨trivial, hended.2⟩⟩
    | repeating =>
      refine ⟨?_, List.forall_mem_cons.mpr ⟨trivial, ?_⟩⟩
      · obtain ⟨pads, hengine, hcount⟩ := goOn_frame (t.mapEngine fun e => e.lapse use) use.binding
          (t.targetOf b)
        show InTune (goOn _ use.binding (t.targetOf b)).engine
        rw [hengine]
        exact (SameVars.write _ hcount).inTune hlapsed
      · dsimp only
        split
        · exact hpads
        · exact List.forall_mem_nil _
    | rotate =>
      refine ⟨?_, List.forall_mem_cons.mpr ⟨trivial, ?_⟩⟩
      · obtain ⟨pads, hengine, hcount⟩ := turnStick_frame (t.mapEngine fun e => e.lapse use)
          use.binding (t.targetOf b)
        show InTune (turnStick _ use.binding (t.targetOf b)).engine
        rw [hengine]
        exact (SameVars.write _ hcount).inTune hlapsed
      · dsimp only
        split
        · exact fun v hv => (ofPad_visitsPads _ _ v hv).merged
        · exact List.forall_mem_nil _
    | keyRepeatDelay | keyRepeat =>
      refine ⟨?_, List.forall_mem_singleton.mpr trivial⟩
      show InTune (repeatKey _ use.binding _).engine
      rw [engine_repeatKey]
      exact hlapsed

end Turn

namespace Engine

variable {e : Engine}

theorem tunes_forceRelease {t : Turn} (ht : InTune t.engine) {id : Nat}
    (huncut : ∀ v ∈ visitsForceRelease t id, v.Uncut) :
    InTune (forceRelease t id).engine ∧ ∀ v ∈ visitsForceRelease t id, v.Merged := by
  have hstop : ∀ t : Turn, InTune t.engine → InTune (t.mapEngine fun e => e.stopTimer id).engine :=
    fun t ht => (SameVars.of_untimed (untimed_stopTimer t.engine id)).inTune ht
  unfold visitsForceRelease at huncut ⊢
  unfold forceRelease
  by_cases hlatched : (t.engine.latch id).isLatched = true
  · rw [if_pos hlatched] at huncut ⊢
    rw [if_pos hlatched]
    have hreleased := Turn.tunes_runBinding (Turn.tunes_feed cascadeRoom) ht
      (List.forall_mem_cons.mp huncut).2
    exact ⟨hstop _ hreleased.1, List.forall_mem_cons.mpr ⟨trivial, hreleased.2⟩⟩
  · rw [if_neg hlatched, if_neg hlatched]
    exact ⟨hstop t ht, List.forall_mem_singleton.mpr trivial⟩

theorem tunes_forceReleaseAll (he : InTune e) {time : Nat}
    (huncut : ∀ v ∈ e.visitsForceReleaseAll time, v.Uncut) :
    InTune (e.forceReleaseAll time) ∧ ∀ v ∈ e.visitsForceReleaseAll time, v.Merged := by
  have hreleased := Turn.tunes_walk (t := { engine := e, time })
    (fun t id ht hgiven => tunes_forceRelease ht hgiven) he (List.forall_mem_append.mp huncut).1
  refine ⟨(SameVars.commit _).inTune ?_, List.forall_mem_append.mpr ⟨hreleased.2, ?_⟩⟩
  · rw [Turn.engine_updatePads]
    exact (SameVars.write _ (PadBank.count_change _ _ _)).inTune hreleased.1
  · exact List.forall_mem_map.mpr fun user _ => trivial

theorem inTune_setActiveUser (he : InTune e) (user : User) : InTune (e.setActiveUser user) := by
  unfold setActiveUser
  split <;> exact he

theorem tunes_obey (he : InTune e) {r : Request} {time : Nat}
    (huncut : ∀ v ∈ e.visitsObey r time, v.Uncut) :
    InTune (e.obey r time) ∧ ∀ v ∈ e.visitsObey r time, v.Merged := by
  unfold visitsObey at huncut ⊢
  unfold obey
  cases hcommand : r.command with
  | toggleDisable =>
    rw [hcommand] at huncut
    dsimp only at huncut ⊢
    split
    · exact ⟨he, List.forall_mem_singleton.mpr trivial⟩
    · rename_i henabled
      rw [if_neg henabled] at huncut
      have hreleased := tunes_forceReleaseAll he (List.forall_mem_cons.mp huncut).2
      exact ⟨hreleased.1, List.forall_mem_cons.mpr ⟨trivial, hreleased.2⟩⟩
  | setActiveUser => exact ⟨inTune_setActiveUser he _, List.forall_mem_singleton.mpr trivial⟩
  | holdActiveUser =>
    refine ⟨?_, List.forall_mem_singleton.mpr trivial⟩
    -- To hold the active user is to touch latches and the choice of a user, and no variable.
    have hremember := fun user => (SameVars.mapLatch e r.mapping fun l =>
      { l with restoreUser := user }).inTune he
    dsimp only
    split
    · exact he
    · split
      · exact inTune_setActiveUser (hremember _) _
      · split
        · exact he
        · exact inTune_setActiveUser (hremember none) _
  | toggleConnected =>
    refine ⟨?_, List.forall_mem_cons.mpr ⟨trivial, ?_⟩⟩
    · dsimp only
      split
      · refine (SameVars.commit _).inTune ?_
        rw [Turn.engine_updatePad]
        exact he
      · exact he
    · dsimp only
      split
      · exact List.forall_mem_singleton.mpr trivial
      · exact List.forall_mem_nil _
  | reload | loadConfig => exact ⟨he, List.forall_mem_singleton.mpr trivial⟩

theorem tunes_obeyAll (time bound : Nat) (he : InTune e)
    (huncut : ∀ v ∈ visitsObeyAll time bound e, v.Uncut) :
    InTune (obeyAll time bound e) ∧ ∀ v ∈ visitsObeyAll time bound e, v.Merged := by
  induction bound generalizing e with
  | zero => exact ⟨he, List.forall_mem_nil _⟩
  | succ bound ih =>
    unfold visitsObeyAll at huncut ⊢
    unfold obeyAll
    cases hqueue : e.queue with
    | nil => exact ⟨he, List.forall_mem_nil _⟩
    | cons r rest =>
      rw [hqueue] at huncut
      obtain ⟨hfirst, hrest⟩ := List.forall_mem_append.mp huncut
      have hobeyed := tunes_obey (e := { e with queue := rest }) he hfirst
      have hdone := ih hobeyed.1 hrest
      exact ⟨hdone.1, List.forall_mem_append.mpr ⟨hobeyed.2, hdone.2⟩⟩

theorem tunes_drainQueue (he : InTune e) {time : Nat} (huncut : ∀ v ∈ e.visitsDrain time, v.Uncut) :
    InTune (e.drainQueue time) ∧ ∀ v ∈ e.visitsDrain time, v.Merged :=
  tunes_obeyAll time _ he huncut

/-- A source that is no variable moves no variable itself. -/
theorem tunes_accept (he : InTune e) {source : Control} {pulse : Pulse} {time : Nat}
    (hsource : (e.descriptor source).cell ≠ .output .var)
    (huncut : ∀ v ∈ e.visitsAccept source pulse time, v.Uncut) :
    InTune (e.accept source pulse time).1 ∧ ∀ v ∈ e.visitsAccept source pulse time, v.Merged := by
  obtain ⟨hfeed, hdrain⟩ := List.forall_mem_append.mp huncut
  have hfed := Turn.tunes_feed (cascadeRoom + 1) { engine := { e with lastTime := time }, time }
    source pulse (.of_other he (shown?_of_ne hsource) pulse) hfeed
  have hdrained := tunes_drainQueue ((SameVars.commit _).inTune hfed.1) hdrain
  exact ⟨hdrained.1, List.forall_mem_append.mpr ⟨hfed.2, hdrained.2⟩⟩

theorem tunes_onTimer (he : InTune e) {token : TimerToken} {time : Nat}
    (huncut : ∀ v ∈ e.visitsTimer token time, v.Uncut) :
    InTune (e.onTimer token time) ∧ ∀ v ∈ e.visitsTimer token time, v.Merged := by
  unfold visitsTimer at huncut ⊢
  unfold onTimer
  cases huse : e.timerUse? token with
  | none => exact ⟨he, List.forall_mem_nil _⟩
  | some use =>
    rw [huse] at huncut
    obtain ⟨htick, hdrain⟩ := List.forall_mem_append.mp huncut
    have hticked := Turn.tunes_tick (t := { engine := { e with lastTime := time }, time }) he htick
    have hdrained := tunes_drainQueue ((SameVars.commit _).inTune hticked.1) hdrain
    exact ⟨hdrained.1, List.forall_mem_append.mpr ⟨hticked.2, hdrained.2⟩⟩

theorem tunes_runDue (limit : Nanoseconds) (bound : Nat) (he : InTune e)
    (huncut : ∀ v ∈ visitsDue limit bound e, v.Uncut) :
    InTune (runDue limit bound e) ∧ ∀ v ∈ visitsDue limit bound e, v.Merged := by
  induction bound generalizing e with
  | zero => exact ⟨he, List.forall_mem_nil _⟩
  | succ bound ih =>
    unfold visitsDue at huncut ⊢
    unfold runDue
    cases hdue : e.clock.nextDue? limit with
    | none => exact ⟨he, List.forall_mem_nil _⟩
    | some next =>
      obtain ⟨token, due, clock⟩ := next
      rw [hdue] at huncut
      obtain ⟨hfirst, hrest⟩ := List.forall_mem_append.mp huncut
      have hticked := tunes_onTimer (e := { e with clock }) he hfirst
      have hdone := ih hticked.1 hrest
      exact ⟨hdone.1, List.forall_mem_append.mpr ⟨hticked.2, hdone.2⟩⟩

theorem tunes_releaseAll (he : InTune e) {time : Nat}
    (huncut : ∀ v ∈ e.visitsReleaseAll time, v.Uncut) :
    InTune (e.releaseAll time) ∧ ∀ v ∈ e.visitsReleaseAll time, v.Merged := by
  obtain ⟨hforce, hdrain⟩ := List.forall_mem_append.mp huncut
  have hreleased := tunes_forceReleaseAll he hforce
  have hdrained := tunes_drainQueue hreleased.1 hdrain
  exact ⟨hdrained.1, List.forall_mem_append.mpr ⟨hreleased.2, hdrained.2⟩⟩

/-! ## §4 Installations -/

/-- Binding a mapping adds no output but its target. -/
theorem outputs_bind (e : Engine) (m : Mapping) {c : Control}
    (hc : ((e.bind m).outputs[c]?).isSome) : m.target = c ∨ (e.outputs[c]?).isSome := by
  have hinsert : ∀ cell : ButtonCell, ((e.outputs.insert m.target cell)[c]?).isSome →
      m.target = c ∨ (e.outputs[c]?).isSome := by
    intro cell hsome
    rw [Std.TreeMap.getElem?_insert] at hsome
    split at hsome
    · rename_i hsame
      exact .inl (Std.LawfulEqOrd.eq_of_compare hsame)
    · exact .inr hsome
  simp only [bind, claimSlot] at hc
  split at hc
  · split at hc <;> exact .inr hc
  · split at hc <;> exact hinsert _ hc
  · exact .inr hc

/-- The outputs of an installed configuration are targets of its mappings. -/
theorem target_of_output_install {e : Engine} {config : Config} {time : Nat} {c : Control}
    (hc : ((e.install config time).outputs[c]?).isSome) : ∃ m ∈ config.mappings, m.target = c := by
  have hbind : ∀ (mappings : List Mapping) (e : Engine),
      ((mappings.foldl bind e).outputs[c]?).isSome →
        (∃ m ∈ mappings, m.target = c) ∨ (e.outputs[c]?).isSome := by
    intro mappings
    induction mappings with
    | nil => exact fun e hc => .inr hc
    | cons m rest ih =>
      intro e hc
      rcases ih (e.bind m) hc with ⟨m', hm', htarget⟩ | hold
      · exact .inl ⟨m', List.mem_cons_of_mem _ hm', htarget⟩
      · exact (outputs_bind e m hold).imp (fun htarget => ⟨m, List.mem_cons_self, htarget⟩) id
  refine (hbind _ _ hc).resolve_right fun hstart => ?_
  -- The engine has been vacated before.
  obtain ⟨pads, queue, remainder, snapshots, events, hturn, -⟩ := reset_frame e config time
  rw [hturn] at hstart
  simp [vacate] at hstart

/-- **After an installation all variables are up**, and so are their outputs. -/
theorem inTune_install (e : Engine) (config : Config) (time : Nat) :
    InTune (e.install config time) := by
  intro c shown hshown
  obtain ⟨hvar, cell, hcell, rfl⟩ := shown?_eq_some.mp hshown
  obtain ⟨m, hm, rfl⟩ := target_of_output_install (Option.isSome_of_mem hcell)
  rw [install_descriptor] at hvar
  have hline := (Switchboard.wires_ofMappings config.vocabulary config.mappings).targets m hm hvar
  rw [← install_board e config time] at hline
  obtain ⟨line, hline⟩ := Option.isSome_iff_exists.mp hline
  have hup := isDown_install e config time m.target User.first
  unfold Switchboard.isDown Switchboard.isDown? at hup
  rw [pressed_install hcell]
  unfold Switchboard.isDown?
  rw [hline] at hup ⊢
  exact congrArg some hup

/-- An installation moves nothing. -/
theorem merged_visitsInstall (e : Engine) (config : Config) (time : Nat) :
    ∀ v ∈ e.visitsInstall config time, v.Merged := by
  have hpads : ∀ (users : List Nat) (cell : PadCell),
      ∀ v ∈ visitsPads users cell.part, v.Merged := by
    intro users cell v hv
    obtain ⟨user, -, hv⟩ := List.mem_flatMap.mp hv
    rcases List.mem_pair.mp hv with rfl | rfl
    · trivial
    · cases cell <;> trivial
  have hclaims : ∀ (cell : PadCell) (slot : Slot) (users : List User) (bank : PadBank),
      ∀ v ∈ visitsClaims cell slot bank users, v.Merged := by
    intro cell slot users
    induction users with
    | nil => exact fun _ => List.forall_mem_nil _
    | cons user rest ih => exact fun bank => List.forall_mem_cons.mpr ⟨trivial, ih _⟩
  have hbind : ∀ (e : Engine) (m : Mapping), ∀ v ∈ e.visitsBind m, v.Merged := by
    intro e m
    unfold visitsBind
    split
    · refine List.forall_mem_append.mpr ⟨hpads _ _, ?_⟩
      split
      · exact List.forall_mem_nil _
      · exact hclaims _ _ _ _
    · dsimp only
      split
      · exact List.forall_mem_nil _
      · exact List.forall_mem_singleton.mpr trivial
    · exact List.forall_mem_nil _
  refine List.forall_mem_append.mpr ⟨List.forall_mem_map.mpr fun _ _ => trivial, ?_⟩
  exact (Turn.visitsWalk_along (P := fun _ => True) (G := fun _ => True)
    (fun e m _ _ _ => ⟨trivial, hbind e m⟩) trivial fun _ _ => trivial).2

/-! ## §5 Runs -/

theorem tunes_after (he : InTune e) {call : Call}
    (hsource : ∀ c, call.source? = some c → (e.descriptor c).cell ≠ .output .var)
    (huncut : ∀ v ∈ e.visitsCall call, v.Uncut) :
    InTune (e.after call) ∧ ∀ v ∈ e.visitsCall call, v.Merged := by
  cases call with
  | input source user down strength time =>
    unfold visitsCall at huncut ⊢
    unfold after processInput
    dsimp only at huncut ⊢
    split
    · rename_i huser
      rw [dif_pos huser] at huncut
      exact tunes_accept he (hsource source rfl) huncut
    · exact ⟨he, List.forall_mem_nil _⟩
  | motion source user magnitude time =>
    unfold visitsCall at huncut ⊢
    unfold after processRelative
    dsimp only at huncut ⊢
    split
    · rename_i huser
      rw [dif_pos huser] at huncut
      split
      · rename_i hfinite
        rw [if_pos hfinite] at huncut
        exact tunes_accept he (hsource source rfl) huncut
      · exact ⟨he, List.forall_mem_nil _⟩
    · exact ⟨he, List.forall_mem_nil _⟩
  | runUntil ms =>
    have hrun := tunes_runDue (Nanoseconds.ofMillis ms) _ he huncut
    exact ⟨(SameVars.advance _ _).inTune hrun.1, hrun.2⟩
  | releaseAll time => exact tunes_releaseAll he huncut
  | reload config =>
    -- What is down is released, the configuration installed, and what has been asked is done.
    obtain ⟨hfirst, hdrain⟩ := List.forall_mem_append.mp huncut
    have hreleased := tunes_releaseAll he (List.forall_mem_append.mp hfirst).1
    have hdrained := tunes_drainQueue (inTune_install e.freed config e.lastTime) hdrain
    exact ⟨hdrained.1, List.forall_mem_append.mpr ⟨List.forall_mem_append.mpr
      ⟨hreleased.2, merged_visitsInstall _ _ _⟩, hdrained.2⟩⟩

/-- No call moves a variable, and no cascade is cut off. -/
structure Spares (e : Engine) (call : Call) : Prop where
  source (c : Control) : call.source? = some c → (e.descriptor c).cell ≠ .output .var
  uncut : ∀ v ∈ e.visitsCall call, v.Uncut

/-- The engine can come about between two operations that leave variables to the mappings and lead to
no cascade that is cut off. -/
inductive Spared (admits : Config → Prop) : Engine → Prop
  | start {config : Config} (hconfig : admits config) : Spared admits (ofConfig config)
  | call {e : Engine} {call : Call} (hcall : call.Admitted admits) (hspares : e.Spares call)
      (he : Spared admits e) : Spared admits (e.after call)
  | timer {e : Engine} {token : TimerToken} {time : Nat}
      (huncut : ∀ v ∈ e.visitsTimer token time, v.Uncut) (he : Spared admits e) :
      Spared admits (e.onTimer token time)

section

variable {admits : Config → Prop}

theorem Spared.operated (he : Spared admits e) : Operated admits e := by
  induction he with
  | start hconfig => exact .start hconfig
  | call hcall _ _ ih => exact .call hcall ih
  | timer _ _ ih => exact .timer _ _ ih

theorem Spared.inTune (he : Spared admits e) : InTune e := by
  induction he with
  | start => exact inTune_install _ _ 0
  | call _ hspares _ ih => exact (tunes_after ih hspares.source hspares.uncut).1
  | timer huncut _ ih => exact (tunes_onTimer ih huncut).1

end

/-- A variable stands in the same way for everybody who asks. -/
structure StandsAs (e : Engine) (c : Control) (shown : Bool) : Prop where
  /-- Some slot of its output presses it or none does. -/
  output : ∃ cell, e.outputs[c]? = some cell ∧ ButtonCell.pressed cell = shown
  board : e.board.isDown? c User.first = some shown
  asked (user : Nat) : e.isKeyDown c user = shown
  /-- This is what conditions see. -/
  tests (id : Nat) (b : Binding) : e.bindings[id]? = some b →
    ∀ t ∈ Condition.testsOf b.mapping.conditions, t.control = c → t.toggle = false →
      ∀ active, t.holds e.board active = (shown == t.desired)

theorem InTune.standsAs (he : InTune e) {c : Control} {shown : Bool}
    (hshown : e.shown? c = some shown)
    (hplaced : ∀ (id : Nat) (b : Binding), e.bindings[id]? = some b →
      ∀ t ∈ Condition.testsOf b.mapping.conditions, t.Placed e.vocabulary) : e.StandsAs c shown := by
  have hboard : e.board.isDown? c 0 = some shown := he c shown hshown
  obtain ⟨hvar, houtput⟩ := shown?_eq_some.mp hshown
  have hofUser : (e.descriptor c).flags.ofUser = false := by
    rw [show e.descriptor c = _ from (e.vocabulary.of_var hvar).2]
    rfl
  refine ⟨houtput, hboard, fun user => ?_, fun id b hb t ht hcontrol htoggle active => ?_⟩
  · unfold isKeyDown
    simp only [hofUser, Bool.false_eq_true, if_false, hboard]
  · have huser : t.user = .index 0 := hplaced id b hb t ht (hcontrol ▸ hofUser)
    unfold Test.holds Test.holdsFor
    simp only [huser, htoggle, hcontrol, Bool.false_eq_true, if_false, hboard]

/-- **Variables are down as they show.**  Between two operations every variable that a mapping drives
stands as the slots of its output say, for conditions, for whoever asks and on the board.  And
whenever a variable moves in an operation, it moves to what its output shows. -/
theorem standsAs_of_spared (he : Spared Config.IsCompiled e) :
    (∀ (id : Nat) (b : Binding), e.bindings[id]? = some b →
      (e.descriptor b.mapping.target).cell = .output .var →
      ∃ shown, e.StandsAs b.mapping.target shown) ∧
    (∀ call : Call, e.Spares call → ∀ v ∈ e.visitsCall call, v.Merged) ∧
    ∀ (token : TimerToken) (time : Nat), (∀ v ∈ e.visitsTimer token time, v.Uncut) →
      ∀ v ∈ e.visitsTimer token time, v.Merged := by
  have htune := he.inTune
  refine ⟨fun id b hb hvar => ?_, fun _ hspares =>
    (tunes_after htune hspares.source hspares.uncut).2, fun _ _ huncut =>
    (tunes_onTimer htune huncut).2⟩
  have hpresent := (he.operated.measured.mirrored.mirrors.keeping id b hb).present .var hvar
  obtain ⟨cell, hcell⟩ := Option.isSome_iff_exists.mp hpresent
  refine ⟨cell.pressed, htune.standsAs (shown?_eq_some.mpr ⟨hvar, cell, hcell, rfl⟩) ?_⟩
  exact fun id b hb => compiled_of_operated
    (P := fun v m => ∀ t ∈ Condition.testsOf m.conditions, t.Placed v)
    (fun hconfig _ hm => (hconfig.wellFormed hm).testsFirst) he.operated hb

/-- Two keys drive a variable, which drives a button and allows another one. -/
def sharedConfig : ConfigFile :=
  { custom := { vars := ["Held"] }
    mappings :=
      [{ source := "A", target := "Held" }, { source := "B", target := "Held" },
        { source := "Held", target := "PadA" },
        { source := "C", target := "PadB", condition := "Held" }] }

/-- A built-in control is no variable. -/
theorem spares_input {source : Control} (hbuiltin : source.isCustom = false) {user : Nat}
    {down : Bool} {strength : Float} {time : Nat}
    (huncut : ∀ v ∈ e.visitsCall (.input source user down strength time), v.Uncut) :
    e.Spares (.input source user down strength time) where
  source c hc hvar := by
    obtain rfl := Option.some.inj hc
    exact absurd ((e.vocabulary.of_var hvar).1.symm.trans hbuiltin) (by simp)
  uncut := huncut

/-- The engine while the first key is held, while both are, and while only the second one is. -/
def begun : Engine := (ofConfig sharedConfig.compile).after (.input ⟨0x41⟩ 0 true 1 0)

def shared : Engine := begun.after (.input ⟨0x42⟩ 0 true 1 1)

def parted : Engine := shared.after (.input ⟨0x41⟩ 0 false 1 2)

/-- The variable moves with the first press and with the second release. -/
theorem visits_parted :
    (ofConfig sharedConfig.compile).visitsCall (.input ⟨0x41⟩ 0 true 1 0) =
      [.source ⟨0x41⟩ 9 true none, .binding 0 4, .source ⟨0x400⟩ 8 true (some true), .binding 2 4,
        .pad 0, .part 0 15, .binding 3 4] ∧
    begun.visitsCall (.input ⟨0x42⟩ 0 true 1 1) = [.source ⟨0x42⟩ 9 true none, .binding 1 4] ∧
    shared.visitsCall (.input ⟨0x41⟩ 0 false 1 2) = [.source ⟨0x41⟩ 9 false none, .binding 0 4] ∧
    parted.visitsCall (.input ⟨0x42⟩ 0 false 1 3) =
      [.source ⟨0x42⟩ 9 false none, .binding 1 4, .source ⟨0x400⟩ 8 false (some false),
        .binding 2 4, .pad 0, .part 0 15, .binding 3 4] ∧
    parted.board.isDown? ⟨0x400⟩ User.first = some true ∧
    parted.bindings[0]?.map (fun b =>
      (b.mapping.target, (parted.descriptor b.mapping.target).cell)) =
      some (⟨0x400⟩, .output .var) := by
  decide +kernel

theorem standsAs_of_spared_parted : Spared Config.IsCompiled parted ∧
    parted.Spares (.input ⟨0x42⟩ 0 false 1 3) ∧ parted.StandsAs ⟨0x400⟩ true ∧
      ∀ v ∈ parted.visitsCall (.input ⟨0x42⟩ 0 false 1 3), v.Merged := by
  obtain ⟨hfirst, hsecond, hthird, hfourth, hdown, hbinding⟩ := visits_parted
  have hbegun : Spared Config.IsCompiled begun :=
    .call trivial (spares_input rfl (hfirst ▸ by decide)) (.start ⟨sharedConfig, rfl⟩)
  have hshared : Spared Config.IsCompiled shared :=
    .call trivial (spares_input rfl (hsecond ▸ by decide)) hbegun
  have hspared : Spared Config.IsCompiled parted :=
    .call trivial (spares_input rfl (hthird ▸ by decide)) hshared
  have hspares : parted.Spares (.input ⟨0x42⟩ 0 false 1 3) := spares_input rfl (hfourth ▸ by decide)
  obtain ⟨b, hb, htarget⟩ := Option.map_eq_some_iff.mp hbinding
  obtain ⟨htarget, hvar⟩ := Prod.mk.inj htarget
  obtain ⟨hstands, hmerged, -⟩ := standsAs_of_spared hspared
  obtain ⟨shown, hshown⟩ := hstands 0 b hb hvar
  rw [htarget] at hshown
  obtain rfl := Option.some.inj (hshown.board.symm.trans hdown)
  exact ⟨hspared, hspares, hshown, hmerged _ hspares⟩

end Engine

end VirtualPad
