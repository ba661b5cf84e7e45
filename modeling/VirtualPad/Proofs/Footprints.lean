import VirtualPad.Proofs.Commits
import VirtualPad.Proofs.Visits

/-!
# Visits leave nothing out

The visits of a run are written down beside it, so something might have been left out of them.  It
has not: a binding whose latch has changed, a control whose line has changed, an output that was
written to and a pad that is not as it was have all been come by (`Engine.Confined`).

Changes of one operation after another are confined to the visits of both, so each definition of
visits needs no more than its own parts.  `Engine.confined_after` is the result for calls, and
`Engine.confined_onTimer` the one for timers.
-/

namespace VirtualPad

namespace Engine

/-- Whatever is not as it was is among the visits. -/
structure Confined (visits : List Visit) (e e' : Engine) : Prop where
  layout : e'.layout = e.layout
  latch (id : Nat) : e'.latch id = e.latch id ∨ .binding id e.bindings.size ∈ visits
  line (c : Control) : e'.board.line? c = e.board.line? c ∨
    ∃ room down shown, .source c room down shown ∈ visits
  /-- Outputs are written to by bindings. -/
  output (c : Control) : e'.outputs[c]? = e.outputs[c]? ∨
    ∃ id, (∃ b, e.bindings[id]? = some b ∧ b.mapping.target = c) ∧
      .binding id e.bindings.size ∈ visits
  pad (user : User) : e'.pads.pad user = e.pads.pad user ∨ .pad user ∈ visits

namespace Confined

variable {visits visits' : List Visit} {e e' e'' : Engine}

theorem refl (visits : List Visit) (e : Engine) : Confined visits e e :=
  ⟨rfl, fun _ => .inl rfl, fun _ => .inl rfl, fun _ => .inl rfl, fun _ => .inl rfl⟩

theorem mono (h : Confined visits e e') (hsub : visits ⊆ visits') : Confined visits' e e' where
  layout := h.layout
  latch id := (h.latch id).imp_right fun hmem => hsub hmem
  line c := (h.line c).imp_right fun ⟨room, down, shown, hmem⟩ => ⟨room, down, shown, hsub hmem⟩
  output c := (h.output c).imp_right fun ⟨id, hb, hmem⟩ => ⟨id, hb, hsub hmem⟩
  pad user := (h.pad user).imp_right fun hmem => hsub hmem

theorem trans (h : Confined visits e e') (h' : Confined visits e' e'') : Confined visits e e'' where
  layout := h'.layout.trans h.layout
  latch id := by
    rcases h'.latch id with hsame | hmem
    · rw [hsame]
      exact h.latch id
    · exact .inr (size_congr h.layout ▸ hmem)
  line c := by
    rcases h'.line c with hsame | hmem
    · rw [hsame]
      exact h.line c
    · exact .inr hmem
  output c := by
    rcases h'.output c with hsame | ⟨id, hb, hmem⟩
    · rw [hsame]
      exact h.output c
    · exact .inr ⟨id, (exists_binding_congr h.layout (fun m => m.target = c) id).mp hb,
        size_congr h.layout ▸ hmem⟩
  pad user := by
    rcases h'.pad user with hsame | hmem
    · rw [hsame]
      exact h.pad user
    · exact .inr hmem

theorem append (h : Confined visits e e') (h' : Confined visits' e' e'') :
    Confined (visits ++ visits') e e'' :=
  (h.mono (List.subset_append_left _ _)).trans (h'.mono (List.subset_append_right _ _))

/-- Nothing that visits are about has changed. -/
theorem of_same (hlayout : e'.layout = e.layout) (hbindings : e'.bindings = e.bindings)
    (hboard : e'.board = e.board) (houtputs : e'.outputs = e.outputs) (hpads : e'.pads = e.pads) :
    Confined visits e e' := by
  refine ⟨hlayout, fun id => .inl ?_, fun c => .inl ?_, fun c => .inl ?_, fun user => .inl ?_⟩
  · unfold Engine.latch
    rw [hbindings]
  · rw [hboard]
  · rw [houtputs]
  · rw [hpads]

theorem mapLatch (e : Engine) {id : Nat} (change : Latch → Latch)
    (hid : .binding id e.bindings.size ∈ visits) : Confined visits e (e.mapLatch id change) := by
  refine ⟨layout_mapLatch e id change, fun other => ?_, fun _ => .inl rfl, fun _ => .inl rfl,
    fun _ => .inl rfl⟩
  by_cases hsame : id = other
  · exact .inr (hsame ▸ hid)
  · exact .inl ((latch_mapLatch e id change other).trans (if_neg fun h => hsame h.1))

/-- Time passes. -/
theorem pass (visits : List Visit) (e : Engine) (clock : Clock) :
    Confined visits e { e with clock } :=
  of_same rfl rfl rfl rfl rfl

/-- An event begins. -/
theorem start (visits : List Visit) (e : Engine) (lastTime : Nat) :
    Confined visits e { e with lastTime } :=
  of_same rfl rfl rfl rfl rfl

/-- What becomes of the timer of one binding is nothing to the others. -/
theorem of_untimed {id : Nat} (h : e'.untimed = e.untimed)
    (hother : ∀ other, id ≠ other → e'.latch other = e.latch other)
    (hid : .binding id e.bindings.size ∈ visits) : Confined visits e e' where
  layout := layout_of_untimed h
  latch other := by
    by_cases hsame : id = other
    · exact .inr (hsame ▸ hid)
    · exact .inl (hother other hsame)
  line c := .inl (congrArg (fun e : Engine => e.board.line? c) h :)
  output c := .inl (congrArg (fun e : Engine => e.outputs[c]?) h :)
  pad user := .inl (congrArg (fun e : Engine => e.pads.pad user) h :)

end Confined

end Engine

theorem mem_visitsPads {users : List User} {user : User} (huser : user ∈ users) (part : Visit) :
    .pad user ∈ visitsPads (users.map Fin.val) part :=
  List.mem_flatMap.mpr ⟨user, List.mem_map_of_mem huser, List.mem_cons_self⟩

namespace Turn

open Engine

/-! ## §1 The operations of a turn -/

/-- Within a turn the pads that have changed are noted as well. -/
structure Confined (visits : List Visit) (t t' : Turn) : Prop
    extends Engine.Confined visits t.engine t'.engine where
  changed (user : User) : user ∈ t'.changed → user ∈ t.changed ∨ .pad user ∈ visits

namespace Confined

variable {visits visits' : List Visit} {t t' t'' : Turn}

theorem of_engine (h : Engine.Confined visits t.engine t'.engine)
    (hchanged : t'.changed = t.changed) : Confined visits t t' :=
  ⟨h, fun _ huser => .inl (hchanged ▸ huser)⟩

theorem refl (visits : List Visit) (t : Turn) : Confined visits t t :=
  of_engine (.refl visits t.engine) rfl

/-- What the host is told and what is requested does not matter. -/
theorem quiet (hengine : t'.engine = t.engine) (hchanged : t'.changed = t.changed) :
    Confined visits t t' :=
  of_engine (hengine ▸ .refl visits t.engine) hchanged

theorem mono (h : Confined visits t t') (hsub : visits ⊆ visits') : Confined visits' t t' :=
  ⟨h.toConfined.mono hsub, fun user huser => (h.changed user huser).imp_right fun hmem => hsub hmem⟩

theorem trans (h : Confined visits t t') (h' : Confined visits t' t'') : Confined visits t t'' :=
  ⟨h.toConfined.trans h'.toConfined, fun user huser =>
    (h'.changed user huser).elim (h.changed user) .inr⟩

theorem append (h : Confined visits t t') (h' : Confined visits' t' t'') :
    Confined (visits ++ visits') t t'' :=
  (h.mono (List.subset_append_left _ _)).trans (h'.mono (List.subset_append_right _ _))

/-- Two things that the same has been come by for. -/
theorem cons_append {v : Visit} (h : Confined (v :: visits) t t')
    (h' : Confined (v :: visits') t' t'') : Confined (v :: (visits ++ visits')) t t'' :=
  (h.mono (List.cons_subset_cons v (List.subset_append_left _ _))).trans
    (h'.mono (List.cons_subset_cons v (List.subset_append_right _ _)))

theorem mapLatch (t : Turn) {id : Nat} (change : Latch → Latch)
    (hid : .binding id t.engine.bindings.size ∈ visits) : Confined visits t (t.mapLatch id change) :=
  of_engine (.mapLatch t.engine change hid) rfl

theorem updatePad (t : Turn) {user : User} (change : Pad → Pad × Bool) (huser : .pad user ∈ visits) :
    Confined visits t (t.updatePad user change) := by
  refine ⟨⟨?_, fun _ => .inl ?_, fun _ => .inl ?_, fun _ => .inl ?_, fun other => ?_⟩,
    fun other h => ?_⟩
  · rw [engine_updatePad]
    exact layout_write t.engine t.engine.outputs rfl
  · rw [engine_updatePad]
    rfl
  · rw [engine_updatePad]
  · rw [engine_updatePad]
  · rw [pad_updatePad]
    split
    · rename_i hsame
      exact .inr (hsame ▸ huser)
    · exact .inl rfl
  · rcases (mem_changed_updatePad t user change other).mp h with hbefore | ⟨rfl, -⟩
    · exact .inl hbefore
    · exact .inr huser

theorem updatePads (t : Turn) {users : List User} (change : Pad → Pad × Bool)
    (husers : ∀ user ∈ users, .pad user ∈ visits) :
    Confined visits t (t.updatePads users change) := by
  induction users generalizing t with
  | nil => exact .refl visits t
  | cons user rest ih =>
    exact (updatePad t change (husers user List.mem_cons_self)).trans
      (ih _ fun user huser => husers user (List.mem_cons_of_mem _ huser))

theorem mark (t : Turn) {c : Control} (user : User) (down : Bool)
    (hsource : ∃ room down shown, .source c room down shown ∈ visits) :
    Confined visits t (t.mark c user down) := by
  refine of_engine ⟨layout_setBoard t.engine c user down, fun _ => .inl rfl, fun other => ?_,
    fun _ => .inl rfl, fun _ => .inl rfl⟩ rfl
  by_cases hsame : c = other
  · exact .inr (hsame ▸ hsource)
  · exact .inl ((Switchboard.line?_set t.engine.board c user down other).trans (if_neg hsame))

end Confined

variable {t : Turn} {id : Nat}

theorem changed_writeOutput (t : Turn) (kind : OutputKind) (target : Control) (slot : Slot)
    (down replaces : Bool) :
    (t.writeOutput kind target slot down replaces).1.changed = t.changed := by
  unfold writeOutput
  cases t.engine.outputs[target]? with
  | none => rfl
  | some before => cases kind <;> dsimp only <;> (try split) <;> rfl

theorem changed_giveCommand (t : Turn) (id : Nat) (command : Command) (r : Response)
    (forced : Bool) : (t.giveCommand id command r forced).changed = t.changed := by
  have hrequests : ∀ (users : List User) (make : User → Request) (t : Turn),
      (users.foldl (fun t user => t.request (make user)) t).changed = t.changed := by
    intro users make
    induction users with
    | nil => exact fun t => rfl
    | cons user rest ih => exact fun t => ih (t.request (make user))
  unfold giveCommand
  cases t.engine.bindings[id]? with
  | none => rfl
  | some b =>
    dsimp only
    rw [apply_ite Turn.changed, hrequests]
    exact ite_self _

theorem mem_visitsWrite {b : Binding} (hb : t.engine.bindings[id]? = some b) {target : Descriptor}
    {cell : PadCell} (hcell : target.cell = .pad cell) {slot : Slot} (hslot : b.slot = some slot)
    {user : User} (huser : user ∈ b.latch.applied) : .pad user ∈ t.visitsWrite id target := by
  unfold visitsWrite
  rw [hb]
  dsimp only
  rw [hcell, hslot]
  exact mem_visitsPads huser _

/-- Writing to a target writes to the pads of the users whom the binding is applied to, or to its
output. -/
theorem confined_writeTarget (t : Turn) (id : Nat) (source target : Descriptor) (down : Bool)
    (strength : Float) : Confined (.binding id t.engine.bindings.size :: t.visitsWrite id target) t
      (t.writeTarget id source target down strength).1 := by
  unfold writeTarget
  cases hb : t.engine.bindings[id]? with
  | none => exact .refl _ t
  | some b =>
    dsimp only
    split
    · split <;> exact .quiet rfl rfl
    · split <;> exact .quiet rfl rfl
    · rename_i cell slot hcell hslot
      exact .updatePads t _ fun user huser =>
        List.mem_cons_of_mem _ (mem_visitsWrite hb hcell hslot huser)
    · refine .of_engine ?_ (changed_writeOutput _ _ _ _ _ _)
      rw [engine_writeOutput]
      split
      · exact .refl _ _
      · refine ⟨layout_write _ _ rfl, fun _ => .inl rfl, fun _ => .inl rfl, fun c => ?_,
          fun _ => .inl rfl⟩
        by_cases hsame : b.mapping.target = c
        · exact .inr ⟨id, ⟨b, hb, hsame⟩, List.mem_cons_self⟩
        · refine .inl ?_
          show (t.engine.outputs.insert b.mapping.target _)[c]? = _
          rw [Std.TreeMap.getElem?_insert, if_neg fun h => hsame (Std.LawfulEqOrd.eq_of_compare h)]
    · exact .quiet rfl rfl

theorem confined_rise (t : Turn) (id : Nat) (m : Mapping) (target : Descriptor) (user : User) :
    Confined (.binding id t.engine.bindings.size :: t.visitsRise m target) t
      (t.rise id m target user) := by
  have hpads : ∀ cell, target.padCell? = some cell → m.options.reset = true →
      ∀ user ∈ t.engine.targetUsers m.targetUser, .pad user ∈ t.visitsRise m target := by
    intro cell hcell hreset user huser
    unfold visitsRise
    rw [hcell]
    dsimp only
    rw [if_pos hreset]
    exact mem_visitsPads huser _
  generalize t.visitsRise m target = clears at hpads ⊢
  refine (Confined.mapLatch t (fun l =>
    { l with sourceUser := user, applied := t.engine.targetUsers m.targetUser })
      List.mem_cons_self).trans ?_
  unfold rise
  dsimp only
  split
  · rename_i cell hcell
    split
    · rename_i hreset
      exact .updatePads _ _ fun user huser =>
        List.mem_cons_of_mem _ (hpads cell hcell hreset user huser)
    · exact .refl _ _
  · exact .refl _ _

/-- What is written to goes by the users and the slot of the binding. -/
theorem visitsWrite_mapLatch (t : Turn) (id : Nat) (change : Latch → Latch) (target : Descriptor)
    (happlied : ∀ l, (change l).applied = l.applied) :
    (t.mapLatch id change).visitsWrite id target = t.visitsWrite id target := by
  unfold visitsWrite
  rw [engine_mapLatch, getElem?_mapLatch, if_pos rfl]
  cases t.engine.bindings[id]? with
  | none => rfl
  | some b =>
    dsimp only [Option.map_some]
    rw [happlied]

theorem confined_perform (t : Turn) (id : Nat) (m : Mapping) (source target : Descriptor)
    (user : User) (r : Response) (forced : Bool) :
    Confined (.binding id t.engine.bindings.size :: t.visitsPerform id m target user r) t
      (t.perform id m source target user r forced).1 := by
  have hrisen : Confined (.binding id t.engine.bindings.size ::
      if r.now && !r.was then t.visitsRise m target else []) t
        (if r.now && !r.was then t.rise id m target user else t) := by
    split
    · exact confined_rise t id m target user
    · exact .refl _ t
  unfold perform visitsPerform
  dsimp only
  generalize (if r.now && !r.was then t.visitsRise m target else []) = clears at hrisen ⊢
  generalize (if r.now && !r.was then t.rise id m target user else t) = risen at hrisen ⊢
  refine hrisen.cons_append ?_
  rw [← size_congr hrisen.layout]
  -- The strength goes into the latch first, which does not change where it is written to.
  have hkept : Confined [.binding id risen.engine.bindings.size] risen
        (if r.now then risen.mapLatch id fun l => { l with strength := r.strength } else risen) ∧
      (if r.now then risen.mapLatch id fun l => { l with strength := r.strength }
        else risen).visitsWrite id target = risen.visitsWrite id target := by
    split
    · exact ⟨.mapLatch risen _ (List.mem_singleton_self _),
        visitsWrite_mapLatch risen id _ target fun _ => rfl⟩
    · exact ⟨.refl _ risen, rfl⟩
  generalize (if r.now then risen.mapLatch id fun l => { l with strength := r.strength }
    else risen) = kept at hkept ⊢
  have hwritten : ∀ down, Confined (.binding id risen.engine.bindings.size ::
      if r.emits then risen.visitsWrite id target else []) risen
        (if r.emits then kept.writeTarget id source target down r.strength else (risen, none)).1 := by
    intro down
    split
    · have hwrite := confined_writeTarget kept id source target down r.strength
      rw [hkept.2, size_congr hkept.1.layout] at hwrite
      exact (hkept.1.mono (List.cons_subset_cons _ (List.nil_subset _))).trans hwrite
    · exact .refl _ risen
  cases hcell : target.cell with
  | command command => exact .quiet (engine_giveCommand _ _ _ _ _) (changed_giveCommand _ _ _ _ _)
  | _ => exact hwritten _

theorem confined_firstStep (t : Turn) (id : Nat) (b : Binding) (pulse : Pulse) (forced : Bool)
    (latch : Latch) (response : Option Response) :
    Confined (.binding id t.engine.bindings.size :: t.visitsFirst id b pulse latch response) t
      (t.firstStep id b pulse forced latch response) := by
  have hlatch : ∀ visits, Confined (.binding id t.engine.bindings.size :: visits) t
      (t.mapLatch id fun _ => latch) := fun _ => .mapLatch t _ List.mem_cons_self
  cases response with
  | none => exact hlatch _
  | some r =>
    have hperform := confined_perform (t.mapLatch id fun _ => latch) id b.mapping (t.sourceOf b)
      (t.targetOf b) pulse.user r forced
    rw [engine_mapLatch, size_mapLatch] at hperform
    exact (hlatch _).trans hperform

theorem confined_settle (t : Turn) (id : Nat) (m : Mapping) (source target : Descriptor)
    (r : Response) :
    Confined [.binding id t.engine.bindings.size] t (t.settle id m source target r) := by
  have hplan : Confined [.binding id t.engine.bindings.size] t (t.mapEngine fun e =>
      e.followPlan id (m.timerPlan source target t.engine.settings r.was r.now)) :=
    .of_engine (.of_untimed (untimed_followPlan _ id _)
      (fun _ hother => latch_followPlan_of_ne _ hother _) (List.mem_singleton_self _)) rfl
  unfold settle
  dsimp only
  split
  · exact hplan
  · refine hplan.trans (.mapLatch _ _ ?_)
    rw [size_congr hplan.layout]
    exact List.mem_singleton_self _

/-! ## §2 Cascades -/

/-- What hears of a pulse changes nothing but what it comes by. -/
def Confines (onVar : Listener) (scout : Scout) : Prop :=
  ∀ (t : Turn) (c : Control) (pulse : Pulse), Confined (scout t c pulse) t (onVar t c pulse).1

theorem confined_walk {α : Type} {run : Turn → α → Turn} {visits : Turn → α → List Visit}
    (hitem : ∀ t item, Confined (visits t item) t (run t item)) (t : Turn) (items : List α) :
    Confined (visitsWalk run visits t items) t (items.foldl run t) := by
  induction items generalizing t with
  | nil => exact .refl _ t
  | cons item rest ih => exact (hitem t item).append (ih _)

section

variable {onVar : Listener} {scout : Scout} (hvar : Confines onVar scout)

include hvar

theorem confined_relay (target : Control) (t : Turn) (echo : Option Pulse) :
    Confined (visitsEcho scout target t echo) t (relay onVar target t echo) := by
  cases echo with
  | none => exact .refl _ t
  | some pulse => exact hvar t target pulse

theorem confined_runBinding (t : Turn) (id : Nat) (pulse : Pulse) (forced : Bool) :
    Confined (t.visitsBinding scout id pulse forced) t (t.runBinding onVar id pulse forced).1 := by
  have hrelayed : ∀ b latch response, t.engine.bindings[id]? = some b → t.Reaches b pulse forced →
      b.latch.respond b.mapping (t.sourceOf b) (t.targetOf b) pulse.down pulse.strength forced =
        (latch, response) →
      Confined (t.visitsBinding scout id pulse forced) t
        (relay onVar b.mapping.target (t.firstStep id b pulse forced latch response)
          (t.firstEcho id b pulse forced latch response)) := by
    intro b latch response hb hreaches hrespond
    rw [visitsBinding_of_reaches scout hb hreaches hrespond]
    exact (confined_firstStep t id b pulse forced latch response).append
      (confined_relay hvar b.mapping.target _ _)
  refine runBinding_cases (P := Confined (t.visitsBinding scout id pulse forced) t)
    (fun _ => .refl _ t)
    (fun b latch hb hreaches hrespond => hrelayed b latch none hb hreaches hrespond)
    fun b latch r hb hreaches hrespond => ?_
  -- What is left to do afterwards concerns the binding itself, which was looked up first of all.
  have hrelay := hrelayed b latch (some r) hb hreaches hrespond
  refine hrelay.trans ((confined_settle _ id _ _ _ r).mono ?_)
  rw [size_congr hrelay.layout]
  exact List.cons_subset.mpr ⟨List.mem_cons_self, List.nil_subset _⟩

theorem confined_review (t : Turn) (id : Nat) :
    Confined (t.visitsReview scout id) t (t.review onVar id) := by
  unfold visitsReview review
  cases t.engine.bindings[id]? with
  | none => exact .refl _ t
  | some b =>
    dsimp only
    split
    · exact (confined_runBinding hvar t id _ true).mono (List.subset_cons_self _ _)
    · exact .refl _ t

theorem confined_followPair (pulse : Pulse) (t : Turn) (pair : Control) :
    Confined (visitsPair scout pulse t pair) t (followPair onVar pulse t pair).1 := by
  unfold visitsPair followPair
  cases t.pairState? pair pulse.user with
  | none => exact .refl _ t
  | some down =>
    dsimp only
    split
    · exact hvar t pair _
    · exact .refl _ t

end

/-- **Whatever a cascade changes it has come by**, however far it goes. -/
theorem confined_feed (room : Nat) : Confines (feed room) (visitsFeed room) := by
  induction room with
  | zero => exact fun t c pulse => .refl _ t
  | succ room ih =>
    intro t c pulse
    cases hline : t.engine.board.line? c with
    | none =>
      rw [feed_none _ t c pulse hline]
      exact .refl _ t
    | some line =>
      rw [visitsFeed_succ room t c pulse hline, feed_eq room t c pulse hline]
      dsimp only
      have hdown : (t.own c pulse).down = pulse.down := rfl
      rw [← hdown]
      generalize t.own c pulse = own
      have hchain := confined_walk (fun t id => confined_runBinding ih t id own false)
        (t.mark c own.user own.down) line.chain
      rw [← fst_runChain room t c line own] at hchain
      have hpairs := confined_walk (fun t pair => confined_followPair ih own t pair)
        (runChain room t c line own).1 line.pairs
      rw [← fst_runPairs room t c line own] at hpairs
      -- The control itself is heard first, and it is the only one that is marked here.
      have hmarked : Confined [t.hearing c (room + 1) pulse] t (t.mark c own.user own.down) :=
        .mark t _ _ ⟨_, _, _, List.mem_singleton_self _⟩
      refine hmarked.append ((hchain.append hpairs).append ?_)
      split
      · exact confined_walk (fun t id => confined_review ih t id) _ line.watchers
      · exact .refl _ _

/-! ## §3 Timers and forced releases -/

theorem confined_blink (t : Turn) (id : Nat) (source target : Descriptor) :
    Confined (.binding id t.engine.bindings.size ::
      if target.isCommand then [] else t.visitsWrite id target) t (t.blink id source target).1 := by
  have hlatch : ∀ visits, Confined (.binding id t.engine.bindings.size :: visits) t
      (t.mapLatch id fun l => { l with lit := !l.lit }) := fun _ => .mapLatch t _ List.mem_cons_self
  unfold blink
  dsimp only
  split
  · exact hlatch _
  · refine (hlatch _).trans ?_
    have hsame := visitsWrite_mapLatch t id (fun l => { l with lit := !l.lit }) target fun _ => rfl
    rw [← hsame, ← size_mapLatch t.engine id fun l => { l with lit := !l.lit }]
    exact confined_writeTarget (t.mapLatch id fun l => { l with lit := !l.lit }) id source target _ _

theorem confined_goOn {b : Binding} (hb : t.engine.bindings[id]? = some b) (target : Descriptor) :
    Confined (if b.mapping.options.add then t.visitsWrite id target else []) t
      (t.goOn id target) := by
  have hpads : b.mapping.options.add = true → ∀ cell slot, target.cell = .pad cell →
      b.slot = some slot → ∀ user ∈ b.latch.applied,
        .pad user ∈ if b.mapping.options.add then t.visitsWrite id target else [] := by
    intro hadd cell slot hcell hslot user huser
    rw [if_pos hadd]
    exact mem_visitsWrite hb hcell hslot huser
  generalize (if b.mapping.options.add then t.visitsWrite id target else []) = writes at hpads ⊢
  unfold goOn
  rw [hb]
  dsimp only
  split
  · exact .quiet rfl rfl
  · exact .quiet rfl rfl
  · rename_i cell slot hcell hslot
    split
    · rename_i hadd
      exact .updatePads t _ (hpads hadd cell slot hcell hslot)
    · exact .refl _ t
  · exact .refl _ t

theorem confined_turnStick {b : Binding} (hb : t.engine.bindings[id]? = some b)
    (target : Descriptor) : Confined (match target.cell with
      | .rotator stick _ =>
        visitsPads (b.latch.applied.map Fin.val) (PadCell.stickModifier stick).part
      | _ => []) t (t.turnStick id target) := by
  unfold turnStick
  rw [hb]
  cases target.cell with
  | rotator stick clockwise => exact .updatePads t _ fun user huser => mem_visitsPads huser _
  | _ => exact .refl _ t

theorem confined_repeatKey (visits : List Visit) (t : Turn) (id : Nat) (target : Descriptor) :
    Confined visits t (t.repeatKey id target) := by
  refine .quiet (engine_repeatKey t id target) ?_
  unfold repeatKey
  split
  · rfl
  · dsimp only
    rw [apply_ite Turn.changed]
    exact ite_self _

/-- **A timer that goes off** changes nothing but what it comes by. -/
theorem confined_tick (t : Turn) (use : TimerUse) : Confined (t.visitsTick use) t (t.tick use) := by
  have hlapse : ∀ visits, Confined (.binding use.binding t.engine.bindings.size :: visits) t
      (t.mapEngine fun e => e.lapse use) := fun _ =>
    .of_engine (.of_untimed (untimed_lapse _ use) (fun _ hother => latch_lapse_of_ne _ hother)
      List.mem_cons_self) rfl
  -- Most timers simply go on.
  have hgoesOn : use.kind = .turbo ∨ use.kind = .repeating ∨ use.kind = .rotate →
      (t.mapEngine fun e => e.lapse use) = t := by
    rintro (hkind | hkind | hkind)
    all_goals
      unfold mapEngine Engine.lapse
      rw [hkind]
  unfold visitsTick tick
  dsimp only
  cases hb : t.engine.bindings[use.binding]? with
  | none => exact .refl _ t
  | some b =>
    dsimp only
    cases hkind : use.kind with
    | turbo =>
      rw [hgoesOn (.inl hkind)]
      exact (confined_blink t use.binding (t.sourceOf b) (t.targetOf b)).append
        (confined_relay (confined_feed cascadeRoom) b.mapping.target _ _)
    | release =>
      exact (hlapse _).trans ((confined_runBinding (confined_feed cascadeRoom) _ use.binding _
        false).mono (List.subset_cons_self _ _))
    | repeating =>
      rw [hgoesOn (.inr (.inl hkind))]
      exact (confined_goOn hb (t.targetOf b)).mono (List.subset_cons_self _ _)
    | rotate =>
      rw [hgoesOn (.inr (.inr hkind))]
      exact (confined_turnStick hb (t.targetOf b)).mono (List.subset_cons_self _ _)
    | keyRepeatDelay | keyRepeat => exact (hlapse _).trans (confined_repeatKey _ _ _ _)

/-- Committing pads changes no others. -/
theorem pad_commit (t : Turn) {user : User} (huser : user ∉ t.changed) :
    t.commit.pads.pad user = t.engine.pads.pad user := by
  have hpads : t.commit.pads = (t.changed.foldl (commitPad t.time) t.engine).pads := by
    unfold commit
    dsimp only
    split <;> rfl
  rw [hpads]
  generalize t.changed = users at huser ⊢
  generalize t.engine = e
  induction users generalizing e with
  | nil => rfl
  | cons first rest ih =>
    obtain ⟨hfirst, hrest⟩ := not_or.mp (mt List.mem_cons.mpr huser)
    have hplace : first.val ≠ user.val := fun h => hfirst (Fin.ext h.symm)
    refine (ih hrest _).trans ?_
    simp [commitPad, PadBank.pad, PadBank.set, hplace]

/-- **A turn that ends** has changed nothing but what it has come by. -/
theorem Confined.commit {visits : List Visit} {e : Engine} {time : Nat} {t : Turn}
    (h : Confined visits { engine := e, time } t) : Engine.Confined visits e t.commit := by
  obtain ⟨pads, queue, remainder, snapshots, events, hcommit, hcount⟩ := t.commit_frame
  refine h.toConfined.trans ?_
  refine ⟨?_, fun _ => .inl ?_, fun _ => .inl ?_, fun _ => .inl ?_, fun user => ?_⟩
  · rw [hcommit]
    exact layout_write t.engine t.engine.outputs hcount
  · rw [hcommit]
    rfl
  · rw [hcommit]
  · rw [hcommit]
  · by_cases huser : user ∈ t.changed
    · exact .inr ((h.changed user huser).resolve_left List.not_mem_nil)
    · exact .inl (pad_commit t huser)

end Turn

namespace Engine

variable {e : Engine}

theorem confined_forceRelease (t : Turn) (id : Nat) :
    Turn.Confined (visitsForceRelease t id) t (forceRelease t id) := by
  have hstop : ∀ {t' : Turn} {visits : List Visit},
      .binding id t'.engine.bindings.size ∈ visits →
        Turn.Confined visits t' (t'.mapEngine fun e => e.stopTimer id) := fun hid =>
    .of_engine (.of_untimed (untimed_stopTimer _ id) (fun _ hother => latch_stopTimer_of_ne _ hother)
      hid) rfl
  unfold visitsForceRelease forceRelease
  dsimp only
  split
  · have hreleased := (Turn.confined_runBinding (Turn.confined_feed cascadeRoom) t id
      { user := (t.engine.latch id).sourceUser, down := false, strength := 0 } true).mono
        (List.subset_cons_self (.binding id t.engine.bindings.size) _)
    refine hreleased.trans (hstop ?_)
    rw [← size_congr hreleased.layout]
    exact List.mem_cons_self
  · exact hstop List.mem_cons_self

theorem confined_forceReleaseAll (e : Engine) (time : Nat) :
    Confined (e.visitsForceReleaseAll time) e (e.forceReleaseAll time) := by
  have hreleased := Turn.confined_walk confined_forceRelease { engine := e, time }
    (List.range e.bindings.size)
  -- No release changes how many pads are in use.
  have husers := congrArg Layout.users hreleased.layout
  refine (hreleased.append (.updatePads _ _ fun user huser => ?_)).commit
  have hbelow : user.val < e.userCount :=
    (of_decide_eq_true (List.mem_filter.mp huser).2).trans_eq husers
  exact List.mem_map_of_mem (List.mem_range.mpr hbelow)

theorem confined_setActiveUser (visits : List Visit) (e : Engine) (user : User) :
    Confined visits e (e.setActiveUser user) := by
  unfold setActiveUser
  split
  · exact .of_same rfl rfl rfl rfl rfl
  · exact .refl _ e

theorem confined_obey (e : Engine) (r : Request) (time : Nat) :
    Confined (e.visitsObey r time) e (e.obey r time) := by
  have hremember : ∀ user, Confined [.binding r.mapping e.bindings.size] e
      (e.mapLatch r.mapping fun l => { l with restoreUser := user }) :=
    fun _ => .mapLatch e _ (List.mem_singleton_self _)
  unfold visitsObey obey
  cases r.command with
  | toggleDisable =>
    dsimp only
    split
    · exact .of_same rfl rfl rfl rfl rfl
    · exact ((confined_forceReleaseAll e time).mono (List.subset_cons_self _ _)).trans
        (.of_same rfl rfl rfl rfl rfl)
  | setActiveUser => exact confined_setActiveUser _ e r.user
  | holdActiveUser =>
    dsimp only
    split
    · exact .refl _ e
    · split
      · exact (hremember _).trans (confined_setActiveUser _ _ _)
      · split
        · exact .refl _ e
        · exact (hremember _).trans (confined_setActiveUser _ _ _)
  | toggleConnected =>
    dsimp only
    split
    · exact (Turn.Confined.updatePad _ _
        (List.mem_cons_of_mem _ (List.mem_singleton_self _))).commit
    · exact .refl _ e
  | reload | loadConfig => exact .of_same rfl rfl rfl rfl rfl

theorem confined_obeyAll (time bound : Nat) (e : Engine) :
    Confined (visitsObeyAll time bound e) e (obeyAll time bound e) := by
  induction bound generalizing e with
  | zero => exact .refl _ e
  | succ bound ih =>
    unfold visitsObeyAll obeyAll
    cases e.queue with
    | nil => exact .refl _ e
    | cons r rest =>
      have htaken : Confined (({ e with queue := rest } : Engine).visitsObey r time) e
          { e with queue := rest } := .of_same rfl rfl rfl rfl rfl
      exact (htaken.trans (confined_obey _ r time)).append (ih _)

theorem confined_drainQueue (e : Engine) (time : Nat) :
    Confined (e.visitsDrain time) e (e.drainQueue time) :=
  confined_obeyAll time _ e

/-! ## §4 Calls -/

theorem confined_accept (e : Engine) (source : Control) (pulse : Pulse) (time : Nat) :
    Confined (e.visitsAccept source pulse time) e (e.accept source pulse time).1 := by
  have hfed := (Turn.confined_feed (cascadeRoom + 1) { engine := { e with lastTime := time }, time }
    source pulse).commit
  exact (Confined.start _ e time).trans (hfed.append (confined_drainQueue _ time))

/-- **A timer that goes off** in a turn of its own changes nothing but what it comes by. -/
theorem confined_onTimer (e : Engine) (token : TimerToken) (time : Nat) :
    Confined (e.visitsTimer token time) e (e.onTimer token time) := by
  unfold visitsTimer onTimer
  cases e.timerUse? token with
  | none => exact .refl _ e
  | some use =>
    have hticked := (Turn.confined_tick { engine := { e with lastTime := time }, time } use).commit
    exact (Confined.start _ e time).trans (hticked.append (confined_drainQueue _ time))

theorem confined_runDue (limit : Nanoseconds) (bound : Nat) (e : Engine) :
    Confined (visitsDue limit bound e) e (runDue limit bound e) := by
  induction bound generalizing e with
  | zero => exact .refl _ e
  | succ bound ih =>
    unfold visitsDue runDue
    cases e.clock.nextDue? limit with
    | none => exact .refl _ e
    | some next =>
      obtain ⟨token, due, clock⟩ := next
      exact (Confined.pass _ e clock).trans
        ((confined_onTimer { e with clock } token _).append (ih _))

theorem confined_releaseAll (e : Engine) (time : Nat) :
    Confined (e.visitsReleaseAll time) e (e.releaseAll time) :=
  (confined_forceReleaseAll e time).append (confined_drainQueue _ time)

/-- **A call** that installs nothing changes nothing but what it comes by. -/
theorem confined_after (e : Engine) {call : Call} (hcall : ∀ config, call ≠ .reload config) :
    Confined (e.visitsCall call) e (e.after call) := by
  cases call with
  | input source user down strength time =>
    unfold visitsCall after processInput
    dsimp only
    split
    · exact confined_accept e source _ time
    · exact .refl _ e
  | motion source user magnitude time =>
    unfold visitsCall after processRelative
    dsimp only
    split
    · split
      · exact confined_accept e source _ time
      · exact .refl _ e
    · exact .refl _ e
  | runUntil ms =>
    have hrun := confined_runDue (Nanoseconds.ofMillis ms) (e.tickBound (Nanoseconds.ofMillis ms)) e
    exact hrun.trans (.pass _ _ _)
  | releaseAll time => exact confined_releaseAll e time
  | reload config => exact absurd rfl (hcall config)

end Engine

end VirtualPad
