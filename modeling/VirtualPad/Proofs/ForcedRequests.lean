import VirtualPad.Proofs.Requests

/-!
# What forced releases request

A forced release ends a hold of the active user and gives no other command.  But it is forced on one
binding only: a variable that this lets go of moves as a source does, so what listens to the variable
is released in the ordinary way, and gives its commands.  That takes a command mapping that is still
in effect by then, which is one declared after the mapping that drives the variable.
-/

namespace VirtualPad

namespace Engine

/-! ## §1 What is dragged along -/

/-- When the control goes up, the binding hears of it as of any release: from the control itself, or
from a variable that a latched binding lets go of because of it. -/
inductive Pulls (e : Engine) : Control → Nat → Prop
  | chain {c : Control} {id : Nat} (h : e.board.Lists Line.chain c id) : Pulls e c id
  | through {c : Control} {via id : Nat} {b : Binding}
      (hvia : e.board.Lists Line.chain c via ∨ e.board.Lists Line.watchers c via)
      (hb : e.bindings[via]? = some b) (hlatched : b.latch.isLatched = true)
      (hvar : (e.descriptor b.mapping.target).cell = .output .var)
      (hrest : Pulls e b.mapping.target id) : Pulls e c id

/-- Releasing the first binding lets go of a variable that pulls the second one. -/
def Drags (e : Engine) (first id : Nat) : Prop :=
  ∃ b, e.bindings[first]? = some b ∧ b.latch.isLatched = true ∧
    (e.descriptor b.mapping.target).cell = .output .var ∧ e.Pulls b.mapping.target id

/-- The binding is dragged along by one that was declared before it. -/
def Dragged (e : Engine) (id : Nat) : Prop := ∃ first, first < id ∧ e.Drags first id

/-- A binding in effect may make this request when it ends. -/
def Owes (e : Engine) (r : Request) : Prop :=
  r.pressed = false ∧ ∃ b, e.bindings[r.mapping]? = some b ∧
    (e.descriptor b.mapping.target).cell = .command r.command ∧ b.latch.active = true

end Engine

namespace Turn

variable {t t' t'' : Turn} {Q Q' : Nat → Prop}

/-- What is latched after a fall was latched before it. -/
theorem Falls.isLatched (h : Falls t t') {id : Nat} {b b' : Binding}
    (hb : t.engine.bindings[id]? = some b) (hb' : t'.engine.bindings[id]? = some b')
    (hlatched : b'.latch.isLatched = true) : b.latch.isLatched = true := by
  have hfalls := h.latch id
  rw [Engine.latch_of_getElem? hb, Engine.latch_of_getElem? hb'] at hfalls
  by_contra hfree
  have hidle := hfalls.idle (Latch.idle_of_not_latched hfree)
  simp [Latch.isLatched, hidle.active, hidle.rawDown, hidle.timer] at hlatched

theorem Falls.queue (h : Falls t t') : t'.engine.queue = t.engine.queue := h.steps.queue

theorem Falls.pulls (h : Falls t t') {c : Control} {id : Nat} (hpulls : t'.engine.Pulls c id) :
    t.engine.Pulls c id := by
  have hlayout := h.steps.layout
  have hchain := Engine.lists_congr Wiring.chain (fun _ => rfl) hlayout
  have hwatchers := Engine.lists_congr Wiring.watchers (fun _ => rfl) hlayout
  induction hpulls with
  | chain hlists => exact .chain ((hchain _ _).mp hlists)
  | @through c via id b' hvia hb' hlatched hvar hrest ih =>
    obtain ⟨b, hb, hmapping, -⟩ := Engine.binding_congr hlayout.symm hb'
    rw [← hmapping, Engine.descriptor_congr hlayout] at hvar
    rw [← hmapping] at ih
    exact .through (hvia.imp (hchain _ _).mp (hwatchers _ _).mp) hb (h.isLatched hb hb' hlatched)
      hvar ih

theorem Falls.drags (h : Falls t t') {first id : Nat} (hdrags : t'.engine.Drags first id) :
    t.engine.Drags first id := by
  have hlayout := h.steps.layout
  obtain ⟨b', hb', hlatched, hvar, hpulls⟩ := hdrags
  obtain ⟨b, hb, hmapping, -⟩ := Engine.binding_congr hlayout.symm hb'
  rw [← hmapping, Engine.descriptor_congr hlayout] at hvar
  exact ⟨b, hb, h.isLatched hb hb' hlatched, hvar, hmapping ▸ h.pulls hpulls⟩

theorem Falls.owes (h : Falls t t') {r : Request} (howes : t'.engine.Owes r) : t.engine.Owes r := by
  have hlayout := h.steps.layout
  obtain ⟨hpressed, b', hb', hcell, hactive⟩ := howes
  obtain ⟨b, hb, hmapping, -⟩ := Engine.binding_congr hlayout.symm hb'
  rw [← hmapping, Engine.descriptor_congr hlayout] at hcell
  refine ⟨hpressed, b, hb, hcell, ?_⟩
  have hfalls := h.latch r.mapping
  rw [Engine.latch_of_getElem? hb, Engine.latch_of_getElem? hb'] at hfalls
  by_contra hup
  rw [hfalls.active (by simpa using hup)] at hactive
  contradiction

/-! ## §2 What falls request -/

/-- Falls that request ends of holds only, and commands of the bindings in the set. -/
structure Yields (Q : Nat → Prop) (t t' : Turn) : Prop where
  falls : Falls t t'
  requests : ∃ made, t'.requests = t.requests ++ made ∧
    ∀ r ∈ made, t.engine.Owes r ∧ (r.command = .holdActiveUser ∨ Q r.mapping)

namespace Yields

theorem refl (t : Turn) : Yields Q t t := ⟨.refl, [], by simp⟩

/-- Falls that request nothing. -/
theorem silent (h : Falls t t') (hsame : t'.requests = t.requests) : Yields Q t t' :=
  ⟨h, [], by simp [hsame]⟩

theorem mono (h : Yields Q t t') (hsub : ∀ id, Q id → Q' id) : Yields Q' t t' := by
  obtain ⟨made, hmade, hall⟩ := h.requests
  exact ⟨h.falls, made, hmade, fun r hr => ⟨(hall r hr).1, (hall r hr).2.imp_right (hsub _)⟩⟩

/-- What was owed later was owed before. -/
theorem trans (h : Yields Q t t') (h' : Yields Q t' t'') : Yields Q t t'' := by
  obtain ⟨made, hmade, hall⟩ := h.requests
  obtain ⟨made', hmade', hall'⟩ := h'.requests
  refine ⟨h.falls.trans h'.falls, made ++ made', ?_, fun r hr => ?_⟩
  · rw [hmade', hmade, List.append_assoc]
  · rcases List.mem_append.mp hr with hfirst | hlater
    · exact hall r hfirst
    · exact ⟨h.falls.owes (hall' r hlater).1, (hall' r hlater).2⟩

theorem foldl {α : Type} (h : Yields Q t t') (run : Turn → α → Turn) (items : List α)
    (hrun : ∀ t', Falls t t' → ∀ item ∈ items, Yields Q t' (run t' item)) :
    Yields Q t (items.foldl run t') :=
  List.foldlRecOn (motive := Yields Q t) items run h fun _ hsofar item hitem =>
    hsofar.trans (hrun _ hsofar.falls item hitem)

end Yields

/-- A binding that ends gives its own command, and if it is forced to, only that to end a hold. -/
theorem requests_firstStep_up (t : Turn) (id : Nat) (b : Binding) (pulse : Pulse) (forced : Bool)
    (latch : Latch) {r : Response} (hnow : r.now = false) :
    ∃ made, (t.firstStep id b pulse forced latch (some r)).requests = t.requests ++ made ∧
      ∀ q ∈ made, q.pressed = false ∧ q.mapping = id ∧
        (t.targetOf b).cell = .command q.command ∧ r.was = true ∧
        (forced = true → q.command = .holdActiveUser) := by
  unfold firstStep perform
  simp only [hnow, Bool.false_and, Bool.false_eq_true, if_false]
  split
  · rename_i command hcell
    obtain ⟨made, hmade, hall⟩ := giveCommand_spec (t.mapLatch id fun _ => latch) id command r forced
    refine ⟨made, congrArg requests hmade, fun q hq => ?_⟩
    obtain ⟨rfl, hmapping, hpressed, hends⟩ := hall q hq
    rw [hnow] at hpressed
    rcases hends with ⟨hwas, -, hhold⟩ | ⟨-, hrises, -⟩
    · exact ⟨hpressed, hmapping, hcell, hwas, hhold⟩
    · rw [hnow] at hrises
      contradiction
  · refine ⟨[], ?_, by simp⟩
    split
    · rw [requests_writeTarget]
      exact (List.append_nil _).symm
    · exact (List.append_nil _).symm

theorem yields_firstStep {id : Nat} {b : Binding} {pulse : Pulse} {forced : Bool} {latch : Latch}
    {response : Option Response} (hb : t.engine.bindings[id]? = some b)
    (hfall : Fall t (t.firstStep id b pulse forced latch response))
    (hrespond : b.latch.respond b.mapping (t.sourceOf b) (t.targetOf b) pulse.down pulse.strength
      forced = (latch, response)) (hend : ∀ r, response = some r → r.now = false) :
    Yields (fun i => forced = false ∧ i = id) t (t.firstStep id b pulse forced latch response) := by
  cases response with
  | none => exact .silent (.single hfall) rfl
  | some r =>
    obtain ⟨made, hmade, hall⟩ := requests_firstStep_up t id b pulse forced latch (hend r rfl)
    refine ⟨.single hfall, made, hmade, fun q hq => ?_⟩
    obtain ⟨hpressed, hmapping, hcell, hwas, hhold⟩ := hall q hq
    refine ⟨⟨hpressed, b, hmapping ▸ hb, hcell, ?_⟩, ?_⟩
    · exact (Latch.respond_some hrespond).1.symm.trans hwas
    · cases forced with
      | true => exact .inl (hhold rfl)
      | false => exact .inr ⟨rfl, hmapping⟩

/-- A listener requests what the control pulls, when a control without pairs goes up. -/
def YieldsPulled (onVar : Listener) : Prop :=
  ∀ t c pulse, pulse.down = false → (∀ pair, ¬ t.engine.board.Lists Line.pairs c pair) →
    Engine.ActiveWithin (fun _ => True) t.engine → Yields (t.engine.Pulls c) t (onVar t c pulse).1

/-- **A latched binding that hears of a release** gives its own command, unless it is forced to, and
what it drags along gives its commands. -/
theorem yields_runBinding {onVar : Listener} (hvar : YieldsPulled onVar) {id : Nat} {pulse : Pulse}
    {forced : Bool} (hdown : pulse.down = false)
    (hforced : forced = true → (t.engine.latch id).isLatched = true)
    (ht : Engine.ActiveWithin (fun _ => True) t.engine) :
    Yields (fun i => forced = false ∧ i = id ∨ t.engine.Drags id i) t
      (t.runBinding onVar id pulse forced).1 := by
  refine runBinding_cases (P := Yields _ t) (fun _ => .refl t)
    (fun b latch hb hreaches hrespond => ?_) fun b latch r hb hreaches hrespond => ?_
  · have hfall : Fall t (t.firstStep id b pulse forced latch none) :=
      .answer hb hreaches hdown hrespond (by simp)
    exact (yields_firstStep hb hfall hrespond (by simp)).mono fun _ => .inl
  · have hup : r.now = false := by
      rw [hdown] at hrespond
      exact (ht.steady id b hb).respond_up hrespond
    have hend : ∀ r', some r = some r' → r'.now = false := fun r' h => Option.some.inj h ▸ hup
    have hfall : Fall t (t.firstStep id b pulse forced latch (some r)) :=
      .answer hb hreaches hdown hrespond hend
    have hfirst : Yields (fun i => forced = false ∧ i = id ∨ t.engine.Drags id i) t
        (t.firstStep id b pulse forced latch (some r)) :=
      (yields_firstStep hb hfall hrespond hend).mono fun _ => .inl
    have hlatched : b.latch.isLatched = true := by
      rcases hreaches with hforce | haccepts
      · rw [← Engine.latch_of_getElem? hb]
        exact hforced hforce
      · simpa [hdown] using (accepts_iff.mp haccepts).2.2.2
    refine hfirst.trans ?_
    have hecho : ∀ echo, t.firstEcho id b pulse forced latch (some r) = some echo →
        (t.targetOf b).cell = .output .var ∧ echo.down = false := fun echo h =>
      ⟨(perform_echo _ h).1, (perform_echo _ h).2 hup⟩
    have hacted := hfall.within ht
    generalize t.firstStep id b pulse forced latch (some r) = acted at hfirst hacted ⊢
    have hlayout := hfirst.falls.steps.layout
    have hrelay : Yields (fun i => forced = false ∧ i = id ∨ t.engine.Drags id i) acted
        (relay onVar b.mapping.target acted (t.firstEcho id b pulse forced latch (some r))) := by
      generalize t.firstEcho id b pulse forced latch (some r) = echo at hecho ⊢
      cases echo with
      | none => exact .refl acted
      | some echo =>
        -- A variable goes up with its binding, and no pair listens to a variable.
        obtain ⟨hcell, hechoUp⟩ := hecho echo rfl
        obtain ⟨b', hb', hmapping, -⟩ := Engine.binding_congr hlayout hb
        refine (hvar acted b.mapping.target echo hechoUp ?_ hacted).mono fun i hpulls =>
          .inr ⟨b, hb, hlatched, hcell, hfirst.falls.pulls hpulls⟩
        rw [← hmapping]
        refine hacted.unpaired id b' hb' ?_
        rw [hmapping, Engine.descriptor_congr hlayout]
        exact hcell
    refine hrelay.trans ?_
    generalize relay onVar b.mapping.target acted _ = relayed
    rw [settle_up relayed id b.mapping _ _ hup]
    exact .silent (.tail (.single (.stop relayed id)) (.letGo _ id)) rfl

/-- **A source without pairs that goes up** leads to the commands of what it pulls, and ends holds. -/
theorem yields_feed (room : Nat) : YieldsPulled (feed room) := by
  induction room with
  | zero => exact fun t _ _ _ _ _ => .refl t
  | succ room ih =>
    intro t c pulse hdown hunpaired ht
    cases hline : t.engine.board.line? c with
    | none =>
      rw [feed_none _ t c pulse hline]
      exact .refl t
    | some line =>
      rw [feed_succ room t c pulse hline]
      dsimp only
      have hpairs : line.pairs = [] :=
        List.eq_nil_iff_forall_not_mem.mpr fun pair hpair => hunpaired pair ⟨line, hline, hpair⟩
      rw [hpairs, hdown]
      have hmark : Yields (t.engine.Pulls c) t (t.mark c (t.stateUser c pulse.user) false) :=
        .silent (.single (.mark t c _)) rfl
      -- A binding that is dragged along by one that is pulled is pulled itself.
      have hthrough : ∀ {t'}, Falls t t' → ∀ {via i},
          t.engine.board.Lists Line.chain c via ∨ t.engine.board.Lists Line.watchers c via →
          t'.engine.Drags via i → t.engine.Pulls c i := by
        intro t' hfalls via i hvia hdrags
        obtain ⟨b, hb, hlatched, hvar, hpulls⟩ := hfalls.drags hdrags
        exact .through hvia hb hlatched hvar hpulls
      have hchain := hmark.foldl (fun t' id => (t'.runBinding (feed room) id
          { user := t.stateUser c pulse.user, down := false, strength := pulse.strength } false).1)
        line.chain fun t' hfalls id hid => by
        have hlists : t.engine.board.Lists Line.chain c id := ⟨line, hline, hid⟩
        refine (yields_runBinding ih rfl (by simp) (hfalls.within ht)).mono fun i hi => ?_
        rcases hi with ⟨-, rfl⟩ | hdrags
        · exact .chain hlists
        · exact hthrough hfalls (.inl hlists) hdrags
      refine iteInduction (motive := Yields (t.engine.Pulls c) t) (fun _ => ?_) fun _ => hchain
      refine hchain.foldl _ line.watchers fun t' hfalls id hid => ?_
      have hlists : t.engine.board.Lists Line.watchers c id := ⟨line, hline, hid⟩
      unfold review
      split
      · exact .refl t'
      · rename_i b hb
        split
        · -- A review forces the release, so only what the binding drags along gives commands.
          rename_i hspoiled
          simp only [Bool.and_eq_true] at hspoiled
          have hlatched : (t'.engine.latch id).isLatched = true := by
            rw [Engine.latch_of_getElem? hb]
            exact hspoiled.1
          refine (yields_runBinding ih rfl (fun _ => hlatched) (hfalls.within ht)).mono fun i hi => ?_
          exact hthrough hfalls (.inr hlists) (hi.resolve_left (by simp))
        · exact .refl t'

/-! ## §3 One forced release after another -/

theorem yields_forceRelease (t : Turn) (id : Nat)
    (ht : Engine.ActiveWithin (fun _ => True) t.engine) :
    Yields (t.engine.Drags id) t (Engine.forceRelease t id) := by
  have hreleased : Yields (t.engine.Drags id) t
      (if (t.engine.latch id).isLatched then t.release listen id else t) := by
    split
    · rename_i hlatched
      exact (yields_runBinding (yields_feed cascadeRoom) rfl (fun _ => hlatched) ht).mono
        fun i hi => hi.resolve_left (by simp)
    · exact .refl t
  exact hreleased.trans (.silent (.single (.stop _ id)) rfl)

/-- **Releasing the bindings by force, in order,** gives the commands of those that are dragged along
by one before them, and otherwise ends holds only. -/
theorem yields_forceReleases (t : Turn) (ht : Engine.ActiveWithin (fun _ => True) t.engine)
    (count : Nat) :
    Yields t.engine.Dragged t ((List.range count).foldl Engine.forceRelease t) := by
  induction count with
  | zero => exact .refl t
  | succ count ih =>
    rw [List.range_succ, List.foldl_append]
    have hidle : ∀ id < count,
        (((List.range count).foldl Engine.forceRelease t).engine.latch id).Idle := fun id hid =>
      idle_forceReleases (List.range count) ht (.inl (List.mem_range.mpr hid))
    generalize (List.range count).foldl Engine.forceRelease t = t' at ih hidle ⊢
    have hnext := yields_forceRelease t' count (ih.falls.within ht)
    obtain ⟨made, hmade, hall⟩ := hnext.requests
    refine ih.trans ⟨hnext.falls, made, hmade, fun r hr => ⟨(hall r hr).1, ?_⟩⟩
    refine (hall r hr).2.imp_right fun hdrags => ⟨count, ?_, ih.falls.drags hdrags⟩
    -- What gives a command is still in effect, so it has not been released before; and what drives
    -- a variable gives none.
    obtain ⟨-, b, hb, hcell, hactive⟩ := (hall r hr).1
    rcases Nat.lt_trichotomy r.mapping count with hbefore | hsame | hafter
    · rw [← Engine.latch_of_getElem? hb, (hidle _ hbefore).active] at hactive
      contradiction
    · obtain ⟨b', hb', -, hvar, -⟩ := hdrags
      rw [hsame] at hb
      obtain rfl : b = b' := Option.some.inj (hb.symm.trans hb')
      rw [hcell] at hvar
      cases hvar
    · exact hafter

end Turn

namespace Engine

variable {e₀ e : Engine}

/-- **What a forced release requests**, at any time between two operations or while requests are
carried out: every request is the release of a binding that was in effect, and it ends a hold of the
active user, unless the binding is dragged along by one before it. -/
theorem requests_forced (he : Operated Config.IsCompiled e₀) (hdeeds : Deeds e₀ e) (time : Nat) :
    ∃ made, (e.forceReleaseAll time).queue = e.queue ++ made ∧
      ∀ r ∈ made, e.Owes r ∧ (r.command = .holdActiveUser ∨ e.Dragged r.mapping) := by
  have hsettled := (hdeeds.measured he.measured).mirrored.settled
  have hyields := Turn.yields_forceReleases { engine := e, time } hsettled e.bindings.size
  obtain ⟨made, hmade, hall⟩ := hyields.requests
  refine ⟨made, ?_, hall⟩
  have hqueue := Turn.Falls.queue hyields.falls
  unfold forceReleaseAll inTurn
  rw [Turn.queue_commit]
  dsimp only
  rw [Turn.requests_updatePads, Turn.engine_updatePads, hmade]
  exact congrArg (· ++ made) hqueue

/-- Tab holds the second user active, and A drives a variable that reloads on release. -/
def relayedConfig : ConfigFile :=
  { custom := { vars := ["Held"] }
    mappings :=
      [{ source := "Tab", target := "HoldActiveUser@2" }, { source := "A", target := "Held" },
        { source := "Held", target := "Reload" }] }

/-- The engine while Tab and A are held. -/
def relayed : Engine :=
  ((ofConfig relayedConfig.compile).after (.input ⟨0x09⟩ 0 true 1 0)).after
    (.input ⟨0x41⟩ 0 true 1 1)

/-- Both the end of the hold and the command are requested when everything is released. -/
theorem queue_relayed : (relayed.forceReleaseAll 2).queue.map (fun r => (r.command, r.mapping)) =
    [(.holdActiveUser, 0), (.reload, 2)] := by
  decide +kernel

/-- The hold ends, as it does by itself.  The command is dragged along. -/
theorem requests_forced_relayed : Operated Config.IsCompiled relayed ∧ Deeds relayed relayed ∧
    ∃ made, (relayed.forceReleaseAll 2).queue = relayed.queue ++ made ∧ made.length = 2 ∧
      ∀ r ∈ made, relayed.Owes r ∧ (r.command = .holdActiveUser ∨ relayed.Dragged r.mapping) := by
  have hreachable : Reachable Config.IsCompiled relayed := ((Reachable.compiled _).input ..).input ..
  obtain ⟨made, hmade, hall⟩ := requests_forced hreachable.operated (.refl : Deeds relayed relayed) 2
  have hcount := congrArg List.length queue_relayed
  rw [hmade, hreachable.operated.queue_nil] at hcount
  exact ⟨hreachable.operated, .refl, made, hmade, by simpa using hcount, hall⟩

/-- A forced release requests a command that is no hold, and the host is told to reload. -/
theorem reload_relayed : Reachable Config.IsCompiled relayed ∧ relayed.queue = [] ∧
    (∃ r ∈ (relayed.forceReleaseAll 2).queue, r.command = .reload) ∧
    ∃ r, r.command = .reload ∧ HostEvent.command r ∈ (relayed.releaseAll 2).journal.events := by
  have hreachable : Reachable Config.IsCompiled relayed := ((Reachable.compiled _).input ..).input ..
  have htold : (relayed.releaseAll 2).journal.events =
      #[.command ⟨.reload, 1, false, none, 2⟩] := by
    decide +kernel
  refine ⟨hreachable, hreachable.operated.queue_nil, ?_, ⟨.reload, 1, false, none, 2⟩, rfl, ?_⟩
  · have hmem : (Command.reload, 2) ∈
        (relayed.forceReleaseAll 2).queue.map (fun r => (r.command, r.mapping)) := by
      rw [queue_relayed]
      simp
    obtain ⟨r, hr, hsame⟩ := List.mem_map.mp hmem
    exact ⟨r, hr, congrArg Prod.fst hsame⟩
  · rw [htold]
    simp

end Engine

end VirtualPad
