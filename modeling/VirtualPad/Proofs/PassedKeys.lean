import VirtualPad.Proofs.PairsInStep
import VirtualPad.Proofs.SlotOwners

/-!
# Keys that the system has seen go down

Whether an event is kept from the system is decided anew each time, by what the bindings that hear of
it are ready for then.  Nobody remembers whether the system has seen a key go down.  A binding of a key
itself is run by every event of the key, but one of a pair only by the events that move the pair.  So if
both keys of a pair go down, only the first press is kept from the system, and if they come up in the
same order, only the last release is: the system goes on to see a key held that is up.

What can be said is this.  A binding keeps a release from the system only if it is latched, and only
a press that it keeps as well can have made it so.  As long as all presses get through to the system
that the bindings of a key hear of, so does the release of the key.

* `Turn.keptIdle_feed`: an event that gets through leaves idle what might have kept it.
* `Turn.letThrough_feed`: what is idle lets a release through.
* `release_passed`: a release gets through if the presses before it did.
* `kept_crossed`: the release of a key that is kept after its press was not.
-/

namespace VirtualPad

theorem Latch.Idle.isLatched {l : Latch} (hl : l.Idle) : l.isLatched = false := by
  simp [Latch.isLatched, hl.active, hl.rawDown, hl.timer]

namespace Engine

variable {e e' : Engine}

/-! ## §1 Who may keep an event -/

/-- The binding may keep events of the control from the system: it hears of them and does not forward
them. -/
def MayKeep (e : Engine) (c : Control) (id : Nat) : Prop :=
  e.Hears c id ∧ ∃ b, e.bindings[id]? = some b ∧ b.mapping.options.forward = false

theorem MayKeep.congr (hlayout : e'.layout = e.layout) {c : Control} {id : Nat}
    (h : e.MayKeep c id) : e'.MayKeep c id :=
  ⟨h.1.congr hlayout, (exists_binding_congr hlayout (fun m => m.options.forward = false) id).mpr h.2⟩

/-- None of them is latched. -/
def OpenFor (e : Engine) (c : Control) : Prop :=
  ∀ id, e.MayKeep c id → (e.latch id).isLatched = false

theorem OpenFor.idle {c : Control} (he : e.OpenFor c) {id : Nat} (hid : e.MayKeep c id) :
    (e.latch id).Idle := by
  refine Latch.idle_of_not_latched ?_
  rw [he id hid]
  exact Bool.false_ne_true

theorem OpenFor.keptIdle {c : Control} (he : e.OpenFor c) (h : KeptIdle (e.MayKeep c) e e') :
    e'.OpenFor c := by
  intro id hid
  have hbefore := hid.congr h.layout.symm
  exact (h.idle id hbefore (he.idle hbefore)).isLatched

/-- The bindings that hear of a built-in control have built-in sources. -/
theorem Hears.builtin (hwired : e.Wired) {c : Control} {id : Nat} (h : e.Hears c id)
    (hc : c.isCustom = false) {b : Binding} (hb : e.bindings[id]? = some b) :
    b.mapping.source.isCustom = false := by
  induction h with
  | chain h =>
    obtain ⟨b', hb', rfl⟩ := (hwired.chain _ _).mp h
    obtain rfl := Option.some.inj (hb.symm.trans hb')
    exact hc
  | pair h _ ih =>
    exact ih (hwired.of_pairs h).2.1 hb

theorem keyed_mayKeep (hwired : e.Wired) {c : Control} (hc : c.isCustom = false) :
    e.Keyed (e.MayKeep c) :=
  fun _ _ hid hb => hid.1.builtin hwired hc hb

/-- None of these bindings forwards anything. -/
def Greedy (A : Nat → Prop) (e : Engine) : Prop :=
  ∀ (id : Nat) (b : Binding), A id → e.bindings[id]? = some b → b.mapping.options.forward = false

theorem Greedy.congr {A : Nat → Prop} (he : Greedy A e) (hlayout : e'.layout = e.layout) :
    Greedy A e' := by
  intro id b' hid hb'
  obtain ⟨b, hb, hmapping, -⟩ := binding_congr hlayout.symm hb'
  rw [← hmapping]
  exact he id b hid hb

theorem greedy_mayKeep (e : Engine) (c : Control) : Greedy (e.MayKeep c) e := by
  rintro id b ⟨-, b', hb', hforward⟩ hb
  obtain rfl := Option.some.inj (hb.symm.trans hb')
  exact hforward

end Engine

namespace Turn

open Engine

variable {A : Nat → Prop}

/-! ## §2 Events that get through -/

/-- A binding that does not forward what it accepts keeps it from the system. -/
theorem kept_of_accepts (onVar : Listener) {t : Turn} {id : Nat} {b : Binding} {pulse : Pulse}
    (hb : t.engine.bindings[id]? = some b) (hforward : b.mapping.options.forward = false)
    (haccepts : t.accepts b (t.sourceOf b) (t.targetOf b) pulse = true) :
    (t.runBinding onVar id pulse false).2 = true := by
  unfold sourceOf targetOf at haccepts
  unfold runBinding
  simp [hb, haccepts, hforward]

/-- **An event that gets through leaves idle what might have kept it.** -/
theorem keptIdle_feed (room : Nat) {t : Turn} {c : Control} (pulse : Pulse) (hwired : t.engine.Wired)
    (hkeyed : t.engine.Keyed A) (hgreedy : t.engine.Greedy A)
    (hpassed : (∃ id, A id ∧ t.engine.Hears c id) → (feed room t c pulse).2 = false) :
    KeptIdle A t.engine (feed room t c pulse).1.engine := by
  induction room generalizing t c pulse with
  | zero => exact .refl _
  | succ room ih =>
    cases hline : t.engine.board.line? c with
    | none =>
      rw [feed_none _ t c pulse hline]
      exact .refl _
    | some line =>
      have hanswers := hpassed
      rw [feed_eq room t c pulse hline] at hanswers
      simp only [Bool.or_eq_false_iff] at hanswers
      -- On the chain only a binding that has kept the event can have accepted it.
      have hchain : PassedBy A (∃ id, A id ∧ t.engine.Hears c id) room t line (t.own c pulse) := by
        intro t' id hid hA hlayout _ hanswer b hb hreaches
        have haccepts := hreaches.resolve_left Bool.false_ne_true
        have hkept := kept_of_accepts (feed room) hb (hgreedy.congr hlayout id b hA hb) haccepts
        rw [hanswer ⟨id, hA, .chain ⟨line, hline, hid⟩⟩] at hkept
        contradiction
      have hrun := beneath_runChain (beneath_feed room) c line (t.own c pulse) hwired hkeyed hchain
        fun hA => (hanswers hA).1
      have hmarked : (t.mark c (t.own c pulse).user pulse.down).engine.layout = t.engine.layout :=
        layout_setBoard _ c _ _
      have hfollowed : KeptIdle A t.engine (runPairs room t c line (t.own c pulse)).1.engine := by
        refine sweep_keeps (P := fun t' => KeptIdle A t.engine t'.engine)
          (fun t' ht' pair hpair hanswer => ?_) ⟨hrun.layout.trans hmarked, hrun.idle⟩
          fun hA => (hanswers hA).2
        refine ht'.trans ?_
        have hlists : t'.engine.board.Lists Line.pairs c pair :=
          (lists_congr Wiring.pairs (fun _ => rfl) ht'.layout c pair).mpr ⟨line, hline, hpair⟩
        unfold followPair at hanswer ⊢
        split
        · exact .refl _
        · rename_i down hstate
          simp only [hstate] at hanswer
          split
          · rename_i hmoves
            rw [if_pos hmoves] at hanswer
            refine ih _ (hwired.congr ht'.layout) (hkeyed.congr ht'.layout) (hgreedy.congr ht'.layout)
              fun ⟨id, hA, hhears⟩ => hanswer ⟨id, hA, ?_⟩
            exact (Hears.pair hlists hhears).congr ht'.layout.symm
          · exact .refl _
      exact hfollowed.trans (beneath_reviews (beneath_feed room) hwired hkeyed hline pulse).toKeptIdle

/-! ## §3 Controls that go up -/

/-- The pair should be down by its components, and is not yet. -/
def Rises (t : Turn) (pair : Control) (user : User) : Prop :=
  t.pairState? pair user = some true ∧ t.engine.board.isDown pair user = false

/-- Beneath the keys no pair rises. -/
theorem not_rises_beneath {t t' : Turn} {pair : Control} {user : User}
    (hbeneath : Beneath A t.engine t'.engine) (hbuiltin : pair.isCustom = false)
    (h : ¬ t.Rises pair user) : ¬ t'.Rises pair user := by
  rintro ⟨hstate, hup⟩
  rw [pairState_congr hbeneath.layout fun c hc =>
    hbeneath.isDown c user (Switchboard.component_builtin hc)] at hstate
  rw [hbeneath.isDown pair user hbuiltin] at hup
  exact h ⟨hstate, hup⟩

/-- Nor does one when a component goes up. -/
theorem not_rises_mark {t : Turn} {c pair : Control} {line : Line} {user u : User}
    (hline : t.engine.board.line? c = some line)
    (hmem : c ∈ Switchboard.components t.engine.vocabulary pair) (h : t.InStep pair u) :
    ¬ (t.mark c user false).Rises pair u := by
  have hmoved := moved_mark hline user false
  obtain ⟨first, second, hpair, -⟩ := Switchboard.mem_components.mp hmem
  rintro ⟨hstate, hup⟩
  have hfalls : ∀ other ∈ Switchboard.components t.engine.vocabulary pair,
      (t.mark c user false).engine.board.isDown other u = true →
      t.engine.board.isDown other u = true := by
    intro other hother hdown
    rw [hmoved.isDown other u (Switchboard.component_builtin hother)] at hdown
    split at hdown
    · contradiction
    · exact hdown
  have hbefore := h true (pairState_mono hmoved.layout hfalls hstate)
  -- No pair is a component, so the pair itself has not moved.
  rw [hmoved.isDown pair u (t.engine.vocabulary.builtin_of_pair hpair), if_neg, hbefore] at hup
  · contradiction
  · rintro ⟨rfl, -⟩
    rw [Switchboard.pair_of_component hmem] at hpair
    contradiction

/-- Nor while others follow. -/
theorem not_rises_followPair (room : Nat) {t : Turn} {c pair other : Control} {pulse : Pulse}
    {user : User} (hwired : t.engine.Wired) (hlists : t.engine.board.Lists Line.pairs c pair)
    (hpulse : t.stateUser c pulse.user = pulse.user) (hbuiltin : other.isCustom = false)
    (h : ¬ t.Rises other user) :
    ¬ (followPair (feed (room + 1)) pulse t pair).1.Rises other user := by
  obtain ⟨down, hstate, hmoved⟩ := moved_followPair room hwired hlists hpulse
  rintro ⟨hnow, hup⟩
  rw [pairState_moved hmoved (hwired.of_pairs hlists).1 other user] at hnow
  rw [hmoved.isDown other user hbuiltin] at hup
  split at hup
  · rename_i hown
    obtain ⟨rfl, huser⟩ := hown
    obtain rfl := Fin.ext huser
    rw [hup, hnow] at hstate
    contradiction
  · exact h ⟨hnow, hup⟩

/-- A control that has gone up leaves these bindings idle, and if they are all that might have kept it
from the system, it has got through. -/
structure LetThrough (A : Nat → Prop) (t : Turn) (c : Control) (result : Turn × Bool) : Prop where
  kept : KeptIdle A t.engine result.1.engine
  answer : (∀ id, t.engine.MayKeep c id → A id ∧ (t.engine.latch id).Idle) → result.2 = false

theorem LetThrough.refl (A : Nat → Prop) (t : Turn) (c : Control) : LetThrough A t c (t, false) :=
  ⟨.refl _, fun _ => rfl⟩

/-- What is idle does not accept a release. -/
theorem not_reaches_up {t : Turn} {id : Nat} {b : Binding} {pulse : Pulse}
    (hb : t.engine.bindings[id]? = some b) (hidle : (t.engine.latch id).Idle)
    (hdown : pulse.down = false) : ¬ t.Reaches b pulse false := by
  intro hreaches
  obtain ⟨-, -, -, hlatched⟩ := accepts_iff.mp (hreaches.resolve_left Bool.false_ne_true)
  rw [latch_of_getElem? hb] at hidle
  rw [hdown, if_neg Bool.false_ne_true, hidle.isLatched] at hlatched
  contradiction

/-- What goes up is let through, if its pairs let it through. -/
theorem letThrough_of_pairs (room : Nat) {t : Turn} {c : Control} {line : Line} {pulse : Pulse}
    (hwired : t.engine.Wired) (hkeyed : t.engine.Keyed A)
    (hline : t.engine.board.line? c = some line) (hdown : pulse.down = false)
    (hpairs : ∀ run : Turn, Beneath A (t.mark c (t.own c pulse).user pulse.down).engine run.engine →
      LetThrough A run c (sweep (followPair (feed room) (t.own c pulse)) run line.pairs)) :
    LetThrough A t c (feed (room + 1) t c pulse) := by
  have hup : (t.own c pulse).down = false := hdown
  have hmarked : (t.mark c (t.own c pulse).user pulse.down).engine.layout = t.engine.layout :=
    layout_setBoard _ c _ _
  have hpassed : PassedBy A False room t line (t.own c pulse) :=
    fun t' id _ _ _ hidle _ b hb => not_reaches_up hb hidle hup
  have hchain := beneath_runChain (beneath_feed room) c line (t.own c pulse) hwired hkeyed hpassed
    False.elim
  have hrun : KeptIdle A t.engine (runChain room t c line (t.own c pulse)).1.engine :=
    ⟨hchain.layout.trans hmarked, hchain.idle⟩
  constructor
  · exact (hrun.trans (hpairs _ hchain).kept).trans
      (beneath_reviews (beneath_feed room) hwired hkeyed hline pulse).toKeptIdle
  · intro hidle
    rw [feed_eq room t c pulse hline]
    refine Bool.or_eq_false_iff.mpr ⟨?_, (hpairs _ hchain).answer fun id hid => ?_⟩
    · rw [← Bool.not_eq_true]
      refine sweep_answer (P := fun t' => Beneath A
        (t.mark c (t.own c pulse).user pulse.down).engine t'.engine) (fun t' ht' id hid => ?_)
        (fun t' ht' id hid hthis => ?_) (.refl _)
      · have hlayout := ht'.layout.trans hmarked
        exact ht'.trans (beneath_unanswered (beneath_feed room) (hwired.congr hlayout)
          (hkeyed.congr hlayout) fun _ hidle b hb => not_reaches_up hb hidle hup)
      · -- Whoever has kept it has been latched.
        obtain ⟨b, hb, haccepts, hforward⟩ := kept_runBinding hthis
        have hlayout := ht'.layout.trans hmarked
        obtain ⟨b', hb', hmapping, -⟩ := binding_congr hlayout.symm hb
        obtain ⟨hA, hbefore⟩ := hidle id ⟨.chain ⟨line, hline, hid⟩, b', hb', hmapping ▸ hforward⟩
        exact not_reaches_up hb (ht'.idle id hA hbefore) hup (.inr haccepts)
    · obtain ⟨hA, hbefore⟩ := hidle id (hid.congr hrun.layout.symm)
      exact ⟨hA, hrun.idle id hA hbefore⟩

/-- A control that is part of no pair is let through. -/
theorem letThrough_single (room : Nat) {t : Turn} {c : Control} {pulse : Pulse}
    (hwired : t.engine.Wired) (hkeyed : t.engine.Keyed A) (hdown : pulse.down = false)
    (hpairs : ∀ pair, ¬ t.engine.board.Lists Line.pairs c pair) :
    LetThrough A t c (feed room t c pulse) := by
  cases room with
  | zero => exact .refl A t c
  | succ room =>
    cases hline : t.engine.board.line? c with
    | none =>
      rw [feed_unheard _ t c pulse hline]
      exact .refl A t c
    | some line =>
      refine letThrough_of_pairs room hwired hkeyed hline hdown fun run _ => ?_
      have hnone : line.pairs = [] :=
        List.eq_nil_iff_forall_not_mem.mpr fun pair hpair => hpairs pair ⟨line, hline, hpair⟩
      rw [hnone]
      exact .refl A run c

/-- So is a pair that does not rise. -/
theorem letThrough_followPair (room : Nat) {t : Turn} {c pair : Control} {pulse : Pulse}
    (hwired : t.engine.Wired) (hkeyed : t.engine.Keyed A)
    (hlists : t.engine.board.Lists Line.pairs c pair) (hrises : ¬ t.Rises pair pulse.user) :
    LetThrough A t pair (followPair (feed room) pulse t pair) := by
  unfold followPair
  split
  · exact .refl A t pair
  · rename_i down hstate
    split
    · rename_i hmoves
      refine letThrough_single room hwired hkeyed ?_ (hwired.of_pairs hlists).2.2
      cases down with
      | false => rfl
      | true =>
        refine absurd ⟨hstate, ?_⟩ hrises
        simpa using hmoves
    · exact .refl A t pair

/-- So are several pairs of a control, one after another. -/
theorem letThrough_followPairs (room : Nat) {t : Turn} {c : Control} {pulse : Pulse}
    {pairs : List Control} (hwired : t.engine.Wired) (hkeyed : t.engine.Keyed A)
    (hpulse : t.stateUser c pulse.user = pulse.user)
    (hlists : ∀ pair ∈ pairs, t.engine.board.Lists Line.pairs c pair)
    (hrises : ∀ pair ∈ pairs, ¬ t.Rises pair pulse.user) :
    LetThrough A t c (sweep (followPair (feed (room + 1)) pulse) t pairs) := by
  -- What is carried along the pairs is that the bindings are idle and that no pair rises.
  have hone : ∀ t', (KeptIdle A t.engine t'.engine ∧ ∀ pair ∈ pairs, ¬ t'.Rises pair pulse.user) →
      ∀ pair ∈ pairs, t'.engine.board.Lists Line.pairs c pair ∧
        LetThrough A t' pair (followPair (feed (room + 1)) pulse t' pair) := by
    intro t' ⟨hkept, hrises⟩ pair hpair
    have hlists : t'.engine.board.Lists Line.pairs c pair :=
      (lists_congr Wiring.pairs (fun _ => rfl) hkept.layout c pair).mpr (hlists pair hpair)
    exact ⟨hlists, letThrough_followPair _ (hwired.congr hkept.layout) (hkeyed.congr hkept.layout)
      hlists (hrises pair hpair)⟩
  have hnext : ∀ t', (KeptIdle A t.engine t'.engine ∧ ∀ pair ∈ pairs, ¬ t'.Rises pair pulse.user) →
      ∀ pair ∈ pairs, KeptIdle A t.engine (followPair (feed (room + 1)) pulse t' pair).1.engine ∧
        ∀ other ∈ pairs,
          ¬ (followPair (feed (room + 1)) pulse t' pair).1.Rises other pulse.user := by
    intro t' ht' pair hpair
    obtain ⟨hlist, hthrough⟩ := hone t' ht' pair hpair
    have hsame := ht'.1.layout
    have hpulse' : t'.stateUser c pulse.user = pulse.user := by
      rw [stateUser_congr hsame]
      exact hpulse
    refine ⟨ht'.1.trans hthrough.kept, fun other hother => ?_⟩
    exact not_rises_followPair room (hwired.congr hsame) hlist hpulse'
      (hwired.of_pairs (hlists other hother)).2.1 (ht'.2 other hother)
  refine ⟨(sweep_keeps (Q := False) (fun t' ht' pair hpair _ => hnext t' ht' pair hpair)
    ⟨.refl _, hrises⟩ False.elim).1, fun hidle => ?_⟩
  rw [← Bool.not_eq_true]
  refine sweep_answer hnext (fun t' ht' pair hpair hthis => ?_) ⟨.refl _, hrises⟩
  -- What may keep an event of the pair may keep one of the component.
  obtain ⟨hlist, hthrough⟩ := hone t' ht' pair hpair
  have hpassed := hthrough.answer fun id hid => by
    have hmay := MayKeep.congr ht'.1.layout.symm ⟨.pair hlist hid.1, hid.2⟩
    exact ⟨(hidle id hmay).1, ht'.1.idle id (hidle id hmay).1 (hidle id hmay).2⟩
  rw [hpassed] at hthis
  contradiction

/-- **A control that goes up is let through** by bindings that are idle, if its pairs are in step. -/
theorem letThrough_feed {room : Nat} (hroom : 2 ≤ room) {t : Turn} {c : Control} {pulse : Pulse}
    (hwired : t.engine.Wired) (hkeyed : t.engine.Keyed A) (hdown : pulse.down = false)
    (hstep : ∀ pair, t.engine.board.Lists Line.pairs c pair → t.InStep pair (t.own c pulse).user) :
    LetThrough A t c (feed room t c pulse) := by
  obtain ⟨room, rfl⟩ := Nat.exists_eq_add_of_le' hroom
  cases hline : t.engine.board.line? c with
  | none =>
    rw [feed_unheard _ t c pulse hline]
    exact .refl A t c
  | some line =>
    refine letThrough_of_pairs (room + 1) hwired hkeyed hline hdown fun run hrun => ?_
    have hlayout := hrun.layout.trans (layout_setBoard t.engine c _ _)
    refine letThrough_followPairs room (hwired.congr hlayout) (hkeyed.congr hlayout)
      (stateUser_own hlayout c pulse) (fun pair hpair => ?_) fun pair hpair => ?_
    · exact (lists_congr Wiring.pairs (fun _ => rfl) hlayout c pair).mpr ⟨line, hline, hpair⟩
    · have hlists : t.engine.board.Lists Line.pairs c pair := ⟨line, hline, hpair⟩
      refine not_rises_beneath hrun (hwired.of_pairs hlists).2.1 ?_
      rw [hdown]
      exact not_rises_mark hline ((hwired.pairs c pair).mp hlists).1 (hstep pair hlists)

end Turn

namespace Engine

variable {admits : Config → Prop} {e e' : Engine} {k : Control}

/-! ## §4 Between two operations -/

/-- The engine comes about while no press is kept from the system that the bindings hear of which may
keep a key, and while the host moves no pair itself. -/
inductive Passing (admits : Config → Prop) (k : Control) (e : Engine) : Engine → Prop
  | refl : Passing admits k e e
  | call {e' : Engine} {call : Call} (hcall : call.Admitted admits)
      (hsource : ∀ c, call.source? = some c → (e'.descriptor c).pair = none)
      (hpassed : ∀ c, call.pressed? = some c → (∃ id, e'.MayKeep k id ∧ e'.Hears c id) →
        e'.answer call = false)
      (h : Passing admits k e e') : Passing admits k e (e'.after call)
  | timer {e' : Engine} (token : TimerToken) (time : Nat) (h : Passing admits k e e') :
      Passing admits k e (e'.onTimer token time)

theorem Attended.passing (he : Attended admits e) (h : Passing admits k e e') :
    Attended admits e' := by
  induction h with
  | refl => exact he
  | call hcall hsource _ _ ih => exact ih.call hcall hsource
  | timer token time _ ih => exact ih.timer token time

/-- An input of a control that is no pair is one step of such a run. -/
theorem Attended.input (he : Attended admits e) (source : Control)
    (hsource : (e.descriptor source).pair = none) (user : Nat) (down : Bool) (strength : Float)
    (time : Nat) : Attended admits (e.after (.input source user down strength time)) := by
  have hcall : (Call.input source user down strength time).Admitted admits := trivial
  exact he.call hcall fun _ hc => Option.some.inj hc ▸ hsource

/-- The pairs that a control is part of are in step when a source moves. -/
theorem Attended.inStep (he : Attended admits e) {c pair : Control}
    (hlists : e.board.Lists Line.pairs c pair) (user : User) (time : Nat) :
    ({ engine := { e with lastTime := time }, time } : Turn).InStep pair user :=
  he.pairsInStep pair user ((he.operated.wired.pairs c pair).mp hlists).2

/-- After an installation nothing is latched. -/
theorem openFor_install (e : Engine) (config : Config) (time : Nat) (c : Control) :
    (e.install config time).OpenFor c := by
  intro id _
  rw [install_latch]
  rfl

/-- A source that moves leaves idle what may keep a key, if it goes up or gets through. -/
theorem Attended.keptIdle_accept (he : Attended admits e) (hk : k.isCustom = false) {c : Control}
    {pulse : Pulse} {time : Nat} (hpassed : pulse.down = true →
      (∃ id, e.MayKeep k id ∧ e.Hears c id) → (e.accept c pulse time).2 = false) :
    KeptIdle (e.MayKeep k) e (e.accept c pulse time).1 := by
  have hwired := he.operated.wired
  have hkeyed := keyed_mayKeep hwired hk
  let noted : Turn := { engine := { e with lastTime := time }, time }
  have hnoted : noted.engine.layout = e.layout := rfl
  have hfed : KeptIdle (e.MayKeep k) noted.engine
      (Turn.feed (cascadeRoom + 1) noted c pulse).1.engine := by
    cases hdown : pulse.down with
    | true =>
      refine Turn.keptIdle_feed (cascadeRoom + 1) pulse (hwired.congr hnoted) (hkeyed.congr hnoted)
        ((greedy_mayKeep e k).congr hnoted) ?_
      rintro ⟨id, hid, hhears⟩
      exact hpassed hdown ⟨id, hid, hhears.congr hnoted.symm⟩
    | false =>
      exact (Turn.letThrough_feed (show 2 ≤ cascadeRoom + 1 by decide) (hwired.congr hnoted)
        (hkeyed.congr hnoted) hdown fun pair hpair => he.inStep hpair _ time).kept
  have hstart : KeptIdle (e.MayKeep k) e noted.engine := ⟨rfl, fun _ _ hidle => hidle⟩
  have hturn := hstart.trans hfed
  exact hturn.trans (Beneath.accept (hwired.congr hturn.layout)
    (hkeyed.congr hturn.layout)).toKeptIdle

/-- While presses get through, nothing that may keep a key is latched. -/
theorem OpenFor.passing (hopen : e.OpenFor k) (he : Attended admits e) (hk : k.isCustom = false)
    (h : Passing admits k e e') : e'.OpenFor k := by
  induction h with
  | refl => exact hopen
  | @call e' call hcall hsource hpassed hbefore ih =>
    have hattended := he.passing hbefore
    have hop := hattended.operated
    have hkeyed := keyed_mayKeep hop.wired hk
    rcases e'.after_cases call with
      ⟨c, pulse, time, -, hpress, hafter, hanswer⟩ | hunfeds | ⟨config, rfl⟩
    · -- A press has got through as far as these bindings hear of it; a release need not have.
      rw [hafter]
      refine ih.keptIdle (hattended.keptIdle_accept hk fun hdown hshared => ?_)
      rw [← hanswer]
      exact hpassed c (hpress hdown) hshared
    · exact ih.keptIdle (Beneath.unfeds hunfeds hop.wired hkeyed hop.timersKnown).toKeptIdle
    · have hwired := wired_install e'.freed config e'.lastTime
      exact (openFor_install e'.freed config e'.lastTime k).keptIdle
        (Beneath.duties (duties_reload e' config) hwired (keyed_mayKeep hwired hk)).toKeptIdle
  | timer token time hbefore ih =>
    have hop := (he.passing hbefore).operated
    exact ih.keptIdle (Beneath.unfeds (unfeds_onTimer _ token time) hop.wired
      (keyed_mayKeep hop.wired hk) hop.timersKnown).toKeptIdle

/-- **A release gets through to the system** if the presses before it did. -/
theorem release_passed (he : Attended Config.IsCompiled e) (hk : k.isCustom = false)
    (hopen : e.OpenFor k) (hrun : Passing Config.IsCompiled k e e') (user : Nat) (strength : Float)
    (time : Nat) : (e'.processInput k user false strength time).2 = false := by
  have hattended := he.passing hrun
  have hwired := hattended.operated.wired
  have hstill := hopen.passing he hk hrun
  rcases e'.processInput_cases k user false strength time with ⟨pulse, hdown, hfed⟩ | hnot
  · rw [hfed]
    have hnoted : ({ e' with lastTime := time } : Engine).layout = e'.layout := rfl
    exact (Turn.letThrough_feed (show 2 ≤ cascadeRoom + 1 by decide)
      (t := { engine := { e' with lastTime := time }, time }) (hwired.congr hnoted)
      ((keyed_mayKeep hwired hk).congr hnoted) hdown
      fun pair hpair => hattended.inStep hpair _ time).answer
      fun id hid => ⟨hid.congr hnoted.symm, hstill.idle (hid.congr hnoted.symm)⟩
  · rw [hnot]

/-- An input that gets through is one step of a run in which presses do. -/
theorem Passing.input (h : Passing admits k e e') {source : Control} {user : Nat} {down : Bool}
    {strength : Float} {time : Nat} (hsource : (e'.descriptor source).pair = none)
    (hpassed : (e'.processInput source user down strength time).2 = false) :
    Passing admits k e (e'.after (.input source user down strength time)) := by
  have hcall : (Call.input source user down strength time).Admitted admits := trivial
  exact h.call hcall (fun _ hc => Option.some.inj hc ▸ hsource) fun _ _ _ => hpassed

/-- While C is held, A presses one button and Shift another. -/
def conditionalConfig : ConfigFile :=
  { mappings :=
      [{ source := "A", target := "PadA", condition := some "C" },
        { source := "Shift", target := "PadB", condition := some "C" }] }

/-- The engine on this configuration. -/
def conditional : Engine := ofConfig conditionalConfig.compile

/-- Without C the keys go through, so left Shift comes up for the system after right Shift has gone
down and has repeated. -/
theorem release_passed_shift : (∃ id, conditional.MayKeep ⟨0xA0⟩ id) ∧
    ∃ e', Passing Config.IsCompiled ⟨0xA0⟩ conditional e' ∧
      (e'.board.isDown ⟨0xA0⟩ 0 && e'.board.isDown ⟨0xA1⟩ 0 && e'.board.isDown ⟨0x10⟩ 0) = true ∧
      (e'.processInput ⟨0xA0⟩ 0 false 0 3).2 = false := by
  let left := conditional.after (.input ⟨0xA0⟩ 0 true 1 0)
  let both := left.after (.input ⟨0xA1⟩ 0 true 1 1)
  have hstate : (conditional.board.line? ⟨0xA0⟩).map Line.pairs = some [⟨0x10⟩] ∧
      (conditional.board.line? ⟨0x10⟩).map Line.chain = some [1] ∧
      (conditional.bindings[1]?.map fun b => b.mapping.options.forward) = some false ∧
      (conditional.processInput ⟨0xA0⟩ 0 true 1 0).2 = false ∧
      (left.processInput ⟨0xA1⟩ 0 true 1 1).2 = false ∧
      (both.processInput ⟨0xA1⟩ 0 true 1 2).2 = false ∧
      let e' := both.after (.input ⟨0xA1⟩ 0 true 1 2)
      (e'.board.isDown ⟨0xA0⟩ 0 && e'.board.isDown ⟨0xA1⟩ 0 && e'.board.isDown ⟨0x10⟩ 0) = true := by
    decide +kernel
  obtain ⟨hpairs, hchain, hforward, hleft, hright, hagain, hdown⟩ := hstate
  obtain ⟨line, hline, hpairs⟩ := Option.map_eq_some_iff.mp hpairs
  obtain ⟨pairLine, hpairLine, hchain⟩ := Option.map_eq_some_iff.mp hchain
  obtain ⟨b, hb, hforward⟩ := Option.map_eq_some_iff.mp hforward
  have hhears : conditional.Hears ⟨0xA0⟩ 1 :=
    .pair ⟨line, hline, hpairs ▸ List.mem_singleton.mpr rfl⟩
      (.chain ⟨pairLine, hpairLine, hchain ▸ List.mem_singleton.mpr rfl⟩)
  have hattended : Attended Config.IsCompiled conditional := .start ⟨conditionalConfig, rfl⟩
  have hrun : Passing Config.IsCompiled ⟨0xA0⟩ conditional
      (both.after (.input ⟨0xA1⟩ 0 true 1 2)) :=
    ((Passing.refl.input rfl hleft).input rfl hright).input rfl hagain
  exact ⟨⟨1, hhears, b, hb, hforward⟩, _, hrun, hdown,
    release_passed hattended rfl (openFor_install _ _ 0 _) hrun 0 0 3⟩

/-- Shift presses a button. -/
def crossedConfig : ConfigFile := { mappings := [{ source := "Shift", target := "PadA" }] }

/-- The engine after right Shift has gone down. -/
def rightDown : Engine := (ofConfig crossedConfig.compile).after (.input ⟨0xA1⟩ 0 true 1 0)

/-- The engine after left Shift has gone down as well, and right Shift has come up again. -/
def crossed : Engine :=
  (rightDown.after (.input ⟨0xA0⟩ 0 true 1 1)).after (.input ⟨0xA1⟩ 0 false 0 2)

/-- **A key that gets stuck.** The system has seen left Shift go down, but does not see it come up.  Of
right Shift it sees the release only. -/
theorem kept_crossed : Attended Config.IsCompiled crossed ∧
    (crossed.descriptor ⟨0xA0⟩).flags.ofUser = false ∧
    ((ofConfig crossedConfig.compile).processInput ⟨0xA1⟩ 0 true 1 0).2 = true ∧
    (rightDown.processInput ⟨0xA0⟩ 0 true 1 1).2 = false ∧
    ((rightDown.after (.input ⟨0xA0⟩ 0 true 1 1)).processInput ⟨0xA1⟩ 0 false 0 2).2 = false ∧
    (crossed.processInput ⟨0xA0⟩ 0 false 0 3).2 = true := by
  have hstart : Attended Config.IsCompiled (ofConfig crossedConfig.compile) :=
    .start ⟨crossedConfig, rfl⟩
  have hattended : Attended Config.IsCompiled crossed :=
    ((hstart.input ⟨0xA1⟩ rfl 0 true 1 0).input ⟨0xA0⟩ rfl 0 true 1 1).input ⟨0xA1⟩ rfl 0 false 0 2
  exact ⟨hattended, by decide +kernel⟩

end Engine

end VirtualPad
