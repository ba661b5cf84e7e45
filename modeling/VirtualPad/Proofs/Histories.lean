import VirtualPad.Proofs.Moves

/-!
# What the bindings have answered

A binding answers every pulse that gets through to it.  The *history* of an engine is the list of
these answers since its configuration was installed, the latest first.

The engine does not keep its history.  The definitions here go through a run of the engine step by
step and write the answers down: each takes the history so far and gives the one afterwards.  They
read the engine and leave it alone, so there is one history for every run.
-/

namespace VirtualPad

/-- What a binding has answered: whether it was a press, and how the source stood on the board. -/
structure Heard where
  id : Nat
  press : Bool
  sourceDown : Bool
  deriving DecidableEq

namespace Engine

/-- The source of the binding is down on the board, for the user under whom controls without users
keep their state. -/
def sourceDown (e : Engine) (b : Binding) : Bool := e.board.isDown b.mapping.source User.first

end Engine

/-! ## §1 Cascades -/

namespace Turn

/-- What becomes of the history while something hears of a pulse of a control. -/
abbrev Logger := Turn → Control → Pulse → List Heard → List Heard

/-- The history after a variable has moved, if it has. -/
def logEcho (log : Logger) (target : Control) (t : Turn) (history : List Heard) :
    Option Pulse → List Heard
  | none => history
  | some pulse => log t target pulse history

/-- The history after a binding has run: its own answer comes first, and then whatever is answered
below it. -/
def logBinding (log : Logger) (t : Turn) (id : Nat) (pulse : Pulse) (forced : Bool)
    (history : List Heard) : List Heard :=
  match t.engine.bindings[id]? with
  | none => history
  | some b =>
    if !forced && !t.accepts b (t.sourceOf b) (t.targetOf b) pulse then history
    else
      let (latch, response) := b.latch.respond b.mapping (t.sourceOf b) (t.targetOf b) pulse.down
        pulse.strength forced
      logEcho log b.mapping.target (t.firstStep id b pulse forced latch response)
        (⟨id, pulse.down && !forced, t.engine.sourceDown b⟩ :: history)
        (t.firstEcho id b pulse forced latch response)

def logRelease (log : Logger) (t : Turn) (id : Nat) : List Heard → List Heard :=
  let user := (t.engine.latch id).sourceUser
  t.logBinding log id { user, down := false, strength := 0 } true

def logReview (log : Logger) (t : Turn) (id : Nat) (history : List Heard) : List Heard :=
  match t.engine.bindings[id]? with
  | none => history
  | some b =>
    if b.latch.isLatched && !b.mapping.allows t.engine.board t.engine.activeUser then
      t.logRelease log id history
    else history

def logPair (log : Logger) (pulse : Pulse) (t : Turn) (pair : Control) (history : List Heard) :
    List Heard :=
  match t.pairState? pair pulse.user with
  | none => history
  | some down =>
    if down != t.engine.board.isDown pair pulse.user then log t pair { pulse with down } history
    else history

def logWalk {α : Type} (run : Turn → α → Turn) (log : Turn → α → List Heard → List Heard) :
    Turn → List α → List Heard → List Heard
  | _, [], history => history
  | t, item :: rest, history => logWalk run log (run t item) rest (log t item history)

/-- The history after a source has moved. -/
def logFeed : Nat → Logger
  | 0, _, _, _, history => history
  | room + 1, t, source, pulse, history =>
    let pulse := { pulse with user := t.stateUser source pulse.user }
    match t.engine.board.line? source with
    | none => history
    | some line =>
      let marked := t.mark source pulse.user pulse.down
      let runOne := fun (t : Turn) (id : Nat) => (t.runBinding (feed room) id pulse false).1
      let followOne := fun (t : Turn) (pair : Control) => (followPair (feed room) pulse t pair).1
      let run := line.chain.foldl runOne marked
      let followed := line.pairs.foldl followOne run
      let history := logWalk runOne (fun t id => t.logBinding (logFeed room) id pulse false) marked
        line.chain history
      let history := logWalk followOne (logPair (logFeed room) pulse) run line.pairs history
      if line.moves pulse.user pulse.down then
        logWalk (review (feed room)) (logReview (logFeed room)) followed line.watchers history
      else history

/-- The history after a timer has gone off. -/
def logTick (t : Turn) (use : TimerUse) (history : List Heard) : List Heard :=
  let id := use.binding
  match t.engine.bindings[id]? with
  | none => history
  | some b =>
    let lapsed := t.mapEngine fun e => e.lapse use
    match use.kind with
    | .turbo =>
      let (blinked, echo) := lapsed.blink id (t.sourceOf b) (t.targetOf b)
      logEcho (logFeed cascadeRoom) b.mapping.target blinked history echo
    | .release =>
      let user := (lapsed.engine.latch id).sourceUser
      lapsed.logBinding (logFeed cascadeRoom) id { user, down := false, strength := 0 } false
        history
    | .repeating | .rotate | .keyRepeatDelay | .keyRepeat => history

end Turn

/-! ## §2 Calls -/

namespace Engine

def logForceRelease (t : Turn) (id : Nat) (history : List Heard) : List Heard :=
  if (t.engine.latch id).isLatched then t.logRelease (Turn.logFeed cascadeRoom) id history
  else history

/-- The history after everything has been released. -/
def logForceReleaseAll (e : Engine) (time : Nat) : List Heard → List Heard :=
  Turn.logWalk forceRelease logForceRelease { engine := e, time } (List.range e.bindings.size)

/-- The history after a request has been carried out.  Only switching the mappings off makes the
bindings answer anything. -/
def logObey (e : Engine) (r : Request) (time : Nat) (history : List Heard) : List Heard :=
  match r.command with
  | .toggleDisable => if e.disabled then history else e.logForceReleaseAll time history
  | _ => history

def logObeyAll (time : Nat) : Nat → Engine → List Heard → List Heard
  | 0, _, history => history
  | bound + 1, e, history =>
    match e.queue with
    | [] => history
    | r :: rest =>
      let e := { e with queue := rest }
      logObeyAll time bound (e.obey r time) (e.logObey r time history)

def logDrain (e : Engine) (time : Nat) : List Heard → List Heard :=
  logObeyAll time (e.queue.length + userLimit * e.bindings.size) e

/-- The history after a source has moved in a turn of its own. -/
def logAccept (e : Engine) (source : Control) (pulse : Pulse) (time : Nat) (history : List Heard) :
    List Heard :=
  let t : Turn := { engine := { e with lastTime := time }, time }
  (Turn.feed (cascadeRoom + 1) t source pulse).1.commit.logDrain time
    (Turn.logFeed (cascadeRoom + 1) t source pulse history)

/-- The history after a timer has gone off in a turn of its own. -/
def logTimer (e : Engine) (token : TimerToken) (time : Nat) (history : List Heard) : List Heard :=
  match e.timerUse? token with
  | none => history
  | some use =>
    let t : Turn := { engine := { e with lastTime := time }, time }
    (t.tick use).commit.logDrain time (t.logTick use history)

def logDue (limit : Nanoseconds) : Nat → Engine → List Heard → List Heard
  | 0, _, history => history
  | bound + 1, e, history =>
    match e.clock.nextDue? limit with
    | none => history
    | some (token, due, clock) =>
      let e := { e with clock }
      let time := due.toMillis % twoTo 64
      logDue limit bound (e.onTimer token time) (e.logTimer token time history)

/-- The history after everything has been released, and the requests that this has led to have been
carried out. -/
def logReleaseAll (e : Engine) (time : Nat) (history : List Heard) : List Heard :=
  (e.forceReleaseAll time).logDrain time (e.logForceReleaseAll time history)

/-- The history after a call.  A configuration that is installed has none before it. -/
def logCall (e : Engine) (history : List Heard) : Call → List Heard
  | .input source user down strength time =>
    if h : user < userLimit then
      let strength := if strength.isFinite then Scalar.clamp strength 0 1 else 1
      e.logAccept source { user := ⟨user, h⟩, down, strength } time history
    else history
  | .motion source user magnitude time =>
    if h : user < userLimit then
      if magnitude.isFinite then
        e.logAccept source { user := ⟨user, h⟩, down := magnitude != 0, strength := magnitude.abs }
          time history
      else history
    else history
  | .runUntil ms =>
    let limit := Nanoseconds.ofMillis ms
    logDue limit (e.tickBound limit) e history
  | .releaseAll time => e.logReleaseAll time history
  | .reload config =>
    let freed := (e.forceReleaseAll e.lastTime).drainQueue e.lastTime
    (freed.cancelTimers.install config e.lastTime).logDrain e.lastTime []

/-- The engine can come about between two calls with this history. -/
inductive Traced (admits : Config → Prop) : List Heard → Engine → Prop
  | start {config : Config} (hconfig : admits config) : Traced admits [] (ofConfig config)
  | call {history : List Heard} {e : Engine} {call : Call} (hcall : call.Admitted admits)
      (he : Traced admits history e) : Traced admits (e.logCall history call) (e.after call)

/-- Every reachable engine has a history. -/
theorem Reachable.traced {admits : Config → Prop} {e : Engine} (he : Reachable admits e) :
    ∃ history, Traced admits history e := by
  induction he with
  | start hconfig => exact ⟨[], .start hconfig⟩
  | call hcall _ ih =>
    obtain ⟨history, hhistory⟩ := ih
    exact ⟨_, hhistory.call hcall⟩

end Engine

/-! ## §3 Properties that go with a history -/

namespace Turn

/-- A listener keeps a property of the history and the engine, and the layout. -/
structure KeepsAlong (Q : List Heard → Engine → Prop) (onVar : Listener) (log : Logger) : Prop where
  layout (t : Turn) (c : Control) (pulse : Pulse) :
    (onVar t c pulse).1.engine.layout = t.engine.layout
  keeps {history : List Heard} (t : Turn) (c : Control) (pulse : Pulse) :
    Q history t.engine → Q (log t c pulse history) (onVar t c pulse).1.engine

/-- A property of the engine alone goes with any history. -/
theorem Keeps.along {P : Engine → Prop} {onVar : Listener} (hvar : Keeps P onVar) (log : Logger) :
    KeepsAlong (fun _ => P) onVar log :=
  ⟨hvar.layout, fun t c pulse ht => hvar.keeps t c pulse ht⟩

/-- A binding that answers a pulse keeps the property, and the answer goes into the history. -/
def AnswerKeeps (Q : List Heard → Engine → Prop) : Prop :=
  ∀ {history : List Heard} {t : Turn} {id : Nat} {b : Binding} {pulse : Pulse} {forced : Bool}
    {latch : Latch} {response : Option Response}, t.engine.bindings[id]? = some b →
    t.Reaches b pulse forced →
    b.latch.respond b.mapping (t.sourceOf b) (t.targetOf b) pulse.down pulse.strength forced =
      (latch, response) →
    Q history t.engine →
    Q (⟨id, pulse.down && !forced, t.engine.sourceDown b⟩ :: history)
      (t.firstStep id b pulse forced latch response).engine

variable {Q : List Heard → Engine → Prop} {onVar : Listener} {log : Logger} {history : List Heard}

theorem relay_along (hvar : KeepsAlong Q onVar log) (t : Turn) (target : Control)
    (echo : Option Pulse) (ht : Q history t.engine) :
    Q (logEcho log target t history echo) (relay onVar target t echo).engine := by
  cases echo with
  | none => exact ht
  | some pulse => exact hvar.keeps t target pulse ht

/-- A walk keeps what its items keep, history and turn together. -/
theorem foldl_logged {α : Type} {P : List Heard → Turn → Prop} {run : Turn → α → Turn}
    {log : Turn → α → List Heard → List Heard} (items : List α)
    (hrun : ∀ {history : List Heard} (t : Turn), ∀ item ∈ items, P history t →
      P (log t item history) (run t item))
    (t : Turn) (ht : P history t) : P (logWalk run log t items history) (items.foldl run t) := by
  induction items generalizing t history with
  | nil => exact ht
  | cons item rest ih =>
    exact ih (fun t item hitem => hrun t item (List.mem_cons_of_mem _ hitem)) _
      (hrun t item List.mem_cons_self ht)

theorem logWalk_keeps {α : Type} {Q : List Heard → Prop} {run : Turn → α → Turn}
    {log : Turn → α → List Heard → List Heard}
    (hlog : ∀ {history : List Heard} t item, Q history → Q (log t item history)) (t : Turn)
    (items : List α) (hhistory : Q history) : Q (logWalk run log t items history) := by
  induction items generalizing t history with
  | nil => exact hhistory
  | cons item rest ih => exact ih _ (hlog t item hhistory)

/-- What an item of a walk brings into the history stays there, if the walk gets to the item and the
others keep it. -/
theorem foldl_reaches {α : Type} {run : Turn → α → Turn}
    {log : Turn → α → List Heard → List Heard} {P : Turn → Prop} {Q : List Heard → Prop} {item : α}
    {items : List α} (hmem : item ∈ items) (hbefore : ∀ t, ∀ other ∈ items, P t → P (run t other))
    (hitem : ∀ {history : List Heard} t, P t → Q (log t item history))
    (hafter : ∀ {history : List Heard} t other, Q history → Q (log t other history))
    (t : Turn) (ht : P t) (history : List Heard) : Q (logWalk run log t items history) := by
  induction items generalizing t history with
  | nil => contradiction
  | cons other rest ih =>
    rcases List.mem_cons.mp hmem with rfl | hrest
    · exact logWalk_keeps hafter _ rest (hitem t ht)
    · exact ih hrest (fun t other hother => hbefore t other (List.mem_cons_of_mem _ hother)) _
        (hbefore t other List.mem_cons_self ht) _

theorem foldl_along {α : Type} {run : Turn → α → Turn} {log : Turn → α → List Heard → List Heard}
    (hrun : ∀ {history : List Heard} (t : Turn) (item : α), Q history t.engine →
      Q (log t item history) (run t item).engine)
    (t : Turn) (items : List α) (ht : Q history t.engine) :
    Q (logWalk run log t items history) (items.foldl run t).engine :=
  foldl_logged (P := fun history t => Q history t.engine) items (fun t item _ => hrun t item) t ht

/-- A pair moves or stays, and so does what is answered. -/
theorem followPair_logged {P : List Heard → Turn → Prop} (pulse : Pulse) {t : Turn} {pair : Control}
    (hstay : P history t)
    (hmove : ∀ down, P (log t pair { pulse with down } history)
      (onVar t pair { pulse with down }).1) :
    P (logPair log pulse t pair history) (followPair onVar pulse t pair).1 := by
  unfold logPair followPair
  cases t.pairState? pair pulse.user with
  | none => exact hstay
  | some down =>
    dsimp only
    by_cases hmoves : (down != t.engine.board.isDown pair pulse.user) = true
    · rw [if_pos hmoves, if_pos hmoves]
      exact hmove down
    · rw [if_neg hmoves, if_neg hmoves]
      exact hstay

theorem followPair_along (hvar : KeepsAlong Q onVar log) (pulse : Pulse) (t : Turn)
    (pair : Control) (ht : Q history t.engine) :
    Q (logPair log pulse t pair history) (followPair onVar pulse t pair).1.engine :=
  followPair_logged (P := fun history t => Q history t.engine) _ ht fun _ => hvar.keeps t pair _ ht

/-- A review releases the binding or leaves it, and so does what is answered. -/
theorem review_logged {P : List Heard → Turn → Prop} {t : Turn} {id : Nat} (hleave : P history t)
    (hrelease : P (t.logRelease log id history) (t.release onVar id)) :
    P (t.logReview log id history) (t.review onVar id) := by
  unfold logReview review
  cases t.engine.bindings[id]? with
  | none => exact hleave
  | some b =>
    dsimp only
    by_cases hfails : (b.latch.isLatched &&
        !b.mapping.allows t.engine.board t.engine.activeUser) = true
    · rw [if_pos hfails, if_pos hfails]
      exact hrelease
    · rw [if_neg hfails, if_neg hfails]
      exact hleave

theorem logFeed_none (room : Nat) (t : Turn) (c : Control) (pulse : Pulse)
    (hline : t.engine.board.line? c = none) : logFeed room t c pulse history = history := by
  cases room with
  | zero => rfl
  | succ room =>
    unfold logFeed
    simp only [hline]

/-- What is answered while a source moves, with room for it: first by the mappings, then where the
pairs lead to, and then by the watchers if the state is new. -/
theorem logFeed_succ (room : Nat) (t : Turn) (c : Control) (pulse : Pulse) {line : Line}
    (hline : t.engine.board.line? c = some line) :
    logFeed (room + 1) t c pulse history =
      let pulse := { pulse with user := t.stateUser c pulse.user }
      let marked := t.mark c pulse.user pulse.down
      let runOne := fun (t : Turn) (id : Nat) => (t.runBinding (feed room) id pulse false).1
      let followOne := fun (t : Turn) (pair : Control) => (followPair (feed room) pulse t pair).1
      let run := line.chain.foldl runOne marked
      let followed := line.pairs.foldl followOne run
      let history := logWalk runOne (fun t id => t.logBinding (logFeed room) id pulse false) marked
        line.chain history
      let history := logWalk followOne (logPair (logFeed room) pulse) run line.pairs history
      if line.moves pulse.user pulse.down then
        logWalk (review (feed room)) (logReview (logFeed room)) followed line.watchers history
      else history := by
  rw [logFeed]
  simp only [hline]

/-- A source that moves, with room for it, keeps what its parts keep: the bindings on the chain, the
pairs that follow, and the releases of the watchers. -/
theorem feed_succ_logged {P : List Heard → Turn → Prop} {room : Nat} {t : Turn} {c : Control}
    {pulse : Pulse} {line : Line} (hline : t.engine.board.line? c = some line)
    (hmark : P history (t.mark c (t.stateUser c pulse.user) pulse.down))
    (hchain : ∀ {history : List Heard} (t' : Turn), ∀ id ∈ line.chain, P history t' →
      P (t'.logBinding (logFeed room) id { pulse with user := t.stateUser c pulse.user } false history)
        (t'.runBinding (feed room) id { pulse with user := t.stateUser c pulse.user } false).1)
    (hpair : ∀ {history : List Heard} (t' : Turn), ∀ pair ∈ line.pairs, ∀ down, P history t' →
      P (logFeed room t' pair ⟨t.stateUser c pulse.user, down, pulse.strength⟩ history)
        (feed room t' pair ⟨t.stateUser c pulse.user, down, pulse.strength⟩).1)
    (hrelease : ∀ {history : List Heard} (t' : Turn) (id : Nat), P history t' →
      P (t'.logRelease (logFeed room) id history) (t'.release (feed room) id)) :
    P (logFeed (room + 1) t c pulse history) (feed (room + 1) t c pulse).1 := by
  rw [feed_succ room t c pulse hline, logFeed_succ room t c pulse hline]
  dsimp only
  have hrun := foldl_logged line.chain hchain _ hmark
  have hfollowed := foldl_logged line.pairs (fun t' pair hmem ht' =>
    followPair_logged { pulse with user := t.stateUser c pulse.user } ht' fun down =>
      hpair t' pair hmem down ht') _ hrun
  split
  · exact foldl_logged line.watchers (fun t' id _ ht' => review_logged ht' (hrelease t' id ht')) _
      hfollowed
  · exact hfollowed

/-- A pulse that does not get through to a binding is not answered. -/
theorem logBinding_of_not_reaches {t : Turn} (log : Logger) {id : Nat} {pulse : Pulse}
    {forced : Bool} (h : ∀ b, t.engine.bindings[id]? = some b → ¬ t.Reaches b pulse forced) :
    t.logBinding log id pulse forced history = history := by
  unfold logBinding
  cases hb : t.engine.bindings[id]? with
  | none => rfl
  | some b =>
    have hrefused := h b hb
    dsimp only
    rw [if_pos]
    unfold Reaches at hrefused
    simp only [not_or, Bool.not_eq_true] at hrefused
    simp [hrefused.1, hrefused.2]

/-- A pulse that gets through to a binding is answered before anything below it. -/
theorem logBinding_of_reaches {t : Turn} (log : Logger) {id : Nat} {b : Binding} {pulse : Pulse}
    {forced : Bool} {latch : Latch} {response : Option Response}
    (hb : t.engine.bindings[id]? = some b) (hreaches : t.Reaches b pulse forced)
    (hrespond : b.latch.respond b.mapping (t.sourceOf b) (t.targetOf b) pulse.down pulse.strength
      forced = (latch, response)) :
    t.logBinding log id pulse forced history =
      logEcho log b.mapping.target (t.firstStep id b pulse forced latch response)
        (⟨id, pulse.down && !forced, t.engine.sourceDown b⟩ :: history)
        (t.firstEcho id b pulse forced latch response) := by
  unfold logBinding
  rw [hb]
  dsimp only
  rw [if_neg, hrespond]
  rcases hreaches with rfl | haccepts
  · simp
  · simp [haccepts]

section

variable (hquiet : ∀ {history : List Heard} {t t' : Turn}, Move t t' → Quiet t t' →
  Q history t.engine → Q history t'.engine)

include hquiet

/-- Running a binding that a pulse gets through to keeps what the quiet moves and the sources below
it keep, once it holds after the answer. -/
theorem runBinding_along_of_firstStep (hvar : KeepsAlong Q onVar log) {t : Turn} {id : Nat}
    {b : Binding} {pulse : Pulse} {forced : Bool} (hb : t.engine.bindings[id]? = some b)
    (hreaches : t.Reaches b pulse forced)
    (hfirst : ∀ latch response, b.latch.respond b.mapping (t.sourceOf b) (t.targetOf b) pulse.down
      pulse.strength forced = (latch, response) →
      Q (⟨id, pulse.down && !forced, t.engine.sourceDown b⟩ :: history)
        (t.firstStep id b pulse forced latch response).engine) :
    Q (t.logBinding log id pulse forced history) (t.runBinding onVar id pulse forced).1.engine := by
  refine runBinding_keeps_of_relay hquiet hvar.layout hb hreaches fun latch response hrespond => ?_
  have hafter := relay_along hvar _ b.mapping.target (t.firstEcho id b pulse forced latch response)
    (hfirst latch response hrespond)
  rw [logBinding_of_reaches log hb hreaches hrespond]
  exact hafter

variable (hanswer : AnswerKeeps Q)

include hanswer

/-- Running a binding keeps what the quiet moves, the answers and the sources below it keep. -/
theorem runBinding_along (hvar : KeepsAlong Q onVar log) (t : Turn) (id : Nat) (pulse : Pulse)
    (forced : Bool) (ht : Q history t.engine) :
    Q (t.logBinding log id pulse forced history)
      (t.runBinding onVar id pulse forced).1.engine := by
  by_cases h : ∃ b, t.engine.bindings[id]? = some b ∧ t.Reaches b pulse forced
  · obtain ⟨b, hb, hreaches⟩ := h
    exact runBinding_along_of_firstStep hquiet hvar hb hreaches fun latch response hrespond =>
      hanswer hb hreaches hrespond ht
  · have hrefused : ∀ b, t.engine.bindings[id]? = some b → ¬ t.Reaches b pulse forced :=
      fun b hb hreaches => h ⟨b, hb, hreaches⟩
    rw [runBinding_of_not_reaches onVar hrefused, logBinding_of_not_reaches log hrefused]
    exact ht

theorem release_along (hvar : KeepsAlong Q onVar log) (t : Turn) (id : Nat)
    (ht : Q history t.engine) :
    Q (t.logRelease log id history) (t.release onVar id).engine :=
  runBinding_along hquiet hanswer hvar t id _ true ht

theorem review_along (hvar : KeepsAlong Q onVar log) (t : Turn) (id : Nat)
    (ht : Q history t.engine) : Q (t.logReview log id history) (t.review onVar id).engine :=
  review_logged (P := fun history t => Q history t.engine) ht
    (release_along hquiet hanswer hvar t id ht)

/-- A source that moves keeps what the quiet moves and the answers keep, if a change of the board
does. -/
theorem feed_along (hmark : ∀ {history : List Heard} (t : Turn) (c : Control) (user : User)
    (down : Bool), Q history t.engine → Q history (t.mark c user down).engine) (room : Nat) :
    KeepsAlong Q (feed room) (logFeed room) := by
  induction room with
  | zero => exact ⟨fun _ _ _ => rfl, fun _ _ _ ht => ht⟩
  | succ room ih =>
    refine ⟨feed_layout (room + 1), fun {history} t c pulse ht => ?_⟩
    cases hline : t.engine.board.line? c with
    | none =>
      rw [feed_none _ t c pulse hline, logFeed_none _ t c pulse hline]
      exact ht
    | some line =>
      exact feed_succ_logged (P := fun history t => Q history t.engine) hline (hmark t c _ _ ht)
        (fun t' id _ ht' => runBinding_along hquiet hanswer ih t' id _ false ht')
        (fun t' pair _ _ ht' => ih.keeps t' pair _ ht')
        fun t' id ht' => release_along hquiet hanswer ih t' id ht'

end

end Turn

end VirtualPad
