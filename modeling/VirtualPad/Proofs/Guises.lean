import VirtualPad.Proofs.Looks

/-!
# Engines in disguise

Some of what an engine knows has no influence on what it does: how often its pads were committed and
when, which number the next timer gets, what the host, the readers and the clock have been told in the
past.  All this is the engine's guise.  An engine may be put under another guise, and then its timers
are known by other tokens throughout: on the clock, in the table and in the latches.

Everything that the engine does within a turn is the same under any guise: doing something and putting
the result under the guise comes to the same as doing it under the guise.  Every lemma here says so of
one definition, in the order in which the definitions build on each other; `feed_under` and
`tick_under` say it of whole turns.
-/

namespace VirtualPad

/-! ## §1 Guises -/

/-- What an engine has behind it: tokens and arming numbers that are used up, and what its clock and
its host have been told. -/
structure Past where
  tokens : TimerToken := 0
  armings : Nat := 0
  requests : Array TimerRequest := #[]
  events : Array HostEvent := #[]

/-- What does not matter for what an engine does.  Its past stays the same, the rest is brought up to
date with every turn. -/
structure Guise extends Past where
  /-- The version and the time of each pad. -/
  labels : User → Nat × Nat
  lastTime : Nat
  snapshots : Array Snapshot

/-- The pad with another version and time. -/
def Pad.relabel (p : Pad) (label : Nat × Nat) : Pad :=
  { p with version := label.1, timestamp := label.2 }

/-- The pads with other versions and times. -/
def PadBank.relabel (b : PadBank) (labels : User → Nat × Nat) : PadBank :=
  { b with pads := Vector.ofFn fun user => b.pads[user].relabel (labels user) }

/-- A latch whose timer is known by a later token. -/
def Latch.shift (l : Latch) (tokens : TimerToken) : Latch :=
  { l with timer := l.timer.map fun (token, kind) => (token + tokens, kind) }

def Binding.shift (b : Binding) (tokens : TimerToken) : Binding :=
  { b with latch := b.latch.shift tokens }

def TimerUse.shift (use : TimerUse) (tokens : TimerToken) : TimerUse :=
  { use with token := use.token + tokens }

def TimerRequest.shift (tokens : TimerToken) : TimerRequest → TimerRequest
  | .once delay token => .once delay (token + tokens)
  | .repeating period token => .repeating period (token + tokens)
  | .cancel token => .cancel (token + tokens)

def Timer.shift (t : Timer) (tokens : TimerToken) (armings : Nat) : Timer :=
  { t with token := t.token + tokens, order := t.order + armings }

def Clock.shift (c : Clock) (tokens : TimerToken) (armings : Nat) : Clock :=
  { c with
    timers := c.timers.map fun t => t.shift tokens armings
    armings := c.armings + armings }

/-- The engine under a guise. -/
def Engine.under (e : Engine) (g : Guise) : Engine :=
  { e with
    bindings := e.bindings.map fun b => b.shift g.tokens
    pads := e.pads.relabel g.labels
    clock := e.clock.shift g.tokens g.armings
    timers := e.timers.map fun use => use.shift g.tokens
    lastToken := e.lastToken + g.tokens
    lastTime := g.lastTime
    journal :=
      { snapshots := g.snapshots
        events := g.events ++ e.journal.events
        requests := g.requests ++ e.journal.requests.map (TimerRequest.shift g.tokens) } }

/-- A turn of an engine under a guise, at any time. -/
def Turn.under (t : Turn) (g : Guise) (time : Nat) : Turn :=
  { t with engine := t.engine.under g, time }

namespace PadBank

variable (b : PadBank) (labels : User → Nat × Nat)

@[simp] theorem pad_relabel (user : User) :
    (b.relabel labels).pad user = (b.pad user).relabel (labels user) := by
  simp [pad, relabel]

@[simp] theorem count_relabel : (b.relabel labels).count = b.count := rfl

/-- A pad is put in place under a label of its own. -/
theorem set_relabel (user : User) (p : Pad) (label : Nat × Nat) :
    (b.relabel labels).set user (p.relabel label) =
      (b.set user p).relabel (Function.update labels user label) := by
  have hpads : ((b.relabel labels).set user (p.relabel label)).pads =
      ((b.set user p).relabel (Function.update labels user label)).pads := by
    apply Vector.ext
    intro place hplace
    by_cases hsame : user.val = place
    · subst hsame
      simp [set, relabel]
    · have hother : (⟨place, hplace⟩ : User) ≠ user := fun h => hsame (congrArg Fin.val h).symm
      simp [set, relabel, hsame, Function.update_of_ne hother]
  exact congrArg (fun pads => ({ pads, count := b.count } : PadBank)) hpads

theorem relabel_set (user : User) (p : Pad) :
    (b.relabel labels).set user (p.relabel (labels user)) = (b.set user p).relabel labels := by
  rw [set_relabel, Function.update_eq_self]

end PadBank

namespace Engine

variable (e : Engine) (g : Guise)

@[simp] theorem settings_under : (e.under g).settings = e.settings := rfl
@[simp] theorem vocabulary_under : (e.under g).vocabulary = e.vocabulary := rfl
@[simp] theorem board_under : (e.under g).board = e.board := rfl
@[simp] theorem outputs_under : (e.under g).outputs = e.outputs := rfl
@[simp] theorem queue_under : (e.under g).queue = e.queue := rfl
@[simp] theorem activeUser_under : (e.under g).activeUser = e.activeUser := rfl
@[simp] theorem disabled_under : (e.under g).disabled = e.disabled := rfl
@[simp] theorem pads_under : (e.under g).pads = e.pads.relabel g.labels := rfl
@[simp] theorem descriptor_under (c : Control) : (e.under g).descriptor c = e.descriptor c := rfl
@[simp] theorem userCount_under : (e.under g).userCount = e.userCount := rfl

@[simp] theorem targetUsers_under (ref : UserRef) :
    (e.under g).targetUsers ref = e.targetUsers ref := by
  cases ref <;> rfl

@[simp] theorem size_under : (e.under g).bindings.size = e.bindings.size := by
  simp [under]

@[simp] theorem getElem?_under (id : Nat) :
    (e.under g).bindings[id]? = (e.bindings[id]?).map fun b => b.shift g.tokens := by
  simp [under]

@[simp] theorem latch_under (id : Nat) :
    (e.under g).latch id = (e.latch id).shift g.tokens := by
  unfold latch
  rw [getElem?_under]
  cases e.bindings[id]? <;> rfl

/-! ## §2 Latches and timers -/

/-- What is done to a latch may be done under a guise, if it goes with the later tokens. -/
theorem mapLatch_under (id : Nat) {change change' : Latch → Latch}
    (h : ∀ l, change' (l.shift g.tokens) = (change l).shift g.tokens) :
    (e.under g).mapLatch id change' = (e.mapLatch id change).under g := by
  have hbindings : (e.bindings.map fun b => b.shift g.tokens).modify id
      (fun b => { b with latch := change' b.latch }) =
      (e.bindings.modify id fun b => { b with latch := change b.latch }).map
        fun b => b.shift g.tokens := by
    apply Array.ext
    · simp
    · intro place hleft hright
      by_cases hsame : id = place <;> simp [Array.getElem_modify, hsame, Binding.shift, h]
  unfold mapLatch mapBinding under
  rw [← hbindings]

end Engine

namespace Clock

variable (c : Clock) (tokens : TimerToken) (armings : Nat)

theorem cancel_shift (token : TimerToken) :
    (c.shift tokens armings).cancel (token + tokens) = (c.cancel token).shift tokens armings := by
  have htimers : (c.timers.map fun t => t.shift tokens armings).filter
      (fun t => t.token != token + tokens) =
      (c.timers.filter fun t => t.token != token).map fun t => t.shift tokens armings := by
    rw [List.filter_map]
    congr 1
    apply List.filter_congr
    intro t _
    simp [Timer.shift, bne]
  unfold cancel shift
  rw [← htimers]

theorem arm_shift (token : TimerToken) (due : Nanoseconds) (period : Option Nanoseconds) :
    (c.shift tokens armings).arm (token + tokens) due period =
      (c.arm token due period).shift tokens armings := by
  unfold arm
  rw [cancel_shift]
  simp [shift, cancel, Timer.shift, Nat.add_right_comm]

theorem once_shift (delay : Nanoseconds) (token : TimerToken) :
    (c.shift tokens armings).once delay (token + tokens) =
      (c.once delay token).shift tokens armings := arm_shift ..

theorem repeating_shift (period : Nanoseconds) (token : TimerToken) :
    (c.shift tokens armings).repeating period (token + tokens) =
      (c.repeating period token).shift tokens armings := arm_shift ..

end Clock

namespace Engine

variable (e : Engine) (g : Guise)

theorem ask_under (request : TimerRequest) :
    (e.under g).ask (request.shift g.tokens) = (e.ask request).under g := by
  have hclock : ((e.under g).ask (request.shift g.tokens)).clock =
      (e.ask request).clock.shift g.tokens g.armings := by
    cases request with
    | once delay token => exact e.clock.once_shift g.tokens g.armings delay token
    | repeating period token => exact e.clock.repeating_shift g.tokens g.armings period token
    | cancel token => exact e.clock.cancel_shift g.tokens g.armings token
  have hengine : (e.under g).ask (request.shift g.tokens) =
      { e.under g with
        clock := ((e.under g).ask (request.shift g.tokens)).clock
        journal := ((e.ask request).under g).journal } := by
    simp [ask, under]
  rw [hengine, hclock]
  rfl

theorem dropTimer_under (token : TimerToken) :
    (e.under g).dropTimer (token + g.tokens) = (e.dropTimer token).under g := by
  have htimers : (e.timers.map fun use => use.shift g.tokens).filter
      (fun use => use.token != token + g.tokens) =
      (e.timers.filter fun use => use.token != token).map fun use => use.shift g.tokens := by
    rw [List.filter_map]
    congr 1
    apply List.filter_congr
    intro use _
    simp [TimerUse.shift, bne]
  unfold dropTimer under
  rw [← htimers]

theorem forgetTimer_under (id : Nat) (token : TimerToken) :
    (e.under g).forgetTimer id (token + g.tokens) = (e.forgetTimer id token).under g := by
  unfold forgetTimer
  rw [dropTimer_under]
  apply mapLatch_under
  intro l
  rfl

@[simp] theorem stopTimer_under (id : Nat) :
    (e.under g).stopTimer id = (e.stopTimer id).under g := by
  unfold stopTimer
  rw [latch_under]
  cases htimer : (e.latch id).timer with
  | none => simp [Latch.shift, htimer]
  | some timer =>
    obtain ⟨token, kind⟩ := timer
    have hcancel := e.ask_under g (.cancel token)
    simp only [Latch.shift, htimer, Option.map_some]
    rw [← forgetTimer_under, ← hcancel]
    rfl

theorem startTimer_under (id : Nat) (kind : TimerKind) {request : TimerToken → TimerRequest}
    (h : ∀ token, request (token + g.tokens) = (request token).shift g.tokens) :
    (e.under g).startTimer id kind request = (e.startTimer id kind request).under g := by
  unfold startTimer
  rw [stopTimer_under]
  generalize e.stopTimer id = e
  have htoken : (e.under g).lastToken + 1 = e.lastToken + 1 + g.tokens :=
    Nat.add_right_comm ..
  simp only [htoken, h]
  rw [ask_under]
  -- The new entry of the table is the shifted one.
  exact mapLatch_under { e.ask (request (e.lastToken + 1)) with
    lastToken := e.lastToken + 1
    timers := { token := e.lastToken + 1, binding := id, kind } ::
      (e.ask (request (e.lastToken + 1))).timers } g id fun l => rfl

@[simp] theorem followPlan_under (id : Nat) (plan : TimerPlan) :
    (e.under g).followPlan id plan = (e.followPlan id plan).under g := by
  cases plan with
  | keep => rfl
  | stop => exact stopTimer_under e g id
  | once | repeating => exact startTimer_under e g id _ fun token => rfl

@[simp] theorem lapse_under (use : TimerUse) :
    (e.under g).lapse (use.shift g.tokens) = (e.lapse use).under g := by
  cases hkind : use.kind with
  | release => simpa [lapse, TimerUse.shift, hkind] using forgetTimer_under e g _ _
  | keyRepeatDelay =>
    simpa [lapse, TimerUse.shift, hkind] using startTimer_under e g _ _ fun token => rfl
  | _ => simp [lapse, TimerUse.shift, hkind]

theorem timerUse?_under (token : TimerToken) :
    (e.under g).timerUse? (token + g.tokens) = (e.timerUse? token).map fun use =>
      use.shift g.tokens := by
  have hfind : ∀ uses : List TimerUse, (uses.map fun use => use.shift g.tokens).find?
      (fun use => use.token == token + g.tokens) =
      (uses.find? fun use => use.token == token).map fun use => use.shift g.tokens := by
    intro uses
    rw [List.find?_map]
    congr 2
    funext use
    simp [TimerUse.shift]
  exact hfind e.timers

end Engine

/-! ## §3 Pads -/

namespace Turn

variable (t : Turn) (g : Guise) (time : Nat)

@[simp] theorem engine_under : (t.under g time).engine = t.engine.under g := rfl

theorem ite_under (c : Prop) [Decidable c] (t t' : Turn) :
    (if c then t else t').under g time = if c then t.under g time else t'.under g time :=
  apply_ite (fun t : Turn => t.under g time) c t t'

/-- What is done under a guise step by step is done under it as a whole. -/
theorem foldl_under {α : Type} {run : Turn → α → Turn}
    (hrun : ∀ t item, run (t.under g time) item = (run t item).under g time) (items : List α) :
    items.foldl run (t.under g time) = (items.foldl run t).under g time := by
  induction items generalizing t with
  | nil => rfl
  | cons item rest ih => rw [List.foldl_cons, List.foldl_cons, hrun, ih]

theorem mapEngine_under {change change' : Engine → Engine}
    (h : change' (t.engine.under g) = (change t.engine).under g) :
    (t.under g time).mapEngine change' = (t.mapEngine change).under g time := by
  simp only [mapEngine, under, h]

theorem mapLatch_under (id : Nat) {change change' : Latch → Latch}
    (h : ∀ l, change' (l.shift g.tokens) = (change l).shift g.tokens) :
    (t.under g time).mapLatch id change' = (t.mapLatch id change).under g time :=
  mapEngine_under t g time (Engine.mapLatch_under t.engine g id h)

theorem noteChange_under (user : User) :
    (t.under g time).noteChange user = (t.noteChange user).under g time := by
  by_cases hnoted : t.changed.contains user
  · rw [noteChange, noteChange, if_pos hnoted]
    exact if_pos hnoted
  · rw [noteChange, noteChange, if_neg hnoted]
    exact if_neg hnoted

/-- The same is written to a pad, whatever its version. -/
theorem updatePad_under (user : User) {change : Pad → Pad × Bool}
    (h : ∀ p label, change (p.relabel label) = ((change p).1.relabel label, (change p).2)) :
    (t.under g time).updatePad user change = (t.updatePad user change).under g time := by
  have hpads : (t.under g time).mapEngine (fun e =>
        { e with pads := e.pads.set user ((change (t.engine.pads.pad user)).1.relabel
          (g.labels user)) }) =
      (t.mapEngine fun e =>
        { e with pads := e.pads.set user (change (t.engine.pads.pad user)).1 }).under g time := by
    apply mapEngine_under
    simp only [Engine.pads_under, PadBank.relabel_set]
    rfl
  simp only [updatePad, engine_under, Engine.pads_under, PadBank.pad_relabel, h]
  rw [hpads]
  split
  · exact noteChange_under ..
  · rfl

theorem updatePads_under (users : List User) {change : Pad → Pad × Bool}
    (h : ∀ p label, change (p.relabel label) = ((change p).1.relabel label, (change p).2)) :
    (t.under g time).updatePads users change = (t.updatePads users change).under g time := by
  apply foldl_under
  intro t user
  exact updatePad_under t g time user h

/-! ## §4 Targets -/

/-- What is answered beside the turn does not depend on the guise. -/
def underFst {α : Type} (r : Turn × α) : Turn × α := (r.1.under g time, r.2)

theorem writeOutput_under (kind : OutputKind) (target : Control) (slot : Slot)
    (down replaces : Bool) : (t.under g time).writeOutput kind target slot down replaces =
      underFst g time (t.writeOutput kind target slot down replaces) := by
  unfold writeOutput
  rw [engine_under, Engine.outputs_under]
  cases t.engine.outputs[target]? with
  | none => rfl
  | some before => cases kind <;> dsimp only [underFst] <;> first | rfl | (split <;> rfl)

theorem writeTarget_under (id : Nat) (source target : Descriptor) (down : Bool) (strength : Float) :
    (t.under g time).writeTarget id source target down strength =
      underFst g time (t.writeTarget id source target down strength) := by
  unfold writeTarget
  rw [engine_under, Engine.getElem?_under]
  cases t.engine.bindings[id]? with
  | none => rfl
  | some b =>
    dsimp only [Option.map_some, Binding.shift, Latch.shift]
    cases target.cell with
    | motion dx dy | wheel dx dy => dsimp only; split <;> rfl
    | pad cell =>
      cases b.slot with
      | none => rfl
      | some slot =>
        -- Whatever is written to a pad, its label is not looked at.
        dsimp only
        rw [updatePads_under]
        · rfl
        · intro p label
          cases cell <;> rfl
    | output kind =>
      cases b.slot with
      | none => rfl
      | some slot => exact writeOutput_under ..
    | inert | rotator | command | connective => rfl

/-- A listener that does not care for guises. -/
def Blind (onVar : Listener) : Prop :=
  ∀ t c pulse, onVar (t.under g time) c pulse = underFst g time (onVar t c pulse)

theorem relay_under {onVar : Listener} (hvar : Blind g time onVar) (target : Control)
    (echo : Option Pulse) :
    relay onVar target (t.under g time) echo = (relay onVar target t echo).under g time := by
  cases echo with
  | none => rfl
  | some pulse => exact congrArg Prod.fst (hvar t target pulse)

/-! ## §5 Bindings -/

theorem giveCommand_under (id : Nat) (command : Command) (r : Response) (forced : Bool) :
    (t.under g time).giveCommand id command r forced =
      (t.giveCommand id command r forced).under g time := by
  unfold giveCommand
  rw [engine_under, Engine.getElem?_under]
  cases t.engine.bindings[id]? with
  | none => rfl
  | some b =>
    dsimp only [Option.map_some, Binding.shift, Latch.shift]
    rw [Engine.targetUsers_under, ite_under, foldl_under]
    intro t user
    rfl

theorem rise_under (id : Nat) (m : Mapping) (target : Descriptor) (user : User) :
    (t.under g time).rise id m target user = (t.rise id m target user).under g time := by
  have hlatch : (t.under g time).mapLatch id (fun l =>
      { l with sourceUser := user, applied := t.engine.targetUsers m.targetUser }) =
      (t.mapLatch id fun l =>
        { l with sourceUser := user, applied := t.engine.targetUsers m.targetUser }).under g time :=
    mapLatch_under t g time id fun l => rfl
  unfold rise
  simp only [engine_under, Engine.targetUsers_under, hlatch]
  cases target.padCell? with
  | none => rfl
  | some cell =>
    dsimp only
    split
    · apply updatePads_under
      intro p label
      cases cell <;> rfl
    · rfl

theorem perform_under (id : Nat) (m : Mapping) (source target : Descriptor) (user : User)
    (r : Response) (forced : Bool) : (t.under g time).perform id m source target user r forced =
      underFst g time (t.perform id m source target user r forced) := by
  unfold perform
  -- Three things are done one after the other; only the last one gives an answer.
  rw [rise_under, ← ite_under]
  generalize (if r.now && !r.was then t.rise id m target user else t) = t
  have hstrength : (t.under g time).mapLatch id (fun l => { l with strength := r.strength }) =
      (t.mapLatch id fun l => { l with strength := r.strength }).under g time :=
    mapLatch_under t g time id fun l => rfl
  dsimp only
  rw [hstrength, ← ite_under]
  generalize (if r.now then t.mapLatch id fun l => { l with strength := r.strength } else t) = set
  have hlit : ((set.under g time).engine.latch id).lit = (set.engine.latch id).lit := by
    simp [Latch.shift]
  rw [hlit, writeTarget_under]
  cases target.cell with
  | command command => exact Prod.ext (giveCommand_under t g time id command r forced) rfl
  | _ =>
    dsimp only
    split <;> rfl

theorem settle_under (id : Nat) (m : Mapping) (source target : Descriptor) (r : Response) :
    (t.under g time).settle id m source target r =
      (t.settle id m source target r).under g time := by
  unfold settle
  simp only [engine_under, Engine.settings_under]
  generalize m.timerPlan source target t.engine.settings r.was r.now = plan
  have hplan : (t.under g time).mapEngine (fun e => e.followPlan id plan) =
      (t.mapEngine fun e => e.followPlan id plan).under g time :=
    mapEngine_under t g time (Engine.followPlan_under t.engine g id plan)
  rw [hplan, ite_under]
  congr 1
  exact mapLatch_under _ g time id fun l => rfl

theorem carryOut_under {onVar : Listener} (hvar : Blind g time onVar) (id : Nat) (m : Mapping)
    (source target : Descriptor) (user : User) (forced : Bool) (response : Option Response) :
    (t.under g time).carryOut onVar id m source target user forced response =
      (t.carryOut onVar id m source target user forced response).under g time := by
  cases response with
  | none => rfl
  | some r =>
    simp only [carryOut, perform_under, underFst]
    rw [relay_under _ g time hvar, settle_under]

theorem accepts_under (b : Binding) (source target : Descriptor) (pulse : Pulse) :
    (t.under g time).accepts (b.shift g.tokens) source target pulse =
      t.accepts b source target pulse := by
  simp [accepts, Binding.shift, Latch.shift, Latch.isLatched]

/-- A latch answers a pulse without looking at its timer. -/
theorem respond_shift (l : Latch) (tokens : TimerToken) (m : Mapping) (source target : Descriptor)
    (down : Bool) (strength : Float) (forced : Bool) :
    (l.shift tokens).respond m source target down strength forced =
      ((l.respond m source target down strength forced).1.shift tokens,
        (l.respond m source target down strength forced).2) := by
  have hwanted : (l.shift tokens).wanted m down forced = l.wanted m down forced := rfl
  have hswitched : (l.shift tokens).switched m down forced = l.switched m down forced := rfl
  have hactive : (l.shift tokens).active = l.active := rfl
  simp only [Latch.respond, hwanted, hswitched, hactive]
  split
  · rfl
  · split
    · rfl
    · split <;> rfl

theorem runBinding_under {onVar : Listener} (hvar : Blind g time onVar) (id : Nat) (pulse : Pulse)
    (forced : Bool) : (t.under g time).runBinding onVar id pulse forced =
      underFst g time (t.runBinding onVar id pulse forced) := by
  unfold runBinding
  rw [engine_under, Engine.getElem?_under]
  cases t.engine.bindings[id]? with
  | none => rfl
  | some b =>
    have hmapping : (b.shift g.tokens).mapping = b.mapping := rfl
    have hlatch : (b.shift g.tokens).latch = b.latch.shift g.tokens := rfl
    simp only [Option.map_some, Engine.descriptor_under, accepts_under, hmapping, hlatch,
      respond_shift]
    split
    · rfl
    · generalize b.latch.respond b.mapping (t.engine.descriptor b.mapping.source)
        (t.engine.descriptor b.mapping.target) pulse.down pulse.strength forced = answer
      have hlatched : (t.under g time).mapLatch id (fun _ => answer.1.shift g.tokens) =
          (t.mapLatch id fun _ => answer.1).under g time := mapLatch_under t g time id fun l => rfl
      rw [hlatched, carryOut_under _ g time hvar]
      rfl

theorem release_under {onVar : Listener} (hvar : Blind g time onVar) (id : Nat) :
    (t.under g time).release onVar id = (t.release onVar id).under g time := by
  have huser : ((t.engine.under g).latch id).sourceUser = (t.engine.latch id).sourceUser := by
    simp [Latch.shift]
  unfold release
  rw [engine_under, huser]
  exact congrArg Prod.fst (runBinding_under t g time hvar id _ true)

theorem review_under {onVar : Listener} (hvar : Blind g time onVar) (id : Nat) :
    (t.under g time).review onVar id = (t.review onVar id).under g time := by
  unfold review
  rw [engine_under, Engine.getElem?_under]
  cases t.engine.bindings[id]? with
  | none => rfl
  | some b =>
    have hlatched : (b.shift g.tokens).latch.isLatched = b.latch.isLatched := by
      simp [Binding.shift, Latch.shift, Latch.isLatched]
    have hallows : (b.shift g.tokens).mapping = b.mapping := rfl
    simp only [Option.map_some, hlatched, hallows, Engine.board_under, Engine.activeUser_under]
    rw [release_under t g time hvar, ite_under]

/-! ## §6 Sources -/

theorem followPair_under {onPair : Listener} (hpair : Blind g time onPair) (pulse : Pulse)
    (pair : Control) : followPair onPair pulse (t.under g time) pair =
      underFst g time (followPair onPair pulse t pair) := by
  have hstate : (t.under g time).pairState? pair pulse.user = t.pairState? pair pulse.user := rfl
  unfold followPair
  rw [hstate]
  cases t.pairState? pair pulse.user with
  | none => rfl
  | some down =>
    dsimp only
    rw [engine_under, Engine.board_under]
    split
    · exact hpair t pair _
    · rfl

theorem sweep_under {α : Type} {run : Turn → α → Turn × Bool}
    (hrun : ∀ t item, run (t.under g time) item = underFst g time (run t item)) (items : List α) :
    sweep run (t.under g time) items = underFst g time (sweep run t items) := by
  suffices h : ∀ r : Turn × Bool,
      items.foldl (fun r item => ((run r.1 item).1, r.2 || (run r.1 item).2)) (underFst g time r) =
        underFst g time
          (items.foldl (fun r item => ((run r.1 item).1, r.2 || (run r.1 item).2)) r) from
    h (t, false)
  induction items with
  | nil => exact fun r => rfl
  | cons item rest ih =>
    intro r
    rw [List.foldl_cons, List.foldl_cons, ← ih]
    simp only [underFst, hrun]

theorem mark_under (c : Control) (user : User) (down : Bool) :
    (t.under g time).mark c user down = (t.mark c user down).under g time := rfl

/-- **A source moves** in the same way under any guise. -/
theorem feed_under (room : Nat) : Blind g time (feed room) := by
  -- What a binding or a pair feeds has less room left.
  induction room with
  | zero => exact fun t c pulse => rfl
  | succ room ih =>
    intro t c pulse
    have huser : (t.under g time).stateUser c pulse.user = t.stateUser c pulse.user := rfl
    unfold feed
    simp only [huser, engine_under, Engine.board_under, mark_under]
    cases t.engine.board.line? c with
    | none => rfl
    | some line =>
      have hrun : ∀ pulse (t : Turn), sweep (fun t id => t.runBinding (feed room) id pulse false)
          (t.under g time) line.chain = underFst g time
            (sweep (fun t id => t.runBinding (feed room) id pulse false) t line.chain) :=
        fun pulse t => sweep_under t g time
          (fun t id => runBinding_under t g time ih id pulse false) line.chain
      have hfollowed : ∀ pulse (t : Turn), sweep (followPair (feed room) pulse) (t.under g time)
          line.pairs = underFst g time (sweep (followPair (feed room) pulse) t line.pairs) :=
        fun pulse t => sweep_under t g time (fun t pair => followPair_under t g time ih pulse pair)
          line.pairs
      have hreviewed : ∀ t : Turn, line.watchers.foldl (review (feed room)) (t.under g time) =
          (line.watchers.foldl (review (feed room)) t).under g time :=
        fun t => foldl_under t g time (fun t id => review_under t g time ih id) line.watchers
      simp only [hrun, hfollowed, hreviewed, underFst, ite_under]

theorem listen_under : Blind g time listen := feed_under g time cascadeRoom

/-! ## §7 Ticks -/

theorem blink_under (id : Nat) (source target : Descriptor) :
    (t.under g time).blink id source target = underFst g time (t.blink id source target) := by
  have hlatch : (t.under g time).mapLatch id (fun l => { l with lit := !l.lit }) =
      (t.mapLatch id fun l => { l with lit := !l.lit }).under g time :=
    mapLatch_under t g time id fun l => rfl
  unfold blink
  rw [hlatch]
  generalize t.mapLatch id (fun l => { l with lit := !l.lit }) = t
  have hfacts : ((t.under g time).engine.latch id).active = (t.engine.latch id).active ∧
      ((t.under g time).engine.latch id).lit = (t.engine.latch id).lit ∧
      ((t.under g time).engine.latch id).strength = (t.engine.latch id).strength := by
    simp [Latch.shift]
  obtain ⟨hactive, hlit, hstrength⟩ := hfacts
  simp only [hactive, hlit, hstrength, writeTarget_under]
  split <;> rfl

theorem endHold_under (id : Nat) : (t.under g time).endHold id = (t.endHold id).under g time := by
  have huser : ((t.engine.under g).latch id).sourceUser = (t.engine.latch id).sourceUser := by
    simp [Latch.shift]
  unfold endHold
  rw [engine_under, huser]
  exact congrArg Prod.fst (runBinding_under t g time (listen_under g time) id _ false)

theorem goOn_under (id : Nat) (target : Descriptor) :
    (t.under g time).goOn id target = (t.goOn id target).under g time := by
  unfold goOn
  rw [engine_under, Engine.getElem?_under]
  cases t.engine.bindings[id]? with
  | none => rfl
  | some b =>
    dsimp only [Option.map_some, Binding.shift, Latch.shift]
    cases target.cell with
    | motion dx dy | wheel dx dy => rfl
    | pad cell =>
      cases b.slot with
      | none => rfl
      | some slot =>
        dsimp only
        rw [updatePads_under, ite_under]
        · rfl
        · intro p label
          cases cell <;> rfl
    | inert | output | rotator | command | connective => rfl

theorem turnStick_under (id : Nat) (target : Descriptor) :
    (t.under g time).turnStick id target = (t.turnStick id target).under g time := by
  unfold turnStick
  rw [engine_under, Engine.getElem?_under]
  cases t.engine.bindings[id]? with
  | none => rfl
  | some b =>
    cases target.cell with
    | rotator stick clockwise =>
      dsimp only [Option.map_some, Binding.shift, Latch.shift]
      apply updatePads_under
      intro p label
      rfl
    | _ => rfl

theorem repeatKey_under (id : Nat) (target : Descriptor) :
    (t.under g time).repeatKey id target = (t.repeatKey id target).under g time := by
  unfold repeatKey
  rw [engine_under, Engine.getElem?_under]
  cases t.engine.bindings[id]? with
  | none => rfl
  | some b =>
    dsimp only [Option.map_some, Binding.shift]
    rw [Engine.outputs_under, ite_under]
    rfl

/-- **A timer goes off** in the same way under any guise. -/
theorem tick_under (use : TimerUse) :
    (t.under g time).tick (use.shift g.tokens) = (t.tick use).under g time := by
  have hlapse : (t.under g time).mapEngine (fun e => e.lapse (use.shift g.tokens)) =
      (t.mapEngine fun e => e.lapse use).under g time :=
    mapEngine_under t g time (Engine.lapse_under t.engine g use)
  have hplace : (use.shift g.tokens).binding = use.binding := rfl
  have hkind : (use.shift g.tokens).kind = use.kind := rfl
  unfold tick
  -- The binding is found by its place, and forgets the timer before anything else happens.
  simp only [engine_under, hplace, hkind, Engine.getElem?_under]
  cases t.engine.bindings[use.binding]? with
  | none => rfl
  | some b =>
    have hmapping : (b.shift g.tokens).mapping = b.mapping := rfl
    simp only [Option.map_some, hmapping, Engine.descriptor_under, hlapse]
    generalize t.mapEngine (fun e => e.lapse use) = lapsed
    cases use.kind with
    | turbo =>
      simp only [blink_under, underFst]
      exact relay_under _ g time (listen_under g time) _ _
    | release => exact endHold_under ..
    | repeating => exact goOn_under ..
    | rotate => exact turnStick_under ..
    | keyRepeatDelay | keyRepeat => exact repeatKey_under ..

/-! ## §8 Releases -/

theorem forceRelease_under (id : Nat) : Engine.forceRelease (t.under g time) id =
    (Engine.forceRelease t id).under g time := by
  have hlatched : ((t.engine.under g).latch id).isLatched = (t.engine.latch id).isLatched := by
    simp [Latch.shift, Latch.isLatched]
  unfold Engine.forceRelease
  rw [engine_under, hlatched, release_under t g time (listen_under g time), ← ite_under]
  exact mapEngine_under _ g time (Engine.stopTimer_under _ g id)

end Turn

end VirtualPad
