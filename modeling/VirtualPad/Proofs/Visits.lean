import VirtualPad.Proofs.Cascades

/-!
# What an engine comes by

In the course of a call the engine looks things up by number: the binding that a chain lists, the
pad of a user, a part of a pad.  It claims slots.  And it hears sources, at various depths.  The
*visits* of a call are all of these in order.

The engine does not note its visits.  The definitions here go along with a run and write them down:
each reads the engine just before something happens and leaves it alone.  A number is written down as
it is found, together with how many things there are to be looked up, whether or not it is one of
theirs.
-/

namespace VirtualPad

/-- Something that the engine comes by. -/
inductive Visit where
  /-- A source is heard, as going down or up, with so much room for what it leads to.  With no room
  left it is cut off.  If the source is a variable that is written to, `shown` is what it shows. -/
  | source (c : Control) (room : Nat) (down : Bool) (shown : Option Bool)
  /-- A binding is looked up among so many. -/
  | binding (id count : Nat)
  /-- The pad of a user is looked up. -/
  | pad (user : Nat)
  /-- A part of a pad is looked up among so many of its kind. -/
  | part (index count : Nat)
  /-- A slot is claimed, and it is taken already or not. -/
  | claim (taken : Bool)
  deriving DecidableEq, Repr

/-- The part of a pad that a cell belongs to: a button, a trigger or a stick. -/
def PadCell.part : PadCell → Visit
  | .button index => .part index 15
  | .trigger index | .triggerModifier index => .part index 2
  | .direction stick _ _ | .diagonal stick _ _ => .part stick 2
  | .stickModifier stick | .rotateModifier stick => .part stick 2

/-- The same part is looked up on the pads of several users. -/
def visitsPads (users : List Nat) (part : Visit) : List Visit :=
  users.flatMap fun user => [.pad user, part]

namespace Engine

/-- What a variable shows, if it is one that is written to: whether any of its slots presses it. -/
def shown? (e : Engine) (c : Control) : Option Bool :=
  if (e.descriptor c).cell = .output .var then (e.outputs[c]?).map ButtonCell.pressed else none

end Engine

/-! ## §1 Cascades -/

namespace Turn

/-- What something that hears of a pulse of a control comes by. -/
abbrev Scout := Turn → Control → Pulse → List Visit

/-- A variable may have moved. -/
def visitsEcho (scout : Scout) (target : Control) (t : Turn) : Option Pulse → List Visit
  | none => []
  | some pulse => scout t target pulse

/-- A binding comes into effect: with the reset option its cells are cleared of what was built up. -/
def visitsRise (t : Turn) (m : Mapping) (target : Descriptor) : List Visit :=
  match target.padCell? with
  | some cell =>
    if m.options.reset then visitsPads ((t.engine.targetUsers m.targetUser).map Fin.val) cell.part
    else []
  | none => []

/-- The pads that a binding is applied to are written. -/
def visitsWrite (t : Turn) (id : Nat) (target : Descriptor) : List Visit :=
  match t.engine.bindings[id]? with
  | none => []
  | some b => match target.cell, b.slot with
    | .pad cell, some _ => visitsPads (b.latch.applied.map Fin.val) cell.part
    | _, _ => []

def visitsPerform (t : Turn) (id : Nat) (m : Mapping) (target : Descriptor) (user : User)
    (r : Response) : List Visit :=
  let rises := r.now && !r.was
  let risen := if rises then t.rise id m target user else t
  (if rises then t.visitsRise m target else []) ++
    match target.cell with
    | .command _ => []
    | _ => if r.emits then risen.visitsWrite id target else []

/-- The first step of what a response brings about. -/
def visitsFirst (t : Turn) (id : Nat) (b : Binding) (pulse : Pulse) (latch : Latch) :
    Option Response → List Visit
  | none => []
  | some r => (t.mapLatch id fun _ => latch).visitsPerform id b.mapping (t.targetOf b) pulse.user r

/-- A binding runs: it is looked up, and if a pulse gets through to it, the response is carried out
and a variable that changes moves. -/
def visitsBinding (scout : Scout) (t : Turn) (id : Nat) (pulse : Pulse) (forced : Bool) :
    List Visit :=
  .binding id t.engine.bindings.size :: match t.engine.bindings[id]? with
    | none => []
    | some b =>
      if !forced && !t.accepts b (t.sourceOf b) (t.targetOf b) pulse then []
      else
        let (latch, response) := b.latch.respond b.mapping (t.sourceOf b) (t.targetOf b) pulse.down
          pulse.strength forced
        t.visitsFirst id b pulse latch response ++
          visitsEcho scout b.mapping.target (t.firstStep id b pulse forced latch response)
            (t.firstEcho id b pulse forced latch response)

def visitsRelease (scout : Scout) (t : Turn) (id : Nat) : List Visit :=
  let user := (t.engine.latch id).sourceUser
  t.visitsBinding scout id { user, down := false, strength := 0 } true

def visitsReview (scout : Scout) (t : Turn) (id : Nat) : List Visit :=
  .binding id t.engine.bindings.size :: match t.engine.bindings[id]? with
    | none => []
    | some b =>
      if b.latch.isLatched && !b.mapping.allows t.engine.board t.engine.activeUser then
        t.visitsRelease scout id
      else []

def visitsPair (scout : Scout) (pulse : Pulse) (t : Turn) (pair : Control) : List Visit :=
  match t.pairState? pair pulse.user with
  | none => []
  | some down =>
    if down != t.engine.board.isDown pair pulse.user then scout t pair { pulse with down } else []

/-- One thing is done after another. -/
def visitsWalk {σ α : Type} (run : σ → α → σ) (visits : σ → α → List Visit) :
    σ → List α → List Visit
  | _, [] => []
  | s, item :: rest => visits s item ++ visitsWalk run visits (run s item) rest

/-- A source is heard. -/
def hearing (t : Turn) (c : Control) (room : Nat) (pulse : Pulse) : Visit :=
  .source c room pulse.down (t.engine.shown? c)

/-- A source moves. -/
def visitsFeed : Nat → Scout
  | 0, t, c, pulse => [t.hearing c 0 pulse]
  | room + 1, t, c, pulse =>
    t.hearing c (room + 1) pulse :: match t.engine.board.line? c with
      | none => []
      | some line =>
        let own := t.own c pulse
        visitsWalk (fun t id => (t.runBinding (feed room) id own false).1)
            (fun t id => t.visitsBinding (visitsFeed room) id own false)
            (t.mark c own.user own.down) line.chain ++
          visitsWalk (fun t pair => (followPair (feed room) own t pair).1)
            (visitsPair (visitsFeed room) own) (runChain room t c line own).1 line.pairs ++
          if line.moves own.user own.down then
            visitsWalk (review (feed room)) (visitsReview (visitsFeed room))
              (runPairs room t c line own).1 line.watchers
          else []

/-- A timer goes off. -/
def visitsTick (t : Turn) (use : TimerUse) : List Visit :=
  let id := use.binding
  .binding id t.engine.bindings.size :: match t.engine.bindings[id]? with
    | none => []
    | some b =>
      let target := t.targetOf b
      let lapsed := t.mapEngine fun e => e.lapse use
      match use.kind with
      | .turbo =>
        (if target.isCommand then [] else t.visitsWrite id target) ++
          visitsEcho (visitsFeed cascadeRoom) b.mapping.target
            (lapsed.blink id (t.sourceOf b) target).1 (lapsed.blink id (t.sourceOf b) target).2
      | .release =>
        let user := (lapsed.engine.latch id).sourceUser
        lapsed.visitsBinding (visitsFeed cascadeRoom) id { user, down := false, strength := 0 } false
      | .repeating => if b.mapping.options.add then t.visitsWrite id target else []
      | .rotate => match target.cell with
        | .rotator stick _ =>
          visitsPads (b.latch.applied.map Fin.val) (PadCell.stickModifier stick).part
        | _ => []
      | .keyRepeatDelay | .keyRepeat => []

end Turn

/-! ## §2 Calls -/

namespace Engine

def visitsForceRelease (t : Turn) (id : Nat) : List Visit :=
  .binding id t.engine.bindings.size ::
    if (t.engine.latch id).isLatched then t.visitsRelease (Turn.visitsFeed cascadeRoom) id else []

/-- Everything is released, and then the pads in use. -/
def visitsForceReleaseAll (e : Engine) (time : Nat) : List Visit :=
  Turn.visitsWalk forceRelease visitsForceRelease { engine := e, time }
      (List.range e.bindings.size) ++
    (List.range e.userCount).map .pad

/-- A request is carried out.  It names the binding that has made it. -/
def visitsObey (e : Engine) (r : Request) (time : Nat) : List Visit :=
  .binding r.mapping e.bindings.size :: match r.command with
    | .toggleDisable => if e.disabled then [] else e.visitsForceReleaseAll time
    | .toggleConnected => if r.user < e.userCount then [.pad r.user] else []
    | .setActiveUser | .holdActiveUser | .reload | .loadConfig => []

def visitsObeyAll (time : Nat) : Nat → Engine → List Visit
  | 0, _ => []
  | bound + 1, e =>
    match e.queue with
    | [] => []
    | r :: rest =>
      let e := { e with queue := rest }
      e.visitsObey r time ++ visitsObeyAll time bound (e.obey r time)

def visitsDrain (e : Engine) (time : Nat) : List Visit :=
  visitsObeyAll time (e.queue.length + userLimit * e.bindings.size) e

/-- A source moves in a turn of its own. -/
def visitsAccept (e : Engine) (source : Control) (pulse : Pulse) (time : Nat) : List Visit :=
  let t : Turn := { engine := { e with lastTime := time }, time }
  Turn.visitsFeed (cascadeRoom + 1) t source pulse ++
    (Turn.feed (cascadeRoom + 1) t source pulse).1.commit.visitsDrain time

/-- A timer goes off in a turn of its own. -/
def visitsTimer (e : Engine) (token : TimerToken) (time : Nat) : List Visit :=
  match e.timerUse? token with
  | none => []
  | some use =>
    let t : Turn := { engine := { e with lastTime := time }, time }
    t.visitsTick use ++ (t.tick use).commit.visitsDrain time

def visitsDue (limit : Nanoseconds) : Nat → Engine → List Visit
  | 0, _ => []
  | bound + 1, e =>
    match e.clock.nextDue? limit with
    | none => []
    | some (token, due, clock) =>
      let e := { e with clock }
      let time := due.toMillis % twoTo 64
      e.visitsTimer token time ++ visitsDue limit bound (e.onTimer token time)

def visitsReleaseAll (e : Engine) (time : Nat) : List Visit :=
  e.visitsForceReleaseAll time ++ (e.forceReleaseAll time).visitsDrain time

/-- A slot of a cell is claimed for one user after another.  It is taken if any of the places of the
cell has given it away. -/
def visitsClaims (cell : PadCell) (slot : Slot) : PadBank → List User → List Visit
  | _, [] => []
  | bank, user :: rest =>
    .claim (((bank.pad user).owned cell).has slot) ::
      visitsClaims cell slot (bank.set user ((bank.pad user).claim cell slot)) rest

/-- The numbers of the users on whose pads a mapping takes a slot, as the mapping has them. -/
def slotNumbers (e : Engine) : UserRef → List Nat
  | .index user => [user]
  | .active | .everyone => List.range e.userCount

/-- A mapping is bound: its cells are searched for a free slot, and the slot is claimed. -/
def visitsBind (e : Engine) (m : Mapping) : List Visit :=
  match (e.descriptor m.target).cell with
  | .pad cell =>
    let users := e.slotUsers m.targetUser
    visitsPads (e.slotNumbers m.targetUser) cell.part ++
      match (e.pads.owned users cell).lowestFree? with
      | none => []
      | some slot => visitsClaims cell slot e.pads users
  | .output _ =>
    let cell := (e.outputs[m.target]?).getD {}
    match Mask.lowestFree? cell.owned with
    | none => []
    | some slot => [.claim (cell.owned.has slot)]
  | _ => []

/-- A configuration is installed: every pad is reset, and every mapping is bound. -/
def visitsInstall (e : Engine) (config : Config) (time : Nat) : List Visit :=
  (List.range userLimit).map .pad ++
    Turn.visitsWalk bind visitsBind ((e.vacate config).inTurn time (resetPads config))
      config.mappings

/-- What the first installation comes by. -/
def visitsStart (config : Config) : List Visit :=
  ({ pads := PadBank.ofCount config.settings.users } : Engine).visitsInstall config 0

def visitsCall (e : Engine) : Call → List Visit
  | .input source user down strength time =>
    if h : user < userLimit then
      let strength := if strength.isFinite then Scalar.clamp strength 0 1 else 1
      e.visitsAccept source { user := ⟨user, h⟩, down, strength } time
    else []
  | .motion source user magnitude time =>
    if h : user < userLimit then
      if magnitude.isFinite then
        e.visitsAccept source
          { user := ⟨user, h⟩, down := magnitude != 0, strength := magnitude.abs } time
      else []
    else []
  | .runUntil ms =>
    let limit := Nanoseconds.ofMillis ms
    visitsDue limit (e.tickBound limit) e
  | .releaseAll time => e.visitsReleaseAll time
  | .reload config =>
    e.visitsReleaseAll e.lastTime ++ e.freed.visitsInstall config e.lastTime ++
      (e.freed.install config e.lastTime).visitsDrain e.lastTime

/-- Somebody asks whether a control is down.  Only what is neither a source nor an output is looked
for on the pad.  Whether a control is toggled is asked of the board alone. -/
def visitsQuestion (e : Engine) (c : Control) (user : Nat) : List Visit :=
  let d := e.descriptor c
  let user := if d.flags.ofUser then user else 0
  match e.board.isDown? c user, e.outputs[c]? with
  | none, none =>
    if user < e.userCount then .pad user :: (d.padCell?.map PadCell.part).toList else []
  | _, _ => []

end Engine

/-! ## §3 The pads -/

/-- A pad of a user or a part of it. -/
def Visit.OfPad (v : Visit) : Prop := (∃ user : User, v = .pad user) ∨ ∃ cell : PadCell, v = cell.part

theorem ofPad_visitsPads (users : List User) (cell : PadCell) :
    ∀ v ∈ visitsPads (users.map Fin.val) cell.part, v.OfPad := by
  intro v hv
  obtain ⟨number, huser, hv⟩ := List.mem_flatMap.mp hv
  obtain ⟨user, -, rfl⟩ := List.mem_map.mp huser
  exact (List.mem_pair.mp hv).imp (fun h => ⟨user, h⟩) fun h => ⟨cell, h⟩

namespace Turn

variable (t : Turn) (id : Nat)

theorem ofPad_visitsRise (m : Mapping) (target : Descriptor) :
    ∀ v ∈ t.visitsRise m target, v.OfPad := by
  unfold visitsRise
  split
  · split
    · exact ofPad_visitsPads _ _
    · exact List.forall_mem_nil _
  · exact List.forall_mem_nil _

theorem ofPad_visitsWrite (target : Descriptor) : ∀ v ∈ t.visitsWrite id target, v.OfPad := by
  unfold visitsWrite
  split
  · exact List.forall_mem_nil _
  · split
    · exact ofPad_visitsPads _ _
    · exact List.forall_mem_nil _

/-- Writing to a target looks up nothing but pads and their parts. -/
theorem ofPad_visitsFirst (b : Binding) (pulse : Pulse) (latch : Latch)
    (response : Option Response) : ∀ v ∈ t.visitsFirst id b pulse latch response, v.OfPad := by
  cases response with
  | none => exact List.forall_mem_nil _
  | some r =>
    refine List.forall_mem_append.mpr ⟨?_, ?_⟩
    · split
      · exact ofPad_visitsRise _ _ _
      · exact List.forall_mem_nil _
    · split
      · exact List.forall_mem_nil _
      · split
        · exact ofPad_visitsWrite _ id _
        · exact List.forall_mem_nil _

end Turn

/-! ## §4 Going along -/

namespace Turn

theorem fst_runChain (room : Nat) (t : Turn) (c : Control) (line : Line) (pulse : Pulse) :
    (runChain room t c line pulse).1 = line.chain.foldl
      (fun t id => (t.runBinding (feed room) id pulse false).1) (t.mark c pulse.user pulse.down) :=
  sweep_fst _ _ _

theorem fst_runPairs (room : Nat) (t : Turn) (c : Control) (line : Line) (pulse : Pulse) :
    (runPairs room t c line pulse).1 = line.pairs.foldl
      (fun t pair => (followPair (feed room) pulse t pair).1) (runChain room t c line pulse).1 :=
  sweep_fst _ _ _

/-- What holds all the way along a walk, of the state and of the visits. -/
theorem visitsWalk_along {σ α : Type} {run : σ → α → σ} {visits : σ → α → List Visit}
    {P : σ → Prop} {G M : Visit → Prop} {items : List α}
    (hitem : ∀ s, ∀ item ∈ items, P s → (∀ v ∈ visits s item, G v) →
      P (run s item) ∧ ∀ v ∈ visits s item, M v)
    {s : σ} (hs : P s) (hgiven : ∀ v ∈ visitsWalk run visits s items, G v) :
    P (items.foldl run s) ∧ ∀ v ∈ visitsWalk run visits s items, M v := by
  induction items generalizing s with
  | nil => exact ⟨hs, fun v hv => absurd hv List.not_mem_nil⟩
  | cons item rest ih =>
    unfold visitsWalk at hgiven ⊢
    rw [List.forall_mem_append] at hgiven ⊢
    obtain ⟨hafter, hmade⟩ := hitem s item List.mem_cons_self hs hgiven.1
    obtain ⟨hend, hrest⟩ := ih (fun s item hmem => hitem s item (List.mem_cons_of_mem _ hmem)) hafter
      hgiven.2
    exact ⟨hend, hmade, hrest⟩

/-- A pulse that does not get through to a binding leads no further than to the binding. -/
theorem visitsBinding_of_not_reaches (scout : Scout) {t : Turn} {id : Nat} {pulse : Pulse}
    {forced : Bool} (h : ∀ b, t.engine.bindings[id]? = some b → ¬ t.Reaches b pulse forced) :
    t.visitsBinding scout id pulse forced = [.binding id t.engine.bindings.size] := by
  unfold visitsBinding
  cases hb : t.engine.bindings[id]? with
  | none => rfl
  | some b =>
    have hrefused := h b hb
    unfold Reaches at hrefused
    simp only [not_or, Bool.not_eq_true] at hrefused
    simp [hrefused.1, hrefused.2]

theorem visitsBinding_of_reaches (scout : Scout) {t : Turn} {id : Nat} {b : Binding} {pulse : Pulse}
    {forced : Bool} {latch : Latch} {response : Option Response}
    (hb : t.engine.bindings[id]? = some b) (hreaches : t.Reaches b pulse forced)
    (hrespond : b.latch.respond b.mapping (t.sourceOf b) (t.targetOf b) pulse.down pulse.strength
      forced = (latch, response)) :
    t.visitsBinding scout id pulse forced = .binding id t.engine.bindings.size ::
      (t.visitsFirst id b pulse latch response ++
        visitsEcho scout b.mapping.target (t.firstStep id b pulse forced latch response)
          (t.firstEcho id b pulse forced latch response)) := by
  unfold visitsBinding
  rw [hb]
  dsimp only
  rw [if_neg, hrespond]
  rcases hreaches with rfl | haccepts
  · simp
  · simp [haccepts]

theorem visitsFeed_none (room : Nat) (t : Turn) (c : Control) (pulse : Pulse)
    (hline : t.engine.board.line? c = none) :
    visitsFeed room t c pulse = [t.hearing c room pulse] := by
  cases room with
  | zero => rfl
  | succ room =>
    unfold visitsFeed
    simp only [hline]

/-- What a source that moves comes by, with room for it: itself, the mappings, the pairs, and the
watchers if the state is new. -/
theorem visitsFeed_succ (room : Nat) (t : Turn) (c : Control) (pulse : Pulse) {line : Line}
    (hline : t.engine.board.line? c = some line) :
    visitsFeed (room + 1) t c pulse =
      let own := t.own c pulse
      t.hearing c (room + 1) pulse ::
        (visitsWalk (fun t id => (t.runBinding (feed room) id own false).1)
            (fun t id => t.visitsBinding (visitsFeed room) id own false)
            (t.mark c own.user own.down) line.chain ++
          visitsWalk (fun t pair => (followPair (feed room) own t pair).1)
            (visitsPair (visitsFeed room) own) (runChain room t c line own).1 line.pairs ++
          if line.moves own.user own.down then
            visitsWalk (review (feed room)) (visitsReview (visitsFeed room))
              (runPairs room t c line own).1 line.watchers
          else []) := by
  rw [visitsFeed]
  simp only [hline]

end Turn

end VirtualPad
