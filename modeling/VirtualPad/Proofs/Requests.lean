import Mathlib.Data.Finset.Card
import VirtualPad.Proofs.Falls

/-!
# Every request is carried out

Requests are carried out one by one after a turn, and carrying one out may lead to further ones:
switching the mappings off releases everything, and holds that end give commands.  A binding that
ends makes one request for each of at most eight users, and no fall makes a request without a binding
that ends.  So the *debt* never grows, which counts the requests that wait and those that the
bindings in effect may still make; and each request that is taken up makes it smaller.  Between two
calls no request is waiting.
-/

namespace VirtualPad

namespace Engine

/-! ## §1 How many users a binding has -/

/-- No binding has more users than there can be. -/
def FewUsers (e : Engine) : Prop := ∀ id, (e.latch id).applied.length ≤ userLimit

/-- A target never means more users than there can be. -/
theorem length_targetUsers (e : Engine) (ref : UserRef) :
    (e.targetUsers ref).length ≤ userLimit := by
  cases ref with
  | index user =>
    show (if h : user < userLimit then [(⟨user, h⟩ : User)] else []).length ≤ userLimit
    split
    · exact Nat.le_of_ble_eq_true rfl
    · exact Nat.zero_le _
  | active => exact Nat.le_of_ble_eq_true rfl
  | everyone =>
    refine (List.length_filter_le _ _).trans ?_
    rw [List.length_finRange]

namespace FewUsers

variable {e e' : Engine}

theorem congr (he : FewUsers e) (h : ∀ id, (e'.latch id).applied = (e.latch id).applied) :
    FewUsers e' := fun id => (h id) ▸ he id

theorem of_untimed (he : FewUsers e) (h : e'.untimed = e.untimed) : FewUsers e' :=
  he.congr fun id => by
    have hsame := congrArg Latch.applied (latch_of_untimed h id)
    exact hsame

/-- A binding that comes into effect takes the users that its target means; the others keep theirs. -/
theorem act {t : Turn} (ht : FewUsers t.engine) (hmirrors : Mirrors t.engine) {id : Nat} {b : Binding}
    (hb : t.engine.bindings[id]? = some b) {pulse : Pulse} {forced : Bool} {latch : Latch}
    {r : Response}
    (hrespond : b.latch.respond b.mapping (t.sourceOf b) (t.targetOf b) pulse.down pulse.strength
      forced = (latch, some r)) :
    FewUsers ((t.mapLatch id fun _ => latch).perform id b.mapping (t.sourceOf b) (t.targetOf b)
      pulse.user r forced).1.engine := by
  have happlied := Latch.respond_applied hrespond
  have hb₀ : (t.mapLatch id fun _ => latch).engine.bindings[id]? = some { b with latch } := by
    rw [Turn.engine_mapLatch, getElem?_mapLatch, if_pos rfl, hb]
    rfl
  generalize hperform : ((t.mapLatch id fun _ => latch).perform id b.mapping (t.sourceOf b)
    (t.targetOf b) pulse.user r forced).1 = t'
  obtain ⟨b', ⟨hb', -, -, -, husers, halone⟩, -⟩ := Turn.perform_spec (t.mapLatch id fun _ => latch)
    hb₀ ((hmirrors.keeping id b hb).mapLatch happlied) hmirrors.present (t.sourceOf b) pulse.user r
    forced hperform
  intro i
  by_cases hi : i = id
  · subst hi
    rw [latch_of_getElem? hb', husers]
    split
    · exact length_targetUsers _ _
    · show latch.applied.length ≤ userLimit
      rw [happlied, ← latch_of_getElem? hb]
      exact ht i
  · have hother := halone.others i hi
    rw [Turn.engine_mapLatch, getElem?_mapLatch, if_neg (Ne.symm hi)] at hother
    unfold Engine.latch
    rw [hother]
    exact ht i

/-- Every move keeps to that: a binding takes its users from its target, or lets go of them. -/
theorem move {t t' : Turn} (h : Turn.Move t t') (hmirrored : Mirrored t.engine)
    (ht : FewUsers t.engine) : FewUsers t'.engine := by
  -- Only an answer gives a binding users.
  cases h with
  | @swallow id b pulse forced latch hb hreaches hrespond =>
    refine ht.congr (latch_mapLatch_congr Latch.applied ?_)
    rw [latch_of_getElem? hb]
    exact Latch.respond_applied hrespond
  | act hb hreaches hrespond => exact ht.act hmirrored.mirrors hb hrespond
  | plan was now hb => exact ht.of_untimed (untimed_followPlan _ _ _)
  | letGo hb hpad =>
    intro i
    rw [Turn.engine_mapLatch, latch_mapLatch]
    split
    · exact Nat.zero_le _
    · exact ht i
  | @blink id b hb huse =>
    obtain ⟨pads, outputs, hengine, -⟩ := Turn.blink_frame t id (t.sourceOf b) (t.targetOf b)
    rw [hengine]
    have hlit : FewUsers (t.engine.mapLatch id fun l => { l with lit := !l.lit }) :=
      ht.congr (latch_mapLatch_congr Latch.applied rfl)
    exact hlit
  | goOn hb =>
    obtain ⟨pads, hengine, -⟩ := Turn.goOn_frame t _ (t.targetOf _)
    rw [hengine]
    exact ht
  | turnStick hb =>
    obtain ⟨pads, hengine, -⟩ := Turn.turnStick_frame t _ (t.targetOf _)
    rw [hengine]
    exact ht
  | stop id => exact ht.of_untimed (untimed_stopTimer _ _)

theorem chore (h : Chore e e') (he : FewUsers e) : FewUsers e' := by
  cases h with
  | note | enable | label | activate | advance => exact he
  | remember id user => exact he.congr (latch_mapLatch_congr Latch.applied rfl)

/-- No fall gives a binding users. -/
theorem falls {t t' : Turn} (h : Turn.Falls t t') (ht : FewUsers t.engine) :
    FewUsers t'.engine := by
  intro id
  rcases (Turn.Falls.latch h id).applied with hsame | hnone
  · rw [hsame]
    exact ht id
  · rw [hnone]
    exact Nat.zero_le _

theorem forceReleaseAll (he : FewUsers e) (hsettled : ActiveWithin (fun _ => True) e) (time : Nat) :
    FewUsers (e.forceReleaseAll time) := by
  refine Turn.commit_keeps chore _ ?_
  dsimp only
  rw [Turn.engine_updatePads]
  exact falls (Turn.falls_forceReleases _ hsettled) he

end FewUsers

/-- What is needed to follow the debt. -/
structure Measured (e : Engine) : Prop where
  mirrored : Mirrored e
  few : FewUsers e

theorem measured_stable (admits : Config → Prop) : Stable admits Measured where
  move h ht := ⟨ht.mirrored.move h, ht.few.move h ht.mirrored⟩
  feed := Turn.feed_keeps (fun h ht => ⟨ht.mirrored.move h, ht.few.move h ht.mirrored⟩)
    fun {_ c} _ user down _ ht => ⟨⟨ht.mirrored.mirrors.mark c user down,
      ht.mirrored.settled.mark c user down⟩, ht.few⟩
  chore h he := ⟨he.mirrored.chore h, he.few.chore h⟩
  force e time he := by
    have hforced := (mirrored_stable admits).force e time he.mirrored
    have hfew := he.few.forceReleaseAll he.mirrored.settled time
    exact ⟨⟨hforced.1, hfew⟩, ⟨hforced.2, hfew⟩⟩
  lapse hdue huse hb he :=
    ⟨(mirrored_stable admits).lapse hdue huse hb he.mirrored, he.few.of_untimed (untimed_lapse _ _)⟩
  stray hdue huse he := ⟨(mirrored_stable admits).stray hdue huse he.mirrored, he.few⟩
  install e config time hconfig he := by
    refine ⟨(mirrored_stable admits).install e time hconfig he.mirrored, fun id => ?_⟩
    rw [install_latch]
    exact Nat.zero_le _

theorem measured_timeless : Timeless Measured :=
  fun _ clock he => ⟨he.mirrored.clock clock, he.few⟩

theorem Operated.measured {admits : Config → Prop} {e : Engine} (he : Operated admits e) :
    Measured e := by
  refine (measured_stable admits).operated measured_timeless (fun _ =>
    ⟨⟨(assigned_install _ _ 0).mirrors, ActiveWithin.ofInstall _ _ 0⟩, fun id => ?_⟩) he
  rw [ofConfig, install_latch]
  exact Nat.zero_le _

theorem Deed.measured {e e' : Engine} (h : Deed e e') (he : Measured e) : Measured e' :=
  h.keeps_stable (measured_stable fun _ => True) measured_timeless he

theorem Deeds.measured {e e' : Engine} (h : Deeds e e') (he : Measured e) : Measured e' := by
  induction h with
  | refl => exact he
  | tail _ hdeed ih => exact hdeed.measured ih

/-! ## §2 The debt -/

/-- The bindings in effect. -/
def inEffect (e : Engine) : Finset Nat :=
  (Finset.range e.bindings.size).filter fun id => (e.latch id).active = true

/-- The requests that wait, and those that the bindings in effect may still make. -/
def debt (e : Engine) : Nat := e.queue.length + userLimit * e.inEffect.card

theorem mem_inEffect {e : Engine} {id : Nat} {b : Binding} (hb : e.bindings[id]? = some b) :
    id ∈ e.inEffect ↔ b.latch.active = true := by
  have hin : id < e.bindings.size := (Array.getElem?_eq_some_iff.mp hb).1
  simp [inEffect, hin, latch_of_getElem? hb]

theorem debt_congr {e e' : Engine} (hqueue : e'.queue = e.queue)
    (hsize : e'.bindings.size = e.bindings.size)
    (hactive : ∀ id, (e'.latch id).active = (e.latch id).active) : e'.debt = e.debt := by
  simp only [debt, inEffect, hqueue, hsize, hactive]

/-- The bound within which requests are carried out is as large as the debt. -/
theorem debt_le (e : Engine) : e.debt ≤ e.queue.length + userLimit * e.bindings.size := by
  have hcard : e.inEffect.card ≤ e.bindings.size :=
    (Finset.card_filter_le _ _).trans_eq (Finset.card_range _)
  exact Nat.add_le_add_left (Nat.mul_le_mul_left _ hcard) _

end Engine

namespace Turn

/-- The debt in the middle of a turn: what has been requested in it counts as well. -/
def debt (t : Turn) : Nat := t.requests.length + t.engine.debt

/-! ## §3 Who makes requests -/

@[simp] theorem requests_noteChange (t : Turn) (user : User) :
    (t.noteChange user).requests = t.requests := by
  unfold noteChange
  split <;> rfl

@[simp] theorem requests_updatePad (t : Turn) (user : User) (change : Pad → Pad × Bool) :
    (t.updatePad user change).requests = t.requests := by
  simp only [updatePad]
  split
  · exact requests_noteChange _ user
  · rfl

@[simp] theorem requests_updatePads (t : Turn) (users : List User) (change : Pad → Pad × Bool) :
    (t.updatePads users change).requests = t.requests := by
  induction users generalizing t with
  | nil => rfl
  | cons user rest ih => exact (ih _).trans (requests_updatePad t user change)

theorem requests_writeOutput (t : Turn) (kind : OutputKind) (target : Control) (slot : Slot)
    (down replaces : Bool) :
    (t.writeOutput kind target slot down replaces).1.requests = t.requests := by
  unfold writeOutput
  split
  · rfl
  · cases kind with
    | keyboard | mouseButton | customKey =>
      dsimp only
      split <;> rfl
    | var => rfl

/-- Writing to a target requests nothing. -/
theorem requests_writeTarget (t : Turn) (id : Nat) (source target : Descriptor) (down : Bool)
    (strength : Float) : (t.writeTarget id source target down strength).1.requests = t.requests := by
  unfold writeTarget
  split
  · rfl
  · dsimp only
    split
    · split <;> rfl
    · split <;> rfl
    · exact requests_updatePads t _ _
    · exact requests_writeOutput t _ _ _ _ _
    · rfl

/-- Several requests, one after another. -/
theorem foldl_request (make : User → Request) (t : Turn) (users : List User) :
    users.foldl (fun t user => t.request (make user)) t =
      { t with requests := t.requests ++ users.map make } := by
  induction users generalizing t with
  | nil => simp
  | cons user rest ih =>
    rw [List.foldl_cons, ih]
    simp [request]

/-- **Giving a command** makes requests and does nothing else: with every release, except that holds
are given on both edges, and that of forced releases only the ends of holds are. -/
theorem giveCommand_spec (t : Turn) (id : Nat) (command : Command) (r : Response) (forced : Bool) :
    ∃ made, t.giveCommand id command r forced = { t with requests := t.requests ++ made } ∧
      ∀ q ∈ made, q.command = command ∧ q.mapping = id ∧ q.pressed = (r.now && !r.was) ∧
        (r.was = true ∧ r.now = false ∧ (forced = true → command = .holdActiveUser) ∨
          r.was = false ∧ r.now = true ∧ forced = false ∧ command = .holdActiveUser) := by
  unfold giveCommand
  split
  · exact ⟨[], by simp⟩
  · dsimp only
    rw [foldl_request]
    refine iteInduction (motive := fun t' : Turn => ∃ made,
      t' = { t with requests := t.requests ++ made } ∧
      ∀ q ∈ made, q.command = command ∧ q.mapping = id ∧ q.pressed = (r.now && !r.was) ∧
        (r.was = true ∧ r.now = false ∧ (forced = true → command = .holdActiveUser) ∨
          r.was = false ∧ r.now = true ∧ forced = false ∧ command = .holdActiveUser))
      (fun hfires => ?_) fun _ => ⟨[], by simp⟩
    refine ⟨_, rfl, fun q hq => ?_⟩
    obtain ⟨user, -, rfl⟩ := List.mem_map.mp hq
    refine ⟨rfl, rfl, rfl, ?_⟩
    cases forced with
    | false =>
      simp only [Bool.false_eq_true, if_false, Bool.or_eq_true, Bool.and_eq_true,
        Bool.not_eq_true', beq_iff_eq] at hfires
      rcases hfires with ⟨hwas, hnow⟩ | ⟨⟨hnow, hwas⟩, hhold⟩
      · exact .inl ⟨hwas, hnow, by simp⟩
      · exact .inr ⟨hwas, hnow, rfl, hhold⟩
    | true =>
      simp only [if_true, Bool.and_eq_true, Bool.not_eq_true', beq_iff_eq] at hfires
      exact .inl ⟨hfires.1.1, hfires.1.2, fun _ => hfires.2⟩

/-- A binding that ends makes a request for each of its users at most, and one that was not in
effect makes none. -/
theorem requests_giveCommand_ended (t : Turn) (id : Nat) (command : Command) {r : Response}
    (forced : Bool) (hnow : r.now = false)
    (hfew : ∀ b, t.engine.bindings[id]? = some b → b.latch.applied.length ≤ userLimit) :
    (t.giveCommand id command r forced).requests.length ≤
      t.requests.length + if r.was then userLimit else 0 := by
  unfold giveCommand
  split
  · exact Nat.le_add_right _ _
  · rename_i b hb
    dsimp only
    refine iteInduction (motive := fun t' : Turn => t'.requests.length ≤
      t.requests.length + if r.was then userLimit else 0) (fun hfires => ?_)
      fun _ => Nat.le_add_right _ _
    -- It is given at the end of what was in effect only.
    have hwas : r.was = true := by
      cases hwas : r.was with
      | true => rfl
      | false => simp [hnow, hwas] at hfires
    -- A command is requested once for each user.
    rw [foldl_request, if_pos hwas, List.length_append, List.length_map]
    refine Nat.add_le_add_left ?_ _
    split
    · exact hfew b hb
    · exact Engine.length_targetUsers _ _

/-- So a release makes requests only if a binding ends by it. -/
theorem requests_firstStep_ended (t : Turn) {id : Nat} {b : Binding}
    (hb : t.engine.bindings[id]? = some b) (pulse : Pulse) (forced : Bool) {latch : Latch}
    {r : Response} (hnow : r.now = false) (hfew : latch.applied.length ≤ userLimit) :
    (t.firstStep id b pulse forced latch (some r)).requests.length ≤
      t.requests.length + if r.was then userLimit else 0 := by
  unfold firstStep perform
  simp only [hnow, Bool.false_and, Bool.false_eq_true, if_false]
  split
  · refine requests_giveCommand_ended (t.mapLatch id fun _ => latch) id _ forced hnow ?_
    intro b' hb'
    rw [engine_mapLatch, Engine.getElem?_mapLatch, if_pos rfl, hb] at hb'
    obtain rfl := Option.some.inj hb'
    exact hfew
  · split
    · rw [requests_writeTarget]
      exact Nat.le_add_right _ _
    · exact Nat.le_add_right _ _

/-! ## §4 The debt never grows -/

theorem Fall.queue {t t' : Turn} (h : Fall t t') : t'.engine.queue = t.engine.queue := h.steps.queue

/-- Falls take bindings out of effect only. -/
theorem Fall.inEffect {t t' : Turn} (h : Fall t t') : t'.engine.inEffect ⊆ t.engine.inEffect := by
  intro id hid
  simp only [Engine.inEffect, Finset.mem_filter, Finset.mem_range] at hid ⊢
  refine ⟨Engine.size_congr h.steps.layout ▸ hid.1, ?_⟩
  by_contra hup
  have hstays := (h.latch id).active (by simpa using hup)
  rw [hid.2] at hstays
  contradiction

/-- **A fall never makes the debt larger.** -/
theorem Fall.debt {t t' : Turn} (h : Fall t t') (ht : t.engine.FewUsers) : t'.debt ≤ t.debt := by
  have hqueue := h.queue
  have hsub := h.inEffect
  -- It is enough that requests are made only when a binding has ended.
  suffices hmade : t'.requests.length ≤ t.requests.length ∨
      t'.requests.length ≤ t.requests.length + userLimit ∧
        t'.engine.inEffect.card < t.engine.inEffect.card by
    have hcard := Finset.card_le_card hsub
    simp only [Turn.debt, Engine.debt, hqueue, userLimit]
    simp only [userLimit] at hmade
    omega
  cases h with
  | @answer id b pulse forced latch response hb hreaches hdown hrespond hend =>
    cases response with
    | none => exact .inl (Nat.le_refl _)
    | some r =>
      have hnow := hend r rfl
      have hfew := ht id
      rw [Engine.latch_of_getElem? hb, ← Latch.respond_applied hrespond] at hfew
      have hmade := requests_firstStep_ended t hb pulse forced hnow hfew
      cases hwas : r.was with
      | false =>
        rw [hwas] at hmade
        exact .inl hmade
      | true =>
        -- The binding was in effect, and is not any more: that pays for its requests.
        rw [hwas] at hmade
        refine .inr ⟨hmade, Finset.card_lt_card ⟨hsub, fun hsame => ?_⟩⟩
        have hin := (Engine.mem_inEffect hb).mpr ((Latch.respond_some hrespond).1.symm.trans hwas)
        have hstill := hsame hin
        simp only [Engine.inEffect, Finset.mem_filter] at hstill
        rw [active_firstStep hb hrespond, hnow] at hstill
        exact absurd hstill.2 (by decide)
  | mark c user => exact .inl (Nat.le_refl _)
  | stop id => exact .inl (Nat.le_refl _)
  | letGo id => exact .inl (Nat.le_refl _)

theorem Falls.debt {t t' : Turn} (h : Falls t t') (ht : t.engine.FewUsers) : t'.debt ≤ t.debt := by
  induction h with
  | refl => exact Nat.le_refl _
  | tail hfalls hfall ih => exact (hfall.debt (Engine.FewUsers.falls hfalls ht)).trans ih

/-- Committing a turn puts its requests in the queue. -/
theorem queue_commit (t : Turn) : t.commit.queue = t.engine.queue ++ t.requests := by
  have hpads : (t.changed.foldl (commitPad t.time) t.engine).queue = t.engine.queue := by
    generalize t.changed = users
    generalize t.engine = e
    induction users generalizing e with
    | nil => rfl
    | cons user rest ih => exact ih _
  unfold commit
  dsimp only
  split <;> exact congrArg (· ++ t.requests) hpads

theorem debt_commit (t : Turn) : t.commit.debt = t.debt := by
  obtain ⟨pads, queue, remainder, snapshots, events, hcommit, -⟩ := t.commit_frame
  have hqueue := queue_commit t
  have heffect : t.commit.inEffect = t.engine.inEffect := by
    rw [hcommit]
    rfl
  rw [Engine.debt, hqueue, heffect, List.length_append, Turn.debt, Engine.debt]
  omega

end Turn

namespace Engine

variable {e e' : Engine}

theorem debt_forceReleaseAll (he : Measured e) (time : Nat) :
    (e.forceReleaseAll time).debt ≤ e.debt := by
  -- All that is done to the bindings is a release, and releases never add to the debt.
  have hfalls := Turn.falls_forceReleases (t := { engine := e, time }) (List.range e.bindings.size)
    he.mirrored.settled
  have hdebt := Turn.Falls.debt hfalls he.few
  refine (Turn.debt_commit _).trans_le ?_
  dsimp only
  -- Emptying the pads requests nothing.
  generalize (List.range e.bindings.size).foldl forceRelease { engine := e, time } = t at hdebt ⊢
  rw [Turn.debt, Turn.requests_updatePads, Turn.engine_updatePads]
  exact hdebt.trans_eq (Nat.zero_add _)

/-- **No duty makes the debt larger.** -/
theorem Duty.debt (h : Duty e e') (he : Measured e) : e'.debt ≤ e.debt := by
  cases h with
  | errand h =>
    cases h with
    | take hqueue => exact Nat.add_le_add_right (by simp [hqueue]) _
    | forward | enable | activate | pass => exact Nat.le_refl _
    | remember id user =>
      have hsame : (e.mapLatch id fun l => { l with restoreUser := user }).debt = e.debt :=
        debt_congr rfl (size_mapLatch e id _) (latch_mapLatch_congr Latch.active rfl)
      exact hsame.le
  | switchOff time => exact debt_forceReleaseAll he time
  | connect user time =>
    refine (Turn.debt_commit _).trans_le ?_
    rw [Turn.debt, Turn.requests_updatePad, Turn.engine_updatePad]
    exact (Nat.zero_add _).le

theorem Duties.debt (h : Duties e e') (he : Measured e) : e'.debt ≤ e.debt := by
  induction h with
  | refl => exact Nat.le_refl _
  | tail hbefore hduty ih => exact (hduty.debt ((Duties.deeds hbefore).measured he)).trans ih

/-! ## §5 No request waits -/

/-- **Requests are carried out until none is left**, if there is room for the debt. -/
theorem queue_obeyAll (time bound : Nat) {e : Engine} (he : Measured e) (hbound : e.debt ≤ bound) :
    (obeyAll time bound e).queue = [] := by
  induction bound generalizing e with
  | zero =>
    have hnone : e.queue.length = 0 := Nat.eq_zero_of_add_eq_zero_right (Nat.le_zero.mp hbound)
    exact List.length_eq_zero_iff.mp hnone
  | succ bound ih =>
    unfold obeyAll
    split
    · assumption
    · rename_i r rest hqueue
      -- Taking the request off the queue lowers the debt, and carrying it out does not raise it again.
      have htake : Duty e { e with queue := rest } := .errand (.take hqueue)
      have hsmaller : ({ e with queue := rest } : Engine).debt + 1 = e.debt := by
        simp only [Engine.debt, hqueue, List.length_cons]
        exact Nat.add_right_comm _ _ _
      have htaken := (Deed.duty htake).measured he
      have hobeyed := duties_obey { e with queue := rest } r time
      have hdebt := hobeyed.debt htaken
      exact ih (hobeyed.deeds.measured htaken) (by omega)

theorem queue_drainQueue (he : Measured e) (time : Nat) : (e.drainQueue time).queue = [] :=
  queue_obeyAll time _ he e.debt_le

/-- Without requests there is nothing to carry out. -/
theorem drainQueue_of_nil (hqueue : e.queue = []) (time : Nat) : e.drainQueue time = e := by
  unfold drainQueue
  generalize e.queue.length + userLimit * e.bindings.size = bound
  cases bound with
  | zero => rfl
  | succ bound =>
    unfold obeyAll
    rw [hqueue]

/-- An installation brings no requests. -/
theorem queue_install (e : Engine) (config : Config) (time : Nat) :
    (e.install config time).queue = e.queue := by
  have hreset := resetPads_same Turn.requests_updatePad config
  obtain ⟨pads, houtside, -⟩ := resetPads_frame config { engine := e.vacate config, time }
  obtain ⟨bindings, pads', outputs, hbind, -⟩ :=
    bindAll_frame config.mappings ((e.vacate config).inTurn time (resetPads config))
  unfold install
  rw [hbind]
  show ((e.vacate config).inTurn time (resetPads config)).queue = e.queue
  rw [inTurn, Turn.queue_commit, hreset, houtside]
  exact List.append_nil _

theorem queue_onTimer (he : Measured e) (hqueue : e.queue = []) (token : TimerToken) (time : Nat) :
    (e.onTimer token time).queue = [] := by
  unfold onTimer
  cases huse : e.timerUse? token with
  | none => exact hqueue
  | some use => exact queue_drainQueue ((Deed.expire huse time).measured he) time

theorem queue_runDue (limit : Nanoseconds) (bound : Nat) {e : Engine} (he : Measured e)
    (hqueue : e.queue = []) : (runDue limit bound e).queue = [] := by
  induction bound generalizing e with
  | zero => exact hqueue
  | succ bound ih =>
    unfold runDue
    split
    · exact hqueue
    · rename_i token due clock _
      have hpassed : Measured { e with clock } := measured_timeless e clock he
      exact ih ((deeds_onTimer _ token _).measured hpassed) (queue_onTimer hpassed hqueue token _)

theorem queue_start (config : Config) : (ofConfig config).queue = [] := by
  unfold ofConfig
  rw [queue_install]

theorem queue_accept (he : Measured e) (c : Control) (pulse : Pulse) (time : Nat) :
    (e.accept c pulse time).1.queue = [] :=
  queue_drainQueue ((Deed.feed e c pulse time).measured he) time

/-- **Releasing everything leaves no request waiting.** -/
theorem queue_releaseAll (he : Measured e) (time : Nat) : (e.releaseAll time).queue = [] :=
  queue_drainQueue ((Deed.release e time).measured he) time

/-- A configuration is installed while no request waits. -/
theorem queue_reinstall (he : Measured e) (config : Config) :
    (e.freed.install config e.lastTime).queue = [] := by
  have hcancel : ∀ e : Engine, e.cancelTimers.queue = e.queue := by
    intro e
    unfold cancelTimers
    generalize e.timers = uses
    induction uses generalizing e with
    | nil => rfl
    | cons use rest ih => exact ih _
  rw [queue_install]
  exact (hcancel _).trans (queue_releaseAll he e.lastTime)

/-- So nothing is left to do after it. -/
theorem reload_eq_reinstall (he : Measured e) (config : Config) :
    e.reload config = e.freed.install config e.lastTime :=
  drainQueue_of_nil (queue_reinstall he config) e.lastTime

theorem queue_reload (he : Measured e) (config : Config) : (e.reload config).queue = [] := by
  rw [reload_eq_reinstall he]
  exact queue_reinstall he config

/-- No request waits after a call, if none has waited before. -/
theorem queue_after (he : Measured e) (hqueue : e.queue = []) (call : Call) :
    (e.after call).queue = [] := by
  cases call with
  | input source user down strength time =>
    show (e.processInput source user down strength time).1.queue = []
    rcases e.processInput_cases source user down strength time with ⟨pulse, -, hfed⟩ | hnot
    · rw [hfed]
      exact queue_accept he _ _ _
    · rw [hnot]
      exact hqueue
  | motion source user magnitude time =>
    show (e.processRelative source user magnitude time).1.queue = []
    rcases e.processRelative_cases source user magnitude time with ⟨pulse, -, hfed⟩ | hnot
    · rw [hfed]
      exact queue_accept he _ _ _
    · rw [hnot]
      exact hqueue
  | runUntil ms =>
    -- When all that was due has gone off, the clock alone changes.
    have hadvance : ∀ (e : Engine) time,
        ({ e with clock := e.clock.advanceTo time } : Engine).queue = e.queue := fun _ _ => rfl
    exact (hadvance _ _).trans (queue_runDue _ _ he hqueue)
  | releaseAll time => exact queue_releaseAll he time
  | reload config => exact queue_reload he config

/-- **Between two operations no request waits.** -/
theorem Operated.queue_nil {admits : Config → Prop} {e : Engine} (he : Operated admits e) :
    e.queue = [] := by
  induction he with
  | start => exact queue_start _
  | call hcall he ih => exact queue_after he.measured ih _
  | timer token time he ih => exact queue_onTimer he.measured ih token time

end Engine

end VirtualPad
