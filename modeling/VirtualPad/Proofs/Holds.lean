import Mathlib.Logic.Function.Basic
import VirtualPad.Proofs.FreshStart
import VirtualPad.Proofs.Loads
import VirtualPad.Proofs.Orders

/-!
# Holds of the active user

A mapping that holds the active user puts a user in place when it comes into effect and, when it ends,
goes back to the user whom it found.  The engine remembers for each of them whom that was, and nothing
besides.

* `Tenure` is what there is to know about the active user, and `Tenure.after` what requests that are
  carried out make of it.
* `Engine.HoldsKept` says that the requests of each hold are its beginnings and ends by turns, down to
  those that still wait, and for users who have a pad.  Whatever happens keeps it so.
* `activeUser_of_holds` puts them together: the active user is what the requests say.  If the holds
  end in the opposite order to the one they began in, that is the user of the innermost one, and when
  all have ended, the user from before.  `activeUser_overlapping` has two holds that end in the order
  they began in, and the user of the first one stays.
-/

namespace VirtualPad

/-! ## §1 Tenures -/

/-- Who the active user is, and to whom each hold goes back when it ends. -/
structure Tenure where
  active : User
  saved : Nat → Option User

namespace Tenure

/-- Someone is active, and not because of a hold. -/
def of (user : User) : Tenure := ⟨user, fun _ => none⟩

/-- A hold saves the active user when it begins, and when it ends it goes back to the one it saved. -/
def step (s : Tenure) (r : Request) : Tenure :=
  if r.command ≠ .holdActiveUser then s
  else if r.pressed then ⟨r.user, Function.update s.saved r.mapping (some s.active)⟩
  else match s.saved r.mapping with
    | none => s
    | some before => ⟨before, Function.update s.saved r.mapping none⟩

/-- What is left after several requests in a row. -/
def after (s : Tenure) (log : List Request) : Tenure := log.foldl step s

/-- The request begins a hold that has not begun or ends one that has, if it is about a hold. -/
def Alternates (s : Tenure) (r : Request) : Prop :=
  r.command = .holdActiveUser → r.pressed = !(s.saved r.mapping).isSome

/-- A hold begins inside those there are, or the innermost one ends. -/
def nest (held : List (Nat × User)) (r : Request) : Option (List (Nat × User)) :=
  if r.command ≠ .holdActiveUser then some held
  else if r.pressed then some ((r.mapping, r.user) :: held)
  else match held with
    | [] => none
    | (id, _) :: rest => if id = r.mapping then some rest else none

/-- The holds that requests leave, each with its user and the innermost one first.  There is no answer
if a hold ends that is not the innermost one. -/
def nested (log : List Request) : Option (List (Nat × User)) := log.foldlM nest []

/-- The holds have begun one inside another, when someone was active. -/
inductive Stacked (base : User) : List (Nat × User) → Tenure → Prop
  | free : Stacked base [] (of base)
  | inside {held : List (Nat × User)} {s : Tenure} (h : Stacked base held s) {id : Nat}
      (hnew : s.saved id = none) (user : User) :
      Stacked base ((id, user) :: held) ⟨user, Function.update s.saved id (some s.active)⟩

variable {base : User} {held held' : List (Nat × User)} {s : Tenure}

/-- The innermost hold says who is active. -/
theorem Stacked.active (h : Stacked base held s) :
    s.active = (held.head?.map Prod.snd).getD base := by
  cases h <;> rfl

theorem Stacked.mem_iff (h : Stacked base held s) (id : Nat) :
    id ∈ held.map Prod.fst ↔ (s.saved id).isSome = true := by
  induction h with
  | free => simp [of]
  | @inside held s _ first _ user ih =>
    by_cases hsame : id = first
    · subst hsame
      simp
    · simpa [hsame] using ih

/-- **While holds nest**, ending the innermost one restores everything as it was before it began. -/
theorem Stacked.step (h : Stacked base held s) {r : Request} (hr : s.Alternates r)
    (hnest : nest held r = some held') : Stacked base held' (s.step r) := by
  unfold nest at hnest
  unfold Tenure.step
  split at hnest
  · rename_i hother
    obtain rfl := Option.some.inj hnest
    rwa [if_pos hother]
  · rename_i hhold
    rw [if_neg hhold]
    -- A press goes on top of the holds there are, and only the topmost is let go of.
    have hturn := hr (not_not.mp hhold)
    split at hnest
    · rename_i hpressed
      obtain rfl := Option.some.inj hnest
      rw [if_pos hpressed]
      rw [hpressed] at hturn
      exact .inside h (by simpa using hturn) r.user
    · rename_i hreleased
      rw [if_neg hreleased]
      cases h with
      | free => contradiction
      | @inside rest before hrest id hnew user =>
        simp only [Option.ite_none_right_eq_some, Option.some.injEq] at hnest
        obtain ⟨rfl, rfl⟩ := hnest
        have hback : Function.update before.saved r.mapping none = before.saved :=
          Function.update_eq_self_iff.mpr hnew.symm
        simp only [Function.update_self, Function.update_idem, hback]
        exact hrest

end Tenure

/-! ## §2 Holds that are kept -/

/-- Presses and releases take turns, and lead from one state to another. -/
def TakesTurns : Bool → List Request → Bool → Prop
  | down, [], last => down = last
  | down, r :: rest, last => r.pressed = !down ∧ TakesTurns r.pressed rest last

theorem TakesTurns.append {down between last : Bool} {requests more : List Request}
    (h : TakesTurns down requests between) (hmore : TakesTurns between more last) :
    TakesTurns down (requests ++ more) last := by
  induction requests generalizing down with
  | nil =>
    obtain rfl : down = between := h
    exact hmore
  | cons r rest ih => exact ⟨h.1, ih h.2⟩

/-- The requests that begin or end a hold. -/
def holdRequests (id : Nat) (requests : List Request) : List Request :=
  requests.filter fun r => r.command == .holdActiveUser && r.mapping == id

theorem holdRequests_append (id : Nat) (requests more : List Request) :
    holdRequests id (requests ++ more) = holdRequests id requests ++ holdRequests id more :=
  List.filter_append ..

theorem holdRequests_cons_of_ne {id : Nat} {r : Request}
    (h : ¬ (r.command = .holdActiveUser ∧ r.mapping = id)) (rest : List Request) :
    holdRequests id (r :: rest) = holdRequests id rest :=
  List.filter_cons_of_neg (by simpa using h)

theorem holdRequests_cons {id : Nat} {r : Request}
    (h : r.command = .holdActiveUser ∧ r.mapping = id) (rest : List Request) :
    holdRequests id (r :: rest) = r :: holdRequests id rest :=
  List.filter_cons_of_pos (by simpa using h)

namespace Engine

variable {e e' : Engine} {pending : List Request}

/-- The binding holds the active user while it is in effect. -/
def IsHold (e : Engine) (id : Nat) : Prop :=
  ∃ b, e.bindings[id]? = some b ∧ (e.descriptor b.mapping.target).cell = .command .holdActiveUser

theorem isHold_congr (hlayout : e'.layout = e.layout) (id : Nat) : e'.IsHold id ↔ e.IsHold id := by
  unfold IsHold
  simp only [descriptor_congr hlayout]
  exact exists_binding_congr hlayout
    (fun m => (e.descriptor m.target).cell = .command .holdActiveUser) id

def tenure (e : Engine) : Tenure := ⟨e.activeUser, fun id => (e.latch id).restoreUser⟩

/-- It is one user, who has a pad. -/
def Single (e : Engine) (users : List User) : Prop := ∃ user, users = [user] ∧ user < e.userCount

/-- The requests that wait go on with the holds as they are: they begin and end each of them by turns,
until it is in effect or not as the latch of its binding says.  All users in question have a pad. -/
structure HoldsKept (e : Engine) (pending : List Request) : Prop where
  present : e.activeUser < e.userCount
  aimed (id : Nat) (b : Binding) : e.bindings[id]? = some b →
    (e.descriptor b.mapping.target).cell = .command .holdActiveUser →
      b.mapping.targetUser = .active ∨
        ∃ user : User, b.mapping.targetUser = .index user ∧ user < e.userCount
  users (id : Nat) : e.IsHold id → (e.latch id).applied = [] ∨ e.Single (e.latch id).applied
  turns (id : Nat) : e.IsHold id → TakesTurns (e.latch id).restoreUser.isSome
    (holdRequests id pending) (e.latch id).active
  saved (id : Nat) (user : User) : (e.latch id).restoreUser = some user →
    e.IsHold id ∧ user < e.userCount
  named : ∀ r ∈ pending, r.command = .holdActiveUser → e.IsHold r.mapping ∧ r.user < e.userCount

namespace HoldsKept

/-- The target of a hold means one user. -/
theorem single (he : e.HoldsKept pending) {id : Nat} {b : Binding} (hb : e.bindings[id]? = some b)
    (hcell : (e.descriptor b.mapping.target).cell = .command .holdActiveUser) :
    e.Single (e.targetUsers b.mapping.targetUser) := by
  rcases he.aimed id b hb hcell with hactive | ⟨user, hindex, huser⟩
  · rw [hactive]
    exact ⟨e.activeUser, rfl, he.present⟩
  · rw [hindex]
    exact ⟨user, dif_pos user.isLt, huser⟩

/-- Holds may begin and end as long as that is requested. -/
theorem change (he : e.HoldsKept pending) (hlayout : e'.layout = e.layout)
    (htenure : e'.tenure = e.tenure) {more : List Request}
    (hnamed : ∀ r ∈ more, r.command = .holdActiveUser → e.IsHold r.mapping ∧ r.user < e.userCount)
    (husers : ∀ id, e.IsHold id → (e'.latch id).applied = (e.latch id).applied ∨
      (e'.latch id).applied = [] ∨ e.Single (e'.latch id).applied)
    (hturns : ∀ id, e.IsHold id →
      TakesTurns (e.latch id).active (holdRequests id more) (e'.latch id).active) :
    e'.HoldsKept (pending ++ more) := by
  have hcount : e'.userCount = e.userCount := congrArg Layout.users hlayout
  have hactive : e'.activeUser = e.activeUser := congrArg Tenure.active htenure
  have hrestore : ∀ id, (e'.latch id).restoreUser = (e.latch id).restoreUser := fun id =>
    congrFun (congrArg Tenure.saved htenure) id
  refine ⟨?_, fun id b' hb' hcell => ?_, fun id hhold => ?_, fun id hhold => ?_,
    fun id user hsaved => ?_, fun r hr hcommand => ?_⟩
  · rw [hactive, hcount]
    exact he.present
  · obtain ⟨b, hb, hmapping, -⟩ := binding_congr hlayout.symm hb'
    rw [← hmapping, hcount]
    rw [descriptor_congr hlayout, ← hmapping] at hcell
    exact he.aimed id b hb hcell
  · have hhold := (isHold_congr hlayout id).mp hhold
    unfold Single
    rw [hcount]
    rcases husers id hhold with hsame | hnone | hsingle
    · rw [hsame]
      exact he.users id hhold
    · exact .inl hnone
    · exact .inr hsingle
  · have hhold := (isHold_congr hlayout id).mp hhold
    rw [hrestore, holdRequests_append]
    exact (he.turns id hhold).append (hturns id hhold)
  · rw [hrestore] at hsaved
    rw [isHold_congr hlayout, hcount]
    exact he.saved id user hsaved
  · rw [isHold_congr hlayout, hcount]
    rcases List.mem_append.mp hr with hold | hnew
    · exact he.named r hold hcommand
    · exact hnamed r hnew hcommand

/-- Nothing happens to the holds. -/
theorem congr (he : e.HoldsKept pending) (hlayout : e'.layout = e.layout)
    (htenure : e'.tenure = e.tenure) (hactive : ∀ id, (e'.latch id).active = (e.latch id).active)
    (husers : ∀ id, (e'.latch id).applied = (e.latch id).applied ∨ (e'.latch id).applied = []) :
    e'.HoldsKept pending := by
  have hsame : e'.HoldsKept (pending ++ []) := by
    refine he.change hlayout htenure (by simp) (fun id _ => ?_) fun id _ => (hactive id).symm
    exact (husers id).imp_right .inl
  rwa [List.append_nil] at hsame

/-- A request that is no hold does not matter. -/
theorem drop {r : Request} {rest : List Request} (he : e.HoldsKept (r :: rest))
    (hother : r.command ≠ .holdActiveUser) : e.HoldsKept rest where
  present := he.present
  aimed := he.aimed
  users := he.users
  turns id hhold := by
    have hturns := he.turns id hhold
    rwa [holdRequests_cons_of_ne fun h => hother h.1] at hturns
  saved := he.saved
  named q hq := he.named q (List.mem_cons_of_mem _ hq)

/-- Nothing holds the active user and nothing has been requested. -/
theorem ofInstall {config : Config} (hconfig : config.IsCompiled) (e : Engine) (time : Nat)
    (hpresent : (e.install config time).activeUser < (e.install config time).userCount) :
    (e.install config time).HoldsKept [] where
  present := hpresent
  aimed id b hb hcell := by
    have hm := List.mem_of_getElem? (install_binding hb).1
    rw [install_descriptor] at hcell
    have hchecked := hconfig.checked hm
    cases huser : b.mapping.targetUser with
    | active => exact .inl rfl
    | index user =>
      have hcount := hchecked.targetUser user huser
      refine .inr ⟨⟨user, hcount.trans_le hconfig.users.2⟩, rfl, ?_⟩
      rw [count_install, hconfig.clampUsers]
      exact hcount
    | everyone => exact absurd hcell (hchecked.oneActive huser).2
  users id _ := .inl (by rw [install_latch])
  turns id _ := by
    rw [install_latch]
    rfl
  saved id user hsaved := by
    rw [install_latch] at hsaved
    contradiction
  named := by simp

end HoldsKept

end Engine

/-! ## §3 Turns -/

namespace Turn

variable {t t' t'' : Turn}

/-- All requests that have not been carried out. -/
def pending (t : Turn) : List Request := t.engine.queue ++ t.requests

/-- The active user stays the same in a turn, and the holds are kept. -/
structure KeepsHolds (t t' : Turn) : Prop where
  tenure : t'.engine.tenure = t.engine.tenure
  kept : t.engine.HoldsKept t.pending → t'.engine.HoldsKept t'.pending

namespace KeepsHolds

theorem refl (t : Turn) : KeepsHolds t t := ⟨rfl, id⟩

theorem trans (h : KeepsHolds t t') (h' : KeepsHolds t' t'') : KeepsHolds t t'' :=
  ⟨h'.tenure.trans h.tenure, fun ht => h'.kept (h.kept ht)⟩

/-- Nothing happens to the holds. -/
theorem quiet (hlayout : t'.engine.layout = t.engine.layout)
    (htenure : t'.engine.tenure = t.engine.tenure) (hpending : t'.pending = t.pending)
    (hactive : ∀ id, (t'.engine.latch id).active = (t.engine.latch id).active)
    (husers : ∀ id, (t'.engine.latch id).applied = (t.engine.latch id).applied ∨
      (t'.engine.latch id).applied = []) : KeepsHolds t t' :=
  ⟨htenure, fun ht => hpending ▸ ht.congr hlayout htenure hactive husers⟩

theorem of_untimed {change : Engine → Engine}
    (huntimed : (change t.engine).untimed = t.engine.untimed) :
    KeepsHolds t (t.mapEngine change) := by
  have hlatch := Engine.latch_of_untimed huntimed
  refine .quiet (Engine.layout_of_untimed huntimed) ?_ ?_
    (fun id => (congrArg Latch.active (hlatch id) :))
    fun id => .inl (congrArg Latch.applied (hlatch id) :)
  · have hactive := (congrArg Engine.activeUser huntimed :)
    have hrestore : (fun id => ((change t.engine).latch id).restoreUser) =
        fun id => (t.engine.latch id).restoreUser :=
      funext fun id => (congrArg Latch.restoreUser (hlatch id) :)
    exact congrArg₂ Tenure.mk hactive hrestore
  · exact congrArg (· ++ t.requests) (congrArg Engine.queue huntimed :)

/-- A latch changes in what does not matter for holds. -/
theorem mapLatch {id : Nat} {change : Latch → Latch}
    (hrestore : (change (t.engine.latch id)).restoreUser = (t.engine.latch id).restoreUser)
    (hactive : (change (t.engine.latch id)).active = (t.engine.latch id).active)
    (husers : (change (t.engine.latch id)).applied = (t.engine.latch id).applied ∨
      (change (t.engine.latch id)).applied = []) :
    KeepsHolds t (t.mapLatch id change) := by
  refine .quiet (Engine.layout_mapLatch _ _ _) ?_ rfl
    (fun i => Engine.latch_mapLatch_congr Latch.active hactive i) fun i => ?_
  · exact congrArg (Tenure.mk _) (funext fun i =>
      Engine.latch_mapLatch_congr Latch.restoreUser hrestore i)
  · rw [engine_mapLatch, Engine.latch_mapLatch]
    split
    · rename_i hsame
      obtain ⟨rfl, -⟩ := hsame
      exact husers
    · exact .inl rfl

/-- Pads and outputs are written. -/
theorem write {pads : PadBank} {outputs : Std.TreeMap Control ButtonCell}
    (hengine : t'.engine = t.engine.write pads outputs) (hlayout : t'.engine.layout = t.engine.layout)
    (hrequests : t'.requests = t.requests) : KeepsHolds t t' := by
  refine .quiet hlayout ?_ ?_ ?_ ?_
  · rw [hengine]
    rfl
  · unfold pending
    rw [hengine, hrequests]
    rfl
  · rw [hengine]
    exact fun _ => rfl
  · rw [hengine]
    exact fun _ => .inl rfl

end KeepsHolds

variable {id : Nat} {b : Binding} {pulse : Pulse} {forced : Bool} {latch : Latch}

theorem tenure_firstStep (hb : t.engine.bindings[id]? = some b) {response : Option Response}
    (hrespond : b.latch.respond b.mapping (t.sourceOf b) (t.targetOf b) pulse.down pulse.strength
      forced = (latch, response)) :
    (t.firstStep id b pulse forced latch response).engine.tenure = t.engine.tenure := by
  have hsteps := t.steps_firstStep hb pulse forced latch response
  refine congrArg₂ Tenure.mk hsteps.gates.1 (funext fun i => ?_)
  have hcore := congrArg Latch.restoreUser (core_firstStep hb pulse forced latch response i)
  refine hcore.trans ?_
  split
  · rename_i hsame
    obtain ⟨rawDown, active, toggled, lit, rfl⟩ := Latch.respond_frame hrespond
    rw [← hsame, Engine.latch_of_getElem? hb]
    rfl
  · rfl

/-- When a hold comes into effect or ends it asks for just that, once. -/
theorem asks_hold (ht : t.engine.HoldsKept t.pending) (hb : t.engine.bindings[id]? = some b)
    (hcell : (t.targetOf b).cell = .command .holdActiveUser) {r : Response}
    (hforced : forced = true → r.now = false) : ∃ user : User, user < t.engine.userCount ∧
      t.asks id b r forced = if r.now = r.was then [] else
        [⟨.holdActiveUser, user, r.now && !r.was, b.mapping.payload, id⟩] := by
  have hgiven : t.engine.Single (t.givenFor b r) := by
    unfold givenFor
    split
    · rename_i hends
      simp only [Bool.and_eq_true, Bool.not_eq_true', List.isEmpty_eq_false_iff] at hends
      have husers := ht.users id ⟨b, hb, hcell⟩
      rw [Engine.latch_of_getElem? hb] at husers
      exact husers.resolve_left hends.2
    · exact ht.single hb hcell
  obtain ⟨user, hgiven, huser⟩ := hgiven
  refine ⟨user, huser, ?_⟩
  unfold asks Response.gives
  rw [hcell, hgiven]
  obtain ⟨was, now, emits, strength⟩ := r
  cases forced with
  | false => cases was <;> cases now <;> rfl
  | true =>
    obtain rfl : now = false := hforced rfl
    cases was <;> rfl

/-- A response that is swallowed is none to a hold. -/
theorem keepsHolds_swallow (hb : t.engine.bindings[id]? = some b)
    (hrespond : b.latch.respond b.mapping (t.sourceOf b) (t.targetOf b) pulse.down pulse.strength
      forced = (latch, none)) :
    KeepsHolds t (t.mapLatch id fun _ => latch) := by
  have hlatch := Engine.latch_of_getElem? hb
  obtain ⟨rawDown, active, toggled, lit, hframe⟩ := Latch.respond_frame hrespond
  refine .mapLatch ?_ ?_ (.inl ?_)
  · rw [hlatch, hframe]
  · rw [hlatch]
    exact congrArg Prod.fst (Latch.respond_none hrespond)
  · rw [hlatch]
    exact Latch.respond_applied hrespond

variable {r : Response}

/-- A hold that begins or ends has asked for that. -/
theorem keepsHolds_firstStep_hold (hb : t.engine.bindings[id]? = some b)
    (hcell : (t.targetOf b).cell = .command .holdActiveUser)
    (hrespond : b.latch.respond b.mapping (t.sourceOf b) (t.targetOf b) pulse.down pulse.strength
      forced = (latch, some r)) :
    KeepsHolds t (t.firstStep id b pulse forced latch (some r)) := by
  have hsteps := t.steps_firstStep hb pulse forced latch (some r)
  have happlied := Latch.respond_applied hrespond
  obtain ⟨hwas, hnow⟩ := Latch.respond_some hrespond
  have hlatch := Engine.latch_of_getElem? hb
  have hactive := active_firstStep hb hrespond
  have hforced : forced = true → r.now = false := by
    rintro rfl
    rw [hnow]
    exact (Latch.respond_forced hrespond).1
  refine ⟨tenure_firstStep hb hrespond, fun ht => ?_⟩
  -- The hold asks for one user on a rising edge, and gives that one back on a falling one.
  obtain ⟨user, huser, hasks⟩ := asks_hold ht hb hcell hforced
  unfold pending
  rw [hsteps.queue, requests_firstStep hb pulse forced happlied r, ← List.append_assoc, hasks]
  refine ht.change hsteps.layout (tenure_firstStep hb hrespond) (fun q hq _ => ?_) (fun i _ => ?_)
    fun i _ => ?_
  · split at hq
    · contradiction
    · obtain rfl := List.mem_singleton.mp hq
      exact ⟨⟨b, hb, hcell⟩, huser⟩
  · by_cases hsame : id = i
    · subst hsame
      have hin : id < t.engine.bindings.size := (Array.getElem?_eq_some_iff.mp hb).1
      have hself := (congrArg (fun e : Engine => (e.latch id).applied)
        (engine_firstStep_command hcell id pulse forced latch r)).trans
        (congrArg Latch.applied ((Engine.latch_mapLatch _ _ _ _).trans (if_pos ⟨rfl, hin⟩)))
      rw [hself, hlatch]
      split
      · exact .inr (.inr (ht.single hb hcell))
      · exact .inl happlied
    · exact .inl (congrArg Latch.applied (latch_firstStep_of_ne b pulse forced latch _ hsame))
  · by_cases hsame : id = i
    · subst hsame
      rw [hactive, hlatch, ← hwas]
      split
      · rename_i hstays
        exact hstays.symm
      · rename_i hchanges
        cases hrising : r.now <;> cases hbefore : r.was <;> simp_all [TakesTurns, holdRequests]
    · rw [latch_firstStep_of_ne b pulse forced latch _ hsame]
      split
      · rfl
      · rw [holdRequests_cons_of_ne fun h => hsame h.2]
        rfl

/-- What is no hold neither asks for one nor is one. -/
theorem keepsHolds_firstStep_other (hb : t.engine.bindings[id]? = some b)
    (hcell : (t.targetOf b).cell ≠ .command .holdActiveUser)
    (hrespond : b.latch.respond b.mapping (t.sourceOf b) (t.targetOf b) pulse.down pulse.strength
      forced = (latch, some r)) :
    KeepsHolds t (t.firstStep id b pulse forced latch (some r)) := by
  have hsteps := t.steps_firstStep hb pulse forced latch (some r)
  have hnone : ∀ q ∈ t.asks id b r forced, q.command ≠ .holdActiveUser := fun q hq hcommand =>
    hcell (hcommand ▸ (mem_asks hq).1)
  have hothers : ∀ i, t.engine.IsHold i →
      (t.firstStep id b pulse forced latch (some r)).engine.latch i = t.engine.latch i := by
    rintro i ⟨b', hb', hcell'⟩
    refine latch_firstStep_of_ne b pulse forced latch _ ?_
    rintro rfl
    obtain rfl := Option.some.inj (hb.symm.trans hb')
    exact hcell hcell'
  refine ⟨tenure_firstStep hb hrespond, fun ht => ?_⟩
  unfold pending
  rw [hsteps.queue, requests_firstStep hb pulse forced (Latch.respond_applied hrespond) r,
    ← List.append_assoc]
  refine ht.change hsteps.layout (tenure_firstStep hb hrespond)
    (fun q hq hcommand => absurd hcommand (hnone q hq))
    (fun i hi => .inl (congrArg Latch.applied (hothers i hi))) fun i hi => ?_
  have hempty : holdRequests i (t.asks id b r forced) = [] :=
    List.filter_eq_nil_iff.mpr fun q hq => by simp [hnone q hq]
  rw [hempty, hothers i hi]
  rfl

theorem keepsHolds_settle (t : Turn) (id : Nat) (m : Mapping) (source target : Descriptor)
    (r : Response) : KeepsHolds t (t.settle id m source target r) := by
  have hplan : KeepsHolds t (t.mapEngine fun e => e.followPlan id
      (m.timerPlan source target t.engine.settings r.was r.now)) :=
    .of_untimed (Engine.untimed_followPlan _ _ _)
  unfold settle
  dsimp only
  split
  · exact hplan
  · exact hplan.trans (.mapLatch rfl rfl (.inr rfl))

theorem keepsHolds_runBinding {onVar : Listener}
    (hvar : ∀ t c pulse, KeepsHolds t (onVar t c pulse).1) (t : Turn) (id : Nat) (pulse : Pulse)
    (forced : Bool) : KeepsHolds t (t.runBinding onVar id pulse forced).1 := by
  refine runBinding_cases (fun _ => .refl t)
    (fun b latch hb _ hrespond => keepsHolds_swallow hb hrespond) fun b latch r hb _ hrespond => ?_
  have hfirst : KeepsHolds t (t.firstStep id b pulse forced latch (some r)) := by
    by_cases hcell : (t.targetOf b).cell = .command .holdActiveUser
    · exact keepsHolds_firstStep_hold hb hcell hrespond
    · exact keepsHolds_firstStep_other hb hcell hrespond
  refine (hfirst.trans ?_).trans (keepsHolds_settle _ id _ _ _ r)
  cases t.firstEcho id b pulse forced latch (some r) with
  | none => exact .refl _
  | some echo => exact hvar _ _ echo

/-- **A source that moves** keeps the holds. -/
theorem keepsHolds_feed (room : Nat) (t : Turn) (c : Control) (pulse : Pulse) :
    KeepsHolds t (feed room t c pulse).1 :=
  feed_rel .refl .trans
    (fun _ _ _ _ => .quiet (Engine.layout_setBoard _ _ _ _) rfl rfl (fun _ => rfl) fun _ => .inl rfl)
    (fun _ hbelow => keepsHolds_runBinding hbelow) room t c pulse

theorem requests_blink (t : Turn) (id : Nat) (source target : Descriptor) :
    (t.blink id source target).1.requests = t.requests := by
  unfold blink
  dsimp only
  split
  · rfl
  · exact requests_writeTarget _ _ _ _ _ _

/-- **So does a timer that goes off.** -/
theorem keepsHolds_tick (t : Turn) (use : TimerUse) : KeepsHolds t (t.tick use) := by
  have hlapse : KeepsHolds t (t.mapEngine fun e => e.lapse use) :=
    .of_untimed (Engine.untimed_lapse _ _)
  have hticked := (steps_tick t use).layout
  cases hb : t.engine.bindings[use.binding]? with
  | none =>
    unfold tick
    simp only [hb]
    exact .refl t
  | some b =>
    -- Only a release and the echo of a blink can come to a request.
    cases hkind : use.kind with
    | repeating | rotate | keyRepeatDelay | keyRepeat =>
      obtain ⟨⟨pads, hengine⟩, hrequests⟩ := t.tick_idle hb (by rw [hkind]; rfl)
      have hlayout := (Engine.layout_of_untimed (Engine.untimed_lapse t.engine use)).symm
      exact hlapse.trans (.write hengine (hticked.trans hlayout) hrequests)
    | release =>
      unfold tick
      simp only [hb, hkind]
      exact hlapse.trans (keepsHolds_runBinding (keepsHolds_feed cascadeRoom) _ _ _ _)
    | turbo =>
      unfold tick
      simp only [hb, hkind]
      refine hlapse.trans ?_
      generalize (t.mapEngine fun e => e.lapse use) = lapsed
      have hblink : KeepsHolds lapsed (lapsed.blink use.binding
          (t.engine.descriptor b.mapping.source) (t.engine.descriptor b.mapping.target)).1 := by
        obtain ⟨pads, outputs, hengine, hcount⟩ := blink_frame lapsed use.binding
          (t.engine.descriptor b.mapping.source) (t.engine.descriptor b.mapping.target)
        have hlit : KeepsHolds lapsed
            (lapsed.mapLatch use.binding fun l => { l with lit := !l.lit }) :=
          .mapLatch rfl rfl (.inl rfl)
        refine hlit.trans (.write hengine ?_ (requests_blink _ _ _ _))
        rw [hengine]
        exact Engine.layout_write _ outputs hcount
      refine hblink.trans ?_
      cases (lapsed.blink use.binding (t.engine.descriptor b.mapping.source)
        (t.engine.descriptor b.mapping.target)).2 with
      | none => exact .refl _
      | some echo => exact keepsHolds_feed cascadeRoom _ _ echo

/-- **So do forced releases.** -/
theorem keepsHolds_forceReleases (t : Turn) (ids : List Nat) :
    KeepsHolds t (ids.foldl Engine.forceRelease t) := by
  refine foldl_rel .refl .trans (fun t id => ?_) t ids
  unfold Engine.forceRelease
  dsimp only
  refine KeepsHolds.trans ?_ (.of_untimed (Engine.untimed_stopTimer _ _))
  split
  · exact keepsHolds_runBinding (keepsHolds_feed cascadeRoom) _ _ _ _
  · exact .refl t

/-- When a turn is committed its requests wait in the queue. -/
theorem holdsKept_commit {t : Turn} (ht : t.engine.HoldsKept t.pending) :
    t.commit.HoldsKept t.commit.queue ∧ t.commit.tenure = t.engine.tenure := by
  have hqueue : t.commit.queue = t.pending := queue_commit t
  obtain ⟨pads, queue, remainder, snapshots, events, hcommit, hcount⟩ := t.commit_frame
  rw [hqueue, hcommit]
  exact ⟨ht.congr (Engine.layout_write t.engine t.engine.outputs hcount :) rfl (fun _ => rfl)
    fun _ => .inl rfl, rfl⟩

end Turn

/-! ## §4 Runs -/

namespace Engine

variable {e e' : Engine} {log : List Request}

/-- What a turn of its own leaves, if it keeps the holds. -/
theorem HoldsKept.turn (he : e.HoldsKept e.queue) (lastTime : Nat) {time : Nat} {t : Turn}
    (h : Turn.KeepsHolds { engine := { e with lastTime }, time } t) :
    t.commit.HoldsKept t.commit.queue ∧ t.commit.tenure = e.tenure := by
  have hstart : ({ engine := { e with lastTime }, time } : Turn).engine.HoldsKept
      ({ engine := { e with lastTime }, time } : Turn).pending := by
    show HoldsKept _ (e.queue ++ [])
    rw [List.append_nil]
    exact he.congr rfl rfl (fun _ => rfl) fun _ => .inl rfl
  obtain ⟨hkept, htenure⟩ := Turn.holdsKept_commit (h.kept hstart)
  exact ⟨hkept, htenure.trans h.tenure⟩

theorem HoldsKept.forceReleaseAll (he : e.HoldsKept e.queue) (time : Nat) :
    (e.forceReleaseAll time).HoldsKept (e.forceReleaseAll time).queue ∧
      (e.forceReleaseAll time).tenure = e.tenure := by
  have hreleased := Turn.keepsHolds_forceReleases { engine := e, time }
    (List.range e.bindings.size)
  generalize htarget : (List.range e.bindings.size).foldl Engine.forceRelease
    ({ engine := e, time } : Turn) = released at hreleased
  have hcleared : Turn.KeepsHolds released
      (released.updatePads (released.engine.targetUsers .everyone) Pad.releaseAll) :=
    .write (Turn.engine_updatePads _ _ _) (Turn.Step.layout (.pads _ _ .releaseAll))
      (Turn.requests_updatePads _ _ _)
  have hturn := he.turn e.lastTime (hreleased.trans hcleared)
  unfold Engine.forceReleaseAll inTurn
  dsimp only
  rw [htarget]
  exact hturn

/-- Requests of other kinds leave the holds alone. -/
theorem HoldsKept.obey_other (he : e.HoldsKept e.queue) {r : Request}
    (hother : r.command ≠ .holdActiveUser) (time : Nat) :
    (e.obey r time).HoldsKept (e.obey r time).queue ∧
      (r.command ≠ .setActiveUser → (e.obey r time).tenure = e.tenure) := by
  unfold obey
  split
  · split
    · exact ⟨he.congr rfl rfl (fun _ => rfl) fun _ => .inl rfl, fun _ => rfl⟩
    · obtain ⟨hkept, htenure⟩ := he.forceReleaseAll time
      exact ⟨hkept.congr rfl rfl (fun _ => rfl) fun _ => .inl rfl, fun _ => htenure⟩
  · rename_i hcommand
    refine ⟨?_, fun h => absurd hcommand h⟩
    unfold setActiveUser
    split
    · rename_i hpresent
      exact ⟨hpresent, he.aimed, he.users, he.turns, he.saved, he.named⟩
    · exact he
  · contradiction
  · split
    · have hconnected : Turn.KeepsHolds { engine := e, time } (({ engine := e, time } : Turn).updatePad
          r.user fun pad => ({ pad with connected := !pad.connected }, true)) :=
        .write (Turn.engine_updatePad _ _ _)
          (Turn.Step.layout (.pads _ [r.user] .connect)) (Turn.requests_updatePad _ _ _)
      obtain ⟨hkept, htenure⟩ := he.turn e.lastTime hconnected
      exact ⟨hkept, fun _ => htenure⟩
    · exact ⟨he, fun _ => rfl⟩
  · exact ⟨he.congr rfl rfl (fun _ => rfl) fun _ => .inl rfl, fun _ => rfl⟩
  · exact ⟨he.congr rfl rfl (fun _ => rfl) fun _ => .inl rfl, fun _ => rfl⟩

/-- A hold begins or ends: its binding remembers someone or not, and someone is active. -/
def handOver (e : Engine) (id : Nat) (restore : Option User) (user : User) : Engine :=
  { e.mapLatch id fun l => { l with restoreUser := restore } with activeUser := user }

section

variable (e) (id : Nat) (restore : Option User) (user : User)

theorem layout_handOver : (e.handOver id restore user).layout = e.layout :=
  layout_mapLatch e id fun l => { l with restoreUser := restore }

theorem latch_handOver (other : Nat) : (e.handOver id restore user).latch other =
    if id = other ∧ other < e.bindings.size then
      { e.latch other with restoreUser := restore } else e.latch other :=
  latch_mapLatch e id (fun l => { l with restoreUser := restore }) other

theorem tenure_handOver (hin : id < e.bindings.size) : (e.handOver id restore user).tenure =
    ⟨user, Function.update e.tenure.saved id restore⟩ := by
  refine congrArg (Tenure.mk user) (funext fun other => ?_)
  rw [latch_handOver]
  by_cases hsame : id = other
  · subst hsame
    rw [if_pos ⟨rfl, hin⟩, Function.update_self]
  · rw [if_neg fun h => hsame h.1, Function.update_of_ne (Ne.symm hsame)]
    rfl

end

theorem HoldsKept.handOver {r : Request} {rest : List Request} (he : e.HoldsKept (r :: rest))
    (hhold : r.command = .holdActiveUser) {user : User} (huser : user < e.userCount)
    {restore : Option User} (hrestore : restore.isSome = r.pressed)
    (hpresent : ∀ user, restore = some user → user < e.userCount) :
    (e.handOver r.mapping restore user).HoldsKept rest := by
  obtain ⟨hmine, -⟩ := he.named r (List.mem_cons_self ..) hhold
  have hlayout := e.layout_handOver r.mapping restore user
  -- Its own latch remembers whom to restore; all other latches are as they were.
  have hlatch := e.latch_handOver r.mapping restore user
  refine ⟨huser, fun id b' hb' hcell => ?_, fun id hid => ?_, fun id hid => ?_,
    fun id other hsaved => ?_, fun q hq hcommand => ?_⟩
  · obtain ⟨b, hb, hmapping, -⟩ := binding_congr hlayout.symm hb'
    rw [← hmapping] at hcell ⊢
    exact he.aimed id b hb hcell
  · have hsame : ((e.handOver r.mapping restore user).latch id).applied = (e.latch id).applied := by
      rw [hlatch, apply_ite Latch.applied, ite_self]
    rw [hsame]
    exact he.users id ((isHold_congr hlayout id).mp hid)
  · have hid := (isHold_congr hlayout id).mp hid
    have hturns := he.turns id hid
    rw [hlatch]
    by_cases hsame : r.mapping = id
    · obtain ⟨b, hb, -⟩ := hid
      rw [holdRequests_cons ⟨hhold, hsame⟩] at hturns
      rw [if_pos ⟨hsame, (Array.getElem?_eq_some_iff.mp hb).1⟩]
      show TakesTurns restore.isSome _ _
      rw [hrestore]
      exact hturns.2
    · rw [holdRequests_cons_of_ne fun h => hsame h.2] at hturns
      rw [if_neg fun h => hsame h.1]
      exact hturns
  · rw [isHold_congr hlayout]
    rw [hlatch] at hsaved
    split at hsaved
    · rename_i hsame
      exact ⟨hsame.1 ▸ hmine, hpresent other hsaved⟩
    · exact he.saved id other hsaved
  · rw [isHold_congr hlayout]
    exact he.named q (List.mem_cons_of_mem _ hq) hcommand

/-- **A hold is carried out** the way tenures say, and it begins if it has not begun. -/
theorem HoldsKept.obey_hold {r : Request} {rest : List Request} (he : e.HoldsKept (r :: rest))
    (hhold : r.command = .holdActiveUser) (time : Nat) :
    e.tenure.Alternates r ∧ (e.obey r time).HoldsKept rest ∧
      (e.obey r time).queue = e.queue ∧ (e.obey r time).tenure = e.tenure.step r := by
  obtain ⟨hmine, huser⟩ := he.named r (List.mem_cons_self ..) hhold
  have hin : r.mapping < e.bindings.size := by
    obtain ⟨b, hb, -⟩ := hmine
    exact (Array.getElem?_eq_some_iff.mp hb).1
  have hturns := he.turns r.mapping hmine
  rw [holdRequests_cons ⟨hhold, rfl⟩] at hturns
  have hturn : r.pressed = !(e.tenure.saved r.mapping).isSome := hturns.1
  refine ⟨fun _ => hturn, ?_⟩
  unfold obey Tenure.step
  rw [hhold]
  simp only [if_neg (Nat.not_le.mpr hin), ne_eq, not_true_eq_false, if_false]
  -- Down it remembers who was active and hands over; up it hands back to the one that it remembers.
  by_cases hpressed : r.pressed = true
  · rw [if_pos hpressed, if_pos hpressed]
    have hobeyed : setActiveUser (e.mapLatch r.mapping fun l =>
        { l with restoreUser := some e.activeUser }) r.user =
        e.handOver r.mapping (some e.activeUser) r.user := if_pos huser
    rw [hobeyed]
    exact ⟨he.handOver hhold huser hpressed.symm fun user hsome => Option.some.inj hsome ▸ he.present,
      rfl, e.tenure_handOver r.mapping _ _ hin⟩
  · rw [if_neg hpressed, if_neg hpressed]
    cases hrestore : (e.latch r.mapping).restoreUser with
    | none =>
      refine absurd ?_ hpressed
      rw [hturn]
      exact congrArg (fun saved => !saved.isSome) hrestore
    | some before =>
      have hsaved : e.tenure.saved r.mapping = some before := hrestore
      have hback := (he.saved r.mapping before hrestore).2
      have hobeyed : setActiveUser (e.mapLatch r.mapping fun l => { l with restoreUser := none })
          before = e.handOver r.mapping none before := if_pos hback
      simp only [hsaved, hobeyed]
      exact ⟨he.handOver hhold hback (by simpa using hpressed) (by simp), rfl,
        e.tenure_handOver r.mapping _ _ hin⟩

/-- **At every stage** the holds are kept.  Unless the active user is set, the requests carried out say
what becomes of it, and they begin and end each hold by turns. -/
theorem HoldsKept.stage (he : e.HoldsKept e.queue) (h : Stage e log e') :
    e'.HoldsKept e'.queue ∧ ((∀ r ∈ log, r.command ≠ .setActiveUser) →
      e'.tenure = e.tenure.after log ∧ ∀ r ∈ log, e.tenure.Alternates r) := by
  cases h with
  | feed c pulse time =>
    obtain ⟨hkept, htenure⟩ := he.turn time (Turn.keepsHolds_feed (cascadeRoom + 1)
      { engine := { e with lastTime := time }, time } c pulse)
    exact ⟨hkept, fun _ => ⟨htenure, by simp⟩⟩
  | expire huse time =>
    obtain ⟨hkept, htenure⟩ := he.turn time (Turn.keepsHolds_tick
      { engine := { e with lastTime := time }, time } _)
    exact ⟨hkept, fun _ => ⟨htenure, by simp⟩⟩
  | release time =>
    obtain ⟨hkept, htenure⟩ := he.forceReleaseAll time
    exact ⟨hkept, fun _ => ⟨htenure, by simp⟩⟩
  | pass clock => exact ⟨he.congr rfl rfl (fun _ => rfl) fun _ => .inl rfl, fun _ => ⟨rfl, by simp⟩⟩
  | @obey r rest hqueue time =>
    rw [hqueue] at he
    -- A request has been taken off the queue before it is obeyed.
    have htaken : ({ e with queue := rest } : Engine).HoldsKept (r :: rest) :=
      he.congr rfl rfl (fun _ => rfl) fun _ => .inl rfl
    by_cases hhold : r.command = .holdActiveUser
    · obtain ⟨halternates, hkept, hrest, htenure⟩ := htaken.obey_hold hhold time
      rw [hrest]
      refine ⟨hkept, fun _ => ⟨htenure, fun q hq => ?_⟩⟩
      rw [List.mem_singleton.mp hq]
      exact halternates
    · obtain ⟨hkept, htenure⟩ := (htaken.drop hhold).obey_other hhold time
      refine ⟨hkept, fun hset => ⟨?_, fun q hq hcommand => ?_⟩⟩
      · have hstep : e.tenure.step r = e.tenure := if_pos hhold
        exact (htenure (hset r (List.mem_singleton_self r))).trans hstep.symm
      · rw [List.mem_singleton.mp hq] at hcommand
        exact absurd hcommand hhold

theorem HoldsKept.stages (he : e.HoldsKept e.queue) (h : Stages e log e') :
    e'.HoldsKept e'.queue := by
  induction h with
  | refl => exact he
  | tail _ hlast ih => exact (ih.stage hlast).1

/-- Between two operations no hold is on its way. -/
theorem Operated.holdsKept (he : Operated Config.IsCompiled e) : e.HoldsKept [] := by
  have hqueue : ∀ {e}, Operated Config.IsCompiled e → e.HoldsKept e.queue → e.HoldsKept [] :=
    fun he hkept => he.queue_nil ▸ hkept
  have hwaits : ∀ {e}, Operated Config.IsCompiled e → e.HoldsKept [] → e.HoldsKept e.queue :=
    fun he hkept => he.queue_nil.symm ▸ hkept
  induction he with
  | start hconfig => exact .ofInstall hconfig _ _ (Operated.start hconfig).mirrored.mirrors.present
  | @call e call hcall he ih =>
    refine hqueue (he.call hcall) ?_
    by_cases hreload : ∃ config, call = .reload config
    · obtain ⟨config, rfl⟩ := hreload
      have hpresent := (he.call hcall).mirrored.mirrors.present
      refine hwaits (he.call hcall) ?_
      show (e.reload config).HoldsKept []
      change (e.reload config).activeUser < (e.reload config).userCount at hpresent
      rw [reload_eq he] at hpresent ⊢
      exact .ofInstall hcall _ _ hpresent
    · exact (hwaits he ih).stages (e.stages_after fun config h => hreload ⟨config, h⟩)
  | @timer e token time he ih =>
    exact hqueue (he.timer token time) ((hwaits he ih).stages (e.stages_handle (.timer token time)))

/-- What several stages make of the active user, and of holds that nest. -/
theorem HoldsKept.tenures (he : e.HoldsKept e.queue) {base : User} (hfree : e.tenure = .of base)
    (h : Stages e log e') (hset : ∀ r ∈ log, r.command ≠ .setActiveUser) :
    e'.tenure = (Tenure.of base).after log ∧
      ∀ held, Tenure.nested log = some held → Tenure.Stacked base held e'.tenure := by
  induction h with
  | refl =>
    refine ⟨hfree, fun held hnested => ?_⟩
    obtain rfl : [] = held := Option.some.inj hnested
    rw [hfree]
    exact .free
  | @tail e₁ e₂ log last hstages hlast ih =>
    obtain ⟨htenure, hstacked⟩ := ih fun r hr => hset r (List.mem_append_left _ hr)
    obtain ⟨hafter, halternates⟩ := ((he.stages hstages).stage hlast).2 fun r hr =>
      hset r (List.mem_append_right _ hr)
    refine ⟨?_, fun held hnested => ?_⟩
    · rw [hafter, htenure]
      exact List.foldl_append.symm
    · unfold Tenure.nested at hnested
      rw [List.foldlM_append] at hnested
      obtain ⟨between, hbetween, hheld⟩ := Option.bind_eq_some_iff.mp hnested
      have hbefore := hstacked between hbetween
      cases hlast with
      | feed | expire | release | pass =>
        obtain rfl : between = held := Option.some.inj hheld
        rw [hafter]
        exact hbefore
      | @obey r =>
        rw [hafter]
        have hstep : Tenure.nest between r = some held := by simpa using hheld
        exact hbefore.step (halternates r (List.mem_singleton_self r)) hstep

/-- Nobody is to be gone back to if no hold is in effect. -/
theorem HoldsKept.tenure_of (he : e.HoldsKept [])
    (hfree : ∀ id, e.IsHold id → (e.latch id).active = false) : e.tenure = .of e.activeUser := by
  refine congrArg (Tenure.mk e.activeUser) (funext fun id => ?_)
  cases hrestore : (e.latch id).restoreUser with
  | none => rfl
  | some user =>
    have hhold := (he.saved id user hrestore).1
    have hturns : (e.latch id).restoreUser.isSome = (e.latch id).active := he.turns id hhold
    rw [hrestore, hfree id hhold] at hturns
    contradiction

/-- **The active user** after the engine has been driven, however holds began and ended: it is what the
requests that have been carried out say, as long as none of them sets it and no hold was in effect
before.  If the holds nest, the innermost one says who it is, and when none is in effect any more it
is who it was. -/
theorem activeUser_of_holds (he : Operated Config.IsCompiled e)
    (hfree : ∀ id, e.IsHold id → (e.latch id).active = false) (h : Session e log e')
    (hset : ∀ r ∈ log, r.command ≠ .setActiveUser) :
    e'.activeUser = ((Tenure.of e.activeUser).after log).active ∧
      ∀ held, Tenure.nested log = some held →
        e'.activeUser = (held.head?.map Prod.snd).getD e.activeUser ∧
        (∀ id, id ∈ held.map Prod.fst ↔ e'.IsHold id ∧ (e'.latch id).active = true) ∧
        ((∀ id, e'.IsHold id → (e'.latch id).active = false) → e'.activeUser = e.activeUser) := by
  have hbefore := he.holdsKept
  have hafter := (h.operated he).holdsKept
  have hkept : e.HoldsKept e.queue := he.queue_nil.symm ▸ hbefore
  obtain ⟨htenure, hstacked⟩ := hkept.tenures (hbefore.tenure_of hfree) h.stages hset
  refine ⟨congrArg Tenure.active htenure, fun held hnested => ?_⟩
  have hstack := hstacked held hnested
  have hmem : ∀ id, id ∈ held.map Prod.fst ↔ e'.IsHold id ∧ (e'.latch id).active = true := by
    intro id
    rw [hstack.mem_iff]
    constructor
    · intro hsome
      obtain ⟨user, huser⟩ := Option.isSome_iff_exists.mp hsome
      have hhold := (hafter.saved id user huser).1
      exact ⟨hhold, (hafter.turns id hhold :).symm.trans hsome⟩
    · rintro ⟨hhold, hactive⟩
      exact (hafter.turns id hhold :).trans hactive
  refine ⟨hstack.active, hmem, fun hnone => ?_⟩
  have hempty : held = [] := by
    refine List.eq_nil_iff_forall_not_mem.mpr fun hold hin => ?_
    obtain ⟨hhold, hactive⟩ := (hmem hold.1).mp (List.mem_map_of_mem hin)
    rw [hnone hold.1 hhold] at hactive
    contradiction
  rw [hempty] at hstack
  exact hstack.active

/-- Tab holds the second user active and F5 the third one. -/
def holdingConfig : ConfigFile :=
  { general := { users := some 3 }
    mappings :=
      [{ source := "Tab", target := "HoldActiveUser@2" },
        { source := "F5", target := "HoldActiveUser@3" }] }

/-- F5 is pressed and released while Tab is held. -/
def nesting : List Call :=
  [.input ⟨0x09⟩ 0 true 1 0, .input ⟨0x74⟩ 0 true 1 1, .input ⟨0x74⟩ 0 false 0 2,
    .input ⟨0x09⟩ 0 false 0 3]

/-- Both are held at a time, and Tab is released first. -/
def overlapping : List Call :=
  [.input ⟨0x09⟩ 0 true 1 0, .input ⟨0x74⟩ 0 true 1 1, .input ⟨0x09⟩ 0 false 0 2,
    .input ⟨0x74⟩ 0 false 0 3]

/-- No binding of the engine is in effect. -/
def idle (e : Engine) : Bool := e.bindings.toList.all fun b => !b.latch.active

theorem active_of_idle {e : Engine} (h : e.idle = true) (id : Nat) :
    (e.latch id).active = false := by
  cases hb : e.bindings[id]? with
  | none => rw [latch_of_le (Array.getElem?_eq_none_iff.mp hb)]
  | some b =>
    rw [latch_of_getElem? hb]
    have hmem := Array.mem_toList_iff.mpr (Array.mem_of_getElem? hb)
    simpa using List.all_eq_true.mp h b hmem

/-- Holds that nest leave the active user as it was. -/
theorem activeUser_nesting : Tenure.nested ((ofConfig holdingConfig.compile).ordersAlong nesting) =
      some [] ∧
    ((ofConfig holdingConfig.compile).afterAll (nesting.take 2)).activeUser = 2 ∧
    ((ofConfig holdingConfig.compile).afterAll nesting).activeUser =
      (ofConfig holdingConfig.compile).activeUser := by
  have hrun : (ofConfig holdingConfig.compile).idle = true ∧
      (∀ r ∈ (ofConfig holdingConfig.compile).ordersAlong nesting, r.command ≠ .setActiveUser) ∧
      Tenure.nested ((ofConfig holdingConfig.compile).ordersAlong nesting) = some [] ∧
      ((ofConfig holdingConfig.compile).afterAll (nesting.take 2)).activeUser = 2 := by
    decide +kernel
  obtain ⟨hidle, hset, hnested, hheld⟩ := hrun
  have hcalls : ∀ call ∈ nesting, ∀ config, call ≠ .reload config := by simp [nesting]
  have hsession : Session (ofConfig holdingConfig.compile)
      ((ofConfig holdingConfig.compile).ordersAlong nesting)
      ((ofConfig holdingConfig.compile).afterAll nesting) := by
    have hcalled := (Session.start (ofConfig holdingConfig.compile)).calls hcalls
    rwa [List.nil_append] at hcalled
  have hholds := activeUser_of_holds (Reachable.compiled _).operated
    (fun id _ => active_of_idle hidle id) hsession hset
  exact ⟨hnested, hheld, (hholds.2 [] hnested).1⟩

/-- Holds that overlap do not: in the end the second user is active, whom only Tab held. -/
theorem activeUser_overlapping :
    (∀ id, ((ofConfig holdingConfig.compile).latch id).active = false) ∧
    (∀ r ∈ (ofConfig holdingConfig.compile).ordersAlong overlapping, r.command ≠ .setActiveUser) ∧
    (∀ id, (((ofConfig holdingConfig.compile).afterAll overlapping).latch id).active = false) ∧
    (ofConfig holdingConfig.compile).activeUser = User.first ∧
    ((ofConfig holdingConfig.compile).afterAll overlapping).activeUser = 1 := by
  have hrun : (ofConfig holdingConfig.compile).idle = true ∧
      (∀ r ∈ (ofConfig holdingConfig.compile).ordersAlong overlapping,
        r.command ≠ .setActiveUser) ∧
      ((ofConfig holdingConfig.compile).afterAll overlapping).idle = true ∧
      (ofConfig holdingConfig.compile).activeUser = User.first ∧
      ((ofConfig holdingConfig.compile).afterAll overlapping).activeUser = 1 := by
    decide +kernel
  exact ⟨active_of_idle hrun.1, hrun.2.1, active_of_idle hrun.2.2.1, hrun.2.2.2⟩

end Engine

end VirtualPad
