import VirtualPad.Engine.Cascade

/-!
# Carrying out commands

Requests wait in a queue while a turn is going on and are carried out after it, one by one.
Carrying one out may take a turn of its own and may put further requests at the end of the queue:
switching the mappings off ends the holds of the active user, for one.
-/

namespace VirtualPad
namespace Engine

/-- Releases by force what a binding holds, and stops its timer. -/
def forceRelease (t : Turn) (id : Nat) : Turn :=
  let t := if (t.engine.latch id).isLatched then t.release Turn.listen id else t
  t.mapEngine fun e => e.stopTimer id

/-- Releases everything in one turn: all bindings in order, and then whatever is left on the pads in
use, such as strengths that were built up and the angles of rotators. -/
def forceReleaseAll (e : Engine) (time : Nat) : Engine :=
  e.inTurn time fun t =>
    let t := (List.range e.bindings.size).foldl forceRelease t
    t.updatePads (t.engine.targetUsers .everyone) Pad.releaseAll

/-- Another user becomes the active one, unless there is no pad for that user. -/
def setActiveUser (e : Engine) (user : User) : Engine :=
  if user < e.userCount then { e with activeUser := user } else e

def obey (e : Engine) (r : Request) (time : Nat) : Engine :=
  match r.command with
  | .toggleDisable =>
    if e.disabled then { e with disabled := false }
    else { e.forceReleaseAll time with disabled := true }
  | .setActiveUser => e.setActiveUser r.user
  | .holdActiveUser =>
    if e.bindings.size ≤ r.mapping then e
    else if r.pressed then
      let before := e.activeUser
      (e.mapLatch r.mapping fun l => { l with restoreUser := some before }).setActiveUser r.user
    else match (e.latch r.mapping).restoreUser with
      | none => e
      | some before =>
        (e.mapLatch r.mapping fun l => { l with restoreUser := none }).setActiveUser before
  | .toggleConnected =>
    if r.user < e.userCount then
      e.inTurn time fun t =>
        t.updatePad r.user fun pad => ({ pad with connected := !pad.connected }, true)
    else e
  | .reload | .loadConfig => Turn.tellHost e #[.command r]

/-- Carries out requests as long as there are any; the number bounds how many. -/
def obeyAll (time : Nat) : Nat → Engine → Engine
  | 0, e => e
  | bound + 1, e =>
    match e.queue with
    | [] => e
    | r :: rest => obeyAll time bound ({ e with queue := rest }.obey r time)

/-- Carries out every request.  No request starts a binding, and a binding that ends makes one
request for each of at most eight users, so the bound is never reached. -/
def drainQueue (e : Engine) (time : Nat) : Engine :=
  obeyAll time (e.queue.length + userLimit * e.bindings.size) e

end Engine
end VirtualPad
