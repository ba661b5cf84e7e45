import VirtualPad.Engine.Commands

/-!
# Installing a configuration

A configuration is installed onto an engine that holds nothing: the switchboard gets a line for
every control that matters, every pad goes back to how it is when switched on, and every mapping
gets the lowest slot that is free in all cells it drives.  Mappings are served in the order of
declaration; one that finds no slot is left without.
-/

namespace VirtualPad

/-! ## §1 The switchboard -/

namespace Switchboard

/-- The list with one more item at its end, unless it is there already. -/
def withItem {α : Type} [BEq α] (items : List α) (item : α) : List α :=
  if items.contains item then items else items ++ [item]

/-- The board with the components of a pair reporting to it; other controls change nothing. -/
def connectPair (b : Switchboard) (v : Vocabulary) (c : Control) : Switchboard :=
  match (v.descriptor c).pair with
  | none => b
  | some (first, second) =>
    [first, second].foldl (fun b component =>
      (b.connect component).adjust component fun l => { l with pairs := withItem l.pairs c }) b

/-- The board with a mapping on the chain of its source. -/
def connectSource (b : Switchboard) (v : Vocabulary) (id : Nat) (source : Control) : Switchboard :=
  ((b.connect source).adjust source fun l => { l with chain := l.chain ++ [id] }).connectPair v
    source

/-- The board with a mapping watching a control that its conditions read. -/
def connectWatcher (b : Switchboard) (v : Vocabulary) (id : Nat) (c : Control) : Switchboard :=
  ((b.connect c).adjust c fun l => { l with watchers := withItem l.watchers id }).connectPair v c

/-- The board with the lines that a mapping needs. -/
def connectMapping (b : Switchboard) (v : Vocabulary) (id : Nat) (m : Mapping) : Switchboard :=
  let b := b.connectSource v id m.source
  let b := if (v.descriptor m.target).cell == .output .var then b.connect m.target else b
  ((Condition.testsOf m.conditions).map Test.control).foldl
    (fun b c => b.connectWatcher v id c) b

def ofMappings (v : Vocabulary) (mappings : List Mapping) : Switchboard :=
  mappings.zipIdx.foldl (fun b (m, id) => b.connectMapping v id m) {}

end Switchboard

/-! ## §2 Slots -/

namespace PadBank

/-- The slots that are taken in a cell of the pads of some users. -/
def owned (b : PadBank) (users : List User) (cell : PadCell) : Mask :=
  users.foldl (fun m user => m ||| (b.pad user).owned cell) Mask.none

/-- The pads with a slot of a cell taken for each of some users. -/
def claim (b : PadBank) (users : List User) (cell : PadCell) (slot : Slot) : PadBank :=
  users.foldl (fun b user => b.set user ((b.pad user).claim cell slot)) b

end PadBank

namespace Engine

/-- The users on whose pads a mapping takes a slot: the one it names, or all. -/
def slotUsers (e : Engine) : UserRef → List User
  | .index user => e.targetUsers (.index user)
  | .active | .everyone => e.targetUsers .everyone

/-- Takes the lowest slot that is free in every cell a mapping drives. -/
def claimSlot (e : Engine) (m : Mapping) : Engine × Option Slot :=
  match (e.descriptor m.target).cell with
  | .pad cell =>
    let users := e.slotUsers m.targetUser
    match (e.pads.owned users cell).lowestFree? with
    | none => (e, none)
    | some slot => ({ e with pads := e.pads.claim users cell slot }, some slot)
  | .output _ =>
    let cell := (e.outputs[m.target]?).getD {}
    match Mask.lowestFree? cell.owned with
    | none => ({ e with outputs := e.outputs.insert m.target cell }, none)
    | some slot => ({ e with outputs := e.outputs.insert m.target (cell.claim slot) }, some slot)
  | _ => (e, none)

/-- The engine with one more mapping bound. -/
def bind (e : Engine) (m : Mapping) : Engine :=
  let (e, slot) := e.claimSlot m
  { e with bindings := e.bindings.push { mapping := m, slot } }

/-! ## §3 The whole configuration -/

/-- The engine without bindings, outputs and timers, and with the board for a configuration. -/
def vacate (e : Engine) (config : Config) : Engine :=
  let count := clampUsers config.settings.users
  { e with
    settings := config.settings
    vocabulary := config.vocabulary
    bindings := #[]
    board := Switchboard.ofMappings config.vocabulary config.mappings
    outputs := ∅
    pads := { e.pads with count }
    remainder := MotionRemainder.none
    timers := []
    activeUser := if e.activeUser < count then e.activeUser else User.first
    disabled := false
    hadError := config.hadError }

/-- Every pad goes back to how it is when switched on.  Readers hear of the pads in use that look
different afterwards. -/
def resetPads (config : Config) (t : Turn) : Turn :=
  (List.finRange userLimit).foldl (fun t (user : User) =>
    let options := config.padOf user
    t.updatePad user fun pad =>
      let (pad, changed) := pad.reset options.stickShape options.connected
      (pad, changed && decide (user < t.engine.userCount))) t

/-- Puts a configuration in place of the old one, at a time. -/
def install (e : Engine) (config : Config) (time : Nat) : Engine :=
  config.mappings.foldl bind ((e.vacate config).inTurn time (resetPads config))

end Engine
end VirtualPad
