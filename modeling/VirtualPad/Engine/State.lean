import VirtualPad.Config
import VirtualPad.Engine.Latch
import VirtualPad.Host
import VirtualPad.Pad

/-!
# The state of the engine

Between two events the engine is a plain value: the bindings of the mappings, the switchboard, the
cells of the outputs and of the pads, the requests that wait, and the clock with its timers.

A timer is known in three places: the clock has it armed under a token, the table `timers` says
which binding the token belongs to, and the latch of the binding knows the token.  `startTimer` and
`stopTimer` are the only ways to start and stop one, and they treat all three alike.

What the engine does to the outside world goes into its journal.  Nothing in the engine ever reads
the journal.
-/

namespace VirtualPad

/-- A mapping at work. -/
structure Binding where
  mapping : Mapping
  /-- The slot of the target that the mapping writes into, if the target has slots and one was
  free. -/
  slot : Option Slot := none
  latch : Latch := {}
  deriving Inhabited

/-- The binding that a timer belongs to. -/
structure TimerUse where
  token : TimerToken
  binding : Nat
  kind : TimerKind
  deriving DecidableEq, Repr

/-- What the engine has asked of its clock. -/
inductive TimerRequest where
  | once (delay : Nanoseconds) (token : TimerToken)
  | repeating (period : Nanoseconds) (token : TimerToken)
  | cancel (token : TimerToken)
  deriving DecidableEq, Repr

/-- What the engine has done to the outside world, each list in order. -/
structure Journal where
  /-- The pads as they were committed. -/
  snapshots : Array Snapshot := #[]
  /-- What the host was told. -/
  events : Array HostEvent := #[]
  /-- What the clock was asked for. -/
  requests : Array TimerRequest := #[]
  deriving Inhabited

/-- The engine between two events. -/
structure Engine where
  settings : Settings := {}
  vocabulary : Vocabulary := {}
  /-- The mappings in the order of declaration; the place of a mapping is its number. -/
  bindings : Array Binding := #[]
  board : Switchboard := {}
  /-- The cells of the outputs, which belong to no user. -/
  outputs : Std.TreeMap Control ButtonCell := ∅
  pads : PadBank := {}
  /-- Requests that have not been carried out yet. -/
  queue : List Request := []
  remainder : MotionRemainder Float := MotionRemainder.none
  clock : Clock := {}
  timers : List TimerUse := []
  /-- The last token given to a timer. -/
  lastToken : TimerToken := 0
  activeUser : User := User.first
  /-- Mappings do nothing, except for the one that switches them on again. -/
  disabled : Bool := false
  /-- The configuration came with diagnostics. -/
  hadError : Bool := false
  /-- The time of the last event in milliseconds. -/
  lastTime : Nat := 0
  journal : Journal := {}
  deriving Inhabited

namespace Engine

/-- What a control is at present. -/
def descriptor (e : Engine) (c : Control) : Descriptor := e.vocabulary.descriptor c

def userCount (e : Engine) : Nat := e.pads.count

def mapBinding (e : Engine) (id : Nat) (change : Binding → Binding) : Engine :=
  { e with bindings := e.bindings.modify id change }

def mapLatch (e : Engine) (id : Nat) (change : Latch → Latch) : Engine :=
  e.mapBinding id fun b => { b with latch := change b.latch }

/-- The latch of a binding; a number that no binding has gives a latch at rest. -/
def latch (e : Engine) (id : Nat) : Latch :=
  match e.bindings[id]? with
  | some b => b.latch
  | none => {}

/-- The users that a target means at present. -/
def targetUsers (e : Engine) : UserRef → List User
  | .index user => if h : user < userLimit then [⟨user, h⟩] else []
  | .active => [e.activeUser]
  | .everyone => (List.finRange userLimit).filter fun user => decide (user.val < e.userCount)

/-! ## §1 Timers -/

/-- Asks the clock for something and notes that down. -/
def ask (e : Engine) (request : TimerRequest) : Engine :=
  { e with
    clock := match request with
      | .once delay token => e.clock.once delay token
      | .repeating period token => e.clock.repeating period token
      | .cancel token => e.clock.cancel token
    journal := { e.journal with requests := e.journal.requests.push request } }

/-- The table without a token. -/
def dropTimer (e : Engine) (token : TimerToken) : Engine :=
  { e with timers := e.timers.filter fun t => t.token != token }

/-- The table and the latch of a binding without its timer. -/
def forgetTimer (e : Engine) (id : Nat) (token : TimerToken) : Engine :=
  (e.dropTimer token).mapLatch id fun l => { l with timer := none }

def stopTimer (e : Engine) (id : Nat) : Engine :=
  match (e.latch id).timer with
  | none => e
  | some (token, _) => (e.ask (.cancel token)).forgetTimer id token

/-- Starts a timer for a binding under a new token, in place of the one it had. -/
def startTimer (e : Engine) (id : Nat) (kind : TimerKind) (request : TimerToken → TimerRequest) :
    Engine :=
  let e := e.stopTimer id
  let token := e.lastToken + 1
  let e := e.ask (request token)
  let e := { e with lastToken := token, timers := { token, binding := id, kind } :: e.timers }
  e.mapLatch id fun l => { l with timer := some (token, kind) }

/-- Carries out what was decided about the timer of a binding. -/
def followPlan (e : Engine) (id : Nat) : TimerPlan → Engine
  | .keep => e
  | .stop => e.stopTimer id
  | .once delay kind => e.startTimer id kind (.once delay)
  | .repeating period kind => e.startTimer id kind (.repeating period)

/-- The binding and the kind of a timer that is running. -/
def timerUse? (e : Engine) (token : TimerToken) : Option TimerUse :=
  e.timers.find? fun t => t.token == token

end Engine

end VirtualPad
