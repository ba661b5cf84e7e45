import VirtualPad.Control.Descriptor

/-!
# The names in use

A configuration can add controls of its own: variables, which are outputs that can be sources
again, and custom outputs, which are handed to the host.  A `Vocabulary` holds them beside the
built-in controls.  Custom controls get consecutive numbers in the order of registration, and no
name is ever given away twice, so what a name stands for never changes later.
-/

namespace VirtualPad

/-- The two kinds of custom control. -/
inductive CustomKind where
  | var
  | key
  deriving DecidableEq, Repr

def CustomKind.text : CustomKind → String
  | .var => "Var"
  | .key => "Key"

/-- What a custom control of a kind is. -/
def CustomKind.descriptor : CustomKind → Descriptor
  | .var => { domain := .custom, cell := .output .var }
  | .key => { domain := .custom, cell := .output .customKey, flags := { outputOnly := true } }

/-- A custom control under the exact spelling it was registered with. -/
structure CustomControl where
  name : String
  kind : CustomKind
  deriving DecidableEq, Repr

/-- Why a custom control was not registered. -/
inductive VocabularyError where
  | shadowsBuiltin (name : String)
  | duplicate (name : String)
  | exhausted
  deriving DecidableEq, Repr

def VocabularyError.message : VocabularyError → String
  | .shadowsBuiltin name => "custom control name '" ++ name ++ "' shadows a built-in control"
  | .duplicate name => "custom control '" ++ name ++ "' is already registered"
  | .exhausted => "custom control space exhausted"

/-- The built-in controls together with the custom ones registered so far. -/
structure Vocabulary where
  /-- The custom controls in the order of their numbers. -/
  customs : Array CustomControl := #[]
  /-- The number of each custom control by its folded name. -/
  byName : Std.TreeMap String Control := ∅
  deriving Inhabited

namespace Vocabulary

def size (v : Vocabulary) : Nat := v.customs.size

/-- The control that the custom control at a place has. -/
def controlAt (place : Nat) : Control :=
  ⟨(Control.firstCustom + place).toUInt16⟩

/-- The custom control that a control is. -/
def custom? (v : Vocabulary) (c : Control) : Option CustomControl :=
  if c.isCustom then v.customs[c.number - Control.firstCustom]? else none

/-- Why a name cannot be registered: it folds to a built-in name or to one already registered, or
the numbers have run out. -/
def refusal? (v : Vocabulary) (name : String) : Option VocabularyError :=
  if (Control.named? name).isSome then some (.shadowsBuiltin name)
  else if v.byName.contains (foldCase name) then some (.duplicate name)
  else if Control.customCapacity ≤ v.size then some .exhausted
  else none

/-- Adds a custom control under the next number. -/
def add (v : Vocabulary) (name : String) (kind : CustomKind) : Vocabulary × Control :=
  let c := controlAt v.size
  ({ customs := v.customs.push ⟨name, kind⟩, byName := v.byName.insert (foldCase name) c }, c)

/-- Registers a custom control, unless its name is refused. -/
def register (v : Vocabulary) (name : String) (kind : CustomKind) :
    Except VocabularyError (Vocabulary × Control) :=
  match v.refusal? name with
  | some e => .error e
  | none => .ok (v.add name kind)

/-- The control that goes by `name`, in any letter case; built-in names come first. -/
def resolve? (v : Vocabulary) (name : String) : Option Control :=
  match Control.named? name with
  | some c => some c
  | none => v.byName[foldCase name]?

/-- What a control is, built-in or custom. -/
def descriptor (v : Vocabulary) (c : Control) : Descriptor :=
  if c.isCustom then
    match v.custom? c with
    | some custom => custom.kind.descriptor
    | none => Descriptor.inert
  else Descriptor.builtin c

def displayName (v : Vocabulary) (c : Control) : String :=
  match v.custom? c with
  | some custom => custom.name
  | none => c.text

def toList (v : Vocabulary) : List (String × Control × CustomKind) :=
  v.customs.toList.zipIdx.map fun (custom, place) =>
    (custom.name, controlAt place, custom.kind)

/-- Registers names in order and leaves out those that are refused. -/
def registerAll (v : Vocabulary) (names : List String) (kind : CustomKind) : Vocabulary :=
  names.foldl (fun v name => match v.register name kind with
    | .ok (v, _) => v
    | .error _ => v) v

end Vocabulary

end VirtualPad
