import VirtualPad.Config.Diagnostic

/-!
# Verdicts

Compiling goes on when it finds something wrong.  A `Verdict` is what one check comes to: the
diagnostics it has to report and, unless the thing is to be left out, its value.  Checks in a row
report in that order, and the first that leaves its thing out is the last that is made.
-/

namespace VirtualPad

/-- What a check comes to. -/
structure Verdict (α : Type) where
  value : Option α
  diagnostics : List Diagnostic

namespace Verdict

variable {α β : Type}

/-- One check after another. -/
def andThen (first : Verdict α) (next : α → Verdict β) : Verdict β :=
  match first.value with
  | none => ⟨none, first.diagnostics⟩
  | some a =>
    let second := next a
    ⟨second.value, first.diagnostics ++ second.diagnostics⟩

instance : Monad Verdict where
  pure a := ⟨some a, []⟩
  bind := andThen

/-- Leaves the thing out because of `d`. -/
def refuse (d : Diagnostic) : Verdict α := ⟨none, [d]⟩

/-- Leaves the thing out because of `d` unless the condition is met. -/
def require (condition : Bool) (d : Diagnostic) : Verdict Unit :=
  if condition then pure () else refuse d

/-- Goes on with `a` after reporting `ds`. -/
def report (ds : List Diagnostic) (a : α) : Verdict α := ⟨some a, ds⟩

@[simp] theorem pure_value (a : α) : (pure a : Verdict α).value = some a := rfl

@[simp] theorem pure_diagnostics (a : α) : (pure a : Verdict α).diagnostics = [] := rfl

end Verdict

end VirtualPad
