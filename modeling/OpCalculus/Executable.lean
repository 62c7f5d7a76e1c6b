import OpCalculus.Diagnostic
import OpCalculus.Value.Basic

/-!
# Executables

The implementation of an operation. Two executables are the same only if they come from the same
construction, whatever they compute; each construction has its own number.
-/

namespace OpCalculus

/-- Why an operation did not return a value. -/
inductive ExecError where
  | rejected (expected : Ty) (found : Value)
  | failed (reason : String)
  | inOperation (operation : String) (cause : ExecError)

namespace ExecError

def message : ExecError → String
  | rejected expected found => s!"expected a value of type {expected}, got {found}"
  | failed reason => reason
  | inOperation operation cause => s!"`{operation}` failed: {cause.message}"

/-- The innermost error. -/
def root : ExecError → ExecError
  | inOperation _ cause => cause.root
  | e => e

/-- Names the operation in which an error arose, unless it names one already. -/
def attributedTo (operation : String) : ExecError → ExecError
  | inOperation inner cause => inOperation inner cause
  | e => inOperation operation e

def diagnostic (e : ExecError) : Diagnostic where
  category := .execution
  message := e.message
  subject := match e with
    | inOperation operation _ => some operation
    | _ => none
  help := match e.root with
    | rejected _ _ => some "check the operation's declared input type"
    | _ => none

end ExecError

/-- What an operation does with a value. -/
abbrev Behaviour := Value → Except ExecError Value

/-- A behaviour with the number of its construction. -/
structure Executable where
  id : Nat
  call : Behaviour

namespace Executable

/-- Whether two executables come from the same construction. -/
def same (a b : Executable) : Bool := a.id = b.id

/-- Executables do not show what they compute. -/
def text (_ : Executable) : String := "Executable(..)"

end Executable

end OpCalculus
