import OpCalculus.Text.Alphabetic
import OpCalculus.Text.Numeric
import OpCalculus.Ty.Text

/-!
# Declared types

A type that an author may declare: its variables are named by identifiers, and a tensor has at
least one dimension. The check reports the first fault from the outside in and from left to right.
-/

namespace OpCalculus

/-- Why a type cannot be declared. -/
inductive WellFormedError where
  | freshVariable (v : TypeVar)
  | invalidVariableName (name : String)
  | emptyTensorShape
  deriving DecidableEq, Repr

def WellFormedError.message : WellFormedError → String
  | freshVariable v => s!"declared types cannot mention inference variable `{v}`"
  | invalidVariableName name => s!"type variable name `{name}` is not an identifier"
  | emptyTensorShape => "tensor shape must have at least one dimension"

/-- An identifier starts with a letter or underscore and goes on with letters, numbers and
underscores. -/
def isIdentifier (name : String) : Bool :=
  match name.toList with
  | [] => false
  | first :: rest =>
      (Text.isAlphabetic first || first = '_') &&
        rest.all fun c => Text.isAlphabetic c || Text.isNumeric c || c = '_'

def TypeVar.checkDeclared : TypeVar → Except WellFormedError Unit
  | fresh id => .error (.freshVariable (fresh id))
  | named name => if isIdentifier name then .ok () else .error (.invalidVariableName name)

/-- Checks that a type may be declared. -/
def Ty.checkDeclared : Ty → Except WellFormedError Unit
  | scalar _ => .ok ()
  | var v => v.checkDeclared
  | tensor shape element => if shape = [] then .error .emptyTensorShape else element.checkDeclared
  | vector _ element => element.checkDeclared
  | matrix _ _ element => element.checkDeclared
  | sequence element => element.checkDeclared
  | function input output => do
      input.checkDeclared
      output.checkDeclared
  | strategy state action => do
      state.checkDeclared
      action.checkDeclared

end OpCalculus
