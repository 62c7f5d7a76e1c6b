/-!
# Diagnostics

A diagnostic is the report of a failure: a category with a stable code, a message, the symbol it is
about, notes and a suggestion.
-/

namespace OpCalculus

inductive Severity where
  | error
  | warning
  | info
  deriving DecidableEq, Repr

def Severity.text : Severity → String
  | error => "error"
  | warning => "warning"
  | info => "info"

/-- What kind of failure a diagnostic reports. -/
inductive Category where
  | duplicateSymbol
  | unknownDependency
  | levelViolation
  | malformedType
  | unknownSymbol
  | kindMismatch
  | dimensionMismatch
  | occursCheck
  | typeMismatch
  | unboundVariable
  | malformedLiteral
  | solverBudget
  | composition
  | contractViolation
  | notAnOperation
  | execution
  deriving DecidableEq, Repr

namespace Category

def all : List Category :=
  [duplicateSymbol, unknownDependency, levelViolation, malformedType, unknownSymbol, kindMismatch,
   dimensionMismatch, occursCheck, typeMismatch, unboundVariable, malformedLiteral, solverBudget,
   composition, contractViolation, notAnOperation, execution]

def name : Category → String
  | duplicateSymbol => "duplicate_symbol"
  | unknownDependency => "unknown_dependency"
  | levelViolation => "level_violation"
  | malformedType => "malformed_type"
  | unknownSymbol => "unknown_symbol"
  | kindMismatch => "kind_mismatch"
  | dimensionMismatch => "dimension_mismatch"
  | occursCheck => "occurs_check"
  | typeMismatch => "type_mismatch"
  | unboundVariable => "unbound_variable"
  | malformedLiteral => "malformed_literal"
  | solverBudget => "solver_budget"
  | composition => "composition"
  | contractViolation => "contract_violation"
  | notAnOperation => "not_an_operation"
  | execution => "execution"

/-- Codes count from `E0101` for the symbol table, `E0201` for types, `E0301` for operations. -/
def code : Category → String
  | duplicateSymbol => "E0101"
  | unknownDependency => "E0102"
  | levelViolation => "E0103"
  | malformedType => "E0104"
  | unknownSymbol => "E0105"
  | kindMismatch => "E0201"
  | dimensionMismatch => "E0202"
  | occursCheck => "E0203"
  | typeMismatch => "E0204"
  | unboundVariable => "E0205"
  | malformedLiteral => "E0206"
  | solverBudget => "E0207"
  | composition => "E0301"
  | contractViolation => "E0302"
  | notAnOperation => "E0303"
  | execution => "E0304"

def description : Category → String
  | duplicateSymbol => "A symbol with the same name is already registered."
  | unknownDependency => "A dependency or level bucket named by a definition does not exist."
  | levelViolation => "A dependency's level is not strictly lower than the dependent's level."
  | malformedType => "A declared type or scheme is not well formed."
  | unknownSymbol => "A query referenced a symbol that is not registered."
  | kindMismatch => "Two types of different kinds cannot be unified."
  | dimensionMismatch => "Two containers have different dimensions."
  | occursCheck => "Unification would construct an infinite type."
  | typeMismatch => "Expression type does not match expected type."
  | unboundVariable => "A referenced variable or symbol is undefined."
  | malformedLiteral => "A literal has no consistent type."
  | solverBudget => "The constraint solver exceeded its budget."
  | composition => "An operation's output cannot feed the next operation."
  | contractViolation => "A transformation altered an operation's signature."
  | notAnOperation => "A symbol without a function type was used as an operation."
  | execution => "An executable rejected its input or failed."

end Category

/-- The report of a failure. -/
structure Diagnostic where
  category : Category
  message : String
  severity : Severity := .error
  subject : Option String := none
  notes : List String := []
  help : Option String := none
  deriving DecidableEq, Repr

namespace Diagnostic

def code (d : Diagnostic) : String := d.category.code

/-- The message after severity and code, then a line for each note and for the suggestion. -/
def text (d : Diagnostic) : String :=
  let notes := d.notes.map fun note => "\n  note: " ++ note
  let help := d.help.toList.map fun help => "\n  help: " ++ help
  d.severity.text ++ "[" ++ d.code ++ "]: " ++ d.message ++ String.join (notes ++ help)

/-- Several diagnostics are summed up by the first. -/
def summary (ds : List Diagnostic) : String := (ds.head?.map text).getD ""

end Diagnostic

end OpCalculus
