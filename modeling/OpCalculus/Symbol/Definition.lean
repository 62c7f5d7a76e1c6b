import OpCalculus.Complexity
import OpCalculus.Executable
import OpCalculus.Scheme

/-!
# Symbol definitions

A symbol is a named, typed, executable operation on a level. It may depend on symbols of lower
levels, which keeps dependencies free of cycles.
-/

namespace OpCalculus

/-- Levels run from zero to this one. -/
def maxLevel : Nat := 8

/-- What is known of a symbol beyond its type. -/
structure Metadata where
  complexity : Option Complexity := none
  pure : Bool := true
  tags : List String := []
  deriving DecidableEq, Repr

/-- A symbol offered for registration. Dependencies keep their declared order. -/
structure SymbolDefinition where
  name : String
  level : Nat
  scheme : Scheme
  executable : Executable
  dependencies : List String := []
  metadata : Metadata := {}

namespace SymbolDefinition

/-- The declared type, without its quantifier. -/
def ty (d : SymbolDefinition) : Ty := d.scheme.body

def dependsOn (d : SymbolDefinition) (names : List String) : SymbolDefinition :=
  { d with dependencies := d.dependencies ++ names }

def withComplexity (d : SymbolDefinition) (c : Complexity) : SymbolDefinition :=
  { d with metadata.complexity := some c }

def impure (d : SymbolDefinition) : SymbolDefinition := { d with metadata.pure := false }

def withTag (d : SymbolDefinition) (tag : String) : SymbolDefinition :=
  { d with metadata.tags := d.metadata.tags ++ [tag] }

end SymbolDefinition

/-- Why a definition was not registered. -/
inductive RegistrationError where
  | duplicateSymbol (name : String)
  | unknownDependency (name dependency : String)
  | levelOutOfRange (name : String) (level : Nat)
  | levelViolation (name : String) (level : Nat) (dependency : String) (dependencyLevel : Nat)
  | malformedType (name : String) (e : WellFormedError)
  deriving DecidableEq, Repr

namespace RegistrationError

/-- The symbol that was not registered. -/
def name : RegistrationError → String
  | duplicateSymbol name => name
  | unknownDependency name _ => name
  | levelOutOfRange name _ => name
  | levelViolation name _ _ _ => name
  | malformedType name _ => name

def message : RegistrationError → String
  | duplicateSymbol name => s!"symbol `{name}` is already registered"
  | unknownDependency name dependency => s!"`{name}` depends on unknown symbol `{dependency}`"
  | levelOutOfRange name level =>
      s!"`{name}` has level {level}, but levels range over 0..={maxLevel}"
  | levelViolation name level dependency dependencyLevel =>
      s!"`{name}` (level {level}) cannot depend on `{dependency}` (level {dependencyLevel})"
  | malformedType name e => s!"`{name}` has a malformed type: {e.message}"

/-- A level out of range counts as a level that does not exist. -/
def category : RegistrationError → Category
  | duplicateSymbol _ => .duplicateSymbol
  | unknownDependency _ _ => .unknownDependency
  | levelOutOfRange _ _ => .unknownDependency
  | levelViolation _ _ _ _ => .levelViolation
  | malformedType _ _ => .malformedType

def diagnostic (e : RegistrationError) : Diagnostic :=
  let report : Diagnostic :=
    { category := e.category, message := e.message, subject := some e.name }
  match e with
  | duplicateSymbol _ =>
      { report with help := some "symbols cannot be replaced; choose a new name" }
  | unknownDependency _ dependency => { report with help := some s!"register `{dependency}` first" }
  | levelOutOfRange _ _ => { report with notes := [s!"valid levels are 0 through {maxLevel}"] }
  | levelViolation name _ _ dependencyLevel =>
      { report with
        notes := ["dependencies must sit on a strictly lower level"]
        help :=
          if dependencyLevel < maxLevel then some s!"raise `{name}` above level {dependencyLevel}"
          else none }
  | malformedType _ _ => report

end RegistrationError

/-- A name that a query did not find. -/
structure UnknownSymbol where
  name : String
  deriving DecidableEq, Repr

namespace UnknownSymbol

def message (e : UnknownSymbol) : String := s!"unknown symbol `{e.name}`"

def diagnostic (e : UnknownSymbol) : Diagnostic where
  category := .unknownSymbol
  message := e.message
  subject := some e.name

end UnknownSymbol

end OpCalculus
