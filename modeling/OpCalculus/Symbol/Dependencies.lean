import OpCalculus.DepthFirst
import OpCalculus.Distinct
import OpCalculus.Symbol.Table

/-!
# Transitive dependencies

The dependencies of symbols are followed twice over. `allDependencies` walks from name to name in
declared order. `closure`, which execution starts from, walks from place to place, where a place is
the number of a symbol in order of registration.
-/

namespace OpCalculus

namespace SymbolTable

/-- The declared dependencies of a registered name. -/
def dependencies (t : SymbolTable) (name : String) : List String :=
  ((t.get? name).map (·.dependencies)).getD []

/-- The registered names that are reached from a stack, in declared order. -/
def search (t : SymbolTable) (visited stack : List String) : List String :=
  depthFirst t.names t.dependencies visited stack

/-- All transitive dependencies of a symbol, depth first in declared order, without the symbol
itself. An unknown name has none. -/
def allDependencies (t : SymbolTable) (name : String) : List String :=
  t.search [name] (t.dependencies name)

/-! ## Places -/

/-- The place of a name in order of registration. -/
def position (t : SymbolTable) (name : String) : Nat := t.names.idxOf name

/-- The place of a registered name. -/
def position? (t : SymbolTable) (name : String) : Option Nat :=
  if t.contains name then some (t.position name) else none

/-- The places of the dependencies of the symbol at a place, without repetition. -/
def dependencyPositions (t : SymbolTable) (place : Nat) : List Nat :=
  match t.definitions[place]? with
  | some d => distinct (d.dependencies.filterMap t.position?)
  | none => []

/-- The places of the given names and of all their transitive dependencies. Whatever is put on the
stack last is visited first. -/
def closurePositions (t : SymbolTable) (names : List String) : List Nat :=
  depthFirst (List.range t.size) (fun place => (t.dependencyPositions place).reverse) []
    (names.filterMap t.position?).reverse

/-- The given names and all their transitive dependencies. -/
def closure (t : SymbolTable) (names : List String) : List String :=
  (t.closurePositions names).filterMap fun place => t.names[place]?

end SymbolTable

end OpCalculus
