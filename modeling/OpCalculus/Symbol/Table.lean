import OpCalculus.Roster
import OpCalculus.Symbol.Definition

/-!
# The symbol table

Registered symbols in order of registration, with two indexes: the names on each level and the
dependents of each name. A definition is registered only if its name is new, its level exists, its
dependencies are registered on strictly lower levels and its type may be declared. A rejected
definition changes nothing.
-/

namespace OpCalculus

/-- Registered symbols. -/
structure SymbolTable where
  /-- All definitions, in order of registration. -/
  definitions : List SymbolDefinition := []
  /-- The names on each level, in order of registration. -/
  levels : Roster Nat := {}
  /-- For each name the symbols that depend on it directly, in order of registration. -/
  dependentsIndex : Roster String := {}

namespace SymbolTable

def empty : SymbolTable := {}

def get? (t : SymbolTable) (name : String) : Option SymbolDefinition :=
  t.definitions.find? (·.name = name)

def contains (t : SymbolTable) (name : String) : Bool := (t.get? name).isSome

def level? (t : SymbolTable) (name : String) : Option Nat := (t.get? name).map (·.level)

/-- All names in order of registration. -/
def names (t : SymbolTable) : List String := t.definitions.map (·.name)

def size (t : SymbolTable) : Nat := t.definitions.length

def isEmpty (t : SymbolTable) : Bool := t.definitions.isEmpty

/-- The definitions on a level, in order of registration. -/
def atLevel (t : SymbolTable) (level : Nat) : List SymbolDefinition :=
  (t.levels.get level).filterMap t.get?

/-- The symbols that depend directly on a name, in order of registration. -/
def dependents (t : SymbolTable) (name : String) : List String := t.dependentsIndex.get name

/-! ## Registration -/

/-- The first dependency, with its level, that is not below the level of a definition. -/
def levelViolation? (t : SymbolTable) (d : SymbolDefinition) : Option (String × Nat) :=
  d.dependencies.findSome? fun dependency =>
    match t.level? dependency with
    | some level => if d.level ≤ level then some (dependency, level) else none
    | none => none

/-- Checks a definition against the table. -/
def validate (t : SymbolTable) (d : SymbolDefinition) : Except RegistrationError Unit :=
  if t.contains d.name then .error (.duplicateSymbol d.name)
  else if maxLevel < d.level then .error (.levelOutOfRange d.name d.level)
  else match d.dependencies.find? (fun dependency => !t.contains dependency) with
    | some dependency => .error (.unknownDependency d.name dependency)
    | none =>
        match d.scheme.checkDeclared with
        | .error e => .error (.malformedType d.name e)
        | .ok () =>
            match t.levelViolation? d with
            | some (dependency, level) =>
                .error (.levelViolation d.name d.level dependency level)
            | none => .ok ()

/-- Adds a definition to the table and to both indexes. -/
def insert (t : SymbolTable) (d : SymbolDefinition) : SymbolTable where
  definitions := t.definitions ++ [d]
  levels := t.levels.push d.level d.name
  dependentsIndex :=
    d.dependencies.foldl (fun index dependency => index.enter dependency d.name) t.dependentsIndex

/-- Registers a definition. The table comes back with every outcome. -/
def register (t : SymbolTable) (d : SymbolDefinition) :
    Except RegistrationError Unit × SymbolTable :=
  match t.validate d with
  | .ok () => (.ok (), t.insert d)
  | .error e => (.error e, t)

/-- Registers definitions in order, up to the first that is rejected. -/
def registerAll (t : SymbolTable) :
    List SymbolDefinition → Except RegistrationError Unit × SymbolTable
  | [] => (.ok (), t)
  | d :: rest =>
      match t.register d with
      | (.ok (), next) => next.registerAll rest
      | (.error e, next) => (.error e, next)

theorem contains_iff {t : SymbolTable} {name : String} :
    t.contains name = true ↔ name ∈ t.names := by
  simp [contains, get?, names]

end SymbolTable

end OpCalculus
