import OpCalculus.Symbol.Log

/-!
# Workspaces

A workspace holds symbol tables, each with or without a log. Tables are reached through handles;
all holders of one handle see the same table.
-/

namespace OpCalculus

/-- A table that may keep a log of registrations. -/
structure LoggedTable where
  table : SymbolTable := {}
  log : Option RegistrationLog := none

namespace LoggedTable

/-- Registers a definition. The attempt is recorded when there is a log. -/
def register (l : LoggedTable) (d : SymbolDefinition) :
    Except RegistrationError Unit × LoggedTable :=
  match l.log with
  | some log =>
      let (result, table, log) := l.table.registerLogged log d
      (result, ⟨table, some log⟩)
  | none =>
      let (result, table) := l.table.register d
      (result, ⟨table, none⟩)

/-- The recorded attempts, none without a log. -/
def events (l : LoggedTable) : List RegistrationEvent := (l.log.map (·.events)).getD []

/-- An independent copy without a log. -/
def snapshot (l : LoggedTable) : LoggedTable := ⟨l.table, none⟩

end LoggedTable

/-- Tables by their handles. -/
structure Workspace where
  tables : List LoggedTable := []

namespace Workspace

abbrev Handle := Nat

/-- Adds a table and returns its handle. -/
def add (w : Workspace) (l : LoggedTable) : Handle × Workspace :=
  (w.tables.length, ⟨w.tables ++ [l]⟩)

/-- The table of a handle; an unused handle has an empty table. -/
def get (w : Workspace) (h : Handle) : LoggedTable := (w.tables[h]?).getD {}

/-- Registers a definition in the table of a handle. -/
def register (w : Workspace) (h : Handle) (d : SymbolDefinition) :
    Except RegistrationError Unit × Workspace :=
  let (result, l) := (w.get h).register d
  (result, ⟨w.tables.set h l⟩)

end Workspace

end OpCalculus
