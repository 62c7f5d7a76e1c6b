import OpCalculus.Symbol.Table

/-!
# The registration log

A log records every attempt to register a symbol, accepted or not. The table itself records
nothing.
-/

namespace OpCalculus

inductive RegistrationOutcome where
  | accepted
  | rejected (code message : String)
  deriving DecidableEq, Repr

/-- An attempt to register a symbol. -/
structure RegistrationEvent where
  /-- The place among all attempts, counted from one. -/
  sequence : Nat
  name : String
  level : Nat
  outcome : RegistrationOutcome
  deriving DecidableEq, Repr

/-- All attempts, in order. -/
structure RegistrationLog where
  events : List RegistrationEvent := []
  deriving DecidableEq, Repr

def RegistrationEvent.isAccepted (e : RegistrationEvent) : Bool := e.outcome = .accepted

namespace RegistrationLog

/-- Records the outcome of an attempt. -/
def record {α : Type} (log : RegistrationLog) (d : SymbolDefinition)
    (result : Except RegistrationError α) : RegistrationLog :=
  let outcome := match result with
    | .ok _ => .accepted
    | .error e => .rejected e.diagnostic.code e.message
  ⟨log.events ++ [⟨log.events.length + 1, d.name, d.level, outcome⟩]⟩

/-- The attempts that were rejected. -/
def rejected (log : RegistrationLog) : List RegistrationEvent :=
  log.events.filter fun e => !e.isAccepted

end RegistrationLog

/-- Checks a definition, records the outcome and then adds the definition if it passed the check. -/
def SymbolTable.registerLogged (t : SymbolTable) (log : RegistrationLog) (d : SymbolDefinition) :
    Except RegistrationError Unit × SymbolTable × RegistrationLog :=
  let checked := t.validate d
  let log := log.record d checked
  match checked with
  | .ok () => (.ok (), t.insert d, log)
  | .error e => (.error e, t, log)

end OpCalculus
