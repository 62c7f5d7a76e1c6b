import OpCalculus.Unification.Trace

/-!
# The constraint solver

A unifier accumulates the solutions of constraints. Each constraint counts against a budget, and the
steps are recorded when tracing is on. A conflict leaves the accumulated solution as it was.
-/

namespace OpCalculus

/-- Why two types have to agree. -/
inductive Reason where
  | application
  | composeFirst
  | composeSecond
  | ascription
  deriving DecidableEq, Repr

def Reason.text : Reason → String
  | application => "function argument must match parameter type"
  | composeFirst => "first operand of a composition must be a function"
  | composeSecond => "composed operation must accept the previous output"
  | ascription => "expression must match its annotation"

instance : ToString Reason := ⟨Reason.text⟩

/-- An equation between an expected and an actual type. -/
structure Constraint where
  expected : Ty
  actual : Ty
  reason : Reason
  deriving DecidableEq, Repr

/-- Why constraints could not be solved. -/
inductive SolveError where
  | typeMismatch (expected actual : Ty) (reason : Reason) (cause : UnifyError)
  | budgetExceeded (limit : Nat)
  deriving DecidableEq, Repr

def SolveError.message : SolveError → String
  | typeMismatch expected actual _ _ => s!"type mismatch: expected {expected}, found {actual}"
  | budgetExceeded limit => s!"constraint solver exceeded its budget of {limit} constraints"

/-- The number of constraints that a solver takes when no other limit is set. -/
def defaultMaxConstraints : Nat := 1000000

/-- An accumulated solution, with the number of constraints taken so far. -/
structure Unifier where
  substitution : Substitution := .empty
  maxConstraints : Nat := defaultMaxConstraints
  solved : Nat := 0
  tracing : Bool := false
  trace : List UnifyStep := []

namespace Unifier

/-- Records the steps that unify two types. -/
def record (u : Unifier) (l r : Ty) : Unifier :=
  if u.tracing then { u with trace := appendEvents u.trace (Unification.events l r) } else u

/-- Unifies two types under the accumulated solution and adds the step, which is returned. -/
def unify (u : Unifier) (expected actual : Ty) : Except UnifyError Substitution × Unifier :=
  let l := u.substitution.apply expected
  let r := u.substitution.apply actual
  let recorded := u.record l r
  match Unification.solve l r with
  | .error e => (.error e, recorded)
  | .ok step =>
      (.ok step.1, { recorded with
        substitution := u.substitution.andThen step.1 (Unification.Splits.avoids step.2) })

/-- Solves constraints in order up to the first conflict or to the end of the budget. -/
def solve (u : Unifier) : List Constraint → Except SolveError Unit × Unifier
  | [] => (.ok (), u)
  | c :: rest =>
      if u.maxConstraints ≤ u.solved then (.error (.budgetExceeded u.maxConstraints), u)
      else
        match { u with solved := u.solved + 1 }.unify c.expected c.actual with
        | (.ok _, next) => next.solve rest
        | (.error cause, next) =>
            (.error (.typeMismatch (next.substitution.apply c.expected)
              (next.substitution.apply c.actual) c.reason cause), next)

end Unifier

end OpCalculus
