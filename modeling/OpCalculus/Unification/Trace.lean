import OpCalculus.Unification.Basic

/-!
# The steps of a unification

`Unification.events l r` lists what unification does to two types, in order, up to the end or to the
conflict.
-/

namespace OpCalculus

inductive UnifyAction where
  | identity
  | decompose
  | bind
  | occursCheck
  | error
  deriving DecidableEq, Repr

/-- What is done to a pair of types. -/
structure UnifyEvent where
  action : UnifyAction
  left : Ty
  right : Ty
  detail : String
  deriving DecidableEq, Repr

/-- An event with its position in a trace, counted from one. -/
structure UnifyStep extends UnifyEvent where
  step : Nat
  deriving DecidableEq, Repr

namespace Unification

/-- The parts of a type that are compared one by one. -/
def partsText : Ty → String
  | .vector _ _ => "vector elements"
  | .matrix _ _ _ => "matrix elements"
  | .tensor _ _ => "tensor elements"
  | .sequence _ => "sequence elements"
  | .function _ _ => "input, then output"
  | .strategy _ _ => "state, then action"
  | .scalar _ | .var _ => ""

def bindEvent (l r : Ty) (v : TypeVar) (t : Ty) : UnifyEvent :=
  if v ∈ t.occurrences then ⟨.occursCheck, l, r, s!"{v} occurs in {t}"⟩
  else ⟨.bind, l, r, s!"{v} := {t}"⟩

def Move.event {l r : Ty} : Move l r → UnifyEvent
  | .skip _ => ⟨.identity, l, r, "types already equal"⟩
  | .bind v t _ => bindEvent l r v t
  | .clash => ⟨.error, l, r, s!"cannot unify {l.variant} with {r.variant}"⟩
  | .misfit _ => ⟨.error, l, r, "dimensions differ"⟩
  | .enter _ _ _ | .split _ _ _ _ _ => ⟨.decompose, l, r, partsText l⟩

/-- Makes moves as unification does and writes their events into a log, which is kept after a
conflict. -/
def logging {σ : Type} (write : σ → UnifyEvent → σ) : Actions (EStateM UnifyError σ) where
  note move := modify (write · move.event)
  bind binds := MonadExcept.ofExcept (bindVar binds)
  fail := throw
  join splits first second := return join splits first second

/-- What unification does to two types, in order. -/
def events (l r : Ty) : List UnifyEvent :=
  match solveWith (logging fun log event => log ++ [event]) l r [] with
  | .ok _ log | .error _ log => log

end Unification

/-- Appends events to a trace with the next positions. -/
def appendEvents (trace : List UnifyStep) (events : List UnifyEvent) : List UnifyStep :=
  trace ++ (events.zipIdx (trace.length + 1)).map fun (event, step) => { event with step }

end OpCalculus
