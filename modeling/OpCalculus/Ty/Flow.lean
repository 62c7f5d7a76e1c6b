import OpCalculus.Ty.Basic

/-!
# Flow between types

`a.flowsInto b` says that a value of type `a` may be used where `b` is expected. Besides equal types
and type variables this takes widening of scalars, a vector or matrix as the tensor of its
dimensions, and a vector as a sequence. Inputs of functions flow the other way.
-/

namespace OpCalculus

namespace ScalarKind

/-- The widenings of a scalar to another kind. -/
def widenings : List (ScalarKind × ScalarKind) := [(bool, int), (int, number), (bool, number)]

/-- Whether a scalar of kind `a` may be used as one of kind `b`. -/
def widensTo (a b : ScalarKind) : Bool := a = b || (a, b) ∈ widenings

end ScalarKind

/-- Whether a value of the first type may be used where the second is expected. -/
def Ty.flowsInto (source target : Ty) : Bool :=
  if source = target then true
  else match source, target with
    | .var _, _ => true
    | _, .var _ => true
    | .scalar a, .scalar b => a.widensTo b
    | .vector m a, .vector n b => m = n && a.flowsInto b
    | .matrix m n a, .matrix m' n' b => m = m' && n = n' && a.flowsInto b
    | .tensor m a, .tensor n b => m = n && a.flowsInto b
    | .sequence a, .sequence b => a.flowsInto b
    | .vector n a, .tensor shape b => shape = [n] && a.flowsInto b
    | .matrix m n a, .tensor shape b => shape = [m, n] && a.flowsInto b
    | .vector _ a, .sequence b => a.flowsInto b
    | .function a b, .function c d => c.flowsInto a && b.flowsInto d
    | .strategy a b, .strategy c d => a.flowsInto c && b.flowsInto d
    | _, _ => false
termination_by source.size + target.size
decreasing_by all_goals simp only [Ty.size]; omega

end OpCalculus
