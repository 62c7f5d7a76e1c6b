import OpCalculus.Distinct
import OpCalculus.TypeVar

/-!
# Types

Types of data and of operations on it. The sizes of vectors, matrices and tensors belong to the
type. A map from variables to types extends to all types by `bind`, which is the one notion of
replacement: substitutions, renamings and instantiation all act through it.
-/

namespace OpCalculus

/-- The kinds of scalar data. -/
inductive ScalarKind where
  | bool
  | int
  | number
  | string
  deriving DecidableEq, Repr, Inhabited

/-- A type. -/
inductive Ty where
  | scalar (kind : ScalarKind)
  | vector (len : Nat) (element : Ty)
  | matrix (rows cols : Nat) (element : Ty)
  | tensor (shape : List Nat) (element : Ty)
  | function (input output : Ty)
  | var (v : TypeVar)
  | sequence (element : Ty)
  | strategy (state action : Ty)
  deriving DecidableEq, Repr, Inhabited

namespace Ty

abbrev bool : Ty := scalar .bool
abbrev int : Ty := scalar .int
abbrev number : Ty := scalar .number
abbrev string : Ty := scalar .string

/-- The name of the outermost constructor. -/
def variant : Ty → String
  | scalar _ => "Scalar"
  | vector _ _ => "Vector"
  | matrix _ _ _ => "Matrix"
  | tensor _ _ => "Tensor"
  | function _ _ => "Function"
  | var _ => "Var"
  | sequence _ => "Sequence"
  | strategy _ _ => "Strategy"

/-- The input and output of a function type. -/
def asFunction? : Ty → Option (Ty × Ty)
  | function input output => some (input, output)
  | _ => none

/-- The number of constructors. -/
def size : Ty → Nat
  | scalar _ => 1
  | vector _ element => element.size + 1
  | matrix _ _ element => element.size + 1
  | tensor _ element => element.size + 1
  | function input output => input.size + output.size + 1
  | var _ => 1
  | sequence element => element.size + 1
  | strategy state action => state.size + action.size + 1

/-! ## Variables -/

/-- The variables of a type from left to right, with repetitions. -/
def occurrences : Ty → List TypeVar
  | scalar _ => []
  | vector _ element => element.occurrences
  | matrix _ _ element => element.occurrences
  | tensor _ element => element.occurrences
  | function input output => input.occurrences ++ output.occurrences
  | var v => [v]
  | sequence element => element.occurrences
  | strategy state action => state.occurrences ++ action.occurrences

/-- The variables of a type, each once, in order of first occurrence. -/
def vars (t : Ty) : List TypeVar := distinct t.occurrences

@[simp] theorem mem_vars {v : TypeVar} {t : Ty} : v ∈ t.vars ↔ v ∈ t.occurrences := mem_distinct

/-- The variables of a type in variable order. -/
def freeVars (t : Ty) : List TypeVar := TypeVar.sorted t.occurrences

/-- A ground type has no variables. -/
def isGround (t : Ty) : Bool := t.occurrences.isEmpty

/-- The largest number of a minted variable in a type. -/
def maxFresh? (t : Ty) : Option Nat := TypeVar.maxFresh? t.occurrences

/-! ## Replacement of variables -/

/-- Replaces all variables at once. -/
def bind (f : TypeVar → Ty) : Ty → Ty
  | scalar kind => scalar kind
  | vector len element => vector len (element.bind f)
  | matrix rows cols element => matrix rows cols (element.bind f)
  | tensor shape element => tensor shape (element.bind f)
  | function input output => function (input.bind f) (output.bind f)
  | var v => f v
  | sequence element => sequence (element.bind f)
  | strategy state action => strategy (state.bind f) (action.bind f)

/-- Replaces the variables that a list pairs with a type; a later pair wins over an earlier one. -/
def replace (t : Ty) (pairs : List (TypeVar × Ty)) : Ty :=
  t.bind fun v => (pairs.reverse.lookup v).getD (var v)

@[simp] theorem bind_var (t : Ty) : t.bind var = t := by
  induction t <;> simp_all [bind]

theorem bind_bind (f g : TypeVar → Ty) (t : Ty) :
    (t.bind f).bind g = t.bind fun v => (f v).bind g := by
  induction t <;> simp_all [bind]

theorem bind_congr {f g : TypeVar → Ty} {t : Ty} (h : ∀ v ∈ t.occurrences, f v = g v) :
    t.bind f = t.bind g := by
  induction t <;> simp_all [bind, occurrences]

theorem occurrences_bind (f : TypeVar → Ty) (t : Ty) :
    (t.bind f).occurrences = t.occurrences.flatMap fun v => (f v).occurrences := by
  induction t <;> simp_all [bind, occurrences]

theorem mem_occurrences_bind {f : TypeVar → Ty} {t : Ty} {w : TypeVar} :
    w ∈ (t.bind f).occurrences ↔ ∃ v ∈ t.occurrences, w ∈ (f v).occurrences := by
  simp [occurrences_bind]

end Ty

end OpCalculus
