import OpCalculus.Substitution.Basic

/-!
# Typing environments

An environment maps names to schemes. Later bindings shadow earlier ones of the same name.
-/

namespace OpCalculus

/-- Bindings of names to schemes, innermost first. -/
structure TypeEnv where
  frames : List (String × Scheme)
  deriving DecidableEq, Repr

namespace TypeEnv

def empty : TypeEnv := ⟨[]⟩

def extend (env : TypeEnv) (name : String) (c : Scheme) : TypeEnv := ⟨(name, c) :: env.frames⟩

/-- Adds bindings in order, so that a later one shadows an earlier one. -/
def ofBindings (bindings : List (String × Scheme)) : TypeEnv :=
  bindings.foldl (fun env p => env.extend p.1 p.2) empty

def lookup (env : TypeEnv) (name : String) : Option Scheme := env.frames.lookup name

def contains (env : TypeEnv) (name : String) : Bool := (env.lookup name).isSome

def isEmpty (env : TypeEnv) : Bool := env.frames.isEmpty

/-- The frames that no earlier frame of the list shadows. -/
def unshadowed : List (String × Scheme) → List (String × Scheme)
  | [] => []
  | p :: rest => p :: (unshadowed rest).filter fun q => q.1 ≠ p.1

/-- The visible bindings, innermost first. -/
def bindings (env : TypeEnv) : List (String × Scheme) := unshadowed env.frames

/-- The variables free in a visible binding, in variable order. -/
def freeVars (env : TypeEnv) : List TypeVar :=
  TypeVar.sorted (env.bindings.flatMap fun p => p.2.freeVars)

/-- The largest number of a minted variable in any binding, visible or shadowed. -/
def maxFresh? (env : TypeEnv) : Option Nat := (env.frames.filterMap fun p => p.2.maxFresh?).max?

/-- Applies a substitution to every binding. -/
def applySubst (env : TypeEnv) (s : Substitution) : TypeEnv :=
  ⟨env.frames.map fun p => (p.1, s.applyScheme p.2)⟩

/-- Quantifies the variables of a type that are not free in the environment, in order of first
occurrence. -/
def generalize (env : TypeEnv) (t : Ty) : Scheme := ⟨t.vars.filter (· ∉ env.freeVars), t⟩

end TypeEnv

end OpCalculus
