import OpCalculus.TypeEnv

/-!
# Fresh variables

Inference mints variables in ascending order of their numbers. There are `2 ^ 32` numbers; when they
run out, minting fails.
-/

namespace OpCalculus

/-- Minted variables are numbered below this limit. -/
def freshLimit : Nat := 0x100000000

/-- The number of the next variable to be minted, or the limit when none is left. -/
structure FreshSupply where
  next : Nat
  bounded : next ≤ freshLimit
  deriving DecidableEq, Repr

/-- No number is left. -/
structure FreshExhausted where
  deriving DecidableEq, Repr

def FreshExhausted.message (_ : FreshExhausted) : String := "ran out of fresh type variables"

/-- Actions that mint variables. What was minted before a failure stays minted. -/
abbrev Minting := EStateM FreshExhausted FreshSupply

namespace FreshSupply

def initial : FreshSupply := ⟨0, by decide⟩

/-- Starts after the largest of the numbers in use. -/
def afterId? (last : Option Nat) : FreshSupply :=
  match last with
  | none => initial
  | some n => ⟨min (n + 1) freshLimit, Nat.min_le_right _ _⟩

/-- Starts after every minted variable of an environment. -/
def after (env : TypeEnv) : FreshSupply := afterId? env.maxFresh?

/-- The number of the next variable, if one is left. -/
def peek? (s : FreshSupply) : Option Nat := if s.next < freshLimit then some s.next else none

/-- Mints a number of consecutive variables and returns the first number. When too few are left,
all of them are used up. -/
def mintBlock (count : Nat) : Minting Nat := fun s =>
  if h : s.next + count ≤ freshLimit then .ok s.next ⟨s.next + count, h⟩
  else .error {} ⟨freshLimit, Nat.le_refl _⟩

/-- Mints one variable. -/
def mint : Minting TypeVar := do
  let first ← mintBlock 1
  return .fresh first

/-- Replaces each quantified variable of a scheme by a new one, in order. -/
def instantiate (c : Scheme) : Minting Ty := do
  let vars := distinct c.vars
  let first ← mintBlock vars.length
  return c.body.bind fun v => .var (if v ∈ vars then .fresh (first + vars.idxOf v) else v)

end FreshSupply

end OpCalculus
