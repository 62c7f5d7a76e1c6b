import OpCalculus.Ty.WellFormed

/-!
# Type schemes

A scheme quantifies some variables of its body; the other variables of the body are free.
-/

namespace OpCalculus

/-- A type with quantified variables. -/
structure Scheme where
  vars : List TypeVar
  body : Ty
  deriving DecidableEq, Repr, Inhabited

namespace Scheme

/-- The scheme of a type without quantified variables. -/
def mono (t : Ty) : Scheme := ⟨[], t⟩

/-- Quantifies every variable of a type, in order of first occurrence. -/
def closed (t : Ty) : Scheme := ⟨t.vars, t⟩

def isMono (s : Scheme) : Bool := s.vars.isEmpty

/-- The variables of the body that are not quantified, in variable order. -/
def freeVars (s : Scheme) : List TypeVar :=
  TypeVar.sorted (s.body.occurrences.filter (· ∉ s.vars))

theorem mem_freeVars {v : TypeVar} {s : Scheme} :
    v ∈ s.freeVars ↔ v ∈ s.body.occurrences ∧ v ∉ s.vars := by
  simp [freeVars]

/-- The largest number of a minted variable in a scheme, quantified or free. -/
def maxFresh? (s : Scheme) : Option Nat := TypeVar.maxFresh? (s.vars ++ s.body.occurrences)

/-- Checks that a scheme may be declared: its quantified variables in order, then its body. -/
def checkDeclared (s : Scheme) : Except WellFormedError Unit := do
  s.vars.forM TypeVar.checkDeclared
  s.body.checkDeclared

/-- A scheme is written as its body after the quantified variables, if there are any. -/
def text (s : Scheme) : String :=
  if s.vars = [] then s.body.text
  else "forall" ++ Text.joined "" (s.vars.map fun v => " " ++ v.text) ++ ". " ++ s.body.text

instance : ToString Scheme := ⟨text⟩

end Scheme

end OpCalculus
