import OpCalculus.Ty.Basic

/-!
# Canonical names

Renaming the variables of a type by order of first occurrence gives one representative for all
types that differ only in the names of their variables.
-/

namespace OpCalculus

/-- The names `a` to `z`, then `a1` to `z1`, and so on. -/
def canonicalName (index : Nat) : String :=
  let letter := String.singleton (Char.ofNat ('a'.toNat + index % 26))
  if index / 26 = 0 then letter else letter ++ toString (index / 26)

namespace Ty

/-- Renames the variables of a type to canonical names in order of first occurrence. -/
def canonicalize (t : Ty) : Ty :=
  t.bind fun v => var (.named (canonicalName (t.vars.idxOf v)))

/-- Equality up to a renaming of variables. -/
def alphaEquivalent (l r : Ty) : Bool := l.canonicalize = r.canonicalize

end Ty

end OpCalculus
