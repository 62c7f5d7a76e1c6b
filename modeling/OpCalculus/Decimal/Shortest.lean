/-!
# Shortest decimals

The shortest decimal that reads back as a given binary number. A binary number stands for the
interval of reals that round to it; on each decimal grid, from coarse to fine, only the two grid
points next to the number need to be tried. All arithmetic is exact.
-/

namespace OpCalculus.Decimal

/-- A positive number `mantissa * 2 ^ exponent`. When `narrow` holds, the next smaller number is
only half as far away as the next larger one. -/
structure Binary where
  mantissa : Nat
  exponent : Int
  narrow : Bool
  deriving DecidableEq, Repr

/-- The number `digits * 10 ^ exponent`. -/
structure Numeral where
  digits : Nat
  exponent : Int
  deriving DecidableEq, Repr

/-- `n * 10 ^ p`, brought to the common scale of powers `p` of ten and `q` of two. -/
def scaleTens (n : Nat) (p q : Int) : Nat := (n * Nat.pow 10 p.toNat) <<< (-q).toNat

/-- `n * 2 ^ q`, brought to the common scale of powers `p` of ten and `q` of two. -/
def scaleTwos (n : Nat) (p q : Int) : Nat := (n <<< q.toNat) * Nat.pow 10 (-p).toNat

def digitCount (n : Nat) : Nat := (Nat.toDigits 10 n).length

namespace Binary

/-- The exponent `e` with `10 ^ e ≤ b < 10 ^ (e + 1)`. -/
def leadingExponent (b : Binary) : Int :=
  let num := scaleTwos b.mantissa 0 b.exponent
  let den := scaleTens 1 0 b.exponent
  if den ≤ num then (digitCount (num / den) : Int) - 1
  else -(digitCount ((den - 1) / num) : Int)

/-- Whether the decimal rounds to `b`: it lies between the midpoints to the two neighbours of `b`,
which themselves round to an even mantissa. -/
def readsAs (b : Binary) (d : Numeral) : Bool :=
  let q := b.exponent - 2
  let low := scaleTwos (4 * b.mantissa - (if b.narrow then 1 else 2)) d.exponent q
  let high := scaleTwos (4 * b.mantissa + 2) d.exponent q
  let point := scaleTens d.digits d.exponent q
  if b.mantissa % 2 = 0 then low ≤ point && point ≤ high else low < point && point < high

/-- Of the two neighbours of `b` on the grid `10 ^ p` the one that reads back as `b`; of two such
the nearer, and the larger when `b` is their midpoint. -/
def onGrid (b : Binary) (p : Int) : Option Numeral :=
  let value := scaleTwos b.mantissa p b.exponent
  let unit := scaleTens 1 p b.exponent
  let floor : Numeral := ⟨value / unit, p⟩
  let ceiling : Numeral := ⟨value / unit + 1, p⟩
  if b.readsAs floor then
    if b.readsAs ceiling && (2 * floor.digits + 1) * unit ≤ 2 * value then some ceiling
    else some floor
  else if b.readsAs ceiling then some ceiling
  else none

/-- The decimal with the fewest digits that reads back as `b`. Seventeen digits always do. -/
def shortest (b : Binary) : Numeral :=
  let e := b.leadingExponent
  ((List.range 17).findSome? fun (i : Nat) => b.onGrid (e - i)).getD ⟨b.mantissa, b.exponent⟩

end Binary

end OpCalculus.Decimal
