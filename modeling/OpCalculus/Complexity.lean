/-!
# Cost classes

The growth of an operation's cost in the size of its input. Costs of operations in sequence combine
by adding the powers of `n` and of `log n` and rounding up to a class.
-/

namespace OpCalculus

/-- Cost classes in ascending order. -/
inductive Complexity where
  | constant
  | logarithmic
  | linear
  | linearithmic
  | quadratic
  | cubic
  /-- Degree four or higher. -/
  | polynomial
  | exponential
  deriving DecidableEq, Repr

namespace Complexity

/-- The place of a class in ascending order. -/
def rank : Complexity → Nat
  | constant => 0
  | logarithmic => 1
  | linear => 2
  | linearithmic => 3
  | quadratic => 4
  | cubic => 5
  | polynomial => 6
  | exponential => 7

instance : LE Complexity := ⟨fun a b => a.rank ≤ b.rank⟩

instance (a b : Complexity) : Decidable (a ≤ b) := inferInstanceAs (Decidable (a.rank ≤ b.rank))

instance : Max Complexity := maxOfLe

instance : Min Complexity := minOfLe

/-- The powers of `n` and of `log n` of a class that is not exponential. -/
def exponents : Complexity → Option (Nat × Nat)
  | constant => some (0, 0)
  | logarithmic => some (0, 1)
  | linear => some (1, 0)
  | linearithmic => some (1, 1)
  | quadratic => some (2, 0)
  | cubic => some (3, 0)
  | polynomial => some (4, 0)
  | exponential => none

/-- The classes with exact powers, ascending. -/
def bounded : List (Complexity × Nat × Nat) :=
  [(constant, 0, 0), (logarithmic, 0, 1), (linear, 1, 0), (linearithmic, 1, 1), (quadratic, 2, 0),
   (cubic, 3, 0)]

/-- The smallest class that dominates given powers of `n` and of `log n`. -/
def roundUp (degree log : Nat) : Complexity :=
  match bounded.find? fun (_, d, l) => degree < d || (d = degree && log ≤ l) with
  | some (c, _, _) => c
  | none => polynomial

/-- The cost of two operations, one feeding the other. -/
def combine (a b : Complexity) : Complexity :=
  match a.exponents, b.exponents with
  | some (d, l), some (d', l') => roundUp (d + d') (l + l')
  | _, _ => exponential

/-- The class in big-O form. -/
def text : Complexity → String
  | constant => "O(1)"
  | logarithmic => "O(log n)"
  | linear => "O(n)"
  | linearithmic => "O(n log n)"
  | quadratic => "O(n^2)"
  | cubic => "O(n^3)"
  | polynomial => "O(n^k)"
  | exponential => "O(2^n)"

end Complexity

end OpCalculus
