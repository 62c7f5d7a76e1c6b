import Mathlib
import OpCalculus.Value.Conformance

/-!
# Counting the elements of a tensor

The dimensions of a tensor are multiplied from left to right, and the count is given up as soon as a
partial product is no word. Without a zero among the dimensions the partial products only grow, so the
count is the product exactly if the product is a word, in whatever order the dimensions stand. A zero
makes the product zero, but it is reached only if the dimensions before it have a product that is a word:
`OverflowsBeforeZero` is the one case in which a tensor without elements is rejected for its shape.
-/

namespace OpCalculus

/-- The dimensions before the first zero. -/
def beforeZero (shape : List Nat) : List Nat := shape.takeWhile (· ≠ 0)

/-- The product is zero, but multiplying the dimensions in turn leaves the words before the zero. -/
def OverflowsBeforeZero (shape : List Nat) : Prop := 0 ∈ shape ∧ wordLimit ≤ (beforeZero shape).prod

/-- Multiplies a count by further dimensions as long as it stays a word. -/
def countOnward (count : Nat) (shape : List Nat) : Option Nat :=
  shape.foldlM (fun count dim => if count * dim < wordLimit then some (count * dim) else none) count

variable {shape shape' : List Nat} {count dim p : Nat}

@[simp] theorem beforeZero_nil : beforeZero [] = [] := rfl

@[simp] theorem beforeZero_zero : beforeZero (0 :: shape) = [] := rfl

theorem beforeZero_cons (h : dim ≠ 0) : beforeZero (dim :: shape) = dim :: beforeZero shape :=
  List.takeWhile_cons_of_pos (decide_eq_true h)

theorem beforeZero_of_notMem (h : 0 ∉ shape) : beforeZero shape = shape :=
  List.takeWhile_eq_self_iff.mpr fun _ hdim => decide_eq_true (ne_of_mem_of_not_mem hdim h)

theorem prod_beforeZero_pos (shape : List Nat) : 0 < (beforeZero shape).prod := by
  refine List.prod_pos fun dim hdim => Nat.pos_of_ne_zero ?_
  have kept := List.mem_takeWhile_imp (p := fun d => decide (d ≠ 0)) hdim
  exact of_decide_eq_true kept

theorem elementCount_eq (shape : List Nat) : elementCount shape = countOnward 1 shape := rfl

theorem countOnward_of_lt (h : count * dim < wordLimit) :
    countOnward count (dim :: shape) = countOnward (count * dim) shape := by
  simp [countOnward, h]

theorem countOnward_of_le (h : wordLimit ≤ count * dim) : countOnward count (dim :: shape) = none := by
  simp [countOnward, Nat.not_lt.mpr h]

theorem countOnward_eq_some_iff (word : count < wordLimit) :
    countOnward count shape = some p ↔
      p = count * shape.prod ∧ count * (beforeZero shape).prod < wordLimit := by
  induction shape generalizing count with
  | nil => simp [countOnward, word, eq_comm]
  | cons dim rest ih =>
      by_cases zero : dim = 0
      · -- The count is zero from here on, whatever the other dimensions are.
        have none_left : count * 0 < wordLimit := Nat.zero_lt_of_lt word
        rw [zero, countOnward_of_lt none_left, ih none_left]
        simp [word, Nat.zero_lt_of_lt word]
      · rw [beforeZero_cons zero, List.prod_cons, List.prod_cons, ← Nat.mul_assoc, ← Nat.mul_assoc]
        rcases Nat.lt_or_ge (count * dim) wordLimit with fits | overflow
        · rw [countOnward_of_lt fits, ih fits]
        · have grown := Nat.le_mul_of_pos_right (count * dim) (prod_beforeZero_pos rest)
          rw [countOnward_of_le overflow]
          simp [overflow.trans grown]

theorem elementCount_eq_some_iff :
    elementCount shape = some p ↔ (p = shape.prod ∧ p < wordLimit) ∧ ¬ OverflowsBeforeZero shape := by
  rw [elementCount_eq, countOnward_eq_some_iff (by decide), Nat.one_mul, Nat.one_mul, and_assoc,
    OverflowsBeforeZero]
  refine and_congr_right fun equal => ?_
  by_cases zero : 0 ∈ shape
  · have vanishes : p = 0 := equal.trans (List.prod_eq_zero zero)
    simp [zero, vanishes, wordLimit]
  · rw [beforeZero_of_notMem zero]
    simp [zero, equal]

theorem elementCount_perm (perm : shape.Perm shape') (safe : ¬ OverflowsBeforeZero shape)
    (safe' : ¬ OverflowsBeforeZero shape') : elementCount shape = elementCount shape' := by
  refine Option.ext fun p => ?_
  rw [elementCount_eq_some_iff, elementCount_eq_some_iff, perm.prod_eq]
  simp [safe, safe']

/-- The count of a shape is its product, if that is a word, whatever the order of the dimensions, and a
tensor is accepted exactly if it has that many elements and all of them are accepted. The exception are
the shapes whose dimensions overflow before a zero: they have no count, although their product is zero. -/
theorem elementCount_exact (shape : List Nat) :
    (∀ p, elementCount shape = some p ↔ (p = shape.prod ∧ p < wordLimit) ∧ ¬ OverflowsBeforeZero shape) ∧
    (∀ shape' : List Nat, shape.Perm shape' → ¬ OverflowsBeforeZero shape →
      ¬ OverflowsBeforeZero shape' → elementCount shape = elementCount shape') ∧
    ∀ (data : List Value) (element : Ty), data.length < wordLimit →
      ((Ty.tensor shape element).accepts (.tensor shape data) = true ↔
        (data.length = shape.prod ∧ ∀ v ∈ data, element.accepts v = true) ∧
          ¬ OverflowsBeforeZero shape) := by
  refine ⟨fun p => elementCount_eq_some_iff, fun shape' => elementCount_perm, fun data element word => ?_⟩
  simp only [Ty.accepts, Bool.and_eq_true, decide_eq_true_eq, true_and, elementCount_eq_some_iff, word,
    and_true, List.all_eq_true]
  exact and_right_comm

theorem elementCount_exact_words :
    let shape := [0x80000000, 2, 0x80000000, 1]
    let shape' := [1, 0x80000000, 0x80000000, 2]
    let data := [Value.int 1, .int 2]
    shape.Perm shape' ∧ ¬ OverflowsBeforeZero shape ∧ ¬ OverflowsBeforeZero shape' ∧
      elementCount shape = elementCount shape' ∧ elementCount shape = some 0x8000000000000000 ∧
      data.length < wordLimit ∧ (Ty.tensor [1, 2] .number).accepts (.tensor [1, 2] data) = true := by
  intro shape shape' data
  have perm : shape.Perm shape' := by decide
  have safe : ¬ OverflowsBeforeZero shape := fun h => absurd h.1 (by decide)
  have safe' : ¬ OverflowsBeforeZero shape' := fun h => absurd h.1 (by decide)
  obtain ⟨count, order, -⟩ := elementCount_exact shape
  refine ⟨perm, safe, safe', order shape' perm safe safe', (count _).mpr ⟨by decide, safe⟩, by decide, ?_⟩
  refine ((elementCount_exact [1, 2]).2.2 data .number (by decide)).mpr ⟨⟨rfl, ?_⟩, fun h => ?_⟩
  · simp [data, Ty.accepts, Value.scalarKind?, ScalarKind.widensTo, ScalarKind.widenings]
  · exact absurd h.1 (by decide)

/-- A tensor type with a zero behind dimensions that overflow rejects the tensor without elements; with
the zero in front it accepts it. -/
theorem zero_behind_overflow_rejected :
    let shape := [0x8000000000000000, 2, 0]
    let front := [0, 0x8000000000000000, 2]
    (∀ dim ∈ shape, dim < wordLimit) ∧ shape.prod = 0 ∧ shape.Perm front ∧
      elementCount shape = none ∧ elementCount front = some 0 ∧
      (Ty.tensor shape .number).accepts (.tensor shape []) = false ∧
      (Ty.tensor front .number).accepts (.tensor front []) = true := by
  decide

end OpCalculus
