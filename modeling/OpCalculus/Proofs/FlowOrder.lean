import OpCalculus.Proofs.Conformance
import OpCalculus.Proofs.Flow

/-!
# Flow as an order

On ground types flow is a partial order. A ground type can also be left out between any two types: only a
variable in the middle joins types that have nothing to do with each other.
-/

namespace OpCalculus

theorem ScalarKind.widensTo_antisymm {i j : ScalarKind} (h : i.widensTo j = true)
    (h' : j.widensTo i = true) : i = j := by
  revert h h'
  cases i <;> cases j <;> decide

namespace Ty

variable {a b c : Ty}

theorem isGround_function : (function a b).isGround = true ↔ a.isGround = true ∧ b.isGround = true := by
  simp [isGround, occurrences]

theorem isGround_strategy : (strategy a b).isGround = true ↔ a.isGround = true ∧ b.isGround = true := by
  simp [isGround, occurrences]

theorem not_isGround_var {x : TypeVar} : ¬ (var x).isGround = true := by simp [isGround, occurrences]

namespace Flows

-- By induction on the middle type, because the inputs of functions change places around it.
theorem trans (ground : b.isGround = true) (h : Flows a b) (h' : Flows b c) : Flows a c := by
  induction b generalizing a c with
  | var x => exact absurd ground not_isGround_var
  | scalar j =>
      cases h with
      | fromVar => exact .fromVar
      | scalar first =>
          cases h' with
          | intoVar => exact .intoVar
          | scalar second => exact .scalar (ScalarKind.widensTo_trans first second)
  | vector n b ih =>
      cases h with
      | fromVar => exact .fromVar
      | vector h =>
          cases h' with
          | intoVar => exact .intoVar
          | vector h' => exact .vector (ih ground h h')
          | vectorAsTensor h' => exact .vectorAsTensor (ih ground h h')
          | vectorAsSequence h' => exact .vectorAsSequence (ih ground h h')
  | matrix m n b ih =>
      cases h with
      | fromVar => exact .fromVar
      | matrix h =>
          cases h' with
          | intoVar => exact .intoVar
          | matrix h' => exact .matrix (ih ground h h')
          | matrixAsTensor h' => exact .matrixAsTensor (ih ground h h')
  | tensor shape b ih =>
      cases h' with
      | intoVar => exact .intoVar
      | tensor h' =>
          cases h with
          | fromVar => exact .fromVar
          | tensor h => exact .tensor (ih ground h h')
          | vectorAsTensor h => exact .vectorAsTensor (ih ground h h')
          | matrixAsTensor h => exact .matrixAsTensor (ih ground h h')
  | sequence b ih =>
      cases h' with
      | intoVar => exact .intoVar
      | sequence h' =>
          cases h with
          | fromVar => exact .fromVar
          | sequence h => exact .sequence (ih ground h h')
          | vectorAsSequence h => exact .vectorAsSequence (ih ground h h')
  | function input output ihInput ihOutput =>
      obtain ⟨groundInput, groundOutput⟩ := isGround_function.mp ground
      cases h with
      | fromVar => exact .fromVar
      | function first second =>
          cases h' with
          | intoVar => exact .intoVar
          | function first' second' =>
              exact .function (ihInput groundInput first' first) (ihOutput groundOutput second second')
  | strategy state action ihState ihAction =>
      obtain ⟨groundState, groundAction⟩ := isGround_strategy.mp ground
      cases h with
      | fromVar => exact .fromVar
      | strategy first second =>
          cases h' with
          | intoVar => exact .intoVar
          | strategy first' second' =>
              exact .strategy (ihState groundState first first') (ihAction groundAction second second')

theorem antisymm (ground : a.isGround = true) (ground' : b.isGround = true) (h : Flows a b)
    (h' : Flows b a) : a = b := by
  induction h with
  | fromVar => exact absurd ground not_isGround_var
  | intoVar => exact absurd ground' not_isGround_var
  | scalar first =>
      cases h' with
      | scalar second => rw [ScalarKind.widensTo_antisymm first second]
  | vector _ ih =>
      cases h' with
      | vector back => rw [ih ground ground' back]
  | matrix _ ih =>
      cases h' with
      | matrix back => rw [ih ground ground' back]
  | tensor _ ih =>
      cases h' with
      | tensor back => rw [ih ground ground' back]
  | sequence _ ih =>
      cases h' with
      | sequence back => rw [ih ground ground' back]
  | vectorAsTensor | matrixAsTensor | vectorAsSequence => cases h'
  | function _ _ ihInput ihOutput =>
      obtain ⟨groundInput, groundOutput⟩ := isGround_function.mp ground
      obtain ⟨groundInput', groundOutput'⟩ := isGround_function.mp ground'
      cases h' with
      | function input output =>
          rw [ihInput groundInput' groundInput input, ihOutput groundOutput groundOutput' output]
  | strategy _ _ ihState ihAction =>
      obtain ⟨groundState, groundAction⟩ := isGround_strategy.mp ground
      obtain ⟨groundState', groundAction'⟩ := isGround_strategy.mp ground'
      cases h' with
      | strategy state action =>
          rw [ihState groundState groundState' state, ihAction groundAction groundAction' action]

end Flows

end Ty

/-- Flow is a partial order on ground types, and it is transitive over every ground type in the middle,
whatever variables the outer types have. -/
theorem flowsInto_partialOrder :
    (∀ a : Ty, a.flowsInto a = true) ∧
    (∀ a b : Ty, a.isGround = true → b.isGround = true → a.flowsInto b = true → b.flowsInto a = true →
      a = b) ∧
    ∀ a b c : Ty, b.isGround = true → a.flowsInto b = true → b.flowsInto c = true →
      a.flowsInto c = true := by
  simp only [Ty.flowsInto_iff]
  exact ⟨Ty.Flows.refl, fun _ _ => Ty.Flows.antisymm, fun _ _ _ => Ty.Flows.trans⟩

-- The inputs flow backwards: the matrix that `c` takes is good for `b`, and that of `b` for the tensor of `a`.
theorem flowsInto_partialOrder_contravariant :
    let a := Ty.function (.tensor [2, 3] (.var (.named "x"))) (.vector 4 .bool)
    let b := Ty.function (.matrix 2 3 .int) (.tensor [4] .int)
    let c := Ty.function (.matrix 2 3 .bool) (.tensor [4] .number)
    b.isGround = true ∧ a.flowsInto b = true ∧ b.flowsInto c = true ∧ a.flowsInto c = true ∧
      c.isGround = true ∧ b ≠ c ∧ c.flowsInto b = false := by
  intro a b c
  have ground : b.isGround = true := rfl
  have first : a.flowsInto b = true := by decide +kernel
  have second : b.flowsInto c = true := by decide +kernel
  have differ : b ≠ c := by decide
  obtain ⟨-, antisymm, trans⟩ := flowsInto_partialOrder
  refine ⟨ground, first, second, trans a b c ground first second, rfl, differ, ?_⟩
  exact Bool.eq_false_iff.mpr fun back => differ (antisymm b c ground rfl second back)

example :
    let x := Ty.var (.named "x")
    Ty.string.flowsInto x = true ∧ x.flowsInto .int = true ∧ Ty.string.flowsInto .int = false := by
  decide +kernel

end OpCalculus
