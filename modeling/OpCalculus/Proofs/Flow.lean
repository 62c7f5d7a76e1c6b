import OpCalculus.Proofs.Unification
import OpCalculus.Ty.Flow

/-!
# Flow between types and their instances

The rules of flow, without the test for equal types that the decision makes first (`flowsInto_iff`). Flow
takes a variable for any type and otherwise follows the constructors, so types flow where instances of them
do, even if variables are replaced in each of them in its own way (`flowsInto_of_flows_bind`). In particular
two types that can be made equal flow into each other, and whatever unifies also flows. Flow accepts more
than that, since it reads every occurrence of a variable on its own.
-/

namespace OpCalculus

theorem ScalarKind.widensTo_refl (kind : ScalarKind) : kind.widensTo kind = true := by
  simp [widensTo]

namespace Ty

/-- The rules by which a value of one type may be used at another. -/
inductive Flows : Ty → Ty → Prop
  | fromVar {x : TypeVar} {t : Ty} : Flows (.var x) t
  | intoVar {x : TypeVar} {t : Ty} : Flows t (.var x)
  | scalar {i j : ScalarKind} : i.widensTo j = true → Flows (.scalar i) (.scalar j)
  | vector {n : Nat} {a b : Ty} : Flows a b → Flows (.vector n a) (.vector n b)
  | matrix {m n : Nat} {a b : Ty} : Flows a b → Flows (.matrix m n a) (.matrix m n b)
  | tensor {shape : List Nat} {a b : Ty} : Flows a b → Flows (.tensor shape a) (.tensor shape b)
  | sequence {a b : Ty} : Flows a b → Flows (.sequence a) (.sequence b)
  | vectorAsTensor {n : Nat} {a b : Ty} : Flows a b → Flows (.vector n a) (.tensor [n] b)
  | matrixAsTensor {m n : Nat} {a b : Ty} : Flows a b → Flows (.matrix m n a) (.tensor [m, n] b)
  | vectorAsSequence {n : Nat} {a b : Ty} : Flows a b → Flows (.vector n a) (.sequence b)
  | function {a b c d : Ty} : Flows c a → Flows b d → Flows (.function a b) (.function c d)
  | strategy {a b c d : Ty} : Flows a c → Flows b d → Flows (.strategy a b) (.strategy c d)

variable {a b : Ty} {f g : TypeVar → Ty}

theorem Flows.refl (t : Ty) : Flows t t := by
  induction t with
  | scalar kind => exact .scalar kind.widensTo_refl
  | var x => exact .fromVar
  | vector _ _ ih => exact .vector ih
  | matrix _ _ _ ih => exact .matrix ih
  | tensor _ _ ih => exact .tensor ih
  | sequence _ ih => exact .sequence ih
  | function _ _ ihInput ihOutput => exact .function ihInput ihOutput
  | strategy _ _ ihState ihAction => exact .strategy ihState ihAction

theorem flows_of_flowsInto (h : a.flowsInto b = true) : Flows a b := by
  fun_induction flowsInto a b with
  | case1 a => exact .refl a
  | case2 => exact .fromVar
  | case3 => exact .intoVar
  | case4 i j => exact .scalar h
  | case5 m a n b _ ih =>
      obtain ⟨same, inner⟩ := Bool.and_eq_true_iff.mp h
      exact of_decide_eq_true same ▸ .vector (ih inner)
  | case6 m n a m' n' b _ ih =>
      obtain ⟨same, inner⟩ := Bool.and_eq_true_iff.mp h
      obtain ⟨rows, columns⟩ := Bool.and_eq_true_iff.mp same
      exact of_decide_eq_true rows ▸ of_decide_eq_true columns ▸ .matrix (ih inner)
  | case7 m a n b _ ih =>
      obtain ⟨same, inner⟩ := Bool.and_eq_true_iff.mp h
      exact of_decide_eq_true same ▸ .tensor (ih inner)
  | case8 a b _ ih => exact .sequence (ih h)
  | case9 n a shape b _ ih =>
      obtain ⟨same, inner⟩ := Bool.and_eq_true_iff.mp h
      exact of_decide_eq_true same ▸ .vectorAsTensor (ih inner)
  | case10 m n a shape b _ ih =>
      obtain ⟨same, inner⟩ := Bool.and_eq_true_iff.mp h
      exact of_decide_eq_true same ▸ .matrixAsTensor (ih inner)
  | case11 n a b _ ih => exact .vectorAsSequence (ih h)
  | case12 a b c d _ ihInput ihOutput =>
      obtain ⟨input, output⟩ := Bool.and_eq_true_iff.mp h
      exact .function (ihInput input) (ihOutput output)
  | case13 a b c d _ ihState ihAction =>
      obtain ⟨state, action⟩ := Bool.and_eq_true_iff.mp h
      exact .strategy (ihState state) (ihAction action)
  | case14 => cases h

-- One induction serves three times: for the types themselves, for equal instances and for instances that flow.
theorem flowsInto_of_flows_bind (h : Flows (a.bind f) (b.bind g)) : a.flowsInto b = true := by
  fun_induction flowsInto a b generalizing f g with
  | case1 | case2 | case3 => rfl
  | case4 i j =>
      cases h with
      | scalar widens => exact widens
  | case5 m a n b _ ih =>
      cases h with
      | vector inner => simp [ih inner]
  | case6 m n a m' n' b _ ih =>
      cases h with
      | matrix inner => simp [ih inner]
  | case7 m a n b _ ih =>
      cases h with
      | tensor inner => simp [ih inner]
  | case8 a b _ ih =>
      cases h with
      | sequence inner => exact ih inner
  | case9 n a shape b _ ih =>
      cases h with
      | vectorAsTensor inner => simp [ih inner]
  | case10 m n a shape b _ ih =>
      cases h with
      | matrixAsTensor inner => simp [ih inner]
  | case11 n a b _ ih =>
      cases h with
      | vectorAsSequence inner => exact ih inner
  | case12 a b c d _ ihInput ihOutput =>
      cases h with
      | function input output => simp [ihInput input, ihOutput output]
  | case13 a b c d _ ihState ihAction =>
      cases h with
      | strategy state action => simp [ihState state, ihAction action]
  | case14 a b =>
      cases a <;> cases b <;> grind [Ty.bind, cases Flows]

theorem Flows.flowsInto (h : Flows a b) : a.flowsInto b = true :=
  flowsInto_of_flows_bind (f := var) (g := var) (by rwa [bind_var, bind_var])

theorem flowsInto_iff : a.flowsInto b = true ↔ Flows a b := ⟨flows_of_flowsInto, Flows.flowsInto⟩

theorem flowsInto_of_bind_eq (h : a.bind f = b.bind g) : a.flowsInto b = true := by
  have flows : Flows (a.bind f) (b.bind g) := h ▸ Flows.refl (a.bind f)
  exact flowsInto_of_flows_bind flows

end Ty

/-- Types with a common instance flow into each other, whichever substitutions lead to it; so do types
that unify. -/
theorem flowsInto_of_common_instance (a b : Ty) :
    (∀ s t : Substitution, s.apply a = t.apply b → a.flowsInto b = true ∧ b.flowsInto a = true) ∧
    ∀ s, unify a b = .ok s → a.flowsInto b = true ∧ b.flowsInto a = true := by
  have both : ∀ s t : Substitution, s.apply a = t.apply b → a.flowsInto b = true ∧ b.flowsInto a = true :=
    fun s t equal => ⟨Ty.flowsInto_of_bind_eq equal, Ty.flowsInto_of_bind_eq equal.symm⟩
  exact ⟨both, fun s solved => both s s (mostGeneral_of_unify solved).equal⟩

-- The first two types share a variable under which they do not unify.
theorem flowsInto_of_common_instance_recursive :
    (let x : TypeVar := .named "x"
     let a := Ty.function (.var x) (.vector 2 (.var x))
     let b := Ty.function (.sequence (.var x)) (.vector 2 (.sequence (.var x)))
     (∃ s t : Substitution, s.apply a = t.apply b) ∧ (∀ s, unify a b ≠ .ok s) ∧
       a.flowsInto b = true ∧ b.flowsInto a = true) ∧
    (let a := Ty.function (.var (.named "x")) (.var (.named "y"))
     let b := Ty.function (.var (.named "y")) (.vector 2 .int)
     (∃ s, unify a b = .ok s) ∧ a.flowsInto b = true ∧ b.flowsInto a = true) := by
  constructor
  · intro x a b
    let s := Substitution.single x (.sequence .int) (by decide)
    let t := Substitution.single x .int (by decide)
    have equal : s.apply a = t.apply b := by decide
    refine ⟨⟨s, t, equal⟩, fun s solved => ?_, (flowsInto_of_common_instance a b).1 s t equal⟩
    have size := congrArg Ty.size (Ty.function.inj (mostGeneral_of_unify solved).equal).1
    simp [Ty.bind, Ty.size] at size
  · intro a b
    cases solved : unify a b with
    | ok s => exact ⟨⟨s, rfl⟩, (flowsInto_of_common_instance a b).2 s solved⟩
    | error e => exact absurd rfl (no_unifier_of_unify solved fun _ => .vector 2 .int)

end OpCalculus
