import Mathlib
import OpCalculus.Proofs.UnifierRuns

/-!
# Common solutions and the first conflict

With enough budget, a solver gets through a list of constraints exactly if they have a common solution
(`solve_eq_ok_iff`), so neither the order of the constraints nor their repetition decides about success.
Where it stops, the constraints before the conflict have a common solution and the conflicting one takes it
away (`exists_conflict`, `not_solvable_of_conflict`).
-/

namespace OpCalculus

open Substitution Unification

/-- Some assignment absorbs the substitution and satisfies all constraints. -/
def Solvable (s : Substitution) (constraints : List Constraint) : Prop :=
  ∃ q, s.AbsorbedBy q ∧ ∀ k ∈ constraints, k.HoldsUnder q

theorem Solvable.mono {s : Substitution} {constraints fewer : List Constraint} (h : Solvable s constraints)
    (sub : fewer ⊆ constraints) : Solvable s fewer := by
  obtain ⟨q, absorbed, holds⟩ := h
  exact ⟨q, absorbed, fun k hk => holds k (sub hk)⟩

namespace Unifier

variable {u v w : Unifier} {l r : Ty} {e : SolveError} {constraints constraints' before : List Constraint}

/-! ## Success -/

theorem solvable_of_solve_ok (h : u.solve constraints = (.ok (), v)) :
    Solvable u.substitution constraints := by
  have solves := (solve_eq_ok h).1
  have self := v.substitution.absorbedBy_image
  exact ⟨v.substitution.image, solves.refined.absorbed self, solves.holds self⟩

theorem solve_eq_ok_iff (budget : u.solved + constraints.length ≤ u.maxConstraints) :
    (u.solve constraints).1 = .ok () ↔ Solvable u.substitution constraints := by
  constructor
  · exact fun ok => solvable_of_solve_ok (Prod.ext ok rfl)
  · rintro ⟨q, absorbed, holds⟩
    obtain ⟨v, h⟩ := exists_solve_eq_ok absorbed holds budget
    rw [h]

-- The result of the second run satisfies the constraints of the first, so it absorbs the first result.
theorem apply_apply_of_subset (h : u.solve constraints = (.ok (), v)) (h' : u.solve constraints' = (.ok (), w))
    (sub : constraints ⊆ constraints') (t : Ty) :
    w.substitution.apply (v.substitution.apply t) = w.substitution.apply t := by
  have self := w.substitution.absorbedBy_image
  have solves' := (solve_eq_ok h').1
  have absorbed : v.substitution.AbsorbedBy w.substitution.image :=
    (solve_eq_ok h).1.absorbed (solves'.refined.absorbed self) fun k hk => solves'.holds self k (sub hk)
  exact absorbed.bind_apply t

/-! ## The first conflict -/

@[simp] theorem unify_solved (u : Unifier) (l r : Ty) : (u.unify l r).2.solved = u.solved := by
  unfold unify
  simp only
  split <;> simp

@[simp] theorem unify_maxConstraints (u : Unifier) (l r : Ty) :
    (u.unify l r).2.maxConstraints = u.maxConstraints := by
  unfold unify
  simp only
  split <;> simp

theorem unify_of_unify_error {cause : UnifyError} (h : u.unify l r = (.error cause, v)) :
    OpCalculus.unify (u.substitution.apply l) (u.substitution.apply r) = .error cause := by
  unfold unify at h
  unfold OpCalculus.unify
  cases solved : Unification.solve (u.substitution.apply l) (u.substitution.apply r) with
  | ok step =>
      simp only [solved] at h
      cases h
  | error cause' =>
      simp only [solved] at h
      cases h
      rfl

theorem exists_conflict (h : u.solve constraints = (.error e, v))
    (budget : u.solved + constraints.length ≤ u.maxConstraints) :
    ∃ before k after cause w, constraints = before ++ k :: after ∧ u.solve before = (.ok (), w) ∧
      v.substitution = w.substitution ∧
      e = .typeMismatch (v.substitution.apply k.expected) (v.substitution.apply k.actual) k.reason cause ∧
      OpCalculus.unify (v.substitution.apply k.expected) (v.substitution.apply k.actual) = .error cause := by
  induction constraints generalizing u with
  | nil => cases h
  | cons k rest ih =>
      rw [List.length_cons] at budget
      have room : ¬ u.maxConstraints ≤ u.solved := by omega
      have solved := unify_solved { u with solved := u.solved + 1 } k.expected k.actual
      have limit := unify_maxConstraints { u with solved := u.solved + 1 } k.expected k.actual
      rw [solve, if_neg room] at h
      cases unified : { u with solved := u.solved + 1 }.unify k.expected k.actual with
      | mk answer next =>
          rw [unified] at h solved limit
          cases answer with
          | ok step =>
              simp only at h solved limit
              obtain ⟨before, c, after, cause, w, rfl, ok, conflict⟩ := ih h (by omega)
              refine ⟨k :: before, c, after, cause, w, rfl, ?_, conflict⟩
              rw [solve, if_neg room, unified]
              exact ok
          | error cause =>
              have same := substitution_of_unify_error unified
              cases h
              refine ⟨[], k, rest, cause, u, rfl, rfl, same, rfl, ?_⟩
              rw [same]
              exact unify_of_unify_error unified

theorem not_solvable_of_conflict {k : Constraint} {cause : UnifyError} (ok : u.solve before = (.ok (), w))
    (conflict : OpCalculus.unify (w.substitution.apply k.expected) (w.substitution.apply k.actual) =
      .error cause) : ¬ Solvable u.substitution (before ++ [k]) := by
  rintro ⟨q, absorbed, holds⟩
  have solution := (solve_eq_ok ok).1.absorbed absorbed fun c hc => holds c (List.mem_append_left _ hc)
  refine no_unifier_of_unify conflict q ?_
  rw [solution.bind_apply, solution.bind_apply]
  exact holds k (by simp)

end Unifier

/-- With enough budget, constraints are solved exactly if they have a common solution that extends the
start, and then by a most general one; the order of the constraints does not matter. Otherwise the error
is about the first constraint that leaves no common solution with those before it, under the substitution
of those before it, which is the one left behind. -/
theorem solve_settles_constraints {u : Unifier} {constraints : List Constraint}
    (budget : u.solved + constraints.length ≤ u.maxConstraints) :
    ((u.solve constraints).1 = .ok () ↔ Solvable u.substitution constraints) ∧
    (∀ v, u.solve constraints = (.ok (), v) →
      u.substitution.AbsorbedBy v.substitution.image ∧
      (∀ k ∈ constraints, v.substitution.apply k.expected = v.substitution.apply k.actual) ∧
      ∀ q, u.substitution.AbsorbedBy q → (∀ k ∈ constraints, k.HoldsUnder q) →
        v.substitution.AbsorbedBy q) ∧
    (∀ constraints', constraints'.Perm constraints →
      ((u.solve constraints').1 = .ok () ↔ (u.solve constraints).1 = .ok ()) ∧
      ∀ v v', u.solve constraints = (.ok (), v) → u.solve constraints' = (.ok (), v') → ∀ t,
        v'.substitution.apply (v.substitution.apply t) = v'.substitution.apply t ∧
        v.substitution.apply (v'.substitution.apply t) = v.substitution.apply t) ∧
    ∀ e v, u.solve constraints = (.error e, v) → ∃ i k cause w,
      constraints[i]? = some k ∧
      ¬ Solvable u.substitution (constraints.take (i + 1)) ∧
      (∀ j < i, Solvable u.substitution (constraints.take (j + 1))) ∧
      u.solve (constraints.take i) = (.ok (), w) ∧ v.substitution = w.substitution ∧
      e = .typeMismatch (v.substitution.apply k.expected) (v.substitution.apply k.actual) k.reason cause ∧
      unify (v.substitution.apply k.expected) (v.substitution.apply k.actual) = .error cause := by
  refine ⟨Unifier.solve_eq_ok_iff budget, fun v h => ⟨?_, fun k => Unifier.equal_of_solve_ok h, fun q => ?_⟩,
    fun constraints' perm => ⟨?_, fun v v' h h' t => ⟨?_, ?_⟩⟩, fun e v h => ?_⟩
  · exact (Unifier.solve_eq_ok h).1.refined.absorbed v.substitution.absorbedBy_image
  · exact (Unifier.solve_eq_ok h).1.absorbed
  · rw [Unifier.solve_eq_ok_iff budget, Unifier.solve_eq_ok_iff (perm.length_eq ▸ budget)]
    exact ⟨fun solvable => solvable.mono perm.symm.subset, fun solvable => solvable.mono perm.subset⟩
  · exact Unifier.apply_apply_of_subset h h' perm.symm.subset t
  · exact Unifier.apply_apply_of_subset h' h perm.subset t
  · obtain ⟨before, k, after, cause, w, rfl, ok, same, error, conflict⟩ := Unifier.exists_conflict h budget
    have reached : (before ++ k :: after).take before.length = before := List.take_left
    have stopped : (before ++ k :: after).take (before.length + 1) = before ++ [k] :=
      List.take_length_add_append 1
    refine ⟨before.length, k, cause, w, by simp, ?_, fun j earlier => ?_, reached.symm ▸ ok, same, error,
      conflict⟩
    · rw [stopped]
      exact Unifier.not_solvable_of_conflict ok (same ▸ conflict)
    · rw [List.take_append_of_le_length earlier]
      exact (Unifier.solvable_of_solve_ok ok).mono (List.take_subset _ _)

-- The third constraint clashes with what the first two make of the start; it clashes in any order.
theorem solve_settles_constraints_after_start :
    let u : Unifier := { substitution := .single (.named "c") .int (by simp [Ty.occurrences]) }
    let a : Ty := .var (.named "a")
    let b : Ty := .var (.named "b")
    let k₀ : Constraint := ⟨a, .sequence (.var (.named "c")), .application⟩
    let k₁ : Constraint := ⟨.function b .int, .function a .int, .composeFirst⟩
    let k₂ : Constraint := ⟨b, .sequence .bool, .ascription⟩
    u.solved + [k₀, k₁, k₂].length ≤ u.maxConstraints ∧
      (u.solve [k₀, k₁]).1 = .ok () ∧ (u.solve [k₁, k₀]).1 = .ok () ∧ Solvable u.substitution [k₀, k₁] ∧
      (u.solve [k₀, k₁, k₂]).1 = .error (.typeMismatch (.sequence .int) (.sequence .bool) .ascription
        (.kindMismatch .int .bool)) ∧
      ¬ Solvable u.substitution [k₀, k₁, k₂] ∧ (u.solve [k₂, k₀, k₁]).1 ≠ .ok () := by
  intro u a b k₀ k₁ k₂
  have budget : u.solved + [k₀, k₁, k₂].length ≤ u.maxConstraints := by decide
  have budget' : u.solved + [k₀, k₁].length ≤ u.maxConstraints := by decide
  have solved : (u.solve [k₀, k₁]).1 = .ok () := by
    simp only [u, a, b, k₀, k₁]
    cbv
  have stopped : (u.solve [k₀, k₁, k₂]).1 = .error (.typeMismatch (.sequence .int) (.sequence .bool)
      .ascription (.kindMismatch .int .bool)) := by
    simp only [u, a, b, k₀, k₁, k₂]
    cbv
  have failed : (u.solve [k₀, k₁, k₂]).1 ≠ .ok () := by simp [stopped]
  obtain ⟨solvable, -, order, -⟩ := solve_settles_constraints budget'
  obtain ⟨solvable', -, order', -⟩ := solve_settles_constraints budget
  refine ⟨budget, solved, (order _ (.swap ..)).1.mpr solved, solvable.mp solved, stopped,
    mt solvable'.mpr failed, mt (order' _ ?_).1.mp failed⟩
  exact (List.perm_append_comm : ([k₂] ++ [k₀, k₁]).Perm ([k₀, k₁] ++ [k₂]))

end OpCalculus
