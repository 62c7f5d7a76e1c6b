import OpCalculus.Proofs.Unification
import OpCalculus.Unification.Unifier

/-!
# Solving constraints

A successful run of the solver goes from one substitution to another by most general steps
(`Solves`). Its result equates every constraint, is absorbed by exactly the assignments that absorb
the start and satisfy the constraints, and touches only variables that the constraints reach.
-/

namespace OpCalculus

def Constraint.HoldsUnder (q : TypeVar → Ty) (k : Constraint) : Prop :=
  k.expected.bind q = k.actual.bind q

/-- The variables of a type after the substitution satisfy `A`. -/
def Confined (A : TypeVar → Prop) (s : Substitution) (t : Ty) : Prop :=
  ∀ w ∈ (s.apply t).occurrences, A w

def Constraint.Confined (A : TypeVar → Prop) (s : Substitution) (k : Constraint) : Prop :=
  OpCalculus.Confined A s k.expected ∧ OpCalculus.Confined A s k.actual

namespace Substitution

variable {A : TypeVar → Prop} {s s' s'' : Substitution} {t u : Ty}

theorem confined_iff : Confined A s t ↔ ∀ v ∈ t.occurrences, Confined A s (.var v) := by
  constructor
  · exact fun h v hv w hw => h w (Ty.mem_occurrences_bind.mpr ⟨v, hv, hw⟩)
  · intro h w hw
    obtain ⟨v, hv, hw⟩ := Ty.mem_occurrences_bind.mp hw
    exact h v hv w hw

theorem confined_function : Confined A s (.function t u) ↔ Confined A s t ∧ Confined A s u := by
  simp only [Confined, apply, Ty.bind, Ty.occurrences, List.mem_append, or_imp, forall_and]

/-- The second substitution adds to the first a replacement of variables of `A` by types over
`A`. -/
def RefinedWithin (A : TypeVar → Prop) (s s' : Substitution) : Prop :=
  ∃ step : TypeVar → Ty, (∀ v, s'.image v = (s.image v).bind step) ∧
    ∀ v, step v = .var v ∨ A v ∧ ∀ w ∈ (step v).occurrences, A w

namespace RefinedWithin

theorem refl (A : TypeVar → Prop) (s : Substitution) : RefinedWithin A s s :=
  ⟨.var, fun _ => (Ty.bind_var _).symm, fun _ => .inl rfl⟩

theorem image_apply (h : RefinedWithin A s s') (v : TypeVar) : s'.apply (s.image v) = s'.image v := by
  obtain ⟨step, image, -⟩ := h
  have idempotent := congrArg (Ty.bind step) (s.apply_apply (.var v))
  simp only [apply, Ty.bind_bind, ← image] at idempotent
  exact idempotent

theorem absorbed {q : TypeVar → Ty} (h : RefinedWithin A s s') (absorbed : s'.AbsorbedBy q) :
    s.AbsorbedBy q := by
  intro v
  rw [← absorbed.bind_apply, h.image_apply]
  exact absorbed v

theorem confined (h : RefinedWithin A s s') (inside : Confined A s t) : Confined A s' t := by
  obtain ⟨step, image, local'⟩ := h
  intro w hw
  obtain ⟨v, hv, hw⟩ := Ty.mem_occurrences_bind.mp hw
  rw [image v] at hw
  obtain ⟨x, hx, hw⟩ := Ty.mem_occurrences_bind.mp hw
  have hx := inside x (Ty.mem_occurrences_bind.mpr ⟨v, hv, hx⟩)
  rcases local' x with stays | ⟨-, inside'⟩
  · rw [stays, Ty.occurrences, List.mem_singleton] at hw
    exact hw ▸ hx
  · exact inside' w hw

theorem trans (h : RefinedWithin A s s') (h' : RefinedWithin A s' s'') : RefinedWithin A s s'' := by
  obtain ⟨step, image, local'⟩ := h
  obtain ⟨step', image', local''⟩ := h'
  refine ⟨fun v => (step v).bind step', fun v => ?_, fun v => ?_⟩
  · rw [image', image, Ty.bind_bind]
  · rcases local' v with stays | ⟨hv, inside⟩
    · simp only [stays]
      exact local'' v
    · refine .inr ⟨hv, fun w hw => ?_⟩
      obtain ⟨x, hx, hw⟩ := Ty.mem_occurrences_bind.mp hw
      rcases local'' x with stays | ⟨-, inside'⟩
      · rw [stays, Ty.occurrences, List.mem_singleton] at hw
        exact hw ▸ inside x hx
      · exact inside' w hw

theorem image_of_not (h : RefinedWithin A s s') {v : TypeVar} (outside : ¬ A v)
    (unbound : s.image v = .var v) : s'.image v = .var v := by
  obtain ⟨step, image, local'⟩ := h
  rw [image v, unbound]
  exact (local' v).resolve_right fun inside => outside inside.1

theorem andThen {next : Substitution} {vs : List TypeVar} (avoids : next.Avoids s)
    (within : Unification.Within next vs) (inside : ∀ v ∈ vs, A v) :
    RefinedWithin A s (s.andThen next avoids) := by
  refine ⟨next.image, fun v => image_andThen v, fun v => ?_⟩
  cases bound : next.get? v with
  | none => exact .inl (image_of_get?_eq_none bound)
  | some t =>
      rw [image, bound, Option.getD_some]
      exact .inr ⟨inside v (within.bound v t bound),
        fun w hw => inside w (within.mentioned v t bound w hw)⟩

end RefinedWithin

end Substitution

/-! ## Runs of the solver -/

open Substitution Unification

/-- A successful run of the solver by most general steps. -/
inductive Solves : Substitution → List Constraint → Substitution → Prop
  | nil {s : Substitution} : Solves s [] s
  | cons {s step s' : Substitution} {k : Constraint} {rest : List Constraint}
      (within : Within step (pairVars (s.apply k.expected) (s.apply k.actual)))
      (general : MostGeneral step (s.apply k.expected) (s.apply k.actual)) :
      Solves (s.andThen step (Splits.avoids within)) rest s' → Solves s (k :: rest) s'

namespace Solves

variable {A : TypeVar → Prop} {s s' : Substitution} {constraints : List Constraint}

theorem refinedWithin (h : Solves s constraints s') (inside : ∀ k ∈ constraints, k.Confined A s) :
    s.RefinedWithin A s' := by
  induction h with
  | nil => exact .refl A _
  | @cons s step s' k rest within general _ ih =>
      have first : s.RefinedWithin A (s.andThen step (Splits.avoids within)) := by
        refine .andThen _ within fun v hv => ?_
        obtain ⟨left, right⟩ := inside k (List.mem_cons_self ..)
        exact (List.mem_append.mp hv).elim (left v) (right v)
      refine first.trans (ih fun j hj => ?_)
      obtain ⟨left, right⟩ := inside j (List.mem_cons_of_mem _ hj)
      exact ⟨first.confined left, first.confined right⟩

theorem refined (h : Solves s constraints s') : s.RefinedWithin (fun _ => True) s' :=
  h.refinedWithin fun _ _ => ⟨fun _ _ => trivial, fun _ _ => trivial⟩

theorem holds {q : TypeVar → Ty} (h : Solves s constraints s') (absorbed : s'.AbsorbedBy q) :
    ∀ k ∈ constraints, k.HoldsUnder q := by
  induction h with
  | nil => exact fun _ hk => nomatch hk
  | @cons s step s' k rest within general later ih =>
      intro j hj
      rcases List.mem_cons.mp hj with rfl | hj
      · have between := later.refined.absorbed absorbed
        have equal : (s.andThen step (Splits.avoids within)).apply j.expected =
            (s.andThen step (Splits.avoids within)).apply j.actual := by
          rw [apply_andThen, apply_andThen, general.equal]
        rw [Constraint.HoldsUnder, ← between.bind_apply, equal, between.bind_apply]
      · exact ih absorbed j hj

theorem absorbed {q : TypeVar → Ty} (h : Solves s constraints s') (start : s.AbsorbedBy q)
    (holds : ∀ k ∈ constraints, k.HoldsUnder q) : s'.AbsorbedBy q := by
  induction h with
  | nil => exact start
  | @cons s step s' k rest within general _ ih =>
      have equal := holds k (List.mem_cons_self ..)
      rw [Constraint.HoldsUnder, ← start.bind_apply, ← start.bind_apply k.actual] at equal
      refine ih ?_ fun j hj => holds j (List.mem_cons_of_mem _ hj)
      exact absorbedBy_andThen (Splits.avoids within) start (general.absorbed q equal)

end Solves

/-! ## The solver -/

namespace Unifier

variable {u u' : Unifier} {constraints : List Constraint}

@[simp] theorem record_solved (l r : Ty) : (u.record l r).solved = u.solved := by
  unfold record
  split <;> rfl

@[simp] theorem record_maxConstraints (l r : Ty) :
    (u.record l r).maxConstraints = u.maxConstraints := by
  unfold record
  split <;> rfl

theorem solve_eq_ok (h : u.solve constraints = (.ok (), u')) :
    Solves u.substitution constraints u'.substitution ∧
      u'.solved = u.solved + constraints.length ∧ u'.maxConstraints = u.maxConstraints := by
  induction constraints generalizing u with
  | nil =>
      cases h
      exact ⟨.nil, rfl, rfl⟩
  | cons k rest ih =>
      rw [solve] at h
      split at h
      · cases h
      · unfold unify at h
        cases solved : Unification.solve (u.substitution.apply k.expected)
            (u.substitution.apply k.actual) with
        | error e =>
            simp only [solved] at h
            cases h
        | ok step =>
            simp only [solved] at h
            have general := solve_settles (u.substitution.apply k.expected)
              (u.substitution.apply k.actual)
            rw [solved] at general
            obtain ⟨solves, count, limit⟩ := ih h
            simp only [record_solved, record_maxConstraints] at count limit
            refine ⟨.cons step.2 general solves, ?_, limit⟩
            rw [count, List.length_cons]
            omega

theorem exists_solve_eq_ok {q : TypeVar → Ty} (absorbed : u.substitution.AbsorbedBy q)
    (holds : ∀ k ∈ constraints, k.HoldsUnder q)
    (budget : u.solved + constraints.length ≤ u.maxConstraints) :
    ∃ u', u.solve constraints = (.ok (), u') := by
  induction constraints generalizing u with
  | nil => exact ⟨u, rfl⟩
  | cons k rest ih =>
      rw [List.length_cons] at budget
      have equal := holds k (List.mem_cons_self ..)
      rw [Constraint.HoldsUnder, ← absorbed.bind_apply, ← absorbed.bind_apply k.actual] at equal
      have settled := solve_settles (u.substitution.apply k.expected) (u.substitution.apply k.actual)
      rw [solve, if_neg (by omega)]
      unfold unify
      cases solved : Unification.solve (u.substitution.apply k.expected)
          (u.substitution.apply k.actual) with
      | error e =>
          rw [solved] at settled
          exact absurd equal (settled q)
      | ok step =>
          rw [solved] at settled
          simp only [solved]
          refine ih ?_ (fun j hj => holds j (List.mem_cons_of_mem _ hj)) ?_
          · exact absorbedBy_andThen (Splits.avoids step.2) absorbed (settled.absorbed q equal)
          · simp only [record_solved, record_maxConstraints]
            omega

end Unifier

end OpCalculus
