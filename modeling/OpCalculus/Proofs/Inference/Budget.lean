import Mathlib
import OpCalculus.Proofs.FirstConflict
import OpCalculus.Proofs.Inference.Completeness

/-!
# The budget of the solver

A run with a larger budget does the same as a run with a smaller one, up to the point where the smaller one
is used up (`Lifts`). Every constraint that was emitted is pending or was taken by the solver, so the budget
is used up exactly if more constraints are emitted than it admits (`Spends`).
-/

namespace OpCalculus

/-! ## Nodes of an expression -/

def Expr.nodeCount (rule : InferRule) (e : Expr) : Nat := e.nodes.countP (·.rule = rule)

theorem Expr.constraintCount_eq (e : Expr) : e.constraintCount =
    e.nodeCount .application + e.nodeCount .ascription + 2 * e.nodeCount .compose := by
  unfold nodeCount
  induction e with
  | lit | var => rfl
  | app _ _ ihLeft ihRight | letIn _ _ _ ihLeft ihRight | compose _ _ ihLeft ihRight =>
      simp [constraintCount, nodes, List.countP_append, rule, ihLeft, ihRight]
      omega
  | lambda _ _ ih => simp [constraintCount, nodes, List.countP_append, rule, ih]
  | ascribe _ _ ih =>
      simp [constraintCount, nodes, List.countP_append, rule, ih]
      omega

/-! ## The solver with a larger budget -/

namespace Unifier

variable {u v : Unifier} {k : Nat} {constraints : List Constraint}

def withBudget (u : Unifier) (k : Nat) : Unifier := { u with maxConstraints := k }

theorem record_withBudget (l r : Ty) : (u.withBudget k).record l r = (u.record l r).withBudget k := by
  unfold record withBudget
  split <;> rfl

theorem unify_withBudget (u : Unifier) (k : Nat) (l r : Ty) :
    (u.withBudget k).unify l r = ((u.unify l r).1, (u.unify l r).2.withBudget k) := by
  cases solved : Unification.solve (u.substitution.apply l) (u.substitution.apply r) with
  | error e =>
      have solved' : Unification.solve ((u.withBudget k).substitution.apply l)
          ((u.withBudget k).substitution.apply r) = .error e := solved
      simp only [unify, solved, solved', record_withBudget]
      rfl
  | ok step =>
      have solved' : Unification.solve ((u.withBudget k).substitution.apply l)
          ((u.withBudget k).substitution.apply r) = .ok step := solved
      simp only [unify, solved, solved', record_withBudget]
      rfl

/-- What the solver does with its first constraint: the budget is used up, or the constraint is counted and
then in conflict or solved. -/
theorem solve_cons_cases (u : Unifier) (c : Constraint) (rest : List Constraint) :
    (u.maxConstraints ≤ u.solved ∧ u.solve (c :: rest) = (.error (.budgetExceeded u.maxConstraints), u)) ∨
    u.solved < u.maxConstraints ∧ ∃ next, next.solved = u.solved + 1 ∧
      next.maxConstraints = u.maxConstraints ∧
      ((∃ cause, Unifier.unify { u with solved := u.solved + 1 } c.expected c.actual = (.error cause, next) ∧
        u.solve (c :: rest) = (.error (.typeMismatch (next.substitution.apply c.expected)
          (next.substitution.apply c.actual) c.reason cause), next)) ∨
      ∃ step, Unifier.unify { u with solved := u.solved + 1 } c.expected c.actual = (.ok step, next) ∧
        u.solve (c :: rest) = next.solve rest) := by
  by_cases used : u.maxConstraints ≤ u.solved
  · left
    exact ⟨used, by rw [solve, if_pos used]⟩
  right
  refine ⟨Nat.lt_of_not_le used, ?_⟩
  have solved := unify_solved { u with solved := u.solved + 1 } c.expected c.actual
  have limit := unify_maxConstraints { u with solved := u.solved + 1 } c.expected c.actual
  cases unified : Unifier.unify { u with solved := u.solved + 1 } c.expected c.actual with
  | mk answer next =>
      rw [unified] at solved limit
      refine ⟨next, solved, limit, ?_⟩
      cases answer with
      | error cause => exact .inl ⟨cause, rfl, by rw [solve, if_neg used, unified]⟩
      | ok step => exact .inr ⟨step, rfl, by rw [solve, if_neg used, unified]⟩

theorem solve_withBudget (le : u.maxConstraints ≤ k) (constraints : List Constraint) :
    (u.solve constraints).1 = .error (.budgetExceeded u.maxConstraints) ∨
    (u.withBudget k).solve constraints =
      ((u.solve constraints).1, (u.solve constraints).2.withBudget k) := by
  induction constraints generalizing u with
  | nil => exact .inr rfl
  | cons c rest ih =>
      have unified : Unifier.unify { u.withBudget k with solved := (u.withBudget k).solved + 1 }
          c.expected c.actual = _ :=
        unify_withBudget { u with solved := u.solved + 1 } k c.expected c.actual
      rcases solve_cons_cases u c rest with ⟨-, cut⟩ | ⟨less, next, -, limit, step⟩
      · left
        rw [cut]
      have room : ¬ (u.withBudget k).maxConstraints ≤ (u.withBudget k).solved :=
        Nat.not_le.mpr (less.trans_le le)
      rcases step with ⟨cause, conflict, stopped⟩ | ⟨step, solved, continued⟩
      · right
        rw [stopped, solve, if_neg room, unified, conflict]
        rfl
      · rw [continued, solve, if_neg room, unified, solved, ← limit]
        exact ih (limit.trans_le le)

theorem lt_of_budgetExceeded {limit : Nat} (h : (u.solve constraints).1 = .error (.budgetExceeded limit)) :
    limit = u.maxConstraints ∧ u.maxConstraints < u.solved + constraints.length := by
  induction constraints generalizing u with
  | nil => cases h
  | cons c rest ih =>
      rw [List.length_cons]
      rcases solve_cons_cases u c rest with ⟨used, cut⟩ | ⟨-, next, solved, same, step⟩
      · rw [cut] at h
        cases h
        exact ⟨rfl, by omega⟩
      rcases step with ⟨cause, -, stopped⟩ | ⟨step, -, continued⟩
      · rw [stopped] at h
        cases h
      · rw [continued] at h
        have later := ih h
        omega

theorem solved_le_of_solve (h : u.solve constraints = (.ok (), v)) (within : u.solved ≤ u.maxConstraints) :
    v.solved ≤ v.maxConstraints := by
  induction constraints generalizing u with
  | nil =>
      cases h
      exact within
  | cons c rest ih =>
      rcases solve_cons_cases u c rest with ⟨-, cut⟩ | ⟨less, next, solved, same, step⟩
      · rw [cut] at h
        cases h
      rcases step with ⟨cause, -, stopped⟩ | ⟨step, -, continued⟩
      · rw [stopped] at h
        cases h
      · rw [continued] at h
        exact ih h (by omega)

end Unifier

/-! ## Inference with a larger budget -/

namespace InferenceContext

def budget (c : InferenceContext) : Nat := c.unifier.maxConstraints

def withBudget (c : InferenceContext) (k : Nat) : InferenceContext :=
  { c with unifier := c.unifier.withBudget k }

/-- Every constraint that was emitted is pending or was taken, within the budget. -/
structure Balanced (c : InferenceContext) : Prop where
  taken : c.unifier.solved + c.pending.length = c.emitted
  within : c.unifier.solved ≤ c.budget

end InferenceContext

namespace Infer

variable {α β : Type}

/-- How a result relates to the one with the larger budget `k`: the same, or cut off at the smaller one. -/
inductive Lifted (budget k : Nat) : EStateM.Result InferError InferenceContext α →
    EStateM.Result InferError InferenceContext α → Prop
  | ok {a : α} {c : InferenceContext} : c.budget = budget → Lifted budget k (.ok a c) (.ok a (c.withBudget k))
  | error {e : InferError} {c : InferenceContext} : Lifted budget k (.error e c) (.error e (c.withBudget k))
  | cut {c : InferenceContext} {r : EStateM.Result InferError InferenceContext α} :
      Lifted budget k (.error (.unsolvable (.budgetExceeded budget)) c) r

def Lifts (x : Infer α) : Prop := ∀ c k, c.budget ≤ k → Lifted c.budget k (x c) (x (c.withBudget k))

theorem Lifts.bind {x : Infer α} {f : α → Infer β} (hx : x.Lifts) (hf : ∀ a, (f a).Lifts) :
    (x >>= f).Lifts := by
  intro c k le
  have first := hx c k le
  change Lifted c.budget k (EStateM.bind x f c) (EStateM.bind x f (c.withBudget k))
  unfold EStateM.bind
  generalize x c = r at first ⊢
  generalize x (c.withBudget k) = r' at first ⊢
  cases first with
  | @ok a c₁ same => exact same ▸ hf a c₁ k (same.trans_le le)
  | error => exact .error
  | cut => exact .cut

theorem lifts_pure (a : α) : (pure a : Infer α).Lifts := fun _ _ _ => .ok rfl

theorem lifts_throw (e : InferError) : (throw e : Infer α).Lifts := fun _ _ _ => .error

theorem lifts_minting (action : Minting α) : (minting action).Lifts := by
  intro c k _
  have supply : (c.withBudget k).supply = c.supply := rfl
  unfold minting
  rw [supply]
  cases action c.supply with
  | ok a supply => exact .ok rfl
  | error e supply => exact .error

theorem lifts_freshType : freshType.Lifts := (lifts_minting _).bind fun _ => lifts_pure _

theorem lifts_modify {f : InferenceContext → InferenceContext}
    (commutes : ∀ c k, f (c.withBudget k) = (f c).withBudget k) (kept : ∀ c, (f c).budget = c.budget) :
    (modify f : Infer Unit).Lifts := by
  intro c k _
  change Lifted c.budget k (.ok () (f c)) (.ok () (f (c.withBudget k)))
  rw [commutes]
  exact .ok (kept c)

theorem lifts_constrain (t u : Ty) (reason : Reason) : (constrain t u reason).Lifts :=
  lifts_modify (fun _ _ => rfl) fun _ => rfl

theorem lifts_record (e : Expr) (t : Ty) (rule : InferRule) (detail : InferDetail) :
    (record e t rule detail).Lifts := by
  refine lifts_modify (fun c k => ?_) fun c => ?_
  · unfold InferenceContext.withBudget
    dsimp only
    split <;> rfl
  · split <;> rfl

theorem solve_of_ok {c : InferenceContext} {unifier : Unifier}
    (run : c.unifier.solve c.pending = (.ok (), unifier)) :
    solve c = .ok () { c with unifier, pending := [] } := by
  simp only [solve, run]

theorem solve_of_error {c : InferenceContext} {unifier : Unifier} {e : SolveError}
    (run : c.unifier.solve c.pending = (.error e, unifier)) :
    solve c = .error (.unsolvable e) { c with unifier, pending := [] } := by
  simp only [solve, run]

theorem lifts_solve : solve.Lifts := by
  intro c k le
  have lifted := Unifier.solve_withBudget le c.pending
  cases run : c.unifier.solve c.pending with
  | mk answer unifier =>
      rw [run] at lifted
      cases answer with
      | error e =>
          rw [solve_of_error run]
          rcases lifted with cut | same
          · cases cut
            exact .cut
          · rw [solve_of_error (c := c.withBudget k) same]
            exact .error
      | ok done =>
          have same := lifted.resolve_left (fun cut => nomatch cut)
          rw [solve_of_ok run, solve_of_ok (c := c.withBudget k) same]
          exact .ok (Unifier.solve_eq_ok run).2.2

-- The context is read for its substitution only, which the budget leaves alone.
theorem Lifts.bind_get {f : InferenceContext → Infer α} (same : ∀ c k, f (c.withBudget k) = f c)
    (hf : ∀ c, (f c).Lifts) : (get >>= f).Lifts := by
  intro c k le
  change Lifted c.budget k (f c c) (f (c.withBudget k) (c.withBudget k))
  rw [same]
  exact hf c c k le

theorem lifts_solution : solution.Lifts :=
  lifts_solve.bind fun _ => .bind_get (fun _ _ => rfl) fun _ => lifts_pure _

theorem lifts_expr (env : TypeEnv) (e : Expr) : (expr env e).Lifts :=
  Congruence.expr (y := actions) (R := fun _ _ x _ => Lifts x)
    { pure := lifts_pure
      bind := Lifts.bind
      throw := fun _ _ _ => lifts_throw _
      freshType := lifts_freshType
      instantiate := fun _ => lifts_minting _
      constrain := lifts_constrain
      solve := lifts_solution
      record := fun e t detail => lifts_record e t e.rule detail } env e

theorem lifts_finish (t : Ty) : (finish t).Lifts :=
  lifts_solve.bind fun _ => .bind_get (fun _ _ => rfl) fun _ => lifts_pure _

/-! ## Constraints that were emitted -/

/-- What an action that emits `n` constraints does to a balanced context. It is cut off only if the
constraints do not fit into the budget. -/
inductive Spent (c : InferenceContext) (n : Nat) : EStateM.Result InferError InferenceContext α → Prop
  | ok {a : α} {c' : InferenceContext} : c'.Balanced → c'.emitted = c.emitted + n → c'.budget = c.budget →
      Spent c n (.ok a c')
  | error {e : InferError} {c' : InferenceContext} : (∀ limit, e ≠ .unsolvable (.budgetExceeded limit)) →
      Spent c n (.error e c')
  | cut {limit : Nat} {c' : InferenceContext} : c.budget < c.emitted + n →
      Spent c n (.error (.unsolvable (.budgetExceeded limit)) c')

def Spends (n : Nat) (x : Infer α) : Prop := ∀ c, c.Balanced → Spent c n (x c)

theorem Spends.bind {m n : Nat} {x : Infer α} {f : α → Infer β} (hx : Spends m x) (hf : ∀ a, Spends n (f a)) :
    Spends (m + n) (x >>= f) := by
  intro c balanced
  have first := hx c balanced
  change Spent c (m + n) (EStateM.bind x f c)
  unfold EStateM.bind
  generalize x c = r at first ⊢
  cases first with
  | error other => exact .error other
  | cut exceeds => exact .cut (by omega)
  | @ok a c₁ balanced₁ emitted budget =>
      have second := hf a c₁ balanced₁
      dsimp only
      generalize f a c₁ = r at second ⊢
      cases second with
      | error other => exact .error other
      | cut exceeds => exact .cut (by omega)
      | ok balanced₂ emitted₂ budget₂ => exact .ok balanced₂ (by omega) (budget₂.trans budget)

theorem spends_pure (a : α) : Spends 0 (pure a : Infer α) := fun _ balanced => .ok balanced rfl rfl

theorem spends_get : Spends 0 (get : Infer InferenceContext) := fun _ balanced => .ok balanced rfl rfl

theorem spends_throw {e : InferError} (n : Nat) (static : e.Static) : Spends n (throw e : Infer α) :=
  fun _ _ => .error fun _ => static.solved _

theorem spends_minting (action : Minting α) : Spends 0 (minting action) := by
  intro c balanced
  unfold minting
  cases action c.supply with
  | ok a supply => exact .ok ⟨balanced.taken, balanced.within⟩ rfl rfl
  | error e supply => exact .error fun limit same => nomatch same

theorem spends_freshType : Spends 0 freshType := (spends_minting _).bind fun _ => spends_pure _

theorem spends_constrain (t u : Ty) (reason : Reason) : Spends 1 (constrain t u reason) := by
  intro c balanced
  refine .ok ⟨?_, balanced.within⟩ rfl rfl
  rw [List.length_append, List.length_singleton, ← Nat.add_assoc, balanced.taken]

theorem spends_record (e : Expr) (t : Ty) (rule : InferRule) (detail : InferDetail) :
    Spends 0 (record e t rule detail) := by
  intro c balanced
  unfold record
  change Spent c 0 (.ok () (if c.tracing then { c with trace := c.trace ++ [⟨e, t, rule, detail⟩] } else c))
  split
  · exact .ok ⟨balanced.taken, balanced.within⟩ rfl rfl
  · exact .ok balanced rfl rfl

theorem spends_solve : Spends 0 solve := by
  intro c balanced
  cases run : c.unifier.solve c.pending with
  | mk answer unifier =>
      cases answer with
      | ok done =>
          obtain ⟨-, solved, limit⟩ := Unifier.solve_eq_ok run
          rw [solve_of_ok run]
          refine .ok ⟨?_, Unifier.solved_le_of_solve run balanced.within⟩ rfl limit
          rw [List.length_nil, Nat.add_zero, solved, balanced.taken]
      | error e =>
          rw [solve_of_error run]
          cases e with
          | typeMismatch expected actual reason cause => exact .error fun limit same => nomatch same
          | budgetExceeded limit =>
              have exceeds := (Unifier.lt_of_budgetExceeded (congrArg Prod.fst run)).2
              rw [balanced.taken] at exceeds
              exact .cut exceeds

theorem spends_finish (t : Ty) : Spends 0 (finish t) :=
  spends_solve.bind fun _ => spends_get.bind fun _ => spends_pure _

theorem spends_solution : Spends 0 solution :=
  spends_solve.bind fun _ => spends_get.bind fun _ => spends_pure _

theorem spends_expr (env : TypeEnv) (e : Expr) : Spends e.constraintCount (expr env e) :=
  Congruence.expr (y := actions) (R := fun n _ x _ => Spends n x)
    { pure := spends_pure
      bind := Spends.bind
      throw := fun n _ => spends_throw n
      freshType := spends_freshType
      instantiate := fun _ => spends_minting _
      constrain := spends_constrain
      solve := spends_solution
      record := fun e t detail => spends_record e t e.rule detail } env e

end Infer

/-! ## Budgets of one inference -/

section

variable {env : TypeEnv} {e : Expr} {tracing : Bool} {k k' : Nat} {i : Inference}

theorem inferWith_lifts (le : k ≤ k') :
    inferWith ⟨tracing, k⟩ env e = .error (.unsolvable (.budgetExceeded k)) ∨
    inferWith ⟨tracing, k'⟩ env e = inferWith ⟨tracing, k⟩ env e := by
  have whole : Infer.Lifts (do Infer.finish (← Infer.expr env e)) :=
    (Infer.lifts_expr env e).bind fun t => Infer.lifts_finish t
  have lifted := whole (.start env ⟨tracing, k⟩) k' le
  have start : (InferenceContext.start env ⟨tracing, k⟩).withBudget k' = .start env ⟨tracing, k'⟩ := rfl
  have budget : (InferenceContext.start env ⟨tracing, k⟩).budget = k := rfl
  rw [start, budget] at lifted
  unfold inferWith Infer.outcome
  generalize (do Infer.finish (← Infer.expr env e) : Infer Inference) (.start env ⟨tracing, k⟩) = r at lifted ⊢
  generalize (do Infer.finish (← Infer.expr env e) : Infer Inference) (.start env ⟨tracing, k'⟩) = r' at lifted ⊢
  cases lifted with
  | ok | error => exact .inr rfl
  | cut => exact .inl rfl

theorem Infer.finish_eq_ok {t : Ty} {c c' : InferenceContext} (h : finish t c = .ok i c') :
    c'.pending = [] ∧ i.constraints = c'.emitted := by
  simp only [finish, bind_eq_ok, pure_eq_ok] at h
  obtain ⟨_, c₁, solved, _, _, ⟨rfl, rfl⟩, rfl, rfl⟩ := h
  obtain ⟨s, -, state⟩ := solve_eq_ok solved
  exact ⟨congrArg InferState.pending state, rfl⟩

theorem spent_inferWith (env : TypeEnv) (e : Expr) (tracing : Bool) (k : Nat) :
    Infer.Spent (.start env ⟨tracing, k⟩) e.constraintCount
      ((do Infer.finish (← Infer.expr env e) : Infer Inference) (.start env ⟨tracing, k⟩)) :=
  (Infer.spends_expr env e).bind (fun t => Infer.spends_finish t) _ ⟨rfl, Nat.zero_le k⟩

theorem constraints_of_inferWith (h : inferWith ⟨tracing, k⟩ env e = .ok i) :
    i.constraints = e.constraintCount ∧ e.constraintCount ≤ k := by
  obtain ⟨c', ran⟩ := Infer.outcome_eq_ok.mp h
  have spent := spent_inferWith env e tracing k
  obtain ⟨t, c, -, finished⟩ := Infer.bind_eq_ok.mp ran
  obtain ⟨empty, constraints⟩ := Infer.finish_eq_ok finished
  rw [ran] at spent
  cases spent with
  | ok balanced emitted budget =>
      have total : c'.emitted = e.constraintCount := emitted.trans (Nat.zero_add _)
      have taken := balanced.taken
      have within : c'.unifier.solved ≤ k := balanced.within.trans_eq budget
      rw [empty, List.length_nil, Nat.add_zero, total] at taken
      exact ⟨constraints.trans total, taken ▸ within⟩

theorem lt_constraintCount_of_budgetExceeded {limit : Nat}
    (h : inferWith ⟨tracing, k⟩ env e = .error (.unsolvable (.budgetExceeded limit))) :
    k < e.constraintCount := by
  have spent := spent_inferWith env e tracing k
  unfold inferWith Infer.outcome at h
  generalize (do Infer.finish (← Infer.expr env e) : Infer Inference) (.start env ⟨tracing, k⟩) = r
    at h spent
  cases spent with
  | ok => cases h
  | error other => exact absurd (Except.error.inj h) (other limit)
  | cut exceeds => exact (Nat.zero_add e.constraintCount) ▸ exceeds

end

/-- Inference that is not cut off by its budget has the same outcome with every larger budget. It reports one
constraint for each application and ascription and two for each composition. If it succeeds at all, it does
so with exactly the budgets that admit these constraints, and is cut off by all others. -/
theorem budget_only_cuts_off (env : TypeEnv) (e : Expr) (tracing : Bool) :
    (∀ k k', k ≤ k' →
      (∀ limit, inferWith ⟨tracing, k⟩ env e ≠ .error (.unsolvable (.budgetExceeded limit))) →
      inferWith ⟨tracing, k'⟩ env e = inferWith ⟨tracing, k⟩ env e) ∧
    (∀ k i, inferWith ⟨tracing, k⟩ env e = .ok i → i.constraints =
      e.nodeCount .application + e.nodeCount .ascription + 2 * e.nodeCount .compose) ∧
    ∀ k₀ i, inferWith ⟨tracing, k₀⟩ env e = .ok i → ∀ k,
      (i.constraints ≤ k → inferWith ⟨tracing, k⟩ env e = .ok i) ∧
      (k < i.constraints → inferWith ⟨tracing, k⟩ env e = .error (.unsolvable (.budgetExceeded k))) := by
  refine ⟨fun k k' le uncut => (inferWith_lifts le).resolve_left (uncut k), fun k i ok => ?_, ?_⟩
  · rw [(constraints_of_inferWith ok).1, e.constraintCount_eq]
  intro k₀ i ok k
  obtain ⟨count, fits⟩ := constraints_of_inferWith ok
  rw [count]
  constructor
  · intro enough
    rcases Nat.le_total k k₀ with le | le
    · rcases inferWith_lifts le with cut | same
      · exact absurd enough (Nat.not_le.mpr (lt_constraintCount_of_budgetExceeded cut))
      · rw [← same, ok]
    · rcases inferWith_lifts le with cut | same
      · rw [ok] at cut
        cases cut
      · rw [same, ok]
  · intro short
    refine (inferWith_lifts (Nat.le_of_lt (short.trans_le fits))).resolve_right fun same => ?_
    rw [ok] at same
    exact absurd (constraints_of_inferWith same.symm).2 (Nat.not_le.mpr short)

-- The value of the `let` is solved on its own, before the composition in the body emits its constraints.
theorem budget_only_cuts_off_after_let :
    let e := Expr.letIn "id" (.ascribe (.lambda "x" (.var "x")) (.function .int .int))
      (.compose (.var "id") (.lambda "y" (.app (.var "id") (.var "y"))))
    (∃ i, inferWith ⟨true, 7⟩ .empty e = .ok i ∧ i.constraints = 4 ∧ inferWith ⟨true, 4⟩ .empty e = .ok i) ∧
      inferWith ⟨true, 3⟩ .empty e = .error (.unsolvable (.budgetExceeded 3)) ∧
      inferWith ⟨false, 9⟩ .empty (.app (.var "f") e) = inferWith ⟨false, 0⟩ .empty (.app (.var "f") e) := by
  intro e
  have inferred : (inferWith ⟨true, 7⟩ .empty e).map Inference.ty = .ok (.function .int .int) := by
    simp only [e]
    cbv
  obtain ⟨i, ok, -⟩ := Infer.map_eq_ok.mp inferred
  obtain ⟨-, counted, exact'⟩ := budget_only_cuts_off .empty e true
  have four : i.constraints = 4 := counted 7 i ok
  refine ⟨⟨i, ok, four, (exact' 7 i ok 4).1 four.le⟩, (exact' 7 i ok 3).2 (by omega), ?_⟩
  have unbound : inferWith ⟨false, 0⟩ .empty (.app (.var "f") e) = .error (.unboundVariable "f") := rfl
  refine (budget_only_cuts_off .empty (.app (.var "f") e) false).1 0 9 (by decide) fun limit => ?_
  rw [unbound]
  simp

end OpCalculus
