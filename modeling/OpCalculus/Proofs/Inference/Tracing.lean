import Mathlib
import OpCalculus.Proofs.Inference.Budget
import OpCalculus.Proofs.UnificationLog

/-!
# Traces of inference

A run without tracing is the run with tracing whose traces are erased (`Untraces`): no step reads them. With
tracing on, a run visits the nodes of its expression in order, each with its own rule (`Visits`), and the trace
of the solver is one log over all constraints taken, however many times the solver was called.
-/

namespace OpCalculus

open Unification

/-! ## Erasing traces -/

namespace Unifier

def untraced (u : Unifier) : Unifier := { u with tracing := false, trace := [] }

theorem record_of_untraced (u : Unifier) (l r : Ty) : u.untraced.record l r = u.untraced := rfl

theorem untraced_record (u : Unifier) (l r : Ty) : (u.record l r).untraced = u.untraced := by
  unfold record
  split <;> rfl

theorem unify_untraced (u : Unifier) (l r : Ty) :
    u.untraced.unify l r = ((u.unify l r).1, (u.unify l r).2.untraced) := by
  cases solved : Unification.solve (u.substitution.apply l) (u.substitution.apply r) with
  | error e =>
      have solved' : Unification.solve (u.untraced.substitution.apply l) (u.untraced.substitution.apply r) =
          .error e := solved
      simp only [unify, solved, solved', record_of_untraced, untraced_record]
  | ok step =>
      have solved' : Unification.solve (u.untraced.substitution.apply l) (u.untraced.substitution.apply r) =
          .ok step := solved
      simp only [unify, solved, solved', record_of_untraced]
      simp only [untraced, record_solved, record_maxConstraints]

theorem solve_untraced (u : Unifier) (constraints : List Constraint) :
    u.untraced.solve constraints = ((u.solve constraints).1, (u.solve constraints).2.untraced) := by
  induction constraints generalizing u with
  | nil => rfl
  | cons k rest ih =>
      have unified : Unifier.unify { u.untraced with solved := u.untraced.solved + 1 } k.expected k.actual = _ :=
        unify_untraced { u with solved := u.solved + 1 } k.expected k.actual
      rcases solve_cons_cases u k rest with ⟨used, cut⟩ | ⟨less, next, -, -, step⟩
      · have used' : u.untraced.maxConstraints ≤ u.untraced.solved := used
        rw [cut, solve, if_pos used']
        rfl
      have room : ¬ u.untraced.maxConstraints ≤ u.untraced.solved := Nat.not_le.mpr less
      rw [solve, if_neg room, unified]
      rcases step with ⟨cause, conflict, stopped⟩ | ⟨step, solved, continued⟩
      · rw [stopped, conflict]
        rfl
      · rw [continued, solved]
        exact ih next

end Unifier

def InferenceContext.untraced (c : InferenceContext) : InferenceContext :=
  { c with unifier := c.unifier.untraced, tracing := false, trace := [] }

def Inference.untraced (i : Inference) : Inference := { i with unifyTrace := [], inferTrace := [] }

namespace Infer

variable {α β : Type}

/-- The second result is the first without its traces. -/
inductive Untraced : EStateM.Result InferError InferenceContext α →
    EStateM.Result InferError InferenceContext α → Prop
  | ok {a : α} {c : InferenceContext} : Untraced (.ok a c) (.ok a c.untraced)
  | error {e : InferError} {c : InferenceContext} : Untraced (.error e c) (.error e c.untraced)

def Untraces (x : Infer α) : Prop := ∀ c, Untraced (x c) (x c.untraced)

theorem Untraces.bind {x : Infer α} {f : α → Infer β} (hx : x.Untraces) (hf : ∀ a, (f a).Untraces) :
    (x >>= f).Untraces := by
  intro c
  have first := hx c
  change Untraced (EStateM.bind x f c) (EStateM.bind x f c.untraced)
  unfold EStateM.bind
  generalize x c = r at first ⊢
  generalize x c.untraced = r' at first ⊢
  cases first with
  | @ok a c₁ => exact hf a c₁
  | error => exact .error

theorem untraces_pure (a : α) : (pure a : Infer α).Untraces := fun _ => .ok

theorem untraces_throw (e : InferError) : (throw e : Infer α).Untraces := fun _ => .error

theorem untraces_minting (action : Minting α) : (minting action).Untraces := by
  intro c
  have supply : c.untraced.supply = c.supply := rfl
  unfold minting
  rw [supply]
  cases action c.supply with
  | ok a supply => exact .ok
  | error e supply => exact .error

theorem untraces_freshType : freshType.Untraces := (untraces_minting _).bind fun _ => untraces_pure _

theorem untraces_constrain (t u : Ty) (reason : Reason) : (constrain t u reason).Untraces := fun _ => .ok

theorem untraces_record (e : Expr) (t : Ty) (rule : InferRule) (detail : InferDetail) :
    (record e t rule detail).Untraces := by
  intro c
  change Untraced
    (.ok () (if c.tracing then { c with trace := c.trace ++ [⟨e, t, rule, detail⟩] } else c)) (.ok () c.untraced)
  split <;> exact .ok

theorem untraces_solve : solve.Untraces := by
  intro c
  have erased := Unifier.solve_untraced c.unifier c.pending
  cases run : c.unifier.solve c.pending with
  | mk answer unifier =>
      rw [run] at erased
      cases answer with
      | ok done =>
          rw [solve_of_ok run, solve_of_ok (c := c.untraced) erased]
          exact .ok
      | error e =>
          rw [solve_of_error run, solve_of_error (c := c.untraced) erased]
          exact .error

-- The context is read for its substitution only.
theorem Untraces.bind_get {f : InferenceContext → Infer α} (same : ∀ c, f c.untraced = f c)
    (hf : ∀ c, (f c).Untraces) : (get >>= f).Untraces := by
  intro c
  change Untraced (f c c) (f c.untraced c.untraced)
  rw [same]
  exact hf c c

theorem untraces_solution : solution.Untraces :=
  untraces_solve.bind fun _ => .bind_get (fun _ => rfl) fun _ => untraces_pure _

theorem untraces_expr (env : TypeEnv) (e : Expr) : (expr env e).Untraces :=
  Congruence.expr (y := actions) (R := fun _ _ x _ => Untraces x)
    { pure := untraces_pure
      bind := Untraces.bind
      throw := fun _ _ _ => untraces_throw _
      freshType := untraces_freshType
      instantiate := fun _ => untraces_minting _
      constrain := untraces_constrain
      solve := untraces_solution
      record := fun e t detail => untraces_record e t e.rule detail } env e

theorem outcome_bind_of_ok {x : Infer α} {f : α → Infer β} {a : α} {c c' : InferenceContext}
    (h : x c = .ok a c') : outcome (x >>= f) c = outcome (f a) c' := by
  unfold outcome
  rw [bind_of_ok h]

theorem outcome_bind_of_error {x : Infer α} {f : α → Infer β} {e : InferError} {c c' : InferenceContext}
    (h : x c = .error e c') : outcome (x >>= f) c = .error e := by
  unfold outcome
  rw [bind_of_error h]

theorem outcome_finish_untraced (t : Ty) (c : InferenceContext) :
    outcome (finish t) c.untraced = (outcome (finish t) c).map Inference.untraced := by
  have erased := untraces_solve c
  unfold finish
  generalize run : solve c = r at erased
  generalize run' : solve c.untraced = r' at erased
  cases erased with
  | ok =>
      rw [outcome_bind_of_ok run, outcome_bind_of_ok run']
      rfl
  | error =>
      rw [outcome_bind_of_error run, outcome_bind_of_error run']
      rfl

end Infer

theorem inferWith_untraced (env : TypeEnv) (e : Expr) (k : Nat) :
    inferWith ⟨false, k⟩ env e = (inferWith ⟨true, k⟩ env e).map Inference.untraced := by
  have erased := Infer.untraces_expr env e (.start env ⟨true, k⟩)
  have start : (InferenceContext.start env ⟨true, k⟩).untraced = .start env ⟨false, k⟩ := rfl
  rw [start] at erased
  unfold inferWith
  generalize run : Infer.expr env e (.start env ⟨true, k⟩) = r at erased
  generalize run' : Infer.expr env e (.start env ⟨false, k⟩) = r' at erased
  cases erased with
  | ok =>
      rw [Infer.outcome_bind_of_ok run, Infer.outcome_bind_of_ok run']
      exact Infer.outcome_finish_untraced _ _
  | error =>
      rw [Infer.outcome_bind_of_error run, Infer.outcome_bind_of_error run']
      rfl

/-! ## What the traces say -/

/-- Tracing is on, the given nodes were recorded in order, and the trace of the solver is the log of the
constraints that were taken: those emitted and not pending. -/
structure InferenceContext.Traces (nodes : List Expr) (c : InferenceContext) : Prop where
  tracing : c.tracing
  unifying : c.unifier.tracing
  visited : c.trace.map InferStep.expr = nodes
  rules : c.trace.map InferStep.rule = nodes.map Expr.rule
  log : ∃ taken : List Constraint, taken.length + c.pending.length = c.emitted ∧
    solveAllLogged .empty taken [] = .ok c.unifier.substitution c.unifier.trace

namespace Infer

variable {α β : Type} {m n : List Expr}

/-- A successful run of the action records the given nodes. -/
def Visits (nodes : List Expr) (x : Infer α) : Prop :=
  ∀ before c a c', c.Traces before → x c = .ok a c' → c'.Traces (before ++ nodes)

theorem Visits.bind {x : Infer α} {f : α → Infer β} (hx : Visits m x) (hf : ∀ a, Visits n (f a)) :
    Visits (m ++ n) (x >>= f) := by
  intro before c b c' traces ok
  obtain ⟨a, c₁, first, second⟩ := bind_eq_ok.mp ok
  rw [← List.append_assoc]
  exact hf a _ c₁ b c' (hx before c a c₁ traces first) second

theorem visits_pure (a : α) : Visits [] (pure a : Infer α) := by
  intro before c b c' traces ok
  obtain ⟨rfl, rfl⟩ := pure_eq_ok.mp ok
  rw [List.append_nil]
  exact traces

theorem visits_get : Visits [] (get : Infer InferenceContext) := by
  intro before c b c' traces ok
  cases ok
  rw [List.append_nil]
  exact traces

theorem visits_throw (e : InferError) (nodes : List Expr) : Visits nodes (throw e : Infer α) := by
  intro before c b c' traces ok
  cases ok

theorem visits_minting (action : Minting α) : Visits [] (minting action) := by
  intro before c a c' traces ok
  unfold minting at ok
  rw [List.append_nil]
  cases minted : action c.supply with
  | error e supply =>
      simp only [minted] at ok
      cases ok
  | ok a supply =>
      simp only [minted] at ok
      cases ok
      exact { traces with }

theorem visits_freshType : Visits [] freshType := (visits_minting _).bind fun _ => visits_pure _

theorem visits_constrain (t u : Ty) (reason : Reason) : Visits [] (constrain t u reason) := by
  intro before c a c' traces ok
  cases ok
  obtain ⟨taken, count, logged⟩ := traces.log
  rw [List.append_nil]
  refine { traces with log := ⟨taken, ?_, logged⟩ }
  rw [List.length_append, List.length_singleton, ← Nat.add_assoc, count]

theorem visits_record (e : Expr) (t : Ty) (detail : InferDetail) : Visits [e] (record e t e.rule detail) := by
  intro before c a c' traces ok
  have recorded : c' = { c with trace := c.trace ++ [⟨e, t, e.rule, detail⟩] } := by
    cases ok
    exact if_pos traces.tracing
  subst recorded
  refine { traces with visited := ?_, rules := ?_ }
  · rw [List.map_append, traces.visited]
    rfl
  · rw [List.map_append, List.map_append, traces.rules]
    rfl

-- The constraints taken now continue the log of those taken before.
theorem visits_solve : Visits [] solve := by
  intro before c a c' traces ok
  obtain ⟨taken, count, logged⟩ := traces.log
  rw [List.append_nil]
  cases run : c.unifier.solve c.pending with
  | mk answer unifier =>
      cases answer with
      | error e =>
          rw [solve_of_error run] at ok
          cases ok
      | ok done =>
          rw [solve_of_ok run] at ok
          cases ok
          obtain ⟨continued, unifying⟩ := Unifier.solveAllLogged_of_solve run traces.unifying
          refine { traces with unifying, log := ⟨taken ++ c.pending, ?_, ?_⟩ }
          · rw [List.length_append]
            exact count
          · rw [solveAllLogged_append, bind_of_ok logged]
            exact continued

theorem visits_solution : Visits [] solution :=
  visits_solve.bind fun _ => visits_get.bind fun _ => visits_pure _

theorem visits_expr (env : TypeEnv) (e : Expr) : Visits e.nodes (expr env e) :=
  Congruence.expr (y := actions) (R := fun _ nodes x _ => Visits nodes x)
    { pure := visits_pure
      bind := Visits.bind
      throw := fun _ nodes _ => visits_throw _ nodes
      freshType := visits_freshType
      instantiate := fun _ => visits_minting _
      constrain := visits_constrain
      solve := visits_solution
      record := visits_record } env e

theorem visits_finish (t : Ty) : Visits [] (finish t) :=
  visits_solve.bind fun _ => visits_get.bind fun _ => visits_pure _

theorem traces_of_finish {t : Ty} {c c' : InferenceContext} {i : Inference} (h : finish t c = .ok i c') :
    i.inferTrace = c'.trace ∧ i.unifyTrace = c'.unifier.trace ∧ i.substitution = c'.unifier.substitution := by
  simp only [finish, bind_eq_ok, pure_eq_ok] at h
  obtain ⟨_, _, _, _, _, ⟨rfl, rfl⟩, rfl, rfl⟩ := h
  exact ⟨rfl, rfl, rfl⟩

end Infer

theorem InferenceContext.traces_start (env : TypeEnv) (k : Nat) :
    (InferenceContext.start env ⟨true, k⟩).Traces [] :=
  ⟨rfl, rfl, rfl, rfl, [], rfl, rfl⟩

/-- Tracing only observes, and it observes everything. Without tracing inference has the same outcome, with
empty traces. With tracing every node is recorded once, children from left to right and then the node, with the
rule of the node. The steps of the solver have the numbers from one on, and are those of solving as many
constraints as were emitted in one log. -/
theorem tracing_only_observes (env : TypeEnv) (e : Expr) (k : Nat) :
    inferWith ⟨false, k⟩ env e =
      (inferWith ⟨true, k⟩ env e).map (fun i => { i with unifyTrace := [], inferTrace := [] }) ∧
    ∀ i, inferWith ⟨true, k⟩ env e = .ok i →
      i.inferTrace.map InferStep.expr = e.nodes ∧
      i.inferTrace.map InferStep.rule = e.nodes.map Expr.rule ∧
      i.unifyTrace.map UnifyStep.step = List.range' 1 i.unifyTrace.length ∧
      ∃ constraints : List Constraint, constraints.length = i.constraints ∧
        solveAllLogged .empty constraints [] = .ok i.substitution i.unifyTrace := by
  refine ⟨inferWith_untraced env e k, fun i ok => ?_⟩
  obtain ⟨c', ran⟩ := Infer.outcome_eq_ok.mp ok
  have whole := (Infer.visits_expr env e).bind fun t => Infer.visits_finish t
  have traces := whole _ _ _ _ (InferenceContext.traces_start env k) ran
  rw [List.append_nil, List.nil_append] at traces
  obtain ⟨t, c, -, finished⟩ := Infer.bind_eq_ok.mp ran
  obtain ⟨empty, emitted⟩ := Infer.finish_eq_ok finished
  obtain ⟨inferTrace, unifyTrace, substitution⟩ := Infer.traces_of_finish finished
  obtain ⟨taken, count, logged⟩ := traces.log
  rw [empty, List.length_nil, Nat.add_zero, ← emitted] at count
  rw [← unifyTrace, ← substitution] at logged
  rw [inferTrace]
  exact ⟨traces.visited, traces.rules, numbered_of_solveAllLogged logged rfl, taken, count, logged⟩

-- The solver is called for the value of the `let` and again at the end, and the steps are numbered through.
theorem tracing_only_observes_after_let :
    let e := Expr.letIn "id" (.ascribe (.lambda "x" (.var "x")) (.function .int .int))
      (.compose (.var "id") (.lambda "y" (.app (.var "id") (.var "y"))))
    ∃ i, inferWith ⟨true, 7⟩ .empty e = .ok i ∧
      inferWith ⟨false, 7⟩ .empty e = .ok { i with unifyTrace := [], inferTrace := [] } ∧
      i.inferTrace.map InferStep.rule = [.varLookup, .lambda, .ascription, .varLookup, .varLookup, .varLookup,
        .application, .lambda, .compose, .letIn] ∧
      i.unifyTrace.map UnifyStep.step = List.range' 1 i.unifyTrace.length := by
  intro e
  have inferred : (inferWith ⟨true, 7⟩ .empty e).map Inference.ty = .ok (.function .int .int) := by
    simp only [e]
    cbv
  obtain ⟨i, ok, -⟩ := Infer.map_eq_ok.mp inferred
  obtain ⟨same, complete⟩ := tracing_only_observes .empty e 7
  obtain ⟨-, rules, numbers, -⟩ := complete i ok
  refine ⟨i, ok, ?_, rules, numbers⟩
  rw [same, ok]
  rfl

end OpCalculus
