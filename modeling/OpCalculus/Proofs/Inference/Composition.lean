import Mathlib
import OpCalculus.Proofs.Inference.Budget
import OpCalculus.Proofs.Inference.Rerun

/-!
# Composition is typed as a function

A composition is inferred exactly if the function that applies the second part after the first is, with the
same type up to the names of variables and with as many constraints. The two forms infer their parts in
opposite orders, so that a `let` inside a part sees other constraints solved. Their typings are the same
(`hasType_compose_iff`), and running the parts again in the other order takes as many variables
(`repeats_expr`), so neither form runs out of variables before the other.
-/

namespace OpCalculus

open InferState

variable {env Γ : TypeEnv} {e first second : Expr} {t u : Ty} {k' : InferState} {θ : TypeVar → Ty}
  {x : String} {options : InferOptions} {i j : Inference}

theorem Runs.afterwards_cases {k : InferState} (run : Runs env (.afterwards x first second) k t k')
    (solved : k'.SolvedBy θ) :
    ∃ secondTy firstTy k₁ k₂, k.next + 1 ≤ freshLimit ∧
      Runs (env.extend x (.mono (.var (.fresh k.next)))) second (k.mint 1) secondTy k₁ ∧
      Runs (env.extend x (.mono (.var (.fresh k.next)))) first k₁ firstTy k₂ ∧
      k₂.SolvedBy θ ∧ k'.next = k₂.next + 2 ∧ k'.next ≤ freshLimit := by
  cases run with
  | @lambda _ _ _ bodyTy _ _ room runBody =>
      cases runBody with
      | @app _ _ _ secondTy middleTy _ k₁ _ runSecond runMiddle enough =>
          cases runMiddle with
          | @app _ _ _ firstTy argTy _ k₂ _ runFirst runArg _ =>
              cases runArg with
              | var found _ =>
                  rw [TypeEnv.lookup_extend_self] at found
                  cases found
                  obtain ⟨solved, -⟩ := solvedBy_emit.mp solved
                  obtain ⟨solved, -⟩ := solvedBy_emit.mp (solvedBy_mint.mp solved)
                  have solved₂ := solvedBy_mint.mp (solvedBy_mint.mp solved)
                  exact ⟨secondTy, firstTy, k₁, k₂, room, runSecond, runFirst, solved₂, rfl, enough⟩

namespace Infer

variable {c : InferenceContext}

theorem reaches_afterwards (run : Runs env (.compose first second) c.state t k')
    (reads : ReadsAs c.state env θ Γ) (solved : k'.SolvedBy θ) (freshFirst : x ∉ first.freeNames)
    (freshSecond : x ∉ second.freeNames)
    (budget : c.state.solved + c.state.pending.length + (Expr.compose first second).constraintCount ≤
      c.state.limit) : Reaches (expr env (.afterwards x first second)) c k'.next := by
  cases run with
  | @compose _ _ _ firstTy secondTy _ k₁ k₂ runFirst runSecond enough =>
      obtain ⟨solved, -⟩ := solvedBy_emit.mp solved
      obtain ⟨solved, -⟩ := solvedBy_emit.mp solved
      have solved₂ : k₂.SolvedBy θ := solvedBy_mint.mp solved
      have solved₁ := runSecond.solvedBy solved₂
      have reads₁ := reads.after runFirst (fun _ _ => rfl) solved₁
      have le₁ := runFirst.next_le
      have le₂ := runSecond.next_le
      simp only [Expr.constraintCount] at budget
      simp only [emit, mint, Expr.afterwards, expr_lambda, expr_app, bind_assoc]
      refine (reaches_freshType (by omega)).bind fun paramTy c₁ fresh reached₁ => ?_
      obtain ⟨room, rfl, state⟩ := freshType_eq_ok fresh
      -- What the parameter stands for does not matter here.
      have reads' := reads.lambda_at (x := x) room .bool
      rw [← state] at reads'
      have budget' : c₁.state.solved + c₁.state.pending.length +
          (second.constraintCount + first.constraintCount) ≤ c₁.state.limit := by
        simp only [state, mint]
        omega
      refine (repeats_expr runSecond).pair (repeats_expr runFirst) runSecond reads₁ solved₂ reads solved₁ reads'
        (.extend_fresh freshSecond) (.extend_fresh freshFirst) budget' (by omega)
        fun secondTy' firstTy' c₂ reached₂ => ?_
      simp only [expr_var_of_some TypeEnv.lookup_extend_self, bind_assoc, pure_bind]
      have none : (Scheme.mono (.var (.fresh c.state.next))).arity = 0 := rfl
      refine (reaches_instantiate (by omega)).bind fun argTy c₃ _ reached₃ => ?_
      refine (reaches_record _ _ _ _).bind fun _ c₄ _ reached₄ => ?_
      refine (reaches_freshType (by omega)).bind fun middle c₅ _ reached₅ => ?_
      refine (reaches_constrain _ _ _).bind fun _ c₆ _ reached₆ => ?_
      refine (reaches_record _ _ _ _).bind fun _ c₇ _ reached₇ => ?_
      refine (reaches_freshType (by omega)).bind fun result c₈ _ reached₈ => ?_
      refine (reaches_constrain _ _ _).bind fun _ c₉ _ reached₉ => ?_
      exact (reaches_record _ _ _ _).bind fun _ _ _ reached => reaches_return (by omega)

theorem reaches_compose (run : Runs env (.afterwards x first second) c.state t k')
    (reads : ReadsAs c.state env θ Γ) (solved : k'.SolvedBy θ) (freshFirst : x ∉ first.freeNames)
    (freshSecond : x ∉ second.freeNames)
    (budget : c.state.solved + c.state.pending.length + (Expr.compose first second).constraintCount ≤
      c.state.limit) : Reaches (expr env (.compose first second)) c k'.next := by
  obtain ⟨secondTy, firstTy, k₁, k₂, room, runSecond, runFirst, solved₂, count, enough⟩ :=
    run.afterwards_cases solved
  have solved₁ := runFirst.solvedBy solved₂
  have readsBody := reads.lambda (x := x) room
  have reads₁ := readsBody.after runSecond (fun _ _ => rfl) solved₁
  have le₁ : c.state.next + 1 ≤ k₁.next := runSecond.next_le
  have le₂ := runFirst.next_le
  simp only [Expr.constraintCount] at budget
  have later : (c.state.mint 1).next = c.state.next + 1 := rfl
  refine (repeats_expr runFirst).pair (repeats_expr runSecond) runFirst reads₁ solved₂ readsBody solved₁ reads
    (Counterparts.extend_fresh freshFirst).symm (Counterparts.extend_fresh freshSecond).symm (by omega)
    (by omega) fun firstTy' secondTy' c₂ reached₂ => ?_
  refine (reaches_freshType (by omega)).bind fun input c₃ _ reached₃ => ?_
  refine (reaches_freshType (by omega)).bind fun middle c₄ _ reached₄ => ?_
  refine (reaches_freshType (by omega)).bind fun output c₅ _ reached₅ => ?_
  refine (reaches_constrain _ _ _).bind fun _ c₆ _ reached₆ => ?_
  exact (reaches_constrain _ _ _).bind fun _ _ _ reached₇ => reaches_return (by omega)

theorem reaches_finish (solved : c.state.SolvedBy θ)
    (budget : c.state.solved + c.state.pending.length ≤ c.state.limit) :
    Reaches (finish t) c c.state.next :=
  (reaches_solve solved budget).bind fun _ c' _ reached =>
    Reaches.bind ⟨c', c', rfl, rfl⟩ fun _ _ _ same => reaches_pure _ (same.trans reached)

end Infer

theorem inferWith_of_reaches {n : Nat} (reads : ReadsAs (InferenceContext.start env options).state env θ Γ)
    (typed : HasType Γ e u) (budget : e.constraintCount ≤ options.maxConstraints)
    (reaches : Infer.Reaches (Infer.expr env e) (.start env options) n) :
    ∃ i, inferWith options env e = .ok i := by
  have start : 0 + 0 + e.constraintCount ≤ options.maxConstraints := by omega
  have finished : Infer.Reaches (do Infer.finish (← Infer.expr env e)) (.start env options) n := by
    refine reaches.bind fun t c ok reached => ?_
    obtain ⟨θ', reads', -, count, limit⟩ := Infer.reads_after_expr reads typed ok
    rw [← reached]
    refine Infer.reaches_finish reads'.solved ?_
    rw [count, limit]
    exact start
  obtain ⟨i, c, ok, -⟩ := finished
  exact ⟨i, Infer.outcome_eq_ok.mpr ⟨c, ok⟩⟩

theorem reads_of_inferWith (apart : env.Apart) (h : inferWith options env e = .ok i) :
    ∃ t k, Runs env e (InferenceContext.start env options).state t k ∧
      k.SolvedBy i.substitution.image ∧
      ReadsAs (InferenceContext.start env options).state env i.substitution.image
        (env.applySubst i.substitution) ∧
      HasType (env.applySubst i.substitution) e i.ty := by
  obtain ⟨t, k, run, solves, type⟩ := Infer.runs_of_inferWith h
  have start := InferenceContext.hygienic_start apart options
  have uncaptured := (((run.footprint start.toTidy).hygienic start).settle solves).uncaptured
  have solved : k.SolvedBy i.substitution.image := .of_settle solves i.substitution.absorbedBy_image
  have offers := TypeEnv.offers_bindFree uncaptured
  have reading := Reading.start options apart (TypeEnv.covers_bindFree uncaptured)
  refine ⟨t, k, run, solved, ⟨reading, offers⟩, ?_⟩
  rw [type]
  exact run.sound start solved offers

theorem exists_instance_of_inferWith {e' : Expr} (apart : env.Apart) (h : inferWith options env e = .ok i)
    (h' : inferWith options env e' = .ok j) (typings : ∀ Γ u, HasType Γ e u → HasType Γ e' u) :
    ∃ θ, j.ty.bind θ = i.ty := by
  obtain ⟨-, -, -, -, reads, typed⟩ := reads_of_inferWith apart h
  obtain ⟨θ, equal, -⟩ := exists_reading_of_inferWith h' reads.toReading (typings _ _ typed)
  exact ⟨θ, equal⟩

/-! ## The two forms -/

theorem Expr.constraintCount_afterwards (x : String) (first second : Expr) :
    (Expr.afterwards x first second).constraintCount = (Expr.compose first second).constraintCount := by
  simp only [afterwards, constraintCount]
  omega

theorem inferWith_afterwards (apart : env.Apart) (freshFirst : x ∉ first.freeNames)
    (freshSecond : x ∉ second.freeNames) (h : inferWith options env (.compose first second) = .ok i) :
    ∃ j, inferWith options env (.afterwards x first second) = .ok j := by
  obtain ⟨t, k, run, solved, reads, typed⟩ := reads_of_inferWith apart h
  have budget := (constraints_of_inferWith h).2
  have start : 0 + 0 + (Expr.compose first second).constraintCount ≤ options.maxConstraints := by omega
  refine inferWith_of_reaches reads ((hasType_compose_iff freshFirst freshSecond).mp typed) ?_
    (Infer.reaches_afterwards run reads solved freshFirst freshSecond start)
  rw [Expr.constraintCount_afterwards]
  exact budget

theorem inferWith_compose (apart : env.Apart) (freshFirst : x ∉ first.freeNames)
    (freshSecond : x ∉ second.freeNames) (h : inferWith options env (.afterwards x first second) = .ok i) :
    ∃ j, inferWith options env (.compose first second) = .ok j := by
  obtain ⟨t, k, run, solved, reads, typed⟩ := reads_of_inferWith apart h
  have budget := (constraints_of_inferWith h).2
  rw [Expr.constraintCount_afterwards] at budget
  have start : 0 + 0 + (Expr.compose first second).constraintCount ≤ options.maxConstraints := by omega
  exact inferWith_of_reaches reads ((hasType_compose_iff freshFirst freshSecond).mpr typed) budget
    (Infer.reaches_compose run reads solved freshFirst freshSecond start)

/-- A composition is inferred exactly if the function that applies the second expression after the first is;
the types then differ by the names of variables at most, and the numbers of constraints are equal. -/
theorem compose_inferred_as_function (apart : env.Apart) (freshFirst : x ∉ first.freeNames)
    (freshSecond : x ∉ second.freeNames) (options : InferOptions) :
    ((∃ i, inferWith options env (.compose first second) = .ok i) ↔
      ∃ j, inferWith options env (.lambda x (.app second (.app first (.var x)))) = .ok j) ∧
    ∀ i j, inferWith options env (.compose first second) = .ok i →
      inferWith options env (.lambda x (.app second (.app first (.var x)))) = .ok j →
      i.ty.alphaEquivalent j.ty ∧ i.constraints = j.constraints := by
  have typings := fun Γ u => hasType_compose_iff (Γ := Γ) (u := u) freshFirst freshSecond
  constructor
  · constructor
    · intro ⟨i, h⟩
      exact inferWith_afterwards apart freshFirst freshSecond h
    · intro ⟨j, h⟩
      exact inferWith_compose apart freshFirst freshSecond h
  · intro i j h h'
    obtain ⟨θ, back⟩ := exists_instance_of_inferWith apart h h' fun Γ u => (typings Γ u).mp
    obtain ⟨θ', forth⟩ := exists_instance_of_inferWith apart h' h fun Γ u => (typings Γ u).mpr
    refine ⟨Ty.alphaEquivalent_of_instances forth back, ?_⟩
    have counts := Expr.constraintCount_afterwards x first second
    exact (constraints_of_inferWith h).1.trans (counts.symm.trans (constraints_of_inferWith h').1.symm)

-- The parameter hides a binding with a free variable, and each part generalizes the type of a `let`.
theorem compose_inferred_as_function_shadowing :
    let env := TypeEnv.ofBindings
      [("x", .mono (.var (.named "b"))), ("y", .mono (.function (.var (.named "b")) .int)),
        ("f", ⟨[.named "a"], .function (.var (.named "a")) (.var (.named "a"))⟩)]
    let first := Expr.letIn "g" (.lambda "w" (.app (.var "f") (.var "w"))) (.var "g")
    let second := Expr.letIn "h" (.lambda "w" (.lambda "v" (.app (.var "f") (.var "w")))) (.var "h")
    env.Apart ∧ "x" ∉ first.freeNames ∧ "x" ∉ second.freeNames ∧
      ∃ i j, inferWith {} env (.compose first second) = .ok i ∧
        inferWith {} env (.lambda "x" (.app second (.app first (.var "x")))) = .ok j ∧
        i.ty = .function (.var (.fresh 11)) (.function (.var (.fresh 9)) (.var (.fresh 11))) ∧
        i.ty.alphaEquivalent j.ty ∧ i.constraints = j.constraints := by
  intro env first second
  have apart : env.Apart := by decide
  have freshFirst : "x" ∉ first.freeNames := by decide
  have freshSecond : "x" ∉ second.freeNames := by decide
  have inferred : infer env (.compose first second) =
      .ok (.function (.var (.fresh 11)) (.function (.var (.fresh 9)) (.var (.fresh 11)))) := by cbv
  obtain ⟨i, h, type⟩ := Infer.map_eq_ok.mp inferred
  obtain ⟨both, alike⟩ := compose_inferred_as_function apart freshFirst freshSecond {}
  obtain ⟨j, h'⟩ := both.mp ⟨i, h⟩
  exact ⟨apart, freshFirst, freshSecond, i, j, h, h', type, alike i j h h'⟩

end OpCalculus
