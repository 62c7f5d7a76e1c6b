import OpCalculus.Proofs.Inference.Principality
import OpCalculus.Proofs.Inference.Relations
import OpCalculus.Proofs.Inference.Soundness

/-!
# Completeness of inference

An expression that has a type is inferred, unless the fresh variables run out, when the budget admits
one constraint for each application and ascription and two for each composition. What is inferred is
principal, and in a closed environment the inferred scheme has exactly the types of the expression as
its instances.
-/

namespace OpCalculus

open InferState

variable {env Γ : TypeEnv} {e : Expr} {t u : Ty} {k k' : InferState} {θ : TypeVar → Ty}

theorem Runs.accounts (run : Runs env e k t k') :
    k'.solved + k'.pending.length = k.solved + k.pending.length + e.constraintCount ∧
      k'.limit = k.limit := by
  induction run with
  | lit | var => exact ⟨rfl, rfl⟩
  | app _ _ _ ihCallee ihArg | compose _ _ _ ihCallee ihArg =>
      simp only [emit, mint, List.length_append, List.length_singleton, Expr.constraintCount]
      omega
  | lambda _ _ ih => exact ih
  | letIn _ _ _ ihValue ihBody =>
      simp only [settle, List.length_nil] at ihBody
      simp only [Expr.constraintCount]
      omega
  | ascribe _ _ _ ih =>
      simp only [mint] at ih
      simp only [emit, List.length_append, List.length_singleton, Expr.constraintCount]
      omega

namespace Infer

variable {α β : Type} {c : InferenceContext}

/-- The action succeeds, or it fails for lack of fresh variables. -/
def Progresses (x : Infer α) (c : InferenceContext) : Prop :=
  (∃ a c', x c = .ok a c') ∨ ∃ err c', x c = .error (.freshExhausted err) c'

theorem Progresses.bind {x : Infer α} {f : α → Infer β} (h : Progresses x c)
    (next : ∀ a c', x c = .ok a c' → Progresses (f a) c') : Progresses (x >>= f) c := by
  change Progresses (EStateM.bind x f) c
  rcases h with ⟨a, c', ok⟩ | ⟨err, c', failed⟩
  · have same : EStateM.bind x f c = f a c' := by simp only [EStateM.bind, ok]
    unfold Progresses
    rw [same]
    exact next a c' ok
  · exact .inr ⟨err, c', by simp only [EStateM.bind, failed]⟩

theorem progresses_pure (a : α) : Progresses (pure a) c := .inl ⟨a, c, rfl⟩

theorem progresses_modify (f : InferenceContext → InferenceContext) : Progresses (modify f) c :=
  .inl ⟨(), f c, rfl⟩

theorem progresses_minting (action : Minting α) : Progresses (minting action) c := by
  unfold Progresses minting
  cases action c.supply with
  | ok a supply => exact .inl ⟨a, _, rfl⟩
  | error err supply => exact .inr ⟨err, _, rfl⟩

theorem progresses_freshType : Progresses freshType c :=
  (progresses_minting _).bind fun _ _ _ => progresses_pure _

theorem progresses_solve (solved : c.state.SolvedBy θ)
    (budget : c.state.solved + c.state.pending.length ≤ c.state.limit) : Progresses solve c := by
  have ok : ∃ unifier, c.unifier.solve c.pending = (.ok (), unifier) :=
    Unifier.exists_solve_eq_ok solved.absorbed solved.pending budget
  obtain ⟨unifier, ok⟩ := ok
  exact .inl ⟨(), { c with unifier, pending := [] }, by simp only [solve, ok]⟩

theorem progresses_record (rule : InferRule) (detail : InferDetail) :
    Progresses (do record e t rule detail; return u) c :=
  (progresses_modify _).bind fun _ _ _ => progresses_pure _

theorem reading_after_expr {c' : InferenceContext} (reading : Reading c.state env θ Γ)
    (typed : HasType Γ e u) (ok : expr env e c = .ok t c') :
    ∃ θ', Reading c'.state env θ' Γ ∧ t.bind θ' = u ∧
      c'.state.solved + c'.state.pending.length =
        c.state.solved + c.state.pending.length + e.constraintCount ∧
      c'.state.limit = c.state.limit := by
  have run := runs_of_expr ok
  obtain ⟨θ', agree, solved, equal⟩ := run.principal reading typed
  exact ⟨θ', reading.after run agree solved, equal, run.accounts⟩

theorem expr_progresses (reading : Reading c.state env θ Γ) (typed : HasType Γ e u)
    (budget : c.state.solved + c.state.pending.length + e.constraintCount ≤ c.state.limit) :
    Progresses (expr env e) c := by
  induction typed generalizing env c θ with
  | lit typed =>
      simp only [expr_lit, literalType_eq_ok.mpr typed]
      exact Progresses.bind (.inl ⟨_, c, rfl⟩) fun _ _ _ => progresses_record _ _
  | @var Γ name c' t found _ =>
      have bound := reading.covers.names name
      rw [found, Option.isSome_some] at bound
      obtain ⟨scheme, found'⟩ := Option.isSome_iff_exists.mp bound
      simp only [expr_var_of_some found']
      exact (progresses_minting _).bind fun _ _ _ => progresses_record _ _
  | app typedCallee _ ihCallee ihArg =>
      simp only [Expr.constraintCount] at budget
      refine (ihCallee reading (by omega)).bind fun calleeTy c₁ ok => ?_
      obtain ⟨θ₁, reading₁, -, count, limit⟩ := reading_after_expr reading typedCallee ok
      refine (ihArg reading₁ (by omega)).bind fun argTy c₂ _ => ?_
      refine progresses_freshType.bind fun result c₃ _ => ?_
      exact (progresses_modify _).bind fun _ _ _ => progresses_record _ _
  | lambda _ ih =>
      refine progresses_freshType.bind fun paramTy c₁ fresh => ?_
      obtain ⟨enough, rfl, state⟩ := freshType_eq_ok fresh
      refine (ih (state ▸ reading.lambda enough) ?_).bind fun _ _ _ => progresses_record _ _
      rw [state]
      exact budget
  | @letIn Γ name value body a b typedValue _ ihValue ihBody =>
      simp only [Expr.constraintCount] at budget
      rw [expr_letIn]
      refine (ihValue reading (by omega)).bind fun valueTy c₁ ok => ?_
      obtain ⟨θ₁, reading₁, rfl, count, limit⟩ := reading_after_expr reading typedValue ok
      refine (progresses_solve reading₁.solved (by omega)).bind fun _ c₂ ok' => ?_
      refine Progresses.bind (.inl ⟨c₂, c₂, rfl⟩) fun _ _ got => ?_
      cases got
      obtain ⟨s, solves, state⟩ := solve_eq_ok ok'
      have substitution : c₂.unifier.substitution = s := congrArg InferState.substitution state
      have tidy := reading.hygienic.toTidy
      have unused := (((runs_of_expr ok).footprint tidy).unused tidy).2.2
      have reading₂ := reading₁.bindLet (x := name) solves unused
      rw [← state, ← substitution] at reading₂
      refine (ihBody reading₂ ?_).bind fun _ _ _ => progresses_record _ _
      simp only [state, settle, List.length_nil]
      omega
  | compose typedFirst _ ihFirst ihSecond =>
      simp only [Expr.constraintCount] at budget
      refine (ihFirst reading (by omega)).bind fun firstTy c₁ ok => ?_
      obtain ⟨θ₁, reading₁, -, count, limit⟩ := reading_after_expr reading typedFirst ok
      refine (ihSecond reading₁ (by omega)).bind fun secondTy c₂ _ => ?_
      refine progresses_freshType.bind fun input _ _ => progresses_freshType.bind fun middle _ _ =>
        progresses_freshType.bind fun output _ _ => ?_
      refine (progresses_modify _).bind fun _ _ _ => (progresses_modify _).bind fun _ _ _ => ?_
      exact progresses_record _ _
  | @ascribe Γ inner ty t declared instance' _ ih =>
      simp only [Expr.constraintCount] at budget
      obtain ⟨f, rfl⟩ := instance'
      simp only [expr_ascribe, declared]
      refine Progresses.bind (.inl ⟨(), c, rfl⟩) fun _ _ checked => ?_
      cases checked
      refine (progresses_minting _).bind fun expected c₁ instantiated => ?_
      obtain ⟨enough, rfl, state⟩ := instantiate_eq_ok instantiated
      refine (ih (state ▸ reading.instantiate f enough) ?_).bind fun actual c₂ _ => ?_
      · rw [state]
        simp only [mint]
        omega
      · exact (progresses_modify _).bind fun _ _ _ => progresses_record _ _

theorem finish_progresses (solved : c.state.SolvedBy θ)
    (budget : c.state.solved + c.state.pending.length ≤ c.state.limit) : Progresses (finish t) c :=
  (progresses_solve solved budget).bind fun _ c' _ =>
    Progresses.bind (.inl ⟨c', c', rfl⟩) fun _ _ _ => progresses_pure _

end Infer

theorem inferWith_progresses (options : InferOptions)
    (reading : Reading (InferenceContext.start env options).state env θ Γ) (typed : HasType Γ e u)
    (budget : e.constraintCount ≤ options.maxConstraints) :
    (∃ x, inferWith options env e = .error (.freshExhausted x)) ∨
      ∃ i, inferWith options env e = .ok i := by
  have start : 0 + 0 + e.constraintCount ≤ options.maxConstraints := by omega
  have progress : Infer.Progresses (do Infer.finish (← Infer.expr env e))
      (.start env options) := by
    refine (Infer.expr_progresses reading typed start).bind fun t c ok => ?_
    obtain ⟨θ', reading', -, count, limit⟩ := Infer.reading_after_expr reading typed ok
    refine Infer.finish_progresses reading'.solved ?_
    rw [count, limit]
    exact start
  unfold inferWith Infer.outcome
  rcases progress with ⟨i, c, ok⟩ | ⟨x, c, failed⟩
  · exact .inr ⟨i, by rw [ok]⟩
  · exact .inl ⟨x, by rw [failed]⟩

/-! ## Principal types -/

theorem Reading.start (options : InferOptions) (apart : env.Apart) (covers : env.Covers θ Γ) :
    Reading (InferenceContext.start env options).state env θ Γ where
  hygienic := InferenceContext.hygienic_start apart options
  solved := ⟨Substitution.absorbedBy_empty θ, fun _ hc => nomatch hc⟩
  covers := covers

theorem exists_reading_of_inferWith {options : InferOptions} {i : Inference}
    (h : inferWith options env e = .ok i)
    (reading : Reading (InferenceContext.start env options).state env θ Γ) (typed : HasType Γ e u) :
    ∃ θ', i.ty.bind θ' = u ∧ ∀ x ∈ env.freeVars, (i.substitution.image x).bind θ' = θ x := by
  obtain ⟨t, k, run, solves, type⟩ := Infer.runs_of_inferWith h
  obtain ⟨θ', agree, solved, equal⟩ := run.principal reading typed
  have absorbed := solves.absorbed solved.absorbed solved.pending
  refine ⟨θ', ?_, fun x hx => ?_⟩
  · rw [type, absorbed.bind_apply, equal]
  · rw [absorbed x]
    exact agree x (reading.hygienic.toTidy.not_mintable hx)

theorem Ty.exists_replace (types : List Ty) (θ : TypeVar → Ty) :
    ∃ pairs, ∀ t ∈ types, t.replace pairs = t.bind θ :=
  ⟨(types.flatMap occurrences).map fun v => (v, θ v), fun t ht =>
    replace_graph θ fun _ hv => List.mem_flatMap.mpr ⟨t, ht, hv⟩⟩

theorem instances_of_inferWith {options : InferOptions} {i : Inference} (closed : env.freeVars = [])
    (h : inferWith options env e = .ok i) (u : Ty) : (∃ θ, i.ty.bind θ = u) ↔ HasType env e u := by
  have apart := TypeEnv.apart_of_closed closed
  constructor
  · rintro ⟨θ, rfl⟩
    obtain ⟨t, k, run, solves, type⟩ := Infer.runs_of_inferWith h
    rw [type, Substitution.apply, Ty.bind_bind]
    exact run.sound (InferenceContext.hygienic_start apart options)
      (.of_settle solves (i.substitution.absorbedBy_comp θ)) (TypeEnv.offers_of_closed closed _)
  · intro typed
    obtain ⟨θ, equal, -⟩ := exists_reading_of_inferWith h (.start options apart (.refl env)) typed
    exact ⟨θ, equal⟩

theorem inferWith_complete {options : InferOptions} {q : TypeVar → Ty} (apart : env.Apart)
    (budget : e.constraintCount ≤ options.maxConstraints) (uncaptured : env.Uncaptured q)
    (typed : HasType (env.bindFree q) e u) :
    (∃ x, inferWith options env e = .error (.freshExhausted x)) ∨
    ∃ i, inferWith options env e = .ok i ∧ ∃ pairs : List (TypeVar × Ty),
      i.ty.replace pairs = u ∧ ∀ x ∈ env.freeVars, (i.substitution.image x).replace pairs = q x := by
  have reading : Reading (InferenceContext.start env options).state env q (env.bindFree q) :=
    .start options apart (TypeEnv.covers_bindFree uncaptured)
  refine (inferWith_progresses options reading typed budget).imp_right ?_
  rintro ⟨i, ok⟩
  obtain ⟨θ, equal, images⟩ := exists_reading_of_inferWith ok reading typed
  obtain ⟨pairs, same⟩ := Ty.exists_replace (i.ty :: env.freeVars.map i.substitution.image) θ
  refine ⟨i, ok, pairs, ?_, fun x hx => ?_⟩
  · rw [same _ (List.mem_cons_self ..), equal]
  · rw [same _ (List.mem_cons_of_mem _ (List.mem_map_of_mem hx)), images x hx]

theorem inferScheme_exact {c : Scheme} (closed : env.freeVars = []) (h : inferScheme env e = .ok c) :
    c.freeVars = [] ∧ ∀ u, c.Instance u ↔ HasType env e u := by
  obtain ⟨i, ok, rfl⟩ := Infer.map_eq_ok.mp h
  have none := TypeEnv.freeVars_applySubst_of_closed closed i.substitution
  refine ⟨List.eq_nil_iff_forall_not_mem.mpr fun v hv => ?_, fun u => ?_⟩
  · have free := (TypeEnv.mem_freeVars_generalize hv).2
    rw [none] at free
    cases free
  · rw [TypeEnv.instance_generalize_of_closed none, instances_of_inferWith closed ok]

theorem inferScheme_progresses (closed : env.freeVars = []) (typed : HasType env e u)
    (budget : e.constraintCount ≤ defaultMaxConstraints) :
    (∃ x, inferScheme env e = .error (.freshExhausted x)) ∨ ∃ c, inferScheme env e = .ok c := by
  have reading := Reading.start {} (TypeEnv.apart_of_closed closed) (.refl env)
  unfold inferScheme
  rcases inferWith_progresses {} reading typed budget with ⟨x, failed⟩ | ⟨i, ok⟩
  · exact .inl ⟨x, by rw [failed]; rfl⟩
  · exact .inr ⟨_, by rw [ok]; rfl⟩

/-- Within the budget, and as long as fresh variables last, inference finds a typing of which every
other one is an instance. -/
theorem inferWith_principal (env : TypeEnv) (e : Expr) (apart : env.Apart) :
    (∀ (options : InferOptions) (q : TypeVar → Ty) (u : Ty),
      e.constraintCount ≤ options.maxConstraints → env.Uncaptured q → HasType (env.bindFree q) e u →
      (∃ x, inferWith options env e = .error (.freshExhausted x)) ∨
      ∃ i, inferWith options env e = .ok i ∧ ∃ pairs : List (TypeVar × Ty),
        i.ty.replace pairs = u ∧ ∀ x ∈ env.freeVars, (i.substitution.image x).replace pairs = q x) ∧
    (env.freeVars = [] →
      (∀ c, inferScheme env e = .ok c → c.freeVars = [] ∧ ∀ u, c.Instance u ↔ HasType env e u) ∧
      ∀ u, HasType env e u → e.constraintCount ≤ defaultMaxConstraints →
        (∃ x, inferScheme env e = .error (.freshExhausted x)) ∨ ∃ c, inferScheme env e = .ok c) := by
  constructor
  · intro options q u budget uncaptured typed
    exact inferWith_complete apart budget uncaptured typed
  · intro closed
    exact ⟨fun c h => inferScheme_exact closed h,
      fun u typed budget => inferScheme_progresses closed typed budget⟩

-- The typing reads the free variable of `y` as `Bool` and uses `f` at two types.
theorem inferWith_principal_let_in_lambda :
    let env := TypeEnv.ofBindings
      [("y", .mono (.function (.var (.named "b")) .int)),
        ("f", ⟨[.named "a"], .function (.var (.named "a")) (.var (.named "a"))⟩)]
    let e := Expr.lambda "x" (.letIn "z" (.app (.var "y") (.app (.var "f") (.lit (.bool true))))
      (.app (.var "f") (.var "x")))
    (∃ i, inferWith {} env e = .ok i ∧ ∃ pairs : List (TypeVar × Ty),
      i.ty.replace pairs = .function .string .string ∧
      (i.substitution.image (.named "b")).replace pairs = .bool) ∧
    ∃ c, inferScheme .empty (.lambda "x" (.var "x")) = .ok c ∧ c.freeVars = [] ∧
      ∀ u, c.Instance u ↔ HasType .empty (.lambda "x" (.var "x")) u := by
  intro env e
  have typed : HasType (env.bindFree fun _ => .bool) e (.function .string .string) := by
    refine .lambda (.letIn (a := .int) (.app (a := .bool) ?_ (.app (a := .bool) ?_ (.lit (.bool true))))
      (.app (a := .string) ?_ ?_))
    · exact .var rfl ⟨fun _ => .bool, rfl⟩
    · exact .var rfl ⟨fun _ => .bool, rfl⟩
    · exact .var rfl ⟨fun _ => .string, rfl⟩
    · exact .var rfl ⟨fun _ => .string, rfl⟩
  constructor
  · have inferred : infer env e = .ok (.function (.var (.fresh 5)) (.var (.fresh 5))) := by cbv
    obtain ⟨i, h, -⟩ := Infer.map_eq_ok.mp inferred
    rcases (inferWith_principal env e (by decide)).1 {} (fun _ => .bool) _ (by decide)
      (by intro p _ v _ w hw; cases hw) typed with ⟨x, failed⟩ | ⟨j, ok, pairs, type, images⟩
    · rw [h] at failed
      cases failed
    · exact ⟨j, ok, pairs, type, images (.named "b") (by decide)⟩
  · have closed := (inferWith_principal .empty (.lambda "x" (.var "x")) (by decide)).2 rfl
    have inferred : inferScheme .empty (.lambda "x" (.var "x")) =
        .ok ⟨[.fresh 0], .function (.var (.fresh 0)) (.var (.fresh 0))⟩ := by cbv
    exact ⟨_, inferred, closed.1 _ inferred⟩

end OpCalculus
