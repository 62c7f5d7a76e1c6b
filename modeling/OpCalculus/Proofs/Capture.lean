import OpCalculus.Proofs.Pipeline

/-!
# Capture

A substitution skips the variables that a scheme quantifies, but it does not rename them. A variable that it
brings into the scheme is therefore lost from the free ones exactly if the scheme quantifies it
(`mem_freeVars_bindFree_iff`). Where no variable is both quantified and free, inference brings in none.
-/

namespace OpCalculus

variable {env : TypeEnv} {c : Scheme} {q : TypeVar → Ty} {w : TypeVar}

theorem Scheme.mem_freeVars_bindFree_iff :
    w ∈ (c.bindFree q).freeVars ↔ w ∉ c.vars ∧ ∃ v ∈ c.freeVars, w ∈ (q v).occurrences := by
  constructor
  · exact fun h => ⟨(mem_freeVars.mp h).2, mem_freeVars_bindFree h⟩
  · rintro ⟨free, v, hv, hw⟩
    obtain ⟨occurs, unquantified⟩ := mem_freeVars.mp hv
    exact mem_freeVars.mpr ⟨Ty.mem_occurrences_bind.mpr ⟨v, occurs, by simpa [unquantified] using hw⟩, free⟩

theorem Scheme.uncaptured_iff : c.Uncaptured q ↔
    ∀ w, w ∈ (c.bindFree q).freeVars ↔ ∃ v ∈ c.freeVars, w ∈ (q v).occurrences := by
  simp only [mem_freeVars_bindFree_iff, and_iff_right_iff_imp]
  exact ⟨fun h w ⟨v, hv, hw⟩ => h v hv w hw, fun h v hv w hw => h w ⟨v, hv, hw⟩⟩

namespace TypeEnv

theorem mem_freeVars_bindFree_iff :
    w ∈ (env.bindFree q).freeVars ↔
      ∃ p ∈ env.bindings, w ∉ p.2.vars ∧ ∃ v ∈ p.2.freeVars, w ∈ (q v).occurrences := by
  simp [mem_freeVars, lookup_bindFree, Scheme.mem_freeVars_bindFree_iff, mem_bindings]

theorem Uncaptured.mem_freeVars_bindFree_iff (h : env.Uncaptured q) :
    w ∈ (env.bindFree q).freeVars ↔ ∃ v ∈ env.freeVars, w ∈ (q v).occurrences :=
  ⟨TypeEnv.mem_freeVars_bindFree, fun ⟨_, hv, hw⟩ => h.mem_freeVars_bindFree hv hw⟩

theorem uncaptured_of_inferWith {options : InferOptions} {e : Expr} {i : Inference} (apart : env.Apart)
    (h : inferWith options env e = .ok i) : env.Uncaptured i.substitution.image := by
  obtain ⟨t, k, run, solves, -⟩ := Infer.runs_of_inferWith h
  have start := InferenceContext.hygienic_start apart options
  have final := ((run.footprint start.toTidy).hygienic start).settle solves
  exact final.uncaptured

end TypeEnv

/-- The free variables after a substitution are what it makes of the free variables before, less what the
same scheme quantifies. Nothing is missing exactly if no replacement mentions a quantified variable, and this
is so for the substitution of an inference in an environment that quantifies none of its free variables. -/
theorem freeVars_after_substitution (s : Substitution) (c : Scheme) (env : TypeEnv) :
    (∀ w, w ∈ (s.applyScheme c).freeVars ↔
      w ∉ c.vars ∧ ∃ v ∈ c.freeVars, w ∈ (s.apply (.var v)).occurrences) ∧
    ((∀ w, w ∈ (s.applyScheme c).freeVars ↔ ∃ v ∈ c.freeVars, w ∈ (s.apply (.var v)).occurrences) ↔
      ∀ v ∈ c.freeVars, ∀ w ∈ (s.apply (.var v)).occurrences, w ∉ c.vars) ∧
    (∀ w, w ∈ (env.applySubst s).freeVars ↔
      ∃ p ∈ env.bindings, w ∉ p.2.vars ∧ ∃ v ∈ p.2.freeVars, w ∈ (s.apply (.var v)).occurrences) ∧
    (env.Uncaptured s.image → ∀ w, w ∈ (env.applySubst s).freeVars ↔
      ∃ v ∈ env.freeVars, w ∈ (s.apply (.var v)).occurrences) ∧
    ∀ options e i, env.Apart → inferWith options env e = .ok i → ∀ w,
      w ∈ (env.applySubst i.substitution).freeVars ↔
        ∃ v ∈ env.freeVars, w ∈ (i.substitution.apply (.var v)).occurrences := by
  refine ⟨fun w => Scheme.mem_freeVars_bindFree_iff, Scheme.uncaptured_iff.symm,
    fun w => TypeEnv.mem_freeVars_bindFree_iff, fun uncaptured w => uncaptured.mem_freeVars_bindFree_iff,
    fun options e i apart h w => ?_⟩
  exact (TypeEnv.uncaptured_of_inferWith apart h).mem_freeVars_bindFree_iff

-- The replacement mentions neither the quantified variable nor one that is bound.
theorem freeVars_after_substitution_avoiding :
    let s : Substitution := .single (.named "b") (.sequence (.var (.named "c"))) (by decide)
    let c : Scheme := ⟨[.named "a"], .function (.var (.named "b")) (.var (.named "a"))⟩
    let env := TypeEnv.ofBindings [("f", c)]
    let e := Expr.letIn "z" (.app (.var "f") (.lit (.bool true))) (.var "f")
    env.Uncaptured s.image ∧ env.Apart ∧
      (∀ w, w ∈ (env.applySubst s).freeVars ↔ ∃ v ∈ env.freeVars, w ∈ (s.apply (.var v)).occurrences) ∧
      ∃ i, inferWith {} env e = .ok i ∧ i.ty = .function .bool (.var (.fresh 2)) ∧ ∀ w,
        w ∈ (env.applySubst i.substitution).freeVars ↔
          ∃ v ∈ env.freeVars, w ∈ (i.substitution.apply (.var v)).occurrences := by
  intro s c env e
  have uncaptured : env.Uncaptured s.image := by
    unfold TypeEnv.Uncaptured Scheme.Uncaptured
    decide
  have apart : env.Apart := by decide
  have inferred : infer env e = .ok (.function .bool (.var (.fresh 2))) := by cbv
  obtain ⟨i, ok, type⟩ := Infer.map_eq_ok.mp inferred
  obtain ⟨-, -, -, exact', inference⟩ := freeVars_after_substitution s c env
  exact ⟨uncaptured, apart, exact' uncaptured, i, ok, type, inference {} e i apart ok⟩

-- Both tables accept `f`, whose scheme has the free variable `b`. Once `b` stands for `a`, the quantifier of
-- `f` takes it in, and `f` is inferred with a type that it does not have.
theorem applySubst_captures :
    let define (name : String) (scheme : Scheme) : SymbolDefinition :=
      { name, level := 0, scheme, executable := ⟨0, .ok⟩ }
    let f := define "f" ⟨[.named "a"], .function (.var (.named "b")) (.var (.named "a"))⟩
    let g := define "g" (.mono (.var (.named "a")))
    let t := (Registry.run [.register f]).table
    let t' := (Registry.run [.register f, .register g]).table
    let s : Substitution := .single (.named "b") (.var (.named "a")) (by decide)
    t.Reachable ∧ t'.Reachable ∧
      (¬ ∀ w, w ∈ (s.applyScheme f.scheme).freeVars ↔
        ∃ v ∈ f.scheme.freeVars, w ∈ (s.apply (.var v)).occurrences) ∧
      (¬ ∀ w, w ∈ (t.typeEnv.applySubst s).freeVars ↔
        ∃ v ∈ t.typeEnv.freeVars, w ∈ (s.apply (.var v)).occurrences) ∧
      (t'.inferWith {} (.letIn "z" (.app (.var "f") (.var "g")) (.var "f"))).map Inference.ty =
        .ok (.function (.var (.fresh 2)) (.var (.fresh 2))) := by
  intro define f g t t' s
  have brought : ∃ v ∈ f.scheme.freeVars, .named "a" ∈ (s.apply (.var v)).occurrences := by decide
  have brought' : ∃ v ∈ t.typeEnv.freeVars, .named "a" ∈ (s.apply (.var v)).occurrences := by decide +kernel
  have lost : .named "a" ∉ (s.applyScheme f.scheme).freeVars := by decide
  have lost' : .named "a" ∉ (t.typeEnv.applySubst s).freeVars := by decide +kernel
  refine ⟨⟨_, rfl⟩, ⟨_, rfl⟩, fun h => lost ((h _).mpr brought), fun h => lost' ((h _).mpr brought'), ?_⟩
  have env : t'.typeEnv = ⟨[("g", g.scheme), ("f", f.scheme)]⟩ := rfl
  rw [SymbolTable.inferWith, env]
  simp only [f, g, define]
  cbv

end OpCalculus
