import OpCalculus.Proofs.Pipeline

/-!
# Inference is local

A run of inference sees its environment through look-ups of the free names of the expression and, at each
`let`, through the free variables of the visible bindings. Environments that agree on the free names and
differ elsewhere only by bindings without free variables are therefore indistinguishable (`expr_congr`).
-/

namespace OpCalculus

/-- The names that an expression takes from its environment, with repetitions. -/
def Expr.freeNames : Expr → List String
  | lit _ => []
  | var name => [name]
  | app callee arg => callee.freeNames ++ arg.freeNames
  | lambda param body => body.freeNames.filter (· ≠ param)
  | letIn name value body => value.freeNames ++ body.freeNames.filter (· ≠ name)
  | compose first second => first.freeNames ++ second.freeNames
  | ascribe expr _ => expr.freeNames

namespace TypeEnv

variable {env env' : TypeEnv} {names more : List String} {x : String} {v : TypeVar}

def ClosedAt (env : TypeEnv) (x : String) : Prop := ∀ c, env.lookup x = some c → c.freeVars = []

theorem ClosedAt.applySubst (closed : env.ClosedAt x) (s : Substitution) : (env.applySubst s).ClosedAt x := by
  intro c found
  rw [applySubst_eq_bindFree, lookup_bindFree, Option.map_eq_some_iff] at found
  obtain ⟨c, found, rfl⟩ := found
  refine List.eq_nil_iff_forall_not_mem.mpr fun w hw => ?_
  obtain ⟨v, hv, -⟩ := Scheme.mem_freeVars_bindFree hw
  simp [closed c found] at hv

/-- The environments have the same bindings of the given names; where they differ, neither has a free
variable. -/
def AgreeOn (names : List String) (env env' : TypeEnv) : Prop :=
  ∀ x, env.lookup x = env'.lookup x ∨ x ∉ names ∧ env.ClosedAt x ∧ env'.ClosedAt x

namespace AgreeOn

theorem lookup (h : AgreeOn names env env') (hx : x ∈ names) : env.lookup x = env'.lookup x :=
  (h x).resolve_right fun differ => differ.1 hx

theorem mono (h : AgreeOn more env env') (sub : names ⊆ more) : AgreeOn names env env' :=
  fun x => (h x).imp_right fun differ => ⟨fun hx => differ.1 (sub hx), differ.2⟩

theorem symm (h : AgreeOn names env env') : AgreeOn names env' env :=
  fun x => (h x).imp Eq.symm fun differ => ⟨differ.1, differ.2.2, differ.2.1⟩

theorem mem_freeVars (h : AgreeOn names env env') (hv : v ∈ env.freeVars) : v ∈ env'.freeVars := by
  obtain ⟨x, c, found, hv⟩ := TypeEnv.mem_freeVars.mp hv
  rcases h x with same | ⟨-, closed, -⟩
  · exact TypeEnv.mem_freeVars.mpr ⟨x, c, same ▸ found, hv⟩
  · simp [closed c found] at hv

theorem generalize_eq (h : AgreeOn names env env') (t : Ty) : env.generalize t = env'.generalize t := by
  have same : ∀ v, v ∈ env.freeVars ↔ v ∈ env'.freeVars := fun v => ⟨h.mem_freeVars, h.symm.mem_freeVars⟩
  simp [generalize, same]

-- A binder hides a difference at its own name.
theorem extend (h : AgreeOn (names.filter (· ≠ x)) env env') (c : Scheme) :
    AgreeOn names (env.extend x c) (env'.extend x c) := by
  intro y
  simp only [ClosedAt, lookup_extend]
  by_cases here : y = x
  · simp [here]
  · simpa [here, ClosedAt] using h y

theorem applySubst (h : AgreeOn names env env') (s : Substitution) :
    AgreeOn names (env.applySubst s) (env'.applySubst s) := by
  intro x
  rcases h x with same | ⟨absent, closed, closed'⟩
  · left
    simp [applySubst_eq_bindFree, lookup_bindFree, same]
  · exact .inr ⟨absent, closed.applySubst s, closed'.applySubst s⟩

end AgreeOn

end TypeEnv

variable {env env' : TypeEnv} {e : Expr}

theorem Infer.expr_congr (agree : env.AgreeOn e.freeNames env') : Infer.expr env e = Infer.expr env' e := by
  induction e generalizing env env' with
  | lit literal => rfl
  | var name => simp only [expr, exprWith, agree.lookup (List.mem_singleton_self name)]
  | app callee arg ihCallee ihArg =>
      have sameCallee := ihCallee (agree.mono (List.subset_append_left _ _))
      have sameArg := ihArg (agree.mono (List.subset_append_right _ _))
      simp only [expr_app, sameCallee, sameArg]
  | lambda param body ih =>
      have sameBody := fun c => ih (agree.extend c)
      simp only [expr_lambda, sameBody]
  | letIn name value body ihValue ihBody =>
      have sameValue := ihValue (agree.mono (List.subset_append_left _ _))
      have later := fun s => (agree.mono (List.subset_append_right _ _)).applySubst s
      have sameBody := fun s c => ihBody ((later s).extend c)
      have sameScheme := fun s t => (later s).generalize_eq t
      simp only [expr_letIn, sameValue, sameScheme, sameBody]
  | compose first second ihFirst ihSecond =>
      have sameFirst := ihFirst (agree.mono (List.subset_append_left _ _))
      have sameSecond := ihSecond (agree.mono (List.subset_append_right _ _))
      simp only [expr_compose, sameFirst, sameSecond]
  | ascribe inner ty ih => simp only [expr_ascribe, ih agree]

theorem inferWith_congr (agree : env.AgreeOn e.freeNames env') (fresh : env.maxFresh? = env'.maxFresh?)
    (options : InferOptions) : inferWith options env e = inferWith options env' e := by
  have start : InferenceContext.start env options = InferenceContext.start env' options := by
    simp only [InferenceContext.start, FreshSupply.after, fresh]
  simp only [inferWith, Infer.expr_congr agree, start]

/-! ## Declared schemes mention no minted variable -/

theorem checks_eq_ok {ε : Type} {first second : Except ε Unit} :
    (do first; second) = .ok () ↔ first = .ok () ∧ second = .ok () := by
  cases first with
  | error e => exact iff_of_false (fun h => nomatch h) (fun h => nomatch h.1)
  | ok done => exact ⟨fun h => ⟨rfl, h⟩, fun h => h.2⟩

theorem TypeVar.freshId?_of_checkDeclared {v : TypeVar} (h : v.checkDeclared = .ok ()) : v.freshId? = none := by
  cases v with
  | named name => rfl
  | fresh id => cases h

theorem Ty.freshId?_of_checkDeclared {t : Ty} (h : t.checkDeclared = .ok ()) :
    ∀ v ∈ t.occurrences, v.freshId? = none := by
  induction t with
  | scalar kind => simp [occurrences]
  | var v => simpa [occurrences] using TypeVar.freshId?_of_checkDeclared h
  | vector len element ih | matrix rows cols element ih | sequence element ih => exact ih h
  | tensor shape element ih =>
      rw [checkDeclared] at h
      split at h
      · cases h
      · exact ih h
  | function a b iha ihb | strategy a b iha ihb =>
      obtain ⟨first, second⟩ := checks_eq_ok.mp h
      exact List.forall_mem_append.mpr ⟨iha first, ihb second⟩

theorem TypeVar.freshId?_of_forM {vars : List TypeVar} (h : vars.forM checkDeclared = .ok ()) :
    ∀ v ∈ vars, v.freshId? = none := by
  induction vars with
  | nil => simp
  | cons v vars ih =>
      obtain ⟨first, rest⟩ := checks_eq_ok.mp h
      exact List.forall_mem_cons.mpr ⟨freshId?_of_checkDeclared first, ih rest⟩

theorem Scheme.maxFresh?_of_checkDeclared {c : Scheme} (h : c.checkDeclared = .ok ()) : c.maxFresh? = none := by
  obtain ⟨quantified, body⟩ := checks_eq_ok.mp h
  have none : (c.vars ++ c.body.occurrences).filterMap TypeVar.freshId? = [] :=
    List.filterMap_eq_nil_iff.mpr (List.forall_mem_append.mpr
      ⟨TypeVar.freshId?_of_forM quantified, Ty.freshId?_of_checkDeclared body⟩)
  simp [maxFresh?, TypeVar.maxFresh?, none]

/-! ## Environments of tables -/

namespace SymbolTable

variable {t : SymbolTable}

theorem frames_typeEnv (t : SymbolTable) :
    t.typeEnv.frames = (t.definitions.map fun d => (d.name, d.scheme)).reverse := by
  have frames : ∀ (l : List (String × Scheme)) (env : TypeEnv),
      (l.foldl (fun env p => env.extend p.1 p.2) env).frames = l.reverse ++ env.frames := by
    intro l
    induction l with
    | nil => simp
    | cons p l ih =>
        intro env
        rw [List.foldl_cons, ih]
        simp [TypeEnv.extend]
  simp [typeEnv, TypeEnv.ofBindings, frames, TypeEnv.empty]

theorem Consistent.maxFresh?_typeEnv (h : t.Consistent) : t.typeEnv.maxFresh? = none := by
  have none : t.typeEnv.frames.filterMap (fun p => p.2.maxFresh?) = [] := by
    refine List.filterMap_eq_nil_iff.mpr fun p hp => ?_
    obtain ⟨d, hd, rfl⟩ : ∃ d ∈ t.definitions, (d.name, d.scheme) = p := by simpa [frames_typeEnv] using hp
    exact Scheme.maxFresh?_of_checkDeclared (h.declared d hd)
  simp [TypeEnv.maxFresh?, none]

theorem Consistent.inferWith_congr {t' : SymbolTable} {e : Expr} (h : t.Consistent) (h' : t'.Consistent)
    (agree : t.typeEnv.AgreeOn e.freeNames t'.typeEnv) (options : InferOptions) :
    t.inferWith options e = t'.inferWith options e :=
  OpCalculus.inferWith_congr agree (h.maxFresh?_typeEnv.trans h'.maxFresh?_typeEnv.symm) options

end SymbolTable

/-- Registering a symbol whose scheme has no free variable changes no inference of an expression in which its
name is not free. -/
theorem inferWith_unaffected_by_registration {t t' : SymbolTable} {d : SymbolDefinition} {e : Expr}
    (reachable : t.Reachable) (accepted : t.register d = (.ok (), t')) (closed : d.scheme.freeVars = [])
    (absent : d.name ∉ e.freeNames) (options : InferOptions) :
    t'.inferWith options e = t.inferWith options e := by
  obtain ⟨admits, rfl⟩ := SymbolTable.register_eq_ok.mp accepted
  have consistent := reachable.consistent
  have extended := consistent.insert admits
  refine extended.inferWith_congr consistent (fun x => ?_) options
  simp only [TypeEnv.ClosedAt, extended.lookup_typeEnv, consistent.lookup_typeEnv, SymbolTable.get?_insert]
  by_cases here : d.name = x
  · subst here
    have new : t.get? d.name = none := by
      simpa [SymbolTable.mem_names_iff, Option.eq_none_iff_forall_ne_some] using admits.new
    right
    simp [absent, closed, new]
  · simp [here]

-- The new symbol has the name of the parameter, and the `let` generalizes under both.
theorem inferWith_unaffected_by_registration_shadowed :
    let a : Ty := .var (.named "a")
    let define (name : String) (scheme : Scheme) : SymbolDefinition :=
      { name, level := 0, scheme, executable := ⟨0, .ok⟩ }
    let t := (Registry.run [.register (define "same" ⟨[.named "a"], .function a a⟩)]).table
    let d := define "x" (.closed (.sequence a))
    let e := Expr.lambda "x" (.letIn "y" (.app (.var "same") (.var "x")) (.var "y"))
    t.Reachable ∧ t.register d = (.ok (), t.insert d) ∧ d.scheme.freeVars = [] ∧ d.name ∉ e.freeNames ∧
      (t.insert d).inferWith { tracing := true } e = t.inferWith { tracing := true } e ∧
      ((t.insert d).inferWith { tracing := true } e).map Inference.ty =
        .ok (.function (.var (.fresh 2)) (.var (.fresh 2))) := by
  intro a define t d e
  have reachable : t.Reachable := ⟨_, rfl⟩
  have accepted : t.register d = (.ok (), t.insert d) := rfl
  have closed : d.scheme.freeVars = [] := by decide
  have absent : d.name ∉ e.freeNames := by decide
  have same := inferWith_unaffected_by_registration reachable accepted closed absent { tracing := true }
  refine ⟨reachable, accepted, closed, absent, same, ?_⟩
  have env : t.typeEnv = ⟨[("same", ⟨[.named "a"], .function a a⟩)]⟩ := rfl
  rw [same, SymbolTable.inferWith, env]
  simp only [a, e]
  cbv

end OpCalculus
