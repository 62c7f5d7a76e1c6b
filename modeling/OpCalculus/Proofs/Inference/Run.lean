import OpCalculus.Proofs.Solving
import OpCalculus.Proofs.Typing

/-!
# Runs of inference

`Runs env e k t k'` describes a successful run on an expression by the state it depends on, that is
without the traces. Every success of `Infer.expr` is such a run (`runs_of_expr`), so that properties
of runs are proved by induction on `Runs`, one case for each kind of expression.
-/

namespace OpCalculus

/-- An inference context without its traces. -/
structure InferState where
  substitution : Substitution
  limit : Nat
  solved : Nat
  pending : List Constraint
  next : Nat

namespace InferState

def mint (k : InferState) (count : Nat) : InferState := { k with next := k.next + count }

def emit (k : InferState) (c : Constraint) : InferState := { k with pending := k.pending ++ [c] }

/-- The state after everything pending was solved. -/
def settle (k : InferState) (s : Substitution) : InferState :=
  { k with substitution := s, solved := k.solved + k.pending.length, pending := [] }

end InferState

def InferenceContext.state (c : InferenceContext) : InferState where
  substitution := c.unifier.substitution
  limit := c.unifier.maxConstraints
  solved := c.unifier.solved
  pending := c.pending
  next := c.supply.next

/-- The body of a scheme with its quantified variables replaced by consecutive minted ones. -/
def Scheme.renamed (c : Scheme) (first : Nat) : Ty :=
  c.body.bind fun v =>
    .var (if v ∈ distinct c.vars then .fresh (first + (distinct c.vars).idxOf v) else v)

theorem Scheme.bind_renamed (c : Scheme) (first : Nat) (θ : TypeVar → Ty) :
    (c.renamed first).bind θ =
      c.specialize θ fun v => θ (.fresh (first + (distinct c.vars).idxOf v)) := by
  refine (Ty.bind_bind _ _ _).trans (Ty.bind_congr fun v _ => ?_)
  by_cases quantified : v ∈ c.vars <;> simp [quantified, Ty.bind]

/-- The environment in which the body of a `let` is inferred. -/
def TypeEnv.bindLet (env : TypeEnv) (s : Substitution) (name : String) (valueTy : Ty) : TypeEnv :=
  (env.applySubst s).extend name ((env.applySubst s).generalize (s.apply valueTy))

/-- A successful run of inference on an expression. -/
inductive Runs : TypeEnv → Expr → InferState → Ty → InferState → Prop
  | lit {env : TypeEnv} {literal : Literal} {t : Ty} {k : InferState} :
      literal.HasType t → Runs env (.lit literal) k t k
  | var {env : TypeEnv} {name : String} {c : Scheme} {k : InferState} :
      env.lookup name = some c → k.next + (distinct c.vars).length ≤ freshLimit →
      Runs env (.var name) k (c.renamed k.next) (k.mint (distinct c.vars).length)
  | app {env : TypeEnv} {callee arg : Expr} {calleeTy argTy : Ty} {k k₁ k₂ : InferState} :
      Runs env callee k calleeTy k₁ → Runs env arg k₁ argTy k₂ → k₂.next + 1 ≤ freshLimit →
      Runs env (.app callee arg) k (.var (.fresh k₂.next))
        ((k₂.mint 1).emit ⟨calleeTy, .function argTy (.var (.fresh k₂.next)), .application⟩)
  | lambda {env : TypeEnv} {param : String} {body : Expr} {bodyTy : Ty} {k k' : InferState} :
      k.next + 1 ≤ freshLimit →
      Runs (env.extend param (.mono (.var (.fresh k.next)))) body (k.mint 1) bodyTy k' →
      Runs env (.lambda param body) k (.function (.var (.fresh k.next)) bodyTy) k'
  | letIn {env : TypeEnv} {name : String} {value body : Expr} {valueTy bodyTy : Ty}
      {k k₁ k' : InferState} {s : Substitution} :
      Runs env value k valueTy k₁ → Solves k₁.substitution k₁.pending s →
      Runs (env.bindLet s name valueTy) body (k₁.settle s) bodyTy k' →
      Runs env (.letIn name value body) k bodyTy k'
  | compose {env : TypeEnv} {first second : Expr} {firstTy secondTy : Ty} {k k₁ k₂ : InferState} :
      Runs env first k firstTy k₁ → Runs env second k₁ secondTy k₂ → k₂.next + 3 ≤ freshLimit →
      Runs env (.compose first second) k
        (.function (.var (.fresh k₂.next)) (.var (.fresh (k₂.next + 2))))
        (((k₂.mint 3).emit
          ⟨firstTy, .function (.var (.fresh k₂.next)) (.var (.fresh (k₂.next + 1))), .composeFirst⟩).emit
          ⟨secondTy, .function (.var (.fresh (k₂.next + 1))) (.var (.fresh (k₂.next + 2))), .composeSecond⟩)
  | ascribe {env : TypeEnv} {inner : Expr} {ty innerTy : Ty} {k k' : InferState} :
      ty.checkDeclared = .ok () → k.next + (distinct ty.vars).length ≤ freshLimit →
      Runs env inner (k.mint (distinct ty.vars).length) innerTy k' →
      Runs env (.ascribe inner ty) k ((Scheme.closed ty).renamed k.next)
        (k'.emit ⟨(Scheme.closed ty).renamed k.next, innerTy, .ascription⟩)

/-! ## Steps of inference -/

namespace Infer

variable {α β : Type} {c c' : InferenceContext} {t t' : Ty}

theorem bind_eq_ok {x : Infer α} {f : α → Infer β} {b : β} :
    (x >>= f) c = .ok b c' ↔ ∃ a c₁, x c = .ok a c₁ ∧ f a c₁ = .ok b c' := by
  change EStateM.bind x f c = _ ↔ _
  unfold EStateM.bind
  cases x c with
  | ok a c₁ => simp
  | error e c₁ => simp

theorem pure_eq_ok {a b : α} : (pure a : Infer α) c = .ok b c' ↔ a = b ∧ c = c' := by
  change EStateM.Result.ok a c = _ ↔ _
  simp

theorem ofExcept_eq_ok {x : Except InferError α} {a : α} :
    (MonadExcept.ofExcept x : Infer α) c = .ok a c' ↔ x = .ok a ∧ c = c' := by
  cases x with
  | ok b =>
      change EStateM.Result.ok b c = _ ↔ _
      simp
  | error e =>
      change EStateM.Result.error e c = _ ↔ _
      simp

theorem record_eq_ok {e : Expr} {rule : InferRule} {detail : InferDetail}
    (h : record e t rule detail c = .ok () c') : c'.state = c.state := by
  have equal : c' = if c.tracing then { c with trace := c.trace ++ [⟨e, t, rule, detail⟩] } else c := by
    cases h
    rfl
  rw [equal]
  split <;> rfl

theorem constrain_eq_ok {reason : Reason} (h : constrain t t' reason c = .ok () c') :
    c'.state = c.state.emit ⟨t, t', reason⟩ := by
  cases h
  rfl

theorem solve_eq_ok (h : solve c = .ok () c') :
    ∃ s, Solves c.state.substitution c.state.pending s ∧ c'.state = c.state.settle s := by
  unfold solve at h
  cases solved : c.unifier.solve c.pending with
  | mk outcome unifier =>
      cases outcome with
      | error e =>
          simp only [solved] at h
          cases h
      | ok done =>
          simp only [solved] at h
          cases h
          obtain ⟨solves, count, limit⟩ := Unifier.solve_eq_ok solved
          refine ⟨unifier.substitution, solves, ?_⟩
          simp only [InferenceContext.state, InferState.settle, count, limit]

theorem mintBlock_apply (count : Nat) (f : Nat → α) (supply : FreshSupply) :
    (FreshSupply.mintBlock count >>= fun first => pure (f first) : Minting α) supply =
      if h : supply.next + count ≤ freshLimit then .ok (f supply.next) ⟨supply.next + count, h⟩
      else .error {} ⟨freshLimit, Nat.le_refl _⟩ := by
  change EStateM.bind (FreshSupply.mintBlock count) _ supply = _
  unfold EStateM.bind FreshSupply.mintBlock
  by_cases enough : supply.next + count ≤ freshLimit
  · simp only [enough, dite_true]
    rfl
  · simp only [enough, dite_false]

theorem minting_eq_ok {count : Nat} {f : Nat → α} {a : α}
    (h : minting (FreshSupply.mintBlock count >>= fun first => pure (f first)) c = .ok a c') :
    c.state.next + count ≤ freshLimit ∧ a = f c.state.next ∧ c'.state = c.state.mint count := by
  unfold minting at h
  rw [mintBlock_apply] at h
  by_cases enough : c.supply.next + count ≤ freshLimit
  · simp only [enough, dite_true] at h
    cases h
    exact ⟨enough, rfl, rfl⟩
  · simp only [enough, dite_false] at h
    cases h

theorem freshType_eq_ok (h : freshType c = .ok t c') :
    c.state.next + 1 ≤ freshLimit ∧ t = .var (.fresh c.state.next) ∧ c'.state = c.state.mint 1 := by
  obtain ⟨v, c₁, minted, h⟩ := bind_eq_ok.mp h
  obtain ⟨rfl, rfl⟩ := pure_eq_ok.mp h
  obtain ⟨enough, rfl, state⟩ := minting_eq_ok minted
  exact ⟨enough, rfl, state⟩

theorem instantiate_eq_ok {scheme : Scheme}
    (h : minting (FreshSupply.instantiate scheme) c = .ok t c') :
    c.state.next + (distinct scheme.vars).length ≤ freshLimit ∧ t = scheme.renamed c.state.next ∧
      c'.state = c.state.mint (distinct scheme.vars).length :=
  minting_eq_ok h

/-! ## Inference by the form of the expression -/

theorem expr_lit (env : TypeEnv) (literal : Literal) : expr env (.lit literal) = (do
    let t ← MonadExcept.ofExcept (literalType literal)
    record (.lit literal) t .literal .none
    return t) := rfl

theorem expr_var_of_none {env : TypeEnv} {name : String} (h : env.lookup name = none) :
    expr env (.var name) = throw (.unboundVariable name) := by
  simp only [expr, exprWith, h]

theorem expr_var_of_some {env : TypeEnv} {name : String} {scheme : Scheme} (h : env.lookup name = some scheme) :
    expr env (.var name) = (do
      let t ← minting (FreshSupply.instantiate scheme)
      record (.var name) t .varLookup (.scheme name scheme)
      return t) := by
  simp only [expr, exprWith, h]
  rfl

theorem expr_app (env : TypeEnv) (callee arg : Expr) : expr env (.app callee arg) = (do
    let calleeTy ← expr env callee
    let argTy ← expr env arg
    let result ← freshType
    constrain calleeTy (.function argTy result) .application
    record (.app callee arg) result .application (.application calleeTy argTy result)
    return result) := rfl

theorem expr_lambda (env : TypeEnv) (param : String) (body : Expr) : expr env (.lambda param body) = (do
    let paramTy ← freshType
    let bodyTy ← expr (env.extend param (.mono paramTy)) body
    record (.lambda param body) (.function paramTy bodyTy) .lambda .none
    return .function paramTy bodyTy) := rfl

theorem expr_letIn (env : TypeEnv) (name : String) (value body : Expr) : expr env (.letIn name value body) = (do
    let valueTy ← expr env value
    solve
    let s := (← get).unifier.substitution
    let scheme := (env.applySubst s).generalize (s.apply valueTy)
    let bodyTy ← expr ((env.applySubst s).extend name scheme) body
    record (.letIn name value body) bodyTy .letIn (.scheme name scheme)
    return bodyTy) := by
  simp only [expr, exprWith, actions, solution, bind_assoc, pure_bind]

theorem expr_compose (env : TypeEnv) (first second : Expr) : expr env (.compose first second) = (do
    let firstTy ← expr env first
    let secondTy ← expr env second
    let input ← freshType
    let middle ← freshType
    let output ← freshType
    constrain firstTy (.function input middle) .composeFirst
    constrain secondTy (.function middle output) .composeSecond
    record (.compose first second) (.function input output) .compose .none
    return .function input output) := rfl

theorem expr_ascribe (env : TypeEnv) (inner : Expr) (ty : Ty) : expr env (.ascribe inner ty) = (do
    MonadExcept.ofExcept (ty.checkDeclared.mapError (.malformedAscription ty))
    let expected ← minting (FreshSupply.instantiate (.closed ty))
    let actual ← expr env inner
    constrain expected actual .ascription
    record (.ascribe inner ty) expected .ascription (.ascribed ty)
    return expected) := rfl

/-! ## Success is a run -/

theorem runs_of_expr {env : TypeEnv} {e : Expr} (h : expr env e c = .ok t c') :
    Runs env e c.state t c'.state := by
  induction e generalizing env c t c' with
  | lit literal =>
      simp only [expr_lit, bind_eq_ok, ofExcept_eq_ok, pure_eq_ok] at h
      obtain ⟨t, c₁, ⟨ok, rfl⟩, _, c₂, recorded, rfl, rfl⟩ := h
      rw [record_eq_ok recorded]
      exact .lit (literalType_eq_ok.mp ok)
  | var name =>
      cases found : env.lookup name with
      | none =>
          simp only [expr_var_of_none found] at h
          cases h
      | some scheme =>
          simp only [expr_var_of_some found, bind_eq_ok, pure_eq_ok] at h
          obtain ⟨t, c₁, instantiated, _, c₂, recorded, rfl, rfl⟩ := h
          obtain ⟨enough, rfl, state⟩ := instantiate_eq_ok instantiated
          rw [record_eq_ok recorded, state]
          exact .var found enough
  | app callee arg ihCallee ihArg =>
      simp only [expr_app, bind_eq_ok, pure_eq_ok] at h
      obtain ⟨calleeTy, c₁, hCallee, argTy, c₂, hArg, result, c₃, fresh, _, c₄, constrained, _, c₅,
        recorded, rfl, rfl⟩ := h
      obtain ⟨enough, rfl, state⟩ := freshType_eq_ok fresh
      rw [record_eq_ok recorded, constrain_eq_ok constrained, state]
      exact .app (ihCallee hCallee) (ihArg hArg) enough
  | lambda param body ih =>
      simp only [expr_lambda, bind_eq_ok, pure_eq_ok] at h
      obtain ⟨paramTy, c₁, fresh, bodyTy, c₂, hBody, _, c₃, recorded, rfl, rfl⟩ := h
      obtain ⟨enough, rfl, state⟩ := freshType_eq_ok fresh
      rw [record_eq_ok recorded]
      exact .lambda enough (state ▸ ih hBody)
  | letIn name value body ihValue ihBody =>
      simp only [expr_letIn, bind_eq_ok, pure_eq_ok] at h
      obtain ⟨valueTy, c₁, hValue, _, c₂, solved, _, _, ⟨rfl, rfl⟩, bodyTy, c₃, hBody, _, c₄, recorded,
        rfl, rfl⟩ := h
      obtain ⟨s, solves, state⟩ := solve_eq_ok solved
      rw [record_eq_ok recorded]
      have substitution : c₂.unifier.substitution = s := congrArg InferState.substitution state
      have run := ihBody hBody
      rw [substitution, state] at run
      exact .letIn (ihValue hValue) solves run
  | compose first second ihFirst ihSecond =>
      simp only [expr_compose, bind_eq_ok, pure_eq_ok] at h
      obtain ⟨firstTy, c₁, hFirst, secondTy, c₂, hSecond, input, c₃, fresh, middle, c₄, fresh', output,
        c₅, fresh'', _, c₆, constrained, _, c₇, constrained', _, c₈, recorded, rfl, rfl⟩ := h
      obtain ⟨-, rfl, state⟩ := freshType_eq_ok fresh
      obtain ⟨-, rfl, state'⟩ := freshType_eq_ok fresh'
      obtain ⟨enough, rfl, state''⟩ := freshType_eq_ok fresh''
      rw [record_eq_ok recorded, constrain_eq_ok constrained', constrain_eq_ok constrained, state'',
        state', state]
      rw [state', state] at enough
      exact .compose (ihFirst hFirst) (ihSecond hSecond) enough
  | ascribe inner ty ih =>
      simp only [expr_ascribe, bind_eq_ok, ofExcept_eq_ok, pure_eq_ok] at h
      obtain ⟨_, c₁, ⟨declared, rfl⟩, expected, c₂, instantiated, innerTy, c₃, hInner, _, c₄, constrained,
        _, c₅, recorded, rfl, rfl⟩ := h
      obtain ⟨enough, rfl, state⟩ := instantiate_eq_ok instantiated
      rw [record_eq_ok recorded, constrain_eq_ok constrained]
      have declared : ty.checkDeclared = .ok () := by
        cases check : ty.checkDeclared with
        | ok done => rfl
        | error e =>
            rw [check] at declared
            cases declared
      exact .ascribe declared enough (state ▸ ih hInner)

theorem outcome_eq_ok {x : Infer α} {a : α} : outcome x c = .ok a ↔ ∃ c', x c = .ok a c' := by
  unfold outcome
  cases x c <;> simp

theorem map_eq_ok {x : Except InferError α} {f : α → β} {b : β} :
    x.map f = .ok b ↔ ∃ a, x = .ok a ∧ f a = b := by
  cases x <;> simp [Except.map]

theorem runs_of_finish {env : TypeEnv} {e : Expr} {i : Inference}
    (h : (do finish (← expr env e)) c = .ok i c') :
    ∃ t k, Runs env e c.state t k ∧ k.next = c'.supply.next ∧
      Solves k.substitution k.pending i.substitution ∧ i.ty = i.substitution.apply t := by
  simp only [finish, bind_eq_ok, pure_eq_ok] at h
  obtain ⟨t, c₁, ok, _, c₂, solved, _, _, ⟨rfl, rfl⟩, rfl, rfl⟩ := h
  obtain ⟨s, solves, state⟩ := solve_eq_ok solved
  have substitution : c₂.unifier.substitution = s := congrArg InferState.substitution state
  have next : c₂.supply.next = c₁.supply.next := congrArg InferState.next state
  exact ⟨t, c₁.state, runs_of_expr ok, next.symm, substitution ▸ solves, rfl⟩

theorem runs_of_inferWith {options : InferOptions} {env : TypeEnv} {e : Expr} {i : Inference}
    (h : inferWith options env e = .ok i) :
    ∃ t k, Runs env e (InferenceContext.start env options).state t k ∧
      Solves k.substitution k.pending i.substitution ∧ i.ty = i.substitution.apply t := by
  obtain ⟨c', ran⟩ := outcome_eq_ok.mp h
  obtain ⟨t, k, run, -, solves, type⟩ := runs_of_finish ran
  exact ⟨t, k, run, solves, type⟩

end Infer

/-! ## Solutions of a state -/

/-- The assignment absorbs what was solved and satisfies what is pending. -/
structure InferState.SolvedBy (k : InferState) (θ : TypeVar → Ty) : Prop where
  absorbed : k.substitution.AbsorbedBy θ
  pending : ∀ c ∈ k.pending, c.HoldsUnder θ

namespace InferState

variable {k : InferState} {c : Constraint} {s : Substitution} {θ : TypeVar → Ty}

theorem solvedBy_emit : (k.emit c).SolvedBy θ ↔ k.SolvedBy θ ∧ c.HoldsUnder θ := by
  constructor
  · rintro ⟨absorbed, pending⟩
    exact ⟨⟨absorbed, fun d hd => pending d (List.mem_append_left _ hd)⟩, pending c (by simp [emit])⟩
  · rintro ⟨⟨absorbed, pending⟩, new⟩
    refine ⟨absorbed, fun d hd => ?_⟩
    rcases List.mem_append.mp hd with hd | hd
    · exact pending d hd
    · exact List.mem_singleton.mp hd ▸ new

theorem solvedBy_mint {count : Nat} : (k.mint count).SolvedBy θ ↔ k.SolvedBy θ :=
  ⟨fun h => ⟨h.absorbed, h.pending⟩, fun h => ⟨h.absorbed, h.pending⟩⟩

theorem SolvedBy.of_settle (solves : Solves k.substitution k.pending s) (h : s.AbsorbedBy θ) :
    k.SolvedBy θ :=
  ⟨solves.refined.absorbed h, solves.holds h⟩

end InferState

theorem Runs.solvedBy {env : TypeEnv} {e : Expr} {t : Ty} {k k' : InferState} {θ : TypeVar → Ty}
    (run : Runs env e k t k') (solved : k'.SolvedBy θ) : k.SolvedBy θ := by
  induction run with
  | lit => exact solved
  | var => exact InferState.solvedBy_mint.mp solved
  | app _ _ _ ihCallee ihArg =>
      obtain ⟨solved, -⟩ := InferState.solvedBy_emit.mp solved
      exact ihCallee (ihArg (InferState.solvedBy_mint.mp solved))
  | lambda _ _ ih => exact InferState.solvedBy_mint.mp (ih solved)
  | letIn _ solves _ ihValue ihBody => exact ihValue (.of_settle solves (ihBody solved).absorbed)
  | compose _ _ _ ihFirst ihSecond =>
      obtain ⟨solved, -⟩ := InferState.solvedBy_emit.mp solved
      obtain ⟨solved, -⟩ := InferState.solvedBy_emit.mp solved
      exact ihFirst (ihSecond (InferState.solvedBy_mint.mp solved))
  | ascribe _ _ _ ih =>
      obtain ⟨solved, -⟩ := InferState.solvedBy_emit.mp solved
      exact InferState.solvedBy_mint.mp (ih solved)

end OpCalculus
