import OpCalculus.Inference.Basic

/-!
# Relations between runs of inference

The walk over an expression is made of actions, sequencing and errors that show without solving or minting. A
relation between runs that all of these keep (`Congruence`) holds of the walks themselves. It may depend on the
number of constraints that a run emits and on the nodes that it records.
-/

namespace OpCalculus

namespace Expr

/-- The number of constraints that inference emits for an expression. -/
def constraintCount : Expr → Nat
  | lit _ | var _ => 0
  | app callee arg => callee.constraintCount + arg.constraintCount + 1
  | lambda _ body => body.constraintCount
  | letIn _ value body => value.constraintCount + body.constraintCount
  | compose first second => first.constraintCount + second.constraintCount + 2
  | ascribe inner _ => inner.constraintCount + 1

/-- All nodes: the children of a node from left to right, then the node. -/
def nodes : Expr → List Expr
  | lit literal => [lit literal]
  | var name => [var name]
  | app callee arg => callee.nodes ++ arg.nodes ++ [app callee arg]
  | lambda param body => body.nodes ++ [lambda param body]
  | letIn name value body => value.nodes ++ body.nodes ++ [letIn name value body]
  | compose first second => first.nodes ++ second.nodes ++ [compose first second]
  | ascribe inner ty => inner.nodes ++ [ascribe inner ty]

/-- The rule that types the topmost node. -/
def rule : Expr → InferRule
  | lit _ => .literal
  | var _ => .varLookup
  | app _ _ => .application
  | lambda _ _ => .lambda
  | letIn _ _ _ => .letIn
  | compose _ _ => .compose
  | ascribe _ _ => .ascription

end Expr

/-- The error shows without solving constraints or minting variables. -/
structure InferError.Static (e : InferError) : Prop where
  solved : ∀ cause, e ≠ .unsolvable cause
  minted : ∀ cause, e ≠ .freshExhausted cause

theorem Infer.static_of_literalType {literal : Literal} {e : InferError} (h : literalType literal = .error e) :
    e.Static := by
  cases literal with
  | matrix rows =>
      simp only [literalType] at h
      split at h <;> cases h
      exact ⟨nofun, nofun⟩
  | _ => cases h

theorem Infer.static_of_checkDeclared {ty : Ty} {e : InferError}
    (h : ty.checkDeclared.mapError (.malformedAscription ty) = .error e) : e.Static := by
  cases check : ty.checkDeclared with
  | ok done =>
      rw [check] at h
      cases h
  | error cause =>
      rw [check] at h
      cases h
      exact ⟨nofun, nofun⟩

namespace Infer

/-- A relation between runs over two states that is kept by everything inference is made of. -/
structure Congruence {σ τ : Type} (x : Actions σ) (y : Actions τ)
    (R : {α : Type} → Nat → List Expr → EStateM InferError σ α → EStateM InferError τ α → Prop) : Prop where
  pure {α : Type} (a : α) : R 0 [] (pure a) (pure a)
  bind {α β : Type} {m n : Nat} {es fs : List Expr} {a : EStateM InferError σ α} {b : EStateM InferError τ α}
    {f : α → EStateM InferError σ β} {g : α → EStateM InferError τ β} :
    R m es a b → (∀ r, R n fs (f r) (g r)) → R (m + n) (es ++ fs) (a >>= f) (b >>= g)
  /-- A run that fails at once may have been about to do anything. -/
  throw {α : Type} {e : InferError} (n : Nat) (es : List Expr) :
    e.Static → R n es (throw e : EStateM InferError σ α) (throw e)
  freshType : R 0 [] x.freshType y.freshType
  instantiate (c : Scheme) : R 0 [] (x.instantiate c) (y.instantiate c)
  constrain (t u : Ty) (reason : Reason) : R 1 [] (x.constrain t u reason) (y.constrain t u reason)
  solve : R 0 [] x.solve y.solve
  record (e : Expr) (t : Ty) (detail : InferDetail) :
    R 0 [e] (x.record e t e.rule detail) (y.record e t e.rule detail)

namespace Congruence

variable {σ τ : Type} {x : Actions σ} {y : Actions τ}
  {R : {α : Type} → Nat → List Expr → EStateM InferError σ α → EStateM InferError τ α → Prop}

theorem ofExcept (h : Congruence x y R) {α : Type} {check : Except InferError α}
    (static : ∀ e, check = .error e → e.Static) :
    R 0 [] (MonadExcept.ofExcept check : EStateM InferError σ α) (MonadExcept.ofExcept check) := by
  cases check with
  | ok a => exact h.pure a
  | error e => exact h.throw 0 [] (static e rfl)

theorem recorded (h : Congruence x y R) (e : Expr) (t : Ty) (detail : InferDetail) :
    R 0 [e] (do x.record e t e.rule detail; return t) (do y.record e t e.rule detail; return t) :=
  h.bind (h.record e t detail) fun _ => h.pure t

theorem expr (h : Congruence x y R) (env : TypeEnv) (e : Expr) :
    R e.constraintCount e.nodes (exprWith x env e) (exprWith y env e) := by
  have adjust {α : Type} {m n : Nat} {es fs : List Expr} {a : EStateM InferError σ α}
      {b : EStateM InferError τ α} (related : R m es a b) (sameCount : m = n) (sameNodes : es = fs) :
      R n fs a b := sameCount ▸ sameNodes ▸ related
  induction e generalizing env with
  | lit literal =>
      exact h.bind (h.ofExcept fun _ => static_of_literalType) fun t => h.recorded (.lit literal) t .none
  | var name =>
      unfold exprWith
      cases env.lookup name with
      | none => exact h.throw _ _ ⟨nofun, nofun⟩
      | some c => exact h.bind (h.instantiate c) fun t => h.recorded (.var name) t _
  | app callee arg ihCallee ihArg =>
      refine adjust (h.bind (ihCallee env) fun _ => h.bind (ihArg env) fun _ => h.bind h.freshType fun _ =>
        h.bind (h.constrain _ _ _) fun _ => h.recorded (.app callee arg) _ _) ?_ ?_
      · simp only [Expr.constraintCount]
        omega
      · simp [Expr.nodes]
  | lambda param body ih =>
      refine adjust (h.bind h.freshType fun _ => h.bind (ih _) fun _ => h.recorded (.lambda param body) _ _) ?_ ?_
      · simp only [Expr.constraintCount]
        omega
      · simp [Expr.nodes]
  | letIn name value body ihValue ihBody =>
      refine adjust (h.bind (ihValue env) fun _ => h.bind h.solve fun _ => h.bind (ihBody _) fun _ =>
        h.recorded (.letIn name value body) _ _) ?_ ?_
      · simp only [Expr.constraintCount]
        omega
      · simp [Expr.nodes]
  | compose first second ihFirst ihSecond =>
      refine adjust (h.bind (ihFirst env) fun _ => h.bind (ihSecond env) fun _ => h.bind h.freshType fun _ =>
        h.bind h.freshType fun _ => h.bind h.freshType fun _ => h.bind (h.constrain _ _ _) fun _ =>
        h.bind (h.constrain _ _ _) fun _ => h.recorded (.compose first second) _ _) ?_ ?_
      · simp only [Expr.constraintCount]
        omega
      · simp [Expr.nodes]
  | ascribe inner ty ih =>
      refine adjust (h.bind (h.ofExcept fun _ => static_of_checkDeclared) fun _ =>
        h.bind (h.instantiate _) fun _ => h.bind (ih env) fun _ => h.bind (h.constrain _ _ _) fun _ =>
        h.recorded (.ascribe inner ty) _ _) ?_ ?_
      · simp only [Expr.constraintCount]
        omega
      · simp [Expr.nodes]

end Congruence

end Infer

end OpCalculus
