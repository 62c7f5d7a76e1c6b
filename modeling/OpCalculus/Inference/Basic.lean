import OpCalculus.Expr
import OpCalculus.FreshSupply
import OpCalculus.Unification.Unifier

/-!
# Type inference

Inference walks an expression, gives a fresh variable to each unknown type and emits equations in
order. A `let` solves everything pending before it generalizes the type of its value; all other
equations wait for `finish`. The state after a failure is the state at the point of failure. The walk
(`exprWith`) leaves open what its actions do to the state.
-/

namespace OpCalculus

/-- Why an expression has no type. -/
inductive InferError where
  | unsolvable (e : SolveError)
  | unboundVariable (name : String)
  /-- The first row of a matrix that differs in length from the first one. -/
  | raggedMatrix (row columns expected : Nat)
  | malformedAscription (ty : Ty) (e : WellFormedError)
  | freshExhausted (e : FreshExhausted)
  deriving DecidableEq, Repr

namespace InferError

def message : InferError → String
  | unsolvable e => e.message
  | unboundVariable name => s!"unbound variable `{name}`"
  | raggedMatrix row columns expected =>
      s!"malformed literal: matrix row {row} has {columns} columns, expected {expected}"
  | malformedAscription ty e => s!"malformed annotation `{ty}`: {e.message}"
  | freshExhausted e => e.message

def diagnostic (e : InferError) : Diagnostic :=
  match e with
  | unsolvable (.typeMismatch _ _ reason cause) =>
      { category := .typeMismatch, message := e.message, notes := [reason.text, cause.message] }
  | unsolvable (.budgetExceeded _) =>
      { category := .solverBudget, message := e.message,
        help := some "raise `SolveOptions::max_constraints`" }
  | unboundVariable name =>
      { category := .unboundVariable, message := e.message, subject := some name,
        help := some s!"register `{name}` or bind it with `let`" }
  | raggedMatrix _ _ _ => { category := .malformedLiteral, message := e.message }
  | malformedAscription _ _ => { category := .malformedType, message := e.message }
  | freshExhausted _ =>
      { category := .solverBudget, message := e.message,
        notes := ["the environment already uses the highest fresh variable id"] }

end InferError

/-! ## Traces -/

/-- The rule that types a node. -/
inductive InferRule where
  | literal
  | varLookup
  | application
  | lambda
  | letIn
  | compose
  | ascription
  deriving DecidableEq, Repr

/-- What a step of inference adds to its type. -/
inductive InferDetail where
  | none
  | scheme (name : String) (c : Scheme)
  | application (callee arg result : Ty)
  | ascribed (ty : Ty)
  deriving DecidableEq, Repr

def InferDetail.text : InferDetail → String
  | none => ""
  | scheme name c => s!"{name} : {c}"
  | application callee arg result => s!"{callee} ~ {arg} -> {result}"
  | ascribed ty => s!"annotated {ty}"

/-- A node with the type it got before its equations were solved. -/
structure InferStep where
  expr : Expr
  ty : Ty
  rule : InferRule
  detail : InferDetail

/-! ## State -/

structure InferOptions where
  tracing : Bool := false
  maxConstraints : Nat := defaultMaxConstraints
  deriving DecidableEq, Repr

/-- The state of an inference. -/
structure InferenceContext where
  unifier : Unifier
  pending : List Constraint
  supply : FreshSupply
  emitted : Nat
  tracing : Bool
  trace : List InferStep

/-- The result of an inference. -/
structure Inference where
  ty : Ty
  substitution : Substitution
  constraints : Nat
  unifyTrace : List UnifyStep
  inferTrace : List InferStep

/-- Steps of an inference; a failing step keeps the state it reached. -/
abbrev Infer := EStateM InferError InferenceContext

namespace InferenceContext

/-- Fresh variables start after those of the environment. -/
def start (env : TypeEnv) (options : InferOptions) : InferenceContext where
  unifier := { maxConstraints := options.maxConstraints, tracing := options.tracing }
  pending := []
  supply := .after env
  emitted := 0
  tracing := options.tracing
  trace := []

end InferenceContext

namespace Infer

def minting {α : Type} (action : Minting α) : Infer α := fun c =>
  match action c.supply with
  | .ok a supply => .ok a { c with supply }
  | .error e supply => .error (.freshExhausted e) { c with supply }

def freshType : Infer Ty := do
  let v ← minting FreshSupply.mint
  return .var v

def constrain (expected actual : Ty) (reason : Reason) : Infer Unit :=
  modify fun c =>
    { c with pending := c.pending ++ [⟨expected, actual, reason⟩], emitted := c.emitted + 1 }

/-- Solves all pending equations. After a conflict none is left. -/
def solve : Infer Unit := fun c =>
  match c.unifier.solve c.pending with
  | (.ok (), unifier) => .ok () { c with unifier, pending := [] }
  | (.error e, unifier) => .error (.unsolvable e) { c with unifier, pending := [] }

/-- Records a step when tracing is on. -/
def record (expr : Expr) (ty : Ty) (rule : InferRule) (detail : InferDetail) : Infer Unit :=
  modify fun c =>
    if c.tracing then { c with trace := c.trace ++ [⟨expr, ty, rule, detail⟩] } else c

/-- The first row, with its index, that has not the given number of columns. -/
def raggedRow? (columns : Nat) (rows : List (List Float)) : Option (List Float × Nat) :=
  rows.zipIdx.find? fun (row, _) => row.length ≠ columns

def literalType : Literal → Except InferError Ty
  | .bool _ => .ok .bool
  | .int _ => .ok .int
  | .number _ => .ok .number
  | .string _ => .ok .string
  | .vector items => .ok (.vector items.length .number)
  | .matrix rows =>
      let columns := (rows.head?.map List.length).getD 0
      match raggedRow? columns rows with
      | some (row, index) => .error (.raggedMatrix index row.length columns)
      | none => .ok (.matrix rows.length columns .number)

/-- The actions that inference is made of, over some state. -/
structure Actions (σ : Type) where
  freshType : EStateM InferError σ Ty
  instantiate (c : Scheme) : EStateM InferError σ Ty
  constrain (expected actual : Ty) (reason : Reason) : EStateM InferError σ Unit
  /-- Solves all pending equations and returns the accumulated solution. -/
  solve : EStateM InferError σ Substitution
  record (expr : Expr) (ty : Ty) (rule : InferRule) (detail : InferDetail) :
    EStateM InferError σ Unit

/-- Emits the equations of an expression and returns its type up to their solution. -/
def exprWith {σ : Type} (x : Actions σ) (env : TypeEnv) : Expr → EStateM InferError σ Ty
  | .lit literal => do
      let ty ← MonadExcept.ofExcept (literalType literal)
      x.record (.lit literal) ty .literal .none
      return ty
  | .var name =>
      match env.lookup name with
      | none => throw (.unboundVariable name)
      | some c => do
          let ty ← x.instantiate c
          x.record (.var name) ty .varLookup (.scheme name c)
          return ty
  | .app callee arg => do
      let calleeTy ← exprWith x env callee
      let argTy ← exprWith x env arg
      let result ← x.freshType
      x.constrain calleeTy (.function argTy result) .application
      x.record (.app callee arg) result .application (.application calleeTy argTy result)
      return result
  | .lambda param body => do
      let paramTy ← x.freshType
      let bodyTy ← exprWith x (env.extend param (.mono paramTy)) body
      let ty := Ty.function paramTy bodyTy
      x.record (.lambda param body) ty .lambda .none
      return ty
  | .letIn name value body => do
      let valueTy ← exprWith x env value
      let s ← x.solve
      let solvedEnv := env.applySubst s
      let c := solvedEnv.generalize (s.apply valueTy)
      let bodyTy ← exprWith x (solvedEnv.extend name c) body
      x.record (.letIn name value body) bodyTy .letIn (.scheme name c)
      return bodyTy
  | .compose first second => do
      let firstTy ← exprWith x env first
      let secondTy ← exprWith x env second
      let input ← x.freshType
      let middle ← x.freshType
      let output ← x.freshType
      x.constrain firstTy (.function input middle) .composeFirst
      x.constrain secondTy (.function middle output) .composeSecond
      let ty := Ty.function input output
      x.record (.compose first second) ty .compose .none
      return ty
  | .ascribe inner ty => do
      MonadExcept.ofExcept (ty.checkDeclared.mapError (.malformedAscription ty))
      let expected ← x.instantiate (.closed ty)
      let actual ← exprWith x env inner
      x.constrain expected actual .ascription
      x.record (.ascribe inner ty) expected .ascription (.ascribed ty)
      return expected

/-- Solves all pending equations and returns the accumulated solution. -/
def solution : Infer Substitution := do
  solve
  return (← get).unifier.substitution

def actions : Actions InferenceContext where
  freshType := freshType
  instantiate c := minting (FreshSupply.instantiate c)
  constrain := constrain
  solve := solution
  record := record

def expr (env : TypeEnv) (e : Expr) : Infer Ty := exprWith actions env e

/-- Solves what is pending and resolves a type. -/
def finish (ty : Ty) : Infer Inference := do
  solve
  let c ← get
  return {
    ty := c.unifier.substitution.apply ty
    substitution := c.unifier.substitution
    constraints := c.emitted
    unifyTrace := c.unifier.trace
    inferTrace := c.trace }

/-- The result of a run. -/
def outcome {α : Type} (action : Infer α) (c : InferenceContext) : Except InferError α :=
  match action c with
  | .ok a _ => .ok a
  | .error e _ => .error e

end Infer

/-- Infers an expression in an environment. -/
def inferWith (options : InferOptions) (env : TypeEnv) (e : Expr) : Except InferError Inference :=
  Infer.outcome (do Infer.finish (← Infer.expr env e)) (.start env options)

/-- The principal type of an expression. -/
def infer (env : TypeEnv) (e : Expr) : Except InferError Ty :=
  (inferWith {} env e).map Inference.ty

/-- The principal type of an expression, generalized over the variables that the environment does
not determine. -/
def inferScheme (env : TypeEnv) (e : Expr) : Except InferError Scheme :=
  (inferWith {} env e).map fun i => (env.applySubst i.substitution).generalize i.ty

end OpCalculus
