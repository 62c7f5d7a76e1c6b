import OpCalculus.Inference.Basic
import OpCalculus.Operation.Basic
import OpCalculus.Symbol.Schedule

/-!
# Pipelines

What a symbol table offers to its users: an environment for inference, the operations of its
symbols, their composition by name, and plans for running symbols level by level.
-/

namespace OpCalculus

/-- Why symbols do not form a pipeline. -/
inductive PipelineError where
  | unknown (e : UnknownSymbol)
  | compose (e : ComposeError)
  | emptyPipeline
  deriving DecidableEq, Repr

namespace PipelineError

def message : PipelineError → String
  | unknown e => e.message
  | compose e => e.message
  | emptyPipeline => "cannot compose an empty list of symbols"

def diagnostic (e : PipelineError) : Diagnostic :=
  match e with
  | unknown e => e.diagnostic
  | compose e => e.diagnostic
  | emptyPipeline =>
      { category := .composition, message := e.message, help := some "name at least one operation" }

end PipelineError

/-- The batches in which symbols can run, in ascending order of level. -/
structure ExecutionPlan where
  stages : List Batch
  deriving DecidableEq, Repr

namespace ExecutionPlan

/-- All symbols of a plan in order. -/
def order (p : ExecutionPlan) : List String := p.stages.flatMap (·.symbols)

/-- The number of symbols in a plan, counted stage by stage. -/
def size (p : ExecutionPlan) : Nat := p.stages.foldl (fun n b => n + b.symbols.length) 0

def isEmpty (p : ExecutionPlan) : Bool := p.stages.isEmpty

/-- A line for each stage. -/
def text (p : ExecutionPlan) : String :=
  Text.joined "\n" (p.stages.map fun b =>
    "level " ++ toString b.level ++ ": " ++ Text.joined ", " b.symbols)

end ExecutionPlan

namespace SymbolTable

/-- The environment that binds each symbol to its declared scheme. -/
def typeEnv (t : SymbolTable) : TypeEnv := .ofBindings (t.definitions.map fun d => (d.name, d.scheme))

/-- Infers an expression over the symbols of a table. -/
def inferWith (t : SymbolTable) (options : InferOptions) (e : Expr) : Except InferError Inference :=
  OpCalculus.inferWith options t.typeEnv e

/-- The operation of a symbol. -/
def operation (t : SymbolTable) (name : String) : Except PipelineError Operation :=
  match t.get? name with
  | none => .error (.unknown ⟨name⟩)
  | some d => (Operation.ofSymbol d).mapError .compose

/-- Extends an operation by the operations of further symbols. Each composition takes the next
number. -/
def composeFrom (t : SymbolTable) (id : Nat) (op : Operation) :
    List String → Except PipelineError Operation
  | [] => .ok op
  | name :: rest => do
      let next ← t.operation name
      let composed ← (Operation.andThen id op next).mapError .compose
      t.composeFrom (id + 1) composed rest

/-- Composes symbols from left to right. New executables are numbered from the given number on. -/
def compose (t : SymbolTable) (id : Nat) : List String → Except PipelineError Operation
  | [] => .error .emptyPipeline
  | name :: rest => do
      let first ← t.operation name
      t.composeFrom id first rest

/-- The plan for running names and everything they depend on. -/
def executionPlan (t : SymbolTable) (names : List String) : Except UnknownSymbol ExecutionPlan :=
  (t.executionBatches names).map .mk

end SymbolTable

end OpCalculus
