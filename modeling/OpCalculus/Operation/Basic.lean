import OpCalculus.Symbol.Definition
import OpCalculus.Value.Conformance

/-!
# Operations

An operation is a typed executable function. Two operations compose when the output of the first
flows into the input of the second; the composition runs one after the other. An operation may be
transformed as long as its input and output types stay the same.
-/

namespace OpCalculus

/-- How an operation came to be, in terms of the operations it was made from. -/
inductive Origin (α : Type) where
  | primitive
  | composed (first second : α)
  | transformed (source : α)

/-- A typed executable function. -/
structure Operation where
  name : String
  input : Ty
  output : Ty
  executable : Executable
  pure : Bool := true
  level : Nat := 0
  complexity : Option Complexity := none
  origin : Origin Operation := .primitive

/-- Why an operation could not be made. -/
inductive ComposeError where
  | composition (first second : String) (output input : Ty)
  | contractViolation (operation : String) (before after : Ty)
  | notAnOperation (name : String) (ty : Ty)
  deriving DecidableEq, Repr

namespace ComposeError

def message : ComposeError → String
  | composition first second output input =>
      s!"cannot compose `{first}` with `{second}`: `{first}` produces {output}, " ++
        s!"but `{second}` expects {input}"
  | contractViolation operation before after =>
      s!"transforming `{operation}` changed its signature from {before} to {after}"
  | notAnOperation name ty => s!"`{name}` has type {ty}, which is not an operation"

def diagnostic (e : ComposeError) : Diagnostic :=
  match e with
  | composition first second _ _ =>
      { category := .composition, message := e.message, subject := some s!"{first} >> {second}",
        notes := ["composition accepts equal types, type variables, scalar widenings and " ++
          "declared subtypes"] }
  | contractViolation operation _ _ =>
      { category := .contractViolation, message := e.message, subject := some operation,
        help := some "a transformation may change behavior but not input or output types" }
  | notAnOperation name _ =>
      { category := .notAnOperation, message := e.message, subject := some name,
        help := some "only symbols with a function type can be composed or executed" }

end ComposeError

namespace Operation

/-- The operation of a symbol, whose declared type has to be a function type. -/
def ofSymbol (d : SymbolDefinition) : Except ComposeError Operation :=
  match d.ty.asFunction? with
  | none => .error (.notAnOperation d.name d.ty)
  | some (input, output) =>
      .ok {
        name := d.name
        input
        output
        executable := d.executable
        pure := d.metadata.pure
        level := d.level
        complexity := d.metadata.complexity }

/-- The function type of an operation. -/
def signature (op : Operation) : Ty := .function op.input op.output

def text (op : Operation) : String := op.name ++ " : " ++ op.signature.text

/-- The names of the operations that a composition was made from, in order of execution. A
transformed operation counts as one. -/
def primitives : Operation → List String
  | { name, origin := .primitive, .. } => [name]
  | { name, origin := .transformed _, .. } => [name]
  | { origin := .composed first second, .. } => first.primitives ++ second.primitives

/-- Runs an operation on a value of its input type. An error names the operation it arose in. -/
def execute (op : Operation) (v : Value) : Except ExecError Value :=
  if op.input.accepts v then (op.executable.call v).mapError (.attributedTo op.name)
  else .error (.inOperation op.name (.rejected op.input v))

/-- The behaviour of one operation after another. -/
def sequentially (first second : Operation) : Behaviour := fun v => do
  let middle ← first.execute v
  second.execute middle

/-- The cost of two operations in sequence, known if both are. -/
def combinedComplexity (first second : Operation) : Option Complexity :=
  match first.complexity, second.complexity with
  | some a, some b => some (a.combine b)
  | _, _ => none

/-- First one operation, then another. The new executable gets the given number. -/
def andThen (id : Nat) (first second : Operation) : Except ComposeError Operation :=
  if first.output.flowsInto second.input then
    .ok {
      name := first.name ++ " >> " ++ second.name
      input := first.input
      output := second.output
      executable := ⟨id, first.sequentially second⟩
      pure := first.pure && second.pure
      level := max first.level second.level
      complexity := first.combinedComplexity second
      origin := .composed first second }
  else .error (.composition first.name second.name first.output second.input)

/-- Changes an operation without changing its input and output types. -/
def transform (op : Operation) (f : Operation → Operation) : Except ComposeError Operation :=
  let after := f op
  if after.input = op.input ∧ after.output = op.output then
    .ok { after with origin := .transformed op }
  else .error (.contractViolation op.name op.signature after.signature)

end Operation

end OpCalculus
