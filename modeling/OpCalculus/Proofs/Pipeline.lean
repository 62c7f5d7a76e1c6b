import OpCalculus.Operation.Pipeline
import OpCalculus.Proofs.Flow
import OpCalculus.Proofs.Inference.Completeness
import OpCalculus.Proofs.Symbol.Registration

/-!
# Inference and composition of pipelines

A pipeline of symbols is checked in two ways: inference solves equations between instances of the
declared types, composition compares neighbouring declared types by flow. Where inference succeeds,
neighbours have a common instance and so compose, and the inferred type is an instance of the
signature of the composition, input and output apart.
-/

namespace OpCalculus

/-- The composition of names from left to right. -/
def Expr.pipeline (first : String) (rest : List String) : Expr :=
  rest.foldl (fun e name => .compose e (.var name)) (.var first)

theorem Expr.pipeline_concat (first : String) (rest : List String) (last : String) :
    pipeline first (rest ++ [last]) = .compose (pipeline first rest) (.var last) := by
  simp [pipeline]

/-- The function type `a → b` has instances of the input and output of the operation. -/
structure Operation.Covers (op : Operation) (a b : Ty) : Prop where
  input : ∃ f, op.input.bind f = a
  output : ∃ g, op.output.bind g = b

theorem Operation.exists_andThen {op next : Operation} (flows : op.output.flowsInto next.input = true)
    (id : Nat) :
    ∃ op', op.andThen id next = .ok op' ∧ op'.input = op.input ∧ op'.output = next.output := by
  rw [andThen, if_pos flows]
  exact ⟨_, rfl, rfl, rfl⟩

namespace SymbolTable

variable {t : SymbolTable} {name first last : String} {rest : List String} {d : SymbolDefinition}

/-! ## The environment of a table -/

theorem lookup_foldl_extend {definitions : List SymbolDefinition} (nodup : (definitions.map (·.name)).Nodup)
    (env : TypeEnv) :
    ((definitions.map fun d => (d.name, d.scheme)).foldl (fun env p => env.extend p.1 p.2) env).lookup name =
      ((definitions.find? (·.name = name)).map (·.scheme)).or (env.lookup name) := by
  induction definitions generalizing env with
  | nil => simp
  | cons d definitions ih =>
      obtain ⟨absent, nodup⟩ := List.nodup_cons.mp nodup
      rw [List.map_cons, List.foldl_cons, ih nodup, TypeEnv.lookup_extend, List.find?_cons]
      by_cases here : d.name = name
      · have none : definitions.find? (·.name = name) = none := by
          simp only [List.find?_eq_none, decide_eq_true_eq]
          exact fun e he same => absent (List.mem_map.mpr ⟨e, he, same.trans here.symm⟩)
        simp [here, none]
      · simp [here, Ne.symm here]

theorem Consistent.lookup_typeEnv (h : t.Consistent) (name : String) :
    t.typeEnv.lookup name = (t.get? name).map (·.scheme) := by
  rw [typeEnv, TypeEnv.ofBindings, lookup_foldl_extend h.nodup, get?]
  simp [TypeEnv.lookup, TypeEnv.empty]

/-! ## Composition -/

theorem operation_eq_ok {a b : Ty} (found : t.get? name = some d) (type : d.ty = .function a b) :
    ∃ op, t.operation name = .ok op ∧ op.input = a ∧ op.output = b := by
  simp only [operation, found, Operation.ofSymbol, type, Ty.asFunction?]
  exact ⟨_, rfl, rfl, rfl⟩

theorem composeFrom_concat (t : SymbolTable) (id : Nat) (op : Operation) (names : List String)
    (last : String) :
    t.composeFrom id op (names ++ [last]) = (do
      let composed ← t.composeFrom id op names
      let next ← t.operation last
      (Operation.andThen (id + names.length) composed next).mapError .compose) := by
  induction names generalizing id op with
  | nil => exact bind_congr fun next => bind_pure _
  | cons name names ih =>
      rw [List.cons_append, composeFrom, composeFrom]
      simp only [ih, bind_assoc, List.length_cons]
      have next : id + 1 + names.length = id + (names.length + 1) := by omega
      rw [next]

theorem compose_concat {id : Nat} {op next : Operation} (composed : t.compose id (first :: rest) = .ok op)
    (found : t.operation last = .ok next) (flows : op.output.flowsInto next.input = true) :
    ∃ op', t.compose id (first :: (rest ++ [last])) = .ok op' ∧ op'.input = op.input ∧
      op'.output = next.output := by
  cases start : t.operation first with
  | error e =>
      rw [compose, start] at composed
      cases composed
  | ok firstOp =>
      rw [compose, start] at composed
      have composed : t.composeFrom id firstOp rest = .ok op := composed
      rw [compose, start]
      obtain ⟨op', ok, input, output⟩ := Operation.exists_andThen flows (id + rest.length)
      refine ⟨op', ?_, input, output⟩
      change t.composeFrom id firstOp (rest ++ [last]) = .ok op'
      rw [composeFrom_concat, composed, found]
      change (op.andThen (id + rest.length) next).mapError PipelineError.compose = .ok op'
      rw [ok]
      rfl

/-! ## Inference -/

def IsOperation (t : SymbolTable) (name : String) : Prop :=
  ∃ d a b, t.get? name = some d ∧ d.ty = .function a b

variable {k k' : InferState} {ty : Ty} {θ : TypeVar → Ty}

theorem Consistent.operation_of_runs (h : t.Consistent) (isOperation : t.IsOperation name)
    (run : Runs t.typeEnv (.var name) k ty k') (θ : TypeVar → Ty) :
    ∃ op a b, t.operation name = .ok op ∧ ty.bind θ = .function a b ∧ op.Covers a b := by
  obtain ⟨d, a, b, found, type⟩ := isOperation
  cases run with
  | @var _ _ c _ bound =>
      rw [h.lookup_typeEnv, found, Option.map_some, Option.some.injEq] at bound
      subst bound
      obtain ⟨op, ok, rfl, rfl⟩ := operation_eq_ok found type
      obtain ⟨f, reading⟩ : ∃ f, (d.scheme.renamed k.next).bind θ = d.ty.bind f :=
        ⟨_, d.scheme.bind_renamed k.next θ⟩
      refine ⟨op, op.input.bind f, op.output.bind f, ok, ?_, ⟨f, rfl⟩, ⟨f, rfl⟩⟩
      rw [reading, type]
      rfl

/-- Any solution of a run on a pipeline shows that the pipeline composes. -/
theorem Consistent.compose_of_runs (h : t.Consistent)
    (isOperation : ∀ name ∈ first :: rest, t.IsOperation name)
    (run : Runs t.typeEnv (.pipeline first rest) k ty k') (solved : k'.SolvedBy θ) (id : Nat) :
    ∃ op a b, t.compose id (first :: rest) = .ok op ∧ ty.bind θ = .function a b ∧ op.Covers a b := by
  induction rest using List.reverseRecOn generalizing ty k' with
  | nil =>
      obtain ⟨op, a, b, ok, type, covers⟩ := h.operation_of_runs (isOperation first (by simp)) run θ
      refine ⟨op, a, b, ?_, type, covers⟩
      rw [compose, ok]
      rfl
  | append_singleton rest last ih =>
      rw [Expr.pipeline_concat] at run
      cases run with
      | @compose _ _ _ firstTy lastTy _ k₁ k₂ runFirst runLast enough =>
          obtain ⟨solved, holdsLast⟩ := InferState.solvedBy_emit.mp solved
          obtain ⟨solved, holdsFirst⟩ := InferState.solvedBy_emit.mp solved
          have solved₂ : k₂.SolvedBy θ := InferState.solvedBy_mint.mp solved
          obtain ⟨op, a, b, composed, type, covers⟩ :=
            ih (fun n hn => isOperation n (by simp at hn ⊢; tauto)) runFirst (runLast.solvedBy solved₂)
          obtain ⟨next, c, d, found, type', covers'⟩ :=
            h.operation_of_runs (isOperation last (by simp)) runLast θ
          obtain ⟨rfl, rfl⟩ := Ty.function.inj (type.symm.trans holdsFirst)
          obtain ⟨rfl, rfl⟩ := Ty.function.inj (type'.symm.trans holdsLast)
          obtain ⟨g, output⟩ := covers.output
          obtain ⟨f, input⟩ := covers'.input
          obtain ⟨op', ok, sameInput, sameOutput⟩ :=
            compose_concat composed found (Ty.flowsInto_of_bind_eq (output.trans input.symm))
          exact ⟨op', _, _, ok, rfl, ⟨sameInput ▸ covers.input, sameOutput ▸ covers'.output⟩⟩

end SymbolTable

/-- A pipeline of operations on which inference succeeds composes, and the inferred input and output are
instances of the input and output of the composition. -/
theorem compose_of_inferWith {t : SymbolTable} {first : String} {rest : List String} {options : InferOptions}
    {i : Inference} (reachable : t.Reachable) (isOperation : ∀ name ∈ first :: rest, t.IsOperation name)
    (h : t.inferWith options (.pipeline first rest) = .ok i) (id : Nat) :
    ∃ a b op, i.ty = .function a b ∧ t.compose id (first :: rest) = .ok op ∧
      (∃ pairs, op.input.replace pairs = a) ∧ ∃ pairs, op.output.replace pairs = b := by
  obtain ⟨ty, k, run, solves, type⟩ := Infer.runs_of_inferWith h
  have solved := InferState.SolvedBy.of_settle solves i.substitution.absorbedBy_image
  obtain ⟨op, a, b, ok, equal, ⟨f, input⟩, ⟨g, output⟩⟩ :=
    reachable.consistent.compose_of_runs isOperation run solved id
  obtain ⟨inputs, sameInput⟩ := Ty.exists_replace [op.input] f
  obtain ⟨outputs, sameOutput⟩ := Ty.exists_replace [op.output] g
  refine ⟨a, b, op, type.trans equal, ok, ⟨inputs, ?_⟩, ⟨outputs, ?_⟩⟩
  · rw [sameInput _ (List.mem_singleton_self _), input]
  · rw [sameOutput _ (List.mem_singleton_self _), output]

-- A quantified variable in `wrap`, which is used twice, and a free one in `nest`.
theorem compose_of_inferWith_nested :
    let define (name : String) (scheme : Scheme) : SymbolDefinition :=
      { name, level := 0, scheme, executable := ⟨0, .ok⟩ }
    let a : Ty := .var (.named "a")
    let x : Ty := .var (.named "x")
    let t := (Registry.run
      [.register (define "wrap" ⟨[.named "a"], .function a (.sequence a)⟩),
        .register (define "nest" (.mono (.function (.sequence x) (.sequence (.sequence x)))))]).table
    t.Reachable ∧ (∀ name ∈ ["wrap", "nest", "wrap"], t.IsOperation name) ∧
      ∃ i op, t.inferWith {} (.pipeline "wrap" ["nest", "wrap"]) = .ok i ∧
        i.ty = .function (.var (.fresh 5)) (.sequence (.sequence (.sequence (.var (.fresh 5))))) ∧
        t.compose 0 ["wrap", "nest", "wrap"] = .ok op ∧
        (∃ pairs, op.input.replace pairs = .var (.fresh 5)) ∧
        ∃ pairs, op.output.replace pairs = .sequence (.sequence (.sequence (.var (.fresh 5)))) := by
  intro define a x t
  have reachable : t.Reachable := ⟨_, rfl⟩
  have isOperation : ∀ name ∈ ["wrap", "nest", "wrap"], t.IsOperation name := by
    have wrap : t.IsOperation "wrap" := ⟨_, _, _, rfl, rfl⟩
    have nest : t.IsOperation "nest" := ⟨_, _, _, rfl, rfl⟩
    simp [wrap, nest]
  have env : t.typeEnv = ⟨[("nest", .mono (.function (.sequence x) (.sequence (.sequence x)))),
      ("wrap", ⟨[.named "a"], .function a (.sequence a)⟩)]⟩ := rfl
  have inferred : infer t.typeEnv (.pipeline "wrap" ["nest", "wrap"]) =
      .ok (.function (.var (.fresh 5)) (.sequence (.sequence (.sequence (.var (.fresh 5)))))) := by
    simp only [env, a, x]
    cbv
  obtain ⟨i, ok, type⟩ := Infer.map_eq_ok.mp inferred
  obtain ⟨_, _, op, type', composed, input, output⟩ := compose_of_inferWith reachable isOperation ok 0
  obtain ⟨rfl, rfl⟩ := Ty.function.inj (type.symm.trans type')
  exact ⟨reachable, isOperation, i, op, ok, type, composed, input, output⟩

end OpCalculus
