import OpCalculus.Behaviour
import OpCalculus.Proofs.Operation.Execution
import OpCalculus.Proofs.Pipeline

/-!
# Pipelines of symbols run in sequence

Composing symbols by name fails at the first symbol that cannot follow those before it (`Obstacle`).
Otherwise the composition runs the operations of the symbols one after the other (`Follows.execute`),
errors included: only a value that the first operation rejects is rejected in the name of the whole
pipeline. Every other error names the symbol that failed, unless its executable named an operation
(`FailsAt`).
-/

namespace OpCalculus

open Operation

namespace SymbolTable

variable {t : SymbolTable} {id : Nat} {name : String} {names before : List String} {op f : Operation}
  {ops : List Operation} {e e' : PipelineError} {v : Value}

/-! ## Obstacles -/

/-- What keeps a symbol from following others in a pipeline. -/
inductive Obstacle (t : SymbolTable) (before : List String) (name : String) : PipelineError → Prop
  | unknown : t.get? name = none → Obstacle t before name (.unknown ⟨name⟩)
  | notAnOperation {d : SymbolDefinition} : t.get? name = some d → (∀ a b, d.ty ≠ .function a b) →
      Obstacle t before name (.compose (.notAnOperation name d.ty))
  | incompatible {previous : String} {c d : SymbolDefinition} {a output input b : Ty} :
      before.getLast? = some previous → t.get? previous = some c → c.ty = .function a output →
      t.get? name = some d → d.ty = .function input b → output.flowsInto input = false →
      Obstacle t before name (.compose (.composition (Text.joined " >> " before) name output input))

def Unobstructed (t : SymbolTable) (names : List String) : Prop :=
  ∀ before name after, names = before ++ name :: after → ∀ e, ¬ t.Obstacle before name e

def FirstObstacle (t : SymbolTable) (names : List String) (e : PipelineError) : Prop :=
  ∃ before name after, names = before ++ name :: after ∧ t.Unobstructed before ∧ t.Obstacle before name e

theorem unobstructed_nil : t.Unobstructed [] := by
  intro before name after h
  simp at h

theorem unobstructed_concat : t.Unobstructed (names ++ [name]) ↔
    t.Unobstructed names ∧ ∀ e, ¬ t.Obstacle names name e := by
  constructor
  · intro h
    refine ⟨fun before n after split => h before n (after ++ [name]) ?_, h names name [] rfl⟩
    simp [split]
  · rintro ⟨earlier, last⟩ before n after split
    rcases List.eq_nil_or_concat after with rfl | ⟨after, m, rfl⟩
    · obtain ⟨rfl, same⟩ := List.append_inj' split rfl
      cases same
      exact last
    · rw [List.concat_eq_append, ← List.cons_append, ← List.append_assoc] at split
      exact earlier before n after (List.append_inj' split rfl).1

theorem Obstacle.unique (h : t.Obstacle before name e) (h' : t.Obstacle before name e') : e = e' := by
  cases h <;> cases h' <;> simp_all

theorem FirstObstacle.unique (h : t.FirstObstacle names e) (h' : t.FirstObstacle names e') : e = e' := by
  obtain ⟨before, name, after, rfl, clear, obstacle⟩ := h
  obtain ⟨before', name', after', same, clear', obstacle'⟩ := h'
  -- A longer prefix would contain the obstacle at the end of the shorter one.
  rcases List.append_eq_append_iff.mp same with ⟨more, rfl, tail⟩ | ⟨more, rfl, tail⟩
  · cases more with
    | nil =>
        cases tail
        rw [List.append_nil] at obstacle'
        exact obstacle.unique obstacle'
    | cons x more =>
        cases tail
        exact absurd obstacle (clear' before name more rfl e)
  · cases more with
    | nil =>
        cases tail
        rw [List.append_nil] at obstacle
        exact obstacle.unique obstacle'
    | cons x more =>
        cases tail
        exact absurd obstacle' (clear before' name' more rfl e')

/-! ## The operation of a symbol -/

theorem asFunction?_eq_some {ty a b : Ty} : ty.asFunction? = some (a, b) ↔ ty = .function a b := by
  cases ty <;> simp [Ty.asFunction?]

theorem exists_of_operation (h : t.operation name = .ok f) :
    ∃ d, t.get? name = some d ∧ d.ty = .function f.input f.output ∧ f.name = name := by
  cases found : t.get? name with
  | none => simp [operation, found] at h
  | some d =>
      cases type : d.ty.asFunction? with
      | none => simp [operation, found, ofSymbol, type, Except.mapError] at h
      | some sides =>
          simp only [operation, found, ofSymbol, type, Except.mapError, Except.ok.injEq] at h
          subst h
          exact ⟨d, rfl, asFunction?_eq_some.mp type, name_of_get? found⟩

theorem obstacle_of_operation (h : t.operation name = .error e) (before : List String) :
    t.Obstacle before name e := by
  cases found : t.get? name with
  | none =>
      simp only [operation, found, Except.error.injEq] at h
      exact h ▸ .unknown found
  | some d =>
      cases type : d.ty.asFunction? with
      | none =>
          simp only [operation, found, ofSymbol, type, Except.mapError, Except.error.injEq] at h
          rw [name_of_get? found] at h
          refine h ▸ .notAnOperation found fun a b function => ?_
          rw [asFunction?_eq_some.mpr function] at type
          cases type
      | some sides => simp [operation, found, ofSymbol, type, Except.mapError] at h

theorem not_obstacle_of_operation (h : t.operation name = .ok f) :
    ¬ t.Obstacle [] name e := by
  obtain ⟨d, found, type, -⟩ := exists_of_operation h
  intro obstacle
  cases obstacle <;> simp_all

/-! ## Composition -/

/-- The operations of symbols, in order. -/
abbrev Operations (t : SymbolTable) : List String → List Operation → Prop :=
  List.Forall₂ fun name f => t.operation name = .ok f

theorem map_name_of_operations (h : t.Operations names ops) : ops.map (·.name) = names := by
  induction h with
  | nil => rfl
  | cons found _ ih =>
      obtain ⟨-, -, -, named⟩ := exists_of_operation found
      simp [named, ih]

theorem exists_getLast_of_operations (h : t.Operations names ops) (last : ops.getLast? = some f) :
    ∃ name, names.getLast? = some name ∧ t.operation name = .ok f := by
  have reversed := List.forall₂_reverse_iff.mpr h
  rw [← List.head?_reverse] at last ⊢
  generalize names.reverse = names, ops.reverse = ops at reversed last
  cases reversed with
  | nil => cases last
  | cons found _ =>
      cases last
      exact ⟨_, rfl, found⟩

/-- The operation composes those of the symbols and runs them in sequence. -/
structure Follows (t : SymbolTable) (names : List String) (ops : List Operation) (op : Operation) :
    Prop where
  operations : t.Operations names ops
  summarizes : Summarizes ops op
  execute : ∀ v, op.input.accepts v = true → op.execute v = executeAll ops v

theorem Follows.name_eq (h : t.Follows names ops op) : op.name = Text.joined " >> " names := by
  rw [h.summarizes.name, map_name_of_operations h.operations]

theorem Follows.exists_previous (h : t.Follows names ops op) :
    ∃ previous c a, names.getLast? = some previous ∧ t.get? previous = some c ∧
      c.ty = .function a op.output := by
  obtain ⟨f, last, output⟩ := h.summarizes.exists_getLast
  obtain ⟨previous, last', found⟩ := exists_getLast_of_operations h.operations last
  obtain ⟨c, found, type, -⟩ := exists_of_operation found
  exact ⟨previous, c, f.input, last', found, output ▸ type⟩

theorem follows_singleton (h : t.operation name = .ok f) : t.Follows [name] [f] f where
  operations := .cons h .nil
  summarizes := summarizes_singleton f
  execute v _ := by rw [executeAll_singleton]

theorem Follows.concat {op' : Operation} (h : t.Follows names ops op) (found : t.operation name = .ok f)
    (ok : op.andThen id f = .ok op') : t.Follows (names ++ [name]) (ops ++ [f]) op' where
  operations := List.rel_append h.operations (.cons found .nil)
  summarizes := h.summarizes.andThen (summarizes_singleton f) ok
  execute v accepted := by
    obtain ⟨-, rfl⟩ := andThen_eq_ok.mp ok
    rw [execute_andThen ok, if_pos accepted, executeAll_append, executeAll_singleton, ← h.execute v accepted]
    rfl

theorem Follows.obstacle_iff (h : t.Follows names ops op) (found : t.operation name = .ok f) :
    t.Obstacle names name e ↔ op.output.flowsInto f.input = false ∧
      e = .compose (.composition op.name f.name op.output f.input) := by
  obtain ⟨previous, c, a, last, known, output⟩ := h.exists_previous
  obtain ⟨d, known', type, named⟩ := exists_of_operation found
  rw [h.name_eq, named]
  constructor
  · intro obstacle
    cases obstacle <;> simp_all
  · rintro ⟨clash, rfl⟩
    exact .incompatible last known output known' type clash

theorem compose_cons_concat (t : SymbolTable) (id : Nat) (first : String) (rest : List String)
    (last : String) :
    t.compose id (first :: (rest ++ [last])) = (do
      let op ← t.compose id (first :: rest)
      let next ← t.operation last
      (op.andThen (id + rest.length) next).mapError .compose) := by
  simp only [compose, composeFrom_concat, bind_assoc]

-- By induction from the right, as the pipeline grows: the last symbol meets the composition of the others.
theorem compose_cases (t : SymbolTable) (id : Nat) (first : String) (rest : List String) :
    (∃ op ops, t.compose id (first :: rest) = .ok op ∧ t.Unobstructed (first :: rest) ∧
      t.Follows (first :: rest) ops op) ∨
    ∃ e, t.compose id (first :: rest) = .error e ∧ t.FirstObstacle (first :: rest) e := by
  induction rest using List.reverseRecOn with
  | nil =>
      have alone : t.compose id [first] = t.operation first := bind_pure (t.operation first)
      rw [alone]
      cases found : t.operation first with
      | ok f =>
          refine .inl ⟨f, [f], rfl, ?_, follows_singleton found⟩
          exact unobstructed_concat.mpr ⟨unobstructed_nil, fun e => not_obstacle_of_operation found⟩
      | error e =>
          exact .inr ⟨e, rfl, [], first, [], rfl, unobstructed_nil, obstacle_of_operation found []⟩
  | append_singleton rest last ih =>
      rw [compose_cons_concat, ← List.cons_append]
      obtain ⟨op, ops, composed, clear, follows⟩ | ⟨e, failed, before, name, after, split, clear, obstacle⟩ := ih
      · rw [composed]
        cases found : t.operation last with
        | error e =>
            exact .inr ⟨e, rfl, first :: rest, last, [], rfl, clear, obstacle_of_operation found _⟩
        | ok f =>
            cases flows : op.output.flowsInto f.input with
            | true =>
                obtain ⟨op', ok, -, -⟩ := exists_andThen flows (id + rest.length)
                refine .inl ⟨op', ops ++ [f], ?_, unobstructed_concat.mpr ⟨clear, fun e obstacle => ?_⟩,
                  follows.concat found ok⟩
                · show (op.andThen (id + rest.length) f).mapError PipelineError.compose = .ok op'
                  rw [ok]
                  rfl
                · simp [(follows.obstacle_iff found).mp obstacle] at flows
            | false =>
                refine .inr ⟨_, ?_, first :: rest, last, [], rfl, clear,
                  (follows.obstacle_iff found).mpr ⟨flows, rfl⟩⟩
                show (op.andThen (id + rest.length) f).mapError PipelineError.compose = .error _
                rw [andThen, if_neg (by simp [flows])]
                rfl
      · rw [failed]
        exact .inr ⟨e, rfl, before, name, after ++ [last], by simp [split], clear, obstacle⟩

theorem compose_eq_error_iff (t : SymbolTable) (id : Nat) (first : String) (rest : List String) :
    t.compose id (first :: rest) = .error e ↔ t.FirstObstacle (first :: rest) e := by
  obtain ⟨op, ops, composed, clear, -⟩ | ⟨e', failed, obstacle⟩ := t.compose_cases id first rest
  · rw [composed]
    constructor
    · intro h
      cases h
    · rintro ⟨before, name, after, split, -, obstacle⟩
      exact absurd obstacle (clear before name after split e)
  · rw [failed, Except.error.injEq]
    constructor
    · rintro rfl
      exact obstacle
    · exact obstacle.unique

theorem exists_follows_of_compose (h : t.compose id names = .ok op) : ∃ ops, t.Follows names ops op := by
  cases names with
  | nil => cases h
  | cons first rest =>
      obtain ⟨op', ops, composed, -, follows⟩ | ⟨e, failed, -⟩ := t.compose_cases id first rest
      · cases h.symm.trans composed
        exact ⟨ops, follows⟩
      · cases h.symm.trans failed

/-! ## Failures -/

/-- Running the symbols in sequence fails at one of them: those before it return a value on which it fails, in its
own name unless its executable named an operation. -/
def FailsAt (t : SymbolTable) (names : List String) (v : Value) (e : ExecError) : Prop :=
  ∃ before name after ops w f, names = before ++ name :: after ∧ t.Operations before ops ∧
    executeAll ops v = .ok w ∧ t.operation name = .ok f ∧ f.name = name ∧ f.FailsWith w e

theorem failsAt_of_executeAll {e : ExecError} (h : t.Operations names ops)
    (failed : executeAll ops v = .error e) : t.FailsAt names v e := by
  induction h generalizing v with
  | nil => cases failed
  | @cons name f names ops found operations ih =>
      obtain ⟨-, -, -, named⟩ := exists_of_operation found
      rw [executeAll_cons] at failed
      cases ran : f.execute v with
      | error e' =>
          rw [ran] at failed
          cases failed
          exact ⟨[], name, names, [], v, f, rfl, .nil, rfl, found, named, execute_eq_error.mp ran⟩
      | ok w =>
          rw [ran] at failed
          obtain ⟨before, name', after, prior, u, g, rfl, priorFound, priorRan, rest⟩ := ih failed
          refine ⟨name :: before, name', after, f :: prior, u, g, rfl, .cons found priorFound, ?_, rest⟩
          rw [executeAll_cons, ran]
          exact priorRan

theorem executeAll_of_failsAt {e : ExecError} (h : t.Operations names ops) (fails : t.FailsAt names v e) :
    executeAll ops v = .error e := by
  obtain ⟨before, name, after, prior, w, f, rfl, priorFound, priorRan, found, -, fails⟩ := fails
  induction priorFound generalizing ops v with
  | nil =>
      obtain _ | @⟨_, g, _, _, same, _⟩ := h
      cases found.symm.trans same
      cases priorRan
      rw [executeAll_cons, execute_eq_error.mpr fails]
      rfl
  | @cons first g before prior found' _ ih =>
      obtain _ | @⟨_, g', _, _, same, operations⟩ := h
      cases found'.symm.trans same
      rw [executeAll_cons] at priorRan ⊢
      cases ran : g.execute v with
      | error e' =>
          rw [ran] at priorRan
          cases priorRan
      | ok u =>
          rw [ran] at priorRan
          exact ih operations priorRan

end SymbolTable

/-- Symbols compose unless one of them cannot follow the others, and the first such symbol gives the error.
The composition rejects what its first symbol does not accept and otherwise runs the symbols in sequence. -/
theorem compose_runs_symbols_in_sequence (t : SymbolTable) (id : Nat) (names : List String) :
    t.compose id [] = .error .emptyPipeline ∧
    (names ≠ [] → ∀ e, t.compose id names = .error e ↔ t.FirstObstacle names e) ∧
    ∀ op, t.compose id names = .ok op → ∃ first rest, t.Operations names (first :: rest) ∧ ∀ v,
      (first.input.accepts v = false →
        op.execute v = .error (.inOperation (Text.joined " >> " names) (.rejected first.input v))) ∧
      (first.input.accepts v = true → op.execute v = executeAll (first :: rest) v ∧
        ∀ e, op.execute v = .error e ↔ t.FailsAt names v e) := by
  refine ⟨rfl, fun nonempty e => ?_, fun op h => ?_⟩
  · obtain ⟨first, rest, rfl⟩ := List.exists_cons_of_ne_nil nonempty
    exact t.compose_eq_error_iff id first rest
  · obtain ⟨ops, follows⟩ := SymbolTable.exists_follows_of_compose h
    obtain ⟨first, rest, rfl, input⟩ := follows.summarizes.exists_head
    refine ⟨first, rest, follows.operations, fun v => ?_⟩
    rw [input, ← follows.name_eq]
    refine ⟨execute_of_rejected, fun accepted => ⟨follows.execute v accepted, fun e => ?_⟩⟩
    rw [follows.execute v accepted]
    exact ⟨SymbolTable.failsAt_of_executeAll follows.operations,
      SymbolTable.executeAll_of_failsAt follows.operations⟩

-- What `read` returns is no boolean, so that `check` rejects it in its own name. The executable of `deny` fails with
-- a bare error, that of `relay` with one that names an operation.
theorem compose_runs_symbols_in_sequence_failing :
    let define (name : String) (ty : Ty) (call : Behaviour) : SymbolDefinition :=
      { name, level := 0, scheme := .mono ty, executable := ⟨0, call⟩ }
    let t := (Registry.run
      [.register (define "read" (.function .string .bool) (.const (.string "x"))),
        .register (define "parse" (.function .string .bool) (.const (.bool true))),
        .register (define "check" (.function .bool .bool) .identity),
        .register (define "deny" (.function .bool .bool) (.fail (.failed "no"))),
        .register (define "relay" (.function .bool .bool) (.fail (.inOperation "inner" (.failed "no"))))]).table
    let fails (names : List String) (v : Value) (e : ExecError) : Prop :=
      names ≠ [] ∧ (∀ e, t.compose 0 names = .error e ↔ t.FirstObstacle names e) ∧
        ∃ op, t.compose 0 names = .ok op ∧ op.execute v = .error e ∧ t.FailsAt names v e
    (∃ op, t.compose 0 ["read", "check"] = .ok op ∧
      op.execute (.bool true) = .error (.inOperation "read >> check" (.rejected .string (.bool true)))) ∧
      fails ["read", "check"] (.string "true") (.inOperation "check" (.rejected .bool (.string "x"))) ∧
      fails ["parse", "deny"] (.string "true") (.inOperation "deny" (.failed "no")) ∧
      fails ["parse", "relay"] (.string "true") (.inOperation "inner" (.failed "no")) := by
  intro define t fails
  have flows : Ty.bool.flowsInto .bool = true := by simp [Ty.flowsInto]
  have composes {first second : String} {f g : Operation} (foundFirst : t.operation first = .ok f)
      (foundSecond : t.operation second = .ok g) (flows : f.output.flowsInto g.input = true) :
      ∃ op, t.compose 0 [first, second] = .ok op := by
    have alone : t.compose 0 [first] = .ok f := (bind_pure (t.operation first)).trans foundFirst
    obtain ⟨op, composed, -, -⟩ := SymbolTable.compose_concat alone foundSecond flows
    exact ⟨op, composed⟩
  have failing {first second : String} {f g : Operation} {v : Value} {e : ExecError}
      (foundFirst : t.operation first = .ok f) (foundSecond : t.operation second = .ok g)
      (flows : f.output.flowsInto g.input = true) (accepted : f.input.accepts v = true)
      (ran : executeAll [f, g] v = .error e) : fails [first, second] v e := by
    obtain ⟨op, composed⟩ := composes foundFirst foundSecond flows
    obtain ⟨-, errors, runs⟩ := compose_runs_symbols_in_sequence t 0 [first, second]
    obtain ⟨f', rest, operations, executes⟩ := runs op composed
    obtain _ | @⟨_, _, _, _, sameFirst, _ | @⟨_, g', _, _, sameSecond, _ | _⟩⟩ := operations
    cases foundFirst.symm.trans sameFirst
    cases foundSecond.symm.trans sameSecond
    obtain ⟨sequence, attributed⟩ := (executes v).2 accepted
    have failed : op.execute v = .error e := sequence.trans ran
    exact ⟨by simp, errors (by simp), op, composed, failed, (attributed e).mp failed⟩
  refine ⟨?_, failing rfl rfl flows rfl rfl, failing rfl rfl flows rfl rfl, failing rfl rfl flows rfl rfl⟩
  obtain ⟨op, composed⟩ : ∃ op, t.compose 0 ["read", "check"] = .ok op := composes rfl rfl flows
  obtain ⟨first, rest, operations, executes⟩ :=
    (compose_runs_symbols_in_sequence t 0 ["read", "check"]).2.2 op composed
  obtain _ | ⟨found, _⟩ := operations
  cases found
  exact ⟨op, composed, (executes (.bool true)).1 rfl⟩

end OpCalculus
