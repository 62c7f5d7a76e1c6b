import Mathlib
import OpCalculus.Operation.Basic

/-!
# Execution of compositions

A composition checks its input under its own name and passes on the errors of its parts, which name an
operation already (`execute_andThen`). Up to the names of errors it runs its parts one after the other
(`root_execute_andThen`).
-/

namespace OpCalculus

/-! ## Errors -/

namespace ExecError

/-- The number of operations that an error names. -/
def depth : ExecError → Nat
  | inOperation _ cause => cause.depth + 1
  | _ => 0

end ExecError

/-! ## Names -/

namespace Text

theorem joined_cons (separator item : String) {l : List String} (h : l ≠ []) :
    joined separator (item :: l) = item ++ separator ++ joined separator l := by
  cases l with
  | nil => exact absurd rfl h
  | cons next rest => rfl

theorem joined_append (separator : String) {l m : List String} (hl : l ≠ []) (hm : m ≠ []) :
    joined separator (l ++ m) = joined separator l ++ separator ++ joined separator m := by
  induction l with
  | nil => exact absurd rfl hl
  | cons item rest ih =>
      cases rest with
      | nil => exact joined_cons separator item hm
      | cons next rest =>
          rw [List.cons_append, joined_cons _ _ (by simp), joined_cons _ _ (by simp), ih (by simp)]
          simp only [String.append_assoc]

end Text

namespace Operation

variable {first second op : Operation} {ops : List Operation} {id : Nat} {v w : Value} {e : ExecError}

/-! ## Execution -/

/-- Runs operations one after the other until the first error. -/
def executeAll (ops : List Operation) : Behaviour := fun v => ops.foldlM (fun v op => op.execute v) v

theorem executeAll_append (ops ops' : List Operation) (v : Value) :
    executeAll (ops ++ ops') v = (executeAll ops v >>= executeAll ops') :=
  List.foldlM_append

theorem executeAll_cons (op : Operation) (ops : List Operation) (v : Value) :
    executeAll (op :: ops) v = (op.execute v >>= executeAll ops) :=
  List.foldlM_cons

theorem executeAll_singleton (op : Operation) : executeAll [op] = op.execute := by
  funext v
  simp [executeAll]

theorem execute_of_rejected (h : op.input.accepts v = false) :
    op.execute v = .error (.inOperation op.name (.rejected op.input v)) := by
  simp [execute, h]

/-- How an operation fails on a value. It rejects the value or its executable fails, both in its own name, or its
executable fails with an error that names an operation already. -/
inductive FailsWith (op : Operation) (v : Value) : ExecError → Prop
  | rejected : op.input.accepts v = false → FailsWith op v (.inOperation op.name (.rejected op.input v))
  | failed {cause : ExecError} : op.input.accepts v = true → op.executable.call v = .error cause →
      cause.depth = 0 → FailsWith op v (.inOperation op.name cause)
  | attributed {inner : String} {cause : ExecError} : op.input.accepts v = true →
      op.executable.call v = .error (.inOperation inner cause) → FailsWith op v (.inOperation inner cause)

theorem execute_of_call_error {cause : ExecError} (accepted : op.input.accepts v = true)
    (called : op.executable.call v = .error cause) : op.execute v = .error (cause.attributedTo op.name) := by
  simp only [execute, accepted, called, if_true, Except.mapError]

theorem execute_eq_error : op.execute v = .error e ↔ op.FailsWith v e := by
  constructor
  · intro h
    cases accepted : op.input.accepts v with
    | false =>
        rw [execute_of_rejected accepted] at h
        cases h
        exact .rejected accepted
    | true =>
        cases called : op.executable.call v with
        | ok w => simp [execute, accepted, called, Except.mapError] at h
        | error cause =>
            rw [execute_of_call_error accepted called] at h
            cases h
            cases cause with
            | inOperation inner cause => exact .attributed accepted called
            | _ => exact .failed accepted called rfl
  · intro h
    cases h with
    | rejected refused => exact execute_of_rejected refused
    | @failed cause accepted called bare =>
        rw [execute_of_call_error accepted called]
        cases cause with
        | inOperation => cases bare
        | _ => rfl
    | attributed accepted called => exact execute_of_call_error accepted called

theorem attributedTo_of_execute (name : String) (h : op.execute v = .error e) :
    e.attributedTo name = e := by
  cases execute_eq_error.mp h <;> rfl

-- Both parts have named their errors, so the composition passes them on as they are.
theorem mapError_sequentially (name : String) (first second : Operation) (v : Value) :
    (first.sequentially second v).mapError (.attributedTo name) = first.sequentially second v := by
  unfold sequentially
  cases ran : first.execute v with
  | error e => exact congrArg Except.error (attributedTo_of_execute name ran)
  | ok w =>
      show (second.execute w).mapError (.attributedTo name) = second.execute w
      cases ran : second.execute w with
      | error e => exact congrArg Except.error (attributedTo_of_execute name ran)
      | ok u => rfl

theorem andThen_eq_ok : first.andThen id second = .ok op ↔
    first.output.flowsInto second.input = true ∧ op = {
      name := first.name ++ " >> " ++ second.name
      input := first.input
      output := second.output
      executable := ⟨id, first.sequentially second⟩
      pure := first.pure && second.pure
      level := max first.level second.level
      complexity := first.combinedComplexity second
      origin := .composed first second } := by
  unfold andThen
  split
  · simp [*, eq_comm]
  · simp [*]

theorem execute_andThen (h : first.andThen id second = .ok op) (v : Value) :
    op.execute v = if first.input.accepts v then first.sequentially second v
      else .error (.inOperation op.name (.rejected first.input v)) := by
  obtain ⟨-, rfl⟩ := andThen_eq_ok.mp h
  simp only [execute, mapError_sequentially]

theorem mapError_bind_congr {x x' : Except ExecError Value} {k k' : Behaviour}
    (hx : x.mapError ExecError.root = x'.mapError ExecError.root)
    (hk : ∀ v, (k v).mapError ExecError.root = (k' v).mapError ExecError.root) :
    (x >>= k).mapError ExecError.root = (x' >>= k').mapError ExecError.root := by
  cases x with
  | ok v =>
      cases x' with
      | ok v' =>
          cases hx
          exact hk v
      | error e => cases hx
  | error e =>
      cases x' with
      | ok v' => cases hx
      | error e' => exact hx

-- A composition rejects a value under its own name, its first part under another: the root is the same.
theorem root_execute_andThen (h : first.andThen id second = .ok op) (v : Value) :
    (op.execute v).mapError ExecError.root =
      (first.execute v >>= second.execute).mapError ExecError.root := by
  rw [execute_andThen h]
  cases accepted : first.input.accepts v with
  | true => rfl
  | false =>
      rw [execute_of_rejected accepted]
      rfl

/-! ## What is known of a composition -/

/-- The operation is a primitive or was made by transforming another. -/
def Uncomposed (op : Operation) : Prop := ∀ first second, op.origin ≠ .composed first second

theorem primitives_of_uncomposed (h : op.Uncomposed) : op.primitives = [op.name] := by
  obtain ⟨name, input, output, executable, pure, level, complexity, origin⟩ := op
  cases origin with
  | primitive | transformed source => rw [primitives]
  | composed first second => exact absurd rfl (h first second)

/-- The operation has the name, types, level, purity and primitives of the operations in sequence. Operations that are
no compositions are primitives of it themselves. -/
structure Summarizes (ops : List Operation) (op : Operation) : Prop where
  name : op.name = Text.joined " >> " (ops.map (·.name))
  input : ops.head?.map (·.input) = some op.input
  output : ops.getLast?.map (·.output) = some op.output
  level : (ops.map (·.level)).max? = some op.level
  pure : op.pure = ops.all (·.pure)
  primitives : op.primitives = ops.flatMap primitives
  uncomposed : (∀ f ∈ ops, f.Uncomposed) → op.primitives = ops.map (·.name)

theorem summarizes_singleton (op : Operation) : Summarizes [op] op where
  name := by simp [Text.joined]
  input := rfl
  output := rfl
  level := rfl
  pure := by simp
  primitives := by simp
  uncomposed h := primitives_of_uncomposed (h op (List.mem_singleton_self op))

theorem Summarizes.ne_nil (h : Summarizes ops op) : ops ≠ [] := by
  rintro rfl
  cases h.input

theorem Summarizes.exists_head (h : Summarizes ops op) :
    ∃ f rest, ops = f :: rest ∧ f.input = op.input := by
  cases ops with
  | nil => cases h.input
  | cons f rest => exact ⟨f, rest, rfl, Option.some.inj h.input⟩

theorem Summarizes.exists_getLast (h : Summarizes ops op) :
    ∃ f, ops.getLast? = some f ∧ f.output = op.output :=
  Option.map_eq_some_iff.mp h.output

theorem Summarizes.andThen {ops' : List Operation} (h : Summarizes ops first)
    (h' : Summarizes ops' second) (ok : first.andThen id second = .ok op) :
    Summarizes (ops ++ ops') op := by
  obtain ⟨-, rfl⟩ := andThen_eq_ok.mp ok
  refine ⟨?_, ?_, ?_, ?_, ?_, ?_, fun leaves => ?_⟩
  · rw [List.map_append, Text.joined_append _ (by simpa using h.ne_nil) (by simpa using h'.ne_nil),
      ← h.name, ← h'.name]
  · simp [List.head?_append, Option.map_or, h.input]
  · simp [List.getLast?_append, Option.map_or, h'.output]
  · obtain ⟨mem, le⟩ := List.max?_eq_some_iff.mp h.level
    obtain ⟨mem', le'⟩ := List.max?_eq_some_iff.mp h'.level
    rw [List.map_append, List.max?_eq_some_iff]
    refine ⟨?_, fun n hn => ?_⟩
    · rcases Nat.le_total first.level second.level with le | le
      · rw [Nat.max_eq_right le]
        exact List.mem_append_right _ mem'
      · rw [Nat.max_eq_left le]
        exact List.mem_append_left _ mem
    · rcases List.mem_append.mp hn with hn | hn
      · exact Nat.le_trans (le n hn) (Nat.le_max_left _ _)
      · exact Nat.le_trans (le' n hn) (Nat.le_max_right _ _)
  · simp [h.pure, h'.pure]
  · rw [List.flatMap_append, ← h.primitives, ← h'.primitives]
    rfl
  · obtain ⟨left, right⟩ := List.forall_mem_append.mp leaves
    rw [List.map_append, ← h.uncomposed left, ← h'.uncomposed right]
    rfl

end Operation

end OpCalculus
