import OpCalculus.Behaviour
import OpCalculus.Proofs.Operation.Execution

/-!
# Bracketings of a composition

Operations in a given order can be composed in many ways, one for each binary tree with the operations
at its leaves. Two trees may reject the same value at different nodes and so under different names. All
else depends on the leaves alone: whether the tree can be built (`build_eq_ok_iff`), what is known of
the result (`summarizes_of_build`), its values and the roots of its errors (`root_execute_build`).
-/

namespace OpCalculus

open Operation

/-- A way to compose operations in a given order. Every composition has a number. -/
inductive Bracketing where
  | single (op : Operation)
  | join (id : Nat) (first second : Bracketing)

namespace Bracketing

def operations : Bracketing → List Operation
  | single op => [op]
  | join _ first second => first.operations ++ second.operations

def build : Bracketing → Except ComposeError Operation
  | single op => .ok op
  | join id first second => do
      let f ← first.build
      let g ← second.build
      f.andThen id g

variable {b : Bracketing} {op : Operation}

theorem build_join_eq_ok {id : Nat} {first second : Bracketing} :
    (join id first second).build = .ok op ↔
      ∃ f g, first.build = .ok f ∧ second.build = .ok g ∧ f.andThen id g = .ok op := by
  simp only [build]
  cases first.build with
  | error e => simp [bind, Except.bind]
  | ok f =>
      cases second.build with
      | error e => simp [bind, Except.bind]
      | ok g => simp [bind, Except.bind]

theorem summarizes_of_build (h : b.build = .ok op) : Summarizes b.operations op := by
  induction b generalizing op with
  | single f =>
      cases h
      exact summarizes_singleton f
  | join id first second ihFirst ihSecond =>
      obtain ⟨f, g, hf, hg, ok⟩ := build_join_eq_ok.mp h
      exact (ihFirst hf).andThen (ihSecond hg) ok

theorem build_eq_ok_iff (b : Bracketing) :
    (∃ op, b.build = .ok op) ↔ b.operations.IsChain fun f g => f.output.flowsInto g.input := by
  induction b with
  | single f => simp [build, operations]
  | join id first second ihFirst ihSecond =>
      rw [operations, List.isChain_append, ← ihFirst, ← ihSecond]
      -- The types that meet at the node are those of the leaves on both sides of it.
      have meets {f g : Operation} (hf : first.build = .ok f) (hg : second.build = .ok g) :
          (∀ l ∈ first.operations.getLast?, ∀ r ∈ second.operations.head?, l.output.flowsInto r.input = true) ↔
            f.output.flowsInto g.input = true := by
        obtain ⟨last, hlast, output⟩ := (summarizes_of_build hf).exists_getLast
        obtain ⟨head, rest, hhead, input⟩ := (summarizes_of_build hg).exists_head
        simp [hlast, hhead, output, input]
      constructor
      · rintro ⟨op, h⟩
        obtain ⟨f, g, hf, hg, ok⟩ := build_join_eq_ok.mp h
        exact ⟨⟨f, hf⟩, ⟨g, hg⟩, (meets hf hg).mpr (andThen_eq_ok.mp ok).1⟩
      · rintro ⟨⟨f, hf⟩, ⟨g, hg⟩, flows⟩
        exact ⟨_, build_join_eq_ok.mpr ⟨f, g, hf, hg, andThen_eq_ok.mpr ⟨(meets hf hg).mp flows, rfl⟩⟩⟩

theorem root_execute_build (h : b.build = .ok op) (v : Value) :
    (op.execute v).mapError ExecError.root = (executeAll b.operations v).mapError ExecError.root := by
  induction b generalizing op v with
  | single f =>
      cases h
      rw [operations, executeAll_singleton]
  | join id first second ihFirst ihSecond =>
      obtain ⟨f, g, hf, hg, ok⟩ := build_join_eq_ok.mp h
      rw [operations, executeAll_append, root_execute_andThen ok]
      exact mapError_bind_congr (ihFirst hf v) (ihSecond hg)

theorem depth_of_execute_build (h : b.build = .ok op)
    (shallow : ∀ f ∈ b.operations, ∀ v e, f.executable.call v = .error e → e.depth ≤ 1)
    {v : Value} {e : ExecError} (failed : op.execute v = .error e) : e.depth = 1 := by
  induction b generalizing op v with
  | single f =>
      cases h
      cases execute_eq_error.mp failed with
      | rejected => rfl
      | failed _ _ bare => rw [ExecError.depth, bare]
      | attributed _ called =>
          have atMostOne := shallow f (by simp [operations]) v _ called
          rw [ExecError.depth] at atMostOne ⊢
          omega
  | join id first second ihFirst ihSecond =>
      obtain ⟨f, g, hf, hg, ok⟩ := build_join_eq_ok.mp h
      rw [execute_andThen ok] at failed
      split at failed
      · cases ran : f.execute v with
        | error e' =>
            simp only [sequentially, ran] at failed
            cases failed
            exact ihFirst hf (fun f hf => shallow f (List.mem_append_left _ hf)) ran
        | ok w =>
            simp only [sequentially, ran] at failed
            exact ihSecond hg (fun g hg => shallow g (List.mem_append_right _ hg)) failed
      · cases failed
        rfl

end Bracketing

/-- Whether operations compose, and into what, does not depend on how they are bracketed. Every
bracketing returns the values of running the operations one after the other and fails with the same
root, in an error that names one operation if no executable names several. -/
theorem bracketing_irrelevant (b : Bracketing) :
    ((∃ op, b.build = .ok op) ↔ b.operations.IsChain fun f g => f.output.flowsInto g.input) ∧
    ∀ op, b.build = .ok op →
      Summarizes b.operations op ∧
      (∀ v, (op.execute v).mapError ExecError.root =
        (executeAll b.operations v).mapError ExecError.root) ∧
      ((∀ f ∈ b.operations, ∀ v e, f.executable.call v = .error e → e.depth ≤ 1) →
        ∀ v e, op.execute v = .error e →
          ∃ name cause, e = .inOperation name cause ∧ cause.depth = 0) := by
  refine ⟨b.build_eq_ok_iff, fun op h => ⟨Bracketing.summarizes_of_build h,
    Bracketing.root_execute_build h, fun shallow v e failed => ?_⟩⟩
  have depth := Bracketing.depth_of_execute_build h shallow failed
  cases e with
  | inOperation name cause => exact ⟨name, cause, rfl, Nat.succ.inj depth⟩
  | _ => cases depth

-- What `f` returns is no boolean. On the left `g` rejects it, on the right the composition of `g` and `h`. The last
-- operation was made by transforming a composition and still counts as one.
theorem bracketing_irrelevant_rejected :
    let step (name : String) (call : Behaviour) : Operation :=
      { name, input := .bool, output := .bool, executable := ⟨0, call⟩ }
    let f := step "f" (.const (.string "x"))
    let g := step "g" .identity
    let h := { step "h" (.fail (.inOperation "inner" (.failed "no"))) with
      origin := .transformed { step "g >> g" .identity with origin := .composed g g } }
    let left := Bracketing.join 2 (.join 1 (.single f) (.single g)) (.single h)
    let right := Bracketing.join 2 (.single f) (.join 1 (.single g) (.single h))
    left.operations = right.operations ∧
      (∀ o ∈ left.operations, ∀ v e, o.executable.call v = .error e → e.depth ≤ 1) ∧
      ∃ l r, left.build = .ok l ∧ right.build = .ok r ∧
        Summarizes left.operations l ∧ Summarizes right.operations r ∧
        l.primitives = ["f", "g", "h"] ∧ r.primitives = ["f", "g", "h"] ∧
        l.execute (.bool true) = .error (.inOperation "g" (.rejected .bool (.string "x"))) ∧
        r.execute (.bool true) = .error (.inOperation "g >> h" (.rejected .bool (.string "x"))) ∧
        (r.execute (.bool true)).mapError ExecError.root =
          (executeAll right.operations (.bool true)).mapError ExecError.root ∧
        ∀ v e, r.execute v = .error e → ∃ name cause, e = .inOperation name cause ∧ cause.depth = 0 := by
  intro step f g h left right
  have shallow : ∀ o ∈ right.operations, ∀ v e, o.executable.call v = .error e → e.depth ≤ 1 := by
    simp [right, f, g, h, step, Bracketing.operations, Behaviour.const, Behaviour.identity, Behaviour.fail,
      ExecError.depth]
  have leaves : ∀ o ∈ right.operations, o.Uncomposed := by
    simp [right, f, g, h, step, Bracketing.operations, Uncomposed]
  have flows : Ty.bool.flowsInto .bool = true := by simp [Ty.flowsInto]
  have join {id : Nat} {b c : Bracketing} {p q : Operation} (hb : b.build = .ok p) (hc : c.build = .ok q)
      (flows : p.output.flowsInto q.input = true) : (Bracketing.join id b c).build = .ok _ :=
    Bracketing.build_join_eq_ok.mpr ⟨p, q, hb, hc, andThen_eq_ok.mpr ⟨flows, rfl⟩⟩
  have builtLeft : left.build = .ok _ := join (join rfl rfl flows) rfl flows
  have builtRight : right.build = .ok _ := join rfl (join rfl rfl flows) flows
  obtain ⟨-, onLeft⟩ := bracketing_irrelevant left
  obtain ⟨-, onRight⟩ := bracketing_irrelevant right
  obtain ⟨summaryLeft, -, -⟩ := onLeft _ builtLeft
  obtain ⟨summaryRight, roots, named⟩ := onRight _ builtRight
  exact ⟨rfl, shallow, _, _, builtLeft, builtRight, summaryLeft, summaryRight, summaryLeft.uncomposed leaves,
    summaryRight.uncomposed leaves, rfl, rfl, roots _, named shallow⟩

end OpCalculus
