import OpCalculus.Proofs.Conformance
import OpCalculus.Proofs.Flow
import OpCalculus.Proofs.Operation.Bracketing

/-!
# Operations at instances of their types

A type variable takes every value and flows both ways. So a declared type accepts what any of its instances
accepts (`accepts_of_bind`), and two declared types flow where instances of them do. A composition that can
be built from operations at instances of their types can be built at the declared types, and does there what
it does at the instances unless these refuse a value (`Narrows.andThen`).
-/

namespace OpCalculus

open Operation

namespace Ty

variable {a t : Ty} {f : TypeVar → Ty} {v : Value}

theorem element?_bind (h : t.element? = some a) : (t.bind f).element? = some (a.bind f) := by
  cases t with
  | scalar | function | var | strategy => cases h
  | vector | matrix | tensor | sequence =>
      cases h
      rfl

theorem hasDimensions_bind (h : t.element? = some a) : (t.bind f).HasDimensions v ↔ t.HasDimensions v := by
  cases t with
  | scalar | function | var | strategy => cases h
  | vector | matrix | tensor | sequence => cases v <;> exact Iff.rfl

theorem accepts_container_of_bind (h : t.element? = some a)
    (elements : ∀ w, (a.bind f).accepts w = true → a.accepts w = true)
    (accepted : (t.bind f).accepts v = true) : t.accepts v = true := by
  obtain ⟨dimensions, fits⟩ := (accepts_iff_of_element? (element?_bind h)).mp accepted
  exact (accepts_iff_of_element? h).mpr
    ⟨(hasDimensions_bind h).mp dimensions, fun w hw => elements w (fits w hw)⟩

theorem accepts_of_bind (h : (t.bind f).accepts v = true) : t.accepts v = true := by
  induction t generalizing v with
  | scalar kind => exact h
  | var x => rw [accepts]
  | vector _ _ ih | matrix _ _ _ ih | tensor _ _ ih | sequence _ ih =>
      exact accepts_container_of_bind rfl (fun _ => ih) h
  | function input output => cases v <;> cases h
  | strategy state action ihState ihAction =>
      cases v with
      | strategy s c =>
          obtain ⟨inState, inAction⟩ := Bool.and_eq_true_iff.mp h
          exact Bool.and_eq_true_iff.mpr ⟨ihState inState, ihAction inAction⟩
      | _ => cases h

end Ty

namespace Operation

/-- The operation at instances of its input and output. -/
def specialize (s : Substitution) (op : Operation) : Operation :=
  { op with input := s.apply op.input, output := s.apply op.output }

/-- Some operation did not take the value it was given. -/
def Refused (r : Except ExecError Value) : Prop := ∃ e expected found, r = .error e ∧ e.root = .rejected expected found

/-- The first operation has instances of the types of the second one, and does the same unless it refuses a
value. -/
structure Narrows (narrow op : Operation) : Prop where
  input : ∃ s : Substitution, narrow.input = s.apply op.input
  output : ∃ s : Substitution, narrow.output = s.apply op.output
  outcome : ∀ v, op.execute v = narrow.execute v ∨ Refused (narrow.execute v)

variable {op f g f' g' c' : Operation} {s : Substitution} {id : Nat} {v : Value}

theorem execute_specialize (h : (s.apply op.input).accepts v = true) :
    op.execute v = (op.specialize s).execute v := by
  have declared : op.input.accepts v = true := Ty.accepts_of_bind h
  simp [execute, specialize, declared, h]

theorem narrows_specialize (s : Substitution) (op : Operation) : (op.specialize s).Narrows op where
  input := ⟨s, rfl⟩
  output := ⟨s, rfl⟩
  outcome v := by
    cases accepted : (s.apply op.input).accepts v with
    | true => exact .inl (execute_specialize accepted)
    | false => exact .inr ⟨_, _, _, execute_of_rejected accepted, rfl⟩

theorem Narrows.accepts (h : f'.Narrows f) (accepted : f'.input.accepts v = true) : f.input.accepts v = true := by
  obtain ⟨s, input⟩ := h.input
  rw [input] at accepted
  exact Ty.accepts_of_bind accepted

theorem Narrows.sequentially (hf : f'.Narrows f) (hg : g'.Narrows g) (v : Value) :
    f.sequentially g v = f'.sequentially g' v ∨ Refused (f'.sequentially g' v) := by
  unfold Operation.sequentially
  rcases hf.outcome v with same | ⟨e, expected, found, ran, root⟩
  · rw [same]
    cases f'.execute v with
    | error e => exact .inl rfl
    | ok w => exact hg.outcome w
  · rw [ran]
    exact .inr ⟨e, expected, found, rfl, root⟩

theorem Narrows.andThen (hf : f'.Narrows f) (hg : g'.Narrows g) (h : f'.andThen id g' = .ok c') :
    ∃ c, f.andThen id g = .ok c ∧ c'.Narrows c := by
  obtain ⟨flows, rfl⟩ := andThen_eq_ok.mp h
  obtain ⟨s, output⟩ := hf.output
  obtain ⟨s', input⟩ := hg.input
  rw [output, input, Ty.flowsInto_iff] at flows
  have composed : f.andThen id g = .ok _ := andThen_eq_ok.mpr ⟨Ty.flowsInto_of_flows_bind flows, rfl⟩
  refine ⟨_, composed, hf.input, hg.output, fun v => ?_⟩
  rw [execute_andThen composed, execute_andThen h]
  cases accepted : f'.input.accepts v with
  | true =>
      rw [if_pos (hf.accepts accepted)]
      exact hf.sequentially hg v
  | false => exact .inr ⟨_, _, _, rfl, rfl⟩

end Operation

namespace Bracketing

/-- The same composition with each operation at instances of its types. -/
inductive Specializes : Bracketing → Bracketing → Prop
  | single (s : Substitution) (op : Operation) : Specializes (.single (op.specialize s)) (.single op)
  | join {id : Nat} {b c b' c' : Bracketing} :
      Specializes b' b → Specializes c' c → Specializes (.join id b' c') (.join id b c)

theorem Specializes.exists_build {b b' : Bracketing} {op' : Operation} (h : Specializes b' b)
    (built : b'.build = .ok op') : ∃ op, b.build = .ok op ∧ op'.Narrows op := by
  induction h generalizing op' with
  | single s op =>
      cases built
      exact ⟨op, rfl, narrows_specialize s op⟩
  | join _ _ ihFirst ihSecond =>
      obtain ⟨f', g', hf, hg, ok⟩ := build_join_eq_ok.mp built
      obtain ⟨f, builtFirst, narrowsFirst⟩ := ihFirst hf
      obtain ⟨g, builtSecond, narrowsSecond⟩ := ihSecond hg
      obtain ⟨op, composed, narrows⟩ := narrowsFirst.andThen narrowsSecond ok
      exact ⟨op, build_join_eq_ok.mpr ⟨f, g, builtFirst, builtSecond, composed⟩, narrows⟩

end Bracketing

/-- Variables only widen what is accepted. A type accepts the values of its instances, and types flow where
their instances do. So an operation runs as it does at an instance that accepts the value, and a composition
that can be built at instances can be built, and runs as it does there unless an instance refuses a value. -/
theorem declared_types_accept_instances :
    (∀ (s : Substitution) (t : Ty) (v : Value), (s.apply t).accepts v = true → t.accepts v = true) ∧
    (∀ (s s' : Substitution) (a b : Ty), (s.apply a).flowsInto (s'.apply b) = true → a.flowsInto b = true) ∧
    (∀ (s : Substitution) (op : Operation) (v : Value), (s.apply op.input).accepts v = true →
      op.execute v = (op.specialize s).execute v) ∧
    ∀ (b b' : Bracketing) (op' : Operation), b'.Specializes b → b'.build = .ok op' →
      ∃ op, b.build = .ok op ∧ ∀ v, op.execute v = op'.execute v ∨ Refused (op'.execute v) := by
  refine ⟨fun _ _ _ => Ty.accepts_of_bind, fun s s' a b flows => ?_, fun _ _ _ => execute_specialize,
    fun b b' op' specializes built => ?_⟩
  · exact Ty.flowsInto_of_flows_bind (Ty.flowsInto_iff.mp flows)
  · obtain ⟨op, declared, narrows⟩ := specializes.exists_build built
    exact ⟨op, declared, narrows.outcome⟩

-- The output of `f` and the input of `g` share a variable and do not unify. At the instances words are refused.
theorem declared_types_accept_instances_words :
    let x : TypeVar := .named "x"
    let s : Substitution := .single x .int (by decide)
    let s' : Substitution := .single x (.sequence .number) (by decide)
    let step (name : String) (input output : Ty) : Operation :=
      { name, input, output, executable := ⟨0, .identity⟩ }
    let f := step "f" (.vector 1 (.var x)) (.sequence (.var x))
    let g := step "g" (.var x) (.var x)
    let b := Bracketing.join 1 (.single f) (.single g)
    let b' := Bracketing.join 1 (.single (f.specialize s)) (.single (g.specialize s'))
    let ints := Value.vector [.int 3]
    let words := Value.vector [.string "w"]
    ((s.apply f.input).accepts ints = true ∧ f.input.accepts ints = true ∧
      f.execute ints = (f.specialize s).execute ints) ∧
    ((s.apply f.output).flowsInto (s'.apply g.input) = true ∧ f.output.flowsInto g.input = true) ∧
    b'.Specializes b ∧ ∃ op' op, b'.build = .ok op' ∧ b.build = .ok op ∧
      (op'.execute ints = .ok ints ∧ op.execute ints = .ok ints) ∧
      Refused (op'.execute words) := by
  intro x s s' step f g b b' ints words
  obtain ⟨accepts, flowsInto, execute, build⟩ := declared_types_accept_instances
  have accepted : (s.apply f.input).accepts ints = true := by decide
  have flows : (s.apply f.output).flowsInto (s'.apply g.input) = true := by decide +kernel
  have built : b'.build = .ok _ :=
    Bracketing.build_join_eq_ok.mpr ⟨_, _, rfl, rfl, andThen_eq_ok.mpr ⟨flows, rfl⟩⟩
  have specializes : b'.Specializes b := .join (.single s f) (.single s' g)
  obtain ⟨op, declared, outcome⟩ := build b b' _ specializes built
  refine ⟨⟨accepted, accepts s _ _ accepted, execute s f ints accepted⟩,
    ⟨flows, flowsInto s s' _ _ flows⟩, specializes, _, op, built, declared, ⟨rfl, ?_⟩, ⟨_, _, _, rfl, rfl⟩⟩
  rcases outcome ints with same | ⟨e, _, _, failed, _⟩
  · exact same
  · cases failed

end OpCalculus
