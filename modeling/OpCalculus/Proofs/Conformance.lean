import OpCalculus.Value.Conformance

/-!
# Flow and conformance

A value that a ground type accepts is accepted by every type into which that type flows, with one
exception: a matrix without rows has no first row from which to read its number of columns, so where
its type has columns the tensor type rejects it. The exception may sit anywhere inside a value
(`LosesColumns`); elsewhere flow is safe.
-/

namespace OpCalculus

/-! ## Containers -/

def Ty.element? : Ty → Option Ty
  | vector _ element | matrix _ _ element | tensor _ element | sequence element => some element
  | _ => none

def Value.elements : Value → List Value
  | vector items | sequence items => items
  | matrix rows => rows.flatten
  | tensor _ data => data
  | _ => []

/-- The value has the dimensions of a container type, whatever its elements are. -/
def Ty.HasDimensions : Ty → Value → Prop
  | vector len _, .vector items => items.length = len
  | matrix m n _, .matrix rows => rows.length = m ∧ ∀ row ∈ rows, row.length = n
  | tensor shape _, .vector items => shape = [items.length]
  | tensor shape _, .matrix rows => shape = [rows.length, (rows.head?.map List.length).getD 0] ∧
      ∀ row ∈ rows, row.length = (rows.head?.map List.length).getD 0
  | tensor shape _, .tensor found data => found = shape ∧ elementCount found = some data.length
  | sequence _, .vector _ | sequence _, .sequence _ => True
  | _, _ => False

/-- A matrix without rows, at a type with columns, stands where a tensor is expected. -/
def Rowless : Ty → Ty → Value → Prop
  | .matrix _ n _, .tensor _ _, .matrix [] => n ≠ 0
  | _, _, _ => False

variable {source target a b : Ty} {v : Value}

theorem all_rows_iff {rows : List (List Value)} {columns : Nat} {p : Value → Bool} :
    (rows.all fun row => row.length = columns && row.all p) = true ↔
      (∀ row ∈ rows, row.length = columns) ∧ ∀ w ∈ rows.flatten, p w = true := by
  simp only [List.all_eq_true, Bool.and_eq_true, decide_eq_true_eq, List.forall_mem_flatten]
  exact ⟨fun h => ⟨fun row hr => (h row hr).1, fun row hr => (h row hr).2⟩,
    fun h row hr => ⟨h.1 row hr, h.2 row hr⟩⟩

theorem Ty.accepts_iff_of_element? (h : target.element? = some b) :
    target.accepts v = true ↔ target.HasDimensions v ∧ ∀ w ∈ v.elements, b.accepts w = true := by
  cases target with
  | scalar | function | var | strategy => cases h
  | vector len element | sequence element =>
      cases h
      cases v <;> simp [accepts, HasDimensions, Value.elements]
  | matrix m n element =>
      cases h
      cases v with
      | matrix rows =>
          rw [accepts, Bool.and_eq_true, decide_eq_true_eq, all_rows_iff, ← and_assoc]
          rfl
      | _ => simp [accepts, HasDimensions]
  | tensor shape element =>
      cases h
      cases v with
      | matrix rows =>
          rw [accepts, Bool.and_eq_true, decide_eq_true_eq, all_rows_iff, ← and_assoc]
          rfl
      | _ => simp [accepts, HasDimensions, Value.elements, and_assoc]

theorem Ty.hasDimensions_tensor_iff {m n : Nat} (fits : (matrix m n a).HasDimensions v) :
    (tensor [m, n] b).HasDimensions v ↔ ¬ Rowless (.matrix m n a) (.tensor [m, n] b) v := by
  cases v with
  | matrix rows =>
      obtain ⟨rfl, columns⟩ := fits
      cases rows with
      | nil => simp [HasDimensions, Rowless]
      | cons row rest =>
          have first : row.length = n := columns row (List.mem_cons_self ..)
          simp only [HasDimensions, Rowless, List.head?_cons, Option.map_some, Option.getD_some, first,
            not_false_eq_true, iff_true]
          exact ⟨trivial, columns⟩
  | _ => cases fits

/-- Flow out of a container type goes to a variable, or to a container type whose elements it flows
into and which keeps the dimensions. -/
theorem Ty.flowsInto_container (h : source.element? = some a) (flows : source.flowsInto target = true)
    (differ : source ≠ target) :
    (∃ x, target = .var x) ∨ ∃ b, target.element? = some b ∧ a.flowsInto b = true ∧
      ∀ v, source.HasDimensions v → (target.HasDimensions v ↔ ¬ Rowless source target v) := by
  unfold flowsInto at flows
  rw [if_neg differ] at flows
  cases source with
  | scalar | function | var | strategy => cases h
  | vector len element =>
      cases h
      cases target with
      | scalar | matrix | function | strategy => cases flows
      | var x => exact .inl ⟨x, rfl⟩
      | vector len' element' =>
          obtain ⟨same, inner⟩ := Bool.and_eq_true_iff.mp flows
          obtain rfl : len = len' := of_decide_eq_true same
          refine .inr ⟨element', rfl, inner, fun v fits => ?_⟩
          cases v <;> exact iff_of_true fits id
      | tensor shape element' =>
          obtain ⟨same, inner⟩ := Bool.and_eq_true_iff.mp flows
          obtain rfl : shape = [len] := of_decide_eq_true same
          refine .inr ⟨element', rfl, inner, fun v fits => ?_⟩
          cases v with
          | vector items => exact iff_of_true (congrArg (fun n => [n]) fits.symm) id
          | _ => cases fits
      | sequence element' =>
          refine .inr ⟨element', rfl, flows, fun v fits => ?_⟩
          cases v with
          | vector items => exact iff_of_true trivial id
          | _ => cases fits
  | matrix m n element =>
      cases h
      cases target with
      | scalar | vector | sequence | function | strategy => cases flows
      | var x => exact .inl ⟨x, rfl⟩
      | matrix m' n' element' =>
          obtain ⟨same, inner⟩ := Bool.and_eq_true_iff.mp flows
          obtain ⟨rows, columns⟩ := Bool.and_eq_true_iff.mp same
          obtain rfl : m = m' := of_decide_eq_true rows
          obtain rfl : n = n' := of_decide_eq_true columns
          refine .inr ⟨element', rfl, inner, fun v fits => ?_⟩
          cases v <;> exact iff_of_true fits id
      | tensor shape element' =>
          obtain ⟨same, inner⟩ := Bool.and_eq_true_iff.mp flows
          obtain rfl : shape = [m, n] := of_decide_eq_true same
          exact .inr ⟨element', rfl, inner, fun v fits => hasDimensions_tensor_iff fits⟩
  | tensor shape element =>
      cases h
      cases target with
      | scalar | vector | matrix | sequence | function | strategy => cases flows
      | var x => exact .inl ⟨x, rfl⟩
      | tensor shape' element' =>
          obtain ⟨same, inner⟩ := Bool.and_eq_true_iff.mp flows
          obtain rfl : shape = shape' := of_decide_eq_true same
          refine .inr ⟨element', rfl, inner, fun v fits => ?_⟩
          cases v <;> exact iff_of_true fits id
  | sequence element =>
      cases h
      cases target with
      | scalar | vector | matrix | tensor | function | strategy => cases flows
      | var x => exact .inl ⟨x, rfl⟩
      | sequence element' =>
          refine .inr ⟨element', rfl, flows, fun v fits => ?_⟩
          cases v <;> exact iff_of_true fits id

/-! ## The exception -/

/-- Somewhere in the value, a matrix without rows loses the columns that its type has. -/
inductive LosesColumns : Ty → Ty → Value → Prop
  | rowless {source target : Ty} {v : Value} : Rowless source target v → LosesColumns source target v
  | element {source target a b : Ty} {v w : Value} :
      source.element? = some a → target.element? = some b → w ∈ v.elements → LosesColumns a b w →
      LosesColumns source target v
  | state {a b c d : Ty} {state action : Value} :
      LosesColumns a c state → LosesColumns (.strategy a b) (.strategy c d) (.strategy state action)
  | action {a b c d : Ty} {state action : Value} :
      LosesColumns b d action → LosesColumns (.strategy a b) (.strategy c d) (.strategy state action)

theorem LosesColumns.ne (h : LosesColumns source target v) : source ≠ target := by
  induction h with
  | @rowless source target v rowless =>
      rintro rfl
      cases source <;> exact rowless.elim
  | element hs ht _ _ ih =>
      rintro rfl
      exact ih (Option.some.inj (hs.symm.trans ht))
  | state _ ih =>
      intro same
      injection same with same _
      exact ih same
  | action _ ih =>
      intro same
      injection same with _ same
      exact ih same

theorem not_losesColumns_var {x : TypeVar} : ¬ LosesColumns source (.var x) v := by
  intro h
  cases h with
  | rowless rowless => cases source <;> exact rowless.elim
  | element _ ht => cases ht

theorem losesColumns_container_iff (hs : source.element? = some a) (ht : target.element? = some b) :
    LosesColumns source target v ↔ Rowless source target v ∨ ∃ w ∈ v.elements, LosesColumns a b w := by
  constructor
  · intro h
    cases h with
    | rowless rowless => exact .inl rowless
    | @element _ _ _ _ _ w hs' ht' hw h =>
        cases hs.symm.trans hs'
        cases ht.symm.trans ht'
        exact .inr ⟨w, hw, h⟩
    | state | action => cases hs
  · rintro (rowless | ⟨w, hw, h⟩)
    · exact .rowless rowless
    · exact .element hs ht hw h

theorem losesColumns_strategy_iff {c d : Ty} {state action : Value} :
    LosesColumns (.strategy a b) (.strategy c d) (.strategy state action) ↔
      LosesColumns a c state ∨ LosesColumns b d action := by
  constructor
  · intro h
    cases h with
    | rowless rowless => exact rowless.elim
    | element hs => cases hs
    | state h => exact .inl h
    | action h => exact .inr h
  · rintro (h | h)
    · exact .state h
    · exact .action h

/-! ## Flow is safe elsewhere -/

theorem ScalarKind.widensTo_trans {i j k : ScalarKind} (h : i.widensTo j = true)
    (h' : j.widensTo k = true) : i.widensTo k = true := by
  revert h h'
  cases i <;> cases j <;> cases k <;> decide

theorem accepts_iff_of_ne (accepted : source.accepts v = true)
    (h : source ≠ target → (target.accepts v = true ↔ ¬ LosesColumns source target v)) :
    target.accepts v = true ↔ ¬ LosesColumns source target v := by
  by_cases same : source = target
  · exact iff_of_true (same ▸ accepted) fun loses => loses.ne same
  · exact h same

theorem accepts_iff_of_container (h : source.element? = some a)
    (elements : ∀ b w, a.accepts w = true → a.flowsInto b = true →
      (b.accepts w = true ↔ ¬ LosesColumns a b w))
    (accepted : source.accepts v = true) (flows : source.flowsInto target = true)
    (differ : source ≠ target) : target.accepts v = true ↔ ¬ LosesColumns source target v := by
  obtain ⟨fits, each⟩ := (Ty.accepts_iff_of_element? h).mp accepted
  rcases Ty.flowsInto_container h flows differ with ⟨x, rfl⟩ | ⟨b, hb, inner, keeps⟩
  · exact iff_of_true rfl not_losesColumns_var
  · rw [Ty.accepts_iff_of_element? hb, losesColumns_container_iff h hb, keeps v fits, not_or, not_exists]
    refine and_congr_right fun _ => forall_congr' fun w => ?_
    rw [not_and]
    exact forall_congr' fun hw => elements b w (each w hw) inner

theorem accepts_iff_of_scalar {kind : ScalarKind} (accepted : (Ty.scalar kind).accepts v = true)
    (flows : (Ty.scalar kind).flowsInto target = true) (differ : .scalar kind ≠ target) :
    target.accepts v = true ↔ ¬ LosesColumns (.scalar kind) target v := by
  unfold Ty.flowsInto at flows
  rw [if_neg differ] at flows
  cases target with
  | vector | matrix | tensor | function | sequence | strategy => cases flows
  | var x => exact iff_of_true rfl not_losesColumns_var
  | scalar kind' =>
      refine iff_of_true ?_ fun h => ?_
      · rw [Ty.accepts] at accepted ⊢
        cases found : v.scalarKind? with
        | none => simp [found] at accepted
        | some given =>
            rw [found] at accepted
            exact ScalarKind.widensTo_trans accepted flows
      · cases h with
        | rowless rowless => exact rowless.elim
        | element hs => cases hs

theorem accepts_iff_of_strategy
    (state : ∀ c w, a.accepts w = true → a.flowsInto c = true →
      (c.accepts w = true ↔ ¬ LosesColumns a c w))
    (action : ∀ d w, b.accepts w = true → b.flowsInto d = true →
      (d.accepts w = true ↔ ¬ LosesColumns b d w))
    (accepted : (Ty.strategy a b).accepts v = true)
    (flows : (Ty.strategy a b).flowsInto target = true) (differ : .strategy a b ≠ target) :
    target.accepts v = true ↔ ¬ LosesColumns (.strategy a b) target v := by
  unfold Ty.flowsInto at flows
  rw [if_neg differ] at flows
  cases target with
  | scalar | vector | matrix | tensor | function | sequence => cases flows
  | var x => exact iff_of_true rfl not_losesColumns_var
  | strategy c d =>
      cases v with
      | strategy s t =>
          obtain ⟨stateIn, actionIn⟩ := Bool.and_eq_true_iff.mp accepted
          obtain ⟨stateFlows, actionFlows⟩ := Bool.and_eq_true_iff.mp flows
          rw [Ty.accepts, Bool.and_eq_true, state c s stateIn stateFlows,
            action d t actionIn actionFlows, losesColumns_strategy_iff, not_or]
      | _ => cases accepted

/-- A value of a ground type may be used at every type into which that type flows, unless it loses
columns on the way. -/
theorem accepts_iff_of_flowsInto (ground : source.isGround = true) (accepted : source.accepts v = true)
    (flows : source.flowsInto target = true) :
    target.accepts v = true ↔ ¬ LosesColumns source target v := by
  induction source generalizing target v with
  | var x => simp [Ty.isGround, Ty.occurrences] at ground
  | function input output => cases v <;> cases accepted
  | scalar kind =>
      exact accepts_iff_of_ne accepted (accepts_iff_of_scalar accepted flows)
  | vector len element ih | matrix m n element ih | tensor shape element ih | sequence element ih =>
      exact accepts_iff_of_ne accepted
        (accepts_iff_of_container rfl (fun _ _ => ih ground) accepted flows)
  | strategy a b ihState ihAction =>
      have ground : a.isGround = true ∧ b.isGround = true := by
        simpa [Ty.isGround, Ty.occurrences] using ground
      exact accepts_iff_of_ne accepted (accepts_iff_of_strategy (fun _ _ => ihState ground.1)
        (fun _ _ => ihAction ground.2) accepted flows)

theorem accepts_iff_of_flowsInto_rows :
    let source := Ty.vector 2 (.matrix 1 2 .bool)
    let target := Ty.sequence (.tensor [1, 2] .number)
    let v := Value.vector [.matrix [[.bool true, .bool false]], .matrix [[.bool false, .bool true]]]
    source.isGround = true ∧ source.accepts v = true ∧ source.flowsInto target = true ∧
      (target.accepts v = true ↔ ¬ LosesColumns source target v) ∧ target.accepts v = true := by
  intro source target v
  have ground : source.isGround = true := rfl
  have accepted : source.accepts v = true := by decide
  have flows : source.flowsInto target = true := by decide +kernel
  exact ⟨ground, accepted, flows, accepts_iff_of_flowsInto ground accepted flows, by decide⟩

/-- A matrix type without rows flows into the tensor type of its dimensions, which rejects its only
value. -/
theorem rowless_matrix_rejected :
    (Ty.matrix 0 5 .number).isGround = true ∧
      (Ty.matrix 0 5 .number).accepts (.matrix []) = true ∧
      (Ty.matrix 0 5 .number).flowsInto (.tensor [0, 5] .number) = true ∧
      (Ty.tensor [0, 5] .number).accepts (.matrix []) = false := by
  exact ⟨rfl, by decide, by decide +kernel, by decide⟩

end OpCalculus
