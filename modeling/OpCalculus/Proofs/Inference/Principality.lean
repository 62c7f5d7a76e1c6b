import OpCalculus.Proofs.Inference.Hygiene

/-!
# Runs of inference are principal

A typing of an expression is followed through a run by an assignment of types to variables. It is
fixed on the variables that are in use when the run starts, and is extended to each variable that the
run mints (`assignMinted`), so that in the end it reads the inferred type as the given one
(`Runs.principal`).
-/

namespace OpCalculus

open InferState

/-! ## Extending an assignment -/

/-- The assignments agree on every variable that can no longer be minted. -/
def AgreeOnOld (next : Nat) (θ θ' : TypeVar → Ty) : Prop := ∀ v, ¬ Mintable next v → θ' v = θ v

/-- Gives types to minted variables, in order from the first number on. -/
def assignMinted (θ : TypeVar → Ty) (first : Nat) (types : List Ty) : TypeVar → Ty
  | .named name => θ (.named name)
  | .fresh i => if i < first then θ (.fresh i) else types[i - first]?.getD (θ (.fresh i))

variable {env Γ : TypeEnv} {e : Expr} {t u : Ty} {k k' : InferState} {θ θ' θ'' : TypeVar → Ty}
  {types : List Ty} {m n first : Nat}

theorem AgreeOnOld.trans (h : AgreeOnOld m θ θ') (h' : AgreeOnOld n θ' θ'') (le : m ≤ n) :
    AgreeOnOld m θ θ'' :=
  fun v hv => (h' v fun minted => hv (minted.mono le)).trans (h v hv)

theorem agreeOnOld_assignMinted (θ : TypeVar → Ty) (types : List Ty)
    (enough : first + types.length ≤ freshLimit) :
    AgreeOnOld first θ (assignMinted θ first types) := by
  intro v hv
  cases v with
  | named name => rfl
  | fresh i =>
      by_cases lower : i < first
      · exact if_pos lower
      · have upper : freshLimit ≤ i := by
          by_contra below
          exact hv ⟨i, by omega, by omega, rfl⟩
        rw [assignMinted, if_neg lower, List.getElem?_eq_none (by omega), Option.getD_none]

theorem assignMinted_fresh {i : Nat} (h : types[i]? = some t) :
    assignMinted θ first types (.fresh (first + i)) = t := by
  rw [assignMinted, if_neg (by omega), Nat.add_sub_cancel_left, h, Option.getD_some]

theorem assignMinted_idxOf {vars : List TypeVar} {f : TypeVar → Ty} {v : TypeVar} (hv : v ∈ vars) :
    assignMinted θ first (vars.map f) (.fresh (first + vars.idxOf v)) = f v :=
  assignMinted_fresh (by rw [List.getElem?_map, List.getElem?_idxOf hv, Option.map_some])

/-! ## Readings of a state -/

theorem InferState.Tidy.not_mintable (tidy : k.Tidy env) {v : TypeVar} (hv : v ∈ env.freeVars) :
    ¬ Mintable k.next v := by
  intro minted
  refine tidy.unused.free v hv v ?_ minted
  simp [Substitution.apply, Ty.bind, tidy.unbound v minted, Ty.occurrences]

/-- Types in use are read alike by assignments that agree on the variables in use. -/
theorem Confined.bind_eq {s : Substitution} (confined : Confined (fun v => ¬ Mintable n v) s t)
    (absorbed : s.AbsorbedBy θ) (absorbed' : s.AbsorbedBy θ') (agree : AgreeOnOld n θ θ') :
    t.bind θ' = t.bind θ := by
  rw [← absorbed'.bind_apply, ← absorbed.bind_apply t]
  exact Ty.bind_congr fun w hw => agree w (confined w hw)

theorem InferState.SolvedBy.of_agree (solved : k.SolvedBy θ) (tidy : k.Tidy env)
    (agree : AgreeOnOld k.next θ θ') : k.SolvedBy θ' := by
  have absorbed : k.substitution.AbsorbedBy θ' := by
    intro v
    by_cases minted : Mintable k.next v
    · rw [tidy.unbound v minted, Ty.bind]
    · rw [agree v minted, ← solved.absorbed v]
      exact Ty.bind_congr fun w hw => agree w (tidy.old v minted w hw)
  refine ⟨absorbed, fun c hc => ?_⟩
  obtain ⟨expected, actual⟩ := tidy.unused.pending c hc
  rw [Constraint.HoldsUnder, expected.bind_eq solved.absorbed absorbed agree,
    actual.bind_eq solved.absorbed absorbed agree]
  exact solved.pending c hc

/-- The assignment solves the state and reads the environment as one that is at least as general as
`Γ`. -/
structure Reading (k : InferState) (env : TypeEnv) (θ : TypeVar → Ty) (Γ : TypeEnv) : Prop where
  hygienic : k.Hygienic env
  solved : k.SolvedBy θ
  covers : env.Covers θ Γ

namespace Reading

theorem mint (h : Reading k env θ Γ) (types : List Ty)
    (enough : k.next + types.length ≤ freshLimit) :
    Reading (k.mint types.length) env (assignMinted θ k.next types) Γ := by
  have agree := agreeOnOld_assignMinted θ types enough
  have solved := h.solved.of_agree h.hygienic.toTidy agree
  refine ⟨h.hygienic.mint _, solvedBy_mint.mpr solved, h.covers.congr fun v hv => ?_⟩
  exact agree v (h.hygienic.toTidy.not_mintable hv)

theorem instantiate {vars : List TypeVar} (h : Reading k env θ Γ) (f : TypeVar → Ty)
    (enough : k.next + vars.length ≤ freshLimit) :
    Reading (k.mint vars.length) env (assignMinted θ k.next (vars.map f)) Γ := by
  have minted := h.mint (vars.map f) (by rwa [List.length_map])
  rwa [List.length_map] at minted

theorem lambda {x : String} {a : Ty} (h : Reading k env θ Γ) (enough : k.next + 1 ≤ freshLimit) :
    Reading (k.mint 1) (env.extend x (.mono (.var (.fresh k.next)))) (assignMinted θ k.next [a])
      (Γ.extend x (.mono a)) := by
  have minted := h.mint [a] enough
  refine ⟨h.hygienic.lambda enough, minted.solved, minted.covers.extend fun t instance' => ?_⟩
  have param : assignMinted θ k.next [a] (.fresh k.next) = a := assignMinted_fresh (i := 0) rfl
  simpa [Scheme.Instance, Ty.bind, param] using instance'

theorem after (h : Reading k env θ Γ) (run : Runs env e k t k') (agree : AgreeOnOld k.next θ θ')
    (solved : k'.SolvedBy θ') : Reading k' env θ' Γ where
  hygienic := (run.footprint h.hygienic.toTidy).hygienic h.hygienic
  solved := solved
  covers := h.covers.congr fun v hv => agree v (h.hygienic.toTidy.not_mintable hv)

theorem bindLet {s : Substitution} {x : String} (h : Reading k env θ Γ)
    (solves : Solves k.substitution k.pending s)
    (unused : Confined (fun v => ¬ Mintable k.next v) k.substitution t) :
    Reading (k.settle s) (env.bindLet s x t) θ (Γ.extend x (Γ.generalize (t.bind θ))) := by
  have settled := h.hygienic.settle solves
  have absorbed : s.AbsorbedBy θ := solves.absorbed h.solved.absorbed h.solved.pending
  have covers : (env.applySubst s).Covers θ Γ :=
    .bindFree settled.uncaptured (h.covers.congr fun v _ => absorbed v)
  refine ⟨?_, ⟨absorbed, fun _ hc => nomatch hc⟩, covers.extend fun u instance' => ?_⟩
  · exact settled.bindLet rfl
      ((solves.refinedWithin h.hygienic.unused.pending).confined unused)
  · rw [← absorbed.bind_apply t] at instance'
    exact TypeEnv.instanceUnder_generalize (fun v hv w hw => covers.mem_freeVars hv hw) instance'

end Reading

/-! ## Principality -/

theorem Runs.bind_eq (run : Runs env e k t k') (tidy : k.Tidy env) (solved : k'.SolvedBy θ)
    (solved' : k'.SolvedBy θ') (agree : AgreeOnOld k'.next θ θ') : t.bind θ' = t.bind θ := by
  obtain ⟨-, -, unused⟩ := (run.footprint tidy).unused tidy
  exact unused.bind_eq solved.absorbed solved'.absorbed agree

theorem Reading.after_both {e₁ e₂ : Expr} {t₁ t₂ : Ty} {k₁ k₂ : InferState} {θ₁ θ₂ : TypeVar → Ty}
    (reading : Reading k env θ Γ) (run₁ : Runs env e₁ k t₁ k₁) (run₂ : Runs env e₂ k₁ t₂ k₂)
    (agree₁ : AgreeOnOld k.next θ θ₁) (solved₁ : k₁.SolvedBy θ₁) (agree₂ : AgreeOnOld k₁.next θ₁ θ₂)
    (solved₂ : k₂.SolvedBy θ₂) (types : List Ty) (enough : k₂.next + types.length ≤ freshLimit) :
    AgreeOnOld k.next θ (assignMinted θ₂ k₂.next types) ∧
      k₂.SolvedBy (assignMinted θ₂ k₂.next types) ∧
      t₁.bind (assignMinted θ₂ k₂.next types) = t₁.bind θ₁ ∧
      t₂.bind (assignMinted θ₂ k₂.next types) = t₂.bind θ₂ := by
  have tidy := reading.hygienic.toTidy
  have footprint₁ := run₁.footprint tidy
  have tidy₁ := footprint₁.tidy tidy
  have footprint₂ := run₂.footprint tidy₁
  have new : AgreeOnOld k₂.next θ₂ (assignMinted θ₂ k₂.next types) := agreeOnOld_assignMinted θ₂ _ enough
  have solved := solved₂.of_agree (footprint₂.tidy tidy₁) new
  have agree := agree₂.trans new footprint₂.le
  exact ⟨agree₁.trans agree footprint₁.le, solved,
    run₁.bind_eq tidy solved₁ (run₂.solvedBy solved) agree, run₂.bind_eq tidy₁ solved₂ solved new⟩

theorem Runs.principal (run : Runs env e k t k') (reading : Reading k env θ Γ)
    (typed : HasType Γ e u) :
    ∃ θ', AgreeOnOld k.next θ θ' ∧ k'.SolvedBy θ' ∧ t.bind θ' = u := by
  induction run generalizing Γ θ u with
  | @lit env literal t k literalTyped =>
      cases typed with
      | lit typed =>
          have same := (literalType_eq_ok.mpr literalTyped).symm.trans (literalType_eq_ok.mpr typed)
          cases same
          exact ⟨θ, fun _ _ => rfl, reading.solved, literalTyped.bind θ⟩
  | @var env name c k found enough =>
      cases typed with
      | @var _ _ c' _ found' instance' =>
          obtain ⟨f, rfl⟩ := reading.covers.instances found found' _ instance'
          have agree := agreeOnOld_assignMinted θ ((distinct c.vars).map f) (by rwa [List.length_map])
          refine ⟨_, agree, (reading.instantiate f enough).solved, ?_⟩
          rw [Scheme.bind_renamed]
          refine Scheme.specialize_congr (fun v hv => agree v ?_)
            fun v hv => assignMinted_idxOf (mem_distinct.mpr hv)
          exact reading.hygienic.toTidy.not_mintable (TypeEnv.mem_freeVars.mpr ⟨name, c, found, hv⟩)
  | @app env callee arg calleeTy argTy k k₁ k₂ runCallee runArg enough ihCallee ihArg =>
      cases typed with
      | @app _ _ _ a u typedCallee typedArg =>
          obtain ⟨θ₁, agree₁, solved₁, calleeEq⟩ := ihCallee reading typedCallee
          obtain ⟨θ₂, agree₂, solved₂, argEq⟩ :=
            ihArg (reading.after runCallee agree₁ solved₁) typedArg
          obtain ⟨agree, solved, sameCallee, sameArg⟩ := reading.after_both runCallee runArg agree₁
            solved₁ agree₂ solved₂ [u] enough
          have result : assignMinted θ₂ k₂.next [u] (.fresh k₂.next) = u :=
            assignMinted_fresh (i := 0) rfl
          refine ⟨_, agree, solvedBy_emit.mpr ⟨solvedBy_mint.mpr solved, ?_⟩, result⟩
          rw [Constraint.HoldsUnder, Ty.bind, Ty.bind, sameCallee, sameArg, calleeEq, argEq, result]
  | @lambda env param body bodyTy k k' enough runBody ih =>
      cases typed with
      | @lambda _ _ _ a b typedBody =>
          obtain ⟨θ', agree, solved, equal⟩ := ih (reading.lambda enough) typedBody
          refine ⟨θ', (agreeOnOld_assignMinted θ _ enough).trans agree (Nat.le_succ _), solved, ?_⟩
          have param : θ' (.fresh k.next) = a :=
            (agree _ (not_mintable_of_lt (Nat.lt_succ_self _))).trans (assignMinted_fresh (i := 0) rfl)
          rw [Ty.bind, Ty.bind, param, equal]
  | @letIn env name value body valueTy bodyTy k k₁ k' s runValue solves runBody ihValue ihBody =>
      cases typed with
      | @letIn _ _ _ _ a _ typedValue typedBody =>
          obtain ⟨θ₁, agree₁, solved₁, rfl⟩ := ihValue reading typedValue
          have footprint := runValue.footprint reading.hygienic.toTidy
          have reading₁ := reading.after runValue agree₁ solved₁
          obtain ⟨θ', agree, solved, equal⟩ := ihBody
            (reading₁.bindLet solves (footprint.unused reading.hygienic.toTidy).2.2) typedBody
          exact ⟨θ', agree₁.trans agree footprint.le, solved, equal⟩
  | @compose env first second firstTy secondTy k k₁ k₂ runFirst runSecond enough ihFirst ihSecond =>
      cases typed with
      | @compose _ _ _ a b c typedFirst typedSecond =>
          obtain ⟨θ₁, agree₁, solved₁, firstEq⟩ := ihFirst reading typedFirst
          obtain ⟨θ₂, agree₂, solved₂, secondEq⟩ :=
            ihSecond (reading.after runFirst agree₁ solved₁) typedSecond
          obtain ⟨agree, solved, sameFirst, sameSecond⟩ := reading.after_both runFirst runSecond agree₁
            solved₁ agree₂ solved₂ [a, b, c] enough
          have input : assignMinted θ₂ k₂.next [a, b, c] (.fresh k₂.next) = a :=
            assignMinted_fresh (i := 0) rfl
          have middle : assignMinted θ₂ k₂.next [a, b, c] (.fresh (k₂.next + 1)) = b :=
            assignMinted_fresh rfl
          have output : assignMinted θ₂ k₂.next [a, b, c] (.fresh (k₂.next + 2)) = c :=
            assignMinted_fresh rfl
          refine ⟨_, agree, solvedBy_emit.mpr ⟨solvedBy_emit.mpr ⟨solvedBy_mint.mpr solved, ?_⟩, ?_⟩, ?_⟩
          · simp only [Constraint.HoldsUnder, Ty.bind, sameFirst, firstEq, input, middle]
          · simp only [Constraint.HoldsUnder, Ty.bind, sameSecond, secondEq, middle, output]
          · simp only [Ty.bind, input, output]
  | @ascribe env inner ty innerTy k k' declared enough runInner ih =>
      cases typed with
      | ascribe _ instance' typedInner =>
          obtain ⟨f, rfl⟩ := instance'
          have agree₁ := agreeOnOld_assignMinted θ ((distinct ty.vars).map f) (by rwa [List.length_map])
          obtain ⟨θ', agree, solved, equal⟩ := ih (reading.instantiate f enough) typedInner
          have expected : ((Scheme.closed ty).renamed k.next).bind θ' =
              (Scheme.closed ty).specialize .var f := by
            rw [Scheme.bind_renamed]
            refine Scheme.specialize_congr (fun v hv => absurd hv Scheme.not_mem_freeVars_closed)
              fun v hv => ?_
            have hv : v ∈ distinct ty.vars := mem_distinct.mpr hv
            have below := List.idxOf_lt_length_of_mem hv
            exact (agree _ (not_mintable_of_lt (Nat.add_lt_add_left below _))).trans (assignMinted_idxOf hv)
          refine ⟨θ', agree₁.trans agree (Nat.le_add_right _ _), solvedBy_emit.mpr ⟨solved, ?_⟩,
            expected⟩
          exact expected.trans equal.symm

end OpCalculus
