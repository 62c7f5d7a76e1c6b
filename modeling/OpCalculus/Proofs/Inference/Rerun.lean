import OpCalculus.Proofs.Inference.Completeness
import OpCalculus.Proofs.Weakening

/-!
# Runs in two environments

How many variables a run mints depends on what its environment stands for and not on how far the environment
has been solved: at each `let` the variables that are generalized make up a scheme whose instances are the
types of the value (`Runs.instanceUnder_iff`), and schemes with the same instances have the same arity. So an
expression that was inferred in one environment is inferred, with as many new variables, in each environment
with the same reading (`reaches_expr`).
-/

namespace OpCalculus

open InferState

variable {env env' Γ Γ' : TypeEnv} {e : Expr} {t u : Ty} {k k' : InferState} {θ θ' : TypeVar → Ty}
  {s : Substitution} {x : String} {scheme : Scheme}

/-! ## Exact readings -/

/-- The assignment solves the state and reads the environment as `Γ`, with the same instances. -/
structure ReadsAs (k : InferState) (env : TypeEnv) (θ : TypeVar → Ty) (Γ : TypeEnv) : Prop
    extends Reading k env θ Γ where
  offers : Γ.Offers θ env

namespace ReadsAs

theorem mint (h : ReadsAs k env θ Γ) (count : Nat) : ReadsAs (k.mint count) env θ Γ where
  hygienic := h.hygienic.mint count
  solved := solvedBy_mint.mpr h.solved
  covers := h.covers
  offers := h.offers

theorem after (h : ReadsAs k env θ Γ) (run : Runs env e k t k') (agree : AgreeOnOld k.next θ θ')
    (solved : k'.SolvedBy θ') : ReadsAs k' env θ' Γ where
  toReading := h.toReading.after run agree solved
  offers := h.offers.congr fun v hv => agree v (h.hygienic.toTidy.not_mintable hv)

theorem congr (h : ReadsAs k env θ Γ) (agree : AgreeOnOld k.next θ θ') : ReadsAs k env θ' Γ where
  hygienic := h.hygienic
  solved := h.solved.of_agree h.hygienic.toTidy agree
  covers := h.covers.congr fun v hv => agree v (h.hygienic.toTidy.not_mintable hv)
  offers := h.offers.congr fun v hv => agree v (h.hygienic.toTidy.not_mintable hv)

theorem lambda (h : ReadsAs k env θ Γ) (enough : k.next + 1 ≤ freshLimit) :
    ReadsAs (k.mint 1) (env.extend x (.mono (.var (.fresh k.next)))) θ
      (Γ.extend x (.mono (θ (.fresh k.next)))) where
  hygienic := h.hygienic.lambda enough
  solved := solvedBy_mint.mpr h.solved
  covers := h.covers.extend fun t instance' => by simpa [Scheme.Instance, Ty.bind] using instance'
  offers := h.offers.extend fun t instance' => by simpa [Scheme.Instance, Ty.bind] using instance'

theorem lambda_at (h : ReadsAs k env θ Γ) (enough : k.next + 1 ≤ freshLimit) (a : Ty) :
    ReadsAs (k.mint 1) (env.extend x (.mono (.var (.fresh k.next)))) (assignMinted θ k.next [a])
      (Γ.extend x (.mono a)) := by
  have param : assignMinted θ k.next [a] (.fresh k.next) = a := assignMinted_fresh (i := 0) rfl
  have reads := (h.congr (agreeOnOld_assignMinted θ [a] enough)).lambda (x := x) enough
  rwa [param] at reads

theorem covers_settle (h : ReadsAs k env θ Γ) (solves : Solves k.substitution k.pending s) :
    (env.applySubst s).Covers θ Γ := by
  have absorbed : s.AbsorbedBy θ := solves.absorbed h.solved.absorbed h.solved.pending
  exact .bindFree (h.hygienic.settle solves).uncaptured (h.covers.congr fun v _ => absorbed v)

theorem bindLet (h : ReadsAs k env θ Γ) (solves : Solves k.substitution k.pending s)
    (unused : Confined (fun v => ¬ Mintable k.next v) k.substitution t)
    (instances : ∀ u, scheme.Instance u ↔ ((env.applySubst s).generalize (s.apply t)).InstanceUnder θ u) :
    ReadsAs (k.settle s) (env.bindLet s x t) θ (Γ.extend x scheme) := by
  have settled := h.hygienic.settle solves
  have absorbed : s.AbsorbedBy θ := solves.absorbed h.solved.absorbed h.solved.pending
  have hygienic : (k.settle s).Hygienic (env.bindLet s x t) :=
    settled.bindLet rfl ((solves.refinedWithin h.hygienic.unused.pending).confined unused)
  have covers := (h.covers_settle solves).extend (x := x) fun u => (instances u).mp
  have offers := (h.offers.applySubst settled.uncaptured absorbed).extend (x := x) fun u => (instances u).mpr
  exact ⟨⟨hygienic, ⟨absorbed, fun _ hc => nomatch hc⟩, covers⟩, offers⟩

end ReadsAs

/-- The generalized type of a run has, under a solution, the types of the expression as its instances. -/
theorem Runs.instanceUnder_iff (run : Runs env e k t k') (hygienic : k.Hygienic env)
    (reads : ReadsAs k' env θ Γ) (solves : Solves k'.substitution k'.pending s) :
    ((env.applySubst s).generalize (s.apply t)).InstanceUnder θ u ↔ HasType Γ e u := by
  have uncaptured : env.Uncaptured s.image := (reads.hygienic.settle solves).uncaptured
  have absorbed : s.AbsorbedBy θ := solves.absorbed reads.solved.absorbed reads.solved.pending
  constructor
  · rintro ⟨f, rfl⟩
    let ρ : TypeVar → Ty := fun w =>
      if w ∈ ((env.applySubst s).generalize (s.apply t)).vars then f w else θ w
    have offers := reads.offers.congr fun v hv =>
      TypeEnv.bind_image_of_generalized uncaptured absorbed (ρ := ρ) (fun w hw => if_neg hw) hv
    have typed := run.sound hygienic (.of_settle solves (s.absorbedBy_comp ρ)) offers
    rwa [← Ty.bind_bind] at typed
  · intro typed
    have reading : Reading k env θ Γ := ⟨hygienic, run.solvedBy reads.solved, reads.covers⟩
    obtain ⟨θ', agree, solved', rfl⟩ := run.principal reading typed
    have absorbed' := solves.absorbed solved'.absorbed solved'.pending
    refine ⟨θ', ?_⟩
    rw [← absorbed'.bind_apply t]
    refine Ty.bind_congr fun w hw => ?_
    split
    · rfl
    · -- Both assignments absorb `s`, so they agree on what it makes of the environment.
      rename_i fixed
      have free : w ∈ (env.applySubst s).freeVars := by simpa [TypeEnv.generalize, hw] using fixed
      obtain ⟨v, hv, occurs⟩ := TypeEnv.mem_freeVars_applySubst free
      have same : (s.image v).bind θ' = (s.image v).bind θ := by
        rw [absorbed', absorbed, agree v (hygienic.toTidy.not_mintable hv)]
      exact Ty.eq_of_bind_eq same w occurs

/-! ## Counterparts -/

/-- At the given names two environments stand for the same schemes and mint equally many variables. -/
structure Counterparts (names : List String) (env Γ env' Γ' : TypeEnv) : Prop where
  lookup : ∀ x ∈ names, Γ.lookup x = Γ'.lookup x
  arity : ∀ x ∈ names, (env.lookup x).map Scheme.arity = (env'.lookup x).map Scheme.arity

namespace Counterparts

variable {names more : List String} {c c' : Scheme}

theorem symm (h : Counterparts names env Γ env' Γ') : Counterparts names env' Γ' env Γ :=
  ⟨fun x hx => (h.lookup x hx).symm, fun x hx => (h.arity x hx).symm⟩

theorem mono (h : Counterparts more env Γ env' Γ') (sub : names ⊆ more) : Counterparts names env Γ env' Γ' :=
  ⟨fun x hx => h.lookup x (sub hx), fun x hx => h.arity x (sub hx)⟩

theorem extend (h : Counterparts (names.filter (· ≠ x)) env Γ env' Γ') (same : c.arity = c'.arity) :
    Counterparts names (env.extend x c) (Γ.extend x scheme) (env'.extend x c') (Γ'.extend x scheme) := by
  constructor
  · intro y hy
    simp only [TypeEnv.lookup_extend]
    split
    · rfl
    · rename_i other
      exact h.lookup y (List.mem_filter.mpr ⟨hy, decide_eq_true other⟩)
  · intro y hy
    simp only [TypeEnv.lookup_extend]
    split
    · simp [same]
    · rename_i other
      exact h.arity y (List.mem_filter.mpr ⟨hy, decide_eq_true other⟩)

theorem applySubst (h : Counterparts names env Γ env' Γ') (s s' : Substitution) :
    Counterparts names (env.applySubst s) Γ (env'.applySubst s') Γ' := by
  refine ⟨h.lookup, fun x hx => ?_⟩
  simp only [TypeEnv.applySubst_eq_bindFree, TypeEnv.lookup_bindFree, Option.map_map]
  exact h.arity x hx

theorem extend_fresh (fresh : x ∉ names) : Counterparts names env Γ (env.extend x c) (Γ.extend x c') := by
  constructor
  · intro y hy
    rw [TypeEnv.lookup_extend, if_neg (ne_of_mem_of_not_mem hy fresh)]
  · intro y hy
    rw [TypeEnv.lookup_extend, if_neg (ne_of_mem_of_not_mem hy fresh)]

end Counterparts

theorem Runs.typed_in (run : Runs env e k t k') (reads : ReadsAs k env θ Γ) (solved : k'.SolvedBy θ)
    (alike : Counterparts e.freeNames env Γ env' Γ') : HasType Γ' e (t.bind θ) :=
  (run.sound reads.hygienic solved reads.offers).congr alike.lookup

/-- One scheme stands for the generalized types of two runs, which quantify equally many variables. -/
theorem Runs.exists_common_scheme {t' : Ty} {j j' : InferState} {s' : Substitution} (run : Runs env e k t k')
    (run' : Runs env' e j t' j') (hygienic : k.Hygienic env) (hygienic' : j.Hygienic env')
    (reads : ReadsAs k' env θ Γ) (reads' : ReadsAs j' env' θ' Γ')
    (solves : Solves k'.substitution k'.pending s) (solves' : Solves j'.substitution j'.pending s')
    (alike : Counterparts e.freeNames env Γ env' Γ') :
    ∃ scheme : Scheme,
      (∀ u, scheme.Instance u ↔ ((env.applySubst s).generalize (s.apply t)).InstanceUnder θ u) ∧
      (∀ u, scheme.Instance u ↔ ((env'.applySubst s').generalize (s'.apply t')).InstanceUnder θ' u) ∧
      ((env.applySubst s).generalize (s.apply t)).arity =
        ((env'.applySubst s').generalize (s'.apply t')).arity := by
  obtain ⟨scheme, instances⟩ := TypeEnv.exists_scheme (reads.covers_settle solves) (s.apply t)
  have same : ∀ u, ((env.applySubst s).generalize (s.apply t)).InstanceUnder θ u ↔
      ((env'.applySubst s').generalize (s'.apply t')).InstanceUnder θ' u := by
    intro u
    rw [run.instanceUnder_iff hygienic reads solves, run'.instanceUnder_iff hygienic' reads' solves']
    exact ⟨fun typed => typed.congr alike.lookup,
      fun typed => typed.congr fun x hx => (alike.lookup x hx).symm⟩
  refine ⟨scheme, instances, fun u => (instances u).trans (same u), ?_⟩
  exact Scheme.arity_eq (fun _ => TypeEnv.mem_occurrences_of_generalize)
    (fun _ => TypeEnv.mem_occurrences_of_generalize) same

/-! ## Success with a count -/

theorem Runs.next_le (run : Runs env e k t k') : k.next ≤ k'.next := by
  induction run with
  | lit => exact Nat.le_refl _
  | var => exact Nat.le_add_right _ _
  | app _ _ _ ih₁ ih₂ | compose _ _ _ ih₁ ih₂ => exact (ih₁.trans ih₂).trans (Nat.le_add_right _ _)
  | lambda _ _ ih | ascribe _ _ _ ih => exact (Nat.le_add_right _ _).trans ih
  | letIn _ _ _ ih₁ ih₂ => exact ih₁.trans ih₂

namespace Infer

variable {α β : Type} {c c' : InferenceContext} {m n : Nat}

/-- The action succeeds and leaves the supply at the given number. -/
def Reaches (x : Infer α) (c : InferenceContext) (n : Nat) : Prop := ∃ a c', x c = .ok a c' ∧ c'.state.next = n

theorem Reaches.bind {y : Infer α} {f : α → Infer β} (h : Reaches y c m)
    (next : ∀ a c', y c = .ok a c' → c'.state.next = m → Reaches (f a) c' n) : Reaches (y >>= f) c n := by
  obtain ⟨a, c₁, ok, reached⟩ := h
  obtain ⟨b, c₂, ok', reached'⟩ := next a c₁ ok reached
  exact ⟨b, c₂, bind_eq_ok.mpr ⟨a, c₁, ok, ok'⟩, reached'⟩

theorem reaches_pure (a : α) (h : c.state.next = n) : Reaches (pure a) c n := ⟨a, c, rfl, h⟩

theorem reaches_minting {count : Nat} {f : Nat → α} (enough : c.state.next + count ≤ freshLimit) :
    Reaches (minting (FreshSupply.mintBlock count >>= fun first => pure (f first))) c
      (c.state.next + count) := by
  have enough' : c.supply.next + count ≤ freshLimit := enough
  refine ⟨f c.supply.next, { c with supply := ⟨c.supply.next + count, enough⟩ }, ?_, rfl⟩
  unfold minting
  rw [mintBlock_apply]
  simp only [enough', dite_true]

theorem reaches_freshType (enough : c.state.next + 1 ≤ freshLimit) : Reaches freshType c (c.state.next + 1) :=
  (reaches_minting enough).bind fun v _ _ reached => reaches_pure (Ty.var v) reached

theorem reaches_instantiate (enough : c.state.next + scheme.arity ≤ freshLimit) :
    Reaches (minting (FreshSupply.instantiate scheme)) c (c.state.next + scheme.arity) :=
  reaches_minting enough

theorem reaches_constrain (t u : Ty) (reason : Reason) : Reaches (constrain t u reason) c c.state.next :=
  ⟨(), _, rfl, rfl⟩

theorem reaches_record (e : Expr) (t : Ty) (rule : InferRule) (detail : InferDetail) :
    Reaches (record e t rule detail) c c.state.next :=
  ⟨(), _, rfl, congrArg InferState.next (record_eq_ok rfl)⟩

theorem reaches_return {rule : InferRule} {detail : InferDetail} (h : c.state.next = n) :
    Reaches (do record e t rule detail; return u) c n :=
  (reaches_record _ _ _ _).bind fun _ _ _ reached => reaches_pure u (reached.trans h)

theorem reaches_solve (solved : c.state.SolvedBy θ)
    (budget : c.state.solved + c.state.pending.length ≤ c.state.limit) : Reaches solve c c.state.next := by
  have ok : ∃ unifier, c.unifier.solve c.pending = (.ok (), unifier) :=
    Unifier.exists_solve_eq_ok solved.absorbed solved.pending budget
  obtain ⟨unifier, ok⟩ := ok
  exact ⟨(), { c with unifier, pending := [] }, by simp only [solve, ok], rfl⟩

theorem reads_after_expr (reads : ReadsAs c.state env θ Γ) (typed : HasType Γ e u)
    (ok : expr env e c = .ok t c') :
    ∃ θ', ReadsAs c'.state env θ' Γ ∧ t.bind θ' = u ∧
      c'.state.solved + c'.state.pending.length =
        c.state.solved + c.state.pending.length + e.constraintCount ∧
      c'.state.limit = c.state.limit := by
  have run := runs_of_expr ok
  obtain ⟨θ', agree, solved, equal⟩ := run.principal reads.toReading typed
  exact ⟨θ', reads.after run agree solved, equal, run.accounts⟩

/-! ## Running again -/

/-- A run that reads its environment as `Γ` can be repeated, with as many new variables, in an environment
that is read as a counterpart of `Γ`. -/
def Repeats (env : TypeEnv) (e : Expr) (k k' : InferState) : Prop :=
  ∀ ⦃env' Γ Γ' : TypeEnv⦄ ⦃θ θ' : TypeVar → Ty⦄ ⦃c : InferenceContext⦄, ReadsAs k env θ Γ → k'.SolvedBy θ →
    ReadsAs c.state env' θ' Γ' → Counterparts e.freeNames env Γ env' Γ' →
    c.state.solved + c.state.pending.length + e.constraintCount ≤ c.state.limit →
    c.state.next + (k'.next - k.next) ≤ freshLimit →
    Reaches (expr env' e) c (c.state.next + (k'.next - k.next))

theorem Repeats.pair {e₁ e₂ : Expr} {t₁ : Ty} {k₁ k₁' k₂ k₂' : InferState} {f : Ty → Ty → Infer Ty}
    (repeats₁ : Repeats env e₁ k₁ k₁') (repeats₂ : Repeats env e₂ k₂ k₂') (run₁ : Runs env e₁ k₁ t₁ k₁')
    (reads₁ : ReadsAs k₁ env θ Γ) (solved₁ : k₁'.SolvedBy θ) (reads₂ : ReadsAs k₂ env θ Γ)
    (solved₂ : k₂'.SolvedBy θ) (reads' : ReadsAs c.state env' θ' Γ')
    (alike₁ : Counterparts e₁.freeNames env Γ env' Γ') (alike₂ : Counterparts e₂.freeNames env Γ env' Γ')
    (budget : c.state.solved + c.state.pending.length + (e₁.constraintCount + e₂.constraintCount) ≤
      c.state.limit)
    (enough : c.state.next + (k₁'.next - k₁.next) + (k₂'.next - k₂.next) ≤ freshLimit)
    (next : ∀ t₁ t₂ c₂, c₂.state.next = c.state.next + (k₁'.next - k₁.next) + (k₂'.next - k₂.next) →
      Reaches (f t₁ t₂) c₂ n) :
    Reaches (do f (← expr env' e₁) (← expr env' e₂)) c n := by
  refine (repeats₁ reads₁ solved₁ reads' alike₁ (by omega) (by omega)).bind fun t₁' c₁ ok reached₁ => ?_
  obtain ⟨θ₁', reads₁', -, count, limit⟩ := reads_after_expr reads' (run₁.typed_in reads₁ solved₁ alike₁) ok
  refine (repeats₂ reads₂ solved₂ reads₁' alike₂ (by omega) (by omega)).bind fun t₂' c₂ _ reached₂ => ?_
  exact next t₁' t₂' c₂ (by omega)

-- The first run decides what each part stands for, and the second is kept in step by the typings read off it.
theorem repeats_expr (run : Runs env e k t k') : Repeats env e k k' := by
  induction run with
  | @lit env literal t k typed =>
      intro env' Γ Γ' θ θ' c _ _ _ _ _ _
      simp only [expr_lit, literalType_eq_ok.mpr typed]
      exact Reaches.bind ⟨t, c, rfl, rfl⟩ fun _ _ _ reached => reaches_return (by omega)
  | @var env name d k found _ =>
      intro env' Γ Γ' θ θ' c _ _ _ alike _ enough
      have same := alike.arity name (List.mem_singleton_self name)
      rw [found, Option.map_some] at same
      obtain ⟨d', found', arity⟩ := Option.map_eq_some_iff.mp same.symm
      have count : (k.mint (distinct d.vars).length).next - k.next = d'.arity :=
        (Nat.add_sub_cancel_left ..).trans arity.symm
      simp only [expr_var_of_some found']
      exact (reaches_instantiate (by omega)).bind fun _ _ _ reached => reaches_return (by omega)
  | @app env callee arg calleeTy argTy k k₁ k₂ runCallee runArg _ ihCallee ihArg =>
      intro env' Γ Γ' θ θ' c reads solved reads' alike budget enough
      obtain ⟨solved, -⟩ := solvedBy_emit.mp solved
      have solved₂ : k₂.SolvedBy θ := solvedBy_mint.mp solved
      have solved₁ := runArg.solvedBy solved₂
      have le₁ := runCallee.next_le
      have le₂ := runArg.next_le
      simp only [Expr.constraintCount] at budget
      simp only [emit, mint] at enough ⊢
      refine ihCallee.pair ihArg runCallee reads solved₁ (reads.after runCallee (fun _ _ => rfl) solved₁) solved₂
        reads' (alike.mono (List.subset_append_left _ _)) (alike.mono (List.subset_append_right _ _))
        (by omega) (by omega) fun calleeTy' argTy' c₂ reached₂ => ?_
      refine (reaches_freshType (by omega)).bind fun result c₃ _ reached₃ => ?_
      exact (reaches_constrain _ _ _).bind fun _ _ _ reached₄ => reaches_return (by omega)
  | @lambda env param body bodyTy k k' room runBody ih =>
      intro env' Γ Γ' θ θ' c reads solved reads' alike budget enough
      have le : k.next + 1 ≤ k'.next := runBody.next_le
      refine (reaches_freshType (by omega)).bind fun paramTy c₁ fresh reached₁ => ?_
      obtain ⟨room', rfl, state⟩ := freshType_eq_ok fresh
      have readsBody' := reads'.lambda_at (x := param) room' (θ (.fresh k.next))
      rw [← state] at readsBody'
      have body := ih (reads.lambda room) solved readsBody' (alike.extend rfl) (state ▸ budget)
      simp only [mint] at body
      exact (body (by omega)).bind fun _ _ _ reached₂ => reaches_return (by omega)
  | @letIn env name value body valueTy bodyTy k k₁ k' s runValue solves runBody ihValue ihBody =>
      intro env' Γ Γ' θ θ' c reads solved reads' alike budget enough
      have le₁ := runValue.next_le
      have le₂ : k₁.next ≤ k'.next := runBody.next_le
      have solved₁ : k₁.SolvedBy θ := .of_settle solves (runBody.solvedBy solved).absorbed
      have tidy := reads.hygienic.toTidy
      have reads₁ := reads.after runValue (fun _ _ => rfl) solved₁
      have alikeValue := alike.mono (List.subset_append_left _ _)
      have alikeBody := alike.mono (List.subset_append_right _ _)
      simp only [Expr.constraintCount] at budget
      rw [expr_letIn]
      refine (ihValue reads solved₁ reads' alikeValue (by omega) (by omega)).bind
        fun valueTy' c₁ ok reached₁ => ?_
      obtain ⟨θ₁', reads₁', -, count, limit⟩ :=
        reads_after_expr reads' (runValue.typed_in reads solved₁ alikeValue) ok
      refine (reaches_solve reads₁'.solved (by omega)).bind fun _ c₂ ok' reached₂ => ?_
      refine Reaches.bind ⟨c₂, c₂, rfl, rfl⟩ fun _ _ got _ => ?_
      cases got
      obtain ⟨s', solves', state⟩ := solve_eq_ok ok'
      have substitution : c₂.unifier.substitution = s' := congrArg InferState.substitution state
      have run' := runs_of_expr ok
      have tidy' := reads'.hygienic.toTidy
      -- The bodies see the same scheme, although the values may have been solved to different types.
      obtain ⟨scheme, instances, instances', arity⟩ := runValue.exists_common_scheme run' reads.hygienic
        reads'.hygienic reads₁ reads₁' solves solves' alikeValue
      have readsBody := reads₁.bindLet (x := name) solves ((runValue.footprint tidy).unused tidy).2.2 instances
      have readsBody' := reads₁'.bindLet (x := name) solves' ((run'.footprint tidy').unused tidy').2.2
        instances'
      rw [← state, ← substitution] at readsBody'
      rw [← substitution] at arity
      have body := ihBody readsBody solved readsBody' ((alikeBody.applySubst s _).extend arity)
      simp only [state, settle, List.length_nil] at body
      exact (body (by omega) (by omega)).bind fun _ _ _ reached₃ => reaches_return (by omega)
  | @compose env first second firstTy secondTy k k₁ k₂ runFirst runSecond _ ihFirst ihSecond =>
      intro env' Γ Γ' θ θ' c reads solved reads' alike budget enough
      obtain ⟨solved, -⟩ := solvedBy_emit.mp solved
      obtain ⟨solved, -⟩ := solvedBy_emit.mp solved
      have solved₂ : k₂.SolvedBy θ := solvedBy_mint.mp solved
      have solved₁ := runSecond.solvedBy solved₂
      have le₁ := runFirst.next_le
      have le₂ := runSecond.next_le
      simp only [Expr.constraintCount] at budget
      simp only [emit, mint] at enough ⊢
      refine ihFirst.pair ihSecond runFirst reads solved₁ (reads.after runFirst (fun _ _ => rfl) solved₁) solved₂
        reads' (alike.mono (List.subset_append_left _ _)) (alike.mono (List.subset_append_right _ _))
        (by omega) (by omega) fun firstTy' secondTy' c₂ reached₂ => ?_
      refine (reaches_freshType (by omega)).bind fun input c₃ _ reached₃ => ?_
      refine (reaches_freshType (by omega)).bind fun middle c₄ _ reached₄ => ?_
      refine (reaches_freshType (by omega)).bind fun output c₅ _ reached₅ => ?_
      refine (reaches_constrain _ _ _).bind fun _ _ _ reached₆ => ?_
      exact (reaches_constrain _ _ _).bind fun _ _ _ reached₇ => reaches_return (by omega)
  | @ascribe env inner ty innerTy k k' declared _ runInner ih =>
      intro env' Γ Γ' θ θ' c reads solved reads' alike budget enough
      obtain ⟨solved, -⟩ := solvedBy_emit.mp solved
      have le : k.next + (distinct ty.vars).length ≤ k'.next := runInner.next_le
      simp only [Expr.constraintCount] at budget
      simp only [emit] at enough ⊢
      have room : c.state.next + (distinct ty.vars).length ≤ freshLimit := by omega
      simp only [expr_ascribe, declared]
      refine Reaches.bind ⟨(), c, rfl, rfl⟩ fun _ _ checked _ => ?_
      cases checked
      refine (reaches_instantiate room).bind fun expected c₁ instantiated _ => ?_
      obtain ⟨-, -, state⟩ := instantiate_eq_ok instantiated
      have inner := ih (reads.mint _) solved (state ▸ reads'.mint _) alike
      simp only [state, mint, Scheme.closed] at inner
      refine (inner (by omega) (by omega)).bind fun actual c₂ _ reached₂ => ?_
      exact (reaches_constrain _ _ _).bind fun _ _ _ reached₃ => reaches_return (by omega)

end Infer

end OpCalculus
