import Mathlib
import OpCalculus.Proofs.Inference.Hygiene

/-!
# Soundness of inference

Every solution of the state that a run ends in makes the inferred type a type of the expression
(`Runs.sound`), in any environment that offers what the solution makes of the environment of the run.
The final substitution is such a solution.
-/

namespace OpCalculus

open InferState

variable {env Γ : TypeEnv} {e : Expr} {t : Ty} {k k' : InferState} {θ : TypeVar → Ty}

theorem TypeEnv.Offers.applySubst {s : Substitution} (offers : Γ.Offers θ env)
    (uncaptured : env.Uncaptured s.image) (absorbed : s.AbsorbedBy θ) :
    Γ.Offers θ (env.applySubst s) :=
  Offers.bindFree uncaptured (offers.congr fun v _ => absorbed v)

theorem TypeEnv.bind_image_of_generalized {s : Substitution} {v : TypeVar} {ρ : TypeVar → Ty}
    (uncaptured : env.Uncaptured s.image) (absorbed : s.AbsorbedBy θ)
    (agree : ∀ w, w ∉ ((env.applySubst s).generalize t).vars → ρ w = θ w) (hv : v ∈ env.freeVars) :
    (s.image v).bind ρ = θ v := by
  refine (Ty.bind_congr fun w hw => agree w fun quantified => ?_).trans (absorbed v)
  have free : w ∈ (env.applySubst s).freeVars := uncaptured.mem_freeVars_bindFree hv hw
  obtain ⟨-, outside⟩ := List.mem_filter.mp quantified
  simp [free] at outside

theorem Runs.sound (run : Runs env e k t k') (hygienic : k.Hygienic env) (solved : k'.SolvedBy θ)
    (offers : Γ.Offers θ env) : HasType Γ e (t.bind θ) := by
  induction run generalizing Γ θ with
  | @lit env literal t k typed =>
      rw [typed.bind θ]
      exact .lit typed
  | @var env name c k found enough =>
      obtain ⟨c', found', instances⟩ := offers name c found
      exact .var found' (instances _ ⟨_, c.bind_renamed k.next θ⟩)
  | @app env callee arg calleeTy argTy k k₁ k₂ runCallee runArg enough ihCallee ihArg =>
      obtain ⟨solved, holds⟩ := solvedBy_emit.mp solved
      have solved₂ : k₂.SolvedBy θ := solvedBy_mint.mp solved
      have calleeTyped := ihCallee hygienic (runArg.solvedBy solved₂) offers
      have hygienic₁ := (runCallee.footprint hygienic.toTidy).hygienic hygienic
      rw [holds] at calleeTyped
      exact .app calleeTyped (ihArg hygienic₁ solved₂ offers)
  | @lambda env param body bodyTy k k' enough _ ih =>
      refine .lambda (ih (hygienic.lambda enough) solved (offers.extend ?_))
      simp [Scheme.Instance]
  | @letIn env name value body valueTy bodyTy k k₁ k' s runValue solves runBody ihValue ihBody =>
      have footprint := runValue.footprint hygienic.toTidy
      have hygienic₁ := footprint.hygienic hygienic
      have settled := hygienic₁.settle solves
      have absorbed : s.AbsorbedBy θ := (runBody.solvedBy solved).absorbed
      have uncaptured : env.Uncaptured s.image := settled.uncaptured
      have unused := (footprint.unused hygienic.toTidy).2.2
      -- The value is typed with the generalized variables renamed apart from `Γ`.
      obtain ⟨ρ, agree, instances⟩ := TypeEnv.exists_renaming Γ
        ((env.applySubst s).generalize (s.apply valueTy)).vars (s.apply valueTy) θ
      have valueTyped : HasType Γ value ((s.apply valueTy).bind ρ) := by
        have renamed := ihValue (Γ := Γ) (θ := fun v => (s.image v).bind ρ) hygienic
          (.of_settle solves (s.absorbedBy_comp ρ))
          (offers.congr fun v hv => TypeEnv.bind_image_of_generalized uncaptured absorbed agree hv)
        rwa [← Ty.bind_bind] at renamed
      refine .letIn valueTyped (ihBody ?_ solved ?_)
      · exact settled.bindLet rfl ((solves.refinedWithin hygienic₁.unused.pending).confined unused)
      · exact (offers.applySubst uncaptured absorbed).extend instances
  | @compose env first second firstTy secondTy k k₁ k₂ runFirst runSecond enough ihFirst ihSecond =>
      obtain ⟨solved, holdsSecond⟩ := solvedBy_emit.mp solved
      obtain ⟨solved, holdsFirst⟩ := solvedBy_emit.mp solved
      have solved₂ : k₂.SolvedBy θ := solvedBy_mint.mp solved
      have firstTyped := ihFirst hygienic (runSecond.solvedBy solved₂) offers
      have hygienic₁ := (runFirst.footprint hygienic.toTidy).hygienic hygienic
      have secondTyped := ihSecond hygienic₁ solved₂ offers
      rw [holdsFirst] at firstTyped
      rw [holdsSecond] at secondTyped
      exact .compose firstTyped secondTyped
  | @ascribe env inner ty innerTy k k' declared enough _ ih =>
      obtain ⟨solved, holds⟩ := solvedBy_emit.mp solved
      have innerTyped := ih (hygienic.mint _) solved offers
      rw [← holds] at innerTyped
      refine .ascribe declared ?_ innerTyped
      refine ⟨fun v => θ (.fresh (k.next + (distinct ty.vars).idxOf v)), ?_⟩
      rw [Scheme.bind_renamed]
      exact Scheme.specialize_congr (fun v hv => absurd hv Scheme.not_mem_freeVars_closed)
        fun _ _ => rfl

/-- The inferred type is a type of the expression in the environment that the inferred substitution
leaves. -/
theorem inferWith_sound {options : InferOptions} {i : Inference} (apart : env.Apart)
    (h : inferWith options env e = .ok i) : HasType (env.applySubst i.substitution) e i.ty := by
  obtain ⟨t, k, run, solves, type⟩ := Infer.runs_of_inferWith h
  have start := InferenceContext.hygienic_start apart options
  have final := ((run.footprint start.toTidy).hygienic start).settle solves
  rw [type]
  exact run.sound start (.of_settle solves i.substitution.absorbedBy_image)
    (TypeEnv.offers_bindFree final.uncaptured)

-- The value of the `let` fixes the variable that is free in `y`, and `f` is used at two types.
theorem inferWith_sound_let_in_lambda :
    let env := TypeEnv.ofBindings
      [("y", .mono (.function (.var (.named "b")) .int)),
        ("f", ⟨[.named "a"], .function (.var (.named "a")) (.var (.named "a"))⟩)]
    let e := Expr.lambda "x" (.letIn "z" (.app (.var "y") (.app (.var "f") (.lit (.bool true))))
      (.app (.var "f") (.var "x")))
    env.Apart ∧ ∃ i, inferWith {} env e = .ok i ∧
      i.ty = .function (.var (.fresh 5)) (.var (.fresh 5)) ∧
      HasType (env.applySubst i.substitution) e i.ty := by
  intro env e
  have apart : env.Apart := by decide
  have inferred : infer env e = .ok (.function (.var (.fresh 5)) (.var (.fresh 5))) := by cbv
  obtain ⟨i, h, type⟩ := Infer.map_eq_ok.mp inferred
  exact ⟨apart, i, h, type, inferWith_sound apart h⟩

end OpCalculus
