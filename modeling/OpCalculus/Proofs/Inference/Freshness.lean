import Mathlib
import OpCalculus.Proofs.Inference.Journal

/-!
# Fresh variables are fresh

A successful inference mentions free variables of its environment and variables that it minted itself, and
nothing else (`mentions_minted`). The journal of the run shows which ones it minted: each number is greater
than the ones before and than every number that the environment mentions, and when the numbers run out the
run fails.
-/

namespace OpCalculus

variable {options : InferOptions} {env : TypeEnv} {e : Expr} {i : Inference}

/-- The variable is in the type, or is bound or mentioned by the substitution. -/
def Inference.Mentions (i : Inference) (v : TypeVar) : Prop :=
  v ∈ i.ty.occurrences ∨ ∃ p ∈ i.substitution.bindings, v = p.1 ∨ v ∈ p.2.occurrences

-- A binding of a variable to itself would leave the substitution unresolved.
theorem Substitution.RefinedWithin.of_get? {A : TypeVar → Prop} {s : Substitution} {v : TypeVar} {t : Ty}
    (h : Substitution.empty.RefinedWithin A s) (bound : s.get? v = some t) :
    A v ∧ ∀ w ∈ t.occurrences, A w := by
  obtain ⟨step, image, inside⟩ := h
  have same : t = step v := by
    have := image v
    rw [Substitution.image, bound, Option.getD_some] at this
    exact this
  rcases inside v with stays | moved
  · have unbound : s.get? v = none := s.resolved v t bound v (by simp [same, stays, Ty.occurrences])
    simp [bound] at unbound
  · exact same ▸ moved

theorem mentions_minted {c' : InferenceContext}
    (ran : (do Infer.finish (← Infer.expr env e)) (.start env options) = .ok i c')
    {v : TypeVar} (mentioned : i.Mentions v) :
    v ∈ env.freeVars ∨ ∃ n, (FreshSupply.after env).next ≤ n ∧ n < c'.supply.next ∧ v = .fresh n := by
  obtain ⟨t, k, run, next, solves, type⟩ := Infer.runs_of_finish ran
  let A (v : TypeVar) : Prop :=
    v ∈ env.freeVars ∨ Mintable (FreshSupply.after env).next v ∧ ¬ Mintable k.next v
  have start : (InferenceContext.start env options).state.ConfinedTo A env :=
    ⟨fun v hv => Substitution.confined_empty (.inl hv), fun _ hc => nomatch hc⟩
  obtain ⟨refined, confined, typeIn⟩ := (run.footprint (InferenceContext.tidy_start env options)).within A
    (fun v minted used => .inr ⟨minted, used⟩) start
  obtain ⟨solved, -⟩ := confined.settle solves
  have inside : A v := by
    rcases mentioned with inType | ⟨⟨w, u⟩, bound, rfl | inImage⟩
    · exact solved.confined typeIn v (type ▸ inType)
    · exact ((refined.trans solved).of_get? (VarMap.get?_eq_some_of_mem bound)).1
    · exact ((refined.trans solved).of_get? (VarMap.get?_eq_some_of_mem bound)).2 v inImage
  rcases inside with free | ⟨⟨n, lower, upper, rfl⟩, used⟩
  · exact .inl free
  · refine .inr ⟨n, lower, ?_, rfl⟩
    rw [← next]
    exact Nat.lt_of_not_le fun later => used ⟨n, later, upper, rfl⟩

/-! ## Numbers that an environment uses -/

/-- Some frame mentions the variable with this number, free or quantified. Shadowed frames count. -/
def TypeEnv.UsesNumber (env : TypeEnv) (n : Nat) : Prop :=
  ∃ p ∈ env.frames, .fresh n ∈ p.2.vars ++ p.2.body.occurrences

theorem FreshSupply.next_after_le {n : Nat} (above : ∀ m, env.UsesNumber m → m < n) :
    (FreshSupply.after env).next ≤ n := by
  unfold FreshSupply.after
  cases largest : env.maxFresh? with
  | none => exact Nat.zero_le n
  | some last =>
      obtain ⟨p, hp, used⟩ := List.mem_filterMap.mp (List.max?_mem largest)
      obtain ⟨v, hv, number⟩ := List.mem_filterMap.mp (List.max?_mem used)
      cases v with
      | named name => cases number
      | fresh id =>
          cases number
          have below := above last ⟨p, hp, hv⟩
          show min (last + 1) freshLimit ≤ n
          omega

/-! ## Runs with their journals -/

def inferJournaled (options : InferOptions) (env : TypeEnv) (e : Expr) :
    Except InferError Inference × List (Option Nat) :=
  match Journaled.infer env e ⟨.start env options, []⟩ with
  | .ok i l => (.ok i, l.requests)
  | .error err l => (.error err, l.requests)

theorem inferJournaled_fst (options : InferOptions) (env : TypeEnv) (e : Expr) :
    (inferJournaled options env e).1 = inferWith options env e := by
  have erased := Journaled.infer_erases env e ⟨.start env options, []⟩
  rw [inferWith, Infer.outcome, erased, inferJournaled]
  cases Journaled.infer env e ⟨.start env options, []⟩ <;> rfl

/-- A run that handed out the numbers up to `next`, all that there are if it was refused one. -/
structure HandsOut (options : InferOptions) (env : TypeEnv) (e : Expr) (next : Nat)
    (refused : List (Option Nat)) : Prop where
  requests : (inferJournaled options env e).2 = answers (FreshSupply.after env).next next ++ refused
  bounded : next ≤ freshLimit
  mentioned : ∀ i, inferWith options env e = .ok i → ∀ v, i.Mentions v →
    v ∈ env.freeVars ∨ ∃ n, (FreshSupply.after env).next ≤ n ∧ n < next ∧ v = .fresh n
  exhausted : inferWith options env e = .error (.freshExhausted {}) → next = freshLimit ∧ refused = [none]
  unrefused : inferWith options env e ≠ .error (.freshExhausted {}) → refused = []

theorem exists_handsOut (options : InferOptions) (env : TypeEnv) (e : Expr) :
    ∃ next refused, HandsOut options env e next refused := by
  have erased := Journaled.infer_erases env e ⟨.start env options, []⟩
  have keeps := Journaled.keeps_infer env e ⟨.start env options, []⟩
  have result := inferJournaled_fst options env e
  cases run : Journaled.infer env e ⟨.start env options, []⟩ with
  | ok i l =>
      have journaled : inferJournaled options env e = (.ok i, l.requests) := by rw [inferJournaled, run]
      rw [run] at erased keeps
      rw [journaled] at result
      refine ⟨l.next, [], ?_, l.context.supply.bounded, ?_, by simp [← result], fun _ => rfl⟩
      · rw [journaled]
        exact keeps.requests
      · intro j inferred v mentioned
        cases result.trans inferred
        exact mentions_minted erased mentioned
  | error err l =>
      have journaled : inferJournaled options env e = (.error err, l.requests) := by
        rw [inferJournaled, run]
      rw [run] at keeps
      rw [journaled] at result
      by_cases exhausted : err = .freshExhausted {} <;>
        simp only [Journaled.Leaves, exhausted, if_true, if_false] at keeps
      · refine ⟨l.next, [none], ?_, l.context.supply.bounded, by simp [← result], fun _ => ⟨keeps.1, rfl⟩,
          by simp [← result, exhausted]⟩
        rw [journaled]
        exact keeps.2.requests
      · refine ⟨l.next, [], ?_, l.context.supply.bounded, by simp [← result],
          by simp [← result, exhausted], fun _ => rfl⟩
        rw [journaled]
        exact keeps.requests

namespace HandsOut

variable {next : Nat} {refused : List (Option Nat)}

theorem minted (h : HandsOut options env e next refused) :
    (inferJournaled options env e).2.reduceOption =
      List.range' (FreshSupply.after env).next (next - (FreshSupply.after env).next) := by
  have nothing : refused.reduceOption = [] := by
    by_cases exhausted : inferWith options env e = .error (.freshExhausted {})
    · rw [(h.exhausted exhausted).2]
      rfl
    · rw [h.unrefused exhausted]
      rfl
  rw [h.requests, List.reduceOption_append, nothing, List.append_nil]
  simp [answers, List.reduceOption, List.filterMap_map]

theorem mem_minted (h : HandsOut options env e next refused) {n : Nat} :
    n ∈ (inferJournaled options env e).2.reduceOption ↔ (FreshSupply.after env).next ≤ n ∧ n < next := by
  rw [h.minted, List.mem_range'_1]
  omega

theorem none_mem_iff (h : HandsOut options env e next refused) :
    none ∈ (inferJournaled options env e).2 ↔ inferWith options env e = .error (.freshExhausted {}) := by
  rw [h.requests]
  constructor
  · intro refusal
    by_contra ended
    rw [h.unrefused ended] at refusal
    simp [answers] at refusal
  · intro ended
    rw [(h.exhausted ended).2]
    simp

end HandsOut

/-- The journal belongs to the run of inference itself. Every variable of a result is free in the
environment or was minted in the run. Minted numbers ascend and are above all numbers that the environment
uses, and a run that is refused a number has been handed all of these and ends at once. -/
theorem inference_mints_fresh_variables (options : InferOptions) (env : TypeEnv) (e : Expr) :
    let run := inferJournaled options env e
    let minted := run.2.reduceOption
    Journaled.Erases (Journaled.infer env e) (do Infer.finish (← Infer.expr env e)) ∧
      run.1 = inferWith options env e ∧
      (∀ i, inferWith options env e = .ok i → ∀ v, i.Mentions v →
        v ∈ env.freeVars ∨ ∃ n ∈ minted, v = .fresh n) ∧
      (∀ n ∈ minted, n < 2 ^ 32 ∧ ∀ m, env.UsesNumber m → m < n) ∧
      minted.Pairwise (· < ·) ∧
      (none ∈ run.2 ↔ inferWith options env e = .error (.freshExhausted {})) ∧
      (none ∈ run.2 → run.2 = minted.map some ++ [none] ∧
        ∀ n, n < 2 ^ 32 → (∀ m, env.UsesNumber m → m < n) → n ∈ minted) := by
  intro run minted
  obtain ⟨next, refused, h⟩ := exists_handsOut options env e
  refine ⟨Journaled.infer_erases env e, inferJournaled_fst options env e,
    fun i inferred v mentioned => ?_, fun n hn => ?_, ?_, h.none_mem_iff, fun refusal => ?_⟩
  · obtain free | ⟨n, lower, upper, rfl⟩ := h.mentioned i inferred v mentioned
    · exact .inl free
    · exact .inr ⟨n, h.mem_minted.mpr ⟨lower, upper⟩, rfl⟩
  · obtain ⟨lower, upper⟩ := h.mem_minted.mp hn
    have below : n < freshLimit := Nat.lt_of_lt_of_le upper h.bounded
    refine ⟨below, ?_⟩
    rintro m ⟨p, hp, hm⟩
    have start := FreshSupply.le_next_after hp hm
    omega
  · show run.2.reduceOption.Pairwise (· < ·)
    rw [h.minted]
    exact List.pairwise_lt_range'
  · obtain ⟨last, only⟩ := h.exhausted (h.none_mem_iff.mp refusal)
    refine ⟨?_, fun n below above => h.mem_minted.mpr ⟨FreshSupply.next_after_le above, last ▸ below⟩⟩
    show run.2 = run.2.reduceOption.map some ++ [none]
    rw [h.minted, h.requests, only]
    rfl

-- In the first run `x` also has a shadowed frame and the annotation a variable of its own. In the second
-- one a single number is left.
set_option maxRecDepth 4000 in
theorem inference_mints_fresh_variables_shadowed :
    let env := (TypeEnv.empty.extend "x" ⟨[.fresh 7], .var (.fresh 7)⟩).extend "x" (.mono (.var (.fresh 3)))
    let identity := Ty.function (.var (.named "a")) (.var (.named "a"))
    let e := Expr.app (.ascribe (.lambda "y" (.var "y")) identity) (.var "x")
    let full := TypeEnv.empty.extend "x" (.mono (.var (.fresh (2 ^ 32 - 2))))
    (∃ i, inferWith {} env e = .ok i ∧ i.ty = .var (.fresh 10) ∧
      ∀ v, i.Mentions v → v ∈ [.fresh 3, .fresh 8, .fresh 9, .fresh 10]) ∧
    inferWith {} full (.lambda "y" (.lambda "z" (.var "x"))) = .error (.freshExhausted {}) := by
  intro env identity e full
  constructor
  · have inferred : infer env e = .ok (.var (.fresh 10)) := by cbv
    have journal : (inferJournaled {} env e).2 = [some 8, some 9, some 10] := by cbv
    obtain ⟨i, ok, type⟩ := Infer.map_eq_ok.mp inferred
    refine ⟨i, ok, type, fun v mentioned => ?_⟩
    obtain free | ⟨n, minted, rfl⟩ := (inference_mints_fresh_variables {} env e).2.2.1 i ok v mentioned
    · have visible : env.freeVars = [.fresh 3] := by decide
      exact List.mem_cons.mpr (.inl (List.mem_singleton.mp (visible ▸ free)))
    · have known : n ∈ [8, 9, 10] := by simpa [journal] using minted
      exact List.mem_cons_of_mem _ (List.mem_map_of_mem known)
  · have journal : (inferJournaled {} full (.lambda "y" (.lambda "z" (.var "x")))).2 =
        [some (2 ^ 32 - 1), none] := by cbv
    exact (inference_mints_fresh_variables {} full _).2.2.2.2.2.1.mp (by simp [journal])

end OpCalculus
