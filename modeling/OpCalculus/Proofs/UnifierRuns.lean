import OpCalculus.Proofs.Solving
import OpCalculus.Proofs.SubstitutionLaws

/-!
# Runs of a unifier

Unification composes substitutions and binds variables without looking whether the result is still
resolved. The guarded unifier looks every time and stops with a fault where it is not; it never stops
and answers like the unifier itself (`serveAllGuarded_eq`). Over a run the accumulated substitution is
only refined, so what was unified once stays equal.
-/

namespace OpCalculus

/-! ## Guarded unification -/

/-- Where unification would have to give up. -/
inductive Fault where
  | escape (e : EscapeError)
  | refused (e : SubstitutionError)

inductive Stop where
  | conflict (e : UnifyError)
  | fault (f : Fault)

namespace Unification

variable {l r a b c d t : Ty} {v : TypeVar} {s : Substitution}

def tryBind (v : TypeVar) (t : Ty) : Except Stop Substitution :=
  match Substitution.singleton v t with
  | .ok s => .ok s
  | .error (.occurs v t) => .error (.conflict (.occursCheck v t))
  | .error e => .error (.fault (.refused e))

def tryJoin (first second : Substitution) : Except Stop Substitution :=
  match first.andThen? second with
  | .ok s => .ok s
  | .error e => .error (.fault (.escape e))

theorem tryBind_of_occurs (other : t ≠ .var v) (occurs : v ∈ t.occurrences) :
    tryBind v t = .error (.conflict (.occursCheck v t)) := by
  simp [tryBind, Substitution.singleton, other, occurs]

theorem tryBind_of_absent (other : t ≠ .var v) (absent : v ∉ t.occurrences) :
    tryBind v t = .ok (.single v t absent) := by
  simp [tryBind, Substitution.singleton, other, absent]

theorem tryJoin_of_avoids {first second : Substitution} (avoids : second.Avoids first) :
    tryJoin first second = .ok (first.andThen second avoids) := by
  rw [tryJoin, Substitution.andThen?_of_avoids avoids]

theorem within_of_tryBind (binds : Binds l r v t) (h : tryBind v t = .ok s) : Within s (pairVars l r) := by
  by_cases occurs : v ∈ t.occurrences
  · rw [tryBind_of_occurs binds.other occurs] at h
    cases h
  · rw [tryBind_of_absent binds.other occurs] at h
    cases h
    exact .single binds.bound binds.mentioned

theorem within_of_tryJoin (splits : Splits l r a b c d) {first : Solution a c}
    {second : Solution (first.1.apply b) (first.1.apply d)} (h : tryJoin first.1 second.1 = .ok s) :
    Within s (pairVars l r) := by
  rw [tryJoin_of_avoids (Splits.avoids second.2)] at h
  cases h
  exact splits.within_andThen first.2 second.2

/-- An outcome whose substitution is known to be a solution. -/
def certified (outcome : Except Stop Substitution)
    (within : ∀ s, outcome = .ok s → Within s (pairVars l r)) : Except Stop (Solution l r) :=
  match outcome, within with
  | .ok s, within => .ok ⟨s, within s rfl⟩
  | .error e, _ => .error e

def guarded : Actions (Except Stop) where
  note _ := return
  bind {_ _ v t} binds := certified (tryBind v t) fun _ => within_of_tryBind binds
  fail e := throw (.conflict e)
  join splits first second := certified (tryJoin first.1 second.1) fun _ => within_of_tryJoin splits

def solveGuarded (l r : Ty) : Except Stop (Solution l r) := solveWith guarded l r

theorem certified_of_ok {outcome : Except Stop Substitution}
    {within : ∀ s, outcome = .ok s → Within s (pairVars l r)} {s : Solution l r} (h : outcome = .ok s.1) :
    certified outcome within = .ok s := by
  subst h
  rfl

theorem certified_of_error {outcome : Except Stop Substitution}
    {within : ∀ s, outcome = .ok s → Within s (pairVars l r)} {e : Stop} (h : outcome = .error e) :
    certified outcome within = .error e := by
  subst h
  rfl

theorem guarded_bind (binds : Binds l r v t) : guarded.bind binds = (bindVar binds).mapError .conflict := by
  unfold bindVar
  split
  · rename_i occurs
    exact certified_of_error (tryBind_of_occurs binds.other occurs)
  · rename_i absent
    exact certified_of_ok (tryBind_of_absent binds.other absent)

theorem guarded_join (splits : Splits l r a b c d) (first : Solution a c)
    (second : Solution (first.1.apply b) (first.1.apply d)) :
    guarded.join splits first second = .ok (join splits first second) :=
  certified_of_ok (tryJoin_of_avoids (Splits.avoids second.2))

theorem guarded_of_move {next : Move l r} (h : move l r = next) :
    solveGuarded l r = guarded.make (fun a b _ => solveGuarded a b) next := by
  rw [solveGuarded, solveWith_of_move h]
  rfl

theorem guarded_of_split {pair : Pair l r a b c d} (here : move l r = .split a b c d pair)
    (first : solveGuarded a c = (solve a c).mapError .conflict)
    (second : ∀ s : Solution a c, solveGuarded (s.1.apply b) (s.1.apply d) =
      (solve (s.1.apply b) (s.1.apply d)).mapError .conflict) :
    solveGuarded l r = (solve l r).mapError .conflict := by
  rw [guarded_of_move here, Actions.make, first]
  cases solved : solve a c with
  | error e =>
      rw [solve_of_split_error here solved]
      rfl
  | ok s =>
      rw [solve_of_split_ok here solved]
      change (solveGuarded (s.1.apply b) (s.1.apply d) >>= guarded.join pair.splits s) = _
      rw [second]
      cases solve (s.1.apply b) (s.1.apply d) with
      | error e => rfl
      | ok s₂ => exact guarded_join pair.splits s s₂

/-- No check of guarded unification fails. -/
theorem solveGuarded_eq (l r : Ty) : solveGuarded l r = (solve l r).mapError .conflict := by
  induction l, r using byMoves with
  | skip t =>
      rw [guarded_of_move (move_self t), solve_self]
      rfl
  | bind l r v t binds here =>
      rw [guarded_of_move here, solve_of_move here]
      exact guarded_bind binds
  | clash l r here | misfit l r differ here =>
      rw [guarded_of_move here, solve_of_move here]
      rfl
  | enter l r a b element here inner =>
      rw [guarded_of_move here, solve_of_enter here, Actions.make, inner]
      cases solve a b <;> rfl
  | split l r a b c d pair here first second => exact guarded_of_split here first second

end Unification

/-! ## Requests -/

inductive Request where
  | unify (expected actual : Ty)
  | solve (constraints : List Constraint)

namespace Unifier

open Substitution Unification

variable {u v w : Unifier} {l r : Ty} {step : Substitution} {constraints : List Constraint}

def serve (u : Unifier) : Request → Unifier
  | .unify expected actual => (u.unify expected actual).2
  | .solve constraints => (u.solve constraints).2

def serveAll (u : Unifier) (requests : List Request) : Unifier := requests.foldl serve u

def unifyGuarded (u : Unifier) (expected actual : Ty) :
    Except Fault (Except UnifyError Substitution × Unifier) :=
  let l := u.substitution.apply expected
  let r := u.substitution.apply actual
  let recorded := u.record l r
  match solveGuarded l r with
  | .error (.fault f) => .error f
  | .error (.conflict e) => .ok (.error e, recorded)
  | .ok step =>
      match u.substitution.andThen? step.1 with
      | .error e => .error (.escape e)
      | .ok s => .ok (.ok step.1, { recorded with substitution := s })

def solveGuarded (u : Unifier) : List Constraint → Except Fault (Except SolveError Unit × Unifier)
  | [] => .ok (.ok (), u)
  | c :: rest =>
      if u.maxConstraints ≤ u.solved then .ok (.error (.budgetExceeded u.maxConstraints), u)
      else
        match { u with solved := u.solved + 1 }.unifyGuarded c.expected c.actual with
        | .error f => .error f
        | .ok (.ok _, next) => next.solveGuarded rest
        | .ok (.error cause, next) =>
            .ok (.error (.typeMismatch (next.substitution.apply c.expected)
              (next.substitution.apply c.actual) c.reason cause), next)

def serveGuarded (u : Unifier) : Request → Except Fault Unifier
  | .unify expected actual => (u.unifyGuarded expected actual).map Prod.snd
  | .solve constraints => (u.solveGuarded constraints).map Prod.snd

def serveAllGuarded (u : Unifier) (requests : List Request) : Except Fault Unifier :=
  requests.foldlM serveGuarded u

/-! ## No request faults -/

theorem unifyGuarded_eq (u : Unifier) (l r : Ty) : u.unifyGuarded l r = .ok (u.unify l r) := by
  unfold unifyGuarded unify
  simp only [Unification.solveGuarded_eq]
  cases Unification.solve (u.substitution.apply l) (u.substitution.apply r) with
  | error e => rfl
  | ok step =>
      have accepted := andThen?_of_avoids (Splits.avoids step.2)
      have unchanged : (Except.ok step).mapError Stop.conflict = .ok step := rfl
      simp only [unchanged, accepted]

theorem solveGuarded_eq (u : Unifier) (constraints : List Constraint) :
    u.solveGuarded constraints = .ok (u.solve constraints) := by
  induction constraints generalizing u with
  | nil => rfl
  | cons c rest ih =>
      rw [solveGuarded, solve, unifyGuarded_eq]
      split
      · rfl
      · cases { u with solved := u.solved + 1 }.unify c.expected c.actual with
        | mk answer next =>
            cases answer with
            | ok step => exact ih next
            | error e => rfl

theorem serveGuarded_eq (u : Unifier) (request : Request) :
    u.serveGuarded request = .ok (u.serve request) := by
  cases request with
  | unify l r =>
      rw [serveGuarded, unifyGuarded_eq]
      rfl
  | solve constraints =>
      rw [serveGuarded, solveGuarded_eq]
      rfl

theorem serveAllGuarded_eq (u : Unifier) (requests : List Request) :
    u.serveAllGuarded requests = .ok (u.serveAll requests) := by
  induction requests generalizing u with
  | nil => rfl
  | cons request requests ih =>
      rw [serveAllGuarded, List.foldlM_cons, serveGuarded_eq]
      exact ih (u.serve request)

/-! ## One unification -/

@[simp] theorem record_substitution (l r : Ty) : (u.record l r).substitution = u.substitution := by
  unfold record
  split <;> rfl

theorem substitution_of_unify_error {e : UnifyError} (h : u.unify l r = (.error e, v)) :
    v.substitution = u.substitution := by
  unfold unify at h
  cases solved : Unification.solve (u.substitution.apply l) (u.substitution.apply r) with
  | error e =>
      simp only [solved] at h
      cases h
      exact record_substitution _ _
  | ok step =>
      simp only [solved] at h
      cases h

theorem substitution_of_unify_ok (h : u.unify l r = (.ok step, v)) :
    ∃ within : Within step (pairVars (u.substitution.apply l) (u.substitution.apply r)),
      MostGeneral step (u.substitution.apply l) (u.substitution.apply r) ∧
      v.substitution = u.substitution.andThen step (Splits.avoids within) := by
  have settled := solve_settles (u.substitution.apply l) (u.substitution.apply r)
  unfold unify at h
  cases solved : Unification.solve (u.substitution.apply l) (u.substitution.apply r) with
  | error e =>
      simp only [solved] at h
      cases h
  | ok solution =>
      rw [solved] at settled
      simp only [solved] at h
      cases h
      exact ⟨solution.2, settled, rfl⟩

theorem disjoint_of_unify_ok (h : u.unify l r = (.ok step, v)) {x : TypeVar} {t : Ty}
    (bound : step.get? x = some t) : u.substitution.get? x = none := by
  obtain ⟨within, -, -⟩ := substitution_of_unify_ok h
  rcases List.mem_append.mp (within.bound x t bound) with hx | hx <;> exact get?_of_mem_apply hx

theorem equal_of_unify_ok (h : u.unify l r = (.ok step, v)) :
    v.substitution.apply l = v.substitution.apply r := by
  obtain ⟨within, general, equal⟩ := substitution_of_unify_ok h
  rw [equal, apply_andThen, apply_andThen, general.equal]

/-! ## Runs only refine -/

def RefinedBy (u v : Unifier) : Prop := u.substitution.RefinedWithin (fun _ => True) v.substitution

theorem RefinedBy.trans (h : u.RefinedBy v) (h' : v.RefinedBy w) : u.RefinedBy w :=
  RefinedWithin.trans h h'

theorem RefinedBy.apply_eq (h : u.RefinedBy v) (equal : u.substitution.apply l = u.substitution.apply r) :
    v.substitution.apply l = v.substitution.apply r := by
  have absorbed := h.absorbed v.substitution.absorbedBy_image
  calc v.substitution.apply l
      = v.substitution.apply (u.substitution.apply l) := (absorbed.bind_apply l).symm
    _ = v.substitution.apply (u.substitution.apply r) := by rw [equal]
    _ = v.substitution.apply r := absorbed.bind_apply r

theorem refinedBy_unify (u : Unifier) (l r : Ty) : u.RefinedBy (u.unify l r).2 := by
  unfold RefinedBy
  cases h : u.unify l r with
  | mk answer v =>
      cases answer with
      | error e =>
          rw [substitution_of_unify_error h]
          exact .refl _ _
      | ok step =>
          obtain ⟨within, -, equal⟩ := substitution_of_unify_ok h
          rw [equal]
          exact .andThen _ within fun _ _ => trivial

theorem refinedBy_solve (u : Unifier) (constraints : List Constraint) :
    u.RefinedBy (u.solve constraints).2 := by
  induction constraints generalizing u with
  | nil => exact .refl _ _
  | cons c rest ih =>
      rw [solve]
      split
      · exact .refl _ _
      · have first := refinedBy_unify { u with solved := u.solved + 1 } c.expected c.actual
        cases unified : { u with solved := u.solved + 1 }.unify c.expected c.actual with
        | mk answer next =>
            rw [unified] at first
            cases answer with
            | ok step => exact first.trans (ih next)
            | error e => exact first

theorem refinedBy_serveAll (u : Unifier) (requests : List Request) :
    u.RefinedBy (u.serveAll requests) := by
  induction requests generalizing u with
  | nil => exact .refl _ _
  | cons request requests ih =>
      have first : u.RefinedBy (u.serve request) := by
        cases request with
        | unify l r => exact refinedBy_unify u l r
        | solve constraints => exact refinedBy_solve u constraints
      exact first.trans (ih (u.serve request))

-- A solver that got through the first constraints goes on with the others.
theorem solve_append (h : u.solve constraints = (.ok (), v)) (rest : List Constraint) :
    u.solve (constraints ++ rest) = v.solve rest := by
  induction constraints generalizing u with
  | nil =>
      cases h
      rfl
  | cons c constraints ih =>
      rw [List.cons_append, solve]
      rw [solve] at h
      split at h
      · cases h
      · rename_i budget
        rw [if_neg budget]
        cases unified : { u with solved := u.solved + 1 }.unify c.expected c.actual with
        | mk answer next =>
            rw [unified] at h
            cases answer with
            | ok step => exact ih h
            | error e => cases h

theorem equal_of_solve_ok (h : u.solve constraints = (.ok (), v)) {k : Constraint} (hk : k ∈ constraints) :
    v.substitution.apply k.expected = v.substitution.apply k.actual :=
  (solve_eq_ok h).1.holds v.substitution.absorbedBy_image k hk

end Unifier

/-- Whatever a unifier was asked, no check of the guarded unifier fails and its substitution is
idempotent. A failing unification leaves the substitution as it was, a successful one composes it with
a step that binds other variables. What was unified, alone or on the way through a list of
constraints, is equal after all later requests. -/
theorem unifier_runs_are_safe (u : Unifier) (history later : List Request) :
    let v := u.serveAll history
    u.serveAllGuarded history = .ok v ∧
    (∀ t, v.substitution.apply (v.substitution.apply t) = v.substitution.apply t) ∧
    (∀ l r,
      (∀ e w, v.unify l r = (.error e, w) → w.substitution = v.substitution) ∧
      ∀ step w, v.unify l r = (.ok step, w) →
        v.substitution.andThen? step = .ok w.substitution ∧
        (∀ x t, step.get? x = some t → v.substitution.get? x = none) ∧
        (w.serveAll later).substitution.apply l = (w.serveAll later).substitution.apply r) ∧
    ∀ solved k rest, (v.solve (solved ++ [k])).1 = .ok () →
      let w := (v.solve (solved ++ k :: rest)).2.serveAll later
      w.substitution.apply k.expected = w.substitution.apply k.actual := by
  intro v
  refine ⟨u.serveAllGuarded_eq history, v.substitution.apply_apply,
    fun l r => ⟨fun e w h => ?_, fun step w h => ?_⟩, fun solved k rest ok => ?_⟩
  · exact Unifier.substitution_of_unify_error h
  · obtain ⟨within, -, equal⟩ := Unifier.substitution_of_unify_ok h
    refine ⟨?_, fun x t => Unifier.disjoint_of_unify_ok h, ?_⟩
    · rw [equal]
      exact Substitution.andThen?_of_avoids _
    · exact (w.refinedBy_serveAll later).apply_eq (Unifier.equal_of_unify_ok h)
  · have reached : v.solve (solved ++ [k]) = (.ok (), (v.solve (solved ++ [k])).2) := Prod.ext ok rfl
    have equal := Unifier.equal_of_solve_ok reached (k := k) (by simp)
    have whole : v.solve (solved ++ k :: rest) = (v.solve (solved ++ [k])).2.solve rest := by
      simpa using Unifier.solve_append reached rest
    rw [whole]
    exact ((Unifier.refinedBy_solve _ rest).trans (Unifier.refinedBy_serveAll _ later)).apply_eq equal

-- The history starts from a binding and ends in a conflict; its first constraint was solved before.
theorem unifier_runs_are_safe_after_conflict :
    let bound : Substitution := .single (.named "c") .int (by simp [Ty.occurrences])
    let u : Unifier := { substitution := bound }
    let k : Constraint := ⟨.var (.named "a"), .sequence (.var (.named "c")), .application⟩
    let clash : Constraint := ⟨.int, .bool, .ascription⟩
    (u.solve [k]).1 = .ok () ∧ (u.solve [k, clash]).1 ≠ .ok () ∧
      u.serveAllGuarded [.solve [k, clash]] = .ok (u.serveAll [.solve [k, clash]]) ∧
      let w := u.serveAll [.solve [k, clash], .unify (.var (.named "b")) (.var (.named "a"))]
      w.substitution.apply (.var (.named "a")) = w.substitution.apply (.sequence (.var (.named "c"))) := by
  intro bound u k clash
  have solved : (u.solve ([] ++ [k])).1 = .ok () := by
    let q : TypeVar → Ty := fun x => if x = .named "a" then .sequence .int else .int
    have absorbed : bound.AbsorbedBy q := by
      refine Substitution.absorbedBy_single ?_
      decide
    have holds : ∀ c ∈ [k], c.HoldsUnder q := by simp [k, q, Constraint.HoldsUnder, Ty.bind]
    obtain ⟨v, h⟩ := Unifier.exists_solve_eq_ok (u := u) absorbed holds (by decide)
    rw [List.nil_append, h]
  refine ⟨solved, fun ok => ?_, (unifier_runs_are_safe u [.solve [k, clash]] []).1,
    (unifier_runs_are_safe u [] [.unify (.var (.named "b")) (.var (.named "a"))]).2.2.2 [] k [clash] solved⟩
  have through : u.solve [k, clash] = (.ok (), (u.solve [k, clash]).2) := Prod.ext ok rfl
  have equal := Unifier.equal_of_solve_ok through (k := clash) (by simp)
  cases equal

end OpCalculus
