import Mathlib
import OpCalculus.Proofs.UnifierRuns

/-!
# Unification ends

One call of unification, with its recursive calls left to an oracle (`call`), has no reason to end of its own.
Run with a log it tells its recursive calls (`recursiveCalls`); nested in itself it is the plain recursion, cut
off at a depth (`toDepth`). A recursive call has fewer variables than its caller, or as many and a smaller size.
Applying the solution of a first pair can make the second pair larger than both types together, but a solution
that binds anything takes a variable away from it and brings none in. So some depth is always enough.
-/

namespace OpCalculus

namespace Unification

open MonadExcept

variable {m : Type → Type} [Monad m] {l r a b c d : Ty} {s : Substitution}

/-! ## One call -/

/-- Answers two types by a substitution that makes them equal, or stops. -/
abbrev Oracle (m : Type → Type) := Ty → Ty → ExceptT Stop m Substitution

def callPair (self : Oracle m) (a b c d : Ty) : ExceptT Stop m Substitution := do
  let first ← self a c
  let second ← self (first.apply b) (first.apply d)
  ofExcept (tryJoin first second)

/-- Makes a move, asking an oracle for the recursive calls. -/
def callMove (self : Oracle m) : Move l r → ExceptT Stop m Substitution
  | .skip _ => return .empty
  | .bind v t _ => ofExcept (tryBind v t)
  | .clash => throw (.conflict (.kindMismatch l r))
  | .misfit _ => throw (.conflict (.dimensionMismatch l r))
  | .enter a b _ => self a b
  | .split a b c d _ => callPair self a b c d

/-- A call of unification that asks an oracle where it would call itself. -/
def call (self : Oracle m) (l r : Ty) : ExceptT Stop m Substitution := callMove self (move l r)

/-- What unification answers. -/
def outcome (l r : Ty) : Except Stop Substitution := (unify l r).mapError .conflict

/-- What unification answers to a first pair and, under its solution, a second one. -/
def pairOutcome (a b c d : Ty) : Except Stop Substitution := do
  let first ← outcome a c
  let second ← outcome (first.apply b) (first.apply d)
  tryJoin first second

theorem call_of_move {next : Move l r} (h : move l r = next) (self : Oracle m) :
    call self l r = callMove self next := by
  rw [call, h]

theorem call_pair (h : Pair l r a b c d) (other : l ≠ r) (self : Oracle m) :
    call self l r = callPair self a b c d :=
  call_of_move (move_of_pair h other) self

theorem outcome_eq_ok : outcome l r = .ok s ↔ unify l r = .ok s := by
  unfold outcome
  cases unify l r <;> simp [Except.mapError]

theorem outcome_of_solve_ok {s : Solution l r} (h : solve l r = .ok s) : outcome l r = .ok s.1 :=
  outcome_eq_ok.mpr (unify_eq_ok.mpr ⟨s, h, rfl⟩)

theorem outcome_of_solve_error {e : UnifyError} (h : solve l r = .error e) :
    outcome l r = .error (.conflict e) := by
  rw [outcome, unify_eq_error.mpr h]
  rfl

theorem pairOutcome_of_error {e : Stop} (h : outcome a c = .error e) : pairOutcome a b c d = .error e := by
  rw [pairOutcome, h]
  rfl

theorem pairOutcome_of_ok (h : outcome a c = .ok s) :
    pairOutcome a b c d = (outcome (s.apply b) (s.apply d)).bind (tryJoin s) := by
  rw [pairOutcome, h]
  rfl

/-! ## What a call does -/

/-- A call knows its answer, passes on its one recursive call, or joins the answers of two. -/
inductive CallForm (l r : Ty) : Prop
  | settled (x : Except Stop Substitution) (outcome : outcome l r = x)
      (call : ∀ {m : Type → Type} [Monad m] (self : Oracle m), call self l r = ofExcept x)
  | element (a b : Ty) (element : Element l r a b) (outcome : outcome l r = outcome a b)
      (call : ∀ {m : Type → Type} [Monad m] (self : Oracle m), call self l r = self a b)
  | pair (a b c d : Ty) (pair : Pair l r a b c d) (other : l ≠ r) (outcome : outcome l r = pairOutcome a b c d)

theorem outcome_of_move {next : Move l r} (h : move l r = next) :
    outcome l r = ((plain.make (fun a b _ => solve a b) next).map Subtype.val).mapError .conflict := by
  rw [outcome, unify, solve_of_move h]

theorem tryBind_eq {v : TypeVar} {t : Ty} (binds : Binds l r v t) :
    ((bindVar binds).map Subtype.val).mapError .conflict = tryBind v t := by
  unfold bindVar
  split
  · rename_i occurs
    exact (tryBind_of_occurs binds.other occurs).symm
  · rename_i absent
    exact (tryBind_of_absent binds.other absent).symm

theorem outcome_of_enter {element : Element l r a b} (here : move l r = .enter a b element) :
    outcome l r = outcome a b := by
  unfold outcome unify
  rw [solve_of_enter here]
  cases solve a b <;> rfl

theorem outcome_of_split {pair : Pair l r a b c d} (here : move l r = .split a b c d pair) :
    outcome l r = pairOutcome a b c d := by
  cases first : solve a c with
  | error e =>
      rw [pairOutcome_of_error (outcome_of_solve_error first),
        outcome_of_solve_error (solve_of_split_error here first)]
  | ok s =>
      rw [pairOutcome_of_ok (outcome_of_solve_ok first)]
      have whole := solve_of_split_ok here first
      cases second : solve (s.1.apply b) (s.1.apply d) with
      | error e =>
          rw [second] at whole
          rw [outcome_of_solve_error whole, outcome_of_solve_error second]
          rfl
      | ok s₂ =>
          rw [second] at whole
          rw [outcome_of_solve_ok whole, outcome_of_solve_ok second]
          exact (tryJoin_of_avoids (Splits.avoids s₂.2)).symm

theorem callForm (l r : Ty) : CallForm l r := by
  cases here : move l r with
  | skip same => exact .settled _ (outcome_of_move here) fun self => call_of_move here self
  | bind v t binds =>
      exact .settled (tryBind v t) ((outcome_of_move here).trans (tryBind_eq binds)) fun self => call_of_move here self
  | clash | misfit differ => exact .settled _ (outcome_of_move here) fun self => call_of_move here self
  | enter a b element =>
      exact .element a b element (outcome_of_enter here) fun self => call_of_move here self
  | split a b c d pair =>
      have other : l ≠ r := ne_of_move here (by simp)
      exact .pair a b c d pair other (outcome_of_split here)

/-! ## Recursive calls -/

abbrev Logging := ExceptT Stop (StateM (List (Ty × Ty)))

/-- Answers as unification does and writes down what it was asked. -/
def asking : Oracle (StateM (List (Ty × Ty))) := fun l r => do
  modify (· ++ [(l, r)])
  ofExcept (outcome l r)

/-- The pairs on which a call calls itself, in order. -/
def recursiveCalls (l r : Ty) : List (Ty × Ty) := ((call asking l r).run.run []).2

theorem run_ofExcept (x : Except Stop Substitution) (calls : List (Ty × Ty)) :
    (ofExcept x : Logging Substitution).run.run calls = (x, calls) := by
  cases x <;> rfl

theorem run_asking (l r : Ty) (calls : List (Ty × Ty)) :
    (asking l r).run.run calls = (outcome l r, calls ++ [(l, r)]) := by
  rw [← run_ofExcept]
  rfl

theorem run_asking_bind_of_ok (h : outcome l r = .ok s) (next : Substitution → Logging Substitution)
    (calls : List (Ty × Ty)) : (asking l r >>= next).run.run calls = (next s).run.run (calls ++ [(l, r)]) := by
  rw [ExceptT.run_bind, StateT.run_bind, run_asking, h]
  rfl

theorem run_asking_bind_of_error {e : Stop} (h : outcome l r = .error e)
    (next : Substitution → Logging Substitution) (calls : List (Ty × Ty)) :
    (asking l r >>= next).run.run calls = (.error e, calls ++ [(l, r)]) := by
  rw [ExceptT.run_bind, StateT.run_bind, run_asking, h]
  rfl

theorem recursiveCalls_settled {x : Except Stop Substitution} (h : call asking l r = ofExcept x) :
    recursiveCalls l r = [] := by
  rw [recursiveCalls, h, run_ofExcept]

theorem recursiveCalls_element (h : call asking l r = asking a b) : recursiveCalls l r = [(a, b)] := by
  rw [recursiveCalls, h, run_asking, List.nil_append]

theorem recursiveCalls_of_error {e : Stop} (h : Pair l r a b c d) (other : l ≠ r)
    (first : outcome a c = .error e) : recursiveCalls l r = [(a, c)] := by
  rw [recursiveCalls, call_pair h other, callPair, run_asking_bind_of_error first, List.nil_append]

theorem recursiveCalls_of_ok (h : Pair l r a b c d) (other : l ≠ r) (first : outcome a c = .ok s) :
    recursiveCalls l r = [(a, c), (s.apply b, s.apply d)] := by
  rw [recursiveCalls, call_pair h other, callPair, run_asking_bind_of_ok first]
  cases second : outcome (s.apply b) (s.apply d) with
  | error e =>
      rw [run_asking_bind_of_error second]
      rfl
  | ok s₂ =>
      rw [run_asking_bind_of_ok second, run_ofExcept]
      rfl

theorem mem_recursiveCalls {p : Ty × Ty} (h : Pair l r a b c d) (other : l ≠ r) :
    p ∈ recursiveCalls l r ↔ p = (a, c) ∨ ∃ s, outcome a c = .ok s ∧ p = (s.apply b, s.apply d) := by
  cases first : outcome a c with
  | error e => simp [recursiveCalls_of_error h other first]
  | ok s => simp [recursiveCalls_of_ok h other first]

theorem callPair_eq [LawfulMonad m] {self : Oracle m} (first : self a c = ofExcept (outcome a c))
    (second : ∀ s, outcome a c = .ok s →
      self (s.apply b) (s.apply d) = ofExcept (outcome (s.apply b) (s.apply d))) :
    callPair self a b c d = ofExcept (pairOutcome a b c d) := by
  unfold callPair
  rw [first]
  cases answer : outcome a c with
  | error e =>
      rw [pairOutcome_of_error answer]
      exact ExceptT.bind_throw _
  | ok s =>
      rw [pairOutcome_of_ok answer]
      refine (pure_bind s _).trans ?_
      rw [second s answer]
      cases outcome (s.apply b) (s.apply d) with
      | error e => exact ExceptT.bind_throw _
      | ok s₂ => exact pure_bind s₂ _

/-- An oracle that is right about the recursive calls makes a call give the answer of unification. -/
theorem call_eq [LawfulMonad m] {self : Oracle m}
    (answered : ∀ p ∈ recursiveCalls l r, self p.1 p.2 = ofExcept (outcome p.1 p.2)) :
    call self l r = ofExcept (outcome l r) := by
  cases callForm l r with
  | settled x outcome call => rw [call, outcome]
  | element a b element outcome call =>
      rw [recursiveCalls_element (call asking)] at answered
      rw [call, outcome]
      exact answered (a, b) (List.mem_singleton_self _)
  | pair a b c d pair other outcome =>
      simp only [mem_recursiveCalls pair other] at answered
      rw [call_pair pair other, outcome]
      exact callPair_eq (answered (a, c) (.inl rfl)) fun s first =>
        answered (s.apply b, s.apply d) (.inr ⟨s, first, rfl⟩)

/-! ## The measure goes down -/

theorem recursiveCalls_decrease {p : Ty × Ty} (h : p ∈ recursiveCalls l r) :
    Prod.Lex (· < ·) (· < ·) (varCount p.1 p.2, totalSize p.1 p.2) (varCount l r, totalSize l r) := by
  cases callForm l r with
  | settled x outcome call =>
      rw [recursiveCalls_settled (call asking)] at h
      cases h
  | element a b element outcome call =>
      rw [recursiveCalls_element (call asking), List.mem_singleton] at h
      rw [h]
      exact element.decreases
  | pair a b c d pair other _ =>
      obtain rfl | ⟨s, first, rfl⟩ := (mem_recursiveCalls pair other).mp h
      · exact pair.splits.first_decreases
      · exact pair.splits.second_decreases (within_of_unify (outcome_eq_ok.mp first))

theorem wellFounded_recursiveCalls : WellFounded fun p q : Ty × Ty => p ∈ recursiveCalls q.1 q.2 :=
  Subrelation.wf recursiveCalls_decrease
    (InvImage.wf (fun p : Ty × Ty => (varCount p.1 p.2, totalSize p.1 p.2))
      (WellFounded.prod_lex wellFounded_lt wellFounded_lt))

-- What the solution binds is gone, and what it mentions was there before.
theorem Splits.second_ssubset (h : Splits l r a b c d) (within : Within s (pairVars a c)) (binds : s ≠ .empty) :
    {v | v ∈ pairVars (s.apply b) (s.apply d)} ⊂ {v | v ∈ pairVars l r} := by
  obtain ⟨v, t, bound⟩ := Substitution.exists_get?_eq_some binds
  refine (Set.ssubset_iff_of_subset (h.second_subset within)).mpr ⟨v, ?_, second_avoids bound⟩
  exact h.first_subset (within.bound v t bound)

/-! ## The plain recursion -/

/-- Calls nested in one another up to a depth, below which there is no answer. -/
def toDepth : Nat → Oracle Option
  | 0 => fun _ _ => ExceptT.mk none
  | depth + 1 => call (toDepth depth)

theorem exists_depth (p : Ty × Ty) :
    ∃ depth, ∀ n, depth ≤ n → toDepth n p.1 p.2 = ofExcept (outcome p.1 p.2) := by
  induction p using wellFounded_recursiveCalls.induction with
  | _ p ih =>
      -- The recursive calls are finitely many, so one depth is enough for all of them.
      have answered : ∀ᶠ n in Filter.atTop, ∀ q ∈ recursiveCalls p.1 p.2,
          toDepth n q.1 q.2 = ofExcept (outcome q.1 q.2) :=
        (Filter.eventually_all_finite (List.finite_toSet _)).mpr fun q hq =>
          Filter.eventually_atTop.mpr (ih q hq)
      obtain ⟨depth, enough⟩ := Filter.eventually_atTop.mp answered
      refine ⟨depth + 1, fun n deeper => ?_⟩
      obtain ⟨k, rfl⟩ := Nat.exists_eq_add_of_le' deeper
      exact call_eq (enough (k + depth) (Nat.le_add_left _ _))

end Unification

open Unification

/-- Unification terminates. Each recursive call has fewer variables than its caller, or as many and a smaller
size; a first solution that binds anything leaves the second pair with strictly fewer variables, whatever its
size. So the plain recursion answers from some depth on, and answers like unification. -/
theorem unify_terminates (l r : Ty) :
    (∀ p ∈ recursiveCalls l r,
      Prod.Lex (· < ·) (· < ·) (varCount p.1 p.2, totalSize p.1 p.2) (varCount l r, totalSize l r)) ∧
    (∀ a b c d s, Pair l r a b c d → unify a c = .ok s →
      (l ≠ r → recursiveCalls l r = [(a, c), (s.apply b, s.apply d)]) ∧
      (s ≠ .empty → {v | v ∈ pairVars (s.apply b) (s.apply d)} ⊂ {v | v ∈ pairVars l r})) ∧
    ∃ depth, ∀ n, depth ≤ n → (toDepth n l r).run = some ((unify l r).mapError .conflict) := by
  refine ⟨fun p => recursiveCalls_decrease, fun a b c d s pair first => ⟨fun other => ?_, ?_⟩, ?_⟩
  · exact recursiveCalls_of_ok pair other (outcome_eq_ok.mpr first)
  · exact pair.splits.second_ssubset (within_of_unify first)
  · obtain ⟨depth, enough⟩ := exists_depth (l, r)
    refine ⟨depth, fun n deeper => ?_⟩
    rw [enough n deeper, ← outcome]
    cases outcome l r <;> rfl

-- The second pair is larger than both types together.
theorem unify_terminates_growing :
    let v (name : String) : Ty := .var (.named name)
    let big : Ty := .function (v "b") (.function (v "b") (v "b"))
    let inner : Ty := .function (v "a") (.function (v "a") (v "a"))
    let l : Ty := .function (v "a") inner
    let r : Ty := .function big (v "c")
    let s : Substitution := .single (.named "a") big (by decide)
    Pair l r (v "a") inner big (v "c") ∧ l ≠ r ∧ unify (v "a") big = .ok s ∧ s ≠ .empty ∧
      totalSize l r < totalSize (s.apply inner) (s.apply (v "c")) ∧
      recursiveCalls l r = [(v "a", big), (s.apply inner, s.apply (v "c"))] ∧
      {x | x ∈ pairVars (s.apply inner) (s.apply (v "c"))} ⊂ {x | x ∈ pairVars l r} ∧
      Prod.Lex (· < ·) (· < ·)
        (varCount (s.apply inner) (s.apply (v "c")), totalSize (s.apply inner) (s.apply (v "c")))
        (varCount l r, totalSize l r) ∧
      ∃ depth, ∀ n, depth ≤ n → (toDepth n l r).run = some ((unify l r).mapError .conflict) := by
  intro v big inner l r s
  have pair : Pair l r (v "a") inner big (v "c") := .function _ _ _ _
  have other : l ≠ r := by decide
  have first : unify (v "a") big = .ok s := by cbv
  have binds : s ≠ .empty := by decide
  have larger : totalSize l r < totalSize (s.apply inner) (s.apply (v "c")) := by decide
  obtain ⟨decrease, second, depth⟩ := unify_terminates l r
  obtain ⟨calls, fewer⟩ := second _ _ _ _ _ pair first
  refine ⟨pair, other, first, binds, larger, calls other, fewer binds,
    decrease (s.apply inner, s.apply (v "c")) ?_, depth⟩
  rw [calls other]
  exact List.mem_cons_of_mem _ (List.mem_singleton_self _)

end OpCalculus
