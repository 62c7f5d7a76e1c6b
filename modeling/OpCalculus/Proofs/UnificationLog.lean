import OpCalculus.Proofs.Solving

/-!
# Unification that keeps a log

A unifier computes the steps of a unification apart from its result. Here each step is written into a log where
it is made, between the recursive calls, under the next number. The result is that of unification and the log
grows by its events, also when it fails (`solveLogged_eq`), so the trace of a solver is the log of its
constraints (`solveAllLogged_of_solve`) and its steps are numbered from one on (`Numbered`).
-/

namespace OpCalculus

/-! ## Traces with events appended -/

/-- The steps of the trace have the numbers from one on. -/
def Numbered (trace : List UnifyStep) : Prop := trace.map UnifyStep.step = List.range' 1 trace.length

theorem appendEvents_append (trace : List UnifyStep) (events more : List UnifyEvent) :
    appendEvents (appendEvents trace events) more = appendEvents trace (events ++ more) := by
  simp [appendEvents, List.zipIdx_append, Nat.add_right_comm]

theorem Numbered.appendEvents {trace : List UnifyStep} (h : Numbered trace) (events : List UnifyEvent) :
    Numbered (appendEvents trace events) := by
  have numbers := List.zipIdx_map_snd (trace.length + 1) events
  unfold Numbered at *
  rw [OpCalculus.appendEvents, List.map_append, h, List.map_map]
  change List.range' 1 _ ++ (events.zipIdx (trace.length + 1)).map Prod.snd = _
  rw [numbers, Nat.add_comm trace.length, List.range'_append_1]
  simp

namespace Unification

variable {l r a b c d : Ty} {α β σ : Type}

/-! ## In-place logging -/

/-- Steps that write into a log, which is kept after a conflict. -/
abbrev Logged := EStateM UnifyError (List UnifyStep)

def solveLogged (l r : Ty) : Logged (Solution l r) :=
  solveWith (logging fun log event => log ++ [{ event with step := log.length + 1 }]) l r

/-- An outcome with the log that it leaves. -/
def withLog (log : σ) : Except UnifyError α → EStateM.Result UnifyError σ α
  | .ok a => .ok a log
  | .error e => .error e log

theorem bind_of_ok {ε : Type} {x : EStateM ε σ α} {f : α → EStateM ε σ β} {s s' : σ} {a : α}
    (h : x s = .ok a s') : (x >>= f) s = f a s' := by
  change EStateM.bind x f s = _
  unfold EStateM.bind
  rw [h]

theorem bind_of_error {ε : Type} {x : EStateM ε σ α} {f : α → EStateM ε σ β} {s s' : σ} {e : ε}
    (h : x s = .error e s') : (x >>= f) s = .error e s' := by
  change EStateM.bind x f s = _
  unfold EStateM.bind
  rw [h]

theorem bind_pure_of_withLog {x : EStateM UnifyError σ α} {log log' : σ} {outcome : Except UnifyError α}
    (h : x log = withLog log' outcome) (f : α → β) :
    (do let a ← x; return f a) log = withLog log' (outcome.map f) := by
  cases outcome with
  | ok a => exact bind_of_ok h
  | error e => exact bind_of_error h

theorem logging_of_move {next : Move l r} (h : move l r = next) (write : σ → UnifyEvent → σ) (log : σ) :
    solveWith (logging write) l r log =
      (logging write).make (fun a b _ => solveWith (logging write) a b) next (write log next.event) := by
  rw [solveWith_of_move h]
  rfl

theorem ofExcept_eq_withLog (outcome : Except UnifyError α) (log : σ) :
    (MonadExcept.ofExcept outcome : EStateM UnifyError σ α) log = withLog log outcome := by
  cases outcome <;> rfl

-- The events are the same whatever is made of them.
theorem exists_events (l r : Ty) :
    ∃ events : List UnifyEvent, ∀ {σ : Type} (write : σ → UnifyEvent → σ) (log : σ),
      solveWith (logging write) l r log = withLog (events.foldl write log) (solve l r) := by
  induction l, r using byMoves with
  | skip t =>
      refine ⟨[(Move.skip rfl : Move t t).event], fun write log => ?_⟩
      rw [logging_of_move (move_self t), solve_self]
      rfl
  | bind l r v t binds here =>
      refine ⟨[(Move.bind v t binds).event], fun write log => ?_⟩
      rw [logging_of_move here, solve_of_move here]
      exact ofExcept_eq_withLog (bindVar binds) _
  | clash l r here =>
      refine ⟨[(Move.clash : Move l r).event], fun write log => ?_⟩
      rw [logging_of_move here, solve_of_move here]
      rfl
  | misfit l r differ here =>
      refine ⟨[(Move.misfit differ).event], fun write log => ?_⟩
      rw [logging_of_move here, solve_of_move here]
      rfl
  | enter l r a b element here inner =>
      obtain ⟨events, logged⟩ := inner
      refine ⟨(Move.enter a b element).event :: events, fun write log => ?_⟩
      rw [logging_of_move here, solve_of_enter here]
      exact bind_pure_of_withLog (logged write _) _
  | split l r a b c d pair here first second =>
      obtain ⟨events, logged⟩ := first
      cases solved : solve a c with
      | error e =>
          simp only [solved] at logged
          refine ⟨(Move.split a b c d pair).event :: events, fun write log => ?_⟩
          rw [logging_of_move here, solve_of_split_error here solved]
          exact bind_of_error (logged write _)
      | ok s =>
          simp only [solved] at logged
          obtain ⟨later, loggedLater⟩ := second s
          refine ⟨(Move.split a b c d pair).event :: (events ++ later), fun write log => ?_⟩
          rw [logging_of_move here, solve_of_split_ok here solved, List.foldl_cons, List.foldl_append]
          exact (bind_of_ok (logged write _)).trans (bind_pure_of_withLog (loggedLater write _) _)

theorem solveWith_logging (l r : Ty) (write : σ → UnifyEvent → σ) (log : σ) :
    solveWith (logging write) l r log = withLog ((events l r).foldl write log) (solve l r) := by
  obtain ⟨written, logged⟩ := exists_events l r
  have same : events l r = written := by
    unfold events
    rw [logged]
    cases solve l r <;> simp [withLog, ← List.flatMap_def]
  rw [same, logged]

theorem solveLogged_eq (l r : Ty) (log : List UnifyStep) :
    solveLogged l r log = withLog (appendEvents log (events l r)) (solve l r) := by
  have steps (events : List UnifyEvent) (log : List UnifyStep) :
      events.foldl (fun log event => log ++ [{ event with step := log.length + 1 }]) log =
        appendEvents log events := by
    induction events generalizing log with
    | nil => simp [appendEvents]
    | cons event events ih =>
        rw [List.foldl_cons, ih]
        exact appendEvents_append log [event] events
  rw [solveLogged, solveWith_logging, steps]

/-! ## Solvers -/

/-- Solves constraints in order from a substitution on, all in one log. -/
def solveAllLogged (s : Substitution) : List Constraint → Logged Substitution
  | [] => return s
  | k :: rest => do
      let step ← solveLogged (s.apply k.expected) (s.apply k.actual)
      solveAllLogged (s.andThen step.1 (Splits.avoids step.2)) rest

theorem solveAllLogged_append (s : Substitution) (constraints rest : List Constraint) :
    solveAllLogged s (constraints ++ rest) = (do
      let s' ← solveAllLogged s constraints
      solveAllLogged s' rest) := by
  induction constraints generalizing s with
  | nil => rfl
  | cons k constraints ih =>
      simp only [List.cons_append, solveAllLogged, ih, bind_assoc]

theorem numbered_of_solveAllLogged {s s' : Substitution} {constraints : List Constraint}
    {log log' : List UnifyStep} (h : solveAllLogged s constraints log = .ok s' log') (start : Numbered log) :
    Numbered log' := by
  induction constraints generalizing s log with
  | nil =>
      cases h
      exact start
  | cons k rest ih =>
      have logged := solveLogged_eq (s.apply k.expected) (s.apply k.actual) log
      rw [solveAllLogged] at h
      cases solved : solve (s.apply k.expected) (s.apply k.actual) with
      | error e =>
          rw [solved] at logged
          rw [bind_of_error logged] at h
          cases h
      | ok step =>
          rw [solved] at logged
          rw [bind_of_ok logged] at h
          exact ih h (start.appendEvents _)

end Unification

namespace Unifier

open Unification

variable {u v : Unifier} {constraints : List Constraint}

theorem record_of_tracing (tracing : u.tracing) (l r : Ty) :
    u.record l r = { u with trace := appendEvents u.trace (events l r) } := if_pos tracing

/-- The trace of a solver is the log of its constraints. -/
theorem solveAllLogged_of_solve (h : u.solve constraints = (.ok (), v)) (tracing : u.tracing) :
    solveAllLogged u.substitution constraints u.trace = .ok v.substitution v.trace ∧ v.tracing := by
  induction constraints generalizing u with
  | nil =>
      cases h
      exact ⟨rfl, tracing⟩
  | cons k rest ih =>
      have logged := solveLogged_eq (u.substitution.apply k.expected) (u.substitution.apply k.actual) u.trace
      have recorded := record_of_tracing (u := { u with solved := u.solved + 1 }) tracing
      rw [Unifier.solve] at h
      split at h
      · cases h
      rw [solveAllLogged]
      simp only [Unifier.unify, recorded] at h
      cases solved : Unification.solve (u.substitution.apply k.expected) (u.substitution.apply k.actual) with
      | error e =>
          simp only [solved] at h
          cases h
      | ok step =>
          rw [solved] at logged
          simp only [solved] at h
          rw [bind_of_ok logged]
          exact ih h tracing

end Unifier

end OpCalculus
