import Mathlib
import OpCalculus.Proofs.Inference.Hygiene
import OpCalculus.Proofs.Inference.Relations

/-!
# Fresh variables in the course of a run

Inference that asks for fresh variables one at a time and keeps a journal of the answers computes the
same as inference (`expr_erases`). The journal shows every number that was handed out, also in a run that
fails: the numbers are consecutive, and a request is refused only when all numbers are used up, as the
last thing that the run does (`Keeps`).
-/

namespace OpCalculus

/-- A context with all requests for fresh variables so far: the number that was minted, or nothing when
none was left. -/
structure Ledger where
  context : InferenceContext
  requests : List (Option Nat)

abbrev Journaled := EStateM InferError Ledger

namespace Journaled

variable {α β : Type}

/-- A step that asks for no fresh variables. -/
def quiet (x : Infer α) : Journaled α := fun l =>
  match x l.context with
  | .ok a c => .ok a ⟨c, l.requests⟩
  | .error e c => .error e ⟨c, l.requests⟩

def mint : Journaled Nat := fun l =>
  match FreshSupply.mintBlock 1 l.context.supply with
  | .ok n supply => .ok n ⟨{ l.context with supply }, l.requests ++ [some n]⟩
  | .error e supply => .error (.freshExhausted e) ⟨{ l.context with supply }, l.requests ++ [none]⟩

def freshType : Journaled Ty := do
  let n ← mint
  return .var (.fresh n)

def mintAll : List TypeVar → Journaled (List (TypeVar × Nat))
  | [] => return []
  | v :: rest => do
      let n ← mint
      let numbers ← mintAll rest
      return (v, n) :: numbers

def instantiate (c : Scheme) : Journaled Ty := do
  let numbers ← mintAll (distinct c.vars)
  return c.body.bind fun v => .var (((numbers.lookup v).map .fresh).getD v)

def actions : Infer.Actions Ledger where
  freshType := freshType
  instantiate := instantiate
  constrain t u reason := quiet (Infer.constrain t u reason)
  solve := quiet Infer.solution
  record e t rule detail := quiet (Infer.record e t rule detail)

def expr (env : TypeEnv) (e : Expr) : Journaled Ty := Infer.exprWith actions env e

/-! ## The journal can be erased -/

def Erases (x : Journaled α) (y : Infer α) : Prop :=
  ∀ l, y l.context = match x l with
    | .ok a l' => .ok a l'.context
    | .error e l' => .error e l'.context

theorem erases_quiet (x : Infer α) : Erases (quiet x) x := by
  intro l
  unfold quiet
  cases x l.context <;> rfl

theorem erases_pure (a : α) : Erases (pure a) (pure a) := fun _ => rfl

theorem erases_throw (e : InferError) : Erases (throw e : Journaled α) (throw e) := fun _ => rfl

theorem Erases.bind {x : Journaled α} {y : Infer α} {f : α → Journaled β} {g : α → Infer β}
    (hx : Erases x y) (hf : ∀ a, Erases (f a) (g a)) : Erases (x >>= f) (y >>= g) := by
  intro l
  have first := hx l
  show EStateM.bind y g l.context = match EStateM.bind x f l with
    | .ok a l' => .ok a l'.context
    | .error e l' => .error e l'.context
  unfold EStateM.bind
  rw [first]
  cases x l with
  | ok a l' => exact hf a l'
  | error e l' => rfl

theorem erases_mint : Erases mint (Infer.minting (FreshSupply.mintBlock 1)) := by
  intro l
  unfold mint Infer.minting
  cases FreshSupply.mintBlock 1 l.context.supply <;> rfl

theorem minting_bind_pure (action : Minting α) (f : α → β) :
    Infer.minting (action >>= fun a => pure (f a)) = Infer.minting action >>= fun a => pure (f a) := by
  funext c
  show Infer.minting (EStateM.bind action fun a => pure (f a)) c =
    EStateM.bind (Infer.minting action) (fun a => pure (f a)) c
  unfold EStateM.bind Infer.minting
  beta_reduce
  cases action c.supply <;> rfl

theorem erases_freshType : Erases freshType Infer.freshType := by
  have same : Infer.freshType =
      Infer.minting (FreshSupply.mintBlock 1) >>= fun n => pure (.var (.fresh n)) := by
    rw [Infer.freshType, FreshSupply.mint, minting_bind_pure]
    simp
  rw [same]
  exact erases_mint.bind fun n => erases_pure _

theorem minting_mintBlock_of_le {count : Nat} {c : InferenceContext}
    (enough : c.supply.next + count ≤ freshLimit) :
    Infer.minting (FreshSupply.mintBlock count) c =
      .ok c.supply.next { c with supply := ⟨c.supply.next + count, enough⟩ } := by
  simp only [Infer.minting, FreshSupply.mintBlock, enough, dite_true]

theorem minting_mintBlock_of_lt {count : Nat} {c : InferenceContext}
    (short : freshLimit < c.supply.next + count) :
    Infer.minting (FreshSupply.mintBlock count) c =
      .error (.freshExhausted {}) { c with supply := ⟨freshLimit, Nat.le_refl _⟩ } := by
  simp only [Infer.minting, FreshSupply.mintBlock, Nat.not_le.mpr short, dite_false]

-- A block of numbers is minted as a whole or used up, just as by asking for one number after the other.
theorem minting_mintBlock_succ (count : Nat) (f : Nat → Nat → α) :
    (do
      let n ← Infer.minting (FreshSupply.mintBlock 1)
      let next ← Infer.minting (FreshSupply.mintBlock count)
      return f n next) =
    (do
      let n ← Infer.minting (FreshSupply.mintBlock (count + 1))
      return f n (n + 1)) := by
  funext c
  show EStateM.bind (Infer.minting (FreshSupply.mintBlock 1))
      (fun n => EStateM.bind (Infer.minting (FreshSupply.mintBlock count)) fun next => pure (f n next)) c =
    EStateM.bind (Infer.minting (FreshSupply.mintBlock (count + 1))) (fun n => pure (f n (n + 1))) c
  have bounded := c.supply.bounded
  unfold EStateM.bind
  by_cases first : c.supply.next + 1 ≤ freshLimit
  · rw [minting_mintBlock_of_le first]
    by_cases enough : c.supply.next + (count + 1) ≤ freshLimit
    · have rest : c.supply.next + 1 + count ≤ freshLimit := by omega
      simp only [minting_mintBlock_of_le enough]
      rw [minting_mintBlock_of_le (c := { c with supply := ⟨c.supply.next + 1, first⟩ }) rest]
      have same : c.supply.next + 1 + count = c.supply.next + (count + 1) := by omega
      simp only [same]
    · have rest : freshLimit < c.supply.next + 1 + count := by omega
      simp only [minting_mintBlock_of_lt (Nat.lt_of_not_le enough)]
      rw [minting_mintBlock_of_lt (c := { c with supply := ⟨c.supply.next + 1, first⟩ }) rest]
  · rw [minting_mintBlock_of_lt (Nat.lt_of_not_le first), minting_mintBlock_of_lt (by omega)]

theorem erases_mintAll (vars : List TypeVar) :
    Erases (mintAll vars) (do
      let first ← Infer.minting (FreshSupply.mintBlock vars.length)
      return vars.zip (List.range' first vars.length)) := by
  induction vars with
  | nil =>
      intro l
      show EStateM.bind (Infer.minting (FreshSupply.mintBlock 0)) _ l.context = _
      unfold EStateM.bind
      rw [minting_mintBlock_of_le l.context.supply.bounded]
      rfl
  | cons v rest ih =>
      have step : (do
          let first ← Infer.minting (FreshSupply.mintBlock (v :: rest).length)
          return (v :: rest).zip (List.range' first (v :: rest).length)) = (do
          let n ← Infer.minting (FreshSupply.mintBlock 1)
          let numbers ← (do
            let first ← Infer.minting (FreshSupply.mintBlock rest.length)
            return rest.zip (List.range' first rest.length))
          return (v, n) :: numbers) := by
        simp only [bind_assoc, pure_bind]
        exact (minting_mintBlock_succ rest.length fun n next =>
          (v, n) :: rest.zip (List.range' next rest.length)).symm
      rw [step]
      exact erases_mint.bind fun n => ih.bind fun numbers => erases_pure _

theorem lookup_zip_range' (v : TypeVar) (vars : List TypeVar) (first : Nat) :
    (vars.zip (List.range' first vars.length)).lookup v =
      if v ∈ vars then some (first + vars.idxOf v) else none := by
  induction vars generalizing first with
  | nil => rfl
  | cons w rest ih =>
      rw [List.length_cons, List.range'_succ, List.zip_cons_cons, lookup_cons, ih]
      by_cases here : v = w
      · simp [here]
      · have shift : first + 1 + rest.idxOf v = first + (rest.idxOf v + 1) := by omega
        simp [here, List.idxOf_cons_ne _ (Ne.symm here), shift]

theorem erases_instantiate (c : Scheme) :
    Erases (instantiate c) (Infer.minting (FreshSupply.instantiate c)) := by
  have same : Infer.minting (FreshSupply.instantiate c) = (do
      let numbers ← (do
        let first ← Infer.minting (FreshSupply.mintBlock (distinct c.vars).length)
        return (distinct c.vars).zip (List.range' first (distinct c.vars).length))
      return c.body.bind fun v => .var (((numbers.lookup v).map .fresh).getD v)) := by
    rw [FreshSupply.instantiate, minting_bind_pure]
    simp only [bind_assoc, pure_bind, lookup_zip_range']
    congr 1
    funext first
    congr 2
    funext v
    split <;> rfl
  rw [same]
  exact (erases_mintAll _).bind fun numbers => erases_pure _

theorem expr_erases (env : TypeEnv) (e : Expr) : Erases (expr env e) (Infer.expr env e) :=
  Infer.Congruence.expr (R := fun _ _ x y => Erases x y)
    { pure := erases_pure
      bind := Erases.bind
      throw := fun _ _ _ => erases_throw _
      freshType := erases_freshType
      instantiate := erases_instantiate
      constrain := fun _ _ _ => erases_quiet _
      solve := erases_quiet _
      record := fun _ _ _ => erases_quiet _ } env e

end Journaled

/-! ## What the journal says -/

/-- Answers with the numbers from the first up to the next one. -/
def answers (first next : Nat) : List (Option Nat) := (List.range' first (next - first)).map some

theorem answers_self (n : Nat) : answers n n = [] := by simp [answers]

theorem answers_succ (n : Nat) : answers n (n + 1) = [some n] := by simp [answers]

theorem answers_append {a b c : Nat} (ab : a ≤ b) (bc : b ≤ c) :
    answers a b ++ answers b c = answers a c := by
  obtain ⟨m, rfl⟩ := Nat.exists_eq_add_of_le ab
  obtain ⟨n, rfl⟩ := Nat.exists_eq_add_of_le bc
  have whole : a + m + n - a = m + n := by omega
  simp only [answers, ← List.map_append, Nat.add_sub_cancel_left, whole, List.range'_append_1]

namespace Ledger

variable {l l₁ l' : Ledger} {refused : List (Option Nat)}

def next (l : Ledger) : Nat := l.context.supply.next

/-- From one ledger to the other the requests were answered by consecutive numbers and then refused. -/
structure Continues (l l' : Ledger) (refused : List (Option Nat)) : Prop where
  le : l.next ≤ l'.next
  requests : l'.requests = l.requests ++ answers l.next l'.next ++ refused

theorem Continues.of_same (supply : l'.context.supply = l.context.supply)
    (requests : l'.requests = l.requests) : l.Continues l' [] := by
  have same : l'.next = l.next := congrArg FreshSupply.next supply
  exact ⟨same.ge, by simp [same, requests, answers_self]⟩

theorem Continues.trans (first : l.Continues l₁ []) (rest : l₁.Continues l' refused) :
    l.Continues l' refused := by
  refine ⟨first.le.trans rest.le, ?_⟩
  rw [rest.requests, first.requests, ← answers_append first.le rest.le]
  simp

end Ledger

/-- Nothing is asked of the supply of fresh variables. -/
def Infer.Still {α : Type} (x : Infer α) : Prop :=
  ∀ c, match x c with
    | .ok _ c' => c'.supply = c.supply
    | .error e c' => c'.supply = c.supply ∧ e ≠ .freshExhausted {}

namespace Infer

variable {α β : Type}

theorem Still.bind {x : Infer α} {f : α → Infer β} (hx : x.Still) (hf : ∀ a, (f a).Still) :
    (x >>= f).Still := by
  intro c
  have first := hx c
  show match EStateM.bind x f c with
    | .ok _ c' => c'.supply = c.supply
    | .error e c' => c'.supply = c.supply ∧ e ≠ .freshExhausted {}
  unfold EStateM.bind
  generalize x c = r at first ⊢
  cases r with
  | ok a c₁ =>
      have same : c₁.supply = c.supply := first
      exact same ▸ hf a c₁
  | error e c₁ => exact first

theorem still_pure (a : α) : (pure a : Infer α).Still := fun _ => rfl

theorem still_get : (get : Infer InferenceContext).Still := fun _ => rfl

theorem still_modify {f : InferenceContext → InferenceContext} (h : ∀ c, (f c).supply = c.supply) :
    (modify f : Infer Unit).Still := h

theorem still_throw {e : InferError} (other : e ≠ .freshExhausted {}) : (throw e : Infer α).Still :=
  fun _ => ⟨rfl, other⟩

theorem still_solve : solve.Still := by
  intro c
  unfold solve
  split
  · rename_i ran
    split at ran <;> cases ran
    rfl
  · rename_i ran
    split at ran <;> cases ran
    exact ⟨rfl, by simp⟩

theorem still_constrain (t u : Ty) (reason : Reason) : (constrain t u reason).Still :=
  still_modify fun _ => rfl

theorem still_record (e : Expr) (t : Ty) (rule : InferRule) (detail : InferDetail) :
    (record e t rule detail).Still :=
  still_modify fun c => by split <;> rfl

theorem still_solution : solution.Still :=
  still_solve.bind fun _ => still_get.bind fun _ => still_pure _

theorem still_finish (t : Ty) : (finish t).Still :=
  still_solve.bind fun _ => still_get.bind fun _ => still_pure _

end Infer

namespace Journaled

variable {α β : Type}

/-- What a run may leave behind: all requests were answered by consecutive numbers, except that a run
that fails for want of numbers has used them all and was refused its last request. -/
def Leaves (l : Ledger) : EStateM.Result InferError Ledger α → Prop
  | .ok _ l' => l.Continues l' []
  | .error e l' =>
      if e = .freshExhausted {} then l'.next = freshLimit ∧ l.Continues l' [none] else l.Continues l' []

def Keeps (x : Journaled α) : Prop := ∀ l, Leaves l (x l)

theorem Leaves.trans {l l₁ : Ledger} {r : EStateM.Result InferError Ledger α}
    (first : l.Continues l₁ []) (rest : Leaves l₁ r) : Leaves l r := by
  cases r with
  | ok a l' => exact first.trans rest
  | error e l' =>
      by_cases exhausted : e = .freshExhausted {} <;>
        simp only [Leaves, exhausted, if_true, if_false] at rest ⊢
      · exact ⟨rest.1, first.trans rest.2⟩
      · exact first.trans rest

theorem Keeps.bind {x : Journaled α} {f : α → Journaled β} (hx : Keeps x) (hf : ∀ a, Keeps (f a)) :
    Keeps (x >>= f) := by
  intro l
  have first := hx l
  show Leaves l (EStateM.bind x f l)
  unfold EStateM.bind
  generalize x l = r at first ⊢
  cases r with
  | ok a l₁ => exact .trans first (hf a l₁)
  | error e l₁ => exact first

theorem keeps_quiet {x : Infer α} (still : x.Still) : Keeps (quiet x) := by
  intro l
  have same := still l.context
  unfold quiet
  generalize x l.context = r at same ⊢
  cases r with
  | ok a c => exact .of_same same rfl
  | error e c =>
      obtain ⟨supply, other⟩ := same
      simp only [Leaves, other, if_false]
      exact .of_same supply rfl

theorem keeps_pure (a : α) : Keeps (pure a) := keeps_quiet (Infer.still_pure a)

theorem keeps_throw {e : InferError} (other : e ≠ .freshExhausted {}) : Keeps (throw e : Journaled α) :=
  keeps_quiet (Infer.still_throw other)

theorem keeps_mint : Keeps mint := by
  intro l
  have bounded := l.context.supply.bounded
  by_cases left : l.context.supply.next + 1 ≤ freshLimit
  · simp only [mint, FreshSupply.mintBlock, left, dite_true]
    refine ⟨Nat.le_succ _, ?_⟩
    show l.requests ++ [some l.next] = l.requests ++ answers l.next (l.next + 1) ++ []
    rw [answers_succ, List.append_nil]
  · simp only [mint, FreshSupply.mintBlock, left, dite_false]
    have last : l.next = freshLimit := Nat.le_antisymm bounded (by unfold Ledger.next; omega)
    refine ⟨rfl, bounded, ?_⟩
    show l.requests ++ [none] = l.requests ++ answers l.next freshLimit ++ [none]
    rw [last, answers_self, List.append_nil]

theorem keeps_freshType : Keeps freshType := keeps_mint.bind fun _ => keeps_pure _

theorem keeps_mintAll (vars : List TypeVar) : Keeps (mintAll vars) := by
  induction vars with
  | nil => exact keeps_pure _
  | cons v rest ih => exact keeps_mint.bind fun _ => ih.bind fun _ => keeps_pure _

theorem keeps_instantiate (c : Scheme) : Keeps (instantiate c) :=
  (keeps_mintAll _).bind fun _ => keeps_pure _

theorem keeps_expr (env : TypeEnv) (e : Expr) : Keeps (expr env e) :=
  Infer.Congruence.expr (y := actions) (R := fun _ _ x _ => Keeps x)
    { pure := keeps_pure
      bind := Keeps.bind
      throw := fun _ _ static => keeps_throw (static.minted _)
      freshType := keeps_freshType
      instantiate := keeps_instantiate
      constrain := fun t u reason => keeps_quiet (Infer.still_constrain t u reason)
      solve := keeps_quiet Infer.still_solution
      record := fun e t detail => keeps_quiet (Infer.still_record e t e.rule detail) } env e

def infer (env : TypeEnv) (e : Expr) : Journaled Inference := do
  let ty ← expr env e
  quiet (Infer.finish ty)

theorem infer_erases (env : TypeEnv) (e : Expr) :
    Erases (infer env e) (do Infer.finish (← Infer.expr env e)) :=
  (expr_erases env e).bind fun _ => erases_quiet _

theorem keeps_infer (env : TypeEnv) (e : Expr) : Keeps (infer env e) :=
  (keeps_expr env e).bind fun ty => keeps_quiet (Infer.still_finish ty)

end Journaled

end OpCalculus
