import OpCalculus.Diagnostic
import OpCalculus.Substitution.Basic

/-!
# Unification

`unify l r` makes two types equal by a substitution over their own variables, or names the first
conflict. `move l r` says what is to be done with two types. `solveWith` does it, with actions that
may be done in any monad. Pairs of components are solved from left to right, the second pair under
the solution of the first. The recursion ends because the number of distinct variables of the two
types, and at an equal number their total size, goes down: a solution of the first pair that binds
anything removes a variable from the second pair.
-/

namespace OpCalculus

/-- The conflict between two types. -/
inductive UnifyError where
  | kindMismatch (expected actual : Ty)
  | dimensionMismatch (expected actual : Ty)
  | occursCheck (v : TypeVar) (ty : Ty)
  deriving DecidableEq, Repr

namespace UnifyError

def message : UnifyError → String
  | kindMismatch expected actual => s!"kind mismatch: expected {expected}, found {actual}"
  | dimensionMismatch expected actual => s!"dimension mismatch: expected {expected}, found {actual}"
  | occursCheck v ty => s!"occurs check: cannot construct infinite type {v} = {ty}"

def category : UnifyError → Category
  | kindMismatch _ _ => .kindMismatch
  | dimensionMismatch _ _ => .dimensionMismatch
  | occursCheck _ _ => .occursCheck

def diagnostic (e : UnifyError) : Diagnostic :=
  let report : Diagnostic := { category := e.category, message := e.message }
  match e with
  | kindMismatch _ _ => report
  | dimensionMismatch _ _ =>
      { report with notes := ["container sizes are part of the type and never coerce"] }
  | occursCheck _ _ => { report with help := some "a value cannot contain or be applied to itself" }

end UnifyError

namespace Ty

/-- The dimensions of a container type that has some. -/
def dimensions? : Ty → Option (List Nat)
  | vector len _ => some [len]
  | matrix rows cols _ => some [rows, cols]
  | tensor shape _ => some shape
  | _ => none

/-- The same container constructor with different dimensions. -/
def Misfit (a b : Ty) : Prop :=
  a.variant = b.variant ∧ ∃ m n, a.dimensions? = some m ∧ b.dimensions? = some n ∧ m ≠ n

end Ty

namespace Unification

/-! ## The measure -/

/-- The variables of two types, with repetitions. -/
def pairVars (l r : Ty) : List TypeVar := l.occurrences ++ r.occurrences

/-- The number of distinct variables of two types. -/
def varCount (l r : Ty) : Nat := (distinct (pairVars l r)).length

/-- The total size of two types. -/
def totalSize (l r : Ty) : Nat := l.size + r.size

/-- The first two types have fewer variables than the last two, or as many and a smaller size. -/
def Smaller (a b l r : Ty) : Prop :=
  Prod.Lex (· < ·) (· < ·) (varCount a b, totalSize a b) (varCount l r, totalSize l r)

/-- `s` binds and mentions only the given variables. -/
structure Within (s : Substitution) (vs : List TypeVar) : Prop where
  bound : ∀ v t, s.get? v = some t → v ∈ vs
  mentioned : ∀ v t, s.get? v = some t → ∀ w ∈ t.occurrences, w ∈ vs

namespace Within

variable {s : Substitution} {vs ws : List TypeVar}

theorem mono (h : Within s vs) (sub : vs ⊆ ws) : Within s ws :=
  ⟨fun v t bound => sub (h.bound v t bound),
    fun v t bound w hw => sub (h.mentioned v t bound w hw)⟩

theorem empty (vs : List TypeVar) : Within .empty vs :=
  ⟨fun _ _ h => (nomatch h), fun _ _ h => (nomatch h)⟩

theorem single {v : TypeVar} {t : Ty} {h : v ∉ t.occurrences} (hv : v ∈ vs)
    (ht : t.occurrences ⊆ vs) : Within (.single v t h) vs := by
  constructor
  · intro w u bound
    rw [Substitution.get?_single] at bound
    split at bound
    · rename_i equal
      exact equal ▸ hv
    · cases bound
  · intro w u bound
    rw [Substitution.get?_single] at bound
    split at bound
    · cases bound
      exact fun _ hx => ht hx
    · cases bound

/-- A variable of the image of a type is a variable of the type or a given one. -/
theorem mem_apply {t : Ty} {w : TypeVar} (h : Within s vs)
    (hw : w ∈ (s.apply t).occurrences) : w ∈ t.occurrences ∨ w ∈ vs := by
  obtain ⟨v, hv, hw⟩ := Ty.mem_occurrences_bind.mp hw
  cases bound : s.get? v with
  | none =>
      rw [Substitution.image_of_get?_eq_none bound, Ty.occurrences, List.mem_singleton] at hw
      exact .inl (hw ▸ hv)
  | some u =>
      rw [Substitution.image, bound, Option.getD_some] at hw
      exact .inr (h.mentioned v u bound w hw)

end Within

/-- The shape of a step from two types to a first and a second pair of components. -/
structure Splits (l r a b c d : Ty) : Prop where
  vars : ∀ w, w ∈ pairVars l r ↔ w ∈ pairVars a c ∨ w ∈ pairVars b d
  firstSize : totalSize a c < totalSize l r
  secondSize : totalSize b d < totalSize l r

namespace Splits

variable {l r a b c d : Ty} {s : Substitution}

theorem first_subset (h : Splits l r a b c d) : pairVars a c ⊆ pairVars l r :=
  fun w hw => (h.vars w).mpr (.inl hw)

theorem second_subset (h : Splits l r a b c d) (within : Within s (pairVars a c)) :
    pairVars (s.apply b) (s.apply d) ⊆ pairVars l r := by
  intro w hw
  have reach : ∀ t : Ty, t.occurrences ⊆ pairVars b d → w ∈ (s.apply t).occurrences →
      w ∈ pairVars l r := by
    intro t sub ht
    rcases within.mem_apply ht with ht | ht
    · exact (h.vars w).mpr (.inr (sub ht))
    · exact h.first_subset ht
  rcases List.mem_append.mp hw with hw | hw
  · exact reach b (fun x hx => List.mem_append_left _ hx) hw
  · exact reach d (fun x hx => List.mem_append_right _ hx) hw

theorem second_avoids {v : TypeVar} {t : Ty} (bound : s.get? v = some t) :
    v ∉ pairVars (s.apply b) (s.apply d) := by
  intro hv
  rcases List.mem_append.mp hv with hv | hv <;>
  · rw [Substitution.get?_of_mem_apply hv] at bound
    cases bound

/-- The first pair is smaller. -/
theorem first_decreases (h : Splits l r a b c d) : Smaller a c l r := by
  rcases Nat.lt_or_eq_of_le (length_distinct_le h.first_subset) with lt | eq
  · exact .left _ _ lt
  · rw [Smaller, varCount, varCount, eq]
    exact .right _ h.firstSize

/-- The second pair under a solution of the first is smaller: it lost a variable, or it is the
second pair itself. -/
theorem second_decreases (h : Splits l r a b c d) (within : Within s (pairVars a c)) :
    Smaller (s.apply b) (s.apply d) l r := by
  by_cases none : s = .empty
  · subst none
    rcases Nat.lt_or_eq_of_le (length_distinct_le (h.second_subset within)) with lt | eq
    · exact .left _ _ lt
    · rw [Smaller, varCount, varCount, eq, Substitution.apply_empty, Substitution.apply_empty]
      exact .right _ h.secondSize
  · obtain ⟨v, t, bound⟩ := Substitution.exists_get?_eq_some none
    exact .left _ _ (length_distinct_lt (h.second_subset within)
      (h.first_subset (within.bound v t bound)) (second_avoids bound))

/-- The solution of the second pair brings back no variable that the first one binds. -/
theorem avoids {s₂ : Substitution} (within : Within s₂ (pairVars (s.apply b) (s.apply d))) :
    s₂.Avoids s := by
  intro v t bound w hw
  cases look : s.get? w with
  | none => rfl
  | some u => exact absurd (within.mentioned v t bound w hw) (second_avoids look)

theorem within_andThen (h : Splits l r a b c d) {s₂ : Substitution} (first : Within s (pairVars a c))
    (second : Within s₂ (pairVars (s.apply b) (s.apply d))) :
    Within (s.andThen s₂ (avoids second)) (pairVars l r) := by
  have inside := second.mono (h.second_subset first)
  constructor
  · intro v t bound
    rw [Substitution.get?_andThen] at bound
    cases look : s.get? v with
    | none =>
        rw [look, Option.map_none, Option.none_or] at bound
        exact inside.bound v t bound
    | some u => exact h.first_subset (first.bound v u look)
  · intro v t bound w hw
    rw [Substitution.get?_andThen] at bound
    cases look : s.get? v with
    | none =>
        rw [look, Option.map_none, Option.none_or] at bound
        exact inside.mentioned v t bound w hw
    | some u =>
        rw [look, Option.map_some, Option.some_or, Option.some.injEq] at bound
        subst bound
        rcases inside.mem_apply hw with hw | hw
        · exact h.first_subset (first.mentioned v u look w hw)
        · exact hw

end Splits

/-! ## What is to be done -/

/-- A variable and another type. -/
structure Binds (l r : Ty) (v : TypeVar) (t : Ty) : Prop where
  sides : l = .var v ∧ r = t ∨ l = t ∧ r = .var v
  other : t ≠ .var v

/-- Two containers of one kind and the same dimensions, with their elements. -/
inductive Element : Ty → Ty → Ty → Ty → Prop
  | vector (len : Nat) (a b : Ty) : Element (.vector len a) (.vector len b) a b
  | matrix (rows cols : Nat) (a b : Ty) : Element (.matrix rows cols a) (.matrix rows cols b) a b
  | tensor (shape : List Nat) (a b : Ty) : Element (.tensor shape a) (.tensor shape b) a b
  | sequence (a b : Ty) : Element (.sequence a) (.sequence b) a b

/-- Two functions or two strategies, with their first and second components. -/
inductive Pair : Ty → Ty → Ty → Ty → Ty → Ty → Prop
  | function (a b c d : Ty) : Pair (.function a b) (.function c d) a b c d
  | strategy (a b c d : Ty) : Pair (.strategy a b) (.strategy c d) a b c d

/-- What is to be done with two types. -/
inductive Move (l r : Ty) where
  | skip (same : l = r)
  | bind (v : TypeVar) (t : Ty) (binds : Binds l r v t)
  | clash
  | misfit (differ : l.Misfit r)
  | enter (a b : Ty) (element : Element l r a b)
  | split (a b c d : Ty) (pair : Pair l r a b c d)

def move (l r : Ty) : Move l r :=
  if same : l = r then .skip same
  else match l, r, same with
    | .var v, t, other => .bind v t ⟨.inl ⟨rfl, rfl⟩, Ne.symm other⟩
    | t, .var v, other => .bind v t ⟨.inr ⟨rfl, rfl⟩, other⟩
    | .vector m a, .vector n b, _ =>
        if fit : m = n then .enter a b (by subst fit; exact .vector m a b)
        else .misfit ⟨rfl, [m], [n], rfl, rfl, by simpa using fit⟩
    | .matrix m n a, .matrix m' n' b, _ =>
        if fit : m = m' ∧ n = n' then .enter a b (by obtain ⟨rfl, rfl⟩ := fit; exact .matrix m n a b)
        else .misfit ⟨rfl, [m, n], [m', n'], rfl, rfl, by simpa using fit⟩
    | .tensor m a, .tensor n b, _ =>
        if fit : m = n then .enter a b (by subst fit; exact .tensor m a b)
        else .misfit ⟨rfl, m, n, rfl, rfl, fit⟩
    | .sequence a, .sequence b, _ => .enter a b (.sequence a b)
    | .function a b, .function c d, _ => .split a b c d (.function a b c d)
    | .strategy a b, .strategy c d, _ => .split a b c d (.strategy a b c d)
    | _, _, _ => .clash

section

variable {l r a b c d t : Ty} {v : TypeVar}

theorem Binds.bound (h : Binds l r v t) : v ∈ pairVars l r := by
  obtain ⟨rfl, -⟩ | ⟨-, rfl⟩ := h.sides
  · exact List.mem_append_left _ (List.mem_singleton_self v)
  · exact List.mem_append_right _ (List.mem_singleton_self v)

theorem Binds.mentioned (h : Binds l r v t) : t.occurrences ⊆ pairVars l r := by
  obtain ⟨-, rfl⟩ | ⟨rfl, -⟩ := h.sides
  · exact List.subset_append_right _ _
  · exact List.subset_append_left _ _

theorem Element.vars (h : Element l r a b) : pairVars a b = pairVars l r := by
  cases h <;> rfl

theorem Element.decreases (h : Element l r a b) : Smaller a b l r := by
  rw [Smaller, varCount, varCount, h.vars]
  refine .right _ ?_
  cases h <;> simp only [totalSize, Ty.size] <;> omega

theorem Pair.splits (h : Pair l r a b c d) : Splits l r a b c d := by
  constructor
  · intro w
    cases h <;> simp only [pairVars, Ty.occurrences, List.mem_append] <;> exact or_or_or_comm
  · cases h <;> simp only [totalSize, Ty.size] <;> omega
  · cases h <;> simp only [totalSize, Ty.size] <;> omega

end

/-! ## The algorithm -/

/-- A solution over the variables of the two types. -/
abbrev Solution (l r : Ty) := {s : Substitution // Within s (pairVars l r)}

/-- A solution of the elements solves the containers. -/
def Solution.cast {l r a b : Ty} (element : Element l r a b) (s : Solution a b) : Solution l r :=
  ⟨s.1, element.vars ▸ s.2⟩

/-- How moves are made. -/
structure Actions (m : Type → Type) where
  /-- Is told the move before it is made. -/
  note {l r : Ty} (move : Move l r) : m Unit
  bind {l r : Ty} {v : TypeVar} {t : Ty} (binds : Binds l r v t) : m (Solution l r)
  fail {l r : Ty} (e : UnifyError) : m (Solution l r)
  join {l r a b c d : Ty} (splits : Splits l r a b c d) (first : Solution a c)
    (second : Solution (first.1.apply b) (first.1.apply d)) : m (Solution l r)

section

variable {m : Type → Type} [Monad m]

/-- Makes a move, with a solver for smaller types. -/
def Actions.make (x : Actions m) {l r : Ty}
    (self : (a b : Ty) → Smaller a b l r → m (Solution a b)) : Move l r → m (Solution l r)
  | .skip _ => return ⟨.empty, .empty _⟩
  | .bind _ _ binds => x.bind binds
  | .clash => x.fail (.kindMismatch l r)
  | .misfit _ => x.fail (.dimensionMismatch l r)
  | .enter a b element => do
      let s ← self a b element.decreases
      return s.cast element
  | .split a b c d pair => do
      let first ← self a c pair.splits.first_decreases
      let second ← self (first.1.apply b) (first.1.apply d) (pair.splits.second_decreases first.2)
      x.join pair.splits first second

/-- Makes the moves that two types and their components call for. -/
def solveWith (x : Actions m) (l r : Ty) : m (Solution l r) := do
  x.note (move l r)
  x.make (fun a b _smaller => solveWith x a b) (move l r)
termination_by (varCount l r, totalSize l r)
decreasing_by exact _smaller

end

/-- Binds a variable unless it occurs in its type. -/
def bindVar {l r : Ty} {v : TypeVar} {t : Ty} (binds : Binds l r v t) :
    Except UnifyError (Solution l r) :=
  if h : v ∈ t.occurrences then .error (.occursCheck v t)
  else .ok ⟨.single v t h, .single binds.bound binds.mentioned⟩

/-- Joins the solutions of a first pair and of a second pair under it. -/
def join {l r a b c d : Ty} (h : Splits l r a b c d) (first : Solution a c)
    (second : Solution (first.1.apply b) (first.1.apply d)) : Solution l r :=
  ⟨first.1.andThen second.1 (Splits.avoids second.2), h.within_andThen first.2 second.2⟩

def plain : Actions (Except UnifyError) where
  note _ := return
  bind := bindVar
  fail := throw
  join splits first second := return join splits first second

/-- A most general solution over the variables of the two types. -/
def solve (l r : Ty) : Except UnifyError (Solution l r) := solveWith plain l r

end Unification

/-- A most general substitution that makes two types equal. It binds the variable of a pair with a
variable; of two variables, the left one. -/
def unify (l r : Ty) : Except UnifyError Substitution :=
  (Unification.solve l r).map Subtype.val

theorem unify_eq_ok {l r : Ty} {s : Substitution} :
    unify l r = .ok s ↔ ∃ solution, Unification.solve l r = .ok solution ∧ solution.1 = s := by
  unfold unify
  cases Unification.solve l r <;> simp [Except.map]

theorem unify_eq_error {l r : Ty} {e : UnifyError} :
    unify l r = .error e ↔ Unification.solve l r = .error e := by
  unfold unify
  cases Unification.solve l r <;> simp [Except.map]

theorem within_of_unify {l r : Ty} {s : Substitution} (h : unify l r = .ok s) :
    Unification.Within s (Unification.pairVars l r) := by
  obtain ⟨solution, -, rfl⟩ := unify_eq_ok.mp h
  exact solution.2

end OpCalculus
