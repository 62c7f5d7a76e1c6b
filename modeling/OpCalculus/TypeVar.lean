/-!
# Type variables

A variable is either named by its author or minted during inference. Variables are ordered: every
named variable comes before every minted one, names by their characters, minted ones by number.
-/

namespace OpCalculus

/-- A type variable. -/
inductive TypeVar where
  /-- A variable written in a declared type. -/
  | named (name : String)
  /-- A variable minted by inference. -/
  | fresh (id : Nat)
  deriving DecidableEq, Repr, Inhabited

namespace TypeVar

/-- A named variable is written with a leading quote, a minted one with a question mark. -/
def text : TypeVar → String
  | named name => "'" ++ name
  | fresh id => "?" ++ toString id

instance : ToString TypeVar := ⟨text⟩

/-- The number of a minted variable. -/
def freshId? : TypeVar → Option Nat
  | named _ => none
  | fresh id => some id

/-- The largest number of a minted variable in a list. -/
def maxFresh? (vars : List TypeVar) : Option Nat := (vars.filterMap freshId?).max?

/-! ## Order -/

/-- Named variables come first, by name; minted ones follow, by number. -/
protected def lt : TypeVar → TypeVar → Prop
  | named a, named b => a < b
  | named _, fresh _ => True
  | fresh _, named _ => False
  | fresh m, fresh n => m < n

instance : LT TypeVar := ⟨TypeVar.lt⟩

instance (v w : TypeVar) : Decidable (v < w) :=
  match v, w with
  | named a, named b => inferInstanceAs (Decidable (a < b))
  | named _, fresh _ => isTrue trivial
  | fresh _, named _ => isFalse id
  | fresh m, fresh n => inferInstanceAs (Decidable (m < n))

theorem lt_irrefl (v : TypeVar) : ¬ v < v := by
  cases v with
  | named a => exact String.lt_irrefl a
  | fresh n => exact Nat.lt_irrefl n

theorem lt_trans {u v w : TypeVar} (h : u < v) (h' : v < w) : u < w := by
  cases u <;> cases v <;> cases w <;> first
    | exact String.lt_trans h h'
    | exact Nat.lt_trans h h'
    | exact trivial
    | exact h.elim
    | exact h'.elim

theorem ne_of_lt {v w : TypeVar} (h : v < w) : v ≠ w := by
  rintro rfl
  exact lt_irrefl v h

theorem lt_trichotomy (v w : TypeVar) : v < w ∨ v = w ∨ w < v := by
  cases v with
  | named a =>
      cases w with
      | named b =>
          by_cases h : a < b
          · exact .inl h
          by_cases h' : b < a
          · exact .inr (.inr h')
          · exact .inr (.inl (congrArg named (String.le_antisymm h' h)))
      | fresh n => exact .inl trivial
  | fresh m =>
      cases w with
      | named b => exact .inr (.inr trivial)
      | fresh n =>
          rcases Nat.lt_trichotomy m n with h | h | h
          · exact .inl h
          · exact .inr (.inl (congrArg fresh h))
          · exact .inr (.inr h)

/-! ## Sorted sets of variables -/

/-- Adds a variable to an ascending list, unless it is there. -/
def insertSorted (v : TypeVar) : List TypeVar → List TypeVar
  | [] => [v]
  | w :: l => if v < w then v :: w :: l else if v = w then w :: l else w :: insertSorted v l

/-- The distinct variables of a list, ascending. -/
def sorted (l : List TypeVar) : List TypeVar := l.foldr insertSorted []

@[simp] theorem mem_insertSorted {v w : TypeVar} {l : List TypeVar} :
    v ∈ insertSorted w l ↔ v = w ∨ v ∈ l := by
  induction l with
  | nil => simp [insertSorted]
  | cons u l ih =>
      unfold insertSorted
      split
      · simp
      split
      · rename_i h
        subst h
        simp
      · simp [ih, or_left_comm]

@[simp] theorem mem_sorted {v : TypeVar} {l : List TypeVar} : v ∈ sorted l ↔ v ∈ l := by
  induction l with
  | nil => simp [sorted]
  | cons w l ih =>
      rw [sorted, List.foldr_cons, mem_insertSorted, List.mem_cons]
      exact or_congr Iff.rfl ih

end TypeVar

end OpCalculus
