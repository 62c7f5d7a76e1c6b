import OpCalculus.Inference.Basic
import OpCalculus.Proofs.Instances

/-!
# The declarative type system

The Hindley–Milner judgement `HasType Γ e t`, with rules for composition and ascription. It mentions
no substitution, no constraint and no fresh variable.
-/

namespace OpCalculus

/-- The type of a literal. A matrix has rows of equal length, and no columns if it has no rows. -/
inductive Literal.HasType : Literal → Ty → Prop
  | bool (b : Bool) : HasType (.bool b) .bool
  | int (n : Int64) : HasType (.int n) .int
  | number (x : Float) : HasType (.number x) .number
  | string (s : String) : HasType (.string s) .string
  | vector (items : List Float) : HasType (.vector items) (.vector items.length .number)
  | matrix {rows : List (List Float)} {columns : Nat} (rectangular : ∀ row ∈ rows, row.length = columns)
      (empty : rows = [] → columns = 0) : HasType (.matrix rows) (.matrix rows.length columns .number)

theorem Literal.HasType.bind {literal : Literal} {t : Ty} (typed : literal.HasType t)
    (θ : TypeVar → Ty) : t.bind θ = t := by
  cases typed <;> rfl

/-- The declarative judgement. A `let` generalizes over the variables that are not free in the
environment; the variables of an annotation stand for any types. -/
inductive HasType : TypeEnv → Expr → Ty → Prop
  | lit {Γ : TypeEnv} {literal : Literal} {t : Ty} :
      literal.HasType t → HasType Γ (.lit literal) t
  | var {Γ : TypeEnv} {name : String} {c : Scheme} {t : Ty} :
      Γ.lookup name = some c → c.Instance t → HasType Γ (.var name) t
  | app {Γ : TypeEnv} {callee arg : Expr} {a b : Ty} :
      HasType Γ callee (.function a b) → HasType Γ arg a → HasType Γ (.app callee arg) b
  | lambda {Γ : TypeEnv} {param : String} {body : Expr} {a b : Ty} :
      HasType (Γ.extend param (.mono a)) body b → HasType Γ (.lambda param body) (.function a b)
  | letIn {Γ : TypeEnv} {name : String} {value body : Expr} {a b : Ty} :
      HasType Γ value a → HasType (Γ.extend name (Γ.generalize a)) body b →
      HasType Γ (.letIn name value body) b
  | compose {Γ : TypeEnv} {first second : Expr} {a b c : Ty} :
      HasType Γ first (.function a b) → HasType Γ second (.function b c) →
      HasType Γ (.compose first second) (.function a c)
  | ascribe {Γ : TypeEnv} {inner : Expr} {ty t : Ty} :
      ty.checkDeclared = .ok () → (Scheme.closed ty).Instance t → HasType Γ inner t →
      HasType Γ (.ascribe inner ty) t

theorem raggedRow?_eq_none {columns : Nat} {rows : List (List Float)} :
    Infer.raggedRow? columns rows = none ↔ ∀ row ∈ rows, row.length = columns := by
  rw [Infer.raggedRow?, List.find?_eq_none]
  constructor
  · intro h row hr
    obtain ⟨i, hi, rfl⟩ := List.getElem_of_mem hr
    simpa using h (rows[i], i) (List.mem_zipIdx_iff_getElem?.mpr (List.getElem?_eq_getElem hi))
  · intro h p hp
    simpa using h p.1 (List.fst_mem_of_mem_zipIdx hp)

theorem literalType_eq_ok {literal : Literal} {t : Ty} :
    Infer.literalType literal = .ok t ↔ literal.HasType t := by
  constructor
  · intro h
    cases literal with
    | bool b => cases h; exact .bool b
    | int n => cases h; exact .int n
    | number x => cases h; exact .number x
    | string s => cases h; exact .string s
    | vector items => cases h; exact .vector items
    | matrix rows =>
        simp only [Infer.literalType] at h
        split at h
        · cases h
        · rename_i rectangular
          cases h
          refine .matrix (raggedRow?_eq_none.mp rectangular) ?_
          rintro rfl
          rfl
  · intro h
    cases h with
    | bool | int | number | string | vector => rfl
    | @matrix rows columns rectangular empty =>
        have first : (rows.head?.map List.length).getD 0 = columns := by
          cases rows with
          | nil => exact (empty rfl).symm
          | cons row rest => exact rectangular row (List.mem_cons_self ..)
        simp only [Infer.literalType, first, raggedRow?_eq_none.mpr rectangular]

end OpCalculus
