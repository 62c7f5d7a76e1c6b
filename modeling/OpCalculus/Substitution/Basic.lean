import OpCalculus.Scheme
import OpCalculus.VarMap

/-!
# Substitutions

A substitution binds variables to types and is resolved: no variable that it binds occurs in a type
that it binds. Applying it twice is therefore applying it once (`Substitution.apply_apply`).
Composition keeps this rule only when the second substitution does not bring back a variable that
the first one binds, so `andThen?` checks it and `andThen` asks for it.
-/

namespace OpCalculus

/-- Why bindings do not form a substitution. -/
inductive SubstitutionError where
  | occurs (v : TypeVar) (ty : Ty)
  | duplicateBinding (v : TypeVar)
  | notIdempotent (v : TypeVar)
  deriving DecidableEq, Repr

def SubstitutionError.message : SubstitutionError → String
  | occurs v ty => s!"cannot construct infinite type: {v} = {ty}"
  | duplicateBinding v => s!"{v} is bound more than once"
  | notIdempotent v => s!"{v} is bound but also appears inside a binding"

/-- A composition fails when a bound variable would occur in a bound type. -/
structure EscapeError where
  v : TypeVar
  deriving DecidableEq, Repr

def EscapeError.message (e : EscapeError) : String :=
  s!"malformed substitution: {e.v} escapes into its own range"

/-- The first bound variable that occurs in a bound type: types in variable order, each from left
to right. -/
def firstUnresolved (m : VarMap Ty) : Option TypeVar :=
  m.entries.findSome? fun p => p.2.vars.find? m.contains

/-- A finite map from variables to types in which no bound variable occurs in a bound type. -/
@[ext] structure Substitution where
  map : VarMap Ty
  resolved : ∀ v t, map.get? v = some t → ∀ w ∈ t.occurrences, map.get? w = none
  deriving DecidableEq, Repr

theorem resolved_of_firstUnresolved {m : VarMap Ty} (h : firstUnresolved m = none) :
    ∀ v t, m.get? v = some t → ∀ w ∈ t.occurrences, m.get? w = none := by
  intro v t bound w hw
  have entry := List.findSome?_eq_none_iff.mp h (v, t) (VarMap.mem_of_get?_eq_some bound)
  have := List.find?_eq_none.mp entry w (Ty.mem_vars.mpr hw)
  simpa [VarMap.contains] using this

namespace Substitution

/-! ## Look-up and application -/

def get? (s : Substitution) (v : TypeVar) : Option Ty := s.map.get? v

def isEmpty (s : Substitution) : Bool := s.map.isEmpty

/-- The bindings in variable order. -/
def bindings (s : Substitution) : List (TypeVar × Ty) := s.map.entries

/-- The type that stands for a variable. -/
def image (s : Substitution) (v : TypeVar) : Ty := (s.get? v).getD (.var v)

/-- Replaces the bound variables of a type. -/
def apply (s : Substitution) (t : Ty) : Ty := t.bind s.image

/-- Replaces the bound variables of a scheme's body that the scheme does not quantify. -/
def applyScheme (s : Substitution) (c : Scheme) : Scheme :=
  ⟨c.vars, c.body.bind fun v => if v ∈ c.vars then .var v else s.image v⟩

/-- The bindings in variable order, as `[v := t, w := u]`. -/
def text (s : Substitution) : String :=
  Text.listing (s.bindings.map fun p => p.1.text ++ " := " ++ p.2.text)

instance : ToString Substitution := ⟨text⟩

theorem ext_get? {s t : Substitution} (h : ∀ v, s.get? v = t.get? v) : s = t :=
  Substitution.ext (VarMap.ext_get? h)

theorem image_of_get?_eq_none {s : Substitution} {v : TypeVar} (h : s.get? v = none) :
    s.image v = .var v := by
  rw [image, h, Option.getD_none]

/-- No variable of an image is bound. -/
theorem get?_of_mem_image {s : Substitution} {v w : TypeVar} (h : w ∈ (s.image v).occurrences) :
    s.get? w = none := by
  unfold image at h
  cases bound : s.get? v with
  | none =>
      rw [bound, Option.getD_none, Ty.occurrences, List.mem_singleton] at h
      rwa [h]
  | some t =>
      rw [bound, Option.getD_some] at h
      exact s.resolved v t bound w h

theorem get?_of_mem_apply {s : Substitution} {t : Ty} {w : TypeVar}
    (h : w ∈ (s.apply t).occurrences) : s.get? w = none := by
  obtain ⟨v, -, hw⟩ := Ty.mem_occurrences_bind.mp h
  exact get?_of_mem_image hw

theorem apply_apply (s : Substitution) (t : Ty) : s.apply (s.apply t) = s.apply t :=
  (Ty.bind_congr fun _ hv => image_of_get?_eq_none (get?_of_mem_apply hv)).trans (Ty.bind_var _)

/-! ## Construction -/

def empty : Substitution := ⟨.empty, fun _ _ h => nomatch h⟩

@[simp] theorem get?_empty (v : TypeVar) : empty.get? v = none := rfl

theorem exists_get?_eq_some {s : Substitution} (h : s ≠ empty) : ∃ v t, s.get? v = some t := by
  refine Classical.byContradiction fun none => h (ext_get? fun v => ?_)
  cases bound : s.get? v with
  | none => rfl
  | some t => exact absurd ⟨v, t, bound⟩ none

@[simp] theorem apply_empty (t : Ty) : empty.apply t = t := Ty.bind_var t

/-- Binds one variable to a type in which it does not occur. -/
def single (v : TypeVar) (t : Ty) (h : v ∉ t.occurrences) : Substitution where
  map := VarMap.empty.insertNew v t
  resolved := by
    intro x u bound w hw
    rw [VarMap.get?_insertNew, VarMap.get?_empty, Option.none_or] at bound ⊢
    split at bound
    · cases bound
      have other : w ≠ v := by
        rintro rfl
        exact h hw
      exact if_neg other
    · cases bound

theorem get?_single {v : TypeVar} {t : Ty} {h : v ∉ t.occurrences} (w : TypeVar) :
    (single v t h).get? w = if w = v then some t else none := by
  change (VarMap.empty.insertNew v t).get? w = _
  rw [VarMap.get?_insertNew, VarMap.get?_empty, Option.none_or]

/-- Binds one variable. Bound to itself it stays free; bound to another type in which it occurs it
would be infinite. -/
def singleton (v : TypeVar) (t : Ty) : Except SubstitutionError Substitution :=
  if t = .var v then .ok empty
  else if h : v ∈ t.occurrences then .error (.occurs v t)
  else .ok (single v t h)

/-- Accepts a map that is resolved. -/
def ofMap (m : VarMap Ty) : Except TypeVar Substitution :=
  match h : firstUnresolved m with
  | some v => .error v
  | none => .ok ⟨m, resolved_of_firstUnresolved h⟩

/-- Collects bindings one by one. -/
def collect (m : VarMap Ty) : List (TypeVar × Ty) → Except SubstitutionError (VarMap Ty)
  | [] => .ok m
  | (v, t) :: rest =>
      if v ∈ t.occurrences then .error (.occurs v t)
      else if m.contains v then .error (.duplicateBinding v)
      else collect (m.insertNew v t) rest

/-- The substitution with the given bindings. The variables have to be distinct, and none of them
may occur in a bound type. -/
def ofBindings (l : List (TypeVar × Ty)) : Except SubstitutionError Substitution :=
  match collect .empty l with
  | .error e => .error e
  | .ok m => (ofMap m).mapError .notIdempotent

/-! ## Composition -/

/-- The bindings of the first substitution with the second one applied, and the bindings of the
second for all other variables. -/
def compose (s next : Substitution) : VarMap Ty := (s.map.map next.apply).union next.map

/-- First one substitution, then another, unless a variable that is bound would occur in a type
that is bound. -/
def andThen? (s next : Substitution) : Except EscapeError Substitution :=
  (ofMap (s.compose next)).mapError .mk

theorem get?_compose (s next : Substitution) (v : TypeVar) :
    (s.compose next).get? v = ((s.get? v).map next.apply).or (next.get? v) := by
  rw [compose, VarMap.get?_union, VarMap.get?_map]
  rfl

/-- The next substitution brings back no variable that the first one binds. -/
def Avoids (next s : Substitution) : Prop :=
  ∀ v t, next.get? v = some t → ∀ w ∈ t.occurrences, s.get? w = none

theorem resolved_compose {s next : Substitution} (avoids : next.Avoids s) :
    ∀ v t, (s.compose next).get? v = some t → ∀ w ∈ t.occurrences,
      (s.compose next).get? w = none := by
  have unbound : ∀ w, s.get? w = none → next.get? w = none → (s.compose next).get? w = none := by
    intro w hs hn
    rw [get?_compose, hs, hn]
    rfl
  intro v t bound w hw
  rw [get?_compose] at bound
  cases first : s.get? v with
  | none =>
      rw [first, Option.map_none, Option.none_or] at bound
      exact unbound w (avoids v t bound w hw) (next.resolved v t bound w hw)
  | some u =>
      rw [first, Option.map_some, Option.some_or, Option.some.injEq] at bound
      subst bound
      refine unbound w ?_ (get?_of_mem_apply hw)
      obtain ⟨x, hx, hw⟩ := Ty.mem_occurrences_bind.mp hw
      cases second : next.get? x with
      | none =>
          rw [image_of_get?_eq_none second, Ty.occurrences, List.mem_singleton] at hw
          exact hw ▸ s.resolved v u first x hx
      | some r =>
          rw [image, second, Option.getD_some] at hw
          exact avoids x r second w hw

/-- First one substitution, then another that brings back none of its variables. -/
def andThen (s next : Substitution) (avoids : next.Avoids s) : Substitution :=
  ⟨s.compose next, resolved_compose avoids⟩

theorem get?_andThen {s next : Substitution} {avoids : next.Avoids s} (v : TypeVar) :
    (s.andThen next avoids).get? v = ((s.get? v).map next.apply).or (next.get? v) :=
  get?_compose s next v

theorem apply_andThen {s next : Substitution} {avoids : next.Avoids s} (t : Ty) :
    (s.andThen next avoids).apply t = next.apply (s.apply t) := by
  rw [apply, apply, apply, Ty.bind_bind]
  refine Ty.bind_congr fun v _ => ?_
  rw [image, get?_andThen]
  cases bound : s.get? v with
  | none =>
      rw [image_of_get?_eq_none bound]
      rfl
  | some u =>
      rw [image, bound]
      rfl

end Substitution

end OpCalculus
