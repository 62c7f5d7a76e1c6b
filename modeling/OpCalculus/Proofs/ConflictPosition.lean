import Mathlib
import OpCalculus.Proofs.Unification

/-!
# The position of a conflict

A position is a path of component indices. When unification fails, its error is about a position at which the
types cannot agree: above it they have the same constructors and dimensions, to the left of it they were made
equal by a most general substitution, and the error shows what that substitution makes of the two components
there (`ConflictAt`). Because variables are replaced on the way, the position may lie below a variable of one of
the types, inside its replacement.
-/

namespace OpCalculus

/-! ## Positions -/

namespace Ty

/-- The direct components from left to right. -/
def components : Ty → List Ty
  | scalar _ | var _ => []
  | vector _ element | matrix _ _ element | tensor _ element | sequence element => [element]
  | function first second | strategy first second => [first, second]

/-- The outermost constructor with its dimensions. -/
def head (t : Ty) : String × Option (List Nat) := (t.variant, t.dimensions?)

/-- The component at a position. -/
def at? (t : Ty) : List Nat → Option Ty
  | [] => some t
  | i :: p => t.components[i]?.bind fun u => u.at? p

/-- The components strictly to the left of a position, from left to right. -/
def leftOf (t : Ty) : List Nat → List Ty
  | [] => []
  | i :: p => t.components.take i ++ t.components[i]?.elim [] fun u => u.leftOf p

variable {t u a : Ty} {i : Nat} {p : List Nat}

theorem components_bind (h : t.components[i]? = some u) (q : TypeVar → Ty) :
    (t.bind q).components = t.components.map (bind q) := by
  cases t with
  | scalar | var => cases h
  | _ => rfl

theorem head_bind (h : t.components[i]? = some u) (q : TypeVar → Ty) : (t.bind q).head = t.head := by
  cases t with
  | scalar | var => cases h
  | _ => rfl

theorem at?_cons_bind (h : t.components[i]? = some u) (q : TypeVar → Ty) :
    (t.bind q).at? (i :: p) = (u.bind q).at? p := by
  simp [at?, components_bind h, h]

theorem leftOf_cons_bind (h : t.components[i]? = some u) (q : TypeVar → Ty) :
    (t.bind q).leftOf (i :: p) = (t.components.take i).map (bind q) ++ (u.bind q).leftOf p := by
  simp [leftOf, components_bind h, h]

theorem at?_bind (h : t.at? p = some a) (q : TypeVar → Ty) : (t.bind q).at? p = some (a.bind q) := by
  induction p generalizing t with
  | nil =>
      cases h
      rfl
  | cons i p ih =>
      obtain ⟨u, hu, h⟩ := Option.bind_eq_some_iff.mp h
      rw [at?_cons_bind hu, ih h]

theorem leftOf_bind (h : t.at? p = some a) (q : TypeVar → Ty) :
    (t.bind q).leftOf p = (t.leftOf p).map (bind q) := by
  induction p generalizing t with
  | nil => rfl
  | cons i p ih =>
      obtain ⟨u, hu, h⟩ := Option.bind_eq_some_iff.mp h
      rw [leftOf_cons_bind hu, ih h, leftOf, hu, List.map_append]
      rfl

end Ty

/-! ## Conflicts -/

/-- The error shows the two types, expected and actual, and they are in conflict as it says. -/
def UnifyError.Names : UnifyError → Ty → Ty → Prop
  | kindMismatch expected actual, a, b => expected = a ∧ actual = b ∧ a.Clash b
  | dimensionMismatch expected actual, a, b => expected = a ∧ actual = b ∧ a.Misfit b
  | occursCheck v t, a, b => (a = .var v ∧ b = t ∨ a = t ∧ b = .var v) ∧ v ∈ t.occurrences ∧ t ≠ .var v

namespace Unification

variable {l r a b c d : Ty} {s s₁ : Substitution} {e : UnifyError} {p : List Nat} {i : Nat}

/-- The substitution makes the types of two lists equal, pair by pair, and every assignment that does so
absorbs it. -/
structure MostGeneralFor (s : Substitution) (ls rs : List Ty) : Prop where
  equal : ls.map s.apply = rs.map s.apply
  absorbed : ∀ q, ls.map (Ty.bind q) = rs.map (Ty.bind q) → s.AbsorbedBy q

theorem mostGeneralFor_nil : MostGeneralFor .empty [] [] := ⟨rfl, fun q _ => Substitution.absorbedBy_empty q⟩

theorem MostGeneral.singleton (h : MostGeneral s l r) : MostGeneralFor s [l] [r] :=
  ⟨congrArg (fun t => [t]) h.equal, fun q equal => h.absorbed q (List.singleton_inj.mp equal)⟩

/-- An error is about a position: the types have it after the substitution, which is most general among the
assignments that make the components to its left equal. -/
structure ConflictAt (p : List Nat) (s : Substitution) (l r : Ty) (e : UnifyError) : Prop where
  within : Within s (pairVars l r)
  equal : (s.apply l).leftOf p = (s.apply r).leftOf p
  absorbed : ∀ q, (l.bind q).leftOf p = (r.bind q).leftOf p → s.AbsorbedBy q
  above : ∀ q x y, q <+: p → q ≠ p → (s.apply l).at? q = some x → (s.apply r).at? q = some y → x.head = y.head
  named : ∃ x y, (s.apply l).at? p = some x ∧ (s.apply r).at? p = some y ∧ e.Names x y

theorem conflictAt_root (h : e.Names l r) : ConflictAt [] .empty l r e where
  within := .empty _
  equal := rfl
  absorbed q _ := Substitution.absorbedBy_empty q
  above _ _ _ inside proper := absurd (List.prefix_nil.mp inside) proper
  named := ⟨l, r, congrArg some (Substitution.apply_empty l), congrArg some (Substitution.apply_empty r), h⟩

-- The components before the `i`-th are solved by `s`, and the conflict is inside the `i`-th after `s`.
theorem ConflictAt.descend (heads : l.head = r.head) (hl : l.components[i]? = some a)
    (hr : r.components[i]? = some b) (before : MostGeneralFor s (l.components.take i) (r.components.take i))
    (avoids : s₁.Avoids s) (within : Within (s.andThen s₁ avoids) (pairVars l r))
    (inner : ConflictAt p s₁ (s.apply a) (s.apply b) e) : ConflictAt (i :: p) (s.andThen s₁ avoids) l r e := by
  have composed : Ty.bind (s.andThen s₁ avoids).image = s₁.apply ∘ s.apply :=
    funext fun t => Substitution.apply_andThen t
  have at_left (q : List Nat) : ((s.andThen s₁ avoids).apply l).at? (i :: q) = (s₁.apply (s.apply a)).at? q :=
    (Ty.at?_cons_bind hl _).trans (by rw [composed, Function.comp_apply])
  have at_right (q : List Nat) : ((s.andThen s₁ avoids).apply r).at? (i :: q) = (s₁.apply (s.apply b)).at? q :=
    (Ty.at?_cons_bind hr _).trans (by rw [composed, Function.comp_apply])
  refine ⟨within, ?_, fun q equal => ?_, fun q x y inside proper hx hy => ?_, ?_⟩
  · change (l.bind _).leftOf (i :: p) = (r.bind _).leftOf (i :: p)
    rw [Ty.leftOf_cons_bind hl, Ty.leftOf_cons_bind hr, composed, ← List.map_map, ← List.map_map, before.equal,
      Function.comp_apply, Function.comp_apply, inner.equal]
  · rw [Ty.leftOf_cons_bind hl, Ty.leftOf_cons_bind hr] at equal
    have lengths := congrArg List.length before.equal
    obtain ⟨solved, rest⟩ := List.append_inj equal (by simpa using lengths)
    have first := before.absorbed q solved
    refine Substitution.absorbedBy_andThen avoids first (inner.absorbed q ?_)
    rwa [first.bind_apply, first.bind_apply]
  · rcases List.prefix_cons_iff.mp inside with rfl | ⟨q, rfl, below⟩
    · cases hx
      cases hy
      exact (Ty.head_bind hl _).trans (heads.trans (Ty.head_bind hr _).symm)
    · rw [at_left] at hx
      rw [at_right] at hy
      exact inner.above q x y below (fun same => proper (congrArg (i :: ·) same)) hx hy
  · obtain ⟨x, y, hx, hy, names⟩ := inner.named
    exact ⟨x, y, (at_left p).trans hx, (at_right p).trans hy, names⟩

theorem ConflictAt.first (heads : l.head = r.head) (hl : l.components[0]? = some a)
    (hr : r.components[0]? = some b) (sub : pairVars a b ⊆ pairVars l r) (inner : ConflictAt p s a b e) :
    ConflictAt (0 :: p) s l r e := by
  have avoids : s.Avoids .empty := fun _ _ _ _ _ => rfl
  have same : Substitution.empty.andThen s avoids = s := Substitution.ext_get? fun v => by
    rw [Substitution.get?_andThen, Substitution.get?_empty]
    rfl
  have whole := ConflictAt.descend (p := p) (e := e) heads hl hr mostGeneralFor_nil avoids
    (same.symm ▸ inner.within.mono sub) (by simpa using inner)
  rwa [same] at whole

theorem exists_conflictAt_bindVar {v : TypeVar} {t : Ty} (binds : Binds l r v t) (h : bindVar binds = .error e) :
    ∃ p s, ConflictAt p s l r e := by
  unfold bindVar at h
  split at h
  · rename_i occurs
    cases h
    exact ⟨[], .empty, conflictAt_root ⟨binds.sides, occurs, binds.other⟩⟩
  · cases h

theorem Element.heads (h : Element l r a b) : l.head = r.head := by
  cases h <;> rfl

theorem Element.components (h : Element l r a b) : l.components = [a] ∧ r.components = [b] := by
  cases h <;> exact ⟨rfl, rfl⟩

theorem Pair.heads (h : Pair l r a b c d) : l.head = r.head := by
  cases h <;> rfl

theorem Pair.components (h : Pair l r a b c d) : l.components = [a, b] ∧ r.components = [c, d] := by
  cases h <;> exact ⟨rfl, rfl⟩

theorem exists_conflictAt_of_enter {element : Element l r a b} (here : move l r = .enter a b element)
    (inner : ∀ e, solve a b = .error e → ∃ p s, ConflictAt p s a b e) (h : solve l r = .error e) :
    ∃ p s, ConflictAt p s l r e := by
  rw [solve_of_enter here] at h
  cases solved : solve a b with
  | ok s =>
      rw [solved] at h
      cases h
  | error e' =>
      rw [solved] at h
      cases h
      obtain ⟨hl, hr⟩ := element.components
      obtain ⟨p, s, conflict⟩ := inner e solved
      exact ⟨0 :: p, s, conflict.first element.heads (by rw [hl]; rfl) (by rw [hr]; rfl)
        (element.vars ▸ List.Subset.refl _)⟩

theorem exists_conflictAt_of_split {pair : Pair l r a b c d} (here : move l r = .split a b c d pair)
    (first : ∀ e, solve a c = .error e → ∃ p s, ConflictAt p s a c e)
    (second : ∀ (s : Solution a c) (e : UnifyError), solve (s.1.apply b) (s.1.apply d) = .error e →
      ∃ p s', ConflictAt p s' (s.1.apply b) (s.1.apply d) e)
    (h : solve l r = .error e) : ∃ p s, ConflictAt p s l r e := by
  obtain ⟨hl, hr⟩ := pair.components
  cases solved : solve a c with
  | error e' =>
      rw [solve_of_split_error here solved] at h
      cases h
      obtain ⟨p, s, conflict⟩ := first e solved
      exact ⟨0 :: p, s, conflict.first pair.heads (by rw [hl]; rfl) (by rw [hr]; rfl) pair.splits.first_subset⟩
  | ok s =>
      have general := solve_settles a c
      rw [solved] at general
      rw [solve_of_split_ok here solved] at h
      cases solved₂ : solve (s.1.apply b) (s.1.apply d) with
      | ok s₂ =>
          rw [solved₂] at h
          cases h
      | error e' =>
          rw [solved₂] at h
          cases h
          obtain ⟨p, s₂, conflict⟩ := second s e solved₂
          refine ⟨1 :: p, _, conflict.descend pair.heads (by rw [hl]; rfl) (by rw [hr]; rfl) ?_
            (Splits.avoids conflict.within) (pair.splits.within_andThen s.2 conflict.within)⟩
          rw [hl, hr]
          exact MostGeneral.singleton general

theorem exists_conflictAt (h : solve l r = .error e) : ∃ p s, ConflictAt p s l r e := by
  induction l, r using byMoves generalizing e with
  | skip t =>
      rw [solve_self] at h
      cases h
  | bind l r v t binds here =>
      rw [solve_of_move here] at h
      exact exists_conflictAt_bindVar binds h
  | clash l r here =>
      rw [solve_of_move here] at h
      cases h
      exact ⟨[], .empty, conflictAt_root ⟨rfl, rfl, clash_of_move here⟩⟩
  | misfit l r differ here =>
      rw [solve_of_move here] at h
      cases h
      exact ⟨[], .empty, conflictAt_root ⟨rfl, rfl, differ⟩⟩
  | enter l r a b element here inner => exact exists_conflictAt_of_enter here (fun _ => inner) h
  | split l r a b c d pair here first second =>
      exact exists_conflictAt_of_split here (fun _ => first) (fun s _ => second s) h

end Unification

open Unification

/-- The error of a failed unification shows the two types at a position, expected before actual, as a most
general substitution for all that stands to the left of the position leaves them, and it says what is wrong
with them. Above the position the types agree. Where the position is one of the two types themselves, the
substitution is a most general unifier of their components to the left. -/
theorem unify_error_names_conflict {l r : Ty} {e : UnifyError} (h : unify l r = .error e) :
    ∃ (p : List Nat) (s : Substitution) (a b : Ty),
      (s.apply l).at? p = some a ∧ (s.apply r).at? p = some b ∧ e.Names a b ∧
      (s.apply l).leftOf p = (s.apply r).leftOf p ∧
      (∀ q : TypeVar → Ty, (l.bind q).leftOf p = (r.bind q).leftOf p → s.AbsorbedBy q) ∧
      (∀ q x y, q <+: p → q ≠ p → (s.apply l).at? q = some x → (s.apply r).at? q = some y →
        x.head = y.head) ∧
      ∀ a₀ b₀, l.at? p = some a₀ → r.at? p = some b₀ →
        a = s.apply a₀ ∧ b = s.apply b₀ ∧ MostGeneralFor s (l.leftOf p) (r.leftOf p) := by
  obtain ⟨p, s, conflict⟩ := exists_conflictAt (unify_eq_error.mp h)
  obtain ⟨a, b, ha, hb, names⟩ := conflict.named
  refine ⟨p, s, a, b, ha, hb, names, conflict.equal, conflict.absorbed, conflict.above,
    fun a₀ b₀ ha₀ hb₀ => ⟨?_, ?_, ?_, fun q equal => conflict.absorbed q ?_⟩⟩
  · exact Option.some.inj (ha.symm.trans (Ty.at?_bind ha₀ s.image))
  · exact Option.some.inj (hb.symm.trans (Ty.at?_bind hb₀ s.image))
  · exact (Ty.leftOf_bind ha₀ s.image).symm.trans (conflict.equal.trans (Ty.leftOf_bind hb₀ s.image))
  · rw [Ty.leftOf_bind ha₀, Ty.leftOf_bind hb₀, equal]

-- The conflict lies two levels below the second `'a`, which the first one replaced.
theorem unify_error_names_conflict_below_variable :
    let l := Ty.function (.var (.named "a")) (.function (.var (.named "b")) (.vector 3 (.var (.named "a"))))
    let r := Ty.function (.vector 2 (.var (.named "b"))) (.function .int (.vector 3 (.vector 2 .bool)))
    unify l r = .error (.kindMismatch .int .bool) ∧
      ∃ (p : List Nat) (s : Substitution), (s.apply l).at? p = some .int ∧ (s.apply r).at? p = some .bool ∧
        (s.apply l).leftOf p = (s.apply r).leftOf p := by
  intro l r
  have failed : unify l r = .error (.kindMismatch .int .bool) := by
    simp only [l, r]
    cbv
  obtain ⟨p, s, a, b, ha, hb, ⟨rfl, rfl, -⟩, equal, -⟩ := unify_error_names_conflict failed
  exact ⟨failed, p, s, ha, hb, equal⟩

/-- The second `'a` is replaced before it is compared, so that the conflict is about no position of the two types
themselves. -/
theorem conflict_inside_replacement :
    let l := Ty.function (.var (.named "a")) (.var (.named "a"))
    let r := Ty.function (.vector 2 .int) (.vector 2 .bool)
    unify l r = .error (.kindMismatch .int .bool) ∧
      ¬ ∃ (p : List Nat) (s : Substitution) (a b : Ty), l.at? p = some a ∧ r.at? p = some b ∧
        MostGeneralFor s (l.leftOf p) (r.leftOf p) ∧
        (UnifyError.kindMismatch .int .bool).Names (s.apply a) (s.apply b) := by
  intro l r
  refine ⟨by simp only [l, r]; cbv, ?_⟩
  rintro ⟨p, s, a, b, ha, hb, -, -, actual, -⟩
  -- The positions of both types are the root and its two components; the right type has no scalar there.
  rcases p with _ | ⟨_ | _ | i, _ | ⟨j, p⟩⟩
  · cases hb
    cases actual
  · cases hb
    cases actual
  · cases ha
  · cases hb
    cases actual
  · cases ha
  · cases ha
  · cases ha

end OpCalculus
