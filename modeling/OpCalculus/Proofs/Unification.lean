import OpCalculus.Unification.Basic

/-!
# Unification is most general

`solve l r` settles whether some assignment of types to variables makes `l` and `r` equal: a returned
substitution is a most general one and an error means that there is none (`solve_settles`). That a
substitution is most general is said by absorption: an assignment that makes the two types equal does
not notice whether the substitution was applied before it.

What is proved of unification is proved move by move (`byMoves`), whichever way the moves are made.
-/

namespace OpCalculus

/-- Applying the substitution before the assignment changes nothing. -/
def Substitution.AbsorbedBy (s : Substitution) (q : TypeVar → Ty) : Prop :=
  ∀ v, (s.image v).bind q = q v

namespace Substitution

variable {s next : Substitution} {q : TypeVar → Ty}

theorem absorbedBy_empty (q : TypeVar → Ty) : empty.AbsorbedBy q := fun _ => rfl

theorem absorbedBy_image (s : Substitution) : s.AbsorbedBy s.image := fun v => s.apply_apply (.var v)

theorem AbsorbedBy.bind_apply (h : s.AbsorbedBy q) (t : Ty) : (s.apply t).bind q = t.bind q := by
  rw [apply, Ty.bind_bind]
  exact Ty.bind_congr fun v _ => h v

theorem absorbedBy_comp (s : Substitution) (q : TypeVar → Ty) :
    s.AbsorbedBy fun v => (s.image v).bind q := by
  intro v
  rw [← Ty.bind_bind]
  exact congrArg (Ty.bind q) (s.apply_apply (.var v))

theorem absorbedBy_single {v : TypeVar} {t : Ty} {h : v ∉ t.occurrences} (equal : q v = t.bind q) :
    (single v t h).AbsorbedBy q := by
  intro w
  rw [image, get?_single]
  split
  · rename_i here
    rw [here, Option.getD_some, equal]
  · rfl

theorem image_andThen {avoids : next.Avoids s} (v : TypeVar) :
    (s.andThen next avoids).image v = next.apply (s.image v) :=
  apply_andThen (.var v)

theorem absorbedBy_andThen (avoids : next.Avoids s) (first : s.AbsorbedBy q)
    (second : next.AbsorbedBy q) : (s.andThen next avoids).AbsorbedBy q := by
  intro v
  rw [image_andThen, second.bind_apply]
  exact first v

end Substitution

namespace Ty

variable {l r t : Ty}

theorem variant_bind (h : ∀ v, t ≠ var v) (q : TypeVar → Ty) : (t.bind q).variant = t.variant := by
  cases t with
  | var v => exact absurd rfl (h v)
  | _ => rfl

theorem dimensions?_bind {dimensions : List Nat} (h : t.dimensions? = some dimensions) (q : TypeVar → Ty) :
    (t.bind q).dimensions? = some dimensions := by
  cases t with
  | var v => cases h
  | _ => exact h

/-- No variable, and different constructors or different kinds of scalars. -/
def Clash (a b : Ty) : Prop :=
  (∀ v, a ≠ var v) ∧ (∀ v, b ≠ var v) ∧
    (a.variant ≠ b.variant ∨ ∃ i j, a = scalar i ∧ b = scalar j ∧ i ≠ j)

theorem Clash.bind_ne (h : l.Clash r) (q : TypeVar → Ty) : l.bind q ≠ r.bind q := by
  obtain ⟨noLeft, noRight, differ | ⟨i, j, rfl, rfl, differ⟩⟩ := h
  · intro equal
    rw [← variant_bind noLeft q, ← variant_bind noRight q, equal] at differ
    exact differ rfl
  · exact fun equal => differ (Ty.scalar.inj equal)

theorem Misfit.bind_ne (h : l.Misfit r) (q : TypeVar → Ty) : l.bind q ≠ r.bind q := by
  obtain ⟨-, m, n, left, right, differ⟩ := h
  intro equal
  have there := dimensions?_bind left q
  rw [equal, dimensions?_bind right q] at there
  exact differ (Option.some.inj there).symm

end Ty

namespace Unification

variable {m : Type → Type} [Monad m] {l r a b c d t : Ty} {v : TypeVar} {q : TypeVar → Ty}

/-! ## Moves -/

theorem move_self (t : Ty) : move t t = .skip rfl := by
  rw [move, dif_pos rfl]

theorem ne_of_move {next : Move l r} (h : move l r = next) (moves : ∀ same, next ≠ .skip same) : l ≠ r := by
  rintro rfl
  exact moves rfl (h.symm.trans (move_self l))

theorem clash_of_move (h : move l r = .clash) : l.Clash r := by
  have other := ne_of_move h nofun
  rw [move, dif_neg other] at h
  refine ⟨?_, ?_, Decidable.or_iff_not_imp_left.mpr fun same => ?_⟩
  · rintro v rfl
    cases h
  · rintro v rfl
    cases l <;> cases h
  · cases l <;> cases r <;> simp [Ty.variant] at same
    case scalar.scalar i j => exact ⟨i, j, rfl, rfl, mt (congrArg Ty.scalar) other⟩
    case vector.vector | matrix.matrix | tensor.tensor =>
      dsimp only at h
      split at h <;> cases h
    all_goals cases h

theorem move_of_element (h : Element l r a b) (other : l ≠ r) : move l r = .enter a b h := by
  cases h <;> rw [move, dif_neg other] <;> simp

theorem move_of_pair (h : Pair l r a b c d) (other : l ≠ r) : move l r = .split a b c d h := by
  cases h <;> rw [move, dif_neg other]

/-- Induction along the recursive calls, with one case for each move. -/
theorem byMoves {motive : Ty → Ty → Prop}
    (skip : ∀ t, motive t t)
    (bind : ∀ l r v t (binds : Binds l r v t), move l r = .bind v t binds → motive l r)
    (clash : ∀ l r, move l r = .clash → motive l r)
    (misfit : ∀ l r (differ : l.Misfit r), move l r = .misfit differ → motive l r)
    (enter : ∀ l r a b (element : Element l r a b), move l r = .enter a b element → motive a b → motive l r)
    (split : ∀ l r a b c d (pair : Pair l r a b c d), move l r = .split a b c d pair → motive a c →
      (∀ s : Solution a c, motive (s.1.apply b) (s.1.apply d)) → motive l r) (l r : Ty) : motive l r :=
  match here : move l r with
  | .skip same => same ▸ skip l
  | .bind v t binds => bind l r v t binds here
  | .clash => clash l r here
  | .misfit differ => misfit l r differ here
  | .enter a b element =>
      enter l r a b element here (byMoves skip bind clash misfit enter split a b)
  | .split a b c d pair =>
      split l r a b c d pair here (byMoves skip bind clash misfit enter split a c) fun s =>
        byMoves skip bind clash misfit enter split (s.1.apply b) (s.1.apply d)
termination_by (varCount l r, totalSize l r)
decreasing_by
  · exact element.decreases
  · exact pair.splits.first_decreases
  · exact pair.splits.second_decreases s.2

theorem solveWith_of_move {next : Move l r} (h : move l r = next) (x : Actions m) :
    solveWith x l r = (do
      x.note next
      x.make (fun a b _ => solveWith x a b) next) := by
  rw [solveWith, h]

theorem solve_of_move {next : Move l r} (h : move l r = next) :
    solve l r = plain.make (fun a b _ => solve a b) next := by
  rw [solve, solveWith_of_move h]
  rfl

theorem solve_self (t : Ty) : solve t t = .ok ⟨.empty, .empty _⟩ := solve_of_move (move_self t)

theorem solve_of_enter {element : Element l r a b} (here : move l r = .enter a b element) :
    solve l r = (solve a b).map (Solution.cast element) :=
  solve_of_move here

theorem solve_of_split_error {pair : Pair l r a b c d} {e : UnifyError} (here : move l r = .split a b c d pair)
    (first : solve a c = .error e) : solve l r = .error e := by
  rw [solve_of_move here, Actions.make, first]
  rfl

theorem solve_of_split_ok {pair : Pair l r a b c d} {s : Solution a c} (here : move l r = .split a b c d pair)
    (first : solve a c = .ok s) :
    solve l r = (solve (s.1.apply b) (s.1.apply d)).map (join pair.splits s) := by
  rw [solve_of_move here, Actions.make, first]
  rfl

theorem Element.bind_eq_iff (h : Element l r a b) : l.bind q = r.bind q ↔ a.bind q = b.bind q := by
  cases h <;> simp [Ty.bind]

theorem Pair.bind_eq_iff (h : Pair l r a b c d) :
    l.bind q = r.bind q ↔ a.bind q = c.bind q ∧ b.bind q = d.bind q := by
  cases h <;> simp [Ty.bind]

/-! ## Unifiers -/

/-- The substitution makes two types equal, and every assignment that does so absorbs it. -/
structure MostGeneral (s : Substitution) (l r : Ty) : Prop where
  equal : s.apply l = s.apply r
  absorbed : ∀ q, l.bind q = r.bind q → s.AbsorbedBy q

/-- What the outcome of unifying two types says about their unifiers. -/
def Settles (l r : Ty) : Except UnifyError (Solution l r) → Prop
  | .ok s => MostGeneral s.1 l r
  | .error _ => ∀ q, l.bind q ≠ r.bind q

/-! ## The occurs check -/

theorem size_le_size_bind (q : TypeVar → Ty) {v : TypeVar} {t : Ty} (h : v ∈ t.occurrences) :
    (q v).size ≤ (t.bind q).size := by
  induction t with
  | scalar kind => simp [Ty.occurrences] at h
  | var w =>
      rw [Ty.occurrences, List.mem_singleton] at h
      rw [h]
      exact Nat.le_refl _
  | vector len element ih => exact Nat.le_succ_of_le (ih h)
  | matrix rows cols element ih => exact Nat.le_succ_of_le (ih h)
  | tensor shape element ih => exact Nat.le_succ_of_le (ih h)
  | sequence element ih => exact Nat.le_succ_of_le (ih h)
  | function input output ihi iho =>
      simp only [Ty.bind, Ty.size]
      rcases List.mem_append.mp h with h | h
      · have := ihi h
        omega
      · have := iho h
        omega
  | strategy state action ihs iha =>
      simp only [Ty.bind, Ty.size]
      rcases List.mem_append.mp h with h | h
      · have := ihs h
        omega
      · have := iha h
        omega

theorem size_lt_size_bind (q : TypeVar → Ty) {v : TypeVar} {t : Ty} (h : v ∈ t.occurrences)
    (other : t ≠ .var v) : (q v).size < (t.bind q).size := by
  cases t with
  | scalar kind => simp [Ty.occurrences] at h
  | var w =>
      rw [Ty.occurrences, List.mem_singleton] at h
      exact absurd (congrArg Ty.var h.symm) other
  | vector len element => exact Nat.lt_succ_of_le (size_le_size_bind q h)
  | matrix rows cols element => exact Nat.lt_succ_of_le (size_le_size_bind q h)
  | tensor shape element => exact Nat.lt_succ_of_le (size_le_size_bind q h)
  | sequence element => exact Nat.lt_succ_of_le (size_le_size_bind q h)
  | function input output =>
      simp only [Ty.bind, Ty.size]
      rcases List.mem_append.mp h with h | h
      · have := size_le_size_bind q h
        omega
      · have := size_le_size_bind q h
        omega
  | strategy state action =>
      simp only [Ty.bind, Ty.size]
      rcases List.mem_append.mp h with h | h
      · have := size_le_size_bind q h
        omega
      · have := size_le_size_bind q h
        omega

theorem mostGeneral_single {v : TypeVar} {t : Ty} (h : v ∉ t.occurrences) :
    MostGeneral (.single v t h) (.var v) t where
  equal := by
    have fixed : (Substitution.single v t h).apply t = t := by
      refine (Ty.bind_congr fun w hw => ?_).trans (Ty.bind_var t)
      refine Substitution.image_of_get?_eq_none ?_
      rw [Substitution.get?_single, if_neg]
      rintro rfl
      exact h hw
    rw [fixed, Substitution.apply, Ty.bind, Substitution.image, Substitution.get?_single, if_pos rfl,
      Option.getD_some]
  absorbed _ equal := Substitution.absorbedBy_single equal

theorem MostGeneral.symm {s : Substitution} (h : MostGeneral s l r) : MostGeneral s r l :=
  ⟨h.equal.symm, fun q equal => h.absorbed q equal.symm⟩

theorem bind_ne_of_occurs {v : TypeVar} {t : Ty} (h : v ∈ t.occurrences) (other : t ≠ .var v)
    (q : TypeVar → Ty) : q v ≠ t.bind q := by
  intro equal
  have := size_lt_size_bind q h other
  rw [← equal] at this
  exact absurd this (Nat.lt_irrefl _)

theorem settles_bindVar (binds : Binds l r v t) : Settles l r (bindVar binds) := by
  unfold bindVar
  obtain ⟨rfl, rfl⟩ | ⟨rfl, rfl⟩ := binds.sides
  · split
    · rename_i occurs
      exact bind_ne_of_occurs occurs binds.other
    · rename_i absent
      exact mostGeneral_single absent
  · split
    · rename_i occurs
      exact fun q equal => bind_ne_of_occurs occurs binds.other q equal.symm
    · rename_i absent
      exact (mostGeneral_single absent).symm

/-! ## Components -/

theorem settles_of_enter {element : Element l r a b} (here : move l r = .enter a b element)
    (settled : Settles a b (solve a b)) : Settles l r (solve l r) := by
  rw [solve_of_enter here]
  cases solved : solve a b with
  | error e =>
      rw [solved] at settled
      exact fun q equal => settled q (element.bind_eq_iff.mp equal)
  | ok s =>
      rw [solved] at settled
      exact ⟨element.bind_eq_iff.mpr settled.equal,
        fun q equal => settled.absorbed q (element.bind_eq_iff.mp equal)⟩

theorem MostGeneral.join {s s₂ : Substitution} (avoids : s₂.Avoids s) (pair : Pair l r a b c d)
    (first : MostGeneral s a c) (second : MostGeneral s₂ (s.apply b) (s.apply d)) :
    MostGeneral (s.andThen s₂ avoids) l r where
  equal := by
    refine pair.bind_eq_iff.mpr ⟨?_, ?_⟩
    · change (s.andThen s₂ avoids).apply a = (s.andThen s₂ avoids).apply c
      rw [Substitution.apply_andThen, Substitution.apply_andThen, first.equal]
    · change (s.andThen s₂ avoids).apply b = (s.andThen s₂ avoids).apply d
      rw [Substitution.apply_andThen, Substitution.apply_andThen, second.equal]
  absorbed q equal := by
    obtain ⟨equalFirst, equalSecond⟩ := pair.bind_eq_iff.mp equal
    have absorbed := first.absorbed q equalFirst
    refine Substitution.absorbedBy_andThen avoids absorbed (second.absorbed q ?_)
    rwa [absorbed.bind_apply, absorbed.bind_apply]

theorem settles_of_split {pair : Pair l r a b c d} (here : move l r = .split a b c d pair)
    (first : Settles a c (solve a c))
    (second : ∀ s : Solution a c, Settles (s.1.apply b) (s.1.apply d) (solve (s.1.apply b) (s.1.apply d))) :
    Settles l r (solve l r) := by
  cases solved : solve a c with
  | error e =>
      rw [solved] at first
      rw [solve_of_split_error here solved]
      exact fun q equal => first q (pair.bind_eq_iff.mp equal).1
  | ok s =>
      rw [solved] at first
      rw [solve_of_split_ok here solved]
      have second := second s
      cases solved₂ : solve (s.1.apply b) (s.1.apply d) with
      | ok s₂ =>
          rw [solved₂] at second
          exact MostGeneral.join (Splits.avoids s₂.2) pair first second
      | error e =>
          rw [solved₂] at second
          -- A unifier of the whole absorbs the first solution, so it would unify the second pair.
          intro q equal
          obtain ⟨equalFirst, equalSecond⟩ := pair.bind_eq_iff.mp equal
          have absorbed := first.absorbed q equalFirst
          refine second q ?_
          rwa [absorbed.bind_apply, absorbed.bind_apply]

/-! ## The algorithm -/

theorem solve_settles (l r : Ty) : Settles l r (solve l r) := by
  induction l, r using byMoves with
  | skip t =>
      rw [solve_self]
      exact ⟨rfl, fun q _ => Substitution.absorbedBy_empty q⟩
  | bind l r v t binds here =>
      rw [solve_of_move here]
      exact settles_bindVar binds
  | clash l r here =>
      rw [solve_of_move here]
      exact (clash_of_move here).bind_ne
  | misfit l r differ here =>
      rw [solve_of_move here]
      exact differ.bind_ne
  | enter l r a b element here inner => exact settles_of_enter here inner
  | split l r a b c d pair here first second => exact settles_of_split here first second

end Unification

open Unification

variable {l r : Ty}

theorem mostGeneral_of_unify {s : Substitution} (h : unify l r = .ok s) : MostGeneral s l r := by
  obtain ⟨solution, solved, rfl⟩ := unify_eq_ok.mp h
  have settled := solve_settles l r
  rw [solved] at settled
  exact settled

theorem no_unifier_of_unify {e : UnifyError} (h : unify l r = .error e) (q : TypeVar → Ty) :
    l.bind q ≠ r.bind q := by
  have settled := solve_settles l r
  rw [unify_eq_error.mp h] at settled
  exact settled q

/-- Unification returns an idempotent most general unifier over the variables of the two types, and
it fails only when no assignment of types to variables makes them equal. -/
theorem unify_isMostGeneral (l r : Ty) :
    (∀ s, unify l r = .ok s →
      s.apply l = s.apply r ∧
      (∀ t, s.apply (s.apply t) = s.apply t) ∧
      (∀ v t, s.get? v = some t → ∀ w ∈ v :: t.occurrences, w ∈ l.occurrences ∨ w ∈ r.occurrences) ∧
      ∀ q : TypeVar → Ty, l.bind q = r.bind q → ∀ t, (s.apply t).bind q = t.bind q) ∧
    ∀ e, unify l r = .error e → ∀ q : TypeVar → Ty, l.bind q ≠ r.bind q := by
  refine ⟨fun s h => ?_, fun e h => no_unifier_of_unify h⟩
  have general := mostGeneral_of_unify h
  have within := within_of_unify h
  refine ⟨general.equal, s.apply_apply, ?_, fun q equal => (general.absorbed q equal).bind_apply⟩
  intro v t bound w hw
  rcases List.mem_cons.mp hw with rfl | hw
  · exact List.mem_append.mp (within.bound w t bound)
  · exact List.mem_append.mp (within.mentioned v t bound w hw)

theorem unify_isMostGeneral_chained :
    (∃ s, unify (.function (.var (.named "a")) (.var (.named "b")))
        (.function (.var (.named "b")) (.vector 2 .int)) = .ok s ∧
      s.apply (.function (.var (.named "a")) (.var (.named "b"))) =
        s.apply (.function (.var (.named "b")) (.vector 2 .int))) ∧
    ∃ e, unify (.var (.named "a")) (.sequence (.var (.named "a"))) = .error e ∧
      ∀ q : TypeVar → Ty, q (.named "a") ≠ .sequence (q (.named "a")) := by
  have chained := unify_isMostGeneral (.function (.var (.named "a")) (.var (.named "b")))
    (.function (.var (.named "b")) (.vector 2 .int))
  have cyclic := unify_isMostGeneral (.var (.named "a")) (.sequence (.var (.named "a")))
  constructor
  · cases solved : unify (.function (.var (.named "a")) (.var (.named "b")))
        (.function (.var (.named "b")) (.vector 2 .int)) with
    | ok s => exact ⟨s, rfl, (chained.1 s solved).1⟩
    | error e => exact absurd rfl (chained.2 e solved fun _ => .vector 2 .int)
  · cases solved : unify (.var (.named "a")) (.sequence (.var (.named "a"))) with
    | ok s =>
        have size := congrArg Ty.size (cyclic.1 s solved).1
        simp [Substitution.apply, Ty.bind, Ty.size] at size
    | error e => exact ⟨e, rfl, cyclic.2 e solved⟩

end OpCalculus
