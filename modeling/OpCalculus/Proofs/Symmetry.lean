import OpCalculus.Proofs.ConflictPosition
import OpCalculus.Proofs.Variants

/-!
# Unification in both directions

Of two variables unification binds the left one, so from the first such pair on the two directions work on
different types. But these differ only in the names of their variables: most general unifiers of variants make
variants out of what is left (`MostGeneral.bind_apply`). The verdict of unification, that is success or the category
of the conflict, does not depend on names nor on the direction (`verdict_solve_swap`).
-/

namespace OpCalculus

namespace Ty

variable {l r t : Ty}

theorem bind_ne_var (h : ∀ v, t ≠ var v) (f : TypeVar → Ty) (v : TypeVar) : t.bind f ≠ var v := by
  intro equal
  obtain ⟨w, rfl, -⟩ := bind_eq_var equal
  exact h w rfl

theorem Clash.bind_swap (h : l.Clash r) (f : TypeVar → Ty) : (r.bind f).Clash (l.bind f) := by
  obtain ⟨noLeft, noRight, differ⟩ := h
  refine ⟨bind_ne_var noRight f, bind_ne_var noLeft f, ?_⟩
  rcases differ with differ | ⟨i, j, rfl, rfl, differ⟩
  · rw [variant_bind noRight, variant_bind noLeft]
    exact .inl (Ne.symm differ)
  · exact .inr ⟨j, i, rfl, rfl, Ne.symm differ⟩

theorem ne_var_of_dimensions? {dimensions : List Nat} (h : t.dimensions? = some dimensions) (v : TypeVar) :
    t ≠ var v := by
  rintro rfl
  cases h

theorem Misfit.bind_swap (h : l.Misfit r) (f : TypeVar → Ty) : (r.bind f).Misfit (l.bind f) := by
  obtain ⟨same, m, n, left, right, differ⟩ := h
  refine ⟨?_, n, m, dimensions?_bind right f, dimensions?_bind left f, Ne.symm differ⟩
  rw [variant_bind (ne_var_of_dimensions? left), variant_bind (ne_var_of_dimensions? right), same]

end Ty

namespace Unification

variable {l r l' r' a b c d t : Ty} {v w : TypeVar} {s s' : Substitution}

/-! ## Verdicts -/

/-- The category of the conflict, if there is one. -/
def verdict {α : Type} : Except UnifyError α → Option Category
  | .ok _ => none
  | .error e => some e.category

theorem verdict_map {α β : Type} (f : α → β) (x : Except UnifyError α) : verdict (x.map f) = verdict x := by
  cases x <;> rfl

theorem verdict_solve_self (t : Ty) : verdict (solve t t) = none := by
  rw [solve_self, verdict]

/-- The verdict on two pairs, the second under the solution of the first. -/
def pairVerdict (a b c d : Ty) : Option Category :=
  match solve a c with
  | .ok s => verdict (solve (s.1.apply b) (s.1.apply d))
  | .error e => some e.category

theorem verdict_of_bind {binds : Binds l r v t} (h : move l r = .bind v t binds) :
    verdict (solve l r) = if v ∈ t.occurrences then some .occursCheck else none := by
  rw [solve_of_move h]
  change verdict (bindVar binds) = _
  unfold bindVar
  split <;> rfl

theorem verdict_solve_var (other : t ≠ .var v) :
    verdict (solve (.var v) t) = if v ∈ t.occurrences then some .occursCheck else none := by
  have here : move (.var v) t = .bind v t ⟨.inl ⟨rfl, rfl⟩, other⟩ := by rw [move, dif_neg (Ne.symm other)]
  exact verdict_of_bind here

theorem verdict_solve_into_var (other : t ≠ .var v) :
    verdict (solve t (.var v)) = if v ∈ t.occurrences then some .occursCheck else none := by
  by_cases both : ∃ w, t = .var w
  · -- Of two variables the left one is bound, and neither occurs in the other.
    obtain ⟨w, rfl⟩ := both
    have apart : w ≠ v := fun same => other (congrArg Ty.var same)
    rw [verdict_solve_var (Ne.symm other)]
    simp [Ty.occurrences, apart, Ne.symm apart]
  · have here : move t (.var v) = .bind v t ⟨.inr ⟨rfl, rfl⟩, other⟩ := by
      rw [move, dif_neg other]
      cases t with
      | var w => exact absurd ⟨w, rfl⟩ both
      | _ => rfl
    exact verdict_of_bind here

theorem verdict_solve_of_binds (binds : Binds l r v t) :
    verdict (solve l r) = if v ∈ t.occurrences then some .occursCheck else none := by
  obtain ⟨rfl, rfl⟩ | ⟨rfl, rfl⟩ := binds.sides
  · exact verdict_solve_var binds.other
  · exact verdict_solve_into_var binds.other

theorem move_of_clash (h : l.Clash r) : move l r = .clash := by
  obtain ⟨noLeft, noRight, differ⟩ := h
  cases here : move l r with
  | clash => rfl
  | skip same =>
      rw [same] at differ
      obtain differ | ⟨i, j, hi, hj, differ⟩ := differ
      · exact absurd rfl differ
      · exact absurd (Ty.scalar.inj (hi.symm.trans (same ▸ hj))) differ
  | bind v t binds =>
      obtain ⟨left, -⟩ | ⟨-, right⟩ := binds.sides
      · exact absurd left (noLeft v)
      · exact absurd right (noRight v)
  | misfit differ' =>
      obtain ⟨same, m, n, left, -⟩ := differ'
      obtain differ | ⟨i, j, rfl, -⟩ := differ
      · exact absurd same differ
      · cases left
  | enter a b element => cases element <;> simp [Ty.variant] at differ
  | split a b c d pair => cases pair <;> simp [Ty.variant] at differ

theorem move_of_misfit (h : l.Misfit r) : move l r = .misfit h := by
  obtain ⟨same, m, n, left, right, differ⟩ := h
  cases here : move l r with
  | misfit => rfl
  | skip same =>
      rw [same] at left
      exact absurd (Option.some.inj (left.symm.trans right)) differ
  | bind v t binds =>
      obtain ⟨rfl, -⟩ | ⟨-, rfl⟩ := binds.sides
      · cases left
      · cases right
  | clash =>
      obtain ⟨-, -, differ | ⟨i, j, rfl, -⟩⟩ := clash_of_move here
      · exact absurd same differ
      · cases left
  | enter a b element =>
      cases element with
      | sequence => cases left
      | _ => exact absurd (Option.some.inj (left.symm.trans right)) differ
  | split a b c d pair => cases pair <;> cases left

theorem verdict_solve_of_element (element : Element l r a b) (other : l ≠ r) :
    verdict (solve l r) = verdict (solve a b) := by
  rw [solve_of_enter (move_of_element element other), verdict_map]

theorem verdict_solve_of_pair (pair : Pair l r a b c d) (other : l ≠ r) :
    verdict (solve l r) = pairVerdict a b c d := by
  have here := move_of_pair pair other
  unfold pairVerdict
  cases first : solve a c with
  | error e => rw [solve_of_split_error here first, verdict]
  | ok s => rw [solve_of_split_ok here first, verdict_map]

/-! ## Variants -/

variable {f g : TypeVar → Ty}

theorem ne_of_undone (hl : (l.bind f).bind g = l) (hr : (r.bind f).bind g = r) (other : l ≠ r) :
    r.bind f ≠ l.bind f := by
  intro same
  rw [← hl, ← hr, same] at other
  exact other rfl

theorem mem_occurrences_renamed (ht : (t.bind f).bind g = t) (hf : f v = .var w) (hg : g w = .var v) :
    w ∈ (t.bind f).occurrences ↔ v ∈ t.occurrences := by
  constructor
  · intro hw
    rw [← ht]
    exact Ty.mem_occurrences_bind.mpr ⟨w, hw, by rw [hg]; exact List.mem_singleton_self v⟩
  · intro hv
    exact Ty.mem_occurrences_bind.mpr ⟨v, hv, by rw [hf]; exact List.mem_singleton_self w⟩

theorem Binds.bind_swap (h : Binds l r v t) (hl : (l.bind f).bind g = l) (hr : (r.bind f).bind g = r) :
    ∃ w, Binds (r.bind f) (l.bind f) w (t.bind f) ∧ (w ∈ (t.bind f).occurrences ↔ v ∈ t.occurrences) := by
  obtain ⟨rfl, rfl⟩ | ⟨rfl, rfl⟩ := h.sides
  · obtain ⟨w, hf, hg⟩ := Ty.bind_eq_var hl
    have apart := ne_of_undone hl hr (Ne.symm h.other)
    rw [hf] at apart
    exact ⟨w, ⟨.inr ⟨rfl, hf⟩, apart⟩, mem_occurrences_renamed hr hf hg⟩
  · obtain ⟨w, hf, hg⟩ := Ty.bind_eq_var hr
    have apart := ne_of_undone hl hr h.other
    rw [hf] at apart
    exact ⟨w, ⟨.inl ⟨hf, rfl⟩, Ne.symm apart⟩, mem_occurrences_renamed hl hf hg⟩

theorem Element.bind_swap (h : Element l r a b) (f : TypeVar → Ty) :
    Element (r.bind f) (l.bind f) (b.bind f) (a.bind f) := by
  cases h <;> constructor

theorem Element.undone (h : Element l r a b) (hl : (l.bind f).bind g = l) (hr : (r.bind f).bind g = r) :
    (a.bind f).bind g = a ∧ (b.bind f).bind g = b := by
  cases h <;> simp_all [Ty.bind]

theorem Pair.bind_swap (h : Pair l r a b c d) (f : TypeVar → Ty) :
    Pair (r.bind f) (l.bind f) (c.bind f) (d.bind f) (a.bind f) (b.bind f) := by
  cases h <;> constructor

theorem Pair.undone (h : Pair l r a b c d) (hl : (l.bind f).bind g = l) (hr : (r.bind f).bind g = r) :
    ((a.bind f).bind g = a ∧ (b.bind f).bind g = b) ∧ (c.bind f).bind g = c ∧ (d.bind f).bind g = d := by
  cases h <;> simp_all [Ty.bind]

/-- What a most general unifier leaves of a type becomes, by a replacement, what a unifier of the replaced types
leaves of it. -/
theorem MostGeneral.bind_apply (general : MostGeneral s l r) (equal : s'.apply (l.bind f) = s'.apply (r.bind f))
    (t : Ty) : (s.apply t).bind (fun v => s'.apply (f v)) = s'.apply (t.bind f) := by
  have unifies : l.bind (fun v => s'.apply (f v)) = r.bind fun v => s'.apply (f v) := by
    simpa only [Substitution.apply, Ty.bind_bind] using equal
  rw [(general.absorbed _ unifies).bind_apply, Substitution.apply, Ty.bind_bind]
  rfl

theorem pairVerdict_swap (ha : (a.bind f).bind g = a) (hb : (b.bind f).bind g = b) (hc : (c.bind f).bind g = c)
    (hd : (d.bind f).bind g = d) (first : verdict (solve a c) = verdict (solve (c.bind f) (a.bind f)))
    (second : ∀ (s : Solution a c) (f g : TypeVar → Ty), ((s.1.apply b).bind f).bind g = s.1.apply b →
      ((s.1.apply d).bind f).bind g = s.1.apply d → verdict (solve (s.1.apply b) (s.1.apply d)) =
        verdict (solve ((s.1.apply d).bind f) ((s.1.apply b).bind f))) :
    pairVerdict a b c d = pairVerdict (c.bind f) (d.bind f) (a.bind f) (b.bind f) := by
  have general := solve_settles a c
  have general' := solve_settles (c.bind f) (a.bind f)
  unfold pairVerdict
  cases solved : solve a c with
  | error e =>
      rw [solved] at first
      cases solved' : solve (c.bind f) (a.bind f) with
      | error e' =>
          rw [solved'] at first
          exact first
      | ok s' =>
          rw [solved'] at first
          cases first
  | ok s =>
      rw [solved] at first general
      cases solved' : solve (c.bind f) (a.bind f) with
      | error e' =>
          rw [solved'] at first
          cases first
      | ok s' =>
          rw [solved'] at general'
          have there := MostGeneral.bind_apply general general'.equal.symm
          have back : ∀ t : Ty, (s'.1.apply t).bind (fun w => s.1.apply (g w)) = s.1.apply (t.bind g) :=
            MostGeneral.bind_apply general' (by rw [ha, hc, general.equal])
          have undone {t : Ty} (ht : (t.bind f).bind g = t) :
              ((s.1.apply t).bind fun v => s'.1.apply (f v)).bind (fun w => s.1.apply (g w)) = s.1.apply t := by
            rw [there, back, ht]
          have same := second s _ _ (undone hb) (undone hd)
          rwa [there, there] at same

/-- Neither the names of the variables nor the order of the two types decide about success or the category of the
conflict. -/
theorem verdict_solve_swap (hl : (l.bind f).bind g = l) (hr : (r.bind f).bind g = r) :
    verdict (solve l r) = verdict (solve (r.bind f) (l.bind f)) := by
  induction l, r using byMoves generalizing f g with
  | skip t => rw [verdict_solve_self, verdict_solve_self]
  | bind l r v t binds =>
      obtain ⟨w, binds', occurs⟩ := binds.bind_swap hl hr
      rw [verdict_solve_of_binds binds, verdict_solve_of_binds binds']
      simp only [occurs]
  | clash l r here =>
      rw [solve_of_move here, solve_of_move (move_of_clash ((clash_of_move here).bind_swap f))]
      rfl
  | misfit l r differ here =>
      rw [solve_of_move here, solve_of_move (move_of_misfit (differ.bind_swap f))]
      rfl
  | enter l r a b element here inner =>
      have other := ne_of_move here nofun
      obtain ⟨ha, hb⟩ := element.undone hl hr
      rw [verdict_solve_of_element element other,
        verdict_solve_of_element (element.bind_swap f) (ne_of_undone hl hr other)]
      exact inner ha hb
  | split l r a b c d pair here first second =>
      have other := ne_of_move here nofun
      obtain ⟨⟨ha, hb⟩, hc, hd⟩ := pair.undone hl hr
      rw [verdict_solve_of_pair pair other,
        verdict_solve_of_pair (pair.bind_swap f) (ne_of_undone hl hr other)]
      exact pairVerdict_swap ha hb hc hd (first ha hc) fun s _ _ => second s

end Unification

open Unification

theorem verdict_unify (l r : Ty) : verdict (unify l r) = verdict (solve l r) := verdict_map _ _

theorem apply_apply_of_unify_swap {l r : Ty} {s s' : Substitution} (h : unify l r = .ok s)
    (h' : unify r l = .ok s') (t : Ty) : (s.apply t).bind s'.image = s'.apply t :=
  ((mostGeneral_of_unify h).absorbed _ (mostGeneral_of_unify h').equal.symm).bind_apply t

/-- Unification succeeds in both directions, with results that agree up to the names of variables, or it fails in
both with the same category of conflict. -/
theorem unify_symmetric (l r : Ty) :
    (∃ s s', unify l r = .ok s ∧ unify r l = .ok s' ∧
      ∀ t, (s.apply t).alphaEquivalent (s'.apply t) = true) ∨
    ∃ e e', unify l r = .error e ∧ unify r l = .error e' ∧ e.category = e'.category := by
  have same : verdict (unify l r) = verdict (unify r l) := by
    have swapped := verdict_solve_swap (l := l) (r := r) (f := .var) (g := .var) (by simp) (by simp)
    rwa [Ty.bind_var, Ty.bind_var, ← verdict_unify, ← verdict_unify] at swapped
  cases h : unify l r with
  | ok s =>
      cases h' : unify r l with
      | ok s' =>
          left
          refine ⟨s, s', rfl, rfl, fun t => ?_⟩
          exact Ty.alphaEquivalent_of_instances (apply_apply_of_unify_swap h h' t)
            (apply_apply_of_unify_swap h' h t)
      | error e' =>
          rw [h, h'] at same
          cases same
  | error e =>
      cases h' : unify r l with
      | ok s' =>
          rw [h, h'] at same
          cases same
      | error e' =>
          rw [h, h'] at same
          exact .inr ⟨e, e', rfl, rfl, Option.some.inj same⟩

end OpCalculus
