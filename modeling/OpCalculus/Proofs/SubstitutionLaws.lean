import Mathlib.Data.List.Nodup
import OpCalculus.Substitution.Basic

/-!
# Laws of substitutions

Whatever makes a substitution checks that it is resolved, and the check accepts exactly the maps of
substitutions (`ofMap_eq_ok`). A composition binds what either part binds, each variable to what the
second part makes of its image under the first (`get?_compose_eq_some`). So it does to every type what its
parts do one after the other, and how three parts are grouped makes no difference, not even to the check.
-/

namespace OpCalculus

theorem lookup_eq_some_iff_mem {κ α : Type} [DecidableEq κ] {l : List (κ × α)} (nodup : (l.map (·.1)).Nodup)
    {k : κ} {a : α} : l.lookup k = some a ↔ (k, a) ∈ l := by
  induction l with
  | nil => simp
  | cons p l ih =>
      obtain ⟨absent, nodup⟩ := List.nodup_cons.mp nodup
      rw [lookup_cons, List.mem_cons, Prod.ext_iff]
      split
      · rename_i here
        have later : (k, a) ∉ l := fun h => absent (List.mem_map.mpr ⟨_, h, here⟩)
        simp only [Option.some.injEq, here, true_and, here ▸ later, or_false]
        exact eq_comm
      · rename_i other
        simp [ih nodup, other]

namespace Substitution

variable {s next c : Substitution} {m : VarMap Ty} {l : List (TypeVar × Ty)} {v : TypeVar} {t : Ty}

def Binds (s : Substitution) (v : TypeVar) : Prop := s.get? v ≠ none

/-! ## The check -/

theorem firstUnresolved_eq_none (s : Substitution) : firstUnresolved s.map = none := by
  refine List.findSome?_eq_none_iff.mpr fun p hp => List.find?_eq_none.mpr fun w hw => ?_
  have unbound := s.resolved p.1 p.2 (VarMap.get?_eq_some_of_mem hp) w (Ty.mem_vars.mp hw)
  simp [VarMap.contains, unbound]

theorem ofMap_map (s : Substitution) : ofMap s.map = .ok s := by
  unfold ofMap
  split
  · rename_i v found
    rw [firstUnresolved_eq_none] at found
    cases found
  · rfl

theorem ofMap_eq_ok : ofMap m = .ok s ↔ s.map = m := by
  constructor
  · intro h
    unfold ofMap at h
    split at h
    · cases h
    · cases h
      rfl
  · rintro rfl
    exact ofMap_map s

theorem mapError_ofMap_eq_ok {ε : Type} {f : TypeVar → ε} : (ofMap m).mapError f = .ok s ↔ s.map = m := by
  rw [← ofMap_eq_ok]
  cases ofMap m with
  | error v => exact iff_of_false (fun h => by cases h) (fun h => by cases h)
  | ok r => exact ⟨fun h => by cases h; rfl, fun h => by cases h; rfl⟩

theorem exists_map_eq_iff : (∃ s : Substitution, s.map = m) ↔
    ∀ v t, m.get? v = some t → ∀ w ∈ t.occurrences, m.get? w = none := by
  constructor
  · rintro ⟨s, rfl⟩
    exact s.resolved
  · intro resolved
    exact ⟨⟨m, resolved⟩, rfl⟩

/-! ## Bindings -/

theorem collect_cons_eq_ok {p : TypeVar × Ty} {m' : VarMap Ty} : collect m (p :: l) = .ok m' ↔
    p.1 ∉ p.2.occurrences ∧ m.get? p.1 = none ∧ collect (m.insertNew p.1 p.2) l = .ok m' := by
  rw [collect]
  split
  · rename_i occurs
    simp [occurs]
  split
  · rename_i bound
    have bound : m.get? p.1 ≠ none := by simpa [VarMap.contains, Option.isSome_iff_ne_none] using bound
    simp [bound]
  · rename_i absent unbound
    have unbound : m.get? p.1 = none := by simpa [VarMap.contains] using unbound
    simp [absent, unbound]

theorem collect_eq_ok {m' : VarMap Ty} : collect m l = .ok m' ↔
    (∀ p ∈ l, p.1 ∉ p.2.occurrences ∧ m.get? p.1 = none) ∧ (l.map (·.1)).Nodup ∧
      l.foldl (fun m p => m.insertNew p.1 p.2) m = m' := by
  induction l generalizing m with
  | nil => simp [collect]
  | cons p l ih =>
      have unbound : ∀ q : TypeVar × Ty, (m.insertNew p.1 p.2).get? q.1 = none ↔ m.get? q.1 = none ∧ q.1 ≠ p.1 := by
        intro q
        rw [VarMap.get?_insertNew]
        by_cases same : q.1 = p.1 <;> simp [same]
      rw [collect_cons_eq_ok, ih, List.forall_mem_cons, List.map_cons, List.nodup_cons, List.foldl_cons]
      simp only [unbound, List.mem_map]
      grind

theorem get?_foldl_empty (l : List (TypeVar × Ty)) (v : TypeVar) :
    (l.foldl (fun m p => m.insertNew p.1 p.2) (.empty : VarMap Ty)).get? v = l.lookup v := by
  rw [VarMap.get?_foldl_insertNew, VarMap.get?_empty, Option.none_or]

theorem ofBindings_eq_ok : ofBindings l = .ok s ↔
    (∀ p ∈ l, p.1 ∉ p.2.occurrences) ∧ (l.map (·.1)).Nodup ∧ ∀ v, s.get? v = l.lookup v := by
  have collected : ofBindings l = .ok s ↔ collect .empty l = .ok s.map := by
    unfold ofBindings
    cases collect .empty l with
    | error e => simp
    | ok m =>
        rw [mapError_ofMap_eq_ok, Except.ok.injEq]
        exact eq_comm
  have determined : l.foldl (fun m p => m.insertNew p.1 p.2) .empty = s.map ↔ ∀ v, s.get? v = l.lookup v := by
    simp only [← get?_foldl_empty l]
    exact ⟨fun same v => same ▸ rfl, fun same => VarMap.ext_get? fun v => (same v).symm⟩
  rw [collected, collect_eq_ok, determined]
  simp

theorem exists_ofBindings_iff : (∃ s, ofBindings l = .ok s) ↔
    (l.map (·.1)).Nodup ∧ ∀ p ∈ l, ∀ q ∈ l, p.1 ∉ q.2.occurrences := by
  constructor
  · rintro ⟨s, h⟩
    obtain ⟨-, nodup, found⟩ := ofBindings_eq_ok.mp h
    have bound : ∀ p ∈ l, s.get? p.1 = some p.2 := fun p hp =>
      (found p.1).trans ((lookup_eq_some_iff_mem nodup).mpr hp)
    refine ⟨nodup, fun p hp q hq occurs => ?_⟩
    have unbound : s.get? p.1 = none := s.resolved q.1 q.2 (bound q hq) p.1 occurs
    rw [bound p hp] at unbound
    cases unbound
  · rintro ⟨nodup, apart⟩
    have resolved : ∃ s : Substitution, s.map = l.foldl (fun m p => m.insertNew p.1 p.2) .empty := by
      refine exists_map_eq_iff.mpr fun v t bound w hw => ?_
      rw [get?_foldl_empty] at bound ⊢
      have left := (lookup_eq_some_iff_mem nodup).mp bound
      cases again : l.lookup w with
      | none => rfl
      | some u =>
          have right := (lookup_eq_some_iff_mem nodup).mp again
          exact absurd hw (apart _ right _ left)
    obtain ⟨s, same⟩ := resolved
    refine ⟨s, ofBindings_eq_ok.mpr ⟨fun p hp => apart p hp p hp, nodup, fun v => ?_⟩⟩
    rw [get?, same, get?_foldl_empty]

theorem apply_of_ofBindings (h : ofBindings l = .ok s) (t : Ty) : s.apply t = t.replace l := by
  obtain ⟨-, nodup, found⟩ := ofBindings_eq_ok.mp h
  have backwards : (l.reverse.map (·.1)).Nodup := by
    rw [List.map_reverse]
    exact List.nodup_reverse.mpr nodup
  refine Ty.bind_congr fun v _ => ?_
  have same : l.reverse.lookup v = l.lookup v := Option.ext fun u => by
    rw [lookup_eq_some_iff_mem backwards, lookup_eq_some_iff_mem nodup, List.mem_reverse]
  rw [image, found, same]

theorem singleton_cases {u : Ty} (h : singleton v u = .ok s) :
    (u = .var v ∧ s = empty) ∨ ∃ absent : v ∉ u.occurrences, s = single v u absent := by
  unfold singleton at h
  split at h
  · rename_i same
    cases h
    exact .inl ⟨same, rfl⟩
  split at h
  · cases h
  · rename_i absent
    cases h
    exact .inr ⟨absent, rfl⟩

theorem apply_of_singleton {u : Ty} (h : singleton v u = .ok s) (t : Ty) : s.apply t = t.replace [(v, u)] := by
  refine Ty.bind_congr fun w _ => ?_
  have replaced : ([(v, u)].reverse.lookup w).getD (.var w) = if w = v then u else .var w := by
    rw [List.reverse_singleton, lookup_cons]
    split <;> rfl
  rw [replaced]
  obtain ⟨rfl, rfl⟩ | ⟨absent, rfl⟩ := singleton_cases h
  · split
    · rename_i here
      rw [here]
      rfl
    · rfl
  · rw [image, get?_single]
    split <;> rfl

/-! ## Composition -/

theorem get?_compose_eq_some : (s.compose next).get? v = some t ↔
    (s.Binds v ∨ next.Binds v) ∧ next.apply (s.image v) = t := by
  rw [get?_compose, Binds, Binds]
  cases first : s.get? v with
  | some u => simp [image, first]
  | none =>
      rw [image_of_get?_eq_none first]
      cases second : next.get? v with
      | some u => simp [apply, Ty.bind, image, second]
      | none => simp

theorem get?_compose_eq_none : (s.compose next).get? v = none ↔ ¬ (s.Binds v ∨ next.Binds v) := by
  simp [get?_compose, Binds]

theorem andThen?_eq_ok : s.andThen? next = .ok c ↔ c.map = s.compose next := mapError_ofMap_eq_ok

theorem andThen?_of_avoids (avoids : next.Avoids s) : s.andThen? next = .ok (s.andThen next avoids) :=
  andThen?_eq_ok.mpr rfl

theorem exists_andThen?_eq_error : (∃ e, s.andThen? next = .error e) ↔
    ∃ v w, (s.Binds v ∨ next.Binds v) ∧ (s.Binds w ∨ next.Binds w) ∧
      w ∈ (next.apply (s.image v)).occurrences := by
  have fails : (∃ e, s.andThen? next = .error e) ↔ ¬ ∃ c, s.andThen? next = .ok c := by
    cases s.andThen? next <;> simp
  rw [fails]
  simp only [andThen?_eq_ok, exists_map_eq_iff, get?_compose_eq_some, get?_compose_eq_none]
  constructor
  · intro unresolved
    by_contra resolved
    refine unresolved fun v t bound w hw bound' => resolved ⟨v, w, bound.1, bound', ?_⟩
    exact bound.2 ▸ hw
  · rintro ⟨v, w, bound, bound', occurs⟩ resolved
    exact resolved v _ ⟨bound, rfl⟩ w occurs bound'

theorem get?_of_andThen? (h : s.andThen? next = .ok c) (v : TypeVar) :
    c.get? v = (s.compose next).get? v :=
  congrArg (VarMap.get? · v) (andThen?_eq_ok.mp h)

theorem binds_of_andThen? (h : s.andThen? next = .ok c) (v : TypeVar) :
    c.Binds v ↔ s.Binds v ∨ next.Binds v := by
  rw [Binds, get?_of_andThen? h, ne_eq, get?_compose_eq_none, Classical.not_not]

theorem image_of_andThen? (h : s.andThen? next = .ok c) (v : TypeVar) :
    c.image v = next.apply (s.image v) := by
  by_cases bound : s.Binds v ∨ next.Binds v
  · rw [image, get?_of_andThen? h, get?_compose_eq_some.mpr ⟨bound, rfl⟩, Option.getD_some]
  · obtain ⟨first, second⟩ := not_or.mp bound
    have unbound : c.get? v = none := (get?_of_andThen? h v).trans (get?_compose_eq_none.mpr bound)
    rw [image_of_get?_eq_none unbound, image_of_get?_eq_none (Classical.not_not.mp first)]
    exact (image_of_get?_eq_none (Classical.not_not.mp second)).symm

theorem apply_of_andThen? (h : s.andThen? next = .ok c) (t : Ty) : c.apply t = next.apply (s.apply t) := by
  rw [apply, apply, apply, Ty.bind_bind]
  exact Ty.bind_congr fun v _ => image_of_andThen? h v

theorem empty_andThen? (s : Substitution) : empty.andThen? s = .ok s := by
  refine andThen?_eq_ok.mpr (VarMap.ext_get? fun v => ?_)
  rw [get?_compose, get?_empty, Option.map_none, Option.none_or]
  rfl

theorem andThen?_empty (s : Substitution) : s.andThen? empty = .ok s := by
  refine andThen?_eq_ok.mpr (VarMap.ext_get? fun v => ?_)
  rw [get?_compose, get?_empty, Option.or_none]
  cases found : s.get? v with
  | none => exact found
  | some t =>
      rw [Option.map_some, apply_empty]
      exact found

theorem andThen?_assoc {s₁ s₂ s₃ s₁₂ s₂₃ : Substitution} (h₁₂ : s₁.andThen? s₂ = .ok s₁₂)
    (h₂₃ : s₂.andThen? s₃ = .ok s₂₃) : s₁₂.andThen? s₃ = s₁.andThen? s₂₃ := by
  have same : s₁₂.compose s₃ = s₁.compose s₂₃ := by
    refine VarMap.ext_get? fun v => ?_
    rw [get?_compose, get?_compose, get?_of_andThen? h₁₂, get?_of_andThen? h₂₃, get?_compose, get?_compose]
    cases s₁.get? v with
    | none => rfl
    | some t => simp [apply_of_andThen? h₂₃]
  rw [andThen?, andThen?, same]

end Substitution

open Substitution

/-- Bindings are accepted if their variables are distinct and occur in none of the types. A substitution
made of bindings replaces them all at once, and to apply it again changes nothing. A composition fails
exactly if a variable of either part would occur in a composed binding. Otherwise it binds the variables of
both parts and acts like one after the other; the empty substitution is neutral, and three substitutions
whose neighbours compose give the same result, or the same failure, in either grouping. -/
theorem substitution_laws :
    (∀ l : List (TypeVar × Ty),
      ((∃ s, ofBindings l = .ok s) ↔
        (l.map (·.1)).Nodup ∧ ∀ p ∈ l, ∀ q ∈ l, p.1 ∉ q.2.occurrences) ∧
      ∀ s, ofBindings l = .ok s → ∀ t, s.apply t = t.replace l) ∧
    (∀ v u s, singleton v u = .ok s → ∀ t, s.apply t = t.replace [(v, u)]) ∧
    (∀ (s : Substitution) (t : Ty), s.apply (s.apply t) = s.apply t) ∧
    (∀ s next : Substitution,
      ((∃ e, s.andThen? next = .error e) ↔
        ∃ v w, (s.Binds v ∨ next.Binds v) ∧ (s.Binds w ∨ next.Binds w) ∧
          w ∈ (next.apply (s.image v)).occurrences) ∧
      ∀ c, s.andThen? next = .ok c →
        (∀ v, c.Binds v ↔ s.Binds v ∨ next.Binds v) ∧ ∀ t, c.apply t = next.apply (s.apply t)) ∧
    (∀ s : Substitution, empty.andThen? s = .ok s ∧ s.andThen? empty = .ok s) ∧
    ∀ s₁ s₂ s₃ s₁₂ s₂₃ : Substitution, s₁.andThen? s₂ = .ok s₁₂ → s₂.andThen? s₃ = .ok s₂₃ →
      s₁₂.andThen? s₃ = s₁.andThen? s₂₃ := by
  refine ⟨fun l => ⟨exists_ofBindings_iff, fun s => apply_of_ofBindings⟩, fun v u s => apply_of_singleton,
    apply_apply, fun s next => ⟨exists_andThen?_eq_error, fun c h => ?_⟩,
    fun s => ⟨empty_andThen? s, andThen?_empty s⟩, fun _ _ _ _ _ => andThen?_assoc⟩
  exact ⟨binds_of_andThen? h, apply_of_andThen? h⟩

-- The second substitution binds a variable of the first one again. The third may bring another one back.
theorem substitution_laws_overlapping :
    let x (i : Nat) : TypeVar := .fresh i
    let l := [(x 3, .bool), (x 0, .function (.var (x 1)) (.var (x 2)))]
    ∃ s₁ s₂ s₁₂ : Substitution, ofBindings l = .ok s₁ ∧
      ofBindings [(x 1, .sequence (.var (x 2))), (x 3, .int)] = .ok s₂ ∧ s₁.andThen? s₂ = .ok s₁₂ ∧
      s₁₂.apply (.function (.var (x 3)) (.var (x 0))) =
        s₂.apply ((Ty.function (.var (x 3)) (.var (x 0))).replace l) ∧
      (∃ s₃ s₂₃ c, singleton (x 2) .number = .ok s₃ ∧ s₂.andThen? s₃ = .ok s₂₃ ∧
        s₁₂.andThen? s₃ = .ok c ∧ s₁.andThen? s₂₃ = .ok c) ∧
      ∃ s₃ s₂₃ e, singleton (x 2) (.var (x 0)) = .ok s₃ ∧ s₂.andThen? s₃ = .ok s₂₃ ∧
        s₁₂.andThen? s₃ = .error e ∧ s₁.andThen? s₂₃ = .error e := by
  intro x l
  obtain ⟨bindings, -, -, composition, -, assoc⟩ := substitution_laws
  have grouped {s₁ s₂ s₃ s₁₂ s₂₃ : Substitution} {r : Except EscapeError Substitution}
      (h₁₂ : s₁.andThen? s₂ = .ok s₁₂) (h₂₃ : s₂.andThen? s₃ = .ok s₂₃) (outer : s₁₂.andThen? s₃ = r) :
      s₂.andThen? s₃ = .ok s₂₃ ∧ s₁₂.andThen? s₃ = r ∧ s₁.andThen? s₂₃ = r :=
    ⟨h₂₃, outer, (assoc _ _ _ _ _ h₁₂ h₂₃).symm.trans outer⟩
  refine ⟨_, _, _, rfl, rfl, rfl, ?_, ⟨_, _, _, rfl, grouped rfl rfl rfl⟩, _, _, _, rfl, grouped rfl rfl rfl⟩
  rw [← (bindings l).2 _ rfl]
  exact ((composition _ _).2 _ rfl).2 _

end OpCalculus
