import Mathlib.Data.List.Nodup
import OpCalculus.Proofs.Instances
import OpCalculus.Ty.Canonical

/-!
# Variants

Types that are instances of one another differ by a renaming of variables, so they have the same canonical
form (`alphaEquivalent_of_instances`). Schemes with the same instances quantify equally many variables, even
if their free variables are read differently (`arity_eq`).
-/

namespace OpCalculus

theorem idxOf_map {α β : Type} [DecidableEq α] [DecidableEq β] {l : List α} {ρ : α → β} {v : α}
    (injective : ∀ a ∈ l, ρ a = ρ v → a = v) : (l.map ρ).idxOf (ρ v) = l.idxOf v := by
  induction l with
  | nil => rfl
  | cons a l ih =>
      have rest := ih fun b hb => injective b (List.mem_cons_of_mem _ hb)
      by_cases here : a = v
      · simp [here]
      · have apart : ρ a ≠ ρ v := mt (injective a (List.mem_cons_self ..)) here
        rw [List.map_cons, List.idxOf_cons_ne _ apart, List.idxOf_cons_ne _ here, rest]

/-! ## Types -/

namespace Ty

variable {l r t : Ty} {f g : TypeVar → Ty} {v : TypeVar}

theorem eq_of_bind_eq (h : t.bind f = t.bind g) : ∀ v ∈ t.occurrences, f v = g v := by
  induction t with
  | scalar kind => simp [occurrences]
  | var w => simpa [occurrences, bind] using h
  | vector len element ih => exact ih (Ty.vector.inj h).2
  | matrix rows cols element ih => exact ih (Ty.matrix.inj h).2.2
  | tensor shape element ih => exact ih (Ty.tensor.inj h).2
  | sequence element ih => exact ih (Ty.sequence.inj h)
  | function input output ihi iho =>
      intro v hv
      obtain ⟨inputs, outputs⟩ := Ty.function.inj h
      exact (List.mem_append.mp hv).elim (ihi inputs v) (iho outputs v)
  | strategy state action ihs iha =>
      intro v hv
      obtain ⟨states, actions⟩ := Ty.strategy.inj h
      exact (List.mem_append.mp hv).elim (ihs states v) (iha actions v)

theorem bind_eq_var (h : t.bind g = .var v) : ∃ w, t = .var w ∧ g w = .var v := by
  cases t with
  | var w => exact ⟨w, rfl, h⟩
  | scalar | vector | matrix | tensor | sequence | function | strategy => cases h

theorem exists_var_of_undone (undone : (t.bind f).bind g = t) (hv : v ∈ t.occurrences) :
    ∃ w, f v = .var w ∧ g w = .var v := by
  have same : t.bind (fun v => (f v).bind g) = t.bind .var := by rw [← bind_bind, undone, bind_var]
  exact bind_eq_var (eq_of_bind_eq same v hv)

theorem occurrences_rename (t : Ty) (ρ : TypeVar → TypeVar) :
    (t.bind fun v => .var (ρ v)).occurrences = t.occurrences.map ρ := by
  rw [occurrences_bind, List.map_eq_flatMap]
  rfl

theorem canonicalize_rename {ρ : TypeVar → TypeVar}
    (injective : ∀ v ∈ t.occurrences, ∀ w ∈ t.occurrences, ρ v = ρ w → v = w) :
    (t.bind fun v => .var (ρ v)).canonicalize = t.canonicalize := by
  have vars : (t.bind fun v => .var (ρ v)).vars = t.vars.map ρ := by
    rw [Ty.vars, occurrences_rename, Ty.vars, distinct_map injective]
  rw [canonicalize, vars, bind_bind, canonicalize]
  refine bind_congr fun v hv => ?_
  have index : (t.vars.map ρ).idxOf (ρ v) = t.vars.idxOf v :=
    idxOf_map fun w hw => injective w (mem_vars.mp hw) v hv
  rw [bind, index]

theorem alphaEquivalent_of_instances (h : l.bind f = r) (h' : r.bind g = l) : l.alphaEquivalent r := by
  have undone : ∀ v ∈ l.occurrences, ∃ w, f v = .var w ∧ g w = .var v :=
    fun v hv => exists_var_of_undone (h ▸ h') hv
  choose! ρ renamed back using undone
  have equal : r = l.bind fun v => .var (ρ v) := h ▸ bind_congr renamed
  have injective : ∀ v ∈ l.occurrences, ∀ w ∈ l.occurrences, ρ v = ρ w → v = w := by
    intro v hv w hw same
    have vars : Ty.var v = .var w := by rw [← back v hv, ← back w hw, same]
    exact Ty.var.inj vars
  rw [alphaEquivalent, equal, canonicalize_rename injective, decide_eq_true rfl]

end Ty

/-! ## Schemes -/

namespace Scheme

open TypeEnv

/-- How many variables a use of the scheme mints. -/
def arity (c : Scheme) : Nat := (distinct c.vars).length

/-- Reads the quantified variables as consecutive minted ones. -/
def numbered (c : Scheme) (first : Nat) (v : TypeVar) : Ty := .var (.fresh (first + (distinct c.vars).idxOf v))

variable {c c' : Scheme} {θ θ' g : TypeVar → Ty} {v w : TypeVar} {n : Nat}

theorem readNumbered_fresh (hv : v ∈ c.vars) :
    readNumbered n (distinct c.vars) g (.fresh (n + (distinct c.vars).idxOf v)) = g v := by
  simp [readNumbered, List.getElem?_idxOf (mem_distinct.mpr hv)]

theorem readNumbered_of_lt {vars : List TypeVar} (old : ∀ i, w = .fresh i → i < n) :
    readNumbered n vars g w = .var w := by
  cases w with
  | named name => rfl
  | fresh i => exact if_neg (Nat.not_le.mpr (old i rfl))

-- The numbers are unused, so that a reading of the numbered variables gives every instance.
theorem specialize_numbered (bound : ∀ i, .fresh i ∈ (c.body.bind θ).occurrences → i < n) :
    (c.specialize θ (c.numbered n)).bind (readNumbered n (distinct c.vars) g) = c.specialize θ g := by
  refine (Ty.bind_bind _ _ _).trans (Ty.bind_congr fun v hv => ?_)
  split
  · rename_i quantified
    exact readNumbered_fresh quantified
  · refine (Ty.bind_congr fun w hw => readNumbered_of_lt ?_).trans (Ty.bind_var _)
    rintro i rfl
    exact bound i (Ty.mem_occurrences_bind.mpr ⟨v, hv, hw⟩)

theorem mem_occurrences_numbered (bound : ∀ i, .fresh i ∈ (c.body.bind θ).occurrences → i < n)
    (hw : w ∈ (c.specialize θ (c.numbered n)).occurrences) :
    (∃ v ∈ c.vars, w = .fresh (n + (distinct c.vars).idxOf v)) ∨ ∀ i, w = .fresh i → i < n := by
  obtain ⟨v, hv, hw⟩ := Ty.mem_occurrences_bind.mp hw
  split at hw
  · rename_i quantified
    exact .inl ⟨v, quantified, List.mem_singleton.mp hw⟩
  · right
    rintro i rfl
    exact bound i (Ty.mem_occurrences_bind.mpr ⟨v, hv, hw⟩)

theorem arity_le (used : ∀ v ∈ c.vars, v ∈ c.body.occurrences)
    (same : ∀ u, c.InstanceUnder θ u ↔ c'.InstanceUnder θ' u) : c.arity ≤ c'.arity := by
  obtain ⟨n, bound⟩ := exists_freshId_bound ((c.body.bind θ).occurrences ++ (c'.body.bind θ').occurrences)
  have bound₁ : ∀ i, .fresh i ∈ (c.body.bind θ).occurrences → i < n :=
    fun i hi => bound i (List.mem_append_left _ hi)
  have bound₂ : ∀ i, .fresh i ∈ (c'.body.bind θ').occurrences → i < n :=
    fun i hi => bound i (List.mem_append_right _ hi)
  obtain ⟨g, equal⟩ := (same (c.specialize θ (c.numbered n))).mp ⟨_, rfl⟩
  obtain ⟨g', equal'⟩ := (same (c'.specialize θ' (c'.numbered n))).mpr ⟨_, rfl⟩
  rw [← specialize_numbered bound₂] at equal
  rw [← specialize_numbered bound₁] at equal'
  have undone := (congrArg (Ty.bind _) equal'.symm).trans equal.symm
  -- Each numbered variable of the first scheme is the reading of one of the second.
  have covered : (distinct c.vars).map (c.numbered n) ⊆ (distinct c'.vars).map g := by
    intro t ht
    obtain ⟨v, hv, rfl⟩ := List.mem_map.mp ht
    have quantified := mem_distinct.mp hv
    have occurs : .fresh (n + (distinct c.vars).idxOf v) ∈ (c.specialize θ (c.numbered n)).occurrences :=
      Ty.mem_occurrences_bind.mpr ⟨v, used v quantified, by simp [quantified, numbered, Ty.occurrences]⟩
    obtain ⟨w, renamed, back⟩ := Ty.exists_var_of_undone undone occurs
    have kept : w ∈ (c'.specialize θ' (c'.numbered n)).occurrences := by
      rw [equal']
      exact Ty.mem_occurrences_bind.mpr ⟨_, occurs, by rw [renamed]; exact List.mem_singleton_self w⟩
    rcases mem_occurrences_numbered bound₂ kept with ⟨v', quantified', rfl⟩ | old
    · rw [readNumbered_fresh quantified'] at back
      exact List.mem_map.mpr ⟨v', mem_distinct.mpr quantified', back⟩
    · rw [readNumbered_of_lt old] at back
      have := old _ (Ty.var.inj back)
      omega
  have apart : ((distinct c.vars).map (c.numbered n)).Nodup := by
    refine (nodup_distinct _).map_on fun v hv w hw equal => ?_
    simp only [numbered, Ty.var.injEq, TypeVar.fresh.injEq, Nat.add_left_cancel_iff] at equal
    exact (List.idxOf_inj hv).mp equal
  simpa [arity] using apart.length_le_of_subset covered

theorem arity_eq (used : ∀ v ∈ c.vars, v ∈ c.body.occurrences)
    (used' : ∀ v ∈ c'.vars, v ∈ c'.body.occurrences)
    (same : ∀ u, c.InstanceUnder θ u ↔ c'.InstanceUnder θ' u) : c.arity = c'.arity :=
  Nat.le_antisymm (arity_le used same) (arity_le used' fun u => (same u).symm)

end Scheme

namespace TypeEnv

variable {env Γ : TypeEnv} {θ : TypeVar → Ty} {t : Ty} {v : TypeVar}

theorem not_mem_vars_generalize (hv : v ∈ env.freeVars) : v ∉ (env.generalize t).vars := by
  simp [generalize, hv]

theorem mem_occurrences_of_generalize (hv : v ∈ (env.generalize t).vars) : v ∈ t.occurrences :=
  Ty.mem_vars.mp (List.mem_of_mem_filter hv)

/-- A generalized type, read by `θ` into the variables of `Γ`, has the instances of some scheme. -/
theorem exists_scheme (covers : env.Covers θ Γ) (t : Ty) :
    ∃ c : Scheme, ∀ u, c.Instance u ↔ (env.generalize t).InstanceUnder θ u := by
  obtain ⟨ρ, agree, instances⟩ := exists_renaming Γ (env.generalize t).vars t θ
  have free : ∀ v ∈ env.freeVars, ρ v = θ v := fun v hv => agree v (not_mem_vars_generalize hv)
  refine ⟨Γ.generalize (t.bind ρ), fun u => ⟨fun instance' => ?_, instances u⟩⟩
  have kept : ∀ v ∈ env.freeVars, ∀ w ∈ (ρ v).occurrences, w ∈ Γ.freeVars := by
    intro v hv w hw
    rw [free v hv] at hw
    exact covers.mem_freeVars hv hw
  obtain ⟨f, rfl⟩ := instanceUnder_generalize kept instance'
  exact ⟨f, Scheme.specialize_congr (fun v hv => free v (mem_freeVars_generalize hv).2) fun _ _ => rfl⟩

end TypeEnv

end OpCalculus
