import OpCalculus.TypeEnv
import Mathlib.Data.List.Basic

/-!
# Schemes and environments by their instances

`c.InstanceUnder θ t` says that `t` is an instance of the scheme `c` once `θ` reads its free
variables. Environments are compared by these instances: `Γ.Offers θ env` when `Γ` has every instance
of `env` under `θ`, and `env.Covers θ Γ` for the converse. Quantified variables are never renamed in
a scheme; where a generalized type needs new ones, another type is generalized instead
(`exists_renaming`).
-/

namespace OpCalculus

theorem Ty.replace_graph {t : Ty} {vars : List TypeVar} (θ : TypeVar → Ty)
    (h : ∀ v ∈ t.occurrences, v ∈ vars) : t.replace (vars.map fun v => (v, θ v)) = t.bind θ := by
  refine Ty.bind_congr fun v hv => ?_
  have found : ∀ vars : List TypeVar, v ∈ vars → (vars.map fun v => (v, θ v)).lookup v = some (θ v) := by
    intro vars hv
    induction vars with
    | nil => cases hv
    | cons w rest ih =>
        rw [List.map_cons, lookup_cons]
        split
        · rename_i here
          rw [here]
        · rename_i other
          exact ih ((List.mem_cons.mp hv).resolve_left other)
  rw [← List.map_reverse, found vars.reverse (List.mem_reverse.mpr (h v hv)), Option.getD_some]

/-! ## Instances -/

namespace Scheme

/-- The body with the quantified variables read by `f` and the free ones by `θ`. -/
def specialize (c : Scheme) (θ f : TypeVar → Ty) : Ty :=
  c.body.bind fun v => if v ∈ c.vars then f v else θ v

def InstanceUnder (c : Scheme) (θ : TypeVar → Ty) (t : Ty) : Prop := ∃ f, t = c.specialize θ f

/-- The scheme with its quantified variables replaced by any types. -/
def Instance (c : Scheme) (t : Ty) : Prop := c.InstanceUnder .var t

def bindFree (q : TypeVar → Ty) (c : Scheme) : Scheme :=
  ⟨c.vars, c.body.bind fun v => if v ∈ c.vars then .var v else q v⟩

/-- No replacement of a free variable mentions a quantified one. -/
def Uncaptured (q : TypeVar → Ty) (c : Scheme) : Prop :=
  ∀ v ∈ c.freeVars, ∀ w ∈ (q v).occurrences, w ∉ c.vars

variable {c : Scheme} {q θ f : TypeVar → Ty}

theorem specialize_congr {θ' f' : TypeVar → Ty} (free : ∀ v ∈ c.freeVars, θ v = θ' v)
    (quantified : ∀ v ∈ c.vars, f v = f' v) : c.specialize θ f = c.specialize θ' f' := by
  refine Ty.bind_congr fun v hv => ?_
  split
  · rename_i here
    exact quantified v here
  · rename_i outside
    exact free v (mem_freeVars.mpr ⟨hv, outside⟩)

theorem specialize_bindFree (uncaptured : c.Uncaptured q) :
    (c.bindFree q).specialize θ f = c.specialize (fun v => (q v).bind θ) f := by
  refine (Ty.bind_bind _ _ _).trans (Ty.bind_congr fun v hv => ?_)
  by_cases quantified : v ∈ c.vars
  · simp [quantified, bindFree, Ty.bind]
  · simp only [quantified, if_false]
    exact Ty.bind_congr fun w hw => if_neg (uncaptured v (mem_freeVars.mpr ⟨hv, quantified⟩) w hw)

@[simp] theorem instanceUnder_mono {a t : Ty} : (mono a).InstanceUnder θ t ↔ t = a.bind θ := by
  simp [InstanceUnder, specialize, mono]

theorem not_mem_freeVars_closed {t : Ty} {v : TypeVar} : v ∉ (closed t).freeVars := by
  simp [mem_freeVars, closed]

theorem mem_freeVars_bindFree {w : TypeVar} (h : w ∈ (c.bindFree q).freeVars) :
    ∃ v ∈ c.freeVars, w ∈ (q v).occurrences := by
  obtain ⟨hw, free⟩ := mem_freeVars.mp h
  obtain ⟨v, hv, hw⟩ := Ty.mem_occurrences_bind.mp hw
  by_cases quantified : v ∈ c.vars
  · rw [if_pos quantified, Ty.occurrences, List.mem_singleton] at hw
    exact absurd (hw ▸ quantified) free
  · rw [if_neg quantified] at hw
    exact ⟨v, mem_freeVars.mpr ⟨hv, quantified⟩, hw⟩

end Scheme

/-! ## Environments by their look-ups -/

namespace TypeEnv

variable {env Γ : TypeEnv} {x y : String} {c c' : Scheme} {v w : TypeVar} {q θ : TypeVar → Ty}

theorem mem_unshadowed {p : String × Scheme} {frames : List (String × Scheme)} :
    p ∈ unshadowed frames ↔ frames.lookup p.1 = some p.2 := by
  induction frames with
  | nil => simp [unshadowed]
  | cons first rest ih =>
      rw [unshadowed, List.mem_cons, List.mem_filter, lookup_cons, ih]
      by_cases here : p.1 = first.1
      · simp [here, Prod.ext_iff, eq_comm]
      · simp only [here, ne_eq, not_false_eq_true, decide_true, and_true, if_false, or_iff_right_iff_imp]
        rintro rfl
        exact absurd rfl here

theorem mem_bindings {p : String × Scheme} : p ∈ env.bindings ↔ env.lookup p.1 = some p.2 :=
  mem_unshadowed

theorem mem_freeVars : v ∈ env.freeVars ↔ ∃ x c, env.lookup x = some c ∧ v ∈ c.freeVars := by
  rw [freeVars, TypeVar.mem_sorted, List.mem_flatMap]
  constructor
  · rintro ⟨p, hp, hv⟩
    exact ⟨p.1, p.2, mem_bindings.mp hp, hv⟩
  · rintro ⟨x, c, hx, hv⟩
    exact ⟨(x, c), mem_bindings.mpr hx, hv⟩

theorem lookup_extend : (env.extend x c).lookup y = if y = x then some c else env.lookup y :=
  lookup_cons y (x, c) env.frames

theorem lookup_extend_self : (env.extend x c).lookup x = some c := by
  rw [lookup_extend, if_pos rfl]

theorem mem_freeVars_extend (h : v ∈ (env.extend x c).freeVars) :
    v ∈ c.freeVars ∨ v ∈ env.freeVars := by
  obtain ⟨y, d, hy, hv⟩ := mem_freeVars.mp h
  rw [lookup_extend] at hy
  split at hy
  · cases hy
    exact .inl hv
  · exact .inr (mem_freeVars.mpr ⟨y, d, hy, hv⟩)

theorem mem_freeVars_generalize {t : Ty} (h : v ∈ (env.generalize t).freeVars) :
    v ∈ t.occurrences ∧ v ∈ env.freeVars := by
  obtain ⟨hv, free⟩ := Scheme.mem_freeVars.mp h
  refine ⟨hv, ?_⟩
  by_contra outside
  exact free (List.mem_filter.mpr ⟨Ty.mem_vars.mpr hv, by simpa using outside⟩)

def bindFree (q : TypeVar → Ty) (env : TypeEnv) : TypeEnv :=
  ⟨env.frames.map fun p => (p.1, p.2.bindFree q)⟩

/-- No replacement of a free variable mentions a variable that the same binding quantifies. -/
def Uncaptured (q : TypeVar → Ty) (env : TypeEnv) : Prop := ∀ p ∈ env.bindings, p.2.Uncaptured q

theorem applySubst_eq_bindFree (s : Substitution) : env.applySubst s = env.bindFree s.image := rfl

theorem lookup_bindFree : (env.bindFree q).lookup x = (env.lookup x).map (Scheme.bindFree q) := by
  change (env.frames.map fun p => (p.1, p.2.bindFree q)).lookup x = _
  rw [lookup]
  induction env.frames with
  | nil => rfl
  | cons p rest ih =>
      rw [List.map_cons, lookup_cons, lookup_cons, ih]
      split <;> rfl

theorem mem_freeVars_bindFree (h : w ∈ (env.bindFree q).freeVars) :
    ∃ v ∈ env.freeVars, w ∈ (q v).occurrences := by
  obtain ⟨x, c, hx, hw⟩ := mem_freeVars.mp h
  rw [lookup_bindFree, Option.map_eq_some_iff] at hx
  obtain ⟨c, hx, rfl⟩ := hx
  obtain ⟨v, hv, hw⟩ := Scheme.mem_freeVars_bindFree hw
  exact ⟨v, mem_freeVars.mpr ⟨x, c, hx, hv⟩, hw⟩

theorem mem_freeVars_applySubst {s : Substitution} (h : v ∈ (env.applySubst s).freeVars) :
    ∃ w ∈ env.freeVars, v ∈ (s.image w).occurrences :=
  mem_freeVars_bindFree h

theorem Uncaptured.mem_freeVars_bindFree (h : env.Uncaptured q) (hv : v ∈ env.freeVars)
    (hw : w ∈ (q v).occurrences) : w ∈ (env.bindFree q).freeVars := by
  obtain ⟨x, c, hx, hv⟩ := mem_freeVars.mp hv
  refine mem_freeVars.mpr ⟨x, c.bindFree q, by rw [lookup_bindFree, hx, Option.map_some], ?_⟩
  obtain ⟨occurs, free⟩ := Scheme.mem_freeVars.mp hv
  refine Scheme.mem_freeVars.mpr ⟨Ty.mem_occurrences_bind.mpr ⟨v, occurs, by rwa [if_neg free]⟩, ?_⟩
  exact h (x, c) (mem_bindings.mpr hx) v hv w hw

theorem Uncaptured.lookup (h : env.Uncaptured q) (hx : env.lookup x = some c) : c.Uncaptured q :=
  h (x, c) (mem_bindings.mpr hx)

/-! ## Comparing environments -/

/-- Every instance of a binding of `env` under `θ` is an instance of the same name in `Γ`. -/
def Offers (Γ : TypeEnv) (θ : TypeVar → Ty) (env : TypeEnv) : Prop :=
  ∀ x c, env.lookup x = some c →
    ∃ c', Γ.lookup x = some c' ∧ ∀ t, c.InstanceUnder θ t → c'.Instance t

/-- The two environments bind the same names, and every instance of a binding of `Γ` is one of the
same name in `env` under `θ`. -/
structure Covers (env : TypeEnv) (θ : TypeVar → Ty) (Γ : TypeEnv) : Prop where
  names : ∀ x, (env.lookup x).isSome = (Γ.lookup x).isSome
  instances : ∀ {x c c'}, env.lookup x = some c → Γ.lookup x = some c' →
    ∀ t, c'.Instance t → c.InstanceUnder θ t

theorem Offers.extend (h : Γ.Offers θ env) (new : ∀ t, c.InstanceUnder θ t → c'.Instance t) :
    (Γ.extend x c').Offers θ (env.extend x c) := by
  intro y d hy
  rw [lookup_extend] at hy ⊢
  split at hy
  · rename_i here
    cases hy
    exact ⟨c', if_pos here, new⟩
  · rename_i other
    rw [if_neg other]
    exact h y d hy

theorem Covers.extend (h : env.Covers θ Γ) (new : ∀ t, c'.Instance t → c.InstanceUnder θ t) :
    (env.extend x c).Covers θ (Γ.extend x c') := by
  constructor
  · intro y
    rw [lookup_extend, lookup_extend]
    split
    · rfl
    · exact h.names y
  · intro y d d' hy hy'
    rw [lookup_extend] at hy hy'
    split at hy
    · rename_i here
      rw [if_pos here] at hy'
      cases hy
      cases hy'
      exact new
    · rename_i other
      rw [if_neg other] at hy'
      exact h.instances hy hy'

theorem Offers.congr {θ' : TypeVar → Ty} (h : Γ.Offers θ env)
    (agree : ∀ v ∈ env.freeVars, θ' v = θ v) : Γ.Offers θ' env := by
  intro x c hx
  obtain ⟨c', hx', instances⟩ := h x c hx
  refine ⟨c', hx', ?_⟩
  rintro t ⟨f, rfl⟩
  refine instances _ ⟨f, Scheme.specialize_congr (fun v hv => ?_) fun _ _ => rfl⟩
  exact agree v (mem_freeVars.mpr ⟨x, c, hx, hv⟩)

theorem Covers.congr {θ' : TypeVar → Ty} (h : env.Covers θ Γ)
    (agree : ∀ v ∈ env.freeVars, θ' v = θ v) : env.Covers θ' Γ := by
  refine ⟨h.names, fun {x c c'} hx hx' t instance' => ?_⟩
  obtain ⟨f, rfl⟩ := h.instances hx hx' t instance'
  refine ⟨f, Scheme.specialize_congr (fun v hv => ?_) fun _ _ => rfl⟩
  exact (agree v (mem_freeVars.mpr ⟨x, c, hx, hv⟩)).symm

theorem Offers.bindFree (uncaptured : env.Uncaptured q)
    (h : Γ.Offers (fun v => (q v).bind θ) env) : Γ.Offers θ (env.bindFree q) := by
  intro x c hx
  rw [lookup_bindFree, Option.map_eq_some_iff] at hx
  obtain ⟨c, hx, rfl⟩ := hx
  obtain ⟨c', hx', instances⟩ := h x c hx
  refine ⟨c', hx', ?_⟩
  rintro t ⟨f, rfl⟩
  exact instances _ ⟨f, Scheme.specialize_bindFree (uncaptured.lookup hx)⟩

theorem Covers.bindFree (uncaptured : env.Uncaptured q)
    (h : env.Covers (fun v => (q v).bind θ) Γ) : (env.bindFree q).Covers θ Γ := by
  constructor
  · intro x
    rw [lookup_bindFree, Option.isSome_map]
    exact h.names x
  · intro x c c' hx hx' t instance'
    rw [lookup_bindFree, Option.map_eq_some_iff] at hx
    obtain ⟨c, hx, rfl⟩ := hx
    obtain ⟨f, rfl⟩ := h.instances hx hx' t instance'
    exact ⟨f, (Scheme.specialize_bindFree (uncaptured.lookup hx)).symm⟩

theorem offers_bindFree (uncaptured : env.Uncaptured q) : (env.bindFree q).Offers q env := by
  intro x c hx
  refine ⟨c.bindFree q, by rw [lookup_bindFree, hx, Option.map_some], ?_⟩
  rintro t ⟨f, rfl⟩
  refine ⟨f, ?_⟩
  rw [Scheme.specialize_bindFree (uncaptured.lookup hx)]
  simp only [Ty.bind_var]

theorem covers_bindFree (uncaptured : env.Uncaptured q) : env.Covers q (env.bindFree q) := by
  constructor
  · intro x
    rw [lookup_bindFree, Option.isSome_map]
  · intro x c c' hx hx' t instance'
    rw [lookup_bindFree, hx, Option.map_some, Option.some.injEq] at hx'
    subst hx'
    obtain ⟨f, rfl⟩ := instance'
    refine ⟨f, ?_⟩
    rw [Scheme.specialize_bindFree (uncaptured.lookup hx)]
    simp only [Ty.bind_var]

theorem Covers.mem_freeVars (h : env.Covers θ Γ) (hv : v ∈ env.freeVars)
    (hw : w ∈ (θ v).occurrences) : w ∈ Γ.freeVars := by
  obtain ⟨x, c, hx, hv⟩ := TypeEnv.mem_freeVars.mp hv
  obtain ⟨hv, free⟩ := Scheme.mem_freeVars.mp hv
  have bound := h.names x
  rw [hx, Option.isSome_some] at bound
  obtain ⟨c', hx'⟩ := Option.isSome_iff_exists.mp bound.symm
  -- The variables of `θ v` remain in every instance, in particular in one whose quantified variables
  -- are ground, so they are free there.
  obtain ⟨f, equal⟩ := h.instances hx hx' _ ⟨fun _ => .bool, rfl⟩
  have occurs : w ∈ (c.specialize θ f).occurrences :=
    Ty.mem_occurrences_bind.mpr ⟨v, hv, by rwa [if_neg free]⟩
  rw [← equal] at occurs
  obtain ⟨u, hu, hw⟩ := Ty.mem_occurrences_bind.mp occurs
  split at hw
  · simp [Ty.occurrences] at hw
  · rename_i free'
    rw [Ty.occurrences, List.mem_singleton] at hw
    subst hw
    exact TypeEnv.mem_freeVars.mpr ⟨x, c', hx', Scheme.mem_freeVars.mpr ⟨hu, free'⟩⟩

/-! ## Generalized types -/

theorem exists_freshId_bound (vars : List TypeVar) : ∃ n, ∀ i, .fresh i ∈ vars → i < n := by
  induction vars with
  | nil => exact ⟨0, fun i hi => by simp at hi⟩
  | cons v vars ih =>
      obtain ⟨n, bound⟩ := ih
      cases v with
      | named name => exact ⟨n, fun i hi => bound i (by simpa using hi)⟩
      | fresh id =>
          refine ⟨max n (id + 1), fun i hi => ?_⟩
          rcases List.mem_cons.mp hi with equal | hi
          · cases equal
            omega
          · have := bound i hi
            omega

/-- Reads the variables numbered from `first` on as the given ones under `f`, and no others. -/
def readNumbered (first : Nat) (vars : List TypeVar) (f : TypeVar → Ty) : TypeVar → Ty
  | .named name => .var (.named name)
  | .fresh i => if first ≤ i then (vars[i - first]?.map f).getD (.var (.fresh i)) else .var (.fresh i)

/-- Whatever an environment leaves free, a type can be generalized in it so that the given variables
become quantified: they are first renamed apart. -/
theorem exists_renaming (Γ : TypeEnv) (vars : List TypeVar) (t : Ty) (θ : TypeVar → Ty) :
    ∃ ρ : TypeVar → Ty, (∀ v, v ∉ vars → ρ v = θ v) ∧
      ∀ u, (Scheme.mk vars t).InstanceUnder θ u → (Γ.generalize (t.bind ρ)).Instance u := by
  obtain ⟨n, bound⟩ := exists_freshId_bound (Γ.freeVars ++ (t.bind θ).occurrences)
  let ρ : TypeVar → Ty := fun v => if v ∈ vars then .var (.fresh (n + vars.idxOf v)) else θ v
  refine ⟨ρ, fun v hv => if_neg hv, ?_⟩
  rintro u ⟨f, rfl⟩
  refine ⟨readNumbered n vars f, (Ty.bind_congr fun v hv => ?_).trans (Ty.bind_bind _ _ t).symm⟩
  by_cases quantified : v ∈ vars
  · have new : .fresh (n + vars.idxOf v) ∈ (Γ.generalize (t.bind ρ)).vars := by
      refine List.mem_filter.mpr ⟨Ty.mem_vars.mpr (Ty.mem_occurrences_bind.mpr ⟨v, hv, ?_⟩), ?_⟩
      · simp [ρ, quantified, Ty.occurrences]
      · have outside : .fresh (n + vars.idxOf v) ∉ Γ.freeVars := fun inside => by
          have := bound _ (List.mem_append_left _ inside)
          omega
        simpa using outside
    have index : vars[vars.idxOf v]? = some v := List.getElem?_idxOf quantified
    simp [ρ, quantified, Ty.bind, new, readNumbered, index]
  · simp only [ρ, quantified, if_false]
    refine ((Ty.bind_congr fun w hw => ?_).trans (Ty.bind_var _)).symm
    have old : ∀ i, w = .fresh i → i < n := by
      rintro i rfl
      exact bound i (List.mem_append_right _ (Ty.mem_occurrences_bind.mpr ⟨v, hv, hw⟩))
    split
    · cases w with
      | named name => rfl
      | fresh i => exact if_neg (Nat.not_le.mpr (old i rfl))
    · rfl

/-- A type generalized in `env` has the instances of its reading by `θ` generalized in `Γ`, when the
free variables of `env` stand for types over those of `Γ`. -/
theorem instanceUnder_generalize {t u : Ty}
    (kept : ∀ v ∈ env.freeVars, ∀ w ∈ (θ v).occurrences, w ∈ Γ.freeVars)
    (h : (Γ.generalize (t.bind θ)).Instance u) : (env.generalize t).InstanceUnder θ u := by
  obtain ⟨g, rfl⟩ := h
  let read : TypeVar → Ty := fun w => if w ∈ (Γ.generalize (t.bind θ)).vars then g w else .var w
  refine ⟨fun v => (θ v).bind read, (Ty.bind_bind _ _ t).trans (Ty.bind_congr fun v hv => ?_)⟩
  split
  · rfl
  · rename_i fixed
    have free : v ∈ env.freeVars := by
      simpa [generalize, hv] using fixed
    refine (Ty.bind_congr fun w hw => if_neg ?_).trans (Ty.bind_var _)
    simp [generalize, kept v free w hw]

/-! ## Closed environments -/

theorem Covers.refl (env : TypeEnv) : env.Covers .var env where
  names _ := rfl
  instances {x c c'} hx hx' t instance' := by
    rw [hx, Option.some.injEq] at hx'
    rwa [hx']

theorem offers_of_closed (closed : env.freeVars = []) (θ : TypeVar → Ty) : env.Offers θ env := by
  have self : env.Offers .var env := fun _ c hx => ⟨c, hx, fun _ h => h⟩
  refine self.congr fun v hv => ?_
  rw [closed] at hv
  cases hv

theorem freeVars_applySubst_of_closed (closed : env.freeVars = []) (s : Substitution) :
    (env.applySubst s).freeVars = [] := by
  refine List.eq_nil_iff_forall_not_mem.mpr fun v hv => ?_
  obtain ⟨w, hw, -⟩ := mem_freeVars_applySubst hv
  rw [closed] at hw
  cases hw

theorem instance_generalize_of_closed {t u : Ty} (closed : Γ.freeVars = []) :
    (Γ.generalize t).Instance u ↔ ∃ θ, t.bind θ = u := by
  have all : ∀ v ∈ t.occurrences, v ∈ (Γ.generalize t).vars := by
    intro v hv
    simpa [generalize, closed] using hv
  constructor
  · rintro ⟨f, rfl⟩
    exact ⟨_, rfl⟩
  · rintro ⟨θ, rfl⟩
    exact ⟨θ, Ty.bind_congr fun v hv => (if_pos (all v hv)).symm⟩

end TypeEnv

end OpCalculus
