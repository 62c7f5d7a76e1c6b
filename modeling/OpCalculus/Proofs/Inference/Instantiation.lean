import OpCalculus.Proofs.AlphaEquivalence
import OpCalculus.Proofs.Inference.Freshness

/-!
# Instantiation of generalized types

To generalize a type and to instantiate the scheme again renames the variables that the environment does not
hold, by consecutive numbers in order of first occurrence. The numbers are new, so the renaming is one-to-one
on the variables of the type (`injOn_renumber`).
-/

namespace OpCalculus

theorem distinct_of_nodup {α : Type} [DecidableEq α] {l : List α} (h : l.Nodup) : distinct l = l := by
  induction l with
  | nil => rfl
  | cons a l ih =>
      obtain ⟨absent, nodup⟩ := List.nodup_cons.mp h
      rw [distinct, ih nodup, List.filter_eq_self.mpr]
      intro b hb
      exact decide_eq_true (ne_of_mem_of_not_mem hb absent)

/-- Numbers the given variables in order, from `first` on. -/
def renumber (vars : List TypeVar) (first : Nat) (v : TypeVar) : TypeVar :=
  if v ∈ vars then .fresh (first + vars.idxOf v) else v

variable {vars : List TypeVar} {first : Nat} {v : TypeVar} {t : Ty}

theorem renumber_of_mem (hv : v ∈ vars) : renumber vars first v = .fresh (first + vars.idxOf v) := if_pos hv

theorem renumber_of_not_mem (hv : v ∉ vars) : renumber vars first v = v := if_neg hv

theorem map_renumber (nodup : vars.Nodup) :
    vars.map (renumber vars first) = (List.range' first vars.length).map .fresh := by
  refine List.ext_getElem (by simp) fun i inside _ => ?_
  have bound : i < vars.length := by simpa using inside
  rw [List.getElem_map, List.getElem_map, List.getElem_range', renumber_of_mem (List.getElem_mem bound),
    nodup.idxOf_getElem i bound, Nat.one_mul]

theorem renumber_not_mem (new : ∀ i, .fresh i ∈ t.occurrences → i < first) (hv : v ∈ vars) :
    renumber vars first v ∉ t.occurrences := by
  rw [renumber_of_mem hv]
  intro used
  have := new _ used
  omega

theorem injOn_renumber (new : ∀ i, .fresh i ∈ t.occurrences → i < first) :
    Set.InjOn (renumber vars first) {v | v ∈ t.vars} := by
  intro v hv w hw same
  have hv : v ∈ t.occurrences := Ty.mem_vars.mp hv
  have hw : w ∈ t.occurrences := Ty.mem_vars.mp hw
  by_cases replaced : v ∈ vars
  · by_cases replaced' : w ∈ vars
    · rw [renumber_of_mem replaced, renumber_of_mem replaced', TypeVar.fresh.injEq, Nat.add_left_cancel_iff] at same
      exact (List.idxOf_inj replaced).mp same
    · rw [renumber_of_not_mem replaced'] at same
      exact absurd (same ▸ hw) (renumber_not_mem new replaced)
  · rw [renumber_of_not_mem replaced] at same
    by_cases replaced' : w ∈ vars
    · exact absurd (same ▸ hv) (renumber_not_mem new replaced')
    · rwa [renumber_of_not_mem replaced'] at same

theorem instantiate_generalize_eq (env : TypeEnv) (t : Ty) (supply : FreshSupply) :
    let vars := t.vars.filter (· ∉ env.freeVars)
    FreshSupply.instantiate (env.generalize t) supply =
      if h : supply.next + vars.length ≤ freshLimit then
        .ok (t.bind fun v => .var (renumber vars supply.next v)) ⟨supply.next + vars.length, h⟩
      else .error {} ⟨freshLimit, Nat.le_refl _⟩ := by
  intro vars
  have once : distinct (env.generalize t).vars = vars :=
    distinct_of_nodup ((nodup_distinct _).filter _)
  unfold FreshSupply.instantiate
  rw [once]
  exact Infer.mintBlock_apply vars.length _ supply

/-- Instantiating a generalized type renames the variables that are not free in the environment, in order of
first occurrence, by the next numbers of the supply, and nothing else. If the supply has passed all numbers in
use, the new variables are new and the result is the type up to renaming. With too few numbers left it
fails. -/
theorem instantiate_undoes_generalize (env : TypeEnv) (t : Ty) (supply : FreshSupply)
    (inEnv : ∀ i, env.UsesNumber i → i < supply.next)
    (inType : ∀ i, .fresh i ∈ t.occurrences → i < supply.next) :
    let vars := t.vars.filter (· ∉ env.freeVars)
    (vars.length ≤ freshLimit - supply.next →
      ∃ (ρ : TypeVar → TypeVar) (after : FreshSupply),
        FreshSupply.instantiate (env.generalize t) supply = .ok (t.bind fun v => .var (ρ v)) after ∧
        after.next = supply.next + vars.length ∧
        vars.map ρ = (List.range' supply.next vars.length).map .fresh ∧
        (∀ v ∈ vars, ρ v ∉ t.occurrences ∧ ∀ i, ρ v = .fresh i → ¬ env.UsesNumber i) ∧
        (∀ v, v ∉ vars → ρ v = v) ∧ (∀ v ∈ env.freeVars, ρ v = v) ∧
        t.alphaEquivalent (t.bind fun v => .var (ρ v)) = true) ∧
    (¬ vars.length ≤ freshLimit - supply.next →
      ∃ after, FreshSupply.instantiate (env.generalize t) supply = .error {} after) := by
  intro vars
  have result := instantiate_generalize_eq env t supply
  have within := supply.bounded
  constructor
  · intro enough
    have enough : supply.next + vars.length ≤ freshLimit := by omega
    refine ⟨renumber vars supply.next, ⟨_, enough⟩, result.trans (dif_pos enough), rfl,
      map_renumber ((nodup_distinct _).filter _), fun v hv => ⟨renumber_not_mem inType hv, fun i equal used => ?_⟩,
      fun v => renumber_of_not_mem, fun v hv => renumber_of_not_mem (by simp [vars, hv]), ?_⟩
    · rw [renumber_of_mem hv, TypeVar.fresh.injEq] at equal
      have := inEnv i used
      omega
    · exact Ty.alphaEquivalent_of_injOn (injOn_renumber inType) rfl
  · intro tooMany
    have tooMany : ¬ supply.next + vars.length ≤ freshLimit := by omega
    exact ⟨_, result.trans (dif_neg tooMany)⟩

-- The variable of the shadowed frame is generalized, the one of the visible frame is not.
theorem instantiate_undoes_generalize_shadowed :
    let a : Ty := .var (.named "a")
    let x (i : Nat) : Ty := .var (.fresh i)
    let env : TypeEnv := ⟨[("f", .mono (x 0)), ("f", .mono (.function (x 7) a))]⟩
    let t := Ty.function (x 1) (.function a (.function (x 0) (x 1)))
    let u := Ty.function (x 8) (.function (x 9) (.function (x 0) (x 8)))
    let early : FreshSupply := ⟨8, by decide⟩
    let late : FreshSupply := ⟨freshLimit - 1, Nat.sub_le _ _⟩
    (∀ i, env.UsesNumber i → i < 8) ∧ (∀ i, .fresh i ∈ t.occurrences → i < 8) ∧
      (∃ after, FreshSupply.instantiate (env.generalize t) early = .ok u after ∧ after.next = 10) ∧
      t.alphaEquivalent u = true ∧
      ∃ after, FreshSupply.instantiate (env.generalize t) late = .error {} after := by
  intro a x env t u early late
  have vars : t.vars.filter (· ∉ env.freeVars) = [.fresh 1, .named "a"] := by decide
  have free : .fresh 0 ∈ env.freeVars := by decide
  have inEnv : ∀ i, env.UsesNumber i → i < 8 := by
    rintro i ⟨p, hp, used⟩
    simp only [env, List.mem_cons, List.not_mem_nil, or_false] at hp
    rcases hp with rfl | rfl <;> simp [Scheme.mono, x, a, Ty.occurrences] at used <;> omega
  have inType : ∀ i, .fresh i ∈ t.occurrences → i < 8 := by
    intro i used
    simp [t, x, a, Ty.occurrences] at used
    omega
  obtain ⟨through, -⟩ := instantiate_undoes_generalize env t early inEnv inType
  obtain ⟨ρ, after, result, next, renamed, -, -, untouched, equivalent⟩ := through (by rw [vars]; decide)
  rw [vars] at renamed next
  have renamed : ρ (.fresh 1) = .fresh 8 ∧ ρ (.named "a") = .fresh 9 := by simpa [List.range'] using renamed
  have same : (t.bind fun v => .var (ρ v)) = u := by
    simp [t, u, x, a, Ty.bind, renamed, untouched _ free]
  rw [same] at result equivalent
  refine ⟨inEnv, inType, ⟨after, result, next⟩, equivalent, ?_⟩
  have above : ∀ i, i < 8 → i < late.next := fun i below => Nat.lt_of_lt_of_le below (by decide)
  obtain ⟨-, fails⟩ := instantiate_undoes_generalize env t late (fun i h => above i (inEnv i h))
    fun i h => above i (inType i h)
  exact fails (by rw [vars]; decide)

end OpCalculus
