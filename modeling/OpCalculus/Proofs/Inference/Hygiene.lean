import OpCalculus.Proofs.Inference.Run

/-!
# Variables of a run

A run of inference touches only variables that the environment and the pending constraints reach and
variables that it mints (`Runs.footprint`). The set `A` of variables is arbitrary: taken as the
variables that are no longer mintable it shows that fresh variables are new, taken as those that no
binding quantifies it shows that no substitution is ever captured (`Hygienic`).
-/

namespace OpCalculus

/-- The variable can still be minted when `next` is the next number. -/
def Mintable (next : Nat) (v : TypeVar) : Prop := ∃ i, next ≤ i ∧ i < freshLimit ∧ v = .fresh i

theorem Mintable.mono {m n : Nat} {v : TypeVar} (h : Mintable n v) (le : m ≤ n) : Mintable m v := by
  obtain ⟨i, lower, upper, rfl⟩ := h
  exact ⟨i, Nat.le_trans le lower, upper, rfl⟩

theorem not_mintable_of_lt {i n : Nat} (h : i < n) : ¬ Mintable n (.fresh i) := by
  rintro ⟨j, lower, -, equal⟩
  cases equal
  omega

namespace TypeEnv

variable {env : TypeEnv} {s : Substitution} {x : String} {c : Scheme} {t : Ty} {v : TypeVar}

theorem mem_freeVars_bindLet (h : v ∈ (env.bindLet s x t).freeVars) : v ∈ (env.applySubst s).freeVars :=
  (mem_freeVars_extend h).elim (fun h => (mem_freeVars_generalize h).2) id

-- Variables of an image are unbound, so the substitution leaves them alone.
theorem image_of_mem_freeVars_applySubst (h : v ∈ (env.applySubst s).freeVars) : s.image v = .var v := by
  obtain ⟨w, -, hv⟩ := mem_freeVars_applySubst h
  exact Substitution.image_of_get?_eq_none (Substitution.get?_of_mem_image hv)

end TypeEnv

theorem Scheme.mem_occurrences_renamed {c : Scheme} {first : Nat} {w : TypeVar}
    (h : w ∈ (c.renamed first).occurrences) :
    w ∈ c.freeVars ∨ ∃ i, first ≤ i ∧ i < first + (distinct c.vars).length ∧ w = .fresh i := by
  obtain ⟨v, hv, hw⟩ := Ty.mem_occurrences_bind.mp h
  rw [Ty.occurrences, List.mem_singleton] at hw
  split at hw
  · rename_i quantified
    have := List.idxOf_lt_length_of_mem quantified
    exact .inr ⟨_, Nat.le_add_right _ _, by omega, hw⟩
  · rename_i free
    exact .inl (Scheme.mem_freeVars.mpr ⟨hw ▸ hv, by simpa [hw] using free⟩)

/-! ## The footprint of a run -/

namespace InferState

/-- Under the current substitution, the free variables of the environment and the pending constraints
mention only variables of `A`. -/
structure ConfinedTo (k : InferState) (A : TypeVar → Prop) (env : TypeEnv) : Prop where
  free : ∀ v ∈ env.freeVars, Confined A k.substitution (.var v)
  pending : ∀ c ∈ k.pending, c.Confined A k.substitution

/-- Variables that can still be minted are not in use. -/
structure Tidy (k : InferState) (env : TypeEnv) : Prop where
  unbound : ∀ v, Mintable k.next v → k.substitution.image v = .var v
  old : ∀ v, ¬ Mintable k.next v → Confined (fun w => ¬ Mintable k.next w) k.substitution (.var v)
  unused : k.ConfinedTo (fun v => ¬ Mintable k.next v) env

end InferState

open InferState

variable {env : TypeEnv} {e : Expr} {t : Ty} {k k₁ k' : InferState} {A B : TypeVar → Prop}

theorem Confined.mono {s : Substitution} (h : Confined A s t) (sub : ∀ v, A v → B v) :
    Confined B s t :=
  fun w hw => sub w (h w hw)

theorem InferState.ConfinedTo.mono (h : k.ConfinedTo A env) (sub : ∀ v, A v → B v) :
    k.ConfinedTo B env :=
  ⟨fun v hv => (h.free v hv).mono sub, fun c hc => ⟨(h.pending c hc).1.mono sub, (h.pending c hc).2.mono sub⟩⟩

/-- What a run does to the variables, for every set that contains those it mints. -/
structure Footprint (env : TypeEnv) (k : InferState) (t : Ty) (k' : InferState) : Prop where
  le : k.next ≤ k'.next
  within : ∀ A : TypeVar → Prop, (∀ v, Mintable k.next v → ¬ Mintable k'.next v → A v) →
    k.ConfinedTo A env →
    k.substitution.RefinedWithin A k'.substitution ∧ k'.ConfinedTo A env ∧ Confined A k'.substitution t

theorem InferState.ConfinedTo.emit {c : Constraint} (h : k.ConfinedTo A env)
    (new : c.Confined A k.substitution) : (k.emit c).ConfinedTo A env := by
  refine ⟨h.free, fun d hd => ?_⟩
  rcases List.mem_append.mp hd with hd | hd
  · exact h.pending d hd
  · exact List.mem_singleton.mp hd ▸ new

theorem InferState.Tidy.confined_fresh {i : Nat} (tidy : k.Tidy env) (lower : k.next ≤ i)
    (upper : i < freshLimit) (inside : A (.fresh i)) : Confined A k.substitution (.var (.fresh i)) := by
  intro w hw
  rw [Substitution.apply, Ty.bind, tidy.unbound _ ⟨i, lower, upper, rfl⟩, Ty.occurrences,
    List.mem_singleton] at hw
  exact hw ▸ inside

theorem InferState.Tidy.confined_renamed {c : Scheme} (tidy : k.Tidy env)
    (enough : k.next + (distinct c.vars).length ≤ freshLimit)
    (free : ∀ v ∈ c.freeVars, Confined A k.substitution (.var v))
    (inside : ∀ i, k.next ≤ i → i < k.next + (distinct c.vars).length → A (.fresh i)) :
    Confined A k.substitution (c.renamed k.next) := by
  refine Substitution.confined_iff.mpr fun v hv => ?_
  rcases Scheme.mem_occurrences_renamed hv with hv | ⟨i, lower, upper, rfl⟩
  · exact free v hv
  · exact tidy.confined_fresh lower (by omega) (inside i lower upper)

theorem InferState.Tidy.confined_old {n : Nat} {v : TypeVar} (tidy : k.Tidy env) (le : k.next ≤ n)
    (hv : ¬ Mintable n v) : Confined (fun w => ¬ Mintable n w) k.substitution (.var v) := by
  by_cases minted : Mintable k.next v
  · obtain ⟨i, lower, upper, rfl⟩ := minted
    exact tidy.confined_fresh lower upper hv
  · exact (tidy.old v minted).mono fun w hw later => hw (later.mono le)

theorem Footprint.unused (h : Footprint env k t k') (tidy : k.Tidy env) :
    k.substitution.RefinedWithin (fun v => ¬ Mintable k'.next v) k'.substitution ∧
      k'.ConfinedTo (fun v => ¬ Mintable k'.next v) env ∧
      Confined (fun v => ¬ Mintable k'.next v) k'.substitution t :=
  h.within _ (fun _ _ used => used) (tidy.unused.mono fun _ hv minted => hv (minted.mono h.le))

theorem Footprint.tidy (h : Footprint env k t k') (tidy : k.Tidy env) : k'.Tidy env := by
  obtain ⟨refined, confined, -⟩ := h.unused tidy
  refine ⟨fun v hv => ?_, fun v hv => refined.confined (tidy.confined_old h.le hv), confined⟩
  exact refined.image_of_not (fun outside => outside hv) (tidy.unbound v (hv.mono h.le))

theorem InferState.ConfinedTo.lambda {x : String} {i : Nat} (h : k.ConfinedTo A env)
    (new : Confined A k.substitution (.var (.fresh i))) :
    k.ConfinedTo A (env.extend x (.mono (.var (.fresh i)))) := by
  refine ⟨fun v hv => ?_, h.pending⟩
  rcases TypeEnv.mem_freeVars_extend hv with hv | hv
  · obtain ⟨hv, -⟩ := Scheme.mem_freeVars.mp hv
    exact List.mem_singleton.mp hv ▸ new
  · exact h.free v hv

theorem InferState.ConfinedTo.settle {s : Substitution} (h : k.ConfinedTo A env)
    (solves : Solves k.substitution k.pending s) :
    k.substitution.RefinedWithin A s ∧ (k.settle s).ConfinedTo A env := by
  have refined := solves.refinedWithin h.pending
  exact ⟨refined, fun v hv => refined.confined (h.free v hv), fun c hc => nomatch hc⟩

theorem InferState.ConfinedTo.bindLet {x : String} (h : k.ConfinedTo A env) :
    k.ConfinedTo A (env.bindLet k.substitution x t) := by
  refine ⟨fun v hv => ?_, h.pending⟩
  have free := TypeEnv.mem_freeVars_bindLet hv
  obtain ⟨w, hw, hv⟩ := TypeEnv.mem_freeVars_applySubst free
  intro u hu
  rw [Substitution.apply, Ty.bind, TypeEnv.image_of_mem_freeVars_applySubst free, Ty.occurrences,
    List.mem_singleton] at hu
  exact hu ▸ h.free w hw v hv

namespace InferState.Tidy

theorem mint (tidy : k.Tidy env) (count : Nat) : (k.mint count).Tidy env := by
  have le : k.next ≤ (k.mint count).next := Nat.le_add_right _ _
  have old : ∀ v, ¬ Mintable k.next v → ¬ Mintable (k.mint count).next v :=
    fun v hv minted => hv (minted.mono le)
  have unused := tidy.unused.mono old
  exact ⟨fun v hv => tidy.unbound v (hv.mono le), fun v hv => tidy.confined_old le hv,
    unused.free, unused.pending⟩

theorem lambda {x : String} (tidy : k.Tidy env) (enough : k.next + 1 ≤ freshLimit) :
    (k.mint 1).Tidy (env.extend x (.mono (.var (.fresh k.next)))) where
  unbound := (tidy.mint 1).unbound
  old := (tidy.mint 1).old
  unused := (tidy.mint 1).unused.lambda
    (tidy.confined_fresh (Nat.le_refl _) enough (not_mintable_of_lt (Nat.lt_succ_self _)))

theorem settle {s : Substitution} (tidy : k.Tidy env)
    (solves : Solves k.substitution k.pending s) : (k.settle s).Tidy env := by
  obtain ⟨refined, confined⟩ := tidy.unused.settle solves
  refine ⟨fun v hv => ?_, fun v hv => refined.confined (tidy.old v hv), confined⟩
  exact refined.image_of_not (fun outside => outside hv) (tidy.unbound v hv)

theorem bindLet {x : String} (tidy : k.Tidy env) : k.Tidy (env.bindLet k.substitution x t) :=
  ⟨tidy.unbound, tidy.old, tidy.unused.bindLet⟩

end InferState.Tidy

theorem Footprint.both {u : Ty} {k₂ : InferState} (first : Footprint env k t k₁)
    (second : Footprint env k₁ u k₂) (minted : ∀ v, Mintable k.next v → ¬ Mintable k₂.next v → A v)
    (confined : k.ConfinedTo A env) :
    k.substitution.RefinedWithin A k₂.substitution ∧ k₂.ConfinedTo A env ∧
      Confined A k₂.substitution t ∧ Confined A k₂.substitution u := by
  obtain ⟨refined₁, confined₁, inside₁⟩ := first.within A
    (fun v hv used => minted v hv fun later => used (later.mono second.le)) confined
  obtain ⟨refined₂, confined₂, inside₂⟩ := second.within A
    (fun v hv used => minted v (hv.mono first.le) used) confined₁
  exact ⟨refined₁.trans refined₂, confined₂, refined₂.confined inside₁, inside₂⟩

theorem Runs.footprint (run : Runs env e k t k') (tidy : k.Tidy env) : Footprint env k t k' := by
  induction run with
  | @lit env literal t k typed =>
      refine ⟨Nat.le_refl _, fun A _ confined => ⟨.refl A _, confined, fun w hw => ?_⟩⟩
      have ground : (k.substitution.apply t).occurrences = [] := by cases typed <;> rfl
      rw [ground] at hw
      cases hw
  | @var env name c k found enough =>
      refine ⟨Nat.le_add_right _ _, fun A minted confined =>
        ⟨.refl A _, ⟨confined.free, confined.pending⟩, ?_⟩⟩
      refine tidy.confined_renamed enough (fun v hv => ?_) fun i lower upper => ?_
      · exact confined.free v (TypeEnv.mem_freeVars.mpr ⟨name, c, found, hv⟩)
      · exact minted _ ⟨i, lower, by omega, rfl⟩ (not_mintable_of_lt upper)
  | @app env callee arg calleeTy argTy k k₁ k₂ _ _ enough ihCallee ihArg =>
      have callee := ihCallee tidy
      have tidy₁ := callee.tidy tidy
      have arg := ihArg tidy₁
      have le : k.next ≤ k₂.next := Nat.le_trans callee.le arg.le
      refine ⟨Nat.le_succ_of_le le, fun A minted confined => ?_⟩
      obtain ⟨refined, confined₂, calleeIn, argIn⟩ := callee.both arg
        (fun v hv used => minted v hv fun later => used (later.mono (Nat.le_succ _))) confined
      have result : Confined A k₂.substitution (.var (.fresh k₂.next)) :=
        (arg.tidy tidy₁).confined_fresh (Nat.le_refl _) enough
          (minted _ ⟨_, le, enough, rfl⟩ (not_mintable_of_lt (Nat.lt_succ_self _)))
      refine ⟨refined, ConfinedTo.emit ⟨confined₂.free, confined₂.pending⟩ ?_, result⟩
      exact ⟨calleeIn, Substitution.confined_function.mpr ⟨argIn, result⟩⟩
  | @lambda env param body bodyTy k k' enough _ ih =>
      have body := ih (tidy.lambda enough)
      have le : k.next + 1 ≤ k'.next := body.le
      refine ⟨Nat.le_of_succ_le le, fun A minted confined => ?_⟩
      have paramIn : Confined A k.substitution (.var (.fresh k.next)) :=
        tidy.confined_fresh (Nat.le_refl _) enough
          (minted _ ⟨_, Nat.le_refl _, enough, rfl⟩ (not_mintable_of_lt le))
      have inner : (k.mint 1).ConfinedTo A (env.extend param (.mono (.var (.fresh k.next)))) :=
        ConfinedTo.lambda ⟨confined.free, confined.pending⟩ paramIn
      obtain ⟨refined, confined', bodyIn⟩ := body.within A
        (fun v hv used => minted v (hv.mono (Nat.le_succ _)) used) inner
      refine ⟨refined, ⟨fun v hv => refined.confined (confined.free v hv), confined'.pending⟩, ?_⟩
      exact Substitution.confined_function.mpr ⟨refined.confined paramIn, bodyIn⟩
  | @letIn env name value body valueTy bodyTy k k₁ k' s _ solves _ ihValue ihBody =>
      have value := ihValue tidy
      have tidy₁ := (value.tidy tidy).settle solves
      have body := ihBody tidy₁.bindLet
      refine ⟨Nat.le_trans value.le body.le, fun A minted confined => ?_⟩
      obtain ⟨refined₁, confined₁, -⟩ := value.within A
        (fun v hv used => minted v hv fun later => used (later.mono body.le)) confined
      obtain ⟨refined₂, confined₂⟩ := confined₁.settle solves
      obtain ⟨refined₃, confined₃, bodyIn⟩ := body.within A
        (fun v hv used => minted v (hv.mono value.le) used) confined₂.bindLet
      refine ⟨(refined₁.trans refined₂).trans refined₃, ⟨fun v hv => ?_, confined₃.pending⟩, bodyIn⟩
      exact refined₃.confined (confined₂.free v hv)
  | @compose env first second firstTy secondTy k k₁ k₂ _ _ enough ihFirst ihSecond =>
      have first := ihFirst tidy
      have tidy₁ := first.tidy tidy
      have second := ihSecond tidy₁
      have le : k.next ≤ k₂.next := Nat.le_trans first.le second.le
      refine ⟨Nat.le_trans le (Nat.le_add_right _ 3), fun A minted confined => ?_⟩
      obtain ⟨refined, confined₂, firstIn, secondIn⟩ := first.both second
        (fun v hv used => minted v hv fun later => used (later.mono (Nat.le_add_right _ 3))) confined
      have fresh : ∀ i, k₂.next ≤ i → i < k₂.next + 3 →
          Confined A k₂.substitution (.var (.fresh i)) := by
        intro i lower upper
        have below : i < freshLimit := by omega
        exact (second.tidy tidy₁).confined_fresh lower below
          (minted _ ⟨i, Nat.le_trans le lower, below, rfl⟩ (not_mintable_of_lt upper))
      have input := fresh k₂.next (by omega) (by omega)
      have middle := fresh (k₂.next + 1) (by omega) (by omega)
      have output := fresh (k₂.next + 2) (by omega) (by omega)
      refine ⟨refined, ConfinedTo.emit (ConfinedTo.emit ⟨confined₂.free, confined₂.pending⟩ ?_) ?_, ?_⟩
      · exact ⟨firstIn, Substitution.confined_function.mpr ⟨input, middle⟩⟩
      · exact ⟨secondIn, Substitution.confined_function.mpr ⟨middle, output⟩⟩
      · exact Substitution.confined_function.mpr ⟨input, output⟩
  | @ascribe env inner ty innerTy k k' _ enough _ ih =>
      have inner := ih (tidy.mint _)
      have le : k.next + (distinct ty.vars).length ≤ k'.next := inner.le
      refine ⟨Nat.le_trans (Nat.le_add_right _ _) le, fun A minted confined => ?_⟩
      have expected : Confined A k.substitution ((Scheme.closed ty).renamed k.next) := by
        refine tidy.confined_renamed enough (fun v hv => absurd hv Scheme.not_mem_freeVars_closed)
          fun i lower upper => ?_
        have upper : i < k.next + (distinct ty.vars).length := upper
        exact minted _ ⟨i, lower, by omega, rfl⟩ (not_mintable_of_lt (Nat.lt_of_lt_of_le upper le))
      obtain ⟨refined, confined', innerIn⟩ := inner.within A
        (fun v hv used => minted v (hv.mono (Nat.le_add_right _ _)) used)
        ⟨confined.free, confined.pending⟩
      exact ⟨refined, confined'.emit ⟨refined.confined expected, innerIn⟩, refined.confined expected⟩

/-! ## Quantified variables stay apart -/

def TypeEnv.Quantifies (env : TypeEnv) (v : TypeVar) : Prop := ∃ p ∈ env.bindings, v ∈ p.2.vars

/-- No variable is quantified by a visible binding and free in one. -/
def TypeEnv.Apart (env : TypeEnv) : Prop := ∀ p ∈ env.bindings, ∀ v ∈ p.2.vars, v ∉ env.freeVars

instance (env : TypeEnv) : Decidable env.Apart :=
  inferInstanceAs (Decidable (∀ p ∈ env.bindings, ∀ v ∈ p.2.vars, v ∉ env.freeVars))

theorem TypeEnv.apart_of_closed (h : env.freeVars = []) : env.Apart := by
  intro p _ v _ hv
  rw [h] at hv
  cases hv

/-- Quantified variables are never minted, and nothing in use mentions them. -/
structure InferState.Hygienic (k : InferState) (env : TypeEnv) : Prop extends k.Tidy env where
  unminted : ∀ v, env.Quantifies v → ¬ Mintable k.next v
  apart : k.ConfinedTo (fun v => ¬ env.Quantifies v) env

theorem TypeEnv.quantifies_iff {v : TypeVar} :
    env.Quantifies v ↔ ∃ x c, env.lookup x = some c ∧ v ∈ c.vars := by
  constructor
  · rintro ⟨p, hp, hv⟩
    exact ⟨p.1, p.2, TypeEnv.mem_bindings.mp hp, hv⟩
  · rintro ⟨x, c, hx, hv⟩
    exact ⟨(x, c), TypeEnv.mem_bindings.mpr hx, hv⟩

theorem TypeEnv.quantifies_extend {x : String} {c : Scheme} {v : TypeVar}
    (h : (env.extend x c).Quantifies v) : v ∈ c.vars ∨ env.Quantifies v := by
  obtain ⟨y, d, hy, hv⟩ := quantifies_iff.mp h
  rw [lookup_extend] at hy
  split at hy
  · cases hy
    exact .inl hv
  · exact .inr (quantifies_iff.mpr ⟨y, d, hy, hv⟩)

theorem TypeEnv.quantifies_applySubst {s : Substitution} {v : TypeVar}
    (h : (env.applySubst s).Quantifies v) : env.Quantifies v := by
  obtain ⟨x, c, hx, hv⟩ := quantifies_iff.mp h
  rw [applySubst_eq_bindFree, lookup_bindFree, Option.map_eq_some_iff] at hx
  obtain ⟨c, hx, rfl⟩ := hx
  exact quantifies_iff.mpr ⟨x, c, hx, hv⟩

theorem Footprint.hygienic (h : Footprint env k t k') (hygienic : k.Hygienic env) :
    k'.Hygienic env where
  toTidy := h.tidy hygienic.toTidy
  unminted v hv minted := hygienic.unminted v hv (minted.mono h.le)
  apart := (h.within _ (fun v hv _ quantified => hygienic.unminted v quantified hv) hygienic.apart).2.1

namespace InferState.Hygienic

theorem uncaptured (h : k.Hygienic env) : env.Uncaptured k.substitution.image := by
  intro p hp v hv w hw quantified
  have free : v ∈ env.freeVars := TypeEnv.mem_freeVars.mpr ⟨p.1, p.2, TypeEnv.mem_bindings.mp hp, hv⟩
  exact h.apart.free v free w hw ⟨p, hp, quantified⟩

theorem mint (h : k.Hygienic env) (count : Nat) : (k.mint count).Hygienic env where
  toTidy := h.toTidy.mint count
  unminted v hv minted := h.unminted v hv (minted.mono (Nat.le_add_right _ _))
  apart := ⟨h.apart.free, h.apart.pending⟩

theorem lambda {x : String} (h : k.Hygienic env) (enough : k.next + 1 ≤ freshLimit) :
    (k.mint 1).Hygienic (env.extend x (.mono (.var (.fresh k.next)))) := by
  have fewer : ∀ v, (env.extend x (.mono (.var (.fresh k.next)))).Quantifies v → env.Quantifies v :=
    fun v hv => (TypeEnv.quantifies_extend hv).resolve_left (List.not_mem_nil)
  refine ⟨h.toTidy.lambda enough, fun v hv => (h.mint 1).unminted v (fewer v hv), ?_⟩
  have apart : (k.mint 1).ConfinedTo
      (fun v => ¬ (env.extend x (.mono (.var (.fresh k.next)))).Quantifies v) env :=
    (h.mint 1).apart.mono fun v hv quantified => hv (fewer v quantified)
  refine apart.lambda (h.toTidy.confined_fresh (Nat.le_refl _) enough fun quantified => ?_)
  exact h.unminted _ (fewer _ quantified) ⟨_, Nat.le_refl _, enough, rfl⟩

theorem settle {s : Substitution} (h : k.Hygienic env)
    (solves : Solves k.substitution k.pending s) : (k.settle s).Hygienic env where
  toTidy := h.toTidy.settle solves
  unminted := h.unminted
  apart := (h.apart.settle solves).2

theorem bindLet {x : String} (h : k.Hygienic env) (empty : k.pending = [])
    (new : Confined (fun v => ¬ Mintable k.next v) k.substitution t) :
    k.Hygienic (env.bindLet k.substitution x t) := by
  have cases : ∀ v, (env.bindLet k.substitution x t).Quantifies v →
      env.Quantifies v ∨ v ∈ (k.substitution.apply t).occurrences ∧
        v ∉ (env.applySubst k.substitution).freeVars := by
    intro v hv
    rcases TypeEnv.quantifies_extend hv with hv | hv
    · obtain ⟨hv, outside⟩ := List.mem_filter.mp hv
      exact .inr ⟨Ty.mem_vars.mp hv, by simpa using outside⟩
    · exact .inl (TypeEnv.quantifies_applySubst hv)
  refine ⟨h.toTidy.bindLet, fun v hv => ?_, fun v hv => ?_, fun c hc => ?_⟩
  · exact (cases v hv).elim (h.unminted v) fun occurs => new v occurs.1
  · have free := TypeEnv.mem_freeVars_bindLet hv
    intro w hw quantified
    have same : w = v := by
      rwa [Substitution.apply, Ty.bind, TypeEnv.image_of_mem_freeVars_applySubst free, Ty.occurrences,
        List.mem_singleton] at hw
    rcases cases w quantified with quantified | ⟨-, outside⟩
    · exact (h.apart.bindLet (t := t) (x := x)).free v hv w hw quantified
    · exact outside (same ▸ free)
  · rw [empty] at hc
    cases hc

end InferState.Hygienic

/-! ## The initial state -/

theorem exists_max?_of_mem {l : List Nat} {n : Nat} (h : n ∈ l) : ∃ m, l.max? = some m ∧ n ≤ m := by
  obtain ⟨m, hm⟩ := Option.isSome_iff_exists.mp (List.isSome_max?_of_mem h)
  have le := List.le_max?_getD_of_mem (k := 0) h
  exact ⟨m, hm, by simpa [hm] using le⟩

-- Shadowed frames count too: the supply starts after all numbers in use.
theorem FreshSupply.le_next_after {p : String × Scheme} {n : Nat} (hp : p ∈ env.frames)
    (hn : .fresh n ∈ p.2.vars ++ p.2.body.occurrences) :
    min (n + 1) freshLimit ≤ (FreshSupply.after env).next := by
  obtain ⟨m, largest, le⟩ : ∃ m, p.2.maxFresh? = some m ∧ n ≤ m :=
    exists_max?_of_mem (List.mem_filterMap.mpr ⟨_, hn, rfl⟩)
  obtain ⟨last, whole, le'⟩ : ∃ last, env.maxFresh? = some last ∧ m ≤ last :=
    exists_max?_of_mem (List.mem_filterMap.mpr ⟨p, hp, largest⟩)
  simp only [FreshSupply.after, whole, FreshSupply.afterId?]
  omega

theorem FreshSupply.not_mintable_after {x : String} {c : Scheme} {v : TypeVar}
    (found : env.lookup x = some c) (hv : v ∈ c.vars ++ c.body.occurrences) :
    ¬ Mintable (FreshSupply.after env).next v := by
  rintro ⟨i, lower, upper, rfl⟩
  have frame : (x, c) ∈ env.frames := by
    obtain ⟨outer, inner, equal, -⟩ := List.lookup_eq_some_iff.mp found
    simp [equal]
  have start := FreshSupply.le_next_after frame hv
  omega

theorem Substitution.confined_empty {v : TypeVar} (h : A v) : Confined A .empty (.var v) :=
  fun _ hw => List.mem_singleton.mp hw ▸ h

theorem InferenceContext.tidy_start (env : TypeEnv) (options : InferOptions) :
    (InferenceContext.start env options).state.Tidy env where
  unbound _ _ := rfl
  old _ hv := Substitution.confined_empty hv
  unused := by
    refine ⟨fun v hv => Substitution.confined_empty ?_, fun _ hc => nomatch hc⟩
    obtain ⟨x, c, found, hv⟩ := TypeEnv.mem_freeVars.mp hv
    exact FreshSupply.not_mintable_after found
      (List.mem_append_right _ (Scheme.mem_freeVars.mp hv).1)

theorem InferenceContext.hygienic_start (apart : env.Apart) (options : InferOptions) :
    (InferenceContext.start env options).state.Hygienic env where
  toTidy := InferenceContext.tidy_start env options
  unminted v hv := by
    obtain ⟨x, c, found, hv⟩ := TypeEnv.quantifies_iff.mp hv
    exact FreshSupply.not_mintable_after found (List.mem_append_left _ hv)
  apart := by
    refine ⟨fun v hv => Substitution.confined_empty ?_, fun _ hc => nomatch hc⟩
    rintro ⟨p, hp, quantified⟩
    exact apart p hp v quantified hv

end OpCalculus
