import OpCalculus.Proofs.Inference.Locality
import OpCalculus.Proofs.Variants

/-!
# Typings in other environments

A typing is kept by every environment that offers what the typed expression takes from its own
(`HasType.transport`): free type variables may be replaced, bindings may become more general, and bindings of
names that are not free in the expression do not matter. So a composition has the types of the function that
applies the one part after the other (`hasType_compose_iff`).
-/

namespace OpCalculus

variable {Γ Γ' : TypeEnv} {e first second : Expr} {t u : Ty} {θ ρ : TypeVar → Ty} {names more : List String}
  {x : String} {c c' : Scheme}

namespace TypeEnv

/-- `Γ'` has every instance of the bindings of the given names in `Γ` under `θ`. -/
def OffersOn (names : List String) (Γ' : TypeEnv) (θ : TypeVar → Ty) (Γ : TypeEnv) : Prop :=
  ∀ x ∈ names, ∀ c, Γ.lookup x = some c → ∃ c', Γ'.lookup x = some c' ∧ ∀ t, c.InstanceUnder θ t → c'.Instance t

namespace OffersOn

theorem mono (h : OffersOn more Γ' θ Γ) (sub : names ⊆ more) : OffersOn names Γ' θ Γ :=
  fun x hx => h x (sub hx)

theorem congr (h : OffersOn names Γ' θ Γ) (agree : ∀ v ∈ Γ.freeVars, ρ v = θ v) : OffersOn names Γ' ρ Γ := by
  intro x hx c found
  obtain ⟨c', found', instances⟩ := h x hx c found
  refine ⟨c', found', ?_⟩
  rintro t ⟨f, rfl⟩
  refine instances _ ⟨f, Scheme.specialize_congr (fun v hv => ?_) fun _ _ => rfl⟩
  exact agree v (mem_freeVars.mpr ⟨x, c, found, hv⟩)

theorem extend (h : OffersOn (names.filter (· ≠ x)) Γ' θ Γ) (new : ∀ t, c.InstanceUnder θ t → c'.Instance t) :
    OffersOn names (Γ'.extend x c') θ (Γ.extend x c) := by
  intro y hy d found
  rw [lookup_extend] at found ⊢
  split at found
  · rename_i here
    cases found
    exact ⟨c', if_pos here, new⟩
  · rename_i other
    rw [if_neg other]
    exact h y (List.mem_filter.mpr ⟨hy, decide_eq_true other⟩) d found

end OffersOn

theorem offersOn_of_lookup (same : ∀ x ∈ names, Γ.lookup x = Γ'.lookup x) : OffersOn names Γ' .var Γ :=
  fun x hx c found => ⟨c, same x hx ▸ found, fun _ instance' => instance'⟩

end TypeEnv

theorem Scheme.Instance.bind (h : c.Instance t) (θ : TypeVar → Ty) : c.InstanceUnder θ (t.bind θ) := by
  obtain ⟨f, rfl⟩ := h
  refine ⟨fun v => (f v).bind θ, (Ty.bind_bind _ _ _).trans (Ty.bind_congr fun v _ => ?_)⟩
  split <;> rfl

theorem HasType.transport (typed : HasType Γ e u) (offers : TypeEnv.OffersOn e.freeNames Γ' θ Γ) :
    HasType Γ' e (u.bind θ) := by
  induction typed generalizing Γ' θ with
  | lit typed =>
      rw [typed.bind θ]
      exact .lit typed
  | @var Γ name c t found instance' =>
      obtain ⟨c', found', instances⟩ := offers name (List.mem_singleton_self name) c found
      exact .var found' (instances _ (instance'.bind θ))
  | app _ _ ihCallee ihArg =>
      exact .app (ihCallee (offers.mono (List.subset_append_left _ _)))
        (ihArg (offers.mono (List.subset_append_right _ _)))
  | lambda _ ih =>
      refine .lambda (ih (offers.extend ?_))
      simp [Scheme.Instance]
  | @letIn Γ name value body a b _ _ ihValue ihBody =>
      -- The generalized variables are renamed apart from `Γ'`.
      obtain ⟨ρ, agree, instances⟩ := TypeEnv.exists_renaming Γ' (Γ.generalize a).vars a θ
      have free : ∀ v ∈ Γ.freeVars, ρ v = θ v := fun v hv => agree v (TypeEnv.not_mem_vars_generalize hv)
      exact .letIn (ihValue ((offers.mono (List.subset_append_left _ _)).congr free))
        (ihBody ((offers.mono (List.subset_append_right _ _)).extend instances))
  | compose _ _ ihFirst ihSecond =>
      exact .compose (ihFirst (offers.mono (List.subset_append_left _ _)))
        (ihSecond (offers.mono (List.subset_append_right _ _)))
  | @ascribe Γ inner ty t declared instance' _ ih =>
      obtain ⟨f, equal⟩ := instance'.bind θ
      refine .ascribe declared ⟨f, equal.trans ?_⟩ (ih offers)
      exact Scheme.specialize_congr (fun v hv => absurd hv Scheme.not_mem_freeVars_closed) fun _ _ => rfl

theorem HasType.congr (typed : HasType Γ e u) (same : ∀ x ∈ e.freeNames, Γ.lookup x = Γ'.lookup x) :
    HasType Γ' e u := by
  have moved := typed.transport (TypeEnv.offersOn_of_lookup same)
  rwa [Ty.bind_var] at moved

theorem hasType_extend_iff (fresh : x ∉ e.freeNames) : HasType (Γ.extend x c) e u ↔ HasType Γ e u := by
  have same : ∀ y ∈ e.freeNames, (Γ.extend x c).lookup y = Γ.lookup y := by
    intro y hy
    rw [TypeEnv.lookup_extend, if_neg (ne_of_mem_of_not_mem hy fresh)]
  exact ⟨fun typed => typed.congr same, fun typed => typed.congr fun y hy => (same y hy).symm⟩

/-- The function that applies the second expression after the first. -/
def Expr.afterwards (x : String) (first second : Expr) : Expr := .lambda x (.app second (.app first (.var x)))

theorem hasType_compose_iff (freshFirst : x ∉ first.freeNames) (freshSecond : x ∉ second.freeNames) :
    HasType Γ (.compose first second) u ↔ HasType Γ (.afterwards x first second) u := by
  constructor
  · intro typed
    cases typed with
    | @compose _ _ _ a b c typedFirst typedSecond =>
        have argument : HasType (Γ.extend x (.mono a)) (.var x) a :=
          .var TypeEnv.lookup_extend_self (by simp [Scheme.Instance])
        have middle : HasType (Γ.extend x (.mono a)) (.app first (.var x)) b :=
          .app ((hasType_extend_iff freshFirst).mpr typedFirst) argument
        exact .lambda (.app ((hasType_extend_iff freshSecond).mpr typedSecond) middle)
  · intro typed
    cases typed with
    | @lambda _ _ _ a c typedBody =>
        cases typedBody with
        | @app _ _ _ b c typedSecond middle =>
            cases middle with
            | @app _ _ _ a' b typedFirst argument =>
                cases argument with
                | var found instance' =>
                    rw [TypeEnv.lookup_extend_self] at found
                    cases found
                    have same : a' = a := by simpa [Scheme.Instance] using instance'
                    subst same
                    exact .compose ((hasType_extend_iff freshFirst).mp typedFirst)
                      ((hasType_extend_iff freshSecond).mp typedSecond)

end OpCalculus
