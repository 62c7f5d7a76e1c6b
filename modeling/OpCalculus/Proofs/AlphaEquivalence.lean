import Mathlib
import OpCalculus.Proofs.Variants

/-!
# Equality up to renaming

Two types have the same canonical form exactly if a one-to-one renaming of variables turns one into the
other. Canonical names are all different, so a type can be read back from its canonical form
(`exists_canonicalize_undone`); the renaming between two types goes through the form that they share.
-/

namespace OpCalculus

/-! ## Canonical names -/

variable {i j : Nat}

theorem toList_canonicalName (i : Nat) : (canonicalName i).toList =
    Char.ofNat ('a'.toNat + i % 26) :: if i / 26 = 0 then [] else Nat.toDigits 10 (i / 26) := by
  unfold canonicalName
  split <;> simp

theorem letter_inj (h : Char.ofNat ('a'.toNat + i % 26) = Char.ofNat ('a'.toNat + j % 26)) :
    i % 26 = j % 26 := by
  have code : ∀ k, (Char.ofNat ('a'.toNat + k % 26)).toNat = 'a'.toNat + k % 26 := fun k =>
    (Char.toNat_ofNat _).trans (if_pos (.inl (by simp; omega)))
  have codes := congrArg Char.toNat h
  rw [code, code] at codes
  omega

theorem canonicalName_inj (h : canonicalName i = canonicalName j) : i = j := by
  have texts := congrArg String.toList h
  rw [toList_canonicalName, toList_canonicalName] at texts
  obtain ⟨letters, suffixes⟩ := List.cons.inj texts
  have rounds : i / 26 = j / 26 := by
    split at suffixes <;> split at suffixes
    · omega
    · exact absurd suffixes.symm Nat.toDigits_ne_nil
    · exact absurd suffixes Nat.toDigits_ne_nil
    · rw [← Nat.toList_repr, ← Nat.toList_repr, String.toList_inj] at suffixes
      exact Nat.repr_inj.mp suffixes
  have := letter_inj letters
  omega

/-! ## Renamed types -/

namespace Ty

variable {l r t : Ty} {v w : TypeVar} {ρ : TypeVar → TypeVar}

/-- The variable that stands for `v` in the canonical form of `t`. -/
def canonicalVar (t : Ty) (v : TypeVar) : TypeVar := .named (canonicalName (t.vars.idxOf v))

theorem canonicalize_eq (t : Ty) : t.canonicalize = t.bind fun v => .var (t.canonicalVar v) := rfl

theorem canonicalVar_inj (hv : v ∈ t.occurrences) (h : t.canonicalVar v = t.canonicalVar w) : v = w :=
  (List.idxOf_inj (mem_vars.mpr hv)).mp (canonicalName_inj (TypeVar.named.inj h))

theorem exists_canonicalize_undone (t : Ty) :
    ∃ back : TypeVar → TypeVar, (t.canonicalize.bind fun v => .var (back v)) = t := by
  have injective : Set.InjOn t.canonicalVar {v | v ∈ t.occurrences} := fun v hv w _ => canonicalVar_inj hv
  refine ⟨Function.invFunOn t.canonicalVar {v | v ∈ t.occurrences}, ?_⟩
  rw [canonicalize_eq, bind_bind]
  refine (bind_congr fun v hv => ?_).trans (bind_var t)
  exact congrArg var (injective.leftInvOn_invFunOn hv)

theorem canonicalize_canonicalize (t : Ty) : t.canonicalize.canonicalize = t.canonicalize :=
  canonicalize_rename fun _ hv _ _ => canonicalVar_inj hv

theorem bijOn_of_undone {back : TypeVar → TypeVar} (renamed : (l.bind fun v => .var (ρ v)) = r)
    (undone : (r.bind fun v => .var (back v)) = l) :
    Set.BijOn ρ {v | v ∈ l.vars} {v | v ∈ r.vars} := by
  have images : r.occurrences = l.occurrences.map ρ := by rw [← renamed, occurrences_rename]
  have inverse : ∀ v ∈ l.occurrences, back (ρ v) = v := by
    intro v hv
    rw [← renamed] at undone
    obtain ⟨w, first, second⟩ := exists_var_of_undone undone hv
    rw [← Ty.var.inj first] at second
    exact Ty.var.inj second
  simp only [mem_vars, images]
  refine ⟨fun v hv => List.mem_map_of_mem hv, fun v hv w hw same => ?_, fun w hw => List.mem_map.mp hw⟩
  rw [← inverse v hv, ← inverse w hw, same]

theorem exists_bijOn_of_alphaEquivalent (h : l.alphaEquivalent r = true) :
    ∃ ρ : TypeVar → TypeVar, Set.BijOn ρ {v | v ∈ l.vars} {v | v ∈ r.vars} ∧
      (l.bind fun v => .var (ρ v)) = r := by
  have same : l.canonicalize = r.canonicalize := of_decide_eq_true h
  obtain ⟨back, undone⟩ := exists_canonicalize_undone l
  obtain ⟨back', undone'⟩ := exists_canonicalize_undone r
  have forward : (l.bind fun v => .var (back' (l.canonicalVar v))) = r := by
    rw [← undone', ← same, canonicalize_eq l, bind_bind]
    rfl
  have backward : (r.bind fun v => .var (back (r.canonicalVar v))) = l := by
    rw [← undone, same, canonicalize_eq r, bind_bind]
    rfl
  exact ⟨_, bijOn_of_undone forward backward, forward⟩

theorem alphaEquivalent_of_injOn (injective : Set.InjOn ρ {v | v ∈ l.vars})
    (renamed : (l.bind fun v => .var (ρ v)) = r) : l.alphaEquivalent r = true := by
  refine decide_eq_true ?_
  rw [← renamed]
  exact (canonicalize_rename fun v hv w hw => injective (mem_vars.mpr hv) (mem_vars.mpr hw)).symm

end Ty

/-- Two types are equivalent exactly if some one-to-one replacement of the variables of the first by those
of the second, all at once, turns the first into the second. The canonical form of a type is equivalent to
it and its own canonical form. -/
theorem alphaEquivalent_iff_renamed :
    (∀ l r : Ty, l.alphaEquivalent r = true ↔
      ∃ ρ : TypeVar → TypeVar, Set.BijOn ρ {v | v ∈ l.vars} {v | v ∈ r.vars} ∧
        l.replace (l.vars.map fun v => (v, .var (ρ v))) = r) ∧
    ∀ t : Ty, t.canonicalize.alphaEquivalent t = true ∧ t.canonicalize.canonicalize = t.canonicalize := by
  have replaced : ∀ (l : Ty) (ρ : TypeVar → TypeVar),
      l.replace (l.vars.map fun v => (v, .var (ρ v))) = l.bind fun v => .var (ρ v) :=
    fun l ρ => Ty.replace_graph _ fun _ => Ty.mem_vars.mpr
  refine ⟨fun l r => ?_, fun t => ?_⟩
  · simp only [replaced]
    constructor
    · exact Ty.exists_bijOn_of_alphaEquivalent
    · rintro ⟨ρ, bijective, renamed⟩
      exact Ty.alphaEquivalent_of_injOn bijective.injOn renamed
  · exact ⟨decide_eq_true t.canonicalize_canonicalize, t.canonicalize_canonicalize⟩

-- The canonical names of the first type stand in it already, but for other variables.
example :
    let a := Ty.var (.named "a")
    let b := Ty.var (.named "b")
    (Ty.function b (.function a b)).alphaEquivalent (.function a (.function (.var (.fresh 0)) a)) = true ∧
      (Ty.function b (.function a b)).alphaEquivalent (.function a (.function b b)) = false := by
  decide

end OpCalculus
