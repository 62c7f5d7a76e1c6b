import Mathlib
import OpCalculus.Proofs.Operation.Bracketing

/-!
# The cost of compositions

The class of a composition is rounded up at every node, so it depends on the bracketing and may exceed the
class of the exact sum of powers. It is never below it: rounding up gives the least class that dominates
given powers (`roundUp_le_iff`), and what two classes dominate, their combination dominates together
(`Dominates.combine`).
-/

namespace OpCalculus

namespace Complexity

variable {a b c d : Complexity} {p q : Nat × Nat}

/-- Costs with the given powers of `n` and of `log n` are within the class. Powers of `n` count first, and no
powers are too high for the classes without exact powers. -/
def Dominates (c : Complexity) (p : Nat × Nat) : Prop :=
  polynomial ≤ c ∨ ∃ q, c.exponents = some q ∧ toLex p ≤ toLex q

/-! ## Rounding up -/

theorem le_iff : a ≤ b ↔ a.rank ≤ b.rank := Iff.rfl

theorem le_trans (h : a ≤ b) (h' : b ≤ c) : a ≤ c := Nat.le_trans h h'

theorem le_exponential (c : Complexity) : c ≤ exponential := by
  cases c <;> decide

theorem exponential_le : exponential ≤ c ↔ c = exponential := by
  cases c <;> simp [le_iff, rank]

theorem exponents_eq_none : c.exponents = none ↔ c = exponential := by
  cases c <;> simp [exponents]

theorem mem_bounded : (c, p) ∈ bounded ↔ c.exponents = some p ∧ ¬ polynomial ≤ c := by
  cases c <;> simp [bounded, exponents, le_iff, rank, eq_comm]

theorem bounded_ascending : bounded.Pairwise fun x y => x.1 ≤ y.1 := by
  decide

theorem dominates_roundUp (p : Nat × Nat) : (roundUp p.1 p.2).Dominates p := by
  unfold roundUp
  split
  · rename_i c d l found
    obtain ⟨exact', -⟩ := mem_bounded.mp (List.mem_of_find?_eq_some found)
    have fits := List.find?_some found
    refine .inr ⟨(d, l), exact', Prod.Lex.toLex_le_toLex.mpr ?_⟩
    simp at fits
    omega
  · exact .inl (Nat.le_refl _)

theorem roundUp_le_polynomial (p : Nat × Nat) : roundUp p.1 p.2 ≤ polynomial := by
  unfold roundUp
  split
  · rename_i c d l found
    obtain ⟨-, below⟩ := mem_bounded.mp (List.mem_of_find?_eq_some found)
    exact Nat.le_of_not_le below
  · exact Nat.le_refl _

theorem roundUp_le_of_dominates (h : c.Dominates p) : roundUp p.1 p.2 ≤ c := by
  by_cases above : polynomial ≤ c
  · exact le_trans (roundUp_le_polynomial p) above
  obtain ⟨q, exact', fits⟩ := h.resolve_left above
  have listed : (c, q) ∈ bounded := mem_bounded.mpr ⟨exact', above⟩
  rw [Prod.Lex.toLex_le_toLex] at fits
  unfold roundUp
  split
  · rename_i k d l found
    obtain ⟨-, before, after, split, earlier⟩ := List.find?_eq_some_iff_append.mp found
    have ascending := bounded_ascending
    rw [split] at listed ascending
    rcases List.mem_append.mp listed with early | late
    · have unfit := earlier _ early
      simp at unfit
      omega
    · rcases List.mem_cons.mp late with same | late
      · cases same
        exact Nat.le_refl _
      · exact (List.pairwise_cons.mp (List.pairwise_append.mp ascending).2.1).1 _ late
  · rename_i missing
    have unfit := List.find?_eq_none.mp missing _ listed
    simp at unfit
    omega

theorem exponents_mono (h : a ≤ b) (ha : a.exponents = some p) (hb : b.exponents = some q) :
    toLex p ≤ toLex q := by
  cases a <;> cases b <;> cases ha <;> cases hb <;> revert h <;> decide

theorem Dominates.mono (h : c.Dominates p) (le : c ≤ d) : d.Dominates p := by
  rcases h with above | ⟨q, powers, fits⟩
  · exact .inl (le_trans above le)
  · cases powers' : d.exponents with
    | none =>
        rw [exponents_eq_none.mp powers']
        exact .inl (le_exponential _)
    | some r => exact .inr ⟨r, powers', fits.trans (exponents_mono le powers powers')⟩

theorem Dominates.anti (h : c.Dominates q) (le : toLex p ≤ toLex q) : c.Dominates p :=
  h.imp_right fun ⟨r, powers, fits⟩ => ⟨r, powers, le.trans fits⟩

theorem roundUp_le_iff : roundUp p.1 p.2 ≤ c ↔ c.Dominates p :=
  ⟨(dominates_roundUp p).mono, roundUp_le_of_dominates⟩

theorem isLeast_roundUp (p : Nat × Nat) : IsLeast {c : Complexity | c.Dominates p} (roundUp p.1 p.2) :=
  ⟨dominates_roundUp p, fun _ => roundUp_le_of_dominates⟩

theorem roundUp_exponents (h : c.exponents = some p) : roundUp p.1 p.2 = c := by
  cases c <;> cases h <;> rfl

theorem le_iff_dominates (h : c.exponents = some p) : c ≤ d ↔ d.Dominates p := by
  rw [← roundUp_le_iff, roundUp_exponents h]

/-! ## Two operations -/

theorem combine_cases (a b : Complexity) :
    ((a = exponential ∨ b = exponential) ∧ a.combine b = exponential) ∨
      ∃ p q, a.exponents = some p ∧ b.exponents = some q ∧ a.combine b = roundUp (p + q).1 (p + q).2 := by
  unfold combine
  cases ha : a.exponents with
  | none => exact .inl ⟨.inl (exponents_eq_none.mp ha), rfl⟩
  | some p =>
      cases hb : b.exponents with
      | none => exact .inl ⟨.inr (exponents_eq_none.mp hb), rfl⟩
      | some q => exact .inr ⟨p, q, rfl, rfl, rfl⟩

theorem combine_eq_exponential : a.combine b = exponential ↔ a = exponential ∨ b = exponential := by
  rcases combine_cases a b with ⟨absorbed, equal⟩ | ⟨p, q, ha, hb, equal⟩
  · exact iff_of_true equal absorbed
  · have known : ¬ (a = exponential ∨ b = exponential) := by simp [← exponents_eq_none, ha, hb]
    refine iff_of_false (fun absorbs => ?_) known
    have bound := roundUp_le_polynomial (p + q)
    rw [← equal, absorbs] at bound
    exact absurd bound (by decide)

theorem le_combine (a b : Complexity) : a ≤ a.combine b ∧ b ≤ a.combine b := by
  rcases combine_cases a b with ⟨-, equal⟩ | ⟨p, q, ha, hb, equal⟩
  · rw [equal]
    exact ⟨le_exponential a, le_exponential b⟩
  · have sum := dominates_roundUp (p + q)
    rw [← equal] at sum
    refine ⟨(le_iff_dominates ha).mpr (sum.anti ?_), (le_iff_dominates hb).mpr (sum.anti ?_)⟩ <;>
      rw [Prod.Lex.toLex_le_toLex, Prod.fst_add, Prod.snd_add] <;> omega

theorem Dominates.combine (ha : a.Dominates p) (hb : b.Dominates q) : (a.combine b).Dominates (p + q) := by
  obtain ⟨left, right⟩ := le_combine a b
  rcases ha with above | ⟨p', powers, fits⟩
  · exact .inl (le_trans above left)
  rcases hb with above | ⟨q', powers', fits'⟩
  · exact .inl (le_trans above right)
  rcases combine_cases a b with ⟨-, equal⟩ | ⟨_, _, ha, hb, equal⟩
  · rw [equal]
    exact .inl (le_exponential _)
  · cases powers.symm.trans ha
    cases powers'.symm.trans hb
    rw [equal]
    exact (dominates_roundUp (p' + q')).anti (add_le_add fits fits')

theorem combine_mono {a' b' : Complexity} (ha : a ≤ a') (hb : b ≤ b') : a.combine b ≤ a'.combine b' := by
  have top {c d : Complexity} (le : c ≤ d) (absorbs : c = exponential) : d = exponential :=
    exponential_le.mp (absorbs ▸ le)
  rcases combine_cases a b with ⟨absorbed, -⟩ | ⟨p, q, powers, powers', equal⟩
  · rw [combine_eq_exponential.mpr (absorbed.imp (top ha) (top hb))]
    exact le_exponential _
  · rw [equal, roundUp_le_iff]
    exact ((le_iff_dominates powers).mp ha).combine ((le_iff_dominates powers').mp hb)

end Complexity

namespace Operation

open Complexity

/-- The sum of the powers of `n` and of `log n` of all operations, as far as they have any. -/
def exactPowers (ops : List Operation) : Nat × Nat :=
  (ops.map fun op => (op.complexity.bind exponents).getD 0).sum

/-- The costs of both operations are known, and the first is at most the second. -/
def CostsAtMost (f g : Operation) : Prop :=
  ∃ a b, f.complexity = some a ∧ g.complexity = some b ∧ a ≤ b

/-- A class that covers the costs of operations in sequence. -/
structure Bounds (ops : List Operation) (c : Complexity) : Prop where
  exponential : c = .exponential ↔ ∃ f ∈ ops, f.complexity = some .exponential
  dominates : c.Dominates (exactPowers ops)
  member : ∀ f ∈ ops, ∀ a, f.complexity = some a → a ≤ c

variable {f g op : Operation} {ops ops' : List Operation} {id : Nat} {a b c : Complexity}

theorem complexity_of_andThen (h : f.andThen id g = .ok op) : op.complexity = f.combinedComplexity g := by
  obtain ⟨-, rfl⟩ := andThen_eq_ok.mp h
  rfl

theorem combinedComplexity_eq_some : f.combinedComplexity g = some c ↔
    ∃ a b, f.complexity = some a ∧ g.complexity = some b ∧ a.combine b = c := by
  unfold combinedComplexity
  cases f.complexity <;> cases g.complexity <;> simp

theorem combinedComplexity_eq_none : f.combinedComplexity g = none ↔ f.complexity = none ∨ g.complexity = none := by
  unfold combinedComplexity
  cases f.complexity <;> cases g.complexity <;> simp

theorem exactPowers_append (ops ops' : List Operation) :
    exactPowers (ops ++ ops') = exactPowers ops + exactPowers ops' := by
  simp [exactPowers]

theorem bounds_singleton (known : op.complexity = some c) : Bounds [op] c where
  exponential := by simp [known]
  dominates := by
    have powers : exactPowers [op] = c.exponents.getD 0 := by simp [exactPowers, known]
    rw [powers]
    cases own : c.exponents with
    | none => exact .inl (exponents_eq_none.mp own ▸ le_exponential _)
    | some p => exact .inr ⟨p, own, le_refl _⟩
  member f hf a ha := by
    obtain rfl := List.mem_singleton.mp hf
    cases known.symm.trans ha
    exact Nat.le_refl _

theorem Bounds.combine (hf : Bounds ops a) (hg : Bounds ops' b) : Bounds (ops ++ ops') (a.combine b) where
  exponential := by
    simp only [combine_eq_exponential, hf.exponential, hg.exponential, List.mem_append, or_and_right, exists_or]
  dominates := by
    rw [exactPowers_append]
    exact hf.dominates.combine hg.dominates
  member f h c hc := by
    obtain ⟨left, right⟩ := le_combine a b
    rcases List.mem_append.mp h with h | h
    · exact le_trans (hf.member f h c hc) left
    · exact le_trans (hg.member f h c hc) right

theorem CostsAtMost.andThen {f' g' op' : Operation} {id' : Nat} (hf : f.CostsAtMost f') (hg : g.CostsAtMost g')
    (h : f.andThen id g = .ok op) (h' : f'.andThen id' g' = .ok op') : op.CostsAtMost op' := by
  obtain ⟨a, a', known, known', le⟩ := hf
  obtain ⟨b, b', known₂, known₂', le₂⟩ := hg
  refine ⟨a.combine b, a'.combine b', ?_, ?_, combine_mono le le₂⟩
  · rw [complexity_of_andThen h, combinedComplexity_eq_some]
    exact ⟨a, b, known, known₂, rfl⟩
  · rw [complexity_of_andThen h', combinedComplexity_eq_some]
    exact ⟨a', b', known', known₂', rfl⟩

end Operation

/-! ## Compositions -/

namespace Bracketing

open Operation

variable {b c b' : Bracketing} {op op' : Operation} {k : Complexity} {ops ops' : List Operation}

/-- Composes further operations behind a composition, one by one, numbered from `id` on. -/
def followedBy (b : Bracketing) (id : Nat) : List Operation → Bracketing
  | [] => b
  | op :: rest => (join id b (single op)).followedBy (id + 1) rest

/-- Compositions of the same form, the costs of the operations in the first at most those in the second. -/
inductive Cheaper : Bracketing → Bracketing → Prop
  | single {f f' : Operation} : f.CostsAtMost f' → Cheaper (.single f) (.single f')
  | join {id id' : Nat} {b c b' c' : Bracketing} :
      Cheaper b b' → Cheaper c c' → Cheaper (.join id b c) (.join id' b' c')

theorem operations_followedBy (b : Bracketing) (id : Nat) (ops : List Operation) :
    (b.followedBy id ops).operations = b.operations ++ ops := by
  induction ops generalizing b id with
  | nil => simp [followedBy]
  | cons op rest ih => simp [followedBy, ih, operations]

theorem Cheaper.followedBy {id id' : Nat} (h : Cheaper b b') (rest : List.Forall₂ CostsAtMost ops ops') :
    Cheaper (b.followedBy id ops) (b'.followedBy id' ops') := by
  induction rest generalizing b b' id id' with
  | nil => exact h
  | cons first _ ih => exact ih (.join h (.single first))

theorem complexity_eq_none_iff (h : b.build = .ok op) :
    op.complexity = none ↔ ∃ f ∈ b.operations, f.complexity = none := by
  induction b generalizing op with
  | single f =>
      cases h
      simp [operations]
  | join id first second ihFirst ihSecond =>
      obtain ⟨f, g, hf, hg, ok⟩ := build_join_eq_ok.mp h
      rw [complexity_of_andThen ok, combinedComplexity_eq_none, ihFirst hf, ihSecond hg]
      simp only [operations, List.mem_append, or_and_right, exists_or]

theorem bounds_of_build (h : b.build = .ok op) (known : op.complexity = some k) : Bounds b.operations k := by
  induction b generalizing op k with
  | single f =>
      cases h
      exact bounds_singleton known
  | join id first second ihFirst ihSecond =>
      obtain ⟨f, g, hf, hg, ok⟩ := build_join_eq_ok.mp h
      rw [complexity_of_andThen ok, combinedComplexity_eq_some] at known
      obtain ⟨a, b, knownFirst, knownSecond, rfl⟩ := known
      exact (ihFirst hf knownFirst).combine (ihSecond hg knownSecond)

theorem Cheaper.costsAtMost (h : Cheaper b b') (built : b.build = .ok op) (built' : b'.build = .ok op') :
    op.CostsAtMost op' := by
  induction h generalizing op op' with
  | single le =>
      cases built
      cases built'
      exact le
  | join _ _ ihFirst ihSecond =>
      obtain ⟨f, g, hf, hg, ok⟩ := build_join_eq_ok.mp built
      obtain ⟨f', g', hf', hg', ok'⟩ := build_join_eq_ok.mp built'
      exact (ihFirst hf hf').andThen (ihSecond hg hg') ok ok'

end Bracketing

open Operation

/-- Operations that fit together, composed from left to right, have a known cost if all of them have one. It
is exponential if one of them is, and at least the least class for their exact powers together, at least
each of them, and at most that of other operations in their places that cost no less. -/
theorem pipeline_cost_not_underestimated (id : Nat) (first : Operation) (rest : List Operation)
    (chained : (first :: rest).IsChain fun f g => f.output.flowsInto g.input) :
    ∃ op, ((Bracketing.single first).followedBy id rest).build = .ok op ∧
      (op.complexity = none ↔ ∃ f ∈ first :: rest, f.complexity = none) ∧
      (∀ c, op.complexity = some c →
        (c = .exponential ↔ ∃ f ∈ first :: rest, f.complexity = some .exponential) ∧
        (∃ least, IsLeast {k : Complexity | k.Dominates (exactPowers (first :: rest))} least ∧ least ≤ c) ∧
        ∀ f ∈ first :: rest, ∀ a, f.complexity = some a → a ≤ c) ∧
      ∀ id' first' rest' op', List.Forall₂ CostsAtMost (first :: rest) (first' :: rest') →
        ((Bracketing.single first').followedBy id' rest').build = .ok op' → op.CostsAtMost op' := by
  have operations : ((Bracketing.single first).followedBy id rest).operations = first :: rest :=
    Bracketing.operations_followedBy _ id rest
  obtain ⟨op, built⟩ := (Bracketing.build_eq_ok_iff _).mpr (operations ▸ chained)
  refine ⟨op, built, ?_, fun c known => ?_, fun id' first' rest' op' costs built' => ?_⟩
  · rw [Bracketing.complexity_eq_none_iff built, operations]
  · have bounds := Bracketing.bounds_of_build built known
    rw [operations] at bounds
    exact ⟨bounds.exponential, ⟨_, Complexity.isLeast_roundUp _, Complexity.roundUp_le_iff.mpr bounds.dominates⟩,
      bounds.member⟩
  · obtain ⟨head, tail⟩ := List.forall₂_cons.mp costs
    exact ((Bracketing.Cheaper.single head).followedBy tail).costsAtMost built built'

-- Rounded at every step, three logarithms cost more than the least class for their product.
theorem pipeline_cost_not_underestimated_logarithms :
    let step (name : String) (k : Complexity) : Operation :=
      { name, input := .number, output := .int, executable := ⟨0, .identity⟩, complexity := some k }
    let f := step "f" .logarithmic
    let g := step "g" .logarithmic
    let h := step "h" .logarithmic
    let slow := step "slow" .cubic
    ([f, g, h].IsChain fun f g => f.output.flowsInto g.input) ∧
      List.Forall₂ CostsAtMost [f, g, h] [f, slow, h] ∧
      ∃ op op', ((Bracketing.single f).followedBy 1 [g, h]).build = .ok op ∧
        ((Bracketing.single f).followedBy 1 [slow, h]).build = .ok op' ∧
        op.complexity = some .linearithmic ∧ op'.complexity = some .polynomial ∧ op.CostsAtMost op' ∧
        exactPowers [f, g, h] = (0, 3) ∧ IsLeast {k : Complexity | k.Dominates (0, 3)} .linear ∧
        ∃ least, IsLeast {k : Complexity | k.Dominates (0, 3)} least ∧ least ≤ .linearithmic := by
  intro step f g h slow
  have flows : Ty.int.flowsInto .number = true := by decide +kernel
  have costs : List.Forall₂ CostsAtMost [f, g, h] [f, slow, h] := by
    have same : f.CostsAtMost f := ⟨_, _, rfl, rfl, by decide⟩
    have more : g.CostsAtMost slow := ⟨_, _, rfl, rfl, by decide⟩
    exact .cons same (.cons more (.cons same .nil))
  have chained : [f, g, h].IsChain fun f g => f.output.flowsInto g.input :=
    .cons_cons flows (.cons_cons flows (.singleton h))
  have join {id : Nat} {b : Bracketing} {p q : Operation} (hb : b.build = .ok p)
      (flows : p.output.flowsInto q.input = true) : (Bracketing.join id b (.single q)).build = .ok _ :=
    Bracketing.build_join_eq_ok.mpr ⟨p, q, hb, rfl, andThen_eq_ok.mpr ⟨flows, rfl⟩⟩
  have fast : ((Bracketing.single f).followedBy 1 [g, h]).build = .ok _ := join (join rfl flows) flows
  have heavy : ((Bracketing.single f).followedBy 1 [slow, h]).build = .ok _ := join (join rfl flows) flows
  obtain ⟨op, built, -, bounds, monotone⟩ := pipeline_cost_not_underestimated 1 f [g, h] chained
  have same := Except.ok.inj (built.symm.trans fast)
  have known : op.complexity = some .linearithmic := congrArg complexity same
  obtain ⟨-, least, -⟩ := bounds _ known
  exact ⟨chained, costs, op, _, built, heavy, known, rfl, monotone _ _ _ _ costs heavy, rfl,
    Complexity.isLeast_roundUp (0, 3), least⟩

end OpCalculus
