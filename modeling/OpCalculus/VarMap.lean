import OpCalculus.Lookup
import OpCalculus.TypeVar

/-!
# Finite maps from type variables

The entries of a map are kept in variable order, each variable at most once, so a map is determined
by its look-ups (`VarMap.ext_get?`).
-/

namespace OpCalculus

/-- A finite map from type variables, its entries in variable order. -/
@[ext] structure VarMap (α : Type) where
  entries : List (TypeVar × α)
  ascending : entries.Pairwise fun p q => p.1 < q.1
  deriving DecidableEq, Repr

namespace VarMap

variable {α β : Type}

def empty : VarMap α := ⟨[], .nil⟩

def get? (m : VarMap α) (v : TypeVar) : Option α := m.entries.lookup v

def contains (m : VarMap α) (v : TypeVar) : Bool := (m.get? v).isSome

def isEmpty (m : VarMap α) : Bool := m.entries.isEmpty

/-- Applies a function to every value. -/
def map (f : α → β) (m : VarMap α) : VarMap β where
  entries := m.entries.map fun p => (p.1, f p.2)
  ascending := List.pairwise_map.mpr m.ascending

/-! ## Adding entries -/

/-- Adds an entry to an ascending list at its place, unless the variable has one. -/
def insertEntry (v : TypeVar) (a : α) : List (TypeVar × α) → List (TypeVar × α)
  | [] => [(v, a)]
  | p :: l =>
      if v < p.1 then (v, a) :: p :: l else if v = p.1 then p :: l else p :: insertEntry v a l

theorem fst_of_mem_insertEntry {v : TypeVar} {a : α} {l : List (TypeVar × α)} {p : TypeVar × α}
    (h : p ∈ insertEntry v a l) : p.1 = v ∨ p ∈ l := by
  induction l with
  | nil => simp_all [insertEntry]
  | cons q l ih =>
      unfold insertEntry at h
      split at h
      · rcases List.mem_cons.mp h with rfl | h
        · exact .inl rfl
        · exact .inr h
      split at h
      · exact .inr h
      · rcases List.mem_cons.mp h with rfl | h
        · exact .inr (by simp)
        · exact (ih h).imp_right (List.mem_cons_of_mem _)

theorem insertEntry_ascending {v : TypeVar} {a : α} {l : List (TypeVar × α)}
    (h : l.Pairwise fun p q => p.1 < q.1) :
    (insertEntry v a l).Pairwise fun p q => p.1 < q.1 := by
  induction l with
  | nil => simp [insertEntry]
  | cons p l ih =>
      have tail := List.pairwise_cons.mp h
      unfold insertEntry
      split
      · rename_i below
        refine List.pairwise_cons.mpr ⟨?_, h⟩
        intro q hq
        rcases List.mem_cons.mp hq with rfl | hq
        · exact below
        · exact TypeVar.lt_trans below (tail.1 q hq)
      split
      · exact h
      · rename_i notBelow notEqual
        refine List.pairwise_cons.mpr ⟨?_, ih tail.2⟩
        intro q hq
        rcases fst_of_mem_insertEntry hq with hv | hq
        · rcases TypeVar.lt_trichotomy v p.1 with lt | eq | gt
          · exact absurd lt notBelow
          · exact absurd eq notEqual
          · exact hv ▸ gt
        · exact tail.1 q hq

/-- Adds an entry, unless the variable has one. -/
def insertNew (m : VarMap α) (v : TypeVar) (a : α) : VarMap α where
  entries := insertEntry v a m.entries
  ascending := insertEntry_ascending m.ascending

/-- Adds the entries of a second map for the variables that the first one lacks. -/
def union (m n : VarMap α) : VarMap α := n.entries.foldl (fun m p => m.insertNew p.1 p.2) m

/-! ## Look-up -/

@[simp] theorem get?_empty (v : TypeVar) : (empty : VarMap α).get? v = none := rfl

@[simp] theorem get?_map (f : α → β) (m : VarMap α) (v : TypeVar) :
    (m.map f).get? v = (m.get? v).map f := by
  change (m.entries.map fun p => (p.1, f p.2)).lookup v = (m.entries.lookup v).map f
  induction m.entries with
  | nil => rfl
  | cons p l ih =>
      rw [List.map_cons, lookup_cons, lookup_cons, ih]
      split <;> rfl

theorem lookup_eq_none_of_lt {v : TypeVar} {l : List (TypeVar × α)} (h : ∀ p ∈ l, v < p.1) :
    l.lookup v = none := by
  induction l with
  | nil => rfl
  | cons p l ih =>
      rw [lookup_cons, if_neg (TypeVar.ne_of_lt (h p (by simp)))]
      exact ih fun q hq => h q (List.mem_cons_of_mem _ hq)

theorem lookup_insertEntry {v w : TypeVar} {a : α} {l : List (TypeVar × α)}
    (h : l.Pairwise fun p q => p.1 < q.1) :
    (insertEntry v a l).lookup w =
      (l.lookup w).or (if w = v then some a else none) := by
  induction l with
  | nil => simp [insertEntry, lookup_cons]
  | cons p l ih =>
      have tail := List.pairwise_cons.mp h
      unfold insertEntry
      split
      · rename_i below
        have absent : (p :: l).lookup v = none := lookup_eq_none_of_lt fun q hq => by
          rcases List.mem_cons.mp hq with rfl | hq
          · exact below
          · exact TypeVar.lt_trans below (tail.1 q hq)
        rw [lookup_cons]
        by_cases hw : w = v
        · subst hw
          simp [absent]
        · simp [hw]
      split
      · rename_i equal
        subst equal
        rw [lookup_cons]
        by_cases hw : w = p.1 <;> simp [hw]
      · rename_i notBelow notEqual
        rw [lookup_cons, lookup_cons, ih tail.2]
        by_cases hw : w = p.1 <;> simp [hw]

theorem get?_insertNew (m : VarMap α) (v w : TypeVar) (a : α) :
    (m.insertNew v a).get? w = (m.get? w).or (if w = v then some a else none) :=
  lookup_insertEntry m.ascending

theorem get?_foldl_insertNew (l : List (TypeVar × α)) (m : VarMap α) (w : TypeVar) :
    (l.foldl (fun m p => m.insertNew p.1 p.2) m).get? w = (m.get? w).or (l.lookup w) := by
  induction l generalizing m with
  | nil => simp
  | cons p l ih =>
      rw [List.foldl_cons, ih, get?_insertNew, Option.or_assoc, lookup_cons]
      by_cases hw : w = p.1 <;> simp [hw]

@[simp] theorem get?_union (m n : VarMap α) (w : TypeVar) :
    (m.union n).get? w = (m.get? w).or (n.get? w) :=
  get?_foldl_insertNew n.entries m w

theorem get?_eq_some_of_mem {m : VarMap α} {p : TypeVar × α} (h : p ∈ m.entries) :
    m.get? p.1 = some p.2 := by
  have asc := m.ascending
  unfold get?
  generalize m.entries = l at h asc
  induction l with
  | nil => simp at h
  | cons q l ih =>
      have tail := List.pairwise_cons.mp asc
      rcases List.mem_cons.mp h with rfl | h
      · simp [lookup_cons]
      · have ne : p.1 ≠ q.1 := (TypeVar.ne_of_lt (tail.1 p h)).symm
        rw [lookup_cons, if_neg ne]
        exact ih h tail.2

theorem mem_of_get?_eq_some {m : VarMap α} {v : TypeVar} {a : α} (h : m.get? v = some a) :
    (v, a) ∈ m.entries := by
  obtain ⟨l₁, l₂, eq, -⟩ := List.lookup_eq_some_iff.mp h
  simp [eq]

theorem eq_of_lookup_eq {l m : List (TypeVar × α)} (hl : l.Pairwise fun p q => p.1 < q.1)
    (hm : m.Pairwise fun p q => p.1 < q.1) (h : ∀ v, l.lookup v = m.lookup v) : l = m := by
  induction l generalizing m with
  | nil =>
      cases m with
      | nil => rfl
      | cons q m => simpa [lookup_cons] using h q.1
  | cons p l ih =>
      cases m with
      | nil => simpa [lookup_cons] using h p.1
      | cons q m =>
          have tailₗ := List.pairwise_cons.mp hl
          have tailₘ := List.pairwise_cons.mp hm
          have first : p.1 = q.1 := by
            rcases TypeVar.lt_trichotomy p.1 q.1 with lt | eq | gt
            · have absent : (q :: m).lookup p.1 = none := lookup_eq_none_of_lt fun r hr => by
                rcases List.mem_cons.mp hr with rfl | hr
                · exact lt
                · exact TypeVar.lt_trans lt (tailₘ.1 r hr)
              have := h p.1
              rw [lookup_cons, if_pos rfl, absent] at this
              cases this
            · exact eq
            · have absent : (p :: l).lookup q.1 = none := lookup_eq_none_of_lt fun r hr => by
                rcases List.mem_cons.mp hr with rfl | hr
                · exact gt
                · exact TypeVar.lt_trans gt (tailₗ.1 r hr)
              have := h q.1
              rw [lookup_cons q.1 q, if_pos rfl, absent] at this
              cases this
          have value : p.2 = q.2 := by
            have := h p.1
            rw [lookup_cons, lookup_cons, if_pos rfl, if_pos first] at this
            exact Option.some.inj this
          have tails : l = m := ih tailₗ.2 tailₘ.2 fun v => by
            by_cases hv : v = p.1
            · subst hv
              rw [lookup_eq_none_of_lt tailₗ.1, lookup_eq_none_of_lt (first ▸ tailₘ.1)]
            · have := h v
              rwa [lookup_cons, lookup_cons, if_neg hv, if_neg (first ▸ hv)] at this
          rw [Prod.ext first value, tails]

/-- A map is determined by its look-ups. -/
theorem ext_get? {m n : VarMap α} (h : ∀ v, m.get? v = n.get? v) : m = n :=
  VarMap.ext (eq_of_lookup_eq m.ascending n.ascending h)

end VarMap

end OpCalculus
