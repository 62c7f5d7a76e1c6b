/-!
# Distinct elements

`distinct l` lists the elements of `l` once each, in order of first occurrence. Counting distinct
elements respects inclusion of the underlying lists, strictly so when an element is lost.
-/

namespace OpCalculus

variable {α : Type} [DecidableEq α]

/-- The elements of a list without repetition, in order of first occurrence. -/
def distinct : List α → List α
  | [] => []
  | a :: l => a :: (distinct l).filter (· ≠ a)

@[simp] theorem mem_distinct {a : α} {l : List α} : a ∈ distinct l ↔ a ∈ l := by
  induction l with
  | nil => simp [distinct]
  | cons b l ih => by_cases h : a = b <;> simp [distinct, h, ih]

theorem nodup_distinct (l : List α) : (distinct l).Nodup := by
  induction l with
  | nil => simp [distinct]
  | cons b l ih =>
      rw [distinct, List.nodup_cons]
      exact ⟨by simp, ih.filter _⟩

theorem distinct_map {β : Type} [DecidableEq β] {f : α → β} {l : List α}
    (inj : ∀ a ∈ l, ∀ b ∈ l, f a = f b → a = b) : distinct (l.map f) = (distinct l).map f := by
  induction l with
  | nil => rfl
  | cons a l ih =>
      have rest := ih fun b hb c hc => inj b (List.mem_cons_of_mem _ hb) c (List.mem_cons_of_mem _ hc)
      rw [List.map_cons, distinct, rest, List.filter_map, distinct, List.map_cons]
      refine congrArg _ (congrArg _ (List.filter_congr fun b hb => ?_))
      have same : f b = f a ↔ b = a :=
        ⟨inj b (List.mem_cons_of_mem _ (mem_distinct.mp hb)) a (List.mem_cons_self ..), congrArg f⟩
      simp [same]

theorem length_distinct_le {l m : List α} (h : l ⊆ m) :
    (distinct l).length ≤ (distinct m).length :=
  (nodup_distinct l).length_le_of_subset fun a ha => by
    simpa using h (mem_distinct.mp ha)

theorem length_distinct_lt {l m : List α} {a : α} (h : l ⊆ m) (ha : a ∈ m) (lost : a ∉ l) :
    (distinct l).length < (distinct m).length := by
  have nodup : (a :: distinct l).Nodup := by simp [lost, nodup_distinct]
  have sub : a :: distinct l ⊆ distinct m := by
    intro b hb
    rcases List.mem_cons.mp hb with rfl | hb
    · simpa using ha
    · simpa using h (mem_distinct.mp hb)
  exact nodup.length_le_of_subset sub

end OpCalculus
