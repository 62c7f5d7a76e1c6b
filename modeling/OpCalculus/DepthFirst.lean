/-!
# Depth-first search

`depthFirst known next` takes elements off a stack. It lists each known one that was not visited before
and puts what comes next to it on top of the stack. It ends because every visit uses up a known element.
-/

namespace OpCalculus

variable {α : Type} [DecidableEq α]

/-- The number of known elements that were not visited. -/
def unvisited (known visited : List α) : Nat := (known.filter (· ∉ visited)).length

theorem unvisited_cons_lt {known visited : List α} {a : α} (mem : a ∈ known) (new : a ∉ visited) :
    unvisited known (a :: visited) < unvisited known visited := by
  have split : known.filter (· ∉ a :: visited) =
      (known.filter (· ∉ visited)).filter (· ≠ a) := by
    rw [List.filter_filter]
    exact List.filter_congr fun b _ => by simp
  rw [unvisited, unvisited, split, List.length_filter_lt_length_iff_exists]
  exact ⟨a, by simp [mem, new], by simp⟩

/-- Visits the elements of a stack and what comes next to them, depth first, and lists the known
elements that were not visited before. -/
def depthFirst (known : List α) (next : α → List α) (visited : List α) : List α → List α
  | [] => []
  | a :: stack =>
      if a ∈ known ∧ a ∉ visited then
        a :: depthFirst known next (a :: visited) (next a ++ stack)
      else depthFirst known next visited stack
termination_by stack => (unvisited known visited, stack.length)
decreasing_by
  · rename_i h
    exact .left _ _ (unvisited_cons_lt h.1 h.2)
  · exact .right _ (Nat.lt_succ_self _)

end OpCalculus
