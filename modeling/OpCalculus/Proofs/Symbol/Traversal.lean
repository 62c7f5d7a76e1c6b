import Mathlib
import OpCalculus.Proofs.Symbol.ExecutionOrder

/-!
# The search with a stack is the recursive traversal

`visit` lists a symbol and then, one after the other, what its dependencies lead to, skipping what was
visited before. A search with the dependencies on top of its stack first does what the recursive traversal
does and then goes on with the rest of the stack (`search_visitAll_append`).
-/

namespace OpCalculus

open Relation

namespace SymbolTable

variable {t : SymbolTable} {visited visited' stack : List String} {name x : String}

theorem unvisited_append_le (t : SymbolTable) (more visited : List String) :
    unvisited t.names (more ++ visited) ≤ unvisited t.names visited := by
  unfold unvisited
  rw [← List.countP_eq_length_filter, ← List.countP_eq_length_filter]
  apply List.countP_mono_left
  intro n _ outside
  simp only [List.mem_append, not_or, decide_eq_true_eq] at outside ⊢
  exact outside.2

mutual

/-- The recursive depth-first traversal from a name, in pre-order. -/
def visit (t : SymbolTable) (visited : List String) (name : String) : List String :=
  if t.contains name ∧ name ∉ visited then
    name :: t.visitAll (name :: visited) (t.dependencies name)
  else []
termination_by (unvisited t.names visited, 0)
decreasing_by
  rename_i new
  exact .left _ _ (unvisited_cons_lt (contains_iff.mp new.1) new.2)

/-- Traverses from several names; each one skips what those before it have listed. -/
def visitAll (t : SymbolTable) (visited : List String) : List String → List String
  | [] => []
  | name :: rest =>
      t.visit visited name ++ t.visitAll (t.visit visited name ++ visited) rest
termination_by names => (unvisited t.names visited, names.length + 1)
decreasing_by
  · exact .right _ (Nat.succ_pos _)
  · rcases Nat.lt_or_eq_of_le (unvisited_append_le t _ visited) with fewer | same
    · exact .left _ _ fewer
    · rw [same]
      exact .right _ (Nat.lt_succ_self _)

end

/-! ## The stack as a continuation -/

theorem search_nil (t : SymbolTable) (visited : List String) : t.search visited [] = [] := by
  rw [search, depthFirst]

theorem search_cons (t : SymbolTable) (visited : List String) (name : String) (stack : List String) :
    t.search visited (name :: stack) =
      if t.contains name ∧ name ∉ visited then
        name :: t.search (name :: visited) (t.dependencies name ++ stack)
      else t.search visited stack := by
  rw [search, depthFirst]
  simp only [contains_iff]
  rfl

theorem search_congr_visited (same : ∀ n, n ∈ visited ↔ n ∈ visited') :
    t.search visited stack = t.search visited' stack :=
  depthFirst_congr (fun _ => Iff.rfl) same

theorem search_visitAll_append (t : SymbolTable) (visited names stack : List String) :
    t.search visited (names ++ stack) =
      t.visitAll visited names ++ t.search (t.visitAll visited names ++ visited) stack := by
  -- One name on the stack is treated alongside, as the two traversals call each other.
  refine visitAll.induct t
    (fun visited name => ∀ stack, t.search visited (name :: stack) =
      t.visit visited name ++ t.search (t.visit visited name ++ visited) stack)
    (fun visited names => ∀ stack, t.search visited (names ++ stack) =
      t.visitAll visited names ++ t.search (t.visitAll visited names ++ visited) stack)
    ?_ ?_ ?_ ?_ visited names stack
  · intro visited name new ih stack
    rw [search_cons, if_pos new, visit, if_pos new, ih, List.cons_append]
    congr 2
    apply search_congr_visited
    intro n
    simp only [List.mem_append, List.mem_cons, or_left_comm, or_assoc]
  · intro visited name old stack
    rw [search_cons, if_neg old, visit, if_neg old, List.nil_append, List.nil_append]
  · intro visited stack
    rw [visitAll, List.nil_append, List.nil_append, List.nil_append]
  · intro visited name rest ihName ihRest stack
    rw [List.cons_append, ihName, ihRest, visitAll, List.append_assoc]
    congr 2
    apply search_congr_visited
    intro n
    simp only [List.mem_append, or_left_comm, or_assoc]

theorem allDependencies_eq_visitAll (t : SymbolTable) (name : String) :
    t.allDependencies name = t.visitAll [name] (t.dependencies name) := by
  have whole := search_visitAll_append t [name] (t.dependencies name) []
  rwa [List.append_nil, search_nil, List.append_nil] at whole

theorem visit_of_mem (registered : name ∈ t.names) : t.visit [] name = name :: t.allDependencies name := by
  rw [visit, if_pos ⟨contains_iff.mpr registered, List.not_mem_nil⟩, allDependencies_eq_visitAll]

theorem allDependencies_of_not_mem (unknown : name ∉ t.names) : t.allDependencies name = [] := by
  rw [allDependencies, dependencies_of_not_mem unknown, search_nil]

/-! ## What is listed -/

theorem not_mem_allDependencies (t : SymbolTable) (name : String) : name ∉ t.allDependencies name :=
  fun listed => (mem_depthFirst listed).2.1 (List.mem_singleton_self name)

theorem Consistent.mem_allDependencies (h : t.Consistent) :
    x ∈ t.allDependencies name ↔ TransGen t.DependsOn name x := by
  constructor
  · intro listed
    obtain ⟨-, -, m, declared, path⟩ := mem_depthFirst listed
    exact .head' declared path
  · intro depends
    induction depends with
    | @single y declared =>
        have new : y ≠ name := fun same => h.acyclic name (.single (same ▸ declared))
        have found : y ∈ [name] ∨ y ∈ t.allDependencies name :=
          mem_depthFirst_of_mem_stack declared (h.dependsOn declared).1
        exact found.resolve_left (mt List.mem_singleton.mp new)
    | @tail y z before declared ih =>
        have new : z ≠ name := fun same => h.acyclic name (before.tail (same ▸ declared))
        have found := depthFirst_closed ih declared (h.dependsOn declared).1
        exact found.resolve_left (mt List.mem_singleton.mp new)

theorem Consistent.closure_singleton (h : t.Consistent) (registered : name ∈ t.names) :
    (t.closure [name]).Perm (name :: t.allDependencies name) := by
  have walked := h.closure_perm_search (List.forall_mem_singleton.mpr registered)
  rwa [search_cons, if_pos ⟨contains_iff.mpr registered, List.not_mem_nil⟩, List.append_nil] at walked

theorem Consistent.executionOrder_singleton (h : t.Consistent) (registered : name ∈ t.names) :
    ∃ order, t.executionOrder [name] = .ok order ∧
      ∀ x, x ∈ t.allDependencies name ↔ x ∈ order ∧ x ≠ name := by
  obtain ⟨order, ok, -, mem⟩ := h.exists_executionOrder (List.forall_mem_singleton.mpr registered)
  refine ⟨order, ok, ?_⟩
  intro x
  simp only [mem, List.mem_singleton, exists_eq_left, h.mem_allDependencies,
    reflTransGen_iff_eq_or_transGen]
  constructor
  · intro depends
    exact ⟨.inr depends, fun same => h.acyclic name (same ▸ depends)⟩
  · intro ⟨path, other⟩
    exact path.resolve_left other

end SymbolTable

/-- The transitive dependencies of a symbol are listed in the pre-order of the recursive traversal, each once
and without the symbol. They are what it reaches by one or more declarations, what the closure of the symbol
lists besides it, and what runs before it. -/
theorem allDependencies_is_recursive_preorder {t : SymbolTable} (reachable : t.Reachable) (name : String) :
    (name ∈ t.names → t.visit [] name = name :: t.allDependencies name) ∧
    (name ∉ t.names → t.allDependencies name = []) ∧
    (t.allDependencies name).Nodup ∧ name ∉ t.allDependencies name ∧
    (∀ x, x ∈ t.allDependencies name ↔ TransGen t.DependsOn name x) ∧
    (name ∈ t.names → (t.closure [name]).Perm (name :: t.allDependencies name)) ∧
    (name ∈ t.names → ∃ order, t.executionOrder [name] = .ok order ∧
      ∀ x, x ∈ t.allDependencies name ↔ x ∈ order ∧ x ≠ name) := by
  have consistent := reachable.consistent
  refine ⟨SymbolTable.visit_of_mem, SymbolTable.allDependencies_of_not_mem, ?_, ?_, ?_, ?_, ?_⟩
  · exact nodup_depthFirst _ _ _ _
  · exact SymbolTable.not_mem_allDependencies t name
  · exact fun x => consistent.mem_allDependencies
  · exact consistent.closure_singleton
  · exact consistent.executionOrder_singleton

-- `base` is on the stack three times when it is visited, and the first branch goes down before the second.
theorem allDependencies_is_recursive_preorder_shared :
    let define (name : String) (level : Nat) (dependencies : List String) : SymbolDefinition :=
      { name, level, scheme := .mono (.function .number .number), executable := ⟨0, .ok⟩, dependencies }
    let t := (Registry.run [.register (define "base" 0 []), .register (define "left" 1 ["base"]),
      .register (define "right" 2 ["left", "base", "left"]),
      .register (define "top" 3 ["right", "base", "left"])]).table
    t.Reachable ∧ t.allDependencies "top" = ["right", "left", "base"] ∧
      t.visit [] "top" = ["top", "right", "left", "base"] ∧
      (∀ x, x ∈ ["right", "left", "base"] ↔ TransGen t.DependsOn "top" x) ∧
      t.closure ["top"] = ["top", "left", "base", "right"] ∧
      (t.closure ["top"]).Perm ["top", "right", "left", "base"] ∧
      t.executionOrder ["top"] = .ok ["base", "left", "right", "top"] ∧ t.allDependencies "lost" = [] := by
  intro define t
  have reachable : t.Reachable := ⟨_, rfl⟩
  have listed : t.allDependencies "top" = ["right", "left", "base"] := by
    simp only [t, define]
    cbv
  have closed : t.closure ["top"] = ["top", "left", "base", "right"] := by
    simp only [t, define]
    cbv
  have ordered : t.executionOrder ["top"] = .ok ["base", "left", "right", "top"] := by
    simp only [t, define]
    cbv
  have known : "top" ∈ t.names := by decide +kernel
  obtain ⟨preorder, -, -, -, reached, walked, -⟩ := allDependencies_is_recursive_preorder reachable "top"
  rw [listed] at preorder reached walked
  refine ⟨reachable, listed, preorder known, reached, closed, walked known, ordered, ?_⟩
  exact (allDependencies_is_recursive_preorder reachable "lost").2.1 (by decide +kernel)

end OpCalculus
