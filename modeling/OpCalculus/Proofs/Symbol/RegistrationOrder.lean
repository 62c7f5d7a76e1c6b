import Mathlib
import OpCalculus.Proofs.Inference.Locality
import OpCalculus.Proofs.Symbol.ExecutionOrder

/-!
# The order of registration

Two reachable tables with the same definitions find the same definition under every name. Every query is a
function of these findings, up to the order among symbols of one level: that order is the only trace of the
order of registration.
-/

namespace OpCalculus

open Relation

/-- The batches are on one level and hold the same symbols. -/
def Batch.SameSymbols (b b' : Batch) : Prop := b.level = b'.level ∧ b.symbols.Perm b'.symbols

namespace SymbolTable

variable {t t' : SymbolTable} {names order order' : List String}

/-! ## Queries by name -/

section Findings

variable (same : t.get? = t'.get?)
include same

theorem contains_congr : t.contains = t'.contains := by
  funext name
  simp [contains, same]

theorem level?_congr : t.level? = t'.level? := by
  funext name
  simp [level?, same]

theorem levelOf_congr : t.levelOf = t'.levelOf := by
  funext name
  simp [levelOf, level?_congr same]

theorem dependencies_congr : t.dependencies = t'.dependencies := by
  funext name
  simp [dependencies, same]

theorem dependsOn_congr : t.DependsOn = t'.DependsOn := by
  funext a b
  simp [DependsOn, dependencies_congr same]

theorem search_congr (visited stack : List String) : t.search visited stack = t'.search visited stack := by
  rw [search, search, dependencies_congr same]
  refine depthFirst_congr (fun name => ?_) fun _ => Iff.rfl
  rw [← contains_iff, ← contains_iff, contains_congr same]

theorem allDependencies_congr (name : String) : t.allDependencies name = t'.allDependencies name := by
  rw [allDependencies, allDependencies, dependencies_congr same, search_congr same]

end Findings

/-! ## Batches -/

/-- The symbols of a list on one level. -/
def levelBatch (t : SymbolTable) (order : List String) (level : Nat) : Batch :=
  ⟨level, order.filter (t.levelOf · = level)⟩

theorem levelBatch_cons_self (t : SymbolTable) (name : String) (rest : List String) :
    t.levelBatch (name :: rest) (t.levelOf name) =
      ⟨t.levelOf name, name :: (t.levelBatch rest (t.levelOf name)).symbols⟩ := by
  simp [levelBatch]

theorem levelBatch_cons_of_ne {name : String} {level : Nat} (other : level ≠ t.levelOf name)
    (rest : List String) : t.levelBatch (name :: rest) level = t.levelBatch rest level := by
  simp [levelBatch, other.symm]

theorem map_levelBatch_cons (t : SymbolTable) (name : String) (rest : List String) (levels : List Nat) :
    (levels.filter (· ≠ t.levelOf name)).map (t.levelBatch (name :: rest)) =
      (levels.filter (· ≠ t.levelOf name)).map (t.levelBatch rest) :=
  List.map_congr_left fun _ hl => levelBatch_cons_of_ne (by simpa using (List.mem_filter.mp hl).2) rest

-- The first symbol joins the first batch or is below it; in a sorted list it is on no later level.
theorem batches_eq_of_sorted (sorted : order.Pairwise (t.levelOf · ≤ t.levelOf ·)) :
    t.batches order = (distinct (order.map t.levelOf)).map (t.levelBatch order) := by
  induction order with
  | nil => rfl
  | cons name rest ih =>
      obtain ⟨first, tail⟩ := List.pairwise_cons.mp sorted
      rw [batches, ih tail, List.map_cons, distinct, List.map_cons, map_levelBatch_cons, levelBatch_cons_self]
      cases rest with
      | nil => simp [distinct, levelBatch]
      | cons next rest =>
          by_cases together : t.levelOf next = t.levelOf name
          · simp [distinct, together, levelBatch]
          · have apart : ∀ n ∈ next :: rest, t.levelOf n ≠ t.levelOf name := by
              have below := first next (List.mem_cons_self ..)
              have later := (List.pairwise_cons.mp tail).1
              refine List.forall_mem_cons.mpr ⟨together, fun n hn => ?_⟩
              have := later n hn
              omega
            have alone : (t.levelBatch (next :: rest) (t.levelOf name)).symbols = [] := by
              simpa [levelBatch] using apart
            have kept : (distinct ((next :: rest).map t.levelOf)).filter (· ≠ t.levelOf name) =
                distinct ((next :: rest).map t.levelOf) := by
              refine List.filter_eq_self.mpr fun level hl => ?_
              obtain ⟨n, hn, rfl⟩ := List.mem_map.mp (mem_distinct.mp hl)
              simpa using apart n hn
            rw [kept, alone]
            simp [distinct, together, levelBatch]

theorem batches_sameSymbols (levels : t.levelOf = t'.levelOf) (perm : order.Perm order')
    (sorted : order.Pairwise (t.levelOf · ≤ t.levelOf ·))
    (sorted' : order'.Pairwise (t'.levelOf · ≤ t'.levelOf ·)) :
    List.Forall₂ Batch.SameSymbols (t.batches order) (t'.batches order') := by
  have sameLevels : order.map t'.levelOf = order'.map t'.levelOf :=
    (perm.map _).eq_of_pairwise' (r := (· ≤ ·)) (List.pairwise_map.mpr (levels ▸ sorted))
      (List.pairwise_map.mpr sorted')
  rw [batches_eq_of_sorted sorted, batches_eq_of_sorted sorted', levels, sameLevels]
  simp only [List.forall₂_map_left_iff, List.forall₂_map_right_iff, List.forall₂_same]
  intro level _
  simp only [Batch.SameSymbols, levelBatch, levels, true_and]
  exact perm.filter _

theorem levelOf_le_of_precedes (h : order.Pairwise (t.precedes · ·)) :
    order.Pairwise (t.levelOf · ≤ t.levelOf ·) :=
  h.imp fun before => by
    rw [precedes_iff] at before
    omega

theorem Consistent.executionBatches_alike (h : t.Consistent) (h' : t'.Consistent) (same : t.get? = t'.get?)
    (names : List String) :
    (∃ e, t.executionBatches names = .error e ∧ t'.executionBatches names = .error e) ∨
    ∃ batches batches', t.executionBatches names = .ok batches ∧ t'.executionBatches names = .ok batches' ∧
      List.Forall₂ Batch.SameSymbols batches batches' := by
  cases unknown : names.find? (fun name => !t.contains name) with
  | some name =>
      have unknown' : names.find? (fun name => !t'.contains name) = some name := contains_congr same ▸ unknown
      left
      refine ⟨⟨name⟩, ?_, ?_⟩ <;> simp only [executionBatches, executionOrder, unknown, unknown'] <;> rfl
  | none =>
      have registered := find?_unregistered_eq_none.mp unknown
      have registered' := find?_unregistered_eq_none.mp (contains_congr same ▸ unknown)
      obtain ⟨order, ok, sorted, mem⟩ := h.exists_executionOrder registered
      obtain ⟨order', ok', sorted', mem'⟩ := h'.exists_executionOrder registered'
      have perm : order.Perm order' :=
        (List.perm_ext_iff_of_nodup sorted.nodup sorted'.nodup).mpr fun x => by
          rw [mem, mem', dependsOn_congr same]
      right
      refine ⟨_, _, congrArg (Except.map t.batches) ok, congrArg (Except.map t'.batches) ok', ?_⟩
      exact batches_sameSymbols (levelOf_congr same) perm (levelOf_le_of_precedes sorted)
        (levelOf_le_of_precedes sorted')

/-! ## Tables with the same definitions -/

theorem Consistent.perm_definitions (h : t.Consistent) (h' : t'.Consistent)
    (same : ∀ d, d ∈ t.definitions ↔ d ∈ t'.definitions) : t.definitions.Perm t'.definitions :=
  (List.perm_ext_iff_of_nodup (.of_map _ h.nodup) (.of_map _ h'.nodup)).mpr same

theorem Consistent.get?_congr (h : t.Consistent) (h' : t'.Consistent)
    (same : ∀ d, d ∈ t.definitions ↔ d ∈ t'.definitions) : t.get? = t'.get? := by
  funext name
  ext d
  simp [h.get?_iff, h'.get?_iff, same]

end SymbolTable

/-- Tables with the same definitions, registered in any order, give the same answers up to the order among
symbols of one level. -/
theorem registration_order_irrelevant {t t' : SymbolTable} (reachable : t.Reachable)
    (reachable' : t'.Reachable) (same : ∀ d, d ∈ t.definitions ↔ d ∈ t'.definitions) :
    (∀ name, t.get? name = t'.get? name ∧ t.level? name = t'.level? name ∧
      t.allDependencies name = t'.allDependencies name ∧ (t.dependents name).Perm (t'.dependents name)) ∧
    (∀ level, (t.atLevel level).Perm (t'.atLevel level)) ∧
    (∀ names, (∃ e, t.executionBatches names = .error e ∧ t'.executionBatches names = .error e) ∨
      ∃ batches batches', t.executionBatches names = .ok batches ∧ t'.executionBatches names = .ok batches' ∧
        List.Forall₂ Batch.SameSymbols batches batches') ∧
    ∀ options e, t.inferWith options e = t'.inferWith options e := by
  have consistent := reachable.consistent
  have consistent' := reachable'.consistent
  have perm := consistent.perm_definitions consistent' same
  have found := consistent.get?_congr consistent' same
  refine ⟨fun name => ⟨congrFun found name, congrFun (SymbolTable.level?_congr found) name,
    SymbolTable.allDependencies_congr found name, ?_⟩, fun level => ?_, fun names => ?_, fun options e => ?_⟩
  · rw [consistent.dependents, consistent'.dependents]
    exact (perm.filter _).map _
  · rw [consistent.atLevel, consistent'.atLevel]
    exact perm.filter _
  · exact consistent.executionBatches_alike consistent' found names
  · refine consistent.inferWith_congr consistent' (fun x => .inl ?_) options
    rw [consistent.lookup_typeEnv, consistent'.lookup_typeEnv, found]

-- Two symbols of one level change places; the third depends on them in its own order.
theorem registration_order_irrelevant_swapped :
    let define (name : String) (level : Nat) (dependencies : List String) : SymbolDefinition :=
      { name, level, scheme := .mono (.function .number .number), executable := ⟨0, .ok⟩, dependencies }
    let f := define "f" 0 []
    let g := define "g" 0 []
    let h := define "h" 1 ["g", "f"]
    let t := (Registry.run [.register f, .register g, .register h]).table
    let t' := (Registry.run [.register g, .register f, .register h]).table
    t.Reachable ∧ t'.Reachable ∧ (∀ d, d ∈ t.definitions ↔ d ∈ t'.definitions) ∧
      t.names = ["f", "g", "h"] ∧ t'.names = ["g", "f", "h"] ∧
      t.allDependencies "h" = t'.allDependencies "h" ∧ (t.atLevel 0).Perm (t'.atLevel 0) ∧
      t.executionBatches ["h"] = .ok [⟨0, ["f", "g"]⟩, ⟨1, ["h"]⟩] ∧
      (∃ batches, t'.executionBatches ["h"] = .ok batches ∧
        List.Forall₂ Batch.SameSymbols [⟨0, ["f", "g"]⟩, ⟨1, ["h"]⟩] batches) ∧
      t.inferWith {} (.compose (.var "h") (.var "f")) = t'.inferWith {} (.compose (.var "h") (.var "f")) := by
  intro define f g h t t'
  have reachable : t.Reachable := ⟨_, rfl⟩
  have reachable' : t'.Reachable := ⟨_, rfl⟩
  have definitions : t.definitions = [f, g, h] := rfl
  have definitions' : t'.definitions = [g, f, h] := rfl
  have same : ∀ d, d ∈ t.definitions ↔ d ∈ t'.definitions := by
    simp [definitions, definitions', or_left_comm]
  have batched : t.executionBatches ["h"] = .ok [⟨0, ["f", "g"]⟩, ⟨1, ["h"]⟩] := by
    simp only [t, f, g, h, define]
    cbv
  obtain ⟨byName, byLevel, byNames, inferred⟩ := registration_order_irrelevant reachable reachable' same
  refine ⟨reachable, reachable', same, rfl, rfl, (byName "h").2.2.1, byLevel 0, batched, ?_, inferred _ _⟩
  rcases byNames ["h"] with ⟨e, failed, -⟩ | ⟨batches, batches', ok, ok', alike⟩
  · cases batched.symm.trans failed
  · cases batched.symm.trans ok
    exact ⟨batches', ok', alike⟩

end OpCalculus
