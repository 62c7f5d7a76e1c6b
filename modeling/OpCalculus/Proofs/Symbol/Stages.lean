import Mathlib
import OpCalculus.Proofs.Symbol.RegistrationOrder

/-!
# Batches are stages of a parallel schedule

Grouping puts neighbours together and loses nothing (`flatMap_batches`). The execution order never goes
back to a lower level, so a level has one batch, and whatever a symbol depends on has its batch earlier
(`Consistent.staged_batches`). A plan consists of these batches.
-/

namespace OpCalculus

open Relation

theorem distinct_sublist {α : Type} [DecidableEq α] (l : List α) : (distinct l).Sublist l := by
  induction l with
  | nil => exact .slnil
  | cons a l ih => exact .cons_cons a (List.filter_sublist.trans ih)

theorem distinct_ascending {levels : List Nat} (sorted : levels.Pairwise (· ≤ ·)) :
    (distinct levels).Pairwise (· < ·) := by
  have ordered := sorted.sublist (distinct_sublist levels)
  have apart : (distinct levels).Pairwise (· ≠ ·) := nodup_distinct levels
  exact (ordered.and apart).imp fun ⟨le, ne⟩ => Nat.lt_of_le_of_ne le ne

namespace SymbolTable

variable {t : SymbolTable} {names order : List String} {batches : List Batch}

-- `order` is run batch by batch, and the symbols of a batch need nothing of their own batch.
structure Staged (t : SymbolTable) (order : List String) (batches : List Batch) : Prop where
  flat : batches.flatMap (·.symbols) = order
  nonempty : ∀ b ∈ batches, b.symbols ≠ []
  ascending : batches.Pairwise (·.level < ·.level)
  level : ∀ b ∈ batches, ∀ name ∈ b.symbols, t.level? name = some b.level
  registration : ∀ b ∈ batches, b.symbols.Pairwise (t.position · < t.position ·)
  earlier : ∀ before b after, batches = before ++ b :: after → ∀ name ∈ b.symbols,
    ∀ dependency, TransGen t.DependsOn name dependency → ∃ b' ∈ before, dependency ∈ b'.symbols

theorem flatMap_batches (t : SymbolTable) (order : List String) :
    (t.batches order).flatMap (·.symbols) = order := by
  induction order with
  | nil => rfl
  | cons name rest ih =>
      unfold batches
      cases grouped : t.batches rest with
      | nil =>
          rw [grouped] at ih
          simp [← ih]
      | cons b more =>
          rw [grouped] at ih
          dsimp only
          split <;> simp [← ih]

theorem mem_batches {b : Batch} (sorted : order.Pairwise (t.levelOf · ≤ t.levelOf ·)) :
    b ∈ t.batches order ↔ (∃ name ∈ order, t.levelOf name = b.level) ∧
      b.symbols = order.filter (t.levelOf · = b.level) := by
  rw [batches_eq_of_sorted sorted, List.mem_map]
  constructor
  · rintro ⟨level, member, rfl⟩
    exact ⟨List.mem_map.mp (mem_distinct.mp member), rfl⟩
  · rintro ⟨member, symbols⟩
    refine ⟨b.level, mem_distinct.mpr (List.mem_map.mpr member), ?_⟩
    rw [levelBatch, ← symbols]

theorem ascending_batches (sorted : order.Pairwise (t.levelOf · ≤ t.levelOf ·)) :
    (t.batches order).Pairwise (·.level < ·.level) := by
  rw [batches_eq_of_sorted sorted, List.pairwise_map]
  exact distinct_ascending (List.pairwise_map.mpr sorted)

theorem level?_eq_levelOf {name : String} (registered : name ∈ t.names) :
    t.level? name = some (t.levelOf name) := by
  obtain ⟨d, found⟩ := mem_names_iff.mp registered
  rw [levelOf_of_get? found, level?, found, Option.map_some]

theorem Consistent.staged_batches (h : t.Consistent) (registered : ∀ name ∈ order, name ∈ t.names)
    (sorted : order.Pairwise (t.precedes · ·))
    (closed : ∀ a ∈ order, ∀ b, TransGen t.DependsOn a b → b ∈ order) : t.Staged order (t.batches order) := by
  have levels := levelOf_le_of_precedes sorted
  have ascending := ascending_batches levels
  refine ⟨flatMap_batches t order, ?_, ascending, ?_, ?_, ?_⟩
  · intro b hb
    obtain ⟨⟨name, member, level⟩, symbols⟩ := (mem_batches levels).mp hb
    have inside : name ∈ b.symbols := by simp [symbols, member, level]
    exact List.ne_nil_of_mem inside
  · intro b hb name member
    obtain ⟨-, symbols⟩ := (mem_batches levels).mp hb
    obtain ⟨listed, level⟩ := List.mem_filter.mp (symbols ▸ member)
    rw [level?_eq_levelOf (registered name listed), of_decide_eq_true level]
  · intro b hb
    obtain ⟨-, symbols⟩ := (mem_batches levels).mp hb
    rw [symbols]
    refine (sorted.filter _).imp_of_mem fun {x y} hx hy before => ?_
    have levelX := of_decide_eq_true (List.mem_filter.mp hx).2
    have levelY := of_decide_eq_true (List.mem_filter.mp hy).2
    rw [precedes_iff, levelX, levelY] at before
    exact (before.resolve_left (Nat.lt_irrefl _)).2
  · intro before b after split name member dependency depends
    have hb : b ∈ t.batches order := by simp [split]
    obtain ⟨-, symbols⟩ := (mem_batches levels).mp hb
    obtain ⟨listed, level⟩ := List.mem_filter.mp (symbols ▸ member)
    have lower : t.levelOf dependency < b.level := by
      rw [← of_decide_eq_true level]
      exact h.levelOf_lt depends
    have needed := closed name listed dependency depends
    let b' := t.levelBatch order (t.levelOf dependency)
    have hb' : b' ∈ t.batches order := (mem_batches levels).mpr ⟨⟨dependency, needed, rfl⟩, rfl⟩
    refine ⟨b', ?_, by simp [b', levelBatch, needed]⟩
    -- Neither `b` nor a later batch has the lower level.
    rw [split] at hb' ascending
    have later := (List.pairwise_append.mp ascending).2.1
    rcases List.mem_append.mp hb' with here | here
    · exact here
    rcases List.mem_cons.mp here with same | here
    · have level : b'.level = b.level := congrArg Batch.level same
      exact absurd lower (Nat.not_lt.mpr level.ge)
    · have above := (List.pairwise_cons.mp later).1 b' here
      exact absurd lower (Nat.lt_asymm above)

theorem Consistent.exists_staged (h : t.Consistent) (registered : ∀ name ∈ names, name ∈ t.names) :
    ∃ order, t.executionOrder names = .ok order ∧ t.executionBatches names = .ok (t.batches order) ∧
      t.Staged order (t.batches order) := by
  obtain ⟨order, ok, sorted, mem⟩ := h.exists_executionOrder registered
  refine ⟨order, ok, congrArg (Except.map t.batches) ok, h.staged_batches ?_ sorted ?_⟩
  · intro x hx
    obtain ⟨m, hm, path⟩ := (mem x).mp hx
    rcases path.cases_tail with rfl | ⟨y, -, depends⟩
    · exact registered x hm
    · exact (h.dependsOn depends).1
  · intro a ha b depends
    obtain ⟨m, hm, path⟩ := (mem a).mp ha
    exact (mem b).mpr ⟨m, hm, path.trans depends.to_reflTransGen⟩

end SymbolTable

theorem ExecutionPlan.size_eq (p : ExecutionPlan) : p.size = p.order.length := by
  suffices ∀ (stages : List Batch) (n : Nat), stages.foldl (fun n b => n + b.symbols.length) n =
      n + (stages.flatMap (·.symbols)).length by
    simpa [size, order] using this p.stages 0
  intro stages
  induction stages with
  | nil => simp
  | cons b stages ih =>
      intro n
      simp only [List.foldl_cons, ih, List.flatMap_cons, List.length_append]
      omega

/-- For registered names the batches are stages of a parallel schedule: their levels ascend, each holds the
symbols of its level in order of registration, and all that a symbol depends on runs in an earlier one.
Together they are the execution order, and the plan for the names consists of them. -/
theorem executionBatches_are_stages {t : SymbolTable} (reachable : t.Reachable) {names : List String}
    (registered : ∀ name ∈ names, name ∈ t.names) :
    ∃ order batches plan, t.executionOrder names = .ok order ∧ t.executionBatches names = .ok batches ∧
      t.executionPlan names = .ok plan ∧ t.Staged order batches ∧
      plan.stages = batches ∧ plan.order = order ∧ plan.size = order.length := by
  obtain ⟨order, ok, batched, staged⟩ := reachable.consistent.exists_staged registered
  have flat : ExecutionPlan.order ⟨t.batches order⟩ = order := staged.flat
  refine ⟨order, t.batches order, ⟨t.batches order⟩, ok, batched, congrArg (Except.map ExecutionPlan.mk) batched,
    staged, rfl, flat, ?_⟩
  rw [ExecutionPlan.size_eq, flat]

-- Two symbols share a level although one was registered long before the other, and levels are skipped.
theorem executionBatches_are_stages_diamond :
    let define (name : String) (level : Nat) (dependencies : List String) : SymbolDefinition :=
      { name, level, scheme := .mono (.function .number .number), executable := ⟨0, .ok⟩, dependencies }
    let t := (Registry.run [.register (define "base" 0 []), .register (define "right" 2 ["base", "base"]),
      .register (define "top" 5 ["right"]), .register (define "left" 2 ["base"]),
      .register (define "other" 5 ["left", "right"])]).table
    let batches : List Batch := [⟨0, ["base"]⟩, ⟨2, ["right", "left"]⟩, ⟨5, ["top", "other"]⟩]
    t.Reachable ∧ (∀ n ∈ ["other", "top", "other"], n ∈ t.names) ∧
      t.executionBatches ["other", "top", "other"] = .ok batches ∧
      t.executionPlan ["other", "top", "other"] = .ok ⟨batches⟩ ∧
      t.executionOrder ["other", "top", "other"] = .ok ["base", "right", "left", "top", "other"] ∧
      t.Staged ["base", "right", "left", "top", "other"] batches ∧ ExecutionPlan.size ⟨batches⟩ = 5 := by
  intro define t batches
  have reachable : t.Reachable := ⟨_, rfl⟩
  have registered : ∀ n ∈ ["other", "top", "other"], n ∈ t.names := by decide +kernel
  have value : t.executionBatches ["other", "top", "other"] = .ok batches := by
    simp only [t, define, batches]
    cbv
  obtain ⟨order, batches', plan, ordered, batched, planned, staged, stages, -, size⟩ :=
    executionBatches_are_stages reachable registered
  cases value.symm.trans batched
  obtain rfl : plan = ⟨batches⟩ := congrArg ExecutionPlan.mk stages
  have flat : order = ["base", "right", "left", "top", "other"] := staged.flat.symm
  exact ⟨reachable, registered, value, planned, flat ▸ ordered, flat ▸ staged, size.trans (by rw [flat]; rfl)⟩

end OpCalculus
