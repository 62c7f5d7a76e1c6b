import Mathlib
import OpCalculus.Proofs.Symbol.Closure

/-!
# The execution order is the sorted closure

A schedule tracks a run: its counts are the numbers of dependencies still to come and its ready list
holds the names without any (`Tracks`). Dependencies sit on lower levels, so the least name that has
not run is always ready, and the run lists the closure in ascending order of level and registration.
-/

namespace OpCalculus

open Relation

namespace SymbolTable

variable {t : SymbolTable} {a b c name : String} {done : List String}

/-! ## Preference -/

theorem precedes_iff : t.precedes a b = true ↔
    t.levelOf a < t.levelOf b ∨ t.levelOf a = t.levelOf b ∧ t.position a < t.position b := by
  simp [precedes]

theorem precedes_irrefl (t : SymbolTable) (a : String) : ¬ t.precedes a a = true := by
  simp [precedes]

theorem precedes_trans (h : t.precedes a b = true) (h' : t.precedes b c = true) :
    t.precedes a c = true := by
  rw [precedes_iff] at *
  omega

theorem precedes_total (ha : a ∈ t.names) (other : a ≠ b) :
    t.precedes a b = true ∨ t.precedes b a = true := by
  have apart : t.position a ≠ t.position b := fun same => other ((List.idxOf_inj ha).mp same)
  rw [precedes_iff, precedes_iff]
  omega

theorem Consistent.precedes (h : t.Consistent) (depends : t.DependsOn a b) : t.precedes b a = true :=
  precedes_iff.mpr (.inl (h.dependsOn depends).2.2)

theorem mem_insertReady {l : List String} : a ∈ t.insertReady name l ↔ a = name ∨ a ∈ l := by
  induction l with
  | nil => simp [insertReady]
  | cons n l ih =>
      unfold insertReady
      split
      · rename_i same
        simp [same]
      split
      · simp
      · simp [ih, or_left_comm]

theorem pairwise_insertReady {l : List String} (registered : name ∈ t.names)
    (sorted : l.Pairwise (t.precedes · ·)) : (t.insertReady name l).Pairwise (t.precedes · ·) := by
  induction l with
  | nil => simp [insertReady]
  | cons n l ih =>
      obtain ⟨first, rest⟩ := List.pairwise_cons.mp sorted
      unfold insertReady
      split
      · exact sorted
      rename_i other
      split
      · rename_i before
        refine List.pairwise_cons.mpr ⟨fun m hm => ?_, sorted⟩
        rcases List.mem_cons.mp hm with rfl | hm
        · exact before
        · exact precedes_trans before (first m hm)
      · rename_i after
        refine List.pairwise_cons.mpr ⟨fun m hm => ?_, ih rest⟩
        rcases mem_insertReady.mp hm with rfl | hm
        · exact (precedes_total registered other).resolve_left after
        · exact first m hm

/-! ## Dependencies still to come -/

/-- The number of distinct registered dependencies of a name that have not run. -/
def remaining (t : SymbolTable) (done : List String) (name : String) : Nat :=
  ((distinct ((t.dependencies name).filter t.contains)).filter (· ∉ done)).length

theorem filterMap_position? (t : SymbolTable) (names : List String) :
    names.filterMap t.position? = (names.filter t.contains).map t.position := by
  rw [← List.filterMap_eq_map, List.filterMap_filter]
  rfl

-- The schedule counts places, and registered names have different places.
theorem Consistent.remaining_nil (h : t.Consistent) (name : String) :
    t.remaining [] name = t.dependencyCount name := by
  by_cases registered : name ∈ t.names
  · rw [dependencyCount, dependencyPositions_eq h.nodup (getElem?_position registered),
      filterMap_position?, distinct_map, List.length_map]
    · simp [remaining]
    · intro a ha b _ same
      exact (List.idxOf_inj (contains_iff.mp (List.mem_filter.mp ha).2)).mp same
  · have outside : t.definitions[t.position name]? = none := by
      rw [position, List.idxOf_eq_length registered, names, List.length_map, List.getElem?_length]
    rw [remaining, dependencies_of_not_mem registered, dependencyCount, dependencyPositions, outside]
    rfl

theorem Consistent.remaining_eq_zero (h : t.Consistent) :
    t.remaining done a = 0 ↔ ∀ b, t.DependsOn a b → b ∈ done := by
  simp only [remaining, List.length_eq_zero_iff, List.filter_eq_nil_iff, mem_distinct, List.mem_filter,
    contains_iff, decide_eq_true_eq, not_not]
  exact ⟨fun all b depends => all b ⟨depends, (h.dependsOn depends).1⟩, fun all b hb => all b hb.1⟩

theorem Consistent.remaining_eq_zero_of_subset (h : t.Consistent) {done' : List String} (sub : done ⊆ done')
    (zero : t.remaining done a = 0) : t.remaining done' a = 0 :=
  h.remaining_eq_zero.mpr fun b depends => sub (h.remaining_eq_zero.mp zero b depends)

theorem remaining_cons_of_not (h : ¬ t.DependsOn a b) :
    t.remaining (b :: done) a = t.remaining done a := by
  unfold remaining
  refine congrArg List.length (List.filter_congr fun x hx => ?_)
  have other : x ≠ b := by
    rintro rfl
    exact h (List.mem_filter.mp (mem_distinct.mp hx)).1
  simp [other]

theorem Consistent.remaining_cons (h : t.Consistent) (depends : t.DependsOn a b) (new : b ∉ done) :
    t.remaining (b :: done) a + 1 = t.remaining done a := by
  let waiting := (distinct ((t.dependencies a).filter t.contains)).filter (· ∉ done)
  have nodup : waiting.Nodup := (nodup_distinct _).filter _
  have mem : b ∈ waiting := by
    have registered := contains_iff.mpr (h.dependsOn depends).1
    simpa [waiting, new, registered, DependsOn] using depends
  have erased : (distinct ((t.dependencies a).filter t.contains)).filter (· ∉ b :: done) =
      waiting.erase b := by
    rw [nodup.erase_eq_filter, List.filter_filter]
    exact List.filter_congr fun x _ => Bool.eq_iff_iff.mpr (by simp)
  rw [remaining, erased, List.length_erase_of_mem mem]
  exact Nat.sub_add_cancel (List.length_pos_of_mem mem)

end SymbolTable

/-! ## Releasing dependents -/

namespace Schedule

open SymbolTable

variable {t : SymbolTable} {s next : Schedule} {names members done : List String} {x name : String}

theorem lookup_countDown_of_ne (other : x ≠ name) (pending : List (String × Nat)) :
    (countDown name pending).lookup x = pending.lookup x := by
  induction pending with
  | nil => rfl
  | cons p pending ih =>
      rw [countDown, List.map_cons, lookup_cons, lookup_cons, ← countDown, ih]
      by_cases here : p.1 = name
      · simp [here, other]
      · simp [here]

theorem pending_foldl_release (nodup : names.Nodup) (s : Schedule) :
    (names.foldl (release t) s).pending =
      s.pending.map fun p => if p.1 ∈ names then (p.1, p.2 - 1) else p := by
  induction names generalizing s with
  | nil => simp
  | cons name names ih =>
      obtain ⟨absent, nodup⟩ := List.nodup_cons.mp nodup
      rw [List.foldl_cons, ih nodup]
      simp only [release, countDown, List.map_map]
      refine List.map_congr_left fun p _ => ?_
      by_cases here : p.1 = name
      · simp [here, absent]
      · simp [here]

theorem mem_ready_foldl_release (nodup : names.Nodup) (s : Schedule) :
    x ∈ (names.foldl (release t) s).ready ↔
      x ∈ s.ready ∨ x ∈ names ∧ s.pending.lookup x = some 1 := by
  induction names generalizing s with
  | nil => simp
  | cons name names ih =>
      obtain ⟨absent, nodup⟩ := List.nodup_cons.mp nodup
      have first : x ∈ (s.release t name).ready ↔
          x ∈ s.ready ∨ x = name ∧ s.pending.lookup x = some 1 := by
        unfold release
        split
        · rename_i last
          rw [mem_insertReady, or_comm]
          refine or_congr_right ⟨fun here => ⟨here, here ▸ last⟩, And.left⟩
        · rename_i more
          refine (or_iff_left ?_).symm
          rintro ⟨rfl, last⟩
          exact more last
      rw [List.foldl_cons, ih nodup, first, or_assoc, List.mem_cons]
      by_cases here : x = name
      · simp [here, absent]
      · simp [here, release, lookup_countDown_of_ne here]

theorem sorted_foldl_release (registered : ∀ name ∈ names, name ∈ t.names) (s : Schedule)
    (sorted : s.ready.Pairwise (t.precedes · ·)) :
    (names.foldl (release t) s).ready.Pairwise (t.precedes · ·) := by
  induction names generalizing s with
  | nil => exact sorted
  | cons name names ih =>
      refine ih (fun n hn => registered n (List.mem_cons_of_mem _ hn)) _ ?_
      unfold release
      split
      · exact pairwise_insertReady (registered name (List.mem_cons_self ..)) sorted
      · exact sorted

/-! ## A run and its schedule -/

/-- After the names in `done` have run, the counts of the schedule are what remains for each member
and its ready names are those for which nothing remains. -/
structure Tracks (t : SymbolTable) (members done : List String) (s : Schedule) : Prop where
  pending : s.pending = members.map fun name => (name, t.remaining done name)
  sorted : s.ready.Pairwise (t.precedes · ·)
  mem_ready : ∀ name, name ∈ s.ready ↔ name ∈ members ∧ name ∉ done ∧ t.remaining done name = 0
  settled : ∀ name ∈ done, t.remaining done name = 0

/-- Registered names with everything that they depend on. -/
structure Closed (t : SymbolTable) (members : List String) : Prop where
  registered : ∀ name ∈ members, name ∈ t.names
  dependency : ∀ a ∈ members, ∀ b, t.DependsOn a b → b ∈ members

theorem lookup_map_eq_some {f : String → Nat} {n : Nat} :
    (members.map fun name => (name, f name)).lookup x = some n ↔ x ∈ members ∧ f x = n := by
  induction members with
  | nil => simp
  | cons m members ih =>
      rw [List.map_cons, lookup_cons]
      by_cases here : x = m
      · simp [here]
      · simp [here, ih]

theorem tracks_schedule (consistent : t.Consistent) (closed : Closed t members) :
    Tracks t members [] (t.schedule members) where
  pending := by simp [SymbolTable.schedule, consistent.remaining_nil]
  sorted := by
    have registered : ∀ n ∈ members.filter (fun name => t.dependencyCount name = 0), n ∈ t.names :=
      fun n hn => closed.registered n (List.mem_of_mem_filter hn)
    simp only [SymbolTable.schedule]
    generalize members.filter _ = ready at registered
    induction ready with
    | nil => exact .nil
    | cons n ready ih =>
        exact pairwise_insertReady (registered n (List.mem_cons_self ..))
          (ih fun m hm => registered m (List.mem_cons_of_mem _ hm))
  mem_ready name := by
    have mem : ∀ l : List String, name ∈ l.foldr t.insertReady [] ↔ name ∈ l := by
      intro l
      induction l with
      | nil => simp
      | cons n l ih => rw [List.foldr_cons, mem_insertReady, ih, List.mem_cons]
    simp [SymbolTable.schedule, mem, consistent.remaining_nil]
  settled _ h := nomatch h

theorem step?_eq_some (h : s.step? t = some (name, next)) :
    ∃ rest, s.ready = name :: rest ∧
      next = (t.dependents name).foldl (release t) { s with ready := rest } := by
  unfold step? at h
  split at h
  · cases h
  · rename_i first rest ready
    cases h
    exact ⟨rest, ready, rfl⟩

theorem step?_eq_none (h : s.step? t = none) : s.ready = [] := by
  unfold step? at h
  split at h
  · assumption
  · cases h

theorem Tracks.pending_step (h : Tracks t members done s) (consistent : t.Consistent) (new : name ∉ done)
    {rest : List String} :
    ((t.dependents name).foldl (release t) { s with ready := rest }).pending =
      members.map fun n => (n, t.remaining (name :: done) n) := by
  rw [pending_foldl_release (consistent.nodup_dependents name), h.pending, List.map_map]
  refine List.map_congr_left fun n _ => ?_
  by_cases depends : t.DependsOn n name
  · have less := consistent.remaining_cons depends new
    have listed := consistent.mem_dependents.mpr depends
    simp only [Function.comp_apply, if_pos listed]
    rw [← less, Nat.add_sub_cancel]
  · have unlisted := mt consistent.mem_dependents.mp depends
    simp only [Function.comp_apply, if_neg unlisted, remaining_cons_of_not depends]

theorem Tracks.mem_ready_step (h : Tracks t members done s) (consistent : t.Consistent)
    {rest : List String} (ready : s.ready = name :: rest) :
    x ∈ rest ∨ t.DependsOn x name ∧ x ∈ members ∧ t.remaining done x = 1 ↔
      x ∈ members ∧ x ∉ name :: done ∧ t.remaining (name :: done) x = 0 := by
  obtain ⟨-, new, -⟩ := (h.mem_ready name).mp (ready ▸ List.mem_cons_self ..)
  have absent : name ∉ rest := fun again =>
    precedes_irrefl t name ((List.pairwise_cons.mp (ready ▸ h.sorted)).1 name again)
  have mem_rest : x ∈ rest ↔ x ≠ name ∧ x ∈ members ∧ x ∉ done ∧ t.remaining done x = 0 := by
    rw [← h.mem_ready, ready, List.mem_cons]
    constructor
    · exact fun hx => ⟨fun same => absent (same ▸ hx), .inr hx⟩
    · exact fun hx => hx.2.resolve_left hx.1
  rw [mem_rest, List.mem_cons]
  by_cases depends : t.DependsOn x name
  · have less := consistent.remaining_cons depends new
    have other : x ≠ name := by
      rintro rfl
      exact consistent.acyclic x (.single depends)
    have running : x ∉ done := fun ran => by
      have := h.settled x ran
      omega
    simp [depends, other, running, ← less]
  · simp only [depends, false_and, or_false, remaining_cons_of_not depends]
    tauto

theorem Tracks.step (h : Tracks t members done s) (consistent : t.Consistent)
    (step : s.step? t = some (name, next)) : Tracks t members (name :: done) next := by
  obtain ⟨rest, ready, rfl⟩ := step?_eq_some step
  obtain ⟨-, new, free⟩ := (h.mem_ready name).mp (ready ▸ List.mem_cons_self ..)
  have stays : ∀ x, t.remaining done x = 0 → t.remaining (name :: done) x = 0 := fun x =>
    consistent.remaining_eq_zero_of_subset (List.subset_cons_self _ _)
  refine ⟨h.pending_step consistent new, ?_, fun x => ?_, fun x hx => stays x ?_⟩
  · have registered : ∀ n ∈ t.dependents name, n ∈ t.names := fun n hn =>
      mem_names_of_dependsOn (consistent.mem_dependents.mp hn)
    exact sorted_foldl_release registered _ (List.pairwise_cons.mp (ready ▸ h.sorted)).2
  · rw [mem_ready_foldl_release (consistent.nodup_dependents name), consistent.mem_dependents, h.pending,
      lookup_map_eq_some]
    exact h.mem_ready_step consistent ready
  · rcases List.mem_cons.mp hx with rfl | ran
    · exact free
    · exact h.settled x ran

-- A member that is not ready waits for one that has not run and sits on a lower level.
theorem Tracks.exists_ready (h : Tracks t members done s) (consistent : t.Consistent)
    (closed : Closed t members) (member : x ∈ members) (waiting : x ∉ done) :
    ∃ r ∈ s.ready, r = x ∨ t.precedes r x = true := by
  induction level : t.levelOf x using Nat.strong_induction_on generalizing x with
  | h n ih =>
      by_cases free : t.remaining done x = 0
      · exact ⟨x, (h.mem_ready x).mpr ⟨member, waiting, free⟩, .inl rfl⟩
      · simp only [consistent.remaining_eq_zero, not_forall] at free
        obtain ⟨b, depends, missing⟩ := free
        have lower := (consistent.dependsOn depends).2.2
        obtain ⟨r, hr, before⟩ := ih _ (level ▸ lower) (closed.dependency x member b depends) missing rfl
        refine ⟨r, hr, .inr ?_⟩
        rcases before with rfl | before
        · exact consistent.precedes depends
        · exact precedes_trans before (consistent.precedes depends)

theorem Tracks.mem_done_of_stop (h : Tracks t members done s) (consistent : t.Consistent)
    (closed : Closed t members) (stop : s.step? t = none) (member : x ∈ members) : x ∈ done := by
  by_contra waiting
  obtain ⟨r, hr, -⟩ := h.exists_ready consistent closed member waiting
  rw [step?_eq_none stop] at hr
  cases hr

/-- A run lists the members that have not run in ascending order. -/
theorem Tracks.run (h : Tracks t members done s) (consistent : t.Consistent) (closed : Closed t members) :
    (s.run t).Pairwise (t.precedes · ·) ∧ ∀ x, x ∈ s.run t ↔ x ∈ members ∧ x ∉ done := by
  fun_induction Schedule.run t s generalizing done with
  | case1 s stop =>
      refine ⟨.nil, fun x => iff_of_false List.not_mem_nil fun ⟨member, waiting⟩ => ?_⟩
      exact waiting (h.mem_done_of_stop consistent closed stop member)
  | case2 s name next step ih =>
      obtain ⟨sorted, mem⟩ := ih (h.step consistent step)
      obtain ⟨rest, ready, -⟩ := step?_eq_some step
      obtain ⟨member, new, -⟩ := (h.mem_ready name).mp (ready ▸ List.mem_cons_self ..)
      constructor
      · refine List.pairwise_cons.mpr ⟨fun x hx => ?_, sorted⟩
        obtain ⟨member, waiting⟩ := (mem x).mp hx
        rw [List.mem_cons, not_or] at waiting
        obtain ⟨r, hr, before⟩ := h.exists_ready consistent closed member waiting.2
        rw [ready] at hr
        have first := (List.pairwise_cons.mp (ready ▸ h.sorted)).1
        rcases List.mem_cons.mp hr with rfl | hr
        · exact before.resolve_left (Ne.symm waiting.1)
        · rcases before with rfl | before
          · exact first r hr
          · exact precedes_trans (first r hr) before
      · intro x
        rw [List.mem_cons, mem, List.mem_cons]
        by_cases here : x = name
        · simp [here, member, new]
        · simp [here]

end Schedule

/-! ## The execution order -/

namespace SymbolTable

variable {t : SymbolTable} {names order : List String} {a b name : String}

instance (t : SymbolTable) : Std.Irrefl (t.precedes · · = true) := ⟨precedes_irrefl t⟩

instance (t : SymbolTable) : Std.Antisymm (t.precedes · · = true) :=
  ⟨fun a _ h h' => absurd (precedes_trans h h') (precedes_irrefl t a)⟩

theorem idxOf_lt_of_precedes (sorted : order.Pairwise (t.precedes · ·)) (ha : a ∈ order) (hb : b ∈ order)
    (before : t.precedes b a = true) : order.idxOf b < order.idxOf a := by
  have ia := List.idxOf_lt_length_of_mem ha
  have ib := List.idxOf_lt_length_of_mem hb
  rcases Nat.lt_trichotomy (order.idxOf b) (order.idxOf a) with lt | eq | gt
  · exact lt
  · exact absurd (((List.idxOf_inj hb).mp eq) ▸ before) (precedes_irrefl t _)
  · have after := List.pairwise_iff_getElem.mp sorted _ _ ia ib gt
    rw [List.getElem_idxOf, List.getElem_idxOf] at after
    exact absurd (precedes_trans before after) (precedes_irrefl t b)

theorem executionOrder_of_unknown {before after : List String} (known : ∀ n ∈ before, n ∈ t.names)
    (unknown : name ∉ t.names) : t.executionOrder (before ++ name :: after) = .error ⟨name⟩ := by
  have first : (before ++ name :: after).find? (fun n => !t.contains n) = some name := by
    have unregistered : t.contains name = false := by
      rw [← Bool.not_eq_true, contains_iff]
      exact unknown
    rw [List.find?_append, find?_unregistered_eq_none.mpr known, List.find?_cons, unregistered]
    rfl
  rw [executionOrder, first]

theorem Consistent.closed_closure (h : t.Consistent) (names : List String) :
    Schedule.Closed t (t.closure names) :=
  ⟨fun _ hx => mem_names_of_mem_closure hx, fun _ hx _ depends => h.mem_closure_of_dependsOn hx depends⟩

theorem Consistent.exists_executionOrder (h : t.Consistent) (registered : ∀ name ∈ names, name ∈ t.names) :
    ∃ order, t.executionOrder names = .ok order ∧ order.Pairwise (t.precedes · ·) ∧
      ∀ x, x ∈ order ↔ ∃ m ∈ names, ReflTransGen t.DependsOn m x := by
  have closed := h.closed_closure names
  obtain ⟨sorted, mem⟩ := (Schedule.tracks_schedule h closed).run h closed
  refine ⟨_, ?_, sorted, fun x => ?_⟩
  · rw [executionOrder, find?_unregistered_eq_none.mpr registered]
  · rw [mem, h.mem_closure registered]
    simp

theorem Consistent.precedes_of_transGen (h : t.Consistent) (depends : TransGen t.DependsOn a b) :
    t.precedes b a = true :=
  precedes_iff.mpr (.inl (h.levelOf_lt depends))

end SymbolTable

/-- The first unknown name is an error. Registered names run together with their transitive
dependencies, each once, in ascending order of level and registration; so dependencies run first, and
the order and multiplicity of the names do not matter. -/
theorem executionOrder_eq_sorted_closure {t : SymbolTable} (reachable : t.Reachable) (names : List String) :
    (∀ before name after, names = before ++ name :: after → (∀ n ∈ before, n ∈ t.names) →
      name ∉ t.names → t.executionOrder names = .error ⟨name⟩) ∧
    ((∀ n ∈ names, n ∈ t.names) → ∃ order, t.executionOrder names = .ok order ∧
      order.Nodup ∧
      (∀ x, x ∈ order ↔ ∃ m ∈ names, ReflTransGen t.DependsOn m x) ∧
      (order.Pairwise fun a b => t.levelOf a < t.levelOf b ∨
        t.levelOf a = t.levelOf b ∧ t.position a < t.position b) ∧
      (∀ a ∈ order, ∀ b, TransGen t.DependsOn a b → b ∈ order ∧ order.idxOf b < order.idxOf a) ∧
      ∀ names', (∀ x, x ∈ names' ↔ x ∈ names) → t.executionOrder names' = .ok order) := by
  have consistent := reachable.consistent
  constructor
  · rintro before name after rfl known unknown
    exact SymbolTable.executionOrder_of_unknown known unknown
  intro registered
  obtain ⟨order, ok, sorted, mem⟩ := consistent.exists_executionOrder registered
  refine ⟨order, ok, sorted.nodup, mem, sorted.imp SymbolTable.precedes_iff.mp, fun a ha b depends => ?_,
    fun names' same => ?_⟩
  · obtain ⟨m, hm, path⟩ := (mem a).mp ha
    have hb : b ∈ order := (mem b).mpr ⟨m, hm, path.trans depends.to_reflTransGen⟩
    exact ⟨hb, SymbolTable.idxOf_lt_of_precedes sorted ha hb (consistent.precedes_of_transGen depends)⟩
  · have registered' : ∀ n ∈ names', n ∈ t.names := fun n hn => registered n ((same n).mp hn)
    obtain ⟨order', ok', sorted', mem'⟩ := consistent.exists_executionOrder registered'
    have equal : order' = order := sorted'.eq_of_mem_iff sorted fun x => by
      rw [mem', mem]
      exact exists_congr fun m => and_congr_left fun _ => same m
    rw [ok', equal]

-- Two symbols share a dependency, one of them declares it twice, and the top is requested twice.
theorem executionOrder_eq_sorted_closure_diamond :
    let define (name : String) (level : Nat) (dependencies : List String) : SymbolDefinition :=
      { name, level, scheme := .mono (.function .number .number), executable := ⟨0, .ok⟩, dependencies }
    let t := (Registry.run [.register (define "base" 0 []), .register (define "right" 2 ["base", "base"]),
      .register (define "left" 1 ["base"]), .register (define "top" 3 ["right", "left"])]).table
    t.Reachable ∧ (∀ n ∈ ["top", "left", "top"], n ∈ t.names) ∧ "lost" ∉ t.names ∧
      t.executionOrder ["top", "left", "top"] = .ok ["base", "left", "right", "top"] ∧
      t.executionOrder ["left", "top"] = .ok ["base", "left", "right", "top"] ∧
      t.executionOrder ["left", "lost", "top"] = .error ⟨"lost"⟩ := by
  intro define t
  have reachable : t.Reachable := ⟨_, rfl⟩
  have known : ∀ n ∈ ["top", "left", "top"], n ∈ t.names := by decide +kernel
  have unknown : "lost" ∉ t.names := by decide +kernel
  have value : t.executionOrder ["top", "left", "top"] = .ok ["base", "left", "right", "top"] := by
    simp only [t, define]
    cbv
  obtain ⟨order, ok, -, -, -, -, same⟩ := (executionOrder_eq_sorted_closure reachable _).2 known
  cases value.symm.trans ok
  refine ⟨reachable, known, unknown, value, same _ (by simp), ?_⟩
  exact (executionOrder_eq_sorted_closure reachable _).1 ["left"] "lost" ["top"] rfl
    (by decide +kernel) unknown

end OpCalculus
