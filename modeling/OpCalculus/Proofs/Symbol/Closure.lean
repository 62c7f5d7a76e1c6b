import OpCalculus.Proofs.Symbol.Registration

/-!
# Depth-first search finds the transitive dependencies

A depth-first search lists, without repetition, known elements that its stack reaches. Whatever comes next to
a listed element is listed or was visited before. So a search from nothing visited lists exactly what its
stack reaches (`mem_depthFirst_nil`), in whatever order it goes. The walk over places thus closes some names
under dependency (`mem_closure`), and it lists what the walk over names does (`closure_perm_search`).
-/

namespace OpCalculus

open Relation

/-! ## Searches -/

section Search

variable {α : Type} [DecidableEq α] {known known' visited visited' stack : List α} {next : α → List α}
  {x y : α}

theorem mem_depthFirst (h : x ∈ depthFirst known next visited stack) :
    x ∈ known ∧ x ∉ visited ∧ ∃ m ∈ stack, ReflTransGen (fun a b => b ∈ next a) m x := by
  fun_induction depthFirst known next visited stack with
  | case1 => cases h
  | case2 visited a stack new ih =>
      rcases List.mem_cons.mp h with rfl | h
      · exact ⟨new.1, new.2, x, List.mem_cons_self .., .refl⟩
      · obtain ⟨mem, unvisited, m, hm, path⟩ := ih h
        refine ⟨mem, fun hx => unvisited (List.mem_cons_of_mem _ hx), ?_⟩
        rcases List.mem_append.mp hm with hm | hm
        · exact ⟨a, List.mem_cons_self .., .head hm path⟩
        · exact ⟨m, List.mem_cons_of_mem _ hm, path⟩
  | case3 visited a stack _ ih =>
      obtain ⟨mem, unvisited, m, hm, path⟩ := ih h
      exact ⟨mem, unvisited, m, List.mem_cons_of_mem _ hm, path⟩

theorem nodup_depthFirst (known : List α) (next : α → List α) (visited stack : List α) :
    (depthFirst known next visited stack).Nodup := by
  fun_induction depthFirst known next visited stack with
  | case1 => exact List.nodup_nil
  | case2 visited a stack _ ih =>
      exact List.nodup_cons.mpr ⟨fun again => (mem_depthFirst again).2.1 (List.mem_cons_self ..), ih⟩
  | case3 _ _ _ _ ih => exact ih

-- An element that is visited moves from the list of visited elements to the result.
omit [DecidableEq α] in
theorem visited_or_listed {a : α} {listed : List α} :
    y ∈ a :: visited ∨ y ∈ listed ↔ y ∈ visited ∨ y ∈ a :: listed := by
  simp only [List.mem_cons, or_assoc, or_left_comm]

theorem mem_depthFirst_of_mem_stack (h : x ∈ stack) (mem : x ∈ known) :
    x ∈ visited ∨ x ∈ depthFirst known next visited stack := by
  fun_induction depthFirst known next visited stack with
  | case1 => cases h
  | case2 visited a stack _ ih =>
      rcases List.mem_cons.mp h with rfl | h
      · exact .inr (List.mem_cons_self ..)
      · exact visited_or_listed.mp (ih (List.mem_append_right _ h))
  | case3 visited a stack old ih =>
      rcases List.mem_cons.mp h with rfl | h
      · by_contra missing
        exact old ⟨mem, fun seen => missing (.inl seen)⟩
      · exact ih h

theorem depthFirst_closed (h : x ∈ depthFirst known next visited stack) (after : y ∈ next x)
    (mem : y ∈ known) : y ∈ visited ∨ y ∈ depthFirst known next visited stack := by
  fun_induction depthFirst known next visited stack with
  | case1 => cases h
  | case2 visited a stack _ ih =>
      refine visited_or_listed.mp ?_
      rcases List.mem_cons.mp h with rfl | h
      · exact mem_depthFirst_of_mem_stack (List.mem_append_left _ after) mem
      · exact ih h
  | case3 _ _ _ _ ih => exact ih h

theorem mem_depthFirst_nil (closed : ∀ a ∈ known, ∀ b ∈ next a, b ∈ known) (inside : ∀ m ∈ stack, m ∈ known) :
    x ∈ depthFirst known next [] stack ↔ ∃ m ∈ stack, ReflTransGen (fun a b => b ∈ next a) m x := by
  constructor
  · exact fun h => (mem_depthFirst h).2.2
  · rintro ⟨m, hm, path⟩
    induction path with
    | refl => exact (mem_depthFirst_of_mem_stack hm (inside m hm)).resolve_left List.not_mem_nil
    | @tail a b _ after ih =>
        have mem : b ∈ known := closed a (mem_depthFirst ih).1 b after
        exact (depthFirst_closed ih after mem).resolve_left List.not_mem_nil

-- Of the known and of the visited elements it only matters which they are.
theorem depthFirst_congr (sameKnown : ∀ a, a ∈ known ↔ a ∈ known')
    (sameVisited : ∀ a, a ∈ visited ↔ a ∈ visited') :
    depthFirst known next visited stack = depthFirst known' next visited' stack := by
  fun_induction depthFirst known next visited stack generalizing visited' with
  | case1 => rw [depthFirst]
  | case2 visited a stack new ih =>
      rw [sameKnown, sameVisited] at new
      rw [depthFirst, if_pos new, ih]
      simp [sameVisited]
  | case3 visited a stack old ih =>
      rw [sameKnown, sameVisited] at old
      rw [depthFirst, if_neg old, ih sameVisited]

end Search

namespace SymbolTable

variable {t : SymbolTable} {names : List String} {a b x y : String} {i j : Nat}

theorem Consistent.mem_search (consistent : t.Consistent) (registered : ∀ name ∈ names, name ∈ t.names) :
    x ∈ t.search [] names ↔ ∃ m ∈ names, ReflTransGen t.DependsOn m x :=
  mem_depthFirst_nil (fun _ _ _ depends => (consistent.dependsOn depends).1) registered

/-! ## Places of names -/

theorem getElem?_position (registered : a ∈ t.names) : t.names[t.position a]? = some a :=
  List.getElem?_idxOf registered

theorem place_inj (nodup : t.names.Nodup) (hi : t.names[i]? = some a) (hj : t.names[j]? = some a) : i = j :=
  (List.getElem?_inj (List.getElem?_eq_some_iff.mp hi).1 nodup).mp (hi.trans hj.symm)

theorem position?_eq_some (nodup : t.names.Nodup) : t.position? a = some i ↔ t.names[i]? = some a := by
  unfold position?
  by_cases registered : a ∈ t.names
  · rw [if_pos (contains_iff.mpr registered), Option.some.injEq]
    constructor
    · rintro rfl
      exact getElem?_position registered
    · exact place_inj nodup (getElem?_position registered)
  · rw [if_neg (mt contains_iff.mp registered)]
    exact iff_of_false nofun fun there => registered (List.mem_of_getElem? there)

theorem mem_range_size : i ∈ List.range t.size ↔ ∃ a, t.names[i]? = some a := by
  rw [← Option.isSome_iff_exists]
  simp [names, size]

-- The symbol at the place of a name is the one that is found under the name.
theorem getElem?_definitions (nodup : t.names.Nodup) (ha : t.names[i]? = some a) :
    t.definitions[i]? = t.get? a := by
  rw [names, List.getElem?_map, Option.map_eq_some_iff] at ha
  obtain ⟨d, found, rfl⟩ := ha
  rw [found, get?_of_mem nodup (List.mem_of_getElem? found)]

theorem dependencyPositions_eq (nodup : t.names.Nodup) (ha : t.names[i]? = some a) :
    t.dependencyPositions i = distinct ((t.dependencies a).filterMap t.position?) := by
  rw [dependencyPositions, getElem?_definitions nodup ha, dependencies]
  cases t.get? a <;> rfl

theorem mem_dependencyPositions (nodup : t.names.Nodup) (ha : t.names[i]? = some a) :
    j ∈ t.dependencyPositions i ↔ ∃ b, t.DependsOn a b ∧ t.names[j]? = some b := by
  simp only [dependencyPositions_eq nodup ha, mem_distinct, List.mem_filterMap, position?_eq_some nodup]
  rfl

/-! ## The closure -/

-- A path over places is a path over the names at them, and the other way round.
theorem exists_path_of_positions (nodup : t.names.Nodup) (ha : t.names[i]? = some a)
    (path : ReflTransGen (fun i j => j ∈ (t.dependencyPositions i).reverse) i j) :
    ∃ b, t.names[j]? = some b ∧ ReflTransGen t.DependsOn a b := by
  induction path with
  | refl => exact ⟨a, ha, .refl⟩
  | tail _ after ih =>
      obtain ⟨b, hb, path⟩ := ih
      obtain ⟨c, depends, hc⟩ := (mem_dependencyPositions nodup hb).mp (List.mem_reverse.mp after)
      exact ⟨c, hc, path.tail depends⟩

theorem Consistent.path_positions (consistent : t.Consistent) (path : ReflTransGen t.DependsOn a b) :
    ReflTransGen (fun i j => j ∈ (t.dependencyPositions i).reverse) (t.position a) (t.position b) := by
  refine path.lift t.position fun a b depends => ?_
  have ha := getElem?_position (mem_names_of_dependsOn depends)
  have hb := getElem?_position (consistent.dependsOn depends).1
  exact List.mem_reverse.mpr ((mem_dependencyPositions consistent.nodup ha).mpr ⟨b, depends, hb⟩)

theorem Consistent.mem_names_of_path (consistent : t.Consistent) (registered : a ∈ t.names)
    (path : ReflTransGen t.DependsOn a b) : b ∈ t.names := by
  cases path with
  | refl => exact registered
  | tail _ depends => exact (consistent.dependsOn depends).1

theorem mem_closurePositions (nodup : t.names.Nodup) :
    i ∈ t.closurePositions names ↔ ∃ j, (∃ m ∈ names, t.names[j]? = some m) ∧
      ReflTransGen (fun i j => j ∈ (t.dependencyPositions i).reverse) j i := by
  rw [closurePositions, mem_depthFirst_nil]
  · simp only [List.mem_reverse, List.mem_filterMap, position?_eq_some nodup]
  · intro i hi j after
    obtain ⟨a, ha⟩ := mem_range_size.mp hi
    obtain ⟨b, -, hb⟩ := (mem_dependencyPositions nodup ha).mp (List.mem_reverse.mp after)
    exact mem_range_size.mpr ⟨b, hb⟩
  · intro i hi
    obtain ⟨a, -, there⟩ := List.mem_filterMap.mp (List.mem_reverse.mp hi)
    exact mem_range_size.mpr ⟨a, (position?_eq_some nodup).mp there⟩

theorem mem_closure_iff : x ∈ t.closure names ↔ ∃ i ∈ t.closurePositions names, t.names[i]? = some x :=
  List.mem_filterMap

theorem mem_names_of_mem_closure (h : x ∈ t.closure names) : x ∈ t.names := by
  obtain ⟨i, -, there⟩ := mem_closure_iff.mp h
  exact List.mem_of_getElem? there

theorem Consistent.mem_closure (consistent : t.Consistent)
    (registered : ∀ name ∈ names, name ∈ t.names) :
    x ∈ t.closure names ↔ ∃ m ∈ names, ReflTransGen t.DependsOn m x := by
  simp only [mem_closure_iff, mem_closurePositions consistent.nodup]
  constructor
  · rintro ⟨i, ⟨j, ⟨m, hm, hj⟩, path⟩, hx⟩
    obtain ⟨b, hb, path⟩ := exists_path_of_positions consistent.nodup hj path
    cases hx.symm.trans hb
    exact ⟨m, hm, path⟩
  · rintro ⟨m, hm, path⟩
    have known := registered m hm
    exact ⟨t.position x, ⟨t.position m, ⟨m, hm, getElem?_position known⟩, consistent.path_positions path⟩,
      getElem?_position (consistent.mem_names_of_path known path)⟩

theorem Consistent.nodup_closure (consistent : t.Consistent) (names : List String) :
    (t.closure names).Nodup :=
  (nodup_depthFirst _ _ _ _).filterMap fun _ _ _ hi hj => place_inj consistent.nodup hi hj

theorem Consistent.mem_closure_of_dependsOn (consistent : t.Consistent) (h : x ∈ t.closure names)
    (depends : t.DependsOn x y) : y ∈ t.closure names := by
  obtain ⟨i, hi, hx⟩ := mem_closure_iff.mp h
  obtain ⟨j, first, path⟩ := (mem_closurePositions consistent.nodup).mp hi
  have hy := getElem?_position (consistent.dependsOn depends).1
  have after : t.position y ∈ (t.dependencyPositions i).reverse :=
    List.mem_reverse.mpr ((mem_dependencyPositions consistent.nodup hx).mpr ⟨y, depends, hy⟩)
  exact mem_closure_iff.mpr
    ⟨_, (mem_closurePositions consistent.nodup).mpr ⟨j, first, path.tail after⟩, hy⟩

/-- The walk over places lists the same names as the walk over names, in another order. -/
theorem Consistent.closure_perm_search (consistent : t.Consistent)
    (registered : ∀ name ∈ names, name ∈ t.names) : (t.closure names).Perm (t.search [] names) := by
  refine (List.perm_ext_iff_of_nodup (consistent.nodup_closure names) (nodup_depthFirst _ _ _ _)).mpr ?_
  intro x
  exact (consistent.mem_closure registered).trans (consistent.mem_search registered).symm

end SymbolTable

end OpCalculus
