import OpCalculus.Symbol.Dependencies

/-!
# Execution order

The order in which symbols and everything they depend on can run. A schedule counts for each symbol
the dependencies still to come; a symbol is ready when its count is zero. Of the ready symbols the
one on the lowest level goes first, and on a level the one registered first. The run ends because
each step takes a symbol off the ready ones, and a symbol gets ready only by using up its count.
-/

namespace OpCalculus

/-- What remains to be run. -/
structure Schedule where
  /-- For each symbol the number of its dependencies that have not run. -/
  pending : List (String × Nat)
  /-- The symbols without such dependencies that have not run, in order of preference. -/
  ready : List String
  deriving DecidableEq, Repr

/-- Symbols of one level that can run together. -/
structure Batch where
  level : Nat
  symbols : List String
  deriving DecidableEq, Repr

namespace SymbolTable

/-- The level of a name, zero when unknown. -/
def levelOf (t : SymbolTable) (name : String) : Nat := (t.level? name).getD 0

/-- Lower levels go first, then earlier registrations. -/
def precedes (t : SymbolTable) (a b : String) : Bool :=
  t.levelOf a < t.levelOf b || (t.levelOf a = t.levelOf b && t.position a < t.position b)

/-- Adds a name to the ready ones at its place. -/
def insertReady (t : SymbolTable) (name : String) : List String → List String
  | [] => [name]
  | n :: rest =>
      if name = n then n :: rest
      else if t.precedes name n then name :: n :: rest
      else n :: t.insertReady name rest

/-- The number of distinct registered dependencies of a name. -/
def dependencyCount (t : SymbolTable) (name : String) : Nat :=
  (t.dependencyPositions (t.position name)).length

/-- The schedule of a set of names that contains all their dependencies. -/
def schedule (t : SymbolTable) (names : List String) : Schedule where
  pending := names.map fun name => (name, t.dependencyCount name)
  ready := (names.filter fun name => t.dependencyCount name = 0).foldr t.insertReady []

end SymbolTable

namespace Schedule

/-- Lowers the count of a name by one. -/
def countDown (name : String) (pending : List (String × Nat)) : List (String × Nat) :=
  pending.map fun p => if p.1 = name then (p.1, p.2 - 1) else p

/-- One dependency of a name has run. The name gets ready when it was the last one. -/
def release (t : SymbolTable) (s : Schedule) (name : String) : Schedule where
  pending := countDown name s.pending
  ready := if s.pending.lookup name = some 1 then t.insertReady name s.ready else s.ready

/-- Runs the first ready name. -/
def step? (t : SymbolTable) (s : Schedule) : Option (String × Schedule) :=
  match s.ready with
  | [] => none
  | name :: rest => some (name, (t.dependents name).foldl (release t) { s with ready := rest })

/-! ## The measure -/

/-- The sum of the counts. -/
def countsLeft : List (String × Nat) → Nat
  | [] => 0
  | p :: rest => p.2 + countsLeft rest

/-- The counts that are left and the names that are ready. -/
def weight (s : Schedule) : Nat := countsLeft s.pending + s.ready.length

theorem length_insertReady (t : SymbolTable) (name : String) (l : List String) :
    (t.insertReady name l).length ≤ l.length + 1 := by
  induction l with
  | nil => simp [SymbolTable.insertReady]
  | cons n l ih =>
      unfold SymbolTable.insertReady
      split
      · simp
      split
      · simp
      · simpa using ih

theorem countsLeft_countDown_le (name : String) (l : List (String × Nat)) :
    countsLeft (countDown name l) ≤ countsLeft l := by
  induction l with
  | nil => simp [countDown]
  | cons p l ih =>
      simp only [countDown, List.map_cons, countsLeft] at ih ⊢
      split
      · simp only
        omega
      · omega

theorem countsLeft_countDown_lt {name : String} {l : List (String × Nat)} (h : l.lookup name = some 1) :
    countsLeft (countDown name l) < countsLeft l := by
  induction l with
  | nil => cases h
  | cons p l ih =>
      rw [lookup_cons] at h
      have rest := countsLeft_countDown_le name l
      simp only [countDown, List.map_cons, countsLeft] at ih rest ⊢
      by_cases same : name = p.1
      · rw [if_pos same, Option.some.injEq] at h
        rw [if_pos same.symm]
        simp only
        omega
      · rw [if_neg same] at h
        have lower := ih h
        rw [if_neg (Ne.symm same)]
        omega

theorem weight_release_le (t : SymbolTable) (s : Schedule) (name : String) :
    (s.release t name).weight ≤ s.weight := by
  unfold release weight
  simp only
  split
  · rename_i last
    have lower := countsLeft_countDown_lt last
    have longer := length_insertReady t name s.ready
    omega
  · have lower := countsLeft_countDown_le name s.pending
    omega

theorem weight_foldl_release_le (t : SymbolTable) (names : List String) (s : Schedule) :
    (names.foldl (release t) s).weight ≤ s.weight := by
  induction names generalizing s with
  | nil => exact Nat.le_refl _
  | cons name rest ih => exact Nat.le_trans (ih _) (weight_release_le t s name)

theorem weight_step_lt {t : SymbolTable} {s next : Schedule} {name : String}
    (h : s.step? t = some (name, next)) : next.weight < s.weight := by
  unfold step? at h
  split at h
  · cases h
  · rename_i first rest ready
    cases h
    refine Nat.lt_of_le_of_lt (weight_foldl_release_le _ _ _) ?_
    simp [weight, ready]

/-! ## The run -/

/-- The names in the order in which they run. -/
def run (t : SymbolTable) (s : Schedule) : List String :=
  match _step : s.step? t with
  | none => []
  | some (name, next) => name :: run t next
termination_by s.weight
decreasing_by exact weight_step_lt _step

end Schedule

namespace SymbolTable

/-- The order in which names and everything they depend on can run. The first unknown name is an
error. -/
def executionOrder (t : SymbolTable) (names : List String) : Except UnknownSymbol (List String) :=
  match names.find? (fun name => !t.contains name) with
  | some name => .error ⟨name⟩
  | none => .ok ((t.schedule (t.closure names)).run t)

/-- Groups neighbours of the same level. -/
def batches (t : SymbolTable) : List String → List Batch
  | [] => []
  | name :: rest =>
      match t.batches rest with
      | [] => [⟨t.levelOf name, [name]⟩]
      | b :: more =>
          if b.level = t.levelOf name then ⟨b.level, name :: b.symbols⟩ :: more
          else ⟨t.levelOf name, [name]⟩ :: b :: more

/-- The execution order grouped by level. -/
def executionBatches (t : SymbolTable) (names : List String) : Except UnknownSymbol (List Batch) :=
  (t.executionOrder names).map t.batches

end SymbolTable

end OpCalculus
