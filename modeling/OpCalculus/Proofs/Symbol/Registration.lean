import Mathlib.Data.List.Nodup
import Mathlib.Logic.Relation
import OpCalculus.Symbol.Log
import OpCalculus.Symbol.Schedule

/-!
# Registration keeps a table consistent

A table keeps its definitions and two indexes over them. Whatever is offered for registration, in
whatever order, the indexes agree with the definitions, and dependencies go back in time and down in
level (`Consistent`). Everything else that is proved of tables rests on this.
-/

namespace OpCalculus

/-! ## Attempts -/

inductive Attempt where
  | register (d : SymbolDefinition)
  | registerLogged (d : SymbolDefinition)

def Attempt.definition : Attempt → SymbolDefinition
  | register d | registerLogged d => d

/-- A table with the log that logged attempts write to. -/
structure Registry where
  table : SymbolTable := .empty
  log : RegistrationLog := {}

namespace Registry

def attempt (r : Registry) : Attempt → Except RegistrationError Unit × Registry
  | .register d =>
      let (result, table) := r.table.register d
      (result, ⟨table, r.log⟩)
  | .registerLogged d =>
      let (result, table, log) := r.table.registerLogged r.log d
      (result, ⟨table, log⟩)

def run (attempts : List Attempt) : Registry := attempts.foldl (fun r a => (r.attempt a).2) {}

end Registry

namespace SymbolTable

def Reachable (t : SymbolTable) : Prop := ∃ attempts, (Registry.run attempts).table = t

def DependsOn (t : SymbolTable) (a b : String) : Prop := b ∈ t.dependencies a

/-- The definitions form a levelled dependency order, and the indexes list what they should. -/
structure Consistent (t : SymbolTable) : Prop where
  nodup : t.names.Nodup
  level_le : ∀ d ∈ t.definitions, d.level ≤ maxLevel
  declared : ∀ d ∈ t.definitions, d.scheme.checkDeclared = .ok ()
  dependency : ∀ d ∈ t.definitions, ∀ name ∈ d.dependencies, ∃ e, t.get? name = some e ∧
    t.position name < t.position d.name ∧ e.level < d.level
  levels : ∀ level, t.levels.get level = (t.definitions.filter (·.level = level)).map (·.name)
  dependents : ∀ name, t.dependents name = (t.definitions.filter (name ∈ ·.dependencies)).map (·.name)

/-- What a table asks of a new definition. -/
structure Admits (t : SymbolTable) (d : SymbolDefinition) : Prop where
  new : d.name ∉ t.names
  level_le : d.level ≤ maxLevel
  declared : d.scheme.checkDeclared = .ok ()
  dependency : ∀ name ∈ d.dependencies, ∃ e, t.get? name = some e ∧ e.level < d.level

variable {t t' : SymbolTable} {d e : SymbolDefinition} {name : String}

/-! ## Look-up -/

theorem name_of_get? (h : t.get? name = some d) : d.name = name := by
  simpa using List.find?_some h

theorem mem_of_get? (h : t.get? name = some d) : d ∈ t.definitions := List.mem_of_find?_eq_some h

theorem mem_names (h : d ∈ t.definitions) : d.name ∈ t.names := List.mem_map_of_mem h

theorem mem_names_iff : name ∈ t.names ↔ ∃ d, t.get? name = some d := by
  rw [← contains_iff, contains, Option.isSome_iff_exists]

theorem get?_insert :
    (t.insert d).get? name = (t.get? name).or (if d.name = name then some d else none) := by
  simp [get?, insert, List.find?_append, List.find?_singleton]

theorem names_insert : (t.insert d).names = t.names ++ [d.name] := by
  simp [names, insert]

theorem get?_insert_of_some (h : t.get? name = some e) : (t.insert d).get? name = some e := by
  rw [get?_insert, h, Option.some_or]

theorem position_insert (h : name ∈ t.names) : (t.insert d).position name = t.position name := by
  rw [position, position, names_insert, List.idxOf_append_of_mem h]

theorem position_insert_self (h : d.name ∉ t.names) : (t.insert d).position d.name = t.names.length := by
  simp [position, names_insert, List.idxOf_append_of_notMem h]

theorem position_lt (h : name ∈ t.names) : t.position name < t.names.length :=
  List.idxOf_lt_length_of_mem h

theorem get?_of_mem (nodup : t.names.Nodup) (h : d ∈ t.definitions) : t.get? d.name = some d := by
  obtain ⟨e, found⟩ := mem_names_iff.mp (mem_names h)
  have same : e = d := List.inj_on_of_nodup_map nodup (mem_of_get? found) h (name_of_get? found)
  rw [found, same]

/-! ## Validation -/

theorem levelViolation?_eq_none : t.levelViolation? d = none ↔
    ∀ name ∈ d.dependencies, ∀ e, t.get? name = some e → e.level < d.level := by
  simp only [levelViolation?, level?, List.findSome?_eq_none_iff]
  refine forall₂_congr fun name _ => ?_
  cases t.get? name with
  | none => simp
  | some e => simp

theorem find?_unregistered_eq_none {names : List String} :
    names.find? (fun name => !t.contains name) = none ↔ ∀ name ∈ names, name ∈ t.names := by
  simp [List.find?_eq_none, contains_iff]

theorem validate_eq_ok : t.validate d = .ok () ↔ t.Admits d := by
  unfold validate
  constructor
  · intro h
    split at h
    · cases h
    rename_i new
    split at h
    · cases h
    rename_i low
    split at h
    · cases h
    rename_i registered
    split at h
    · cases h
    rename_i declared
    split at h
    · cases h
    rename_i below
    refine ⟨fun old => new (contains_iff.mpr old), Nat.le_of_not_lt low, declared, fun name hn => ?_⟩
    obtain ⟨e, found⟩ := mem_names_iff.mp (find?_unregistered_eq_none.mp registered name hn)
    exact ⟨e, found, levelViolation?_eq_none.mp below name hn e found⟩
  · intro h
    have registered : ∀ name ∈ d.dependencies, name ∈ t.names := fun name hn => by
      obtain ⟨e, found, -⟩ := h.dependency name hn
      exact mem_names_iff.mpr ⟨e, found⟩
    have below : t.levelViolation? d = none := levelViolation?_eq_none.mpr fun name hn e found => by
      obtain ⟨e', found', lower⟩ := h.dependency name hn
      cases found.symm.trans found'
      exact lower
    rw [if_neg fun old => h.new (contains_iff.mp old), if_neg (Nat.not_lt.mpr h.level_le),
      find?_unregistered_eq_none.mpr registered]
    simp only [h.declared, below]

-- Recording between the check and the insertion changes neither.
theorem registerLogged_eq (t : SymbolTable) (log : RegistrationLog) (d : SymbolDefinition) :
    t.registerLogged log d = ((t.register d).1, (t.register d).2, log.record d (t.register d).1) := by
  unfold registerLogged register
  cases t.validate d <;> rfl

/-- A definition is added if the table admits it. Otherwise the table stays as it was. -/
theorem register_cases (t : SymbolTable) (d : SymbolDefinition) :
    t.Admits d ∧ t.register d = (.ok (), t.insert d) ∨
      ¬ t.Admits d ∧ ∃ e, t.register d = (.error e, t) := by
  cases checked : t.validate d with
  | ok done => exact .inl ⟨validate_eq_ok.mp checked, by rw [register, checked]⟩
  | error e =>
      refine .inr ⟨fun admits => ?_, e, by rw [register, checked]⟩
      cases checked.symm.trans (validate_eq_ok.mpr admits)

theorem register_eq_ok : t.register d = (.ok (), t') ↔ t.Admits d ∧ t.insert d = t' := by
  rcases t.register_cases d with ⟨admits, registered⟩ | ⟨refused, e, registered⟩
  · simp [registered, admits]
  · simp [registered, refused]

end SymbolTable

/-! ## The indexes after an insertion -/

namespace Roster

variable {κ : Type} [DecidableEq κ]

theorem addName_of_notMem {names : List String} {name : String} (h : name ∉ names) :
    addName names name = names ++ [name] := if_neg h

theorem addName_addName (names : List String) (name : String) :
    addName (addName names name) name = addName names name := by
  refine if_pos ?_
  unfold addName
  split
  · assumption
  · simp

-- A key that occurs several times gets the name at its first occurrence only.
theorem get_foldl_enter (keys : List κ) (r : Roster κ) (key : κ) (name : String) :
    (keys.foldl (fun r k => r.enter k name) r).get key =
      if key ∈ keys then addName (r.get key) name else r.get key := by
  induction keys generalizing r with
  | nil => simp
  | cons k keys ih =>
      rw [List.foldl_cons, ih, enter, get_update]
      by_cases here : key = k
      · subst here
        simp [addName_addName]
      · simp [here]

end Roster

namespace SymbolTable

variable {t t' : SymbolTable} {d e : SymbolDefinition} {name : String}

-- Names of registered symbols are old, so the new name is not yet in the list.
theorem addName_index {p : SymbolDefinition → Bool} (new : d.name ∉ t.names) :
    Roster.addName ((t.definitions.filter p).map (·.name)) d.name =
      (t.definitions.filter p).map (·.name) ++ [d.name] := by
  refine Roster.addName_of_notMem fun old => ?_
  obtain ⟨e, he, same⟩ := List.mem_map.mp old
  exact new (same ▸ mem_names (List.mem_of_mem_filter he))

theorem Consistent.levels_insert (h : t.Consistent) (level : Nat) :
    (t.insert d).levels.get level =
      ((t.insert d).definitions.filter (·.level = level)).map (·.name) := by
  simp only [insert, Roster.push, Roster.get_update, List.filter_append, List.map_append]
  by_cases here : level = d.level
  · subst here
    rw [if_pos rfl, h.levels]
    simp
  · rw [if_neg here, h.levels]
    simp [Ne.symm here]

theorem Consistent.dependents_insert (h : t.Consistent) (new : d.name ∉ t.names) (name : String) :
    (t.insert d).dependents name =
      ((t.insert d).definitions.filter (name ∈ ·.dependencies)).map (·.name) := by
  have old : t.dependentsIndex.get name = _ := h.dependents name
  simp only [SymbolTable.dependents, insert, Roster.get_foldl_enter, List.filter_append, List.map_append]
  by_cases declared : name ∈ d.dependencies
  · rw [if_pos declared, old, addName_index new]
    simp [declared]
  · rw [if_neg declared, old]
    simp [declared]

/-! ## Runs of attempts -/

theorem consistent_empty : empty.Consistent where
  nodup := List.nodup_nil
  level_le _ h := nomatch h
  declared _ h := nomatch h
  dependency _ h := nomatch h
  levels _ := rfl
  dependents _ := rfl

theorem Consistent.insert (h : t.Consistent) (admits : t.Admits d) : (t.insert d).Consistent where
  nodup := by
    rw [names_insert, ← List.concat_eq_append]
    exact h.nodup.concat admits.new
  level_le := List.forall_mem_append.mpr ⟨h.level_le, by simpa using admits.level_le⟩
  declared := List.forall_mem_append.mpr ⟨h.declared, by simpa using admits.declared⟩
  dependency := by
    refine List.forall_mem_append.mpr ⟨fun c hc name hn => ?_, ?_⟩
    · obtain ⟨e, found, earlier, lower⟩ := h.dependency c hc name hn
      refine ⟨e, get?_insert_of_some found, ?_, lower⟩
      rwa [position_insert (mem_names_iff.mpr ⟨e, found⟩), position_insert (mem_names hc)]
    · intro c hc name hn
      cases List.mem_singleton.mp hc
      obtain ⟨e, found, lower⟩ := admits.dependency name hn
      have old : name ∈ t.names := mem_names_iff.mpr ⟨e, found⟩
      refine ⟨e, get?_insert_of_some found, ?_, lower⟩
      rw [position_insert old, position_insert_self admits.new]
      exact position_lt old
  levels := h.levels_insert
  dependents := h.dependents_insert admits.new

end SymbolTable

namespace Registry

variable {r : Registry} {a : Attempt}

/-- With or without a log, an attempt comes out and changes the table as registration does. -/
theorem attempt_eq (r : Registry) (a : Attempt) :
    (r.attempt a).1 = (r.table.register a.definition).1 ∧
      (r.attempt a).2.table = (r.table.register a.definition).2 := by
  cases a with
  | register d => exact ⟨rfl, rfl⟩
  | registerLogged d =>
      simp only [attempt, SymbolTable.registerLogged_eq]
      exact ⟨rfl, rfl⟩

theorem rejected_of_attempt {e : RegistrationError} (h : (r.attempt a).1 = .error e) :
    ¬ r.table.Admits a.definition ∧ (r.attempt a).2.table = r.table := by
  rw [(attempt_eq r a).1] at h
  rw [(attempt_eq r a).2]
  rcases r.table.register_cases a.definition with ⟨-, registered⟩ | ⟨refused, e', registered⟩
  · rw [registered] at h
    cases h
  · exact ⟨refused, by rw [registered]⟩

theorem accepted_of_attempt (h : (r.attempt a).1 = .ok ()) :
    r.table.Admits a.definition ∧ (r.attempt a).2.table = r.table.insert a.definition := by
  rw [(attempt_eq r a).1] at h
  rw [(attempt_eq r a).2]
  rcases r.table.register_cases a.definition with ⟨admits, registered⟩ | ⟨-, e', registered⟩
  · exact ⟨admits, by rw [registered]⟩
  · rw [registered] at h
    cases h

theorem consistent_attempt (h : r.table.Consistent) (a : Attempt) : (r.attempt a).2.table.Consistent := by
  cases outcome : (r.attempt a).1 with
  | error e =>
      rw [(rejected_of_attempt outcome).2]
      exact h
  | ok done =>
      obtain ⟨admits, equal⟩ := accepted_of_attempt outcome
      rw [equal]
      exact h.insert admits

theorem consistent_run (attempts : List Attempt) : (run attempts).table.Consistent := by
  suffices ∀ r : Registry, r.table.Consistent →
      (attempts.foldl (fun r a => (r.attempt a).2) r).table.Consistent from
    this {} SymbolTable.consistent_empty
  induction attempts with
  | nil => exact fun r h => h
  | cons a attempts ih => exact fun r h => ih (r.attempt a).2 (consistent_attempt h a)

end Registry

namespace SymbolTable

variable {t : SymbolTable} {d : SymbolDefinition} {a b name : String}

theorem Reachable.consistent (h : t.Reachable) : t.Consistent := by
  obtain ⟨attempts, rfl⟩ := h
  exact Registry.consistent_run attempts

/-! ## Dependencies of a consistent table -/

theorem dependsOn_iff : t.DependsOn a b ↔ ∃ d, t.get? a = some d ∧ b ∈ d.dependencies := by
  unfold DependsOn dependencies
  cases t.get? a <;> simp

theorem mem_names_of_dependsOn (h : t.DependsOn a b) : a ∈ t.names := by
  obtain ⟨d, found, -⟩ := dependsOn_iff.mp h
  exact mem_names_iff.mpr ⟨d, found⟩

theorem dependencies_of_not_mem (unknown : a ∉ t.names) : t.dependencies a = [] :=
  List.eq_nil_iff_forall_not_mem.mpr fun _ declared => unknown (mem_names_of_dependsOn declared)

theorem levelOf_of_get? (h : t.get? name = some d) : t.levelOf name = d.level := by
  simp [levelOf, level?, h]

theorem Consistent.dependsOn (h : t.Consistent) (depends : t.DependsOn a b) :
    b ∈ t.names ∧ t.position b < t.position a ∧ t.levelOf b < t.levelOf a := by
  obtain ⟨d, found, declared⟩ := dependsOn_iff.mp depends
  obtain ⟨e, found', earlier, lower⟩ := h.dependency d (mem_of_get? found) b declared
  rw [name_of_get? found] at earlier
  refine ⟨mem_names_iff.mpr ⟨e, found'⟩, earlier, ?_⟩
  rwa [levelOf_of_get? found, levelOf_of_get? found']

theorem Consistent.levelOf_lt (h : t.Consistent) (depends : Relation.TransGen t.DependsOn a b) :
    t.levelOf b < t.levelOf a := by
  induction depends with
  | single first => exact (h.dependsOn first).2.2
  | tail _ last ih => exact Nat.lt_trans (h.dependsOn last).2.2 ih

theorem Consistent.acyclic (h : t.Consistent) (name : String) :
    ¬ Relation.TransGen t.DependsOn name name :=
  fun cycle => Nat.lt_irrefl _ (h.levelOf_lt cycle)

theorem Consistent.get?_iff (h : t.Consistent) :
    t.get? name = some d ↔ d ∈ t.definitions ∧ d.name = name := by
  constructor
  · exact fun found => ⟨mem_of_get? found, name_of_get? found⟩
  · rintro ⟨hd, rfl⟩
    exact get?_of_mem h.nodup hd

theorem Consistent.nodup_filter (h : t.Consistent) (p : SymbolDefinition → Bool) :
    ((t.definitions.filter p).map (·.name)).Nodup :=
  (List.Sublist.map _ (List.filter_sublist)).nodup h.nodup

theorem Consistent.nodup_dependents (h : t.Consistent) (name : String) : (t.dependents name).Nodup := by
  rw [h.dependents]
  exact h.nodup_filter _

theorem Consistent.mem_dependents (h : t.Consistent) : a ∈ t.dependents b ↔ t.DependsOn a b := by
  simp only [h.dependents, List.mem_map, List.mem_filter, decide_eq_true_eq, dependsOn_iff, h.get?_iff]
  exact ⟨fun ⟨d, ⟨hd, declared⟩, same⟩ => ⟨d, ⟨hd, same⟩, declared⟩,
    fun ⟨d, ⟨hd, same⟩, declared⟩ => ⟨d, ⟨hd, declared⟩, same⟩⟩

theorem Consistent.atLevel (h : t.Consistent) (level : Nat) :
    t.atLevel level = t.definitions.filter (·.level = level) := by
  have found : ∀ d ∈ t.definitions.filter (·.level = level), (t.get? ∘ (·.name)) d = some d :=
    fun d hd => get?_of_mem h.nodup (List.mem_of_mem_filter hd)
  rw [SymbolTable.atLevel, h.levels, List.filterMap_map, List.filterMap_congr found, List.filterMap_some]

end SymbolTable

/-- After any attempts the table is consistent, finds each definition by its name and has no cycles.
A further attempt appends its definition if the table admits it, and changes nothing otherwise. -/
theorem registrations_keep_table_consistent (attempts : List Attempt) :
    let r := Registry.run attempts
    r.table.Consistent ∧
    (∀ name d, r.table.get? name = some d ↔ d ∈ r.table.definitions ∧ d.name = name) ∧
    (∀ name, ¬ Relation.TransGen r.table.DependsOn name name) ∧
    (∀ level, (r.table.levels.get level).Nodup ∧
      r.table.atLevel level = r.table.definitions.filter (·.level = level)) ∧
    (∀ name, (r.table.dependents name).Nodup) ∧
    ∀ a : Attempt,
      (∀ e, (r.attempt a).1 = .error e →
        ¬ r.table.Admits a.definition ∧ (r.attempt a).2.table = r.table) ∧
      ((r.attempt a).1 = .ok () → r.table.Admits a.definition ∧
        (r.attempt a).2.table.definitions = r.table.definitions ++ [a.definition]) := by
  intro r
  have consistent : r.table.Consistent := Registry.consistent_run attempts
  refine ⟨consistent, fun _ _ => consistent.get?_iff, consistent.acyclic, fun level => ⟨?_, ?_⟩,
    consistent.nodup_dependents, fun a => ⟨fun e h => Registry.rejected_of_attempt h, fun h => ?_⟩⟩
  · rw [consistent.levels]
    exact consistent.nodup_filter _
  · exact consistent.atLevel level
  · obtain ⟨admits, equal⟩ := Registry.accepted_of_attempt h
    exact ⟨admits, congrArg SymbolTable.definitions equal⟩

-- The second attempt is rejected for its level, the third one declares a dependency twice.
theorem registrations_keep_table_consistent_mixed :
    let define (name : String) (level : Nat) (dependencies : List String) : SymbolDefinition :=
      { name, level, scheme := .mono (.function .number .number), executable := ⟨0, .ok⟩, dependencies }
    let r := Registry.run [.register (define "add" 0 []), .registerLogged (define "bad" 0 ["add"]),
      .register (define "double" 1 ["add", "add"])]
    r.table.names = ["add", "double"] ∧ r.log.events.length = 1 ∧
      r.table.dependents "add" = ["double"] ∧ r.table.levels.get 1 = ["double"] ∧
      r.table.Consistent ∧ (r.table.dependents "add").Nodup ∧
      (r.attempt (.registerLogged (define "add" 3 []))).1 = .error (.duplicateSymbol "add") ∧
      (r.attempt (.registerLogged (define "add" 3 []))).2.table.names = r.table.names := by
  intro define r
  obtain ⟨consistent, -, -, -, nodup, further⟩ := registrations_keep_table_consistent
    [.register (define "add" 0 []), .registerLogged (define "bad" 0 ["add"]),
      .register (define "double" 1 ["add", "add"])]
  have rejected : (r.attempt (.registerLogged (define "add" 3 []))).1 = .error (.duplicateSymbol "add") := by
    rfl
  refine ⟨by decide +kernel, by decide +kernel, by decide +kernel, by decide +kernel, consistent,
    nodup "add", rejected, ?_⟩
  rw [((further _).1 _ rejected).2]

end OpCalculus
