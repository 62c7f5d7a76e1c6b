import Mathlib
import OpCalculus.Proofs.Symbol.ExecutionOrder

/-!
# The counts of a schedule are exact

A schedule takes its counts from the dependencies that symbols declare and lowers them along the index of
dependents, which is kept apart. Here the loop is watched: lowering a count that is zero is an error, and every
name that gets ready is written down (`Progress`). Between any two turns each count is the number of distinct
dependencies that have not run (`Exact`). So no count is lowered below zero, a member gets ready once, in the turn
of its last dependency, and when nothing is ready every count is zero and every member has run.
-/

namespace OpCalculus

/-- A count of zero that was to be lowered. -/
structure Underflow where
  name : String

/-- The loop of a schedule with what has happened so far. -/
structure Progress where
  schedule : Schedule
  /-- The names that have run, in order. -/
  emitted : List String
  /-- The names that were put among the ready ones, as often as they were. -/
  readied : List String

namespace Progress

def start (t : SymbolTable) (members : List String) : Progress where
  schedule := t.schedule members
  emitted := []
  readied := members.filter fun name => t.dependencyCount name = 0

/-- Releases a name in the schedule, unless its count is zero. -/
def release (t : SymbolTable) (p : Progress) (name : String) : Except Underflow Progress :=
  match p.schedule.pending.lookup name with
  | some 0 => .error ⟨name⟩
  | some 1 => .ok { p with schedule := p.schedule.release t name, readied := p.readied ++ [name] }
  | _ => .ok { p with schedule := p.schedule.release t name }

/-- Runs a name, with the rest of the ready ones left. -/
def emit (p : Progress) (name : String) (rest : List String) : Progress :=
  { p with schedule := { p.schedule with ready := rest }, emitted := p.emitted ++ [name] }

/-- Runs the first ready name and releases its dependents one by one. -/
def turn (t : SymbolTable) (p : Progress) : Except Underflow (Option Progress) :=
  match p.schedule.ready with
  | [] => .ok none
  | name :: rest => ((t.dependents name).foldlM (release t) (p.emit name rest)).map some

/-- The states of the loop between its turns. -/
inductive Reached (t : SymbolTable) (members : List String) : Progress → Prop
  | start : Reached t members (start t members)
  | turn {p q : Progress} (before : Reached t members p) (turn : p.turn t = .ok (some q)) : Reached t members q

end Progress

namespace SymbolTable

variable {t : SymbolTable}

theorem Consistent.remaining_eq_card (h : t.Consistent) (done : List String) (a : String) :
    t.remaining done a = ((t.dependencies a).toFinset \ done.toFinset).card := by
  rw [remaining, ← List.toFinset_card_of_nodup ((nodup_distinct _).filter _)]
  congr 1
  ext b
  have registered : b ∈ t.dependencies a → t.contains b = true := fun depends =>
    contains_iff.mpr (h.dependsOn depends).1
  simp only [List.mem_toFinset, List.mem_filter, mem_distinct, Finset.mem_sdiff, decide_eq_true_eq]
  exact and_congr_left fun _ => and_iff_left_of_imp registered

end SymbolTable

namespace Progress

open SymbolTable Schedule

variable {t : SymbolTable} {p : Progress} {members names : List String} {name x : String}

/-! ## One turn -/

theorem release_of_ne_zero (positive : p.schedule.pending.lookup name ≠ some 0) :
    p.release t name = .ok
      { p with
        schedule := p.schedule.release t name
        readied := p.readied ++ [name].filter fun n => p.schedule.pending.lookup n = some 1 } := by
  unfold release
  split
  · rename_i zero
    exact absurd zero positive
  · rename_i one
    simp [one]
  · rename_i more
    simp [show ¬ p.schedule.pending.lookup name = some 1 from more]

theorem foldlM_release (nodup : names.Nodup) (p : Progress)
    (positive : ∀ name ∈ names, p.schedule.pending.lookup name ≠ some 0) :
    names.foldlM (release t) p = .ok
      { p with
        schedule := names.foldl (Schedule.release t) p.schedule
        readied := p.readied ++ names.filter fun n => p.schedule.pending.lookup n = some 1 } := by
  induction names generalizing p with
  | nil =>
      rw [List.filter_nil, List.append_nil]
      rfl
  | cons name names ih =>
      obtain ⟨absent, nodup⟩ := List.nodup_cons.mp nodup
      -- The counts of the other names are as before.
      have same : ∀ n ∈ names, (p.schedule.release t name).pending.lookup n = p.schedule.pending.lookup n :=
        fun n hn => lookup_countDown_of_ne (ne_of_mem_of_not_mem hn absent) _
      have first := release_of_ne_zero (t := t) (positive name (List.mem_cons_self ..))
      rw [List.foldlM_cons, first]
      refine (ih nodup _ fun n hn => ?_).trans ?_
      · rw [same n hn]
        exact positive n (List.mem_cons_of_mem _ hn)
      · have logged : names.filter (fun n => (p.schedule.release t name).pending.lookup n = some 1) =
            names.filter fun n => p.schedule.pending.lookup n = some 1 :=
          List.filter_congr fun n hn => by rw [same n hn]
        rw [logged, List.append_assoc, ← List.filter_append, List.singleton_append]
        rfl

/-- The state after a turn in which nothing underflows. -/
def advance (t : SymbolTable) (p : Progress) (name : String) (rest : List String) : Progress where
  schedule := (t.dependents name).foldl (Schedule.release t) { p.schedule with ready := rest }
  emitted := p.emitted ++ [name]
  readied := p.readied ++ (t.dependents name).filter fun n => p.schedule.pending.lookup n = some 1

theorem step?_of_ready {rest : List String} (ready : p.schedule.ready = name :: rest) :
    p.schedule.step? t = some (name, (p.advance t name rest).schedule) := by
  rw [step?, ready]
  rfl

theorem turn_of_ready {rest : List String} (ready : p.schedule.ready = name :: rest)
    (nodup : (t.dependents name).Nodup)
    (positive : ∀ n ∈ t.dependents name, p.schedule.pending.lookup n ≠ some 0) :
    p.turn t = .ok (some (p.advance t name rest)) := by
  rw [turn, ready]
  simp only
  rw [foldlM_release nodup (p.emit name rest) positive]
  rfl

/-! ## Exact counts -/

/-- The schedule tracks what has run, and what got ready is what nothing remains for. -/
structure Exact (t : SymbolTable) (members : List String) (p : Progress) : Prop where
  tracks : Tracks t members p.emitted.reverse p.schedule
  emitted_nodup : p.emitted.Nodup
  emitted_subset : p.emitted ⊆ members
  readied_nodup : p.readied.Nodup
  mem_readied : ∀ x, x ∈ p.readied ↔ x ∈ members ∧ t.remaining p.emitted.reverse x = 0

theorem exact_start (consistent : t.Consistent) (closed : Closed t members) (nodup : members.Nodup) :
    Exact t members (start t members) where
  tracks := tracks_schedule consistent closed
  emitted_nodup := List.nodup_nil
  emitted_subset := List.nil_subset _
  readied_nodup := nodup.filter _
  mem_readied x := by simp [start, consistent.remaining_nil]

-- A dependent of a name that has not run waits for this name at least.
theorem Exact.count_ne_zero (h : Exact t members p) (consistent : t.Consistent) (new : name ∉ p.emitted)
    (depends : t.DependsOn x name) : p.schedule.pending.lookup x ≠ some 0 := by
  intro zero
  rw [h.tracks.pending, lookup_map_eq_some] at zero
  have less := consistent.remaining_cons depends (mt List.mem_reverse.mp new)
  omega

-- The names that get ready in a turn had one dependency left, the name that runs in it.
theorem Exact.mem_freed (h : Exact t members p) (consistent : t.Consistent) (new : name ∉ p.emitted) :
    x ∈ (t.dependents name).filter (fun n => p.schedule.pending.lookup n = some 1) ↔
      x ∈ members ∧ t.remaining p.emitted.reverse x ≠ 0 ∧
        t.remaining (p.emitted ++ [name]).reverse x = 0 := by
  rw [List.mem_filter, consistent.mem_dependents, decide_eq_true_eq, h.tracks.pending, lookup_map_eq_some,
    List.reverse_concat]
  by_cases depends : t.DependsOn x name
  · have less := consistent.remaining_cons depends (mt List.mem_reverse.mp new)
    rw [and_iff_right depends]
    exact and_congr_right fun _ => by omega
  · simp only [depends, false_and, false_iff, remaining_cons_of_not depends]
    tauto

theorem Exact.advance (h : Exact t members p) (consistent : t.Consistent) {rest : List String}
    (ready : p.schedule.ready = name :: rest) : Exact t members (p.advance t name rest) := by
  obtain ⟨member, new, -⟩ := (h.tracks.mem_ready name).mp (ready ▸ List.mem_cons_self ..)
  rw [List.mem_reverse] at new
  have tracks := h.tracks.step consistent (step?_of_ready ready)
  rw [← List.reverse_concat] at tracks
  have freed (x : String) := h.mem_freed (x := x) consistent new
  refine ⟨tracks, ?_, ?_, ?_, fun x => ?_⟩
  · change (p.emitted ++ [name]).Nodup
    rw [← List.concat_eq_append]
    exact h.emitted_nodup.concat new
  · exact List.append_subset.mpr ⟨h.emitted_subset, by simpa using member⟩
  · refine h.readied_nodup.append ((consistent.nodup_dependents name).filter _) fun x old fresh => ?_
    exact ((freed x).mp fresh).2.1 ((h.mem_readied x).mp old).2
  · have stays : t.remaining p.emitted.reverse x = 0 → t.remaining (p.emitted ++ [name]).reverse x = 0 :=
      consistent.remaining_eq_zero_of_subset (by simp)
    change x ∈ p.readied ++ _ ↔ x ∈ members ∧ t.remaining (p.emitted ++ [name]).reverse x = 0
    rw [List.mem_append, h.mem_readied, freed]
    tauto

theorem Exact.turn (h : Exact t members p) (consistent : t.Consistent) :
    (p.schedule.step? t = none ∧ p.turn t = .ok none) ∨
    ∃ name q, p.schedule.step? t = some (name, q.schedule) ∧ p.turn t = .ok (some q) ∧
      q.emitted = p.emitted ++ [name] ∧ Exact t members q := by
  cases ready : p.schedule.ready with
  | nil =>
      refine .inl ⟨?_, ?_⟩
      · rw [step?, ready]
      · rw [Progress.turn, ready]
  | cons name rest =>
      obtain ⟨-, new, -⟩ := (h.tracks.mem_ready name).mp (ready ▸ List.mem_cons_self ..)
      have turned := turn_of_ready ready (consistent.nodup_dependents name) fun n hn =>
        h.count_ne_zero consistent (mt List.mem_reverse.mpr new) (consistent.mem_dependents.mp hn)
      exact .inr ⟨name, p.advance t name rest, step?_of_ready ready, turned, rfl, h.advance consistent ready⟩

theorem Reached.exact (h : Reached t members p) (consistent : t.Consistent) (closed : Closed t members)
    (nodup : members.Nodup) : Exact t members p := by
  induction h with
  | start => exact exact_start consistent closed nodup
  | turn _ turned ih =>
      obtain ⟨-, stop⟩ | ⟨name, q, -, next, -, counts⟩ := ih.turn consistent
      · rw [stop] at turned
        cases turned
      · rw [next] at turned
        cases turned
        exact counts

/-- What got ready has run since then or is ready still. -/
theorem Exact.readied_perm (h : Exact t members p) : p.readied.Perm (p.emitted ++ p.schedule.ready) := by
  have waiting : ∀ x ∈ p.emitted, x ∉ p.schedule.ready := fun x ran ready =>
    ((h.tracks.mem_ready x).mp ready).2.1 (List.mem_reverse.mpr ran)
  have nodup := h.emitted_nodup.append h.tracks.sorted.nodup waiting
  refine (List.perm_ext_iff_of_nodup h.readied_nodup nodup).mpr fun x => ?_
  rw [h.mem_readied, List.mem_append, h.tracks.mem_ready, List.mem_reverse]
  constructor
  · rintro ⟨member, free⟩
    by_cases ran : x ∈ p.emitted
    · exact .inl ran
    · exact .inr ⟨member, ran, free⟩
  · rintro (ran | ⟨member, -, free⟩)
    · exact ⟨h.emitted_subset ran, h.tracks.settled x (List.mem_reverse.mpr ran)⟩
    · exact ⟨member, free⟩

/-! ## The end of the loop -/

/-- When nothing is ready, all members have run and no count is left. -/
theorem Exact.finished (h : Exact t members p) (consistent : t.Consistent) (closed : Closed t members)
    (nodup : members.Nodup) (stop : p.schedule.step? t = none) :
    p.emitted.Perm members ∧ p.readied.Perm members ∧ ∀ x n, (x, n) ∈ p.schedule.pending → n = 0 := by
  have ran : ∀ x ∈ members, x ∈ p.emitted := fun x member =>
    List.mem_reverse.mp (h.tracks.mem_done_of_stop consistent closed stop member)
  have free : ∀ x ∈ members, t.remaining p.emitted.reverse x = 0 := fun x member =>
    consistent.remaining_eq_zero.mpr fun b depends =>
      List.mem_reverse.mpr (ran b (closed.dependency x member b depends))
  refine ⟨(List.perm_ext_iff_of_nodup h.emitted_nodup nodup).mpr fun x => ?_,
    (List.perm_ext_iff_of_nodup h.readied_nodup nodup).mpr fun x => ?_, fun x n entry => ?_⟩
  · exact ⟨fun hx => h.emitted_subset hx, ran x⟩
  · rw [h.mem_readied]
    exact and_iff_left_of_imp (free x)
  · rw [h.tracks.pending] at entry
    obtain ⟨y, member, equal⟩ := List.mem_map.mp entry
    cases equal
    exact free x member

theorem Exact.exists_last (h : Exact t members p) (consistent : t.Consistent) (reached : Reached t members p) :
    ∃ last, Reached t members last ∧ Exact t members last ∧ last.schedule.step? t = none ∧
      last.turn t = .ok none ∧ last.emitted = p.emitted ++ p.schedule.run t := by
  generalize equal : p.schedule = s
  fun_induction Schedule.run t s generalizing p with
  | case1 s stop =>
      subst equal
      obtain ⟨-, turned⟩ | ⟨name, q, step, -⟩ := h.turn consistent
      · exact ⟨p, reached, h, stop, turned, (List.append_nil _).symm⟩
      · rw [stop] at step
        cases step
  | case2 s name next step ih =>
      subst equal
      obtain ⟨stop, -⟩ | ⟨name', q, step', turned, emitted, counts⟩ := h.turn consistent
      · rw [stop] at step
        cases step
      · rw [step'] at step
        cases step
        obtain ⟨last, reached, counts, stop, turned, run⟩ := ih counts (reached.turn turned) rfl
        refine ⟨last, reached, counts, stop, turned, ?_⟩
        rw [run, emitted, List.append_assoc, List.singleton_append]

end Progress

/-- In the loop that orders registered names of a table, between any two turns, the count of each member of
their closure is the number of its distinct dependencies that have not run. No turn lowers a count of zero, and
each is the turn of the schedule itself. What got ready has run or is ready still; a member got ready once if
all its dependencies have run, and not at all before that. The loop ends with every member run, every member
readied once and every count zero. -/
theorem pending_counts_exact {t : SymbolTable} (reachable : t.Reachable) {names : List String}
    (registered : ∀ n ∈ names, n ∈ t.names) :
    let members := t.closure names
    (∀ p, Progress.Reached t members p →
      p.schedule.pending =
        members.map (fun x => (x, ((t.dependencies x).toFinset \ p.emitted.toFinset).card)) ∧
      (∃ next, p.turn t = .ok next ∧ next.map Progress.schedule = (p.schedule.step? t).map Prod.snd) ∧
      p.readied.Perm (p.emitted ++ p.schedule.ready) ∧
      ∀ x, p.readied.count x = if x ∈ members ∧ t.dependencies x ⊆ p.emitted then 1 else 0) ∧
    ∃ last, Progress.Reached t members last ∧ last.turn t = .ok none ∧
      t.executionOrder names = .ok last.emitted ∧ last.emitted.Perm members ∧ last.readied.Perm members ∧
      ∀ x n, (x, n) ∈ last.schedule.pending → n = 0 := by
  intro members
  have consistent := reachable.consistent
  have closed : Schedule.Closed t members := consistent.closed_closure names
  have nodup : members.Nodup := consistent.nodup_closure names
  constructor
  · intro p reached
    have counts := reached.exact consistent closed nodup
    refine ⟨?_, ?_, counts.readied_perm, fun x => ?_⟩
    · rw [counts.tracks.pending]
      simp only [consistent.remaining_eq_card, List.toFinset_reverse]
    · obtain ⟨stop, turned⟩ | ⟨name, q, step, turned, -⟩ := counts.turn consistent
      · exact ⟨none, turned, by rw [stop]; rfl⟩
      · exact ⟨some q, turned, by rw [step]; rfl⟩
    · rw [counts.readied_nodup.count]
      refine if_congr ?_ rfl rfl
      rw [counts.mem_readied, consistent.remaining_eq_zero]
      simp only [List.mem_reverse]
      rfl
  · have start := Progress.exact_start consistent closed nodup
    obtain ⟨last, reached, counts, stop, turned, run⟩ := start.exists_last consistent .start
    refine ⟨last, reached, turned, ?_, counts.finished consistent closed nodup stop⟩
    rw [SymbolTable.executionOrder, SymbolTable.find?_unregistered_eq_none.mpr registered, run]
    rfl

-- A dependency is declared twice, and a symbol outside the closure depends on a member.
theorem pending_counts_exact_diamond :
    let define (name : String) (level : Nat) (dependencies : List String) : SymbolDefinition :=
      { name, level, scheme := .mono (.function .number .number), executable := ⟨0, .ok⟩, dependencies }
    let t := (Registry.run [.register (define "base" 0 []), .register (define "right" 2 ["base", "base"]),
      .register (define "left" 1 ["base"]), .register (define "other" 1 ["base"]),
      .register (define "top" 3 ["right", "left"])]).table
    let members := t.closure ["top", "left"]
    let first : Progress :=
      ⟨⟨[("left", 0), ("base", 0), ("top", 2), ("right", 0)], ["left", "right"]⟩, ["base"],
        ["base", "right", "left"]⟩
    t.Reachable ∧ (∀ n ∈ ["top", "left"], n ∈ t.names) ∧ t.dependents "base" = ["right", "left", "other"] ∧
      (Progress.start t members).schedule.pending = [("left", 1), ("base", 0), ("top", 2), ("right", 1)] ∧
      Progress.Reached t members first ∧
      first.schedule.pending =
        members.map (fun x => (x, ((t.dependencies x).toFinset \ first.emitted.toFinset).card)) ∧
      first.readied.count "right" = 1 ∧ first.readied.count "top" = 0 ∧
      ∃ last, Progress.Reached t members last ∧ last.turn t = .ok none ∧
        last.emitted = ["base", "left", "right", "top"] ∧ last.readied.Perm members := by
  intro define t members first
  have reachable : t.Reachable := ⟨_, rfl⟩
  have known : ∀ n ∈ ["top", "left"], n ∈ t.names := by decide +kernel
  have order : t.executionOrder ["top", "left"] = .ok ["base", "left", "right", "top"] := by
    simp only [t, define]
    cbv
  have turned : (Progress.start t members).turn t = .ok (some first) := by
    simp only [members, first, t, define]
    cbv
  have reached : Progress.Reached t members first := .turn .start turned
  obtain ⟨counts, last, reached', stop, ok, -, readied, -⟩ := pending_counts_exact reachable known
  obtain ⟨pending, -, -, ready⟩ := counts first reached
  have listed : members = ["left", "base", "top", "right"] := by
    simp only [members, t, define]
    cbv
  have inside : "right" ∈ members ∧ t.dependencies "right" ⊆ first.emitted := by
    rw [listed]
    decide +kernel
  have outside : ¬ ("top" ∈ members ∧ t.dependencies "top" ⊆ first.emitted) := by
    rw [listed]
    decide +kernel
  refine ⟨reachable, known, by decide +kernel, ?_, reached, pending, (ready "right").trans (if_pos inside),
    (ready "top").trans (if_neg outside), last, reached', stop, Except.ok.inj (ok.symm.trans order), readied⟩
  rw [listed]
  decide +kernel

end OpCalculus
