import Mathlib
import OpCalculus.Proofs.Symbol.Registration
import OpCalculus.Symbol.Workspace

/-!
# The log as a record

A log has one event for each attempt, in order, and the events tell how the attempts came out
(`Faithful`). The definitions with accepted events, registered alone, are all accepted again and build
the same table. A table that is reached through a handle keeps its log in the same way, whatever else
happens to other tables of the workspace (`get_registerAll_add`).
-/

namespace OpCalculus

variable {t : SymbolTable} {d : SymbolDefinition} {ds : List SymbolDefinition}
  {events : List RegistrationEvent}

/-! ## Faithful logs -/

/-- The event tells how the attempt at a place came out. -/
structure RegistrationEvent.Records (event : RegistrationEvent) (place : Nat) (d : SymbolDefinition)
    (result : Except RegistrationError Unit) : Prop where
  sequence : event.sequence = place
  name : event.name = d.name
  level : event.level = d.level
  accepted : event.outcome = .accepted ↔ result = .ok ()
  rejected : ∀ e, result = .error e → event.outcome = .rejected e.diagnostic.code e.message

/-- The table after attempts that were not logged. -/
def SymbolTable.registered (ds : List SymbolDefinition) : SymbolTable :=
  (Registry.run (ds.map .register)).table

/-- The definitions whose attempts were accepted. -/
def acceptedOf (ds : List SymbolDefinition) (events : List RegistrationEvent) : List SymbolDefinition :=
  ((ds.zip events).filter fun p => p.2.isAccepted).map (·.1)

/-- The table and the events are those of registering the definitions, and the events suffice to build
the table again. -/
structure Faithful (ds : List SymbolDefinition) (t : SymbolTable) (events : List RegistrationEvent) :
    Prop where
  table : t = .registered ds
  length : events.length = ds.length
  records : ∀ i d, ds[i]? = some d → ∃ event : RegistrationEvent, events[i]? = some event ∧
    event.Records (i + 1) d ((SymbolTable.registered (ds.take i)).register d).1
  names : (events.filter (·.isAccepted)).map (·.name) = t.names
  replay : SymbolTable.empty.registerAll (acceptedOf ds events) = (.ok (), t)

theorem Registry.run_concat (attempts : List Attempt) (a : Attempt) :
    run (attempts ++ [a]) = ((run attempts).attempt a).2 := by
  simp [run]

theorem faithful_nil : Faithful [] .empty [] where
  table := rfl
  length := rfl
  records _ _ h := nomatch h
  names := rfl
  replay := rfl

theorem acceptedOf_concat {event : RegistrationEvent} (length : events.length = ds.length) :
    acceptedOf (ds ++ [d]) (events ++ [event]) =
      acceptedOf ds events ++ if event.isAccepted then [d] else [] := by
  rw [acceptedOf, List.zip_append length.symm, List.filter_append, List.map_append]
  cases accepted : event.isAccepted <;> simp [acceptedOf, accepted]

theorem registered_concat (ds : List SymbolDefinition) (d : SymbolDefinition) :
    SymbolTable.registered (ds ++ [d]) = ((SymbolTable.registered ds).register d).2 := by
  rw [SymbolTable.registered, List.map_append, List.map_singleton, Registry.run_concat]
  rfl

theorem SymbolTable.registerAll_concat {first : SymbolTable} (h : first.registerAll ds = (.ok (), t))
    (d : SymbolDefinition) : first.registerAll (ds ++ [d]) = t.register d := by
  induction ds generalizing first with
  | nil =>
      cases h
      rw [List.nil_append, registerAll]
      rcases t.register_cases d with ⟨-, registered⟩ | ⟨-, e, registered⟩
      · rw [registered]
        rfl
      · rw [registered]
  | cons c ds ih =>
      rw [registerAll] at h
      rw [List.cons_append, registerAll]
      rcases first.register_cases c with ⟨-, registered⟩ | ⟨-, e, registered⟩
      · rw [registered] at h ⊢
        exact ih h
      · rw [registered] at h
        cases h

theorem exists_events_record (log : RegistrationLog) (d : SymbolDefinition)
    (result : Except RegistrationError Unit) :
    ∃ event : RegistrationEvent, (log.record d result).events = log.events ++ [event] ∧
      event.Records (log.events.length + 1) d result := by
  refine ⟨_, rfl, rfl, rfl, rfl, ?_, ?_⟩
  · cases result <;> simp
  · rintro e rfl
    rfl

theorem RegistrationEvent.Records.isAccepted_iff {event : RegistrationEvent} {place : Nat}
    {result : Except RegistrationError Unit} (h : event.Records place d result) :
    event.isAccepted = true ↔ result = .ok () := by
  rw [RegistrationEvent.isAccepted, decide_eq_true_eq, h.accepted]

theorem Faithful.concat {event : RegistrationEvent} (h : Faithful ds t events)
    (recorded : event.Records (ds.length + 1) d (t.register d).1) :
    Faithful (ds ++ [d]) (t.register d).2 (events ++ [event]) := by
  have outcome := recorded.isAccepted_iff
  refine ⟨?_, by simp [h.length], fun i d' found => ?_, ?_, ?_⟩
  · rw [registered_concat, ← h.table]
  · rcases Nat.lt_or_ge i ds.length with old | new
    · rw [List.getElem?_append_left old] at found
      rw [List.getElem?_append_left (h.length ▸ old), List.take_append_of_le_length (Nat.le_of_lt old)]
      exact h.records i d' found
    · obtain rfl : i = ds.length := by
        have := (List.getElem?_eq_some_iff.mp found).1
        simp at this
        omega
      rw [List.getElem?_concat_length] at found
      cases found
      rw [List.take_left, ← h.table]
      exact ⟨event, by rw [← h.length, List.getElem?_concat_length], recorded⟩
  · rw [List.filter_append, List.map_append, h.names]
    rcases t.register_cases d with ⟨-, registered⟩ | ⟨-, e, registered⟩
    · rw [registered] at outcome ⊢
      simp [outcome, recorded.name, SymbolTable.names_insert]
    · rw [registered] at outcome ⊢
      simp [outcome]
  · rw [acceptedOf_concat h.length]
    rcases t.register_cases d with ⟨-, registered⟩ | ⟨-, e, registered⟩
    · rw [registered] at outcome ⊢
      rw [if_pos (outcome.mpr rfl), SymbolTable.registerAll_concat h.replay, registered]
    · rw [registered] at outcome ⊢
      have rejected : event.isAccepted ≠ true := by simp [outcome]
      rw [if_neg rejected, List.append_nil, h.replay]

/-! ## Runs of logged attempts -/

theorem Registry.attempt_registerLogged (r : Registry) (d : SymbolDefinition) :
    r.attempt (.registerLogged d) =
      ((r.table.register d).1, ⟨(r.table.register d).2, r.log.record d (r.table.register d).1⟩) := by
  rw [attempt, SymbolTable.registerLogged_eq]

theorem faithful_run (ds : List SymbolDefinition) :
    Faithful ds (Registry.run (ds.map .registerLogged)).table
      (Registry.run (ds.map .registerLogged)).log.events := by
  induction ds using List.reverseRecOn with
  | nil => exact faithful_nil
  | append_singleton ds d ih =>
      rw [List.map_append, List.map_singleton, Registry.run_concat, Registry.attempt_registerLogged]
      obtain ⟨event, appended, recorded⟩ := exists_events_record
        (Registry.run (ds.map .registerLogged)).log d ((Registry.run (ds.map .registerLogged)).table.register d).1
      rw [appended]
      exact ih.concat (ih.length ▸ recorded)

/-! ## Tables behind handles -/

/-- The table that keeps its log itself. -/
def Registry.shared (r : Registry) : LoggedTable := ⟨r.table, some r.log⟩

theorem Registry.register_shared (r : Registry) (d : SymbolDefinition) :
    r.shared.register d =
      ((r.attempt (.registerLogged d)).1, (r.attempt (.registerLogged d)).2.shared) := rfl

namespace Workspace

variable {w : Workspace} {h h' : Handle}

/-- Attempts at tables of a workspace, in any order. -/
def registerAll (w : Workspace) (attempts : List (Handle × SymbolDefinition)) : Workspace :=
  attempts.foldl (fun w a => (w.register a.1 a.2).2) w

theorem length_register : (w.register h d).2.tables.length = w.tables.length := by
  simp [register]

theorem get_register_self (valid : h < w.tables.length) :
    (w.register h d).2.get h = ((w.get h).register d).2 := by
  simp [register, get, valid]

theorem get_register_of_ne (other : h' ≠ h) : (w.register h' d).2.get h = w.get h := by
  simp [register, get, List.getElem?_set_ne other]

theorem get_registerAll {r : Registry} (attempts : List (Handle × SymbolDefinition))
    (valid : h < w.tables.length) (shared : w.get h = r.shared) :
    (w.registerAll attempts).get h =
      ((((attempts.filter (·.1 = h)).map (·.2)).map Attempt.registerLogged).foldl
        (fun r a => (r.attempt a).2) r).shared := by
  induction attempts generalizing w r with
  | nil => exact shared
  | cons a attempts ih =>
      obtain ⟨h', d⟩ := a
      have valid' : h < (w.register h' d).2.tables.length := length_register.symm ▸ valid
      by_cases here : h' = h
      · subst here
        have step := get_register_self valid (d := d)
        rw [shared, Registry.register_shared] at step
        simpa [registerAll] using ih valid' step
      · have step := (get_register_of_ne here (d := d)).trans shared
        simpa [registerAll, here] using ih valid' step

theorem length_registerAll (attempts : List (Handle × SymbolDefinition)) :
    (w.registerAll attempts).tables.length = w.tables.length := by
  induction attempts generalizing w with
  | nil => rfl
  | cons a attempts ih => exact ih.trans length_register

theorem get_registerAll_add (w : Workspace) (attempts : List (Handle × SymbolDefinition)) :
    ((w.add { log := some {} }).2.registerAll attempts).get w.tables.length =
      (Registry.run (((attempts.filter (·.1 = w.tables.length)).map (·.2)).map .registerLogged)).shared :=
  get_registerAll attempts (by simp [add]) (by simp [get, add]; rfl)

end Workspace

/-- Logged attempts come out as attempts without a log, and the log is a faithful record of them. The same
holds of a table that was made with a log in a workspace, whatever is registered in the other tables. -/
theorem log_is_faithful (ds : List SymbolDefinition) (w : Workspace)
    (attempts : List (Workspace.Handle × SymbolDefinition)) :
    let r := Registry.run (ds.map .registerLogged)
    let h := (w.add { log := some {} }).1
    let w' := (w.add { log := some {} }).2.registerAll attempts
    let own := (attempts.filter (·.1 = h)).map (·.2)
    (∀ d, (r.table.registerLogged r.log d).1 = (r.table.register d).1 ∧
      (r.table.registerLogged r.log d).2.1 = (r.table.register d).2) ∧
    Faithful ds r.table r.log.events ∧
    (∀ d, (w'.register h d).1 = ((SymbolTable.registered own).register d).1 ∧
      ((w'.register h d).2.get h).table = ((SymbolTable.registered own).register d).2) ∧
    Faithful own (w'.get h).snapshot.table (w'.get h).events := by
  intro r h w' own
  have shared : w'.get h = (Registry.run (own.map .registerLogged)).shared := w.get_registerAll_add attempts
  have faithful := faithful_run own
  refine ⟨fun d => by simp [SymbolTable.registerLogged_eq], faithful_run ds, fun d => ?_, ?_⟩
  · have valid : h < w'.tables.length := by simp [w', h, Workspace.length_registerAll, Workspace.add]
    have step := Registry.register_shared (Registry.run (own.map .registerLogged)) d
    rw [Registry.attempt_registerLogged, ← shared] at step
    rw [← faithful.table, Workspace.get_register_self valid, step]
    exact ⟨congrArg Prod.fst step, rfl⟩
  · rw [shared]
    exact faithful

-- The second attempt is rejected, and the third one is made in another table.
theorem log_is_faithful_mixed :
    let define (name : String) (level : Nat) (dependencies : List String) : SymbolDefinition :=
      { name, level, scheme := .mono (.function .number .number), executable := ⟨0, .ok⟩, dependencies }
    let ds := [define "add" 0 [], define "bad" 0 ["add"], define "double" 1 ["add"]]
    let r := Registry.run (ds.map .registerLogged)
    let w := ((⟨[{}]⟩ : Workspace).add { log := some {} }).2.registerAll
      [(1, define "add" 0 []), (1, define "bad" 0 ["add"]), (0, define "other" 2 []), (1, define "double" 1 ["add"])]
    r.log.events.map (·.outcome) = [.accepted,
      .rejected "E0103" "`bad` (level 0) cannot depend on `add` (level 0)", .accepted] ∧
      (w.get 1).events = r.log.events ∧ Faithful ds r.table r.log.events ∧
      Faithful ds (w.get 1).snapshot.table (w.get 1).events ∧
      SymbolTable.empty.registerAll (acceptedOf ds r.log.events) = (.ok (), r.table) := by
  intro define ds r w
  obtain ⟨-, faithful, -, shared⟩ := log_is_faithful ds ⟨[{}]⟩
    [(1, define "add" 0 []), (1, define "bad" 0 ["add"]), (0, define "other" 2 []), (1, define "double" 1 ["add"])]
  exact ⟨by decide +kernel, by decide +kernel, faithful, shared, faithful.replay⟩

end OpCalculus
