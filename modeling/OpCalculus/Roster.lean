import OpCalculus.Lookup

/-!
# Rosters

A roster lists names under keys, in order of entry.
-/

namespace OpCalculus

/-- Names under keys. -/
structure Roster (κ : Type) where
  entries : List (κ × List String) := []
  deriving DecidableEq, Repr

namespace Roster

variable {κ : Type} [DecidableEq κ]

/-- The names under a key, in order of entry. -/
def get (r : Roster κ) (key : κ) : List String := (r.entries.lookup key).getD []

/-- Changes the names of the entry of a key. -/
def updateEntry (key : κ) (f : List String → List String) :
    List (κ × List String) → List (κ × List String)
  | [] => [(key, f [])]
  | p :: rest => if key = p.1 then (p.1, f p.2) :: rest else p :: updateEntry key f rest

/-- Changes the names under a key. -/
def update (r : Roster κ) (key : κ) (f : List String → List String) : Roster κ :=
  ⟨updateEntry key f r.entries⟩

/-- Appends a name under a key. -/
def push (r : Roster κ) (key : κ) (name : String) : Roster κ := r.update key (· ++ [name])

/-- Adds a name at the end of a list, unless it is there. -/
def addName (names : List String) (name : String) : List String :=
  if name ∈ names then names else names ++ [name]

/-- Enters a name under a key, unless it is there. -/
def enter (r : Roster κ) (key : κ) (name : String) : Roster κ := r.update key (addName · name)

theorem lookup_updateEntry (key k : κ) (f : List String → List String) (l : List (κ × List String)) :
    ((updateEntry key f l).lookup k).getD [] =
      if k = key then f ((l.lookup key).getD []) else (l.lookup k).getD [] := by
  induction l with
  | nil =>
      rw [updateEntry, lookup_cons]
      split <;> rfl
  | cons p l ih =>
      unfold updateEntry
      by_cases same : key = p.1
      · subst same
        rw [if_pos rfl, lookup_cons, lookup_cons, lookup_cons, if_pos rfl]
        split <;> rfl
      · rw [if_neg same, lookup_cons, lookup_cons, lookup_cons, if_neg same]
        by_cases first : k = p.1
        · rw [if_pos first, if_pos first, if_neg fun h => same (h.symm.trans first)]
        · rw [if_neg first, if_neg first, ih]

theorem get_update (r : Roster κ) (key k : κ) (f : List String → List String) :
    (r.update key f).get k = if k = key then f (r.get key) else r.get k :=
  lookup_updateEntry key k f r.entries

end Roster

end OpCalculus
