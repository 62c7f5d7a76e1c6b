/-!
# Association lists

Look-up in a list of keys and values by comparing with the first key.
-/

namespace OpCalculus

theorem lookup_cons {κ α : Type} [DecidableEq κ] (k : κ) (p : κ × α) (l : List (κ × α)) :
    (p :: l).lookup k = if k = p.1 then some p.2 else l.lookup k := by
  rw [List.lookup_cons]
  by_cases h : k = p.1
  · simp [h]
  · simp [beq_eq_false_iff_ne.mpr h, h]

end OpCalculus
