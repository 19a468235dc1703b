set_option autoImplicit false

/-! # Looking up what was put in

Scopes by their handles and what the log writes to by its paths are kept as lists of entries. What
is put in comes first and takes the place of all that stood under its key. -/

namespace DirGlob

variable {α β : Type} [BEq α] [LawfulBEq α] [DecidableEq α]

theorem lookup_filter_of_ne {key other : α} (l : List (α × β)) (h : other ≠ key) :
    (l.filter (·.1 ≠ key)).lookup other = l.lookup other := by
  induction l with
  | nil => rfl
  | cons e l ih =>
      obtain ⟨name, v⟩ := e
      by_cases hname : name = key
      · subst hname
        simpa [List.lookup_cons, beq_false_of_ne h] using ih
      · rw [List.filter_cons_of_pos (by simpa using hname), List.lookup_cons, List.lookup_cons, ih]

/-- An entry that is put in is found under its key, and any other key leads where it led. -/
theorem lookup_put (key : α) (v : β) (l : List (α × β)) (other : α) :
    ((key, v) :: l.filter (·.1 ≠ key)).lookup other =
      if other = key then some v else l.lookup other := by
  by_cases h : other = key
  · rw [if_pos h, h, List.lookup_cons_self]
  · rw [if_neg h, List.lookup_cons, beq_false_of_ne h]
    exact lookup_filter_of_ne l h

end DirGlob
