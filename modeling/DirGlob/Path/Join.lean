set_option autoImplicit false

/-! # Joining paths

Paths are texts with `/` between their components. Joining puts one path after another with
exactly the separator that is needed, unless the second one is absolute: then it stands alone.
Joining is associative (`join_join`), and the joined path is absolute exactly if one of the two is
(`isAbsolute_join`). -/

namespace DirGlob.Path

/-- Whether a path starts at the root. -/
def isAbsolute (p : String) : Bool := p.toList.head? = some '/'

/-- Whether a path can be continued without a separator: it is empty or ends in one. -/
def endsOpen (p : String) : Bool := p = "" || p.toList.getLast? = some '/'

/-- The path `p` and then, unless it is absolute, the path `q`. -/
def join (p q : String) : String :=
  if isAbsolute q then q
  else if endsOpen p then p ++ q
  else p ++ "/" ++ q

/-- The path `p` and then the paths `qs` in their order. -/
def joinAll (p : String) (qs : List String) : String := qs.foldl join p

@[simp]
theorem joinAll_nil (p : String) : joinAll p [] = p := rfl

@[simp]
theorem joinAll_cons (p q : String) (qs : List String) :
    joinAll p (q :: qs) = joinAll (join p q) qs := rfl

theorem join_of_isAbsolute (p : String) {q : String} (h : isAbsolute q = true) : join p q = q := by
  simp [join, h]

/-! ## Laws -/

theorem isAbsolute_append (p q : String) :
    isAbsolute (p ++ q) = if p = "" then isAbsolute q else isAbsolute p := by
  by_cases h : p = ""
  · simp [h]
  · have hp : p.toList ≠ [] := by simpa using h
    obtain ⟨c, cs, hc⟩ := List.exists_cons_of_ne_nil hp
    simp [isAbsolute, h, hc]

theorem endsOpen_append (p q : String) :
    endsOpen (p ++ q) = if q = "" then endsOpen p else endsOpen q := by
  by_cases h : q = ""
  · simp [h]
  · have hq : q.toList.getLast? ≠ none := by simpa using h
    obtain ⟨c, hc⟩ := Option.ne_none_iff_exists'.1 hq
    simp [endsOpen, h, hc]

theorem isAbsolute_join (p q : String) :
    isAbsolute (join p q) = (isAbsolute p || isAbsolute q) := by
  rw [join]
  split
  · simp [*]
  · next hq =>
    split
    · rw [isAbsolute_append]
      split <;> simp_all [isAbsolute]
    · next hp =>
      have : p ≠ "" := by rintro rfl; simp [endsOpen] at hp
      simp [String.append_assoc, isAbsolute_append, this, hq]

theorem join_empty (q : String) : join "" q = q := by
  simp [join, endsOpen]

/-- Joining is associative. -/
theorem join_join (p q r : String) : join (join p q) r = join p (join q r) := by
  by_cases hr : isAbsolute r = true
  · rw [join_of_isAbsolute _ hr, join_of_isAbsolute q hr, join_of_isAbsolute _ hr]
  by_cases hq : isAbsolute q = true
  · rw [join_of_isAbsolute _ hq, join_of_isAbsolute p]
    simp [isAbsolute_join, hq]
  by_cases he : q = ""
  · subst he
    rw [join_empty]
    have ho : endsOpen (p ++ "/") = true := by simp [endsOpen]
    by_cases hp : endsOpen p = true <;> simp [join, hr, hq, hp, ho]
  · have ho (s : String) : endsOpen (s ++ q) = endsOpen q := by simp [endsOpen_append, he]
    have ha (s : String) : isAbsolute (q ++ s) = false := by simpa [isAbsolute_append, he] using hq
    by_cases hp : endsOpen p = true <;> by_cases hs : endsOpen q = true <;>
      simp [join, hr, hq, hp, hs, ha, ho, String.append_assoc]
    all_goals simp [← String.append_assoc, ho, hs]

theorem isAbsolute_joinAll (p : String) (qs : List String) :
    isAbsolute (joinAll p qs) = (isAbsolute p || qs.any isAbsolute) := by
  induction qs generalizing p with
  | nil => simp
  | cons q qs ih => simp [ih, isAbsolute_join, Bool.or_assoc]

/-- Joining a list of paths to a joined path may start with the second of the two. -/
theorem joinAll_join (p q : String) (qs : List String) :
    joinAll (join p q) qs = join p (joinAll q qs) := by
  induction qs generalizing q with
  | nil => rfl
  | cons r qs ih => rw [joinAll_cons, join_join, ih, joinAll_cons]

end DirGlob.Path
