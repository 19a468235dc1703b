import DirGlob.Path.Join

set_option autoImplicit false

/-! # What is joined to a path

A relative path is put behind the path as it stands, after a separator if that is needed. Behind an
absolute one nothing is left of what stood before (`joinAll_of_any_isAbsolute`). So the path `.` in
front of what is joined can be seen exactly if all of that is relative. -/

namespace DirGlob.Path

variable {p q : String}

/-- The path as it is continued when something relative is joined to it. -/
def opened (p : String) : String := if endsOpen p then p else p ++ "/"

theorem join_of_relative (p : String) (hq : isAbsolute q = false) : join p q = opened p ++ q := by
  rw [join, opened, if_neg (by simp [hq])]
  split <;> rfl

theorem opened_ne_empty (hp : p ≠ "") : opened p ≠ "" := by
  rw [opened]
  split
  · exact hp
  · simp

theorem mem_opened_iff {c : Char} (hc : c ≠ '/') : c ∈ (opened p).toList ↔ c ∈ p.toList := by
  rw [opened]
  split <;> simp [hc]

theorem exists_toList_opened (hp : p ≠ "") : ∃ before, (opened p).toList = before ++ ['/'] := by
  rw [opened]
  split
  · next hopen => exact List.getLast?_eq_some_iff.1 (by simpa [endsOpen, hp] using hopen)
  · exact ⟨p.toList, by simp⟩

/-- A separator stands before what is joined. -/
theorem exists_toList_join (hp : p ≠ "") (hq : isAbsolute q = false) :
    ∃ before, (opened p).toList = before ++ ['/'] ∧
      (join p q).toList = before ++ '/' :: q.toList := by
  obtain ⟨before, hbefore⟩ := exists_toList_opened hp
  exact ⟨before, hbefore, by simp [join_of_relative p hq, hbefore]⟩

theorem length_le_length_opened (p : String) : p.length ≤ (opened p).length := by
  rw [opened]
  split <;> simp

/-- What is joined to an absolute path is absolute. -/
theorem isAbsolute_join_left (hp : isAbsolute p = true) (q : String) :
    isAbsolute (join p q) = true := by
  rw [isAbsolute_join, hp, Bool.true_or]

theorem ne_empty_of_isAbsolute (hp : isAbsolute p = true) : p ≠ "" := by
  rintro rfl
  cases hp

theorem isAbsolute_of_not_mem (hq : '/' ∉ q.toList) : isAbsolute q = false := by
  rw [isAbsolute, decide_eq_false_iff_not]
  exact fun h => hq (List.mem_of_mem_head? h)

/-! ## The path `.` -/

theorem length_join_dot (p : String) : (join p ".").length = (opened p).length + 1 := by
  rw [join_of_relative p rfl]
  exact String.length_append ..

theorem join_dot_ne (p : String) : join p "." ≠ p := by
  intro h
  have hlength := length_join_dot p
  rw [h] at hlength
  have := length_le_length_opened p
  omega

/-- The path `.` can be seen before what is relative. -/
theorem join_join_dot_ne (p : String) (hq : isAbsolute q = false) :
    join (join p ".") q ≠ join p q := by
  intro h
  rw [join_of_relative _ hq, join_of_relative _ hq] at h
  have hlength := congrArg String.length h
  rw [String.length_append, String.length_append] at hlength
  have := length_le_length_opened (join p ".")
  have := length_join_dot p
  omega

/-! ## Several paths -/

theorem joinAll_append (p : String) (qs rs : List String) :
    joinAll p (qs ++ rs) = joinAll (joinAll p qs) rs :=
  List.foldl_append

/-- Behind an absolute path nothing is left of what stood before. -/
theorem joinAll_of_any_isAbsolute {qs : List String} (h : qs.any isAbsolute = true)
    (p p' : String) : joinAll p qs = joinAll p' qs := by
  induction qs generalizing p p' with
  | nil => cases h
  | cons q qs ih =>
      rw [joinAll_cons, joinAll_cons]
      rcases Bool.or_eq_true_iff.1 h with hq | hqs
      · rw [join_of_isAbsolute p hq, join_of_isAbsolute p' hq]
      · exact ih hqs _ _

/-- The path `.` before several paths goes unseen exactly if one of them is absolute. -/
theorem joinAll_join_dot_eq_iff (p : String) (qs : List String) :
    joinAll (join p ".") qs = joinAll p qs ↔ qs.any isAbsolute = true := by
  refine ⟨fun h => ?_, fun h => joinAll_of_any_isAbsolute h _ _⟩
  cases qs with
  | nil => exact absurd h (join_dot_ne p)
  | cons q qs =>
      rw [joinAll_cons, joinAll_cons, joinAll_join, joinAll_join] at h
      have hrest : isAbsolute (joinAll q qs) = true :=
        eq_true_of_ne_false fun hrel => join_join_dot_ne p hrel h
      rwa [isAbsolute_joinAll] at hrest

end DirGlob.Path
