import DirGlob.Proofs.Path.Components
import DirGlob.Proofs.Path.Join
import DirGlob.Tree.Basic

set_option autoImplicit false

/-! # Paths that lead the same way

Neither an empty component of a path nor the component `.` leads anywhere. Two paths with the same
other components lead the same way (`SameWay`), however they spell it. What is joined to them leads
the same way again, and joining `.` to a path makes no difference. -/

namespace DirGlob.Path

/-! ## Components that move a walk -/

/-- Whether a walk stays where it is at a component. -/
def isIdle (c : String) : Bool := c = "" || c = "."

/-- The components that move a walk. -/
def moves (cs : List String) : List String := cs.filter (!isIdle ·)

theorem moves_append (cs ds : List String) : moves (cs ++ ds) = moves cs ++ moves ds :=
  List.filter_append cs ds

theorem moves_moves (cs : List String) : moves (moves cs) = moves cs :=
  List.filter_filter.trans (by simp [moves])

theorem moves_cons_of_isIdle {c : String} (h : isIdle c = true) (cs : List String) :
    moves (c :: cs) = moves cs := List.filter_cons_of_neg (by simp [h])

theorem moves_cons {c : String} (h : isIdle c = false) (cs : List String) :
    moves (c :: cs) = c :: moves cs := List.filter_cons_of_pos (by simp [h])

theorem moves_steps_of_toList {p : String} {s t : List Char} (h : p.toList = s ++ '/' :: t) :
    moves (steps p) = moves (steps (String.ofList s)) ++ moves (steps (String.ofList t)) := by
  simp only [steps, h, pieces_append_cons, List.map_append, moves_append, String.toList_ofList]

/-! ## Leading the same way -/

variable {p q : String}

/-- The components of the two paths that move a walk are the same. The empty path leads nowhere, and
    neither does one that holds a NUL. -/
structure SameWay (p q : String) : Prop where
  empty : p = "" ↔ q = ""
  nul : '\x00' ∈ p.toList ↔ '\x00' ∈ q.toList
  moves : moves (steps p) = moves (steps q)

theorem SameWay.refl (p : String) : SameWay p p := ⟨.rfl, .rfl, rfl⟩

theorem SameWay.symm (h : SameWay p q) : SameWay q p :=
  ⟨h.empty.symm, h.nul.symm, h.moves.symm⟩

theorem SameWay.trans {r : String} (h : SameWay p q) (h' : SameWay q r) : SameWay p r :=
  ⟨h.empty.trans h'.empty, h.nul.trans h'.nul, h.moves.trans h'.moves⟩

/-- A separator at the end leads no further. -/
theorem sameWay_append_separator (hp : p ≠ "") : SameWay (p ++ "/") p := by
  have htext : (p ++ "/").toList = p.toList ++ '/' :: [] := by simp
  refine ⟨by simp [hp], by simp, ?_⟩
  rw [moves_steps_of_toList htext, String.ofList_toList]
  exact List.append_nil _

theorem sameWay_opened (hp : p ≠ "") : SameWay (opened p) p := by
  rw [opened]
  split
  · exact .refl p
  · exact sameWay_append_separator hp

theorem sameWay_trimEnd {s : List Char} (h : trimEnd s ≠ []) :
    SameWay (String.ofList (trimEnd s)) (String.ofList s) := by
  induction s using List.reverseRecOn with
  | nil => exact absurd rfl h
  | append_singleton s c ih =>
      by_cases hc : c = '/'
      · subst hc
        rw [trimEnd_concat_separator] at h ⊢
        have hs : String.ofList s ≠ "" := by
          intro hempty
          have hnil : s = [] := by simpa using hempty
          exact h (hnil ▸ trimEnd_nil)
        refine (ih h).trans (SameWay.symm ?_)
        rw [String.ofList_append]
        exact sameWay_append_separator hs
      · rw [trimEnd_concat hc]
        exact .refl _

/-! ## What is joined -/

/-- What is joined to a path leads on from where the path leads. -/
theorem moves_steps_join (p : String) (hq : isAbsolute q = false) :
    moves (steps (join p q)) = moves (steps p) ++ moves (steps q) := by
  by_cases hp : p = ""
  · subst hp
    rw [join_empty]
    rfl
  obtain ⟨before, hbefore, hjoined⟩ := exists_toList_join hp hq
  have hself := (sameWay_opened hp).moves
  rw [moves_steps_of_toList hbefore] at hself
  rw [moves_steps_of_toList hjoined, String.ofList_toList, ← hself]
  exact congrArg (· ++ _) (List.append_nil _).symm

/-- What is joined to both paths leads on the same way. -/
theorem SameWay.join (h : SameWay p q) (r : String) : SameWay (join p r) (join q r) := by
  by_cases hr : isAbsolute r = true
  · rw [join_of_isAbsolute p hr, join_of_isAbsolute q hr]
    exact .refl r
  have hrel : isAbsolute r = false := by simpa using hr
  refine ⟨?_, ?_, by rw [moves_steps_join p hrel, moves_steps_join q hrel, h.moves]⟩
  · rw [join_of_relative p hrel, join_of_relative q hrel]
    by_cases hp : p = ""
    · rw [hp, h.empty.1 hp]
    · simp [opened_ne_empty hp, opened_ne_empty (mt h.empty.2 hp)]
  · rw [join_of_relative p hrel, join_of_relative q hrel]
    simp [mem_opened_iff, h.nul]

/-- The path `.` leads no further. -/
theorem sameWay_join_dot (hp : p ≠ "") : SameWay (join p ".") p := by
  refine ⟨?_, ?_, (moves_steps_join p rfl).trans (List.append_nil _)⟩
  · simp [join_of_relative p (q := ".") rfl, hp]
  · simp [join_of_relative p (q := ".") rfl, mem_opened_iff]

end DirGlob.Path
