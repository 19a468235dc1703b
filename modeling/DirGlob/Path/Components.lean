set_option autoImplicit false

/-! # The components of a path

A path is cut at its separators into a root, if it has one, and a list of components. Empty
components between two separators are kept; those at the end are dropped, and `.` and `..` are
components like any other. -/

namespace DirGlob.Path

/-- The pieces of a text between the occurrences of a character. -/
def pieces (separator : Char) : List Char → List (List Char)
  | [] => [[]]
  | c :: cs =>
    if c = separator then [] :: pieces separator cs
    else match pieces separator cs with
      | [] => [[c]]
      | p :: ps => (c :: p) :: ps

theorem pieces_ne_nil (separator : Char) (s : List Char) : pieces separator s ≠ [] := by
  induction s with
  | nil => simp [pieces]
  | cons c cs ih =>
    rw [pieces]
    split
    · simp
    · split <;> simp

/-- The pieces with the separators between them are the text. -/
theorem intercalate_pieces (separator : Char) (s : List Char) :
    [separator].intercalate (pieces separator s) = s := by
  induction s with
  | nil => rfl
  | cons c cs ih =>
    obtain ⟨p, ps, h⟩ := List.exists_cons_of_ne_nil (pieces_ne_nil separator cs)
    rw [pieces]
    rw [h] at ih ⊢
    split
    · next hc => simp [List.intercalate_cons_cons, ih, hc]
    · cases ps with
      | nil => simpa using ih
      | cons q qs => simpa [List.intercalate_cons_cons] using ih

/-- No piece holds a separator. -/
theorem not_mem_of_mem_pieces {separator : Char} {s p : List Char} (h : p ∈ pieces separator s) :
    separator ∉ p := by
  induction s generalizing p with
  | nil => simp_all [pieces]
  | cons c cs ih =>
    obtain ⟨q, qs, hq⟩ := List.exists_cons_of_ne_nil (pieces_ne_nil separator cs)
    rw [pieces, hq] at h
    split at h
    · rcases List.mem_cons.1 h with rfl | h
      · simp
      · exact ih (hq ▸ h)
    · next hc =>
      rcases List.mem_cons.1 h with rfl | h
      · have := ih (p := q) (by simp [hq])
        simp [this, Ne.symm hc]
      · exact ih (by simp [hq, h])

/-- The list without the empty pieces at its end. -/
def dropEmptyEnd (ps : List (List Char)) : List (List Char) :=
  (ps.reverse.dropWhile (·.isEmpty)).reverse

/-- A path in parts: its root, if it has one, and its components. -/
structure Components where
  root : Option String
  parts : List String
deriving Repr, DecidableEq

namespace Components

/-- The mark of the root. -/
def rootMark : String := "/"

/-- The components of a text without a root; a text without characters is one empty component. -/
def relative (text : List Char) : List String :=
  if text.isEmpty then [""] else (dropEmptyEnd (pieces '/' text)).map String.ofList

/-- Cuts a path into its parts. -/
def ofPath (path : String) : Components :=
  match path.toList with
  | ['/'] => ⟨some rootMark, []⟩
  | '/' :: rest => ⟨some rootMark, relative rest⟩
  | text => ⟨none, relative text⟩

/-- The path that has these parts. -/
def toPath (c : Components) : String := c.root.getD "" ++ "/".intercalate c.parts

end Components

end DirGlob.Path
