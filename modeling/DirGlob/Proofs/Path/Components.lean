import DirGlob.Path.Components
import Mathlib.Data.List.DropRight

set_option autoImplicit false

/-! # Pieces and components of a path

The pieces between separators are those of `List.splitOn`. At a separator the pieces of a path are
those of its two parts (`pieces_append_cons`). Separators at the end of a path give empty pieces,
and dropping these is dropping the separators first (`dropEmptyEnd_pieces`). So the components of a
path are the pieces of its text without the separators at both ends that count for nothing
(`ofPath_of_root`, `ofPath_of_relative`). -/

namespace DirGlob.Path

variable {separator : Char}

theorem pieces_eq_splitOn (separator : Char) (s : List Char) :
    pieces separator s = s.splitOn separator := by
  induction s with
  | nil => rfl
  | cons c cs ih =>
      obtain ⟨p, ps, hps⟩ := List.exists_cons_of_ne_nil (pieces_ne_nil separator cs)
      rw [pieces, List.splitOn_cons_eq_if_modifyHead, ← ih, hps]
      by_cases hc : c = separator <;> simp [hc]

/-- A text is cut at each of its separators into the pieces of what stands before and behind it. -/
theorem pieces_append_cons (separator : Char) (s t : List Char) :
    pieces separator (s ++ separator :: t) = pieces separator s ++ pieces separator t := by
  simp only [pieces_eq_splitOn, List.splitOn_append_cons_self]

theorem pieces_of_not_mem {s : List Char} (h : separator ∉ s) : pieces separator s = [s] := by
  rw [pieces_eq_splitOn, List.splitOn_eq_singleton h]

theorem pieces_concat (separator : Char) (s : List Char) :
    pieces separator (s ++ [separator]) = pieces separator s ++ [[]] :=
  pieces_append_cons separator s []

/-- A text that holds a separator is cut at the last one. -/
theorem exists_last_separator {s : List Char} (h : separator ∈ s) :
    ∃ before last, s = before ++ separator :: last ∧ separator ∉ last := by
  obtain ⟨last, before, hs, hlast⟩ := List.eq_append_cons_of_mem (List.mem_reverse.2 h)
  refine ⟨before.reverse, last.reverse, ?_, by simpa using hlast⟩
  rw [← List.reverse_reverse s, hs]
  simp

theorem ne_of_mem_reverse {last : List Char} (h : separator ∉ last) :
    ∀ c ∈ last.reverse, decide (c ≠ separator) = true := fun _ hc =>
  decide_eq_true fun heq => h (heq ▸ List.mem_reverse.1 hc)

theorem rdropWhile_append_cons {last : List Char} (before : List Char) (h : separator ∉ last) :
    (before ++ separator :: last).rdropWhile (· ≠ separator) = before ++ [separator] := by
  rw [List.rdropWhile, List.reverse_append, List.reverse_cons, List.append_assoc,
    List.dropWhile_append_of_pos (ne_of_mem_reverse h)]
  simp

theorem rtakeWhile_append_cons {last : List Char} (before : List Char) (h : separator ∉ last) :
    (before ++ separator :: last).rtakeWhile (· ≠ separator) = last := by
  rw [List.rtakeWhile, List.reverse_append, List.reverse_cons, List.append_assoc,
    List.takeWhile_append_of_pos (ne_of_mem_reverse h)]
  simp

/-! ## Separators at the end -/

/-- The text without the separators at its end. -/
def trimEnd (s : List Char) : List Char := s.rdropWhile (· = '/')

@[simp]
theorem trimEnd_nil : trimEnd [] = [] := rfl

@[simp]
theorem trimEnd_concat_separator (s : List Char) : trimEnd (s ++ ['/']) = trimEnd s :=
  List.rdropWhile_concat_pos _ _ _ (by simp)

theorem trimEnd_concat {c : Char} (hc : c ≠ '/') (s : List Char) : trimEnd (s ++ [c]) = s ++ [c] :=
  List.rdropWhile_concat_neg _ _ _ (by simpa using hc)

theorem trimEnd_append {t : List Char} (ht : t ≠ []) (hsep : '/' ∉ t) (s : List Char) :
    trimEnd (s ++ t) = s ++ t := by
  have hlast : t.getLast ht ≠ '/' := fun h => hsep (h ▸ List.getLast_mem ht)
  rw [← List.dropLast_concat_getLast ht, ← List.append_assoc, trimEnd_concat hlast]

theorem trimEnd_eq_nil_iff {s : List Char} : trimEnd s = [] ↔ ∀ c ∈ s, c = '/' := by
  simp [trimEnd]

theorem trimEnd_cons_separator (s : List Char) :
    trimEnd ('/' :: s) = if trimEnd s = [] then [] else '/' :: trimEnd s := by
  induction s using List.reverseRecOn with
  | nil => rfl
  | append_singleton s c ih =>
      by_cases hc : c = '/'
      · rw [hc, ← List.cons_append, trimEnd_concat_separator, trimEnd_concat_separator, ih]
      · rw [← List.cons_append, trimEnd_concat hc, trimEnd_concat hc, if_neg (by simp),
          List.cons_append]

/-- What is left begins like the text. -/
theorem head?_of_trimEnd_eq_cons {s cs : List Char} {c : Char} (h : trimEnd s = c :: cs) :
    s.head? = some c := by
  obtain ⟨dropped, hdropped⟩ := List.rdropWhile_prefix (· = '/') s
  rw [← hdropped, ← trimEnd, h]
  rfl

theorem trimEnd_ne_nil_of_relative {s : List Char} (h : s.head? ≠ some '/') (hs : s ≠ []) :
    trimEnd s ≠ [] := by
  intro hnil
  obtain ⟨c, cs, rfl⟩ := List.exists_cons_of_ne_nil hs
  exact h (congrArg some (trimEnd_eq_nil_iff.1 hnil c List.mem_cons_self))

/-! ## Empty pieces at the end -/

/-- What does not end in a separator has no empty piece at its end. -/
theorem dropEmptyEnd_pieces_concat {c : Char} (hc : c ≠ '/') (s : List Char) :
    dropEmptyEnd (pieces '/' (s ++ [c])) = pieces '/' (s ++ [c]) := by
  obtain ⟨ps, p, hps⟩ : ∃ ps p, pieces '/' (s ++ [c]) = ps ++ [p ++ [c]] := by
    by_cases hs : '/' ∈ s
    · obtain ⟨before, last, rfl, hlast⟩ := exists_last_separator hs
      have hend : '/' ∉ last ++ [c] := by simpa [hlast] using hc.symm
      refine ⟨pieces '/' before, last, ?_⟩
      rw [List.append_assoc, List.cons_append, pieces_append_cons, pieces_of_not_mem hend]
    · exact ⟨[], s, pieces_of_not_mem (by simpa [hs] using hc.symm)⟩
  rw [hps]
  exact List.rdropWhile_concat_neg _ _ _ (by simp)

/-- Without the empty ones at their end, the pieces are those of the text without the separators at
    its end; a text of separators has none. -/
theorem dropEmptyEnd_pieces (s : List Char) :
    dropEmptyEnd (pieces '/' s) = if trimEnd s = [] then [] else pieces '/' (trimEnd s) := by
  induction s using List.reverseRecOn with
  | nil => rfl
  | append_singleton s c ih =>
      by_cases hc : c = '/'
      · rw [hc, pieces_concat, trimEnd_concat_separator, ← ih]
        exact List.rdropWhile_concat_pos _ _ _ rfl
      · rw [trimEnd_concat hc, if_neg (by simp), dropEmptyEnd_pieces_concat hc]

/-! ## Components -/

namespace Components

/-- The components of a path that starts at the root. -/
theorem ofPath_of_root {path : String} {rest : List Char} (h : path.toList = '/' :: rest) :
    ofPath path = ⟨some rootMark,
      if trimEnd rest = [] then [] else (pieces '/' (trimEnd rest)).map String.ofList⟩ := by
  rw [ofPath, h]
  cases rest with
  | nil => rfl
  | cons c cs =>
      simp only [relative, List.isEmpty_cons, Bool.false_eq_true, ↓reduceIte, dropEmptyEnd_pieces]
      split <;> rfl

/-- The components of a path that does not start at the root. -/
theorem ofPath_of_relative {path : String} (h : path.toList.head? ≠ some '/') :
    ofPath path = ⟨none, (pieces '/' (trimEnd path.toList)).map String.ofList⟩ := by
  rw [ofPath]
  split
  · next hpath => simp [hpath] at h
  · next rest hpath => simp [hpath] at h
  · next text hpath =>
    cases htext : path.toList with
    | nil => rfl
    | cons c cs =>
        rw [htext] at h
        have hne := trimEnd_ne_nil_of_relative h (by simp)
        simp only [relative, List.isEmpty_cons, Bool.false_eq_true, ↓reduceIte, dropEmptyEnd_pieces,
          hne]

/-- Pieces are put together to the text that they were cut from. -/
theorem toPath_pieces (root : Option String) (s : List Char) :
    toPath ⟨root, (pieces '/' s).map String.ofList⟩ = root.getD "" ++ String.ofList s := by
  rw [toPath]
  congr 1
  apply String.toList_injective
  have hid : String.toList ∘ String.ofList = id := funext fun t => String.toList_ofList
  rw [String.toList_intercalate, List.map_map, hid, List.map_id]
  exact (intercalate_pieces '/' s).trans String.toList_ofList.symm

end Components

end DirGlob.Path
