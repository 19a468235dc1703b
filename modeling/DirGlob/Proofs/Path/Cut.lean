import DirGlob.Proofs.Path.Components

set_option autoImplicit false

/-! # Cutting a path and putting it together

Cutting a path at its separators loses the separators at its end and nothing else, so putting the
parts together again gives the path without them; only a path of nothing but separators keeps one,
which is its root (`toPath_ofPath`).

Not all parts come from a path. `IsCut` says which ones do: those of the empty path, the root alone,
and any components without separators of which the last is not empty, nor the first unless a root
stands before it. On these cutting undoes putting together, and on no others
(`cut_inverts_join`). -/

namespace DirGlob.Path

/-! ## Pieces -/

theorem pieces_intercalate {ps : List (List Char)} (hsep : ∀ p ∈ ps, '/' ∉ p) (hne : ps ≠ []) :
    pieces '/' (['/'].intercalate ps) = ps := by
  rw [pieces_eq_splitOn, List.splitOn_intercalate '/' hsep hne]

theorem dropEmptyEnd_eq_self_iff (ps : List (List Char)) :
    dropEmptyEnd ps = ps ↔ ps.getLast? ≠ some [] := by
  unfold dropEmptyEnd
  rw [← List.rdropWhile, List.rdropWhile_eq_self_iff]
  constructor
  · intro h hlast
    have hne : ps ≠ [] := by
      rintro rfl
      cases hlast
    exact h hne (by simp [List.getLast_of_getLast?_eq_some hlast])
  · intro h hne hempty
    rw [List.isEmpty_iff] at hempty
    exact h (hempty ▸ List.getLast?_eq_getLast_of_ne_nil hne)

/-- What is left of a text without the separators at its end has no empty piece at its end. -/
theorem getLast?_pieces_trimEnd {s : List Char} (h : trimEnd s ≠ []) :
    (pieces '/' (trimEnd s)).getLast? ≠ some [] := by
  have htrim : trimEnd (trimEnd s) = trimEnd s := List.rdropWhile_idempotent _ s
  rw [← dropEmptyEnd_eq_self_iff, dropEmptyEnd_pieces, htrim, if_neg h]

/-- Pieces of which the last is not empty make a text with no separator at its end. -/
theorem trimEnd_intercalate {ps : List (List Char)}
    (hpieces : pieces '/' (['/'].intercalate ps) = ps) (hlast : ps.getLast? ≠ some []) :
    trimEnd (['/'].intercalate ps) = ['/'].intercalate ps := by
  have hdrop := dropEmptyEnd_pieces (['/'].intercalate ps)
  rw [hpieces, (dropEmptyEnd_eq_self_iff ps).2 hlast] at hdrop
  split at hdrop
  · exact absurd (hpieces.trans hdrop) (pieces_ne_nil '/' _)
  · rw [← intercalate_pieces '/' (trimEnd _), ← hdrop]

/-- The first piece is empty if there is nothing before the first separator. -/
theorem head?_pieces_iff (s : List Char) :
    (pieces '/' s).head? = some [] ↔ s = [] ∨ s.head? = some '/' := by
  cases s with
  | nil => simp [pieces]
  | cons c cs =>
      obtain ⟨p, ps, hps⟩ := List.exists_cons_of_ne_nil (pieces_ne_nil '/' cs)
      by_cases hc : c = '/' <;> simp [pieces, hps, hc]

namespace Components

/-! ## Parts that come from a path -/

/-- The parts that a path can be cut into. -/
inductive IsCut : Components → Prop
  /-- The parts of the empty path. -/
  | empty : IsCut ⟨none, [""]⟩
  /-- The root alone. -/
  | root : IsCut ⟨some rootMark, []⟩
  /-- Components without separators; the last one is not empty, nor is the first without a root. -/
  | parts {root : Option String} {parts : List String}
      (hroot : root = none ∨ root = some rootMark) (hne : parts ≠ [])
      (hsep : ∀ part ∈ parts, '/' ∉ part.toList) (hlast : parts.getLast? ≠ some "")
      (hfirst : root = none → parts.head? ≠ some "") : IsCut ⟨root, parts⟩

/-- Pieces that the parts of a path can be made of. -/
theorem isCut_pieces {root : Option String} (hroot : root = none ∨ root = some rootMark)
    {s : List Char} (hlast : (pieces '/' s).getLast? ≠ some [])
    (hfirst : root = none → (pieces '/' s).head? ≠ some []) :
    IsCut ⟨root, (pieces '/' s).map String.ofList⟩ := by
  have hempty (t : List Char) : String.ofList t = "" ↔ t = [] := by simp
  refine .parts hroot ?_ ?_ ?_ ?_
  · simpa using pieces_ne_nil '/' s
  · intro part hpart
    obtain ⟨p, hp, rfl⟩ := List.mem_map.1 hpart
    rw [String.toList_ofList]
    exact not_mem_of_mem_pieces hp
  · simpa [hempty] using hlast
  · simpa [hempty] using hfirst

/-- Every path is cut into such parts. -/
theorem isCut_ofPath (p : String) : IsCut (ofPath p) := by
  by_cases hroot : p.toList.head? = some '/'
  · obtain ⟨rest, hrest⟩ := List.head?_eq_some_iff.1 hroot
    rw [ofPath_of_root hrest]
    split
    · exact .root
    · next hne => exact isCut_pieces (.inr rfl) (getLast?_pieces_trimEnd hne) nofun
  · rw [ofPath_of_relative hroot]
    cases htext : p.toList with
    | nil => exact .empty
    | cons c cs =>
        rw [htext] at hroot
        have hne := trimEnd_ne_nil_of_relative hroot (by simp)
        refine isCut_pieces (.inl rfl) (getLast?_pieces_trimEnd hne) fun _ => ?_
        rw [ne_eq, head?_pieces_iff, not_or]
        refine ⟨hne, fun hslash => hroot ?_⟩
        obtain ⟨ds, hds⟩ := List.head?_eq_some_iff.1 hslash
        exact head?_of_trimEnd_eq_cons hds

/-! ## Putting together again -/

/-- A path is put together again without the separators at its end, unless it is nothing else. -/
theorem toPath_ofPath (p : String) :
    (ofPath p).toPath =
      if p ≠ "" ∧ trimEnd p.toList = [] then rootMark else String.ofList (trimEnd p.toList) := by
  by_cases hroot : p.toList.head? = some '/'
  · obtain ⟨rest, hrest⟩ := List.head?_eq_some_iff.1 hroot
    have hp : p ≠ "" := by
      rintro rfl
      cases hrest
    rw [ofPath_of_root hrest, hrest, trimEnd_cons_separator]
    by_cases hnil : trimEnd rest = []
    · simp [hnil, hp, toPath]
    · rw [if_neg hnil, if_neg hnil, if_neg (by simp), toPath_pieces]
      exact String.toList_injective (by simp [rootMark])
  · rw [ofPath_of_relative hroot, toPath_pieces, if_neg]
    · simp
    · intro h
      refine trimEnd_ne_nil_of_relative hroot ?_ h.2
      simpa using h.1

theorem toList_toPath (c : Components) :
    c.toPath.toList = (c.root.getD "").toList ++ ['/'].intercalate (c.parts.map String.toList) := by
  rw [toPath, String.toList_append, String.toList_intercalate]
  rfl

/-- Parts that come from a path come from the one that they are put together to. -/
theorem IsCut.ofPath_toPath {c : Components} (h : c.IsCut) : ofPath c.toPath = c := by
  cases h with
  | empty => decide
  | root => decide
  | @parts root parts hroot hne hsep hlast hfirst =>
      generalize hps : parts.map String.toList = ps
      have hpieces : pieces '/' (['/'].intercalate ps) = ps :=
        pieces_intercalate (by simpa [← hps] using hsep) (by simpa [← hps] using hne)
      have hparts : (pieces '/' (['/'].intercalate ps)).map String.ofList = parts := by
        rw [hpieces, ← hps]
        simp [Function.comp_def]
      have hlast' : ps.getLast? ≠ some [] := by simpa [← hps] using hlast
      have htrim := trimEnd_intercalate hpieces hlast'
      have htext := toList_toPath ⟨root, parts⟩
      rw [hps] at htext
      rcases hroot with rfl | rfl
      · have hfirst' : (pieces '/' (['/'].intercalate ps)).head? ≠ some [] := by
          rw [hpieces, ← hps]
          simpa using hfirst
        rw [ne_eq, head?_pieces_iff, not_or] at hfirst'
        rw [ofPath_of_relative (by simpa [htext] using hfirst'.2), htext]
        simp [htrim, hparts]
      · have hne' : ['/'].intercalate ps ≠ [] := by
          intro hnil
          rw [hnil] at hpieces
          exact hlast' (hpieces ▸ rfl)
        rw [ofPath_of_root (by simpa [rootMark] using htext), htrim, if_neg hne', hparts]

/-- **Cutting a path and putting parts together undo each other**, up to the separators at the
    end of the path. The parts that a path can be cut into are known, and on each of these cutting
    undoes putting together. -/
theorem cut_inverts_join :
    (∀ p : String, (ofPath p).toPath =
      if p ≠ "" ∧ p.toList.all (· = '/') then "/" else String.ofList (trimEnd p.toList)) ∧
    (∀ c, (∃ p, ofPath p = c) ↔ IsCut c) ∧ ∀ c, IsCut c → ofPath c.toPath = c := by
  refine ⟨fun p => ?_, fun c => ⟨?_, ?_⟩, fun c hc => hc.ofPath_toPath⟩
  · rw [toPath_ofPath]
    simp only [trimEnd_eq_nil_iff, List.all_eq_true, decide_eq_true_iff, rootMark]
  · rintro ⟨p, rfl⟩
    exact isCut_ofPath p
  · intro hc
    exact ⟨c.toPath, hc.ofPath_toPath⟩

/-- Empty components at the start and inside, and separators at the end. -/
theorem cut_inverts_join_of_doubled_separators :
    (ofPath "///a//b//").toPath = "///a//b" ∧ (ofPath "//").toPath = "/" ∧
      IsCut ⟨some "/", ["", "", "a", "", "b"]⟩ ∧
      ofPath (toPath ⟨some "/", ["", "", "a", "", "b"]⟩) = ⟨some "/", ["", "", "a", "", "b"]⟩ := by
  obtain ⟨hjoined, hcut, hparts⟩ := cut_inverts_join
  have hmem : IsCut ⟨some "/", ["", "", "a", "", "b"]⟩ := (hcut _).1 ⟨"///a//b//", by decide⟩
  exact ⟨(hjoined _).trans (by decide), (hjoined _).trans (by decide), hmem, hparts _ hmem⟩

end Components

end DirGlob.Path
