import DirGlob.Proofs.Glob.Search
import DirGlob.Proofs.Path.Components

set_option autoImplicit false

/-! # Cutting a full pattern at its last separator

A full pattern goes through its components: these are taken apart, the last one becomes the pattern
for names, and the others are put together again. What comes of it is the plain cut before and
behind the last separator, where separators at the end of the pattern do not count
(`ofPattern_eq_atLastSeparator`). -/

namespace DirGlob

namespace GlobTarget

variable {p : String} {before leaf : List Char}

/-! ## The cut -/

/-- Cuts a full pattern before and behind its last separator. Separators at its end do not count. A
    pattern without any other is for the names in the working directory, and a pattern of separators
    alone for an empty name in the root. -/
def atLastSeparator (pattern : String) : GlobTarget :=
  let text := Path.trimEnd pattern.toList
  if '/' ∈ text then
    let before := (text.rdropWhile (· ≠ '/')).dropLast
    ⟨if before = [] then "/" else String.ofList before,
      String.ofList (text.rtakeWhile (· ≠ '/'))⟩
  else if text = [] ∧ pattern ≠ "" then ⟨"/", ""⟩
  else ⟨".", String.ofList text⟩

/-- More than one component, or the root before one: all but the last are the directory. -/
theorem ofPattern_of_parts {root : Option String} {parts : List String} {last : String}
    (h : Path.Components.ofPath p = ⟨root, parts ++ [last]⟩) (hroot : root = none → parts ≠ []) :
    ofPattern p = ⟨Path.Components.toPath ⟨root, parts⟩, last⟩ := by
  rw [ofPattern, h]
  split
  · next leaf hsingle =>
    obtain ⟨hnone, hparts⟩ := Path.Components.mk.inj hsingle
    have hlength := congrArg List.length hparts
    simp [hroot hnone] at hlength
  · next root' parts' _ hparts =>
    cases hparts
    simp

/-- What stands before the last separator that counts is the directory, or the root if nothing
    does. -/
theorem ofPattern_of_trimEnd (h : Path.trimEnd p.toList = before ++ '/' :: leaf)
    (hleaf : '/' ∉ leaf) :
    ofPattern p = ⟨if before = [] then "/" else String.ofList before, String.ofList leaf⟩ := by
  have hlast : (Path.pieces '/' leaf).map String.ofList = [String.ofList leaf] := by
    rw [Path.pieces_of_not_mem hleaf]
    rfl
  by_cases hroot : p.toList.head? = some '/'
  · obtain ⟨rest, hrest⟩ := List.head?_eq_some_iff.1 hroot
    have hne : Path.trimEnd rest ≠ [] := by
      intro hnil
      rw [hrest, Path.trimEnd_cons_separator, if_pos hnil] at h
      simp at h
    rw [hrest, Path.trimEnd_cons_separator, if_neg hne] at h
    have hparts := Path.Components.ofPath_of_root hrest
    rw [if_neg hne] at hparts
    cases before with
    | nil =>
        rw [(List.cons.inj h).2, hlast, ← List.nil_append [String.ofList leaf]] at hparts
        exact ofPattern_of_parts hparts nofun
    | cons c cs =>
        obtain ⟨rfl, htail⟩ := List.cons.inj h
        have htail : Path.trimEnd rest = cs ++ '/' :: leaf := htail
        rw [htail, Path.pieces_append_cons, List.map_append, hlast] at hparts
        rw [ofPattern_of_parts hparts nofun, Path.Components.toPath_pieces, if_neg (by simp)]
        congr 1
        exact String.toList_injective (by simp [Path.Components.rootMark])
  · have hparts := Path.Components.ofPath_of_relative hroot
    rw [h, Path.pieces_append_cons, List.map_append, hlast] at hparts
    have hbefore : before ≠ [] := by
      rintro rfl
      exact hroot (Path.head?_of_trimEnd_eq_cons h)
    rw [ofPattern_of_parts hparts (fun _ => by simpa using Path.pieces_ne_nil '/' before),
      Path.Components.toPath_pieces, if_neg hbefore, Option.getD_none, String.empty_append]

/-- **A full pattern is cut at its last separator**, although the cut is made by way of its
    components. -/
theorem ofPattern_eq_atLastSeparator (p : String) : ofPattern p = atLastSeparator p := by
  rw [atLastSeparator]
  by_cases hsep : '/' ∈ Path.trimEnd p.toList
  · obtain ⟨before, leaf, htext, hleaf⟩ := Path.exists_last_separator hsep
    simp only [hsep, ↓reduceIte]
    rw [ofPattern_of_trimEnd htext hleaf, htext, Path.rdropWhile_append_cons before hleaf,
      Path.rtakeWhile_append_cons before hleaf, List.dropLast_concat]
  simp only [hsep, ↓reduceIte]
  by_cases hempty : p = ""
  · subst hempty
    rfl
  by_cases htext : Path.trimEnd p.toList = []
  · rw [if_pos ⟨htext, hempty⟩]
    obtain ⟨c, rest, hrest⟩ := List.exists_cons_of_ne_nil (mt String.toList_eq_nil_iff.1 hempty)
    obtain rfl : c = '/' := Path.trimEnd_eq_nil_iff.1 htext c (hrest ▸ List.mem_cons_self)
    have hparts := Path.Components.ofPath_of_root hrest
    have hnil : Path.trimEnd rest = [] := Path.trimEnd_eq_nil_iff.2 fun c hc =>
      Path.trimEnd_eq_nil_iff.1 htext c (hrest ▸ List.mem_cons_of_mem _ hc)
    rw [if_pos hnil] at hparts
    rw [ofPattern, hparts]
    rfl
  · have hroot : p.toList.head? ≠ some '/' := by
      intro hroot
      obtain ⟨c, cs, hcons⟩ := List.exists_cons_of_ne_nil htext
      rw [Path.head?_of_trimEnd_eq_cons hcons] at hroot
      cases hroot
      exact hsep (hcons ▸ List.mem_cons_self)
    rw [if_neg fun h => htext h.1, ofPattern, Path.Components.ofPath_of_relative hroot,
      Path.pieces_of_not_mem hsep]
    rfl

/-- What stands behind the last separator holds none. -/
theorem not_mem_leaf_atLastSeparator (p : String) : '/' ∉ (atLastSeparator p).leaf.toList := by
  rw [atLastSeparator]
  split
  · next hsep =>
    obtain ⟨before, leaf, htext, hleaf⟩ := Path.exists_last_separator hsep
    rw [htext, Path.rtakeWhile_append_cons before hleaf, String.toList_ofList]
    exact hleaf
  · next hsep =>
    split
    · simp
    · rwa [String.toList_ofList]

/-- The directory of a pattern is absolute if the pattern is. -/
theorem isAbsolute_directory_ofPattern (p : String) :
    Path.isAbsolute (ofPattern p).directory = Path.isAbsolute p := by
  by_cases hsep : '/' ∈ Path.trimEnd p.toList
  · obtain ⟨before, leaf, htext, hleaf⟩ := Path.exists_last_separator hsep
    rw [ofPattern_of_trimEnd htext hleaf]
    cases before with
    | nil => simp [Path.isAbsolute, Path.head?_of_trimEnd_eq_cons htext]
    | cons c cs => simp [Path.isAbsolute, Path.head?_of_trimEnd_eq_cons htext]
  rw [ofPattern_eq_atLastSeparator, atLastSeparator, if_neg hsep]
  by_cases hempty : p = ""
  · subst hempty
    rfl
  cases htext : Path.trimEnd p.toList with
  | nil =>
      obtain ⟨c, cs, hp⟩ := List.exists_cons_of_ne_nil (mt String.toList_eq_nil_iff.1 hempty)
      have hc : c = '/' := Path.trimEnd_eq_nil_iff.1 htext c (hp ▸ List.mem_cons_self)
      simp [Path.isAbsolute, hp, hc, hempty]
  | cons c cs =>
      have hc : c ≠ '/' := fun h => hsep (by simp [htext, h])
      simp [Path.isAbsolute, Path.head?_of_trimEnd_eq_cons htext, hc]

end GlobTarget

/-! ## The search -/

theorem Action.glob_text (p : String) (cwd : Value) :
    glob (.text p) cwd =
      globIn (.text (GlobTarget.ofPattern p).directory) (.text (GlobTarget.ofPattern p).leaf) cwd :=
  pure_bind p _

/-- **A search with a full pattern is one in a directory**, with the two parts of the pattern that
    its last separator divides. The second part holds no separator, and what is found is the
    resolved directory joined to each listed name that the compiled second part matches, in listing
    order. -/
theorem Action.glob_atLastSeparator (p : String) (cwd : Value) :
    let target := GlobTarget.atLastSeparator p
    glob (.text p) cwd = globIn (.text target.directory) (.text target.leaf) cwd ∧
    '/' ∉ target.leaf.toList ∧
    ∀ (w : World) (found : List String),
      ((glob (.text p) cwd).run w).1 = .ok found ↔ ∃ directory matcher listed,
        WorkDir.resolve w.cwd (.text target.directory) [] cwd = .ok directory ∧
          (w.cache.compile target.leaf).1 = .ok matcher ∧
          w.tree.list directory = .ok listed ∧
          found =
            ((listed.map Tree.Entry.name).filter matcher.matches?).map (Path.join directory) := by
  intro target
  have htarget : GlobTarget.ofPattern p = target := GlobTarget.ofPattern_eq_atLastSeparator p
  have hglob : glob (.text p) cwd = globIn (.text target.directory) (.text target.leaf) cwd := by
    rw [glob_text, htarget]
  refine ⟨hglob, GlobTarget.not_mem_leaf_atLastSeparator p, fun w found => ?_⟩
  rw [hglob, result_globIn, World.search_eq_ok_iff]
  constructor
  · rintro ⟨directory, leaf, matcher, listed, hdirectory, hleaf, hmatcher, hlisted, hfound⟩
    cases hleaf
    exact ⟨directory, matcher, listed, hdirectory, hmatcher, hlisted, hfound⟩
  · rintro ⟨directory, matcher, listed, hdirectory, hmatcher, hlisted, hfound⟩
    exact ⟨directory, _, matcher, listed, hdirectory, rfl, hmatcher, hlisted, hfound⟩

end DirGlob
