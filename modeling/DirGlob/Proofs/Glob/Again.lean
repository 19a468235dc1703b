import DirGlob.Proofs.Glob.Target
import DirGlob.Proofs.Pattern.Literal
import DirGlob.Proofs.Session.Reached
import DirGlob.Proofs.Tree.Named
import Mathlib.Data.List.Nodup

set_option autoImplicit false

/-! # Searching for what was found

A path that a search has found is a full pattern itself. If its last component holds nothing that is
special in a pattern, searching for it finds one path, and that one names the same entry
(`glob_of_mem_glob`). The directory that the path is cut into need not be spelled as the one that
the name was joined to, but it leads the same way (`exists_ofPattern_join`); and where no two
separators follow each other the cut is exact. -/

namespace DirGlob

variable {directory name : String}

/-! ## Cutting what was joined -/

/-- A joined path is cut into its name and a directory that leads the same way. Joining these gives
    the path back, unless two of its separators follow each other. -/
theorem GlobTarget.exists_ofPattern_join (hdirectory : directory ≠ "") (hname : name ≠ "")
    (hsep : '/' ∉ name.toList) :
    ∃ D, ofPattern (Path.join directory name) = ⟨D, name⟩ ∧ Path.SameWay D directory ∧
      (¬['/', '/'] <:+: (Path.join directory name).toList →
        Path.join D name = Path.join directory name) := by
  have hrel := Path.isAbsolute_of_not_mem hsep
  obtain ⟨before, hbefore, hjoined⟩ := Path.exists_toList_join hdirectory hrel
  have hne : name.toList ≠ [] := mt String.toList_eq_nil_iff.1 hname
  have htrim : Path.trimEnd (Path.join directory name).toList = before ++ '/' :: name.toList := by
    rw [hjoined, List.append_cons, Path.trimEnd_append hne hsep]
  have hcut := ofPattern_of_trimEnd htrim hsep
  rw [String.ofList_toList] at hcut
  refine ⟨_, hcut, ?_, fun hdouble => String.toList_injective ?_⟩
  · have hopened : Path.opened directory = String.ofList before ++ "/" :=
      String.toList_injective (by simp [hbefore])
    refine Path.SameWay.trans ?_ (Path.sameWay_opened hdirectory)
    rw [hopened]
    by_cases hroot : before = []
    · subst hroot
      exact .refl _
    · rw [if_neg hroot]
      exact (Path.sameWay_append_separator (by simpa using hroot)).symm
  · rw [hjoined] at hdouble ⊢
    rw [Path.join_of_relative _ hrel, String.toList_append, Path.opened]
    by_cases hroot : before = []
    · subst hroot
      rfl
    · -- A directory that ends in a separator would have it twice in the path.
      have hclosed : Path.endsOpen (String.ofList before) = false := by
        rw [Path.endsOpen, Bool.or_eq_false_iff]
        refine ⟨by simpa using hroot, decide_eq_false fun hlast => hdouble ?_⟩
        obtain ⟨before', hbefore'⟩ := List.getLast?_eq_some_iff.1 hlast
        rw [String.toList_ofList] at hbefore'
        exact ⟨before', name.toList, by simp [hbefore']⟩
      simp [hroot, hclosed]

/-! ## Looking for one name -/

/-- A pattern that matches nothing but the name of an entry finds that entry alone. -/
theorem Tree.find_of_matches?_iff {t : Tree} {place : Place} {entries : List (String × Node)}
    {matcher : Pattern.Matcher} (h : t.directory? directory = some place)
    (hnode : place.node = .directory entries) (hdistinct : (entries.map (·.1)).Nodup)
    (hname : name ∈ entries.map (·.1)) (hmatches : ∀ n, matcher.matches? n = true ↔ n = name) :
    t.find directory matcher = .ok [Path.join directory name] := by
  have hfilter : (entries.map (·.1)).filter matcher.matches? = [name] := by
    calc (entries.map (·.1)).filter matcher.matches?
        = (entries.map (·.1)).filter (· == name) :=
          List.filter_congr fun n _ => Bool.eq_iff_iff.2 ((hmatches n).trans beq_iff_eq.symm)
      _ = List.replicate 1 name := by
          rw [List.filter_beq, List.count_eq_one_of_mem hdistinct hname]
      _ = [name] := rfl
  rw [find_of_directory matcher h hnode, hfilter]
  rfl

/-! ## Searching again -/

variable {tree : Tree} {w w' : World} {place : Place} {entries : List (String × Node)}

/-- Each path that is found is the name of an entry, joined to an absolute path of its directory. -/
theorem exists_of_mem_glob (hw : w.Reached tree) {pattern cwd : Value} {found : List String}
    {r : String} (hfound : ((Action.glob pattern cwd).run w).1 = .ok found) (hr : r ∈ found) :
    ∃ directory place entries name, r = Path.join directory name ∧
      Path.isAbsolute directory = true ∧ tree.directory? directory = some place ∧
      place.node = .directory entries ∧ name ∈ entries.map (·.1) := by
  rw [Action.result_glob] at hfound
  obtain ⟨p, -, hsearch⟩ := bind_eq_ok_iff.1 hfound
  obtain ⟨directory, leaf, matcher, listed, hdirectory, -, -, hlist, rfl⟩ :=
    World.search_eq_ok_iff.1 hsearch
  obtain ⟨name, hname, rfl⟩ := List.mem_map.1 hr
  rw [hw.tree_eq_and_faithful.1] at hlist
  obtain ⟨place, entries, hplace, hnode, rfl⟩ := Tree.list_eq_ok_iff.1 hlist
  refine ⟨directory, place, entries, name, rfl, ?_, hplace, hnode, ?_⟩
  · exact WorkDir.isAbsolute_resolve hw.isAbsolute_cwd hdirectory
  · simpa using (List.mem_filter.1 hname).1

/-- A plain name in a directory is found there alone, in whatever world of the session. -/
theorem search_of_plain (ht : tree.WellNamed) (hw : w.Reached tree)
    (habs : Path.isAbsolute directory = true) (hplace : tree.directory? directory = some place)
    (hnode : place.node = .directory entries) (hname : name ∈ entries.map (·.1))
    (hplain : ∀ c ∈ name.toList, c ∉ Pattern.activeChars) :
    w.search (.text directory) (.text name) .null = .ok [Path.join directory name] := by
  obtain ⟨htree, hfaithful⟩ := hw.tree_eq_and_faithful
  obtain ⟨hdistinct, hnames⟩ := (ht.directory? hplace).names hnode
  obtain ⟨matcher, hmatcher, hmatches⟩ :=
    Pattern.exists_ofPattern_of_plain hplain (hnames name hname).2
  rw [World.search_text_null, hfaithful.compile_fst, hmatcher, htree,
    WorkDir.resolveFrom_of_isAbsolute _ habs]
  exact Tree.find_of_matches?_iff hplace hnode hdistinct hname hmatches

/-- **Searching for a path that was found finds one path**, which names the same entry: it does so
    in whatever tree, and in this one the entry is there. It is the path itself, unless two of its
    separators follow each other. The last component must hold nothing that is special in a pattern;
    the working directories and the first pattern are arbitrary. -/
theorem glob_of_mem_glob (ht : tree.WellNamed) (hw : w.Reached tree) (hw' : w'.Reached tree)
    {pattern cwd : Value} {found : List String} {r : String}
    (hfound : ((Action.glob pattern cwd).run w).1 = .ok found) (hr : r ∈ found)
    (hplain : ∀ c ∈ (Path.cutLast r).2.toList, c ∉ Pattern.activeChars) :
    ∃ r', ((Action.glob (.text r) .null).run w').1 = .ok [r'] ∧
      (∀ t : Tree, t.named? r' = t.named? r) ∧
      (∃ place name, tree.named? r = some (place, name) ∧ (place.child? name).isSome = true) ∧
      (¬['/', '/'] <:+: r.toList → r' = r) := by
  obtain ⟨directory, place, entries, name, rfl, habs, hplace, hnode, hname⟩ :=
    exists_of_mem_glob hw hfound hr
  obtain ⟨-, hnames⟩ := (ht.directory? hplace).names hnode
  obtain ⟨hne, hsep⟩ := hnames name hname
  have hdirectory : directory ≠ "" := Path.ne_empty_of_isAbsolute habs
  rw [Path.snd_cutLast_join hdirectory hsep] at hplain
  -- The path is cut into a directory that leads the same way, and the name.
  obtain ⟨D, hcut, hway, hsame⟩ := GlobTarget.exists_ofPattern_join hdirectory hne hsep
  have habsD : Path.isAbsolute D = true := by
    have hdir := GlobTarget.isAbsolute_directory_ofPattern (Path.join directory name)
    rw [hcut] at hdir
    rw [hdir, Path.isAbsolute_join_left habs]
  refine ⟨Path.join D name, ?_, fun t => ?_, ⟨place, name, ?_, ?_⟩, hsame⟩
  · rw [Action.result_glob_text, hcut]
    have hplaceD := (tree.directory?_congr hway).trans hplace
    exact search_of_plain ht hw' habsD hplaceD hnode hname hplain
  · rw [t.named?_join (Path.ne_empty_of_isAbsolute habsD) hsep, t.named?_join hdirectory hsep,
      t.directory?_congr hway]
  · rw [tree.named?_join hdirectory hsep, hplace]
    rfl
  · exact Place.isSome_child? hnode hname

/-- A comma in the name, and a directory that is spelled with two separators. -/
theorem glob_again_past_doubled_separator :
    let below : List (String × Node) := [("a,b.py", .file)]
    let tree : Tree := ⟨[("d", .directory below)]⟩
    let w := World.start tree "/" (.empty "/home") "" none
    let r := "/d//a,b.py"
    tree.WellNamed ∧ w.Reached tree ∧ ((Action.glob (.text "d///*.py") .null).run w).1 = .ok [r] ∧
      (∀ c ∈ (Path.cutLast r).2.toList, c ∉ Pattern.activeChars) ∧
      ∃ r', ((Action.glob (.text r) .null).run w).1 = .ok [r'] ∧
        (∀ t : Tree, t.named? r' = t.named? r) ∧
        (∃ place name, tree.named? r = some (place, name) ∧ (place.child? name).isSome = true) ∧
        (¬['/', '/'] <:+: r.toList → r' = r) := by
  intro below tree w r
  have hbelow : Node.WellNamed (.directory below) :=
    .directory (by decide) (by decide) fun e he => List.mem_singleton.1 he ▸ .file
  have htree : tree.WellNamed :=
    .directory (by decide) (by decide) fun e he => List.mem_singleton.1 he ▸ hbelow
  have hw : w.Reached tree := ⟨"/", .empty "/home", "", none, [], by decide, rfl⟩
  have hplain : ∀ c ∈ (Path.cutLast r).2.toList, c ∉ Pattern.activeChars := by
    have hall : (Path.cutLast r).2.toList.all (!Pattern.activeChars.contains ·) = true := by decide
    simpa using hall
  have hplace : tree.directory? "/d//" = some ⟨.directory below, [.directory tree.entries]⟩ := by
    have hsteps : Path.steps "/d//" = ["", "d", "", ""] := by decide
    simp [Tree.directory?, Tree.lookup?, hsteps, Tree.root, Place.walk, Place.child?, Node.entry?,
      Node.isDirectory, tree]
  have hfound : ((Action.glob (.text "d///*.py") .null).run w).1 = .ok [r] := by
    obtain ⟨matcher, hmatcher, hmatches⟩ : ∃ m, Pattern.Matcher.ofPattern "*.py" = .ok m ∧
        m.matches? "a,b.py" = true := ⟨_, rfl, by decide⟩
    have hcompile : (w.cache.compile "*.py").1 = .ok matcher := hmatcher
    have hcut : GlobTarget.ofPattern "d///*.py" = ⟨"d//", "*.py"⟩ := by decide
    have hdirectory : WorkDir.resolveFrom w.cwd "d//" [] = "/d//" := by decide
    rw [Action.result_glob_text, hcut, World.search_text_null, hcompile,
      hdirectory]
    refine (Tree.find_of_directory matcher hplace rfl).trans ?_
    have hjoin : Path.join "/d//" "a,b.py" = r := by decide
    simp [below, hmatches, hjoin]
  exact ⟨htree, hw, hfound, hplain,
    glob_of_mem_glob htree hw hw hfound List.mem_cons_self hplain⟩

end DirGlob
