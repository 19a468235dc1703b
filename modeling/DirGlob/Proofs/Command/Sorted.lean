import DirGlob.Proofs.Command.Diagnostics
import DirGlob.Proofs.Tree.Reordered

set_option autoImplicit false

/-! # Sorted output

A run that sorts its matches prints the same whatever order the directories list their entries in,
and it ends with the same code: the search finds the same matches up to order, or fails in the same
way (`World.sameUpToOrder_search`), and of all lists with these matches only one is in order
(`Command.sortTexts_eq_of_perm`). The paths are in order exactly as the names in them are, since the
directory stands before each of them (`Command.sortTexts_map_join`). What the log makes can be in the
tree; then its entries can be listed in any order as well. -/

namespace DirGlob

open DirGlob.Action

/-! ## Searches in reordered trees -/

theorem Tree.SameButOrder.find {t t' : Tree} (h : t.SameButOrder t') (directory : String)
    (matcher : Pattern.Matcher) :
    SameUpToOrder (t.find directory matcher) (t'.find directory matcher) := by
  have hlist := h.list directory
  rw [Tree.find, Tree.find]
  generalize t.list directory = listed at hlist
  generalize t'.list directory = listed' at hlist
  cases hlist with
  | ok perm => exact .ok ((perm.filter _).map _)
  | error f => exact .error f

/-- Up to order it makes no difference what something is bound to. -/
theorem SameUpToOrder.bind {α β : Type} {x : Except Failure α}
    {f g : α → Except Failure (List β)} (h : ∀ a, SameUpToOrder (f a) (g a)) :
    SameUpToOrder (x >>= f) (x >>= g) := by
  cases x with
  | error e => exact .error e
  | ok a => exact h a

/-- A search finds the same in both trees up to order, or fails in the same way. -/
theorem World.sameUpToOrder_search {w : World} {t t' : Tree} (h : t.SameButOrder t')
    (root pattern cwd : Value) :
    SameUpToOrder ({ w with tree := t }.search root pattern cwd)
      ({ w with tree := t' }.search root pattern cwd) :=
  .bind fun directory => .bind fun _ => .bind fun matcher => h.find directory matcher

namespace Command

/-! ## Sorting -/

theorem perm_sortTexts (texts : List String) : (sortTexts texts).Perm texts :=
  List.mergeSort_perm texts _

/-- A list is the only one of its members that is in order. -/
theorem eq_sortTexts_of_perm {texts texts' : List String} (hperm : texts'.Perm texts)
    (hsorted : texts'.Pairwise (· ≤ ·)) : texts' = sortTexts texts :=
  List.Perm.eq_of_pairwise (fun _ _ _ _ => String.le_antisymm) hsorted (pairwise_sortTexts texts)
    (hperm.trans (perm_sortTexts texts).symm)

theorem sortTexts_eq_of_perm {texts texts' : List String} (h : texts'.Perm texts) :
    sortTexts texts' = sortTexts texts :=
  eq_sortTexts_of_perm ((perm_sortTexts texts').trans h) (pairwise_sortTexts texts')

theorem join_le_join (directory : String) {name name' : String}
    (hname : Path.isAbsolute name = false) (hname' : Path.isAbsolute name' = false)
    (h : name ≤ name') : Path.join directory name ≤ Path.join directory name' := by
  rw [Path.join_of_relative directory hname, Path.join_of_relative directory hname']
  rw [← String.not_lt, String.lt_iff] at h ⊢
  rw [String.toList_append, String.toList_append]
  exact List.not_lt.2 (List.append_left_le (List.not_lt.1 h))

/-- Names are in the order of their paths. -/
theorem sortTexts_map_join (directory : String) {names : List String}
    (hnames : ∀ name ∈ names, '/' ∉ name.toList) :
    sortTexts (names.map (Path.join directory)) =
      (sortTexts names).map (Path.join directory) := by
  refine (eq_sortTexts_of_perm ((perm_sortTexts names).map _) ?_).symm
  rw [List.pairwise_map]
  refine (pairwise_sortTexts names).imp_of_mem fun hname hname' hle => ?_
  have hrelative {name : String} (h : name ∈ sortTexts names) : Path.isAbsolute name = false :=
    Path.isAbsolute_of_not_mem (hnames name ((perm_sortTexts names).mem_iff.1 h))
  exact join_le_join directory (hrelative hname) (hrelative hname') hle

/-! ## What is printed -/

/-- The text in which matches are printed: one array, or one line for each. -/
def printed (json : Bool) (found : List String) : String :=
  if json then Text.Json.encodeList found ++ "\n" else String.join (found.map (· ++ "\n"))

theorem join_render (o : Options) (ambient : String) (found : List String) :
    String.join (render (o.settings ambient) found) =
      printed o.json (if o.sort then sortTexts found else found) := by
  rw [render, o.sortResults_settings, o.jsonOutput_settings, printed]
  cases o.json <;> simp

/-- What a run that sorts concludes from its matches does not depend on their order. -/
theorem conclude_eq_of_sameUpToOrder {o : Options} {settings : Settings}
    (hsort : settings.sortResults = true) {result result' : Except Failure (List String)}
    (h : SameUpToOrder result result') :
    conclude o settings result' = conclude o settings result := by
  cases h with
  | @ok found found' perm =>
      have hrender : render settings found' = render settings found := by
        simp only [render, hsort, ↓reduceIte, sortTexts_eq_of_perm perm]
      rw [conclude, conclude, hrender]
  | error f => rfl

theorem Options.sameUpToOrder_search {o : Options} {w : World} (tree : Tree)
    {treeWith : Log.Disk → Tree} (h : ∀ d, (w.treeWith d).SameButOrder (treeWith d)) :
    SameUpToOrder (o.search w) (o.search { w with tree, treeWith }) := by
  rw [Options.search, Options.search, result_glob_text, result_glob_text]
  exact World.sameUpToOrder_search (h _) _ _ _

/-- A run that sorts ends and prints the same in both trees. -/
theorem runOptions_of_reordered {o : Options} (hsort : o.sort = true) {w : World} (tree : Tree)
    {treeWith : Log.Disk → Tree} (h : ∀ d, (w.treeWith d).SameButOrder (treeWith d)) :
    ((runOptions o).run { w with tree, treeWith }).1 = ((runOptions o).run w).1 ∧
      ((runOptions o).run { w with tree, treeWith }).2.output =
        ((runOptions o).run w).2.output := by
  obtain ⟨w₁, hquiet₁, hrun₁⟩ := exists_run_runOptions o w
  obtain ⟨w₂, hquiet₂, hrun₂⟩ := exists_run_runOptions o { w with tree, treeWith }
  have hsettings : (o.settings w.cwd).sortResults = true := by rw [o.sortResults_settings, hsort]
  have hconclude :=
    conclude_eq_of_sameUpToOrder (o := o) hsettings (o.sameUpToOrder_search tree h)
  rw [hrun₁, hrun₂]
  show ((conclude o (o.settings w.cwd) (o.search { w with tree, treeWith })).run w₂).1 = _ ∧
    ((conclude o (o.settings w.cwd) (o.search { w with tree, treeWith })).run w₂).2.output = _
  rw [hconclude]
  exact conclude_congr rfl rfl (hquiet₂.output.trans hquiet₁.output.symm) _

/-- A run whose search fails prints nothing. -/
theorem runOptions_of_error {o : Options} {w : World} {f : Failure} (h : o.search w = .error f) :
    ((runOptions o).run w).1 = .ok (exitCode f) ∧
      ((runOptions o).run w).2.output = w.output := by
  obtain ⟨w₁, hquiet, hrun⟩ := exists_run_runOptions o w
  obtain ⟨w₂, hreport, hsame, -⟩ := exists_run_reportFailure o.pattern f w₁
  rw [hrun, h, conclude, hreport]
  exact ⟨rfl, hsame.trans hquiet.output⟩

/-- A run whose search succeeds prints the matches. -/
theorem runOptions_of_ok {o : Options} {w : World} (hfault : w.output.fault = none)
    {found : List String} (h : o.search w = .ok found) :
    ((runOptions o).run w).1 = .ok 0 ∧
      ((runOptions o).run w).2.output.text =
        w.output.text ++ printed o.json (if o.sort then sortTexts found else found) := by
  obtain ⟨w₁, hquiet, hrun⟩ := exists_run_runOptions o w
  have hfault₁ : w₁.output.fault = none := by rw [hquiet.output, hfault]
  have hwrite := run_writeAll hfault₁ (render (o.settings w.cwd) found)
  rw [hrun, h, conclude, run_bind_of_ok hwrite, join_render]
  refine ⟨rfl, ?_⟩
  show w₁.output.text ++ _ = _
  rw [hquiet.output]

/-- What is found are the names of entries behind their directory. -/
theorem Options.exists_names_of_search {o : Options} {w : World}
    (ht : ∀ d, (w.treeWith d).WellNamed) {found : List String} (h : o.search w = .ok found) :
    ∃ (directory : String) (listed : List Tree.Entry) (names : List String),
      (o.searchedTree w).list directory = .ok listed ∧ names.Sublist (listed.map Tree.Entry.name) ∧
        (∀ name ∈ names, '/' ∉ name.toList) ∧ found = names.map (Path.join directory) := by
  rw [Options.search, result_glob_text] at h
  obtain ⟨directory, leaf, matcher, listed, -, -, -, hlist, rfl⟩ := World.search_eq_ok_iff.1 h
  refine ⟨directory, listed, _, hlist, List.filter_sublist, fun name hname => ?_, rfl⟩
  obtain ⟨d, entries, hd, hnode, rfl⟩ := Tree.list_eq_ok_iff.1 hlist
  have hentry : name ∈ entries.map (·.1) := by
    simpa [Function.comp_def] using (List.mem_filter.1 hname).1
  exact ((((ht _).directory? hd).names hnode).2 name hentry).2

/-- **Sorted output does not depend on listing order.** A run that sorts ends with the same code and
    prints the same if the directories of the tree list their entries in another order, at the start
    and with what the log makes. Without the option it ends with the same code and prints the same
    paths, in listing order, whereas with it the paths are in order, and so are the names of the
    entries that they lead to. -/
theorem run_sorted_of_reordered {w : World} (ht : ∀ d, (w.treeWith d).WellNamed)
    {arguments : List String} {o : Options} (hparse : parse arguments = .run o)
    (hsort : o.sort = true) :
    let sorted := (run arguments).run w
    (∀ (tree : Tree) (treeWith : Log.Disk → Tree),
      (∀ d, (w.treeWith d).SameButOrder (treeWith d)) →
        ((run arguments).run { w with tree, treeWith }).1 = sorted.1 ∧
          ((run arguments).run { w with tree, treeWith }).2.output = sorted.2.output) ∧
      ∀ arguments', parse arguments' = .run { o with sort := false } → w.output.fault = none →
        let unsorted := (run arguments').run w
        unsorted.1 = sorted.1 ∧
          ((sorted.1 ≠ .ok (.code 0) ∧ sorted.2.output = w.output ∧ unsorted.2.output = w.output) ∨
            (sorted.1 = .ok (.code 0) ∧
              ∃ (directory : String) (listed : List Tree.Entry) (names ordered : List String),
                (o.searchedTree w).list directory = .ok listed ∧
                names.Sublist (listed.map Tree.Entry.name) ∧
                ordered.Perm names ∧ ordered.Pairwise (· ≤ ·) ∧
                (ordered.map (Path.join directory)).Pairwise (· ≤ ·) ∧
                unsorted.2.output.text =
                  w.output.text ++ printed o.json (names.map (Path.join directory)) ∧
                sorted.2.output.text =
                  w.output.text ++ printed o.json (ordered.map (Path.join directory)))) := by
  intro sorted
  have hsorted : sorted = (((runOptions o).run w).1.map .code, ((runOptions o).run w).2) :=
    run_eq_of_parse hparse w
  refine ⟨fun tree treeWith hsame => ?_, fun arguments' hparse' hfault => ?_⟩
  · obtain ⟨hresult, houtput⟩ := runOptions_of_reordered hsort tree hsame
    rw [run_eq_of_parse hparse, hsorted, hresult, houtput]
    exact ⟨rfl, rfl⟩
  · intro unsorted
    have hunsorted : unsorted = _ := run_eq_of_parse hparse' w
    have hsearch : Options.search { o with sort := false } w = o.search w :=
      Options.search_congr (by rfl) (by rfl) (Options.searchedTree_congr (by rfl) (by rfl) w)
    rw [hsorted, hunsorted]
    cases hfound : o.search w with
    | error f =>
        obtain ⟨hcode, houtput⟩ := runOptions_of_error hfound
        obtain ⟨hcode', houtput'⟩ := runOptions_of_error (hsearch.trans hfound)
        rw [hcode, hcode', houtput, houtput']
        exact ⟨rfl, .inl ⟨by simpa [Except.map] using (exitCode_iff f).1, rfl, rfl⟩⟩
    | ok found =>
        obtain ⟨hcode, htext⟩ := runOptions_of_ok hfault hfound
        obtain ⟨hcode', htext'⟩ := runOptions_of_ok hfault (hsearch.trans hfound)
        obtain ⟨directory, listed, names, hlist, hnames, hplain, rfl⟩ :=
          o.exists_names_of_search ht hfound
        rw [hsort, if_pos rfl, sortTexts_map_join directory hplain] at htext
        rw [hcode, hcode', htext, htext']
        refine ⟨rfl, .inr ⟨rfl, directory, listed, names, sortTexts names, hlist, hnames,
          perm_sortTexts names, pairwise_sortTexts names, ?_, rfl, rfl⟩⟩
        rw [← sortTexts_map_join directory hplain]
        exact pairwise_sortTexts _

/-- Two directories in another order each, and a link among the entries. -/
theorem run_sorted_of_reordered_twice :
    let below : List (String × Node) := [("b", .file), ("a", .link "b")]
    let w := World.start ⟨[("d", .directory below), ("c", .file)]⟩ "/" (.empty "/home") "" none
    let t : Tree := ⟨[("c", .file), ("d", .directory below.reverse)]⟩
    let o : Options := ⟨"d/*", .nothing, true, false, false, .nothing⟩
    let arguments := ["--sort", "d/*"]
    w.tree.WellNamed ∧ parse arguments = .run o ∧ parse ["d/*"] = .run { o with sort := false } ∧
      w.tree.SameButOrder t ∧
      ((run arguments).run { w with tree := t, treeWith := fun _ => t }).1 = .ok (.code 0) ∧
      ((run arguments).run { w with tree := t, treeWith := fun _ => t }).2.output.text =
        "/d/a\n/d/b\n" ∧
      ((run ["d/*"]).run w).1 = .ok (.code 0) ∧
      ((run ["d/*"]).run w).2.output.text = "/d/b\n/d/a\n" := by
  intro below w t o arguments
  have hbelow : Node.WellNamed (.directory below) := by
    refine .directory (by decide) (by decide) fun e he => ?_
    obtain rfl | rfl : e = ("b", .file) ∨ e = ("a", .link "b") := by simpa [below] using he
    · exact .file
    · exact .link "b"
  have ht : w.tree.WellNamed := by
    refine .directory (by decide) (by decide) fun e he => ?_
    obtain rfl | rfl : e = ("d", .directory below) ∨ e = ("c", .file) := by
      simpa [w, World.start] using he
    · exact hbelow
    · exact .file
  have hsame : w.tree.SameButOrder t := by
    have hreversed : Node.SameButOrder (.directory below) (.directory below.reverse) :=
      hbelow.sameButOrder_of_perm below.reverse_perm.symm
    refine .directory (by decide) fun e he e' he' hname => ?_
    obtain rfl | rfl : e = ("d", .directory below) ∨ e = ("c", .file) := by
      simpa [w, World.start] using he
    all_goals
      obtain rfl | rfl : e' = ("c", .file) ∨ e' = ("d", .directory below.reverse) := by
        simpa [t] using he'
    · exact absurd hname (by decide)
    · exact hreversed
    · exact .file
    · exact absurd hname (by decide)
  have hfound : o.search w = .ok ["/d/b", "/d/a"] := by
    obtain ⟨matcher, hmatcher, hb, ha⟩ : ∃ m, Pattern.Matcher.ofPattern "*" = .ok m ∧
        m.matches? "b" = true ∧ m.matches? "a" = true := ⟨_, rfl, by decide, by decide⟩
    have hcompile : (w.cache.compile "*").1 = .ok matcher := hmatcher
    have hcut : GlobTarget.ofPattern o.pattern = ⟨"d", "*"⟩ := by decide
    have hcwd : (o.settings w.cwd).cwd = "/" := by
      show (o.settings "/").cwd = "/"
      decide
    have hbase : WorkDir.base w.cwd (.text "/") = .ok "/" := rfl
    have hresolved : WorkDir.resolveFrom "/" "d" [] = "/d" := by decide
    have hplace : w.tree.directory? "/d" =
        some ⟨.directory below, [.directory w.tree.entries]⟩ := by
      have hsteps : Path.steps "/d" = ["", "d"] := by decide
      simp [Tree.directory?, Tree.lookup?, hsteps, Tree.root, Place.walk, Place.child?, Node.entry?,
        Node.isDirectory, w, World.start]
    have hjoin : Path.join "/d" "b" = "/d/b" ∧ Path.join "/d" "a" = "/d/a" := by decide
    rw [Options.search_of_logsOutside fun _ => rfl, result_glob_text, hcut, hcwd,
      World.search_text hbase, hcompile, hresolved]
    refine (Tree.find_of_directory matcher hplace rfl).trans ?_
    simp [below, ha, hb, hjoin]
  have hparse : parse arguments = .run o := by decide
  have hparse' : parse ["d/*"] = .run { o with sort := false } := by decide
  have hordered : sortTexts ["/d/b", "/d/a"] = ["/d/a", "/d/b"] :=
    (eq_sortTexts_of_perm (by decide) (by decide)).symm
  obtain ⟨hreordered, hunsorted⟩ := run_sorted_of_reordered (w := w) (fun _ => ht) hparse rfl
  obtain ⟨hresult, houtput⟩ := hreordered t (fun _ => t) fun _ => hsame
  obtain ⟨hunsorted, -⟩ := hunsorted ["d/*"] hparse' rfl
  obtain ⟨hcode, htext⟩ := runOptions_of_ok rfl hfound
  have hfound' : Options.search { o with sort := false } w = .ok ["/d/b", "/d/a"] :=
    (Options.search_congr (by rfl) (by rfl) (Options.searchedTree_congr (by rfl) (by rfl) w)).trans
      hfound
  have htext' := (runOptions_of_ok rfl hfound').2
  have hdone : ((run arguments).run w).1 = .ok (.code 0) := by
    rw [run_eq_of_parse hparse, hcode]
    rfl
  refine ⟨ht, hparse, hparse', hsame, hresult.trans hdone, ?_, hunsorted.trans hdone, ?_⟩
  · rw [houtput, run_eq_of_parse hparse, htext, if_pos rfl, hordered]
    decide
  · rw [run_eq_of_parse hparse', htext']
    decide

end Command

end DirGlob
