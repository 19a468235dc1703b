import DirGlob.Proofs.Glob.Target

set_option autoImplicit false

/-! # An explicit directory and a scope

A directory can be given to a single operation, or the operation can be run with the directory as
its working directory. The former joins the directory to the working directory, and the latter
resolves it. That is the same for every path but `.`, which resolving leaves out and joining does
not (`base_eq_resolve`). So the two ways agree, unless the directory is `.` and what comes out
begins with the directory (`explicit_eq_within`). -/

namespace DirGlob

variable {d : Value}

namespace WorkDir

/-- Whatever is no path is refused in either way, and every path but `.` gives the same base. -/
theorem base_eq_resolve (ambient : String) (hd : d ≠ .null) (hdot : Path.ofValue d ≠ .ok ".") :
    base ambient d = resolve ambient d [] .null := by
  rw [base_of_ne_null ambient hd]
  cases hname : Path.ofValue d with
  | error f =>
      rw [resolve_of_ofValue_error ambient hname]
      rfl
  | ok name =>
      have hne : name ≠ "." := fun h => hdot (h ▸ hname)
      rw [resolve_of_ofValue ambient hname, resolveFrom_of_ne_dot ambient hne]
      rfl

/-- In any other directory than `.`, what is resolved is what it is resolved to there. -/
theorem resolve_of_ne_dot (ambient : String) (hd : d ≠ .null) (hdot : Path.ofValue d ≠ .ok ".")
    (path : Value) (more : List Value) :
    resolve ambient path more d =
      (resolve ambient d [] .null >>= fun directory => resolve directory path more .null) := by
  rw [resolve, base_eq_resolve ambient hd hdot]
  cases resolve ambient d [] .null <;> rfl

/-- The directory `.` is the present one. -/
theorem resolve_dot {ambient : String} (h : Path.isAbsolute ambient = true)
    (hdot : Path.ofValue d = .ok ".") : resolve ambient d [] .null = .ok ambient := by
  rw [resolve_of_ofValue ambient hdot, resolveFrom_eq_joinAll h]
  rfl

/-- The explicit directory `.` makes no difference exactly if one of the paths is absolute, or one
    of the values is no path. -/
theorem resolve_dot_eq_iff {ambient : String} (h : Path.isAbsolute ambient = true)
    (hdot : Path.ofValue d = .ok ".") (path : Value) (more : List Value) :
    resolve ambient path more d = resolve ambient path more .null ↔
      ∀ ps, (path :: more).mapM Path.ofValue = .ok ps → ps.any Path.isAbsolute = true := by
  rw [resolve, resolve, base_of_ofValue ambient hdot, List.mapM_cons]
  cases hp : Path.ofValue path with
  | error f => simp [bind, Except.bind, base]
  | ok p =>
      cases hps : more.mapM Path.ofValue with
      | error f => simp [bind, Except.bind, base]
      | ok ps =>
          simp only [bind, Except.bind, base, pure, Except.pure, Except.ok.injEq]
          rw [resolveFrom_join_dot_eq_iff h]
          exact ⟨fun habs qs hqs => hqs ▸ habs, fun hall => hall _ rfl⟩

/-- With `.` behind the base, what is resolved leads the same way. -/
theorem sameWay_resolveFrom_join_dot {b : String} (h : Path.isAbsolute b = true) (p : String) :
    Path.SameWay (resolveFrom (Path.join b ".") p []) (resolveFrom b p []) := by
  have hb : b ≠ "" := Path.ne_empty_of_isAbsolute h
  by_cases hdot : p = "."
  · subst hdot
    rw [resolveFrom_eq_joinAll (Path.isAbsolute_join_left h "."), resolveFrom_eq_joinAll h]
    exact Path.sameWay_join_dot hb
  · rw [resolveFrom_of_ne_dot _ hdot, resolveFrom_of_ne_dot _ hdot]
    exact (Path.sameWay_join_dot hb).join p

end WorkDir

/-! ## Searches -/

namespace Tree

variable {t : Tree} {D D' : String}

/-- Nothing is found in a directory, under whatever name. -/
theorem find_eq_nil_of_sameWay {matcher : Pattern.Matcher} (hway : Path.SameWay D' D)
    (h : t.find D matcher = .ok []) : t.find D' matcher = .ok [] := by
  obtain ⟨listed, hlist, hfound⟩ := find_eq_ok_iff.1 h
  obtain ⟨place, entries, hplace, hnode, rfl⟩ := list_eq_ok_iff.1 hlist
  have hnames : (entries.map (·.1)).filter matcher.matches? = [] := by
    rw [List.map_map] at hfound
    exact List.map_eq_nil_iff.1 hfound.symm
  rw [find_of_directory matcher ((t.directory?_congr hway).trans hplace) hnode, hnames]
  rfl

/-- What is found in the same directory under two names differs, if anything is found there: each
    path, and each failure of the listing, begins with the name of the directory. -/
theorem find_eq_nil_of_find_eq (ht : t.WellNamed) (hway : Path.SameWay D' D) (hne : D' ≠ D)
    (hjoin : ∀ n, Path.isAbsolute n = false → Path.join D' n ≠ Path.join D n)
    {matcher : Pattern.Matcher} (h : t.find D' matcher = t.find D matcher) :
    t.find D matcher = .ok [] := by
  have hplaces := t.directory?_congr hway
  cases hplace : t.directory? D with
  | none => simp [find, list_eq, hplaces, hplace, bind, Except.bind, hne] at h
  | some place =>
      rw [hplace] at hplaces
      cases hnode : place.node with
      | directory entries =>
          rw [find_of_directory matcher hplace hnode] at h ⊢
          rw [find_of_directory matcher hplaces hnode, Except.ok.injEq] at h
          cases hfound : (entries.map (·.1)).filter matcher.matches? with
          | nil => rfl
          | cons n ns =>
              have hn : n ∈ entries.map (·.1) :=
                (List.mem_filter.1 (hfound ▸ List.mem_cons_self)).1
              have hrel : Path.isAbsolute n = false :=
                Path.isAbsolute_of_not_mem (((ht.directory? hplace).names hnode).2 n hn).2
              rw [hfound] at h
              exact absurd (List.cons.inj h).1 (hjoin n hrel)
      | _ => simp [find, list_eq, hplaces, hplace, hnode, bind, Except.bind, hne] at h

end Tree

namespace World

variable {w : World}

/-- In the working directory itself nothing else is found. -/
theorem search_inDirectory_cwd (root pattern cwd : Value) :
    (w.inDirectory w.cwd).search root pattern cwd = w.search root pattern cwd := by
  simp only [search, inDirectory, World.cwd]

/-- In any other directory than `.`, a search is the one that is made there. -/
theorem search_of_ne_dot (hd : d ≠ .null) (hdot : Path.ofValue d ≠ .ok ".") (root pattern : Value) :
    w.search root pattern d = (WorkDir.resolve w.cwd d [] .null >>= fun directory =>
      (w.inDirectory directory).search root pattern .null) := by
  rw [search, WorkDir.resolve_of_ne_dot w.cwd hd hdot]
  cases WorkDir.resolve w.cwd d [] .null <;> rfl

/-- What a search comes to does not begin with the working directory: its pattern is absolute or
    does not compile, or nothing is found. -/
def FreeOfCwd (w : World) (p : String) : Prop :=
  Path.isAbsolute p = true ∨ (∃ e, (w.cache.compile (GlobTarget.ofPattern p).leaf).1 = .error e) ∨
    ((Action.glob (.text p) .null).run w).1 = .ok []

theorem glob_dot_of_freeOfCwd (h : Path.isAbsolute w.cwd = true)
    (hdot : Path.ofValue d = .ok ".") {p : String} (hfree : w.FreeOfCwd p) :
    ((Action.glob (.text p) d).run w).1 = ((Action.glob (.text p) .null).run w).1 := by
  rw [FreeOfCwd, ← GlobTarget.isAbsolute_directory_ofPattern] at hfree
  simp only [Action.result_glob_text] at hfree ⊢
  rw [search_text_null] at hfree
  rw [search_text (WorkDir.base_of_ofValue w.cwd hdot), search_text_null]
  rcases hfree with habs | ⟨e, he⟩ | hnone
  · rw [WorkDir.resolveFrom_of_isAbsolute _ habs, WorkDir.resolveFrom_of_isAbsolute _ habs]
  · rw [he]
  · cases hcompile : (w.cache.compile (GlobTarget.ofPattern p).leaf).1 with
    | error e => rfl
    | ok matcher =>
        rw [hcompile] at hnone
        have hway := WorkDir.sameWay_resolveFrom_join_dot h (GlobTarget.ofPattern p).directory
        exact (Tree.find_eq_nil_of_sameWay hway hnone).trans hnone.symm

theorem freeOfCwd_of_glob_dot (h : Path.isAbsolute w.cwd = true) (ht : w.tree.WellNamed)
    (hdot : Path.ofValue d = .ok ".") {p : String}
    (hglob : ((Action.glob (.text p) d).run w).1 = ((Action.glob (.text p) .null).run w).1) :
    w.FreeOfCwd p := by
  rw [FreeOfCwd, ← GlobTarget.isAbsolute_directory_ofPattern]
  simp only [Action.result_glob_text] at hglob ⊢
  rw [search_text (WorkDir.base_of_ofValue w.cwd hdot), search_text_null]
    at hglob
  rw [search_text_null]
  by_cases habs : Path.isAbsolute (GlobTarget.ofPattern p).directory = true
  · exact .inl habs
  cases hcompile : (w.cache.compile (GlobTarget.ofPattern p).leaf).1 with
  | error e => exact .inr (.inl ⟨e, rfl⟩)
  | ok matcher =>
      have hne (qs : List String) (hqs : qs.any Path.isAbsolute = false) :
          WorkDir.resolveFrom (Path.join w.cwd ".") (GlobTarget.ofPattern p).directory qs ≠
            WorkDir.resolveFrom w.cwd (GlobTarget.ofPattern p).directory qs := by
        rw [ne_eq, WorkDir.resolveFrom_join_dot_eq_iff h]
        simpa [habs] using hqs
      have hjoin := Path.isAbsolute_join_left h "."
      have hway := WorkDir.sameWay_resolveFrom_join_dot h (GlobTarget.ofPattern p).directory
      rw [hcompile] at hglob
      refine .inr (.inr (Tree.find_eq_nil_of_find_eq ht hway (hne [] rfl) (fun n hn => ?_) hglob))
      rw [WorkDir.join_resolveFrom hjoin, WorkDir.join_resolveFrom h]
      exact hne [n] (by simp [hn])

end World

/-! ## The two ways -/

namespace Action

variable {w : World}

/-- What a path is resolved to in a directory, and in the scope of that directory. -/
theorem resolve_eq_within_iff (h : Path.isAbsolute w.cwd = true) (hd : d ≠ .null) (path : Value)
    (more : List Value) :
    ((resolve path more d).run w).1 = ((within d (resolve path more .null)).run w).1 ↔
      (Path.ofValue d = .ok "." → ∀ ps, (path :: more).mapM Path.ofValue = .ok ps →
        ps.any Path.isAbsolute = true) := by
  simp only [result_within, run_resolve]
  by_cases hdot : Path.ofValue d = .ok "."
  · rw [WorkDir.resolve_dot h hdot]
    exact (WorkDir.resolve_dot_eq_iff h hdot path more).trans (imp_iff_right hdot).symm
  · exact iff_of_true (WorkDir.resolve_of_ne_dot w.cwd hd hdot path more) (absurd · hdot)

/-- A pattern that is no path is reported in either way, unless the directory is none either. -/
theorem glob_eq_within_iff_of_error {pattern : Value} {f : Failure}
    (hpattern : Path.ofValue pattern = .error f) :
    ((glob pattern d).run w).1 = ((within d (glob pattern .null)).run w).1 ↔
      ∀ f', Path.ofValue d = .error f' → f = f' := by
  rw [result_within]
  simp only [result_glob, hpattern]
  cases hname : Path.ofValue d with
  | error f' =>
      rw [WorkDir.resolve_of_ofValue_error w.cwd hname]
      simp [bind, Except.bind]
  | ok name =>
      rw [WorkDir.resolve_of_ofValue w.cwd hname]
      simp [bind, Except.bind]

/-- What is searched for in the scope of `.` is searched for in the working directory. -/
theorem result_within_dot (h : Path.isAbsolute w.cwd = true) (hdot : Path.ofValue d = .ok ".")
    (pattern : Value) :
    ((within d (glob pattern .null)).run w).1 = ((glob pattern .null).run w).1 := by
  simp only [result_within, WorkDir.resolve_dot h hdot, result_glob, bind, Except.bind,
    World.search_inDirectory_cwd]

theorem glob_eq_within_of_ne_dot (hd : d ≠ .null) (hdot : Path.ofValue d ≠ .ok ".") {p : String}
    {pattern : Value} (hpattern : Path.ofValue pattern = .ok p) :
    ((glob pattern d).run w).1 = ((within d (glob pattern .null)).run w).1 := by
  rw [result_within]
  simp only [result_glob_of_ofValue hpattern]
  exact World.search_of_ne_dot hd hdot _ _

/-- **A directory can be given explicitly or by a scope.** What a path is resolved to, what a search
    finds and how either fails are the same, with one exception: the explicit directory `.` can be
    seen in what comes out, unless one of the paths is absolute or nothing begins with the
    directory. (Where neither the pattern nor the directory is a path, the one is reported in the
    first way and the other in the second.) -/
theorem explicit_eq_within (h : Path.isAbsolute w.cwd = true) (hd : d ≠ .null) :
    (∀ path more, ((resolve path more d).run w).1 = ((within d (resolve path more .null)).run w).1 ↔
      (Path.ofValue d = .ok "." → ∀ ps, (path :: more).mapM Path.ofValue = .ok ps →
        ps.any Path.isAbsolute = true)) ∧
    ∀ pattern,
      let agree := ((glob pattern d).run w).1 = ((within d (glob pattern .null)).run w).1
      let condition :=
        match Path.ofValue pattern with
        | .ok p => Path.ofValue d = .ok "." → w.FreeOfCwd p
        | .error f => ∀ f', Path.ofValue d = .error f' → f = f'
      (condition → agree) ∧ (w.tree.WellNamed → agree → condition) := by
  refine ⟨resolve_eq_within_iff h hd, fun pattern => ?_⟩
  cases hpattern : Path.ofValue pattern with
  | error f =>
      have hiff := glob_eq_within_iff_of_error (w := w) (d := d) hpattern
      exact ⟨hiff.2, fun _ => hiff.1⟩
  | ok p =>
      have htext (cwd : Value) : ((glob pattern cwd).run w).1 = ((glob (.text p) cwd).run w).1 := by
        rw [result_glob_of_ofValue hpattern, result_glob_text]
      by_cases hdot : Path.ofValue d = .ok "."
      · rw [result_within_dot h hdot, htext, htext]
        exact ⟨fun hfree => World.glob_dot_of_freeOfCwd h hdot (hfree hdot), fun ht hagree _ =>
          World.freeOfCwd_of_glob_dot h ht hdot hagree⟩
      · exact ⟨fun _ => glob_eq_within_of_ne_dot hd hdot hpattern, fun _ _ hdot' =>
          absurd hdot' hdot⟩

/-- A directory one level down, and the directory `.`, with which a search in the two ways agrees
    only where it is free of the working directory. -/
theorem explicit_eq_within_below_root :
    let w := World.start ⟨[("sub", .directory [("a.py", .file)])]⟩ "/" (.empty "/home") "" none
    Path.isAbsolute w.cwd = true ∧ w.tree.WellNamed ∧
      (∀ path more, ((resolve path more (.text "sub")).run w).1 =
        ((within (.text "sub") (resolve path more .null)).run w).1) ∧
      (∀ pattern, ((glob pattern (.text "sub")).run w).1 =
        ((within (.text "sub") (glob pattern .null)).run w).1) ∧
      ∀ p, ((glob (.text p) (.text ".")).run w).1 =
        ((within (.text ".") (glob (.text p) .null)).run w).1 ↔ w.FreeOfCwd p := by
  intro w
  have habs : Path.isAbsolute w.cwd = true := by decide
  have hbelow : Node.WellNamed (.directory [("a.py", .file)]) :=
    .directory (by decide) (by decide) fun e he => List.mem_singleton.1 he ▸ .file
  have htree : w.tree.WellNamed :=
    .directory (by decide) (by decide) fun e he => List.mem_singleton.1 he ▸ hbelow
  have hsub : Path.ofValue (.text "sub") ≠ .ok "." := by simp [Path.ofValue]
  obtain ⟨hresolve, hglob⟩ := explicit_eq_within (w := w) (d := .text "sub") habs (by simp)
  obtain ⟨-, hdot⟩ := explicit_eq_within (w := w) (d := .text ".") habs (by simp)
  refine ⟨habs, htree, fun path more => (hresolve path more).2 (absurd · hsub), fun pattern => ?_,
    fun p => ?_⟩
  · refine (hglob pattern).1 ?_
    cases Path.ofValue pattern with
    | error f => simp [Path.ofValue]
    | ok p => exact (absurd · hsub)
  · exact ⟨fun hagree => (hdot (.text p)).2 htree hagree rfl, fun hfree =>
      (hdot (.text p)).1 fun _ => hfree⟩

/-- The explicit directory `.` stays in what a relative path is resolved to. -/
theorem not_forall_explicit_eq_within :
    ¬∀ (w : World) (d : Value), Path.isAbsolute w.cwd = true → (∃ name, Path.ofValue d = .ok name) →
      (∀ path more,
        ((resolve path more d).run w).1 = ((within d (resolve path more .null)).run w).1) ∧
      ∀ pattern, ((glob pattern d).run w).1 = ((within d (glob pattern .null)).run w).1 := by
  intro h
  obtain ⟨hresolve, -⟩ :=
    h (.start ⟨[]⟩ "/h" (.empty "/home") "" none) (.text ".") (by decide) ⟨_, rfl⟩
  have hresolve := hresolve (.text "a") []
  rw [result_within, run_resolve] at hresolve
  cases hresolve

end Action

end DirGlob
