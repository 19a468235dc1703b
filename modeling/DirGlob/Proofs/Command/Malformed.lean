import DirGlob.Proofs.Command.Run
import DirGlob.Proofs.Pattern.Cache
import DirGlob.Proofs.Pattern.OpenBracket

set_option autoImplicit false

/-! # Runs with a malformed pattern

A run compiles the part of its pattern behind the last separator. In a directory that can be listed
it ends with code 2 and nothing printed exactly if that part cannot be compiled
(`exists_run_two_iff`). A pattern with an open bracket is one that should not be compiled;
`rejects_openBracket_iff` says when that is so, and what a run on it does. -/

namespace DirGlob.Command

open DirGlob.Action DirGlob.Pattern

/-- The directory that a run searches can be listed, in the tree as it is once the log is set up. -/
def Options.CanList (o : Options) (w : World) : Prop :=
  ∃ directory listed, WorkDir.resolve w.cwd (.text (GlobTarget.ofPattern o.pattern).directory) []
      (.text (o.settings w.cwd).cwd) = .ok directory ∧
    (o.searchedTree w).list directory = .ok listed

/-- A search in a directory that can be listed fails only at its pattern. -/
theorem Options.search_eq_of_canList {o : Options} {w : World} (hlist : o.CanList w)
    (hcache : w.cache.Faithful) :
    (∀ e, Matcher.ofPattern (GlobTarget.ofPattern o.pattern).leaf = .error e →
      o.search w = .error (.badPattern e)) ∧
    ∀ m, Matcher.ofPattern (GlobTarget.ofPattern o.pattern).leaf = .ok m →
      ∃ found, o.search w = .ok found := by
  obtain ⟨directory, listed, hdirectory, hlisted⟩ := hlist
  rw [search, Action.result_glob_text]
  refine ⟨fun e he => ?_, fun m hm => ?_⟩
  · have hcompile : (w.cache.compile (GlobTarget.ofPattern o.pattern).leaf).1 = .error e := by
      rw [hcache.compile_fst, he]
    have hresolved : WorkDir.resolve { w with tree := o.searchedTree w }.cwd
        (.text (GlobTarget.ofPattern o.pattern).directory) [] (.text (o.settings w.cwd).cwd) =
          .ok directory := hdirectory
    simp only [World.search, hresolved, Path.ofValue, bind, Except.bind, hcompile,
      Except.mapError]
  · exact ⟨_, World.search_eq_ok_iff.2 ⟨directory, _, m, listed, hdirectory, rfl,
      (hcache.compile_fst _).trans hm, hlisted, rfl⟩⟩

/-- A run that has found something ends with code 0, if it can print that. -/
theorem eq_zero_of_conclude {o : Options} {settings : Settings} {found : List String} {code : Nat}
    {w w' : World} (h : (conclude o settings (.ok found)).run w = (.ok code, w')) : code = 0 := by
  rw [conclude] at h
  cases hwrite : (writeAll (render settings found)).run w with
  | mk result w₁ =>
      cases result with
      | ok _ =>
          rw [run_bind_of_ok hwrite] at h
          cases h
          rfl
      | error f =>
          rw [run_bind_of_error hwrite] at h
          cases h

/-- A run in a directory that can be listed ends with code 2, and without printing anything, exactly
    if its pattern cannot be compiled. -/
theorem exists_run_two_iff {arguments : List String} {o : Options} {w : World}
    (hparse : parse arguments = .run o) (hcache : w.cache.Faithful) (hlist : o.CanList w) :
    (∃ w', (run arguments).run w = (.ok (.code 2), w') ∧ w'.output.text = w.output.text) ↔
      ∃ e, Matcher.ofPattern (GlobTarget.ofPattern o.pattern).leaf = .error e := by
  obtain ⟨w₁, hquiet, hoptions⟩ := exists_run_runOptions o w
  obtain ⟨hrejected, hcompiled⟩ := Options.search_eq_of_canList hlist hcache
  constructor
  · intro hex
    obtain ⟨w', hrun, -⟩ := hex
    refine exists_error_iff.2 ?_
    rintro ⟨m, hm⟩
    obtain ⟨found, hfound⟩ := hcompiled m hm
    rw [hfound] at hoptions
    cases hconclude : (conclude o (o.settings w.cwd) (.ok found)).run w₁ with
    | mk result w₂ =>
        rw [run_of_run hparse (hoptions.trans hconclude)] at hrun
        cases result with
        | ok code =>
            rw [eq_zero_of_conclude hconclude] at hrun
            cases hrun
        | error f => cases hrun
  · rintro ⟨e, he⟩
    rw [hrejected e he] at hoptions
    obtain ⟨w', hreport, hsame, -⟩ := exists_run_reportFailure o.pattern (.badPattern e) w₁
    refine ⟨w', run_of_run hparse (hoptions.trans hreport), ?_⟩
    rw [hsame, hquiet.output]

/-- **A pattern with an open bracket is rejected exactly if** a set stays open to the end, a range
    of its sets descends, or its sets leave a parenthesis without its partner. A run on such a
    pattern in a directory that can be listed ends with code 2 and without printing anything exactly
    if the pattern is rejected. -/
theorem rejects_openBracket_iff {pattern : String} (h : HasOpenBracket pattern.toList) :
    ((∃ e, Matcher.ofPattern pattern = .error e) ↔
      EndsInBracket pattern.toList ∨ HasDescendingRange pattern.toList ∨
        ¬HasPairedParentheses pattern.toList) ∧
    ∀ (arguments : List String) (o : Options) (w : World), parse arguments = .run o →
      (GlobTarget.ofPattern o.pattern).leaf = pattern → w.cache.Faithful → o.CanList w →
      ((∃ w', (run arguments).run w = (.ok (.code 2), w') ∧ w'.output.text = w.output.text) ↔
        ∃ e, Matcher.ofPattern pattern = .error e) := by
  refine ⟨ofPattern_error_iff h, ?_⟩
  rintro arguments o w hparse rfl hcache hlist
  exact exists_run_two_iff hparse hcache hlist

/-- An empty root can be listed. -/
theorem canList_of_empty_root {o : Options} {w : World} (hcwd : w.cwd = "/")
    (htree : o.searchedTree w = ⟨[]⟩) (hsettings : (o.settings "/").cwd = "/")
    (hdirectory : (GlobTarget.ofPattern o.pattern).directory = ".") : o.CanList w := by
  have hroot : (o.searchedTree w).directory? "/" = some ⟨.directory [], []⟩ := by
    have hsteps : Path.steps "/" = ["", ""] := by decide
    simp [Tree.directory?, Tree.lookup?, hsteps, Tree.root, Place.walk, Node.isDirectory, htree]
  refine ⟨"/", [], ?_, Tree.list_eq_ok_iff.2 ⟨_, [], hroot, rfl, rfl⟩⟩
  rw [hdirectory, hcwd, hsettings]
  rfl

theorem rejects_openBracket_of_unterminated :
    let w := World.start ⟨[]⟩ "/" (.empty "/home") "" none
    (∃ e, Matcher.ofPattern "x[1" = .error e) ∧
      ∃ w', (run ["x[1"]).run w = (.ok (.code 2), w') ∧ w'.output.text = "" := by
  intro w
  have hopen : HasOpenBracket "x[1".toList := ⟨['x'], ['1'], rfl, rfl, by decide⟩
  obtain ⟨hiff, hrun⟩ := rejects_openBracket_iff hopen
  have hrejected := hiff.2 (.inl rfl)
  have hlist : Options.CanList ⟨"x[1", .nothing, false, false, false, .nothing⟩ w :=
    canList_of_empty_root rfl rfl (by decide) (by decide)
  obtain ⟨w', hends, htext⟩ :=
    (hrun ["x[1"] _ w (by decide) (by decide) Cache.faithful_empty hlist).2 hrejected
  exact ⟨hrejected, w', hends, htext⟩

/-- A star closes the set that stands before it, with the bracket that it is written with. -/
theorem not_forall_rejects_openBracket : ¬∀ pattern : String,
    HasOpenBracket pattern.toList → ∃ e, Matcher.ofPattern pattern = .error e := by
  intro h
  obtain ⟨e, he⟩ := h "[*" ⟨[], ['*'], rfl, rfl, by decide⟩
  cases he

end DirGlob.Command
