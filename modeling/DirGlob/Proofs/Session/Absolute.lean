import DirGlob.Proofs.Glob.Search
import DirGlob.Proofs.Session.Happening
import DirGlob.Proofs.Settings.Check

set_option autoImplicit false

/-! # Everything stays absolute

A session that begins in an absolute directory stays in absolute directories, in all of its
contexts. The invariant is `AllAbsolute`: besides the working directory, the initial one, with which
contexts can begin, and the directories that open scopes will bring back are absolute, too. Opening
a scope keeps it, because what is resolved in an absolute directory is absolute; whatever else
happens only brings back a directory that was there before.

So all paths that are given out are absolute, and none of them is changed by resolving it again. -/

namespace DirGlob

/-! ## Contexts -/

namespace WorkDir.Contexts

variable {c : Contexts} {s : Scope} {handle directory : String}

/-- All directories of the contexts are absolute: the initial one, the working directory, and those
    that the scopes bring back. -/
structure AllAbsolute (c : Contexts) : Prop where
  initial : Path.isAbsolute c.initial = true
  cwd : Path.isAbsolute c.cwd = true
  scopes : ∀ handle s, c.scope? handle = some s → Path.isAbsolute s.restores = true

theorem allAbsolute_start {initial : String} (h : Path.isAbsolute initial = true) :
    (start initial).AllAbsolute := ⟨h, h, nofun⟩

theorem AllAbsolute.setCwd (h : c.AllAbsolute) (hcwd : Path.isAbsolute directory = true) :
    { c with cwd := directory }.AllAbsolute := ⟨h.initial, hcwd, h.scopes⟩

theorem AllAbsolute.setScope (h : c.AllAbsolute) (hs : Path.isAbsolute s.restores = true) :
    (c.setScope handle s).AllAbsolute := by
  refine ⟨h.initial, h.cwd, fun other s' hother => ?_⟩
  by_cases heq : other = handle
  · rw [heq, scope?_setScope_self] at hother
    cases hother
    exact hs
  · rw [scope?_setScope_of_ne c s heq] at hother
    exact h.scopes other s' hother

theorem AllAbsolute.restore (h : c.AllAbsolute) (hs : Path.isAbsolute s.restores = true) :
    (c.restore s).AllAbsolute := by
  rw [Contexts.restore]
  split
  · exact h.setCwd hs
  · exact h

theorem AllAbsolute.enter (h : c.AllAbsolute) (hdirectory : Path.isAbsolute directory = true) :
    (c.enter handle directory).AllAbsolute := by
  have hopened :
      ({ c with cwd := directory }.setScope handle ⟨c.current, c.cwd, false⟩).AllAbsolute :=
    (h.setCwd hdirectory).setScope h.cwd
  rw [Contexts.enter]
  cases hold : c.scope? handle with
  | none => exact hopened
  | some old => exact hopened.restore (h.scopes handle old hold)

theorem AllAbsolute.exit (h : c.AllAbsolute) : (c.exit handle).1.AllAbsolute := by
  rw [Contexts.exit]
  cases hs : c.scope? handle with
  | none => exact h
  | some s =>
      have hrestores := h.scopes handle s hs
      exact (h.restore hrestores).setScope hrestores

theorem AllAbsolute.nest (h : c.AllAbsolute) (mode : ContextMode) : (c.nest mode).AllAbsolute := by
  refine ⟨h.initial, ?_, h.scopes⟩
  cases mode with
  | copy => exact h.cwd
  | fresh => exact h.initial

theorem AllAbsolute.resume (h : c.AllAbsolute) {outer : Contexts}
    (houter : Path.isAbsolute outer.cwd = true) : (c.resume outer).AllAbsolute :=
  ⟨h.initial, houter, h.scopes⟩

end WorkDir.Contexts

/-! ## Sessions -/

namespace Session.Progress

variable {p : Progress}

/-- All directories are absolute, also those of the contexts that wait. -/
structure AllAbsolute (p : Progress) : Prop where
  running : p.world.contexts.AllAbsolute
  waiting : ∀ o ∈ p.waiting, Path.isAbsolute o.1.cwd = true

theorem allAbsolute_start {w : World} (h : w.contexts.AllAbsolute) : (start w).AllAbsolute :=
  ⟨h, nofun⟩

theorem AllAbsolute.next (h : p.AllAbsolute) (e : Happening) : (p.next e).AllAbsolute := by
  cases e with
  | operation op =>
      refine ⟨?_, h.waiting⟩
      show ((Step.operation op).run p.world).2.contexts.AllAbsolute
      rw [contexts_run_operation]
      exact h.running
  | enter handle path =>
      refine ⟨?_, h.waiting⟩
      show ((Step.enter handle path).run p.world).2.contexts.AllAbsolute
      cases hpath : Path.ofValue path with
      | error f =>
          rw [run_enter_of_error hpath]
          exact h.running
      | ok name =>
          rw [contexts_run_enter hpath]
          exact h.running.enter (WorkDir.isAbsolute_resolveFrom h.running.cwd name [])
  | exit handle raising =>
      refine ⟨?_, h.waiting⟩
      show ((Step.exit handle raising).run p.world).2.contexts.AllAbsolute
      rw [contexts_run_exit]
      exact h.running.exit
  | nest mode =>
      refine ⟨h.running.nest mode, fun o ho => ?_⟩
      rcases List.mem_cons.1 ho with rfl | ho
      · exact h.running.cwd
      · exact h.waiting o ho
  | resume =>
      obtain ⟨w, answers, waiting⟩ := p
      cases waiting with
      | nil => exact h
      | cons o waiting =>
          refine ⟨h.running.resume (h.waiting o List.mem_cons_self), fun o' ho' => ?_⟩
          exact h.waiting o' (List.mem_cons_of_mem _ ho')

theorem AllAbsolute.run (h : p.AllAbsolute) (es : List Happening) : (p.run es).AllAbsolute := by
  induction es generalizing p with
  | nil => exact h
  | cons e es ih => exact ih (h.next e)

theorem AllAbsolute.directories (h : p.AllAbsolute) :
    ∀ d ∈ p.directories, Path.isAbsolute d.2 = true := by
  intro d hd
  rcases List.mem_cons.1 hd with rfl | hd
  · exact h.running.cwd
  · obtain ⟨o, ho, rfl⟩ := List.mem_map.1 hd
    exact h.waiting o ho

end Session.Progress

/-! ## What is given out -/

/-- What is given out in a world is absolute, whatever it is asked for; and a path that was resolved
    once comes back as it is, wherever it is resolved again and against whatever directory. -/
structure World.GivesAbsolute (w : World) : Prop where
  resolve : ∀ path more cwd r, ((Action.resolve path more cwd).run w).1 = .ok r →
    Path.isAbsolute r = true ∧
      ∀ (w' : World) (again directory : Value), Path.ofValue again = .ok r →
        (directory = .null ∨ ∃ name, Path.ofValue directory = .ok name) →
        ((Action.resolve again [] directory).run w').1 = .ok r
  scope : ∀ handle path r, ((Action.enterScope handle path).run w).1 = .ok r →
    Path.isAbsolute r = true
  glob : ∀ pattern cwd found, ((Action.glob pattern cwd).run w).1 = .ok found →
    ∀ r ∈ found, Path.isAbsolute r = true
  globIn : ∀ root pattern cwd found, ((Action.globIn root pattern cwd).run w).1 = .ok found →
    ∀ r ∈ found, Path.isAbsolute r = true
  settings : ∀ mode v checked, ((Action.checkSettings mode v).run w).1 = .ok checked →
    Path.isAbsolute checked.settings.cwd = true

namespace World

variable {w : World}

theorem isAbsolute_of_mem_search (h : Path.isAbsolute w.cwd = true) {root pattern cwd : Value}
    {found : List String} (hfound : w.search root pattern cwd = .ok found) :
    ∀ r ∈ found, Path.isAbsolute r = true := by
  obtain ⟨directory, leaf, matcher, listed, hdirectory, -, -, -, rfl⟩ := search_eq_ok_iff.1 hfound
  intro r hr
  obtain ⟨name, -, rfl⟩ := List.mem_map.1 hr
  exact Path.isAbsolute_join_left (WorkDir.isAbsolute_resolve h hdirectory) name

theorem givesAbsolute (h : Path.isAbsolute w.cwd = true) : w.GivesAbsolute where
  resolve path more cwd r hr := by
    rw [Action.run_resolve] at hr
    have habs := WorkDir.isAbsolute_resolve h hr
    refine ⟨habs, fun w' again directory hagain hdirectory => ?_⟩
    rw [Action.run_resolve]
    exact WorkDir.resolve_of_isAbsolute w'.cwd habs hagain hdirectory
  scope handle path r hr := by
    rw [Action.result_enterScope] at hr
    exact WorkDir.isAbsolute_resolve h hr
  glob pattern cwd found hfound := by
    rw [Action.result_glob] at hfound
    obtain ⟨p, -, hsearch⟩ := bind_eq_ok_iff.1 hfound
    exact isAbsolute_of_mem_search h hsearch
  globIn root pattern cwd found hfound := by
    rw [Action.result_globIn] at hfound
    exact isAbsolute_of_mem_search h hfound
  settings mode v checked hchecked := by
    rw [Action.result_checkSettings, mapError_eq_ok_iff] at hchecked
    exact Settings.isAbsolute_cwd_of_check h hchecked

end World

namespace Session

/-- **Everything stays absolute.** Whatever has happened since a session began in an absolute
    directory (its own `happenings` up to some point), the working directories of all contexts are
    absolute, and so is all that is given out there. -/
theorem everything_stays_absolute {initial : String} (h : Path.isAbsolute initial = true)
    (tree : Tree) (disk : Log.Disk) (time : String) (fault : Option String)
    (happened : List Happening) :
    let p := (Progress.start (.start tree initial disk time fault)).run happened
    (∀ d ∈ p.directories, Path.isAbsolute d.2 = true) ∧ p.world.GivesAbsolute := by
  intro p
  have hall : p.AllAbsolute :=
    (Progress.allAbsolute_start (WorkDir.Contexts.allAbsolute_start h)).run happened
  exact ⟨hall.directories, World.givesAbsolute hall.running.cwd⟩

/-- A new context within a scope that is closed there, where another one is opened and an operation
    fails. -/
theorem everything_stays_absolute_across_contexts :
    let steps : List Step := [.enter "a" (.text "x"), .nested .fresh [.exit "a" false,
      .enter "b" (.text ".."), .operation (.glob (.int 1) .null)]]
    let happened := (happenings steps).take 5
    let p := (Progress.start (.start ⟨[]⟩ "/h" (.empty "/home") "" none)).run happened
    Path.isAbsolute "/h" = true ∧ p.directories = [(1, "/h/.."), (0, "/h/x")] ∧
      (∀ d ∈ p.directories, Path.isAbsolute d.2 = true) ∧ p.world.GivesAbsolute := by
  intro steps happened p
  have h : Path.isAbsolute "/h" = true := by decide
  exact ⟨h, by decide +kernel, everything_stays_absolute h ⟨[]⟩ (.empty "/home") "" none happened⟩

end Session

end DirGlob
