import DirGlob.Proofs.Session.Happening

set_option autoImplicit false

/-! # Scopes closed in any order

Scopes need not be closed in the order in which they were opened, nor in the context that they were
opened in: handles are shared by all contexts of a session. What closing a scope does depends on
three things alone: the directory that the scope remembers, the context that it was opened in, and
whether it was tried to close it before. What other scopes did in between does not matter.

A context is known by its number. No number is given twice in a session, so two points of a session
with the same number lie in the same context. -/

namespace DirGlob.Session

variable {handle : String}

namespace Progress

/-! ## Closing a scope -/

/-- In its own context a scope brings the directory back that it remembers. -/
theorem next_exit_of_own {p : Progress} {directory : String} (raising : Bool)
    (h : p.world.contexts.scope? handle = some ⟨p.number, directory, false⟩) :
    (p.next (.exit handle raising)).directories = (p.number, directory) :: p.directories.tail ∧
      (p.next (.exit handle raising)).answers = p.answers ++ [.done (.flag false) directory] := by
  obtain ⟨hub, calm, hrun⟩ := run_exit_of_ok raising (WorkDir.Contexts.exit_of_own h)
  have hnext : p.next (.exit handle raising) = p.perform (.exit handle raising) := rfl
  rw [hnext, perform, hrun]
  exact ⟨rfl, rfl⟩

/-- In another context it cannot be closed, and no context gets another directory. -/
theorem next_exit_of_foreign {p : Progress} {context : Nat} {directory : String} (raising : Bool)
    (h : p.world.contexts.scope? handle = some ⟨context, directory, false⟩)
    (hne : p.number ≠ context) :
    (p.next (.exit handle raising)).directories = p.directories ∧
      (p.next (.exit handle raising)).answers = p.answers ++ [.failed .foreignContext p.cwd] := by
  have hrun := run_exit_of_error raising (WorkDir.Contexts.exit_of_foreign h hne)
  have hnext : p.next (.exit handle raising) = p.perform (.exit handle raising) := rfl
  rw [hnext, perform, hrun]
  exact ⟨rfl, rfl⟩

/-- To close it again changes nothing, in any context. -/
theorem next_exit_of_spent {p : Progress} {s : WorkDir.Scope} (raising : Bool)
    (h : p.world.contexts.scope? handle = some s) (hs : s.spent = true) :
    p.next (.exit handle raising) =
      { p with
        world := { p.world with contexts := p.world.contexts.setScope handle s }
        answers := p.answers ++ [.done (.flag false) p.cwd] } := by
  have hrun := run_exit_of_spent raising h hs
  have hnext : p.next (.exit handle raising) = p.perform (.exit handle raising) := rfl
  rw [hnext, perform, hrun]
  rfl

/-- From its opening on a scope remembers the context and the directory it was opened in. -/
theorem scope?_run_enter (p : Progress) {path : Value} {between : List Happening}
    (hopens : (Happening.enter handle path).Opens handle)
    (hbetween : ∀ e ∈ between, ¬e.Opens handle) :
    (p.run (.enter handle path :: between)).world.contexts.scope? handle =
      some ⟨p.number, p.cwd, between.any (·.attempts handle)⟩ := by
  obtain ⟨-, name, hname⟩ := hopens
  have henter : (p.next (.enter handle path)).world.contexts = _ := contexts_run_enter hname
  rw [run_cons, scope?_run _ hbetween, henter, WorkDir.Contexts.scope?_enter_self]
  simp [number, cwd]

/-! ## Numbers of contexts -/

/-- The context that begins next gets a number that none of those that have begun and not ended
    has. -/
def Numbered (p : Progress) : Prop := ∀ d ∈ p.directories, d.1 < p.world.contexts.next

theorem numbered_start (tree : Tree) (initial : String) (disk : Log.Disk) (time : String)
    (fault : Option String) : (start (.start tree initial disk time fault)).Numbered := by
  intro d hd
  rw [List.mem_singleton.1 hd]
  exact Nat.zero_lt_one

/-- What happens within a context does not touch the numbers. -/
theorem numbers_of_perform {p : Progress} {step : Step}
    (hcurrent : (step.run p.world).2.contexts.current = p.world.contexts.current)
    (hnext : (step.run p.world).2.contexts.next = p.world.contexts.next) (hp : p.Numbered) :
    (p.perform step).Numbered ∧
      p.world.contexts.next ≤ (p.perform step).world.contexts.next := by
  refine ⟨fun d hd => ?_, Nat.le_of_eq hnext.symm⟩
  have hlt : ∀ d' ∈ p.directories, d'.1 < (p.perform step).world.contexts.next := fun d' hd' =>
    Nat.lt_of_lt_of_eq (hp d' hd') hnext.symm
  rcases List.mem_cons.1 hd with rfl | hd
  · exact Nat.lt_of_le_of_lt (Nat.le_of_eq hcurrent) (hlt _ List.mem_cons_self)
  · exact hlt d (List.mem_cons_of_mem _ hd)

theorem numbered_next {p : Progress} (hp : p.Numbered) (e : Happening) :
    (p.next e).Numbered ∧ p.world.contexts.next ≤ (p.next e).world.contexts.next := by
  cases e with
  | operation op =>
      have h := contexts_run_operation op p.world
      exact numbers_of_perform (congrArg _ h) (congrArg _ h) hp
  | enter handle path =>
      cases hpath : Path.ofValue path with
      | error f =>
          have h : (Step.enter handle path).run p.world = _ := run_enter_of_error hpath
          exact numbers_of_perform (by rw [h]) (by rw [h]) hp
      | ok name =>
          have h : ((Step.enter handle path).run p.world).2.contexts = _ := contexts_run_enter hpath
          exact numbers_of_perform (h ▸ WorkDir.Contexts.current_enter _ _ _)
            (h ▸ WorkDir.Contexts.next_enter _ _ _) hp
  | exit handle raising =>
      have h := contexts_run_exit p.world handle raising
      exact numbers_of_perform (h ▸ WorkDir.Contexts.current_exit _ _)
        (h ▸ WorkDir.Contexts.next_exit _ _) hp
  | nest mode =>
      refine ⟨fun d hd => ?_, Nat.le_succ _⟩
      rcases List.mem_cons.1 hd with rfl | hd
      · exact Nat.lt_succ_self _
      · exact Nat.lt_succ_of_lt (hp d hd)
  | resume =>
      obtain ⟨w, answers, waiting⟩ := p
      cases waiting with
      | nil => exact ⟨hp, Nat.le_refl _⟩
      | cons outer waiting =>
          exact ⟨fun d hd => hp d (List.mem_cons_of_mem _ hd), Nat.le_refl _⟩

theorem numbered_run {p : Progress} (hp : p.Numbered) (es : List Happening) :
    (p.run es).Numbered ∧ p.world.contexts.next ≤ (p.run es).world.contexts.next := by
  induction es generalizing p with
  | nil => exact ⟨hp, Nat.le_refl _⟩
  | cons e es ih =>
      obtain ⟨hnext, hle⟩ := numbered_next hp e
      obtain ⟨hrun, hle'⟩ := ih hnext
      exact ⟨hrun, Nat.le_trans hle hle'⟩

/-- A context that begins gets a number that none had before. -/
theorem number_lt_number_nest {p : Progress} (hp : p.Numbered) (es : List Happening)
    (mode : WorkDir.ContextMode) : p.number < (p.run (es ++ [.nest mode])).number := by
  have hlt : p.number < p.world.contexts.next := hp _ List.mem_cons_self
  have hle := (numbered_run hp es).2
  rw [run_append]
  exact Nat.lt_of_lt_of_le hlt hle

/-! ## Nested contexts -/

/-- Once a nested context has ended, every other context has the directory that it had before. -/
theorem directories_run_nested (p : Progress) (mode : WorkDir.ContextMode) (inner : List Step) :
    (p.run (Step.nested mode inner).happenings).directories = p.directories := by
  rw [Step.run_happenings]
  rfl

end Progress

/-! ## Sessions -/

/-- **Scopes may be closed in any order.** A session is what happens in it, one after the other. In
    it no number of a context is given twice, and a nested context leaves the directories of those
    outside alone. Between the opening of a scope and a try to close it, in whatever contexts, lies
    anything but another opening under its handle; the first try brings the directory back that the
    scope replaced if it is made in the context of the opening, and fails without any change of a
    directory if it is made in another one; a later try changes nothing. -/
theorem exit_in_any_order (tree : Tree) (initial : String) (disk : Log.Disk) (time : String)
    (fault : Option String) (steps : List Step) :
    let w := World.start tree initial disk time fault
    let start := Progress.start w
    start.run (happenings steps) = ⟨(runSteps steps w).2, (runSteps steps w).1, []⟩ ∧
    (∀ earlier between mode after,
      happenings steps = earlier ++ between ++ .nest mode :: after →
      (start.run earlier).number < (start.run (earlier ++ between ++ [.nest mode])).number) ∧
    (∀ before mode inner after,
      happenings steps = before ++ (Step.nested mode inner).happenings ++ after →
      (start.run (before ++ (Step.nested mode inner).happenings)).directories =
        (start.run before).directories) ∧
    ∀ before handle path between raising after,
      happenings steps = before ++ .enter handle path :: between ++ .exit handle raising :: after →
      (Happening.enter handle path).Opens handle → (∀ e ∈ between, ¬e.Opens handle) →
      let opening := start.run before
      let closing := start.run (before ++ .enter handle path :: between)
      let closed := closing.next (.exit handle raising)
      (between.any (·.attempts handle) = false → closing.number = opening.number →
        closed.directories = (closing.number, opening.cwd) :: closing.directories.tail ∧
        closed.answers = closing.answers ++ [.done (.flag false) opening.cwd]) ∧
      (between.any (·.attempts handle) = false → closing.number ≠ opening.number →
        closed.directories = closing.directories ∧
        ∃ f : Failure, f.name = "ValueError" ∧
          closed.answers = closing.answers ++ [.failed f closing.cwd]) ∧
      (between.any (·.attempts handle) = true →
        closed.directories = closing.directories ∧
        (∀ other, closed.world.contexts.scope? other = closing.world.contexts.scope? other) ∧
        { closed.world with contexts := closing.world.contexts } = closing.world ∧
        closed.answers = closing.answers ++ [.done (.flag false) closing.cwd]) := by
  intro w start
  have hstart : start.Numbered := Progress.numbered_start tree initial disk time fault
  refine ⟨run_happenings steps start, ?_, ?_, ?_⟩
  · intro earlier between mode after _
    rw [List.append_assoc, Progress.run_append]
    exact Progress.number_lt_number_nest (Progress.numbered_run hstart earlier).1 between mode
  · intro before mode inner after _
    rw [Progress.run_append]
    exact Progress.directories_run_nested _ mode inner
  intro before handle path between raising after _ hopens hbetween opening closing closed
  -- All three cases are read off what the scope remembers at the time of the try.
  have hscope : closing.world.contexts.scope? handle =
      some ⟨opening.number, opening.cwd, between.any (·.attempts handle)⟩ := by
    show (start.run (before ++ .enter handle path :: between)).world.contexts.scope? handle = _
    rw [Progress.run_append]
    exact Progress.scope?_run_enter opening hopens hbetween
  refine ⟨fun hfirst hown => ?_, fun hfirst hforeign => ?_, fun hagain => ?_⟩
  · rw [hfirst, ← hown] at hscope
    exact Progress.next_exit_of_own raising hscope
  · rw [hfirst] at hscope
    obtain ⟨hdirectories, hanswers⟩ := Progress.next_exit_of_foreign raising hscope hforeign
    exact ⟨hdirectories, _, rfl, hanswers⟩
  · have hclosed : closed = _ := Progress.next_exit_of_spent raising hscope hagain
    rw [hclosed]
    exact ⟨rfl, WorkDir.Contexts.scope?_setScope_of_scope? hscope, rfl, rfl⟩

/-- Two scopes that overlap: the outer one, `a`, is closed first and brings its directory back; `b` is
    first tried in a copy of its context, which fails, and closing it after that changes nothing. -/
theorem exit_of_overlapping_scopes :
    let steps : List Step := [.enter "a" (.text "x"), .enter "b" (.text "y"), .exit "a" true,
      .nested .copy [.exit "b" false], .exit "b" false]
    let start := Progress.start (.start ⟨[]⟩ "/" (.empty "/home") "" none)
    let overlapping := start.run ((happenings steps).take 2)
    let copied := start.run ((happenings steps).take 4)
    let ended := start.run ((happenings steps).take 6)
    overlapping.directories = [(0, "/x/y")] ∧
      (overlapping.next (.exit "a" true)).directories = [(0, "/")] ∧
      copied.directories = [(1, "/"), (0, "/")] ∧
      (copied.next (.exit "b" false)).directories = copied.directories ∧
      (∃ f : Failure, f.name = "ValueError" ∧
        (copied.next (.exit "b" false)).answers = [.failed f "/"]) ∧
      (ended.next (.exit "b" false)).directories = ended.directories := by
  intro steps start overlapping copied ended
  have hexit := (exit_in_any_order ⟨[]⟩ "/" (.empty "/home") "" none steps).2.2.2
  have hown := (hexit [] "a" (.text "x") [.enter "b" (.text "y")] true _ rfl ⟨rfl, "x", rfl⟩
    (by simp [Happening.Opens])).1 rfl (by decide)
  have hforeign := (hexit [.enter "a" (.text "x")] "b" (.text "y")
    [.exit "a" true, .nest .copy] false _ rfl ⟨rfl, "y", rfl⟩
    (by simp [Happening.Opens])).2.1 rfl (by decide)
  have hspent := (hexit [.enter "a" (.text "x")] "b" (.text "y")
    [.exit "a" true, .nest .copy, .exit "b" false, .resume] false _ rfl ⟨rfl, "y", rfl⟩
    (by simp [Happening.Opens])).2.2 rfl
  obtain ⟨f, hname, hanswers⟩ := hforeign.2
  exact ⟨by decide, hown.1, by decide, hforeign.1, ⟨f, hname, hanswers⟩, hspent.1⟩

end DirGlob.Session
