import DirGlob.Proofs.Session.Happening

set_option autoImplicit false

/-! # Well-nested sessions

A session is well nested if every scope that it opens is closed under the same handle, around a
session that is well nested itself. Between that it may run operations, try to open what is no path,
and run nested contexts with whatever steps, as long as these keep away from the handles of the
scopes that are open around them. Such a session ends in the working directory that it began in,
whatever fails on the way (`cwd_runSteps_of_wellNested`).

The invariant of the induction is `Settled`: besides the working directory also the running context
and the scopes that are open around are what they were, so that closing one of these finds what
opening it left. -/

namespace DirGlob.Session

variable {opened : List String} {handle : String} {steps : List Step}

/-- The happening keeps away from a handle: it neither opens a scope under it nor tries to close the
    one that the handle stands for. -/
def Happening.KeepsAway (handle : String) (e : Happening) : Prop :=
  ¬e.Opens handle ∧ e.attempts handle = false

/-- A session that is well nested, within open scopes with these handles. A handle that stands for an
    open scope is not used for another one. -/
inductive WellNested : List String → List Step → Prop where
  | done {opened : List String} : WellNested opened []
  | operation {opened : List String} {steps : List Step} (op : Operation)
      (rest : WellNested opened steps) : WellNested opened (.operation op :: steps)
  | failingEnter {opened : List String} {steps : List Step} (handle : String) {path : Value}
      {f : Failure} (fails : Path.ofValue path = .error f) (rest : WellNested opened steps) :
      WellNested opened (.enter handle path :: steps)
  | nested {opened : List String} {inner steps : List Step} (mode : WorkDir.ContextMode)
      (away : ∀ handle ∈ opened, ∀ e ∈ happenings inner, e.KeepsAway handle)
      (rest : WellNested opened steps) : WellNested opened (.nested mode inner :: steps)
  | scope {opened : List String} {inner steps : List Step} {handle : String} {path : Value}
      {name : String} (raising : Bool) (fresh : handle ∉ opened)
      (opens : Path.ofValue path = .ok name) (within : WellNested (handle :: opened) inner)
      (rest : WellNested opened steps) :
      WellNested opened (.enter handle path :: (inner ++ .exit handle raising :: steps))

/-! ## Settled contexts -/

/-- The running context, its working directory and the scopes of these handles are what they
    were. -/
structure Settled (opened : List String) (c c' : WorkDir.Contexts) : Prop where
  current : c'.current = c.current
  cwd : c'.cwd = c.cwd
  scopes : ∀ handle ∈ opened, c'.scope? handle = c.scope? handle

theorem settled_of_eq {c c' : WorkDir.Contexts} (h : c' = c) : Settled opened c c' := by
  subst h
  exact ⟨rfl, rfl, fun _ _ => rfl⟩

theorem Settled.trans {c c' c'' : WorkDir.Contexts} (h : Settled opened c c')
    (h' : Settled opened c' c'') : Settled opened c c'' where
  current := h'.current.trans h.current
  cwd := h'.cwd.trans h.cwd
  scopes handle hmem := (h'.scopes handle hmem).trans (h.scopes handle hmem)

theorem runSteps_append (steps steps' : List Step) (w : World) :
    (runSteps (steps ++ steps') w).2 = (runSteps steps' (runSteps steps w).2).2 := by
  induction steps generalizing w with
  | nil => rfl
  | cons step steps ih => exact ih _

/-- A nested context ends where it began, and keeps the scopes from whose handles its steps keep
    away. -/
theorem settled_nested (mode : WorkDir.ContextMode) {inner : List Step}
    (away : ∀ handle ∈ opened, ∀ e ∈ happenings inner, e.KeepsAway handle) (w : World) :
    Settled opened w.contexts ((Step.nested mode inner).run w).2.contexts where
  current := rfl
  cwd := rfl
  scopes handle hmem := by
    have haway : ∀ e ∈ (Step.nested mode inner).happenings, e.KeepsAway handle := by
      intro e he
      rw [Step.happenings] at he
      rcases List.mem_cons.1 he with rfl | he
      · exact ⟨id, rfl⟩
      rcases List.mem_append.1 he with he | he
      · exact away handle hmem e he
      · rw [List.mem_singleton.1 he]
        exact ⟨id, rfl⟩
    have hscope := Progress.scope?_run (.start w) fun e he => (haway e he).1
    have huntried : (Step.nested mode inner).happenings.any (·.attempts handle) = false :=
      List.any_eq_false.2 fun e he => by simp [(haway e he).2]
    rw [Step.run_happenings, huntried] at hscope
    simpa [Progress.perform, Progress.start] using hscope

/-- Closing a scope after what keeps it brings back what was there when it was opened. -/
theorem settled_scope {c inner : WorkDir.Contexts} {directory : String} (fresh : handle ∉ opened)
    (h : Settled (handle :: opened) (c.enter handle directory) inner) :
    Settled opened c (inner.exit handle).1 := by
  have hcurrent : inner.current = c.current := by simpa using h.current
  have hscope : inner.scope? handle = some ⟨inner.current, c.cwd, false⟩ := by
    rw [h.scopes handle List.mem_cons_self, WorkDir.Contexts.scope?_enter_self, hcurrent]
  refine ⟨by simpa using h.current, ?_, fun other hmem => ?_⟩
  · rw [WorkDir.Contexts.exit_of_own hscope]
    rfl
  · have hne : other ≠ handle := fun heq => fresh (heq ▸ hmem)
    rw [WorkDir.Contexts.scope?_exit_of_ne _ hne, h.scopes other (List.mem_cons_of_mem _ hmem),
      WorkDir.Contexts.scope?_enter_of_ne _ _ hne]

theorem WellNested.settled (h : WellNested opened steps) (w : World) :
    Settled opened w.contexts (runSteps steps w).2.contexts := by
  induction h generalizing w with
  | done => exact settled_of_eq rfl
  | operation op _ ih => exact (settled_of_eq (contexts_run_operation op w)).trans (ih _)
  | failingEnter handle fails _ ih =>
      have hrun : ((Step.enter handle _).run w).2 = w := congrArg Prod.snd (run_enter_of_error fails)
      exact (settled_of_eq (congrArg _ hrun)).trans (ih _)
  | nested mode away _ ih => exact (settled_nested mode away w).trans (ih _)
  | @scope opened inner steps handle path name raising fresh opens _ _ ihinner ihrest =>
      rw [runSteps_cons, runSteps_append, runSteps_cons]
      -- The scope is one of those that the session within it has to keep.
      have hinner := ihinner ((Step.enter handle path).run w).2
      rw [contexts_run_enter opens] at hinner
      have hscope := settled_scope fresh hinner
      rw [← contexts_run_exit _ _ raising] at hscope
      exact hscope.trans (ihrest _)

/-- **A well-nested session ends in the working directory that it began in.** -/
theorem cwd_runSteps_of_wellNested (h : WellNested [] steps) (w : World) :
    (runSteps steps w).2.cwd = w.cwd :=
  (h.settled w).cwd

/-- A scope around a nested context that leaves a scope open, around what is no path, and around an
    operation that fails. -/
theorem cwd_runSteps_of_failing_steps :
    let steps : List Step := [.enter "a" (.text "x"), .nested .copy [.enter "b" (.text "y")],
      .enter "c" (.int 3), .operation (.glob (.int 1) .null), .exit "a" true]
    let w := World.start ⟨[]⟩ "/" (.empty "/home") "" none
    WellNested [] steps ∧ (runSteps (steps.take 4) w).2.cwd = "/x" ∧
      (runSteps steps w).2.cwd = "/" := by
  intro steps w
  have hopens : Path.ofValue (.text "x") = .ok "x" := rfl
  have hinner : WellNested ["a"] [.nested .copy [.enter "b" (.text "y")], .enter "c" (.int 3),
      .operation (.glob (.int 1) .null)] := by
    refine .nested .copy ?_ (.failingEnter "c" rfl (.operation _ .done))
    simp [happenings, Step.happenings, Happening.KeepsAway, Happening.Opens, Happening.attempts]
  have hnested : WellNested [] steps := .scope true (by simp) hopens hinner .done
  exact ⟨hnested, by decide +kernel, cwd_runSteps_of_wellNested hnested w⟩

end DirGlob.Session
