import DirGlob.Proofs.WorkDir.Resolve
import DirGlob.Proofs.WorkDir.Scope
import DirGlob.Proofs.World.Keeps
import DirGlob.Session.Step

set_option autoImplicit false

/-! # What happens in a session, one after the other

A session is nested: a step may be a context with steps of its own. To say what happens *between* two
points of a session, which may lie in different contexts, the session is taken apart into the list of
its happenings, where a nested context begins at one point and ends at a later one. A `Progress` is
what the session has come to at a point: the world, and the contexts that wait for the running one to
end. Going through the happenings one after the other is running the session (`run_happenings`).

A scope is touched by its own handle alone: whatever else happens, in whatever context, it stays as
it is (`Progress.scope?_run`). -/

namespace DirGlob.Session

open DirGlob.Action

/-! ## Happenings -/

/-- What happens at one point of a session. A nested context begins, and later it ends. -/
inductive Happening where
  | operation (op : Operation)
  | enter (handle : String) (path : Value)
  | exit (handle : String) (raising : Bool)
  | nest (mode : WorkDir.ContextMode)
  | resume
deriving Repr

/-- A scope is opened under the handle; what is no path opens nothing. -/
def Happening.Opens (handle : String) : Happening → Prop
  | .enter other path => other = handle ∧ ∃ name, Path.ofValue path = .ok name
  | _ => False

/-- It is tried to close the scope of the handle. -/
def Happening.attempts (handle : String) : Happening → Bool
  | .exit other _ => other = handle
  | _ => false

mutual

/-- What happens in a step, in order. -/
def Step.happenings : Step → List Happening
  | .operation op => [.operation op]
  | .enter handle path => [.enter handle path]
  | .exit handle raising => [.exit handle raising]
  | .nested mode steps => .nest mode :: (happenings steps ++ [.resume])

/-- What happens in a session, in order. -/
def happenings : List Step → List Happening
  | [] => []
  | step :: steps => step.happenings ++ happenings steps

end

/-! ## Going through them -/

/-- A session in progress: the world, the answers of the running context so far, and the contexts
    that wait for it to end, the innermost first, with their answers. -/
structure Progress where
  world : World
  answers : List Answer
  waiting : List (WorkDir.Contexts × List Answer)

namespace Progress

/-- A session that has just begun. -/
def start (w : World) : Progress := ⟨w, [], []⟩

/-- The number of the running context. -/
def number (p : Progress) : Nat := p.world.contexts.current

/-- The working directory of the running context. -/
def cwd (p : Progress) : String := p.world.contexts.cwd

/-- The contexts that have begun and not ended, the running one first: the number of each and its
    working directory. -/
def directories (p : Progress) : List (Nat × String) :=
  (p.number, p.cwd) :: p.waiting.map fun o => (o.1.current, o.1.cwd)

/-- Runs a step in the running context. -/
def perform (p : Progress) (step : Step) : Progress :=
  { p with
    world := (step.run p.world).2
    answers := p.answers ++ [(step.run p.world).1] }

/-- Goes on by one happening. -/
def next (p : Progress) : Happening → Progress
  | .operation op => p.perform (.operation op)
  | .enter handle path => p.perform (.enter handle path)
  | .exit handle raising => p.perform (.exit handle raising)
  | .nest mode =>
    { world := { p.world with contexts := p.world.contexts.nest mode }
      answers := []
      waiting := (p.world.contexts, p.answers) :: p.waiting }
  | .resume =>
    match p.waiting with
    | [] => p
    | (outer, answers) :: waiting =>
      { world := { p.world with contexts := p.world.contexts.resume outer }
        answers := answers ++ [.nested p.answers outer.cwd]
        waiting }

/-- Goes on by what happens, one after the other. -/
def run (p : Progress) (es : List Happening) : Progress := es.foldl next p

theorem run_cons (p : Progress) (e : Happening) (es : List Happening) :
    p.run (e :: es) = (p.next e).run es := rfl

theorem run_append (p : Progress) (es es' : List Happening) :
    p.run (es ++ es') = (p.run es).run es' := List.foldl_append

end Progress

/-! ## The session is what happens in it -/

theorem runSteps_cons (step : Step) (steps : List Step) (w : World) :
    runSteps (step :: steps) w =
      ((step.run w).1 :: (runSteps steps (step.run w).2).1,
        (runSteps steps (step.run w).2).2) := rfl

mutual

theorem Step.run_happenings (step : Step) (p : Progress) :
    p.run step.happenings = p.perform step := by
  cases step with
  | operation op => rfl
  | enter handle path => rfl
  | exit handle raising => rfl
  | nested mode steps =>
      rw [Step.happenings, Progress.run_cons, Progress.run_append, run_happenings steps]
      rfl

/-- Going through the happenings of a session is running it. -/
theorem run_happenings (steps : List Step) (p : Progress) :
    p.run (happenings steps) =
      { p with
        world := (runSteps steps p.world).2
        answers := p.answers ++ (runSteps steps p.world).1 } := by
  cases steps with
  | nil =>
      have hnone : p.answers ++ (runSteps [] p.world).1 = p.answers := List.append_nil _
      rw [hnone]
      rfl
  | cons step steps =>
      rw [happenings, Progress.run_append, Step.run_happenings step, run_happenings steps,
        runSteps_cons]
      simp only [Progress.perform, List.append_assoc, List.singleton_append]

end

/-! ## What a step does to the world -/

variable {w w' : World} {handle : String}

theorem answer_of_ok {a : Action Reply} {r : Reply} (h : a.run w = (.ok r, w')) :
    answer a w = (.done r w'.cwd, w') := by
  simp only [answer, bind, StateT.bind, h]
  rfl

theorem answer_of_error {a : Action Reply} {f : Failure} (h : a.run w = (.error f, w')) :
    answer a w = (.failed f w'.cwd, w') := by
  simp only [answer, bind, StateT.bind, h]
  rfl

theorem answer_snd (a : Action Reply) (w : World) : (answer a w).2 = (a.run w).2 := by
  cases h : a.run w with
  | mk result w' =>
      cases result with
      | ok r => rw [answer_of_ok h]
      | error f => rw [answer_of_error h]

theorem contexts_run_operation (op : Operation) (w : World) :
    ((Step.operation op).run w).2.contexts = w.contexts := by
  show (answer op.run w).2.contexts = _
  rw [answer_snd, op.contexts_run]

/-- What is no path opens nothing. -/
theorem run_enter_of_error {path : Value} {f : Failure} (h : Path.ofValue path = .error f) :
    (Step.enter handle path).run w = (.failed f w.cwd, w) := by
  refine answer_of_error ?_
  have hresolve : (resolve path [] .null).run w = (.error f, w) := by
    rw [run_resolve, WorkDir.resolve_of_ofValue_error w.cwd h]
  exact run_bind_of_error (run_bind_of_error hresolve)

/-- A path opens a scope with the directory that it is resolved to. -/
theorem contexts_run_enter {path : Value} {name : String} (h : Path.ofValue path = .ok name) :
    ((Step.enter handle path).run w).2.contexts =
      w.contexts.enter handle (WorkDir.resolveFrom w.cwd name []) := by
  have hresolve : (resolve path [] .null).run w =
      (.ok (WorkDir.resolveFrom w.cwd name []), w) := by
    rw [run_resolve, WorkDir.resolve_of_ofValue w.cwd h]
  have henter : (enterScope handle path).run w = _ := run_bind_of_ok hresolve
  show (answer (enterScope handle path >>= fun s => pure (.text s)) w).2.contexts = _
  rw [answer_snd, run_bind_of_ok henter]
  rfl

theorem run_exit_of_error (raising : Bool) {c : WorkDir.Contexts} {f : Failure}
    (h : w.contexts.exit handle = (c, .error f)) :
    (Step.exit handle raising).run w = (.failed f c.cwd, { w with contexts := c }) := by
  have hexit : (exitScope handle).run w = (.error f, { w with contexts := c }) := by
    rw [run_exitScope, h]
    exact run_bind_of_error rfl
  exact answer_of_error (run_bind_of_error hexit)

theorem run_exit_of_exitScope (raising : Bool) (h : (exitScope handle).run w = (.ok (), w')) :
    (Step.exit handle raising).run w = (.done (.flag false) w'.cwd, w') := by
  have hbind : (exitScope handle >>= fun _ => pure (.flag false) : Action Reply).run w =
      (.ok (.flag false), w') := run_bind_of_ok h
  exact answer_of_ok hbind

/-- Closing a scope changes the contexts, and makes a record. -/
theorem run_exit_of_ok (raising : Bool) {c : WorkDir.Contexts}
    (h : w.contexts.exit handle = (c, .ok ())) :
    ∃ hub calm, (Step.exit handle raising).run w =
      (.done (.flag false) c.cwd, { w with contexts := c, hub, calm }) := by
  obtain ⟨hub, calm, hexit⟩ :
      ∃ hub calm, (exitScope handle).run w = (.ok (), { w with contexts := c, hub, calm }) := by
    rw [run_exitScope, h]
    by_cases hfirst : (w.contexts.scope? handle).any (!·.spent)
    · rw [if_pos hfirst]
      exact ⟨_, _, rfl⟩
    · rw [if_neg hfirst]
      exact ⟨_, w.calm, rfl⟩
  exact ⟨hub, calm, run_exit_of_exitScope raising hexit⟩

/-- Closing a scope again changes nothing. -/
theorem run_exit_of_spent (raising : Bool) {s : WorkDir.Scope}
    (h : w.contexts.scope? handle = some s) (hs : s.spent = true) :
    (Step.exit handle raising).run w =
      (.done (.flag false) w.cwd, { w with contexts := w.contexts.setScope handle s }) := by
  have hexit : (exitScope handle).run w =
      (.ok (), { w with contexts := w.contexts.setScope handle s }) := by
    rw [run_exitScope, WorkDir.Contexts.exit_of_spent h hs, h]
    simp only [Option.any_some, hs]
    rfl
  exact run_exit_of_exitScope raising hexit

theorem contexts_run_exit (w : World) (handle : String) (raising : Bool) :
    ((Step.exit handle raising).run w).2.contexts = (w.contexts.exit handle).1 := by
  cases h : w.contexts.exit handle with
  | mk c result =>
      cases result with
      | error f => rw [run_exit_of_error raising h]
      | ok u =>
          obtain ⟨hub, calm, hrun⟩ := run_exit_of_ok raising h
          rw [hrun]

/-! ## A scope is touched by its own handle alone -/

namespace Progress

theorem scope?_next (p : Progress) {e : Happening} (hopens : ¬e.Opens handle) :
    (p.next e).world.contexts.scope? handle =
      (p.world.contexts.scope? handle).map
        fun s => { s with spent := s.spent || e.attempts handle } := by
  cases e with
  | operation op =>
      have h : (p.next (.operation op)).world.contexts = p.world.contexts :=
        contexts_run_operation op p.world
      simp [h, Happening.attempts]
  | enter other path =>
      cases hpath : Path.ofValue path with
      | error f =>
          have h : (p.next (.enter other path)).world = p.world :=
            congrArg Prod.snd (run_enter_of_error hpath)
          simp [h, Happening.attempts]
      | ok name =>
          have h : (p.next (.enter other path)).world.contexts = _ := contexts_run_enter hpath
          have hne : handle ≠ other := fun heq => hopens ⟨heq.symm, name, hpath⟩
          rw [h, WorkDir.Contexts.scope?_enter_of_ne _ _ hne]
          simp [Happening.attempts]
  | exit other raising =>
      have h : (p.next (.exit other raising)).world.contexts = _ :=
        contexts_run_exit p.world other raising
      rw [h]
      by_cases heq : handle = other
      · subst heq
        simp [WorkDir.Contexts.scope?_exit_self, Happening.attempts]
      · simp [WorkDir.Contexts.scope?_exit_of_ne _ heq, Happening.attempts, Ne.symm heq]
  | nest mode =>
      have h : (p.next (.nest mode)).world.contexts.scope? handle =
          p.world.contexts.scope? handle := rfl
      simp [h, Happening.attempts]
  | resume =>
      have h : (p.next .resume).world.contexts.scope? handle =
          p.world.contexts.scope? handle := by
        rw [next]
        split <;> rfl
      simp [h, Happening.attempts]

/-- As long as its handle is not opened again, a scope stays as it is, and is spent once it was tried
    to close it. -/
theorem scope?_run (p : Progress) {es : List Happening} (hopens : ∀ e ∈ es, ¬e.Opens handle) :
    (p.run es).world.contexts.scope? handle =
      (p.world.contexts.scope? handle).map
        fun s => { s with spent := s.spent || es.any (·.attempts handle) } := by
  induction es generalizing p with
  | nil => simp [run]
  | cons e es ih =>
      rw [run_cons, ih _ fun e he => hopens e (List.mem_cons_of_mem _ he),
        scope?_next p (hopens e List.mem_cons_self), Option.map_map]
      simp only [Function.comp_def, List.any_cons, Bool.or_assoc]

end Progress

end DirGlob.Session
