import DirGlob.Settings.Check

set_option autoImplicit false

/-! # What actions come to

An action changes the world and comes to a result or a failure. What it comes to is put together
from what its parts come to (`result_bind`); records that are made on the way do not matter to it.
-/

namespace DirGlob

/-- The world in which something runs with another working directory. -/
def World.inDirectory (w : World) (directory : String) : World :=
  { w with
    contexts := { w.contexts with cwd := directory }
    hub := w.hub.log Action.workDirLogger Log.Level.debug.number
      ("Working directory overridden: " ++ directory)
    calm := w.calm.log _ _ _ }

namespace Action

variable {α β : Type}

/-! ## What is bound together -/

theorem run_bind_of_ok {a : Action α} {g : α → Action β} {w w' : World} {x : α}
    (h : a.run w = (.ok x, w')) : (a >>= g).run w = (g x).run w' := by
  rw [ExceptT.run_bind]
  show StateT.bind _ _ w = _
  simp only [StateT.bind, h]
  rfl

theorem run_bind_of_error {a : Action α} {g : α → Action β} {w w' : World} {f : Failure}
    (h : a.run w = (.error f, w')) : (a >>= g).run w = (.error f, w') := by
  rw [ExceptT.run_bind]
  show StateT.bind _ _ w = _
  simp only [StateT.bind, h]
  rfl

/-- The result of the first part decides whether the second one runs, which starts with what the
    first has made of the world. -/
theorem result_bind {a : Action α} {g : α → Action β} {k : α → Except Failure β}
    {result : Except Failure α} {w w' : World} (ha : a.run w = (result, w'))
    (hg : ∀ x, ((g x).run w').1 = k x) : ((a >>= g).run w).1 = result >>= k := by
  cases result with
  | ok x =>
      rw [run_bind_of_ok ha]
      exact hg x
  | error f =>
      rw [run_bind_of_error ha]
      rfl

theorem run_get_bind (g : World → Action β) (w : World) : (get >>= g).run w = (g w).run w := rfl

theorem run_modify_bind (f : World → World) (g : Unit → Action β) (w : World) :
    (modify f >>= g).run w = (g ()).run (f w) := rfl

theorem run_log_bind (logger : String) (level : Log.Level) (message : String)
    (g : Unit → Action β) (w : World) :
    (log logger level message >>= g).run w =
      (g ()).run
        { w with hub := w.hub.log logger level.number message, calm := w.calm.log _ _ _ } := rfl

theorem run_attempt_bind (a : Action α) (g : Except Failure α → Action β) (w : World) :
    (attempt a >>= g).run w = (g (a.run w).1).run (a.run w).2 := rfl

/-! ## Parts that leave the world alone -/

theorem run_ofResult (result : Except Failure α) (w : World) :
    (ofResult result).run w = (result, w) := by
  cases result <;> rfl

/-- What resolving comes to; the world stays as it is. -/
theorem run_resolve (path : Value) (more : List Value) (cwd : Value) (w : World) :
    (resolve path more cwd).run w = (WorkDir.resolve w.cwd path more cwd, w) :=
  run_ofResult _ w

/-- What listing comes to; the world stays as it is. -/
theorem run_list (directory : String) (w : World) :
    (list directory).run w = (w.tree.list directory, w) :=
  run_ofResult _ w

theorem run_compile (pattern : String) (w : World) :
    (compile pattern).run w =
      ((w.cache.compile pattern).1.mapError .badPattern,
        { w with cache := (w.cache.compile pattern).2 }) :=
  run_ofResult _ _

/-! ## Scopes and settings -/

/-- What opening a scope comes to: the directory that the path is resolved to. -/
theorem result_enterScope (handle : String) (path : Value) (w : World) :
    ((enterScope handle path).run w).1 = WorkDir.resolve w.cwd path [] .null := by
  refine (result_bind (run_resolve path [] .null w) fun directory => rfl).trans ?_
  exact bind_pure _

/-- The world once the scopes are changed by closing one. -/
theorem run_exitScope (w : World) (handle : String) :
    (exitScope handle).run w =
      ((ofResult (w.contexts.exit handle).2 >>= fun _ =>
        if (w.contexts.scope? handle).any (!·.spent) then
          log workDirLogger .debug
            ("Working directory restored: " ++ (w.contexts.exit handle).1.cwd)
        else pure ()) : Action Unit).run { w with contexts := (w.contexts.exit handle).1 } := rfl

/-- What an action comes to with another working directory: what it comes to there, if the directory
    is a path. -/
theorem result_within (path : Value) (a : Action α) (w : World) :
    ((within path a).run w).1 =
      (WorkDir.resolve w.cwd path [] .null >>= fun directory =>
        (a.run (w.inDirectory directory)).1) := by
  refine result_bind (run_resolve path [] .null w) fun directory => ?_
  rw [run_get_bind, run_modify_bind, run_log_bind, run_attempt_bind, run_modify_bind, run_log_bind,
    run_ofResult]
  rfl

theorem result_checkSettings (mode : Settings.Mode) (v : Value) (w : World) :
    ((checkSettings mode v).run w).1 = (Settings.check mode w.cwd v).mapError .settings := by
  rw [checkSettings, run_get_bind, result_bind (k := pure) (run_ofResult _ w), bind_pure]
  intro checked
  cases v with
  | dict entries => rfl
  | _ => exact congrArg Prod.fst (run_log_bind ..)

/-- Checking a dictionary leaves the world as it is. -/
theorem run_checkSettings_dict (mode : Settings.Mode) (given : List (String × Value))
    (w : World) : (checkSettings mode (.dict given)).run w =
      ((Settings.check mode w.cwd (.dict given)).mapError .settings, w) := by
  rw [checkSettings, run_get_bind]
  exact (congrFun (congrArg ExceptT.run (bind_pure _)) w).trans (run_ofResult _ w)

end Action

end DirGlob
