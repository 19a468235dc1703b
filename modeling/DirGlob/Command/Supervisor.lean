import DirGlob.Command.Run
import DirGlob.Raised.Kinds

set_option autoImplicit false

/-! # The supervisor

What escapes from a run is logged and reported, and the run ends with code 1. A report can also be
made of an error that was raised elsewhere and is known by its kind and its arguments. -/

namespace DirGlob.Command

/-- The logger of the supervisor. -/
def supervisorLogger : String := "fsglob.supervisor"

/-- A line that sets a report off. -/
def ruler : String := String.ofList (List.replicate 80 '=')

open DirGlob.Action in
/-- Logs an error and reports it. -/
def report (e : Raised) : Action Unit := do
  let trace := e.trace ++ "\n"
  log supervisorLogger .critical ("FATAL EXCEPTION DETECTED: " ++ e.text ++ "\n" ++ trace)
  writeError ("\n" ++ ruler ++ "\n")
  writeError "CRITICAL ERROR (FSGLOB)\n"
  writeError (ruler ++ "\n")
  writeError (trace ++ "\n")

open DirGlob.Action in
/-- Reports an error that was raised elsewhere. -/
def reportRaised (kind : String) (arguments : List Value) : Action Unit := do
  report (← ofResult (Raised.ofArguments kind arguments))

open DirGlob.Action in
/-- Runs a command line, and reports what escapes from the run. -/
def supervise (arguments : List String) : Action Exit := do
  match ← attempt (run arguments) with
  | .ok exit => return exit
  | .error f =>
    report (.ofFailure f)
    return .code 1

end DirGlob.Command
