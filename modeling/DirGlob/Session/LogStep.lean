import DirGlob.Command.Supervisor
import DirGlob.Log.Event

set_option autoImplicit false

/-! # Steps in the life of the log

The log by itself: setting it up, records, handlers of others, stopping it, and operations that are
run for what they log. -/

namespace DirGlob.Session

/-- A step in the life of the log. -/
inductive LogStep where
  /-- Sets the log up; with a text the stage breaks down. -/
  | configure (cfg : Log.Config) (force : Bool) (broken : Option String)
    (stage : Log.Stage := .listener)
  | configureBy (settings : Value) (force : Bool)
  | record (logger : String) (level : Int) (message : String)
  | shutdown
  /-- Stops the listener and leaves it in its place. -/
  | stop (closingFails : Bool)
  /-- Adds a handler of another owner, one that raises no errors. -/
  | addForeign
  | markOurs (index : Int)
  | checkSettings (mode : Settings.Mode) (settings : Value)
  | glob (pattern cwd : Value)
  /-- Opens a scope and closes it again. -/
  | scope (path : Value)
deriving Repr

open DirGlob.Action in
/-- Runs a step. -/
def LogStep.run : LogStep → Action Unit
  | configure cfg force broken stage =>
    setUpLog cfg force (broken.map (⟨stage, ·⟩))
  | configureBy settings force => do
    let cfg ← ofResult (Log.Config.ofSettings settings)
    setUpLog cfg force none
  | record logger level message =>
    modifyHub (fun h => h.after (.record ⟨h.time, logger, level, message⟩))
      fun hcalm => hcalm.after trivial
  | shutdown => modifyHub (·.after .shutdown) fun hcalm => hcalm.after trivial
  | stop closingFails =>
    modifyHub (·.stopListener closingFails) fun hcalm => hcalm.stopListener closingFails
  | addForeign => modifyHub (·.after (.addForeign false)) fun hcalm => hcalm.after rfl
  | markOurs index => do
    let w ← get
    match h : w.hub.markOurs? index with
    | some hub => set { w with hub, calm := w.calm.of_markOurs h }
    | none => throw .noSuchHandler
  | checkSettings mode settings => discard (Action.checkSettings mode settings)
  | glob pattern cwd => discard (Action.glob pattern cwd)
  | scope path => within path (return ())

/-- What a step came to, and the hub after it. -/
structure LogAnswer where
  failure : Option Failure
  hub : Log.Hub
deriving Repr

/-- Runs steps one after the other; a step that fails does not end them. -/
def runLogSteps : List LogStep → Action (List LogAnswer)
  | [] => return []
  | step :: steps => do
    let failure := match ← Action.attempt step.run with
      | .ok _ => none
      | .error f => some f
    let answer := ⟨failure, (← get).hub⟩
    return answer :: (← runLogSteps steps)

/-! ## What a run leaves behind -/

/-- What was written during a run: to the two streams, by the listener, and to log files. -/
structure Traces where
  output : String
  errors : String
  console : String
  files : List (String × String)
deriving Repr

/-- What has been written in a world. -/
def Traces.ofWorld (w : World) : Traces :=
  { output := w.output.text
    errors := w.hub.errors
    console := w.hub.outlets.console
    files := w.hub.outlets.disk.files }

/-- Runs an action, shuts the log down, and answers with what was written. -/
def captured {α : Type} (a : Action α) : Action (α × Traces) := do
  let result ← Action.attempt a
  Action.modifyHub (·.shutdown) fun hcalm => hcalm.shutdown
  let result ← Action.ofResult result
  return (result, .ofWorld (← get))

end DirGlob.Session
