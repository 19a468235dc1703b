import DirGlob.Session.Operation

set_option autoImplicit false

/-! # Sessions

A session is a list of steps: operations, the opening and closing of scopes, and nested contexts
with steps of their own. Each step has an answer, which also tells the working directory after it. A
step that fails does not end the session. -/

namespace DirGlob.Session

/-- A step of a session. -/
inductive Step where
  | operation (op : Operation)
  | enter (handle : String) (path : Value)
  /-- Closes a scope, either because its work is done or because an error was raised in it. -/
  | exit (handle : String) (raising : Bool)
  | nested (mode : WorkDir.ContextMode) (steps : List Step)
deriving Repr

/-- The answer to a step, with the working directory after it. -/
inductive Answer where
  | done (reply : Reply) (cwd : String)
  | failed (failure : Failure) (cwd : String)
  | nested (answers : List Answer) (cwd : String)
deriving Repr

/-- The answer that comes of an action. -/
def answer (a : Action Reply) : StateM World Answer := do
  match ← a.run with
  | .ok reply => return .done reply (← get).cwd
  | .error failure => return .failed failure (← get).cwd

mutual

/-- Runs a step. Closing a scope never stops an error that was raised in it. -/
def Step.run : Step → StateM World Answer
  | .operation op => answer op.run
  | .enter handle path => answer (return .text (← Action.enterScope handle path))
  | .exit handle _ => answer do
    Action.exitScope handle
    return .flag false
  | .nested mode steps => do
    let outer := (← get).contexts
    modify fun w => { w with contexts := w.contexts.nest mode }
    let answers ← runSteps steps
    modify fun w => { w with contexts := w.contexts.resume outer }
    return .nested answers (← get).cwd

/-- Runs steps one after the other. -/
def runSteps : List Step → StateM World (List Answer)
  | [] => return []
  | step :: steps => do
    let answer ← step.run
    return answer :: (← runSteps steps)

end

end DirGlob.Session
