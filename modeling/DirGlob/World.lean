import DirGlob.Log.Calm
import DirGlob.Path.Operand
import DirGlob.Pattern.Cache
import DirGlob.Tree.Canonical
import DirGlob.WorkDir.Resolve
import DirGlob.WorkDir.Scope

set_option autoImplicit false

/-! # The world of an operation

What operations work on: the directory tree, the contexts with their working directories, the cache
of compiled patterns, the log and the standard output. Handlers that other owners have added to the
log raise no errors here, so that making a record never fails. An `Action` changes the world and ends
with a result or a failure; a failure keeps what was changed before it. -/

namespace DirGlob

/-- The standard output: what was written, and the text of the failure if writing fails. -/
structure Output where
  text : String
  fault : Option String
deriving Repr, DecidableEq

/-- What operations work on. -/
structure World where
  tree : Tree
  /-- What the tree is once the disk of the log is like this: what is made when the log is set up can
      be in the tree, under whatever names and in whatever order. -/
  treeWith : Log.Disk → Tree
  contexts : WorkDir.Contexts
  cache : Pattern.Cache
  hub : Log.Hub
  calm : hub.IsCalm
  output : Output

namespace World

/-- A world in which nothing has happened, with this initial working directory, where the log files
    are outside of the tree. -/
def start (tree : Tree) (initial : String) (disk : Log.Disk) (time : String)
    (outputFault : Option String) : World :=
  { tree, treeWith := fun _ => tree, contexts := .start initial, cache := .empty,
    hub := .start time disk, calm := Log.Hub.isCalm_start time disk, output := ⟨"", outputFault⟩ }

/-- The working directory of the running context. -/
def cwd (w : World) : String := w.contexts.cwd

end World

/-- An operation on the world, which may fail. -/
abbrev Action (α : Type) := ExceptT Failure (StateM World) α

namespace Action

/-- Takes a result or a failure from elsewhere. -/
def ofResult {α : Type} (result : Except Failure α) : Action α :=
  match result with
  | .ok a => pure a
  | .error f => throw f

/-- Runs an action, and turns a failure into a result. -/
def attempt {α : Type} (a : Action α) : Action (Except Failure α) :=
  ExceptT.lift (ExceptT.run a)

/-- Changes the log in a way that keeps it calm. -/
def modifyHub (f : Log.Hub → Log.Hub) (hf : ∀ {h}, h.IsCalm → (f h).IsCalm) : Action Unit :=
  modify fun w => { w with hub := f w.hub, calm := hf w.calm }

/-- Sets the log up. What is made on the disk for it is in the tree then; what the listener may move
    there later on is not looked at. -/
def setUpLog (cfg : Log.Config) (force : Bool) (broken : Option Log.Breakdown) : Action Unit :=
  modify fun w =>
    let hub := w.hub.configure cfg force broken
    { w with hub, calm := w.calm.configure cfg force broken, tree := w.treeWith hub.outlets.disk }

/-- Makes a log record. -/
def log (logger : String) (level : Log.Level) (message : String) : Action Unit :=
  modifyHub (·.log logger level.number message) fun hcalm => hcalm.log logger level.number message

/-- Writes to the error stream. -/
def writeError (text : String) : Action Unit :=
  modifyHub (·.writeError text) fun hcalm => hcalm.writeError text

/-- Writes to the standard output. -/
def write (text : String) : Action Unit := do
  match (← get).output.fault with
  | some fault => throw (.output fault)
  | none => modify fun w => { w with output := { w.output with text := w.output.text ++ text } }

/-- Compiles a pattern by way of the cache. -/
def compile (pattern : String) : Action Pattern.Matcher := do
  let w ← get
  let (result, cache) := w.cache.compile pattern
  set { w with cache }
  ofResult (result.mapError .badPattern)

/-- Resolves a path against the working directory. -/
def resolve (path : Value) (more : List Value) (cwd : Value) : Action String := do
  ofResult (WorkDir.resolve (← get).cwd path more cwd)

/-- Lists a directory. -/
def list (directory : String) : Action (List Tree.Entry) := do
  ofResult ((← get).tree.list directory)

/-! ## Scopes -/

/-- The logger of the working directory. -/
def workDirLogger : String := "fsglob.domain.cwd"

/-- Opens a scope and answers its directory. -/
def enterScope (handle : String) (path : Value) : Action String := do
  let directory ← resolve path [] .null
  modify fun w => { w with contexts := w.contexts.enter handle directory }
  log workDirLogger .debug ("Working directory overridden: " ++ directory)
  return directory

/-- Closes a scope. -/
def exitScope (handle : String) : Action Unit := do
  let w ← get
  let (contexts, result) := w.contexts.exit handle
  set { w with contexts }
  ofResult result
  if (w.contexts.scope? handle).any (!·.spent) then
    log workDirLogger .debug ("Working directory restored: " ++ contexts.cwd)

/-- Runs an action with another working directory. -/
def within {α : Type} (path : Value) (a : Action α) : Action α := do
  let directory ← resolve path [] .null
  let before := (← get).cwd
  modify fun w => { w with contexts := { w.contexts with cwd := directory } }
  log workDirLogger .debug ("Working directory overridden: " ++ directory)
  let result ← attempt a
  modify fun w => { w with contexts := { w.contexts with cwd := before } }
  log workDirLogger .debug ("Working directory restored: " ++ before)
  ofResult result

end Action

end DirGlob
