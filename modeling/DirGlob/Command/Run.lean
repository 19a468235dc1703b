import DirGlob.Command.Usage
import DirGlob.Glob
import DirGlob.Raised.Basic
import DirGlob.Settings.Check
import DirGlob.Settings.Merge
import DirGlob.Text.Json

set_option autoImplicit false

/-! # Running a command line

A run reads the command line, makes settings of it, sets the log up by them, looks for the matches
and prints them. Its exit code is 0 if the matches were found (there may be none), 2 if the pattern
is malformed or its directory cannot be found, 130 if the listing was interrupted, and 1 if it
failed otherwise. A failure to print is not caught here. -/

namespace DirGlob.Command

/-- How a run ends. -/
inductive Exit where
  /-- With this code, at its end. -/
  | code (n : Nat)
  /-- With this code, right after reading the command line. -/
  | early (n : Nat)
deriving Repr, DecidableEq

/-- The order of matches that are sorted. -/
def sortTexts (texts : List String) : List String := texts.mergeSort fun a b => a ≤ b

/-- The pieces that the matches are printed in: one array, or one line for each. -/
def render (settings : Settings) (found : List String) : List String :=
  let found := if settings.sortResults then sortTexts found else found
  if settings.jsonOutput then [Text.Json.encodeList found ++ "\n"] else found.map (· ++ "\n")

/-- The logger of the command line. -/
def logger : String := "fsglob.interface.cli.app"

open DirGlob.Action in
/-- Logs a failure of the search, reports it, and answers the exit code. -/
def reportFailure (pattern : String) (f : Failure) : Action Nat := do
  match f with
  | .listing .interrupted _ =>
    log logger .warning "Interrupted by user."
    return 130
  | .directoryNotFound _ =>
    log logger .error f.message
    writeError ("ERROR: " ++ f.message ++ "\n")
    return 2
  | .badPattern _ =>
    let text := "Invalid glob pattern '" ++ pattern ++ "': " ++ f.message
    log logger .error text
    writeError ("ERROR: " ++ text ++ "\n")
    return 2
  | f =>
    log logger .critical ("Glob resolution failed: " ++ f.message ++ "\n" ++
      (Raised.ofFailure f).trace)
    writeError ("ERROR: " ++ f.message ++ "\n")
    return 1

open DirGlob.Action in
/-- Makes settings of the options and sets the log up by them. -/
def setUp (options : Options) : Action Settings := do
  let given := Settings.mergeEntries (← defaultSettings).toEntries options.overrides
  let ⟨settings, warnings⟩ ← checkSettings .lenient (.dict given)
  let setup ← ofResult (Log.Config.ofSettings settings.toValue)
  setUpLog setup false none
  for w in warnings do
    log logger .warning ("Configuration Constraint: " ++ w.text)
  return settings

open DirGlob.Action in
/-- Runs with options. -/
def runOptions (options : Options) : Action Nat := do
  let settings ← setUp options
  log logger .debug ("Resolving '" ++ options.pattern ++ "' from " ++ settings.cwd)
  match ← attempt (glob (.text options.pattern) (.text settings.cwd)) with
  | .ok found =>
    for piece in render settings found do
      write piece
    return 0
  | .error f => reportFailure options.pattern f

open DirGlob.Action in
/-- Runs a command line. -/
def run (arguments : List String) : Action Exit := do
  match parse arguments with
  | .run options => return .code (← runOptions options)
  | .help =>
    write helpText
    return .early 0
  | .refused e =>
    writeError e.report
    return .early 2

end DirGlob.Command
