import DirGlob.Failure
import DirGlob.Log.Level

set_option autoImplicit false

/-! # What the log is set up with

The set-up is made of values of any kind: only when the log is set up does it turn out whether they
can be used. -/

namespace DirGlob.Log

/-- What the log is set up with. -/
structure Config where
  level : Value := .text "INFO"
  console : Value := .bool true
  logFile : Value := .null
  maxBytes : Value := .int 1048576
  backupCount : Value := .int 2
deriving Repr, Inhabited

namespace Config

/-- The shown spelling of the value under a key, or `default` if it counts as false. -/
def setting (entries : List (String × Value)) (key default : String) : Except Failure String :=
  match (Value.get? entries key).filter Value.truthy with
  | some v => v.toText
  | none => .ok default

/-- The set-up that settings ask for: their level and their log file, and the console always. -/
def ofSettings : Value → Except Failure Config
  | .dict entries => do
    let level ← setting entries "log_level" "INFO"
    let logFile ← setting entries "log_file" ""
    return { level := .text level, logFile := if logFile = "" then .null else .text logFile }
  | v => .error (.noMember v.kind "get")

end Config

end DirGlob.Log
