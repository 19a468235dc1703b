import DirGlob.Log.Level

set_option autoImplicit false

/-! # Settings

The settings of a run: the working directory, two switches for the output, and the level and the
file of the log. Entries under other keys are kept and mean nothing. -/

namespace DirGlob

/-- The settings of a run, and the entries under keys that mean nothing. -/
structure Settings where
  cwd : String
  sortResults : Bool
  jsonOutput : Bool
  logLevel : Log.Level
  logFile : String
  extra : List (String × Value)
deriving Repr

namespace Settings

/-- The keys that mean something, in order. -/
def keys : List String := ["cwd", "sort_results", "json_output", "log_level", "log_file"]

/-- The settings when none are given, in this working directory. -/
def defaults (cwd : String) : Settings := ⟨cwd, false, false, .info, "", []⟩

/-- The settings as the entries of a dictionary. -/
def toEntries (s : Settings) : List (String × Value) :=
  [("cwd", .text s.cwd), ("sort_results", .bool s.sortResults),
    ("json_output", .bool s.jsonOutput), ("log_level", .text s.logLevel.name),
    ("log_file", .text s.logFile)] ++ s.extra

/-- The settings as a value. -/
def toValue (s : Settings) : Value := .dict s.toEntries

end Settings

end DirGlob
