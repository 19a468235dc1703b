import DirGlob.Log.Level

set_option autoImplicit false

/-! # Log records

A record is written in one of three forms: for the console, for the log file, and for the emergency
console, which is used when the log cannot be set up. -/

namespace DirGlob.Log

/-- A record: when and through which logger it was made, its level and its message. -/
structure Record where
  time : String
  logger : String
  level : Int
  message : String
deriving Repr, DecidableEq

namespace Record

/-- The name that a record shows for its logger; the root has no name of its own. -/
def loggerName (r : Record) : String := if r.logger = "" then "root" else r.logger

/-- The record as the console shows it. -/
def consoleLine (r : Record) : String := levelText r.level ++ " | " ++ r.message ++ "\n"

/-- The record as it stands in a log file. -/
def fileLine (r : Record) : String :=
  r.time ++ " | " ++ levelText r.level ++ " | " ++ r.loggerName ++ " | " ++ r.message ++ "\n"

/-- The record as the emergency console shows it. -/
def emergencyLine (r : Record) : String := "FALLBACK | " ++ r.consoleLine

/-- The record as it is shown when the log has no handler at all. -/
def bareLine (r : Record) : String := r.message ++ "\n"

end Record

end DirGlob.Log
