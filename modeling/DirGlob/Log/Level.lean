import DirGlob.Failure
import DirGlob.Text.Blank
import DirGlob.Text.Case

set_option autoImplicit false

/-! # Levels of the log

A record has a number for its level, and the log takes the records at or above its own. Settings
give the level by one of six names, two of which mean the same number. -/

namespace DirGlob.Log

/-- A level that settings can name. -/
inductive Level where
  | debug
  | info
  | warning
  | warn
  | error
  | critical
deriving Repr, DecidableEq, Inhabited

namespace Level

/-- All levels. -/
def all : List Level := [debug, info, warning, warn, error, critical]

/-- The name of a level. -/
def name : Level → String
  | debug => "DEBUG"
  | info => "INFO"
  | warning => "WARNING"
  | warn => "WARN"
  | error => "ERROR"
  | critical => "CRITICAL"

/-- The number of a level. -/
def number : Level → Int
  | debug => 10
  | info => 20
  | warning => 30
  | warn => 30
  | error => 40
  | critical => 50

/-- The level that has this name. -/
def ofName? (name : String) : Option Level := all.find? (·.name = name)

/-- The level that a text names, without regard to case and to blanks around it; any other text
    means `info`. -/
def ofText (s : String) : Level := (ofName? (Text.upper (Text.trim s))).getD info

/-- The level that a value names as it is shown; a value that counts as false means `info`. -/
def ofValue (v : Value) : Except Failure Level :=
  if v.truthy then v.toText.map ofText else .ok info

end Level

/-- How records show a level: by its name, or by its number if it has none. -/
def levelText (number : Int) : String :=
  match Level.all.find? (·.number = number) with
  | some l => l.name
  | none => "Level " ++ toString number

end DirGlob.Log
