import DirGlob.Settings.Basic
import DirGlob.World

set_option autoImplicit false

/-! # Checking settings

Settings that were given as a value are checked field by field: first the three texts, then the two
switches, then the working directory is resolved and the level looked up. A strict check fails with
the first complaint; a lenient one collects warnings and goes on with a fallback. -/

namespace DirGlob.Settings

/-- How complaints are dealt with. -/
inductive Mode where
  | strict
  | lenient
deriving Repr, DecidableEq

/-- A part of a check: it collects warnings and may end with a complaint. -/
abbrev Check (α : Type) := StateT (List Warning) (Except Complaint) α

namespace Check

/-- Adds a warning. -/
def warn (w : Warning) : Check Unit := modify (· ++ [w])

/-- Fails with a complaint, or adds a warning and goes on with a fallback. -/
def complain {α : Type} (mode : Mode) (c : Complaint) (fallback : α) : Check α :=
  match mode with
  | .strict => throw c
  | .lenient => do
    warn (.complaint c)
    return fallback

/-- Checks a text: blanks around it do not count, and a blank text counts as left out. -/
def text (mode : Mode) (field fallback : String) : Value → Check String
  | .null => return fallback
  | .text s =>
    let trimmed := Text.trim s
    return if trimmed = "" then fallback else trimmed
  | v => complain mode (.fieldKind field "str" v.kind) fallback

/-- The words that mean yes, and those that mean no. -/
def yesWords : List String := ["true", "1", "yes", "y", "on"]

@[inherit_doc yesWords]
def noWords : List String := ["false", "0", "no", "n", "off"]

/-- What a number or a word means as a switch, and the warning that it is read so. -/
def readSwitch (field : String) : Value → Option (Bool × Warning)
  | .int n =>
    if n = 0 then some (false, .fromNumber field (.int n))
    else if n = 1 then some (true, .fromNumber field (.int n))
    else none
  | .float x =>
    if x.isZero then some (false, .fromNumber field (.float x))
    else if x.isOne then some (true, .fromNumber field (.float x))
    else none
  | .text s =>
    let word := Text.lower (Text.trim s)
    if yesWords.contains word then some (true, .fromWord field s true)
    else if noWords.contains word then some (false, .fromWord field s false)
    else none
  | _ => none

/-- Checks a switch: a lenient check also reads zero, one and words. -/
def switch (mode : Mode) (field : String) (fallback : Bool) : Value → Check Bool
  | .bool b => return b
  | .null => return fallback
  | v =>
    match mode, readSwitch field v with
    | .lenient, some (on, w) => do
      warn w
      return on
    | _, _ => complain mode (.fieldKind field "bool" v.kind) fallback

/-- Checks the name of a level; its case does not matter. -/
def level (mode : Mode) (spelling : String) : Check Log.Level :=
  match Log.Level.ofName? (Text.upper spelling) with
  | some l => return l
  | none => complain mode (.unknownLevel spelling) .info

/-- Checks the entries of a dictionary, in this working directory. -/
def entries (mode : Mode) (ambient : String) (given : List (String × Value)) : Check Settings := do
  let defaults := Settings.defaults ambient
  let field (key : String) : Value :=
    (Value.get? given key).getD ((Value.get? defaults.toEntries key).getD .null)
  let cwd ← text mode "cwd" defaults.cwd (field "cwd")
  let levelName ← text mode "log_level" defaults.logLevel.name (field "log_level")
  let logFile ← text mode "log_file" defaults.logFile (field "log_file")
  let sortResults ← switch mode "sort_results" defaults.sortResults (field "sort_results")
  let jsonOutput ← switch mode "json_output" defaults.jsonOutput (field "json_output")
  return {
    cwd := WorkDir.resolveFrom ambient cwd []
    sortResults
    jsonOutput
    logLevel := ← level mode levelName
    logFile
    extra := given.filter fun e => !keys.contains e.1 }

/-- Checks a value, in this working directory. -/
def value (mode : Mode) (ambient : String) : Value → Check Settings
  | .dict given => entries mode ambient given
  | v => complain mode (.notADictionary v.kind) (Settings.defaults ambient)

end Check

/-- Settings that passed a check, and the warnings about them. -/
structure Checked where
  settings : Settings
  warnings : List Warning
deriving Repr

/-- Checks a value as settings, in this working directory. -/
def check (mode : Mode) (ambient : String) (v : Value) : Except Complaint Checked := do
  let (settings, warnings) ← (Check.value mode ambient v).run []
  return ⟨settings, warnings⟩

end Settings

namespace Action

/-- The logger of the check. -/
def settingsLogger : String := "fsglob.core.validator"

/-- Checks a value as settings in the working directory; that it is no dictionary is logged. -/
def checkSettings (mode : Settings.Mode) (v : Value) : Action Settings.Checked := do
  let checked ← ofResult ((Settings.check mode (← get).cwd v).mapError .settings)
  match v with
  | .dict _ => return checked
  | v =>
    log settingsLogger .warning (Complaint.notADictionary v.kind).text
    return checked

/-- The settings when none are given. -/
def defaultSettings : Action Settings := return .defaults (← get).cwd

end Action

end DirGlob
