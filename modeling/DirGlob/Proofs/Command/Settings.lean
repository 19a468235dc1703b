import DirGlob.Command.Run
import DirGlob.Proofs.Settings.Merge
import DirGlob.Proofs.World.Result

set_option autoImplicit false

/-! # The settings of a run

A run makes its settings of the defaults and of what its options ask for. Each setting is what is
asked for under its key, or the default (`fieldOf_entries`), so that it depends on no other option. -/

namespace DirGlob.Command.Options

open DirGlob.Action

variable (o : Options) (ambient : String)

/-- The entries that a run makes its settings of, in this working directory. -/
def entries : List (String × Value) :=
  Settings.mergeEntries (Settings.defaults ambient).toEntries o.overrides

/-- The settings that a run makes of its options. -/
def settings : Settings := .ofEntries ambient (o.entries ambient)

theorem exists_run_checkSettings (w : World) : ∃ ws,
    (checkSettings .lenient (.dict (o.entries w.cwd))).run w = (.ok ⟨o.settings w.cwd, ws⟩, w) := by
  obtain ⟨ws, hcheck, -⟩ := Settings.exists_check_lenient w.cwd (.dict (o.entries w.cwd))
  refine ⟨ws, ?_⟩
  rw [run_checkSettings_dict, hcheck]
  rfl

/-- A setting is what the options ask for, or the default. -/
theorem fieldOf_entries {key : String} (h : key ∈ Settings.keys) :
    Settings.fieldOf ambient (o.entries ambient) key =
      (Settings.override? o.overrides key).getD
        ((Value.get? (Settings.defaults ambient).toEntries key).getD .null) := by
  rw [Settings.fieldOf, entries, Settings.get?_mergeEntries _ _ h]
  cases Settings.override? o.overrides key with
  | none => cases Value.get? (Settings.defaults ambient).toEntries key <;> rfl
  | some v => rfl

theorem override?_switches :
    Settings.override? o.overrides "sort_results" = (if o.sort then some (.bool true) else none) ∧
      Settings.override? o.overrides "json_output" =
        if o.json then some (.bool true) else none := by
  obtain ⟨pattern, cwd, sort, json, debug, logFile⟩ := o
  cases sort <;> cases json <;> cases debug <;> exact ⟨rfl, rfl⟩

theorem sortResults_settings : (o.settings ambient).sortResults = o.sort := by
  show Settings.switchOr "sort_results" false _ = _
  rw [o.fieldOf_entries ambient (by decide), o.override?_switches.1]
  cases o.sort <;> rfl

theorem jsonOutput_settings : (o.settings ambient).jsonOutput = o.json := by
  show Settings.switchOr "json_output" false _ = _
  rw [o.fieldOf_entries ambient (by decide), o.override?_switches.2]
  cases o.json <;> rfl

theorem override?_level :
    Settings.override? o.overrides "log_level" = if o.debug then some (.text "DEBUG") else none := by
  obtain ⟨pattern, cwd, sort, json, debug, logFile⟩ := o
  cases sort <;> cases json <;> cases debug <;> rfl

theorem fieldOf_level : Settings.fieldOf ambient (o.entries ambient) "log_level" =
    .text (if o.debug then Log.Level.debug else .info).name := by
  rw [fieldOf_entries _ _ (by decide), override?_level]
  cases o.debug <;> rfl

theorem logLevel_settings :
    (o.settings ambient).logLevel = if o.debug then .debug else .info := by
  have hlevel : (o.settings ambient).logLevel = Settings.levelOf (Settings.textOr
      Log.Level.info.name (Settings.fieldOf ambient (o.entries ambient) "log_level")) := by
    rw [settings, Settings.ofEntries]
  rw [hlevel, fieldOf_level]
  cases o.debug <;> decide

section

variable {o} {o' : Options}

theorem fieldOf_entries_congr {key : String} (hkey : key ∈ Settings.keys)
    (h : Value.get? o.overrides key = Value.get? o'.overrides key) :
    Settings.fieldOf ambient (o.entries ambient) key =
      Settings.fieldOf ambient (o'.entries ambient) key := by
  rw [fieldOf_entries o ambient hkey, fieldOf_entries o' ambient hkey, Settings.override?,
    Settings.override?, h]

/-- The working directory depends on no other option. -/
theorem cwd_settings_congr (h : o.cwd = o'.cwd) :
    (o.settings ambient).cwd = (o'.settings ambient).cwd := by
  have hget (o : Options) : Value.get? o.overrides "cwd" = some o.cwd.toValue := rfl
  have hfield := fieldOf_entries_congr ambient (by decide) ((hget o).trans (h ▸ (hget o').symm))
  simp only [settings, Settings.ofEntries, hfield]

/-- The log file depends on no other option. -/
theorem logFile_settings_congr (h : o.logFile = o'.logFile) :
    (o.settings ambient).logFile = (o'.settings ambient).logFile := by
  have hget (o : Options) : Value.get? o.overrides "log_file" = some o.logFile.toValue := rfl
  have hfield := fieldOf_entries_congr ambient (by decide) ((hget o).trans (h ▸ (hget o').symm))
  simp only [settings, Settings.ofEntries, hfield]

end

end DirGlob.Command.Options
