import DirGlob.Proofs.Command.Diagnostics
import DirGlob.Proofs.Settings.Directory

set_option autoImplicit false

/-! # From the command line to the settings

A command line that writes its options out, with their values behind an equals sign, and puts the
pattern behind a divider, is always read (`parse_requests`): each option is classified by itself,
and takes effect by itself, the later one of two in the place of the earlier one. So what is read
is what was asked for last, and options of different kinds can stand in any order.

The settings of such a command line are in order, whatever its values are like
(`settings_of_requests`). -/

namespace DirGlob.Command

open Settings

/-! ## The settings of options -/

namespace Options

variable (o : Options) (ambient : String)

/-- Nothing is wrong with the settings of options, if nothing is wrong with the paths. -/
theorem acceptable_entries (hcwd : FitsText (fieldOf ambient (o.entries ambient) "cwd"))
    (hlogFile : FitsText (fieldOf ambient (o.entries ambient) "log_file")) :
    Acceptable (.dict (o.entries ambient)) := by
  refine ⟨_, rfl, (fits_iff ambient _).2 ⟨hcwd, ?_, hlogFile, ?_, ?_⟩,
    mt (levelUnknown_iff ambient _).1 ?_⟩
  · exact .inl (by rw [fieldOf_level, Value.kind])
  · rw [fieldOf_entries _ _ (by decide), o.override?_switches.1]
    cases o.sort <;> exact .inl rfl
  · rw [fieldOf_entries _ _ (by decide), o.override?_switches.2]
    cases o.json <;> exact .inl rfl
  · rw [fieldOf_level]
    cases o.debug <;> decide

end Options

/-! ## Requests -/

/-- An option that a command line asks for, with its value. -/
inductive Request where
  | sort
  | json
  | debug
  | cwd (path : String)
  | logFile (path : String)
deriving Repr, DecidableEq

namespace Request

/-- The option that is asked for. -/
def flag : Request → Flag
  | sort => .sort
  | json => .json
  | debug => .debug
  | cwd _ => .cwd
  | logFile _ => .logFile

/-- The argument that asks for it. -/
def argument : Request → String
  | sort => "--sort"
  | json => "--json"
  | debug => "--debug"
  | cwd path => "--cwd=" ++ path
  | logFile path => "--log-file=" ++ path

/-- What the argument is classified as. -/
def classified : Request → Argument
  | cwd path => .assigned .cwd path
  | logFile path => .assigned .logFile path
  | r => .option r.flag

/-- The working directory that is asked for. -/
def cwd? : Request → Option String
  | cwd path => some path
  | _ => none

/-- The log file that is asked for. -/
def logFile? : Request → Option String
  | logFile path => some path
  | _ => none

/-- What was asked for last, if anything was. -/
def last? (value? : Request → Option String) (rs : List Request) : Option String :=
  (rs.filterMap value?).getLast?

/-- The paths that were asked for last, as entries of settings. -/
def paths (rs : List Request) : List (String × Value) :=
  ((last? cwd? rs).map fun path => ("cwd", .text path)).toList ++
    ((last? logFile? rs).map fun path => ("log_file", .text path)).toList

variable {r : Request} {rs rs' : List Request} {value? : Request → Option String} {path : String}

theorem cwd?_eq_some_iff : r.cwd? = some path ↔ r = .cwd path := by
  cases r <;> simp [cwd?]

theorem logFile?_eq_some_iff : r.logFile? = some path ↔ r = .logFile path := by
  cases r <;> simp [logFile?]

theorem last?_concat (value? : Request → Option String) (rs : List Request) (r : Request) :
    last? value? (rs ++ [r]) = (value? r).or (last? value? rs) := by
  rw [last?, last?, List.filterMap_append, List.getLast?_append]
  cases h : value? r <;> simp [h]

/-! ## Reading requests -/

theorem classify_argument (r : Request) : classify r.argument = .ok r.classified := by
  cases r with
  | cwd path => exact classify_assigned (show Flag.cwd.takesValue = true from rfl) path
  | logFile path => exact classify_assigned_logFile path
  | _ => rfl

/-- Requests before a divider are classified by themselves, and a text behind it is plain. -/
theorem classifyAll_requests (rs : List Request) (pattern : String) :
    classifyAll (rs.map argument ++ ["--", pattern]) =
      .ok (rs.map classified ++ [.divider, .plain pattern]) := by
  induction rs with
  | nil => rfl
  | cons r rs ih =>
      have hargument := r.classify_argument
      exact (classifyAll_cons_eq_ok_iff (ne_divider_of_classify hargument)).2
        ⟨_, _, hargument, ih, rfl⟩

/-- What a request makes of what has been taken. -/
def grant (t : Taken) : Request → Taken
  | cwd path => t.assign .cwd (.ofAssigned path)
  | logFile path => t.assign .logFile (.ofAssigned path)
  | r => t.set r.flag

theorem takeAll_requests (t : Taken) (rs : List Request) (as : List Argument) :
    takeAll t (rs.map classified ++ as) = takeAll (rs.foldl grant t) as := by
  induction rs generalizing t with
  | nil => rfl
  | cons r rs ih =>
      rw [List.foldl_cons, ← ih]
      cases r with
      | cwd path => exact takeAll_assigned t rfl path _
      | logFile path => exact takeAll_assigned t rfl path _
      | _ => exact takeAll_switch t (by decide) (by decide) _

/-- The options that requests come to, with a pattern. -/
def options (pattern : String) (rs : List Request) : Options where
  pattern
  cwd := (last? cwd? rs).elim .nothing .ofAssigned
  sort := decide (.sort ∈ rs)
  json := decide (.json ∈ rs)
  debug := decide (.debug ∈ rs)
  logFile := (last? logFile? rs).elim .nothing .ofAssigned

/-- Granting one request after the other gives what was asked for last. -/
theorem foldl_grant (rs : List Request) :
    rs.foldl grant .none = ⟨none, options "" rs, []⟩ := by
  induction rs using List.reverseRecOn with
  | nil => rfl
  | append_singleton rs r ih =>
      rw [List.foldl_concat, ih]
      cases r <;> simp [grant, Taken.set, Taken.assign, options, last?_concat, cwd?, logFile?, flag]

theorem parse_requests (rs : List Request) (pattern : String) :
    parse (rs.map argument ++ ["--", pattern]) = .run (options pattern rs) := by
  rw [parse, classifyAll_requests]
  show takeAll .none (rs.map classified ++ _) = _
  rw [takeAll_requests, foldl_grant]
  rfl

/-! ## The order of requests -/

theorem last?_filter {f : Flag} (h : ∀ r, r.flag ≠ f → value? r = none) (rs : List Request) :
    last? value? (rs.filter (·.flag = f)) = last? value? rs := by
  rw [last?, last?, List.filterMap_filter]
  congr 2
  funext r
  by_cases hr : r.flag = f <;> simp [hr, h]

/-- Only the order of requests for the same option matters. -/
theorem options_congr (h : ∀ f, rs'.filter (·.flag = f) = rs.filter (·.flag = f))
    (pattern : String) : options pattern rs' = options pattern rs := by
  have hmem (r : Request) : r ∈ rs' ↔ r ∈ rs := by
    simpa using congrArg (r ∈ ·) (h r.flag)
  have hcwd : last? cwd? rs' = last? cwd? rs := by
    rw [← last?_filter (f := .cwd) _ rs', h, last?_filter]
    all_goals rintro (_ | _ | _ | path | path) <;> simp [flag, cwd?]
  have hlogFile : last? logFile? rs' = last? logFile? rs := by
    rw [← last?_filter (f := .logFile) _ rs', h, last?_filter]
    all_goals rintro (_ | _ | _ | path | path) <;> simp [flag, logFile?]
  simp only [options, hmem, hcwd, hlogFile]

/-! ## The settings of requests -/

/-- A path that was asked for, two dashes apart, is an override. -/
theorem override?_of_elim {overrides : List (String × Value)} {key : String}
    {path? : Option String} (h : path? ≠ some "--")
    (hget : Value.get? overrides key = some (path?.elim Given.nothing Given.ofAssigned).toValue) :
    override? overrides key = path?.map .text := by
  rw [override?, hget]
  cases path? with
  | none => rfl
  | some path =>
      have hne : path ≠ "--" := fun heq => h (congrArg some heq)
      simp [Given.ofAssigned, hne, Given.toValue]

theorem get?_paths (rs : List Request) :
    Value.get? (paths rs) "cwd" = (last? cwd? rs).map .text ∧
      Value.get? (paths rs) "log_file" = (last? logFile? rs).map .text := by
  rw [paths]
  cases last? cwd? rs <;> cases last? logFile? rs <;> exact ⟨rfl, rfl⟩

theorem exists_of_last? (h : last? value? rs = some path) : ∃ r ∈ rs, value? r = some path :=
  List.mem_filterMap.1 (List.mem_of_getLast? h)

/-- The paths of the settings are looked up as if there were no other options. -/
theorem fieldOf_entries_options (hcwd : .cwd "--" ∉ rs) (hlogFile : .logFile "--" ∉ rs)
    (pattern ambient : String) :
    fieldOf ambient ((options pattern rs).entries ambient) "cwd" =
        fieldOf ambient (paths rs) "cwd" ∧
      fieldOf ambient ((options pattern rs).entries ambient) "log_file" =
        fieldOf ambient (paths rs) "log_file" := by
  obtain ⟨hgetCwd, hgetLogFile⟩ := get?_paths rs
  constructor
  · have hlast : last? cwd? rs ≠ some "--" := fun h => by
      obtain ⟨r, hr, hvalue⟩ := exists_of_last? h
      exact hcwd (cwd?_eq_some_iff.1 hvalue ▸ hr)
    rw [Options.fieldOf_entries _ _ (by decide), override?_of_elim hlast rfl, fieldOf, hgetCwd]
  · have hlast : last? logFile? rs ≠ some "--" := fun h => by
      obtain ⟨r, hr, hvalue⟩ := exists_of_last? h
      exact hlogFile (logFile?_eq_some_iff.1 hvalue ▸ hr)
    rw [Options.fieldOf_entries _ _ (by decide), override?_of_elim hlast rfl, fieldOf, hgetLogFile]

theorem fitsText_paths (rs : List Request) (ambient : String) :
    FitsText (fieldOf ambient (paths rs) "cwd") ∧
      FitsText (fieldOf ambient (paths rs) "log_file") := by
  obtain ⟨hcwd, hlogFile⟩ := get?_paths rs
  rw [fieldOf, fieldOf, hcwd, hlogFile]
  cases last? cwd? rs <;> cases last? logFile? rs <;> exact ⟨.inl rfl, .inl rfl⟩

theorem fieldOf_paths_of_ne {key : String} (hcwd : key ≠ "cwd") (hlogFile : key ≠ "log_file")
    (rs : List Request) (ambient : String) :
    fieldOf ambient (paths rs) key =
      (Value.get? (defaults ambient).toEntries key).getD .null := by
  have hnone : Value.get? (paths rs) key = none := by
    simp [paths, Value.get?, Ne.symm hcwd, Ne.symm hlogFile]
  rw [fieldOf, hnone, Option.getD_none]

theorem acceptable_paths (rs : List Request) : Acceptable (.dict (paths rs)) := by
  obtain ⟨hcwd, hlogFile⟩ := fitsText_paths rs ""
  have hlevel : fieldOf "" (paths rs) "log_level" = .text Log.Level.info.name :=
    fieldOf_paths_of_ne (by decide) (by decide) rs ""
  have hsort : fieldOf "" (paths rs) "sort_results" = .bool false :=
    fieldOf_paths_of_ne (by decide) (by decide) rs ""
  have hjson : fieldOf "" (paths rs) "json_output" = .bool false :=
    fieldOf_paths_of_ne (by decide) (by decide) rs ""
  refine ⟨_, rfl, (fits_iff "" _).2 ⟨hcwd, ?_, hlogFile, ?_, ?_⟩, mt (levelUnknown_iff "" _).1 ?_⟩
  · rw [hlevel]
    exact .inl rfl
  · rw [hsort]
    exact .inl rfl
  · rw [hjson]
    exact .inl rfl
  · rw [hlevel]
    decide

end Request

open DirGlob.Action in
/-- **What is asked for is what is set.** A command line with any options, none of whose values is
    `--`, and a pattern behind a divider is read. Nothing is wrong with its settings: the two
    switches are on if their options occur, the level is `DEBUG` if its option occurs, and the two
    paths are what a check of the last values comes to. The order of different options does not
    matter. -/
theorem settings_of_requests (pattern : String) {rs : List Request}
    (hcwd : .cwd "--" ∉ rs) (hlogFile : .logFile "--" ∉ rs) (w : World) :
    ∃ o, parse (rs.map Request.argument ++ ["--", pattern]) = .run o ∧ o.pattern = pattern ∧
      (∀ mode, ∃ (settings : Settings) (checked : Settings.Checked),
        ((checkSettings mode (.dict (mergeEntries (defaults w.cwd).toEntries o.overrides))).run
          w).1 = .ok ⟨settings, []⟩ ∧
        ((checkSettings mode (.dict (Request.paths rs))).run w).1 = .ok checked ∧
        (settings.sortResults = true ↔ .sort ∈ rs) ∧
        (settings.jsonOutput = true ↔ .json ∈ rs) ∧
        settings.logLevel = (if .debug ∈ rs then .debug else .info) ∧
        settings.cwd = checked.settings.cwd ∧ settings.logFile = checked.settings.logFile) ∧
      ∀ rs' : List Request, (∀ f, rs'.filter (·.flag = f) = rs.filter (·.flag = f)) →
        parse (rs'.map Request.argument ++ ["--", pattern]) = .run o := by
  refine ⟨_, Request.parse_requests rs pattern, rfl, fun mode => ?_, fun rs' h => ?_⟩
  · obtain ⟨hfieldCwd, hfieldLogFile⟩ :=
      Request.fieldOf_entries_options hcwd hlogFile pattern w.cwd
    obtain ⟨hfitsCwd, hfitsLogFile⟩ := Request.fitsText_paths rs w.cwd
    have hacceptable := (Request.options pattern rs).acceptable_entries w.cwd
      (hfieldCwd ▸ hfitsCwd) (hfieldLogFile ▸ hfitsLogFile)
    refine ⟨(Request.options pattern rs).settings w.cwd, _,
      result_checkSettings_of_acceptable hacceptable mode w,
      result_checkSettings_of_acceptable (Request.acceptable_paths rs) mode w, ?_, ?_, ?_, ?_, ?_⟩
    · rw [Options.sortResults_settings]
      exact decide_eq_true_iff
    · rw [Options.jsonOutput_settings]
      exact decide_eq_true_iff
    · rw [Options.logLevel_settings]
      simp [Request.options]
    · rw [Options.settings, ofEntries, hfieldCwd]
      rfl
    · rw [Options.settings, ofEntries, hfieldLogFile]
      rfl
  · rw [Request.parse_requests, Request.options_congr h]

/-- Options given twice, a value that looks like options, a value of nothing, and a pattern that
    looks like an option. -/
theorem settings_of_requests_repeated :
    let rs : List Request := [.logFile "a", .sort, .cwd " --json=x", .logFile "", .debug, .sort]
    let arguments := ["--log-file=a", "--sort", "--cwd= --json=x", "--log-file=", "--debug",
      "--sort", "--", "--help"]
    let w := World.start ⟨[]⟩ "/h" (.empty "/home") "" none
    .cwd "--" ∉ rs ∧ .logFile "--" ∉ rs ∧ rs.map Request.argument ++ ["--", "--help"] = arguments ∧
      ∃ o settings, parse arguments = .run o ∧ o.pattern = "--help" ∧
        ((Action.checkSettings .lenient (.dict (mergeEntries (defaults "/h").toEntries
          o.overrides))).run w).1 = .ok ⟨settings, []⟩ ∧
        settings.sortResults = true ∧ settings.jsonOutput = false ∧ settings.logLevel = .debug ∧
        settings.cwd = "/h/--json=x" ∧ settings.logFile = "" ∧
        parse ["--debug", "--sort", "--sort", "--cwd= --json=x", "--log-file=a", "--log-file=",
          "--", "--help"] = .run o := by
  intro rs arguments w
  have hcwd : .cwd "--" ∉ rs := by decide
  have hlogFile : .logFile "--" ∉ rs := by decide
  obtain ⟨o, hparse, hpattern, hsettings, horder⟩ :=
    settings_of_requests "--help" hcwd hlogFile w
  obtain ⟨settings, checked, hrun, hchecked, hsort, hjson, hlevel, hpath, hfile⟩ :=
    hsettings .lenient
  have hpaths : checked.settings.cwd = "/h/--json=x" ∧ checked.settings.logFile = "" := by
    rw [Action.result_checkSettings_of_acceptable (Request.acceptable_paths rs)] at hchecked
    cases hchecked
    decide
  refine ⟨hcwd, hlogFile, rfl, o, settings, hparse, hpattern, hrun, hsort.2 (by decide), ?_,
    hlevel, hpath.trans hpaths.1, hfile.trans hpaths.2, ?_⟩
  · exact Bool.eq_false_iff.2 (mt hjson.1 (by decide))
  · refine horder [.debug, .sort, .sort, .cwd " --json=x", .logFile "a", .logFile ""] ?_
    intro f
    cases f <;> decide

end DirGlob.Command
