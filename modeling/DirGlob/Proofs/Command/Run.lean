import DirGlob.Command.Supervisor
import DirGlob.Proofs.Command.Settings
import DirGlob.Proofs.Glob.Search
import DirGlob.Proofs.Settings.Levels
import DirGlob.Proofs.World.Reports

set_option autoImplicit false

/-! # How a run ends

A run makes settings of its options, sets the log up by them, and searches. Setting the log up can
change the tree, if log files are kept in it, and is all that can (`exists_run_setUp`). Otherwise a
run only reports up to there, whatever the options are, so that what the search comes to is the same
as if it were all that there is (`exists_run_runOptions`). That alone decides how the run ends: with
the matches on the standard output, or with a report on the error stream and a code that tells which
kind of failure it is (`exists_run_conclude`).

What is printed is one part of what stands on the standard output. The other part are records, if a
log file leads there (`Options.LogsElsewhere` says that none does). -/

namespace DirGlob

open DirGlob.Action

theorem Action.lasting_silent (text : String) : Lasting (·.hub.Silent text) :=
  ⟨fun _ _ h => h, fun _ _ _ _ h => h.take _⟩

/-- A search prints nothing, and what stands on the error stream stays there. -/
theorem Action.output_glob (pattern cwd : Value) (w : World) :
    ((glob pattern cwd).run w).2.output = w.output ∧
      w.hub.GrowsTo ((glob pattern cwd).run w).2.hub := by
  have hlasting : Lasting fun w' => w'.output = w.output ∧ w.hub.GrowsTo w'.hub :=
    ⟨fun _ _ h => h, fun _ _ _ _ h => ⟨h.1, h.2.trans (Log.Hub.growsTo_log ..)⟩⟩
  exact hlasting.keeps_glob pattern cwd w ⟨rfl, w.hub.growsTo_refl⟩

/-- What the log makes on its disk is not in the tree. -/
def World.LogsOutside (w : World) : Prop := ∀ d, w.treeWith d = w.tree

/-- Arguments that make no error fail in one of four ways. -/
theorem Failure.name_unfit (u : Unfit) :
    (unfit u).name ∈ ["ValueError", "OverflowError", "MemoryError", "TypeError"] := by
  show u.name ∈ _
  unfold Unfit.name
  split <;> simp

/-- No other failure has the name of one that a run treats in a way of its own. -/
theorem Failure.name_of_ordinary {f : Failure} (hinterrupted : ∀ d, f ≠ .listing .interrupted d)
    (hdirectory : ∀ p, f ≠ .directoryNotFound p) (hpattern : ∀ e, f ≠ .badPattern e) :
    f.name ≠ "KeyboardInterrupt" ∧ f.name ≠ "DirectoryNotFound" ∧ f.name ≠ "re.error" := by
  cases f with
  | directoryNotFound p => exact absurd rfl (hdirectory p)
  | badPattern e => exact absurd rfl (hpattern e)
  | listing fault d =>
      cases fault with
      | interrupted => exact absurd rfl (hinterrupted d)
      | _ => simp [name]
  | settings c => rcases name_settings c with h | h <;> simp [h]
  | unfit u =>
      have hname := name_unfit u
      simp only [List.mem_cons, List.not_mem_nil, or_false] at hname
      rcases hname with h | h | h | h <;> simp [h]
  | _ => simp [name]

namespace Command

/-! ## Log files -/

namespace Options

variable (o : Options)

/-- No log file of a run is the standard output: neither one that is open at its start, nor the one
    that its settings ask for. -/
structure LogsElsewhere (w : World) : Prop where
  running : w.hub.IsSilent
  asked : (o.settings w.cwd).logFile ≠ "" →
    ¬w.hub.shutdown.outlets.disk.IsOutput (o.settings w.cwd).logFile

/-- The tree that a run searches: as it is once the log is set up. -/
def searchedTree (w : World) : Tree :=
  w.treeWith (w.hub.configure (o.settings w.cwd).logSetup false none).outlets.disk

/-- The tree depends on no other options than those that the log is set up by. -/
theorem searchedTree_congr {o o' : Options} (hdebug : o.debug = o'.debug)
    (hlogFile : o.logFile = o'.logFile) (w : World) : o.searchedTree w = o'.searchedTree w := by
  rw [searchedTree, searchedTree, Settings.logSetup, Settings.logSetup, logLevel_settings,
    logLevel_settings, hdebug, logFile_settings_congr _ hlogFile]

theorem searchedTree_of_logsOutside {w : World} (h : w.LogsOutside) : o.searchedTree w = w.tree :=
  h _

variable {o}

theorem LogsElsewhere.silent_configure {w : World} (h : o.LogsElsewhere w) :
    (w.hub.configure (o.settings w.cwd).logSetup false none).Silent w.hub.logged := by
  refine h.running.toSilent.configure (fun name hname => ?_) false none
  obtain ⟨hasked, rfl⟩ := Settings.logFileName_logSetup hname
  exact h.asked hasked

end Options

/-! ## Up to the search -/

/-- Between the two worlds a run has not printed anything: what stood on the error stream stands
    there, and so does what log files had put on the standard output, and nothing else. -/
structure Options.Quiet (o : Options) (w w' : World) : Prop where
  output : w'.output = w.output
  errors : w.hub.GrowsTo w'.hub
  silent : o.LogsElsewhere w → w'.hub.Silent w.hub.logged

theorem Options.Quiet.reports {o : Options} {w w' w'' : World} (h : o.Quiet w w')
    (hreports : w'.Reports w'') : o.Quiet w w'' where
  output := hreports.output.trans h.output
  errors := h.errors.trans hreports.errors
  silent helsewhere := hreports.silent _ (h.silent helsewhere)

/-- Setting up a run makes its settings, and changes the hub and the tree. -/
theorem exists_run_setUp (o : Options) (w : World) :
    ∃ w', (setUp o).run w = (.ok (o.settings w.cwd), w') ∧
      w' = { w with tree := o.searchedTree w, hub := w'.hub, calm := w'.calm } ∧ o.Quiet w w' := by
  obtain ⟨ws, hchecked⟩ := o.exists_run_checkSettings w
  have hdefaults : defaultSettings.run w = (.ok (.defaults w.cwd), w) := rfl
  have hsetup : (ofResult (Log.Config.ofSettings (o.settings w.cwd).toValue)).run w =
      (.ok (o.settings w.cwd).logSetup, w) := by
    rw [Settings.ofSettings_toValue]
    rfl
  have hgrows := w.hub.growsTo_configure (o.settings w.cwd).logSetup false none
  obtain ⟨w₁, hconfigure, honly, hquiet⟩ : ∃ w₁,
      (setUpLog (o.settings w.cwd).logSetup false none).run w = (.ok (), w₁) ∧
        w₁ = { w with tree := o.searchedTree w, hub := w₁.hub, calm := w₁.calm } ∧ o.Quiet w w₁ :=
    ⟨_, rfl, rfl, rfl, hgrows, fun h => h.silent_configure⟩
  obtain ⟨w₂, hreports, hwarn⟩ := (onlyReports_forIn (fun warning : Warning => onlyReports_log logger
    .warning ("Configuration Constraint: " ++ warning.text)) ws).run_bind
      (fun _ => pure (o.settings w.cwd)) w₁
  refine ⟨w₂, ?_, ?_, hquiet.reports hreports⟩
  · rw [setUp, run_bind_of_ok hdefaults]
    show (checkSettings .lenient (.dict (o.entries w.cwd)) >>= _).run w = _
    rw [run_bind_of_ok hchecked, run_bind_of_ok hsetup, run_bind_of_ok hconfigure]
    exact hwarn
  · rw [hreports.only, honly]

/-! ## Once the search is over -/

/-- What a run does with what its search comes to. -/
def conclude (o : Options) (settings : Settings) : Except Failure (List String) → Action Nat
  | .ok found => do
    writeAll (render settings found)
    return 0
  | .error f => reportFailure o.pattern f

/-- The exit code that goes with a failure of the search. -/
def exitCode (f : Failure) : Nat :=
  if f.name = "KeyboardInterrupt" then 130
  else if f.name = "DirectoryNotFound" ∨ f.name = "re.error" then 2
  else 1

/-- The report of a failure of the search. -/
def failureReport (pattern : String) (f : Failure) : String :=
  if f.name = "re.error" then
    "ERROR: " ++ ("Invalid glob pattern '" ++ pattern ++ "': " ++ f.message) ++ "\n"
  else "ERROR: " ++ f.message ++ "\n"

/-- A failure is logged, and then reported unless it is an interruption. -/
theorem exists_run_reportFailure (pattern : String) (f : Failure) (w : World) :
    ∃ w', (reportFailure pattern f).run w = (.ok (exitCode f), w') ∧ w'.output = w.output ∧
      (exitCode f ≠ 130 → ∃ before,
        w'.hub.errors = w.hub.errors ++ before ++ failureReport pattern f) := by
  have hreported (level : Log.Level) (message text : String) (code : Nat) :
      ∃ w', (do log logger level message; writeError text; return code : Action Nat).run w =
        (.ok code, w') ∧ w'.output = w.output ∧
          ∃ before, w'.hub.errors = w.hub.errors ++ before ++ text := by
    obtain ⟨before, hbefore⟩ := w.hub.growsTo_log logger level.number message
    exact ⟨_, rfl, rfl, before, congrArg (· ++ text) hbefore⟩
  unfold reportFailure
  split
  · exact ⟨_, rfl, rfl, fun h => absurd rfl h⟩
  · obtain ⟨w', hrun, houtput, herrors⟩ := hreported .error _ _ 2
    exact ⟨w', hrun, houtput, fun _ => herrors⟩
  · obtain ⟨w', hrun, houtput, herrors⟩ := hreported .error _ _ 2
    exact ⟨w', hrun, houtput, fun _ => herrors⟩
  · next hinterrupted hdirectory hpattern =>
    obtain ⟨hname₁, hname₂, hname₃⟩ := Failure.name_of_ordinary hinterrupted hdirectory hpattern
    have hcode : exitCode f = 1 := by simp [exitCode, hname₁, hname₂, hname₃]
    have hreport : failureReport pattern f = "ERROR: " ++ f.message ++ "\n" := by
      simp [failureReport, hname₃]
    obtain ⟨w', hrun, houtput, herrors⟩ := hreported .critical _ _ 1
    rw [hcode, hreport]
    exact ⟨w', hrun, houtput, fun _ => herrors⟩

/-- What the search of a run comes to. -/
def Options.search (o : Options) (w : World) : Except Failure (List String) :=
  ((glob (.text o.pattern) (.text (o.settings w.cwd).cwd)).run
    { w with tree := o.searchedTree w }).1

theorem Options.search_of_logsOutside {o : Options} {w : World} (h : w.LogsOutside) :
    o.search w = ((glob (.text o.pattern) (.text (o.settings w.cwd).cwd)).run w).1 := by
  rw [search, o.searchedTree_of_logsOutside h]

/-- The search depends on the pattern, the directory and the tree, and on nothing else in the
    options. -/
theorem Options.search_congr {o o' : Options} {w : World} (hpattern : o.pattern = o'.pattern)
    (hcwd : o.cwd = o'.cwd) (htree : o.searchedTree w = o'.searchedTree w) :
    o.search w = o'.search w := by
  rw [Options.search, Options.search, hpattern, Options.cwd_settings_congr _ hcwd, htree]

/-- The hub makes no difference for what a search comes to. -/
theorem Options.result_glob_of_only {o : Options} {w w' : World}
    (h : w' = { w with tree := o.searchedTree w, hub := w'.hub, calm := w'.calm }) :
    ((glob (.text o.pattern) (.text (o.settings w.cwd).cwd)).run w').1 = o.search w := by
  rw [Options.search, result_glob_text, result_glob_text, h]
  rfl

/-- A run only reports, and then concludes from what its search comes to. -/
theorem exists_run_runOptions (o : Options) (w : World) :
    ∃ w', o.Quiet w w' ∧
      (runOptions o).run w = (conclude o (o.settings w.cwd) (o.search w)).run w' := by
  obtain ⟨w₁, hsetUp, honly, hquiet⟩ := exists_run_setUp o w
  rw [runOptions, run_bind_of_ok hsetUp]
  obtain ⟨w₂, hreports, hlog⟩ := (onlyReports_log logger .debug
    ("Resolving '" ++ o.pattern ++ "' from " ++ (o.settings w.cwd).cwd)).run_bind _ w₁
  rw [hlog, run_attempt_bind]
  have hsearch : ((glob (.text o.pattern) (.text (o.settings w.cwd).cwd)).run w₂).1 =
      o.search w :=
    Options.result_glob_of_only (by rw [hreports.only, honly])
  obtain ⟨houtput, herrors⟩ := output_glob (.text o.pattern) (.text (o.settings w.cwd).cwd) w₂
  have hsilent (text : String) (hs : w₂.hub.Silent text) :
      ((glob (.text o.pattern) (.text (o.settings w.cwd).cwd)).run w₂).2.hub.Silent text :=
    (lasting_silent text).keeps_glob _ _ w₂ hs
  have hquiet₂ : o.Quiet w w₂ := hquiet.reports hreports
  rw [hsearch]
  refine ⟨_, ⟨houtput.trans hquiet₂.output, hquiet₂.errors.trans herrors,
    fun h => hsilent _ (hquiet₂.silent h)⟩, ?_⟩
  cases o.search w <;> rfl

theorem pairwise_sortTexts (texts : List String) : (sortTexts texts).Pairwise (· ≤ ·) := by
  have htrans (a b c : String) (hab : decide (a ≤ b) = true) (hbc : decide (b ≤ c) = true) :
      decide (a ≤ c) = true :=
    decide_eq_true (String.le_trans (of_decide_eq_true hab) (of_decide_eq_true hbc))
  have htotal (a b : String) : (decide (a ≤ b) || decide (b ≤ a)) = true := by
    simpa using String.le_total a b
  exact (List.pairwise_mergeSort htrans htotal texts).imp of_decide_eq_true

/-- The codes tell the failures apart. -/
theorem exitCode_iff (f : Failure) : exitCode f ≠ 0 ∧
    (exitCode f = 1 ↔ f.name ∉ ["DirectoryNotFound", "re.error", "KeyboardInterrupt"]) ∧
    (exitCode f = 2 ↔ f.name = "DirectoryNotFound" ∨ f.name = "re.error") ∧
    (exitCode f = 130 ↔ f.name = "KeyboardInterrupt") := by
  rw [exitCode]
  by_cases hinterrupted : f.name = "KeyboardInterrupt"
  · simp [hinterrupted]
  · by_cases htwo : f.name = "DirectoryNotFound" ∨ f.name = "re.error"
    · rcases htwo with h | h <;> simp [h]
    · rw [not_or] at htwo
      simp [hinterrupted, htwo]

theorem run_of_run {arguments : List String} {o : Options} (h : parse arguments = .run o)
    {w w' : World} {result : Except Failure Nat} (hrun : (runOptions o).run w = (result, w')) :
    (run arguments).run w = (result.map .code, w') := by
  rw [run, h]
  cases result with
  | ok code => exact run_bind_of_ok hrun
  | error f => exact run_bind_of_error hrun

theorem run_eq_of_parse {arguments : List String} {o : Options} (h : parse arguments = .run o)
    (w : World) :
    (run arguments).run w = (((runOptions o).run w).1.map .code, ((runOptions o).run w).2) :=
  run_of_run h rfl

end Command

end DirGlob
